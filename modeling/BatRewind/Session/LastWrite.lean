import BatRewind.Lib.Pool
import BatRewind.Session.Storing

/-!
# The last write counts

Every batch saves the whole session row by `UpsertSession`, with the share token and the device
columns at their zero values. `omitOnUpsert` lists exactly these columns, so they change by
`SetShareToken` and `SetClientMetadata` alone.

* `lastToken`, `lastDevice`: what the last accepted `SetShareToken` and `SetClientMetadata` of a
  session wrote, read off the calls made so far.
* `Sound`: a program sets the token or the device columns only of a session that exists, whatever
  the other programs do (`sound_program`).
* **`last_write_wins`**: in every interleaving of `Ingest`, `FinalizeSession` and
  `CreateShareToken`, every session row holds what was written last.
-/

namespace BatRewind

open Encoding Tables Effects Effects.Prog

/-! ## What was written last -/

/-- The browser, version, operating system and device type are those of the user agent. -/
def DeviceColumns.Derived (d : DeviceColumns) : Prop :=
  parseUserAgent d.userAgent = ⟨d.browser, d.browserVersion, d.os, d.deviceType⟩

/-- The token that a statement writes to session `id`, if any. -/
def Stmt.writtenToken (id : String) : Stmt → Option String
  | .setShareToken i token => if i = id then some token else none
  | _ => none

/-- The device columns that a statement writes to session `id`, if any. -/
def Stmt.writtenDevice (id : String) : Stmt → Option DeviceColumns
  | .setClientMetadata i d => if i = id then some d else none
  | _ => none

/-- The statement of a call that was accepted. -/
def acceptedStmt : (Σ c, Resp c) → Option Stmt
  | ⟨.sql q, .ok _⟩ => some q
  | _ => none

/-- The token written last to session `id`. -/
def lastToken (id : String) (t : Trace) : Option String :=
  t.foldl (fun last e => ((acceptedStmt e).bind (Stmt.writtenToken id)).or last) none

/-- The device columns written last to session `id`. -/
def lastDevice (id : String) (t : Trace) : Option DeviceColumns :=
  t.foldl (fun last e => ((acceptedStmt e).bind (Stmt.writtenDevice id)).or last) none

theorem lastToken_concat (id : String) (t : Trace) (e : Σ c, Resp c) :
    lastToken id (t ++ [e]) =
      ((acceptedStmt e).bind (Stmt.writtenToken id)).or (lastToken id t) :=
  List.foldl_append

theorem lastDevice_concat (id : String) (t : Trace) (e : Σ c, Resp c) :
    lastDevice id (t ++ [e]) =
      ((acceptedStmt e).bind (Stmt.writtenDevice id)).or (lastDevice id t) :=
  List.foldl_append

/-! ## Statements -/

section Statements

variable {q : Stmt} {l : List ReplaySession} {r' : ReplaySession}

/-- The statement deletes no session. -/
def Stmt.keepsSessions : Stmt → Bool
  | .deleteSession _ | .purgeSessions _ => false
  | _ => true

theorem ids_subset_updateRow {id : String} {f : ReplaySession → ReplaySession}
    (hf : ∀ r, (f r).id = r.id) :
    l.map ReplaySession.id ⊆ (updateRow id f l).map ReplaySession.id := by
  rw [updateRow, Table.map_key_modify id hf]
  exact List.Subset.refl _

/-- The sessions that exist still do after a statement that deletes none. -/
theorem Stmt.ids_subset (hq : q.keepsSessions = true) :
    l.map ReplaySession.id ⊆ (q.onSessions l).map ReplaySession.id := by
  cases q with
  | deleteSession id | purgeSessions ids => cases hq
  | insertSession s =>
    change _ ⊆ (upsertRow s l).map ReplaySession.id
    unfold upsertRow
    split_ifs with hs
    · exact ids_subset_updateRow fun _ => rfl
    · rw [List.map_append]
      exact List.subset_append_left _ _
  | updateSession s | setClientMetadata id d | incrementEventCount id n | updateSessionEnd id t d
  | setShareToken id token =>
    exact ids_subset_updateRow fun _ => rfl
  | _ => exact List.Subset.refl _

theorem mem_upsertRow (s : ReplaySession) (l : List ReplaySession) :
    s.id ∈ (upsertRow s l).map ReplaySession.id := by
  unfold upsertRow
  split_ifs with hs
  · refine ids_subset_updateRow ?_ hs
    exact fun _ => rfl
  · simp [inserted]

/-- **A row after a statement** is a row before it, with the token and the device columns that the
statement writes, or a new row without them. -/
theorem Stmt.mem_onSessions (h : r' ∈ q.onSessions l) :
    (∃ r ∈ l, r'.id = r.id ∧ r'.shareToken = (q.writtenToken r.id).or r.shareToken ∧
        r'.device = (q.writtenDevice r.id).getD r.device) ∨
      r'.id ∉ l.map ReplaySession.id ∧ r'.shareToken = none ∧ r'.device = {} ∧
        (∀ id, q.writtenToken id = none) ∧ ∀ id, q.writtenDevice id = none := by
  cases q with
  | updateSession s =>
    obtain ⟨r, hr, rfl⟩ := mem_updateRow h
    refine Or.inl ⟨r, hr, ?_⟩
    split_ifs <;> exact ⟨rfl, rfl, rfl⟩
  | insertSession s =>
    change r' ∈ upsertRow s l at h
    unfold upsertRow at h
    split_ifs at h with hs
    · obtain ⟨r, hr, rfl⟩ := mem_updateRow h
      refine Or.inl ⟨r, hr, ?_⟩
      split_ifs <;> exact ⟨rfl, rfl, rfl⟩
    · rcases List.mem_append.mp h with h | h
      · exact Or.inl ⟨r', h, rfl, rfl, rfl⟩
      · obtain rfl := List.mem_singleton.mp h
        exact Or.inr ⟨hs, rfl, rfl, fun _ => rfl, fun _ => rfl⟩
  | setClientMetadata id d =>
    obtain ⟨r, hr, rfl⟩ := mem_updateRow h
    refine Or.inl ⟨r, hr, ?_⟩
    by_cases hid : r.id = id
    · rw [if_pos hid]
      exact ⟨rfl, rfl, by rw [Stmt.writtenDevice, if_pos hid.symm]; rfl⟩
    · rw [if_neg hid]
      exact ⟨rfl, rfl, by rw [Stmt.writtenDevice, if_neg (Ne.symm hid)]; rfl⟩
  | setShareToken id token =>
    obtain ⟨r, hr, rfl⟩ := mem_updateRow h
    refine Or.inl ⟨r, hr, ?_⟩
    by_cases hid : r.id = id
    · rw [if_pos hid]
      exact ⟨rfl, by rw [Stmt.writtenToken, if_pos hid.symm]; rfl, rfl⟩
    · rw [if_neg hid]
      exact ⟨rfl, by rw [Stmt.writtenToken, if_neg (Ne.symm hid)]; rfl, rfl⟩
  | incrementEventCount id n | updateSessionEnd id t d =>
    obtain ⟨r, hr, rfl⟩ := mem_updateRow h
    refine Or.inl ⟨r, hr, ?_⟩
    split_ifs <;> exact ⟨rfl, rfl, rfl⟩
  | deleteSession id | purgeSessions ids =>
    exact Or.inl ⟨r', List.mem_of_mem_filter h, rfl, rfl, rfl⟩
  | _ => exact Or.inl ⟨r', h, rfl, rfl, rfl⟩

end Statements

/-! ## One call -/

section Step

/-- The sessions that exist are kept. -/
def SessionsKept (s s' : DB × Trace) : Prop := s.1.sessions.keys ⊆ s'.1.sessions.keys

instance : Std.Refl SessionsKept := ⟨fun _ => List.Subset.refl _⟩

instance : IsTrans (DB × Trace) SessionsKept := ⟨fun _ _ _ => List.Subset.trans⟩

/-- **The guarantee**: no session is deleted; the share token and the device columns are set only
of a session that exists, and the latter as derived from the user agent. -/
def Sets (c : Call) (s : DB × Trace) : Prop :=
  match c with
  | .sql (.setShareToken id _) => id ∈ s.1.sessions.keys
  | .sql (.setClientMetadata id d) => id ∈ s.1.sessions.keys ∧ d.Derived
  | .sql q => q.keepsSessions = true
  | _ => True

/-- **Every session row holds what was written last**, and nothing was written to a session that
does not exist. -/
structure Tracks (s : DB × Trace) : Prop where
  token : ∀ r ∈ s.1.sessions.rows, r.shareToken = lastToken r.id s.2
  device : ∀ r ∈ s.1.sessions.rows, r.device = (lastDevice r.id s.2).getD {}
  derived : ∀ r ∈ s.1.sessions.rows, r.device.Derived
  absent : ∀ id ∉ s.1.sessions.keys, lastToken id s.2 = none ∧ lastDevice id s.2 = none

variable {c : Call} {s s' : DB × Trace} {r : Resp c}

theorem Sets.keepsSessions {q : Stmt} (h : Sets (.sql q) s) : q.keepsSessions = true := by
  cases q with
  | setShareToken id token | setClientMetadata id d => rfl
  | _ => exact h

/-- What a call does to the sessions: nothing, or what its statement does. -/
theorem anyAnswer_cases {db db' : DB} (h : AnyAnswer c db db' r) :
    db'.sessions = db.sessions ∧ acceptedStmt ⟨c, r⟩ = none ∨
      ∃ q, c = .sql q ∧ db'.sessions.rows = q.onSessions db.sessions.rows ∧
        acceptedStmt ⟨c, r⟩ = some q := by
  cases c with
  | timeNow => exact Or.inl ⟨by rw [(answers_timeNow.mp h).1], rfl⟩
  | uuidNew => exact Or.inl ⟨by rw [(answers_uuidNew.mp h).1], rfl⟩
  | sql q =>
    cases r with
    | error msg => exact Or.inl ⟨by rw [Answers.refused h], rfl⟩
    | ok a =>
      obtain ⟨e, -, hrun⟩ := Answers.accepted h
      exact Or.inr ⟨q, rfl, (Stmt.run_rows hrun).1, rfl⟩

theorem Sets.kept (hG : Sets c s) (hT : AnyAnswer.traced c s s' r) : SessionsKept s s' := by
  rw [SessionsKept, Table.keys, Table.keys]
  rcases anyAnswer_cases hT.1 with ⟨hs, -⟩ | ⟨q, rfl, hrows, -⟩
  · rw [hs]
    exact List.Subset.refl _
  · rw [hrows]
    exact Stmt.ids_subset hG.keepsSessions

/-- **After a guaranteed call the sessions hold what was written last.** -/
theorem Tracks.step (h : Tracks s) (hG : Sets c s) (hT : AnyAnswer.traced c s s' r) :
    Tracks s' := by
  have hkept := hG.kept hT
  have ht := hT.2
  rcases anyAnswer_cases hT.1 with ⟨hs, hacc⟩ | ⟨q, rfl, hrows, hacc⟩
  · have htok : ∀ id, lastToken id s'.2 = lastToken id s.2 := fun id => by
      rw [ht, lastToken_concat, hacc, Option.bind_none, Option.none_or]
    have hdev : ∀ id, lastDevice id s'.2 = lastDevice id s.2 := fun id => by
      rw [ht, lastDevice_concat, hacc, Option.bind_none, Option.none_or]
    refine ⟨?_, ?_, hs ▸ h.derived, ?_⟩
    · simpa only [hs, htok] using h.token
    · simpa only [hs, hdev] using h.device
    · simpa only [hs, htok, hdev] using h.absent
  · have htok : ∀ id, lastToken id s'.2 = (q.writtenToken id).or (lastToken id s.2) := fun id => by
      rw [ht, lastToken_concat, hacc, Option.bind_some]
    have hdev : ∀ id, lastDevice id s'.2 = (q.writtenDevice id).or (lastDevice id s.2) :=
      fun id => by rw [ht, lastDevice_concat, hacc, Option.bind_some]
    refine ⟨fun r' hr' => ?_, fun r' hr' => ?_, fun r' hr' => ?_, fun id hid => ?_⟩
    · rw [hrows] at hr'
      rcases Stmt.mem_onSessions hr' with ⟨r, hr, hid, htoken, -⟩ | ⟨hid, htoken, -, hw, -⟩
      · rw [htok, hid, htoken, h.token r hr]
      · rw [htok, hw, Option.none_or, htoken, (h.absent _ hid).1]
    · rw [hrows] at hr'
      rcases Stmt.mem_onSessions hr' with ⟨r, hr, hid, -, hdevice⟩ | ⟨hid, -, hdevice, -, hw⟩
      · rw [hdev, hid, hdevice, h.device r hr]
        cases q.writtenDevice r.id <;> rfl
      · rw [hdev, hw, Option.none_or, hdevice, (h.absent _ hid).2]
        rfl
    · rw [hrows] at hr'
      rcases Stmt.mem_onSessions hr' with ⟨r, hr, -, -, hdevice⟩ | ⟨-, -, hdevice, -⟩
      · rw [hdevice]
        cases hw : q.writtenDevice r.id with
        | none => exact h.derived r hr
        | some d =>
          cases q <;> try cases hw
          simp only [Stmt.writtenDevice, Option.ite_none_right_eq_some] at hw
          exact hw.2 ▸ hG.2
      · rw [hdevice]
        rfl
    · have hold : id ∉ s.1.sessions.keys := fun hmem => hid (hkept hmem)
      rw [htok, hdev, (h.absent id hold).1, (h.absent id hold).2, Option.or_none, Option.or_none]
      cases q with
      | setShareToken i token =>
        have hne : i ≠ id := fun he => hold (he ▸ hG)
        exact ⟨if_neg hne, rfl⟩
      | setClientMetadata i d =>
        have hne : i ≠ id := fun he => hold (he ▸ hG.1)
        exact ⟨rfl, if_neg hne⟩
      | _ => exact ⟨rfl, rfl⟩

end Step

/-! ## Programs -/

section Programs

/-- Whatever the other programs do, the calls of the method keep the guarantee, and if it returns
no error then with `P`. -/
abbrev Sound {α : Type} (P : α → DB × Trace → Prop) (x : Svc α) (s : DB × Trace) : Prop :=
  Always AnyAnswer.traced SessionsKept Sets (Returns P) x.run s

variable {s : DB × Trace}

theorem sound_timeNow : Sound (fun _ _ => True) timeNow s :=
  Always.lift (always_perform fun _ _ => ⟨trivial, fun _ _ _ _ _ => trivial⟩)

theorem sound_uuidNew : Sound (fun _ _ => True) uuidNew s :=
  Always.lift (always_perform fun _ _ => ⟨trivial, fun _ _ _ _ _ => trivial⟩)

theorem sound_sql {q : Stmt} (hq : ∀ s₁, SessionsKept s s₁ → Sets (.sql q) s₁) :
    Sound (fun _ _ => True) (sql q) s :=
  always_perform fun s₁ h₁ => ⟨hq s₁ h₁, fun _ _ _ _ _ _ _ => trivial⟩

/-- After an accepted upsert the session exists. -/
theorem sound_upsertSession (row : ReplaySession) :
    Sound (fun _ s => row.id ∈ s.1.sessions.keys) (Repository.upsertSession row) s := by
  refine always_bind_except (P := fun n s => n ≠ 0 → row.id ∈ s.1.sessions.keys)
    ?_ fun affected s' h => ?_
  · refine always_perform fun s₁ _ => ⟨rfl, fun s₂ r hT s₃ h₃ n hn h0 => h₃ ?_⟩
    subst hn
    obtain ⟨e, -, hrun⟩ := Answers.accepted hT.1
    obtain ⟨-, hzero⟩ := Stmt.run_updateSession hrun
    have hmem : row.id ∈ s₁.1.sessions.keys :=
      by_contra fun hn => h0 (hzero.mpr (Table.find_eq_none.mpr hn))
    rw [Table.keys, (Stmt.run_rows hrun).1]
    exact Stmt.ids_subset rfl hmem
  · split_ifs with h0
    · refine always_perform fun s₁ _ => ⟨rfl, fun s₂ r hT s₃ h₃ a ha => h₃ ?_⟩
      subst ha
      obtain ⟨e, -, hrun⟩ := Answers.accepted hT.1
      rw [Table.keys, (Stmt.run_rows hrun).1]
      exact mem_upsertRow row _
    · exact always_pure_except fun s₁ h₁ => h₁ (h h0)

/-- The device columns that `Ingest` stores are derived from the user agent it stores. -/
theorem derived_clientColumns (m : ClientMeta Bytes) :
    (Repository.clientColumns m (parseUserAgent m.userAgent)).Derived := rfl

theorem sound_persistToken {req : IngestRequest} (h : req.sessionID ∈ s.1.sessions.keys) :
    Sound (fun _ _ => True) (Service.persistToken req) s := by
  unfold Service.persistToken
  split_ifs
  · refine Always.adapt (sound_sql fun s₁ h₁ => ?_) _
    exact h₁ h
  · exact always_pure_except fun _ _ => trivial

theorem sound_storeClient {req : IngestRequest} (h : req.sessionID ∈ s.1.sessions.keys) :
    Sound (fun _ _ => True) (Service.storeClient req) s := by
  unfold Service.storeClient
  split
  · refine Always.adapt (sound_sql fun s₁ h₁ => ?_) _
    exact ⟨h₁ h, derived_clientColumns _⟩
  · exact always_pure_except fun _ _ => trivial

theorem sound_ingest (req : IngestRequest) : Sound (fun _ _ => True) (Service.ingest req) s := by
  have hkept : ∀ c s s' r, Sets c s → AnyAnswer.traced c s s' r → SessionsKept s s' :=
    fun _ _ _ _ hG hT => hG.kept hT
  refine always_bind_except sound_timeNow fun now s₁ _ => ?_
  refine always_bind_except (Always.adapt (sound_upsertSession _) _) fun _ s₂ hid => ?_
  refine always_seq hkept (sound_persistToken hid) fun _ s₃ h₃ _ => ?_
  refine always_bind_except (sound_storeClient (h₃ hid)) fun _ s₄ _ => ?_
  refine always_bind_except sound_uuidNew fun ids s₅ _ => ?_
  refine always_bind_except (Always.adapt (sound_sql fun _ _ => ?_) _) fun _ s₆ _ => ?_
  · rfl
  · exact sound_sql fun _ _ => rfl

theorem sound_finalizeSession (id : String) :
    Sound (fun _ _ => True) (Service.finalizeSession id) s := by
  refine always_bind_except (sound_sql fun _ _ => rfl) fun sess s₁ _ => ?_
  exact always_bind_except sound_timeNow fun now s₂ _ => sound_sql fun _ _ => rfl

/-- A session that was selected exists. -/
theorem sound_getByID (id : String) :
    Sound (fun _ s => id ∈ s.1.sessions.keys) (Repository.getByID id) s := by
  refine always_perform fun s₁ _ => ⟨rfl, fun s₂ r hT s₃ h₃ a ha => h₃ ?_⟩
  subst ha
  obtain ⟨e, -, hrun⟩ := Answers.accepted hT.1
  rw [Table.keys, (Stmt.run_rows hrun).1]
  exact Stmt.run_ok_iff.mp ⟨_, hrun⟩

theorem sound_createShareToken (id : String) :
    Sound (fun _ _ => True) (Service.createShareToken id) s := by
  have hkept : ∀ c s s' r, Sets c s → AnyAnswer.traced c s s' r → SessionsKept s s' :=
    fun _ _ _ _ hG hT => hG.kept hT
  have hnew : ∀ s₁ : DB × Trace, id ∈ s₁.1.sessions.keys → Sound (fun _ _ => True) (do
      let ids ← uuidNew
      wrap "set share token: " (Repository.setShareToken id (ids 0))
      return ids 0 : Svc String) s₁ := by
    intro s₁ hid
    refine always_seq hkept sound_uuidNew fun ids s₂ h₂ _ => ?_
    refine always_bind_except (Always.adapt (sound_sql fun s₃ h₃ => ?_) _) fun _ s₄ _ => ?_
    · exact h₃ (h₂ hid)
    · exact always_pure_except fun _ _ => trivial
  refine always_bind_except (Always.adapt (sound_getByID id) _) fun sess s₁ hid => ?_
  split
  · split_ifs
    · exact always_pure_except fun _ _ => trivial
    · exact hnew s₁ hid
  · exact hnew s₁ hid

/-- The calls that write to sessions and delete none. -/
def ServiceCall.keepsSessions : ServiceCall → Bool
  | .ingest _ | .finalizeSession _ | .createShareToken _ => true
  | _ => false

theorem sound_program {c : ServiceCall} (hc : c.keepsSessions = true) :
    Always AnyAnswer.traced SessionsKept Sets (Returns fun _ _ => True) c.program s := by
  cases c with
  | ingest req => exact sound_ingest req
  | finalizeSession id => exact sound_finalizeSession id
  | createShareToken id =>
    exact always_bind_except (sound_createShareToken id) fun _ _ _ =>
      always_pure_except fun _ _ => trivial
  | _ => cases hc

end Programs

/-! ## Interleavings -/

section Interleavings

/-- Service calls side by side. -/
def servicePool (calls : List ServiceCall) : Pool ServiceCall Call Resp (Except String Unit) :=
  calls.map fun c => (c, c.program)

/-- Service calls side by side, numbered. -/
def numberedPool (calls : List ServiceCall) : Pool ℕ Call Resp (Except String Unit) :=
  calls.zipIdx.map fun c => (c.2, c.1.program)

theorem nodup_numberedPool (calls : List ServiceCall) :
    ((numberedPool calls).map Prod.fst).Nodup := by
  rw [numberedPool, List.map_map]
  change (calls.zipIdx.map Prod.snd).Nodup
  rw [List.zipIdx_map_snd]
  exact List.nodup_range'

/-- **The last write counts.** From a database without sessions, in every state of every
interleaving of `Ingest`, `FinalizeSession` and `CreateShareToken`: a session holds the share token
of the last accepted `SetShareToken` and the device columns of the last accepted
`SetClientMetadata`, and what derives from the user agent is derived from the one it holds. -/
theorem last_write_wins {calls : List ServiceCall} (hcalls : ∀ c ∈ calls, c.keepsSessions = true)
    {db₀ db : DB} (hempty : db₀.sessions.rows = []) {t : Trace}
    {ps : Pool ServiceCall Call Resp (Except String Unit)}
    (hruns : PoolRuns (fun _ => AnyAnswer.traced) (servicePool calls, (db₀, [])) (ps, (db, t)))
    {r : ReplaySession} (hr : r ∈ db.sessions.rows) :
    r.shareToken = lastToken r.id t ∧ r.device = (lastDevice r.id t).getD {} ∧
      parseUserAgent r.device.userAgent =
        ⟨r.device.browser, r.device.browserVersion, r.device.os, r.device.deviceType⟩ := by
  have hinit : Tracks (db₀, []) := by
    refine ⟨?_, ?_, ?_, fun id _ => ⟨rfl, rfl⟩⟩ <;> intro r hr <;> rw [hempty] at hr <;> cases hr
  have hsound : ∀ p ∈ servicePool calls, Always AnyAnswer.traced SessionsKept Sets
      (Returns fun _ _ => True) p.2 (db₀, []) := by
    intro p hp
    obtain ⟨c, hc, rfl⟩ := List.mem_map.mp hp
    exact sound_program (hcalls c hc)
  have hstep : ∀ (_ : ServiceCall) c s s' r, Tracks s → Sets c s → AnyAnswer.traced c s s' r →
      Tracks s' ∧ SessionsKept s s' := fun _ _ _ _ _ hJ hG hT => ⟨hJ.step hG hT, hG.kept hT⟩
  have h := (hruns.invariant (Q := fun _ => Returns fun _ _ => True) hstep hinit hsound).1
  exact ⟨h.token r hr, h.device r hr, h.derived r hr⟩

/-- Calls one after another are calls side by side. -/
theorem followCalls_pool {E S : Type} {h : E → (c : Call) → S → Option (S × Resp c)}
    {T : Handler Call Resp S} (hT : ∀ e c s s' r, h e c s = some (s', r) → T c s s' r)
    {calls : List (ServiceCall × List E)} {s s' : S} (hf : followCalls h calls s = some s')
    (done : Pool ServiceCall Call Resp (Except String Unit)) :
    ∃ ps, PoolRuns (fun _ => T) (done ++ servicePool (calls.map Prod.fst), s) (ps, s') := by
  induction calls generalizing s done with
  | nil =>
    obtain rfl := Option.some.inj hf
    exact ⟨_, Relation.ReflTransGen.refl⟩
  | cons c calls ih =>
    obtain ⟨⟨s₁, r⟩, hstep, hrest⟩ := Option.bind_eq_some_iff.mp hf
    have hfirst : PoolRuns (fun _ => T) (done ++ servicePool ((c :: calls).map Prod.fst), s)
        (done ++ (c.1, .ret r) :: servicePool (calls.map Prod.fst), s₁) :=
      (runs_follow hT hstep).pool (fun _ : ServiceCall => T) c.1 done _
    obtain ⟨ps, hps⟩ := ih hrest (done ++ [(c.1, .ret r)])
    rw [List.append_assoc] at hps
    exact ⟨ps, hfirst.trans hps⟩

/-- A batch of one event with a share token and device metadata. -/
def sharedBatch : IngestRequest :=
  { sampleBatch with
    shareToken := "shared"
    client := some ⟨1920, 1080, 1280, 720, 2, "en", "UTC", "Mozilla/5.0 Chrome/126.0"⟩ }

/-- A later batch of the session without them, and the end of the session. -/
theorem last_write_wins_later : ∃ ps db t, PoolRuns (fun _ => AnyAnswer.traced)
    (servicePool [.ingest sharedBatch, .ingest sampleBatch, .finalizeSession sampleID],
      (DB.empty, [])) (ps, (db, t)) ∧
    ∃ r ∈ db.sessions.rows, r.endedAt = some 2 ∧ r.shareToken = some "shared" ∧
      r.device.browser = "Chrome" ∧ lastToken sampleID t = some "shared" ∧
      lastDevice sampleID t = some r.device := by
  let e (now : Time) : Env := .quiet none now fun _ => sampleEventID (now == 1)
  have hrows : (followCalls execTraced [(.ingest sharedBatch, List.replicate 8 (e 0)),
      (.ingest sampleBatch, List.replicate 5 (e 1)),
      (.finalizeSession sampleID, List.replicate 3 (e 2))] (DB.empty, [])).map
        (fun s : DB × Trace => s.1.sessions.rows.map fun r =>
          (r.id, r.endedAt, r.shareToken, r.device.browser)) =
      some [(sampleID, some 2, some "shared", "Chrome")] := by decide +kernel
  obtain ⟨⟨db, t⟩, hfollow, hrows⟩ := Option.map_eq_some_iff.mp hrows
  have hcalls : ∀ e c s s' r, execTraced e c s = some (s', r) → AnyAnswer.traced c s s' r :=
    fun _ _ _ _ _ h => ⟨(execTraced_traced h).1.1, (execTraced_traced h).2⟩
  obtain ⟨ps, hruns⟩ := followCalls_pool hcalls hfollow []
  obtain ⟨r, hr, hcolumns⟩ := List.mem_map.mp (hrows ▸ List.mem_singleton_self _)
  obtain ⟨hid, hended, htoken, hbrowser⟩ : r.id = sampleID ∧ r.endedAt = some 2 ∧
      r.shareToken = some "shared" ∧ r.device.browser = "Chrome" := by
    simpa only [Prod.mk.injEq] using hcolumns
  obtain ⟨hlast, hdevice, -⟩ :=
    last_write_wins (by simp [ServiceCall.keepsSessions]) rfl hruns hr
  rw [hid] at hlast hdevice
  refine ⟨ps, db, t, hruns, r, hr, hended, htoken, hbrowser, hlast.symm.trans htoken, ?_⟩
  cases hd : lastDevice sampleID t with
  | some d => rw [hdevice, hd, Option.getD_some]
  | none =>
    rw [hdevice, hd, Option.getD_none] at hbrowser
    exact absurd hbrowser (by decide)

end Interleavings

end BatRewind
