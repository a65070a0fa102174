import BatRewind.Session.LastWrite

/-!
# Orphaned events

The SQLite connection does not enforce the foreign key of `replay_events`, and `Ingest` creates the
session and inserts its events in separate statements: a session that is removed between the two
leaves events without a session.

* `Rows`: the tables without the constraint between them; `exec_toRows`: a call does to them what
  it does to the database, as long as no statement violates the foreign key.
* `Guarded`: no session is removed while a batch of it is in hand, between its upsert and the
  insertion of its events.
* **`no_orphans`**: in every interleaving in which that holds, every event has its session.
-/

namespace BatRewind

open Encoding Tables Effects Effects.Prog

/-! ## Tables without the foreign key -/

/-- The rows of the tables. -/
structure Rows where
  sessions : List ReplaySession
  events : List ReplayEvent
  failed : List FailedIngest

/-- The rows of a database. -/
def DB.toRows (db : DB) : Rows := ⟨db.sessions.rows, db.events.rows, db.failed.rows⟩

/-- The rows after a statement accepted at time `now`. -/
def Rows.after (now : Time) (q : Stmt) (x : Rows) : Rows :=
  ⟨q.onSessions x.sessions, q.onEvents x.events, q.onFailed now x.failed⟩

/-- **What a statement answers.** The primary keys and the index of the share tokens are checked,
the foreign key of `replay_events` is not. -/
def Stmt.answer (e : Env) (x : Rows) : (q : Stmt) → Except String (Answer q)
  | .updateSession s => .ok (x.sessions.filter fun r => r.id = s.id).length
  | .insertSession _ | .setClientMetadata _ _ | .incrementEventCount _ _
  | .updateSessionEnd _ _ _ | .deleteSession _ | .purgeSessions _ | .markFailedResolved _ _ => .ok ()
  | .insertEvents es =>
    if ((x.events ++ es).map ReplayEvent.id).Nodup then .ok () else .error e.violation
  | .countSessions f => .ok (x.sessions.filter f.accepts).length
  | .findSessions f limit offset =>
    .ok ((((e.scanSessions.1 (x.sessions.filter f.accepts)).insertionSort
      fun a b => b.startedAt ≤ a.startedAt).drop offset.toNat).take limit.toNat)
  | .selectSession id =>
    match x.sessions.find? fun r => r.id = id with
    | some s => .ok s
    | none => .error errRecordNotFound
  | .setShareToken id token =>
    if (x.sessions.any fun r => r.id ≠ id && r.shareToken = some token) = false ∨
        id ∉ x.sessions.map ReplaySession.id then .ok () else .error e.violation
  | .pluckStartedBefore cutoff =>
    .ok (((e.scanSessions.1 x.sessions).filter fun r => r.startedAt < cutoff).map ReplaySession.id)
  | .selectByShareToken token =>
    match x.sessions.find? fun r => r.shareToken = some token with
    | some s => .ok s
    | none => .error errRecordNotFound
  | .selectEvents sessionID =>
    .ok ((e.scanEvents.1 (x.events.filter fun ev => ev.sessionID = sessionID)).insertionSort eventLE)
  | .insertFailed f =>
    if f.id ∉ x.failed.map FailedIngest.id then .ok () else .error e.violation
  | .listFailed onlyUnresolved =>
    .ok ((e.scanFailed.1 (x.failed.filter fun f =>
      !onlyUnresolved || !f.resolved)).insertionSort fun a b => b.createdAt ≤ a.createdAt)
  | .selectFailed id =>
    match x.failed.find? fun f => f.id = id with
    | some f => .ok f
    | none => .error errRecordNotFound

/-- **One call against the tables** without the foreign key. -/
def Rows.exec (e : Env) : (c : Call) → Rows → Rows × Resp c
  | .timeNow, x => (x, e.now)
  | .uuidNew, x => (x, e.uuid)
  | .sql q, x =>
    match e.fault with
    | some msg => (x, .error msg)
    | none =>
      match q.answer e x with
      | .ok a => (x.after e.now q, .ok a)
      | .error msg => (x, .error msg)

/-- Any statement may be refused. -/
def Unenforced : Handler Call Resp Rows := fun c x x' r => ∃ e, Rows.exec e c x = (x', r)

section Connection

variable {e : Env} {db : DB}

/-- As long as the foreign key holds, the answers are those of the database. -/
theorem Stmt.run_answer {q : Stmt}
    (hkey : ∀ es, q = .insertEvents es → ∀ ev ∈ es, ev.sessionID ∈ db.sessions.keys) :
    (q.run e db).map Prod.snd = q.answer e db.toRows := by
  cases q with
  | insertEvents es =>
    simp only [Stmt.run, Stmt.answer, dif_pos (hkey es rfl)]
    split
    next t ht =>
      have hnodup : ((db.events.rows ++ es).map ReplayEvent.id).Nodup :=
        Table.rows_of_insert ht ▸ t.nodup
      exact (if_pos hnodup).symm
    next ht =>
      have hdup : ¬ ((db.events.rows ++ es).map ReplayEvent.id).Nodup := fun hnodup => by
        rw [Table.insert_eq_some hnodup] at ht
        cases ht
      exact (if_neg hdup).symm
  | setShareToken id token =>
    simp only [Stmt.run, Stmt.answer]
    by_cases h₁ : db.tokenTaken id token = false
    · rw [dif_pos h₁]
      exact (if_pos (Or.inl h₁)).symm
    · by_cases h₂ : id ∈ db.sessions.keys
      · rw [dif_neg h₁, if_pos h₂]
        exact (if_neg (not_or.mpr ⟨h₁, not_not_intro h₂⟩)).symm
      · rw [dif_neg h₁, if_neg h₂]
        exact (if_pos (Or.inr h₂)).symm
  | insertFailed f =>
    simp only [Stmt.run, Stmt.answer]
    split
    next t ht =>
      exact (if_pos (Table.notMem_of_insert (r := { f with createdAt := e.now }) ht
        (List.mem_singleton_self _))).symm
    next ht =>
      exact (if_neg (not_not_intro
        (Table.mem_of_insert_singleton (r := { f with createdAt := e.now }) ht))).symm
  | selectSession id =>
    have hfind : (db.toRows.sessions.find? fun r => r.id = id) = db.sessions.find id := rfl
    simp only [Stmt.run, Stmt.answer, hfind]
    cases db.sessions.find id <;> rfl
  | selectFailed id =>
    have hfind : (db.toRows.failed.find? fun f => f.id = id) = db.failed.find id := rfl
    simp only [Stmt.run, Stmt.answer, hfind]
    cases db.failed.find id <;> rfl
  | selectByShareToken token =>
    have hrows : db.toRows.sessions = db.sessions.rows := rfl
    simp only [Stmt.run, Stmt.answer, hrows]
    cases db.sessions.rows.find? fun r => r.shareToken = some token <;> rfl
  | _ => rfl

/-- **As long as the foreign key holds, a call does what it does to the database.** -/
theorem exec_toRows {c : Call}
    (hkey : ∀ es, c = .sql (.insertEvents es) → ∀ ev ∈ es, ev.sessionID ∈ db.sessions.keys) :
    Rows.exec e c db.toRows = ((exec e c db).1.toRows, (exec e c db).2) := by
  cases c with
  | timeNow | uuidNew => rfl
  | sql q =>
    have hans := Stmt.run_answer (e := e) fun es hq => hkey es (congrArg Call.sql hq)
    simp only [Rows.exec, exec]
    cases e.fault with
    | some msg => rfl
    | none =>
      dsimp only
      rw [← hans]
      rcases hrun : q.run e db with msg | ⟨db', a⟩
      · rfl
      · obtain ⟨hs, he, hf⟩ := Stmt.run_rows hrun
        simp only [Except.map, DB.toRows, Rows.after, hs, he, hf]

end Connection

/-! ## Batches in hand -/

section Hands

/-- **Every event has its session.** -/
def NoOrphans (x : Rows) : Prop :=
  ∀ ev ∈ x.events, ev.sessionID ∈ x.sessions.map ReplaySession.id

/-- The session whose batch a program has in hand after a call: from the upsert of the session
until its events are sent, or until a statement is refused. -/
def handAfter (hand : Option String) : (Σ c, Resp c) → Option String
  | ⟨.sql (.updateSession s), .ok affected⟩ => if affected = (0 : ℕ) then hand else some s.id
  | ⟨.sql (.insertSession s), .ok _⟩ => some s.id
  | ⟨.sql (.insertEvents _), _⟩ => none
  | ⟨.sql _, .error _⟩ => none
  | _ => hand

/-- The statement removes the session. -/
def Stmt.Removes (id : String) : Stmt → Prop
  | .deleteSession i => i = id
  | .purgeSessions ids => id ∈ ids
  | _ => False

/-- The tables, and the batch that every program has in hand. -/
abbrev Guard := Rows × (ℕ → Option String)

/-- **No session is removed while a batch of it is in hand**; any statement may be refused. -/
def Guarded (k : ℕ) : Handler Call Resp Guard := fun c s s' r =>
  Unenforced c s.1 s'.1 r ∧ s'.2 = Function.update s.2 k (handAfter (s.2 k) ⟨c, r⟩) ∧
    ∀ q id, c = .sql q → q.Removes id → ∀ j, s.2 j ≠ some id

/-- The other programs leave what program `k` has in hand. -/
def HandKept (k : ℕ) (s s' : Guard) : Prop := s'.2 k = s.2 k

instance (k : ℕ) : Std.Refl (HandKept k) := ⟨fun _ => rfl⟩

instance (k : ℕ) : IsTrans Guard (HandKept k) := ⟨fun _ _ _ h₁ h₂ => h₂.trans h₁⟩

/-- **The guarantee**: events are inserted only of the session in hand. -/
def InHand (k : ℕ) (c : Call) (s : Guard) : Prop :=
  match c with
  | .sql (.insertEvents es) => ∀ ev ∈ es, s.2 k = some ev.sessionID
  | _ => True

/-- **The invariant**: every event has its session, and so has every batch in hand. -/
structure Attached (s : Guard) : Prop where
  events : NoOrphans s.1
  hands : ∀ j id, s.2 j = some id → id ∈ s.1.sessions.map ReplaySession.id

variable {k : ℕ} {c : Call} {s s' : Guard} {r : Resp c}

theorem unenforced_sql {q : Stmt} {x x' : Rows} {r : Except String (Answer q)}
    (h : Unenforced (.sql q) x x' r) : (∃ msg, x' = x ∧ r = .error msg) ∨
      ∃ e a, x' = x.after e.now q ∧ q.answer e x = .ok a ∧ r = .ok a := by
  obtain ⟨e, h⟩ := h
  simp only [Rows.exec] at h
  cases hf : e.fault with
  | some msg =>
    rw [hf] at h
    obtain ⟨rfl, rfl⟩ := Prod.mk.inj h
    exact Or.inl ⟨msg, rfl, rfl⟩
  | none =>
    rw [hf] at h
    rcases ha : q.answer e x with msg | a <;> rw [ha] at h <;> obtain ⟨rfl, rfl⟩ := Prod.mk.inj h
    · exact Or.inl ⟨msg, rfl, rfl⟩
    · exact Or.inr ⟨e, a, rfl, ha, rfl⟩

/-- **The exact condition**: an insertion of events leaves no orphans if and only if their sessions
exist. -/
theorem noOrphans_insertEvents_iff {x : Rows} (h : NoOrphans x) (now : Time)
    (es : List ReplayEvent) : NoOrphans (x.after now (.insertEvents es)) ↔
      ∀ ev ∈ es, ev.sessionID ∈ x.sessions.map ReplaySession.id := by
  constructor
  · intro hafter ev hev
    exact hafter ev (List.mem_append_right x.events hev)
  · intro hes ev hev
    rcases List.mem_append.mp hev with hev | hev
    · exact h ev hev
    · exact hes ev hev

/-- A session that a statement does not remove still exists. -/
theorem mem_ids_after {x : Rows} {id : String} (h : id ∈ x.sessions.map ReplaySession.id)
    (now : Time) {q : Stmt} (hq : ¬ q.Removes id) :
    id ∈ (x.after now q).sessions.map ReplaySession.id := by
  have hsub : q.keepsSessions = true → id ∈ (q.onSessions x.sessions).map ReplaySession.id :=
    fun hkeeps => Stmt.ids_subset hkeeps h
  obtain ⟨r, hr, rfl⟩ := List.mem_map.mp h
  cases q with
  | deleteSession i =>
    have hne : r.id ≠ i := fun he => hq he.symm
    exact List.mem_map_of_mem (List.mem_filter.mpr ⟨hr, by simpa using hne⟩)
  | purgeSessions ids =>
    have hne : r.id ∉ ids := hq
    exact List.mem_map_of_mem (List.mem_filter.mpr ⟨hr, by simpa using hne⟩)
  | _ => exact hsub rfl

/-- **Statements other than the insertion of events** leave no orphans: a session is removed with
its events. -/
theorem NoOrphans.after {x : Rows} (h : NoOrphans x) (now : Time) {q : Stmt}
    (hq : ∀ es, q ≠ .insertEvents es) : NoOrphans (x.after now q) := by
  intro ev hev
  cases q with
  | insertEvents es => exact absurd rfl (hq es)
  | deleteSession i =>
    obtain ⟨hmem, hne⟩ := List.mem_filter.mp hev
    exact mem_ids_after (h ev hmem) now fun he => by simp [he.symm] at hne
  | purgeSessions ids =>
    obtain ⟨hmem, hne⟩ := List.mem_filter.mp hev
    exact mem_ids_after (h ev hmem) now fun he => by
      have hin : ev.sessionID ∈ ids := he
      simp [hin] at hne
  | _ => exact mem_ids_after (h ev hev) now id

/-- What a program takes in hand exists. -/
theorem mem_ids_handAfter {x : Rows} {e : Env} {q : Stmt} {a : Answer q} (hans : q.answer e x = .ok a)
    {hand : Option String} {id : String} (h : handAfter hand ⟨.sql q, .ok a⟩ = some id) :
    hand = some id ∨ id ∈ (x.after e.now q).sessions.map ReplaySession.id := by
  cases q with
  | updateSession row =>
    simp only [handAfter] at h
    split_ifs at h with hzero
    · exact Or.inl h
    · obtain rfl := Option.some.inj h
      have hlen : (x.sessions.filter fun r => r.id = row.id).length = a := Except.ok.inj hans
      rw [← hlen, List.length_eq_zero_iff, List.filter_eq_nil_iff] at hzero
      push Not at hzero
      obtain ⟨r, hr, hid⟩ := hzero
      have hmem : row.id ∈ x.sessions.map ReplaySession.id :=
        List.mem_map.mpr ⟨r, hr, by simpa using hid⟩
      exact Or.inr (mem_ids_after hmem _ id)
  | insertSession row =>
    obtain rfl := Option.some.inj h
    exact Or.inr (mem_upsertRow row x.sessions)
  | insertEvents es => cases h
  | _ => exact Or.inl h

/-- **A guaranteed call keeps the invariant**, and the others keep what they have in hand. -/
theorem Attached.step (h : Attached s) (hG : InHand k c s) (hT : Guarded k c s s' r) :
    Attached s' ∧ ∀ j, j ≠ k → HandKept j s s' := by
  obtain ⟨hexec, hhand, hfree⟩ := hT
  have hother : ∀ j, j ≠ k → HandKept j s s' := fun j hj => by
    rw [HandKept, hhand, Function.update_of_ne hj]
  refine ⟨?_, hother⟩
  have hself : s'.2 k = handAfter (s.2 k) ⟨c, r⟩ := by rw [hhand, Function.update_self]
  cases c with
  | timeNow | uuidNew =>
    obtain ⟨e, he⟩ := hexec
    have hrows : s'.1 = s.1 := (congrArg Prod.fst he).symm
    refine ⟨hrows ▸ h.events, fun j id hj => hrows ▸ h.hands j id ?_⟩
    by_cases hk : j = k
    · subst hk
      rw [← hj, hself]
      rfl
    · rw [← hj, hother j hk]
  | sql q =>
    rcases unenforced_sql hexec with ⟨msg, hrows, rfl⟩ | ⟨e, a, hrows, hans, rfl⟩
    · refine ⟨hrows ▸ h.events, fun j id hj => hrows ▸ h.hands j id ?_⟩
      by_cases hk : j = k
      · subst hk
        rw [hself] at hj
        cases q <;> cases hj
      · rw [← hj, hother j hk]
    · constructor
      · rw [hrows]
        by_cases hq : ∃ es, q = .insertEvents es
        · obtain ⟨es, rfl⟩ := hq
          exact (noOrphans_insertEvents_iff h.events _ es).mpr fun ev hev =>
            h.hands k _ (hG ev hev)
        · exact h.events.after _ fun es hes => hq ⟨es, hes⟩
      · intro j id hj
        have hkept : s.2 j = some id → id ∈ s'.1.sessions.map ReplaySession.id := fun hold =>
          hrows ▸ mem_ids_after (h.hands j id hold) _ fun hrem => hfree q id rfl hrem j hold
        by_cases hk : j = k
        · subst hk
          rw [hself] at hj
          rcases mem_ids_handAfter hans hj with hold | hmem
          · exact hkept hold
          · exact hrows ▸ hmem
        · exact hkept (by rw [← hj, hother j hk])

end Hands

/-! ## Programs -/

section Programs

/-- Whatever the other programs do, the method inserts events only of the session in hand, and if
it returns no error then with `P`. -/
abbrev Handles (k : ℕ) {α : Type} (P : α → Guard → Prop) (x : Svc α) (s : Guard) : Prop :=
  Always (Guarded k) (HandKept k) (InHand k) (Returns P) x.run s

/-- The statement inserts no events. -/
def Call.insertsNothing : Call → Prop
  | .sql (.insertEvents _) => False
  | _ => True

/-- The statements after which a program has in hand what it had before. -/
def Stmt.keepsHand : Stmt → Bool
  | .updateSession _ | .insertSession _ | .insertEvents _ => false
  | _ => true

variable {k : ℕ} {s : Guard} {α : Type}

theorem inHand_of_insertsNothing {c : Call} (s : Guard) (h : c.insertsNothing) : InHand k c s := by
  cases c with
  | timeNow | uuidNew => trivial
  | sql q => cases q <;> trivial

theorem handles_calls {x : Svc α} (h : AllCalls (fun _ _ => True) Call.insertsNothing x.run) :
    Handles k (fun _ _ => True) x s :=
  (h.always (fun _ s hc => inHand_of_insertsNothing s hc) s).imp fun _ _ _ _ _ => trivial

theorem handles_upkeep {x : Svc α} (h : AllCalls (fun _ _ => True) Call.upkeep x.run) :
    Handles k (fun _ _ => True) x s := by
  refine handles_calls (h.mono (fun _ _ h => h) fun c hc => ?_)
  cases c with
  | timeNow | uuidNew => trivial
  | sql q => cases q <;> trivial

theorem handles_sql {q : Stmt} (hq : q.keepsHand = true) {id : String} (h : s.2 k = some id) :
    Handles k (fun _ s => s.2 k = some id) (sql q) s := by
  refine always_perform fun s₁ h₁ => ⟨?_, fun s₂ r hT s₃ h₃ a ha => ?_⟩
  · refine inHand_of_insertsNothing s₁ ?_
    cases q <;> trivial
  · subst ha
    have hself : s₂.2 k = handAfter (s₁.2 k) ⟨.sql q, .ok a⟩ := by
      rw [hT.2.1, Function.update_self]
    have hsame : handAfter (s₁.2 k) ⟨.sql q, .ok a⟩ = s₁.2 k := by
      cases q <;> first | rfl | cases hq
    rw [h₃, hself, hsame, h₁, h]

theorem handles_uuidNew {id : String} (h : s.2 k = some id) :
    Handles k (fun _ s => s.2 k = some id) uuidNew s := by
  refine Always.lift (always_perform fun s₁ h₁ => ⟨trivial, fun s₂ r hT s₃ h₃ => ?_⟩)
  rw [h₃, hT.2.1, Function.update_self, ← h, ← h₁]
  rfl

/-- After an accepted upsert the batch of the session is in hand. -/
theorem handles_upsertSession (row : ReplaySession) :
    Handles k (fun _ s => s.2 k = some row.id) (Repository.upsertSession row) s := by
  refine always_bind_except (P := fun n s => n ≠ 0 → s.2 k = some row.id)
    ?_ fun affected s' h => ?_
  · refine always_perform fun s₁ _ => ⟨trivial, fun s₂ r hT s₃ h₃ n hn h0 => ?_⟩
    subst hn
    rw [h₃, hT.2.1, Function.update_self]
    exact if_neg h0
  · split_ifs with h0
    · refine always_perform fun s₁ _ => ⟨trivial, fun s₂ r hT s₃ h₃ a ha => ?_⟩
      subst ha
      rw [h₃, hT.2.1, Function.update_self]
      rfl
    · refine always_pure_except fun s₁ h₁ => ?_
      rw [h₁, h h0]

theorem handles_persistToken {req : IngestRequest} {id : String} (h : s.2 k = some id) :
    Handles k (fun _ s => s.2 k = some id) (Service.persistToken req) s := by
  unfold Service.persistToken
  split_ifs
  · exact Always.adapt (handles_sql rfl h) _
  · exact always_pure_except fun s₁ h₁ => by rw [h₁, h]

theorem handles_storeClient {req : IngestRequest} {id : String} (h : s.2 k = some id) :
    Handles k (fun _ s => s.2 k = some id) (Service.storeClient req) s := by
  unfold Service.storeClient
  split
  · exact Always.adapt (handles_sql rfl h) _
  · exact always_pure_except fun s₁ h₁ => by rw [h₁, h]

theorem handles_ingest (req : IngestRequest) :
    Handles k (fun _ _ => True) (Service.ingest req) s := by
  refine always_bind_except (handles_upkeep (allCalls_perform trivial).lift) fun now s₁ _ => ?_
  refine always_bind_except (Always.adapt (handles_upsertSession _) _) fun _ s₂ h₂ => ?_
  refine always_bind_except (handles_persistToken h₂) fun _ s₃ h₃ => ?_
  refine always_bind_except (handles_storeClient h₃) fun _ s₄ h₄ => ?_
  refine always_bind_except (handles_uuidNew h₄) fun ids s₅ h₅ => ?_
  refine always_bind_except (P := fun _ _ => True) (Always.adapt ?_ _) fun _ s₆ _ => ?_
  · refine always_perform fun s₆ h₆ => ⟨fun ev hev => ?_, fun _ _ _ _ _ _ _ => trivial⟩
    rw [h₆, h₅, eventsOf_sessionID hev]
    rfl
  · exact handles_calls (allCalls_sql trivial)

theorem handles_retryFailed (id : String) :
    Handles k (fun _ _ => True) (Service.retryFailed id) s := by
  refine always_bind_except (Always.adapt (handles_calls (allCalls_sql ?_)) _) fun f s₁ _ => ?_
  · trivial
  refine always_bind_except (handles_calls (AllCalls.adapt (allCalls_pure _) _)) fun req s₂ _ => ?_
  refine always_bind_except (Always.adapt (handles_ingest req) _) fun _ s₃ _ => ?_
  refine handles_calls ?_
  exact (allCalls_perform trivial).lift.bind_except fun now => allCalls_sql trivial

theorem handles_retryEach (items : List FailedIngest) (succeeded : ℕ) :
    Handles k (fun _ _ => True) (Service.retryEach items succeeded) s := by
  induction items generalizing succeeded s with
  | nil => exact always_pure_except fun _ _ => trivial
  | cons f items ih =>
    refine always_bind_except (P := fun _ _ => True)
      ((handles_retryFailed f.id).imp fun _ _ _ => trivial).lift fun r s₁ _ => ?_
    cases r with
    | ok _ => exact ih _
    | error _ => exact ih _

theorem handles_program (c : ServiceCall) :
    Always (Guarded k) (HandKept k) (InHand k) (Returns fun _ _ => True) c.program s := by
  have hunit : ∀ {α : Type} {x : Svc α}, Handles k (fun _ _ => True) x s →
      Handles k (fun _ _ => True) (do let _ ← x; pure ()) s := fun hx =>
    always_bind_except hx fun _ _ _ => always_pure_except fun _ _ => trivial
  cases c with
  | ingest req => exact handles_ingest req
  | finalizeSession id => exact handles_upkeep (allCalls_finalizeSession id)
  | createShareToken id => exact hunit (handles_upkeep (allCalls_createShareToken id))
  | delete id => exact handles_calls (allCalls_sql trivial)
  | purgeOlderThan retention => exact hunit (handles_upkeep (allCalls_purgeOlderThan retention))
  | saveFailed f => exact handles_calls (allCalls_sql trivial)
  | retryFailed id => exact handles_retryFailed id
  | retryAllFailed =>
    refine hunit (always_bind_except (handles_calls (allCalls_sql ?_)) fun items s₁ _ => ?_)
    · trivial
    · exact handles_retryEach items 0

end Programs

/-! ## Interleavings -/

section Interleavings

/-- **No orphaned events.** From tables without orphans, in every state of every interleaving of
service calls in which no session is removed while a batch of it is in hand, every event has its
session. -/
theorem no_orphans {calls : List ServiceCall} {x₀ x : Rows} (h₀ : NoOrphans x₀)
    {ps : Pool ℕ Call Resp (Except String Unit)} {hand : ℕ → Option String}
    (hruns : PoolRuns Guarded (numberedPool calls, (x₀, fun _ => none)) (ps, (x, hand))) :
    NoOrphans x := by
  have hinit : Attached (x₀, fun _ => none) := ⟨h₀, fun _ _ h => by cases h⟩
  have hprog : ∀ p ∈ numberedPool calls, Always (Guarded p.1) (HandKept p.1) (InHand p.1)
      (Returns fun _ _ => True) p.2 (x₀, fun _ => none) := by
    intro p hp
    obtain ⟨c, -, rfl⟩ := List.mem_map.mp hp
    exact handles_program c.1
  have hstep : ∀ k c s s' r, Attached s → InHand k c s → Guarded k c s s' r →
      Attached s' ∧ ∀ j, j ≠ k → HandKept j s s' := fun _ _ _ _ _ h hG hT => h.step hG hT
  exact (hruns.invariant_labels (Q := fun _ => Returns fun _ _ => True) hstep
    (nodup_numberedPool calls) hinit hprog).1.events

/-- The tables with nothing in them. -/
def Rows.empty : Rows := ⟨[], [], []⟩

theorem noOrphans_empty : NoOrphans Rows.empty := fun _ h => by cases h

/-- The call removes no session. -/
def Call.removesNothing : Call → Bool
  | .sql (.deleteSession _) | .sql (.purgeSessions _) => false
  | _ => true

/-- A call that removes no session, with what it does to the hand of its program. -/
def execGuarded (k : ℕ) (e : Env) (c : Call) (s : Guard) : Option (Guard × Resp c) :=
  if c.removesNothing then
    let x := Rows.exec e c s.1
    some ((x.1, Function.update s.2 k (handAfter (s.2 k) ⟨c, x.2⟩)), x.2)
  else none

theorem execGuarded_guarded {k : ℕ} {e : Env} {c : Call} {s s' : Guard} {r : Resp c}
    (h : execGuarded k e c s = some (s', r)) : Guarded k c s s' r := by
  unfold execGuarded at h
  split_ifs at h with hc
  obtain ⟨rfl, rfl⟩ := Prod.mk.inj (Option.some.inj h)
  refine ⟨⟨e, rfl⟩, rfl, ?_⟩
  rintro q id rfl hrem
  cases q <;> first | exact hrem.elim | cases hc

/-- A session that is deleted after its batch. -/
theorem no_orphans_deleted : ∃ x hand, PoolRuns Guarded
    (numberedPool [.ingest sampleBatch, .delete sampleID], (Rows.empty, fun _ => none))
    ([(0, .ret (.ok ())), (1, .ret (.ok ()))], (x, hand)) ∧ NoOrphans x := by
  let e : Env := .quiet none 0 fun _ => sampleEventID false
  obtain ⟨x, hand, hrun, hhand⟩ : ∃ x hand, Pool.follow execGuarded
      [(0, e), (0, e), (0, e), (0, e), (0, e), (0, e)]
      (numberedPool [.ingest sampleBatch, .delete sampleID], (Rows.empty, fun _ => none)) =
      some ([(0, .ret (.ok ())), (1, (Service.delete sampleID).run)], (x, hand)) ∧
      ∀ j, hand j = none := by
    refine ⟨_, _, rfl, fun j => ?_⟩
    cases j <;> rfl
  have hingest := Pool.follow_runs (T := Guarded) (fun _ _ _ _ _ _ h => execGuarded_guarded h) hrun
  have hdelete : PoolRuns Guarded
      (numberedPool [.ingest sampleBatch, .delete sampleID], (Rows.empty, fun _ => none))
      ([(0, .ret (.ok ())), (1, .ret (.ok ()))],
        (x.after 0 (.deleteSession sampleID), Function.update hand 1 (hand 1))) := by
    refine hingest.tail ⟨(1, ⟨.sql (.deleteSession sampleID), .ok ()⟩), ?_⟩
    have hcall : Guarded 1 (.sql (.deleteSession sampleID)) (x, hand)
        (x.after 0 (.deleteSession sampleID), Function.update hand 1 (hand 1)) (.ok ()) := by
      refine ⟨⟨e, rfl⟩, rfl, fun q id _ _ j hj => ?_⟩
      cases (hhand j).symm.trans hj
    exact PoolStep.call [(0, .ret (Except.ok ()))] [] 1 _ _ _ _ _ hcall
  exact ⟨_, _, hdelete, no_orphans noOrphans_empty hdelete⟩

/-- A session that is deleted between the upsert and the insertion of the events of a batch. -/
theorem not_no_orphans : ¬ ∀ calls x₀ x ps, NoOrphans x₀ →
    PoolRuns (fun _ => Unenforced) (numberedPool calls, x₀) (ps, x) → Pool.Finished ps →
    NoOrphans x := by
  intro hall
  let e : Env := .quiet none 0 fun _ => sampleEventID false
  obtain ⟨x, hrun, hsessions, hevents⟩ : ∃ x, Pool.follow
      (fun (_ : ℕ) e c x => some (Rows.exec e c x))
      [(0, e), (0, e), (0, e), (1, e), (0, e), (0, e), (0, e)]
      (numberedPool [.ingest sampleBatch, .delete sampleID], Rows.empty) =
      some ([(0, .ret (.ok ())), (1, .ret (.ok ()))], x) ∧
      x.sessions.map ReplaySession.id = [] ∧
      x.events.map ReplayEvent.sessionID = [sampleID] := ⟨_, rfl, rfl, rfl⟩
  have hruns := Pool.follow_runs (T := fun _ => Unenforced) (fun _ e c x x' r h =>
    ⟨e, Option.some.inj h⟩) hrun
  have hno := hall _ _ x _ noOrphans_empty hruns (by simp [Pool.Finished])
  obtain ⟨ev, hev, -⟩ := List.mem_map.mp (hevents ▸ List.mem_singleton_self sampleID)
  have hmem := hno ev hev
  rw [hsessions] at hmem
  cases hmem

end Interleavings

end BatRewind
