import BatRewind.Session.LastWrite
import BatRewind.Session.PublicShare

/-!
# Issued share links

`CreateShareToken` reads the session, generates a token and writes it in separate statements, and
every batch with a `share_token` writes its own; both writes are unconditional, so an issued token
may be replaced.

* `Resolves token id db`: `GetByShareToken` returns the session `id`.
* `KeepsToken id`: no accepted `SetShareToken` replaces the token of session `id` by another one.
* **`issued_links_valid`**: in every interleaving in which that holds, every token that
  `CreateShareToken` returned resolves to the session, and all of them are the same.
-/

namespace BatRewind

open Encoding Tables Effects Effects.Prog

/-! ## Links -/

/-- A session with this id holds the token. -/
def Holds (id token : String) (db : DB) : Prop :=
  ∃ r ∈ db.sessions.rows, r.id = id ∧ r.shareToken = some token

/-- **The token resolves to session `id`**: `GetByShareToken` can be answered, and every answer is
that session. -/
def Resolves (token id : String) (db : DB) : Prop :=
  (∃ db' r, Runs Healthy (Repository.getByShareToken token).run db db' r) ∧
    ∀ db' r, Runs Healthy (Repository.getByShareToken token).run db db' r →
      ∃ s, r = .ok s ∧ s.id = id

theorem Holds.token_eq {id token token' : String} {db : DB} (h : Holds id token db)
    (h' : Holds id token' db) : token = token' := by
  obtain ⟨r, hr, hid, htok⟩ := h
  obtain ⟨r', hr', hid', htok'⟩ := h'
  have : r = r' := db.sessions.eq_of_key_eq hr hr' (hid.trans hid'.symm)
  rw [this, htok'] at htok
  exact (Option.some.inj htok).symm

theorem Holds.resolves {id token : String} {db : DB} (h : Holds id token db) :
    Resolves token id db := by
  obtain ⟨r, hr, hid, htok⟩ := h
  constructor
  · obtain ⟨e, db', a, hrun, -⟩ := healthyAt_sql (q := .selectByShareToken token) 0 db ⟨r, hr, htok⟩
    exact ⟨db', .ok a, hrun.mono fun _ _ _ _ => HealthyAt.healthy⟩
  · intro db' res hrun
    obtain ⟨hans, a, rfl⟩ := runs_perform.mp hrun
    obtain ⟨e, -, hrun⟩ := hans.accepted
    simp only [Stmt.run] at hrun
    split at hrun
    next s hs =>
      cases hrun
      refine ⟨a, rfl, ?_⟩
      have htok' : a.shareToken = some token := by simpa using List.find?_some hs
      exact (db.token_unique a (List.mem_of_find?_eq_some hs) r hr token htok' htok).trans hid
    next => cases hrun

theorem Resolves.holds {id token : String} {db : DB} (h : Resolves token id db) :
    Holds id token db := by
  obtain ⟨⟨db', res, hrun⟩, hall⟩ := h
  obtain ⟨s, rfl, hid⟩ := hall db' res hrun
  obtain ⟨e, -, hrun⟩ := (runs_perform.mp hrun).1.accepted
  simp only [Stmt.run] at hrun
  split at hrun
  next s' hs =>
    cases hrun
    exact ⟨s, List.mem_of_find?_eq_some hs, hid, by simpa using List.find?_some hs⟩
  next => cases hrun

/-! ## Calls -/

/-- **Any statement may be refused, and an accepted `SetShareToken` of session `id` is only sent
while the session has no token or this one.** -/
def KeepsToken (id : String) : Handler Call Resp DB := fun c db db' r =>
  AnyAnswer c db db' r ∧ ∀ token, acceptedStmt ⟨c, r⟩ = some (.setShareToken id token) →
    ∀ old, Holds id old db → old = token

/-- Session `id` and its token are kept. -/
def LinkKept (id : String) (db db' : DB) : Prop :=
  (id ∈ db.sessions.keys → id ∈ db'.sessions.keys) ∧
    ∀ token, Holds id token db → Holds id token db'

instance (id : String) : Std.Refl (LinkKept id) := ⟨fun _ => ⟨fun h => h, fun _ h => h⟩⟩

instance (id : String) : IsTrans DB (LinkKept id) :=
  ⟨fun _ _ _ h₁ h₂ => ⟨fun h => h₂.1 (h₁.1 h), fun t h => h₂.2 t (h₁.2 t h)⟩⟩

/-- The guarantee: no session is deleted. -/
def NoDelete (c : Call) (_ : DB) : Prop := ∀ q, c = .sql q → q.keepsSessions = true

section Step

variable {id : String} {c : Call} {db db' : DB} {r : Resp c}

/-- The row of a session after a statement that deletes none. -/
theorem exists_row_after {q : Stmt} (hq : q.keepsSessions = true)
    (hrows : db'.sessions.rows = q.onSessions db.sessions.rows) {row : ReplaySession}
    (hrow : row ∈ db.sessions.rows) :
    ∃ row' ∈ db'.sessions.rows, row'.id = row.id ∧
      row'.shareToken = (q.writtenToken row.id).or row.shareToken := by
  have hmem : row.id ∈ db'.sessions.rows.map ReplaySession.id := by
    rw [hrows]
    exact Stmt.ids_subset hq (List.mem_map_of_mem hrow)
  obtain ⟨row', hrow', hid⟩ := List.mem_map.mp hmem
  refine ⟨row', hrow', hid, ?_⟩
  rw [hrows] at hrow'
  rcases Stmt.mem_onSessions hrow' with ⟨r₀, hr₀, hid₀, htok, -⟩ | ⟨hnew, -⟩
  · rw [db.sessions.eq_of_key_eq hr₀ hrow (hid₀.symm.trans hid)] at htok
    exact htok
  · exact absurd (List.mem_map.mpr ⟨row, hrow, hid.symm⟩) hnew

theorem NoDelete.linkKept (hG : NoDelete c db) (hT : KeepsToken id c db db' r) :
    LinkKept id db db' := by
  rcases anyAnswer_cases hT.1 with ⟨hs, -⟩ | ⟨q, rfl, hrows, hacc⟩
  · unfold LinkKept Holds
    rw [hs]
    exact ⟨fun h => h, fun _ h => h⟩
  · refine ⟨fun hid => ?_, fun token hhold => ?_⟩
    · obtain ⟨row, hrow, rfl⟩ := Table.mem_keys.mp hid
      obtain ⟨row', hrow', hid', -⟩ := exists_row_after (hG q rfl) hrows hrow
      exact Table.mem_keys.mpr ⟨row', hrow', hid'⟩
    · obtain ⟨row, hrow, hid, htok⟩ := hhold
      obtain ⟨row', hrow', hid', htok'⟩ := exists_row_after (hG q rfl) hrows hrow
      refine ⟨row', hrow', hid'.trans hid, ?_⟩
      rw [htok', htok]
      cases hw : q.writtenToken row.id with
      | none => rfl
      | some token' =>
        -- the statement is a `SetShareToken` of this session, and it writes the same token
        cases q <;> try cases hw
        simp only [Stmt.writtenToken, Option.ite_none_right_eq_some] at hw
        obtain ⟨rfl, hw⟩ := hw
        rw [hT.2 _ (by rw [hacc, hid]) token ⟨row, hrow, hid, htok⟩, ← hw]
        rfl

end Step

/-! ## Programs -/

section Programs

variable {id : String} {db : DB}

/-- Whatever the others do, the method deletes no session, and if it returns no error then with
`P`. -/
abbrev Keeps {α : Type} (id : String) (P : α → DB → Prop) (x : Svc α) (db : DB) : Prop :=
  Always (KeepsToken id) (LinkKept id) NoDelete (Returns P) x.run db

theorem keeps_ingest (req : IngestRequest) : Keeps id (fun _ _ => True) (Service.ingest req) db := by
  have hcalls : AllCalls (fun _ _ => True) (fun c => ∀ q, c = .sql q → q.keepsSessions = true)
      (Service.ingest req).run := by
    refine (allCalls_ingest req).mono (fun _ _ _ => trivial) ?_
    rintro c hc q rfl
    cases q <;> first | rfl | exact hc.elim
  exact (hcalls.always (fun c db hc => hc) db).imp fun _ _ _ _ _ => trivial

/-- What `GetByID` returned is still there. -/
theorem keeps_getByID : Keeps id (fun sess db => id ∈ db.sessions.keys ∧
    ∀ token, sess.shareToken = some token → Holds id token db) (Repository.getByID id) db := by
  have hG : ∀ db, NoDelete (.sql (.selectSession id)) db := by
    rintro db q ⟨⟩
    rfl
  refine always_perform fun db₁ _ => ⟨hG db₁, fun db₂ r hT db₃ h₃ sess hr => ?_⟩
  subst hr
  obtain ⟨e, -, hrun⟩ := hT.1.accepted
  simp only [Stmt.run] at hrun
  split at hrun
  next s hs =>
    cases hrun
    obtain ⟨hmem, hid⟩ := Table.find_eq_some.mp hs
    exact ⟨h₃.1 (Table.mem_keys.mpr ⟨_, hmem, hid⟩),
      fun token htok => h₃.2 token ⟨_, hmem, hid, htok⟩⟩
  next => cases hrun

theorem keeps_uuidNew : Keeps id (fun _ _ => True) uuidNew db := by
  refine Always.lift (always_perform fun db₁ _ => ⟨?_, fun _ _ _ _ _ => trivial⟩)
  rintro q ⟨⟩

/-- A session that exists holds the token after an accepted `SetShareToken`. -/
theorem keeps_setShareToken (token : String) (hid : id ∈ db.sessions.keys) :
    Keeps id (fun _ db => Holds id token db) (Repository.setShareToken id token) db := by
  have hG : ∀ db, NoDelete (.sql (.setShareToken id token)) db := by
    rintro db q ⟨⟩
    rfl
  refine always_perform fun db₁ h₁ => ⟨hG db₁, fun db₂ r hT db₃ h₃ a hr => h₃.2 token ?_⟩
  subst hr
  obtain ⟨e, -, hrun⟩ := hT.1.accepted
  obtain ⟨row, hrow, hrid⟩ := Table.mem_keys.mp (h₁.1 hid)
  obtain ⟨row', hrow', hid', htok⟩ := exists_row_after rfl (Stmt.run_rows hrun).1 hrow
  refine ⟨row', hrow', hid'.trans hrid, ?_⟩
  rw [htok, Stmt.writtenToken, if_pos hrid.symm]
  rfl

/-- **The token that `CreateShareToken` returns is held by the session.** -/
theorem keeps_createShareToken :
    Keeps id (fun token db => Holds id token db) (Service.createShareToken id) db := by
  have hkept : ∀ c db db' r, NoDelete c db → KeepsToken id c db db' r → LinkKept id db db' :=
    fun _ _ _ _ hG hT => hG.linkKept hT
  have hnew : ∀ db₁ : DB, id ∈ db₁.sessions.keys → Keeps id (fun token db => Holds id token db) (do
      let ids ← uuidNew
      wrap "set share token: " (Repository.setShareToken id (ids 0))
      return ids 0 : Svc String) db₁ := by
    intro db₁ hid
    refine always_seq hkept keeps_uuidNew fun ids db₂ h₂ _ => ?_
    refine always_bind_except (Always.adapt (keeps_setShareToken _ (h₂.1 hid)) _)
      fun _ db₃ hhold => ?_
    exact always_pure_except fun db₄ h₄ => h₄.2 _ hhold
  refine always_bind_except (Always.adapt keeps_getByID _) fun sess db₁ hsess => ?_
  obtain ⟨hid, hhold⟩ := hsess
  split
  next token htok =>
    split_ifs
    · exact always_pure_except fun db₂ h₂ => h₂.2 _ (hhold token htok)
    · exact hnew db₁ hid
  next => exact hnew db₁ hid

end Programs

/-! ## Interleavings -/

/-- A call of `CreateShareToken` for the session, or of `Ingest`. -/
inductive ShareCall where
  | createShareToken
  | ingest (req : IngestRequest)

/-- The program of a call; the result of `CreateShareToken` is its token. -/
def ShareCall.program (id : String) : ShareCall → Prog Call Resp (Except String (Option String))
  | .createShareToken => (do let token ← Service.createShareToken id; return some token).run
  | .ingest req => (do Service.ingest req; return none).run

/-- The calls, side by side. -/
def sharePool (id : String) (calls : List ShareCall) :
    Pool ShareCall Call Resp (Except String (Option String)) :=
  calls.map fun c => (c, c.program id)

/-- The tokens that calls have returned. -/
def Issued (ps : Pool ShareCall Call Resp (Except String (Option String))) (token : String) : Prop :=
  ∃ c, (c, .ret (.ok (some token))) ∈ ps

/-- **Issued links stay valid** in every interleaving in which no accepted `SetShareToken` replaces
the token of the session by another one. -/
theorem issued_links_valid {id : String} {calls : List ShareCall} {db₀ db : DB}
    {ps : Pool ShareCall Call Resp (Except String (Option String))}
    (hruns : PoolRuns (fun _ => KeepsToken id) (sharePool id calls, db₀) (ps, db)) :
    (∀ token, Issued ps token → Resolves token id db) ∧
      ∀ token token', Issued ps token → Issued ps token' → token = token' := by
  have hprog : ∀ p ∈ sharePool id calls, Always (KeepsToken id) (LinkKept id) NoDelete
      (Returns fun issued db => ∀ token, issued = some token → Holds id token db) p.2 db₀ := by
    intro p hp
    obtain ⟨c, -, rfl⟩ := List.mem_map.mp hp
    cases c with
    | createShareToken =>
      refine always_bind_except keeps_createShareToken fun token db₁ hhold => ?_
      refine always_pure_except fun db₂ h₂ token' htok => ?_
      obtain rfl := Option.some.inj htok
      exact h₂.2 token hhold
    | ingest req =>
      refine always_bind_except (keeps_ingest req) fun _ db₁ _ => ?_
      exact always_pure_except fun _ _ _ h => by cases h
  have hstep : ∀ (_ : ShareCall) c db db' r, True → NoDelete c db → KeepsToken id c db db' r →
      True ∧ LinkKept id db db' := fun _ _ _ _ _ _ hG hT => ⟨trivial, hG.linkKept hT⟩
  have hend := (hruns.invariant (J := fun _ => True) (Q := fun _ => Returns fun issued db =>
    ∀ token, issued = some token → Holds id token db) hstep trivial hprog).2
  have hhold : ∀ token, Issued ps token → Holds id token db := by
    rintro token ⟨c, hc⟩
    exact hend _ hc db (Std.Refl.refl db) _ rfl token rfl
  exact ⟨fun token h => (hhold token h).resolves,
    fun token token' h h' => (hhold token h).token_eq (hhold token' h')⟩

/-! ## Samples -/

section Samples

/-- A database with the session of a batch. -/
def sampleDB : DB :=
  ((Service.ingest sampleBatch).run.eval (exec (.quiet none 0 fun _ => sampleEventID false))
    DB.empty).1

theorem sampleDB_runs : ServiceRuns AnyAnswer [.ingest sampleBatch] DB.empty sampleDB :=
  ⟨_, _, runs_eval (fun _ _ => ⟨_, trivial, rfl⟩) _ _, rfl⟩

/-- No call replaces the token of session `id` by another one. -/
def sameToken (id : String) (db : DB) : Call → Bool
  | .sql (.setShareToken i token) =>
    i ≠ id || db.sessions.rows.all fun r => r.id ≠ id || r.shareToken.all fun t => t = token
  | _ => true

theorem keepsToken_exec {id : String} {e : Env} {c : Call} {db : DB} (h : sameToken id db c = true) :
    KeepsToken id c db (exec e c db).1 (exec e c db).2 := by
  refine ⟨⟨e, trivial, rfl⟩, fun token hacc old hold => ?_⟩
  obtain ⟨row, hrow, hid, htok⟩ := hold
  have hc : c = .sql (.setShareToken id token) := by
    unfold acceptedStmt at hacc
    split at hacc
    next q a heq =>
      obtain rfl := Option.some.inj hacc
      exact congrArg Sigma.fst heq
    next => cases hacc
  subst hc
  simp only [sameToken, ne_eq, not_true_eq_false, decide_false, Bool.false_or,
    List.all_eq_true] at h
  have hsame := h row hrow
  simpa [hid, htok] using hsame

/-- Two calls one after the other return the same token. -/
theorem issued_links_valid_twice : ∃ db ps, PoolRuns (fun _ => KeepsToken sampleID)
    (sharePool sampleID [.createShareToken, .createShareToken], sampleDB) (ps, db) ∧
    ps.map Prod.snd = [.ret (.ok (some (sampleEventID true))),
      .ret (.ok (some (sampleEventID true)))] ∧
    Resolves (sampleEventID true) sampleID db := by
  let e : Env := .quiet none 0 fun _ => sampleEventID true
  obtain ⟨db, hrun⟩ : ∃ db, Pool.follow (fun (_ : ShareCall) e c db =>
      if sameToken sampleID db c then some (exec e c db) else none)
      [(0, e), (0, e), (0, e), (1, e)]
      (sharePool sampleID [.createShareToken, .createShareToken], sampleDB) =
      some ([(.createShareToken, .ret (.ok (some (sampleEventID true)))),
        (.createShareToken, .ret (.ok (some (sampleEventID true))))], db) := ⟨_, rfl⟩
  have hruns := Pool.follow_runs (T := fun _ => KeepsToken sampleID) (fun _ e c db db' r hr => by
    split_ifs at hr with hsame
    obtain ⟨rfl, rfl⟩ := Prod.mk.inj (Option.some.inj hr)
    exact keepsToken_exec hsame) hrun
  exact ⟨db, _, hruns, rfl,
    (issued_links_valid hruns).1 _ ⟨.createShareToken, List.mem_cons_self⟩⟩

/-- Two calls that both read the session before either writes its token return two tokens, and the
first one resolves to nothing. -/
theorem not_issued_links_valid : ¬ ∀ id calls before db₀ db ps,
    (∀ req, .ingest req ∈ calls → req.sessionID = id) →
    ServiceRuns AnyAnswer before DB.empty db₀ →
    PoolRuns (fun _ => AnyAnswer) (sharePool id calls, db₀) (ps, db) → Pool.Finished ps →
    ∀ token, Issued ps token → Resolves token id db := by
  intro hall
  let e : Bool → Env := fun b => .quiet none 0 fun _ => sampleEventID b
  obtain ⟨db, hrun, hrows⟩ : ∃ db, Pool.follow (fun (_ : ShareCall) e c db => some (exec e c db))
      [(0, e false), (1, e true), (0, e false), (0, e false), (1, e true), (1, e true)]
      (sharePool sampleID [.createShareToken, .createShareToken], sampleDB) =
      some ([(.createShareToken, .ret (.ok (some (sampleEventID false)))),
        (.createShareToken, .ret (.ok (some (sampleEventID true))))], db) ∧
      db.sessions.rows.map ReplaySession.shareToken = [some (sampleEventID true)] := ⟨_, rfl, rfl⟩
  have hruns := Pool.follow_runs (T := fun _ => AnyAnswer) (fun _ e c db db' r hr =>
    ⟨e, trivial, Option.some.inj hr⟩) hrun
  have hres := hall sampleID _ _ _ db _ (by simp) sampleDB_runs hruns
    (by simp [Pool.Finished]) (sampleEventID false) ⟨.createShareToken, List.mem_cons_self⟩
  obtain ⟨row, hrow, -, htok⟩ := hres.holds
  have hmem : some (sampleEventID false) ∈ db.sessions.rows.map ReplaySession.shareToken :=
    htok ▸ List.mem_map_of_mem hrow
  rw [hrows] at hmem
  exact absurd hmem (by decide)

end Samples

end BatRewind
