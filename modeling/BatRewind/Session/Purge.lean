import BatRewind.Lib.JsonText
import BatRewind.Lib.Transaction
import BatRewind.Session.Database

/-!
# The retention purge, statement by statement

`Repository.PurgeOlderThan` selects the ids of the old sessions and deletes their events and then
the sessions themselves in one transaction. Both `DELETE`s bind every id as a parameter of its own,
and a statement takes at most `P` parameters.

* `purgeOlderThan`: the statements; `healthy P`: a database that refuses a statement with more than
  `P` parameters only; `faulty P`: one that may refuse any.
* `deleteEvents_deleteRows`: what is committed is what the one statement `Stmt.purgeSessions` does.
* `purgeOlderThan_cases`: the old sessions are deleted as a whole, or a statement failed and nothing
  changed.
* **`purge_exact_iff`**: the purge succeeds exactly if there are at most `P` old sessions;
  `purge_too_many`: a database that is not purged.
-/

namespace BatRewind

open Encoding Tables Transactions Effects Effects.Prog

/-- Delete the events of the sessions with an id satisfying `p`. -/
def DB.deleteEvents (db : DB) (p : String → Bool) : DB where
  sessions := db.sessions
  events := db.events.delete fun ev => p ev.sessionID
  failed := db.failed
  token_unique := db.token_unique
  session_exists := fun ev hev => db.session_exists ev (List.mem_of_mem_filter hev)

/-- The events of deleted sessions are deleted with them. -/
theorem deleteEvents_deleteRows (db : DB) (p : String → Bool) :
    (db.deleteEvents p).deleteRows p = db.deleteRows p := by
  refine DB.ext rfl (Table.ext ?_) rfl
  simp [DB.deleteEvents, DB.deleteRows]

/-- **Both `DELETE`s together** are the one statement of the repository's model. -/
theorem run_purgeSessions (e : Env) (db : DB) (ids : List String) :
    Stmt.run e (.purgeSessions ids) db =
      .ok ((db.deleteEvents fun x => ids.contains x).deleteRows fun x => ids.contains x, ()) := by
  rw [deleteEvents_deleteRows]
  rfl

namespace Purge

/-! ## Statements -/

/-- The statements of the purge. -/
inductive PurgeStmt where
  | pluckStartedBefore (cutoff : Time)
  | deleteEvents (ids : List String)
  | deleteSessions (ids : List String)

@[reducible] def PurgeAnswer : PurgeStmt → Type
  | .pluckStartedBefore _ => List String
  | _ => Unit

/-- The bound parameters of a call. A list of ids is bound one by one. -/
def params : Call PurgeStmt → ℕ
  | .exec (.pluckStartedBefore _) => 1
  | .exec (.deleteEvents ids) => ids.length
  | .exec (.deleteSessions ids) => ids.length
  | _ => 0

/-- The sessions started before `cutoff`. -/
def oldSessions (db : DB) (cutoff : Time) : List ReplaySession :=
  db.sessions.rows.filter fun r => r.startedAt < cutoff

/-- **What a statement does.** Deleting a session cascades to its events. -/
def effect : (q : PurgeStmt) → DB → DB → PurgeAnswer q → Prop
  | .pluckStartedBefore cutoff, db, db', ids =>
    db' = db ∧ ids.Perm ((oldSessions db cutoff).map ReplaySession.id)
  | .deleteEvents ids, db, db', _ => db' = db.deleteEvents fun x => ids.contains x
  | .deleteSessions ids, db, db', _ => db' = db.deleteRows fun x => ids.contains x

/-- A database that refuses a statement only if it has too many parameters. -/
def healthy (P : ℕ) : Handler (Call PurgeStmt) (Resp PurgeAnswer) (Conn DB) :=
  handler effect (fun q => params q ≤ P) fun q => P < params q

/-- A database that may refuse any statement. -/
def faulty (P : ℕ) : Handler (Call PurgeStmt) (Resp PurgeAnswer) (Conn DB) :=
  handler effect (fun q => params q ≤ P) fun _ => True

/-- The function that runs in the transaction. -/
def deleteAll (ids : List String) :
    Prog (Call PurgeStmt) (Resp PurgeAnswer) (Except String Unit) := do
  match ← perform (R := Resp PurgeAnswer) (.exec (.deleteEvents ids)) with
  | .error e => pure (.error e)
  | .ok () => perform (R := Resp PurgeAnswer) (.exec (.deleteSessions ids))

/-- **Delete the sessions started before `cutoff`, and their events.** -/
def purgeOlderThan (cutoff : Time) :
    Prog (Call PurgeStmt) (Resp PurgeAnswer) (Except String ℕ) := do
  match ← perform (R := Resp PurgeAnswer) (.exec (.pluckStartedBefore cutoff)) with
  | .error e => pure (.error e)
  | .ok ids =>
    if ids.length = 0 then pure (.ok 0)
    else
      match ← transaction (deleteAll ids) with
      | .error e => pure (.error e)
      | .ok () => pure (.ok ids.length)

/-- **An exact purge**: the old sessions and their events are gone, and nothing else. -/
structure Purged (cutoff : Time) (db db' : DB) : Prop where
  sessions : db'.sessions.rows = db.sessions.rows.filter fun r => cutoff ≤ r.startedAt
  events : db'.events.rows = db.events.rows.filter fun ev =>
    ∀ r ∈ db.sessions.rows, r.id = ev.sessionID → cutoff ≤ r.startedAt
  failed : db'.failed = db.failed

/-- Deleting by the ids of the old sessions is an exact purge. -/
theorem purged_deleteRows {db : DB} {cutoff : Time} {ids : List String}
    (hids : ids.Perm ((oldSessions db cutoff).map ReplaySession.id)) :
    Purged cutoff db (db.deleteRows fun x => ids.contains x) := by
  have hmem : ∀ r ∈ db.sessions.rows, (r.id ∈ ids ↔ r.startedAt < cutoff) := by
    intro r hr
    rw [hids.mem_iff, List.mem_map]
    constructor
    · rintro ⟨r', hr', hid⟩
      obtain ⟨hr', hold⟩ := List.mem_filter.mp hr'
      rw [← db.sessions.eq_of_key_eq hr' hr hid]
      exact of_decide_eq_true hold
    · intro hold
      exact ⟨r, List.mem_filter.mpr ⟨hr, decide_eq_true hold⟩, rfl⟩
  refine ⟨List.filter_congr fun r hr => ?_, List.filter_congr fun ev hev => ?_, rfl⟩
  · by_cases hold : r.startedAt < cutoff
    · simp [(hmem r hr).mpr hold, hold]
    · simp [mt (hmem r hr).mp hold, not_lt.mp hold]
  · obtain ⟨r, hr, hid⟩ := Table.mem_keys.mp (db.session_exists ev hev)
    have hall : (∀ r' ∈ db.sessions.rows, r'.id = ev.sessionID → cutoff ≤ r'.startedAt) ↔
        ev.sessionID ∉ ids := by
      rw [← hid, hmem r hr, not_lt]
      refine ⟨fun h => h r hr rfl, fun h r' hr' hid' => ?_⟩
      rw [db.sessions.eq_of_key_eq hr' hr hid']
      exact h
    simp [hall]

/-! ## Runs -/

section Runs

variable {P k : ℕ} {bad : Call PurgeStmt → Prop}

/-- The deletes of the transaction. -/
theorem triple_deleteAll (P k : ℕ) (bad : Call PurgeStmt → Prop) (db : DB) {ids : List String}
    {n : ℕ} (hn : ids.length ≤ n) :
    Triple (handler effect (fun q => params q ≤ P) bad) (fun c => c = ⟨db, some db, k⟩)
      (deleteAll ids) fun r c => c.committed = db ∧
        ((r = .ok () ∧ c.failures = k ∧ ∃ s, c.tx = some s ∧
            (ids.length ≤ P ∧ s = db.deleteRows fun x => ids.contains x)) ∨
          (∃ e, r = .error e) ∧ (∃ q, bad q ∧ params q ≤ n) ∧ k < c.failures) := by
  rintro c c' r rfl h
  obtain ⟨c₁, r₁, hrun₁, hrest⟩ := runs_bind.mp h
  rcases runs_perform.mp hrun₁ with ⟨hfits, db₁, _, rfl, rfl, rfl⟩ | ⟨hbad, rfl, e, rfl⟩
  · rcases runs_perform.mp hrest with ⟨-, db₂, _, rfl, rfl, rfl⟩ | ⟨hbad, rfl, e, rfl⟩
    · refine ⟨rfl, Or.inl ⟨rfl, rfl, _, rfl, hfits, ?_⟩⟩
      exact deleteEvents_deleteRows db _
    · exact ⟨rfl, Or.inr ⟨⟨e, rfl⟩, ⟨_, hbad, hn⟩, Nat.lt_succ_self k⟩⟩
  · obtain ⟨rfl, rfl⟩ := hrest
    exact ⟨rfl, Or.inr ⟨⟨e, rfl⟩, ⟨_, hbad, hn⟩, Nat.lt_succ_self k⟩⟩

/-- **All or nothing.** The old sessions are deleted and counted, or a call failed, there is an error
and nothing changed. -/
theorem purgeOlderThan_cases (db : DB) (cutoff : Time) :
    Triple (handler effect (fun q => params q ≤ P) bad) (fun c => c = ⟨db, none, k⟩)
      (purgeOlderThan cutoff) fun r c =>
        (r = .ok (oldSessions db cutoff).length ∧ c.failures = k ∧
            (oldSessions db cutoff).length ≤ P ∧ Purged cutoff db c.committed) ∨
          (∃ e, r = .error e) ∧
            (∃ q, bad q ∧ params q ≤ max 1 (oldSessions db cutoff).length) ∧ k < c.failures ∧
            c.committed = db := by
  rintro c c' r rfl h
  obtain ⟨c₁, r₁, hrun₁, hrest⟩ := runs_bind.mp h
  rcases runs_perform.mp hrun₁ with ⟨-, db₁, ids, ⟨hsame, hids⟩, rfl, rfl⟩ | ⟨hbad, rfl, e, rfl⟩
  · obtain rfl : db = db₁ := hsame.symm
    have hids : ids.Perm ((oldSessions db cutoff).map ReplaySession.id) := hids
    have hlen : ids.length = (oldSessions db cutoff).length := by
      rw [hids.length_eq, List.length_map]
    dsimp only at hrest
    split_ifs at hrest with hzero
    · -- nothing is old
      obtain ⟨rfl, rfl⟩ := hrest
      have hnone : ids = [] := List.eq_nil_of_length_eq_zero hzero
      have hpurged := purged_deleteRows hids
      have hsame : (db.deleteRows fun x => ids.contains x) = db := by
        rw [hnone]
        refine DB.ext (Table.ext ?_) (Table.ext ?_) rfl <;> simp [DB.deleteRows]
      rw [hsame] at hpurged
      exact Or.inl ⟨by rw [← hlen, hzero], rfl, by omega, hpurged⟩
    · obtain ⟨c₂, r₂, hrun₂, hend⟩ := runs_bind.mp hrest
      have hbody := triple_deleteAll P k bad db
        (n := max 1 (oldSessions db cutoff).length) (hlen.trans_le (le_max_right _ _))
      have htx := Triple.transaction (fun hbad => ⟨_, hbad, Nat.zero_le _⟩)
        (fun hbad => ⟨_, hbad, Nat.zero_le _⟩) hbody _ c₂ r₂ rfl hrun₂
      rcases htx with ⟨rfl, hfail, hfits, hdb⟩ | ⟨⟨e, rfl⟩, hreason, hfail, hdb⟩
      · obtain ⟨rfl, rfl⟩ := hend
        refine Or.inl ⟨by rw [hlen], hfail, hlen ▸ hfits, ?_⟩
        rw [hdb]
        exact purged_deleteRows hids
      · obtain ⟨rfl, rfl⟩ := hend
        exact Or.inr ⟨⟨e, rfl⟩, hreason, hfail, hdb⟩
  · obtain ⟨rfl, rfl⟩ := hrest
    exact Or.inr ⟨⟨e, rfl⟩, ⟨_, hbad, le_max_left _ _⟩, Nat.lt_succ_self k, rfl⟩

end Runs

/-! ## Main theorem -/

/-- A healthy database answers every call. -/
def respond (P : ℕ) : (q : Call PurgeStmt) → Conn DB → Conn DB × Resp PurgeAnswer q
  | .begin, c => ({ c with tx := some c.committed }, .ok ())
  | .exec (.pluckStartedBefore cutoff), c =>
    if 1 ≤ P then (c.update c.current, .ok ((oldSessions c.current cutoff).map ReplaySession.id))
    else ({ c with failures := c.failures + 1 }, .error "too many SQL variables")
  | .exec (.deleteEvents ids), c =>
    if ids.length ≤ P then (c.update (c.current.deleteEvents fun x => ids.contains x), .ok ())
    else ({ c with failures := c.failures + 1 }, .error "too many SQL variables")
  | .exec (.deleteSessions ids), c =>
    if ids.length ≤ P then (c.update (c.current.deleteRows fun x => ids.contains x), .ok ())
    else ({ c with failures := c.failures + 1 }, .error "too many SQL variables")
  | .commit, c => ({ c with committed := c.current, tx := none }, .ok ())
  | .rollback, c => ({ c with tx := none }, ())

theorem healthy_respond (P : ℕ) (q : Call PurgeStmt) (c : Conn DB) :
    healthy P q c (respond P q c).1 (respond P q c).2 := by
  cases q with
  | begin => exact Or.inl ⟨Nat.zero_le P, rfl, rfl⟩
  | commit => exact Or.inl ⟨Nat.zero_le P, rfl, rfl⟩
  | rollback => rfl
  | exec q =>
    cases q with
    | pluckStartedBefore cutoff =>
      simp only [respond]
      split_ifs with h
      · exact Or.inl ⟨h, _, _, ⟨rfl, List.Perm.refl _⟩, rfl, rfl⟩
      · exact Or.inr ⟨not_le.mp h, rfl, _, rfl⟩
    | deleteEvents ids =>
      simp only [respond]
      split_ifs with h
      · exact Or.inl ⟨h, _, (), rfl, rfl, rfl⟩
      · exact Or.inr ⟨not_le.mp h, rfl, _, rfl⟩
    | deleteSessions ids =>
      simp only [respond]
      split_ifs with h
      · exact Or.inl ⟨h, _, (), rfl, rfl, rfl⟩
      · exact Or.inr ⟨not_le.mp h, rfl, _, rfl⟩

/-- Run alone on a healthy database, the purge is exact and counts the deleted sessions. -/
def ExactPurge (P : ℕ) (db : DB) (cutoff : Time) : Prop :=
  (∃ c r, Runs (healthy P) (purgeOlderThan cutoff) ⟨db, none, 0⟩ c r) ∧
    ∀ c r, Runs (healthy P) (purgeOlderThan cutoff) ⟨db, none, 0⟩ c r →
      r = .ok (oldSessions db cutoff).length ∧ Purged cutoff db c.committed

theorem exactPurge_of_le {P : ℕ} (hP : 1 ≤ P) {db : DB} {cutoff : Time}
    (h : (oldSessions db cutoff).length ≤ P) : ExactPurge P db cutoff := by
  refine ⟨⟨_, _, runs_eval (healthy_respond P) _ _⟩, fun c r hruns => ?_⟩
  rcases purgeOlderThan_cases db cutoff _ c r rfl hruns with
    ⟨hr, -, -, hpurged⟩ | ⟨-, ⟨q, hbad, hq⟩, -, -⟩
  · exact ⟨hr, hpurged⟩
  · have hq' : params q ≤ P := hq.trans (max_le hP h)
    exact absurd hbad (not_lt.mpr hq')

theorem not_exactPurge_of_lt {P : ℕ} {db : DB} {cutoff : Time}
    (h : P < (oldSessions db cutoff).length) : ¬ ExactPurge P db cutoff := by
  rintro ⟨⟨c, r, hruns⟩, hexact⟩
  rcases purgeOlderThan_cases db cutoff _ c r rfl hruns with ⟨-, -, hfits, -⟩ | ⟨⟨e, rfl⟩, -⟩
  · omega
  · exact absurd (hexact c _ hruns).1 (by simp)

/-- **The purge is exact exactly if a statement takes the ids of all old sessions**, and whatever
fails, there is an error and no table changes. -/
theorem purge_exact_iff {P : ℕ} (hP : 1 ≤ P) (db : DB) (cutoff : Time) :
    (ExactPurge P db cutoff ↔ (oldSessions db cutoff).length ≤ P) ∧
      ∀ c r, Runs (faulty P) (purgeOlderThan cutoff) ⟨db, none, 0⟩ c r → c.failures ≠ 0 →
        (∃ e, r = .error e) ∧ c.committed = db := by
  refine ⟨⟨fun h => ?_, exactPurge_of_le hP⟩, fun c r hruns hfailed => ?_⟩
  · by_contra hlt
    exact not_exactPurge_of_lt (not_le.mp hlt) h
  · rcases purgeOlderThan_cases db cutoff _ c r rfl hruns with ⟨-, hnone, -⟩ | ⟨herr, -, -, hdb⟩
    · exact absurd hnone hfailed
    · exact ⟨herr, hdb⟩

/-! ## Many sessions -/

/-- The five digits of a number below `16 ^ 5`. -/
def fiveDigits (i : ℕ) : List Char :=
  [i / 65536 % 16, i / 4096 % 16, i / 256 % 16, i / 16 % 16, i % 16].map JsonText.hexDigit

/-- A session id with a number in its last digits. -/
def numberedID (i : ℕ) : String :=
  String.ofList ("6c1f0a9e-8f51-4a53-9d2e-0b7d1a1".toList ++ fiveDigits i)

theorem hexDigit_injective : ∀ a < 16, ∀ b < 16,
    JsonText.hexDigit a = JsonText.hexDigit b → a = b := by decide

theorem hexDigit_mod {i j : ℕ} (h : JsonText.hexDigit (i % 16) = JsonText.hexDigit (j % 16)) :
    i % 16 = j % 16 :=
  hexDigit_injective _ (Nat.mod_lt _ (by decide)) _ (Nat.mod_lt _ (by decide)) h

theorem fiveDigits_injective {i j : ℕ} (hi : i < 1048576) (hj : j < 1048576)
    (h : fiveDigits i = fiveDigits j) : i = j := by
  simp only [fiveDigits, List.map_cons, List.map_nil, List.cons.injEq, and_true] at h
  obtain ⟨h₁, h₂, h₃, h₄, h₅⟩ := h
  have e₁ := hexDigit_mod h₁
  have e₂ := hexDigit_mod h₂
  have e₃ := hexDigit_mod h₃
  have e₄ := hexDigit_mod h₄
  have e₅ := hexDigit_mod h₅
  omega

theorem numberedID_injective {i j : ℕ} (hi : i < 1048576) (hj : j < 1048576)
    (h : numberedID i = numberedID j) : i = j := by
  have hlist := String.ofList_injective h
  exact fiveDigits_injective hi hj (List.append_cancel_left hlist)

/-- A session started at time `0`. -/
def numbered (i : ℕ) : ReplaySession where
  id := numberedID i
  batSessionID := ""
  identifier := "visitor"
  userEmail := ""
  userName := ""
  startURL := ""
  environment := "production"
  serviceName := "shop"
  startedAt := 0
  trigger := "manual"
  createdAt := 0

/-- A database of `n` such sessions. -/
def crowded (n : ℕ) (hn : n ≤ 1048576) : DB where
  sessions := ⟨(List.range n).map numbered, by
    rw [List.map_map]
    refine List.Nodup.map_on (fun i hi j hj h => ?_) List.nodup_range
    rw [List.mem_range] at hi hj
    exact numberedID_injective (by omega) (by omega) h⟩
  events := .empty
  failed := .empty
  token_unique := by
    intro a ha b hb t hat
    obtain ⟨i, -, rfl⟩ := List.mem_map.mp ha
    cases hat
  session_exists := by simp

theorem length_oldSessions_crowded {n : ℕ} (hn : n ≤ 1048576) :
    (oldSessions (crowded n hn) 1).length = n := by
  have hall : oldSessions (crowded n hn) 1 = (crowded n hn).sessions.rows := by
    refine List.filter_eq_self.mpr fun r hr => ?_
    obtain ⟨i, -, rfl⟩ := List.mem_map.mp hr
    rfl
  rw [hall, crowded, List.length_map, List.length_range]

/-- A few old sessions are purged. -/
theorem purge_few : ExactPurge 65535 (crowded 3 (by decide)) 1 :=
  (purge_exact_iff (by decide) (crowded 3 (by decide)) 1).1.2
    ((length_oldSessions_crowded (by decide)).trans_le (by decide))

/-- 65536 old sessions are never purged. -/
theorem purge_too_many : ¬ ExactPurge 65535 (crowded 65536 (by decide)) 1 :=
  not_exactPurge_of_lt (by rw [length_oldSessions_crowded]; decide)

end Purge

end BatRewind
