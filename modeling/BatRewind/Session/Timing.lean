import BatRewind.Session.LastWrite

/-!
# Session timing

`started_at`, `created_at`, `ended_at` and `duration_ms` are written when the session row is
created and when the session is finalized, but every batch saves the whole row and `omitOnUpsert`
lists none of these columns: an upsert of a session that exists starts it again.

* `Ledger`: what the timing columns should hold, read off the calls made so far.
* `KeepsTiming`: an upsert finds the timing columns as it would write them.
* **`timing_written_once`**: in every run of service calls in which that holds, the rows hold what
  the ledger says.
-/

namespace BatRewind

open Encoding Tables Effects Effects.Prog

/-! ## The ledger -/

/-- The timing columns of a session. -/
structure Timing where
  startedAt : Time
  createdAt : Time
  endedAt : Option Time := none
  durationMs : Option ℤ := none
  deriving DecidableEq

/-- The timing columns of a row. -/
def ReplaySession.timing (r : ReplaySession) : Timing :=
  ⟨r.startedAt, r.createdAt, r.endedAt, r.durationMs⟩

/-- The timing of the sessions that exist. -/
abbrev Timings := String → Option Timing

/-- What an accepted statement should do to the timings if the clock read `now` last: **a session
starts when its row is created, ends when it is finalized, and keeps its timing otherwise**. -/
def Stmt.onTimings (now : Time) : Stmt → Timings → Timings
  | .insertSession s, m => fun id =>
    if id = s.id then (m id).or (some { startedAt := now, createdAt := now }) else m id
  | .updateSessionEnd i endedAt durationMs, m => fun id =>
    if id = i then (m id).map fun x => { x with endedAt := endedAt, durationMs := durationMs }
    else m id
  | .deleteSession i, m => fun id => if id = i then none else m id
  | .purgeSessions ids, m => fun id => if id ∈ ids then none else m id
  | _, m => m

/-- The last clock reading and the timing of every session. -/
structure Ledger where
  clock : Time := 0
  timings : Timings := fun _ => none

/-- The ledger after a call. -/
def Ledger.record (x : Ledger) (e : Σ c, Resp c) : Ledger :=
  match e with
  | ⟨.timeNow, now⟩ => { x with clock := now }
  | e => match acceptedStmt e with
    | some q => { x with timings := q.onTimings x.clock x.timings }
    | none => x

/-- **The ledger of the calls made so far.** -/
def ledger (t : Trace) : Ledger := t.foldl Ledger.record {}

theorem ledger_concat (t : Trace) (e : Σ c, Resp c) : ledger (t ++ [e]) = (ledger t).record e :=
  List.foldl_append

/-! ## Statements -/

section Statements

/-- The timing columns of the row with this id. -/
def timingOf (l : List ReplaySession) : Timings := fun id =>
  (l.find? fun r => r.id = id).map ReplaySession.timing

variable {l : List ReplaySession}

theorem timingOf_updateRow {i : String} {f : ReplaySession → ReplaySession}
    (hf : ∀ r, (f r).id = r.id) {g : Timing → Timing} (hg : ∀ r, (f r).timing = g r.timing)
    (id : String) :
    timingOf (updateRow i f l) id = if id = i then (timingOf l id).map g else timingOf l id := by
  rw [timingOf, updateRow, Table.find?_modify i id hf, Option.map_map]
  split_ifs
  · rw [timingOf, Option.map_map]
    exact congrArg (fun h => Option.map h _) (funext hg)
  · rfl

/-- An update that leaves the timing columns alone. -/
theorem timingOf_updateRow_self {i : String} {f : ReplaySession → ReplaySession}
    (hf : ∀ r, (f r).id = r.id) (hg : ∀ r, (f r).timing = r.timing) :
    timingOf (updateRow i f l) = timingOf l := by
  funext id
  rw [timingOf_updateRow hf (g := fun x => x) hg, Option.map_id', ite_self]

theorem timingOf_filter (p : String → Prop) [DecidablePred p] (id : String) :
    timingOf (l.filter fun r => p r.id) id = if p id then timingOf l id else none := by
  induction l with
  | nil => simp [timingOf]
  | cons r l ih =>
    simp only [timingOf, List.filter_cons, List.find?_cons] at ih ⊢
    by_cases hp : p r.id
    · by_cases hr : r.id = id
      · simp [← hr, hp]
      · simpa [hp, hr] using ih
    · by_cases hr : r.id = id
      · rw [hr] at hp
        simpa [hp, hr] using ih
      · simpa [hp, hr] using ih

theorem timingOf_eq_none {id : String} :
    timingOf l id = none ↔ id ∉ l.map ReplaySession.id := by
  simp [timingOf]

/-- The statements other than the two of `Save`. -/
def Stmt.notSave : Stmt → Bool
  | .updateSession _ | .insertSession _ => false
  | _ => true

/-- **Statements other than the two of `Save`** do to the timing columns what they should. -/
theorem Stmt.timingOf_onSessions {q : Stmt} (hq : q.notSave = true) (now : Time) :
    timingOf (q.onSessions l) = q.onTimings now (timingOf l) := by
  cases q with
  | updateSession s | insertSession s => cases hq
  | setClientMetadata id d | incrementEventCount id n | setShareToken id token =>
    exact timingOf_updateRow_self (fun _ => rfl) fun _ => rfl
  | updateSessionEnd i t d =>
    funext id
    exact timingOf_updateRow (f := fun r => { r with endedAt := t, durationMs := d })
      (fun _ => rfl) (g := fun x => { x with endedAt := t, durationMs := d }) (fun _ => rfl) id
  | deleteSession i =>
    funext id
    refine (timingOf_filter (fun x => x ≠ i) id).trans ?_
    by_cases hid : id = i <;> simp [Stmt.onTimings, hid]
  | purgeSessions ids =>
    funext id
    refine (timingOf_filter (fun x => x ∉ ids) id).trans ?_
    by_cases hid : id ∈ ids <;> simp [Stmt.onTimings, hid]
  | _ => rfl

/-- The `UPDATE` of `Save` writes the timing columns of the row. -/
theorem timingOf_updateSession (s : ReplaySession) (id : String) :
    timingOf ((Stmt.updateSession s).onSessions l) id =
      if id = s.id then (timingOf l id).map fun _ => s.timing else timingOf l id :=
  timingOf_updateRow (f := overwrite s) (fun _ => rfl) (fun _ => rfl) id

/-- The `INSERT` of `Save` creates the row. -/
theorem timingOf_insertSession {s : ReplaySession} (hs : timingOf l s.id = none) (id : String) :
    timingOf ((Stmt.insertSession s).onSessions l) id =
      if id = s.id then some s.timing else timingOf l id := by
  have hmem := timingOf_eq_none.mp hs
  simp only [Stmt.onSessions, upsertRow, if_neg hmem]
  by_cases hid : id = s.id
  · subst hid
    have : l.find? (fun r => r.id = s.id) = none := by simpa [timingOf] using hs
    simp [timingOf, List.find?_append, this, inserted, ReplaySession.timing]
  · have : ¬ s.id = id := fun h => hid h.symm
    simp [timingOf, List.find?_append, this, inserted, hid]

end Statements

/-! ## One call -/

section Step

/-- Every statement is accepted, and **an upsert of a session that exists finds the timing columns
as it writes them**: the session is not ended and was started at the clock reading of the batch. -/
def KeepsTiming : Handler Call Resp DB := fun c db db' r =>
  Healthy c db db' r ∧ ∀ s, c = .sql (.updateSession s) →
    ∀ row, db.sessions.find s.id = some row → row.timing = s.timing

/-- **The rows hold what the ledger says.** -/
def Timed (s : DB × Trace) : Prop := timingOf s.1.sessions.rows = (ledger s.2).timings

variable {c : Call} {s s' : DB × Trace} {r : Resp c}

theorem ledger_of_accepted {q : Stmt} (hacc : acceptedStmt ⟨c, r⟩ = some q) (t : Trace) :
    (ledger (t ++ [⟨c, r⟩])).timings = q.onTimings (ledger t).clock (ledger t).timings ∧
      (ledger (t ++ [⟨c, r⟩])).clock = (ledger t).clock := by
  rw [ledger_concat]
  cases c with
  | timeNow | uuidNew => cases hacc
  | sql q' =>
    rw [Ledger.record, hacc]
    · exact ⟨rfl, rfl⟩
    · simp

theorem ledger_of_none (hacc : acceptedStmt ⟨c, r⟩ = none) (t : Trace) :
    (ledger (t ++ [⟨c, r⟩])).timings = (ledger t).timings := by
  rw [ledger_concat]
  cases c with
  | timeNow => rfl
  | uuidNew | sql q => rw [Ledger.record, hacc]; simp

/-- Calls other than the statements of `Save`. -/
def Call.notSave : Call → Prop
  | .sql q => q.notSave = true
  | _ => True

theorem Timed.step (h : Timed s) (hc : c.notSave) (hT : KeepsTiming.traced c s s' r) :
    Timed s' := by
  rw [Timed, hT.2]
  rcases anyAnswer_cases hT.1.1.1 with ⟨hs, hacc⟩ | ⟨q, rfl, hrows, hacc⟩
  · rw [ledger_of_none hacc, hs]
    exact h
  · rw [(ledger_of_accepted hacc _).1, hrows, Stmt.timingOf_onSessions hc, h]

/-- The `UPDATE` of an upsert changes no timing. -/
theorem Timed.updateSession (h : Timed s) {row : ReplaySession} {r : Except String ℕ}
    (hT : KeepsTiming.traced (.sql (.updateSession row)) s s' r) :
    Timed s' ∧ (ledger s'.2).clock = (ledger s.2).clock ∧
      (r = .ok 0 → timingOf s'.1.sessions.rows row.id = none) := by
  obtain ⟨⟨⟨hany, n, rfl⟩, hkeep⟩, ht⟩ := hT
  obtain ⟨e, -, hrun⟩ := Answers.accepted hany
  obtain ⟨htim, hclock⟩ := ledger_of_accepted
    (c := .sql (.updateSession row)) (r := .ok n) rfl s.2
  have hsame : timingOf s'.1.sessions.rows = timingOf s.1.sessions.rows := by
    funext id
    rw [(Stmt.run_rows hrun).1, timingOf_updateSession]
    split_ifs with hid
    · subst hid
      cases hfind : s.1.sessions.find row.id with
      | none =>
        have : timingOf s.1.sessions.rows row.id = none := by
          rw [timingOf]
          exact congrArg _ hfind
        rw [this]
        rfl
      | some r =>
        have : timingOf s.1.sessions.rows row.id = some r.timing := by
          rw [timingOf]
          exact congrArg _ hfind
        rw [this, Option.map_some, hkeep row rfl r hfind]
    · rfl
  refine ⟨?_, ?_, fun hr => ?_⟩
  · rw [Timed, ht, htim, hsame]
    exact h
  · rw [ht, hclock]
  · rw [hsame, timingOf_eq_none]
    exact Table.find_eq_none.mp ((Stmt.run_updateSession hrun).2.mp (Except.ok.inj hr))

/-- **An upsert** with the timing of a session that starts now. -/
theorem Timed.upsertSession (h : Timed s) {row : ReplaySession}
    (hrow : row.timing = { startedAt := (ledger s.2).clock, createdAt := (ledger s.2).clock })
    {r : Except String Unit}
    (hrun : Runs KeepsTiming.traced (Repository.upsertSession row).run s s' r) : Timed s' := by
  rcases runs_bind_except.mp hrun with ⟨s₁, affected, h₁, h₂⟩ | ⟨msg, h₁, -⟩
  · obtain ⟨ht₁, hclock, hnone⟩ := h.updateSession (runs_perform.mp h₁)
    split_ifs at h₂ with hzero
    · obtain ⟨⟨⟨hany, a, rfl⟩, -⟩, ht⟩ := runs_perform.mp h₂
      obtain ⟨e, -, hins⟩ := Answers.accepted hany
      have habs := hnone (by rw [hzero])
      rw [Timed, ht, (ledger_of_accepted rfl _).1, (Stmt.run_rows hins).1]
      funext id
      rw [timingOf_insertSession habs, Stmt.onTimings, ← ht₁, hclock]
      dsimp only
      split_ifs with hid
      · rw [hid, habs, hrow]
        rfl
      · rfl
    · rw [h₂.1]
      exact ht₁
  · exact (h.updateSession (runs_perform.mp h₁)).1

theorem Timed.timeNow (h : Timed s) {r : Except String Time}
    (hrun : Runs KeepsTiming.traced timeNow.run s s' r) :
    Timed s' ∧ ∀ now, r = .ok now → (ledger s'.2).clock = now := by
  obtain ⟨now, h₁, rfl⟩ := runs_lift.mp hrun
  have hT := runs_perform.mp h₁
  refine ⟨h.step (c := .timeNow) trivial hT, ?_⟩
  rintro _ ⟨⟩
  rw [hT.2, ledger_concat]
  rfl

end Step

/-! ## Every call of the service -/

section Calls

theorem timed_calls {α : Type} {p : Prog Call Resp α}
    (h : AllCalls (fun _ _ => True) Call.notSave p) : Preserves KeepsTiming.traced Timed p :=
  h.preserves fun _ _ _ _ hc hs hT => hs.step hc hT

theorem timed_sql {q : Stmt} (hq : q.notSave = true) :
    Preserves KeepsTiming.traced Timed (sql q).run := timed_calls (allCalls_sql hq)

theorem timed_upkeep {α : Type} {p : Prog Call Resp α}
    (h : AllCalls (fun _ _ => True) Call.upkeep p) : Preserves KeepsTiming.traced Timed p := by
  refine timed_calls (h.mono (fun _ _ h => h) fun c hc => ?_)
  cases c with
  | timeNow | uuidNew => trivial
  | sql q => cases q <;> first | rfl | exact hc.elim

/-- A batch starts its session, or finds it as it would start it. -/
theorem timed_ingest (req : IngestRequest) :
    Preserves KeepsTiming.traced Timed (Service.ingest req).run := by
  intro s s' r hs hrun
  rw [ingest_eq] at hrun
  rcases runs_bind_except.mp hrun with ⟨s₁, now, h₁, h₂⟩ | ⟨msg, h₁, -⟩
  · obtain ⟨ht₁, hclock⟩ := hs.timeNow h₁
    have hprepare : Triple KeepsTiming.traced (fun s => Timed s ∧ (ledger s.2).clock = now)
        (Service.prepare req now).run fun _ => Timed := by
      intro s s' r hs hrun
      have hrest : Preserves KeepsTiming.traced Timed (do
          Service.persistToken req
          Service.storeClient req : Svc Unit).run :=
        timed_calls ((allCalls_persistToken fun _ => rfl).bind_except fun _ =>
          allCalls_storeClient fun _ => rfl)
      have hup : ∀ s₁ r₁, Runs KeepsTiming.traced (wrap "upsert session: "
          (Repository.upsertSession (Service.sessionOf req now))).run s s₁ r₁ → Timed s₁ := by
        intro s₁ r₁ h₁
        obtain ⟨r₀, h₀, -⟩ := runs_adapt.mp h₁
        refine hs.1.upsertSession ?_ h₀
        rw [hs.2]
        rfl
      rcases runs_bind_except.mp hrun with ⟨s₁, _, h₁, h₂⟩ | ⟨msg, h₁, -⟩
      · exact hrest _ _ _ (hup _ _ h₁) h₂
      · exact hup _ _ h₁
    have happend : Preserves KeepsTiming.traced Timed (Service.append req now).run :=
      timed_calls (allCalls_append trivial (fun _ => rfl) fun _ => rfl)
    rcases runs_bind_except.mp h₂ with ⟨s₂, _, h₃, h₄⟩ | ⟨msg, h₃, -⟩
    · exact happend _ _ _ (hprepare _ _ _ ⟨ht₁, hclock now rfl⟩ h₃) h₄
    · exact hprepare _ _ _ ⟨ht₁, hclock now rfl⟩ h₃
  · exact (hs.timeNow h₁).1

theorem timed_retryFailed (id : String) :
    Preserves KeepsTiming.traced Timed (Service.retryFailed id).run := by
  refine ((timed_sql rfl).adapt _).bind_except fun f => ?_
  refine (Preserves.adapt (preserves_pure _) _).bind_except fun req => ?_
  refine ((timed_ingest req).adapt _).bind_except fun _ => timed_calls ?_
  exact (allCalls_perform trivial).lift.bind_except fun now => allCalls_sql rfl

theorem timed_retryEach (items : List FailedIngest) (succeeded : ℕ) :
    Preserves KeepsTiming.traced Timed (Service.retryEach items succeeded).run := by
  induction items generalizing succeeded with
  | nil => exact preserves_pure _
  | cons f items ih =>
    refine (timed_retryFailed f.id).lift.bind_except fun r => ?_
    cases r with
    | ok _ => exact ih _
    | error _ => exact ih _

theorem timed_program (c : ServiceCall) : Preserves KeepsTiming.traced Timed c.program := by
  cases c with
  | ingest req => exact timed_ingest req
  | finalizeSession id => exact timed_upkeep (allCalls_finalizeSession id)
  | createShareToken id =>
    exact (timed_upkeep (allCalls_createShareToken id)).bind_except fun _ => preserves_pure _
  | delete id => exact timed_sql rfl
  | purgeOlderThan retention =>
    exact (timed_upkeep (allCalls_purgeOlderThan retention)).bind_except fun _ => preserves_pure _
  | saveFailed f => exact timed_sql rfl
  | retryFailed id => exact timed_retryFailed id
  | retryAllFailed =>
    exact Preserves.bind_except ((timed_sql rfl).bind_except fun items =>
      timed_retryEach items 0) fun _ => preserves_pure _

/-- Service calls, one after another, as one program. -/
def callsInTurn : List ServiceCall → Prog Call Resp Unit
  | [] => pure ()
  | c :: calls => do
    let _ ← c.program
    callsInTurn calls

theorem timed_callsInTurn (calls : List ServiceCall) :
    Preserves KeepsTiming.traced Timed (callsInTurn calls) := by
  induction calls with
  | nil => exact preserves_pure ()
  | cons c calls ih => exact (timed_program c).bind fun _ => ih

/-- **Session timing is written once.** From a database without sessions, after every run of
service calls in which every upsert finds the timing columns as it writes them: a session holds the
start and creation time of the batch that created its row, and the end and the duration that
`FinalizeSession` set last. -/
theorem timing_written_once {calls : List ServiceCall} {db₀ db : DB}
    (hempty : db₀.sessions.rows = []) {t : Trace}
    (hruns : Runs KeepsTiming.traced (callsInTurn calls) (db₀, []) (db, t) ())
    {r : ReplaySession} (hr : r ∈ db.sessions.rows) :
    (ledger t).timings r.id = some r.timing := by
  have hinit : Timed (db₀, []) := by
    rw [Timed, hempty]
    rfl
  have htimed : Timed (db, t) := timed_callsInTurn calls _ _ _ hinit hruns
  rw [← htimed]
  exact congrArg _ (Table.find_eq_some.mpr ⟨hr, rfl⟩)

end Calls

/-! ## Samples -/

section Samples

/-- The call finds the timing columns as it would write them. -/
def keepsTiming (db : DB) : Call → Bool
  | .sql (.updateSession s) =>
    (db.sessions.find s.id).all fun row => decide (row.timing = s.timing)
  | _ => true

theorem keepsTiming_of_healthy {c : Call} {s s' : DB × Trace} {r : Resp c}
    (hc : keepsTiming s.1 c = true) (h : Healthy.traced c s s' r) : KeepsTiming.traced c s s' r := by
  refine ⟨⟨h.1, ?_⟩, h.2⟩
  rintro row rfl old hold
  simpa [keepsTiming, hold] using hc

/-- A session that was started at 0 and finalized two milliseconds later. -/
theorem timing_written_once_finalized : ∃ db t, Runs KeepsTiming.traced
    (callsInTurn [.ingest sampleBatch, .finalizeSession sampleID]) (DB.empty, []) (db, t) () ∧
    db.sessions.rows ≠ [] ∧
    ∀ r ∈ db.sessions.rows, r.timing = ⟨0, 0, some 2000000, some 2⟩ := by
  let e (now : Time) : Env := .quiet none now fun _ => sampleEventID false
  obtain ⟨db, t, hrun, hids, hledger⟩ : ∃ db t, (callsInTurn
      [.ingest sampleBatch, .finalizeSession sampleID]).follow
        (fun e c s => if keepsTiming s.1 c then execTraced e c s else none)
        (List.replicate 6 (e 0) ++ List.replicate 3 (e 2000000)) (DB.empty, []) =
          some ((db, t), ()) ∧
      db.sessions.rows.map ReplaySession.id = [sampleID] ∧
      (ledger t).timings sampleID = some ⟨0, 0, some 2000000, some 2⟩ := ⟨_, _, rfl, rfl, rfl⟩
  have hruns := runs_follow (T := KeepsTiming.traced) (fun _ _ _ _ _ h => by
    split_ifs at h with hc
    exact keepsTiming_of_healthy hc (execTraced_traced h)) hrun
  refine ⟨db, t, hruns, fun hnil => ?_, fun r hr => ?_⟩
  · rw [hnil] at hids
    cases hids
  · have hid : r.id = sampleID := List.mem_singleton.mp (hids ▸ List.mem_map_of_mem hr)
    have hrow := timing_written_once rfl hruns hr
    rw [hid, hledger] at hrow
    exact (Option.some.inj hrow).symm

/-- The second of two batches moves the start of the session. -/
theorem not_timing_written_once : ¬ ∀ calls db t,
    Runs Healthy.traced (callsInTurn calls) (DB.empty, []) (db, t) () →
    ∀ r ∈ db.sessions.rows, (ledger t).timings r.id = some r.timing := by
  intro hall
  let e (late : Bool) : Env :=
    .quiet none (if late then 1 else 0) fun _ => sampleEventID late
  obtain ⟨db, t, hrun, hrows, hledger⟩ : ∃ db t, (callsInTurn
      [.ingest sampleBatch, .ingest sampleBatch]).follow execTraced
        (List.replicate 6 (e false) ++ List.replicate 5 (e true)) (DB.empty, []) =
          some ((db, t), ()) ∧
      (db.sessions.rows.map fun r => (r.id, r.timing)) = [(sampleID, ⟨1, 1, none, none⟩)] ∧
      (ledger t).timings sampleID = some ⟨0, 0, none, none⟩ := ⟨_, _, rfl, rfl, rfl⟩
  have hruns := runs_follow (T := Healthy.traced) (fun _ _ _ _ _ h => execTraced_traced h) hrun
  obtain ⟨r, hr, he⟩ := List.mem_map.mp (hrows ▸ List.mem_singleton_self _)
  obtain ⟨hid, htim⟩ := Prod.mk.inj he
  have hrow := hall _ db t hruns r hr
  rw [hid, hledger, htim] at hrow
  exact absurd hrow (by decide)

end Samples

end BatRewind
