import BatRewind.Worker.Process

/-!
# Retries

`process` attempts `Ingest` up to four times, and `Ingest` has no enclosing transaction, so an
attempt starts from what the failed ones before it left behind.

* `LeftBehind`: what failed attempts leave behind; `Succeeded`: what attempts with a success at the
  end leave behind. **`processFrom_cases`**: every run is one of these.
* `OnceOrNothing`: the tables are those after one successful `Ingest`, or unchanged.
* **`once_or_nothing_iff`**: that holds exactly if no increment of the count was refused before the
  success (or the batch is empty), or no upsert was accepted at all.
-/

namespace BatRewind

open Encoding Tables Effects Effects.Prog Worker

/-! ## What attempts leave behind -/

section Left

variable {req : IngestRequest} {db db₁ db' : DB} {u w : Trace} {extra : List ReplayEvent}

/-- **What failed attempts leave behind**: nothing, or a session row and a copy of the events for
every increment that was refused. -/
inductive LeftBehind (req : IngestRequest) (db db' : DB) (u : Trace) : Prop
  | nothing (hs : db'.sessions = db.sessions) (he : db'.events = db.events)
      (hu : upserted u = false) (hc : uncounted u = false)
  | row (row : ReplaySession) (extra : List ReplayEvent)
      (hrow : Kept req (db.sessions.find req.sessionID) row)
      (hnow : ⟨.timeNow, row.startedAt⟩ ∈ u) (hs : db'.sessions = db.sessions.put row)
      (he : db'.events.rows = db.events.rows ++ extra) (hu : upserted u = true)
      (hnone : req.events = [] ∨ uncounted u = false → extra = [])
      (hsome : uncounted u = true → req.events.length ≤ extra.length)

/-- **What attempts leave behind of which the last succeeds.** -/
structure Succeeded (req : IngestRequest) (db db' : DB) (u : Trace) (now : Time)
    (ids : ℕ → String) (extra : List ReplayEvent) : Prop where
  sessions : db'.sessions = db.sessions.put (storedRow req now (db.sessions.find req.sessionID))
  events : db'.events.rows = db.events.rows ++ extra ++ Service.eventsOf req now ids
  single : req.events = [] ∨ uncounted u = false → extra = []
  repeated : uncounted u = true → req.events.length ≤ extra.length

theorem Kept.trans {old : Option ReplaySession} {row row' : ReplaySession} (h : Kept req old row)
    (h' : Kept req (some row) row') : Kept req old row' :=
  ⟨h'.1, fun hs => (h'.2.1 hs).trans (h.2.1 hs), fun hc => (h'.2.2 hc).trans (h.2.2 hc)⟩

theorem Ingested.leftBehind {now : Time} {msg : String}
    (h : Ingested req now db db' u (.error msg)) (hnow : ⟨.timeNow, now⟩ ∈ u) :
    LeftBehind req db db' u := by
  cases h with
  | refused _ hdb hu hc => exact .nothing (by rw [hdb]) (by rw [hdb]) hu hc
  | prepared _ row hrow hstart hw hu hc =>
    refine .row row [] hrow (hstart ▸ hnow) hw.sessions ?_ hu (fun _ => rfl) fun hc' => ?_
    · rw [hw.events, List.append_nil]
    · rw [hc] at hc'
      cases hc'
  | uncounted _ ids hs he hf hu hc =>
    refine .row _ _ (kept_preparedRow db) ?_ hs he hu ?_ fun _ => length_eventsOf.ge
    · rw [preparedRow_startedAt]
      exact hnow
    · rintro (hev | hc')
      · exact List.eq_nil_of_length_eq_zero (by rw [length_eventsOf, hev, List.length_nil])
      · rw [hc] at hc'
        cases hc'

theorem Ingested.succeeded {now : Time} (h : Ingested req now db db' u (.ok ())) :
    ∃ ids, Succeeded req db db' u now ids [] := by
  cases h with
  | stored ids hs he hf hu hc =>
    refine ⟨ids, hs, by rw [he, List.append_nil], fun _ => rfl, fun hc' => ?_⟩
    rw [hc] at hc'
    cases hc'

theorem LeftBehind.trans (h : LeftBehind req db db₁ u) (h' : LeftBehind req db₁ db' w) :
    LeftBehind req db db' (u ++ w) := by
  cases h with
  | nothing hs he hu hc =>
    cases h' with
    | nothing hs' he' hu' hc' =>
      exact .nothing (hs'.trans hs) (he'.trans he) (by simp [hu, hu']) (by simp [hc, hc'])
    | row row extra hrow hnow hs' he' hu' hnone hsome =>
      rw [hs] at hrow hs'
      rw [he] at he'
      exact .row row extra hrow (List.mem_append_right _ hnow) hs' he' (by simp [hu'])
        (by simpa [hc] using hnone) (by simpa [hc] using hsome)
  | row row extra hrow hnow hs he hu hnone hsome =>
    cases h' with
    | nothing hs' he' hu' hc' =>
      exact .row row extra hrow (List.mem_append_left _ hnow) (hs'.trans hs) (he' ▸ he)
        (by simp [hu]) (by simpa [hc'] using hnone) (by simpa [hc'] using hsome)
    | row row' extra' hrow' hnow' hs' he' hu' hnone' hsome' =>
      rw [hs, find_put_id hrow.1] at hrow'
      have hid : row.id = row'.id := hrow.1.trans hrow'.1.symm
      refine .row row' (extra ++ extra') (hrow.trans hrow') (List.mem_append_right _ hnow') ?_ ?_
        (by simp [hu]) (fun hc => ?_) fun hc => ?_
      · rw [hs', hs, Table.put_put _ hid]
      · rw [he', he, List.append_assoc]
      · rw [uncounted_append, Bool.or_eq_false_iff] at hc
        rw [hnone (hc.imp_right And.left), hnone' (hc.imp_right And.right), List.append_nil]
      · rw [uncounted_append, Bool.or_eq_true] at hc
        rw [List.length_append]
        rcases hc with hc | hc
        · exact (hsome hc).trans (Nat.le_add_right _ _)
        · exact (hsome' hc).trans (Nat.le_add_left _ _)

/-- What the failed attempts left in the session row does not show after the success. -/
theorem LeftBehind.succeeded {now : Time} {ids : ℕ → String} (h : LeftBehind req db db₁ u)
    (h' : Succeeded req db₁ db' w now ids extra) :
    ∃ extra', Succeeded req db db' (u ++ w) now ids extra' := by
  cases h with
  | nothing hs he hu hc =>
    refine ⟨extra, ?_, ?_, ?_, ?_⟩
    · rw [h'.sessions, hs]
    · rw [h'.events, he]
    · simpa [hc] using h'.single
    · simpa [hc] using h'.repeated
  | row row extra₀ hrow hnow hs he hu hnone hsome =>
    have hstored : storedRow req now (db₁.sessions.find req.sessionID) =
        storedRow req now (db.sessions.find req.sessionID) := by
      rw [hs, find_put_id hrow.1, storedRow, storedRow, hrow.preparedRow_eq (find_id db _)]
    have hid : row.id = (storedRow req now (db.sessions.find req.sessionID)).id :=
      hrow.1.trans (kept_preparedRow db).1.symm
    refine ⟨extra₀ ++ extra, ?_, ?_, fun hc => ?_, fun hc => ?_⟩
    · rw [h'.sessions, hstored, hs, Table.put_put _ hid]
    · rw [h'.events, he, List.append_assoc db.events.rows]
    · rw [uncounted_append, Bool.or_eq_false_iff] at hc
      rw [hnone (hc.imp_right And.left), h'.single (hc.imp_right And.right), List.append_nil]
    · rw [uncounted_append, Bool.or_eq_true] at hc
      rw [List.length_append]
      rcases hc with hc | hc
      · exact (hsome hc).trans (Nat.le_add_right _ _)
      · exact (h'.repeated hc).trans (Nat.le_add_left _ _)

end Left

/-! ## Runs of `process` -/

/-- The entry reports a processed batch. -/
def LogEntry.isProcessed : LogEntry → Bool
  | .batchProcessed _ _ _ => true
  | _ => false

/-- The database, the calls of the repository so far with their answers, and whether the worker
has reported the batch as processed. -/
structure Observed where
  db : DB
  calls : Trace
  processed : Bool

/-- **A worker on its own.** Any statement may be refused, and the calls are recorded. -/
def Observing : Handler WorkerCall WorkerResp Observed
  | .svc c, s, s', r =>
    AnyAnswer c s.db s'.db r ∧ s'.calls = s.calls ++ [⟨c, r⟩] ∧ s'.processed = s.processed
  | .slog entry, s, s', _ => s' = { s with processed := s.processed || entry.isProcessed }
  | .ack _, s, s', _ | .sleep _, s, s', _ => s' = s

section Process

variable {req : IngestRequest} {workerID : ℕ} {msgID : String} {s s' : Observed}

theorem runs_svc {α : Type} {x : Svc α} {r : Except String α}
    (h : Runs Observing (svc x) s s' r) :
    Runs AnyAnswer.traced x.run (s.db, s.calls) (s'.db, s'.calls) r ∧
      s'.processed = s.processed := by
  have h' := runs_hoist.mp h
  refine ⟨h'.map (f := fun s => (s.db, s.calls)) fun c s s' r hc => ⟨hc.1, hc.2.1⟩, ?_⟩
  exact (allCalls_of_forall (fun _ => trivial) _).preserves (P := fun _ => True)
    (I := fun o => o.processed = s.processed) (fun c o o' r _ ho hc => hc.2.2.trans ho) s s' r rfl h'

theorem runs_slog {entry : LogEntry} {a : Unit} (h : Runs Observing (slog entry) s s' a) :
    s' = { s with processed := s.processed || entry.isProcessed } := runs_perform.mp h

theorem runs_ack {a : Unit} (h : Runs Observing (ack msgID) s s' a) : s' = s := by
  obtain ⟨s₁, r, h₁, rfl, -⟩ := runs_bind.mp h
  exact runs_perform.mp h₁

theorem runs_backoff {delay : ℕ} {a : Unit} (h : Runs Observing (backoff delay) s s' a) :
    s' = s := by
  unfold backoff at h
  split_ifs at h
  · exact runs_perform.mp h
  · exact h.1

theorem runs_saveFailed {errMsg : String} {retries : ℕ} {a : Unit}
    (h : Runs Observing (Worker.saveFailed req errMsg retries) s s' a) :
    ∃ u, s'.calls = s.calls ++ u ∧ s'.processed = s.processed ∧ LeftBehind req s.db s'.db u := by
  obtain ⟨s₁, ids, h₁, h⟩ := runs_bind.mp h
  obtain ⟨hid, hcalls, hp⟩ := runs_perform.mp h₁
  have hdb : s₁.db = s.db := (answers_uuidNew.mp hid).1
  obtain ⟨s₂, r, h₂, h₃⟩ := runs_bind.mp h
  obtain ⟨hsql, hp₂⟩ := runs_svc h₂
  obtain ⟨hans, hcalls₂⟩ := runs_sql.mp hsql
  have hs' : s'.db = s₂.db ∧ s'.calls = s₂.calls ∧ s'.processed = s₂.processed := by
    cases r with
    | error err => rw [runs_slog h₃]; simp [LogEntry.isProcessed]
    | ok _ => rw [runs_slog h₃]; simp [LogEntry.isProcessed]
  have hrows : s₂.db.sessions = s.db.sessions ∧ s₂.db.events = s.db.events := by
    rw [← hdb]
    cases r with
    | error err => rw [hans.refused]; exact ⟨rfl, rfl⟩
    | ok a =>
      obtain ⟨e, -, hrun⟩ := hans.accepted
      obtain ⟨h₁, h₂, -⟩ := Stmt.run_rows hrun
      exact ⟨Table.ext h₁, Table.ext h₂⟩
  have hcalls' := hs'.2.1.trans hcalls₂
  rw [hcalls, List.append_assoc] at hcalls'
  exact ⟨_, hcalls', hs'.2.2.trans (hp₂.trans hp),
    .nothing (hs'.1 ▸ hrows.1) (hs'.1 ▸ hrows.2) rfl rfl⟩

theorem runs_onFailure {attempt : ℕ} {err : String} {a : Unit}
    (h : Runs Observing (onFailure workerID msgID req attempt err) s s' a) :
    ∃ u, s'.calls = s.calls ++ u ∧ s'.processed = s.processed ∧ LeftBehind req s.db s'.db u := by
  obtain ⟨s₁, _, h₁, h⟩ := runs_bind.mp h
  have hs₁ : s₁ = s := by
    rw [runs_slog h₁]
    simp [LogEntry.isProcessed]
  rw [hs₁] at h
  split_ifs at h
  · obtain ⟨s₂, _, h₂, h₃⟩ := runs_bind.mp h
    rw [runs_ack h₃]
    exact runs_saveFailed h₂
  · obtain ⟨rfl, -⟩ := h
    exact ⟨[], (List.append_nil _).symm, rfl, .nothing rfl rfl rfl rfl⟩

/-- **Every run of the loop** leaves behind what failed attempts do, or ends with a success. -/
theorem processFrom_cases {attempt : ℕ} {ds : List ℕ} {a : Unit}
    (h : Runs Observing (processFrom workerID msgID req attempt ds) s s' a) :
    ∃ u, s'.calls = s.calls ++ u ∧
      ((s'.processed = true ∧ ∃ now ids extra, Succeeded req s.db s'.db u now ids extra) ∨
        (s'.processed = s.processed ∧ LeftBehind req s.db s'.db u)) := by
  induction ds generalizing attempt s with
  | nil =>
    obtain ⟨rfl, -⟩ := h
    exact ⟨[], (List.append_nil _).symm, Or.inr ⟨rfl, .nothing rfl rfl rfl rfl⟩⟩
  | cons delay ds ih =>
    obtain ⟨s₁, _, h₁, h⟩ := runs_bind.mp h
    rw [runs_backoff h₁] at h
    obtain ⟨s₂, r, h₂, h⟩ := runs_bind.mp h
    obtain ⟨htraced, hp⟩ := runs_svc h₂
    obtain ⟨e, u, -, hcalls, hnow, hi⟩ := ingest_cases htraced
    cases r with
    | ok _ =>
      obtain ⟨s₃, _, h₃, h₄⟩ := runs_bind.mp h
      have hs₃ := runs_slog h₃
      have hs' := runs_ack h₄
      obtain ⟨ids, hsucc⟩ := hi.succeeded
      refine ⟨u, ?_, Or.inl ⟨?_, e.now, ids, [], ?_⟩⟩
      · rw [hs', hs₃, hcalls]
      · rw [hs', hs₃]
        simp [LogEntry.isProcessed]
      · rw [hs', hs₃]
        exact hsucc
    | error err =>
      obtain ⟨s₃, _, h₃, h₄⟩ := runs_bind.mp h
      obtain ⟨u₂, hcalls₂, hp₂, hleft₂⟩ := runs_onFailure h₃
      obtain ⟨u₃, hcalls₃, hend⟩ := ih h₄
      have hleft := (hi.leftBehind hnow).trans hleft₂
      refine ⟨u ++ u₂ ++ u₃, ?_, ?_⟩
      · rw [hcalls₃, hcalls₂, hcalls]
        simp only [List.append_assoc]
      · rcases hend with ⟨hproc, now, ids, extra, hsucc⟩ | ⟨hproc, hleft₃⟩
        · exact Or.inl ⟨hproc, now, ids, hleft.succeeded hsucc⟩
        · exact Or.inr ⟨hproc.trans (hp₂.trans hp), hleft.trans hleft₃⟩

/-- A run of a method, as a run of the worker. -/
theorem svc_runs {α : Type} {x : Svc α} {db db' : DB} {r : Except String α}
    (h : Runs AnyAnswer x.run db db' r) (t : Trace) (b : Bool) :
    ∃ t', Runs AnyAnswer.traced x.run (db, t) (db', t') r ∧
      Runs Observing (svc x) ⟨db, t, b⟩ ⟨db', t', b⟩ r := by
  obtain ⟨t', ht⟩ := runs_traced h t
  refine ⟨t', ht, runs_hoist.mpr ?_⟩
  exact ht.map (f := fun s : DB × Trace => (⟨s.1, s.2, b⟩ : Observed))
    fun c s s' r hc => ⟨hc.1, hc.2, rfl⟩

theorem slog_runs (entry : LogEntry) (o : Observed) : Runs Observing (slog entry) o
    { o with processed := o.processed || entry.isProcessed } () := runs_perform.mpr rfl

theorem slog_runs_other {entry : LogEntry} (h : entry.isProcessed = false) (o : Observed) :
    Runs Observing (slog entry) o o () := by
  have hlog := slog_runs entry o
  rw [h, Bool.or_false] at hlog
  exact hlog

theorem ack_runs (msgID : String) (o : Observed) : Runs Observing (ack msgID) o o () :=
  runs_bind.mpr ⟨o, .ok (), runs_perform.mpr rfl, rfl, rfl⟩

theorem backoff_runs (delay : ℕ) (o : Observed) : Runs Observing (backoff delay) o o () := by
  unfold backoff
  split_ifs
  · exact runs_perform.mpr rfl
  · exact ⟨rfl, rfl⟩

/-- An attempt that stores the batch ends the loop. -/
theorem processFrom_runs_ok {db db' : DB}
    (h : Runs AnyAnswer (Service.ingest req).run db db' (.ok ())) (workerID : ℕ) (msgID : String)
    (t : Trace) (b : Bool) (attempt delay : ℕ) (ds : List ℕ) :
    ∃ t', Runs AnyAnswer.traced (Service.ingest req).run (db, t) (db', t') (.ok ()) ∧
      Runs Observing (processFrom workerID msgID req attempt (delay :: ds)) ⟨db, t, b⟩
        ⟨db', t', true⟩ () := by
  obtain ⟨t', ht, hi⟩ := svc_runs h t b
  have hlog := slog_runs (.batchProcessed workerID req.sessionID req.events.length) ⟨db', t', b⟩
  rw [LogEntry.isProcessed, Bool.or_true] at hlog
  exact ⟨t', ht, processFrom_ok (backoff_runs delay _) hi hlog (ack_runs msgID _)⟩

/-- After a refused attempt other than the last the loop goes on. -/
theorem processFrom_runs_error {db db' : DB} {err : String}
    (h : Runs AnyAnswer (Service.ingest req).run db db' (.error err)) (attempt : ℕ)
    (hattempt : attempt ≠ delays.length - 1) (workerID : ℕ) (msgID : String) (t : Trace) (b : Bool)
    (delay : ℕ) : ∃ t', ∀ ds o,
      Runs Observing (processFrom workerID msgID req (attempt + 1) ds) ⟨db', t', b⟩ o () →
      Runs Observing (processFrom workerID msgID req attempt (delay :: ds)) ⟨db, t, b⟩ o () := by
  obtain ⟨t', -, hi⟩ := svc_runs h t b
  refine ⟨t', fun ds o hrest => processFrom_error (backoff_runs delay _) hi ?_ hrest⟩
  refine runs_bind.mpr ⟨_, (), slog_runs_other rfl _, ?_⟩
  rw [if_neg hattempt]
  exact ⟨rfl, rfl⟩

end Process

/-! ## Once or nothing -/

section OnceOrNothing

variable {req : IngestRequest} {db : DB} {o : Observed}

/-- **Once or nothing**: after a success the tables are those of one successful `Ingest`, with some
ids and clock reading, and hold every event of the batch once; otherwise they are unchanged. -/
structure OnceOrNothing (req : IngestRequest) (db : DB) (o : Observed) : Prop where
  once : o.processed = true → ∃ db₁, Runs Healthy (Service.ingest req).run db db₁ (.ok ()) ∧
    o.db.sessions = db₁.sessions ∧ o.db.events = db₁.events ∧
    (o.db.eventsOf req.sessionID).map ReplayEvent.raw =
      (db.eventsOf req.sessionID).map ReplayEvent.raw ++ req.events
  nothing : o.processed = false → o.db.sessions = db.sessions ∧ o.db.events = db.events

/-- If an attempt succeeded, no increment of the count was refused, or the batch is empty; if none
did, no upsert was accepted. -/
structure CleanRetries (req : IngestRequest) (o : Observed) : Prop where
  counted : o.processed = true → req.events = [] ∨ uncounted o.calls = false
  untouched : o.processed = false → upserted o.calls = false

/-- A success after which the events are stored once is one `Ingest` of the batch. -/
theorem Succeeded.once {db' : DB} {u : Trace} {now : Time} {ids : ℕ → String}
    (h : Succeeded req db db' u now ids []) :
    ∃ db₁, Runs Healthy (Service.ingest req).run db db₁ (.ok ()) ∧
      db'.sessions = db₁.sessions ∧ db'.events = db₁.events ∧
      (db'.eventsOf req.sessionID).map ReplayEvent.raw =
        (db.eventsOf req.sessionID).map ReplayEvent.raw ++ req.events := by
  have hev : db'.events.rows = db.events.rows ++ Service.eventsOf req now ids := by
    rw [h.events, List.append_nil]
  have htok : req.shareToken ≠ "" → ∀ r ∈ db.sessions.rows,
      r.shareToken = some req.shareToken → r.id = req.sessionID := by
    intro hs r hr ht
    by_contra hne
    have hid : (storedRow req now (db.sessions.find req.sessionID)).id = req.sessionID :=
      (kept_preparedRow db).1
    have hr' : r ∈ db'.sessions.rows := by
      rw [h.sessions]
      exact Table.mem_put.mpr (Or.inr ⟨hr, fun hk => hne (hk.trans hid)⟩)
    have hrow : storedRow req now (db.sessions.find req.sessionID) ∈ db'.sessions.rows := by
      rw [h.sessions]
      exact Table.mem_put.mpr (Or.inl rfl)
    exact hne ((db'.token_unique r hr' _ hrow _ ht (preparedRow_shareToken hs)).trans hid)
  obtain ⟨db₁, hrun, hst⟩ := ingest_runs db req now ids (hev ▸ db'.events.nodup) htok
  have heq : db'.events = db₁.events := Table.ext (hev.trans hst.events.symm)
  refine ⟨db₁, hrun.mono fun _ _ _ _ h => h.healthy, h.sessions.trans hst.sessions.symm, heq, ?_⟩
  rw [DB.eventsOf, heq, ← DB.eventsOf, hst.eventsOf_self, List.map_append, map_raw_eventsOf]

/-- **Retries have a once-or-nothing effect exactly if they are clean.** For the second direction
the clock is ahead of the stored start of the session. -/
theorem once_or_nothing_iff {workerID : ℕ} {msgID : String}
    (h : Runs Observing (process workerID msgID req) ⟨db, [], false⟩ o ()) :
    (CleanRetries req o → OnceOrNothing req db o) ∧
      ((∀ now, ⟨.timeNow, now⟩ ∈ o.calls → ∀ r ∈ db.sessions.find req.sessionID,
        r.startedAt < now) → OnceOrNothing req db o → CleanRetries req o) := by
  obtain ⟨u, hcalls, hend⟩ := processFrom_cases h
  rw [List.nil_append] at hcalls
  subst hcalls
  rcases hend with ⟨hproc, now, ids, extra, hsucc⟩ | ⟨hproc, hleft⟩
  · refine ⟨fun hclean => ⟨fun _ => ?_, fun hp => ?_⟩, fun _ honce => ⟨fun _ => ?_, fun hp => ?_⟩⟩
    · rw [hsucc.single (hclean.counted hproc)] at hsucc
      exact hsucc.once
    · rw [hproc] at hp
      cases hp
    · by_contra hbad
      rw [not_or, Bool.not_eq_false] at hbad
      obtain ⟨db₁, hrun, -, he, -⟩ := honce.once hproc
      obtain ⟨-, now', ids', hst⟩ := ingest_healthy hrun
      -- the events of one `Ingest` leave no room for the repeated ones
      have hlen := congrArg List.length (hsucc.events.symm.trans (he ▸ hst.events))
      simp only [List.length_append, length_eventsOf] at hlen
      have hrep := hsucc.repeated hbad.2
      exact hbad.1 (List.eq_nil_of_length_eq_zero (by omega))
    · rw [hproc] at hp
      cases hp
  · change o.processed = false at hproc
    refine ⟨fun hclean => ⟨fun hp => ?_, fun _ => ?_⟩,
      fun hclock hnothing => ⟨fun hp => ?_, fun _ => ?_⟩⟩
    · rw [hproc] at hp
      cases hp
    · cases hleft with
      | nothing hs he hu hc => exact ⟨hs, he⟩
      | row row extra hrow hnow hs he hu hnone hsome =>
        rw [hclean.untouched hproc] at hu
        cases hu
    · rw [hproc] at hp
      cases hp
    · cases hleft with
      | nothing hs he hu hc => exact hu
      | row row extra hrow hnow hs he hu hnone hsome =>
        have hfind : db.sessions.find req.sessionID = some row := by
          rw [← (hnothing.nothing hproc).1, hs]
          exact find_put_id hrow.1
        exact absurd (hclock _ hnow row hfind) (lt_irrefl _)

/-- The answers of a worker on its own, the database in the environment `e`. -/
def execObserving (e : Env) : (c : WorkerCall) → Observed → Option (Observed × WorkerResp c)
  | .svc c, o =>
    some (⟨(exec e c o.db).1, o.calls ++ [⟨c, (exec e c o.db).2⟩], o.processed⟩, (exec e c o.db).2)
  | .slog entry, o => some ({ o with processed := o.processed || entry.isProcessed }, ())
  | .ack _, o => some (o, .ok ())
  | .sleep _, o => some (o, ())

theorem execObserving_observing {e : Env} {c : WorkerCall} {o o' : Observed} {r : WorkerResp c}
    (h : execObserving e c o = some (o', r)) : Observing c o o' r := by
  cases c with
  | svc c =>
    obtain ⟨rfl, rfl⟩ := Prod.mk.inj (Option.some.inj h)
    exact ⟨⟨e, trivial, rfl⟩, rfl, rfl⟩
  | slog entry => exact (Prod.mk.inj (Option.some.inj h)).1.symm
  | ack m => exact (Prod.mk.inj (Option.some.inj h)).1.symm
  | sleep n => exact (Prod.mk.inj (Option.some.inj h)).1.symm

/-- The insertion of the events is refused at the first attempt and accepted at the second: the
batch is stored once. -/
theorem once_or_nothing_second_attempt : ∃ o,
    Runs Observing (process 1 "1-0" sampleBatch) ⟨DB.empty, [], false⟩ o () ∧
      (∃ events, ⟨.sql (.insertEvents events), .error "timeout"⟩ ∈ o.calls) ∧
      o.processed = true ∧ OnceOrNothing sampleBatch DB.empty o := by
  let e (fault : Option String) (now : Time) : Env := .quiet fault now fun _ => sampleEventID false
  obtain ⟨o, hfollow, hrefused, hproc, hcounted⟩ : ∃ o,
      (process 1 "1-0" sampleBatch).follow execObserving (List.replicate 4 (e none 0) ++
        e (some "timeout") 0 :: List.replicate 9 (e none 1)) ⟨DB.empty, [], false⟩ =
          some (o, ()) ∧
      o.calls[4]? = some ⟨.sql (.insertEvents (Service.eventsOf sampleBatch 0
        fun _ => sampleEventID false)), .error "timeout"⟩ ∧
      o.processed = true ∧ uncounted o.calls = false := ⟨_, rfl, rfl, rfl, rfl⟩
  have hruns := runs_follow (T := Observing) (fun _ _ _ _ _ h => execObserving_observing h) hfollow
  refine ⟨o, hruns, ⟨_, List.mem_of_getElem? hrefused⟩, hproc, ?_⟩
  refine (once_or_nothing_iff hruns).1 ⟨fun _ => Or.inr hcounted, fun hp => ?_⟩
  rw [hproc] at hp
  cases hp

/-- If the count is refused once, the second attempt stores the event a second time. -/
theorem not_once_or_nothing : ¬ ∀ workerID msgID req db o,
    Runs Observing (process workerID msgID req) ⟨db, [], false⟩ o () → OnceOrNothing req db o := by
  intro hall
  obtain ⟨db₁, hrun₁, -, he₁⟩ := ingest_runs_uncounted DB.empty
    sampleBatch 0 (fun _ => sampleEventID false)
    (Table.nodup_append_of_notMem (t := Table.empty) (by decide)) (fun h => absurd rfl h) "timeout"
  have hkeys : db₁.events.keys = [sampleEventID false] := congrArg (List.map ReplayEvent.id) he₁
  obtain ⟨db₂, hrun₂, hst₂⟩ :=
    plainBatch_runs db₁ sampleID ⟨4, .obj [], 1⟩ 1 (sampleEventID true) (by rw [hkeys]; decide)
  obtain ⟨t₁, hfirst⟩ := processFrom_runs_error hrun₁ 0 (by decide) 1 "1-0" [] false 0
  obtain ⟨t₂, -, hsecond⟩ := processFrom_runs_ok (hrun₂.mono fun _ _ _ _ h => h.healthy.1) 1 "1-0"
    t₁ false 1 2 [8, 32]
  obtain ⟨_, -, -, -, honce⟩ := (hall _ _ _ _ _ (hfirst _ _ hsecond)).once rfl
  have htwo : (db₂.eventsOf sampleID).length = 2 := by
    rw [DB.eventsOf, hst₂.events, he₁]
    rfl
  have hlen := congrArg List.length honce
  rw [List.length_map] at hlen
  exact absurd (htwo.symm.trans hlen) (by decide)

end OnceOrNothing

end BatRewind
