import BatRewind.Session.Storing

/-!
# The event counts

`event_count` is kept up by `IncrementEventCount`, while every batch of a session also rewrites
the whole row by `UpsertSession`, and `omitOnUpsert` does not list `event_count`: the count starts
again from zero with every batch.

* `CountsMatch`: every session row counts its events.
* **`ServiceRuns.countsMatch`**: the counts match in every run in which no batch is ingested for
  a session that already has events.
-/

namespace BatRewind

open Encoding Tables Effects Effects.Prog

/-- **The invariant**: every session row holds the number of its events. -/
def CountsMatch (db : DB) : Prop :=
  ∀ s ∈ db.sessions.rows, s.eventCount = (db.eventsOf s.id).length

/-- Every statement is accepted, and a batch is only ingested while its session has no events. -/
def FirstBatches : Handler Call Resp DB := fun c db db' r =>
  Healthy c db db' r ∧ ∀ s, c = .sql (.updateSession s) → db.eventsOf s.id = []

/-! ## One batch -/

section Batch

variable {req : IngestRequest} {now : Time} {ids : ℕ → String} {db db' : DB}

/-- After a batch the row counts the events of the batch alone. -/
theorem Stored.countsMatch_iff (h : Stored req now ids db db') (hdb : CountsMatch db) :
    CountsMatch db' ↔ db.eventsOf req.sessionID = [] := by
  have hid : (storedRow req now (db.sessions.find req.sessionID)).id = req.sessionID :=
    preparedRow_id
  constructor
  · intro hm
    have hrow := hm _ (by rw [h.sessions]; exact Table.mem_put.mpr (Or.inl rfl))
    rw [hid, h.eventsOf_self, List.length_append, length_eventsOf] at hrow
    change req.events.length = _ at hrow
    exact List.eq_nil_of_length_eq_zero (by omega)
  · intro hnil s hs
    rw [h.sessions, Table.mem_put] at hs
    rcases hs with rfl | ⟨hs, hne⟩
    · rw [hid, h.eventsOf_self, hnil, List.nil_append, length_eventsOf]
      rfl
    · rw [h.eventsOf_other (hid ▸ hne)]
      exact hdb s hs

end Batch

/-! ## The other statements -/

/-- The statements that neither count events nor insert any. -/
def Stmt.keepsCounts : Stmt → Bool
  | .updateSession _ | .insertSession _ | .insertEvents _ | .incrementEventCount _ _ => false
  | _ => true

section Statements

variable {db db' : DB}

theorem countsMatch_updateRow (h : CountsMatch db) {id : String}
    {f : ReplaySession → ReplaySession} (hs : db'.sessions.rows = updateRow id f db.sessions.rows)
    (he : db'.events.rows = db.events.rows) (hid : ∀ r, (f r).id = r.id)
    (hcount : ∀ r, (f r).eventCount = r.eventCount) : CountsMatch db' := by
  intro s hs'
  rw [hs] at hs'
  obtain ⟨r, hr, rfl⟩ := List.mem_map.mp hs'
  have hr' : (if r.id = id then f r else r).id = r.id ∧
      (if r.id = id then f r else r).eventCount = r.eventCount := by
    split_ifs
    · exact ⟨hid r, hcount r⟩
    · exact ⟨rfl, rfl⟩
  rw [hr'.1, hr'.2, DB.eventsOf, he]
  exact h r hr

theorem countsMatch_filter (h : CountsMatch db) {p : String → Bool}
    (hs : db'.sessions.rows = db.sessions.rows.filter fun r => p r.id)
    (he : db'.events.rows = db.events.rows.filter fun ev => p ev.sessionID) : CountsMatch db' := by
  intro s hs'
  rw [hs] at hs'
  obtain ⟨hmem, hp⟩ := List.mem_filter.mp hs'
  rw [h s hmem, DB.eventsOf, DB.eventsOf, he, List.filter_filter]
  congr 1
  refine List.filter_congr fun ev _ => ?_
  by_cases hev : ev.sessionID = s.id <;> simp [hev, hp]

theorem countsMatch_run {q : Stmt} (hq : q.keepsCounts = true) {e : Env} {a : Answer q}
    (hrun : q.run e db = .ok (db', a)) (h : CountsMatch db) : CountsMatch db' := by
  obtain ⟨hs, he, -⟩ := Stmt.run_rows hrun
  cases q with
  | updateSession s | insertSession s | insertEvents es | incrementEventCount id n => cases hq
  | setClientMetadata id d => exact countsMatch_updateRow h hs he (fun _ => rfl) fun _ => rfl
  | updateSessionEnd id t d => exact countsMatch_updateRow h hs he (fun _ => rfl) fun _ => rfl
  | setShareToken id token => exact countsMatch_updateRow h hs he (fun _ => rfl) fun _ => rfl
  | deleteSession id => exact countsMatch_filter (p := fun x => x ≠ id) h hs he
  | purgeSessions ids => exact countsMatch_filter (p := fun x => x ∉ ids) h hs he
  | _ =>
    intro s hmem
    rw [hs] at hmem
    rw [DB.eventsOf, he]
    exact h s hmem

end Statements

/-! ## Every call of the service -/

section Calls

theorem FirstBatches.healthy {c : Call} {db db' : DB} {r : Resp c}
    (h : FirstBatches c db db' r) : Healthy c db db' r := h.1

theorem preserves_sql {q : Stmt} (hq : q.keepsCounts = true) :
    Preserves FirstBatches CountsMatch (sql q).run := by
  refine Triple.perform fun db db' r hdb h => ?_
  obtain ⟨a, rfl⟩ := h.1.2
  obtain ⟨e, -, hrun⟩ := h.1.1.accepted
  exact countsMatch_run hq hrun hdb

theorem preserves_timeNow : Preserves FirstBatches CountsMatch timeNow.run := by
  refine Preserves.lift (Triple.perform fun db db' r hdb h => ?_)
  rw [(answers_timeNow.mp h.1.1).1]
  exact hdb

/-- The session of the batch had no events when its upsert was sent. -/
theorem ingest_first {req : IngestRequest} {db db' : DB} {r : Except String Unit}
    (h : Runs FirstBatches (Service.ingest req).run db db' r) :
    db.eventsOf req.sessionID = [] := by
  rcases runs_bind_except.mp h with ⟨db₁, now, h₁, h₂⟩ | ⟨msg, h₁, -⟩
  · obtain ⟨now', h₀, -⟩ := runs_lift.mp h₁
    have hdb : db₁ = db := (answers_timeNow.mp (runs_perform.mp h₀).1.1).1
    obtain ⟨_, _, hupsert⟩ := h₂.left_except
    obtain ⟨_, hsave, -⟩ := runs_adapt.mp hupsert
    obtain ⟨_, _, hupdate⟩ := hsave.left_except
    exact hdb ▸ (runs_perform.mp hupdate).2 _ rfl
  · obtain ⟨_, -, hr⟩ := runs_lift.mp h₁
    cases hr

/-- The call is not the `UPDATE` of an upsert. -/
def Call.notUpdate : Call → Prop
  | .sql (.updateSession _) => False
  | _ => True

theorem Healthy.firstBatches {c : Call} {db db' : DB} {r : Resp c} (hc : c.notUpdate)
    (h : Healthy c db db' r) : FirstBatches c db db' r := by
  refine ⟨h, ?_⟩
  rintro s rfl
  exact hc.elim

theorem preserves_ingest (req : IngestRequest) :
    Preserves FirstBatches CountsMatch (Service.ingest req).run := by
  intro db db' r hdb h
  obtain ⟨-, now, ids, hst⟩ := ingest_healthy (h.mono fun _ _ _ _ h => h.healthy)
  exact (hst.countsMatch_iff hdb).mpr (ingest_first h)

theorem preserves_retryFailed (id : String) :
    Preserves FirstBatches CountsMatch (Service.retryFailed id).run := by
  refine ((preserves_sql rfl).adapt _).bind_except fun f => ?_
  refine (Preserves.adapt (preserves_pure _) _).bind_except fun req => ?_
  refine ((preserves_ingest req).adapt _).bind_except fun _ => ?_
  exact preserves_timeNow.bind_except fun now => preserves_sql rfl

theorem preserves_retryEach (items : List FailedIngest) (succeeded : ℕ) :
    Preserves FirstBatches CountsMatch (Service.retryEach items succeeded).run := by
  induction items generalizing succeeded with
  | nil => exact preserves_pure _
  | cons f items ih =>
    refine (preserves_retryFailed f.id).lift.bind_except fun r => ?_
    cases r with
    | ok _ => exact ih _
    | error _ => exact ih _

theorem preserves_upkeep {α : Type} {p : Prog Call Resp α}
    (h : AllCalls (fun _ _ => True) Call.upkeep p) : Preserves FirstBatches CountsMatch p := by
  refine h.preserves fun c db db' r hc hdb hT => ?_
  cases c with
  | timeNow => exact (answers_timeNow.mp hT.1.1).1 ▸ hdb
  | uuidNew => exact (answers_uuidNew.mp hT.1.1).1 ▸ hdb
  | sql q =>
    refine preserves_sql ?_ db db' r hdb (runs_perform.mpr hT)
    cases q <;> first | rfl | exact hc.elim

theorem preserves_program (c : ServiceCall) : Preserves FirstBatches CountsMatch c.program := by
  cases c with
  | ingest req => exact preserves_ingest req
  | finalizeSession id => exact preserves_upkeep (allCalls_finalizeSession id)
  | createShareToken id =>
    exact (preserves_upkeep (allCalls_createShareToken id)).bind_except fun _ => preserves_pure _
  | delete id => exact preserves_sql rfl
  | purgeOlderThan retention =>
    exact (preserves_upkeep (allCalls_purgeOlderThan retention)).bind_except
      fun _ => preserves_pure _
  | saveFailed f => exact preserves_sql rfl
  | retryFailed id => exact preserves_retryFailed id
  | retryAllFailed =>
    exact Preserves.bind_except ((preserves_sql rfl).bind_except fun items =>
      preserves_retryEach items 0) fun _ => preserves_pure _

/-- **The counts match** after every call of a run in which no batch is ingested for a session
that already has events. -/
theorem ServiceRuns.countsMatch {calls : List ServiceCall} {db db' : DB}
    (hempty : db.sessions.rows = []) (hruns : ServiceRuns FirstBatches calls db db') :
    CountsMatch db' := by
  refine hruns.preserves preserves_program fun s hs => ?_
  rw [hempty] at hs
  cases hs

/-- The answers of a database that accepts every statement, while the session of an upsert has no
events. -/
def execFirst (e : Env) : (c : Call) → DB → Option (DB × Resp c)
  | .sql (.updateSession s), db =>
    if (db.eventsOf s.id).isEmpty then execHealthy e (.sql (.updateSession s)) db else none
  | c, db => execHealthy e c db

theorem execFirst_firstBatches {e : Env} {c : Call} {db db' : DB} {r : Resp c}
    (h : execFirst e c db = some (db', r)) : FirstBatches c db db' r := by
  cases c with
  | timeNow => exact (execHealthy_healthy (c := .timeNow) h).firstBatches trivial
  | uuidNew => exact (execHealthy_healthy (c := .uuidNew) h).firstBatches trivial
  | sql q =>
    cases q with
    | updateSession s =>
      obtain ⟨hfirst, hexec⟩ := Option.ite_none_right_eq_some.mp h
      refine ⟨execHealthy_healthy hexec, ?_⟩
      rintro s ⟨⟩
      exact List.isEmpty_iff.mp hfirst
    | _ =>
      simp only [execFirst] at h
      exact (execHealthy_healthy h).firstBatches trivial

/-- A batch of two events for another session. -/
def otherBatch : IngestRequest := plainBatch otherID [⟨4, .obj [], 1⟩, ⟨2, .obj [], 1⟩]

/-- The counts of two sessions: one is finalized, the other deleted and ingested once more. -/
theorem countsMatch_two_sessions : ∃ db', ServiceRuns FirstBatches [.ingest sampleBatch,
      .ingest otherBatch, .finalizeSession sampleID, .delete otherID, .ingest otherBatch]
      DB.empty db' ∧
    db'.sessions.rows.map (fun s => (s.id, s.eventCount, s.endedAt)) =
      [(sampleID, 1, some 2), (otherID, 2, none)] ∧
    CountsMatch db' := by
  let e (now : Time) (ids : ℕ → String) : Env := .quiet none now ids
  let twoIDs (i : ℕ) : String := sampleEventID (i == 1)
  have hrows : (followCalls execFirst [
      (.ingest sampleBatch, List.replicate 6 (e 0 fun _ => sampleID)),
      (.ingest otherBatch, List.replicate 6 (e 1 twoIDs)),
      (.finalizeSession sampleID, List.replicate 3 (e 2 twoIDs)),
      (.delete otherID, [e 3 twoIDs]),
      (.ingest otherBatch, List.replicate 6 (e 4 twoIDs))] DB.empty).map
        (fun db => db.sessions.rows.map fun s => (s.id, s.eventCount, s.endedAt)) =
      some [(sampleID, 1, some 2), (otherID, 2, none)] := by decide +kernel
  obtain ⟨db, hfollow, hrows⟩ := Option.map_eq_some_iff.mp hrows
  have hruns := followCalls_runs (T := FirstBatches)
    (fun _ _ _ _ _ h => execFirst_firstBatches h) hfollow
  exact ⟨db, hruns, hrows, hruns.countsMatch rfl⟩

/-- Two batches of one event each leave two events and the count one. -/
theorem not_countsMatch_two_batches :
    ¬ ∀ calls db', ServiceRuns Healthy calls DB.empty db' → CountsMatch db' := by
  intro hall
  obtain ⟨db₁, hrun₁, hst₁⟩ :=
    plainBatch_runs DB.empty sampleID ⟨4, .obj [], 1⟩ 0 (sampleEventID false) (by decide)
  have hkeys : db₁.events.keys = [sampleEventID false] :=
    congrArg (List.map ReplayEvent.id) hst₁.events
  obtain ⟨db₂, hrun₂, hst₂⟩ :=
    plainBatch_runs db₁ sampleID ⟨4, .obj [], 2⟩ 1 (sampleEventID true) (by rw [hkeys]; decide)
  have hm₁ := hall [.ingest _] db₁ ⟨db₁, _, hrun₁.mono fun _ _ _ _ h => h.healthy, rfl⟩
  have hm₂ := hall [.ingest _, .ingest _] db₂ ⟨db₁, _, hrun₁.mono fun _ _ _ _ h => h.healthy, db₂,
    _, hrun₂.mono fun _ _ _ _ h => h.healthy, rfl⟩
  have hnil := (hst₂.countsMatch_iff hm₁).mp hm₂
  cases hst₁.eventsOf_self.symm.trans hnil

end Calls

end BatRewind
