import Mathlib.Algebra.Order.Group.Multiset
import Mathlib.Data.Prod.Lex
import BatRewind.Lib.Pool
import BatRewind.Lib.Sorted
import BatRewind.Session.EventCount

/-!
# The order of replay

`GetEvents` orders by `timestamp, created_at`. All events of a batch share `created_at`, and `seq`
is not a sort key.

* `getEvents_runs`: the rows that `GetEvents` may return are the rows of the session in any order
  that respects the sort keys.
* **`capture_order_iff`**: batches stored one after another are returned in capture order by every
  such order exactly if events of one batch with the same timestamp are the same event.
* **`order_independent`**: batches with distinct timestamps, ingested side by side, are returned in
  the order of their timestamps, whatever the interleaving.
-/

namespace BatRewind

open Encoding Tables Effects Effects.Prog

/-- The sort keys of `GetEvents`. -/
def ReplayEvent.key (e : ReplayEvent) : ℤ ×ₗ ℤ := toLex (e.timestamp, e.createdAt)

theorem eventLE_iff {a b : ReplayEvent} : eventLE a b ↔ a.key ≤ b.key := by
  rw [ReplayEvent.key, ReplayEvent.key, Prod.Lex.toLex_le_toLex]
  rfl

instance : Std.Total eventLE where
  total a b := by
    simp only [eventLE_iff]
    exact le_total _ _

instance : IsTrans ReplayEvent eventLE where
  trans a b c := by
    simp only [eventLE_iff]
    exact le_trans

theorem key_le_key {a b : ReplayEvent} (ht : a.timestamp ≤ b.timestamp)
    (hc : a.createdAt ≤ b.createdAt) : a.key ≤ b.key := by
  rw [← eventLE_iff]
  rcases lt_or_eq_of_le ht with h | h
  · exact Or.inl h
  · exact Or.inr ⟨h, hc⟩

theorem timestamp_le {a b : ReplayEvent} (h : a.key ≤ b.key) : a.timestamp ≤ b.timestamp := by
  rcases eventLE_iff.mpr h with h | h
  · exact h.le
  · exact h.1.le

theorem key_eq_key {a b : ReplayEvent} :
    a.key = b.key ↔ a.timestamp = b.timestamp ∧ a.createdAt = b.createdAt := by
  rw [ReplayEvent.key, ReplayEvent.key, toLex_inj, Prod.mk.injEq]

theorem exists_scan {ρ : Type} {l rows : List ρ} (h : rows.Perm l) :
    ∃ scan : Scan ρ, scan.1 l = rows := by
  classical
  refine ⟨⟨fun m => if m = l then rows else m, fun m => ?_⟩, if_pos rfl⟩
  dsimp only
  split_ifs with hm
  · rw [hm]
    exact h
  · exact .refl m

/-- **The rows that `GetEvents` may return.** -/
theorem getEvents_runs {sid : String} {db db' : DB} {rows : List ReplayEvent} :
    Runs Healthy (Repository.getEvents sid).run db db' (.ok rows) ↔
      db' = db ∧ rows.Perm (db.eventsOf sid) ∧ rows.Pairwise fun a b => a.key ≤ b.key := by
  constructor
  · intro h
    obtain ⟨e, -, hrun⟩ := (runs_perform.mp h).1.accepted
    cases hrun
    refine ⟨rfl, (List.perm_insertionSort _ _).trans (e.scanEvents.2 _), ?_⟩
    exact (List.pairwise_insertionSort eventLE _).imp eventLE_iff.mp
  · rintro ⟨rfl, hperm, hsorted⟩
    -- the database may scan the rows in the order in which they are returned
    obtain ⟨scan, hscan⟩ := exists_scan hperm
    let e : Env := { Env.quiet none 0 fun _ => "" with scanEvents := scan }
    have hsort : (scan.1 (db'.eventsOf sid)).insertionSort eventLE = rows := by
      rw [hscan]
      exact List.Pairwise.insertionSort_eq (hsorted.imp eventLE_iff.mpr)
    have hrun : (Stmt.selectEvents sid).run e db' = .ok (db', rows) :=
      congrArg (fun l => Except.ok (db', l)) hsort
    exact runs_perform.mpr ⟨answers_accept trivial rfl hrun, rows, rfl⟩

/-! ## One batch after another -/

section Sequential

/-- The batches are stored one after another, each at its clock reading. -/
def IngestsAt : List (Time × IngestRequest) → DB → DB → Prop
  | [], db, db' => db' = db
  | (now, req) :: batches, db, db' =>
    ∃ db₁, Runs (HealthyAt now) (Service.ingest req).run db db₁ (.ok ()) ∧
      IngestsAt batches db₁ db'

/-- The rows of the batches, with some event ids. -/
def RowsOf : List (Time × IngestRequest) → List ReplayEvent → Prop
  | [], rows => rows = []
  | (now, req) :: batches, rows =>
    ∃ ids rest, rows = Service.eventsOf req now ids ++ rest ∧ RowsOf batches rest

variable {sid : String} {batches : List (Time × IngestRequest)} {rows : List ReplayEvent}

theorem IngestsAt.rowsOf {db db' : DB} (h : IngestsAt batches db db')
    (hsid : ∀ b ∈ batches, b.2.sessionID = sid) :
    ∃ rows, db'.eventsOf sid = db.eventsOf sid ++ rows ∧ RowsOf batches rows := by
  induction batches generalizing db with
  | nil => exact ⟨[], by rw [h, List.append_nil], rfl⟩
  | cons b batches ih =>
    obtain ⟨now, req⟩ := b
    obtain ⟨db₁, h₁, h₂⟩ := h
    obtain ⟨-, ids, hst⟩ := ingest_healthyAt h₁
    obtain ⟨rest, hrest, hrows⟩ := ih h₂ fun b hb => hsid b (List.mem_cons_of_mem _ hb)
    refine ⟨Service.eventsOf req now ids ++ rest, ?_, ids, rest, rfl, hrows⟩
    have hreq : req.sessionID = sid := hsid _ List.mem_cons_self
    rw [hrest, ← hreq, hst.eventsOf_self, List.append_assoc]

theorem RowsOf.map_raw (h : RowsOf batches rows) :
    rows.map ReplayEvent.raw = batches.flatMap fun b => b.2.events := by
  induction batches generalizing rows with
  | nil => rw [h]; rfl
  | cons b batches ih =>
    obtain ⟨ids, rest, rfl, hrest⟩ := h
    rw [List.map_append, map_raw_eventsOf, ih hrest, List.flatMap_cons]

/-- Every row comes from one of the batches and carries its clock reading. -/
theorem RowsOf.exists_batch (h : RowsOf batches rows) {r : ReplayEvent} (hr : r ∈ rows) :
    ∃ b ∈ batches, r.createdAt = b.1 ∧ r.raw ∈ b.2.events := by
  induction batches generalizing rows with
  | nil => rw [h] at hr; cases hr
  | cons b batches ih =>
    obtain ⟨ids, rest, rfl, hrest⟩ := h
    rcases List.mem_append.mp hr with hr | hr
    · refine ⟨b, List.mem_cons_self, ?_, ?_⟩
      · obtain ⟨i, hi, rfl⟩ := List.mem_mapIdx.mp hr
        rfl
      · rw [← map_raw_eventsOf b.2 b.1 ids]
        exact List.mem_map_of_mem hr
    · obtain ⟨b', hb', h'⟩ := ih hrest hr
      exact ⟨b', List.mem_cons_of_mem _ hb', h'⟩

theorem RowsOf.mem_of_batch (h : RowsOf batches rows) {b : Time × IngestRequest}
    (hb : b ∈ batches) {ev : RawEvent} (hev : ev ∈ b.2.events) :
    ∃ r ∈ rows, r.createdAt = b.1 ∧ r.raw = ev := by
  induction batches generalizing rows with
  | nil => cases hb
  | cons b' batches ih =>
    obtain ⟨ids, rest, rfl, hrest⟩ := h
    rcases List.mem_cons.mp hb with rfl | hb
    · rw [← map_raw_eventsOf b.2 b.1 ids] at hev
      obtain ⟨r, hr, rfl⟩ := List.mem_map.mp hev
      refine ⟨r, List.mem_append_left _ hr, ?_, rfl⟩
      obtain ⟨i, hi, rfl⟩ := List.mem_mapIdx.mp hr
      rfl
    · obtain ⟨r, hr, h'⟩ := ih hrest hb
      exact ⟨r, List.mem_append_right _ hr, h'⟩

/-- Batches in capture order at increasing clock readings are stored in the order of the keys. -/
theorem RowsOf.sorted (h : RowsOf batches rows)
    (hclock : (batches.map Prod.fst).Pairwise (· < ·))
    (hcapture : (batches.flatMap fun b => b.2.events).Pairwise fun e f =>
      e.timestamp ≤ f.timestamp) : rows.Pairwise fun a b => a.key ≤ b.key := by
  induction batches generalizing rows with
  | nil => rw [h]; exact List.Pairwise.nil
  | cons b batches ih =>
    obtain ⟨ids, rest, rfl, hrest⟩ := h
    rw [List.map_cons, List.pairwise_cons] at hclock
    rw [List.flatMap_cons, List.pairwise_append] at hcapture
    obtain ⟨hin, hout, hcross⟩ := hcapture
    have hblock : ∀ r ∈ Service.eventsOf b.2 b.1 ids, r.createdAt = b.1 := by
      intro r hr
      obtain ⟨i, hi, rfl⟩ := List.mem_mapIdx.mp hr
      rfl
    rw [List.pairwise_append]
    refine ⟨?_, ih hrest hclock.2 hout, fun a ha r hr => ?_⟩
    · rw [← map_raw_eventsOf b.2 b.1 ids, List.pairwise_map] at hin
      refine hin.imp_of_mem fun ha hr hle => key_le_key hle ?_
      rw [hblock _ ha, hblock _ hr]
    · refine key_le_key ?_ ?_
      · refine hcross a.raw ?_ r.raw ?_
        · rw [← map_raw_eventsOf b.2 b.1 ids]
          exact List.mem_map_of_mem ha
        · rw [← hrest.map_raw]
          exact List.mem_map_of_mem hr
      · obtain ⟨b', hb', hc, -⟩ := hrest.exists_batch hr
        rw [hblock a ha, hc]
        exact (hclock.1 _ (List.mem_map_of_mem hb')).le

/-- Rows with one key come from one batch. -/
theorem RowsOf.same_batch (h : RowsOf batches rows)
    (hclock : (batches.map Prod.fst).Pairwise (· < ·)) {a r : ReplayEvent} (ha : a ∈ rows)
    (hr : r ∈ rows) (hkey : a.key = r.key) :
    ∃ b ∈ batches, a.raw ∈ b.2.events ∧ r.raw ∈ b.2.events ∧ a.raw.timestamp = r.raw.timestamp := by
  obtain ⟨b, hb, hc, hab⟩ := h.exists_batch ha
  obtain ⟨b', hb', hc', hrb⟩ := h.exists_batch hr
  obtain ⟨ht, hcc⟩ := key_eq_key.mp hkey
  have hnd : (batches.map Prod.fst).Nodup := hclock.imp ne_of_lt
  obtain rfl : b = b' := List.inj_on_of_nodup_map hnd hb hb' (by rw [← hc, ← hc', hcc])
  exact ⟨b, hb, hab, hrb, ht⟩

/-- Two different events of a batch with one timestamp may be returned in either order. -/
theorem IngestsAt.exists_other_order {db db' : DB} (hruns : IngestsAt batches db db')
    (hsid : ∀ b ∈ batches, b.2.sessionID = sid) (hempty : db.eventsOf sid = [])
    (hclock : (batches.map Prod.fst).Pairwise (· < ·))
    (hcapture : (batches.flatMap fun b => b.2.events).Pairwise fun e f =>
      e.timestamp ≤ f.timestamp) {b : Time × IngestRequest} (hb : b ∈ batches) {e f : RawEvent}
    (he : e ∈ b.2.events) (hf : f ∈ b.2.events) (ht : e.timestamp = f.timestamp) (hne : e ≠ f) :
    ∃ rows, Runs Healthy (Repository.getEvents sid).run db' db' (.ok rows) ∧
      rows.map ReplayEvent.raw ≠ batches.flatMap fun b => b.2.events := by
  obtain ⟨rows, hrows, hof⟩ := hruns.rowsOf hsid
  rw [hempty, List.nil_append] at hrows
  obtain ⟨r, hr, hrc, rfl⟩ := hof.mem_of_batch hb he
  obtain ⟨r', hr', hrc', rfl⟩ := hof.mem_of_batch hb hf
  obtain ⟨rows', hperm, hsorted, hdiff⟩ := Sorted.exists_swap (hof.sorted hclock hcapture) hr hr'
    (key_eq_key.mpr ⟨ht, hrc.trans hrc'.symm⟩) hne
  rw [hof.map_raw] at hdiff
  exact ⟨rows', getEvents_runs.mpr ⟨rfl, hrows ▸ hperm, hsorted⟩, hdiff⟩

/-- **Capture order.** Batches stored one after another are replayed in capture order, whatever
order the database chooses among equal keys, exactly if events of one batch with the same timestamp
are the same event. -/
theorem capture_order_iff {db db' : DB} (hruns : IngestsAt batches db db')
    (hsid : ∀ b ∈ batches, b.2.sessionID = sid) (hempty : db.eventsOf sid = [])
    (hclock : (batches.map Prod.fst).Pairwise (· < ·))
    (hcapture : (batches.flatMap fun b => b.2.events).Pairwise fun e f =>
      e.timestamp ≤ f.timestamp) :
    (∀ db'' rows, Runs Healthy (Repository.getEvents sid).run db' db'' (.ok rows) →
      rows.map ReplayEvent.raw = batches.flatMap fun b => b.2.events) ↔
    ∀ b ∈ batches, ∀ e ∈ b.2.events, ∀ f ∈ b.2.events, e.timestamp = f.timestamp → e = f := by
  constructor
  · intro h b hb e he f hf ht
    by_contra hne
    obtain ⟨rows, hget, hdiff⟩ :=
      hruns.exists_other_order hsid hempty hclock hcapture hb he hf ht hne
    exact hdiff (h db' rows hget)
  · intro hties db'' rows hget
    obtain ⟨-, hperm, hsorted⟩ := getEvents_runs.mp hget
    obtain ⟨stored, hstored, hof⟩ := hruns.rowsOf hsid
    rw [hstored, hempty, List.nil_append] at hperm
    rw [← hof.map_raw]
    refine Sorted.map_eq_of_perm_of_keys hperm (hof.sorted hclock hcapture) hsorted ?_
    intro a ha r hr hkey
    obtain ⟨b, hb, hab, hrb, ht⟩ := hof.same_batch hclock ha hr hkey
    exact hties b hb _ hab _ hrb ht

/-- A batch of two events can be stored. -/
theorem ingestsAt_pair (e f : RawEvent) :
    ∃ db', IngestsAt [(0, plainBatch sampleID [e, f])] DB.empty db' := by
  have hids : [sampleEventID false, sampleEventID true].Nodup := by decide
  obtain ⟨db', hrun, -⟩ := ingest_runs DB.empty (plainBatch sampleID [e, f]) 0
    (fun i => sampleEventID (i != 0)) hids fun h => absurd rfl h
  exact ⟨db', db', hrun, rfl⟩

/-- Two events with different timestamps are replayed in capture order. -/
theorem capture_order_pair : ∃ db', IngestsAt
    [(0, plainBatch sampleID [⟨4, .obj [], 1⟩, ⟨2, .obj [], 2⟩])] DB.empty db' ∧
    ∀ db'' rows, Runs Healthy (Repository.getEvents sampleID).run db' db'' (.ok rows) →
      rows.map ReplayEvent.raw = [⟨4, .obj [], 1⟩, ⟨2, .obj [], 2⟩] := by
  obtain ⟨db', hruns⟩ := ingestsAt_pair ⟨4, .obj [], 1⟩ ⟨2, .obj [], 2⟩
  refine ⟨db', hruns, (capture_order_iff hruns (by simp [plainBatch]) rfl (by simp)
    (by simp [plainBatch])).mpr ?_⟩
  simp [plainBatch]

/-- Meta and FullSnapshot of one millisecond may be replayed in either order. -/
theorem not_capture_order : ¬ ∀ (sid : String) (batches : List (Time × IngestRequest)) (db' : DB),
    (∀ b ∈ batches, b.2.sessionID = sid) → (batches.map Prod.fst).Pairwise (· < ·) →
    ((batches.flatMap fun b => b.2.events).Pairwise fun e f => e.timestamp ≤ f.timestamp) →
    IngestsAt batches DB.empty db' →
    ∀ db'' rows, Runs Healthy (Repository.getEvents sid).run db' db'' (.ok rows) →
      rows.map ReplayEvent.raw = batches.flatMap fun b => b.2.events := by
  intro hall
  obtain ⟨db', hruns⟩ := ingestsAt_pair ⟨4, .obj [], 1⟩ ⟨2, .obj [], 1⟩
  have hsid : ∀ b ∈ [((0 : Time), plainBatch sampleID [⟨4, .obj [], 1⟩, ⟨2, .obj [], 1⟩])],
      b.2.sessionID = sampleID := by simp [plainBatch]
  obtain ⟨rows, hget, hdiff⟩ := hruns.exists_other_order hsid rfl (by simp) (by simp [plainBatch])
    List.mem_cons_self List.mem_cons_self (List.mem_cons_of_mem _ List.mem_cons_self) rfl (by simp)
  exact hdiff (hall sampleID _ db' hsid (by simp) (by simp [plainBatch]) hruns db' rows hget)

end Sequential

/-! ## Batches side by side -/

section Concurrent

/-- The captured events that the database holds of a session. -/
def rawEvents (sid : String) (db : DB) : Multiset RawEvent :=
  ((db.eventsOf sid).map ReplayEvent.raw : List RawEvent)

variable {sid : String}

theorem spends_sql {q : Stmt} {m m' : Multiset RawEvent}
    (hq : ∀ e db db' a, q.run e db = .ok (db', a) →
      rawEvents sid db' + m' = rawEvents sid db + m) :
    Spends Healthy (rawEvents sid) (fun r m₁ => ∃ a, r = .ok a ∧ m₁ = m') (sql q).run m := by
  refine spends_perform fun db db' r h => ?_
  obtain ⟨a, rfl⟩ := h.2
  obtain ⟨e, -, hrun⟩ := h.1.accepted
  exact ⟨m', hq e db db' a hrun, a, rfl, rfl⟩

theorem spends_sql_keep {q : Stmt} {m : Multiset RawEvent} (hq : ∀ l, q.onEvents l = l) :
    Spends Healthy (rawEvents sid) (fun r m₁ => ∃ a, r = .ok a ∧ m₁ = m) (sql q).run m := by
  refine spends_sql fun e db db' a hrun => ?_
  rw [rawEvents, rawEvents, DB.eventsOf, DB.eventsOf, (Stmt.run_rows hrun).2.1, hq]

theorem spends_insertEvents {req : IngestRequest} (hreq : req.sessionID = sid) (now : Time)
    (ids : ℕ → String) :
    Spends Healthy (rawEvents sid) (fun r m => ∃ a, r = .ok a ∧ m = 0)
      (sql (.insertEvents (Service.eventsOf req now ids))).run (req.events : Multiset RawEvent) := by
  refine spends_sql fun e db db' a hrun => ?_
  have hnew : (Service.eventsOf req now ids).filter (fun ev => ev.sessionID = sid) =
      Service.eventsOf req now ids :=
    List.filter_eq_self.mpr fun ev hev => by simp [eventsOf_sessionID hev, hreq]
  have hev : db'.events.rows = db.events.rows ++ Service.eventsOf req now ids :=
    (Stmt.run_rows hrun).2.1
  rw [rawEvents, rawEvents, DB.eventsOf, DB.eventsOf, hev, List.filter_append, hnew,
    List.map_append, map_raw_eventsOf, ← Multiset.coe_add, add_zero]

theorem spends_upsertSession (s : ReplaySession) (m : Multiset RawEvent) :
    Spends Healthy (rawEvents sid) (fun r m' => ∃ a, r = .ok a ∧ m' = m)
      (Repository.upsertSession s).run m := by
  refine spends_bind_except (spends_sql_keep fun _ => rfl) ?_
  rintro affected m' rfl
  split_ifs
  · exact spends_sql_keep fun _ => rfl
  · exact spends_pure ⟨(), rfl, rfl⟩

theorem spends_persistToken (req : IngestRequest) (m : Multiset RawEvent) :
    Spends Healthy (rawEvents sid) (fun r m' => ∃ a, r = .ok a ∧ m' = m)
      (Service.persistToken req).run m := by
  unfold Service.persistToken
  split_ifs
  · exact spends_adapt (spends_sql_keep fun _ => rfl) _
  · exact spends_pure ⟨(), rfl, rfl⟩

theorem spends_storeClient (req : IngestRequest) (m : Multiset RawEvent) :
    Spends Healthy (rawEvents sid) (fun r m' => ∃ a, r = .ok a ∧ m' = m)
      (Service.storeClient req).run m := by
  unfold Service.storeClient
  split
  · exact spends_adapt (spends_sql_keep fun _ => rfl) _
  · exact spends_pure ⟨(), rfl, rfl⟩

theorem spends_timeNow (m : Multiset RawEvent) :
    Spends Healthy (rawEvents sid) (fun r m' => ∃ a, r = .ok a ∧ m' = m) timeNow.run m := by
  refine spends_lift (spends_perform fun db db' r h => ?_)
  rw [(answers_timeNow.mp h.1).1]
  exact ⟨m, rfl, rfl⟩

theorem spends_uuidNew (m : Multiset RawEvent) :
    Spends Healthy (rawEvents sid) (fun r m' => ∃ a, r = .ok a ∧ m' = m) uuidNew.run m := by
  refine spends_lift (spends_perform fun db db' r h => ?_)
  rw [(answers_uuidNew.mp h.1).1]
  exact ⟨m, rfl, rfl⟩

/-- **A batch adds its events to the session**, whatever runs beside it. -/
theorem spends_ingest {req : IngestRequest} (hreq : req.sessionID = sid) :
    Spends Healthy (rawEvents sid) (fun r m => ∃ a, r = .ok a ∧ m = 0)
      (Service.ingest req).run (req.events : Multiset RawEvent) := by
  refine spends_bind_except (spends_timeNow _) ?_
  rintro now _ rfl
  refine spends_bind_except (spends_adapt (spends_upsertSession _ _) _) ?_
  rintro _ _ rfl
  refine spends_bind_except (spends_persistToken req _) ?_
  rintro _ _ rfl
  refine spends_bind_except (spends_storeClient req _) ?_
  rintro _ _ rfl
  refine spends_bind_except (spends_uuidNew _) ?_
  rintro ids _ rfl
  refine spends_bind_except (spends_adapt (spends_insertEvents hreq now ids) _) ?_
  rintro _ _ rfl
  exact spends_sql_keep fun _ => rfl

/-- The batches, each in a worker of its own. -/
def ingestPool (reqs : List IngestRequest) : Pool IngestRequest Call Resp (Except String Unit) :=
  reqs.map fun req => (req, (Service.ingest req).run)

/-- The events in the order of their timestamps. -/
def inTimeOrder (evs : List RawEvent) : List RawEvent :=
  evs.insertionSort fun e f => e.timestamp ≤ f.timestamp

theorem inTimeOrder_perm (evs : List RawEvent) : (inTimeOrder evs).Perm evs :=
  List.perm_insertionSort _ evs

theorem inTimeOrder_sorted (evs : List RawEvent) :
    (inTimeOrder evs).Pairwise fun e f => e.timestamp ≤ f.timestamp := by
  have : Std.Total fun e f : RawEvent => e.timestamp ≤ f.timestamp := ⟨fun _ _ => le_total _ _⟩
  have : IsTrans RawEvent fun e f => e.timestamp ≤ f.timestamp := ⟨fun _ _ _ => le_trans⟩
  exact List.pairwise_insertionSort _ evs

theorem sum_events (reqs : List IngestRequest) :
    (reqs.map fun req => (req.events : Multiset RawEvent)).sum =
      (reqs.flatMap IngestRequest.events : List RawEvent) := by
  induction reqs with
  | nil => rfl
  | cons req reqs ih => rw [List.map_cons, List.sum_cons, ih, List.flatMap_cons, Multiset.coe_add]

theorem ingestPool_perm {reqs : List IngestRequest} (hsid : ∀ req ∈ reqs, req.sessionID = sid)
    {db db' : DB} {ps : Pool IngestRequest Call Resp (Except String Unit)}
    (hruns : PoolRuns (fun _ => Healthy) (ingestPool reqs, db) (ps, db')) (hfin : Pool.Finished ps) :
    ((db'.eventsOf sid).map ReplayEvent.raw).Perm
      ((db.eventsOf sid).map ReplayEvent.raw ++ reqs.flatMap IngestRequest.events) := by
  have hspends : List.Forall₂ (fun t m => Spends Healthy (rawEvents sid)
      (fun r m' => ∃ a, r = .ok a ∧ m' = 0) t.2 m) (ingestPool reqs)
      (reqs.map fun req => (req.events : Multiset RawEvent)) := by
    rw [ingestPool, List.forall₂_map_left_iff, List.forall₂_map_right_iff, List.forall₂_same]
    exact fun req hreq => spends_ingest (hsid req hreq)
  have h := hruns.conserve hspends hfin fun r m ⟨_, _, hm⟩ => hm
  rw [sum_events] at h
  exact Multiset.coe_eq_coe.mp h

/-- **Ingestion side by side.** Batches of one session whose events have distinct timestamps are
replayed in the order of the timestamps, every event once, whatever the interleaving of their
statements. -/
theorem order_independent {reqs : List IngestRequest} (hsid : ∀ req ∈ reqs, req.sessionID = sid)
    {db db' db'' : DB} {ps : Pool IngestRequest Call Resp (Except String Unit)}
    (hdistinct : (((db.eventsOf sid).map ReplayEvent.raw ++
      reqs.flatMap IngestRequest.events).map RawEvent.timestamp).Nodup)
    (hruns : PoolRuns (fun _ => Healthy) (ingestPool reqs, db) (ps, db')) (hfin : Pool.Finished ps)
    {rows : List ReplayEvent}
    (hget : Runs Healthy (Repository.getEvents sid).run db' db'' (.ok rows)) :
    rows.map ReplayEvent.raw = inTimeOrder
        ((db.eventsOf sid).map ReplayEvent.raw ++ reqs.flatMap IngestRequest.events) ∧
      (rows.map ReplayEvent.raw).Perm
        ((db.eventsOf sid).map ReplayEvent.raw ++ reqs.flatMap IngestRequest.events) ∧
      (rows.map ReplayEvent.raw).Pairwise fun e f => e.timestamp < f.timestamp := by
  obtain ⟨-, hperm, hkeys⟩ := getEvents_runs.mp hget
  have hall := (hperm.map ReplayEvent.raw).trans (ingestPool_perm hsid hruns hfin)
  have hsorted : (rows.map ReplayEvent.raw).Pairwise fun e f => e.timestamp ≤ f.timestamp :=
    List.pairwise_map.mpr (hkeys.imp timestamp_le)
  have hnd : ((rows.map ReplayEvent.raw).map RawEvent.timestamp).Nodup :=
    (hall.map _).nodup_iff.mpr hdistinct
  refine ⟨?_, hall, ?_⟩
  · exact (Sorted.eq_of_perm_of_keys ((inTimeOrder_perm _).trans hall.symm) hsorted
      (inTimeOrder_sorted _) hnd).symm
  · exact (hsorted.and (List.pairwise_map.mp hnd)).imp fun h => lt_of_le_of_ne h.1 h.2

/-- Two batches of one event each, the later one stored first. -/
theorem order_independent_pair : ∃ db' rows, PoolRuns (fun _ => Healthy)
    (ingestPool [plainBatch sampleID [⟨3, .obj [], 2⟩], plainBatch sampleID [⟨2, .obj [], 1⟩]],
      DB.empty)
    ([(plainBatch sampleID [⟨3, .obj [], 2⟩], .ret (.ok ())),
      (plainBatch sampleID [⟨2, .obj [], 1⟩], .ret (.ok ()))], db') ∧
    Runs Healthy (Repository.getEvents sampleID).run db' db' (.ok rows) ∧
    rows.map ReplayEvent.raw = [⟨2, .obj [], 1⟩, ⟨3, .obj [], 2⟩] := by
  obtain ⟨db₁, hrun₁, hst₁⟩ :=
    plainBatch_runs DB.empty sampleID ⟨3, .obj [], 2⟩ 0 (sampleEventID false) (by decide)
  have hkeys : db₁.events.keys = [sampleEventID false] :=
    congrArg (List.map ReplayEvent.id) hst₁.events
  obtain ⟨db₂, hrun₂, hst₂⟩ :=
    plainBatch_runs db₁ sampleID ⟨2, .obj [], 1⟩ 1 (sampleEventID true) (by rw [hkeys]; decide)
  have hruns : PoolRuns (fun _ => Healthy)
      (ingestPool [plainBatch sampleID [⟨3, .obj [], 2⟩], plainBatch sampleID [⟨2, .obj [], 1⟩]],
        DB.empty)
      ([(plainBatch sampleID [⟨3, .obj [], 2⟩], .ret (.ok ())),
        (plainBatch sampleID [⟨2, .obj [], 1⟩], .ret (.ok ()))], db₂) :=
    (Runs.pool (fun _ => Healthy) _ (hrun₁.mono fun _ _ _ _ => HealthyAt.healthy) []
      [(_, (Service.ingest _).run)]).trans
    (Runs.pool (fun _ => Healthy) _ (hrun₂.mono fun _ _ _ _ => HealthyAt.healthy)
      [(_, .ret (.ok ()))] [])
  have hget : Runs Healthy (Repository.getEvents sampleID).run db₂ db₂
      (.ok ((db₂.eventsOf sampleID).insertionSort eventLE)) :=
    getEvents_runs.mpr ⟨rfl, List.perm_insertionSort _ _,
      (List.pairwise_insertionSort eventLE _).imp eventLE_iff.mp⟩
  refine ⟨db₂, _, hruns, hget, ?_⟩
  refine (order_independent (by simp [plainBatch]) ?_ hruns (by simp [Pool.Finished]) hget).1
  exact (by decide : [(2 : ℤ), 1].Nodup)

end Concurrent

end BatRewind
