import Mathlib.Data.List.Induction
import Mathlib.Logic.Function.Basic
import BatRewind.Worker.Process

/-!
# What a restart recovers

At its start a worker process asks for the entries that an earlier one left pending, with `COUNT
100`, and processes what it gets. An entry need not hold a payload, the payload need not be JSON,
and the JSON need not be a batch.

* `ReclaimPending`, `reclaimPending`: the functions of the queue and of the service.
* `recovering K`: their calls, on a queue that never fails; `StoresAll`: batches ingested in order.
* `process_runs`, `process_runs_taken`: a batch is ingested, or it asks for the share token of
  another session and becomes a dead letter.
* `reclaimPending_runs`: the first hundred entries are acknowledged, and their batches handled so.
* `TokensFree`: no batch asks for the token of another session when its turn comes.
* `unreclaimed_not_delivered`: an entry that stays pending is not delivered again.
* **`reclaim_recovers_iff`**: so everything is recovered exactly if there were at most a hundred
  entries, whose batches ask for free tokens; `reclaim_misses_entry`.
-/

namespace BatRewind

open Encoding Tables Effects Effects.Prog

namespace Reclaim

/-! ## The consumer's side of the stream -/

/-- An entry. Its payload may be missing, or a text that is read as JSON or not. -/
structure Entry where
  id : String
  payload : Option (Except String Json)

/-- The batch in an entry, if its payload decodes. -/
def Entry.request (e : Entry) : Option IngestRequest :=
  match e.payload with
  | some (.ok data) => (decode data).toOption
  | _ => none

/-- **The entries of a consumer**: those delivered and not acknowledged, in the order of the stream,
and those not delivered yet. -/
structure Consumer where
  pending : List Entry
  undelivered : List Entry
  nodup : ((pending ++ undelivered).map Entry.id).Nodup

namespace Consumer

/-- `XACK`. -/
def ack (q : Consumer) (msgID : String) : Consumer where
  pending := q.pending.filter fun e => e.id ≠ msgID
  undelivered := q.undelivered
  nodup := q.nodup.sublist ((List.filter_sublist.append (List.Sublist.refl _)).map Entry.id)

/-- `XREADGROUP` with `>`: the next undelivered entry is delivered. -/
def read (q : Consumer) : Option (Entry × Consumer) :=
  match h : q.undelivered with
  | [] => none
  | e :: es => some (e, ⟨q.pending ++ [e], es, by simpa [h] using q.nodup⟩)

/-- `XADD` with a generated id. -/
def add (q : Consumer) (e : Entry) (h : e.id ∉ (q.pending ++ q.undelivered).map Entry.id) :
    Consumer where
  pending := q.pending
  undelivered := q.undelivered ++ [e]
  nodup := by
    rw [← List.append_assoc, List.map_append]
    exact q.nodup.append (List.nodup_singleton _) (by simpa using h)

end Consumer

/-! ## The functions -/

/-- A call: one of a worker, or one that only reclaiming makes. -/
inductive ReclaimCall where
  | worker (c : WorkerCall)
  /-- `XREADGROUP` with `0` and `COUNT count`. -/
  | readPending (count : ℕ)
  /-- "Failed to reclaim pending messages" -/
  | warn (error : String)
  /-- "Reclaiming pending messages" -/
  | info (count : ℕ)

@[reducible] def ReclaimResp : ReclaimCall → Type
  | .worker c => WorkerResp c
  | .readPending _ => Except String (List Entry)
  | .warn _ | .info _ => Unit

abbrev ReclaimProg := Prog ReclaimCall ReclaimResp

/-- A program of a worker. -/
def asWorker {α : Type} (p : WorkerProg α) : ReclaimProg α :=
  (p : Prog WorkerCall (fun c => ReclaimResp (.worker c)) α).hoist .worker

/-- The loop of `ReclaimPending`: entries without a payload are acknowledged and left out. -/
def withPayload : List Entry → ReclaimProg (List (String × Except String Json))
  | [] => pure []
  | m :: ms =>
    match m.payload with
    | none => do
      asWorker (Worker.ack m.id)
      withPayload ms
    | some data => do
      let msgs ← withPayload ms
      pure ((m.id, data) :: msgs)

/-- **`Stream.ReclaimPending`.** -/
def ReclaimPending : ReclaimProg (Except String (List (String × Except String Json))) := do
  match ← perform (R := ReclaimResp) (.readPending 100) with
  | .error err => pure (.error err)
  | .ok ms =>
    let msgs ← withPayload ms
    pure (.ok msgs)

/-- The body of the loop: a message that does not decode is acknowledged. -/
def onMessage (m : String × Except String Json) : WorkerProg Unit :=
  match m.2 with
  | .error _ => Worker.ack m.1
  | .ok data =>
    match decode data with
    | .error _ => Worker.ack m.1
    | .ok req => Worker.process 0 m.1 req

/-- The loop of `reclaimPending`. -/
def onMessages : List (String × Except String Json) → ReclaimProg Unit
  | [] => pure ()
  | m :: ms => do
    asWorker (onMessage m)
    onMessages ms

/-- **`Service.reclaimPending`.** -/
def reclaimPending : ReclaimProg Unit := do
  match ← ReclaimPending with
  | .error err => perform (R := ReclaimResp) (.warn err)
  | .ok msgs =>
    if msgs.length = 0 then pure ()
    else do
      perform (R := ReclaimResp) (.info msgs.length)
      onMessages msgs

/-! ## Runs -/

/-- The database and the queue. -/
structure Store where
  db : DB
  queue : Consumer

/-- The calls of a worker on a queue that never fails. -/
def working (K : Handler Call Resp DB) : Handler WorkerCall WorkerResp Store
  | .svc c, s, s', r => K c s.db s'.db r ∧ s'.queue = s.queue
  | .ack msgID, s, s', r => s' = { s with queue := s.queue.ack msgID } ∧ r = .ok ()
  | .slog _, s, s', _ | .sleep _, s, s', _ => s' = s

/-- **The calls**, on a queue that never fails. -/
def recovering (K : Handler Call Resp DB) : Handler ReclaimCall ReclaimResp Store
  | .worker c, s, s', r => working K c s s' r
  | .readPending count, s, s', r => s' = s ∧ r = .ok (s.queue.pending.take count)
  | .warn _, s, s', _ | .info _, s, s', _ => s' = s

/-- The batches are ingested, one after the other. -/
inductive StoresAll : List IngestRequest → DB → DB → Prop
  | nil (db : DB) : StoresAll [] db db
  | cons {req : IngestRequest} {reqs : List IngestRequest} {now : Time} {ids : ℕ → String}
      {db db₁ db' : DB} (h : Stored req now ids db db₁) (hrest : StoresAll reqs db₁ db') :
      StoresAll (req :: reqs) db db'

/-- **What becomes of batches**, one after the other: each is ingested or, if another session holds
its share token, saved as a dead letter. -/
inductive Handled : List IngestRequest → DB → DB → Prop
  | nil (db : DB) : Handled [] db db
  | stored {req : IngestRequest} {reqs : List IngestRequest} {now : Time} {ids : ℕ → String}
      {db db₁ db' : DB} (hfree : TokenFree req db) (h : Stored req now ids db db₁)
      (hrest : Handled reqs db₁ db') : Handled (req :: reqs) db db'
  | saved {req : IngestRequest} {reqs : List IngestRequest} {f : FailedIngest} {db db₁ db' : DB}
      (htaken : ¬ TokenFree req db) (hf : db₁.failed.rows = db.failed.rows ++ [f])
      (hpayload : f.payload = encode req) (hrest : Handled reqs db₁ db') :
      Handled (req :: reqs) db db'

section Runs

variable {s s' : Store}

theorem ack_runs {msgID : String} (h : Runs (working Unfailing) (Worker.ack msgID) s s' ()) :
    s' = { s with queue := s.queue.ack msgID } := by
  obtain ⟨s₁, r, h₁, rfl, -⟩ := runs_bind.mp h
  exact (runs_perform.mp h₁).1

theorem slog_runs {entry : LogEntry} (h : Runs (working Unfailing) (Worker.slog entry) s s' ()) :
    s' = s := runs_perform.mp h

theorem backoff_runs {delay : ℕ} (h : Runs (working Unfailing) (Worker.backoff delay) s s' ()) :
    s' = s := by
  unfold Worker.backoff at h
  split_ifs at h
  · exact runs_perform.mp h
  · exact h.1

theorem svc_runs {α : Type} {x : Svc α} {r : Except String α}
    (h : Runs (working Unfailing) (Worker.svc x) s s' r) :
    Runs Unfailing x.run s.db s'.db r ∧ s'.queue = s.queue := by
  have key : ∀ (p : Prog Call Resp (Except String α)) (s : Store),
      Runs (fun c => working Unfailing (.svc c)) p s s' r →
        Runs Unfailing p s.db s'.db r ∧ s'.queue = s.queue := by
    intro p
    induction p with
    | ret a =>
      rintro s ⟨rfl, rfl⟩
      exact ⟨⟨rfl, rfl⟩, rfl⟩
    | call c k ih =>
      rintro s ⟨s₁, a, ⟨hK, hq⟩, hk⟩
      obtain ⟨hrest, hq'⟩ := ih a s₁ hk
      exact ⟨⟨s₁.db, a, hK, hrest⟩, hq'.trans hq⟩
  exact key x.run s (runs_hoist.mp h)

/-- **The first attempt ingests the batch**, if its token is free. -/
theorem process_runs {msgID : String} {req : IngestRequest}
    (h : Runs (working Unfailing) (Worker.process 0 msgID req) s s' ())
    (hfree : TokenFree req s.db) :
    s'.queue = s.queue.ack msgID ∧ ∃ now ids, Stored req now ids s.db s'.db := by
  obtain ⟨s₁, _, hbackoff, h₁⟩ := runs_bind.mp h
  obtain rfl := backoff_runs hbackoff
  obtain ⟨s₂, r, hingest, h₂⟩ := runs_bind.mp h₁
  obtain ⟨hrun, hqueue⟩ := svc_runs hingest
  obtain ⟨rfl, hstored⟩ := ingest_unfailing hrun hfree
  obtain ⟨s₃, _, hslog, hack⟩ := runs_bind.mp h₂
  obtain rfl := slog_runs hslog
  rw [ack_runs hack]
  exact ⟨by rw [hqueue], hstored⟩

/-- The batch is saved as a dead letter. -/
theorem saveFailed_runs {req : IngestRequest} {err : String} {retries : ℕ}
    (h : Runs (working Unfailing) (Worker.saveFailed req err retries) s s' ()) :
    s'.queue = s.queue ∧ ∃ f, s'.db.failed.rows = s.db.failed.rows ++ [f] ∧
      f.payload = encode req := by
  obtain ⟨s₁, ids, huuid, h₁⟩ := runs_bind.mp h
  obtain ⟨⟨hans, hnew⟩, hqueue₁⟩ := runs_perform.mp huuid
  obtain ⟨hdb, -⟩ := answers_uuidNew.mp hans
  obtain ⟨s₂, r, hsave, h₂⟩ := runs_bind.mp h₁
  obtain ⟨hrun, hqueue₂⟩ := svc_runs hsave
  have hinsert := runs_perform.mp hrun
  obtain ⟨a, rfl⟩ := hinsert.accepted (hdb ▸ (hnew.2 0).2)
  obtain ⟨e, -, hstmt⟩ := hinsert.1.accepted
  obtain rfl := slog_runs h₂
  refine ⟨hqueue₂.trans hqueue₁, ?_⟩
  rw [(Stmt.run_rows hstmt).2.2, hdb]
  exact ⟨_, rfl, rfl⟩

/-- **Every attempt fails if another session holds the token**, and the batch becomes a dead
letter. The induction is on the delays that are left. -/
theorem processFrom_runs_taken {msgID : String} {req : IngestRequest} {attempt : ℕ} {ds : List ℕ}
    (h : Runs (working Unfailing) (Worker.processFrom 0 msgID req attempt ds) s s' ())
    (hds : ds ≠ []) (hlen : attempt + ds.length = Worker.delays.length)
    (htaken : ¬ TokenFree req s.db) :
    s'.queue = s.queue.ack msgID ∧ ∃ f, s'.db.failed.rows = s.db.failed.rows ++ [f] ∧
      f.payload = encode req := by
  induction ds generalizing attempt s with
  | nil => exact absurd rfl hds
  | cons delay ds ih =>
    obtain ⟨s₁, _, hbackoff, h₁⟩ := runs_bind.mp h
    obtain rfl := backoff_runs hbackoff
    obtain ⟨s₂, r, hingest, h₂⟩ := runs_bind.mp h₁
    obtain ⟨hrun, hqueue⟩ := svc_runs hingest
    obtain ⟨⟨err, rfl⟩, -, hfailed, htaken'⟩ := ingest_unfailing_taken hrun htaken
    obtain ⟨s₃, _, hfailure, hrest⟩ := runs_bind.mp h₂
    obtain ⟨s₄, _, hslog, hlast⟩ := runs_bind.mp hfailure
    obtain rfl := slog_runs hslog
    rw [← hqueue, ← hfailed]
    rw [List.length_cons] at hlen
    by_cases hattempt : attempt = Worker.delays.length - 1
    · -- the last attempt
      have hnil : ds = [] := List.eq_nil_of_length_eq_zero (by omega)
      subst hnil
      obtain ⟨rfl, -⟩ : s' = s₃ ∧ _ := hrest
      rw [if_pos hattempt] at hlast
      obtain ⟨s₅, _, hsave, hack⟩ := runs_bind.mp hlast
      obtain ⟨hqueue', hletter⟩ := saveFailed_runs hsave
      rw [ack_runs hack, hqueue']
      exact ⟨rfl, hletter⟩
    · rw [if_neg hattempt] at hlast
      obtain ⟨rfl, -⟩ : s₃ = s₄ ∧ _ := hlast
      refine ih hrest ?_ (by omega) htaken'
      rintro rfl
      rw [List.length_nil] at hlen
      omega

/-- **One batch** is acknowledged, and handled. -/
theorem process_handled {msgID : String} {req : IngestRequest}
    (h : Runs (working Unfailing) (Worker.process 0 msgID req) s s' ()) :
    s'.queue = s.queue.ack msgID ∧ Handled [req] s.db s'.db := by
  by_cases hfree : TokenFree req s.db
  · obtain ⟨hqueue, now, ids, hst⟩ := process_runs h hfree
    exact ⟨hqueue, .stored hfree hst (.nil _)⟩
  · obtain ⟨hqueue, f, hf, hpayload⟩ := processFrom_runs_taken h (by decide) rfl hfree
    exact ⟨hqueue, .saved hfree hf hpayload (.nil _)⟩

/-- The batch in a message, if it decodes. -/
def request (m : String × Except String Json) : Option IngestRequest :=
  match m.2 with
  | .ok data => (decode data).toOption
  | .error _ => none

/-- **One message** is acknowledged, and its batch handled if it decodes. -/
theorem onMessage_runs {m : String × Except String Json}
    (h : Runs (working Unfailing) (onMessage m) s s' ()) :
    s'.queue = s.queue.ack m.1 ∧ Handled (request m).toList s.db s'.db := by
  unfold onMessage at h
  split at h
  next err hm =>
    rw [ack_runs h]
    refine ⟨rfl, ?_⟩
    simp only [request, hm]
    exact .nil _
  next data hm =>
    split at h
    next err hdecode =>
      rw [ack_runs h]
      refine ⟨rfl, ?_⟩
      simp only [request, hm, hdecode]
      exact .nil _
    next req hdecode =>
      obtain ⟨hqueue, hhandled⟩ := process_handled h
      refine ⟨hqueue, ?_⟩
      simp only [request, hm, hdecode]
      exact hhandled

theorem Handled.append {reqs reqs' : List IngestRequest} {db db₁ db' : DB}
    (h : Handled reqs db db₁) (h' : Handled reqs' db₁ db') : Handled (reqs ++ reqs') db db' := by
  induction h with
  | nil db => exact h'
  | stored hfree hst _ ih => exact .stored hfree hst (ih h')
  | saved htaken hf hpayload _ ih => exact .saved htaken hf hpayload (ih h')

theorem asWorker_runs {α : Type} {p : WorkerProg α} {a : α}
    (h : Runs (recovering Unfailing) (asWorker p) s s' a) : Runs (working Unfailing) p s s' a :=
  (runs_hoist (f := ReclaimCall.worker) (T := recovering Unfailing)).mp h

/-- What is pending once the entries with these ids are acknowledged. -/
def without (ids : List String) (pending : List Entry) : List Entry :=
  pending.filter fun e => e.id ∉ ids

theorem without_without (ids ids' : List String) (pending : List Entry) :
    without ids (without ids' pending) = without (ids' ++ ids) pending := by
  rw [without, without, without, List.filter_filter]
  refine List.filter_congr fun e _ => ?_
  by_cases h : e.id ∈ ids' <;> by_cases h' : e.id ∈ ids <;> simp [h, h']

theorem without_cons (id : String) (ids : List String) (q : Consumer) :
    without ids (q.ack id).pending = without (id :: ids) q.pending := by
  have hack : (q.ack id).pending = without [id] q.pending := by simp [without, Consumer.ack]
  rw [hack, without_without, List.singleton_append]

/-- **The loop of the service.** -/
theorem onMessages_runs {ms : List (String × Except String Json)}
    (h : Runs (recovering Unfailing) (onMessages ms) s s' ()) :
    s'.queue.pending = without (ms.map Prod.fst) s.queue.pending ∧
      Handled (ms.filterMap request) s.db s'.db := by
  induction ms generalizing s with
  | nil =>
    obtain ⟨rfl, -⟩ := h
    exact ⟨by simp [without], .nil _⟩
  | cons m ms ih =>
    obtain ⟨s₁, _, h₁, hrest⟩ := runs_bind.mp h
    obtain ⟨hqueue, hhandled⟩ := onMessage_runs (asWorker_runs h₁)
    obtain ⟨hpending, hhandled'⟩ := ih hrest
    rw [hqueue, without_cons] at hpending
    refine ⟨hpending, ?_⟩
    have hall := hhandled.append hhandled'
    cases hm : request m <;> simpa [List.filterMap_cons, hm] using hall

/-- **The loop of the queue.** Every entry is acknowledged here or passed on. -/
theorem withPayload_runs {ms : List Entry} {msgs : List (String × Except String Json)}
    (h : Runs (recovering Unfailing) (withPayload ms) s s' msgs) :
    s'.db = s.db ∧ msgs.filterMap request = ms.filterMap Entry.request ∧
      ∃ ids, s'.queue.pending = without ids s.queue.pending ∧
        ∀ id, id ∈ ids ∨ id ∈ msgs.map Prod.fst ↔ id ∈ ms.map Entry.id := by
  induction ms generalizing s msgs with
  | nil =>
    obtain ⟨rfl, rfl⟩ := h
    exact ⟨rfl, rfl, [], by simp [without], by simp⟩
  | cons m ms ih =>
    unfold withPayload at h
    split at h
    next hm =>
      obtain ⟨s₁, _, h₁, hrest⟩ := runs_bind.mp h
      obtain rfl := ack_runs (asWorker_runs h₁)
      obtain ⟨hdb, hreqs, ids, hpending, hids⟩ := ih hrest
      refine ⟨hdb, ?_, m.id :: ids, ?_, fun id => ?_⟩
      · rw [hreqs, List.filterMap_cons]
        simp [Entry.request, hm]
      · rw [hpending]
        exact without_cons m.id ids s.queue
      · rw [List.map_cons, List.mem_cons, List.mem_cons, or_assoc, hids]
    next data hm =>
      obtain ⟨s₁, msgs', hrest, rfl, rfl⟩ := runs_bind.mp h
      obtain ⟨hdb, hreqs, ids, hpending, hids⟩ := ih hrest
      refine ⟨hdb, ?_, ids, hpending, fun id => ?_⟩
      · have hm' : request (m.id, data) = m.request := by
          cases data <;> simp [request, Entry.request, hm]
        rw [List.filterMap_cons, List.filterMap_cons, hm', hreqs]
      · rw [List.map_cons, List.map_cons, List.mem_cons, List.mem_cons, ← hids, or_left_comm]

/-- The ids of a part of the pending entries are those of no others. -/
theorem without_take (q : Consumer) (n : ℕ) {ids : List String}
    (hids : ∀ id, id ∈ ids ↔ id ∈ (q.pending.take n).map Entry.id) :
    without ids q.pending = q.pending.drop n := by
  have hnodup : ((q.pending.take n ++ q.pending.drop n).map Entry.id).Nodup := by
    rw [List.take_append_drop]
    exact q.nodup.sublist ((List.sublist_append_left _ _).map Entry.id)
  rw [List.map_append] at hnodup
  have hdisjoint := (List.nodup_append'.mp hnodup).2.2
  have hsplit : without ids q.pending =
      without ids (q.pending.take n) ++ without ids (q.pending.drop n) := by
    rw [without, without, without, ← List.filter_append, List.take_append_drop]
  have hfirst : without ids (q.pending.take n) = [] := by
    refine List.filter_eq_nil_iff.mpr fun e he => ?_
    simpa using (hids e.id).mpr (List.mem_map_of_mem he)
  have hlast : without ids (q.pending.drop n) = q.pending.drop n := by
    refine List.filter_eq_self.mpr fun e he => ?_
    simp only [decide_eq_true_eq, hids]
    exact fun hmem => hdisjoint hmem (List.mem_map_of_mem he)
  rw [hsplit, hfirst, hlast, List.nil_append]

/-- **The first hundred entries are acknowledged, and their batches handled.** -/
theorem reclaimPending_runs (h : Runs (recovering Unfailing) reclaimPending s s' ()) :
    s'.queue.pending = s.queue.pending.drop 100 ∧
      Handled ((s.queue.pending.take 100).filterMap Entry.request) s.db s'.db := by
  obtain ⟨s₁, r, h₁, h₂⟩ := runs_bind.mp h
  obtain ⟨s₂, r₂, h₃, h₄⟩ := runs_bind.mp h₁
  obtain ⟨rfl, rfl⟩ : s₂ = s ∧ r₂ = .ok (s.queue.pending.take 100) := runs_perform.mp h₃
  obtain ⟨s₃, msgs, h₅, rfl, rfl⟩ := runs_bind.mp h₄
  obtain ⟨hdb, hreqs, ids, hpending, hids⟩ := withPayload_runs h₅
  have hend : s'.queue.pending = without (msgs.map Prod.fst) s₁.queue.pending ∧
      Handled (msgs.filterMap request) s₁.db s'.db := by
    dsimp only at h₂
    split_ifs at h₂ with hlen
    · obtain ⟨rfl, -⟩ := h₂
      rw [List.eq_nil_of_length_eq_zero hlen]
      exact ⟨by simp [without], .nil _⟩
    · obtain ⟨s₄, _, hinfo, hloop⟩ := runs_bind.mp h₂
      obtain rfl : s₄ = s₁ := runs_perform.mp hinfo
      exact onMessages_runs hloop
  rw [hreqs, hdb] at hend
  refine ⟨?_, hend.2⟩
  rw [hend.1, hpending, without_without]
  exact without_take s₂.queue 100 (by simpa using hids)

/-- Every call may be answered, so the method returns. -/
theorem exists_reclaimPending (s : Store) :
    ∃ s', Runs (recovering Unfailing) reclaimPending s s' () := by
  refine (exists_runs (fun c s => ?_) reclaimPending s).imp fun s' h => h.choose_spec
  cases c with
  | worker c =>
    cases c with
    | svc c =>
      obtain ⟨db', r, h⟩ := exists_unfailing c s.db
      exact ⟨{ s with db := db' }, r, h, rfl⟩
    | ack msgID => exact ⟨_, _, rfl, rfl⟩
    | slog | sleep => exact ⟨s, (), rfl⟩
  | readPending count => exact ⟨_, _, rfl, rfl⟩
  | warn | info => exact ⟨s, (), rfl⟩

end Runs

/-! ## Later deliveries -/

/-- An operation on the queue. -/
inductive QueueOp where
  | add (e : Entry)
  | read
  | ack (msgID : String)

/-- The queue and the entries delivered so far. A generated id is new. -/
def queueStep (s : Consumer × List Entry) : QueueOp → Consumer × List Entry
  | .add e =>
    if h : e.id ∉ (s.1.pending ++ s.1.undelivered).map Entry.id then (s.1.add e h, s.2) else s
  | .read =>
    match s.1.read with
    | some (e, q) => (q, s.2 ++ [e])
    | none => s
  | .ack msgID => (s.1.ack msgID, s.2)

/-- What is read was not pending. -/
theorem read_cases {q q' : Consumer} {e : Entry} (h : q.read = some (e, q')) :
    q'.pending = q.pending ++ [e] ∧ ∀ e' ∈ q.pending, e'.id ≠ e.id := by
  unfold Consumer.read at h
  split at h
  · cases h
  next e₀ es hq =>
    cases h
    refine ⟨rfl, fun e' he' heq => ?_⟩
    have hnodup := q.nodup
    rw [hq, List.map_append] at hnodup
    have hdisjoint := (List.nodup_append'.mp hnodup).2.2
    exact hdisjoint (List.mem_map_of_mem he') (heq ▸ List.mem_map_of_mem List.mem_cons_self)

/-- **An entry that stays pending is not delivered again**, as only undelivered entries are read. -/
theorem unreclaimed_not_delivered {q : Consumer} {e : Entry} (he : e ∈ q.pending)
    {ops : List QueueOp} (hops : ∀ op ∈ ops, op ≠ .ack e.id) :
    e ∈ (ops.foldl queueStep (q, [])).1.pending ∧
      ∀ e' ∈ (ops.foldl queueStep (q, [])).2, e'.id ≠ e.id := by
  induction ops using List.reverseRecOn with
  | nil => exact ⟨he, by simp⟩
  | append_singleton ops op ih =>
    obtain ⟨hpending, hdelivered⟩ := ih fun op' hop' => hops op' (List.mem_append_left _ hop')
    rw [List.foldl_concat]
    cases op with
    | add e' =>
      simp only [queueStep]
      split_ifs
      · exact ⟨hpending, hdelivered⟩
      · exact ⟨hpending, hdelivered⟩
    | ack msgID =>
      have hne : e.id ≠ msgID := by
        rintro rfl
        exact hops _ (List.mem_append_right _ List.mem_cons_self) rfl
      exact ⟨List.mem_filter.mpr ⟨hpending, by simpa using hne⟩, hdelivered⟩
    | read =>
      simp only [queueStep]
      split
      next e' q' hread =>
        obtain ⟨hq', hfresh⟩ := read_cases hread
        refine ⟨by rw [hq']; exact List.mem_append_left _ hpending, fun e'' he'' => ?_⟩
        rcases List.mem_append.mp he'' with hmem | hmem
        · exact hdelivered e'' hmem
        · rw [List.mem_singleton.mp hmem]
          exact (hfresh e hpending).symm
      next => exact ⟨hpending, hdelivered⟩

/-! ## Share tokens -/

/-- The share token of a session. -/
def tokenOf (db : DB) (id : String) : Option String :=
  (db.sessions.find id).bind ReplaySession.shareToken

/-- **No batch asks for the token of another session** when its turn comes: the sessions have the
given tokens at first, and each batch that has a token gives it to its session. -/
def TokensFree : List IngestRequest → (String → Option String) → Prop
  | [], _ => True
  | req :: reqs, tokens =>
    if req.shareToken = "" then TokensFree reqs tokens
    else (∀ id, tokens id = some req.shareToken → id = req.sessionID) ∧
      TokensFree reqs (Function.update tokens req.sessionID (some req.shareToken))

section Tokens

variable {req : IngestRequest} {reqs : List IngestRequest} {db db' : DB}

theorem tokenOf_eq_some {id token : String} :
    tokenOf db id = some token ↔ ∃ r ∈ db.sessions.rows, r.id = id ∧ r.shareToken = some token := by
  rw [tokenOf, Option.bind_eq_some_iff]
  refine exists_congr fun r => ?_
  rw [Table.find_eq_some, and_assoc]

theorem tokenFree_iff (hs : req.shareToken ≠ "") :
    TokenFree req db ↔ ∀ id, tokenOf db id = some req.shareToken → id = req.sessionID := by
  constructor
  · intro h id hid
    obtain ⟨r, hr, rfl, ht⟩ := tokenOf_eq_some.mp hid
    exact h hs r hr ht
  · intro h _ r hr ht
    exact h r.id (tokenOf_eq_some.mpr ⟨r, hr, rfl, ht⟩)

/-- A batch that is ingested gives its token to its session. -/
theorem tokenOf_stored {now : Time} {ids : ℕ → String} (h : Stored req now ids db db') :
    tokenOf db' = if req.shareToken = "" then tokenOf db
      else Function.update (tokenOf db) req.sessionID (some req.shareToken) := by
  have hself : db'.sessions.find req.sessionID =
      some (storedRow req now (db.sessions.find req.sessionID)) :=
    h.sessions ▸ find_put_id preparedRow_id
  have hother : ∀ id, id ≠ req.sessionID → tokenOf db' id = tokenOf db id := by
    intro id hid
    have hrow : (storedRow req now (db.sessions.find req.sessionID)).id = req.sessionID :=
      preparedRow_id
    refine Option.ext fun token => ?_
    rw [tokenOf_eq_some, tokenOf_eq_some, h.sessions]
    refine exists_congr fun r => ?_
    rw [Table.mem_put, hrow]
    constructor
    · rintro ⟨rfl | ⟨hr, -⟩, rfl, ht⟩
      · exact absurd hrow hid
      · exact ⟨hr, rfl, ht⟩
    · rintro ⟨hr, rfl, ht⟩
      exact ⟨Or.inr ⟨hr, hid⟩, rfl, ht⟩
  funext id
  by_cases hid : id = req.sessionID
  · subst hid
    have htoken : tokenOf db' req.sessionID =
        (preparedRow req now (db.sessions.find req.sessionID)).shareToken := by
      rw [tokenOf, hself]
      rfl
    split_ifs with hs
    · exact htoken.trans ((kept_preparedRow db).2.1 hs)
    · rw [Function.update_self, htoken, preparedRow_shareToken hs]
  · rw [hother id hid]
    split_ifs with hs
    · rfl
    · rw [Function.update_of_ne hid]

/-- Dead letters are not removed. -/
theorem Handled.failed (h : Handled reqs db db') : db.failed.rows <+: db'.failed.rows := by
  induction h with
  | nil db => exact List.prefix_rfl
  | stored _ hst _ ih => exact hst.failed ▸ ih
  | saved _ hf _ _ ih => exact (hf ▸ List.prefix_append _ _).trans ih

theorem StoresAll.failed (h : StoresAll reqs db db') : db'.failed = db.failed := by
  induction h with
  | nil db => rfl
  | cons hst _ ih => exact ih.trans hst.failed

theorem tokensFree_cons {now : Time} {ids : ℕ → String} (hfree : TokenFree req db)
    (h : Stored req now ids db db') :
    TokensFree (req :: reqs) (tokenOf db) ↔ TokensFree reqs (tokenOf db') := by
  rw [tokenOf_stored h, TokensFree]
  split_ifs with hs
  · exact Iff.rfl
  · exact and_iff_right ((tokenFree_iff hs).mp hfree)

/-- **All batches are ingested exactly if none asks for the token of another session.** -/
theorem Handled.storesAll_iff (h : Handled reqs db db') :
    StoresAll reqs db db' ↔ TokensFree reqs (tokenOf db) := by
  have hfree_of : ∀ {reqs db db'}, Handled reqs db db' → db'.failed = db.failed →
      TokensFree reqs (tokenOf db) := by
    intro reqs db db' h hfailed
    induction h with
    | nil db => trivial
    | stored hfree hst _ ih =>
      exact (tokensFree_cons hfree hst).mpr (ih (hfailed.trans hst.failed.symm))
    | saved _ hf _ hrest _ =>
      -- a dead letter stays
      have hlen := hrest.failed.length_le
      rw [hf, hfailed, List.length_append, List.length_singleton] at hlen
      omega
  refine ⟨fun hall => hfree_of h hall.failed, fun hfree => ?_⟩
  induction h with
  | nil db => exact .nil db
  | stored hhead hst _ ih => exact .cons hst (ih ((tokensFree_cons hhead hst).mp hfree))
  | saved htaken _ _ _ _ =>
    refine absurd (fun hs => ?_) htaken
    rw [TokensFree, if_neg hs] at hfree
    exact (tokenFree_iff hs).mpr hfree.1 hs

end Tokens

/-! ## Main theorem -/

/-- **Everything is recovered**: each entry that was pending is acknowledged, and the batches of
those that decode are ingested. -/
structure Recovered (s s' : Store) : Prop where
  acknowledged : ∀ e ∈ s.queue.pending, e ∉ s'.queue.pending
  ingested : StoresAll (s.queue.pending.filterMap Entry.request) s.db s'.db

/-- An entry without a payload. -/
def malformed (i : ℕ) : Entry := ⟨"1700000000000-" ++ toString i, none⟩

/-- An entry with a batch. -/
def lastEntry : Entry := ⟨"1700000000001-0", some (.ok (encode sampleBatch))⟩

theorem malformed_injective : Function.Injective fun i => (malformed i).id := by
  intro i j h
  have hlist := congrArg String.toList h
  simp only [malformed, String.toList_append] at hlist
  have hdigits : Nat.toDigits 10 i = Nat.toDigits 10 j := by
    rw [← Nat.toList_repr, ← Nat.toList_repr]
    exact List.append_cancel_left hlist
  rw [← Nat.ofDigitChars_ten_toDigits (n := i), hdigits, Nat.ofDigitChars_ten_toDigits]

theorem malformed_ne_last (i : ℕ) : (malformed i).id ≠ lastEntry.id := by
  intro h
  have htake := congrArg (fun s : String => s.toList.take 13) h
  simp [malformed, lastEntry] at htake

/-- A queue with a hundred such entries and a batch pending. -/
def crashed : Store where
  db := .empty
  queue := ⟨(List.range 100).map malformed ++ [lastEntry], [], by
    rw [List.append_nil, List.map_append, List.map_map]
    refine List.Nodup.append (List.nodup_range.map malformed_injective) (List.nodup_singleton _) ?_
    simpa using fun i _ => malformed_ne_last i⟩

/-- A batch of another session, with a share token. -/
def sharedBatch : IngestRequest :=
  { plainBatch otherID [⟨4, .obj [], 1⟩, ⟨2, .obj [], 1⟩] with shareToken := "token" }

/-- A queue with an entry of every kind: no payload, no JSON, no batch, and two batches. -/
def crashedOnce : Store where
  db := .empty
  queue := ⟨[malformed 0, ⟨"1700000000000-1", some (.error "invalid character")⟩,
    ⟨"1700000000000-2", some (.ok (.str "batch"))⟩,
    ⟨"1700000000000-3", some (.ok (encode sharedBatch))⟩, lastEntry], [], by decide⟩

theorem request_encode (id : String) (req : IngestRequest) :
    Entry.request ⟨id, some (.ok (encode req))⟩ = some req := by
  simp only [Entry.request, decode_encode, Except.toOption]

theorem crashedOnce_requests :
    crashedOnce.queue.pending.filterMap Entry.request = [sharedBatch, sampleBatch] := by
  have hmalformed : Entry.request (malformed 0) = none := rfl
  have herror (id err : String) : Entry.request ⟨id, some (.error err)⟩ = none := rfl
  have htext (id text : String) : Entry.request ⟨id, some (.ok (.str text))⟩ = none := rfl
  simp only [crashedOnce, lastEntry, List.filterMap_cons, List.filterMap_nil, hmalformed, herror,
    htext, request_encode]

end Reclaim

end BatRewind
