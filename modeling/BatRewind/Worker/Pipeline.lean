import BatRewind.Lib.Pool
import BatRewind.Worker.Process

/-!
# The pipeline

The writer, the stream, the workers and the reader as one system. A state has the shared `Sys`, a
pool of worker tasks and a pool of service requests; tasks and requests are interleaved call by
call, and a task or a request may die between any two calls.

* `Step`: the writer answers a batch; a worker reads an entry; a started worker process reclaims
  the pending entries; a task makes its next call, or turns to the next reclaimed entry; tasks and
  requests die; a request of the reader or of the purge loop starts, or makes its next call.
* `Sys.accepted` records the batches answered with 204, and `Sys.calls` every call of the service
  that a task makes; no step reads them. **`Sys.Ingested`**: some `Ingest` of a message has returned
  success, as its calls are on record.
* `PipelineRuns K lib P`: the runs in which the database answers as `K` allows and every step
  satisfies `P`.
-/

namespace BatRewind

open Encoding Tables Effects Effects.Prog Worker

/-! ## States -/

/-- **The shared state.** Each call is on record with the number of the task and the id of the
message it had in hand; `started` is the next number. -/
structure Sys where
  db : DB
  queue : Stream
  accepted : List (String × IngestRequest) := []
  calls : List ((ℕ × String) × Σ c, Resp c) := []
  started : ℕ := 0

/-- What a worker task is about: the message in hand and, in the loop of `reclaimPending`, the
messages after it. No two tasks have one number. -/
structure Task where
  no : ℕ
  msg : Message
  backlog : List Message

/-- The task and its message, as they are on record. -/
abbrev Task.key (t : Task) : ℕ × String := (t.no, t.msg.id)

/-- The calls that were made by a task for a message. -/
def Sys.callsOf (s : Sys) (key : ℕ × String) : Trace :=
  (s.calls.filter fun x => x.1 = key).map Prod.snd

/-- **Some `Ingest` of the message has returned success**: the calls of a task for it contain all
calls of such a run. -/
def Sys.Ingested (s : Sys) (id : String) (req : IngestRequest) : Prop :=
  ∃ no u, u <:+: s.callsOf (no, id) ∧ Performs (Service.ingest req).run u (.ok ())

/-- A state of the pipeline. -/
structure Pipeline where
  sys : Sys
  tasks : Pool Task WorkerCall WorkerResp Unit
  requests : Pool ServiceCall Call Resp (Except String Unit)

/-- The pipeline with database `db` before the first batch. -/
def Pipeline.start (db : DB) : Pipeline := ⟨{ db := db, queue := .empty }, [], []⟩

/-- The calls of the service that the reader and the purge loop make. -/
def ServiceCall.direct : ServiceCall → Bool
  | .ingest _ | .saveFailed _ => false
  | _ => true

/-! ## Calls -/

section Calls

variable (K : Handler Call Resp DB)

/-- The calls of the session service. -/
def serving : Handler Call Resp Sys := fun c s s' r =>
  K c s.db s'.db r ∧ s' = { s with db := s'.db }

/-- The calls of a task. An `XACK` that returns an error may or may not have been carried out. -/
def working (t : Task) : Handler WorkerCall WorkerResp Sys
  | .svc c, s, s', r =>
    K c s.db s'.db r ∧ s' = { s with db := s'.db, calls := s.calls ++ [(t.key, ⟨c, r⟩)] }
  | .ack msgID, s, s', r =>
    s' = { s with queue := s.queue.ack msgID } ∨ (s' = s ∧ ∃ err, r = .error err)
  | .slog _, s, s', _ | .sleep _, s, s', _ => s' = s

end Calls

/-- The call of the writer: an error means that nothing was added. -/
def enqueueing : Handler WriterCall WriterResp Stream
  | .enqueue data, q, q', r =>
    (∃ id, q.enqueue id data = some q' ∧ r = .ok ()) ∨ (q' = q ∧ ∃ err, r = .error err)

section Writer

variable {lib : Writer.Libraries} {body : Json} {q q' : Stream} {reply : Reply}

/-- A batch that is answered with 204 is an entry of the stream. -/
theorem enqueued_of_noContent (h : Runs enqueueing (Writer.ingest lib body) q q' reply)
    (hreply : reply.status = .noContent) {req : IngestRequest} (hbody : decode body = .ok req) :
    ∃ id, q.enqueue id (encode req) = some q' := by
  rcases Writer.noContent_iff h with ⟨-, req', hc, ⟨id, hid, -⟩ | ⟨-, err, hr⟩⟩ | ⟨hne, -⟩
  · obtain rfl := Except.ok.inj (hbody.symm.trans (Writer.check_ok hc))
    exact ⟨id, hid⟩
  · cases hr
  · exact absurd hreply hne

/-- A batch that is not answered with 204 leaves the stream as it is. -/
theorem queue_eq_of_refused (h : Runs enqueueing (Writer.ingest lib body) q q' reply)
    (hreply : reply.status ≠ .noContent) : q' = q := by
  rcases Writer.noContent_iff h with ⟨hst, -⟩ | ⟨-, rfl | ⟨req, err, -, ⟨id, -, hr⟩ | ⟨rfl, -⟩⟩⟩
  · exact absurd hst hreply
  · rfl
  · cases hr
  · rfl

end Writer

/-! ## Steps -/

/-- What a step shows to the outside. -/
inductive Event where
  /-- The writer answers a batch with 204. -/
  | accepted (req : IngestRequest)
  /-- A service request makes a call. -/
  | served (call : ServiceCall) (c : Σ c, Resp c)
  | internal

section Step

variable (K : Handler Call Resp DB) (lib : Writer.Libraries)

/-- **One step of the pipeline.** -/
inductive Step : Pipeline → Event → Pipeline → Prop
  | accept (p : Pipeline) (body : Json) (req : IngestRequest) (reply : Reply) (q' : Stream)
      (m : Message) (hbody : decode body = .ok req)
      (hrun : Runs enqueueing (Writer.ingest lib body) p.sys.queue q' reply)
      (hreply : reply.status = .noContent)
      (hm : q'.entries.rows = p.sys.queue.entries.rows ++ [m]) :
      Step p (.accepted req)
        { p with sys := { p.sys with
          queue := q', accepted := p.sys.accepted ++ [(m.id, req)] } }
  | refuse (p : Pipeline) (body : Json) (reply : Reply) (q' : Stream)
      (hrun : Runs enqueueing (Writer.ingest lib body) p.sys.queue q' reply)
      (hreply : reply.status ≠ .noContent) :
      Step p .internal { p with sys := { p.sys with queue := q' } }
  | read (p : Pipeline) (workerID : ℕ) (m : Message) (q' : Stream)
      (h : p.sys.queue.read = some (m, q')) :
      Step p .internal { p with
        sys := { p.sys with queue := q', started := p.sys.started + 1 },
        tasks := p.tasks ++ [(⟨p.sys.started, m, []⟩, onMessage workerID m)] }
  | reclaim (p : Pipeline) (m : Message) (ms : List Message)
      (h : p.sys.queue.reclaimPending = m :: ms) :
      Step p .internal { p with
        sys := { p.sys with started := p.sys.started + 1 },
        tasks := p.tasks ++ [(⟨p.sys.started, m, ms⟩, onReclaimed m)] }
  | next (p : Pipeline) (l r : Pool Task WorkerCall WorkerResp Unit) (no : ℕ) (m m' : Message)
      (ms : List Message) (h : p.tasks = l ++ (⟨no, m, m' :: ms⟩, .ret ()) :: r) :
      Step p .internal { p with tasks := l ++ (⟨no, m', ms⟩, onReclaimed m') :: r }
  | work (p : Pipeline) (t : Task) (c : Σ c, WorkerResp c) (s' : Sys)
      (tasks' : Pool Task WorkerCall WorkerResp Unit)
      (h : PoolStep (working K) (p.tasks, p.sys) (t, c) (tasks', s')) :
      Step p .internal { p with sys := s', tasks := tasks' }
  | die (p : Pipeline) (tasks' : Pool Task WorkerCall WorkerResp Unit)
      (requests' : Pool ServiceCall Call Resp (Except String Unit))
      (ht : tasks'.Sublist p.tasks) (hr : requests'.Sublist p.requests) :
      Step p .internal { p with tasks := tasks', requests := requests' }
  | request (p : Pipeline) (call : ServiceCall) (h : call.direct = true) :
      Step p .internal { p with requests := p.requests ++ [(call, call.program)] }
  | serve (p : Pipeline) (call : ServiceCall) (c : Σ c, Resp c) (s' : Sys)
      (requests' : Pool ServiceCall Call Resp (Except String Unit))
      (h : PoolStep (fun _ => serving K) (p.requests, p.sys) (call, c) (requests', s')) :
      Step p (.served call c) { p with sys := s', requests := requests' }

/-- The runs whose steps satisfy `P`. -/
def PipelineRuns (P : Event → Prop) : Pipeline → Pipeline → Prop :=
  Relation.ReflTransGen fun p p' => ∃ e, P e ∧ Step K lib p e p'

/-- The states that the pipeline can reach. -/
def Reachable (p : Pipeline) : Prop :=
  ∃ db, PipelineRuns K lib (fun _ => True) (.start db) p

end Step

/-- The tasks after one of them was replaced. -/
theorem mem_replaced {tasks l r : Pool Task WorkerCall WorkerResp Unit}
    {x x' t : Task × WorkerProg Unit} (h : tasks = l ++ x :: r) (ht : t ∈ l ++ x' :: r) :
    t ∈ tasks ∨ t = x' := by
  subst h
  simp only [List.mem_append, List.mem_cons] at ht ⊢
  rcases ht with ht | rfl | ht
  · exact Or.inl (Or.inl ht)
  · exact Or.inr rfl
  · exact Or.inl (Or.inr (Or.inr ht))

/-! ## Runs -/

section Runs

variable {K : Handler Call Resp DB} {lib : Writer.Libraries} {P : Event → Prop}

/-- What every step keeps, every run keeps. -/
theorem PipelineRuns.invariant {I : Pipeline → Prop}
    (hstep : ∀ p e p', I p → P e → Step K lib p e p' → I p') {p p' : Pipeline}
    (h : PipelineRuns K lib P p p') (hp : I p) : I p' := by
  induction h with
  | refl => exact hp
  | tail _ hlast ih =>
    obtain ⟨e, he, hlast⟩ := hlast
    exact hstep _ e _ ih he hlast

theorem Step.runs {p p' : Pipeline} {e : Event} (h : Step K lib p e p') (he : P e) :
    PipelineRuns K lib P p p' := Relation.ReflTransGen.single ⟨e, he, h⟩

variable (lib) in
/-- A task may run to its end while everything else waits. -/
theorem PipelineRuns.work (t : Task) {w : WorkerProg Unit} {s s' : Sys}
    (h : Runs (working K t) w s s' ()) (he : P .internal)
    (l r : Pool Task WorkerCall WorkerResp Unit)
    (requests : Pool ServiceCall Call Resp (Except String Unit)) :
    PipelineRuns K lib P ⟨s, l ++ (t, w) :: r, requests⟩ ⟨s', l ++ (t, .ret ()) :: r, requests⟩ := by
  have hpool := Runs.pool (working K) t h l r
  refine Relation.ReflTransGen.lift (p := fun p p' => ∃ e, P e ∧ Step K lib p e p')
    (fun x : Pool Task WorkerCall WorkerResp Unit × Sys => Pipeline.mk x.2 x.1 requests) ?_ _ _ hpool
  rintro a b ⟨⟨t, c⟩, hstep⟩
  exact ⟨.internal, he, .work ⟨a.2, a.1, requests⟩ t c b.2 b.1 hstep⟩

variable (lib) in
/-- A batch that passes the checks may be accepted. -/
theorem PipelineRuns.accept (db : DB) (id : String) (req : IngestRequest)
    (hreq : Writer.required req = true) (huuid : lib.parseUUID req.sessionID = true)
    (he : P (.accepted req)) :
    ∃ q, PipelineRuns K lib P (.start db)
        ⟨{ db := db, queue := q, accepted := [(id, req)] }, [], []⟩ ∧
      q.undelivered = [⟨id, encode req⟩] ∧ q.pending = [] := by
  have hid : id ∉ Stream.empty.entries.keys := List.not_mem_nil
  obtain ⟨q, hq⟩ := Stream.exists_enqueue (encode req) hid
  obtain ⟨hrows, -, hund, hpend⟩ := Stream.enqueue_cases hq
  refine ⟨q, (Step.accept (.start db) (encode req) req ⟨.noContent, none⟩ q _ (decode_encode req)
    ?_ rfl hrows).runs he, hund, hpend⟩
  have hcheck : Writer.check lib (encode req) = .ok req := Writer.check_encode hreq huuid
  simp only [Writer.ingest, hcheck]
  exact runs_bind.mpr ⟨q, .ok (), runs_perform.mpr (Or.inl ⟨id, hq, rfl⟩), rfl, rfl⟩

variable (lib) in
/-- The next entry may be read. -/
theorem PipelineRuns.read (s : Sys) {m : Message} {ms : List Message} (workerID : ℕ)
    (tasks : Pool Task WorkerCall WorkerResp Unit)
    (requests : Pool ServiceCall Call Resp (Except String Unit))
    (hu : s.queue.undelivered = m :: ms) (he : P .internal) :
    ∃ q, PipelineRuns K lib P ⟨s, tasks, requests⟩
        ⟨{ s with queue := q, started := s.started + 1 },
          tasks ++ [(⟨s.started, m, []⟩, onMessage workerID m)], requests⟩ ∧
      q.undelivered = ms ∧ q.pending = s.queue.pending ++ [m.id] := by
  obtain ⟨q, hq⟩ := Stream.exists_read hu
  obtain ⟨-, hpend, hund⟩ := Stream.read_cases hq
  exact ⟨q, (Step.read ⟨s, tasks, requests⟩ workerID m q hq).runs he,
    (List.cons.inj (hund.symm.trans hu)).2, hpend⟩

/-- The state in which the first task starts: one batch was accepted and read. -/
def Sys.delivered (db : DB) (q : Stream) (id : String) (req : IngestRequest) : Sys :=
  { db := db, queue := q, accepted := [(id, req)], started := 1 }

variable (lib) in
/-- **One batch through the pipeline**: it is accepted and read, and its task runs to its end. -/
theorem PipelineRuns.deliver (db : DB) (id : String) (req : IngestRequest)
    (hreq : Writer.required req = true) (huuid : lib.parseUUID req.sessionID = true) {workerID : ℕ}
    {f : Stream → Sys} (hrun : ∀ q, Runs (working K ⟨0, ⟨id, encode req⟩, []⟩)
      (onMessage workerID ⟨id, encode req⟩) (.delivered db q id req) (f q) ()) :
    ∃ q, Reachable K lib ⟨f q, [(⟨0, ⟨id, encode req⟩, []⟩, .ret ())], []⟩ ∧
      q.undelivered = [] ∧ q.pending = [id] := by
  obtain ⟨q₁, h₁, hu₁, hp₁⟩ := PipelineRuns.accept (K := K) (P := fun _ => True) lib db id req
    hreq huuid trivial
  obtain ⟨q₂, h₂, hu₂, hp₂⟩ := PipelineRuns.read (K := K) (P := fun _ => True) lib
    { db := db, queue := q₁, accepted := [(id, req)] } workerID [] [] hu₁ trivial
  have h₃ := PipelineRuns.work (P := fun _ => True) lib ⟨0, _, []⟩ (hrun q₂) trivial [] [] []
  refine ⟨q₂, ⟨db, (h₁.trans h₂).trans h₃⟩, hu₂, ?_⟩
  rw [hp₂, hp₁, List.nil_append]

/-- A call of the service that a task makes: it acts on the database, and its calls are recorded. -/
theorem working_svc {α : Type} {x : Svc α} {db db' : DB} {r : Except String α}
    (h : Runs K x.run db db' r) : ∃ u, Performs x.run u r ∧ ∀ (t : Task) (s : Sys), s.db = db →
      Runs (working K t) (svc x) s
        { s with db := db', calls := s.calls ++ u.map (Prod.mk t.key) } r := by
  have key : ∀ (p : Prog Call Resp (Except String α)) (db : DB), Runs K p db db' r →
      ∃ u, Performs p u r ∧ ∀ (t : Task) (s : Sys), s.db = db →
        Runs (fun c => working K t (.svc c)) p s
          { s with db := db', calls := s.calls ++ u.map (Prod.mk t.key) } r := by
    intro p
    induction p with
    | ret a =>
      rintro db ⟨rfl, rfl⟩
      refine ⟨[], .ret _, fun t s hs => ⟨?_, rfl⟩⟩
      rw [List.map_nil, List.append_nil, ← hs]
    | call c k ih =>
      rintro db ⟨db₁, a, hK, hk⟩
      obtain ⟨u, hu, hruns⟩ := ih a db₁ hk
      refine ⟨⟨c, a⟩ :: u, .call c k a hu, fun t s hs => ?_⟩
      have hrest := hruns t { s with db := db₁, calls := s.calls ++ [(t.key, ⟨c, a⟩)] } rfl
      rw [List.append_assoc, List.singleton_append] at hrest
      exact ⟨_, a, ⟨hs ▸ hK, rfl⟩, hrest⟩
  obtain ⟨u, hu, hruns⟩ := key x.run db h
  exact ⟨u, hu, fun t s hs => runs_hoist.mpr (hruns t s hs)⟩

/-- A batch whose first attempt succeeds is ingested and acknowledged. -/
theorem onMessage_runs (id : String) {req : IngestRequest} {db db' : DB}
    (h : Runs K (Service.ingest req).run db db' (.ok ())) (workerID : ℕ) :
    ∃ u, Performs (Service.ingest req).run u (.ok ()) ∧ ∀ (t : Task) (s : Sys), s.db = db →
      Runs (working K t) (onMessage workerID ⟨id, encode req⟩) s
        { s with
          db := db', queue := s.queue.ack id, calls := s.calls ++ u.map (Prod.mk t.key) } () := by
  obtain ⟨u, hu, hsvc⟩ := working_svc h
  refine ⟨u, hu, fun t s hs => ?_⟩
  unfold onMessage
  rw [decode_encode]
  have hbackoff : Runs (working K t) (backoff 0) s s () := ⟨rfl, rfl⟩
  refine processFrom_ok hbackoff (hsvc t s hs) (runs_perform.mpr rfl) ?_
  exact runs_bind.mpr ⟨_, .ok (), runs_perform.mpr (Or.inl rfl), rfl, rfl⟩

variable (lib) in
/-- **One batch in a run**: it is accepted, read and ingested at the first attempt. -/
theorem PipelineRuns.ingest {db db' : DB} (id : String) {req : IngestRequest}
    (hreq : Writer.required req = true) (huuid : lib.parseUUID req.sessionID = true)
    (hacc : P (.accepted req)) (hint : P .internal)
    (hrun : Runs K (Service.ingest req).run db db' (.ok ())) :
    ∃ p, PipelineRuns K lib P (.start db) p ∧ p.sys.db = db' := by
  obtain ⟨q, haccept, hund, -⟩ := PipelineRuns.accept (K := K) lib db id req hreq huuid hacc
  obtain ⟨q', hread, -⟩ := PipelineRuns.read (K := K) lib
    { db := db, queue := q, accepted := [(id, req)] } 1 [] [] hund hint
  obtain ⟨u, -, hmsg⟩ := onMessage_runs id hrun 1
  have hwork := PipelineRuns.work lib ⟨0, ⟨id, encode req⟩, []⟩
    (hmsg _ (.delivered db q' id req) rfl) hint [] [] []
  exact ⟨_, (haccept.trans hread).trans hwork, rfl⟩

/-- Every call of a task has its place on record. -/
theorem callsOf_record (s : Sys) (key : ℕ × String) (u : Trace) (db : DB) (q : Stream) :
    Sys.callsOf { s with db := db, queue := q, calls := s.calls ++ u.map (Prod.mk key) } key =
      s.callsOf key ++ u := by
  have hall : (u.map (Prod.mk key)).filter (fun x => x.1 = key) = u.map (Prod.mk key) :=
    List.filter_eq_self.mpr fun x hx => by
      obtain ⟨_, -, rfl⟩ := List.mem_map.mp hx
      simp
  rw [Sys.callsOf, Sys.callsOf, List.filter_append, List.map_append, hall, List.map_map]
  simp [Function.comp_def]

end Runs

/-- Libraries that accept the sample session id. -/
def sampleLibraries : Writer.Libraries where
  invalid := fun _ => "Key: 'IngestRequest' Error:Field validation failed"
  parseUUID := fun s => s = sampleID

end BatRewind
