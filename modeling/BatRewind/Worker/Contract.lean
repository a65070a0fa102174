import BatRewind.Worker.Pipeline

/-!
# What holds of every batch

On its way from the writer to the tables a batch is in the stream, among the pending entries, in
the hands of a worker or of a retry, or in `failed_ingest`. A contract says what is known of the
batches, of the calls that their programs make, of the answers and of the database.

* `Contract.Sound`: a call of the contract keeps the database in it, with an answer of it, and the
  programs of a batch make only such calls.
* `Contract.Holds`: the contract in a state of the pipeline.
* **`Contract.Holds.runs`**: it is kept by the runs that accept only batches of the contract and in
  which upkeep makes only calls of it.
-/

namespace BatRewind

open Encoding Tables Effects Effects.Prog Worker

/-- The payload is no batch, or one that satisfies `B`. -/
def PayloadOf (B : IngestRequest → Prop) (payload : Json) : Prop :=
  ∀ req, decode payload = .ok req → B req

theorem payloadOf_encode {B : IngestRequest → Prop} {req : IngestRequest} (h : B req) :
    PayloadOf B (encode req) := by
  intro req' hreq
  obtain rfl := Except.ok.inj ((decode_encode req).symm.trans hreq)
  exact h

/-- The payloads of `failed_ingest` after a statement. -/
theorem Stmt.payloads_onFailed {B : IngestRequest → Prop} {q : Stmt} {l : List FailedIngest}
    (h : ∀ f ∈ l, PayloadOf B f.payload) (hq : ∀ f, q = .insertFailed f → PayloadOf B f.payload)
    (now : Time) : ∀ f ∈ q.onFailed now l, PayloadOf B f.payload := by
  intro f hf
  cases q with
  | insertFailed g =>
    rcases List.mem_append.mp hf with hf | hf
    · exact h f hf
    · rw [List.mem_singleton.mp hf]
      exact hq g rfl
  | markFailedResolved id t =>
    obtain ⟨g, hg, rfl⟩ := List.mem_map.mp hf
    split_ifs
    · exact h g hg
    · exact h g hg
  | _ => exact h f hf

/-- A dead letter that is found is a row of `failed_ingest`. -/
theorem Stmt.mem_of_selectFailed {e : Env} {db db' : DB} {id : String} {f : FailedIngest}
    (h : (Stmt.selectFailed id).run e db = .ok (db', f)) : f ∈ db.failed.rows := by
  simp only [Stmt.run] at h
  split at h
  next g hfind =>
    cases h
    exact (Table.find_eq_some.mp hfind).1
  next => cases h

/-- The calls that ingest a batch, one by one: the clock is read before its session is saved. -/
theorem allCalls_ingest_of {A : (c : Call) → Resp c → Prop} {P : Call → Prop} (req : IngestRequest)
    (hclock : P .timeNow) (huuid : P .uuidNew)
    (hupsert : ∀ now, A .timeNow now → P (.sql (.updateSession (Service.sessionOf req now))) ∧
      P (.sql (.insertSession (Service.sessionOf req now))))
    (hwrite : ∀ q, (Call.sql q).ofSession req.sessionID → (∀ r, q ≠ .updateSession r) →
      (∀ r, q ≠ .insertSession r) → P (.sql q)) :
    AllCalls A P (Service.ingest req).run := by
  rw [ingest_eq]
  refine ⟨hclock, fun now hnow => ?_⟩
  change AllCalls A P (Service.prepare req now >>= fun _ => Service.append req now).run
  have hsave : AllCalls A P (Repository.upsertSession (Service.sessionOf req now)).run := by
    refine AllCalls.bind_except (allCalls_sql (hupsert now hnow).1) fun affected => ?_
    split_ifs
    · exact allCalls_sql (hupsert now hnow).2
    · exact allCalls_pure _
  refine AllCalls.bind_except ((hsave.adapt _).bind_except fun _ => ?_) fun _ => ?_
  · refine (allCalls_persistToken fun token => ?_).bind_except fun _ =>
      allCalls_storeClient fun d => ?_
    · exact hwrite _ rfl (by simp) (by simp)
    · exact hwrite _ rfl (by simp) (by simp)
  · refine allCalls_append huuid (fun ids => ?_) fun n => ?_
    · exact hwrite _ (fun _ => eventsOf_sessionID) (by simp) (by simp)
    · exact hwrite _ rfl (by simp) (by simp)

/-- **A contract** on batches, calls, answers and the database. -/
structure Contract where
  batch : IngestRequest → Prop
  call : Call → Prop
  answer : (c : Call) → Resp c → Prop
  db : DB → Prop

/-- The calls of a retry other than those of its batch, and those of a worker but `SaveFailed`. -/
def Call.aside : Call → Prop
  | .timeNow | .uuidNew => True
  | .sql (.listFailed _) | .sql (.selectFailed _) | .sql (.markFailedResolved _ _) => True
  | _ => False

namespace Contract

/-- The contract is kept by what the answers `K` and the programs of the service do. -/
structure Sound (C : Contract) (K : Handler Call Resp DB) : Prop where
  ingest : ∀ req, C.batch req → AllCalls C.answer C.call (Service.ingest req).run
  save : ∀ f, PayloadOf C.batch f.payload → C.call (.sql (.insertFailed f))
  aside : ∀ c, c.aside → C.call c
  given : ∀ id f, C.answer (.sql (.selectFailed id)) (.ok f) → PayloadOf C.batch f.payload
  keeps : ∀ {c db db' r}, C.call c → C.db db → K c db db' r → C.db db' ∧ C.answer c r

/-- What a step of the contract shows to the outside. -/
def Allows (C : Contract) : Event → Prop
  | .accepted req => C.batch req
  | .served _ c => c.1.upkeep → C.call c.1
  | .internal => True

/-- The program of a request makes calls of the contract or of upkeep. -/
abbrev Requests {α : Type} (C : Contract) (p : Prog Call Resp α) : Prop :=
  AllCalls C.answer (fun c => C.call c ∨ c.upkeep) p

/-- The calls of a worker that belong to the contract. -/
def workerCall (C : Contract) : WorkerCall → Prop
  | .svc c => C.call c
  | _ => True

/-- The answers to a worker that belong to the contract. -/
def workerAnswer (C : Contract) : (c : WorkerCall) → WorkerResp c → Prop
  | .svc c, r => C.answer c r
  | _, _ => True

/-- The program of a worker makes calls of the contract. -/
abbrev Works {α : Type} (C : Contract) (p : WorkerProg α) : Prop :=
  AllCalls C.workerAnswer C.workerCall p

/-- **The contract in a state of the pipeline.** -/
structure Holds (C : Contract) (p : Pipeline) : Prop where
  undelivered : ∀ m ∈ p.sys.queue.undelivered, PayloadOf C.batch m.data
  pending : ∀ m ∈ p.sys.queue.pendingEntries, PayloadOf C.batch m.data
  backlog : ∀ t ∈ p.tasks, ∀ m ∈ t.1.backlog, PayloadOf C.batch m.data
  db : C.db p.sys.db
  tasks : ∀ t ∈ p.tasks, C.Works t.2
  requests : ∀ t ∈ p.requests, C.Requests t.2

/-! ## Programs -/

section Programs

variable {C : Contract} {K : Handler Call Resp DB} {req : IngestRequest}

theorem requests_upkeep {α : Type} {x : Svc α} (h : AllCalls C.answer Call.upkeep x.run) :
    C.Requests x.run := h.mono (fun _ _ hr => hr) fun _ hc => Or.inr hc

theorem requests_aside (hC : C.Sound K) {q : Stmt} (h : (Call.sql q).aside) :
    C.Requests (sql q).run := allCalls_sql (Or.inl (hC.aside _ h))

/-- A retry gets its batch from `failed_ingest`. -/
theorem requests_retryFailed (hC : C.Sound K) (failedID : String) :
    C.Requests (Service.retryFailed failedID).run := by
  refine ⟨Or.inl (hC.aside _ trivial), fun r hr => ?_⟩
  cases r with
  | error err => exact trivial
  | ok f =>
    change C.Requests (do
      let req ← wrap "invalid payload: " (ExceptT.mk (pure (decode f.payload)))
      wrap "retry failed: " (Service.ingest req)
      Repository.markFailedResolved failedID : Svc Unit).run
    cases hd : decode f.payload with
    | error err => exact trivial
    | ok req =>
      have hingest := hC.ingest req (hC.given _ _ hr req hd)
      change C.Requests (do
        wrap "retry failed: " (Service.ingest req)
        Repository.markFailedResolved failedID : Svc Unit).run
      refine AllCalls.bind_except (AllCalls.adapt ?_ _) fun _ => ?_
      · exact hingest.mono (fun _ _ hr => hr) fun _ hc => Or.inl hc
      · have hnow : C.Requests (perform (R := Resp) .timeNow) := allCalls_perform (Or.inr trivial)
        exact hnow.lift.bind_except fun now =>
          requests_aside hC (q := .markFailedResolved failedID now) trivial

theorem requests_retryEach (hC : C.Sound K) (items : List FailedIngest) (succeeded : ℕ) :
    C.Requests (Service.retryEach items succeeded).run := by
  induction items generalizing succeeded with
  | nil => exact allCalls_pure _
  | cons f items ih =>
    refine (requests_retryFailed hC f.id).lift.bind_except fun r => ?_
    cases r with
    | ok _ => exact ih _
    | error err => exact ih _

/-- **The programs of the reader and of the purge loop.** -/
theorem requests_program (hC : C.Sound K) (call : ServiceCall) (h : call.direct = true) :
    C.Requests call.program := by
  cases call with
  | ingest | saveFailed => cases h
  | finalizeSession sessionID => exact requests_upkeep (allCalls_finalizeSession sessionID)
  | createShareToken sessionID =>
    exact (requests_upkeep (allCalls_createShareToken sessionID)).bind_except
      fun _ => allCalls_pure _
  | delete sessionID => exact allCalls_sql (Or.inr trivial)
  | purgeOlderThan retention =>
    exact (requests_upkeep (allCalls_purgeOlderThan retention)).bind_except
      fun _ => allCalls_pure _
  | retryFailed failedID => exact requests_retryFailed hC failedID
  | retryAllFailed =>
    have hlist := requests_aside hC (q := .listFailed true) trivial
    exact AllCalls.bind_except (hlist.bind_except fun items => requests_retryEach hC items 0)
      fun _ => allCalls_pure _

theorem works_svc {α : Type} {x : Svc α} (h : AllCalls C.answer C.call x.run) :
    C.Works (svc x) := allCalls_hoist h

theorem works_ack (msgID : String) : C.Works (ack msgID) :=
  (allCalls_perform trivial).bind fun _ => allCalls_pure _

theorem works_slog (entry : LogEntry) : C.Works (slog entry) := allCalls_perform trivial

theorem works_saveFailed (hC : C.Sound K) (h : C.batch req) (err : String) (retries : ℕ) :
    C.Works (saveFailed req err retries) := by
  have huuid : C.workerCall (.svc .uuidNew) := hC.aside .uuidNew trivial
  refine (allCalls_perform huuid).bind fun ids => ?_
  refine (works_svc (allCalls_sql (hC.save _ (payloadOf_encode h)))).bind fun r => ?_
  cases r <;> exact works_slog _

theorem works_processFrom (hC : C.Sound K) (h : C.batch req) (workerID : ℕ) (msgID : String)
    (attempt : ℕ) (ds : List ℕ) : C.Works (processFrom workerID msgID req attempt ds) := by
  induction ds generalizing attempt with
  | nil => exact allCalls_pure _
  | cons delay ds ih =>
    refine AllCalls.bind ?_ fun _ => (works_svc (hC.ingest req h)).bind fun r => ?_
    · unfold backoff
      split_ifs
      · exact allCalls_perform trivial
      · exact allCalls_pure _
    · cases r with
      | ok _ => exact (works_slog _).bind fun _ => works_ack _
      | error err =>
        refine AllCalls.bind ((works_slog _).bind fun _ => ?_) fun _ => ih _
        split_ifs
        · exact (works_saveFailed hC h err _).bind fun _ => works_ack _
        · exact allCalls_pure _

theorem works_onMessage (hC : C.Sound K) {m : Message} (h : PayloadOf C.batch m.data)
    (workerID : ℕ) : C.Works (onMessage workerID m) := by
  unfold onMessage
  split
  next err hd => exact (works_slog _).bind fun _ => works_ack _
  next req hd => exact works_processFrom hC (h req hd) _ _ _ _

theorem works_onReclaimed (hC : C.Sound K) {m : Message} (h : PayloadOf C.batch m.data) :
    C.Works (onReclaimed m) := by
  unfold onReclaimed
  split
  next err hd => exact works_ack _
  next req hd => exact works_processFrom hC (h req hd) _ _ _ _

end Programs

/-! ## Steps -/

namespace Holds

variable {C : Contract} {K : Handler Call Resp DB} {lib : Writer.Libraries} {p p' : Pipeline}
  {s' : Sys}

theorem of_db (h : C.Holds p) (hdb : C.db s'.db) (hq : s'.queue = p.sys.queue) :
    C.Holds { p with sys := s' } :=
  ⟨hq ▸ h.undelivered, hq ▸ h.pending, h.backlog, hdb, h.tasks, h.requests⟩

theorem of_tasks (h : C.Holds p) {tasks' : Pool Task WorkerCall WorkerResp Unit}
    (ht : ∀ t ∈ tasks', t ∈ p.tasks ∨
      (∀ m ∈ t.1.backlog, PayloadOf C.batch m.data) ∧ C.Works t.2) :
    C.Holds { p with tasks := tasks' } :=
  ⟨h.undelivered, h.pending, fun t hmem => (ht t hmem).elim (h.backlog t) And.left, h.db,
    fun t hmem => (ht t hmem).elim (h.tasks t) And.right, h.requests⟩

theorem of_requests (h : C.Holds p)
    {requests' : Pool ServiceCall Call Resp (Except String Unit)}
    (hr : ∀ t ∈ requests', C.Requests t.2) : C.Holds { p with requests := requests' } :=
  ⟨h.undelivered, h.pending, h.backlog, h.db, h.tasks, hr⟩

theorem of_queue (h : C.Holds p) (hdb : s'.db = p.sys.db)
    (hu : ∀ m ∈ s'.queue.undelivered, PayloadOf C.batch m.data)
    (hp : ∀ m ∈ s'.queue.pendingEntries, PayloadOf C.batch m.data) :
    C.Holds { p with sys := s' } :=
  ⟨hu, hp, h.backlog, hdb ▸ h.db, h.tasks, h.requests⟩

theorem accept (h : C.Holds p) {msgID : String} {req : IngestRequest} {q' : Stream}
    (hq : p.sys.queue.enqueue msgID (encode req) = some q') (hreq : C.batch req)
    (accepted' : List (String × IngestRequest)) :
    C.Holds { p with sys := { p.sys with queue := q', accepted := accepted' } } := by
  obtain ⟨hrows, -, hund, hpend⟩ := Stream.enqueue_cases hq
  refine h.of_queue rfl (fun m hm => ?_) fun m hm => ?_
  · rw [hund] at hm
    rcases List.mem_append.mp hm with hm | hm
    · exact h.undelivered m hm
    · rw [List.mem_singleton.mp hm]
      exact payloadOf_encode hreq
  · obtain ⟨hrow, hid⟩ := Stream.mem_pendingEntries.mp hm
    rw [hrows] at hrow
    rcases List.mem_append.mp hrow with hrow | hrow
    · exact h.pending m (Stream.mem_pendingEntries.mpr ⟨hrow, hpend ▸ hid⟩)
    · rw [List.mem_singleton.mp hrow]
      exact payloadOf_encode hreq

theorem read (h : C.Holds p) {m : Message} {q' : Stream}
    (hq : p.sys.queue.read = some (m, q')) (started' : ℕ) :
    PayloadOf C.batch m.data ∧
      C.Holds { p with sys := { p.sys with queue := q', started := started' } } := by
  obtain ⟨hent, hpend, hund⟩ := Stream.read_cases hq
  have hm : m ∈ p.sys.queue.undelivered := hund ▸ List.mem_cons_self
  refine ⟨h.undelivered m hm, h.of_queue rfl (fun m' hm' => ?_) fun m' hm' => ?_⟩
  · exact h.undelivered m' (hund ▸ List.mem_cons_of_mem _ hm')
  · obtain ⟨hrow, hid⟩ := Stream.mem_pendingEntries.mp hm'
    rw [hent] at hrow
    rw [hpend] at hid
    rcases List.mem_append.mp hid with hid | hid
    · exact h.pending m' (Stream.mem_pendingEntries.mpr ⟨hrow, hid⟩)
    · have he := p.sys.queue.entries.eq_of_key_eq hrow (Stream.mem_of_mem_undelivered hm)
        (List.mem_singleton.mp hid)
      exact he ▸ h.undelivered m hm

theorem ack (h : C.Holds p) (msgID : String) :
    C.Holds { p with sys := { p.sys with queue := p.sys.queue.ack msgID } } := by
  refine h.of_queue rfl h.undelivered fun m hm => ?_
  obtain ⟨hrow, hid⟩ := Stream.mem_pendingEntries.mp hm
  exact h.pending m (Stream.mem_pendingEntries.mpr ⟨hrow, (Stream.mem_pending_ack.mp hid).1⟩)

theorem work (hC : C.Sound K) (h : C.Holds p) {t : Task} {c : Σ c, WorkerResp c}
    {tasks' : Pool Task WorkerCall WorkerResp Unit}
    (hstep : PoolStep (working K) (p.tasks, p.sys) (t, c) (tasks', s')) :
    C.Holds { p with sys := s', tasks := tasks' } := by
  obtain ⟨c, r⟩ := c
  obtain ⟨hc, hrest⟩ := hstep.allCalls h.tasks
  have hT := hstep.handled
  have hshared : C.Holds { p with sys := s' } ∧ C.workerAnswer c r := by
    cases c with
    | svc c =>
      obtain ⟨hdb, hr⟩ := hC.keeps hc h.db hT.1
      exact ⟨h.of_db hdb (by rw [hT.2]), hr⟩
    | ack msgID =>
      rcases hT with rfl | ⟨rfl, -⟩
      · exact ⟨h.ack msgID, trivial⟩
      · exact ⟨h, trivial⟩
    | slog | sleep =>
      cases hT
      exact ⟨h, trivial⟩
  have hbacklog := hstep.forall_label (P := fun t => ∀ m ∈ t.backlog, PayloadOf C.batch m.data)
    h.backlog
  exact hshared.1.of_tasks fun t' ht' => Or.inr ⟨hbacklog t' ht', hrest hshared.2 t' ht'⟩

/-- **A step that the contract allows keeps it.** -/
theorem step (hC : C.Sound K) (h : C.Holds p) {e : Event} (he : C.Allows e)
    (hstep : Step K lib p e p') : C.Holds p' := by
  cases hstep with
  | accept body req reply q' m hbody hrun hreply hm =>
    obtain ⟨msgID, hq⟩ := enqueued_of_noContent hrun hreply hbody
    exact h.accept hq he _
  | refuse body reply q' hrun hreply =>
    rw [queue_eq_of_refused hrun hreply]
    exact h
  | read workerID m q' hq =>
    obtain ⟨hm, h'⟩ := h.read hq (p.sys.started + 1)
    refine h'.of_tasks fun t ht => (List.mem_append.mp ht).imp_right fun ht => ?_
    rw [List.mem_singleton.mp ht]
    exact ⟨fun _ hm' => absurd hm' List.not_mem_nil, works_onMessage hC hm workerID⟩
  | reclaim m ms hq =>
    have hms : ∀ m' ∈ m :: ms, PayloadOf C.batch m'.data := fun m' hm' =>
      h.pending m' (Stream.mem_reclaimPending (hq ▸ hm'))
    have h' : C.Holds { p with sys := { p.sys with started := p.sys.started + 1 } } :=
      h.of_db h.db rfl
    refine h'.of_tasks fun t ht => (List.mem_append.mp ht).imp_right fun ht => ?_
    rw [List.mem_singleton.mp ht]
    exact ⟨fun m' hm' => hms m' (List.mem_cons_of_mem _ hm'),
      works_onReclaimed hC (hms m List.mem_cons_self)⟩
  | next l r no m m' ms heq =>
    have hms := h.backlog (⟨no, m, m' :: ms⟩, .ret ()) (heq ▸ by simp)
    refine h.of_tasks fun t ht => ?_
    rcases mem_replaced heq ht with ht | rfl
    · exact Or.inl ht
    · exact Or.inr ⟨fun m₁ hm₁ => hms m₁ (List.mem_cons_of_mem _ hm₁),
        works_onReclaimed hC (hms m' List.mem_cons_self)⟩
  | work t c s' tasks' hw => exact h.work hC hw
  | die tasks' requests' ht hr =>
    exact (h.of_tasks fun t hmem => Or.inl (ht.subset hmem)).of_requests
      fun t hmem => h.requests t (hr.subset hmem)
  | request call hc =>
    refine h.of_requests fun t ht => ?_
    rcases List.mem_append.mp ht with ht | ht
    · exact h.requests t ht
    · rw [List.mem_singleton.mp ht]
      exact requests_program hC call hc
  | serve call c s' requests' hs =>
    obtain ⟨c, r⟩ := c
    obtain ⟨hc, hrest⟩ := hs.allCalls h.requests
    have hT := hs.handled
    obtain ⟨hdb, hr⟩ := hC.keeps (hc.elim id he) h.db hT.1
    exact (h.of_db hdb (by rw [hT.2])).of_requests (hrest hr)

/-- **A run whose steps the contract allows keeps it.** -/
theorem runs (hC : C.Sound K) {P : Event → Prop} (hP : ∀ e, P e → C.Allows e) (h : C.Holds p)
    (hruns : PipelineRuns K lib P p p') : C.Holds p' :=
  hruns.invariant (fun _ _ _ h he hstep => h.step hC (hP _ he) hstep) h

end Holds

end Contract

end BatRewind
