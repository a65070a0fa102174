import BatRewind.Worker.Pipeline

/-!
# Erasure

`Service.Delete` removes the rows of a session in one transaction. Its batches may also wait in the
stream, among the pending entries, in `failed_ingest` or in the hands of a worker or a retry, and
every one of these is ingested later as if nothing had happened.

* `Cleared id p`: none of these places holds a batch of session `id`.
* `Erased`: the invariant, kept by every step but the acceptance of a new batch (`Erased.step`).
* **`delete_permanent`**: a delete in a cleared state is permanent.
-/

namespace BatRewind

open Encoding Tables Effects Effects.Prog Worker

/-- The payload is a batch of session `id`. -/
def OfSession (id : String) (payload : Json) : Prop :=
  ∃ req, decode payload = .ok req ∧ req.sessionID = id

/-! ## Calls that bring a session back -/

/-- The call neither inserts the row of session `id` nor saves one of its batches. -/
def Call.Spares (id : String) : Call → Prop
  | .sql (.insertSession s) => s.id ≠ id
  | .sql (.insertFailed f) => ¬ OfSession id f.payload
  | _ => True

/-- The answer is not a dead letter of session `id`. -/
def Call.Withholds (id : String) : (c : Call) → Resp c → Prop
  | .sql (.selectFailed _), .ok f => ¬ OfSession id f.payload
  | _, _ => True

/-- `Call.Spares` for the calls of a worker. -/
def WorkerCall.Spares (id : String) : WorkerCall → Prop
  | .svc c => c.Spares id
  | _ => True

/-- `Call.Withholds` for the calls of a worker. -/
def WorkerCall.Withholds (id : String) : (c : WorkerCall) → WorkerResp c → Prop
  | .svc c, r => c.Withholds id r
  | _, _ => True

/-- **The program has no batch of session `id` in hand**: it brings the session back only if it is
given one of its dead letters. -/
abbrev NoneInHand {α : Type} (id : String) (p : Prog Call Resp α) : Prop :=
  AllCalls (Call.Withholds id) (Call.Spares id) p

/-- `NoneInHand` for the program of a worker. -/
abbrev WorkerNoneInHand {α : Type} (id : String) (p : WorkerProg α) : Prop :=
  AllCalls (WorkerCall.Withholds id) (WorkerCall.Spares id) p

section Programs

variable {id : String} {req : IngestRequest}

theorem Call.ofSession.spares {c : Call} {other : String} (h : c.ofSession other)
    (hne : other ≠ id) : c.Spares id := by
  cases c with
  | sql q => cases q <;> simp_all [Call.ofSession, Call.Spares]
  | _ => trivial

theorem noneInHand_ingest (h : req.sessionID ≠ id) : NoneInHand id (Service.ingest req).run :=
  (allCalls_ingest req).mono (fun _ _ hr => hr) fun _ hc => hc.spares h

theorem not_ofSession_encode (h : req.sessionID ≠ id) : ¬ OfSession id (encode req) := by
  rintro ⟨req', hreq, hid⟩
  obtain rfl := Except.ok.inj ((decode_encode req).symm.trans hreq)
  exact h hid

/-! ### Service requests -/

/-- A retry has a batch of the session in hand only if it was given one of its dead letters. -/
theorem noneInHand_retryFailed (failedID : String) :
    NoneInHand id (Service.retryFailed failedID).run := by
  refine ⟨trivial, fun r hr => ?_⟩
  cases r with
  | error err => exact trivial
  | ok f =>
    change NoneInHand id (do
      let req ← wrap "invalid payload: " (ExceptT.mk (pure (decode f.payload)))
      wrap "retry failed: " (Service.ingest req)
      Repository.markFailedResolved failedID : Svc Unit).run
    cases hd : decode f.payload with
    | error err => exact trivial
    | ok req =>
      have hne : req.sessionID ≠ id := fun he => hr ⟨req, hd, he⟩
      change NoneInHand id (do
        wrap "retry failed: " (Service.ingest req)
        Repository.markFailedResolved failedID : Svc Unit).run
      refine AllCalls.bind_except ((noneInHand_ingest hne).adapt _) fun _ => ?_
      exact (allCalls_perform trivial).lift.bind_except fun now => allCalls_sql trivial

theorem noneInHand_retryEach (items : List FailedIngest) (succeeded : ℕ) :
    NoneInHand id (Service.retryEach items succeeded).run := by
  induction items generalizing succeeded with
  | nil => exact allCalls_pure _
  | cons f items ih =>
    refine (noneInHand_retryFailed f.id).lift.bind_except fun r => ?_
    cases r with
    | ok _ => exact ih _
    | error err => exact ih _

theorem Call.upkeep.spares {c : Call} (h : c.upkeep) : c.Spares id := by
  cases c with
  | sql q => cases q <;> trivial
  | _ => trivial

theorem noneInHand_upkeep {α : Type} {x : Svc α}
    (h : AllCalls (Call.Withholds id) Call.upkeep x.run) : NoneInHand id x.run :=
  h.mono (fun _ _ hr => hr) fun _ hc => hc.spares

theorem noneInHand_program (call : ServiceCall) (h : call.direct = true) :
    NoneInHand id call.program := by
  cases call with
  | ingest | saveFailed => cases h
  | finalizeSession sessionID => exact noneInHand_upkeep (allCalls_finalizeSession sessionID)
  | createShareToken sessionID =>
    exact (noneInHand_upkeep (allCalls_createShareToken sessionID)).bind_except
      fun _ => allCalls_pure _
  | delete sessionID => exact allCalls_sql trivial
  | purgeOlderThan retention =>
    exact (noneInHand_upkeep (allCalls_purgeOlderThan retention)).bind_except
      fun _ => allCalls_pure _
  | retryFailed failedID => exact noneInHand_retryFailed failedID
  | retryAllFailed =>
    exact AllCalls.bind_except ((allCalls_sql trivial).bind_except fun items =>
      noneInHand_retryEach items 0) fun _ => allCalls_pure _

/-! ### Worker tasks -/

theorem workerNoneInHand_svc {α : Type} {x : Svc α} (h : NoneInHand id x.run) :
    WorkerNoneInHand id (svc x) := allCalls_hoist h

theorem workerNoneInHand_ack (msgID : String) : WorkerNoneInHand id (ack msgID) :=
  (allCalls_perform trivial).bind fun _ => allCalls_pure _

theorem workerNoneInHand_slog (entry : LogEntry) : WorkerNoneInHand id (slog entry) :=
  allCalls_perform trivial

theorem workerNoneInHand_saveFailed (h : req.sessionID ≠ id) (err : String) (retries : ℕ) :
    WorkerNoneInHand id (saveFailed req err retries) := by
  refine (allCalls_perform trivial).bind fun ids => ?_
  refine (workerNoneInHand_svc (allCalls_perform ?_)).bind fun r => ?_
  · exact not_ofSession_encode h
  · cases r <;> exact workerNoneInHand_slog _

theorem workerNoneInHand_processFrom (h : req.sessionID ≠ id) (workerID : ℕ) (msgID : String)
    (attempt : ℕ) (ds : List ℕ) :
    WorkerNoneInHand id (processFrom workerID msgID req attempt ds) := by
  induction ds generalizing attempt with
  | nil => exact allCalls_pure _
  | cons delay ds ih =>
    refine AllCalls.bind ?_ fun _ =>
      (workerNoneInHand_svc (noneInHand_ingest h)).bind fun r => ?_
    · unfold backoff
      split_ifs
      · exact allCalls_perform trivial
      · exact allCalls_pure _
    · cases r with
      | ok _ => exact (workerNoneInHand_slog _).bind fun _ => workerNoneInHand_ack _
      | error err =>
        refine AllCalls.bind ((workerNoneInHand_slog _).bind fun _ => ?_) fun _ => ih _
        split_ifs
        · exact (workerNoneInHand_saveFailed h err _).bind fun _ => workerNoneInHand_ack _
        · exact allCalls_pure _

theorem workerNoneInHand_onMessage {m : Message} (h : ¬ OfSession id m.data) (workerID : ℕ) :
    WorkerNoneInHand id (onMessage workerID m) := by
  unfold onMessage
  split
  next err hd => exact (workerNoneInHand_slog _).bind fun _ => workerNoneInHand_ack _
  next req hd => exact workerNoneInHand_processFrom (fun he => h ⟨req, hd, he⟩) _ _ _ _

theorem workerNoneInHand_onReclaimed {m : Message} (h : ¬ OfSession id m.data) :
    WorkerNoneInHand id (onReclaimed m) := by
  unfold onReclaimed
  split
  next err hd => exact workerNoneInHand_ack _
  next req hd => exact workerNoneInHand_processFrom (fun he => h ⟨req, hd, he⟩) _ _ _ _

end Programs

/-! ## The database -/

section Database

variable {id : String} {db db' : DB}

/-- The database holds no row and no dead letter of session `id`. -/
structure DB.Without (db : DB) (id : String) : Prop where
  sessions : id ∉ db.sessions.keys
  failed : ∀ f ∈ db.failed.rows, ¬ OfSession id f.payload

theorem notMem_updateRow {sid : String} {f : ReplaySession → ReplaySession}
    {l : List ReplaySession} (h : id ∉ l.map ReplaySession.id) (hf : ∀ r, (f r).id = r.id) :
    id ∉ (updateRow sid f l).map ReplaySession.id := by
  rw [updateRow, Table.map_key_modify sid hf]
  exact h

theorem Stmt.notMem_onSessions {q : Stmt} (hq : (Call.sql q).Spares id) {l : List ReplaySession}
    (h : id ∉ l.map ReplaySession.id) : id ∉ (q.onSessions l).map ReplaySession.id := by
  have hfilter : ∀ p : ReplaySession → Bool, id ∉ (l.filter p).map ReplaySession.id :=
    fun p hm => h ((List.filter_sublist.map _).subset hm)
  cases q with
  | updateSession s | setClientMetadata sid d | incrementEventCount sid n
  | updateSessionEnd sid t d | setShareToken sid token =>
    exact notMem_updateRow h fun _ => rfl
  | insertSession s =>
    simp only [Stmt.onSessions, upsertRow]
    split_ifs
    · exact notMem_updateRow h fun _ => rfl
    · rw [List.map_append, List.mem_append, not_or]
      exact ⟨h, fun hm => hq (List.mem_singleton.mp hm).symm⟩
  | deleteSession sid | purgeSessions ids => exact hfilter _
  | _ => exact h

theorem Stmt.failed_onFailed {q : Stmt} (hq : (Call.sql q).Spares id) {l : List FailedIngest}
    (h : ∀ f ∈ l, ¬ OfSession id f.payload) (now : Time) :
    ∀ f ∈ q.onFailed now l, ¬ OfSession id f.payload := by
  intro f hf
  cases q with
  | insertFailed g =>
    rcases List.mem_append.mp hf with hf | hf
    · exact h f hf
    · obtain rfl := List.mem_singleton.mp hf
      exact hq
  | markFailedResolved fid t =>
    obtain ⟨g, hg, rfl⟩ := List.mem_map.mp hf
    split_ifs
    · exact h g hg
    · exact h g hg
  | _ => exact h f hf

/-- **A sparing call keeps the database without the session**, and its answer withholds it. -/
theorem DB.Without.call {c : Call} {r : Resp c} (h : db.Without id) (hc : c.Spares id)
    (hT : AnyAnswer c db db' r) : db'.Without id ∧ c.Withholds id r := by
  cases c with
  | timeNow =>
    obtain ⟨rfl, -⟩ := answers_timeNow.mp hT
    exact ⟨h, trivial⟩
  | uuidNew =>
    obtain ⟨rfl, -⟩ := answers_uuidNew.mp hT
    exact ⟨h, trivial⟩
  | sql q =>
    rcases hT.sql_cases with ⟨msg, rfl, rfl⟩ | ⟨e, a, -, hrun, rfl⟩
    · refine ⟨h, ?_⟩
      cases q <;> trivial
    · obtain ⟨hs, -, hf⟩ := Stmt.run_rows hrun
      refine ⟨⟨?_, ?_⟩, ?_⟩
      · rw [Table.keys, hs]
        exact q.notMem_onSessions hc h.sessions
      · rw [hf]
        exact q.failed_onFailed hc h.failed e.now
      · cases q with
        | selectFailed fid =>
          simp only [Stmt.run] at hrun
          split at hrun
          next f hfind =>
            cases hrun
            exact h.failed _ (Table.find_eq_some.mp hfind).1
          next => cases hrun
        | _ => trivial

end Database

/-! ## The invariant -/

/-- **No batch of the session is left**: not in the stream, not in `failed_ingest`, and not in the
hands of a task or a request. -/
structure Cleared (id : String) (p : Pipeline) : Prop where
  undelivered : ∀ m ∈ p.sys.queue.undelivered, ¬ OfSession id m.data
  pending : ∀ m ∈ p.sys.queue.pendingEntries, ¬ OfSession id m.data
  failed : ∀ f ∈ p.sys.db.failed.rows, ¬ OfSession id f.payload
  backlog : ∀ t ∈ p.tasks, ∀ m ∈ t.1.backlog, ¬ OfSession id m.data
  tasks : ∀ t ∈ p.tasks, WorkerNoneInHand id t.2
  requests : ∀ t ∈ p.requests, NoneInHand id t.2

/-- The step does not accept a batch of session `id`. -/
def NoBatchOf (id : String) (e : Event) : Prop := ∀ req, e = .accepted req → req.sessionID ≠ id

/-- **The invariant after a delete.** -/
structure Erased (id : String) (p : Pipeline) : Prop extends Cleared id p where
  sessions : id ∉ p.sys.db.sessions.keys

namespace Erased

variable {id : String} {p p' : Pipeline} {lib : Writer.Libraries} {s' : Sys}

theorem without (h : Erased id p) : p.sys.db.Without id := ⟨h.sessions, h.failed⟩

/-- A change of the database. -/
theorem of_db (h : Erased id p) (hdb : s'.db.Without id) (hq : s'.queue = p.sys.queue) :
    Erased id { p with sys := s' } :=
  ⟨⟨hq ▸ h.undelivered, hq ▸ h.pending, hdb.failed, h.backlog, h.tasks, h.requests⟩,
    hdb.sessions⟩

theorem of_tasks (h : Erased id p) {tasks' : Pool Task WorkerCall WorkerResp Unit}
    (ht : ∀ t ∈ tasks', t ∈ p.tasks ∨
      (∀ m ∈ t.1.backlog, ¬ OfSession id m.data) ∧ WorkerNoneInHand id t.2) :
    Erased id { p with tasks := tasks' } :=
  ⟨⟨h.undelivered, h.pending, h.failed, fun t hmem => (ht t hmem).elim (h.backlog t) And.left,
    fun t hmem => (ht t hmem).elim (h.tasks t) And.right, h.requests⟩, h.sessions⟩

theorem of_requests (h : Erased id p)
    {requests' : Pool ServiceCall Call Resp (Except String Unit)}
    (hr : ∀ t ∈ requests', NoneInHand id t.2) : Erased id { p with requests := requests' } :=
  ⟨⟨h.undelivered, h.pending, h.failed, h.backlog, h.tasks, hr⟩, h.sessions⟩

/-- A change of the queue or of the records. -/
theorem of_queue (h : Erased id p) (hdb : s'.db = p.sys.db)
    (hu : ∀ m ∈ s'.queue.undelivered, ¬ OfSession id m.data)
    (hp : ∀ m ∈ s'.queue.pendingEntries, ¬ OfSession id m.data) :
    Erased id { p with sys := s' } :=
  ⟨⟨hu, hp, hdb ▸ h.failed, h.backlog, h.tasks, h.requests⟩, hdb ▸ h.sessions⟩

theorem accept (h : Erased id p) {msgID : String} {req : IngestRequest} {q' : Stream}
    (hq : p.sys.queue.enqueue msgID (encode req) = some q') (hne : req.sessionID ≠ id)
    (accepted' : List (String × IngestRequest)) :
    Erased id { p with sys := { p.sys with queue := q', accepted := accepted' } } := by
  obtain ⟨hrows, -, hund, hpend⟩ := Stream.enqueue_cases hq
  refine h.of_queue rfl (fun m hm => ?_) fun m hm => ?_
  · rw [hund] at hm
    rcases List.mem_append.mp hm with hm | hm
    · exact h.undelivered m hm
    · obtain rfl := List.mem_singleton.mp hm
      exact not_ofSession_encode hne
  · obtain ⟨hrow, hid⟩ := Stream.mem_pendingEntries.mp hm
    rw [hrows] at hrow
    rcases List.mem_append.mp hrow with hrow | hrow
    · exact h.pending m (Stream.mem_pendingEntries.mpr ⟨hrow, hpend ▸ hid⟩)
    · obtain rfl := List.mem_singleton.mp hrow
      exact not_ofSession_encode hne

theorem read (h : Erased id p) {m : Message} {q' : Stream}
    (hq : p.sys.queue.read = some (m, q')) (started' : ℕ) :
    ¬ OfSession id m.data ∧
      Erased id { p with sys := { p.sys with queue := q', started := started' } } := by
  obtain ⟨hent, hpend, hund⟩ := Stream.read_cases hq
  have hm : m ∈ p.sys.queue.undelivered := hund ▸ List.mem_cons_self
  refine ⟨h.undelivered m hm, h.of_queue rfl (fun m' hm' => ?_) fun m' hm' => ?_⟩
  · exact h.undelivered m' (hund ▸ List.mem_cons_of_mem _ hm')
  · obtain ⟨hrow, hid⟩ := Stream.mem_pendingEntries.mp hm'
    rw [hent] at hrow
    rw [hpend] at hid
    rcases List.mem_append.mp hid with hid | hid
    · exact h.pending m' (Stream.mem_pendingEntries.mpr ⟨hrow, hid⟩)
    · have he := p.sys.queue.entries.eq_of_key_eq hrow (Stream.mem_of_mem_undelivered hm)
        (List.mem_singleton.mp hid)
      exact he ▸ h.undelivered m hm

theorem ack (h : Erased id p) (msgID : String) :
    Erased id { p with sys := { p.sys with queue := p.sys.queue.ack msgID } } := by
  refine h.of_queue rfl h.undelivered fun m hm => ?_
  obtain ⟨hrow, hid⟩ := Stream.mem_pendingEntries.mp hm
  exact h.pending m (Stream.mem_pendingEntries.mpr ⟨hrow, (Stream.mem_pending_ack.mp hid).1⟩)

theorem work (h : Erased id p) {t : Task} {c : Σ c, WorkerResp c}
    {tasks' : Pool Task WorkerCall WorkerResp Unit}
    (hstep : PoolStep (working AnyAnswer) (p.tasks, p.sys) (t, c) (tasks', s')) :
    Erased id { p with sys := s', tasks := tasks' } := by
  obtain ⟨c, r⟩ := c
  obtain ⟨hc, hrest⟩ := hstep.allCalls h.tasks
  have hT := hstep.handled
  have hshared : Erased id { p with sys := s' } ∧ c.Withholds id r := by
    cases c with
    | svc c =>
      obtain ⟨hdb, hr⟩ := h.without.call hc hT.1
      exact ⟨h.of_db hdb (by rw [hT.2]), hr⟩
    | ack msgID =>
      rcases hT with rfl | ⟨rfl, -⟩
      · exact ⟨h.ack msgID, trivial⟩
      · exact ⟨h, trivial⟩
    | slog | sleep =>
      cases hT
      exact ⟨h, trivial⟩
  have hbacklog := hstep.forall_label (P := fun t => ∀ m ∈ t.backlog, ¬ OfSession id m.data)
    h.backlog
  exact hshared.1.of_tasks fun t' ht' => Or.inr ⟨hbacklog t' ht', hrest hshared.2 t' ht'⟩

/-- **A step that accepts no batch of the session keeps the invariant.** -/
theorem step (h : Erased id p) {e : Event} (he : NoBatchOf id e)
    (hstep : Step AnyAnswer lib p e p') : Erased id p' := by
  cases hstep with
  | accept body req reply q' m hbody hrun hreply hm =>
    obtain ⟨msgID, hq⟩ := enqueued_of_noContent hrun hreply hbody
    exact h.accept hq (he req rfl) _
  | refuse body reply q' hrun hreply =>
    rw [queue_eq_of_refused hrun hreply]
    exact h
  | read workerID m q' hq =>
    obtain ⟨hm, h'⟩ := h.read hq (p.sys.started + 1)
    refine h'.of_tasks fun t ht => (List.mem_append.mp ht).imp_right fun ht => ?_
    obtain rfl := List.mem_singleton.mp ht
    exact ⟨fun _ hm' => absurd hm' List.not_mem_nil, workerNoneInHand_onMessage hm workerID⟩
  | reclaim m ms hq =>
    have hms : ∀ m' ∈ m :: ms, ¬ OfSession id m'.data := fun m' hm' =>
      h.pending m' (Stream.mem_reclaimPending (hq ▸ hm'))
    have h' : Erased id { p with sys := { p.sys with started := p.sys.started + 1 } } :=
      h.of_db h.without rfl
    refine h'.of_tasks fun t ht => (List.mem_append.mp ht).imp_right fun ht => ?_
    obtain rfl := List.mem_singleton.mp ht
    exact ⟨fun m' hm' => hms m' (List.mem_cons_of_mem _ hm'),
      workerNoneInHand_onReclaimed (hms m List.mem_cons_self)⟩
  | next l r no m m' ms heq =>
    have hms := h.backlog (⟨no, m, m' :: ms⟩, .ret ()) (heq ▸ by simp)
    refine h.of_tasks fun t ht => ?_
    rcases mem_replaced heq ht with ht | rfl
    · exact Or.inl ht
    · exact Or.inr ⟨fun m₁ hm₁ => hms m₁ (List.mem_cons_of_mem _ hm₁),
        workerNoneInHand_onReclaimed (hms m' List.mem_cons_self)⟩
  | work t c s' tasks' hw => exact h.work hw
  | die tasks' requests' ht hr =>
    exact (h.of_tasks fun t hmem => Or.inl (ht.subset hmem)).of_requests
      fun t hmem => h.requests t (hr.subset hmem)
  | request call hc =>
    refine h.of_requests fun t ht => ?_
    rcases List.mem_append.mp ht with ht | ht
    · exact h.requests t ht
    · obtain rfl := List.mem_singleton.mp ht
      exact noneInHand_program call hc
  | serve call c s' requests' hs =>
    obtain ⟨c, r⟩ := c
    obtain ⟨hc, hrest⟩ := hs.allCalls h.requests
    have hT := hs.handled
    obtain ⟨hdb, hr⟩ := h.without.call hc hT.1
    exact (h.of_db hdb (by rw [hT.2])).of_requests (hrest hr)

end Erased

/-! ## Main theorem -/

/-- When `Service.Delete` returns nil in a cleared state, the session is erased. -/
theorem Cleared.erased {id : String} {p p' : Pipeline} {lib : Writer.Libraries}
    (h : Cleared id p)
    (hdel : Step AnyAnswer lib p (.served (.delete id) ⟨.sql (.deleteSession id), .ok ()⟩) p') :
    Erased id p' := by
  cases hdel with
  | serve _ _ s' requests' hs =>
    obtain ⟨hany, hs'⟩ := hs.handled
    obtain ⟨e, -, hrun⟩ := hany.accepted
    obtain ⟨hsessions, -, hfailed⟩ := Stmt.run_rows hrun
    have hrequests := (hs.allCalls h.requests).2 trivial
    refine ⟨⟨?_, ?_, hfailed ▸ h.failed, h.backlog, h.tasks, hrequests⟩, ?_⟩
    · rw [hs']
      exact h.undelivered
    · rw [hs']
      exact h.pending
    · rw [Table.keys, hsessions]
      simp [Stmt.onSessions]

/-- **A delete is permanent** if no batch of the session is left anywhere: along every run that
accepts no further batch of it, no row of the session exists again. -/
theorem delete_permanent {id : String} {lib : Writer.Libraries} {p p₁ p' : Pipeline}
    (hclear : Cleared id p)
    (hdel : Step AnyAnswer lib p (.served (.delete id) ⟨.sql (.deleteSession id), .ok ()⟩) p₁)
    (hruns : PipelineRuns AnyAnswer lib (NoBatchOf id) p₁ p') :
    (∀ r ∈ p'.sys.db.sessions.rows, r.id ≠ id) ∧
      ∀ ev ∈ p'.sys.db.events.rows, ev.sessionID ≠ id := by
  have h : Erased id p' := hruns.invariant (fun _ _ _ herased he hstep => herased.step he hstep)
    (hclear.erased hdel)
  refine ⟨fun r hr he => h.sessions (Table.mem_keys.mpr ⟨r, hr, he⟩), fun ev hev he => ?_⟩
  exact h.sessions (he ▸ p'.sys.db.session_exists ev hev)

/-- A request to delete session `id`, as the last one of the pool, may return nil. -/
theorem delete_step (lib : Writer.Libraries) (s : Sys) (tasks : Pool Task WorkerCall WorkerResp Unit)
    (requests : Pool ServiceCall Call Resp (Except String Unit)) (id : String) :
    Step AnyAnswer lib
      ⟨s, tasks, requests ++ [(.delete id, (ServiceCall.delete id).program)]⟩
      (.served (.delete id) ⟨.sql (.deleteSession id), .ok ()⟩)
      ⟨{ s with db := s.db.deleteRows fun x => x = id }, tasks,
        requests ++ [(.delete id, .ret (.ok ()))]⟩ := by
  refine .serve _ _ _ _ _ (.call requests [] (.delete id) (.sql (.deleteSession id)) .ret s
    { s with db := s.db.deleteRows fun x => x = id } (.ok ()) ⟨?_, rfl⟩)
  exact answers_accept (e := .quiet none 0 fun _ => id) trivial rfl rfl

theorem noBatchOf_internal (id : String) : NoBatchOf id .internal := fun _ h => by cases h

/-- A stored session is deleted while none of its batches is left, and then a batch of another
session is ingested. -/
theorem delete_permanent_stored : ∃ p p₁ p', Reachable AnyAnswer sampleLibraries p ∧
    otherID ∈ p.sys.db.sessions.keys ∧
    Step AnyAnswer sampleLibraries p
      (.served (.delete otherID) ⟨.sql (.deleteSession otherID), .ok ()⟩) p₁ ∧
    PipelineRuns AnyAnswer sampleLibraries (NoBatchOf otherID) p₁ p' ∧
    sampleID ∈ p'.sys.db.sessions.keys ∧
    (∀ r ∈ p'.sys.db.sessions.rows, r.id ≠ otherID) ∧
    ∀ ev ∈ p'.sys.db.events.rows, ev.sessionID ≠ otherID := by
  obtain ⟨db, -, hst⟩ :=
    plainBatch_runs DB.empty otherID ⟨4, .obj [], 1⟩ 0 (sampleEventID false) (by decide)
  have hreq : Step AnyAnswer sampleLibraries (.start db) .internal _ :=
    .request _ (.delete otherID) rfl
  have hdel := delete_step sampleLibraries { db := db, queue := .empty } [] [] otherID
  have hclear : Cleared otherID ⟨{ db := db, queue := .empty }, [],
      [(.delete otherID, (ServiceCall.delete otherID).program)]⟩ := by
    refine ⟨?_, ?_, ?_, ?_, ?_, ?_⟩
    · exact fun _ hm => absurd hm List.not_mem_nil
    · exact fun _ hm => absurd hm List.not_mem_nil
    · rw [hst.failed]
      exact fun _ hf => absurd hf List.not_mem_nil
    · exact fun _ ht => absurd ht List.not_mem_nil
    · exact fun _ ht => absurd ht List.not_mem_nil
    · intro t ht
      obtain rfl := List.mem_singleton.mp ht
      exact noneInHand_program (.delete otherID) rfl
  -- the request is done, and a batch of the other session follows
  have hdie : Step AnyAnswer sampleLibraries
      ⟨{ db := db.deleteRows fun x => x = otherID, queue := .empty }, [],
        [(.delete otherID, .ret (.ok ()))]⟩ .internal _ :=
    .die _ [] [] (List.nil_sublist _) (List.nil_sublist _)
  have hdone := hdie.runs (noBatchOf_internal otherID)
  have hfresh : sampleEventID true ∉ (db.deleteRows fun x => x = otherID).events.keys := by
    intro hmem
    obtain ⟨ev, hev, hid⟩ := Table.mem_keys.mp hmem
    have hold := List.mem_of_mem_filter hev
    rw [hst.events] at hold
    obtain rfl := List.mem_singleton.mp hold
    exact absurd hid (by decide)
  obtain ⟨db', hrun, hst'⟩ := plainBatch_runs (db.deleteRows fun x => x = otherID) sampleID
    ⟨4, .obj [], 1⟩ 0 (sampleEventID true) hfresh
  have hother : NoBatchOf otherID (.accepted sampleBatch) := by
    rintro req ⟨⟩
    decide
  obtain ⟨p', hlater, hdb⟩ := PipelineRuns.ingest (K := AnyAnswer) sampleLibraries "1-0" (by decide)
    (by decide) hother (noBatchOf_internal otherID) (hrun.mono fun _ _ _ _ h => h.healthy.1)
  exact ⟨_, _, p', ⟨db, hreq.runs trivial⟩, hst.mem_keys, hdel, hdone.trans hlater,
    hdb ▸ hst'.mem_keys, delete_permanent hclear hdel (hdone.trans hlater)⟩

/-- **A deleted session comes back** with a batch that was still in the stream. -/
theorem not_delete_permanent : ¬ ∀ lib id p p₁ p', Reachable AnyAnswer lib p →
    Step AnyAnswer lib p (.served (.delete id) ⟨.sql (.deleteSession id), .ok ()⟩) p₁ →
    PipelineRuns AnyAnswer lib (NoBatchOf id) p₁ p' →
    (∀ r ∈ p'.sys.db.sessions.rows, r.id ≠ id) ∧
      ∀ ev ∈ p'.sys.db.events.rows, ev.sessionID ≠ id := by
  intro hall
  obtain ⟨q, haccept, hund, -⟩ := PipelineRuns.accept (K := AnyAnswer) (P := fun _ => True)
    sampleLibraries DB.empty "1-0" sampleBatch (by decide) (by decide) trivial
  let s : Sys := { db := .empty, queue := q, accepted := [("1-0", sampleBatch)] }
  have hreq : Step AnyAnswer sampleLibraries ⟨s, [], []⟩ .internal _ :=
    .request _ (.delete sampleID) rfl
  have hdel := delete_step sampleLibraries s [] [] sampleID
  -- the entry is read and ingested after the delete
  obtain ⟨db', hrun, hst⟩ := plainBatch_runs (DB.empty.deleteRows fun x => x = sampleID) sampleID
    ⟨4, .obj [], 1⟩ 0 (sampleEventID false) (by decide)
  obtain ⟨q', hread, -⟩ := PipelineRuns.read (K := AnyAnswer) sampleLibraries
    { s with db := DB.empty.deleteRows fun x => x = sampleID } 1 []
    [(.delete sampleID, .ret (.ok ()))] hund (noBatchOf_internal sampleID)
  obtain ⟨u, -, hmsg⟩ := onMessage_runs "1-0" (hrun.mono fun _ _ _ _ h => h.healthy.1) 1
  have hwork := PipelineRuns.work sampleLibraries ⟨0, ⟨"1-0", encode sampleBatch⟩, []⟩
    (hmsg _ { s with db := DB.empty.deleteRows fun x => x = sampleID, queue := q', started := 1 }
      rfl) (noBatchOf_internal sampleID) [] [] [(.delete sampleID, .ret (.ok ()))]
  have hback := (hall _ _ _ _ _ ⟨DB.empty, haccept.trans (hreq.runs trivial)⟩ hdel
    (hread.trans hwork)).1
  obtain ⟨r, hr, hid⟩ := Table.mem_keys.mp hst.mem_keys
  exact hback r hr hid

end BatRewind
