import BatRewind.Worker.Pipeline

/-!
# No accepted batch is dropped

A message is acknowledged after an `Ingest` of it returned success, or after the attempt to save it
to `failed_ingest`. The worker ignores the outcome of that attempt, so the guarantee rests on it.

* `Sys.Accounted s id req`: the batch is undelivered, pending, ingested, or a dead letter.
* `Settled`, `Justified`: what must hold of a message when it is acknowledged;
  `careful_onMessage`, `careful_onReclaimed`: the workers acknowledge only settled messages.
* **`accepted_accounted`**: if no save of a dead letter is refused, every accepted batch is
  accounted for in every state of every run.
-/

namespace BatRewind

open Encoding Tables Effects Effects.Prog Worker

/-- **The batch is not lost**: it is undelivered, or pending, or an `Ingest` of it has returned
success, or a dead letter decodes to it. -/
def Sys.Accounted (s : Sys) (id : String) (req : IngestRequest) : Prop :=
  (∃ m ∈ s.queue.undelivered, m.id = id ∧ decode m.data = .ok req) ∨
  (∃ m ∈ s.queue.pendingEntries, m.id = id ∧ decode m.data = .ok req) ∨
  s.Ingested id req ∨
  ∃ f ∈ s.db.failed.rows, decode f.payload = .ok req

/-- Any statement may be refused, except the `INSERT` into `failed_ingest`. -/
def SavesFailed : Handler Call Resp DB := fun c db db' r =>
  AnyAnswer c db db' r ∧ ∀ f, c = .sql (.insertFailed f) → Accepted c r

/-! ## What is never undone -/

/-- Calls stay on record and dead letters keep their payloads. -/
structure Growing (s s' : Sys) : Prop where
  calls : s.calls <+: s'.calls
  failed : ∀ f ∈ s.db.failed.rows, ∃ f' ∈ s'.db.failed.rows, f'.payload = f.payload

theorem Growing.refl (s : Sys) : Growing s s := ⟨List.prefix_rfl, fun f hf => ⟨f, hf, rfl⟩⟩

theorem Growing.trans {s s₁ s' : Sys} (h : Growing s s₁) (h' : Growing s₁ s') : Growing s s' := by
  refine ⟨h.calls.trans h'.calls, fun f hf => ?_⟩
  obtain ⟨f₁, hf₁, e₁⟩ := h.failed f hf
  obtain ⟨f', hf', e'⟩ := h'.failed f₁ hf₁
  exact ⟨f', hf', e'.trans e₁⟩

/-- **What other tasks do while this one runs**: none of their calls is on record as one of its. -/
structure Beside (t : Task) (s s' : Sys) : Prop extends Growing s s' where
  own : s'.callsOf t.key = s.callsOf t.key

instance (t : Task) : Std.Refl (Beside t) := ⟨fun s => ⟨.refl s, rfl⟩⟩

instance (t : Task) : IsTrans Sys (Beside t) :=
  ⟨fun _ _ _ h h' => ⟨h.toGrowing.trans h'.toGrowing, h'.own.trans h.own⟩⟩

theorem Sys.Ingested.mono {s s' : Sys} {id : String} {req : IngestRequest}
    (h : s.Ingested id req) (hg : Growing s s') : s'.Ingested id req := by
  obtain ⟨no, u, hu, hperf⟩ := h
  have hcalls : s.callsOf (no, id) <+: s'.callsOf (no, id) := (hg.calls.filter _).map _
  exact ⟨no, u, hu.trans hcalls.isInfix, hperf⟩

theorem Stmt.onFailed_payload (q : Stmt) (now : Time) (l : List FailedIngest) :
    ∀ f ∈ l, ∃ f' ∈ q.onFailed now l, f'.payload = f.payload := by
  intro f hf
  cases q with
  | insertFailed g => exact ⟨f, List.mem_append_left _ hf, rfl⟩
  | markFailedResolved id t =>
    refine ⟨_, List.mem_map.mpr ⟨f, hf, rfl⟩, ?_⟩
    split_ifs <;> rfl
  | _ => exact ⟨f, hf, rfl⟩

/-- No call of the service removes a dead letter. -/
theorem AnyAnswer.failed_payload {c : Call} {db db' : DB} {r : Resp c}
    (h : AnyAnswer c db db' r) :
    ∀ f ∈ db.failed.rows, ∃ f' ∈ db'.failed.rows, f'.payload = f.payload := by
  cases c with
  | timeNow =>
    obtain ⟨rfl, -⟩ := answers_timeNow.mp h
    exact fun f hf => ⟨f, hf, rfl⟩
  | uuidNew =>
    obtain ⟨rfl, -⟩ := answers_uuidNew.mp h
    exact fun f hf => ⟨f, hf, rfl⟩
  | sql q =>
    rcases h.sql_cases with ⟨msg, rfl, -⟩ | ⟨e, a, -, hrun, -⟩
    · exact fun f hf => ⟨f, hf, rfl⟩
    · rw [(Stmt.run_rows hrun).2.2]
      exact q.onFailed_payload e.now db.failed.rows

theorem serving_growing {c : Call} {s s' : Sys} {r : Resp c} (h : serving SavesFailed c s s' r) :
    Growing s s' := by
  have hcalls : s'.calls = s.calls := by rw [h.2]
  exact ⟨hcalls ▸ List.prefix_rfl, h.1.1.failed_payload⟩

section Working

variable {K : Handler Call Resp DB} {t : Task} {c : WorkerCall} {s s' : Sys} {r : WorkerResp c}

/-- A task leaves the accepted batches and the numbers alone, and only acknowledges messages. -/
theorem working_rest (h : working K t c s s' r) :
    s'.accepted = s.accepted ∧ s'.started = s.started ∧
      (s'.queue = s.queue ∨ ∃ msgID, c = .ack msgID ∧ s' = { s with queue := s.queue.ack msgID }) := by
  cases c with
  | svc c =>
    rw [h.2]
    exact ⟨rfl, rfl, Or.inl rfl⟩
  | ack msgID =>
    rcases h with rfl | ⟨rfl, -⟩
    · exact ⟨rfl, rfl, Or.inr ⟨msgID, rfl, rfl⟩⟩
    · exact ⟨rfl, rfl, Or.inl rfl⟩
  | slog | sleep =>
    cases h
    exact ⟨rfl, rfl, Or.inl rfl⟩

/-- **A call of the service is on record under the task that made it.** -/
theorem working_calls (h : working K t c s s' r) :
    s'.calls = s.calls ∨ ∃ x, s'.calls = s.calls ++ [(t.key, x)] := by
  cases c with
  | svc c =>
    rw [h.2]
    exact Or.inr ⟨_, rfl⟩
  | ack msgID =>
    rcases h with rfl | ⟨rfl, -⟩
    · exact Or.inl rfl
    · exact Or.inl rfl
  | slog | sleep =>
    cases h
    exact Or.inl rfl

theorem working_growing (h : working SavesFailed t c s s' r) : Growing s s' := by
  refine ⟨?_, ?_⟩
  · rcases working_calls h with hcalls | ⟨x, hcalls⟩
    · exact hcalls ▸ List.prefix_rfl
    · exact hcalls ▸ List.prefix_append _ _
  · cases c with
    | svc c => exact h.1.1.failed_payload
    | ack msgID =>
      rcases h with rfl | ⟨rfl, -⟩
      · exact (Growing.refl s).failed
      · exact (Growing.refl s').failed
    | slog | sleep =>
      cases h
      exact (Growing.refl _).failed

/-- A call of a task does not show among those of a task with another number. -/
theorem working_beside (h : working SavesFailed t c s s' r) {t' : Task} (hne : t'.no ≠ t.no) :
    Beside t' s s' := by
  refine ⟨working_growing h, ?_⟩
  rcases working_calls h with hcalls | ⟨x, hcalls⟩
  · rw [Sys.callsOf, Sys.callsOf, hcalls]
  · have hkey : t.key ≠ t'.key := fun he => hne (congrArg Prod.fst he).symm
    simp [Sys.callsOf, hcalls, List.filter_append, hkey]

end Working

theorem Sys.Accounted.mono {s s' : Sys} {id : String} {req : IngestRequest}
    (h : s.Accounted id req) (hg : Growing s s')
    (hu : ∀ m ∈ s.queue.undelivered, m ∈ s'.queue.undelivered ∨ m ∈ s'.queue.pendingEntries)
    (hp : ∀ m ∈ s.queue.pendingEntries, m ∈ s'.queue.pendingEntries) : s'.Accounted id req := by
  rcases h with ⟨m, hm, hreq⟩ | ⟨m, hm, hreq⟩ | hdone | ⟨f, hf, hreq⟩
  · rcases hu m hm with hm | hm
    · exact Or.inl ⟨m, hm, hreq⟩
    · exact Or.inr (Or.inl ⟨m, hm, hreq⟩)
  · exact Or.inr (Or.inl ⟨m, hp m hm, hreq⟩)
  · exact Or.inr (Or.inr (Or.inl (hdone.mono hg)))
  · obtain ⟨f', hf', he⟩ := hg.failed f hf
    exact Or.inr (Or.inr (Or.inr ⟨f', hf', he ▸ hreq⟩))

/-! ## The acknowledgements of a worker -/

section Justified

variable {t : Task} {m : Message} {req : IngestRequest} {workerID : ℕ} {s : Sys}

/-- The batch of the message was ingested, or is a dead letter. -/
def Settled (m : Message) (s : Sys) : Prop :=
  ∀ req, decode m.data = .ok req →
    s.Ingested m.id req ∨ ∃ f ∈ s.db.failed.rows, decode f.payload = .ok req

/-- A worker acknowledges only the message in hand, and only when it is settled. -/
def Justified (m : Message) : WorkerCall → Sys → Prop
  | .ack msgID, s => msgID = m.id ∧ Settled m s
  | _, _ => True

/-- **Every acknowledgement of the program is justified**, whatever the rest of the system does. -/
abbrev Careful (t : Task) (Q : Sys → Prop) (p : WorkerProg Unit) (s : Sys) : Prop :=
  Always (working SavesFailed t) (Beside t) (Justified t.msg) (fun _ => Q) p s

theorem Settled.mono {s' : Sys} (h : Settled m s) (hg : Growing s s') : Settled m s' := by
  intro req hreq
  rcases h req hreq with hdone | ⟨f, hf, hf'⟩
  · exact Or.inl (hdone.mono hg)
  · obtain ⟨f', hm, he⟩ := hg.failed f hf
    exact Or.inr ⟨f', hm, he ▸ hf'⟩

theorem careful_ack (h : Settled t.msg s) : Careful t (fun _ => True) (ack t.msg.id) s := by
  refine always_bind (always_perform (Q := fun _ _ => True) fun s₁ h₁ => ?_) fun _ _ _ _ _ => trivial
  exact ⟨⟨rfl, h.mono h₁.toGrowing⟩, fun _ _ _ _ _ => trivial⟩

theorem careful_slog (entry : LogEntry) (s : Sys) : Careful t (fun _ => True) (slog entry) s :=
  always_perform fun _ _ => ⟨trivial, fun _ _ _ _ _ => trivial⟩

theorem careful_slog_settled (entry : LogEntry) (h : Settled t.msg s) :
    Careful t (Settled t.msg) (slog entry) s :=
  always_perform fun _ h₁ => ⟨trivial, fun _ _ h₂ _ h₃ =>
    h.mono ((h₁.toGrowing.trans (working_growing h₂)).trans h₃.toGrowing)⟩

theorem careful_backoff (delay : ℕ) (s : Sys) : Careful t (fun _ => True) (backoff delay) s := by
  unfold backoff
  split_ifs
  · exact always_perform fun _ _ => ⟨trivial, fun _ _ _ _ _ => trivial⟩
  · exact fun _ _ => trivial

/-- **A call of the service is on record when it returns.** -/
theorem always_svc {α : Type} (x : Svc α) (s : Sys) :
    Always (working SavesFailed t) (Beside t) (Justified t.msg)
      (fun r s' => ∃ u, Performs x.run u r ∧ s'.callsOf t.key = s.callsOf t.key ++ u) (svc x) s := by
  refine always_hoist.mpr (always_performs (fun s => s.callsOf t.key) ?_
    (fun s s' h => h.own) (fun _ _ => trivial) x.run s)
  intro c s s' r h
  rw [h.2]
  exact callsOf_record s t.key [⟨c, r⟩] s'.db s.queue

/-- The message of a task whose `Ingest` returned success is settled. -/
theorem settled_of_performs (hm : decode t.msg.data = .ok req) {pre u : Trace}
    (hu : Performs (Service.ingest req).run u (.ok ())) (hcalls : s.callsOf t.key = pre ++ u) :
    Settled t.msg s := by
  intro req' hreq'
  obtain rfl := Except.ok.inj (hm.symm.trans hreq')
  refine Or.inl ⟨t.no, u, ?_, hu⟩
  rw [show s.callsOf (t.no, t.msg.id) = pre ++ u from hcalls]
  exact (List.suffix_append pre u).isInfix

/-- A dead letter that was saved holds the batch. -/
theorem always_saveFailed {f : FailedIngest} (hf : decode f.payload = .ok req)
    (hm : decode t.msg.data = .ok req) :
    Always (working SavesFailed t) (Beside t) (Justified t.msg) (fun _ => Settled t.msg)
      (svc (Service.saveFailed f)) s := by
  refine fun s₁ _ => ⟨trivial, fun s₂ r h₂ s₃ h₃ => Settled.mono ?_ h₃.toGrowing⟩
  obtain ⟨⟨hany, hacc⟩, -⟩ := h₂
  obtain ⟨a, rfl⟩ := hacc f rfl
  obtain ⟨e, -, hrun⟩ := hany.accepted
  intro req' hreq'
  obtain rfl := Except.ok.inj (hm.symm.trans hreq')
  refine Or.inr ⟨{ f with createdAt := e.now }, ?_, hf⟩
  rw [(Stmt.run_rows hrun).2.2]
  exact List.mem_append_right _ (List.mem_singleton_self _)

theorem careful_saveFailed (hm : decode t.msg.data = .ok req) (err : String) (retries : ℕ)
    (s : Sys) : Careful t (Settled t.msg) (saveFailed req err retries) s := by
  unfold saveFailed
  refine always_bind (always_perform (Q := fun _ _ => True) fun _ _ =>
    ⟨trivial, fun _ _ _ _ _ => trivial⟩) fun ids s₁ _ => ?_
  refine always_bind (always_saveFailed (decode_encode req) hm) fun r s₂ hset => ?_
  cases r with
  | error err => exact careful_slog_settled _ hset
  | ok _ => exact careful_slog_settled _ hset

theorem careful_onFailure (hm : decode t.msg.data = .ok req) (attempt : ℕ) (err : String)
    (s : Sys) : Careful t (fun _ => True) (onFailure workerID t.msg.id req attempt err) s := by
  unfold onFailure
  refine always_bind (careful_slog _ s) fun _ s₁ _ => ?_
  split_ifs
  · exact always_bind (careful_saveFailed hm err _ s₁) fun _ s₂ hset => careful_ack hset
  · exact fun _ _ => trivial

/-- The induction is on the delays that are left. -/
theorem careful_processFrom (hm : decode t.msg.data = .ok req) (attempt : ℕ) (ds : List ℕ)
    (s : Sys) : Careful t (fun _ => True) (processFrom workerID t.msg.id req attempt ds) s := by
  induction ds generalizing attempt s with
  | nil => exact fun _ _ => trivial
  | cons delay ds ih =>
    refine always_bind (careful_backoff delay s) fun _ s₁ _ => ?_
    refine always_bind (always_svc _ s₁) fun r s₂ hr => ?_
    obtain ⟨u, hu, hcalls⟩ := hr
    cases r with
    | ok _ =>
      have hset := settled_of_performs hm hu hcalls
      exact always_bind (careful_slog_settled _ hset) fun _ s₃ hset => careful_ack hset
    | error err => exact always_bind (careful_onFailure hm attempt err s₂) fun _ s₃ _ => ih _ s₃

theorem settled_of_error {err : String} (h : decode m.data = .error err) : Settled m s := by
  intro req hreq
  rw [h] at hreq
  cases hreq

theorem careful_onMessage (workerID : ℕ) (t : Task) (s : Sys) :
    Careful t (fun _ => True) (onMessage workerID t.msg) s := by
  unfold onMessage
  split
  next err h =>
    exact always_bind (careful_slog_settled _ (settled_of_error h)) fun _ _ hset => careful_ack hset
  next req h => exact careful_processFrom h 0 delays s

theorem careful_onReclaimed (t : Task) (s : Sys) :
    Careful t (fun _ => True) (onReclaimed t.msg) s := by
  unfold onReclaimed
  split
  next err h => exact careful_ack (settled_of_error h)
  next req h => exact careful_processFrom h 0 delays s

end Justified

/-! ## The invariant of the shared state -/

/-- Accepted batches are entries of the stream and accounted for. -/
structure Sys.Kept (s : Sys) : Prop where
  stored : ∀ b ∈ s.accepted, ⟨b.1, encode b.2⟩ ∈ s.queue.entries.rows
  accounted : ∀ b ∈ s.accepted, s.Accounted b.1 b.2

namespace Sys.Kept

variable {s s' : Sys}

/-- A change of the shared state that loses nothing. -/
theorem mono (h : s.Kept) (hg : Growing s s') (hacc : s'.accepted = s.accepted)
    (hrows : s.queue.entries.rows ⊆ s'.queue.entries.rows)
    (hu : ∀ m ∈ s.queue.undelivered, m ∈ s'.queue.undelivered ∨ m ∈ s'.queue.pendingEntries)
    (hp : ∀ m ∈ s.queue.pendingEntries, m ∈ s'.queue.pendingEntries) : s'.Kept where
  stored := fun b hb => hrows (h.stored b (hacc ▸ hb))
  accounted := fun b hb => (h.accounted b (hacc ▸ hb)).mono hg hu hp

/-- A change of the shared state that leaves the queue alone. -/
theorem mono_of_queue (h : s.Kept) (hg : Growing s s') (hacc : s'.accepted = s.accepted)
    (hq : s'.queue = s.queue) : s'.Kept :=
  h.mono hg hacc (hq ▸ List.Subset.refl _) (fun _ hm => Or.inl (hq ▸ hm)) fun _ hm => hq ▸ hm

theorem accept (h : s.Kept) {id : String} {req : IngestRequest} {q' : Stream}
    (hq : s.queue.enqueue id (encode req) = some q') :
    Sys.Kept { s with queue := q', accepted := s.accepted ++ [(id, req)] } := by
  obtain ⟨hrows, -, hund, hpend⟩ := Stream.enqueue_cases hq
  have hsub : s.queue.entries.rows ⊆ q'.entries.rows := hrows ▸ List.subset_append_left _ _
  have h' : Sys.Kept { s with queue := q' } := by
    refine h.mono ⟨List.prefix_rfl, (Growing.refl s).failed⟩ rfl hsub
      (fun m hm => Or.inl ?_) fun m hm => ?_
    · exact hund ▸ List.mem_append_left _ hm
    · obtain ⟨hm, hid⟩ := Stream.mem_pendingEntries.mp hm
      exact Stream.mem_pendingEntries.mpr ⟨hsub hm, hpend ▸ hid⟩
  constructor
  · intro b hb
    rcases List.mem_append.mp hb with hb | hb
    · exact h'.stored b hb
    · obtain rfl := List.mem_singleton.mp hb
      exact hrows ▸ List.mem_append_right _ (List.mem_singleton_self _)
  · intro b hb
    rcases List.mem_append.mp hb with hb | hb
    · exact h'.accounted b hb
    · obtain rfl := List.mem_singleton.mp hb
      exact Or.inl ⟨⟨id, encode req⟩, hund ▸ List.mem_append_right _ (List.mem_singleton_self _),
        rfl, decode_encode req⟩

theorem read (h : s.Kept) {m : Message} {q' : Stream} (hq : s.queue.read = some (m, q'))
    (started' : ℕ) : Sys.Kept { s with queue := q', started := started' } := by
  obtain ⟨hent, hpend, hund⟩ := Stream.read_cases hq
  refine h.mono ⟨List.prefix_rfl, (Growing.refl s).failed⟩ rfl ?_ (fun m' hm' => ?_) ?_
  · exact hent ▸ List.Subset.refl _
  · -- the entry that was read is pending now
    have hrow := Stream.mem_of_mem_undelivered hm'
    rw [hund] at hm'
    rcases List.mem_cons.mp hm' with rfl | hm'
    · exact Or.inr (Stream.mem_pendingEntries.mpr ⟨hent ▸ hrow, by rw [hpend]; simp⟩)
    · exact Or.inl hm'
  · intro m' hm'
    obtain ⟨hrow, hid⟩ := Stream.mem_pendingEntries.mp hm'
    exact Stream.mem_pendingEntries.mpr ⟨hent ▸ hrow, by rw [hpend]; exact List.mem_append_left _ hid⟩

/-- An acknowledged message is settled, so its batch stays accounted for. -/
theorem ack (h : s.Kept) {m : Message} (hm : m ∈ s.queue.entries.rows) (hset : Settled m s) :
    Sys.Kept { s with queue := s.queue.ack m.id } where
  stored := h.stored
  accounted := by
    intro b hb
    by_cases hid : b.1 = m.id
    · have he : m = ⟨b.1, encode b.2⟩ :=
        s.queue.entries.eq_of_key_eq hm (h.stored b hb) hid.symm
      rcases hset b.2 (by rw [he]; exact decode_encode b.2) with hdone | hfailed
      · exact Or.inr (Or.inr (Or.inl (hid ▸ hdone)))
      · exact Or.inr (Or.inr (Or.inr hfailed))
    · rcases h.accounted b hb with hu | ⟨m', hm', hid', hreq⟩ | hrest
      · exact Or.inl hu
      · obtain ⟨hrow, hp⟩ := Stream.mem_pendingEntries.mp hm'
        exact Or.inr (Or.inl ⟨m', Stream.mem_pendingEntries.mpr
          ⟨hrow, Stream.mem_pending_ack.mpr ⟨hp, hid' ▸ hid⟩⟩, hid', hreq⟩)
      · exact Or.inr (Or.inr hrest)

end Sys.Kept

/-! ## The invariant of the pipeline -/

/-- The numbers of the tasks. -/
def numbers (tasks : Pool Task WorkerCall WorkerResp Unit) : List ℕ := tasks.map fun t => t.1.no

/-- **The invariant**: no accepted batch is lost, every task is careful about an entry of the
stream, and the tasks have different numbers. -/
structure Tracked (p : Pipeline) : Prop where
  kept : p.sys.Kept
  held : ∀ t ∈ p.tasks, ∀ m ∈ t.1.msg :: t.1.backlog, m ∈ p.sys.queue.entries.rows
  careful : ∀ t ∈ p.tasks, Careful t.1 (fun _ => True) t.2 p.sys
  distinct : (numbers p.tasks).Nodup
  started : ∀ n ∈ numbers p.tasks, n < p.sys.started

namespace Tracked

variable {p : Pipeline} {s' : Sys}

/-- A change of the shared state in which no task makes a call. -/
theorem mono (h : Tracked p) (hkept : s'.Kept) (hg : Growing p.sys s')
    (hcalls : s'.calls = p.sys.calls)
    (hrows : p.sys.queue.entries.rows ⊆ s'.queue.entries.rows)
    (hstarted : p.sys.started ≤ s'.started) : Tracked { p with sys := s' } where
  kept := hkept
  held := fun t ht m hm => hrows (h.held t ht m hm)
  careful := fun t ht => (h.careful t ht).mono ⟨hg, by rw [Sys.callsOf, Sys.callsOf, hcalls]⟩
  distinct := h.distinct
  started := fun n hn => (h.started n hn).trans_le hstarted

theorem of_tasks (h : Tracked p) {tasks' : Pool Task WorkerCall WorkerResp Unit}
    (ht : ∀ t ∈ tasks', t ∈ p.tasks ∨
      (∀ m ∈ t.1.msg :: t.1.backlog, m ∈ p.sys.queue.entries.rows) ∧
        Careful t.1 (fun _ => True) t.2 p.sys)
    (hno : (numbers tasks').Sublist (numbers p.tasks)) : Tracked { p with tasks := tasks' } where
  kept := h.kept
  held := fun t hmem => (ht t hmem).elim (h.held t) And.left
  careful := fun t hmem => (ht t hmem).elim (h.careful t) And.right
  distinct := h.distinct.sublist hno
  started := fun n hn => h.started n (hno.subset hn)

/-- **A task starts** with the next number. -/
theorem start (h : Tracked p) {m : Message} {ms : List Message} {w : WorkerProg Unit} {q' : Stream}
    (hkept : Sys.Kept { p.sys with queue := q', started := p.sys.started + 1 })
    (hrows : p.sys.queue.entries.rows ⊆ q'.entries.rows)
    (hheld : ∀ m' ∈ m :: ms, m' ∈ q'.entries.rows)
    (hcareful : ∀ (t : Task) s, t.msg = m → Careful t (fun _ => True) w s) :
    Tracked { p with
      sys := { p.sys with queue := q', started := p.sys.started + 1 },
      tasks := p.tasks ++ [(⟨p.sys.started, m, ms⟩, w)] } := by
  have h' := h.mono hkept ⟨List.prefix_rfl, (Growing.refl p.sys).failed⟩ rfl hrows
    (Nat.le_succ p.sys.started)
  have hnumbers : numbers (p.tasks ++ [(⟨p.sys.started, m, ms⟩, w)]) =
      numbers p.tasks ++ [p.sys.started] := List.map_append
  refine ⟨hkept, fun t ht => ?_, fun t ht => ?_, ?_, fun n hn => ?_⟩
  · rcases List.mem_append.mp ht with ht | ht
    · exact h'.held t ht
    · rw [List.mem_singleton.mp ht]
      exact hheld
  · rcases List.mem_append.mp ht with ht | ht
    · exact h'.careful t ht
    · rw [List.mem_singleton.mp ht]
      exact hcareful _ _ rfl
  · rw [hnumbers]
    refine h.distinct.append (List.nodup_singleton _) fun n hn hmem => ?_
    rw [List.mem_singleton.mp hmem] at hn
    exact absurd (h.started _ hn) (Nat.lt_irrefl _)
  · rw [hnumbers] at hn
    rcases List.mem_append.mp hn with hn | hn
    · exact h'.started n hn
    · rw [List.mem_singleton.mp hn]
      exact Nat.lt_succ_self _

theorem of_requests (h : Tracked p) (requests' : Pool ServiceCall Call Resp (Except String Unit)) :
    Tracked { p with requests := requests' } :=
  ⟨h.kept, h.held, h.careful, h.distinct, h.started⟩

/-- A call of a task. -/
theorem work (h : Tracked p) {t : Task} {c : Σ c, WorkerResp c}
    {tasks' : Pool Task WorkerCall WorkerResp Unit}
    (hstep : PoolStep (working SavesFailed) (p.tasks, p.sys) (t, c) (tasks', s')) :
    Tracked { p with sys := s', tasks := tasks' } := by
  obtain ⟨c, r⟩ := c
  obtain ⟨hjust, others, hperm, hothers⟩ := hstep.always (fun t => Beside t)
    (G := fun t => Justified t.msg) (Q := fun _ _ _ => True) h.careful
  obtain ⟨hlabels, hmem⟩ := hstep.labels
  have hT := hstep.handled
  have hnumbers : numbers tasks' = numbers p.tasks := by
    have hmap := congrArg (List.map Task.no) hlabels
    rwa [List.map_map, List.map_map] at hmap
  obtain ⟨haccepted, hstarted, hqueue⟩ := working_rest hT
  have hrows : s'.queue.entries = p.sys.queue.entries := by
    rcases hqueue with hq | ⟨msgID, -, rfl⟩
    · rw [hq]
    · rfl
  have hkept : s'.Kept := by
    rcases hqueue with hq | ⟨msgID, rfl, rfl⟩
    · exact h.kept.mono_of_queue (working_growing hT) haccepted hq
    · obtain ⟨rfl, hset⟩ := hjust
      obtain ⟨t', ht', rfl⟩ := List.mem_map.mp hmem
      exact h.kept.ack (h.held t' ht' _ List.mem_cons_self) hset
  -- the other tasks have other numbers
  have hbeside : ∀ t' ∈ others, Beside t'.1 p.sys s' := by
    intro t' ht'
    refine working_beside hT fun he => ?_
    have hnodup := (hperm.map Task.no).nodup_iff.mp (by rw [List.map_map]; exact h.distinct)
    rw [List.map_cons, List.map_map] at hnodup
    exact (List.nodup_cons.mp hnodup).1 (List.mem_map.mpr ⟨t', ht', he⟩)
  have hheld : ∀ t ∈ p.tasks, ∀ m ∈ t.1.msg :: t.1.backlog, m ∈ s'.queue.entries.rows :=
    hrows ▸ h.held
  exact ⟨hkept, hstep.forall_label (P := fun t => ∀ m ∈ t.msg :: t.backlog,
    m ∈ s'.queue.entries.rows) hheld, hothers hbeside, hnumbers ▸ h.distinct,
    fun n hn => hstarted ▸ h.started n (hnumbers ▸ hn)⟩

/-- **A step keeps the invariant.** -/
theorem step (h : Tracked p) {lib : Writer.Libraries} {e : Event} {p' : Pipeline}
    (hstep : Step SavesFailed lib p e p') : Tracked p' := by
  cases hstep with
  | accept body req reply q' m hbody hrun hreply hm =>
    obtain ⟨id, hq⟩ := enqueued_of_noContent hrun hreply hbody
    have hrows := (Stream.enqueue_cases hq).1
    have he := List.append_cancel_left (hm.symm.trans hrows)
    rw [(List.singleton_inj.mp he)]
    exact h.mono (h.kept.accept hq) ⟨List.prefix_rfl, (Growing.refl p.sys).failed⟩ rfl
      (hrows ▸ List.subset_append_left _ _) le_rfl
  | refuse body reply q' hrun hreply =>
    rw [queue_eq_of_refused hrun hreply]
    exact h
  | read workerID m q' hq =>
    obtain ⟨hent, -, hund⟩ := Stream.read_cases hq
    refine h.start (h.kept.read hq _) (hent ▸ List.Subset.refl _) (fun m' hm' => ?_) ?_
    · rw [List.mem_singleton.mp hm']
      exact hent ▸ Stream.mem_of_mem_undelivered (hund ▸ List.mem_cons_self)
    · rintro t s rfl
      exact careful_onMessage workerID t s
  | reclaim m ms hq =>
    refine h.start (h.kept.mono_of_queue ⟨List.prefix_rfl, (Growing.refl p.sys).failed⟩ rfl rfl)
      (List.Subset.refl _) (fun m' hm' => ?_) ?_
    · exact (Stream.mem_pendingEntries.mp (Stream.mem_reclaimPending (hq ▸ hm'))).1
    · rintro t s rfl
      exact careful_onReclaimed t s
  | next l r no m m' ms heq =>
    have hold : (⟨no, m, m' :: ms⟩, Prog.ret ()) ∈ p.tasks := heq ▸ by simp
    refine h.of_tasks (fun t ht => ?_) (by rw [heq]; simp [numbers])
    rcases mem_replaced heq ht with ht | rfl
    · exact Or.inl ht
    · exact Or.inr ⟨fun m₁ hm₁ => h.held _ hold m₁ (List.mem_cons_of_mem _ hm₁),
        careful_onReclaimed ⟨no, m', ms⟩ _⟩
  | work t c s' tasks' hw => exact h.work hw
  | die tasks' requests' ht hr =>
    exact (h.of_tasks (fun t hmem => Or.inl (ht.subset hmem)) (ht.map _)).of_requests requests'
  | request call hc => exact h.of_requests _
  | serve call c s' requests' hs =>
    have hT := hs.handled
    have hq : s'.queue = p.sys.queue := by rw [hT.2]
    have hkept := h.kept.mono_of_queue (serving_growing hT) (by rw [hT.2]) hq
    exact (h.mono hkept (serving_growing hT) (by rw [hT.2]) (hq ▸ List.Subset.refl _)
      (by rw [hT.2])).of_requests requests'

end Tracked

theorem tracked_start (db : DB) : Tracked (.start db) :=
  ⟨⟨by simp [Pipeline.start], by simp [Pipeline.start]⟩, by simp [Pipeline.start],
    by simp [Pipeline.start], List.nodup_nil, by simp [Pipeline.start, numbers]⟩

/-! ## Main theorem -/

/-- **No accepted batch is dropped**, in every run in which no save of a dead letter is refused. -/
theorem accepted_accounted {lib : Writer.Libraries} {p : Pipeline}
    (h : Reachable SavesFailed lib p) : ∀ b ∈ p.sys.accepted, p.sys.Accounted b.1 b.2 := by
  obtain ⟨db, hruns⟩ := h
  have hinv : Tracked p :=
    hruns.invariant (fun _ _ _ htracked _ hstep => htracked.step hstep) (tracked_start db)
  exact hinv.kept.accounted

/-- A batch that is stored at the first attempt: it is no longer in the stream. -/
theorem accepted_accounted_first_attempt : ∃ p, Reachable SavesFailed sampleLibraries p ∧
    p.sys.accepted = [("1-0", sampleBatch)] ∧ p.sys.queue.undelivered = [] ∧
    p.sys.queue.pendingEntries = [] ∧ p.sys.db.failed.rows = [] ∧
    p.sys.Ingested "1-0" sampleBatch := by
  obtain ⟨db', hrun, hst⟩ :=
    plainBatch_runs DB.empty sampleID ⟨4, .obj [], 1⟩ 0 (sampleEventID false) (by decide)
  have hsaves : Runs SavesFailed
      (Service.ingest sampleBatch).run DB.empty db' (.ok ()) :=
    hrun.mono fun _ _ _ _ h => ⟨h.healthy.1, fun _ _ => h.2⟩
  obtain ⟨u, -, hmsg⟩ := onMessage_runs "1-0" hsaves 1
  obtain ⟨q, hreach, hund, hpend⟩ := PipelineRuns.deliver sampleLibraries DB.empty "1-0" _
    (by decide) (by decide) fun q => hmsg _ (.delivered DB.empty q "1-0" sampleBatch) rfl
  have hpending : (q.ack "1-0").pendingEntries = [] := by
    simp [Stream.pendingEntries, Stream.ack, hpend]
  have hfailed : db'.failed.rows = [] := by
    rw [hst.failed]
    rfl
  refine ⟨_, hreach, rfl, hund, hpending, hfailed, ?_⟩
  rcases accepted_accounted hreach _ (List.mem_singleton_self _) with
    ⟨m, hm, -⟩ | ⟨m, hm, -⟩ | hdone | ⟨f, hf, -⟩
  · exact absurd (hund ▸ hm) List.not_mem_nil
  · exact absurd (hpending ▸ hm) List.not_mem_nil
  · exact hdone
  · exact absurd (hfailed ▸ hf) List.not_mem_nil

/-! ## An outage -/

/-- The answers while the database is out of reach. -/
def outage : (c : Call) → Resp c
  | .timeNow => 0
  | .uuidNew => fun _ => sampleID
  | .sql _ => .error "connection refused"

/-- The calls of a task during an outage. -/
def Sys.outage (t : Task) : (c : WorkerCall) → Sys → Sys × WorkerResp c
  | .svc c, s =>
    ({ s with calls := s.calls ++ [(t.key, ⟨c, BatRewind.outage c⟩)] }, BatRewind.outage c)
  | .ack msgID, s => ({ s with queue := s.queue.ack msgID }, .ok ())
  | .slog _, s | .sleep _, s => (s, ())

theorem working_outage (t : Task) (c : WorkerCall) (s : Sys) :
    working AnyAnswer t c s (s.outage t c).1 (s.outage t c).2 := by
  cases c with
  | svc c =>
    refine ⟨⟨.quiet (some "connection refused") 0 fun _ => sampleID, trivial, ?_⟩, rfl⟩
    cases c <;> rfl
  | ack msgID => exact Or.inl rfl
  | slog | sleep => rfl

/-- During an outage the message is given up and acknowledged. -/
theorem onMessage_outage (id : String) (req : IngestRequest) (t : Task) (s : Sys) :
    ((onMessage 1 ⟨id, encode req⟩).eval (Sys.outage t) s).1.queue = s.queue.ack id := by
  unfold onMessage
  rw [decode_encode]
  rfl

/-- **Nothing else happens in an outage** that began with `s₀`: the rows stay, and every call on
record was refused. -/
structure Sys.Out (s₀ s : Sys) : Prop where
  db : s.db = s₀.db
  accepted : s.accepted = s₀.accepted
  calls : ∀ x ∈ s.calls, x.2.2 = BatRewind.outage x.2.1

theorem out_eval {α : Type} (t : Task) (w : WorkerProg α) {s₀ s : Sys} (h : s₀.Out s) :
    s₀.Out (w.eval (Sys.outage t) s).1 := by
  induction w generalizing s with
  | ret a => exact h
  | call c k ih =>
    refine ih _ ?_
    cases c with
    | svc c =>
      refine ⟨h.db, h.accepted, List.forall_mem_append.mpr ⟨h.calls, ?_⟩⟩
      exact List.forall_mem_singleton.mpr rfl
    | ack msgID => exact ⟨h.db, h.accepted, h.calls⟩
    | slog | sleep => exact h

/-- No `Ingest` returns success during an outage. -/
theorem Sys.Out.not_ingested {s₀ s : Sys} (h : s₀.Out s) (id : String) (req : IngestRequest) :
    ¬ s.Ingested id req := by
  rintro ⟨no, u, hu, hperf⟩
  have hall : ∀ x ∈ u, x.2 = BatRewind.outage x.1 := by
    intro x hx
    obtain ⟨y, hy, rfl⟩ := List.mem_map.mp (hu.subset hx)
    exact h.calls y (List.mem_of_mem_filter hy)
  have heval := hperf.eq_eval hall
  rw [ingest_eq] at heval
  cases heval

/-- **A batch whose save is refused is lost**: it is acknowledged all the same. -/
theorem not_accepted_accounted : ¬ ∀ lib p, Reachable AnyAnswer lib p →
    ∀ b ∈ p.sys.accepted, p.sys.Accounted b.1 b.2 := by
  intro hall
  obtain ⟨q, hreach, hund, hpend⟩ := PipelineRuns.deliver sampleLibraries DB.empty "1-0"
    sampleBatch (by decide) (by decide)
    fun q => runs_eval (working_outage _) (onMessage 1 _) _
  have hqueue := onMessage_outage "1-0" sampleBatch ⟨0, ⟨"1-0", encode sampleBatch⟩, []⟩
    (.delivered DB.empty q "1-0" sampleBatch)
  have hstart : Sys.Out (.delivered DB.empty q "1-0" sampleBatch)
      (.delivered DB.empty q "1-0" sampleBatch) :=
    ⟨rfl, rfl, fun x hx => absurd hx List.not_mem_nil⟩
  have hout := out_eval ⟨0, ⟨"1-0", encode sampleBatch⟩, []⟩ (onMessage 1 ⟨"1-0", encode sampleBatch⟩)
    hstart
  rcases hall _ _ hreach ("1-0", sampleBatch) (hout.accepted ▸ List.mem_singleton_self _) with
    ⟨m, hm, -⟩ | ⟨m, hm, -⟩ | hdone | ⟨f, hf, -⟩
  · rw [hqueue] at hm
    exact List.not_mem_nil (hund ▸ hm)
  · rw [hqueue] at hm
    simp [Stream.pendingEntries, Stream.ack, Sys.delivered, hpend] at hm
  · exact hout.not_ingested _ _ hdone
  · rw [hout.db] at hf
    exact absurd hf List.not_mem_nil

end BatRewind
