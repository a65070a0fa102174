import BatRewind.Lib.Prog
import BatRewind.Lib.Table
import BatRewind.Session.Codec

/-!
# The queue and the writer

A Redis stream with its consumer group, as `internal/queue/queue.go` uses it, and the handler of
`internal/session/writer_handler.go` that fills it. Every worker reads as the one consumer
`"worker"`, and the group exists before the first entry is added.

* `Stream.enqueue`, `Stream.read`, `Stream.reclaimPending`, `Stream.ack`: an entry is undelivered,
  then pending until it is acknowledged.
* `Writer.ingest`: a batch is answered with 204 exactly if it was enqueued
  (**`Writer.noContent_iff`**).
-/

namespace BatRewind

open Encoding Tables Effects Effects.Prog

/-! ## The stream -/

/-- A message of the stream, with its JSON payload. -/
structure Message where
  id : String
  data : Json

/-- **The stream and its consumer group**: the entries in the order they were added, how many of
them were delivered, and the ids of the delivered entries that are not acknowledged. -/
structure Stream where
  entries : Table Message.id
  delivered : ℕ
  pending : List String
  delivered_le : delivered ≤ entries.rows.length

namespace Stream

/-- A stream without entries. -/
def empty : Stream := ⟨.empty, 0, [], le_rfl⟩

/-- The entries that were not delivered yet. -/
def undelivered (q : Stream) : List Message := q.entries.rows.drop q.delivered

/-- The entries that are delivered and not acknowledged, in the order of the stream. -/
def pendingEntries (q : Stream) : List Message := q.entries.rows.filter fun m => m.id ∈ q.pending

/-- `XADD` with the generated id `id`, which no entry has. -/
def enqueue (q : Stream) (id : String) (data : Json) : Option Stream :=
  match h : q.entries.insert [⟨id, data⟩] with
  | some t => some ⟨t, q.delivered, q.pending, by
      rw [Table.rows_of_insert h, List.length_append]
      exact q.delivered_le.trans (Nat.le_add_right _ _)⟩
  | none => none

/-- `XREADGROUP` of the next undelivered entry. -/
def read (q : Stream) : Option (Message × Stream) :=
  match h : q.entries.rows[q.delivered]? with
  | some m => some (m, ⟨q.entries, q.delivered + 1, q.pending ++ [m.id],
      (List.getElem?_eq_some_iff.mp h).1⟩)
  | none => none

/-- `XREADGROUP` of the first hundred pending entries. -/
def reclaimPending (q : Stream) : List Message := q.pendingEntries.take 100

/-- `XACK`. -/
def ack (q : Stream) (msgID : String) : Stream :=
  { q with pending := q.pending.filter fun id => id ≠ msgID }

section Lemmas

variable {q q' : Stream} {m : Message} {id : String} {data : Json}

theorem enqueue_cases (h : q.enqueue id data = some q') :
    q'.entries.rows = q.entries.rows ++ [⟨id, data⟩] ∧ id ∉ q.entries.keys ∧
      q'.undelivered = q.undelivered ++ [⟨id, data⟩] ∧ q'.pending = q.pending := by
  unfold enqueue at h
  split at h
  next t ht =>
    cases h
    have hrows := Table.rows_of_insert ht
    refine ⟨hrows, Table.notMem_of_insert (r := ⟨id, data⟩) ht (List.mem_singleton_self _), ?_, rfl⟩
    rw [undelivered, hrows, List.drop_append_of_le_length q.delivered_le]
    rfl
  next => cases h

theorem read_cases (h : q.read = some (m, q')) :
    q'.entries = q.entries ∧ q'.pending = q.pending ++ [m.id] ∧
      q.undelivered = m :: q'.undelivered := by
  unfold read at h
  split at h
  next m' hm =>
    cases h
    obtain ⟨hlt, hget⟩ := List.getElem?_eq_some_iff.mp hm
    refine ⟨rfl, rfl, ?_⟩
    rw [undelivered, List.drop_eq_getElem_cons hlt, hget]
    rfl
  next => cases h

theorem exists_enqueue (data : Json) (h : id ∉ q.entries.keys) :
    ∃ q', q.enqueue id data = some q' := by
  have hins := Table.insert_eq_some (Table.nodup_append_of_notMem (r := (⟨id, data⟩ : Message)) h)
  unfold enqueue
  split
  next => exact ⟨_, rfl⟩
  next hnone => simp [hins] at hnone

theorem exists_read {ms : List Message} (h : q.undelivered = m :: ms) :
    ∃ q', q.read = some (m, q') := by
  have hget : q.entries.rows[q.delivered]? = some m := by
    rw [← List.head?_drop, ← undelivered, h, List.head?_cons]
  unfold read
  split
  next m' hm =>
    obtain rfl := Option.some.inj (hget.symm.trans hm)
    exact ⟨_, rfl⟩
  next hnone => simp [hget] at hnone

theorem mem_of_mem_undelivered (h : m ∈ q.undelivered) : m ∈ q.entries.rows :=
  List.mem_of_mem_drop h

theorem mem_pendingEntries : m ∈ q.pendingEntries ↔ m ∈ q.entries.rows ∧ m.id ∈ q.pending := by
  rw [pendingEntries, List.mem_filter, decide_eq_true_iff]

theorem mem_reclaimPending (h : m ∈ q.reclaimPending) : m ∈ q.pendingEntries :=
  List.mem_of_mem_take h

theorem mem_pending_ack {msgID : String} :
    id ∈ (q.ack msgID).pending ↔ id ∈ q.pending ∧ id ≠ msgID := by
  simp [ack]

end Lemmas

end Stream

/-! ## The writer -/

/-- The statuses of the writer. -/
inductive Status where
  | noContent
  | badRequest
  | internalServerError
deriving DecidableEq

/-- A reply: its status and the `error` of its body, if any. -/
structure Reply where
  status : Status
  error : Option String

/-- The one call of the writer: add a payload to the stream. -/
inductive WriterCall where
  | enqueue (data : Json)

@[reducible] def WriterResp : WriterCall → Type
  | .enqueue _ => Except String Unit

namespace Writer

/-- The `binding` tags of a batch. -/
def required (req : IngestRequest) : Bool :=
  req.sessionID ≠ "" && req.identifier ≠ "" && req.serviceName ≠ "" && !req.events.isEmpty

/-- What the writer takes from its libraries: the text of a failed validation, and whether
`uuid.Parse` accepts a string. -/
structure Libraries where
  invalid : IngestRequest → String
  parseUUID : String → Bool

/-- The checks before a batch is enqueued. -/
def check (lib : Libraries) (body : Json) : Except Reply IngestRequest :=
  match decode body with
  | .error err => .error ⟨.badRequest, some err⟩
  | .ok req =>
    if !required req then .error ⟨.badRequest, some (lib.invalid req)⟩
    else if !lib.parseUUID req.sessionID then
      .error ⟨.badRequest, some "session_id must be a valid UUID"⟩
    else .ok req

/-- **Receive a batch and enqueue it.** -/
def ingest (lib : Libraries) (body : Json) : Prog WriterCall WriterResp Reply :=
  match check lib body with
  | .error reply => pure reply
  | .ok req => do
    match ← perform (R := WriterResp) (.enqueue (encode req)) with
    | .error _ => pure ⟨.internalServerError, some "failed to enqueue events"⟩
    | .ok () => pure ⟨.noContent, none⟩

theorem check_status {lib : Libraries} {body : Json} {reply : Reply}
    (h : check lib body = .error reply) : reply.status = .badRequest := by
  unfold check at h
  split at h
  · cases h
    rfl
  · split_ifs at h <;> cases h <;> rfl

theorem check_ok {lib : Libraries} {body : Json} {req : IngestRequest}
    (h : check lib body = .ok req) : decode body = .ok req := by
  unfold check at h
  split at h
  · cases h
  · split_ifs at h
    cases h
    assumption

/-- What passes the checks has a session id that `uuid.Parse` accepts. -/
theorem check_parse {lib : Libraries} {body : Json} {req : IngestRequest}
    (h : check lib body = .ok req) : lib.parseUUID req.sessionID = true := by
  unfold check at h
  split at h
  · cases h
  · split_ifs at h with hrequired huuid
    cases h
    simpa using huuid

/-- An encoded batch passes the checks if it has the required fields and an accepted id. -/
theorem check_encode {lib : Libraries} {req : IngestRequest} (hrequired : required req = true)
    (huuid : lib.parseUUID req.sessionID = true) : check lib (encode req) = .ok req := by
  simp [check, decode_encode, hrequired, huuid]

/-- **A batch is answered with 204 exactly if it passed the checks and was enqueued.** -/
theorem noContent_iff {S : Type} {T : Handler WriterCall WriterResp S} {lib : Libraries}
    {body : Json} {s s' : S} {reply : Reply} (h : Runs T (ingest lib body) s s' reply) :
    (reply.status = .noContent ∧ ∃ req, check lib body = .ok req ∧
        T (.enqueue (encode req)) s s' (.ok ())) ∨
      (reply.status ≠ .noContent ∧ (s' = s ∨ ∃ req err, check lib body = .ok req ∧
        T (.enqueue (encode req)) s s' (.error err))) := by
  unfold ingest at h
  split at h
  next reply' hc =>
    obtain ⟨rfl, rfl⟩ := h
    exact Or.inr ⟨by simp [check_status hc], Or.inl rfl⟩
  next req hc =>
    obtain ⟨s₁, r, h₁, h₂⟩ := runs_bind.mp h
    have hT := runs_perform.mp h₁
    cases r with
    | error err =>
      obtain ⟨rfl, rfl⟩ := h₂
      exact Or.inr ⟨by simp, Or.inr ⟨req, err, hc, hT⟩⟩
    | ok _ =>
      obtain ⟨rfl, rfl⟩ := h₂
      exact Or.inl ⟨rfl, req, hc, hT⟩

end Writer

end BatRewind
