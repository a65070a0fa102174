import BatRewind.Queue.Stream
import BatRewind.Session.Storing

/-!
# The worker

What a worker does with a message of the queue, from `internal/worker/service.go`. A worker makes
the calls of the session service, acknowledges messages, logs and sleeps.

* `process`: up to four attempts to ingest a batch, then a row of `failed_ingest`; in both cases
  the message is acknowledged.
* `onMessage`: what `runWorker` does with a message it read; `onReclaimed`: what `reclaimPending`
  does with a message it reclaimed.
-/

namespace BatRewind

open Encoding Tables Effects Effects.Prog

/-- The log entries of the worker. -/
inductive LogEntry where
  /-- "Batch processed" -/
  | batchProcessed (worker : ℕ) (session : String) (events : ℕ)
  /-- "Processing attempt failed" -/
  | attemptFailed (worker attempt : ℕ) (error : String)
  /-- "Failed to save failed_ingest record" -/
  | saveFailedError (session error : String)
  /-- "Batch saved to failed_ingest" -/
  | savedToFailedIngest (session : String) (retries : ℕ)
  /-- "Unmarshal error" -/
  | unmarshalError (worker : ℕ) (error : String)

/-- A call of a worker. -/
inductive WorkerCall where
  | svc (c : Call)
  | ack (msgID : String)
  | slog (entry : LogEntry)
  | sleep (seconds : ℕ)

/-- The answer to a call of a worker. -/
@[reducible] def WorkerResp : WorkerCall → Type
  | .svc c => Resp c
  | .ack _ => Except String Unit
  | .slog _ | .sleep _ => Unit

/-- A program of a worker. -/
abbrev WorkerProg := Prog WorkerCall WorkerResp

namespace Worker

/-- Call a method of the session service. -/
def svc {α : Type} (x : Svc α) : WorkerProg (Except String α) :=
  (x.run : Prog Call (fun c => WorkerResp (.svc c)) _).hoist .svc

/-- Acknowledge a message; the worker ignores the error. -/
def ack (msgID : String) : WorkerProg Unit := do
  let _ ← perform (.ack msgID)

def slog (entry : LogEntry) : WorkerProg Unit := perform (R := WorkerResp) (.slog entry)

/-- The delays before the attempts, in seconds. -/
def delays : List ℕ := [0, 2, 8, 32]

/-- Wait before an attempt. -/
def backoff (delay : ℕ) : WorkerProg Unit :=
  if delay > 0 then perform (R := WorkerResp) (.sleep delay) else pure ()

/-- Save a batch that could not be processed; a failure to do so is only logged. -/
def saveFailed (req : IngestRequest) (errMsg : String) (retries : ℕ) : WorkerProg Unit := do
  let ids ← perform (R := WorkerResp) (.svc .uuidNew)
  let f : FailedIngest :=
    { id := ids 0, sessionID := req.sessionID, payload := encode req, error := errMsg,
      retryCount := retries }
  match ← svc (Service.saveFailed f) with
  | .error err => slog (.saveFailedError req.sessionID err)
  | .ok () => slog (.savedToFailedIngest req.sessionID retries)

/-- What follows a failed attempt. -/
def onFailure (workerID : ℕ) (msgID : String) (req : IngestRequest) (attempt : ℕ) (err : String) :
    WorkerProg Unit := do
  slog (.attemptFailed workerID (attempt + 1) err)
  if attempt = delays.length - 1 then
    saveFailed req err (attempt + 1)
    ack msgID

/-- The loop of `process` over the delays that are left. -/
def processFrom (workerID : ℕ) (msgID : String) (req : IngestRequest) :
    ℕ → List ℕ → WorkerProg Unit
  | _, [] => pure ()
  | attempt, delay :: rest => do
    backoff delay
    match ← svc (Service.ingest req) with
    | .ok () =>
      slog (.batchProcessed workerID req.sessionID req.events.length)
      ack msgID
    | .error err =>
      onFailure workerID msgID req attempt err
      processFrom workerID msgID req (attempt + 1) rest

/-- **Ingest a batch with exponential backoff**; on permanent failure save it. -/
def process (workerID : ℕ) (msgID : String) (req : IngestRequest) : WorkerProg Unit :=
  processFrom workerID msgID req 0 delays

/-- What `runWorker` does with a message. -/
def onMessage (workerID : ℕ) (msg : Message) : WorkerProg Unit :=
  match decode msg.data with
  | .error err => do
    slog (.unmarshalError workerID err)
    ack msg.id
  | .ok req => process workerID msg.id req

/-- What `reclaimPending` does with each of the messages that an earlier run left pending. -/
def onReclaimed (msg : Message) : WorkerProg Unit :=
  match decode msg.data with
  | .error _ => ack msg.id
  | .ok req => process 0 msg.id req

/-! ## Runs of the loop -/

section Runs

variable {S : Type} {T : Handler WorkerCall WorkerResp S} {workerID : ℕ} {msgID : String}
  {req : IngestRequest} {attempt delay : ℕ} {ds : List ℕ} {s s₁ s₂ s₃ s' : S}

theorem processFrom_ok (hb : Runs T (backoff delay) s s₁ ())
    (hi : Runs T (svc (Service.ingest req)) s₁ s₂ (.ok ()))
    (hl : Runs T (slog (.batchProcessed workerID req.sessionID req.events.length)) s₂ s₃ ())
    (ha : Runs T (ack msgID) s₃ s' ()) :
    Runs T (processFrom workerID msgID req attempt (delay :: ds)) s s' () :=
  runs_bind.mpr ⟨s₁, (), hb, runs_bind.mpr ⟨s₂, .ok (), hi, runs_bind.mpr ⟨s₃, (), hl, ha⟩⟩⟩

theorem processFrom_error {err : String} (hb : Runs T (backoff delay) s s₁ ())
    (hi : Runs T (svc (Service.ingest req)) s₁ s₂ (.error err))
    (hf : Runs T (onFailure workerID msgID req attempt err) s₂ s₃ ())
    (hrest : Runs T (processFrom workerID msgID req (attempt + 1) ds) s₃ s' ()) :
    Runs T (processFrom workerID msgID req attempt (delay :: ds)) s s' () :=
  runs_bind.mpr ⟨s₁, (), hb, runs_bind.mpr ⟨s₂, .error err, hi, runs_bind.mpr ⟨s₃, (), hf, hrest⟩⟩⟩

end Runs

end Worker

end BatRewind
