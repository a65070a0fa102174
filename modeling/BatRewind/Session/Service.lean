import BatRewind.Session.Repository

/-!
# The session service

The methods of `internal/session/service.go`, as programs over the repository's calls.
`Service.ingest` upserts the session, sets the share token and the device columns, inserts the
events and counts them: up to six statements without an enclosing transaction.

* `ServiceCall`: the calls by which the workers and the reader change the database.
-/

namespace BatRewind

open Encoding Tables Effects Effects.Prog

/-- `s`, or a default for the empty string. -/
def defaultStr (s fallback : String) : String := if s = "" then fallback else s

/-- The rrweb type of plugin events, such as captured console output. -/
def rrwebPluginType : ℤ := 6

namespace Service

/-- The session row that a batch describes. -/
def sessionOf (req : IngestRequest) (now : Time) : ReplaySession where
  id := req.sessionID
  batSessionID := req.batSessionID
  identifier := req.identifier
  userEmail := req.userEmail
  userName := req.userName
  startURL := req.startURL
  environment := defaultStr req.environment "production"
  serviceName := req.serviceName
  trigger := defaultStr req.trigger "manual"
  startedAt := now
  createdAt := now

/-- The event rows of a batch. -/
def eventsOf (req : IngestRequest) (now : Time) (ids : ℕ → String) : List ReplayEvent :=
  req.events.mapIdx fun i e =>
    { id := ids i, sessionID := req.sessionID, seq := i, type := e.type, data := e.data,
      timestamp := e.timestamp, createdAt := now }

/-- Persist the public token that the client supplied, if any. -/
def persistToken (req : IngestRequest) : Svc Unit :=
  if req.shareToken ≠ "" then
    wrap "set share token: " (Repository.setShareToken req.sessionID req.shareToken)
  else pure ()

/-- Store the metadata of the client, if any, clamped and with the fields derived from it. -/
def storeClient (req : IngestRequest) : Svc Unit :=
  match req.client with
  | some client =>
    let m := client.sanitized
    wrap "set client metadata: "
      (Repository.setClientMetadata req.sessionID m (parseUserAgent m.userAgent))
  | none => pure ()

/-- **Persist a batch**: upsert its session and append its events. -/
def ingest (req : IngestRequest) : Svc Unit := do
  let now ← timeNow
  wrap "upsert session: " (Repository.upsertSession (sessionOf req now))
  persistToken req
  storeClient req
  let ids ← uuidNew
  let events := eventsOf req now ids
  wrap "insert events: " (Repository.insertEvents events)
  Repository.incrementEventCount req.sessionID events.length

/-- Mark a session as ended and compute its duration in milliseconds. -/
def finalizeSession (sessionID : String) : Svc Unit := do
  let sess ← Repository.getByID sessionID
  let now ← timeNow
  let durationMs := (now - sess.startedAt).tdiv 1000000
  Repository.updateSessionEnd { sess with endedAt := some now, durationMs := some durationMs }

/-- Permanently remove a session and its events. -/
def delete (id : String) : Svc Unit := Repository.deleteSession id

/-- Remove the sessions started more than `retention` ago; a non-positive retention keeps all. -/
def purgeOlderThan (retention : ℤ) : Svc ℕ := do
  if retention ≤ 0 then return 0
  let now ← timeNow
  Repository.purgeOlderThan (now - retention)

/-- The public token of a session, generated by the first call. -/
def createShareToken (id : String) : Svc String := do
  let sess ← wrap "session not found: " (Repository.getByID id)
  if let some token := sess.shareToken then
    if token ≠ "" then return token
  let ids ← uuidNew
  wrap "set share token: " (Repository.setShareToken id (ids 0))
  return ids 0

/-- The redacted view of the session that holds a share token. -/
def getPublicSession (token : String) : Svc PublicSession := do
  let sess ← Repository.getByShareToken token
  return sess.toPublic

/-- One round of the loop of `GetPublicEvents`. The array is shared by `events` and `filtered`,
and its first `st.2` elements are `filtered`. -/
def stripStep (st : List ReplayEvent × ℕ) (i : ℕ) : List ReplayEvent × ℕ :=
  match st.1[i]? with
  | some e => if e.type = rrwebPluginType then st else (st.1.set st.2 e, st.2 + 1)
  | none => st

/-- Remove the plugin events, in place. -/
def stripPlugins (events : List ReplayEvent) : List ReplayEvent :=
  let st := (List.range events.length).foldl stripStep (events, 0)
  st.1.take st.2

/-- The player events of a shared session, without its plugin events. -/
def getPublicEvents (token : String) : Svc (List ReplayEvent) := do
  let sess ← Repository.getByShareToken token
  let events ← Repository.getEvents sess.id
  return stripPlugins events

def saveFailed (f : FailedIngest) : Svc Unit := Repository.saveFailed f

/-- Ingest a dead letter again and mark it resolved. -/
def retryFailed (id : String) : Svc Unit := do
  let f ← wrap "failed ingest not found: " (Repository.getFailed id)
  let req ← wrap "invalid payload: " (ExceptT.mk (pure (decode f.payload)))
  wrap "retry failed: " (ingest req)
  Repository.markFailedResolved id

/-- The loop of `RetryAllFailed`: the number of dead letters that could be resolved. -/
def retryEach : List FailedIngest → ℕ → Svc ℕ
  | [], succeeded => return succeeded
  | f :: items, succeeded => do
    match ← ExceptT.lift (retryFailed f.id).run with
    | .ok () => retryEach items (succeeded + 1)
    | .error _ => retryEach items succeeded

/-- Retry every unresolved dead letter. -/
def retryAllFailed : Svc ℕ := do
  let items ← Repository.listFailed true
  retryEach items 0

end Service

/-- A call of the service that changes the database. -/
inductive ServiceCall where
  | ingest (req : IngestRequest)
  | finalizeSession (sessionID : String)
  | createShareToken (id : String)
  | delete (id : String)
  | purgeOlderThan (retention : ℤ)
  | saveFailed (f : FailedIngest)
  | retryFailed (id : String)
  | retryAllFailed

/-- The program of a service call; its result goes to the caller. -/
def ServiceCall.program : ServiceCall → Prog Call Resp (Except String Unit)
  | .ingest req => (Service.ingest req).run
  | .finalizeSession id => (Service.finalizeSession id).run
  | .createShareToken id => (do let _ ← Service.createShareToken id; pure ()).run
  | .delete id => (Service.delete id).run
  | .purgeOlderThan retention => (do let _ ← Service.purgeOlderThan retention; pure ()).run
  | .saveFailed f => (Service.saveFailed f).run
  | .retryFailed id => (Service.retryFailed id).run
  | .retryAllFailed => (do let _ ← Service.retryAllFailed; pure ()).run

/-- Service calls, one after another. -/
def ServiceRuns (T : Handler Call Resp DB) : List ServiceCall → DB → DB → Prop
  | [], db, db' => db' = db
  | c :: calls, db, db' => ∃ db₁ r, Runs T c.program db db₁ r ∧ ServiceRuns T calls db₁ db'

/-- The calls in which the statements are answered by `h`, those of each call with the inputs that
stand beside it. -/
def followCalls {E S : Type} (h : E → (c : Call) → S → Option (S × Resp c)) :
    List (ServiceCall × List E) → S → Option S
  | [], s => some s
  | (c, es) :: calls, s => (c.program.follow h es s).bind fun x => followCalls h calls x.1

theorem followCalls_runs {E : Type} {h : E → (c : Call) → DB → Option (DB × Resp c)}
    {T : Handler Call Resp DB} (hT : ∀ e c db db' r, h e c db = some (db', r) → T c db db' r)
    {calls : List (ServiceCall × List E)} {db db' : DB} (hf : followCalls h calls db = some db') :
    ServiceRuns T (calls.map Prod.fst) db db' := by
  induction calls generalizing db with
  | nil => exact (Option.some.inj hf).symm
  | cons c calls ih =>
    obtain ⟨⟨db₁, r⟩, hstep, hrest⟩ := Option.bind_eq_some_iff.mp hf
    exact ⟨db₁, r, runs_follow hT hstep, ih hrest⟩

/-- What every call keeps, a sequence of calls keeps. -/
theorem ServiceRuns.preserves {T : Handler Call Resp DB} {I : DB → Prop}
    (hI : ∀ c : ServiceCall, Preserves T I c.program) {calls : List ServiceCall} {db db' : DB}
    (h : ServiceRuns T calls db db') (hdb : I db) : I db' := by
  induction calls generalizing db with
  | nil => exact h ▸ hdb
  | cons c calls ih =>
    obtain ⟨db₁, r, h₁, h₂⟩ := h
    exact ih h₂ (hI c _ _ _ hdb h₁)

end BatRewind
