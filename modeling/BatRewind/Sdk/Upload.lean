import BatRewind.Queue.Stream
import BatRewind.Sdk.Buffered
import BatRewind.Session.ReplayOrder

/-!
# Mode `buffered`: what the uploads leave in the database

`uploadBuffer` hands over the whole rolling buffer and leaves it as it is, a batch carries no id,
and `Ingest` gives every event a fresh row. So uploads that overlap store an event more than once.

* `BatchPayload.body`: the body of an upload; `BatchPayload.request`: the batch that the writer and
  the worker read in it (**`decode_body`**).
* `copies`: in how many uploads an event is, by its position among the emitted.
* `Buffering.run`: the uploads of a run are the emitted events, each as often as `copies` says.
* **`stored_per_upload`**: so are the rows of the session, whatever the interleaving of the workers,
  and none is stored twice exactly if the rolling buffer held no event at two uploads.
-/

namespace BatRewind

namespace Sdk

open Encoding Blocks Tables Effects Effects.Prog

/-! ## The body of an upload -/

/-- The text of a trigger. -/
def Trigger.text : Trigger → String
  | .manual => "manual"
  | .error => "error"
  | .stream => "stream"

/-- The event as the server reads it. -/
def RawEvent.stored (e : RawEvent ℤ) : BatRewind.RawEvent := ⟨e.type, e.data, e.timestamp⟩

theorem stored_injective : Function.Injective RawEvent.stored := by
  rintro ⟨type, data, timestamp⟩ ⟨type', data', timestamp'⟩ h
  cases h
  rfl

namespace BatchPayload

variable (p : BatchPayload ℤ)

/-- `JSON.stringify(payload)`: a key whose value is `undefined` is left out. -/
def body : Json :=
  .obj ([
    ("session_id", .str p.sessionId),
    ("identifier", .str p.identifier),
    ("service_name", .str p.serviceName),
    ("environment", .str p.environment)] ++
    (p.batSessionId.toList.map fun id => ("bat_session_id", .str id)) ++
    [("trigger", .str p.trigger.text)] ++
    (p.shareToken.toList.map fun token => ("share_token", .str token)) ++
    (p.client.toList.map fun client => ("client", encodeClient (some client))) ++
    [("events", .arr (p.events.map fun e => encodeEvent e.stored))])

/-- The batch of the server. -/
def request : IngestRequest where
  sessionID := p.sessionId
  batSessionID := p.batSessionId.getD ""
  identifier := p.identifier
  userEmail := ""
  userName := ""
  startURL := ""
  environment := p.environment
  serviceName := p.serviceName
  trigger := p.trigger.text
  shareToken := p.shareToken.getD ""
  client := p.client
  events := p.events.map RawEvent.stored

/-- **The server reads the batch that the SDK wrote.** -/
theorem decode_body : decode p.body = .ok p.request := by
  -- the batch before an optional entry, with what is read so far
  let head : IngestRequest := { zeroRequest with
    sessionID := p.sessionId, identifier := p.identifier, serviceName := p.serviceName
    environment := p.environment }
  let middle : IngestRequest := { head with
    batSessionID := p.batSessionId.getD "", trigger := p.trigger.text }
  let last : IngestRequest := { middle with shareToken := p.shareToken.getD "" }
  have hclient : ∀ client, setField "client" (encodeClient (some client)) ⟨last, []⟩ =
      .ok ⟨{ last with client := some client }, []⟩ := by
    intro client
    have h := decodeClient_encodeClient (some client)
    rw [setField, if_neg (by decide)]
    simp only [setRequestField]
    rw [show last.client = none from rfl, h]
    rfl
  have hevents : ∀ old : IngestRequest, old.events = [] →
      setField "events" (.arr (p.events.map fun e => encodeEvent e.stored)) ⟨old, []⟩ =
        .ok ⟨{ old with events := p.events.map RawEvent.stored }, []⟩ := by
    intro old hold
    have h := decodeEvents_encodeEvent (p.events.map RawEvent.stored)
    rw [List.map_map] at h
    rw [setField, if_pos rfl, hold]
    exact congrArg _ h
  simp only [body, decode, List.append_assoc, List.cons_append, List.nil_append]
  refine Eq.trans (congrArg (Except.map Unmarshalling.req)
    (show _ = .ok ⟨p.request, []⟩ from ?_)) rfl
  refine Eq.trans (decodeFields_cons (by decide) rfl) ?_
  refine Eq.trans (decodeFields_cons (by decide) rfl) ?_
  refine Eq.trans (decodeFields_cons (by decide) rfl) ?_
  refine Eq.trans (decodeFields_cons (by decide) rfl) ?_
  refine Eq.trans (decodeFields_optional p.batSessionId
    (fun o => ⟨{ head with batSessionID := o.getD "" }, []⟩) (by decide) rfl fun _ => rfl) ?_
  refine Eq.trans (decodeFields_cons (by decide) rfl) ?_
  refine Eq.trans (decodeFields_optional p.shareToken
    (fun o => ⟨{ middle with shareToken := o.getD "" }, []⟩) (by decide) rfl fun _ => rfl) ?_
  refine Eq.trans (decodeFields_optional p.client
    (fun o => ⟨{ last with client := o }, []⟩) (by decide) rfl hclient) ?_
  refine Eq.trans (decodeFields_cons (by decide) (hevents _ rfl)) ?_
  rfl

end BatchPayload

/-! ## The uploads of a run -/

section Copies

variable {τ : Type} [LE τ] [DecidableLE τ] [Sub τ] [NatCast τ]
  (stringify : List (RawEvent τ) → String)

/-- The input makes a call of `sendBatch`. -/
def State.uploads (s : State τ) (a : Action τ) : Bool :=
  s.sent.length < (s.step stringify a).sent.length

/-- How often the input uploads event `i` of the `n` that were emitted: the rolling buffer holds the
last of them. -/
def State.copied (s : State τ) (n : ℕ) (a : Action τ) (i : ℕ) : ℕ :=
  if s.uploads stringify a ∧ n - s.segments.flatten.length ≤ i ∧ i < n then 1 else 0

/-- How often a run uploads event `i`: once by each upload that is made while it is in the rolling
buffer. -/
def copies : State τ → ℕ → List (Action τ) → ℕ → ℕ
  | _, _, [], _ => 0
  | s, n, a :: actions, i =>
    s.copied stringify n a i + copies (s.step stringify a) (n + a.events.length) actions i

theorem copies_concat (s : State τ) (n : ℕ) (actions : List (Action τ)) (a : Action τ) (i : ℕ) :
    copies stringify s n (actions ++ [a]) i = copies stringify s n actions i +
      (s.run stringify actions).copied stringify (n + (emitted actions).length) a i := by
  induction actions generalizing s n with
  | nil => simp [copies, State.run, emitted]
  | cons b actions ih =>
    have hlen : n + (emitted (b :: actions)).length =
        n + b.events.length + (emitted actions).length := by
      rw [emitted, List.flatMap_cons, List.length_append, ← Nat.add_assoc]
      rfl
    rw [List.cons_append, copies, copies, ih, hlen]
    exact (Nat.add_assoc _ _ _).symm

/-- An event is not uploaded before it is emitted. -/
theorem copies_eq_zero (s : State τ) {n : ℕ} {actions : List (Action τ)} {i : ℕ}
    (h : n + (emitted actions).length ≤ i) : copies stringify s n actions i = 0 := by
  induction actions using List.reverseRecOn with
  | nil => rfl
  | append_singleton actions a ih =>
    rw [emitted_concat, List.length_append] at h
    rw [copies_concat, ih (by omega), State.copied, if_neg (by omega)]

/-- An input adds its copies of what was emitted before it. -/
theorem repeats_copies_concat (s : State τ) (actions : List (Action τ)) (a : Action τ) :
    repeats (copies stringify s 0 (actions ++ [a])) (emitted (actions ++ [a])) =
      repeats (fun i => copies stringify s 0 actions i +
        (s.run stringify actions).copied stringify (emitted actions).length a i)
        (emitted actions) := by
  have hfun : copies stringify s 0 (actions ++ [a]) = fun i => copies stringify s 0 actions i +
      (s.run stringify actions).copied stringify (emitted actions).length a i := by
    funext i
    rw [copies_concat, Nat.zero_add]
  rw [emitted_concat, hfun]
  apply repeats_append_of_zero
  intro i hi
  rw [copies_eq_zero stringify s (by omega), State.copied, if_neg (by omega)]

end Copies

/-- **What an initialized module in mode `buffered` keeps** besides its segments. -/
structure Buffering {τ : Type} (session : SessionHandle) (s : State τ) : Prop where
  session : s.session = some session
  timer : s.timer = false

section Uploads

variable {τ : Type} {session : SessionHandle} {s : State τ}

/-- `init` stores the session and starts no timer. -/
theorem buffering_init {s₀ : State τ} (hidle : s₀.Idle) (config : Config τ)
    (hmode : config.mode ≠ some .always) (session : SessionHandle) (client : ClientMeta String) :
    Buffering session (s₀.init config session client) ∧
      (s₀.init config session client).sent = s₀.sent := by
  have htimer : s₀.timer = false := by rw [hidle]
  rw [init_buffered hidle hmode]
  exact ⟨⟨rfl, htimer⟩, rfl⟩

/-- From `s` to `s'` nothing is sent, or the rolling buffer as a batch of the session. -/
def SendsBuffer (session : SessionHandle) (s s' : State τ) : Prop :=
  s'.sent = s.sent ∨ ∃ b : Batch τ, s'.sent = s.sent ++ [b] ∧
    b.payload.sessionId = session.id ∧ b.payload.events = s.segments.flatten

theorem Buffering.uploadBuffer (h : Buffering session s) (trigger : Trigger) (keepalive : Bool) :
    Buffering session (s.uploadBuffer trigger keepalive) ∧
      SendsBuffer session s (s.uploadBuffer trigger keepalive) := by
  unfold State.uploadBuffer
  split_ifs with hnone hempty
  · exact ⟨h, Or.inl rfl⟩
  · exact ⟨h, Or.inl rfl⟩
  · cases hconfig : s.config with
    | none => simp [hconfig] at hnone
    | some config =>
      simp only [State.upload, hconfig, h.session]
      exact ⟨⟨rfl, h.timer⟩, Or.inr ⟨_, rfl, rfl, rfl⟩⟩

variable [NatCast τ] {bufferMs : τ} {events d : List (RawEvent τ × Bool)}
  {blocks : List (List (RawEvent τ × Bool))}

theorem Rolling.flatten_segments {actions : List (Action τ)}
    (h : Rolling bufferMs (emits actions) d blocks s) :
    s.segments.flatten =
      (emitted actions).drop ((emitted actions).length - s.segments.flatten.length) := by
  have hsplit : emitted actions = d.map Prod.fst ++ s.segments.flatten := by
    rw [← map_fst_emits, h.events_eq]
  have hlen : (emitted actions).length - s.segments.flatten.length = (d.map Prod.fst).length := by
    rw [hsplit, List.length_append, Nat.add_sub_cancel]
  rw [hlen, hsplit, List.drop_left]

variable [LE τ] [DecidableLE τ] [Sub τ] (stringify : List (RawEvent τ) → String)

/-- An upload copies what is in the rolling buffer. -/
theorem Rolling.repeats_copied {actions : List (Action τ)} {a : Action τ}
    (h : Rolling bufferMs (emits actions) d blocks s) (ha : s.uploads stringify a = true) :
    repeats (s.copied stringify (emitted actions).length a) (emitted actions) =
      s.segments.flatten := by
  rw [h.flatten_segments, ← repeats_drop]
  apply repeats_congr
  intro i hi
  simp [State.copied, ha, hi]

/-- **An input sends at most the rolling buffer.** -/
theorem Buffering.step (h : Buffering session s) (hroll : Rolling bufferMs events d blocks s)
    {a : Action τ} (ha : a ≠ .stop) :
    Buffering session (s.step stringify a) ∧ SendsBuffer session s (s.step stringify a) := by
  have hsame : s.step stringify a = s →
      Buffering session (s.step stringify a) ∧ SendsBuffer session s (s.step stringify a) := by
    intro heq
    rw [heq]
    exact ⟨h, Or.inl rfl⟩
  cases a with
  | stop => exact absurd rfl ha
  | init config handle client => exact hsame (if_pos hroll.initialized)
  | timer => exact hsame (by simp [State.step, h.timer])
  | visibilityChange hidden =>
    exact hsame (by simp [State.step, State.onVisibilityChange, hroll.mode])
  | beforeUnload => exact hsame (by simp [State.step, State.onBeforeUnload, hroll.mode])
  | error =>
    simp only [State.step, State.onError]
    split_ifs
    · exact h.uploadBuffer .error true
    · exact ⟨h, Or.inl rfl⟩
    · exact ⟨h, Or.inl rfl⟩
  | report =>
    simp only [State.step, State.report, hroll.mode, if_true]
    exact h.uploadBuffer .manual false
  | identify identifier => exact ⟨⟨h.session, h.timer⟩, Or.inl rfl⟩
  | emit event isCheckout now =>
    simp only [State.step, State.emit, hroll.recorder, State.emitBuffered]
    split_ifs <;> exact ⟨⟨h.session, h.timer⟩, Or.inl rfl⟩

/-- **The uploads of a run**: the emitted events, each as often as it was in the rolling buffer at
an upload. -/
theorem Buffering.run (h : Buffering session s) (hroll : Rolling bufferMs [] [] [] s)
    {actions : List (Action τ)} (hrun : ∀ a ∈ actions, a ≠ .stop) :
    Buffering session (s.run stringify actions) ∧
      ∃ batches : List (Batch τ), (s.run stringify actions).sent = s.sent ++ batches ∧
        (∀ b ∈ batches, b.payload.sessionId = session.id) ∧
        (batches.flatMap fun b => b.payload.events).Perm
          (repeats (copies stringify s 0 actions) (emitted actions)) := by
  induction actions using List.reverseRecOn with
  | nil => exact ⟨h, [], by simp [State.run], by simp, by simp [repeats, emitted]⟩
  | append_singleton actions a ih =>
    have ha : a ≠ .stop := hrun a (List.mem_append_right _ (List.mem_singleton_self a))
    have hinit : ∀ b ∈ actions, b ≠ .stop := fun b hb => hrun b (List.mem_append_left _ hb)
    obtain ⟨hbuf, batches, hsent, hsid, hperm⟩ := ih hinit
    obtain ⟨d', blocks', hend⟩ := hroll.run stringify hinit
    rw [List.nil_append] at hend
    obtain ⟨hbuf', hsends⟩ := hbuf.step stringify hend ha
    refine ⟨State.run_concat s actions a ▸ hbuf', ?_⟩
    rw [State.run_concat, repeats_copies_concat]
    rcases hsends with hsame | ⟨b, hsent', hbsid, hbevents⟩
    · refine ⟨batches, hsame.trans hsent, hsid, ?_⟩
      simpa [State.copied, State.uploads, hsame] using hperm
    · refine ⟨batches ++ [b], by rw [hsent', hsent, List.append_assoc], ?_, ?_⟩
      · intro c hc
        rcases List.mem_append.mp hc with hc | hc
        · exact hsid c hc
        · rw [List.mem_singleton.mp hc]
          exact hbsid
      · have hwindow := hend.repeats_copied stringify (a := a) (by simp [State.uploads, hsent'])
        refine List.Perm.trans ?_ (repeats_add _ _ _).symm
        rw [List.flatMap_append, List.flatMap_singleton, hwindow, hbevents]
        exact hperm.append_right _

end Uploads

/-! ## Main theorem -/

section Stored

variable {lib : Writer.Libraries} {b : Batch ℤ} {req : IngestRequest}

/-- The writer accepts the upload, and `req` is the batch that the worker reads in what the writer
enqueues. -/
def Ingested (lib : Writer.Libraries) (b : Batch ℤ) (req : IngestRequest) : Prop :=
  ∃ checked, Writer.check lib b.payload.body = .ok checked ∧ decode (encode checked) = .ok req

theorem Ingested.eq_request (h : Ingested lib b req) : req = b.payload.request := by
  obtain ⟨checked, hcheck, hdecode⟩ := h
  have hbody := Writer.check_ok hcheck
  rw [BatchPayload.decode_body] at hbody
  rw [decode_encode] at hdecode
  exact (Except.ok.inj hdecode).symm.trans (Except.ok.inj hbody).symm

theorem ingested_request (hrequired : Writer.required b.payload.request = true)
    (hid : lib.parseUUID b.payload.sessionId = true) : Ingested lib b b.payload.request := by
  have hid' : lib.parseUUID b.payload.request.sessionID = true := hid
  refine ⟨b.payload.request, ?_, decode_encode _⟩
  simp [Writer.check, BatchPayload.decode_body, hrequired, hid']

theorem map_request_of_ingested {batches : List (Batch ℤ)} {reqs : List IngestRequest}
    (h : List.Forall₂ (Ingested lib) batches reqs) :
    reqs = batches.map fun b => b.payload.request := by
  induction h with
  | nil => rfl
  | cons hb _ ih => rw [List.map_cons, hb.eq_request, ih]

/-- **A captured event is stored once for each upload that is made while it is in the rolling
buffer.** In a run in mode `buffered` from `init` on, with any inputs, whose uploads are accepted by
the writer and ingested once each by the workers, in any interleaving of their statements, the
session gains the emitted events, each as often as `copies` says. If they are distinct and the
session had none before, no event is stored twice exactly if none was in the rolling buffer at two
uploads. -/
theorem stored_per_upload {stringify : List (RawEvent ℤ) → String} {s₀ s : State ℤ}
    (hreach : s₀.Reachable stringify) (hidle : s₀.initialized = false) (config : Config ℤ)
    (hmode : config.mode ≠ some .always) (session : SessionHandle) (client : ClientMeta String)
    (actions : List (Action ℤ)) (hrun : ∀ a ∈ actions, a ≠ .stop)
    (hs : s = (s₀.init config session client).run stringify actions) {batches : List (Batch ℤ)}
    (hsent : s.sent = s₀.sent ++ batches) {reqs : List IngestRequest}
    (hreqs : List.Forall₂ (Ingested lib) batches reqs) {db db' : DB}
    {ps : Pool IngestRequest Call Resp (Except String Unit)}
    (hruns : PoolRuns (fun _ => Healthy) (ingestPool reqs, db) (ps, db'))
    (hfin : Pool.Finished ps) :
    ((db'.eventsOf session.id).map ReplayEvent.raw).Perm ((db.eventsOf session.id).map
        ReplayEvent.raw ++ (repeats (copies stringify (s₀.init config session client) 0 actions)
          (emitted actions)).map RawEvent.stored) ∧
      (db.eventsOf session.id = [] → (emitted actions).Nodup →
        (((db'.eventsOf session.id).map ReplayEvent.raw).Nodup ↔
          ∀ i < (emitted actions).length,
            copies stringify (s₀.init config session client) 0 actions i ≤ 1)) := by
  have hidle' : s₀.Idle := (State.idle_or_initialized hreach).resolve_right (by simp [hidle])
  obtain ⟨hbuf, hsame⟩ := buffering_init hidle' config hmode session client
  obtain ⟨-, batches', hsent', hsid, hperm⟩ :=
    hbuf.run stringify (rolling_init hidle' config hmode session client) hrun
  obtain rfl : batches' = batches := by
    rw [← hs, hsame, hsent] at hsent'
    exact (List.append_cancel_left hsent').symm
  obtain rfl := map_request_of_ingested hreqs
  have hreqsid : ∀ req ∈ batches'.map fun b => b.payload.request, req.sessionID = session.id := by
    intro req hreq
    obtain ⟨b, hb, rfl⟩ := List.mem_map.mp hreq
    exact hsid b hb
  have hevents : (batches'.map fun b => b.payload.request).flatMap IngestRequest.events =
      (batches'.flatMap fun b => b.payload.events).map RawEvent.stored := by
    rw [List.flatMap_map, List.map_flatMap]
    rfl
  have hstored := ingestPool_perm hreqsid hruns hfin
  rw [hevents] at hstored
  have hall := hstored.trans ((hperm.map RawEvent.stored).append_left _)
  refine ⟨hall, fun hnone hdistinct => ?_⟩
  rw [hnone, List.map_nil, List.nil_append] at hall
  rw [hall.nodup_iff, List.nodup_map_iff stored_injective, nodup_repeats_iff hdistinct]

end Stored

/-- One event and two reports. -/
def reportedTwice : List (Action ℤ) := [.emit (bareEvent 2 0) false 0, .report, .report]

/-- The module after the two reports. -/
def reportedState : State ℤ :=
  State.run stringifyBare (State.init {} (sampleConfig .buffered) sampleHandle sampleClient)
    reportedTwice

/-- The request of such a report. -/
def reportRequest (client : Option (ClientMeta String)) : IngestRequest where
  sessionID := sampleID
  batSessionID := ""
  identifier := sampleID
  userEmail := ""
  userName := ""
  startURL := ""
  environment := "production"
  serviceName := "web"
  trigger := "manual"
  shareToken := "token"
  client := client
  events := [⟨2, .obj [], 0⟩]

/-- The libraries of the writer, as far as the sample needs them. -/
def sampleLibraries : Writer.Libraries := ⟨fun _ => "", fun id => id = sampleID⟩

theorem reportedState_ingested : List.Forall₂ (Ingested sampleLibraries) reportedState.sent
    [reportRequest (some sampleClient), reportRequest none] :=
  .cons (ingested_request (by decide) (by decide)) <|
    .cons (ingested_request (by decide) (by decide)) .nil

/-- Both uploads can be stored. -/
theorem reportedTwice_runs : ∃ db', PoolRuns (fun _ => Healthy)
    (ingestPool [reportRequest (some sampleClient), reportRequest none], DB.empty)
    ([(reportRequest (some sampleClient), .ret (.ok ())), (reportRequest none, .ret (.ok ()))],
      db') := by
  obtain ⟨db₁, hrun₁, hst₁⟩ := ingest_runs DB.empty (reportRequest (some sampleClient)) 0
    (fun _ => sampleEventID false) (by decide) fun _ r hr => by cases hr
  have hids : ((db₁.events.rows ++ Service.eventsOf (reportRequest none) 1
      fun _ => sampleEventID true).map ReplayEvent.id).Nodup := by
    rw [hst₁.events]
    decide
  have htok : ∀ r ∈ db₁.sessions.rows, r.id = sampleID := by
    intro r hr
    rw [hst₁.sessions] at hr
    rcases Table.mem_put.mp hr with rfl | ⟨hr, -⟩
    · rfl
    · cases hr
  obtain ⟨db₂, hrun₂, -⟩ := ingest_runs db₁ (reportRequest none) 1 (fun _ => sampleEventID true)
    hids fun _ r hr _ => htok r hr
  exact ⟨db₂, (Runs.pool (fun _ => Healthy) _ (hrun₁.mono fun _ _ _ _ => HealthyAt.healthy) []
      [(_, (Service.ingest _).run)]).trans
    (Runs.pool (fun _ => Healthy) _ (hrun₂.mono fun _ _ _ _ => HealthyAt.healthy)
      [(_, .ret (.ok ()))] [])⟩

/-- Two reports store the one event twice. -/
theorem stored_per_upload_twice : ∃ db', PoolRuns (fun _ => Healthy)
    (ingestPool [reportRequest (some sampleClient), reportRequest none], DB.empty)
    ([(reportRequest (some sampleClient), .ret (.ok ())), (reportRequest none, .ret (.ok ()))],
      db') ∧
    ((db'.eventsOf sampleID).map ReplayEvent.raw).Perm [⟨2, .obj [], 0⟩, ⟨2, .obj [], 0⟩] := by
  obtain ⟨db', hruns⟩ := reportedTwice_runs
  have hreach : State.Reachable stringifyBare ({} : State ℤ) := ⟨[], rfl⟩
  have h := (stored_per_upload hreach rfl (sampleConfig .buffered) (by decide) sampleHandle
    sampleClient reportedTwice (by simp [reportedTwice]) (s := reportedState) rfl rfl
    reportedState_ingested hruns (by simp [Pool.Finished])).1
  exact ⟨db', hruns, h⟩

/-- The event of a report is stored again by the next one. -/
theorem not_stored_once : ¬ ∀ (stringify : List (RawEvent ℤ) → String) (config : Config ℤ)
    (session : SessionHandle) (client : ClientMeta String) (actions : List (Action ℤ))
    (lib : Writer.Libraries) (reqs : List IngestRequest) (db' : DB)
    (ps : Pool IngestRequest Call Resp (Except String Unit)), config.mode ≠ some .always →
    (∀ a ∈ actions, a ≠ .stop) → (emitted actions).Nodup →
    List.Forall₂ (Ingested lib)
      ((State.init {} config session client).run stringify actions).sent reqs →
    PoolRuns (fun _ => Healthy) (ingestPool reqs, DB.empty) (ps, db') → Pool.Finished ps →
    ((db'.eventsOf session.id).map ReplayEvent.raw).Nodup := by
  intro hall
  obtain ⟨db', hruns⟩ := reportedTwice_runs
  have hfin : Pool.Finished [
      (reportRequest (some sampleClient), (.ret (.ok ()) : Prog Call Resp (Except String Unit))),
      (reportRequest none, .ret (.ok ()))] := by
    simp [Pool.Finished]
  have hnodup := hall stringifyBare (sampleConfig .buffered) sampleHandle sampleClient reportedTwice
    sampleLibraries _ db' _ (by decide) (by simp [reportedTwice])
    (by simp [reportedTwice, emitted, Action.events]) reportedState_ingested hruns hfin
  have hperm : ((db'.eventsOf sampleID).map ReplayEvent.raw).Perm _ :=
    ingestPool_perm (by simp [reportRequest]) hruns hfin
  have hlen : [(⟨2, .obj [], 0⟩ : BatRewind.RawEvent), ⟨2, .obj [], 0⟩].Nodup :=
    hperm.nodup_iff.mp hnodup
  simp at hlen

end Sdk

end BatRewind
