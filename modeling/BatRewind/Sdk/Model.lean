import Mathlib.Algebra.Order.Ring.Rat
import Mathlib.Data.List.Induction
import BatRewind.Lib.Blocks
import BatRewind.Session.Model

/-!
# The browser SDK

The module state of `packages/browser/src/index.ts` and what changes it: the exported functions,
the `emit` callbacks given to rrweb, the flush timer and the listeners. JavaScript runs each of
these to its end before the next, so a run is a list of `Action`s (`run`).

Timestamps and clock readings are of an arbitrary type `τ`. The text that `JSON.stringify` gives for
a buffer is the parameter `stringify`. The rrweb options, the widget and the network request behind
`sendBatch` are left out; the calls of `sendBatch` are recorded in `State.sent`.

* `State.flush`, `State.pruneSegments`, `State.uploadBuffer`, `State.upload`: the source's helpers.
* `State.step_sends`: most inputs change nothing but the buffer and what was sent.
* `State.idle_or_initialized`: between `stop` and `init` the module is as at its start.
-/

namespace BatRewind

namespace Sdk

open Encoding Blocks

/-! ## Data -/

/-- The capture modes. -/
inductive Mode where
  | buffered
  | always
deriving DecidableEq

/-- Why a batch is uploaded. -/
inductive Trigger where
  | manual
  | error
  | stream

/-- An rrweb event as the SDK keeps it. -/
structure RawEvent (τ : Type) where
  type : ℤ
  data : Json
  timestamp : τ

/-- The rrweb type of a FullSnapshot. -/
def fullSnapshot : ℤ := 2

/-- The fields of `BatRewindConfig` that matter after `record` was called. -/
structure Config (τ : Type) where
  endpoint : String
  apiKey : String
  serviceName : Option String := none
  service : Option String := none
  environment : Option String := none
  identifier : Option String := none
  batSessionId : Option String := none
  shareBaseUrl : Option String := none
  captureClientMetadata : Option Bool := none
  mode : Option Mode := none
  bufferMs : Option τ := none
  captureOnError : Option Bool := none
  flushMaxBytes : Option ℚ := none

/-- The collected device metadata, unless the host opted out. -/
def Config.clientMeta {τ : Type} (config : Config τ) (client : ClientMeta String) :
    Option (ClientMeta String) :=
  if config.captureClientMetadata = some false then none else some client

/-- What `getOrCreateSession` returns: neither string is empty. -/
structure SessionHandle where
  id : String
  shareToken : String
  id_ne : id ≠ ""
  shareToken_ne : shareToken ≠ ""

/-- The body of an upload. -/
structure BatchPayload (τ : Type) where
  sessionId : String
  identifier : String
  serviceName : String
  environment : String
  batSessionId : Option String
  trigger : Trigger
  shareToken : Option String
  client : Option (ClientMeta String)
  events : List (RawEvent τ)

/-- A call of `sendBatch`. -/
structure Batch (τ : Type) where
  endpoint : String
  apiKey : String
  payload : BatchPayload τ
  keepalive : Bool

/-- What `report` returns. -/
structure ReportResult where
  sessionId : String
  shareToken : String
  shareUrl : String

/-- The `emit` callback that rrweb holds; in mode `always` with its variable `firstSnapshot`. -/
inductive Recorder where
  | buffered
  | always (firstSnapshot : Bool)

/-- **The state of the module.** The session id and the share token are set and reset together. -/
structure State (τ : Type) where
  config : Option (Config τ) := none
  session : Option SessionHandle := none
  initialized : Bool := false
  clientMeta : Option (ClientMeta String) := none
  clientMetaSent : Bool := false
  buffer : List (RawEvent τ) := []
  segments : List (List (RawEvent τ)) := []
  recorder : Option Recorder := none
  timer : Bool := false
  pageListeners : Bool := false
  errorListeners : Bool := false
  sent : List (Batch τ) := []

/-- An input of the module. `emit` carries the clock reading that a pruning would make. -/
inductive Action (τ : Type) where
  | init (config : Config τ) (session : SessionHandle) (client : ClientMeta String)
  | emit (event : RawEvent τ) (isCheckout : Bool) (now : τ)
  | timer
  | visibilityChange (hidden : Bool)
  | beforeUnload
  | error
  | report
  | identify (identifier : String)
  | stop

/-- The event of an input, if it is one. -/
def Action.events {τ : Type} : Action τ → List (RawEvent τ)
  | .emit event _ _ => [event]
  | _ => []

/-- The events that rrweb emits in a run. -/
def emitted {τ : Type} (actions : List (Action τ)) : List (RawEvent τ) :=
  actions.flatMap Action.events

theorem emitted_concat {τ : Type} (actions : List (Action τ)) (a : Action τ) :
    emitted (actions ++ [a]) = emitted actions ++ a.events := by
  simp [emitted]

def flushMaxBytesDefault : ℚ := 500000

/-- Two minutes, in milliseconds. -/
def bufferMsDefault : ℕ := 120000

/-! ## Functions -/

namespace State

section Functions

variable {τ : Type} (stringify : List (RawEvent τ) → String) (s : State τ)

def bufferSize (buf : List (RawEvent τ)) : ℕ := (utf8 (stringify buf)).length

/-- `_config.flushMaxBytes ?? FLUSH_MAX_BYTES`. -/
def flushMaxBytes : ℚ := (s.config.bind Config.flushMaxBytes).getD flushMaxBytesDefault

def isBuffered : Bool := (s.config.bind Config.mode).getD .buffered = .buffered

/-- Hand events to `sendBatch`, with the device metadata if they were not sent yet. -/
def upload (events : List (RawEvent τ)) (trigger : Trigger) (keepalive : Bool) : State τ :=
  match s.config, s.session with
  | some config, some session =>
    let client := if s.clientMetaSent then none else s.clientMeta
    { s with
      sent := s.sent ++ [{
        endpoint := config.endpoint
        apiKey := config.apiKey
        payload :=
          { sessionId := session.id
            identifier := config.identifier.getD session.id
            serviceName := (config.serviceName.or config.service).getD "web"
            environment := config.environment.getD "production"
            batSessionId := config.batSessionId
            trigger := trigger
            shareToken := some session.shareToken
            client := client
            events := events }
        keepalive := keepalive }]
      clientMetaSent := s.clientMetaSent || client.isSome }
  | _, _ => s

/-- Hand the pending events to `sendBatch`, if forced or if there are enough of them. -/
def flush (force keepalive : Bool) : State τ :=
  if s.config.isNone || s.session.isNone || s.buffer.isEmpty then s
  else if !force && bufferSize stringify s.buffer < s.flushMaxBytes then s
  else upload { s with buffer := [] } s.buffer .stream keepalive

/-- Upload the whole rolling buffer. -/
def uploadBuffer (trigger : Trigger) (keepalive : Bool) : State τ :=
  if s.config.isNone || s.session.isNone then s
  else if s.segments.flatten.isEmpty then s
  else s.upload s.segments.flatten trigger keepalive

/-- The public replay link. -/
def shareUrl : String :=
  let base := ((s.config.bind Config.shareBaseUrl).or (s.config.map Config.endpoint)).getD ""
  -- `.replace(/\/$/, '')`
  let base := if base.toList.getLast? = some '/' then String.ofList base.toList.dropLast else base
  base ++ "/share/" ++ (s.session.map SessionHandle.shareToken).getD ""

def onVisibilityChange (hidden : Bool) : State τ :=
  if hidden && !s.isBuffered then s.flush stringify true true else s

def onBeforeUnload : State τ := if !s.isBuffered then s.flush stringify true true else s

def onError : State τ :=
  if s.config.bind Config.captureOnError ≠ some false then s.uploadBuffer .error true else s

/-- Start recording, unless the module is initialized. -/
def init (config : Config τ) (session : SessionHandle) (client : ClientMeta String) : State τ :=
  if s.initialized then s
  else
    let s := { s with
      initialized := true
      config := some config
      session := some session
      clientMeta := config.clientMeta client
      clientMetaSent := false }
    if s.isBuffered then
      { s with
        recorder := some .buffered
        errorListeners := config.captureOnError ≠ some false }
    else { s with recorder := some (.always true), timer := true, pageListeners := true }

def identify (identifier : String) : State τ :=
  { s with config := s.config.map fun config => { config with identifier := some identifier } }

/-- Upload what there is and return the replay link. -/
def report : State τ × ReportResult :=
  (if s.isBuffered then s.uploadBuffer .manual false else s.flush stringify true false,
    { sessionId := (s.session.map SessionHandle.id).getD ""
      shareToken := (s.session.map SessionHandle.shareToken).getD ""
      shareUrl := s.shareUrl })

/-- Stop recording, flush and reset the module. -/
def stop : State τ :=
  let s := { s with
    timer := false, recorder := none, pageListeners := false, errorListeners := false }
  let s := if !s.isBuffered then s.flush stringify true false else s
  { s with
    initialized := false, config := none, session := none, buffer := [], segments := [],
    clientMeta := none, clientMetaSent := false }

/-- The `emit` callback of mode `always`. -/
def emitAlways (firstSnapshot : Bool) (raw : RawEvent τ) : State τ :=
  if raw.type = fullSnapshot ∧ firstSnapshot then
    upload { s with recorder := some (.always false) } [raw] .stream false
  else
    let s := { s with buffer := s.buffer ++ [raw] }
    if s.flushMaxBytes ≤ (bufferSize stringify s.buffer : ℚ) then s.flush stringify true false else s

end Functions

/-- The segment starts at or before `cutoff`. -/
def startsBy {τ : Type} [LE τ] [DecidableLE τ] (cutoff : τ) (segment : List (RawEvent τ)) : Bool :=
  match segment with
  | [] => false
  | e :: _ => e.timestamp ≤ cutoff

/-- The start of the retention window at time `now`. -/
def cutoff {τ : Type} [Sub τ] [NatCast τ] (s : State τ) (now : τ) : τ :=
  now - (s.config.bind Config.bufferMs).getD (bufferMsDefault : τ)

section Emit

variable {τ : Type} [LE τ] [DecidableLE τ] [Sub τ] [NatCast τ]
  (stringify : List (RawEvent τ) → String) (s : State τ)

/-- Drop the segments before the retention window, all but the last that starts before it. -/
def pruneSegments (now : τ) : State τ :=
  { s with segments := trim (startsBy (s.cutoff now)) s.segments }

/-- The `emit` callback of mode `buffered`. -/
def emitBuffered (raw : RawEvent τ) (isCheckout : Bool) (now : τ) : State τ :=
  if isCheckout || s.segments.isEmpty then
    pruneSegments { s with segments := s.segments ++ [[raw]] } now
  else { s with segments := pushLast raw s.segments }

/-- An event from rrweb. -/
def emit (raw : RawEvent τ) (isCheckout : Bool) (now : τ) : State τ :=
  match s.recorder with
  | none => s
  | some .buffered => s.emitBuffered raw isCheckout now
  | some (.always firstSnapshot) => s.emitAlways stringify firstSnapshot raw

/-- **One input.** -/
def step : Action τ → State τ
  | .init config session client => s.init config session client
  | .emit event isCheckout now => s.emit stringify event isCheckout now
  | .timer => if s.timer then s.flush stringify true false else s
  | .visibilityChange hidden => if s.pageListeners then s.onVisibilityChange stringify hidden else s
  | .beforeUnload => if s.pageListeners then s.onBeforeUnload stringify else s
  | .error => if s.errorListeners then s.onError else s
  | .report => (s.report stringify).1
  | .identify identifier => s.identify identifier
  | .stop => s.stop stringify

/-- **A run.** -/
def run (actions : List (Action τ)) : State τ := actions.foldl (step stringify) s

/-- The states of the module. -/
def Reachable : Prop := ∃ actions, s = run stringify {} actions

end Emit

/-! ## What the helpers change -/

section Frame

variable {τ : Type} {stringify : List (RawEvent τ) → String} {s : State τ}

/-- `sendBatch` is called once, or the module is not initialized. -/
theorem upload_cases (s : State τ) (events : List (RawEvent τ)) (trigger : Trigger)
    (keepalive : Bool) :
    (s.config = none ∨ s.session = none) ∧ s.upload events trigger keepalive = s ∨
      ∃ batch sent, batch.payload.events = events ∧ s.upload events trigger keepalive =
        { s with sent := s.sent ++ [batch], clientMetaSent := sent } := by
  unfold upload
  split
  next config session hc hs => exact Or.inr ⟨_, _, rfl, rfl⟩
  next hnone =>
    refine Or.inl ⟨?_, rfl⟩
    cases hc : s.config with
    | none => exact Or.inl rfl
    | some config =>
      cases hs : s.session with
      | none => exact Or.inr rfl
      | some session => exact absurd hs (hnone config session hc)

/-- A flush hands over the whole buffer, or nothing. -/
theorem flush_cases (stringify : List (RawEvent τ) → String) (s : State τ)
    (force keepalive : Bool) :
    s.flush stringify force keepalive = s ∧
        (force = true → s.config = none ∨ s.session = none ∨ s.buffer = []) ∨
      s.buffer ≠ [] ∧ ∃ batch sent, batch.payload.events = s.buffer ∧
        s.flush stringify force keepalive =
          { s with buffer := [], sent := s.sent ++ [batch], clientMetaSent := sent } := by
  unfold flush
  split_ifs with h₁ h₂
  · refine Or.inl ⟨rfl, fun _ => ?_⟩
    simpa [or_assoc] using h₁
  · refine Or.inl ⟨rfl, fun hforce => ?_⟩
    simp [hforce] at h₂
  · simp only [Bool.or_eq_true, Option.isNone_iff_eq_none, List.isEmpty_iff, not_or] at h₁
    obtain ⟨⟨hc, hs⟩, hb⟩ := h₁
    refine Or.inr ⟨hb, ?_⟩
    rcases upload_cases { s with buffer := [] } s.buffer .stream keepalive with
      ⟨hnone, -⟩ | ⟨batch, sent, hev, heq⟩
    · exact absurd hnone (not_or.mpr ⟨hc, hs⟩)
    · exact ⟨batch, sent, hev, heq⟩

/-- The rolling buffer is uploaded as it is. -/
theorem uploadBuffer_cases (s : State τ) (trigger : Trigger) (keepalive : Bool) :
    s.uploadBuffer trigger keepalive = s ∨
      ∃ batch sent, batch.payload.events = s.segments.flatten ∧ s.segments.flatten ≠ [] ∧
        s.uploadBuffer trigger keepalive =
          { s with sent := s.sent ++ [batch], clientMetaSent := sent } := by
  unfold uploadBuffer
  split_ifs with h₁ h₂
  · exact Or.inl rfl
  · exact Or.inl rfl
  · rcases upload_cases s s.segments.flatten trigger keepalive with
      ⟨-, heq⟩ | ⟨batch, sent, hev, heq⟩
    · exact Or.inl heq
    · exact Or.inr ⟨batch, sent, hev, by simpa using h₂, heq⟩

/-- The state at the start of the module, up to the calls of `sendBatch`. -/
def Idle (s : State τ) : Prop := s = { sent := s.sent }

theorem idle_stop : (s.stop stringify).Idle := by
  unfold Idle stop
  simp only
  split_ifs
  · rcases flush_cases stringify { s with
      timer := false, recorder := none, pageListeners := false, errorListeners := false }
      true false with ⟨heq, -⟩ | ⟨-, batch, sent, -, heq⟩
    · rw [heq]
    · rw [heq]
  · rfl

/-- A flush changes the buffer and what was sent only. -/
theorem flush_sends (stringify : List (RawEvent τ) → String) (s : State τ)
    (force keepalive : Bool) :
    ∃ buffer sent metaSent, s.flush stringify force keepalive =
      { s with buffer := buffer, sent := sent, clientMetaSent := metaSent } := by
  rcases flush_cases stringify s force keepalive with ⟨heq, -⟩ | ⟨-, batch, metaSent, -, heq⟩
  · exact ⟨s.buffer, s.sent, s.clientMetaSent, heq⟩
  · exact ⟨[], s.sent ++ [batch], metaSent, heq⟩

/-- So does an upload of the rolling buffer. -/
theorem uploadBuffer_sends (s : State τ) (trigger : Trigger) (keepalive : Bool) :
    ∃ buffer sent metaSent, s.uploadBuffer trigger keepalive =
      { s with buffer := buffer, sent := sent, clientMetaSent := metaSent } := by
  rcases uploadBuffer_cases s trigger keepalive with heq | ⟨batch, metaSent, -, -, heq⟩
  · exact ⟨s.buffer, s.sent, s.clientMetaSent, heq⟩
  · exact ⟨s.buffer, s.sent ++ [batch], metaSent, heq⟩

theorem init_initialized (config : Config τ) (session : SessionHandle)
    (client : ClientMeta String) : (s.init config session client).initialized = true := by
  unfold init
  by_cases h : s.initialized = true
  · rw [if_pos h]
    exact h
  · rw [if_neg h]
    dsimp only
    split <;> rfl

end Frame

section Idle

variable {τ : Type} [LE τ] [DecidableLE τ] [Sub τ] [NatCast τ]
  {stringify : List (RawEvent τ) → String} {s : State τ}

theorem emit_initialized (raw : RawEvent τ) (isCheckout : Bool) (now : τ) :
    (s.emit stringify raw isCheckout now).initialized = s.initialized := by
  unfold emit
  split
  · rfl
  · unfold emitBuffered
    split_ifs <;> rfl
  · unfold emitAlways
    dsimp only
    split_ifs
    · rcases upload_cases { s with recorder := some (.always false) } [raw] .stream false with
        ⟨-, heq⟩ | ⟨batch, sent, -, heq⟩ <;> rw [heq]
    · obtain ⟨buffer, sent, metaSent, heq⟩ :=
        flush_sends stringify { s with buffer := s.buffer ++ [raw] } true false
      rw [heq]
    · rfl

/-- **The inputs that only send**: all but an event, `identify` and `stop`, once the module is
initialized. -/
theorem step_sends (stringify : List (RawEvent τ) → String) (h : s.initialized = true)
    {a : Action τ}
    (hemit : ∀ event isCheckout now, a ≠ .emit event isCheckout now)
    (hidentify : ∀ identifier, a ≠ .identify identifier) (hstop : a ≠ .stop) :
    ∃ buffer sent metaSent, s.step stringify a =
      { s with buffer := buffer, sent := sent, clientMetaSent := metaSent } := by
  have hsame : ∃ buffer sent metaSent,
      s = { s with buffer := buffer, sent := sent, clientMetaSent := metaSent } :=
    ⟨s.buffer, s.sent, s.clientMetaSent, rfl⟩
  cases a with
  | emit event isCheckout now => exact absurd rfl (hemit event isCheckout now)
  | identify identifier => exact absurd rfl (hidentify identifier)
  | stop => exact absurd rfl hstop
  | init config session client =>
    have hinit : s.init config session client = s := if_pos h
    rw [step, hinit]
    exact hsame
  | timer =>
    simp only [step]
    split_ifs
    · exact flush_sends stringify s true false
    · exact hsame
  | visibilityChange hidden =>
    simp only [step, onVisibilityChange]
    split_ifs
    · exact flush_sends stringify s true true
    · exact hsame
    · exact hsame
  | beforeUnload =>
    simp only [step, onBeforeUnload]
    split_ifs
    · exact flush_sends stringify s true true
    · exact hsame
    · exact hsame
  | error =>
    simp only [step, onError]
    split_ifs
    · exact uploadBuffer_sends s .error true
    · exact hsame
    · exact hsame
  | report =>
    simp only [step, report]
    split_ifs
    · exact uploadBuffer_sends s .manual false
    · exact flush_sends stringify s true false

/-- The module stays initialized until `stop`. -/
theorem initialized_step (h : s.initialized = true) {a : Action τ} (ha : a ≠ .stop) :
    (s.step stringify a).initialized = true := by
  cases a with
  | emit event isCheckout now => exact (emit_initialized event isCheckout now).trans h
  | identify identifier => exact h
  | stop => exact absurd rfl ha
  | _ =>
    obtain ⟨buffer, sent, metaSent, heq⟩ :=
      step_sends stringify h (by simp) (by simp) ha
    rw [heq]
    exact h

theorem run_concat (s : State τ) (actions : List (Action τ)) (a : Action τ) :
    s.run stringify (actions ++ [a]) = (s.run stringify actions).step stringify a :=
  List.foldl_concat (step stringify) s a actions

/-- **Between `stop` and `init` the module is as at its start.** -/
theorem idle_or_initialized (h : s.Reachable stringify) : s.Idle ∨ s.initialized = true := by
  obtain ⟨actions, rfl⟩ := h
  induction actions using List.reverseRecOn with
  | nil => exact Or.inl rfl
  | append_singleton actions a ih =>
    rw [run_concat]
    by_cases ha : a = .stop
    · rw [ha]
      exact Or.inl idle_stop
    rcases ih with hidle | hinit
    · rw [hidle]
      cases a with
      | init config session client => exact Or.inr (init_initialized config session client)
      | stop => exact absurd rfl ha
      | _ => exact Or.inl rfl
    · exact Or.inr (initialized_step hinit ha)

end Idle

end State

/-! ## Samples -/

/-- A stored session handle. -/
def sampleHandle : SessionHandle := ⟨sampleID, "token", by decide, by decide⟩

/-- Metadata of a browser. -/
def sampleClient : ClientMeta String := ⟨1920, 1080, 1280, 720, 1, "en-US", "UTC", "Mozilla/5.0"⟩

/-- The two required fields and the mode. -/
def sampleConfig (mode : Mode) : Config ℤ where
  endpoint := "https://rewind.example.com"
  apiKey := "key"
  mode := some mode

/-- An event without data. -/
abbrev bareEvent (type timestamp : ℤ) : RawEvent ℤ := ⟨type, .obj [], timestamp⟩

/-- A page load and two checkouts, the second of them flagged twice. -/
def sampleEmits : List (Action ℤ) :=
  [.emit (bareEvent 4 0) false 0, .emit (bareEvent 2 1) false 1, .emit (bareEvent 3 2) false 2,
    .emit (bareEvent 4 60000) true 60000, .emit (bareEvent 2 60001) false 60001,
    .emit (bareEvent 4 200000) true 200000, .emit (bareEvent 2 200001) true 200001]

/-- `JSON.stringify` on events without data. -/
def stringifyBare (buf : List (RawEvent ℤ)) : String :=
  "[" ++ ",".intercalate (buf.map fun e => "\x7b\"type\":" ++ toString e.type ++
    ",\"data\":\x7b\x7d,\"timestamp\":" ++ toString e.timestamp ++ "\x7d") ++ "]"

end Sdk

end BatRewind
