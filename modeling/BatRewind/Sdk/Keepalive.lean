import Mathlib.Algebra.Order.BigOperators.Group.List
import Mathlib.Tactic.Linarith
import BatRewind.Lib.JsonText
import BatRewind.Sdk.Pending
import BatRewind.Sdk.Sends
import BatRewind.Sdk.Upload

/-!
# The size of the uploads made with `keepalive`

Browsers refuse a request with `keepalive` whose body is larger than 64 KiB. The listeners for a
hidden page, for leaving it and for errors hand over all that is pending.

* `bodySize`: the bytes of `JSON.stringify(payload)`; `bodySize_eq`: those of its entries and of its
  events.
* `Fits`: the names given to `init` and the events that the inputs leave pending fit in a request.
* **`keepalive_within_limit_iff`**: no request with `keepalive` of a run is too large exactly if
  they fit whenever a listener is called, which is so if the flush threshold is low enough or little
  is emitted; `error_exceeds_limit`: an error can find more.
-/

namespace BatRewind

namespace Sdk

open Encoding JsonText Logs

/-! ## The body of an upload -/

section Size

variable (num : ℚ → List Char)

/-- The text of a buffer. -/
def stringifyEvents (events : List (RawEvent ℤ)) : String :=
  String.ofList (text num (.arr (events.map fun e => encodeEvent e.stored)))

/-- The bytes of the body of an upload. -/
def bodySize (p : BatchPayload ℤ) : ℕ := size (text num p.body)

/-- The largest body of a request with `keepalive`. -/
def keepaliveLimit : ℕ := 65536

/-- The bytes that an event takes in a body, with a comma or a bracket. -/
def eventSize (e : RawEvent ℤ) : ℕ := size (text num (encodeEvent e.stored)) + 1

/-- The entries of a body before the events. -/
def BatchPayload.names (p : BatchPayload ℤ) : List (String × Json) :=
  [("session_id", .str p.sessionId), ("identifier", .str p.identifier),
    ("service_name", .str p.serviceName), ("environment", .str p.environment)] ++
    (p.batSessionId.toList.map fun id => ("bat_session_id", .str id)) ++
    [("trigger", .str p.trigger.text)] ++
    (p.shareToken.toList.map fun token => ("share_token", .str token)) ++
    (p.client.toList.map fun client => ("client", encodeClient (some client)))

theorem size_events {events : List (RawEvent ℤ)} (hne : events ≠ []) :
    size (text num (.arr (events.map fun e => encodeEvent e.stored))) =
      (events.map (eventSize num)).sum + 1 := by
  rw [size_text_arr (by simpa using hne), List.map_map]
  rfl

/-- **The bytes of a body**: those of its entries and of its events, and twelve for the name of the
events and what surrounds them. -/
theorem bodySize_eq {p : BatchPayload ℤ} (hne : p.events ≠ []) :
    bodySize num p =
      (p.names.map (entrySize num)).sum + (p.events.map (eventSize num)).sum + 12 := by
  have hbody : p.body =
      .obj (p.names ++ [("events", .arr (p.events.map fun e => encodeEvent e.stored))]) := rfl
  have hquote : size (quote "events") = 8 := rfl
  rw [bodySize, hbody, size_text_obj (by simp), List.map_append, List.sum_append,
    List.map_singleton, List.sum_singleton, entrySize, hquote, size_events num hne]
  omega

theorem bufferSize_stringifyEvents {events : List (RawEvent ℤ)} (hne : events ≠ []) :
    State.bufferSize (stringifyEvents num) events = (events.map (eventSize num)).sum + 1 := by
  rw [← size_events num hne, State.bufferSize, stringifyEvents, utf8, String.toList_ofList]
  rfl

/-- Fewer events take fewer bytes. -/
theorem sum_eventSize_le {events events' : List (RawEvent ℤ)} (h : events.Sublist events') :
    (events.map (eventSize num)).sum ≤ (events'.map (eventSize num)).sum :=
  (h.map (eventSize num)).sum_le_sum fun _ _ => Nat.zero_le _

end Size

/-! ## What fits -/

section Fits

variable (num : ℚ → List Char) (config : Config ℤ) (session : SessionHandle)
  (client : ClientMeta String) (inputs : List (Action ℤ))

/-- The input calls a listener that uploads with `keepalive`. -/
def Config.keepalive {τ : Type} (config : Config τ) : Action τ → Bool
  | .visibilityChange hidden => config.streams && hidden
  | .beforeUnload => config.streams
  | .error => !config.streams && config.captureOnError ≠ some false
  | _ => false

/-- The device metadata goes with the first upload. -/
def Config.attached (config : Config ℤ) (client : ClientMeta String) (inputs : List (Action ℤ)) :
    Option (ClientMeta String) :=
  if config.uploaded (stringifyEvents num) inputs then none else config.clientMeta client

/-- **The entries around the events** that a listener hands over after the inputs. -/
def envelope : List (String × Json) :=
  [("session_id", .str session.id),
    ("identifier", .str ((config.identified inputs).identifier.getD session.id)),
    ("service_name", .str ((config.serviceName.or config.service).getD "web")),
    ("environment", .str (config.environment.getD "production"))] ++
    (config.batSessionId.toList.map fun id => ("bat_session_id", .str id)) ++
    [("trigger", .str (if config.streams then "stream" else "error"))] ++
    [("share_token", .str session.shareToken)] ++
    ((config.attached num client inputs).toList.map fun client =>
      ("client", encodeClient (some client)))

/-- **What is pending fits in a request with `keepalive`.** -/
def Fits : Prop :=
  config.pending (stringifyEvents num) inputs ≠ [] →
    ((envelope num config session client inputs).map (entrySize num)).sum +
      ((config.pending (stringifyEvents num) inputs).map (eventSize num)).sum + 12 ≤ keepaliveLimit

variable {num config session client inputs}

/-- It does if all that was emitted does. -/
theorem Fits.of_emitted (h : ((envelope num config session client inputs).map (entrySize num)).sum +
    ((emitted inputs).map (eventSize num)).sum + 12 ≤ keepaliveLimit) :
    Fits num config session client inputs := by
  intro _
  have hle := sum_eventSize_le num (config.pending_sublist (stringifyEvents num) inputs)
  omega

/-- **In mode `always` it does** if the flush threshold leaves room. -/
theorem Fits.of_threshold (hmode : config.streams = true)
    (h : (((envelope num config session client inputs).map (entrySize num)).sum : ℚ) +
      config.maxBytes + 11 ≤ keepaliveLimit) : Fits num config session client inputs := by
  intro hne
  have hpending : config.pending (stringifyEvents num) inputs =
      waiting (stringifyEvents num) config.maxBytes inputs := if_pos hmode
  rw [hpending] at hne ⊢
  have hsmall := (waiting_small (stringifyEvents num) config.maxBytes inputs).resolve_left hne
  rw [bufferSize_stringifyEvents num hne, Nat.cast_add, Nat.cast_one] at hsmall
  have hsum : (((envelope num config session client inputs).map (entrySize num)).sum : ℚ) +
      ((waiting (stringifyEvents num) config.maxBytes inputs).map (eventSize num)).sum + 12 ≤
        keepaliveLimit := by linarith
  exact_mod_cast hsum

end Fits

/-! ## Runs -/

section Runs

variable (num : ℚ → List Char)

/-- The request is made without `keepalive`, or is small enough. -/
def WithinLimit (b : Batch ℤ) : Prop := b.keepalive = true → bodySize num b.payload ≤ keepaliveLimit

variable {num} {config : Config ℤ} {session : SessionHandle} {client : ClientMeta String}
  {inputs : List (Action ℤ)} {s : State ℤ}

/-- A listener finds what the inputs leave pending. -/
theorem Holding.keepaliveBuffer (h : Holding (stringifyEvents num) config session client inputs s)
    (a : Action ℤ) : s.keepaliveBuffer a =
      if config.keepalive a then config.pending (stringifyEvents num) inputs else [] := by
  have hpending : config.pending (stringifyEvents num) inputs =
      if config.streams then s.buffer else s.segments.flatten := by
    rw [Config.pending, h.buffer, h.segments]
    by_cases hmode : config.streams = true <;> simp [hmode]
  cases a with
  | visibilityChange hidden =>
    simp only [State.keepaliveBuffer, Config.keepalive, h.pageListeners, h.isBuffered, hpending]
    by_cases hmode : config.streams = true <;> simp [hmode]
  | beforeUnload =>
    simp only [State.keepaliveBuffer, Config.keepalive, h.pageListeners, h.isBuffered, hpending]
    by_cases hmode : config.streams = true <;> simp [hmode]
  | error =>
    simp only [State.keepaliveBuffer, Config.keepalive, h.errorListeners, h.captureOnError,
      hpending]
    by_cases hmode : config.streams = true <;> simp [hmode]
  | _ => rfl

/-- The names of a request with `keepalive`. -/
theorem Holding.names (h : Holding (stringifyEvents num) config session client inputs s)
    {a : Action ℤ} (ha : config.keepalive a = true) (events : List (RawEvent ℤ)) :
    (s.batch (config.identified inputs) session events (State.keepaliveTrigger a)
      true).payload.names =
      envelope num config session client inputs := by
  obtain ⟨identifier, hid⟩ := identified_fields config inputs
  have htrigger :
      (State.keepaliveTrigger a).text = if config.streams then "stream" else "error" := by
    cases a <;> simp_all [Config.keepalive, State.keepaliveTrigger, Trigger.text]
  have hclient : (if s.clientMetaSent then none else s.clientMeta) =
      config.attached num client inputs := by
    rw [h.metaSent, h.clientMeta, Config.attached]
    cases config.uploaded (stringifyEvents num) inputs <;>
      cases config.clientMeta client <;> rfl
  simp only [BatchPayload.names, State.batch, envelope, htrigger, hclient, hid]
  rfl

/-- **One input.** -/
theorem Holding.added_withinLimit_iff
    (h : Holding (stringifyEvents num) config session client inputs s) (a : Action ℤ) :
    (∀ b ∈ added (State.step (stringifyEvents num)) State.sent s a, WithinLimit num b) ↔
      (config.keepalive a = true → Fits num config session client inputs) := by
  have hbuffer := h.keepaliveBuffer a
  by_cases hne : s.keepaliveBuffer a = []
  · -- nothing is handed over with `keepalive`
    refine iff_of_true (fun b hb => ?_) fun ha => ?_
    · rcases State.step_sent (stringifyEvents num) s a with
        heq | ⟨config, session, events, trigger, keepalive, -, -, hevents, hkeep, heq⟩
      · rw [added_eq (heq.trans (List.append_nil _).symm)] at hb
        cases hb
      · rw [added_eq heq, List.mem_singleton] at hb
        subst hb
        intro hk
        exact absurd ((hkeep hk).trans hne) hevents
    · rw [hne, if_pos ha] at hbuffer
      exact fun hpending => absurd hbuffer.symm hpending
  · have ha : config.keepalive a = true := by
      by_contra hno
      rw [if_neg hno] at hbuffer
      exact hne hbuffer
    rw [if_pos ha] at hbuffer
    have hevents : (s.batch (config.identified inputs) session (s.keepaliveBuffer a)
        (State.keepaliveTrigger a) true).payload.events =
          config.pending (stringifyEvents num) inputs := hbuffer
    rw [added_eq (State.step_keepalive (stringifyEvents num) h.identified h.session hne),
      List.forall_mem_singleton, WithinLimit, bodySize_eq num hne, h.names ha, hevents]
    exact ⟨fun hfits _ _ => hfits rfl, fun hfits _ => hfits ha (hbuffer ▸ hne)⟩

/-- A module that is not initialized sends nothing. -/
theorem added_idle (hidle : s.Idle) (a : Action ℤ) :
    added (State.step (stringifyEvents num)) State.sent s a = [] := by
  have hnone : s.config = none := by rw [hidle]
  rcases State.step_sent (stringifyEvents num) s a with
    heq | ⟨config, session, events, trigger, keepalive, hc, -⟩
  · exact added_eq (heq.trans (List.append_nil _).symm)
  · rw [hnone] at hc
    cases hc

/-! ## Main theorem -/

variable (num)

/-- **No request with `keepalive` of a run is too large exactly if what is pending fits** whenever
a listener is called: the names given to the last `init` that counts and the events that the inputs
since leave pending. They do if the flush threshold of mode `always` leaves room for the names, or
if all that was emitted fits. -/
theorem keepalive_within_limit_iff (actions : List (Action ℤ)) :
    ((∀ b ∈ (State.run (stringifyEvents num) {} actions).sent, b.keepalive = true →
        bodySize num b.payload ≤ keepaliveLimit) ↔
      ∀ before config session client inputs a after,
        actions = before ++ .init config session client :: inputs ++ a :: after → Ended before →
        .stop ∉ inputs → config.keepalive a = true → Fits num config session client inputs) ∧
    ∀ config session client inputs,
      (config.streams = true ∧
          (((envelope num config session client inputs).map (entrySize num)).sum : ℚ) +
            config.maxBytes + 11 ≤ keepaliveLimit) ∨
        ((envelope num config session client inputs).map (entrySize num)).sum +
          ((emitted inputs).map (eventSize num)).sum + 12 ≤ keepaliveLimit →
      Fits num config session client inputs := by
  constructor
  · have hlog := (State.grows_sent (stringifyEvents num)).forall_iff (WithinLimit num) {} actions
    refine hlog.trans ⟨fun h => ?_, fun h => ⟨by simp, ?_⟩⟩
    · intro before config session client inputs a after heq hended hstop ha
      have hholding := hended.holding hstop (stringifyEvents num) config session client
      exact (hholding.added_withinLimit_iff a).1 (h.2 _ a ⟨_, after, heq, rfl⟩) ha
    · rintro s a ⟨taken, after, heq, rfl⟩
      have hreach : State.Reachable (stringifyEvents num)
        (State.run (stringifyEvents num) {} taken) := ⟨taken, rfl⟩
      rcases State.idle_or_initialized hreach with hidle | hinit
      · have hnone : added (State.step (stringifyEvents num)) State.sent
            (taken.foldl (State.step (stringifyEvents num)) {}) a = [] := added_idle hidle a
        rw [hnone]
        simp
      · obtain ⟨before, config, session, client, inputs, rfl, hended, hstop⟩ :=
          exists_recording (stringifyEvents num) taken hinit
        have hholding :=
          hended.holding hstop (stringifyEvents num) config session client
        exact (hholding.added_withinLimit_iff a).2
          (h before config session client inputs a after heq hended hstop)
  · rintro config session client inputs (⟨hmode, hroom⟩ | hroom)
    · exact Fits.of_threshold hmode hroom
    · exact Fits.of_emitted hroom

end Runs

section Errors

variable (num : ℚ → List Char)

/-- A FullSnapshot with a text in it. -/
def textSnapshot (content : String) : RawEvent ℤ := ⟨2, .obj [("textContent", .str content)], 0⟩

/-- An error right after the FullSnapshot of a page. -/
def errorOn (content : String) : List (Action ℤ) :=
  [.init (sampleConfig .buffered) sampleHandle sampleClient,
    .emit (textSnapshot content) false 0, .error]

theorem length_lt_eventSize (content : String) :
    content.toList.length < eventSize num (textSnapshot content) := by
  have hquote := length_le_quote content
  have hsize := length_le_size (text num (encodeEvent (textSnapshot content).stored))
  refine Nat.lt_succ_of_le (le_trans ?_ hsize)
  simp only [encodeEvent, textSnapshot, RawEvent.stored, text, entries, List.length_cons,
    List.length_append]
  omega

/-- All that was recorded is handed over with `keepalive`. -/
theorem exists_error_upload (content : String) :
    ∃ b ∈ (State.run (stringifyEvents num) {} (errorOn content)).sent, b.keepalive = true ∧
      content.toList.length < bodySize num b.payload := by
  refine ⟨_, List.mem_cons_self, rfl, ?_⟩
  have hevent := length_lt_eventSize num content
  rw [bodySize_eq num (List.cons_ne_nil _ _)]
  change _ < _ + ([textSnapshot content].map (eventSize num)).sum + 12
  rw [List.map_singleton, List.sum_singleton]
  omega

end Errors

/-- The decimal text of an integer. -/
def integerText (q : ℚ) : List Char := (toString q.num).toList

/-- An error on a page with a text of 65536 letters. -/
theorem error_exceeds_limit : ¬ ∀ actions : List (Action ℤ),
    ∀ b ∈ (State.run (stringifyEvents integerText) {} actions).sent, b.keepalive = true →
      bodySize integerText b.payload ≤ keepaliveLimit := by
  intro hall
  obtain ⟨b, hb, hkeepalive, hlarge⟩ :=
    exists_error_upload integerText (String.ofList (List.replicate 65536 'a'))
  have hsmall := hall _ b hb hkeepalive
  rw [String.toList_ofList, List.length_replicate] at hlarge
  exact absurd hsmall (Nat.not_le_of_lt hlarge)

end Sdk

end BatRewind
