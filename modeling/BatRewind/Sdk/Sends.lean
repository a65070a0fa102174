import BatRewind.Lib.Log
import BatRewind.Sdk.Model

/-!
# What one input of the SDK sends

* `State.batch`: the call of `sendBatch` that `upload` makes.
* `State.keepaliveBuffer`: the events that the listeners hand over with `keepalive`.
* **`State.step_sent`**: an input sends nothing, or one batch of pending events under the names in
  the configuration; `State.step_keepalive`: a listener sends what it finds.
* `State.grows_sent`: so what was sent is a log of the run.
-/

namespace BatRewind

namespace Sdk

open Blocks Logs

namespace State

section Batch

variable {τ : Type} {stringify : List (RawEvent τ) → String} {s s' : State τ}
  {config : Config τ} {session : SessionHandle}

/-- The batch that `upload` hands to `sendBatch`. -/
def batch (s : State τ) (config : Config τ) (session : SessionHandle) (events : List (RawEvent τ))
    (trigger : Trigger) (keepalive : Bool) : Batch τ where
  endpoint := config.endpoint
  apiKey := config.apiKey
  payload :=
    { sessionId := session.id
      identifier := config.identifier.getD session.id
      serviceName := (config.serviceName.or config.service).getD "web"
      environment := config.environment.getD "production"
      batSessionId := config.batSessionId
      trigger := trigger
      shareToken := some session.shareToken
      client := if s.clientMetaSent then none else s.clientMeta
      events := events }
  keepalive := keepalive

theorem upload_eq (hc : s.config = some config) (hs : s.session = some session)
    (events : List (RawEvent τ)) (trigger : Trigger) (keepalive : Bool) :
    (s.upload events trigger keepalive).sent =
      s.sent ++ [s.batch config session events trigger keepalive] := by
  simp only [upload, hc, hs]
  rfl

/-- A forced flush sends the whole buffer. -/
theorem flush_eq (hc : s.config = some config) (hs : s.session = some session)
    (hne : s.buffer ≠ []) (keepalive : Bool) :
    (s.flush stringify true keepalive).sent =
      s.sent ++ [s.batch config session s.buffer .stream keepalive] := by
  have hguard : ¬ (s.config.isNone || s.session.isNone || s.buffer.isEmpty) = true := by
    simp [hc, hs, hne]
  unfold flush
  rw [if_neg hguard, if_neg (by simp)]
  exact upload_eq (s := { s with buffer := [] }) hc hs s.buffer .stream keepalive

/-- So does an upload of the rolling buffer. -/
theorem uploadBuffer_eq (hc : s.config = some config) (hs : s.session = some session)
    (hne : s.segments.flatten ≠ []) (trigger : Trigger) (keepalive : Bool) :
    (s.uploadBuffer trigger keepalive).sent =
      s.sent ++ [s.batch config session s.segments.flatten trigger keepalive] := by
  have hguard : ¬ (s.config.isNone || s.session.isNone) = true := by simp [hc, hs]
  have hempty : ¬ s.segments.flatten.isEmpty = true := by rwa [List.isEmpty_iff]
  unfold uploadBuffer
  rw [if_neg hguard, if_neg hempty]
  exact upload_eq hc hs s.segments.flatten trigger keepalive

/-- **From `s` nothing more is sent, or one batch** of events that satisfy `P`, with `keepalive` as
given. -/
def SendsOne (s : State τ) (sent : List (Batch τ)) (P : List (RawEvent τ) → Bool → Prop) : Prop :=
  sent = s.sent ∨ ∃ config session events trigger keepalive, s.config = some config ∧
    s.session = some session ∧ events ≠ [] ∧ P events keepalive ∧
    sent = s.sent ++ [s.batch config session events trigger keepalive]

variable {P : List (RawEvent τ) → Bool → Prop} {keepalive : Bool}

theorem upload_sendsOne {events : List (RawEvent τ)} (hne : events ≠ []) (hP : P events keepalive)
    (trigger : Trigger) : s.SendsOne (s.upload events trigger keepalive).sent P := by
  cases hc : s.config with
  | none => exact Or.inl (by simp [upload, hc])
  | some config =>
    cases hs : s.session with
    | none => exact Or.inl (by simp [upload, hc, hs])
    | some session =>
      exact Or.inr ⟨config, session, events, trigger, keepalive, hc, hs, hne, hP,
        upload_eq hc hs events trigger keepalive⟩

/-- A flush sends the buffer. -/
theorem flush_sendsOne (hP : P s.buffer keepalive) (force : Bool) :
    s.SendsOne (s.flush stringify force keepalive).sent P := by
  unfold flush
  split_ifs with h₁ h₂
  · exact Or.inl rfl
  · exact Or.inl rfl
  · have hne : s.buffer ≠ [] := by
      intro hnil
      simp [hnil] at h₁
    exact upload_sendsOne (s := { s with buffer := [] }) hne hP .stream

/-- An upload of the rolling buffer sends it. -/
theorem uploadBuffer_sendsOne (hP : P s.segments.flatten keepalive) (trigger : Trigger) :
    s.SendsOne (s.uploadBuffer trigger keepalive).sent P := by
  unfold uploadBuffer
  split_ifs with h₁ h₂
  · exact Or.inl rfl
  · exact Or.inl rfl
  · exact upload_sendsOne (by simpa using h₂) hP trigger

theorem SendsOne.mono {sent : List (Batch τ)} {P' : List (RawEvent τ) → Bool → Prop}
    (h : s.SendsOne sent P) (hP : ∀ events keepalive, P events keepalive → P' events keepalive) :
    s.SendsOne sent P' := by
  rcases h with h | ⟨config, session, events, trigger, keepalive, hc, hs, hne, hPe, hsent⟩
  · exact Or.inl h
  · exact Or.inr ⟨config, session, events, trigger, keepalive, hc, hs, hne, hP _ _ hPe, hsent⟩

/-- What was sent stays sent. -/
theorem SendsOne.isPrefix {sent : List (Batch τ)} (h : s.SendsOne sent P) : s.sent <+: sent := by
  rcases h with h | ⟨config, session, events, trigger, keepalive, -, -, -, -, h⟩
  · exact h ▸ List.prefix_rfl
  · exact h ▸ List.prefix_append _ _

end Batch

section Step

variable {τ : Type} [LE τ] [DecidableLE τ] [Sub τ] [NatCast τ]
  {stringify : List (RawEvent τ) → String} {s : State τ}

/-- The events that an input hands over with `keepalive`: the buffer when the page is hidden or
left, the rolling buffer at an error. -/
def keepaliveBuffer (s : State τ) : Action τ → List (RawEvent τ)
  | .visibilityChange hidden => if s.pageListeners && hidden && !s.isBuffered then s.buffer else []
  | .beforeUnload => if s.pageListeners && !s.isBuffered then s.buffer else []
  | .error =>
    if s.errorListeners && s.config.bind Config.captureOnError ≠ some false then s.segments.flatten
    else []
  | _ => []

/-- The trigger of such an upload. -/
def keepaliveTrigger {τ : Type} : Action τ → Trigger
  | .error => .error
  | _ => .stream

/-- **What one input sends.** -/
theorem step_sent (stringify : List (RawEvent τ) → String) (s : State τ) (a : Action τ) :
    s.SendsOne (s.step stringify a).sent fun events keepalive =>
      keepalive = true → events = s.keepaliveBuffer a := by
  have hsame : s.SendsOne s.sent fun events keepalive =>
      keepalive = true → events = s.keepaliveBuffer a := Or.inl rfl
  cases a with
  | init config session client =>
    simp only [step, init]
    split_ifs
    · exact hsame
    · exact Or.inl rfl
    · exact Or.inl rfl
  | emit event isCheckout now =>
    simp only [step, emit]
    split
    · exact hsame
    · unfold emitBuffered
      split_ifs <;> exact Or.inl rfl
    · unfold emitAlways
      dsimp only
      split_ifs
      · exact upload_sendsOne (s := { s with recorder := some (.always false) }) (by simp) (by simp)
          .stream
      · exact flush_sendsOne (s := { s with buffer := s.buffer ++ [event] }) (by simp) true
      · exact Or.inl rfl
  | timer =>
    simp only [step]
    split_ifs
    · exact flush_sendsOne (by simp) true
    · exact hsame
  | visibilityChange hidden =>
    simp only [step, onVisibilityChange]
    split_ifs with h₁ h₂
    · exact flush_sendsOne (by simp_all [keepaliveBuffer]) true
    · exact hsame
    · exact hsame
  | beforeUnload =>
    simp only [step, onBeforeUnload]
    split_ifs with h₁ h₂
    · exact flush_sendsOne (by simp_all [keepaliveBuffer]) true
    · exact hsame
    · exact hsame
  | error =>
    simp only [step, onError]
    split_ifs with h₁ h₂
    · exact uploadBuffer_sendsOne (by simp_all [keepaliveBuffer]) .error
    · exact hsame
    · exact hsame
  | report =>
    simp only [step, report]
    split_ifs
    · exact uploadBuffer_sendsOne (by simp) .manual
    · exact flush_sendsOne (by simp) true
  | identify identifier => exact Or.inl rfl
  | stop =>
    simp only [step, stop]
    split_ifs
    · exact flush_sendsOne (s := { s with
        timer := false, recorder := none, pageListeners := false, errorListeners := false })
        (by simp) true
    · exact Or.inl rfl

/-- **A listener sends what it finds.** -/
theorem step_keepalive (stringify : List (RawEvent τ) → String) {config : Config τ}
    {session : SessionHandle} (hc : s.config = some config) (hs : s.session = some session)
    {a : Action τ} (hne : s.keepaliveBuffer a ≠ []) :
    (s.step stringify a).sent =
      s.sent ++ [s.batch config session (s.keepaliveBuffer a) (keepaliveTrigger a) true] := by
  cases a with
  | visibilityChange hidden =>
    simp only [keepaliveBuffer] at hne ⊢
    split_ifs at hne ⊢ with h
    · simp only [Bool.and_eq_true] at h
      simpa [step, onVisibilityChange, keepaliveTrigger, h] using flush_eq hc hs hne true
    · exact absurd rfl hne
  | beforeUnload =>
    simp only [keepaliveBuffer] at hne ⊢
    split_ifs at hne ⊢ with h
    · simp only [Bool.and_eq_true] at h
      simpa [step, onBeforeUnload, keepaliveTrigger, h] using flush_eq hc hs hne true
    · exact absurd rfl hne
  | error =>
    simp only [keepaliveBuffer] at hne ⊢
    split_ifs at hne ⊢ with h
    · simp only [Bool.and_eq_true, decide_eq_true_eq] at h
      simp only [step, onError]
      rw [if_pos h.1, if_pos h.2]
      exact uploadBuffer_eq hc hs hne .error true
    · exact absurd rfl hne
  | _ => exact absurd rfl hne

theorem grows_sent (stringify : List (RawEvent τ) → String) :
    Grows (step stringify) (State.sent : State τ → _) :=
  fun s a => (step_sent stringify s a).isPrefix

end Step

end State

end Sdk

end BatRewind
