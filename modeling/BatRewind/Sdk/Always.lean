import BatRewind.Sdk.Model

/-!
# Mode `always`: every event is handed over once

Five triggers drain one buffer while the first FullSnapshot goes ahead of it, and `stop` flushes
what is left before it resets the module.

* `HandedOver p first handed buffer emitted`: the bookkeeping of a buffer that the first element
  with `p` overtakes. It is kept by a flush, by an element that is buffered and by the one that goes
  ahead; `HandedOver.perm` and `HandedOver.eraseP_eq` read it.
* `Streaming`: the invariant of the module between `init` and `stop`.
* **`always_exactly_once`**: every emitted event is handed to `sendBatch` exactly once, in order but
  for the first FullSnapshot.
-/

namespace BatRewind

namespace Sdk

open Encoding Blocks

/-! ## A buffer with one element that goes ahead -/

section HandedOver

variable {α : Type} {p : α → Bool} {first : Bool} {handed buffer emitted : List α} {x : α}

/-- **What was handed over and what is buffered make up what was emitted.** Until the first element
with `p` the order is that of emission; that element is handed over when it is emitted, and the
others keep their order. -/
inductive HandedOver (p : α → Bool) : Bool → List α → List α → List α → Prop
  | before (handed buffer emitted : List α) (heq : handed ++ buffer = emitted)
      (hnone : ∀ e ∈ emitted, p e = false) : HandedOver p true handed buffer emitted
  | after (a b buffer c d : List α) (x : α) (hx : p x = true) (ha : ∀ e ∈ a, p e = false)
      (hc : ∀ e ∈ c, p e = false) (heq : a ++ b ++ buffer = c ++ d) :
      HandedOver p false (a ++ x :: b) buffer (c ++ x :: d)

namespace HandedOver

theorem nil : HandedOver p true [] [] [] := .before [] [] [] rfl (by simp)

/-- The buffer is handed over. -/
theorem flush (h : HandedOver p first handed buffer emitted) :
    HandedOver p first (handed ++ buffer) [] emitted := by
  cases h with
  | before _ _ _ heq hnone => exact .before _ _ _ (by rw [List.append_nil, heq]) hnone
  | after a b _ c d x hx ha hc heq =>
    have hsplit : a ++ x :: b ++ buffer = a ++ x :: (b ++ buffer) := by simp
    rw [hsplit]
    exact .after a (b ++ buffer) [] c d x hx ha hc (by simpa using heq)

/-- An element is buffered. -/
theorem push (h : HandedOver p first handed buffer emitted) (hx : first = true → p x = false) :
    HandedOver p first handed (buffer ++ [x]) (emitted ++ [x]) := by
  cases h with
  | before _ _ _ heq hnone =>
    refine .before _ _ _ (by rw [← List.append_assoc, heq]) fun e he => ?_
    rcases List.mem_append.mp he with he | he
    · exact hnone e he
    · rw [List.mem_singleton.mp he]
      exact hx rfl
  | after a b _ c d y hy ha hc heq =>
    have hsplit : c ++ y :: d ++ [x] = c ++ y :: (d ++ [x]) := by simp
    rw [hsplit]
    exact .after a b _ c (d ++ [x]) y hy ha hc (by rw [← List.append_assoc, heq, List.append_assoc])

/-- The first element with `p` goes ahead. -/
theorem ahead (h : HandedOver p true handed buffer emitted) (hx : p x = true) :
    HandedOver p false (handed ++ [x]) buffer (emitted ++ [x]) := by
  cases h with
  | before _ _ _ heq hnone =>
    have hhanded : ∀ e ∈ handed, p e = false := fun e he =>
      hnone e (heq ▸ List.mem_append_left _ he)
    exact .after handed [] buffer emitted [] x hx hhanded hnone (by simpa using heq)

/-- Nothing is lost and nothing is handed over twice. -/
theorem perm (h : HandedOver p first handed buffer emitted) : (handed ++ buffer).Perm emitted := by
  cases h with
  | before _ _ _ heq _ => rw [heq]
  | after a b _ c d x _ _ _ heq =>
    have hleft : (a ++ x :: b ++ buffer).Perm (x :: (a ++ b ++ buffer)) := by
      rw [List.append_assoc, List.append_assoc]
      exact List.perm_middle
    have hright : (c ++ x :: d).Perm (x :: (c ++ d)) := List.perm_middle
    exact hleft.trans (heq ▸ hright.symm)

theorem eraseP_middle {a b : List α} (hx : p x = true) (ha : ∀ e ∈ a, p e = false) :
    (a ++ x :: b).eraseP p = a ++ b := by
  rw [List.eraseP_append_right _ fun e he => by simp [ha e he], List.eraseP_cons_of_pos hx]

/-- The order is kept, but for the first element with `p`. -/
theorem eraseP_eq (h : HandedOver p first handed buffer emitted) :
    handed.eraseP p ++ buffer = emitted.eraseP p := by
  cases h with
  | before _ _ _ heq hnone =>
    have hnone' : ∀ e ∈ handed, p e = false := fun e he => hnone e (heq ▸ List.mem_append_left _ he)
    rw [List.eraseP_of_forall_not fun e he => by simp [hnone' e he],
      List.eraseP_of_forall_not fun e he => by simp [hnone e he], heq]
  | after a b _ c d x hx ha hc heq => rw [eraseP_middle hx ha, eraseP_middle hx hc, heq]

end HandedOver

end HandedOver

/-! ## The invariant -/

/-- The events of the batches. -/
def eventsOf {τ : Type} (batches : List (Batch τ)) : List (RawEvent τ) :=
  batches.flatMap fun b => b.payload.events

def isFullSnapshot {τ : Type} (e : RawEvent τ) : Bool := e.type = fullSnapshot

/-- The module records in mode `always`, since `sent₀` was sent and with `events` emitted. -/
structure Recording {τ : Type} (maxBytes : ℚ) (sent₀ : List (Batch τ)) (events : List (RawEvent τ))
    (s : State τ) : Prop where
  config : s.config ≠ none
  session : s.session ≠ none
  mode : s.isBuffered = false
  limit : s.flushMaxBytes = maxBytes
  initialized : s.initialized = true
  segments : s.segments = []
  handed : ∃ first batches, s.recorder = some (.always first) ∧ s.sent = sent₀ ++ batches ∧
    HandedOver isFullSnapshot first (eventsOf batches) s.buffer events ∧
    ∀ b ∈ batches, b.payload.events ≠ []

/-- **The invariant**: the module records, and the buffer is empty or below the limit. -/
structure Streaming {τ : Type} (stringify : List (RawEvent τ) → String) (maxBytes : ℚ)
    (sent₀ : List (Batch τ)) (events : List (RawEvent τ)) (s : State τ) : Prop
    extends Recording maxBytes sent₀ events s where
  small : s.buffer = [] ∨ (State.bufferSize stringify s.buffer : ℚ) < maxBytes

section Streaming

variable {τ : Type} {stringify : List (RawEvent τ) → String} {maxBytes : ℚ}
  {sent₀ : List (Batch τ)} {events : List (RawEvent τ)} {s : State τ}

/-- **A forced flush empties the buffer.** -/
theorem Recording.flush (h : Recording maxBytes sent₀ events s) (keepalive : Bool) :
    Streaming stringify maxBytes sent₀ events (s.flush stringify true keepalive) ∧
      (s.flush stringify true keepalive).buffer = [] := by
  rcases State.flush_cases stringify s true keepalive with
    ⟨heq, hnone⟩ | ⟨hne, batch, sent, hev, heq⟩
  · have hbuf : s.buffer = [] :=
      ((hnone rfl).resolve_left h.config).resolve_left h.session
    rw [heq]
    exact ⟨⟨h, Or.inl hbuf⟩, hbuf⟩
  · rw [heq]
    obtain ⟨first, batches, hrec, hsent, hhanded, hbatches⟩ := h.handed
    have hflush : HandedOver isFullSnapshot first (eventsOf (batches ++ [batch])) [] events := by
      simpa [eventsOf, hev] using hhanded.flush
    exact ⟨⟨⟨h.config, h.session, h.mode, h.limit, h.initialized, h.segments,
      ⟨first, batches ++ [batch], hrec, by simp [hsent], hflush,
        List.forall_mem_append.mpr ⟨hbatches, List.forall_mem_singleton.mpr (hev ▸ hne)⟩⟩⟩,
      Or.inl rfl⟩, rfl⟩

theorem Streaming.emitAlways (h : Streaming stringify maxBytes sent₀ events s) {first : Bool}
    (hrec : s.recorder = some (.always first)) (raw : RawEvent τ) :
    Streaming stringify maxBytes sent₀ (events ++ [raw]) (s.emitAlways stringify first raw) := by
  obtain ⟨first', batches, hrec', hsent, hhanded, hbatches⟩ := h.handed
  obtain rfl : first = first' := by simpa [hrec] using hrec'
  by_cases hsnap : raw.type = fullSnapshot ∧ first = true
  · -- the first FullSnapshot is handed over at once
    rw [State.emitAlways, if_pos hsnap]
    obtain ⟨htype, rfl⟩ := hsnap
    have hahead := hhanded.ahead (x := raw) (by simpa [isFullSnapshot] using htype)
    rcases State.upload_cases { s with recorder := some (.always false) } [raw] .stream false with
      ⟨hnone, -⟩ | ⟨batch, sent, hev, heq⟩
    · exact absurd hnone (not_or.mpr ⟨h.config, h.session⟩)
    · rw [heq]
      refine ⟨⟨h.config, h.session, h.mode, h.limit, h.initialized, h.segments,
        ⟨false, batches ++ [batch], rfl, by simp [hsent], ?_,
          List.forall_mem_append.mpr ⟨hbatches, by simp [hev]⟩⟩⟩, h.small⟩
      simpa [eventsOf, hev] using hahead
  · rw [State.emitAlways, if_neg hsnap]
    have hpush : Recording maxBytes sent₀ (events ++ [raw]) { s with buffer := s.buffer ++ [raw] } :=
      ⟨h.config, h.session, h.mode, h.limit, h.initialized, h.segments,
        ⟨first, batches, hrec, hsent, hhanded.push fun hfirst => by
          simpa [isFullSnapshot, hfirst] using hsnap, hbatches⟩⟩
    dsimp only
    split_ifs with hsize
    · exact (hpush.flush false).1
    · have hlimit := hpush.limit
      rw [hlimit, not_le] at hsize
      exact ⟨hpush, Or.inr hsize⟩

/-- What `init` sets in mode `always`. -/
theorem init_always {s₀ : State τ} (hidle : s₀.Idle) {config : Config τ}
    (hmode : config.mode = some .always) (session : SessionHandle) (client : ClientMeta String) :
    s₀.init config session client = { s₀ with
      initialized := true, config := some config, session := some session,
      clientMeta := config.clientMeta client, clientMetaSent := false,
      recorder := some (.always true), timer := true, pageListeners := true } := by
  rw [hidle]
  simp [State.init, State.isBuffered, hmode]

/-- `init` starts with nothing emitted. -/
theorem streaming_init (stringify : List (RawEvent τ) → String) {s₀ : State τ} (hidle : s₀.Idle)
    (config : Config τ) (hmode : config.mode = some .always) (session : SessionHandle)
    (client : ClientMeta String) :
    Streaming stringify (config.flushMaxBytes.getD flushMaxBytesDefault) s₀.sent []
      (s₀.init config session client) := by
  have hbuffer : s₀.buffer = [] := by rw [hidle]
  have hsegments : s₀.segments = [] := by rw [hidle]
  rw [init_always hidle hmode]
  refine ⟨⟨by simp, by simp, by simp [State.isBuffered, hmode], rfl, rfl, hsegments,
    ⟨true, [], rfl, by simp, ?_, by simp⟩⟩, Or.inl hbuffer⟩
  simpa [eventsOf, hbuffer] using HandedOver.nil

/-- `stop` hands over what is left. -/
theorem Recording.stop (stringify : List (RawEvent τ) → String)
    (h : Recording maxBytes sent₀ events s) :
    ∃ last, (s.stop stringify).sent = s.sent ++ last ∧ eventsOf last = s.buffer ∧
      ∀ b ∈ last, b.payload.events ≠ [] := by
  have hmode : State.isBuffered { s with
      timer := false, recorder := none, pageListeners := false, errorListeners := false } =
      false := h.mode
  simp only [State.stop, hmode, Bool.not_false, if_true]
  rcases State.flush_cases stringify { s with
    timer := false, recorder := none, pageListeners := false, errorListeners := false }
    true false with ⟨heq, hnone⟩ | ⟨hne, batch, sent, hev, heq⟩
  · have hbuf : s.buffer = [] := ((hnone rfl).resolve_left h.config).resolve_left h.session
    rw [heq]
    exact ⟨[], by simp, by simp [eventsOf, hbuf], by simp⟩
  · rw [heq]
    exact ⟨[batch], rfl, by simp [eventsOf, hev], by simp [hev, hne]⟩

variable [LE τ] [DecidableLE τ] [Sub τ] [NatCast τ]

/-- **An input keeps the invariant.** -/
theorem Streaming.step (h : Streaming stringify maxBytes sent₀ events s) {a : Action τ}
    (ha : a ≠ .stop) :
    Streaming stringify maxBytes sent₀ (events ++ a.events) (s.step stringify a) := by
  cases a with
  | emit event isCheckout now =>
    obtain ⟨first, batches, hrec, -⟩ := h.handed
    simp only [State.step, State.emit, hrec]
    exact h.emitAlways hrec event
  | stop => exact absurd rfl ha
  | init config session client =>
    simpa [State.step, State.init, h.initialized, Action.events] using h
  | timer =>
    simp only [State.step, Action.events, List.append_nil]
    split_ifs
    · exact (h.flush false).1
    · exact h
  | visibilityChange hidden =>
    simp only [State.step, State.onVisibilityChange, Action.events, List.append_nil]
    split_ifs
    · exact (h.flush true).1
    · exact h
    · exact h
  | beforeUnload =>
    simp only [State.step, State.onBeforeUnload, Action.events, List.append_nil]
    split_ifs
    · exact (h.flush true).1
    · exact h
    · exact h
  | error =>
    -- the rolling buffer is empty in this mode
    have hsame : s.onError = s := by
      simp [State.onError, State.uploadBuffer, h.segments]
    simp only [State.step, Action.events, List.append_nil, hsame, ite_self]
    exact h
  | report =>
    simp only [State.step, State.report, Action.events, List.append_nil, h.mode, Bool.false_eq_true,
      if_false]
    exact (h.flush false).1
  | identify identifier =>
    simp only [State.step, Action.events, List.append_nil]
    obtain ⟨config, hconfig⟩ := Option.ne_none_iff_exists'.mp h.config
    have hmode : (s.identify identifier).isBuffered = s.isBuffered := by
      simp [State.identify, State.isBuffered, hconfig]
    have hlimit : (s.identify identifier).flushMaxBytes = s.flushMaxBytes := by
      simp [State.identify, State.flushMaxBytes, hconfig]
    exact ⟨⟨by simp [State.identify, hconfig], h.session, hmode.trans h.mode,
      hlimit.trans h.limit, h.initialized, h.segments, h.handed⟩, h.small⟩

/-- **A run keeps the invariant.** -/
theorem Streaming.run (h : Streaming stringify maxBytes sent₀ events s)
    {actions : List (Action τ)} (hrun : ∀ a ∈ actions, a ≠ .stop) :
    Streaming stringify maxBytes sent₀ (events ++ emitted actions) (s.run stringify actions) := by
  induction actions using List.reverseRecOn with
  | nil => simpa [emitted, State.run] using h
  | append_singleton actions a ih =>
    have hbefore := ih fun b hb => hrun b (List.mem_append_left _ hb)
    have hlast := hbefore.step (hrun a (List.mem_append_right _ (List.mem_singleton_self a)))
    rw [State.run_concat]
    simpa [emitted] using hlast

/-! ## Main theorem -/

/-- **Every event is handed over exactly once.** In a run in mode `always` from `init` on, at every
point the batches and the buffer make up what was emitted, the batches are not empty and, but for
the first FullSnapshot, in the order of emission, the buffer is empty or below the limit, and
`stop` hands over the rest. -/
theorem always_exactly_once {s₀ s : State τ} (hreach : s₀.Reachable stringify)
    (hidle : s₀.initialized = false) (config : Config τ) (hmode : config.mode = some .always)
    (session : SessionHandle) (client : ClientMeta String) (actions : List (Action τ))
    (hrun : ∀ a ∈ actions, a ≠ .stop)
    (hs : s = (s₀.init config session client).run stringify actions) :
    ∃ batches last, s.sent = s₀.sent ++ batches ∧
      (eventsOf batches ++ s.buffer).Perm (emitted actions) ∧
      (eventsOf batches).eraseP isFullSnapshot ++ s.buffer =
        (emitted actions).eraseP isFullSnapshot ∧
      (∀ b ∈ batches ++ last, b.payload.events ≠ []) ∧
      (s.buffer = [] ∨ (State.bufferSize stringify s.buffer : ℚ) <
        config.flushMaxBytes.getD flushMaxBytesDefault) ∧
      (s.stop stringify).sent = s₀.sent ++ batches ++ last ∧
      (eventsOf (batches ++ last)).Perm (emitted actions) ∧
      (eventsOf (batches ++ last)).eraseP isFullSnapshot =
        (emitted actions).eraseP isFullSnapshot := by
  have hidle' : s₀.Idle := (State.idle_or_initialized hreach).resolve_right (by simp [hidle])
  have hstart := streaming_init stringify hidle' config hmode session client
  have hend := hstart.run hrun
  rw [List.nil_append, ← hs] at hend
  obtain ⟨first, batches, -, hsent, hhanded, hbatches⟩ := hend.handed
  obtain ⟨last, hstop, hlast, hnonempty⟩ := hend.toRecording.stop stringify
  have hall : HandedOver isFullSnapshot first (eventsOf (batches ++ last)) [] (emitted actions) := by
    have hevents : eventsOf (batches ++ last) = eventsOf batches ++ eventsOf last := by
      simp [eventsOf]
    rw [hevents, hlast]
    exact hhanded.flush
  refine ⟨batches, last, hsent, hhanded.perm, hhanded.eraseP_eq, ?_, hend.small, ?_, ?_, ?_⟩
  · exact List.forall_mem_append.mpr ⟨hbatches, hnonempty⟩
  · rw [hstop, hsent]
  · simpa using hall.perm
  · simpa using hall.eraseP_eq

end Streaming

/-- A Meta event waits in the buffer while the FullSnapshot goes ahead; the timer sends it, and
`stop` sends what came after. -/
theorem always_exactly_once_snapshot_ahead : ∃ s batches last, s =
      State.run stringifyBare (State.init {} (sampleConfig .always) sampleHandle sampleClient)
        [.emit (bareEvent 4 1) false 1, .emit (bareEvent 2 2) false 2, .timer,
          .emit (bareEvent 3 3) false 3] ∧
      (s.stop stringifyBare).sent = batches ++ last ∧
      (eventsOf (batches ++ last)).Perm [bareEvent 4 1, bareEvent 2 2, bareEvent 3 3] := by
  have hreach : State.Reachable stringifyBare ({} : State ℤ) := ⟨[], rfl⟩
  obtain ⟨batches, last, -, -, -, -, -, hstop, hperm, -⟩ :=
    always_exactly_once hreach rfl (sampleConfig .always) rfl sampleHandle sampleClient
      [.emit (bareEvent 4 1) false 1, .emit (bareEvent 2 2) false 2, .timer,
        .emit (bareEvent 3 3) false 3] (by simp) rfl
  exact ⟨_, batches, last, rfl, hstop, hperm⟩

end Sdk

end BatRewind
