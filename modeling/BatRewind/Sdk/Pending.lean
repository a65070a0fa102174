import Mathlib.Data.List.Flatten
import Mathlib.Data.List.TakeWhile
import BatRewind.Sdk.Always
import BatRewind.Sdk.Buffered

/-!
# What the inputs leave pending

What the module holds back for the next upload depends on what `init` was given and on the inputs
since.

* `Config.identified`: the configuration after the calls of `identify`.
* `waiting`: the events that no flush took; `window`: the rolling buffer; `Config.pending`: what an
  upload would hand over; `Config.uploaded`: whether there was an upload.
* `waiting_small`, `Config.pending_sublist`: how much that can be.
* **`Holding.run`**: the module holds this; `exists_recording`: since the last `init` that counts.
-/

namespace BatRewind

namespace Sdk

open Encoding Blocks

/-! ## Functions of the inputs -/

section Inputs

variable {τ : Type}

/-- The mode is `always`. -/
def Config.streams (config : Config τ) : Bool := config.mode = some .always

/-- `flushMaxBytes ?? FLUSH_MAX_BYTES`. -/
def Config.maxBytes (config : Config τ) : ℚ := config.flushMaxBytes.getD flushMaxBytesDefault

/-- The configuration after an input. -/
def Config.relabel (config : Config τ) : Action τ → Config τ
  | .identify identifier => { config with identifier := some identifier }
  | _ => config

/-- The configuration after the inputs. -/
def Config.identified (config : Config τ) (inputs : List (Action τ)) : Config τ :=
  inputs.foldl Config.relabel config

/-- The input is a FullSnapshot. -/
def Action.isSnapshot (a : Action τ) : Bool := a.events.any isFullSnapshot

/-- The input makes mode `always` hand over what waits. -/
def Action.flushes : Action τ → Bool
  | .timer | .visibilityChange true | .beforeUnload | .report => true
  | _ => false

variable (stringify : List (RawEvent τ) → String)

/-- The events that wait after an input: none after a flush, and less than `maxBytes`. -/
def wait (maxBytes : ℚ) (buf : List (RawEvent τ)) (a : Action τ) : List (RawEvent τ) :=
  if a.flushes || maxBytes ≤ (State.bufferSize stringify (buf ++ a.events) : ℚ) then []
  else buf ++ a.events

/-- **The events that wait in mode `always`.** The first FullSnapshot never does. -/
def waiting (maxBytes : ℚ) (inputs : List (Action τ)) : List (RawEvent τ) :=
  (inputs.eraseP Action.isSnapshot).foldl (wait stringify maxBytes) []

variable [LE τ] [DecidableLE τ] [Sub τ] [NatCast τ]

/-- The rolling buffer after an input. -/
def roll (bufferMs : τ) (segments : List (List (RawEvent τ))) :
    Action τ → List (List (RawEvent τ))
  | .emit raw isCheckout now =>
    if isCheckout || segments.isEmpty then
      trim (State.startsBy (now - bufferMs)) (segments ++ [[raw]])
    else pushLast raw segments
  | _ => segments

/-- **The rolling buffer.** -/
def window (bufferMs : τ) (inputs : List (Action τ)) : List (List (RawEvent τ)) :=
  inputs.foldl (roll bufferMs) []

/-- `bufferMs ?? BUFFER_MS`. -/
def Config.retention (config : Config τ) : τ := config.bufferMs.getD (bufferMsDefault : τ)

/-- **What an upload after the inputs would hand over.** -/
def Config.pending (config : Config τ) (inputs : List (Action τ)) : List (RawEvent τ) :=
  if config.streams then waiting stringify config.maxBytes inputs
  else (window config.retention inputs).flatten

/-- The input makes mode `buffered` upload the rolling buffer. -/
def Config.rewinds (config : Config τ) : Action τ → Bool
  | .report => true
  | .error => config.captureOnError ≠ some false
  | _ => false

/-- **There was an upload**: an event waits no more, or the rolling buffer was not empty at an
upload. -/
def Config.uploaded (config : Config τ) (inputs : List (Action τ)) : Bool :=
  if config.streams then
    (waiting stringify config.maxBytes inputs).length < (emitted inputs).length
  else (inputs.dropWhile fun a => a.events.isEmpty).any config.rewinds

end Inputs

/-! ## One more input -/

section Concat

variable {τ : Type} {stringify : List (RawEvent τ) → String} {maxBytes : ℚ} {config : Config τ}

theorem identified_concat (inputs : List (Action τ)) (a : Action τ) :
    config.identified (inputs ++ [a]) = (config.identified inputs).relabel a :=
  List.foldl_concat Config.relabel config a inputs

/-- `identify` changes the identifier only. -/
theorem identified_fields (config : Config τ) (inputs : List (Action τ)) :
    ∃ identifier, config.identified inputs = { config with identifier := identifier } := by
  induction inputs using List.reverseRecOn with
  | nil => exact ⟨config.identifier, rfl⟩
  | append_singleton inputs a ih =>
    obtain ⟨identifier, heq⟩ := ih
    rw [identified_concat, heq]
    cases a with
    | identify identifier' => exact ⟨some identifier', rfl⟩
    | _ => exact ⟨identifier, rfl⟩

/-- The first FullSnapshot goes ahead. -/
theorem waiting_ahead (stringify : List (RawEvent τ) → String) (maxBytes : ℚ)
    {inputs : List (Action τ)} {a : Action τ} (ha : a.isSnapshot = true)
    (hfirst : inputs.any Action.isSnapshot = false) :
    waiting stringify maxBytes (inputs ++ [a]) = waiting stringify maxBytes inputs := by
  have hkeep : inputs.eraseP Action.isSnapshot = inputs := by
    rw [List.any_eq_false] at hfirst
    exact List.eraseP_of_forall_not hfirst
  have herase : (inputs ++ [a]).eraseP Action.isSnapshot = inputs := by
    rw [List.eraseP_append, if_neg (by simp [hfirst])]
    simp [ha]
  rw [waiting, waiting, herase, hkeep]

/-- Any other input joins the buffer or drains it. -/
theorem waiting_concat {inputs : List (Action τ)} {a : Action τ}
    (ha : a.isSnapshot = true → inputs.any Action.isSnapshot = true) :
    waiting stringify maxBytes (inputs ++ [a]) =
      wait stringify maxBytes (waiting stringify maxBytes inputs) a := by
  have herase : (inputs ++ [a]).eraseP Action.isSnapshot =
      inputs.eraseP Action.isSnapshot ++ [a] := by
    rw [List.eraseP_append]
    by_cases hany : inputs.any Action.isSnapshot = true
    · rw [if_pos hany]
    · have hkeep : inputs.eraseP Action.isSnapshot = inputs := by
        rw [Bool.not_eq_true, List.any_eq_false] at hany
        exact List.eraseP_of_forall_not hany
      rw [if_neg hany, hkeep, List.eraseP_of_forall_not]
      simpa using fun hsnap => hany (ha hsnap)
  rw [waiting, herase, List.foldl_concat, waiting]

/-- **What waits is below the threshold.** -/
theorem waiting_small (stringify : List (RawEvent τ) → String) (maxBytes : ℚ)
    (inputs : List (Action τ)) : waiting stringify maxBytes inputs = [] ∨
      (State.bufferSize stringify (waiting stringify maxBytes inputs) : ℚ) < maxBytes := by
  unfold waiting
  induction inputs.eraseP Action.isSnapshot using List.reverseRecOn with
  | nil => exact Or.inl rfl
  | append_singleton inputs a _ =>
    rw [List.foldl_concat, wait]
    split_ifs with hdrain
    · exact Or.inl rfl
    · simp only [Bool.or_eq_true, decide_eq_true_eq, not_or, not_le] at hdrain
      exact Or.inr hdrain.2

/-- An input without an event that is no flush changes nothing. -/
theorem wait_keep {buf : List (RawEvent τ)} {a : Action τ} (hevents : a.events = [])
    (hflush : a.flushes = false)
    (hsmall : buf = [] ∨ (State.bufferSize stringify buf : ℚ) < maxBytes) :
    wait stringify maxBytes buf a = buf := by
  rw [wait, hevents, hflush, List.append_nil]
  rcases hsmall with rfl | hsmall
  · simp
  · simp [hsmall]

/-- Nothing waits that was not emitted. -/
theorem waiting_sublist (stringify : List (RawEvent τ) → String) (maxBytes : ℚ)
    (inputs : List (Action τ)) :
    (waiting stringify maxBytes inputs).Sublist (emitted inputs) := by
  have hall : ∀ as : List (Action τ),
      (as.foldl (wait stringify maxBytes) []).Sublist (emitted as) := by
    intro as
    induction as using List.reverseRecOn with
    | nil => exact List.Sublist.refl _
    | append_singleton as a ih =>
      rw [List.foldl_concat, emitted_concat, wait]
      split_ifs
      · exact List.nil_sublist _
      · exact ih.append (List.Sublist.refl _)
  exact (hall _).trans ((List.eraseP_sublist (p := Action.isSnapshot)).flatMap Action.events)

/-- In mode `always` an upload was made as soon as something does not wait. -/
theorem uploaded_of_drained (hmode : config.streams = true) {inputs : List (Action τ)}
    (hnone : waiting stringify config.maxBytes inputs = []) :
    config.uploaded stringify inputs = !(emitted inputs).isEmpty := by
  rw [Config.uploaded, if_pos hmode, hnone]
  cases emitted inputs <;> simp

/-- An event that waits is no upload. -/
theorem uploaded_of_joined (hmode : config.streams = true) {inputs : List (Action τ)} {a : Action τ}
    (hjoin : waiting stringify config.maxBytes (inputs ++ [a]) =
      waiting stringify config.maxBytes inputs ++ a.events) :
    config.uploaded stringify (inputs ++ [a]) = config.uploaded stringify inputs := by
  rw [Config.uploaded, Config.uploaded, if_pos hmode, if_pos hmode, hjoin, emitted_concat]
  simp

/-- In mode `buffered` the first upload of a rolling buffer that is not empty. -/
theorem uploaded_concat_buffered (hmode : config.streams = false) (inputs : List (Action τ))
    (a : Action τ) : config.uploaded stringify (inputs ++ [a]) =
      (config.uploaded stringify inputs || !(emitted inputs).isEmpty && config.rewinds a) := by
  have hempty : (inputs.dropWhile fun a => a.events.isEmpty) = [] ↔ emitted inputs = [] := by
    simp [List.dropWhile_eq_nil_iff, emitted]
  simp only [Config.uploaded, hmode, Bool.false_eq_true, if_false, List.dropWhile_append,
    List.isEmpty_iff]
  by_cases hnone : emitted inputs = []
  · have hdrop := hempty.2 hnone
    rw [if_pos hdrop, hdrop, hnone]
    cases a <;> simp [Action.events, Config.rewinds]
  · have hdrop : (inputs.dropWhile fun a => a.events.isEmpty) ≠ [] := fun h => hnone (hempty.1 h)
    rw [if_neg hdrop]
    simp [List.isEmpty_eq_false_iff.mpr hnone]

variable [LE τ] [DecidableLE τ] [Sub τ]

theorem window_concat (bufferMs : τ) (inputs : List (Action τ)) (a : Action τ) :
    window bufferMs (inputs ++ [a]) = roll bufferMs (window bufferMs inputs) a :=
  List.foldl_concat (roll bufferMs) [] a inputs

/-- An event adds to the rolling buffer, and a pruning takes from it. -/
theorem roll_sublist (bufferMs : τ) (segments : List (List (RawEvent τ))) (a : Action τ) :
    (roll bufferMs segments a).flatten.Sublist (segments.flatten ++ a.events) := by
  cases a with
  | emit raw isCheckout now =>
    simp only [roll, Action.events]
    split_ifs with hopen
    · obtain ⟨pre, hpre, -⟩ := exists_trim (State.startsBy (now - bufferMs)) (segments ++ [[raw]])
      have hsplit : segments.flatten ++ [raw] = pre.flatten ++
          (trim (State.startsBy (now - bufferMs)) (segments ++ [[raw]])).flatten := by
        rw [← List.flatten_append, ← hpre]
        simp
      exact hsplit ▸ List.sublist_append_right _ _
    · have hne : segments ≠ [] := by
        rintro rfl
        simp at hopen
      rw [flatten_pushLast raw hne]
  | _ => simp [roll, Action.events]

/-- The last event is in it. -/
theorem mem_roll (bufferMs : τ) (segments : List (List (RawEvent τ))) (raw : RawEvent τ)
    (isCheckout : Bool) (now : τ) :
    raw ∈ (roll bufferMs segments (.emit raw isCheckout now)).flatten := by
  simp only [roll]
  split_ifs with hopen
  · have hlast := mem_trim_concat (State.startsBy (now - bufferMs)) segments [raw]
    exact List.mem_flatten.mpr ⟨[raw], hlast, List.mem_singleton_self raw⟩
  · have hne : segments ≠ [] := by
      rintro rfl
      simp at hopen
    rw [flatten_pushLast raw hne]
    exact List.mem_append_right _ (List.mem_singleton_self raw)

theorem window_sublist (bufferMs : τ) (inputs : List (Action τ)) :
    (window bufferMs inputs).flatten.Sublist (emitted inputs) := by
  induction inputs using List.reverseRecOn with
  | nil => exact List.Sublist.refl _
  | append_singleton inputs a ih =>
    rw [window_concat, emitted_concat]
    exact (roll_sublist bufferMs _ a).trans (ih.append (List.Sublist.refl _))

/-- The rolling buffer is empty until an event is emitted. -/
theorem window_flatten_eq_nil {bufferMs : τ} {inputs : List (Action τ)} :
    (window bufferMs inputs).flatten = [] ↔ emitted inputs = [] := by
  constructor
  · intro hnil
    induction inputs using List.reverseRecOn with
    | nil => rfl
    | append_singleton inputs a ih =>
      rw [window_concat] at hnil
      cases a with
      | emit raw isCheckout now =>
        have hmem := mem_roll bufferMs (window bufferMs inputs) raw isCheckout now
        rw [hnil] at hmem
        cases hmem
      | _ => simpa [emitted_concat, Action.events] using ih hnil
  · intro hnone
    exact List.sublist_nil.mp (hnone ▸ window_sublist bufferMs inputs)

variable [NatCast τ]

/-- **Nothing is pending that was not emitted.** -/
theorem Config.pending_sublist (stringify : List (RawEvent τ) → String) (config : Config τ)
    (inputs : List (Action τ)) :
    (config.pending stringify inputs).Sublist (emitted inputs) := by
  unfold Config.pending
  split_ifs
  · exact waiting_sublist stringify config.maxBytes inputs
  · exact window_sublist config.retention inputs

end Concat

/-! ## What the module holds -/

/-- **The invariant**: `init` was called, and what the inputs since leave pending is held. -/
structure Holding {τ : Type} [LE τ] [DecidableLE τ] [Sub τ] [NatCast τ]
    (stringify : List (RawEvent τ) → String) (config : Config τ) (session : SessionHandle)
    (client : ClientMeta String) (inputs : List (Action τ)) (s : State τ) : Prop where
  initialized : s.initialized = true
  identified : s.config = some (config.identified inputs)
  session : s.session = some session
  clientMeta : s.clientMeta = config.clientMeta client
  metaSent : s.clientMetaSent = (config.uploaded stringify inputs && s.clientMeta.isSome)
  recorder : s.recorder =
    some (if config.streams then .always (!inputs.any Action.isSnapshot) else .buffered)
  timer : s.timer = config.streams
  pageListeners : s.pageListeners = config.streams
  errorListeners : s.errorListeners = (!config.streams && config.captureOnError ≠ some false)
  buffer : s.buffer = if config.streams then waiting stringify config.maxBytes inputs else []
  segments : s.segments = if config.streams then [] else window config.retention inputs

section Holding

variable {τ : Type} {stringify : List (RawEvent τ) → String} {s : State τ}

theorem State.upload_metaSent {config : Config τ} {session : SessionHandle}
    (hc : s.config = some config) (hs : s.session = some session) (events : List (RawEvent τ))
    (trigger : Trigger) (keepalive : Bool) : ∃ sent, s.upload events trigger keepalive =
      { s with sent := sent, clientMetaSent := s.clientMetaSent || s.clientMeta.isSome } := by
  simp only [upload, hc, hs]
  refine ⟨_, congrArg (State.mk _ _ _ _ · _ _ _ _ _ _ _) ?_⟩
  cases s.clientMetaSent <;> simp

/-- A forced flush empties the buffer and sends the metadata with it. -/
theorem State.flush_metaSent (stringify : List (RawEvent τ) → String) {config : Config τ}
    {session : SessionHandle} (hc : s.config = some config) (hs : s.session = some session)
    (keepalive : Bool) :
    ∃ sent, s.flush stringify true keepalive =
      { s with
        buffer := []
        sent := sent
        clientMetaSent := s.clientMetaSent || !s.buffer.isEmpty && s.clientMeta.isSome } := by
  by_cases hnil : s.buffer = []
  · refine ⟨s.sent, ?_⟩
    have hsame : s.flush stringify true keepalive = s := if_pos (by simp [hnil])
    rw [hsame, hnil]
    cases s
    simp_all
  · have hflush : s.flush stringify true keepalive =
        upload { s with buffer := [] } s.buffer .stream keepalive := by
      rw [flush, if_neg (by simp [hc, hs, hnil]), if_neg (by simp)]
    obtain ⟨sent, hsent⟩ :=
      upload_metaSent (s := { s with buffer := [] }) hc hs s.buffer .stream keepalive
    refine ⟨sent, ?_⟩
    rw [hflush, hsent]
    simp [List.isEmpty_eq_false_iff.mpr hnil]

/-- So does an upload of the rolling buffer, which is kept. -/
theorem State.uploadBuffer_metaSent {config : Config τ} {session : SessionHandle}
    (hc : s.config = some config) (hs : s.session = some session) (trigger : Trigger)
    (keepalive : Bool) : ∃ sent, s.uploadBuffer trigger keepalive =
      { s with
        sent := sent
        clientMetaSent := s.clientMetaSent ||
          !s.segments.flatten.isEmpty && s.clientMeta.isSome } := by
  rw [uploadBuffer, if_neg (by simp [hc, hs])]
  by_cases hnil : s.segments.flatten.isEmpty = true
  · rw [if_pos hnil, hnil]
    exact ⟨s.sent, by simp⟩
  · obtain ⟨sent, hsent⟩ := upload_metaSent hc hs s.segments.flatten trigger keepalive
    rw [if_neg hnil, hsent, Bool.not_eq_true] at *
    exact ⟨sent, by simp [hnil]⟩

variable [LE τ] [DecidableLE τ] [Sub τ] [NatCast τ] {config : Config τ} {session : SessionHandle}
  {client : ClientMeta String} {inputs : List (Action τ)}

namespace Holding

variable (h : Holding stringify config session client inputs s)

include h

theorem isBuffered : s.isBuffered = !config.streams := by
  obtain ⟨identifier, hid⟩ := identified_fields config inputs
  simp only [State.isBuffered, h.identified, hid, Config.streams, Option.bind_some]
  cases config.mode with
  | none => rfl
  | some mode => cases mode <;> rfl

theorem flushMaxBytes : s.flushMaxBytes = config.maxBytes := by
  obtain ⟨identifier, hid⟩ := identified_fields config inputs
  simp [State.flushMaxBytes, h.identified, hid, Config.maxBytes]

theorem cutoff (now : τ) : s.cutoff now = now - config.retention := by
  obtain ⟨identifier, hid⟩ := identified_fields config inputs
  simp [State.cutoff, h.identified, hid, Config.retention]

theorem captureOnError : s.config.bind Config.captureOnError = config.captureOnError := by
  obtain ⟨identifier, hid⟩ := identified_fields config inputs
  simp [h.identified, hid]

/-- In mode `always` an input joins the buffer. -/
theorem join (hmode : config.streams = true) {a : Action τ}
    (hsnap : a.isSnapshot = true → inputs.any Action.isSnapshot = true)
    (hwait : wait stringify config.maxBytes (waiting stringify config.maxBytes inputs) a =
      waiting stringify config.maxBytes inputs ++ a.events) :
    Holding stringify config session client (inputs ++ [a])
      { s with
        config := some ((config.identified inputs).relabel a)
        buffer := s.buffer ++ a.events } where
  initialized := h.initialized
  identified := by rw [identified_concat]
  session := h.session
  clientMeta := h.clientMeta
  metaSent := by
    rw [uploaded_of_joined hmode ((waiting_concat hsnap).trans hwait)]
    exact h.metaSent
  recorder := by
    rw [List.any_append, List.any_cons, List.any_nil, Bool.or_false]
    cases hany : inputs.any Action.isSnapshot with
    | true => simpa [hany] using h.recorder
    | false =>
      have ha : a.isSnapshot = false := by
        rw [Bool.eq_false_iff]
        exact fun hs => absurd (hsnap hs) (by simp [hany])
      simpa [hany, ha] using h.recorder
  timer := h.timer
  pageListeners := h.pageListeners
  errorListeners := h.errorListeners
  buffer := by
    have hbuffer := h.buffer
    rw [if_pos hmode] at hbuffer ⊢
    rw [waiting_concat hsnap, hwait, hbuffer]
  segments := by
    have hsegments := h.segments
    rw [if_pos hmode] at hsegments ⊢
    exact hsegments

/-- In mode `always` an input drains the buffer. -/
theorem drain (hmode : config.streams = true) {a : Action τ}
    (hsnap : a.isSnapshot = true → inputs.any Action.isSnapshot = true)
    (hlabel : (config.identified inputs).relabel a = config.identified inputs)
    (hwait : wait stringify config.maxBytes (waiting stringify config.maxBytes inputs) a = [])
    (keepalive : Bool) :
    Holding stringify config session client (inputs ++ [a])
      (State.flush stringify { s with buffer := s.buffer ++ a.events } true keepalive) := by
  have hbuffer := h.buffer
  have hsegments := h.segments
  have hsent := h.metaSent
  rw [if_pos hmode] at hbuffer hsegments
  have hall : waiting stringify config.maxBytes (inputs ++ [a]) = [] :=
    (waiting_concat hsnap).trans hwait
  have hlength := (waiting_sublist stringify config.maxBytes inputs).length_le
  -- something was handed over before, or is now
  have huploaded : config.uploaded stringify (inputs ++ [a]) =
      (config.uploaded stringify inputs || !(s.buffer ++ a.events).isEmpty) := by
    rw [uploaded_of_drained hmode hall, Config.uploaded, if_pos hmode, emitted_concat, hbuffer,
      Bool.eq_iff_iff]
    simp only [Bool.not_eq_true', List.isEmpty_eq_false_iff, ← List.length_pos_iff,
      List.length_append, Bool.or_eq_true, decide_eq_true_eq]
    omega
  obtain ⟨sent, hflush⟩ := State.flush_metaSent stringify
    (s := { s with buffer := s.buffer ++ a.events }) h.identified h.session keepalive
  rw [hflush]
  refine ⟨h.initialized, ?_, h.session, h.clientMeta, ?_, ?_, h.timer, h.pageListeners,
    h.errorListeners, ?_, ?_⟩
  · rw [identified_concat, hlabel]
    exact h.identified
  · rw [huploaded]
    show (s.clientMetaSent || _) = _
    rw [hsent, Bool.and_or_distrib_right]
  · rw [List.any_append, List.any_cons, List.any_nil, Bool.or_false]
    cases hany : inputs.any Action.isSnapshot with
    | true => simpa [hany] using h.recorder
    | false =>
      have ha : a.isSnapshot = false := by
        rw [Bool.eq_false_iff]
        exact fun hs => absurd (hsnap hs) (by simp [hany])
      simpa [hany, ha] using h.recorder
  · rw [if_pos hmode, hall]
  · rw [if_pos hmode]
    exact hsegments

/-- In mode `always` the first FullSnapshot goes ahead. -/
theorem ahead (hmode : config.streams = true) (raw : RawEvent τ) (isCheckout : Bool) (now : τ)
    (hsnap : isFullSnapshot raw = true) (hfirst : inputs.any Action.isSnapshot = false) :
    Holding stringify config session client (inputs ++ [.emit raw isCheckout now])
      (State.upload { s with recorder := some (.always false) } [raw] .stream false) := by
  have hbuffer := h.buffer
  have hsegments := h.segments
  have hsent := h.metaSent
  rw [if_pos hmode] at hbuffer hsegments
  have ha : (Action.emit raw isCheckout now).isSnapshot = true := by
    simpa [Action.isSnapshot, Action.events] using hsnap
  have hsame := waiting_ahead stringify config.maxBytes ha hfirst
  have hlength := (waiting_sublist stringify config.maxBytes inputs).length_le
  have huploaded : config.uploaded stringify (inputs ++ [.emit raw isCheckout now]) = true := by
    rw [Config.uploaded, if_pos hmode, hsame, emitted_concat]
    simp only [Action.events, List.length_append, List.length_singleton, decide_eq_true_eq]
    omega
  obtain ⟨sent, hupload⟩ := State.upload_metaSent
    (s := { s with recorder := some (.always false) }) h.identified h.session [raw] .stream false
  rw [hupload]
  refine ⟨h.initialized, ?_, h.session, h.clientMeta, ?_, ?_, h.timer, h.pageListeners,
    h.errorListeners, ?_, ?_⟩
  · rw [identified_concat]
    exact h.identified
  · rw [huploaded]
    show (s.clientMetaSent || s.clientMeta.isSome) = _
    rw [hsent]
    cases config.uploaded stringify inputs <;> simp
  · simp [hmode, ha]
  · rw [if_pos hmode, hsame]
    exact hbuffer
  · rw [if_pos hmode]
    exact hsegments

/-- In mode `buffered` an input joins the rolling buffer. -/
theorem rolled (hmode : config.streams = false) {a : Action τ}
    (hrewinds : config.rewinds a = false) :
    Holding stringify config session client (inputs ++ [a])
      { s with
        config := some ((config.identified inputs).relabel a)
        segments := roll config.retention s.segments a } where
  initialized := h.initialized
  identified := by rw [identified_concat]
  session := h.session
  clientMeta := h.clientMeta
  metaSent := by
    rw [uploaded_concat_buffered hmode, hrewinds, Bool.and_false, Bool.or_false]
    exact h.metaSent
  recorder := by simpa [hmode] using h.recorder
  timer := h.timer
  pageListeners := h.pageListeners
  errorListeners := h.errorListeners
  buffer := by simpa [hmode] using h.buffer
  segments := by
    have hsegments := h.segments
    simp only [hmode, Bool.false_eq_true, if_false] at hsegments ⊢
    rw [window_concat, hsegments]

/-- In mode `buffered` an input uploads the rolling buffer. -/
theorem rewind (hmode : config.streams = false) {a : Action τ} (hrewinds : config.rewinds a = true)
    (trigger : Trigger) (keepalive : Bool) :
    Holding stringify config session client (inputs ++ [a])
      (s.uploadBuffer trigger keepalive) := by
  have hkeep : (config.identified inputs).relabel a = config.identified inputs ∧
      ∀ segments, roll config.retention segments a = segments := by
    cases a <;> first | exact ⟨rfl, fun _ => rfl⟩ | cases hrewinds
  have hbuffer := h.buffer
  have hsegments := h.segments
  simp only [hmode, Bool.false_eq_true, if_false] at hbuffer hsegments
  have hempty : s.segments.flatten.isEmpty = (emitted inputs).isEmpty := by
    rw [hsegments, Bool.eq_iff_iff, List.isEmpty_iff, List.isEmpty_iff]
    exact window_flatten_eq_nil
  obtain ⟨sent, hupload⟩ := State.uploadBuffer_metaSent h.identified h.session trigger keepalive
  rw [hupload]
  refine ⟨h.initialized, ?_, h.session, h.clientMeta, ?_, ?_, h.timer, h.pageListeners,
    h.errorListeners, ?_, ?_⟩
  · rw [identified_concat, hkeep.1]
    exact h.identified
  · rw [uploaded_concat_buffered hmode, hrewinds, Bool.and_true]
    show (s.clientMetaSent || _) = _
    rw [h.metaSent, hempty, Bool.and_or_distrib_right]
  · simpa [hmode] using h.recorder
  · simpa [hmode] using hbuffer
  · simp only [hmode, Bool.false_eq_true, if_false]
    rw [window_concat, hkeep.2]
    exact hsegments

/-- In mode `always` any other input changes the names at most. -/
theorem stay (hmode : config.streams = true) {a : Action τ} (hevents : a.events = [])
    (hflush : a.flushes = false) :
    Holding stringify config session client (inputs ++ [a])
      { s with config := some ((config.identified inputs).relabel a) } := by
  have hsnap : a.isSnapshot = true → inputs.any Action.isSnapshot = true := by
    simp [Action.isSnapshot, hevents]
  have hwait := wait_keep hevents hflush (waiting_small stringify config.maxBytes inputs)
  have hjoin := h.join hmode hsnap (hwait.trans (by rw [hevents, List.append_nil]))
  rwa [hevents, List.append_nil] at hjoin

/-- In mode `always` a flush drains the buffer. -/
theorem flushed (hmode : config.streams = true) {a : Action τ} (hflush : a.flushes = true)
    (keepalive : Bool) : Holding stringify config session client (inputs ++ [a])
      (s.flush stringify true keepalive) := by
  have hkeep : a.events = [] ∧
      (config.identified inputs).relabel a = config.identified inputs := by
    cases a <;> first | exact ⟨rfl, rfl⟩ | cases hflush
  have hsnap : a.isSnapshot = true → inputs.any Action.isSnapshot = true := by
    simp [Action.isSnapshot, hkeep.1]
  have hdrain := h.drain hmode hsnap hkeep.2 (by simp [wait, hflush]) keepalive
  rwa [hkeep.1, List.append_nil] at hdrain

theorem emitAlways (hmode : config.streams = true) (raw : RawEvent τ) (isCheckout : Bool)
    (now : τ) : Holding stringify config session client (inputs ++ [.emit raw isCheckout now])
      (s.emitAlways stringify (!inputs.any Action.isSnapshot) raw) := by
  have hbuffer := h.buffer
  rw [if_pos hmode] at hbuffer
  unfold State.emitAlways
  split_ifs with hahead
  · exact h.ahead hmode raw isCheckout now (by simpa [isFullSnapshot] using hahead.1)
      (by simpa using hahead.2)
  · have hsnap : (Action.emit raw isCheckout now).isSnapshot = true →
        inputs.any Action.isSnapshot = true := by
      intro hs
      by_contra hany
      simp only [Action.isSnapshot, Action.events, List.any_cons, List.any_nil, Bool.or_false,
        isFullSnapshot, decide_eq_true_eq] at hs
      exact hahead ⟨hs, by simpa using hany⟩
    have hlimit : State.flushMaxBytes { s with buffer := s.buffer ++ [raw] } = config.maxBytes :=
      h.flushMaxBytes
    dsimp only
    rw [hlimit, hbuffer]
    split_ifs with hsize
    · rw [← hbuffer]
      exact h.drain hmode hsnap rfl (by simp [wait, Action.events, hsize]) false
    · rw [← hbuffer]
      have hjoin := h.join hmode hsnap (by simp [wait, Action.events, Action.flushes, hsize])
      have hsame : (config.identified inputs).relabel (.emit raw isCheckout now) =
        config.identified inputs := rfl
      rw [hsame, ← h.identified] at hjoin
      exact hjoin

theorem emitBuffered (raw : RawEvent τ) (isCheckout : Bool) (now : τ) :
    s.emitBuffered raw isCheckout now =
      { s with segments := roll config.retention s.segments (.emit raw isCheckout now) } := by
  simp only [State.emitBuffered, State.pruneSegments, roll]
  split_ifs
  · rw [← h.cutoff now]
    rfl
  · rfl

theorem step_identify (identifier : String) : s.step stringify (.identify identifier) =
    { s with config := some ((config.identified inputs).relabel (.identify identifier)) } := by
  rw [State.step, State.identify, h.identified]
  rfl

theorem step_always (hmode : config.streams = true) {a : Action τ} (ha : a ≠ .stop) :
    Holding stringify config session client (inputs ++ [a]) (s.step stringify a) := by
  have hstay : ∀ b : Action τ, b.events = [] → b.flushes = false →
      (config.identified inputs).relabel b = config.identified inputs →
      Holding stringify config session client (inputs ++ [b]) s := by
    intro b hevents hflush hlabel
    have hsame := h.stay hmode hevents hflush
    rwa [hlabel, ← h.identified] at hsame
  cases a with
  | stop => exact absurd rfl ha
  | init config' session' client' =>
    have hsame : s.step stringify (.init config' session' client') = s := if_pos h.initialized
    rw [hsame]
    exact hstay _ rfl rfl rfl
  | emit raw isCheckout now =>
    simp only [State.step, State.emit, h.recorder, hmode, if_true]
    exact h.emitAlways hmode raw isCheckout now
  | timer =>
    simp only [State.step, h.timer, hmode, if_true]
    exact h.flushed hmode rfl false
  | visibilityChange hidden =>
    simp only [State.step, State.onVisibilityChange, h.pageListeners, h.isBuffered, hmode, if_true]
    cases hidden with
    | false => exact hstay _ rfl rfl rfl
    | true => exact h.flushed hmode rfl true
  | beforeUnload =>
    simp only [State.step, State.onBeforeUnload, h.pageListeners, h.isBuffered, hmode, if_true]
    exact h.flushed hmode rfl true
  | error =>
    simp only [State.step, h.errorListeners, hmode]
    exact hstay _ rfl rfl rfl
  | report =>
    simp only [State.step, State.report, h.isBuffered, hmode]
    exact h.flushed hmode rfl false
  | identify identifier =>
    rw [h.step_identify]
    exact h.stay hmode rfl rfl

theorem step_buffered (hmode : config.streams = false) {a : Action τ} (ha : a ≠ .stop) :
    Holding stringify config session client (inputs ++ [a]) (s.step stringify a) := by
  have hstay : ∀ b : Action τ, config.rewinds b = false →
      (config.identified inputs).relabel b = config.identified inputs →
      roll config.retention s.segments b = s.segments →
      Holding stringify config session client (inputs ++ [b]) s := by
    intro b hrewinds hlabel hroll
    have hsame := h.rolled hmode hrewinds
    rwa [hlabel, hroll, ← h.identified] at hsame
  cases a with
  | stop => exact absurd rfl ha
  | init config' session' client' =>
    have hsame : s.step stringify (.init config' session' client') = s := if_pos h.initialized
    rw [hsame]
    exact hstay _ rfl rfl rfl
  | emit raw isCheckout now =>
    have hrolled := h.rolled (a := .emit raw isCheckout now) hmode rfl
    have hsame : (config.identified inputs).relabel (.emit raw isCheckout now) =
      config.identified inputs := rfl
    rw [hsame, ← h.identified] at hrolled
    simp only [State.step, State.emit, h.recorder, hmode, Bool.false_eq_true, if_false]
    rw [h.emitBuffered raw isCheckout now]
    exact hrolled
  | timer =>
    simp only [State.step, h.timer, hmode]
    exact hstay _ rfl rfl rfl
  | visibilityChange hidden =>
    simp only [State.step, h.pageListeners, hmode]
    exact hstay _ rfl rfl rfl
  | beforeUnload =>
    simp only [State.step, h.pageListeners, hmode]
    exact hstay _ rfl rfl rfl
  | error =>
    simp only [State.step, State.onError, h.errorListeners, h.captureOnError, hmode, Bool.not_false,
      Bool.true_and, decide_eq_true_eq]
    split_ifs with hcapture
    · exact h.rewind hmode (by simpa [Config.rewinds] using hcapture) .error true
    · exact hstay _ (by simpa [Config.rewinds] using hcapture) rfl rfl
  | report =>
    simp only [State.step, State.report, h.isBuffered, hmode]
    exact h.rewind hmode rfl .manual false
  | identify identifier =>
    rw [h.step_identify]
    exact h.rolled hmode rfl

/-- **One input.** -/
theorem step {a : Action τ} (ha : a ≠ .stop) :
    Holding stringify config session client (inputs ++ [a]) (s.step stringify a) := by
  cases hmode : config.streams with
  | true => exact h.step_always hmode ha
  | false => exact h.step_buffered hmode ha

/-- **A run.** -/
theorem run {actions : List (Action τ)} (hrun : ∀ a ∈ actions, a ≠ .stop) :
    Holding stringify config session client (inputs ++ actions) (s.run stringify actions) := by
  induction actions using List.reverseRecOn with
  | nil => simpa [State.run] using h
  | append_singleton actions a ih =>
    have hbefore := ih fun b hb => hrun b (List.mem_append_left _ hb)
    rw [State.run_concat, ← List.append_assoc]
    exact hbefore.step (hrun a (List.mem_append_right _ (List.mem_singleton_self a)))

end Holding

/-- `init` starts with no inputs. -/
theorem holding_init (stringify : List (RawEvent τ) → String) {s₀ : State τ} (hidle : s₀.Idle)
    (config : Config τ) (session : SessionHandle) (client : ClientMeta String) :
    Holding stringify config session client [] (s₀.init config session client) := by
  have hbuffer : s₀.buffer = [] := by rw [hidle]
  have hsegments : s₀.segments = [] := by rw [hidle]
  have hlisteners : s₀.timer = false ∧ s₀.pageListeners = false ∧ s₀.errorListeners = false := by
    rw [hidle]
    exact ⟨rfl, rfl, rfl⟩
  cases hmode : config.streams with
  | true =>
    have halways : config.mode = some .always := by simpa [Config.streams] using hmode
    rw [init_always hidle halways]
    constructor <;>
      simp [hmode, hbuffer, hsegments, hlisteners, Config.identified, Config.uploaded, waiting,
        emitted]
  | false =>
    have hbuffered : config.mode ≠ some .always := by simpa [Config.streams] using hmode
    rw [init_buffered hidle hbuffered]
    constructor <;>
      simp [hmode, hbuffer, hsegments, hlisteners, Config.identified, Config.uploaded, window]

end Holding

/-! ## The `init` that counts -/

/-- Every `init` was followed by `stop`. -/
def Ended {τ : Type} (before : List (Action τ)) : Prop :=
  ∀ xs config session client ys, before = xs ++ .init config session client :: ys → .stop ∈ ys

section Recording

variable {τ : Type} [LE τ] [DecidableLE τ] [Sub τ] [NatCast τ]
  {stringify : List (RawEvent τ) → String}

/-- The module is initialized from `init` to `stop`. -/
theorem initialized_run {s : State τ} (h : s.initialized = true) {actions : List (Action τ)}
    (hrun : .stop ∉ actions) : (s.run stringify actions).initialized = true := by
  induction actions using List.reverseRecOn with
  | nil => exact h
  | append_singleton actions a ih =>
    rw [State.run_concat]
    refine State.initialized_step (ih fun hmem => hrun (List.mem_append_left _ hmem)) ?_
    rintro rfl
    exact hrun (List.mem_append_right _ List.mem_cons_self)

/-- A module that is not initialized was stopped. -/
theorem ended_of_not_initialized {actions : List (Action τ)}
    (h : (State.run stringify {} actions).initialized = false) : Ended actions := by
  rintro xs config session client ys rfl
  by_contra hstop
  have hinit : (State.run stringify {} (xs ++ .init config session client :: ys)).initialized =
      true := by
    rw [State.run, List.foldl_append, List.foldl_cons]
    exact initialized_run (State.init_initialized config session client) hstop
  rw [h] at hinit
  cases hinit

/-- **The last `init` that counts**: an initialized module records since then. -/
theorem exists_recording (stringify : List (RawEvent τ) → String) (actions : List (Action τ))
    (h : (State.run stringify {} actions).initialized = true) :
    ∃ before config session client inputs,
      actions = before ++ .init config session client :: inputs ∧
      Ended before ∧ .stop ∉ inputs := by
  induction actions using List.reverseRecOn with
  | nil => cases h
  | append_singleton actions a ih =>
    rw [State.run_concat] at h
    have ha : a ≠ .stop := by
      rintro rfl
      cases h
    cases hbefore : (State.run stringify {} actions).initialized with
    | true =>
      obtain ⟨before, config, session, client, inputs, rfl, hended, hstop⟩ := ih hbefore
      refine ⟨before, config, session, client, inputs ++ [a], by simp, hended, ?_⟩
      simpa [hstop] using ha.symm
    | false =>
      have hidle : (State.run stringify {} actions).Idle :=
        (State.idle_or_initialized ⟨actions, rfl⟩).resolve_right (by simp [hbefore])
      rw [hidle] at h
      cases a with
      | init config session client =>
        exact ⟨actions, config, session, client, [], rfl, ended_of_not_initialized hbefore,
          by simp⟩
      | _ => cases h

/-- A module is idle once it was stopped. -/
theorem Ended.idle {actions : List (Action τ)} (h : Ended actions)
    (stringify : List (RawEvent τ) → String) :
    (State.run stringify {} actions).Idle := by
  refine (State.idle_or_initialized ⟨actions, rfl⟩).resolve_right fun hinit => ?_
  obtain ⟨before, config, session, client, inputs, heq, -, hstop⟩ :=
    exists_recording stringify actions hinit
  exact hstop (h before config session client inputs heq)

/-- **What the module holds in a run.** -/
theorem Ended.holding {before inputs : List (Action τ)} (h : Ended before) (hstop : .stop ∉ inputs)
    (stringify : List (RawEvent τ) → String) (config : Config τ) (session : SessionHandle)
    (client : ClientMeta String) :
    Holding stringify config session client inputs
      (State.run stringify {} (before ++ .init config session client :: inputs)) := by
  have hinit := holding_init stringify (h.idle stringify) config session client
  rw [State.run, List.foldl_append, List.foldl_cons]
  exact hinit.run fun a ha heq => hstop (heq ▸ ha)

end Recording

end Sdk

end BatRewind
