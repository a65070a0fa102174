import BatRewind.Sdk.Model

/-!
# Mode `buffered`: the rolling buffer

`pruneSegments` looks at the start of the second segment to drop the first, and runs only when a
segment is opened.

* `emits actions`: the events of a run with their flags; `pruneTimes s actions`: the clock readings
  that its calls of `pruneSegments` make.
* `Rolling bufferMs events d blocks s`: the segments are the blocks of a `Cut` of the emitted
  events, all but the dropped `d`. `Rolling.step` says what an input drops (`DropsOld`).
* `NothingRecent`: what was dropped is before the retention window.
* **`rolling_window`**: the rolling buffer is a final part of what was emitted, cut at checkouts,
  holds all of the retention window and, after a pruning, at most one segment that starts before it.
-/

namespace BatRewind

namespace Sdk

open Encoding Blocks

/-! ## The emitted events and the clock readings -/

/-- The event of an input with its flag `isCheckout`. -/
def Action.emits {τ : Type} : Action τ → List (RawEvent τ × Bool)
  | .emit event isCheckout _ => [(event, isCheckout)]
  | _ => []

/-- The emitted events with their flags. -/
def emits {τ : Type} (actions : List (Action τ)) : List (RawEvent τ × Bool) :=
  actions.flatMap Action.emits

theorem map_fst_emits {τ : Type} (actions : List (Action τ)) :
    (emits actions).map Prod.fst = emitted actions := by
  have hstep : ∀ a : Action τ, a.emits.map Prod.fst = a.events := fun a => by cases a <;> rfl
  simp only [emits, emitted, List.map_flatMap, hstep]

/-- The clock reading of the call of `pruneSegments` that an input makes in mode `buffered`. -/
def State.prunes {τ : Type} (s : State τ) : Action τ → Option τ
  | .emit _ isCheckout now => if isCheckout || s.segments.isEmpty then some now else none
  | _ => none

section Runs

variable {τ : Type} [LE τ] [DecidableLE τ] [Sub τ] [NatCast τ]
  (stringify : List (RawEvent τ) → String)

/-- The clock readings of the calls of `pruneSegments` in a run in mode `buffered`. -/
def pruneTimes : State τ → List (Action τ) → List τ
  | _, [] => []
  | s, a :: actions => (s.prunes a).toList ++ pruneTimes (s.step stringify a) actions

theorem pruneTimes_concat (s : State τ) (actions : List (Action τ)) (a : Action τ) :
    pruneTimes stringify s (actions ++ [a]) =
      pruneTimes stringify s actions ++ ((s.run stringify actions).prunes a).toList := by
  induction actions generalizing s with
  | nil => simp [pruneTimes, State.run]
  | cons b actions ih =>
    rw [List.cons_append, pruneTimes, pruneTimes, ih, List.append_assoc]
    rfl

end Runs

/-! ## The invariant -/

/-- **The invariant**: the segments are the blocks of a cut of the emitted events. -/
structure Rolling {τ : Type} [NatCast τ] (bufferMs : τ) (events d : List (RawEvent τ × Bool))
    (blocks : List (List (RawEvent τ × Bool))) (s : State τ) : Prop where
  initialized : s.initialized = true
  recorder : s.recorder = some .buffered
  mode : s.isBuffered = true
  window : (s.config.bind Config.bufferMs).getD (bufferMsDefault : τ) = bufferMs
  segments : s.segments = blocks.map (List.map Prod.fst)
  cut : Cut (fun x => x.2 = true) events d blocks
  started : blocks = [] → events = []

/-- Blocks are dropped by a pruning only, and up to a segment that starts before the window. -/
def DropsOld {τ : Type} [LE τ] [DecidableLE τ] [Sub τ] (bufferMs : τ) (time : Option τ)
    (pre : List (List (RawEvent τ × Bool))) (s : State τ) : Prop :=
  pre ≠ [] → ∃ now seg, time = some now ∧ s.segments.head? = some seg ∧
    State.startsBy (now - bufferMs) seg = true

section Rolling

variable {τ : Type} [NatCast τ] {stringify : List (RawEvent τ) → String} {bufferMs : τ}
  {events d : List (RawEvent τ × Bool)} {blocks : List (List (RawEvent τ × Bool))} {s : State τ}

/-- The rolling buffer is the last part of what was emitted. -/
theorem Rolling.events_eq (h : Rolling bufferMs events d blocks s) :
    events.map Prod.fst = d.map Prod.fst ++ s.segments.flatten := by
  rw [h.cut.split, h.segments, List.map_append, List.map_flatten]

omit [NatCast τ] in
theorem mode_getD {config : Config τ} (hmode : config.mode ≠ some .always) :
    config.mode.getD .buffered = .buffered := by
  cases h : config.mode with
  | none => rfl
  | some mode =>
    cases mode with
    | buffered => rfl
    | always => exact absurd h hmode

omit [NatCast τ] in
/-- What `init` sets in mode `buffered`. -/
theorem init_buffered {s₀ : State τ} (hidle : s₀.Idle) {config : Config τ}
    (hmode : config.mode ≠ some .always) (session : SessionHandle) (client : ClientMeta String) :
    s₀.init config session client = { s₀ with
      initialized := true, config := some config, session := some session,
      clientMeta := config.clientMeta client, clientMetaSent := false,
      recorder := some .buffered, errorListeners := config.captureOnError ≠ some false } := by
  rw [hidle]
  simp [State.init, State.isBuffered, mode_getD hmode]

/-- `init` starts with nothing emitted. -/
theorem rolling_init {s₀ : State τ} (hidle : s₀.Idle) (config : Config τ)
    (hmode : config.mode ≠ some .always) (session : SessionHandle) (client : ClientMeta String) :
    Rolling (config.bufferMs.getD (bufferMsDefault : τ)) [] [] []
      (s₀.init config session client) := by
  have hsegments : s₀.segments = [] := by rw [hidle]
  rw [init_buffered hidle hmode]
  exact ⟨rfl, rfl, by simp [State.isBuffered, mode_getD hmode], rfl, hsegments, Cut.nil,
    fun _ => rfl⟩

variable [LE τ] [DecidableLE τ] [Sub τ]

/-- Pruning drops blocks from the front. -/
theorem Rolling.prune (h : Rolling bufferMs events d blocks s) (hne : blocks ≠ []) (now : τ) :
    ∃ pre rest, Rolling bufferMs events (d ++ pre.flatten) rest (s.pruneSegments now) ∧
      DropsOld bufferMs (some now) pre (s.pruneSegments now) := by
  have hcutoff : s.cutoff now = now - bufferMs := by rw [State.cutoff, h.window]
  obtain ⟨pre', hsplit, hhead⟩ := exists_trim (State.startsBy (s.cutoff now)) s.segments
  obtain ⟨pre, rest, hblocks, hpre, hrest⟩ :=
    List.map_eq_append_iff.mp (h.segments.symm.trans hsplit)
  have hcut := h.cut
  rw [hblocks] at hcut
  refine ⟨pre, rest, ⟨h.initialized, h.recorder, h.mode, h.window, hrest.symm, hcut.drop, ?_⟩, ?_⟩
  · intro hnil
    have hsegments : s.segments ≠ [] := by simpa [h.segments] using hne
    have htrim := trim_ne_nil (State.startsBy (s.cutoff now)) hsegments
    rw [← hrest, hnil] at htrim
    exact absurd rfl htrim
  · intro hnil
    have hnil' : pre' ≠ [] := by simpa [← hpre] using hnil
    obtain ⟨seg, hseg, hstart⟩ := hhead hnil'
    exact ⟨now, seg, rfl, hseg, hcutoff ▸ hstart⟩

/-- An event opens a block, with a pruning, or goes to the last one. -/
theorem Rolling.emit (h : Rolling bufferMs events d blocks s) (raw : RawEvent τ) (isCheckout : Bool)
    (now : τ) :
    ∃ pre rest, Rolling bufferMs (events ++ [(raw, isCheckout)]) (d ++ pre.flatten) rest
        (s.emitBuffered raw isCheckout now) ∧
      DropsOld bufferMs (s.prunes (.emit raw isCheckout now)) pre
        (s.emitBuffered raw isCheckout now) := by
  simp only [State.emitBuffered, State.prunes]
  by_cases hopen : (isCheckout || s.segments.isEmpty) = true
  · rw [if_pos hopen, if_pos hopen]
    have hflag : isCheckout = true ∨ events = [] := by
      rcases Bool.or_eq_true_iff.mp hopen with hflag | hempty
      · exact Or.inl hflag
      · exact Or.inr (h.started (by simpa [h.segments] using hempty))
    have hopened : Rolling bufferMs (events ++ [(raw, isCheckout)]) d
        (blocks ++ [[(raw, isCheckout)]]) { s with segments := s.segments ++ [[raw]] } :=
      ⟨h.initialized, h.recorder, h.mode, h.window, by simp [h.segments], h.cut.openBlock hflag,
        by simp⟩
    exact hopened.prune (by simp) now
  · rw [if_neg hopen, if_neg hopen]
    have hblocks : blocks ≠ [] := by
      intro hnil
      simp [h.segments, hnil] at hopen
    refine ⟨[], pushLast (raw, isCheckout) blocks,
      ⟨h.initialized, h.recorder, h.mode, h.window, ?_, ?_, ?_⟩, fun hpre => absurd rfl hpre⟩
    · show pushLast raw s.segments = (pushLast (raw, isCheckout) blocks).map (List.map Prod.fst)
      rw [map_pushLast, h.segments]
    · simpa using h.cut.push hblocks
    · intro hnil
      have hflat := flatten_pushLast (raw, isCheckout) hblocks
      simp [hnil] at hflat

/-- **An input keeps the invariant.** -/
theorem Rolling.step (h : Rolling bufferMs events d blocks s) {a : Action τ} (ha : a ≠ .stop) :
    ∃ pre rest, Rolling bufferMs (events ++ a.emits) (d ++ pre.flatten) rest
        (s.step stringify a) ∧
      DropsOld bufferMs (s.prunes a) pre (s.step stringify a) := by
  have hkeep : a.emits = [] → Rolling bufferMs events d blocks (s.step stringify a) →
      ∃ pre rest, Rolling bufferMs (events ++ a.emits) (d ++ pre.flatten) rest
          (s.step stringify a) ∧
        DropsOld bufferMs (s.prunes a) pre (s.step stringify a) := fun hnone hsame =>
    ⟨[], blocks, by simpa [hnone] using hsame, fun hpre => absurd rfl hpre⟩
  cases a with
  | emit event isCheckout now =>
    have hemit : s.step stringify (.emit event isCheckout now) =
        s.emitBuffered event isCheckout now := by
      simp only [State.step, State.emit, h.recorder]
    rw [hemit]
    exact h.emit event isCheckout now
  | stop => exact absurd rfl ha
  | identify identifier =>
    have hwindow : ((s.identify identifier).config.bind Config.bufferMs).getD
        (bufferMsDefault : τ) = bufferMs := by
      rw [← h.window]
      cases hc : s.config <;> simp [State.identify, hc]
    have hmode : (s.identify identifier).isBuffered = true := by
      rw [← h.mode]
      cases hc : s.config <;> simp [State.identify, State.isBuffered, hc]
    exact hkeep rfl ⟨h.initialized, h.recorder, hmode, hwindow, h.segments, h.cut, h.started⟩
  | _ =>
    obtain ⟨buffer, sent, metaSent, heq⟩ :=
      State.step_sends stringify h.initialized (by simp) (by simp) ha
    refine hkeep rfl ?_
    rw [heq]
    exact ⟨h.initialized, h.recorder, h.mode, h.window, h.segments, h.cut, h.started⟩

/-- **A run keeps the invariant.** -/
theorem Rolling.run (stringify : List (RawEvent τ) → String)
    (h : Rolling bufferMs events d blocks s) {actions : List (Action τ)}
    (hrun : ∀ a ∈ actions, a ≠ .stop) :
    ∃ d' blocks', Rolling bufferMs (events ++ emits actions) d' blocks'
      (s.run stringify actions) := by
  induction actions using List.reverseRecOn with
  | nil => exact ⟨d, blocks, by simpa [emits, State.run] using h⟩
  | append_singleton actions a ih =>
    obtain ⟨d', blocks', hbefore⟩ := ih fun b hb => hrun b (List.mem_append_left _ hb)
    obtain ⟨pre, rest, hlast, -⟩ :=
      hbefore.step (hrun a (List.mem_append_right _ (List.mem_singleton_self a)))
    rw [State.run_concat]
    exact ⟨d' ++ pre.flatten, rest, by simpa [emits] using hlast⟩

end Rolling

/-! ## The retention window -/

section Window

variable {τ : Type} [LinearOrder τ]

/-- The segments start in the order of their timestamps. -/
theorem startsBy_antitone {segments : List (List (RawEvent τ))}
    (hstamps : segments.flatten.Pairwise fun e f => e.timestamp ≤ f.timestamp)
    (hne : ∀ seg ∈ segments, seg ≠ []) (c : τ) :
    segments.Pairwise fun b b' => State.startsBy c b' = true → State.startsBy c b = true := by
  have hbetween := (List.pairwise_flatten.mp hstamps).2
  refine hbetween.imp_of_mem fun {b b'} hb _ hle hstart => ?_
  cases b with
  | nil => exact absurd rfl (hne [] hb)
  | cons e b =>
    cases b' with
    | nil => simp [State.startsBy] at hstart
    | cons e' b' =>
      have hee : e.timestamp ≤ e'.timestamp := hle e List.mem_cons_self e' List.mem_cons_self
      simp only [State.startsBy, decide_eq_true_eq] at hstart ⊢
      exact hee.trans hstart

variable [AddGroup τ] [NatCast τ] {bufferMs : τ} {times : List τ}
  {events d : List (RawEvent τ × Bool)} {blocks pre rest : List (List (RawEvent τ × Bool))}
  {s : State τ}

/-- **What a pruning leaves.** Behind the first segment none starts before the window, and the first
does if any did. -/
theorem Rolling.pruned (h : Rolling bufferMs events d blocks s) (raw : RawEvent τ) (now : τ)
    (hstamps : (events.map Prod.fst ++ [raw]).Pairwise fun e f => e.timestamp ≤ f.timestamp) :
    (∀ seg ∈ (trim (State.startsBy (now - bufferMs)) (s.segments ++ [[raw]])).tail,
        State.startsBy (now - bufferMs) seg = false) ∧
      ((∃ seg ∈ s.segments ++ [[raw]], State.startsBy (now - bufferMs) seg = true) →
        ∃ seg, (trim (State.startsBy (now - bufferMs)) (s.segments ++ [[raw]])).head? = some seg ∧
          State.startsBy (now - bufferMs) seg = true) := by
  have hne : ∀ seg ∈ s.segments ++ [[raw]], seg ≠ [] := by
    intro seg hseg
    rcases List.mem_append.mp hseg with hseg | hseg
    · rw [h.segments] at hseg
      obtain ⟨b, hb, rfl⟩ := List.mem_map.mp hseg
      simpa using h.cut.ne_nil b hb
    · simp [List.mem_singleton.mp hseg]
  have hflat : (s.segments ++ [[raw]]).flatten.Pairwise fun e f => e.timestamp ≤ f.timestamp := by
    rw [h.events_eq, List.append_assoc] at hstamps
    simpa using (List.pairwise_append.mp hstamps).2.1
  have hstarts := startsBy_antitone hflat hne (now - bufferMs)
  exact ⟨trim_tail hstarts, trim_head hstarts⟩

/-- What was dropped is before the retention window of the last pruning. -/
def NothingRecent (bufferMs : τ) (times : List τ) (d : List (RawEvent τ × Bool)) : Prop :=
  ∀ x ∈ d, ∃ now ∈ times.getLast?, x.1.timestamp ≤ now - bufferMs

variable [AddRightMono τ]

omit [NatCast τ] in
/-- The window of a later pruning is not earlier. -/
theorem NothingRecent.later (h : NothingRecent bufferMs times d) {time : Option τ}
    (htimes : (times ++ time.toList).Pairwise (· ≤ ·)) :
    NothingRecent bufferMs (times ++ time.toList) d := by
  cases time with
  | none => simpa using h
  | some now =>
    intro x hx
    obtain ⟨last, hlast, hle⟩ := h x hx
    have hmem : last ∈ times := List.mem_of_getLast? hlast
    have hnow : last ≤ now := (List.pairwise_append.mp htimes).2.2 last hmem now (by simp)
    exact ⟨now, by simp, hle.trans (sub_le_sub_right hnow bufferMs)⟩

/-- What lies before a segment that starts before the window is before the window. -/
theorem Rolling.nothingRecent (h : Rolling bufferMs events (d ++ pre.flatten) rest s)
    (hold : NothingRecent bufferMs times d) {time : Option τ}
    (hdrops : DropsOld bufferMs time pre s)
    (hstamps : events.Pairwise fun x y => x.1.timestamp ≤ y.1.timestamp)
    (htimes : (times ++ time.toList).Pairwise (· ≤ ·)) :
    NothingRecent bufferMs (times ++ time.toList) (d ++ pre.flatten) := by
  by_cases hpre : pre = []
  · simpa [hpre] using hold.later htimes
  obtain ⟨now, seg, rfl, hseg, hstart⟩ := hdrops hpre
  intro x hx
  refine ⟨now, by simp, ?_⟩
  rw [h.segments, List.head?_map] at hseg
  obtain ⟨b, hb, rfl⟩ := Option.map_eq_some_iff.mp hseg
  cases b with
  | nil => simp [State.startsBy] at hstart
  | cons y b =>
    have hy : y ∈ rest.flatten :=
      List.mem_flatten.mpr ⟨_, List.mem_of_mem_head? hb, List.mem_cons_self⟩
    rw [h.cut.split] at hstamps
    have hxy : x.1.timestamp ≤ y.1.timestamp := (List.pairwise_append.mp hstamps).2.2 x hx y hy
    have hyc : y.1.timestamp ≤ now - bufferMs := by simpa [State.startsBy] using hstart
    exact hxy.trans hyc

variable {stringify : List (RawEvent τ) → String}

/-- **A run drops nothing recent.** -/
theorem Rolling.run_nothingRecent (h : Rolling bufferMs [] [] [] s) {actions : List (Action τ)}
    (hrun : ∀ a ∈ actions, a ≠ .stop)
    (hstamps : (emits actions).Pairwise fun x y => x.1.timestamp ≤ y.1.timestamp)
    (htimes : (pruneTimes stringify s actions).Pairwise (· ≤ ·)) :
    ∃ d blocks, Rolling bufferMs (emits actions) d blocks (s.run stringify actions) ∧
      NothingRecent bufferMs (pruneTimes stringify s actions) d := by
  induction actions using List.reverseRecOn with
  | nil => exact ⟨[], [], h, by simp [NothingRecent]⟩
  | append_singleton actions a ih =>
    have hemits : emits (actions ++ [a]) = emits actions ++ a.emits := by simp [emits]
    rw [hemits] at hstamps ⊢
    rw [pruneTimes_concat] at htimes ⊢
    obtain ⟨d, blocks, hbefore, hold⟩ := ih (fun b hb => hrun b (List.mem_append_left _ hb))
      (List.pairwise_append.mp hstamps).1 (List.pairwise_append.mp htimes).1
    obtain ⟨pre, rest, hlast, hdrops⟩ :=
      hbefore.step (hrun a (List.mem_append_right _ (List.mem_singleton_self a)))
    rw [State.run_concat]
    exact ⟨d ++ pre.flatten, rest, hlast, hlast.nothingRecent hold hdrops hstamps htimes⟩

/-! ## Main theorem -/

/-- **The rolling buffer keeps the right window.** In a run in mode `buffered` from `init` on, with
timestamps and clock readings that do not decrease, at every point the segments are the blocks of
what was emitted after `dropped`, none is empty and all but the first start with a checkout, and
what was dropped is at or before the start of the window of the last pruning. A further event that
opens a segment prunes: behind the first segment none starts at or before the cutoff, and the first
does if one did before. -/
theorem rolling_window {s₀ s : State τ} (hreach : s₀.Reachable stringify)
    (hidle : s₀.initialized = false) (config : Config τ) (hmode : config.mode ≠ some .always)
    (hms : bufferMs = config.bufferMs.getD (bufferMsDefault : τ)) (session : SessionHandle)
    (client : ClientMeta String) (actions : List (Action τ)) (hrun : ∀ a ∈ actions, a ≠ .stop)
    (hs : s = (s₀.init config session client).run stringify actions)
    (hstamps : (emitted actions).Pairwise fun e f => e.timestamp ≤ f.timestamp)
    (htimes : times = pruneTimes stringify (s₀.init config session client) actions)
    (hclock : times.Pairwise (· ≤ ·)) :
    (∃ (dropped : List (RawEvent τ × Bool)) (blocks : List (List (RawEvent τ × Bool))),
      emits actions = dropped ++ blocks.flatten ∧
      s.segments = blocks.map (List.map Prod.fst) ∧
      (∀ b ∈ blocks, b ≠ []) ∧
      (∀ b ∈ blocks.tail, ∀ x ∈ b.head?, x.2 = true) ∧
      ∀ x ∈ dropped, ∃ now ∈ times.getLast?, x.1.timestamp ≤ now - bufferMs) ∧
    s.segments.flatten <:+ emitted actions ∧
    ∀ raw isCheckout now, isCheckout = true ∨ s.segments = [] →
      (∀ e ∈ emitted actions, e.timestamp ≤ raw.timestamp) →
      ∃ before after, before = s.segments ++ [[raw]] ∧
        (s.step stringify (.emit raw isCheckout now)).segments = after ∧
        (∀ seg ∈ after.tail, State.startsBy (now - bufferMs) seg = false) ∧
        ((∃ seg ∈ before, State.startsBy (now - bufferMs) seg = true) →
          ∃ seg, after.head? = some seg ∧ State.startsBy (now - bufferMs) seg = true) := by
  have hidle' : s₀.Idle := (State.idle_or_initialized hreach).resolve_right (by simp [hidle])
  have hstart := rolling_init hidle' config hmode session client
  rw [← hms] at hstart
  have hstamps' : (emits actions).Pairwise fun x y => x.1.timestamp ≤ y.1.timestamp := by
    rwa [← map_fst_emits, List.pairwise_map] at hstamps
  obtain ⟨dropped, blocks, hend, hrecent⟩ := hstart.run_nothingRecent hrun hstamps' (htimes ▸ hclock)
  rw [← hs] at hend
  rw [← htimes] at hrecent
  refine ⟨⟨dropped, blocks, hend.cut.split, hend.segments, hend.cut.ne_nil, hend.cut.later,
    hrecent⟩, ?_, ?_⟩
  · rw [← map_fst_emits, hend.events_eq]
    exact List.suffix_append _ _
  · intro raw isCheckout now hopen hraw
    have hopen' : (isCheckout || s.segments.isEmpty) = true := by simpa using hopen
    have hemit : (s.step stringify (.emit raw isCheckout now)).segments =
        trim (State.startsBy (now - bufferMs)) (s.segments ++ [[raw]]) := by
      simp only [State.step, State.emit, hend.recorder, State.emitBuffered, hopen', if_true,
        State.pruneSegments, State.cutoff, hend.window]
    have hsorted : ((emits actions).map Prod.fst ++ [raw]).Pairwise
        fun e f => e.timestamp ≤ f.timestamp := by
      rw [map_fst_emits, List.pairwise_append]
      exact ⟨hstamps, by simp, by simpa using hraw⟩
    exact ⟨_, _, rfl, hemit, hend.pruned raw now hsorted⟩

end Window

/-- The second checkout drops the page load, which is before the two minutes. -/
theorem rolling_window_page_load : ∃ s dropped blocks,
    s = State.run stringifyBare (State.init {} (sampleConfig .buffered) sampleHandle sampleClient)
      sampleEmits ∧
    s.segments.map List.length = [2, 1, 1] ∧ emits sampleEmits = dropped ++ List.flatten blocks ∧
    s.segments = blocks.map (List.map Prod.fst) ∧
    ∀ x ∈ dropped, x.1.timestamp ≤ 200001 - 120000 := by
  have hreach : State.Reachable stringifyBare ({} : State ℤ) := ⟨[], rfl⟩
  obtain ⟨⟨dropped, blocks, hsplit, hsegments, -, -, hdropped⟩, -, -⟩ :=
    rolling_window hreach rfl (sampleConfig .buffered) (by decide) rfl sampleHandle sampleClient
      sampleEmits (by simp [sampleEmits]) rfl (by decide) rfl (by decide)
  have hlast : (pruneTimes stringifyBare (State.init {} (sampleConfig .buffered) sampleHandle
      sampleClient) sampleEmits).getLast? = some 200001 := by decide
  refine ⟨_, dropped, blocks, rfl, by decide, hsplit, hsegments, fun x hx => ?_⟩
  obtain ⟨now, hnow, hle⟩ := hdropped x hx
  rw [hlast] at hnow
  obtain rfl : 200001 = now := by simpa using hnow
  exact hle

end Sdk

end BatRewind
