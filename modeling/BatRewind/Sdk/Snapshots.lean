import BatRewind.Sdk.Buffered

/-!
# Mode `buffered`: every upload starts from a snapshot

A segment is opened by the flag `isCheckout` and not by the type of the event, and a checkout may
open two of them; pruning may cut between the two, on any clock.

* `Emission`: the order in which rrweb emits, with a FullSnapshot right behind the Meta event of a
  checkout.
* `Replayable`: every incremental event is preceded by a FullSnapshot.
* **`buffered_replayable`**: what `report` or the error handler uploads is replayable.
-/

namespace BatRewind

namespace Sdk

open Encoding Blocks

/-! ## What rrweb emits -/

/-- The rrweb type of an incremental event. -/
def incremental : ℤ := 3

/-- The rrweb type of a Meta event. -/
def metaEvent : ℤ := 4

section Emission

variable {τ : Type}

/-- **The order of emission**, with no checkout half emitted: events without a flag and checkouts, a
flagged Meta event that a FullSnapshot follows. -/
inductive Emission : List (RawEvent τ × Bool) → Prop
  | nil : Emission []
  | plain (e : RawEvent τ) (es : List (RawEvent τ × Bool)) :
      Emission es → Emission ((e, false) :: es)
  | checkout (m f : RawEvent τ) (flag : Bool) (es : List (RawEvent τ × Bool))
      (hm : m.type = metaEvent) (hf : f.type = fullSnapshot) :
      Emission es → Emission ((m, true) :: (f, flag) :: es)

/-- Every incremental event is preceded by a FullSnapshot. -/
def Replayable (events : List (RawEvent τ)) : Prop :=
  ∀ pre e post, events = pre ++ e :: post → e.type = incremental → ∃ f ∈ pre, f.type = fullSnapshot

variable {e : RawEvent τ} {events : List (RawEvent τ)} {es d : List (RawEvent τ × Bool)}

theorem replayable_nil : Replayable ([] : List (RawEvent τ)) := by
  intro pre e post h
  simp at h

/-- A FullSnapshot makes what follows replayable. -/
theorem replayable_of_snapshot (he : e.type = fullSnapshot) : Replayable (e :: events) := by
  intro pre x post h hx
  cases pre with
  | nil =>
    obtain ⟨rfl, -⟩ := List.cons.inj h
    rw [he] at hx
    exact absurd hx (by decide)
  | cons y pre =>
    obtain ⟨rfl, -⟩ := List.cons.inj h
    exact ⟨e, List.mem_cons_self, he⟩

theorem Replayable.cons (h : Replayable events) (he : e.type ≠ incremental) :
    Replayable (e :: events) := by
  intro pre x post heq hx
  cases pre with
  | nil =>
    obtain ⟨rfl, -⟩ := List.cons.inj heq
    exact absurd hx he
  | cons y pre =>
    obtain ⟨rfl, hrest⟩ := List.cons.inj heq
    obtain ⟨f, hf, htype⟩ := h pre x post hrest hx
    exact ⟨f, List.mem_cons_of_mem _ hf, htype⟩

/-- **From a flagged event on, an emission is replayable.** -/
theorem Emission.replayable (h : Emission es) {rest : List (RawEvent τ × Bool)}
    (hsplit : es = d ++ (e, true) :: rest) : Replayable (e :: rest.map Prod.fst) := by
  induction h generalizing d with
  | nil => simp at hsplit
  | plain x es h ih =>
    cases d with
    | nil => simp at hsplit
    | cons y d => exact ih (List.cons.inj hsplit).2
  | checkout m f flag es hm hf h ih =>
    match d, hsplit with
    | [], hsplit =>
      -- the cut is before the Meta event
      obtain ⟨hfst, rfl⟩ := List.cons.inj hsplit
      obtain ⟨rfl, -⟩ := Prod.mk.inj hfst
      exact (replayable_of_snapshot hf).cons (by rw [hm]; decide)
    | [_], hsplit =>
      -- the cut is between the two events of the checkout
      obtain ⟨-, htail⟩ := List.cons.inj hsplit
      obtain ⟨hfst, rfl⟩ := List.cons.inj htail
      obtain ⟨rfl, -⟩ := Prod.mk.inj hfst
      exact replayable_of_snapshot hf
    | _ :: _ :: d, hsplit => exact ih (List.cons.inj (List.cons.inj hsplit).2).2

end Emission

/-! ## Main theorem -/

section Replayable

variable {τ : Type} [NatCast τ] {bufferMs : τ} {events d : List (RawEvent τ × Bool)}
  {blocks : List (List (RawEvent τ × Bool))} {s : State τ}

/-- The rolling buffer is replayable if no checkout is half emitted. -/
theorem Rolling.replayable (h : Rolling bufferMs events d blocks s)
    (hstart : Replayable (events.map Prod.fst)) (hemission : Emission events) :
    Replayable s.segments.flatten := by
  have hflat : s.segments.flatten = blocks.flatten.map Prod.fst := by
    rw [h.segments, List.map_flatten]
  by_cases hd : d = []
  · -- nothing was dropped
    rw [h.cut.split, hd, List.nil_append] at hstart
    rwa [hflat]
  cases blocks with
  | nil => simpa [hflat] using replayable_nil
  | cons b blocks =>
    cases b with
    | nil => exact absurd rfl (h.cut.ne_nil [] List.mem_cons_self)
    | cons x b =>
      obtain ⟨e, flag⟩ := x
      have hflag : flag = true := h.cut.first hd _ rfl (e, flag) rfl
      have hsplit := h.cut.split
      rw [hflag, List.flatten_cons, List.cons_append] at hsplit
      rw [hflat]
      exact hemission.replayable hsplit

variable [LE τ] [DecidableLE τ] [Sub τ] {stringify : List (RawEvent τ) → String}

/-- **Every upload of the rolling buffer is replayable.** In a run in mode `buffered` from `init`
on, for any clock readings and timestamps, when no checkout is half emitted, what `report` or the
error handler hands to `sendBatch` is the rolling buffer, and every incremental event of it is
preceded by a FullSnapshot. -/
theorem buffered_replayable {s₀ : State τ} (hreach : s₀.Reachable stringify)
    (hidle : s₀.initialized = false) (config : Config τ) (hmode : config.mode ≠ some .always)
    (session : SessionHandle) (client : ClientMeta String) (actions : List (Action τ))
    (hrun : ∀ a ∈ actions, a ≠ .stop)
    (hs : s = (s₀.init config session client).run stringify actions)
    (hstart : Replayable (emitted actions)) (hemission : Emission (emits actions)) {a : Action τ}
    (ha : a = .report ∨ a = .error) :
    ∃ batches, (s.step stringify a).sent = s.sent ++ batches ∧
      ∀ b ∈ batches, b.payload.events = s.segments.flatten ∧ Replayable b.payload.events := by
  have hidle' : s₀.Idle := (State.idle_or_initialized hreach).resolve_right (by simp [hidle])
  have hinit := rolling_init hidle' config hmode session client
  obtain ⟨d, blocks, hend⟩ := hinit.run stringify hrun
  rw [List.nil_append, ← hs] at hend
  have hreplay : Replayable s.segments.flatten :=
    hend.replayable (by rwa [map_fst_emits]) hemission
  have hupload : ∀ trigger keepalive, ∃ batches,
      (s.uploadBuffer trigger keepalive).sent = s.sent ++ batches ∧
        ∀ b ∈ batches, b.payload.events = s.segments.flatten ∧ Replayable b.payload.events := by
    intro trigger keepalive
    rcases State.uploadBuffer_cases s trigger keepalive with heq | ⟨batch, metaSent, hev, -, heq⟩
    · exact ⟨[], by simp [heq], by simp⟩
    · refine ⟨[batch], by rw [heq], fun b hb => ?_⟩
      obtain rfl := List.mem_singleton.mp hb
      exact ⟨hev, hev ▸ hreplay⟩
  have hnone : ∃ batches, s.sent = s.sent ++ batches ∧
      ∀ b ∈ batches, b.payload.events = s.segments.flatten ∧ Replayable b.payload.events :=
    ⟨[], by simp, by simp⟩
  rcases ha with rfl | rfl
  · simp only [State.step, State.report, hend.mode, if_true]
    exact hupload .manual false
  · simp only [State.step, State.onError]
    split_ifs
    · exact hupload .error true
    · exact hnone
    · exact hnone

end Replayable

/-- The page load was dropped, and `report` uploads the two checkouts. -/
theorem buffered_replayable_page_load : ∃ s batches, s =
      State.run stringifyBare (State.init {} (sampleConfig .buffered) sampleHandle sampleClient)
        sampleEmits ∧
    (s.step stringifyBare .report).sent = batches ∧ batches.length = 1 ∧
    ∀ b ∈ batches, Replayable b.payload.events := by
  have hreach : State.Reachable stringifyBare ({} : State ℤ) := ⟨[], rfl⟩
  have hemission : Emission (emits sampleEmits) :=
    .plain _ _ <| .plain _ _ <| .plain _ _ <| .checkout _ _ _ _ rfl rfl <|
      .checkout _ _ _ _ rfl rfl .nil
  have hstart : Replayable (emitted sampleEmits) :=
    (replayable_of_snapshot rfl).cons (by decide)
  obtain ⟨batches, hsent, hbatches⟩ :=
    buffered_replayable hreach rfl (sampleConfig .buffered) (by decide) sampleHandle sampleClient
      sampleEmits (by simp [sampleEmits]) rfl hstart hemission (Or.inl rfl)
  have hone : ((State.run stringifyBare (State.init {} (sampleConfig .buffered) sampleHandle
      sampleClient) sampleEmits).step stringifyBare .report).sent.length = 1 := by decide
  have hnone : (State.run stringifyBare (State.init {} (sampleConfig .buffered) sampleHandle
      sampleClient) sampleEmits).sent = [] := rfl
  rw [hnone, List.nil_append] at hsent
  exact ⟨_, batches, rfl, hsent, hsent ▸ hone, fun b hb => (hbatches b hb).2⟩

end Sdk

end BatRewind
