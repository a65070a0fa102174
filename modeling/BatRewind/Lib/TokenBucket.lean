import Mathlib.Algebra.Order.Field.Basic
import Mathlib.Data.List.Basic
import Mathlib.Data.List.GetD
import Mathlib.Data.List.Induction
import Mathlib.Tactic.Linarith

/-!
# Token buckets

A bucket holds at most `burst` tokens, gains `rate` of them per unit of time, and each call takes
one or is refused. The readings of the clock need not increase.

* `take`: one call; `level`: the tokens that it finds.
* `Describes`: what a bucket holds after a history of calls, by all of its past starts;
  kept by each call (`Describes.take`).
* **`Describes.le_level_iff`**: the level is the least, over the past starts, of what a full bucket
  would hold since then. **`Describes.take_iff`**: so a call is allowed exactly if it fits.
* **`allowed_serveAll_le`**: how many calls are allowed in a span of time.
-/

namespace Buckets

variable {K : Type}

/-- The tokens after the last call, and its reading. -/
structure Bucket (K : Type) where
  tokens : K
  last : K

section Bucket

variable [Field K] [LinearOrder K] (rate burst : K)

/-- The tokens that a call finds. A new bucket is full. -/
def level : Option (Bucket K) → K → K
  | none, _ => burst
  | some b, now => min burst (b.tokens + (now - b.last) * rate)

/-- A call: whether it is allowed, and the bucket afterwards. -/
def take (o : Option (Bucket K)) (now : K) : Bool × Bucket K :=
  if 1 ≤ level rate burst o now then (true, ⟨level rate burst o now - 1, now⟩)
  else (false, ⟨level rate burst o now, now⟩)

theorem take_fst (o : Option (Bucket K)) (now : K) :
    (take rate burst o now).1 = true ↔ 1 ≤ level rate burst o now := by
  unfold take
  split_ifs with h
  · exact iff_of_true rfl h
  · exact iff_of_false (by simp) h

end Bucket

/-! ## Histories -/

/-- The number of allowed calls. The entries of a history are a reading and an answer. -/
def allowed (h : List (K × Bool)) : ℕ := h.countP Prod.snd

/-- The reading of call `i` of a history, or of the call after it. -/
def readingAt (h : List (K × Bool)) (now : K) (i : ℕ) : K := (h.map Prod.fst).getD i now

section History

variable {h : List (K × Bool)} {now : K} {i : ℕ}

theorem readingAt_length : readingAt h now h.length = now := by
  rw [readingAt, List.getD_eq_default _ _ (by simp)]

theorem readingAt_of_lt (now last : K) (hi : i < h.length) :
    readingAt h now i = readingAt h last i := by
  have hi' : i < (h.map Prod.fst).length := by simpa using hi
  rw [readingAt, readingAt, List.getD_eq_getElem _ _ hi', List.getD_eq_getElem _ _ hi']

theorem readingAt_concat {answer : Bool} (hi : i ≤ h.length) :
    readingAt (h ++ [(now, answer)]) now i = readingAt h now i := by
  rcases Nat.lt_or_eq_of_le hi with hlt | rfl
  · have hlt' : i < (h.map Prod.fst).length := by simpa using hlt
    rw [readingAt, readingAt, List.map_append, List.getD_append _ _ _ _ hlt']
  · rw [readingAt_length, readingAt, List.map_append, List.getD_append_right _ _ _ _ (by simp)]
    simp

theorem allowed_drop_concat {e : K × Bool} (hi : i ≤ h.length) :
    allowed ((h ++ [e]).drop i) = allowed (h.drop i) + if e.2 then 1 else 0 := by
  rw [List.drop_append_of_le_length hi, allowed, List.countP_append, List.countP_singleton]
  rfl

end History

section Describes

variable [Field K] [LinearOrder K] [IsStrictOrderedRing K] (rate burst : K)

/-- **What a bucket holds**: at most what a full bucket would after any call `i` of the history. -/
def Describes (h : List (K × Bool)) : Option (Bucket K) → Prop
  | none => h = []
  | some b => ∀ x, x ≤ b.tokens ↔
      ∀ i < h.length, x + allowed (h.drop i) ≤ burst + rate * (b.last - readingAt h b.last i)

variable {rate burst} {h : List (K × Bool)} {o : Option (Bucket K)}

/-- **The level as a minimum over all past starts.** -/
theorem Describes.le_level_iff (hd : Describes rate burst h o) (now x : K) :
    x ≤ level rate burst o now ↔ ∀ i ≤ h.length,
      x + allowed (h.drop i) ≤ burst + rate * (now - readingAt h now i) := by
  have hlast : x + (allowed (h.drop h.length) : K) ≤
      burst + rate * (now - readingAt h now h.length) ↔ x ≤ burst := by
    rw [readingAt_length, List.drop_length]
    simp [allowed]
  cases o with
  | none =>
    obtain rfl : h = [] := hd
    rw [level, ← hlast]
    exact ⟨fun hx i hi => by rwa [Nat.le_zero.1 hi], fun hx => hx 0 le_rfl⟩
  | some b =>
    have hmove : ∀ i < h.length, (x - (now - b.last) * rate + allowed (h.drop i) ≤
        burst + rate * (b.last - readingAt h b.last i) ↔
          x + allowed (h.drop i) ≤ burst + rate * (now - readingAt h now i)) := by
      intro i hi
      rw [readingAt_of_lt now b.last hi]
      rw [mul_sub, mul_sub, sub_mul, mul_comm now rate, mul_comm b.last rate]
      constructor <;> intro hle <;> linarith
    rw [level, le_min_iff, ← sub_le_iff_le_add, hd, ← hlast]
    constructor
    · rintro ⟨hfull, hpast⟩ i hi
      rcases Nat.lt_or_eq_of_le hi with hlt | rfl
      · exact (hmove i hlt).1 (hpast i hlt)
      · exact hfull
    · intro hall
      exact ⟨hall _ le_rfl, fun i hi => (hmove i hi).2 (hall i hi.le)⟩

/-- **Greedy**: a call is allowed exactly if it fits since every past start. -/
theorem Describes.take_iff (hd : Describes rate burst h o) (now : K) :
    (take rate burst o now).1 = true ↔ ∀ i ≤ h.length,
      (allowed (h.drop i) : K) + 1 ≤ burst + rate * (now - readingAt h now i) := by
  rw [take_fst, hd.le_level_iff]
  simp only [add_comm (1 : K)]

/-- **One call.** -/
theorem Describes.take (hd : Describes rate burst h o) (now : K) :
    Describes rate burst (h ++ [(now, (take rate burst o now).1)])
      (some (Buckets.take rate burst o now).2) := by
  -- what is taken off the level is what the call adds to the history
  have htokens : (Buckets.take rate burst o now).2 =
      ⟨level rate burst o now - if (Buckets.take rate burst o now).1 then 1 else 0, now⟩ := by
    unfold Buckets.take
    split_ifs <;> simp_all
  intro x
  rw [htokens]
  dsimp only
  rw [le_sub_iff_add_le, hd.le_level_iff, List.length_append, List.length_singleton]
  refine forall_congr' fun i => ⟨fun hx hi => ?_, fun hx hi => ?_⟩
  · have hi' : i ≤ h.length := Nat.le_of_lt_succ hi
    rw [readingAt_concat hi', allowed_drop_concat hi']
    have hle := hx hi'
    push_cast
    linarith
  · have hle := hx (Nat.lt_succ_of_le hi)
    rw [readingAt_concat hi, allowed_drop_concat hi] at hle
    push_cast at hle
    linarith

end Describes

/-! ## Runs -/

section Serve

variable [Field K] [LinearOrder K] (rate burst : K)

/-- Serve a call and record its answer. -/
def serve (s : Option (Bucket K) × List (K × Bool)) (now : K) :
    Option (Bucket K) × List (K × Bool) :=
  (some (take rate burst s.1 now).2, s.2 ++ [(now, (take rate burst s.1 now).1)])

/-- Serve the calls of a new caller. -/
def serveAll (readings : List K) : Option (Bucket K) × List (K × Bool) :=
  readings.foldl (serve rate burst) (none, [])

theorem serveAll_concat (readings : List K) (now : K) :
    serveAll rate burst (readings ++ [now]) = serve rate burst (serveAll rate burst readings) now :=
  List.foldl_concat (serve rate burst) _ now readings

/-- The history has the readings. -/
theorem map_fst_serveAll (readings : List K) :
    (serveAll rate burst readings).2.map Prod.fst = readings := by
  induction readings using List.reverseRecOn with
  | nil => rfl
  | append_singleton readings now ih => simp [serveAll_concat, serve, ih]

end Serve

section Runs

variable [Field K] [LinearOrder K] [IsStrictOrderedRing K] (rate burst : K)

/-- **The bucket of a caller is described by its history.** -/
theorem describes_serveAll (readings : List K) :
    Describes rate burst (serveAll rate burst readings).2 (serveAll rate burst readings).1 := by
  induction readings using List.reverseRecOn with
  | nil => rfl
  | append_singleton readings now ih =>
    rw [serveAll_concat]
    exact ih.take now

variable {rate burst} in
/-- **A bound for any span of time**: of the calls with readings between `t₀` and `t₁` at most
`burst + rate * (t₁ - t₀)` are allowed. -/
theorem allowed_serveAll_le (hrate : 0 ≤ rate) (hburst : 0 ≤ burst) {t₀ t₁ : K} (ht : t₀ ≤ t₁)
    {readings : List K} (h : ∀ r ∈ readings, t₀ ≤ r ∧ r ≤ t₁) :
    (allowed (serveAll rate burst readings).2 : K) ≤ burst + rate * (t₁ - t₀) := by
  induction readings using List.reverseRecOn with
  | nil =>
    have hspan : 0 ≤ rate * (t₁ - t₀) := mul_nonneg hrate (sub_nonneg.mpr ht)
    have hnone : allowed (serveAll rate burst ([] : List K)).2 = 0 := rfl
    rw [hnone, Nat.cast_zero]
    exact add_nonneg hburst hspan
  | append_singleton readings now ih =>
    have hpast : ∀ r ∈ readings, t₀ ≤ r ∧ r ≤ t₁ := fun r hr => h r (List.mem_append_left _ hr)
    obtain ⟨-, hnow⟩ := h now (List.mem_append_right _ (List.mem_singleton_self now))
    have hreadings : (serveAll rate burst readings).2.map Prod.fst = readings :=
      map_fst_serveAll rate burst readings
    have hd := describes_serveAll rate burst readings
    rw [serveAll_concat, serve]
    generalize serveAll rate burst readings = x at *
    by_cases hallowed : (take rate burst x.1 now).1 = true
    · -- the call is allowed because it fits since the first one
      have hfits := (hd.take_iff now).1 hallowed 0 (Nat.zero_le _)
      have hfirst : t₀ ≤ readingAt x.2 now 0 := by
        rw [readingAt, hreadings]
        cases readings with
        | nil => exact (h now (by simp)).1
        | cons r rs => exact (hpast r List.mem_cons_self).1
      have hspan : rate * (now - readingAt x.2 now 0) ≤ rate * (t₁ - t₀) :=
        mul_le_mul_of_nonneg_left (sub_le_sub hnow hfirst) hrate
      have hcount : allowed (x.2 ++ [(now, true)]) = allowed x.2 + 1 := by simp [allowed]
      rw [hallowed, hcount, Nat.cast_add, Nat.cast_one]
      rw [List.drop_zero] at hfits
      linarith
    · have hcount : allowed (x.2 ++ [(now, false)]) = allowed x.2 := by simp [allowed]
      rw [Bool.eq_false_iff.mpr hallowed, hcount]
      exact ih hpast

end Runs

end Buckets
