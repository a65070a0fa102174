import Mathlib.Data.List.Nodup

/-!
# Values that are kept or renewed

A run starts with a value, and each step keeps the value or takes a new one.

* `values`: the values of a run; `head_eq_iff`: when the first one is still there.
* **`values_eq_iff`**: if the new values differ from each other and from the first one in what `f`
  says of them, two values of the run are alike exactly if every step between them kept the value.
-/

namespace Renewal

variable {α β : Type}

/-- The values of a run that starts with `a`. A step tells whether the value is kept, and the value
that is taken otherwise. -/
def values (a : α) : List (Bool × α) → List α
  | [] => [a]
  | step :: steps => a :: values (if step.1 then a else step.2) steps

/-- A value of a run is the first one or a new one. -/
theorem mem_values {a x : α} {steps : List (Bool × α)} (h : x ∈ values a steps) :
    x ∈ a :: steps.map Prod.snd := by
  induction steps generalizing a with
  | nil => exact h
  | cons step steps ih =>
    rw [List.map_cons]
    rcases List.mem_cons.mp h with rfl | h
    · exact List.mem_cons_self
    · have hrest := ih h
      split_ifs at hrest
      · rcases List.mem_cons.mp hrest with rfl | hrest
        · exact List.mem_cons_self
        · exact List.mem_cons_of_mem _ (List.mem_cons_of_mem _ hrest)
      · exact List.mem_cons_of_mem _ hrest

/-- What is new after the first step. -/
theorem nodup_next {f : α → β} {a : α} {step : Bool × α} {steps : List (Bool × α)}
    (h : ((a :: (step :: steps).map Prod.snd).map f).Nodup) :
    (((if step.1 then a else step.2) :: steps.map Prod.snd).map f).Nodup := by
  rw [List.map_cons, List.map_cons, List.map_cons] at h
  split_ifs
  · exact h.sublist ((List.sublist_cons_self _ _).cons_cons _)
  · exact h.of_cons

theorem values_zero (a : α) (steps : List (Bool × α)) : (values a steps)[0]? = some a := by
  cases steps <;> rfl

/-- The first value does not come back once a new one is taken. -/
theorem head_eq_iff (f : α → β) {a y : α} {steps : List (Bool × α)} {j : ℕ}
    (hnew : ((a :: steps.map Prod.snd).map f).Nodup) (hy : (values a steps)[j]? = some y) :
    f a = f y ↔ ∀ k, k < j → ∀ step, steps[k]? = some step → step.1 = true := by
  induction steps generalizing j with
  | nil =>
    rcases j with _ | j
    · exact iff_of_true (congrArg f (Option.some.inj hy)) fun k hk => absurd hk (Nat.not_lt_zero k)
    · cases hy
  | cons step steps ih =>
    rcases j with _ | j
    · exact iff_of_true (congrArg f (Option.some.inj hy)) fun k hk => absurd hk (Nat.not_lt_zero k)
    rw [values, List.getElem?_cons_succ] at hy
    have hnext := nodup_next hnew
    by_cases hkeep : step.1 = true
    · rw [if_pos hkeep] at hy hnext
      rw [ih hnext hy]
      constructor
      · rintro h (_ | k) hk s hs
        · exact Option.some.inj hs ▸ hkeep
        · exact h k (by omega) s hs
      · intro h k hk s hs
        exact h (k + 1) (by omega) s hs
    · rw [if_neg hkeep] at hy
      refine iff_of_false (fun heq => ?_) fun h => hkeep (h 0 (Nat.succ_pos j) step rfl)
      have hmem := List.mem_map_of_mem (f := f) (mem_values (List.mem_of_getElem? hy))
      exact (List.nodup_cons.mp hnew).1 (heq ▸ hmem)

/-- **Two values of a run are alike exactly if no step between them took a new one.** -/
theorem values_eq_iff (f : α → β) {a x y : α} {steps : List (Bool × α)} {i j : ℕ}
    (hnew : ((a :: steps.map Prod.snd).map f).Nodup) (hij : i ≤ j)
    (hx : (values a steps)[i]? = some x) (hy : (values a steps)[j]? = some y) :
    f x = f y ↔ ∀ k, i ≤ k → k < j → ∀ step, steps[k]? = some step → step.1 = true := by
  induction i generalizing a steps j with
  | zero =>
    obtain rfl := Option.some.inj ((values_zero a steps).symm.trans hx)
    rw [head_eq_iff f hnew hy]
    exact ⟨fun h k _ => h k, fun h k => h k (Nat.zero_le k)⟩
  | succ i ih =>
    obtain ⟨j, rfl⟩ : ∃ n, j = n + 1 := ⟨j - 1, by omega⟩
    cases steps with
    | nil => cases hx
    | cons step steps =>
      rw [values, List.getElem?_cons_succ] at hx hy
      rw [ih (nodup_next hnew) (by omega) hx hy]
      constructor
      · rintro h (_ | k) hik hk s hs
        · omega
        · exact h k (by omega) (by omega) s hs
      · intro h k hik hk s hs
        exact h (k + 1) (by omega) (by omega) s hs

end Renewal
