import Mathlib.Data.List.Count

/-!
# Texts made of lines

Lists joined by a separator, and split at it again.

* `count_intercalate`, `length_splitOn`: the separators of a text, and its lines.
* **`splitOn_intercalate_iff`**, **`length_splitOn_intercalate_iff`**: the lines are those that were
  joined, or as many, exactly if none of these has a separator in it.
-/

namespace Lines

variable {α : Type} [DecidableEq α] {x : α} {l : List α} {ls : List (List α)}

theorem length_splitOn (x : α) (l : List α) : (l.splitOn x).length = l.count x + 1 := by
  induction l with
  | nil => rfl
  | cons a l ih =>
    rw [List.splitOn_cons_eq_if_modifyHead, List.count_cons]
    split_ifs
    · rw [List.length_cons, ih]
    · rw [List.length_modifyHead, ih, Nat.add_zero]

/-- The separators between the lines and those inside. -/
theorem count_intercalate (hls : ls ≠ []) :
    ([x].intercalate ls).count x + 1 = ls.length + ls.flatten.count x := by
  induction ls with
  | nil => exact absurd rfl hls
  | cons l ls ih =>
    cases ls with
    | nil => simp [List.intercalate_singleton, Nat.add_comm]
    | cons l' ls =>
      have hrest := ih (List.cons_ne_nil _ _)
      rw [List.intercalate_cons_cons, List.count_append, List.count_append,
        List.count_singleton_self, List.length_cons, List.flatten_cons, List.count_append]
      omega

/-- **As many lines as were joined.** -/
theorem length_splitOn_intercalate_iff (hls : ls ≠ []) :
    (([x].intercalate ls).splitOn x).length = ls.length ↔ ∀ l ∈ ls, x ∉ l := by
  rw [length_splitOn, count_intercalate hls, Nat.add_eq_left, List.count_eq_zero,
    List.mem_flatten]
  exact ⟨fun h l hl hx => h ⟨l, hl, hx⟩, fun h ⟨l, hl, hx⟩ => h l hl hx⟩

/-- **The lines that were joined.** -/
theorem splitOn_intercalate_iff (hls : ls ≠ []) :
    ([x].intercalate ls).splitOn x = ls ↔ ∀ l ∈ ls, x ∉ l :=
  ⟨fun h => (length_splitOn_intercalate_iff hls).mp (congrArg List.length h),
    fun h => List.splitOn_intercalate x h hls⟩

end Lines
