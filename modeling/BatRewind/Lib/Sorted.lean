import Mathlib.Data.List.Sort
import Mathlib.Order.Basic

/-!
# Lists sorted by a key

Which lists are sorted by a key, when several elements may have the same key.

* `eq_of_perm_of_keys`, **`map_eq_of_perm_of_keys`**: two sorted lists with the same elements
  agree in every attribute that elements with the same key share.
* `exists_swap`: if two elements with the same key differ in an attribute, another sorted list with
  the same elements shows the difference.
-/

namespace Sorted

variable {α β κ : Type} [PartialOrder κ] {key : α → κ} {f : α → β} {l l' : List α}

/-- **Sorted lists with the same elements** agree in what elements with one key share. -/
theorem map_eq_of_perm_of_keys (hperm : l'.Perm l) (hl : l.Pairwise fun a b => key a ≤ key b)
    (hl' : l'.Pairwise fun a b => key a ≤ key b)
    (hf : ∀ a ∈ l, ∀ b ∈ l, key a = key b → f a = f b) : l'.map f = l.map f := by
  -- pairing the attribute with the key makes the order antisymmetric on the elements
  have hanti : ∀ p q, p ∈ l'.map (fun a => (key a, f a)) → q ∈ l.map (fun a => (key a, f a)) →
      p.1 ≤ q.1 → q.1 ≤ p.1 → p = q := by
    intro p q hp hq hpq hqp
    obtain ⟨a, ha, rfl⟩ := List.mem_map.mp hp
    obtain ⟨b, hb, rfl⟩ := List.mem_map.mp hq
    have hk : key a = key b := le_antisymm hpq hqp
    rw [hk, hf a (hperm.mem_iff.mp ha) b hb hk]
  have hpair := List.Perm.eq_of_pairwise hanti (List.pairwise_map.mpr hl')
    (List.pairwise_map.mpr hl) (hperm.map _)
  have h := congrArg (List.map Prod.snd) hpair
  simpa only [List.map_map, Function.comp_def] using h

/-- Sorted lists with the same elements and distinct keys are equal. -/
theorem eq_of_perm_of_keys (hperm : l'.Perm l) (hl : l.Pairwise fun a b => key a ≤ key b)
    (hl' : l'.Pairwise fun a b => key a ≤ key b) (hnd : (l.map key).Nodup) : l' = l := by
  have h := map_eq_of_perm_of_keys (f := id) hperm hl hl'
    fun a ha b hb hk => List.inj_on_of_nodup_map hnd ha hb hk
  simpa only [List.map_id] using h

theorem exists_split {a b : α} (ha : a ∈ l) (hb : b ∈ l) (hne : a ≠ b) :
    ∃ l₁ x l₂ y l₃, l = l₁ ++ x :: (l₂ ++ y :: l₃) ∧ ((x = a ∧ y = b) ∨ (x = b ∧ y = a)) := by
  obtain ⟨l₁, m, rfl⟩ := List.append_of_mem ha
  rcases List.mem_append.mp hb with h | h
  · obtain ⟨l₀, l₂, rfl⟩ := List.append_of_mem h
    exact ⟨l₀, b, l₂, a, m, by simp, Or.inr ⟨rfl, rfl⟩⟩
  · obtain ⟨l₂, l₃, rfl⟩ := List.append_of_mem ((List.mem_cons.mp h).resolve_left hne.symm)
    exact ⟨l₁, a, l₂, b, l₃, rfl, Or.inl ⟨rfl, rfl⟩⟩

/-- Two elements with one key can be exchanged. -/
theorem exists_swap (hl : l.Pairwise fun a b => key a ≤ key b) {a b : α} (ha : a ∈ l) (hb : b ∈ l)
    (hk : key a = key b) (hne : f a ≠ f b) :
    ∃ l' : List α, l'.Perm l ∧ (l'.Pairwise fun a b => key a ≤ key b) ∧ l'.map f ≠ l.map f := by
  obtain ⟨l₁, x, l₂, y, l₃, rfl, hxy⟩ := exists_split ha hb fun h => hne (congrArg f h)
  have hkey : key x = key y ∧ f x ≠ f y := by
    rcases hxy with ⟨rfl, rfl⟩ | ⟨rfl, rfl⟩
    · exact ⟨hk, hne⟩
    · exact ⟨hk.symm, hne.symm⟩
  refine ⟨l₁ ++ y :: (l₂ ++ x :: l₃), ?_, ?_, fun h => ?_⟩
  · refine List.Perm.append_left l₁ ?_
    exact (List.perm_middle.cons y).trans
      ((List.Perm.swap x y _).trans (List.perm_middle.symm.cons x))
  · rw [← List.pairwise_map] at hl ⊢
    simpa only [List.map_append, List.map_cons, hkey.1] using hl
  · simp only [List.map_append, List.map_cons, List.append_cancel_left_eq, List.cons.injEq] at h
    exact hkey.2 h.1.symm

end Sorted
