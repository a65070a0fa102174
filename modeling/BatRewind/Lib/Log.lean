import Mathlib.Data.List.Basic
import Mathlib.Data.List.Induction

/-!
# Runs that keep a log

A run feeds a list of inputs to a step function (`List.foldl`), and part of the state is a list to
which steps only add.

* `Taken step s as t a`: in the run of `as` from `s` the input `a` is taken in state `t`.
* **`invariant_taken`**, `Taken.invariant`: an invariant of the steps holds throughout the run.
* `Grows step log`: the log only grows; `added`: what one step adds.
* **`Grows.forall_iff`**, **`Grows.pairwise_iff`**: a property holds of the whole log, or a relation
  between its entries, exactly if it holds of what each step of the run adds.
-/

namespace Logs

variable {σ α β : Type} {step : σ → α → σ}

variable (step) in
/-- In the run of `as` from `s` the input `a` is taken in state `t`. -/
def Taken (s : σ) (as : List α) (t : σ) (a : α) : Prop :=
  ∃ before after, as = before ++ a :: after ∧ t = before.foldl step s

theorem taken_concat {s t : σ} {as : List α} {a b : α} :
    Taken step s (as ++ [b]) t a ↔ Taken step s as t a ∨ t = as.foldl step s ∧ a = b := by
  constructor
  · rintro ⟨before, after, heq, rfl⟩
    induction after using List.reverseRecOn with
    | nil =>
      obtain ⟨rfl, hab⟩ := List.append_inj' heq rfl
      exact Or.inr ⟨rfl, (List.cons.inj hab).1.symm⟩
    | append_singleton after c _ =>
      rw [← List.cons_append, ← List.append_assoc] at heq
      exact Or.inl ⟨before, after, (List.append_inj' heq rfl).1, rfl⟩
  · rintro (⟨before, after, rfl, rfl⟩ | ⟨rfl, rfl⟩)
    · exact ⟨before, after ++ [b], by simp, rfl⟩
    · exact ⟨as, [], rfl, rfl⟩

theorem Taken.mem {s t : σ} {as : List α} {a : α} (h : Taken step s as t a) : a ∈ as := by
  obtain ⟨before, after, rfl, -⟩ := h
  exact List.mem_append_right before List.mem_cons_self

theorem Taken.append {s t : σ} {as : List α} {a : α} (h : Taken step s as t a) (rest : List α) :
    Taken step s (as ++ rest) t a := by
  obtain ⟨before, after, rfl, rfl⟩ := h
  exact ⟨before, after ++ rest, by simp, rfl⟩

/-- **The invariant rule**: the invariant is kept by every step that the run takes. -/
theorem invariant_taken {I : σ → Prop} {s : σ} {as : List α} (hs : I s)
    (hstep : ∀ t a, Taken step s as t a → I t → I (step t a)) : I (as.foldl step s) := by
  induction as using List.reverseRecOn with
  | nil => exact hs
  | append_singleton as a ih =>
    rw [List.foldl_concat]
    exact hstep _ a (taken_concat.2 (Or.inr ⟨rfl, rfl⟩)) (ih fun t b hb => hstep t b (hb.append [a]))

theorem Taken.invariant_taken {I : σ → Prop} {s t : σ} {as : List α} {a : α}
    (h : Taken step s as t a) (hs : I s)
    (hstep : ∀ t a, Taken step s as t a → I t → I (step t a)) : I t := by
  obtain ⟨before, after, rfl, rfl⟩ := h
  exact Logs.invariant_taken hs fun t b hb => hstep t b (hb.append _)

/-- The rule for an invariant that every step keeps. -/
theorem Taken.invariant {I : σ → Prop} {s t : σ} {as : List α} {a : α}
    (h : Taken step s as t a) (hs : I s) (hstep : ∀ t a, a ∈ as → I t → I (step t a)) : I t :=
  h.invariant_taken hs fun t a ha => hstep t a ha.mem

variable {log : σ → List β}

variable (step log) in
/-- The log only grows. -/
def Grows : Prop := ∀ s a, log s <+: log (step s a)

variable (step log) in
/-- What a step adds to the log. -/
def added (s : σ) (a : α) : List β := (log (step s a)).drop (log s).length

theorem Grows.append_added (h : Grows step log) (s : σ) (a : α) :
    log s ++ added step log s a = log (step s a) := by
  obtain ⟨new, hnew⟩ := h s a
  rw [added, ← hnew, List.drop_left]

theorem added_eq {s : σ} {a : α} {new : List β} (h : log (step s a) = log s ++ new) :
    added step log s a = new := by
  rw [added, h, List.drop_left]

/-- **A property of the whole log.** -/
theorem Grows.forall_iff (h : Grows step log) (Q : β → Prop) (s : σ) (as : List α) :
    (∀ b ∈ log (as.foldl step s), Q b) ↔
      (∀ b ∈ log s, Q b) ∧ ∀ t a, Taken step s as t a → ∀ b ∈ added step log t a, Q b := by
  induction as using List.reverseRecOn with
  | nil =>
    refine ⟨fun hall => ⟨hall, ?_⟩, fun hall => hall.1⟩
    rintro t a ⟨before, after, heq, -⟩
    exact absurd heq (by simp)
  | append_singleton as a ih =>
    rw [List.foldl_concat, ← h.append_added, List.forall_mem_append, ih]
    constructor
    · rintro ⟨⟨hs, hsteps⟩, hnew⟩
      refine ⟨hs, fun t b ht => ?_⟩
      rcases taken_concat.1 ht with ht | ⟨rfl, rfl⟩
      · exact hsteps t b ht
      · exact hnew
    · rintro ⟨hs, hsteps⟩
      exact ⟨⟨hs, fun t b ht => hsteps t b (ht.append [a])⟩,
        hsteps _ a (taken_concat.2 (Or.inr ⟨rfl, rfl⟩))⟩

/-- **A relation between entries of the log**, earlier and later. -/
theorem Grows.pairwise_iff (h : Grows step log) (R : β → β → Prop) (s : σ) (as : List α) :
    (log (as.foldl step s)).Pairwise R ↔
      (log s).Pairwise R ∧ ∀ t a, Taken step s as t a →
        (added step log t a).Pairwise R ∧ ∀ b ∈ log t, ∀ c ∈ added step log t a, R b c := by
  induction as using List.reverseRecOn with
  | nil =>
    refine ⟨fun hall => ⟨hall, ?_⟩, fun hall => hall.1⟩
    rintro t a ⟨before, after, heq, -⟩
    exact absurd heq (by simp)
  | append_singleton as a ih =>
    rw [List.foldl_concat, ← h.append_added, List.pairwise_append, ih]
    constructor
    · rintro ⟨⟨hs, hsteps⟩, hnew⟩
      refine ⟨hs, fun t b ht => ?_⟩
      rcases taken_concat.1 ht with ht | ⟨rfl, rfl⟩
      · exact hsteps t b ht
      · exact hnew
    · rintro ⟨hs, hsteps⟩
      exact ⟨⟨hs, fun t b ht => hsteps t b (ht.append [a])⟩,
        hsteps _ a (taken_concat.2 (Or.inr ⟨rfl, rfl⟩))⟩

end Logs
