import Mathlib.Order.GameAdd
import BatRewind.Lib.Prog

/-!
# Processes that come to an end

Processes that run side by side, each by a step relation of its own. A relation is read downwards:
`r a' a` is a step from `a` to `a'`.

* `Next p' p`: a program after one of its calls; **`wf_next`**: it makes no endless sequence of
  calls, whatever the answers.
* `OneStep r`: one process of a list makes a step; **`wf_oneStep`**: processes that come to an end
  each on their own come to an end side by side.
* `Does P Q p`: on every path the program makes a call with `P`, or returns with `Q`.
* `Repays taken pays Q p`: what the program takes with an answer, it pays back with a later call on
  every path, or its result owes it.
-/

namespace Effects

open Prog

variable {C : Type} {R : C → Type} {α β : Type}

/-! ## Termination -/

/-- **One call** of a program. -/
inductive Next : Prog C R α → Prog C R α → Prop
  | call (c : C) (k : R c → Prog C R α) (r : R c) : Next (k r) (.call c k)

theorem wf_next : WellFounded (Next : Prog C R α → Prog C R α → Prop) := by
  refine ⟨fun p => ?_⟩
  induction p with
  | ret a => exact ⟨_, nofun⟩
  | call c k ih =>
    refine ⟨_, fun p' h => ?_⟩
    cases h with
    | call _ _ r => exact ih r

section OneStep

variable {r : α → α → Prop}

/-- **One of the processes makes a step.** -/
inductive OneStep (r : α → α → Prop) : List α → List α → Prop
  | mk (l m : List α) (a a' : α) (h : r a' a) : OneStep r (l ++ a' :: m) (l ++ a :: m)

/-- The first process makes the step, or one of the others does. -/
theorem OneStep.cons_cases {a : α} {l l' : List α} (h : OneStep r l' (a :: l)) :
    (∃ a', r a' a ∧ l' = a' :: l) ∨ ∃ m, OneStep r m l ∧ l' = a :: m := by
  generalize hl : a :: l = x at h
  cases h with
  | mk u v b b' hr =>
    cases u with
    | nil =>
      obtain ⟨rfl, rfl⟩ := List.cons.inj hl
      exact Or.inl ⟨b', hr, rfl⟩
    | cons c u =>
      obtain ⟨rfl, rfl⟩ := List.cons.inj hl
      exact Or.inr ⟨u ++ b' :: v, .mk u v b b' hr, rfl⟩

theorem OneStep.acc_cons {a : α} {l : List α} (ha : Acc r a) (hl : Acc (OneStep r) l) :
    Acc (OneStep r) (a :: l) := by
  induction ha generalizing l with
  | intro a _ iha =>
    induction hl with
    | intro l hl ihl =>
      refine ⟨_, fun l' h => ?_⟩
      rcases h.cons_cases with ⟨a', ha', rfl⟩ | ⟨m, hm, rfl⟩
      · exact iha a' ha' ⟨l, hl⟩
      · exact ihl m hm

/-- **Side by side** processes come to an end if each of them does. -/
theorem wf_oneStep (hr : WellFounded r) : WellFounded (OneStep r) := by
  refine ⟨fun l => ?_⟩
  induction l with
  | nil =>
    refine ⟨_, fun l' h => ?_⟩
    generalize hl : ([] : List α) = x at h
    cases h
    simp at hl
  | cons a l ih => exact OneStep.acc_cons (hr.apply a) ih

end OneStep

/-! ## What a program does on every path -/

section Does

variable {P : C → Prop} {Q : α → Prop}

/-- **On every path** the program makes a call with `P`, or it returns with `Q`. -/
def Does (P : C → Prop) (Q : α → Prop) : Prog C R α → Prop
  | .ret a => Q a
  | .call c k => P c ∨ ∀ r, Does P Q (k r)

theorem does_pure {a : α} (h : Q a) : Does P Q (pure a : Prog C R α) := h

theorem Does.bind {p : Prog C R α} {f : α → Prog C R β} {Q' : β → Prop} (hp : Does P Q p)
    (hf : ∀ a, Q a → Does P Q' (f a)) : Does P Q' (p >>= f) := by
  rw [bind_def]
  induction p with
  | ret a => exact hf a hp
  | call c k ih => exact hp.imp_right fun h r => ih r (h r)

theorem Does.imp {P' : C → Prop} {p : Prog C R α} (h : Does P Q p) (hP : ∀ c, P c → P' c) :
    Does P' Q p := by
  induction p with
  | ret a => exact h
  | call c k ih => exact Or.imp (hP c) (fun hk r => ih r (hk r)) h

/-- What the second program does, the sequence does. -/
theorem does_bind {p : Prog C R α} {f : α → Prog C R β} {Q' : β → Prop}
    (hf : ∀ a, Does P Q' (f a)) : Does P Q' (p >>= f) := by
  rw [bind_def]
  induction p with
  | ret a => exact hf a
  | call c k ih => exact Or.inr fun r => ih r

theorem does_hoist {D : Type} {R' : D → Type} {f : C → D} {P : D → Prop}
    {p : Prog C (fun c => R' (f c)) α} (hp : Does (fun c => P (f c)) Q p) :
    Does P Q (p.hoist f) := by
  induction p with
  | ret a => exact hp
  | call c k ih => exact hp.imp_right fun h r => ih r (h r)

end Does

/-! ## Debts -/

section Repays

variable {ι : Type} {taken : (c : C) → R c → List ι} {pays : ι → C → Prop} {Q : α → ι → Prop}

/-- **What the program takes, it pays back** on every path, whatever the answers, or the result owes
it. -/
def Repays (taken : (c : C) → R c → List ι) (pays : ι → C → Prop) (Q : α → ι → Prop) :
    Prog C R α → Prop
  | .ret _ => True
  | .call c k => ∀ r,
    (∀ i ∈ taken c r, Does (pays i) (fun a => Q a i) (k r)) ∧ Repays taken pays Q (k r)

/-- A program that takes nothing. -/
theorem repays_of_allCalls {p : Prog C R α}
    (h : AllCalls (fun _ _ => True) (fun c => ∀ r, taken c r = []) p) : Repays taken pays Q p := by
  induction p with
  | ret a => trivial
  | call c k ih =>
    refine fun r => ⟨fun i hi => ?_, ih r (h.2 r trivial)⟩
    rw [h.1 r] at hi
    cases hi

theorem Repays.bind {p : Prog C R α} {f : α → Prog C R β} {Q' : β → ι → Prop}
    (hp : Repays taken pays Q p) (hf : ∀ a, Repays taken pays Q' (f a))
    (hQ : ∀ a i, Q a i → Does (pays i) (fun b => Q' b i) (f a)) :
    Repays taken pays Q' (p >>= f) := by
  rw [bind_def]
  induction p with
  | ret a => exact hf a
  | call c k ih =>
    refine fun r => ⟨fun i hi => ?_, ih r (hp r).2⟩
    have hk := ((hp r).1 i hi).bind fun a ha => hQ a i ha
    rwa [bind_def] at hk

theorem repays_hoist {D : Type} {R' : D → Type} {f : C → D} {taken : (d : D) → R' d → List ι}
    {pays : ι → D → Prop} {p : Prog C (fun c => R' (f c)) α}
    (hp : Repays (fun c => taken (f c)) (fun i c => pays i (f c)) Q p) :
    Repays taken pays Q (p.hoist f) := by
  induction p with
  | ret a => trivial
  | call c k ih => exact fun r => ⟨fun i hi => does_hoist ((hp r).1 i hi), ih r (hp r).2⟩

end Repays

end Effects
