import Mathlib.Logic.Relation

/-!
# Programs that make calls

A `Prog C R α` makes calls `c : C`, each answered by an `R c`, and returns an `α`. What a call may
do to a state is a **handler** `T c s s' r`: in state `s` the call `c` may lead to `s'` with answer
`r`. Faults, clock readings and choices of the environment are different answers of one handler.

* `Runs T p s s' a`: run alone from `s`, the program `p` may end in `s'` returning `a`;
  `runs_bind`, `runs_bind_except` take a run apart.
* `Triple T P p Q`: pre- and postconditions of `p`; `Preserves T I p`: an invariant of `p`, with
  the rules `Preserves.bind`, `Preserves.bind_except`.
* `AllCalls A P p`: every call of `p` satisfies `P`, as long as the answers satisfy `A`;
  `AllCalls.preserves`: what these calls keep, `p` keeps.
* `Handler.traced`: the handler that also records every call with its answer; `Performs p u a`: the
  calls `u`, with their answers, are those of a run of `p` that returns `a`.
* `Prog.hoist`: a program over a part of the calls, as a program over all; `Runs.map`: what a run
  does to an image of the state.
* `Prog.eval`: the run under a deterministic handler (`runs_eval`); `Prog.follow`: the run with
  given inputs to the calls (`runs_follow`).
-/

namespace Effects

/-- A program: it returns, or makes a call and goes on with the answer. -/
inductive Prog (C : Type) (R : C → Type) (α : Type) : Type
  | ret (a : α)
  | call (c : C) (k : R c → Prog C R α)

/-- What a call may do: the states before and after it, and its answer. -/
abbrev Handler (C : Type) (R : C → Type) (S : Type) := (c : C) → S → S → R c → Prop

variable {C : Type} {R : C → Type} {S α β : Type}

namespace Prog

/-- Sequencing. -/
def bind : Prog C R α → (α → Prog C R β) → Prog C R β
  | ret a, f => f a
  | call c k, f => call c fun r => (k r).bind f

instance : Monad (Prog C R) where
  pure := ret
  bind := bind

/-- A single call. -/
def perform (c : C) : Prog C R (R c) := call c ret

theorem bind_def (p : Prog C R α) (f : α → Prog C R β) : p >>= f = p.bind f := rfl

@[simp] theorem call_bind (c : C) (k : R c → Prog C R α) (f : α → Prog C R β) :
    (call c k).bind f = call c fun r => (k r).bind f := rfl

theorem bind_ret (p : Prog C R α) : p.bind ret = p := by
  induction p with
  | ret a => rfl
  | call c k ih => rw [call_bind, funext ih]

theorem bind_assoc {γ : Type} (p : Prog C R α) (f : α → Prog C R β) (g : β → Prog C R γ) :
    (p.bind f).bind g = p.bind fun a => (f a).bind g := by
  induction p with
  | ret a => rfl
  | call c k ih => simp only [call_bind, ih]

instance : LawfulMonad (Prog C R) :=
  LawfulMonad.mk' _ bind_ret (fun _ _ => rfl) bind_assoc

/-- A program over the calls `f c`, as a program over all calls. -/
def hoist {D : Type} {R' : D → Type} (f : C → D) : Prog C (fun c => R' (f c)) α → Prog D R' α
  | ret a => ret a
  | call c k => call (f c) fun r => (k r).hoist f

/-- The run under a deterministic handler. -/
def eval (h : (c : C) → S → S × R c) : Prog C R α → S → S × α
  | ret a, s => (s, a)
  | call c k, s => (k (h c s).2).eval h (h c s).1

/-- The run in which the calls are answered by `h`, each with one of the given inputs. -/
def follow {E : Type} (h : E → (c : C) → S → Option (S × R c)) :
    List E → Prog C R α → S → Option (S × α)
  | [], ret a, s => some (s, a)
  | e :: es, call c k, s => (h e c s).bind fun x => (k x.2).follow h es x.1
  | _, _, _ => none

end Prog

open Prog

/-! ## Runs -/

section Runs

variable (T : Handler C R S)

/-- **Run alone**, the program may lead from `s` to `s'` and return `a`. -/
def Runs : Prog C R α → S → S → α → Prop
  | .ret a, s, s', b => s' = s ∧ b = a
  | .call c k, s, s', b => ∃ s₁ r, T c s s₁ r ∧ Runs (k r) s₁ s' b

variable {T}

@[simp] theorem runs_pure {a b : α} {s s' : S} :
    Runs T (pure a : Prog C R α) s s' b ↔ s' = s ∧ b = a := Iff.rfl

theorem runs_call {c : C} {k : R c → Prog C R α} {s s' : S} {b : α} :
    Runs T (.call c k) s s' b ↔ ∃ s₁ r, T c s s₁ r ∧ Runs T (k r) s₁ s' b := Iff.rfl

@[simp] theorem runs_perform {c : C} {s s' : S} {r : R c} :
    Runs T (perform c) s s' r ↔ T c s s' r := by
  constructor
  · rintro ⟨s₁, r', h, rfl, rfl⟩
    exact h
  · intro h
    exact ⟨s', r, h, rfl, rfl⟩

/-- **A run of a sequence** is a run of the first program and then of the second. -/
theorem runs_bind {p : Prog C R α} {f : α → Prog C R β} {s s' : S} {b : β} :
    Runs T (p >>= f) s s' b ↔ ∃ s₁ a, Runs T p s s₁ a ∧ Runs T (f a) s₁ s' b := by
  rw [bind_def]
  induction p generalizing s with
  | ret a =>
    constructor
    · intro h
      exact ⟨s, a, ⟨rfl, rfl⟩, h⟩
    · rintro ⟨s₁, a', ⟨rfl, rfl⟩, h⟩
      exact h
  | call c k ih =>
    rw [call_bind, runs_call]
    constructor
    · rintro ⟨s₁, r, hT, h⟩
      obtain ⟨s₂, a, h₁, h₂⟩ := (ih r).mp h
      exact ⟨s₂, a, ⟨s₁, r, hT, h₁⟩, h₂⟩
    · rintro ⟨s₂, a, ⟨s₁, r, hT, h₁⟩, h₂⟩
      exact ⟨s₁, r, hT, (ih r).mpr ⟨s₂, a, h₁, h₂⟩⟩

/-- A run of a sequence of fallible programs: the second runs if the first succeeds. -/
theorem runs_bind_except {ε : Type} {x : ExceptT ε (Prog C R) α} {f : α → ExceptT ε (Prog C R) β}
    {s s' : S} {r : Except ε β} :
    Runs T (x >>= f).run s s' r ↔
      (∃ s₁ a, Runs T x.run s s₁ (.ok a) ∧ Runs T (f a).run s₁ s' r) ∨
        ∃ e, Runs T x.run s s' (.error e) ∧ r = .error e := by
  rw [ExceptT.run_bind, runs_bind]
  constructor
  · rintro ⟨s₁, a | a, h₁, h₂⟩
    · obtain ⟨rfl, rfl⟩ := h₂
      exact Or.inr ⟨a, h₁, rfl⟩
    · exact Or.inl ⟨s₁, a, h₁, h₂⟩
  · rintro (⟨s₁, a, h₁, h₂⟩ | ⟨e, h₁, rfl⟩)
    · exact ⟨s₁, .ok a, h₁, h₂⟩
    · exact ⟨s', .error e, h₁, rfl, rfl⟩

/-- A run of a sequence that succeeds. -/
theorem runs_bind_except_ok {ε : Type} {x : ExceptT ε (Prog C R) α} {f : α → ExceptT ε (Prog C R) β}
    {s s' : S} {b : β} :
    Runs T (x >>= f).run s s' (.ok b) ↔
      ∃ s₁ a, Runs T x.run s s₁ (.ok a) ∧ Runs T (f a).run s₁ s' (.ok b) := by
  rw [runs_bind_except]
  refine or_iff_left ?_
  rintro ⟨err, -, ⟨⟩⟩

/-- After a program that surely returns `a` and leaves the state alone. -/
theorem runs_bind_sure {ε : Type} {x : ExceptT ε (Prog C R) α} {f : α → ExceptT ε (Prog C R) β}
    {s s' : S} {a : α} {r : Except ε β} (hx : ∀ s₁ r₁, Runs T x.run s s₁ r₁ ↔ s₁ = s ∧ r₁ = .ok a) :
    Runs T (x >>= f).run s s' r ↔ Runs T (f a).run s s' r := by
  rw [runs_bind_except]
  constructor
  · rintro (⟨s₁, a', h, hf⟩ | ⟨e, h, -⟩)
    · obtain ⟨rfl, heq⟩ := (hx s₁ _).mp h
      rwa [Except.ok.inj heq] at hf
    · exact absurd ((hx s' _).mp h).2 (by simp)
  · intro hf
    exact Or.inl ⟨s, a, (hx s _).mpr ⟨rfl, rfl⟩, hf⟩

theorem Runs.left_except {ε : Type} {x : ExceptT ε (Prog C R) α} {f : α → ExceptT ε (Prog C R) β}
    {s s' : S} {r : Except ε β} (h : Runs T (x >>= f).run s s' r) :
    ∃ s₁ r₁, Runs T x.run s s₁ r₁ := by
  rcases runs_bind_except.mp h with ⟨s₁, a, h₁, -⟩ | ⟨e, h₁, -⟩
  · exact ⟨s₁, .ok a, h₁⟩
  · exact ⟨s', .error e, h₁⟩

@[simp] theorem runs_lift {ε : Type} {p : Prog C R α} {s s' : S} {r : Except ε α} :
    Runs T (ExceptT.lift p : ExceptT ε (Prog C R) α).run s s' r ↔
      ∃ a, Runs T p s s' a ∧ r = .ok a := by
  rw [ExceptT.run_lift, map_eq_pure_bind, runs_bind]
  constructor
  · rintro ⟨s₁, a, h, rfl, rfl⟩
    exact ⟨a, h, rfl⟩
  · rintro ⟨a, h, rfl⟩
    exact ⟨s', a, h, rfl, rfl⟩

/-- Renaming the errors of a fallible program. -/
theorem runs_adapt {ε ε' : Type} {g : ε → ε'} {x : ExceptT ε (Prog C R) α} {s s' : S}
    {r : Except ε' α} :
    Runs T (ExceptT.adapt g x).run s s' r ↔ ∃ r₀, Runs T x.run s s' r₀ ∧ r = r₀.mapError g := by
  rw [ExceptT.run_adapt, map_eq_pure_bind, runs_bind]
  constructor
  · rintro ⟨s₁, r₀, h, rfl, rfl⟩
    exact ⟨r₀, h, rfl⟩
  · rintro ⟨r₀, h, rfl⟩
    exact ⟨s', r₀, h, rfl, rfl⟩

/-- The run under a deterministic handler that `T` allows is a run. -/
theorem runs_eval {h : (c : C) → S → S × R c} (hT : ∀ c s, T c s (h c s).1 (h c s).2)
    (p : Prog C R α) (s : S) : Runs T p s (p.eval h s).1 (p.eval h s).2 := by
  induction p generalizing s with
  | ret a => exact ⟨rfl, rfl⟩
  | call c k ih => exact ⟨_, _, hT c s, ih _ _⟩

/-- If every call may be answered, every program may run to its end. -/
theorem exists_runs (hT : ∀ c s, ∃ s' r, T c s s' r) (p : Prog C R α) (s : S) :
    ∃ s' a, Runs T p s s' a := by
  induction p generalizing s with
  | ret a => exact ⟨s, a, rfl, rfl⟩
  | call c k ih =>
    obtain ⟨s₁, r, h₁⟩ := hT c s
    obtain ⟨s', a, h⟩ := ih r s₁
    exact ⟨s', a, s₁, r, h₁, h⟩

/-- Following inputs that `T` allows is a run. -/
theorem runs_follow {E : Type} {h : E → (c : C) → S → Option (S × R c)}
    (hT : ∀ e c s s' r, h e c s = some (s', r) → T c s s' r) {es : List E} {p : Prog C R α}
    {s s' : S} {a : α} (hf : p.follow h es s = some (s', a)) : Runs T p s s' a := by
  induction es generalizing p s with
  | nil =>
    cases p with
    | ret b =>
      obtain ⟨rfl, rfl⟩ := Prod.mk.inj (Option.some.inj hf)
      exact ⟨rfl, rfl⟩
    | call c k => cases hf
  | cons e es ih =>
    cases p with
    | ret b => cases hf
    | call c k =>
      obtain ⟨⟨s₁, r⟩, h₁, h₂⟩ := Option.bind_eq_some_iff.mp hf
      exact ⟨s₁, r, hT e c s s₁ r h₁, ih h₂⟩

end Runs

/-! ## Pre- and postconditions -/

section Triple

variable (T : Handler C R S)

/-- From a state with `P`, every run of `p` ends in a state with `Q` of its result. -/
def Triple (P : S → Prop) (p : Prog C R α) (Q : α → S → Prop) : Prop :=
  ∀ s s' a, P s → Runs T p s s' a → Q a s'

/-- Every run of the program keeps `I`. -/
def Preserves (I : S → Prop) (p : Prog C R α) : Prop := Triple T I p fun _ => I

variable {T} {P I : S → Prop} {Q : α → S → Prop}

theorem Triple.ret {a : α} (h : ∀ s, P s → Q a s) : Triple T P (pure a : Prog C R α) Q := by
  rintro s s' b hs ⟨rfl, rfl⟩
  exact h s' hs

theorem Triple.perform {c : C} {Q : R c → S → Prop} (h : ∀ s s' r, P s → T c s s' r → Q r s') :
    Triple T P (Prog.perform c) Q := fun s s' r hs hr => h s s' r hs (runs_perform.mp hr)

theorem Triple.bind {p : Prog C R α} {f : α → Prog C R β} {Q' : β → S → Prop}
    (hp : Triple T P p Q) (hf : ∀ a, Triple T (Q a) (f a) Q') : Triple T P (p >>= f) Q' := by
  intro s s' b hs hr
  obtain ⟨s₁, a, h₁, h₂⟩ := runs_bind.mp hr
  exact hf a s₁ s' b (hp s s₁ a hs h₁) h₂

theorem preserves_pure (a : α) : Preserves T I (pure a : Prog C R α) := Triple.ret fun _ h => h

theorem Preserves.bind {p : Prog C R α} {f : α → Prog C R β} (hp : Preserves T I p)
    (hf : ∀ a, Preserves T I (f a)) : Preserves T I (p >>= f) := Triple.bind hp hf

section Except

variable {ε : Type} {x : ExceptT ε (Prog C R) α}

theorem Preserves.bind_except {f : α → ExceptT ε (Prog C R) β} (hx : Preserves T I x.run)
    (hf : ∀ a, Preserves T I (f a).run) : Preserves T I (x >>= f).run := by
  rw [ExceptT.run_bind]
  refine hx.bind fun r => ?_
  cases r with
  | ok a => exact hf a
  | error e => exact preserves_pure _

theorem Preserves.adapt {ε' : Type} (hx : Preserves T I x.run) (g : ε → ε') :
    Preserves T I (ExceptT.adapt g x).run := by
  intro s s' r hs hr
  obtain ⟨r₀, h, -⟩ := runs_adapt.mp hr
  exact hx s s' r₀ hs h

theorem Preserves.lift {p : Prog C R α} (hp : Preserves T I p) :
    Preserves T I (ExceptT.lift p : ExceptT ε (Prog C R) α).run := by
  intro s s' r hs hr
  obtain ⟨a, h, -⟩ := runs_lift.mp hr
  exact hp s s' a hs h

end Except

end Triple

/-! ## The calls of a program -/

section AllCalls

/-- Every call the program can make satisfies `P`, as long as the answers satisfy `A`. -/
def AllCalls (A : (c : C) → R c → Prop) (P : C → Prop) : Prog C R α → Prop
  | .ret _ => True
  | .call c k => P c ∧ ∀ r, A c r → AllCalls A P (k r)

variable {A : (c : C) → R c → Prop} {P : C → Prop}

theorem allCalls_pure (a : α) : AllCalls A P (pure a : Prog C R α) := trivial

theorem allCalls_perform {c : C} (h : P c) : AllCalls A P (perform c : Prog C R (R c)) :=
  ⟨h, fun _ _ => trivial⟩

theorem allCalls_of_forall (h : ∀ c, P c) (p : Prog C R α) : AllCalls A P p := by
  induction p with
  | ret a => trivial
  | call c k ih => exact ⟨h c, fun r _ => ih r⟩

theorem AllCalls.bind {p : Prog C R α} {f : α → Prog C R β} (hp : AllCalls A P p)
    (hf : ∀ a, AllCalls A P (f a)) : AllCalls A P (p >>= f) := by
  rw [bind_def]
  induction p with
  | ret a => exact hf a
  | call c k ih => exact ⟨hp.1, fun r hA => ih r (hp.2 r hA)⟩

theorem AllCalls.bind_except {ε : Type} {x : ExceptT ε (Prog C R) α}
    {f : α → ExceptT ε (Prog C R) β} (hx : AllCalls A P x.run) (hf : ∀ a, AllCalls A P (f a).run) :
    AllCalls A P (x >>= f).run := by
  rw [ExceptT.run_bind]
  refine hx.bind fun r => ?_
  cases r with
  | ok a => exact hf a
  | error e => exact allCalls_pure _

theorem AllCalls.adapt {ε ε' : Type} {x : ExceptT ε (Prog C R) α} (hx : AllCalls A P x.run)
    (g : ε → ε') : AllCalls A P (ExceptT.adapt g x).run := by
  rw [ExceptT.run_adapt, map_eq_pure_bind]
  exact hx.bind fun _ => trivial

theorem AllCalls.lift {ε : Type} {p : Prog C R α} (hp : AllCalls A P p) :
    AllCalls A P (ExceptT.lift p : ExceptT ε (Prog C R) α).run := by
  rw [ExceptT.run_lift, map_eq_pure_bind]
  exact hp.bind fun _ => trivial

/-- What every call of a program keeps, the program keeps. -/
theorem AllCalls.preserves {T : Handler C R S} {I : S → Prop} {p : Prog C R α}
    (hp : AllCalls (fun _ _ => True) P p) (h : ∀ c s s' r, P c → I s → T c s s' r → I s') :
    Preserves T I p := by
  intro s s' a hs hr
  induction p generalizing s with
  | ret b =>
    obtain ⟨rfl, -⟩ := hr
    exact hs
  | call c k ih =>
    obtain ⟨s₁, r, h₁, hk⟩ := hr
    exact ih r (hp.2 r trivial) s₁ (h c s s₁ r hp.1 hs h₁) hk

/-- Handlers that agree on the calls of a program, in states with an invariant, have the same runs
of it. -/
theorem Runs.mono_invariant {T T' : Handler C R S} {I : S → Prop} {p : Prog C R α}
    (hp : AllCalls (fun _ _ => True) P p)
    (hT : ∀ c s s' r, P c → I s → T c s s' r → T' c s s' r ∧ I s') {s s' : S} {a : α} (hs : I s)
    (h : Runs T p s s' a) : Runs T' p s s' a := by
  induction p generalizing s with
  | ret b => exact h
  | call c k ih =>
    obtain ⟨s₁, r, h₁, hk⟩ := h
    obtain ⟨hT₁, hs₁⟩ := hT c s s₁ r hp.1 hs h₁
    exact ⟨s₁, r, hT₁, ih r (hp.2 r trivial) hs₁ hk⟩

end AllCalls

/-! ## Recording the calls -/

/-- A handler that also appends every call with its answer to a trace. -/
def Handler.traced (T : Handler C R S) : Handler C R (S × List (Σ c, R c)) :=
  fun c s s' r => T c s.1 s'.1 r ∧ s'.2 = s.2 ++ [⟨c, r⟩]

/-- **The calls of a run**: `p` makes the calls `u`, is given the answers in `u`, and returns `a`. -/
inductive Performs : Prog C R α → List (Σ c, R c) → α → Prop
  | ret (a : α) : Performs (.ret a) [] a
  | call (c : C) (k : R c → Prog C R α) (r : R c) {u : List (Σ c, R c)} {a : α}
      (h : Performs (k r) u a) : Performs (.call c k) (⟨c, r⟩ :: u) a

theorem performs_pure {a b : α} {u : List (Σ c, R c)} :
    Performs (pure a : Prog C R α) u b ↔ u = [] ∧ b = a := by
  constructor
  · intro h
    cases h
    exact ⟨rfl, rfl⟩
  · rintro ⟨rfl, rfl⟩
    exact .ret b

theorem performs_perform {c : C} {r : R c} {u : List (Σ c, R c)} :
    Performs (perform c) u r ↔ u = [⟨c, r⟩] := by
  constructor
  · intro h
    cases h with
    | call _ _ _ h =>
      cases h
      rfl
  · rintro rfl
    exact .call c _ r (.ret r)

/-- **The calls of a sequence** are those of the first program and then those of the second. -/
theorem performs_bind {p : Prog C R α} {f : α → Prog C R β} {u : List (Σ c, R c)} {b : β} :
    Performs (p >>= f) u b ↔ ∃ u₁ a u₂, Performs p u₁ a ∧ Performs (f a) u₂ b ∧ u = u₁ ++ u₂ := by
  rw [bind_def]
  induction p generalizing u with
  | ret a =>
    constructor
    · intro h
      exact ⟨[], a, u, .ret a, h, rfl⟩
    · rintro ⟨u₁, a', u₂, h₁, h₂, rfl⟩
      cases h₁
      exact h₂
  | call c k ih =>
    rw [call_bind]
    constructor
    · intro h
      cases h with
      | call _ _ r h =>
        obtain ⟨u₁, a, u₂, h₁, h₂, rfl⟩ := (ih r).mp h
        exact ⟨_, a, u₂, .call c k r h₁, h₂, rfl⟩
    · rintro ⟨u₁, a, u₂, h₁, h₂, rfl⟩
      cases h₁ with
      | call _ _ r h₁ => exact .call c _ r ((ih r).mpr ⟨_, a, u₂, h₁, h₂, rfl⟩)

/-- Calls that are all answered by `f` make up the run under `f`. -/
theorem Performs.eq_eval {p : Prog C R α} {u : List (Σ c, R c)} {a : α} (h : Performs p u a)
    {f : (c : C) → R c} (hu : ∀ x ∈ u, x.2 = f x.1) : a = (p.eval (fun c s => (s, f c)) ()).2 := by
  induction h with
  | ret a => rfl
  | call c k r _ ih =>
    obtain ⟨hr, hrest⟩ := List.forall_mem_cons.mp hu
    rw [ih hrest]
    exact congrArg (fun r => ((k r).eval (fun c s => (s, f c)) ()).2) hr

/-! ## A part of the calls, a part of the state -/

theorem runs_hoist {D : Type} {R' : D → Type} {f : C → D} {T : Handler D R' S}
    {p : Prog C (fun c => R' (f c)) α} {s s' : S} {a : α} :
    Runs T (p.hoist f) s s' a ↔ Runs (fun c => T (f c)) p s s' a := by
  induction p generalizing s with
  | ret b => exact Iff.rfl
  | call c k ih => exact exists_congr fun s₁ => exists_congr fun r => and_congr Iff.rfl (ih r)

theorem allCalls_hoist {D : Type} {R' : D → Type} {A : (d : D) → R' d → Prop} {P : D → Prop}
    {f : C → D} {p : Prog C (fun c => R' (f c)) α}
    (hp : AllCalls (fun c => A (f c)) (fun c => P (f c)) p) : AllCalls A P (p.hoist f) := by
  induction p with
  | ret a => trivial
  | call c k ih => exact ⟨hp.1, fun r hA => ih r (hp.2 r hA)⟩

theorem AllCalls.mono {A A' : (c : C) → R c → Prop} {P P' : C → Prop} {p : Prog C R α}
    (hp : AllCalls A P p) (hA : ∀ c r, A' c r → A c r) (hP : ∀ c, P c → P' c) :
    AllCalls A' P' p := by
  induction p with
  | ret a => trivial
  | call c k ih => exact ⟨hP c hp.1, fun r hr => ih r (hp.2 r (hA c r hr))⟩

/-- **Projecting a run.** If every call acts on the image of the state as `T'` allows, so does the
whole run. -/
theorem Runs.map {S' : Type} {T : Handler C R S} {T' : Handler C R S'} {f : S → S'}
    (hT : ∀ c s s' r, T c s s' r → T' c (f s) (f s') r) {p : Prog C R α} {s s' : S} {a : α}
    (h : Runs T p s s' a) : Runs T' p (f s) (f s') a := by
  induction p generalizing s with
  | ret b =>
    obtain ⟨rfl, rfl⟩ := h
    exact ⟨rfl, rfl⟩
  | call c k ih =>
    obtain ⟨s₁, r, h₁, hk⟩ := h
    exact ⟨f s₁, r, hT _ _ _ _ h₁, ih r hk⟩

theorem Runs.mono {T T' : Handler C R S} (hT : ∀ c s s' r, T c s s' r → T' c s s' r)
    {p : Prog C R α} {s s' : S} {a : α} (h : Runs T p s s' a) : Runs T' p s s' a :=
  h.map (f := id) hT

theorem runs_traced {T : Handler C R S} {p : Prog C R α} {s s' : S} {a : α}
    (h : Runs T p s s' a) (t : List (Σ c, R c)) : ∃ t', Runs T.traced p (s, t) (s', t') a := by
  induction p generalizing s t with
  | ret b =>
    obtain ⟨rfl, rfl⟩ := h
    exact ⟨t, rfl, rfl⟩
  | call c k ih =>
    obtain ⟨s₁, r, h₁, hk⟩ := h
    obtain ⟨t', ht'⟩ := ih r hk (t ++ [⟨c, r⟩])
    exact ⟨t', (s₁, t ++ [⟨c, r⟩]), r, ⟨h₁, rfl⟩, ht'⟩

end Effects
