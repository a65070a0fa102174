import Mathlib.Algebra.BigOperators.Group.List.Basic
import BatRewind.Lib.Prog

/-!
# Programs run side by side

A pool is a list of labelled programs over one shared state; a step of the pool is the next call
of any one of them (`PoolStep`), so its runs are all interleavings, call by call. What a call does
may depend on the label of the program that makes it.

* `Pool.follow`: the run under a given schedule (`Pool.follow_runs`).
* `Always T Rely G Q p s`: whatever the others do within `Rely`, every call `p` makes from `s` on
  satisfies `G` in the state it is made in, and `p` returns with `Q`. The rules are `Always.mono`,
  `always_bind` and, for fallible programs, `always_bind_except`; **`PoolStep.guarantee`** is the
  rule for a step of a pool, **`PoolRuns.invariant`** the one for its runs and
  **`PoolRuns.invariant_labels`** the one for runs in which every program owns a part of the state.
  **`always_performs`**: a program whose calls are logged returns with a run in the log.
* `Spends T μ Q p m`: `p` adds exactly `m` to the measure `μ` of the state. **`PoolRuns.conserve`**:
  in every interleaving the measure grows by what the programs have spent so far.
* `Accrues T μ Q p m`: what `p` adds to the measure is in its postcondition. **`PoolRuns.accrue`** is
  the rule for interleavings.
-/

namespace Effects

open Prog

variable {C : Type} {R : C → Type} {S ι α β : Type}

/-- Labelled programs running side by side. -/
abbrev Pool (ι C : Type) (R : C → Type) (α : Type) := List (ι × Prog C R α)

/-- **One call** of one program of the pool, with the program's label and the answer. -/
inductive PoolStep (T : ι → Handler C R S) :
    Pool ι C R α × S → ι × (Σ c, R c) → Pool ι C R α × S → Prop
  | call (l m : Pool ι C R α) (i : ι) (c : C) (k : R c → Prog C R α) (s s' : S) (r : R c)
      (h : T i c s s' r) :
      PoolStep T (l ++ (i, .call c k) :: m, s) (i, ⟨c, r⟩) (l ++ (i, k r) :: m, s')

theorem PoolStep.labels {T : ι → Handler C R S} {ps ps' : Pool ι C R α} {s s' : S} {i : ι}
    {c : Σ c, R c} (h : PoolStep T (ps, s) (i, c) (ps', s')) :
    ps'.map Prod.fst = ps.map Prod.fst ∧ i ∈ ps.map Prod.fst := by
  cases h
  simp

/-- What holds of every label of the pool holds of them after a step. -/
theorem PoolStep.forall_label {T : ι → Handler C R S} {ps ps' : Pool ι C R α} {s s' : S} {i : ι}
    {c : Σ c, R c} (h : PoolStep T (ps, s) (i, c) (ps', s')) {P : ι → Prop}
    (hP : ∀ t ∈ ps, P t.1) : ∀ t ∈ ps', P t.1 := by
  intro t ht
  have hmem : t.1 ∈ ps.map Prod.fst := h.labels.1 ▸ List.mem_map_of_mem ht
  obtain ⟨t₀, ht₀, he⟩ := List.mem_map.mp hmem
  exact he ▸ hP t₀ ht₀

theorem PoolStep.handled {T : ι → Handler C R S} {ps ps' : Pool ι C R α} {s s' : S} {i : ι}
    {c : C} {r : R c} (h : PoolStep T (ps, s) (i, ⟨c, r⟩) (ps', s')) : T i c s s' r := by
  cases h
  assumption

/-- A step of the pool is a call that the programs allow, and they go on with the answer. -/
theorem PoolStep.allCalls {T : ι → Handler C R S} {A : (c : C) → R c → Prop} {P : C → Prop}
    {ps ps' : Pool ι C R α} {s s' : S} {i : ι} {c : C} {r : R c}
    (h : PoolStep T (ps, s) (i, ⟨c, r⟩) (ps', s')) (hps : ∀ t ∈ ps, AllCalls A P t.2) :
    P c ∧ (A c r → ∀ t ∈ ps', AllCalls A P t.2) := by
  cases h with
  | call l m _ _ k _ _ _ _ =>
    have hcall := hps (i, .call c k) (by simp)
    refine ⟨hcall.1, fun hA t ht => ?_⟩
    rcases List.mem_append.mp ht with h | h
    · exact hps t (by simp [h])
    rcases List.mem_cons.mp h with rfl | h
    · exact hcall.2 r hA
    · exact hps t (by simp [h])

/-- The interleavings of a pool. -/
def PoolRuns (T : ι → Handler C R S) : Pool ι C R α × S → Pool ι C R α × S → Prop :=
  Relation.ReflTransGen fun a b => ∃ e, PoolStep T a e b

/-- The programs of a pool keep their labels. -/
theorem PoolRuns.labels {T : ι → Handler C R S} {ps ps' : Pool ι C R α} {s s' : S}
    (hruns : PoolRuns T (ps, s) (ps', s')) : ps'.map Prod.fst = ps.map Prod.fst := by
  have key : ∀ x : Pool ι C R α × S, PoolRuns T (ps, s) x → x.1.map Prod.fst = ps.map Prod.fst := by
    intro x hx
    induction hx with
    | refl => rfl
    | tail _ hstep ih =>
      obtain ⟨e, hstep⟩ := hstep
      exact hstep.labels.1.trans ih
  exact key _ hruns

/-- Every program of the pool has returned. -/
def Pool.Finished (ps : Pool ι C R α) : Prop := ∀ t ∈ ps, ∃ a, t.2 = .ret a

/-- A program of the pool may run to its end while the others wait. -/
theorem Runs.pool (T : ι → Handler C R S) (i : ι) {p : Prog C R α} {s s' : S} {a : α}
    (h : Runs (T i) p s s' a) (l m : Pool ι C R α) :
    PoolRuns T (l ++ (i, p) :: m, s) (l ++ (i, .ret a) :: m, s') := by
  induction p generalizing s with
  | ret b =>
    obtain ⟨rfl, rfl⟩ := h
    exact Relation.ReflTransGen.refl
  | call c k ih =>
    obtain ⟨s₁, r, h₁, hk⟩ := h
    exact Relation.ReflTransGen.head ⟨_, .call l m i c k s s₁ r h₁⟩ (ih r hk)

/-! ## Schedules -/

section Schedule

variable {E : Type} (h : ι → E → (c : C) → S → Option (S × R c))

/-- The next call of the program at position `n`, answered by `h`. -/
def Pool.callAt (n : ℕ) (e : E) (x : Pool ι C R α × S) : Option (Pool ι C R α × S) :=
  match x.1[n]? with
  | some (i, .call c k) => (h i e c x.2).map fun y => (x.1.set n (i, k y.2), y.1)
  | _ => none

/-- **The run that a schedule prescribes**: the positions of the programs that make the calls, each
with what `h` needs for its answer. -/
def Pool.follow : List (ℕ × E) → Pool ι C R α × S → Option (Pool ι C R α × S)
  | [], x => some x
  | (n, e) :: schedule, x => (Pool.callAt h n e x).bind (Pool.follow schedule)

variable {h} {T : ι → Handler C R S}

theorem Pool.callAt_step (hT : ∀ i e c s s' r, h i e c s = some (s', r) → T i c s s' r) {n : ℕ}
    {e : E} {x y : Pool ι C R α × S} (hx : Pool.callAt h n e x = some y) :
    ∃ a, PoolStep T x a y := by
  obtain ⟨ps, s⟩ := x
  unfold Pool.callAt at hx
  split at hx
  next i c k hget =>
    obtain ⟨⟨s', r⟩, hr, rfl⟩ := Option.map_eq_some_iff.mp hx
    obtain ⟨hlt, hval⟩ := List.getElem?_eq_some_iff.mp hget
    dsimp only at hlt hval
    have hps : ps = ps.take n ++ (i, .call c k) :: ps.drop (n + 1) := by
      rw [← hval, ← List.drop_eq_getElem_cons hlt, List.take_append_drop]
    have hstep := PoolStep.call (ps.take n) (ps.drop (n + 1)) i c k s s' r (hT i e c s s' r hr)
    rw [← hps] at hstep
    refine ⟨(i, ⟨c, r⟩), ?_⟩
    rw [List.set_eq_take_append_cons_drop, if_pos hlt]
    exact hstep
  next => cases hx

/-- Following a schedule is a run of the pool. -/
theorem Pool.follow_runs (hT : ∀ i e c s s' r, h i e c s = some (s', r) → T i c s s' r)
    {schedule : List (ℕ × E)} {x y : Pool ι C R α × S} (hx : Pool.follow h schedule x = some y) :
    PoolRuns T x y := by
  induction schedule generalizing x with
  | nil =>
    obtain rfl := Option.some.inj hx
    exact Relation.ReflTransGen.refl
  | cons a schedule ih =>
    obtain ⟨n, e⟩ := a
    obtain ⟨x₁, h₁, h₂⟩ := Option.bind_eq_some_iff.mp hx
    exact Relation.ReflTransGen.head (Pool.callAt_step hT h₁) (ih h₂)

end Schedule

/-! ## Guarantees -/

section Always

variable (T : Handler C R S) (Rely : S → S → Prop) (G : C → S → Prop)

/-- **Every call of the program satisfies `G`**, while the others change the state within
`Rely`; the program returns with `Q`. -/
def Always (Q : α → S → Prop) : Prog C R α → S → Prop
  | .ret a, s => ∀ s₁, Rely s s₁ → Q a s₁
  | .call c k, s => ∀ s₁, Rely s s₁ → G c s₁ ∧ ∀ s₂ r, T c s₁ s₂ r → Always Q (k r) s₂

variable {T Rely G}

theorem Always.mono [IsTrans S Rely] {Q : α → S → Prop} {p : Prog C R α} {s s' : S}
    (h : Always T Rely G Q p s) (hs : Rely s s') : Always T Rely G Q p s' := by
  cases p with
  | ret a => exact fun s₁ h₁ => h s₁ (IsTrans.trans _ _ _ hs h₁)
  | call c k => exact fun s₁ h₁ => h s₁ (IsTrans.trans _ _ _ hs h₁)

theorem always_perform {c : C} {Q : R c → S → Prop} {s : S}
    (h : ∀ s₁, Rely s s₁ → G c s₁ ∧ ∀ s₂ r, T c s₁ s₂ r → ∀ s₃, Rely s₂ s₃ → Q r s₃) :
    Always T Rely G Q (perform c) s := h

/-- Calls that are allowed in every state. -/
theorem AllCalls.always {P : C → Prop} {p : Prog C R α} (hp : AllCalls (fun _ _ => True) P p)
    (hG : ∀ c s, P c → G c s) (s : S) : Always T Rely G (fun _ _ => True) p s := by
  induction p generalizing s with
  | ret a => exact fun _ _ => trivial
  | call c k ih => exact fun s₁ _ => ⟨hG c s₁ hp.1, fun s₂ r _ => ih r (hp.2 r trivial) s₂⟩

/-- What holds of every call may go into the guarantee. -/
theorem Always.allCalls {G' : C → S → Prop} {P : C → Prop} {Q : α → S → Prop} {p : Prog C R α}
    {s : S} (h : Always T Rely G Q p s) (hp : AllCalls (fun _ _ => True) P p)
    (hG : ∀ c s, G c s → P c → G' c s) : Always T Rely G' Q p s := by
  induction p generalizing s with
  | ret a => exact h
  | call c k ih =>
    intro s₁ h₁
    obtain ⟨hc, hk⟩ := h s₁ h₁
    exact ⟨hG c s₁ hc hp.1, fun s₂ r hT => ih r (hk s₂ r hT) (hp.2 r trivial)⟩

theorem Always.weaken {G' : C → S → Prop} {Q : α → S → Prop} {p : Prog C R α} {s : S}
    (h : Always T Rely G Q p s) (hG : ∀ c s, G c s → G' c s) : Always T Rely G' Q p s :=
  h.allCalls (P := fun _ => True) (allCalls_of_forall (fun _ => trivial) p) fun c s hc _ => hG c s hc

theorem always_bind [Std.Refl Rely] {Q : α → S → Prop} {Q' : β → S → Prop} {p : Prog C R α}
    {f : α → Prog C R β} {s : S} (hp : Always T Rely G Q p s)
    (hf : ∀ a s', Q a s' → Always T Rely G Q' (f a) s') : Always T Rely G Q' (p >>= f) s := by
  rw [bind_def]
  induction p generalizing s with
  | ret a => exact hf a s (hp s (Std.Refl.refl s))
  | call c k ih =>
    intro s₁ h₁
    obtain ⟨hG, hk⟩ := hp s₁ h₁
    exact ⟨hG, fun s₂ r hT => ih r (hk s₂ r hT)⟩

theorem Always.map {Q : α → S → Prop} {Q' : β → S → Prop} {f : α → β} {p : Prog C R α} {s : S}
    (h : Always T Rely G Q p s) (hQ : ∀ a s, Q a s → Q' (f a) s) :
    Always T Rely G Q' (f <$> p) s := by
  rw [map_eq_pure_bind, bind_def]
  induction p generalizing s with
  | ret a => exact fun s₁ h₁ => hQ a s₁ (h s₁ h₁)
  | call c k ih =>
    intro s₁ h₁
    obtain ⟨hG, hk⟩ := h s₁ h₁
    exact ⟨hG, fun s₂ r hT => ih r (hk s₂ r hT)⟩

theorem Always.imp {Q Q' : α → S → Prop} {p : Prog C R α} {s : S} (h : Always T Rely G Q p s)
    (hQ : ∀ a s, Q a s → Q' a s) : Always T Rely G Q' p s := by
  rw [← id_map p]
  exact h.map hQ

theorem always_hoist {D : Type} {R' : D → Type} {f : C → D} {T : Handler D R' S}
    {G : D → S → Prop} {Q : α → S → Prop} {p : Prog C (fun c => R' (f c)) α} {s : S} :
    Always T Rely G Q (p.hoist f) s ↔ Always (fun c => T (f c)) Rely (fun c => G (f c)) Q p s := by
  induction p generalizing s with
  | ret a => exact Iff.rfl
  | call c k ih =>
    refine forall_congr' fun s₁ => forall_congr' fun _ => and_congr Iff.rfl ?_
    exact forall_congr' fun s₂ => forall_congr' fun r => forall_congr' fun _ => ih r

/-- **A program that keeps a log of its calls** to which no other program writes: it returns when it
has logged a run. -/
theorem always_performs [Std.Refl Rely] (log : S → List (Σ c, R c))
    (hT : ∀ c s s' r, T c s s' r → log s' = log s ++ [⟨c, r⟩])
    (hRely : ∀ s s', Rely s s' → log s' = log s) (hG : ∀ c s, G c s) (p : Prog C R α) (s : S) :
    Always T Rely G (fun a s' => ∃ u, Performs p u a ∧ log s' = log s ++ u) p s := by
  induction p generalizing s with
  | ret a => exact fun s₁ h₁ => ⟨[], .ret a, by rw [hRely s s₁ h₁, List.append_nil]⟩
  | call c k ih =>
    refine fun s₁ h₁ => ⟨hG c s₁, fun s₂ r h₂ => (ih r s₂).imp fun a s' hs' => ?_⟩
    obtain ⟨u, hu, hlog⟩ := hs'
    refine ⟨⟨c, r⟩ :: u, .call c k r hu, ?_⟩
    rw [hlog, hT c s₁ s₂ r h₂, hRely s s₁ h₁, List.append_assoc, List.singleton_append]

/-- A program that acts on a part `f s` of the state. -/
theorem Always.part {S' : Type} {f : S → S'} {T' : Handler C R S'} {Rely' : S' → S' → Prop}
    {G' : C → S' → Prop} (hT : ∀ c s s' r, T c s s' r → T' c (f s) (f s') r)
    (hRely : ∀ s s', Rely s s' → Rely' (f s) (f s')) (hG : ∀ c s, G' c (f s) → G c s)
    {Q : α → S' → Prop} {p : Prog C R α} {s : S} (h : Always T' Rely' G' Q p (f s)) :
    Always T Rely G (fun a s => Q a (f s)) p s := by
  induction p generalizing s with
  | ret a => exact fun s₁ h₁ => h (f s₁) (hRely s s₁ h₁)
  | call c k ih =>
    intro s₁ h₁
    obtain ⟨hc, hk⟩ := h (f s₁) (hRely s s₁ h₁)
    exact ⟨hG c s₁ hc, fun s₂ r hr => ih r (hk (f s₂) r (hT c s₁ s₂ r hr))⟩

/-- If guaranteed calls stay within `Rely`, the program as a whole does. -/
theorem Always.frame [Std.Refl Rely] [IsTrans S Rely]
    (hRely : ∀ c s s' r, G c s → T c s s' r → Rely s s') {Q : α → S → Prop} {p : Prog C R α} {s : S}
    (h : Always T Rely G Q p s) : Always T Rely G (fun a s' => Q a s' ∧ Rely s s') p s := by
  have key : ∀ s₀, Rely s₀ s → Always T Rely G (fun a s' => Q a s' ∧ Rely s₀ s') p s := by
    intro s₀ h₀
    induction p generalizing s with
    | ret a => exact fun s₁ h₁ => ⟨h s₁ h₁, IsTrans.trans _ _ _ h₀ h₁⟩
    | call c k ih =>
      intro s₁ h₁
      obtain ⟨hG, hk⟩ := h s₁ h₁
      refine ⟨hG, fun s₂ r hT => ih r (hk s₂ r hT) ?_⟩
      exact IsTrans.trans _ _ _ (IsTrans.trans _ _ _ h₀ h₁) (hRely c s₁ s₂ r hG hT)
  exact key s (Std.Refl.refl s)

section Except

variable {ε : Type} {P : α → S → Prop} {P' : β → S → Prop} {x : ExceptT ε (Prog C R) α} {s : S}

/-- A result that, if it is not an error, satisfies `P`. -/
def Returns (P : α → S → Prop) (r : Except ε α) (s : S) : Prop := ∀ a, r = .ok a → P a s

theorem returns_ok {a : α} (h : P a s) : Returns P (.ok a : Except ε α) s := by
  rintro _ ⟨⟩
  exact h

theorem returns_error (e : ε) : Returns P (.error e) s := by
  rintro _ ⟨⟩

/-- The second of two fallible programs is run in a state with the postcondition of the first. -/
theorem always_bind_except [Std.Refl Rely] {f : α → ExceptT ε (Prog C R) β}
    (hx : Always T Rely G (Returns P) x.run s)
    (hf : ∀ a s', P a s' → Always T Rely G (Returns P') (f a).run s') :
    Always T Rely G (Returns P') (x >>= f).run s := by
  rw [ExceptT.run_bind]
  refine always_bind hx fun r s' hr => ?_
  cases r with
  | ok a => exact hf a s' (hr a rfl)
  | error e => exact fun s₁ _ => returns_error e

/-- As `always_bind_except`, with a postcondition for the errors too. -/
theorem always_bind_error [Std.Refl Rely] {Q : Except ε α → S → Prop} {Q' : Except ε β → S → Prop}
    {f : α → ExceptT ε (Prog C R) β} (hx : Always T Rely G Q x.run s)
    (hf : ∀ a s', Q (.ok a) s' → Always T Rely G Q' (f a).run s')
    (he : ∀ e s' s₁, Q (.error e) s' → Rely s' s₁ → Q' (.error e) s₁) :
    Always T Rely G Q' (x >>= f).run s := by
  rw [ExceptT.run_bind]
  refine always_bind hx fun r s' hr => ?_
  cases r with
  | ok a => exact hf a s' hr
  | error e => exact fun s₁ h₁ => he e s' s₁ hr h₁

/-- As `always_bind_except`, where the second program also knows that the first stayed within
`Rely`. -/
theorem always_seq [Std.Refl Rely] [IsTrans S Rely]
    (hRely : ∀ c s s' r, G c s → T c s s' r → Rely s s') {f : α → ExceptT ε (Prog C R) β}
    (hx : Always T Rely G (Returns P) x.run s)
    (hf : ∀ a s', Rely s s' → P a s' → Always T Rely G (Returns P') (f a).run s') :
    Always T Rely G (Returns P') (x >>= f).run s := by
  rw [ExceptT.run_bind]
  refine always_bind (hx.frame hRely) fun r s' hr => ?_
  cases r with
  | ok a => exact hf a s' hr.2 (hr.1 a rfl)
  | error e => exact fun s₁ _ => returns_error e

theorem Always.adapt {ε' : Type} (hx : Always T Rely G (Returns P) x.run s) (g : ε → ε') :
    Always T Rely G (Returns P) (ExceptT.adapt g x).run s := by
  rw [ExceptT.run_adapt]
  refine hx.map fun r s' hr => ?_
  cases r with
  | ok a => exact returns_ok (hr a rfl)
  | error e => exact returns_error _

/-- Renaming the errors, with a postcondition of its own. -/
theorem Always.mapError {ε' : Type} {Q : Except ε α → S → Prop} {Q' : Except ε' α → S → Prop}
    (hx : Always T Rely G Q x.run s) (g : ε → ε') (hQ : ∀ r s, Q r s → Q' (r.mapError g) s) :
    Always T Rely G Q' (ExceptT.adapt g x).run s := by
  rw [ExceptT.run_adapt]
  exact hx.map hQ

theorem Always.lift {p : Prog C R α} (hp : Always T Rely G P p s) :
    Always T Rely G (Returns P) (ExceptT.lift p : ExceptT ε (Prog C R) α).run s := by
  rw [ExceptT.run_lift]
  exact hp.map fun a s' ha => returns_ok ha

theorem always_pure_except {a : α} (h : ∀ s₁, Rely s s₁ → P a s₁) :
    Always T Rely G (Returns P) (pure a : ExceptT ε (Prog C R) α).run s :=
  fun s₁ h₁ => returns_ok (h s₁ h₁)

/-- A result that is not an error, with `P`. -/
def Succeeds (P : α → S → Prop) (r : Except ε α) (s : S) : Prop := ∃ a, r = .ok a ∧ P a s

/-- A fallible program that follows one that does not fail. -/
theorem Always.bind_succeeds [Std.Refl Rely] {Q : Except ε β → S → Prop}
    {f : α → ExceptT ε (Prog C R) β} (hx : Always T Rely G (Succeeds P) x.run s)
    (hf : ∀ a s', P a s' → Always T Rely G Q (f a).run s') :
    Always T Rely G Q (x >>= f).run s := by
  rw [ExceptT.run_bind]
  refine always_bind hx fun r s' hr => ?_
  obtain ⟨a, rfl, ha⟩ := hr
  exact hf a s' ha

theorem Always.adapt_succeeds {ε' : Type} (hx : Always T Rely G (Succeeds P) x.run s)
    (g : ε → ε') : Always T Rely G (Succeeds P) (ExceptT.adapt g x).run s := by
  rw [ExceptT.run_adapt]
  refine hx.map fun r s' hr => ?_
  obtain ⟨a, rfl, ha⟩ := hr
  exact ⟨a, rfl, ha⟩

theorem Always.lift_succeeds {p : Prog C R α} (hp : Always T Rely G P p s) :
    Always T Rely G (Succeeds P) (ExceptT.lift p : ExceptT ε (Prog C R) α).run s := by
  rw [ExceptT.run_lift]
  exact hp.map fun a s' ha => ⟨a, rfl, ha⟩

end Except

section Steps

variable (Rely : ι → S → S → Prop) [∀ i, Std.Refl (Rely i)] [∀ i, IsTrans S (Rely i)]
  {T : ι → Handler C R S} {G : ι → C → S → Prop} {Q : ι → α → S → Prop} {J : S → Prop}
  {ps ps' : Pool ι C R α} {s s' : S}

/-- **A call of the pool is guaranteed**, and every program still keeps its guarantee if the call
is within what the others rely on. -/
theorem PoolStep.always {i : ι} {c : C} {r : R c}
    (hstep : PoolStep T (ps, s) (i, ⟨c, r⟩) (ps', s'))
    (hps : ∀ t ∈ ps, Always (T t.1) (Rely t.1) (G t.1) (Q t.1) t.2 s) :
    G i c s ∧ ∃ others : Pool ι C R α,
      (ps.map Prod.fst).Perm (i :: others.map Prod.fst) ∧
      ((∀ t ∈ others, Rely t.1 s s') →
        ∀ t ∈ ps', Always (T t.1) (Rely t.1) (G t.1) (Q t.1) t.2 s') := by
  cases hstep with
  | call l m _ _ k _ _ _ hT =>
    obtain ⟨hG, hk⟩ := hps (i, .call c k) (by simp) s (Std.Refl.refl s)
    refine ⟨hG, l ++ m, ?_, fun hR t ht => ?_⟩
    · rw [List.map_append, List.map_cons, List.map_append]
      exact List.perm_middle
    · rcases List.mem_append.mp ht with h | h
      · exact (hps t (by simp [h])).mono (hR t (List.mem_append_left m h))
      rcases List.mem_cons.mp h with rfl | h
      · exact hk s' r hT
      · exact (hps t (by simp [h])).mono (hR t (List.mem_append_right l h))

variable {Rely}

/-- **Invariants of a pool whose programs have different labels**: what the others may do is a
relation for each label, so that a program may own a part of the state. -/
theorem PoolRuns.invariant_labels
    (hJ : ∀ i c s s' r, J s → G i c s → T i c s s' r → J s' ∧ ∀ j, j ≠ i → Rely j s s')
    (hruns : PoolRuns T (ps, s) (ps', s')) (hnodup : (ps.map Prod.fst).Nodup) (hs : J s)
    (hps : ∀ t ∈ ps, Always (T t.1) (Rely t.1) (G t.1) (Q t.1) t.2 s) :
    J s' ∧ ∀ t ∈ ps', Always (T t.1) (Rely t.1) (G t.1) (Q t.1) t.2 s' := by
  have key : ∀ x : Pool ι C R α × S, PoolRuns T (ps, s) x → (x.1.map Prod.fst).Nodup ∧
      J x.2 ∧ ∀ t ∈ x.1, Always (T t.1) (Rely t.1) (G t.1) (Q t.1) t.2 x.2 := by
    intro x hx
    induction hx with
    | refl => exact ⟨hnodup, hs, hps⟩
    | tail _ hstep ih =>
      obtain ⟨⟨i, c, r⟩, hstep⟩ := hstep
      obtain ⟨hnd, hJ₁, hps₁⟩ := ih
      obtain ⟨hG, others, hperm, hothers⟩ := hstep.always Rely hps₁
      obtain ⟨hJ₂, hR⟩ := hJ i c _ _ r hJ₁ hG hstep.handled
      refine ⟨hstep.labels.1 ▸ hnd, hJ₂, hothers fun t ht => hR t.1 ?_⟩
      -- the labels differ, so no other program has the label of the one that made the call
      have hi := (List.nodup_cons.mp (hperm.nodup_iff.mp hnd)).1
      exact fun he => hi (he ▸ List.mem_map_of_mem ht)
  exact (key _ hruns).2

end Steps

section Pools

variable [Std.Refl Rely] [IsTrans S Rely] {T : ι → Handler C R S} {G : ι → C → S → Prop}
  {Q : ι → α → S → Prop} {ps ps' : Pool ι C R α} {s s' : S}

/-- **The pool rule.** If every program keeps its guarantee and guaranteed calls stay within
`Rely`, then each call of the pool is guaranteed and every program still keeps its guarantee. -/
theorem PoolStep.guarantee (hRely : ∀ i c s s' r, G i c s → T i c s s' r → Rely s s') {i : ι}
    {c : C} {r : R c} (hstep : PoolStep T (ps, s) (i, ⟨c, r⟩) (ps', s'))
    (hps : ∀ t ∈ ps, Always (T t.1) Rely (G t.1) (Q t.1) t.2 s) :
    G i c s ∧ T i c s s' r ∧ ∀ t ∈ ps', Always (T t.1) Rely (G t.1) (Q t.1) t.2 s' := by
  obtain ⟨hG, others, -, hothers⟩ := hstep.always (fun _ => Rely) hps
  exact ⟨hG, hstep.handled, hothers fun _ _ => hRely i c s s' r hG hstep.handled⟩

/-- **Invariants of a pool.** What guaranteed calls keep holds in every interleaving of programs
that keep their guarantees; `Rely` may use the invariant. -/
theorem PoolRuns.invariant {J : S → Prop}
    (hJ : ∀ i c s s' r, J s → G i c s → T i c s s' r → J s' ∧ Rely s s')
    (hruns : PoolRuns T (ps, s) (ps', s')) (hs : J s)
    (hps : ∀ t ∈ ps, Always (T t.1) Rely (G t.1) (Q t.1) t.2 s) :
    J s' ∧ ∀ t ∈ ps', Always (T t.1) Rely (G t.1) (Q t.1) t.2 s' := by
  have key : ∀ x : Pool ι C R α × S, PoolRuns T (ps, s) x →
      J x.2 ∧ ∀ t ∈ x.1, Always (T t.1) Rely (G t.1) (Q t.1) t.2 x.2 := by
    intro x hx
    induction hx with
    | refl => exact ⟨hs, hps⟩
    | tail _ hstep ih =>
      obtain ⟨⟨i, c, r⟩, hstep⟩ := hstep
      obtain ⟨hJ₁, hps₁⟩ := ih
      obtain ⟨hG, others, -, hothers⟩ := hstep.always (fun _ => Rely) hps₁
      obtain ⟨hJ₂, hR⟩ := hJ i c _ _ r hJ₁ hG hstep.handled
      exact ⟨hJ₂, hothers fun _ _ => hR⟩
  exact key _ hruns

end Pools

end Always

/-! ## Conserved quantities -/

section Spends

variable {M : Type} [AddCommMonoid M] (T : Handler C R S) (μ : S → M)

/-- **The program adds `m` to the measure `μ`**, less what is left over with `Q` on return. -/
def Spends (Q : α → M → Prop) : Prog C R α → M → Prop
  | .ret a, m => Q a m
  | .call c k, m => ∀ s s' r, T c s s' r → ∃ m', μ s' + m' = μ s + m ∧ Spends Q (k r) m'

variable {T μ}

theorem spends_pure {Q : α → M → Prop} {a : α} {m : M} (h : Q a m) :
    Spends T μ Q (pure a : Prog C R α) m := h

theorem Spends.imp {Q Q' : α → M → Prop} {p : Prog C R α} {m : M} (h : Spends T μ Q p m)
    (hQ : ∀ a m, Q a m → Q' a m) : Spends T μ Q' p m := by
  induction p generalizing m with
  | ret a => exact hQ a m h
  | call c k ih =>
    intro s s' r hT
    obtain ⟨m', hm, hk⟩ := h s s' r hT
    exact ⟨m', hm, ih r hk⟩

theorem spends_perform {c : C} {Q : R c → M → Prop} {m : M}
    (h : ∀ s s' r, T c s s' r → ∃ m', μ s' + m' = μ s + m ∧ Q r m') :
    Spends T μ Q (perform c) m := h

theorem spends_bind {Q : α → M → Prop} {Q' : β → M → Prop} {p : Prog C R α}
    {f : α → Prog C R β} {m : M} (hp : Spends T μ Q p m)
    (hf : ∀ a m', Q a m' → Spends T μ Q' (f a) m') : Spends T μ Q' (p >>= f) m := by
  rw [bind_def]
  induction p generalizing m with
  | ret a => exact hf a m hp
  | call c k ih =>
    intro s s' r hT
    obtain ⟨m', hm, hk⟩ := hp s s' r hT
    exact ⟨m', hm, ih r hk⟩

theorem spends_bind_except {ε : Type} {Q : α → M → Prop} {Q' : Except ε β → M → Prop}
    {x : ExceptT ε (Prog C R) α} {f : α → ExceptT ε (Prog C R) β} {m : M}
    (hx : Spends T μ (fun r m' => ∃ a, r = .ok a ∧ Q a m') x.run m)
    (hf : ∀ a m', Q a m' → Spends T μ Q' (f a).run m') : Spends T μ Q' (x >>= f).run m := by
  rw [ExceptT.run_bind]
  refine spends_bind hx fun r m' hr => ?_
  obtain ⟨a, rfl, hQ⟩ := hr
  exact hf a m' hQ

theorem spends_adapt {ε ε' : Type} {Q : α → M → Prop} {x : ExceptT ε (Prog C R) α} {m : M}
    (hx : Spends T μ (fun r m' => ∃ a, r = .ok a ∧ Q a m') x.run m) (g : ε → ε') :
    Spends T μ (fun r m' => ∃ a, r = .ok a ∧ Q a m') (ExceptT.adapt g x).run m := by
  rw [ExceptT.run_adapt, map_eq_pure_bind]
  refine spends_bind hx fun r m' hr => ?_
  obtain ⟨a, rfl, hQ⟩ := hr
  exact ⟨a, rfl, hQ⟩

theorem spends_lift {ε : Type} {Q : α → M → Prop} {p : Prog C R α} {m : M}
    (hp : Spends T μ Q p m) :
    Spends T μ (fun r m' => ∃ a, r = .ok a ∧ Q a m')
      (ExceptT.lift p : ExceptT ε (Prog C R) α).run m := by
  rw [ExceptT.run_lift, map_eq_pure_bind]
  exact spends_bind hp fun a m' hQ => ⟨a, rfl, hQ⟩

/-- A program none of whose calls changes the measure. -/
theorem AllCalls.spends {P : C → Prop} {p : Prog C R α} {m : M}
    (hp : AllCalls (fun _ _ => True) P p) (hP : ∀ c s s' r, P c → T c s s' r → μ s' = μ s) :
    Spends T μ (fun _ m' => m' = m) p m := by
  induction p with
  | ret a => rfl
  | call c k ih =>
    intro s s' r hT
    exact ⟨m, by rw [hP c s s' r hp.1 hT], ih r (hp.2 r trivial)⟩

/-- A step of the pool moves what one program still has to spend into the measure. -/
theorem PoolStep.conserve {Q : α → M → Prop} {ps ps' : Pool ι C R α} {s s' : S}
    {e : ι × (Σ c, R c)} (hstep : PoolStep (fun _ => T) (ps, s) e (ps', s')) {ms : List M}
    (hps : List.Forall₂ (fun t m => Spends T μ Q t.2 m) ps ms) :
    ∃ ms', List.Forall₂ (fun t m => Spends T μ Q t.2 m) ps' ms' ∧
      μ s' + ms'.sum = μ s + ms.sum := by
  cases hstep with
  | call l rest i c k _ _ r hT =>
    have hl := (List.forall₂_take_append ms l _ hps.flip).flip
    have hr := (List.forall₂_drop_append ms l _ hps.flip).flip
    obtain ⟨m, mr, hm, hr', e⟩ := List.forall₂_cons_left_iff.mp hr
    have hms : ms = ms.take l.length ++ m :: mr := by rw [← e, List.take_append_drop]
    rw [hms]
    generalize ms.take l.length = ml at hl
    obtain ⟨m', hm', hk⟩ := hm s s' r hT
    refine ⟨ml ++ m' :: mr, List.rel_append hl (.cons hk hr'), ?_⟩
    simp only [List.sum_append, List.sum_cons]
    calc μ s' + (ml.sum + (m' + mr.sum)) = (μ s' + m') + (ml.sum + mr.sum) := by ac_rfl
      _ = (μ s + m) + (ml.sum + mr.sum) := by rw [hm']
      _ = μ s + (ml.sum + (m + mr.sum)) := by ac_rfl

/-- Programs that have returned with nothing left over have nothing left to spend. -/
theorem Pool.Finished.sum_eq_zero {Q : α → M → Prop} {ps : Pool ι C R α} (hfin : Pool.Finished ps)
    {ms : List M} (hps : List.Forall₂ (fun t m => Spends T μ Q t.2 m) ps ms)
    (hQ : ∀ a m, Q a m → m = 0) : ms.sum = 0 := by
  induction hps with
  | nil => rfl
  | @cons t m _ _ hspend _ ih =>
    obtain ⟨a, ha⟩ := hfin t List.mem_cons_self
    rw [ha] at hspend
    rw [List.sum_cons, hQ a m hspend, ih fun t' ht' => hfin t' (List.mem_cons_of_mem _ ht'),
      add_zero]

/-- **Conservation.** Once every program has returned with nothing left over, the measure has
grown by the sum of what the programs had to spend. -/
theorem PoolRuns.conserve {Q : α → M → Prop} {ps ps' : Pool ι C R α} {s s' : S}
    (hruns : PoolRuns (fun _ => T) (ps, s) (ps', s')) {ms : List M}
    (hps : List.Forall₂ (fun t m => Spends T μ Q t.2 m) ps ms) (hfin : Pool.Finished ps')
    (hQ : ∀ a m, Q a m → m = 0) : μ s' = μ s + ms.sum := by
  have key : ∀ x : Pool ι C R α × S, PoolRuns (fun _ => T) (ps, s) x →
      ∃ ms', List.Forall₂ (fun t m => Spends T μ Q t.2 m) x.1 ms' ∧
        μ x.2 + ms'.sum = μ s + ms.sum := by
    intro x hx
    induction hx with
    | refl => exact ⟨ms, hps, rfl⟩
    | tail _ hstep ih =>
      obtain ⟨ms₁, h₁, e₁⟩ := ih
      obtain ⟨e, hstep⟩ := hstep
      obtain ⟨ms₂, h₂, e₂⟩ := hstep.conserve h₁
      exact ⟨ms₂, h₂, e₂.trans e₁⟩
  obtain ⟨ms', h', e'⟩ := key _ hruns
  rw [← e', hfin.sum_eq_zero h' hQ, add_zero]

end Spends

/-! ## Accrued quantities -/

section Accrues

variable {M : Type} [AddCommMonoid M]

/-- **The program adds to the measure `μ`**, on top of `m`, and returns with `Q` of its result and
the total. -/
def Accrues (T : Handler C R S) (μ : S → M) (Q : α → M → Prop) : Prog C R α → M → Prop
  | .ret a, m => Q a m
  | .call c k, m => ∀ s s' r, T c s s' r → ∃ d, μ s' = μ s + d ∧ Accrues T μ Q (k r) (m + d)

variable {T : Handler C R S} {μ : S → M} {m : M}

theorem accrues_perform {c : C} {Q : R c → M → Prop}
    (h : ∀ s s' r, T c s s' r → ∃ d, μ s' = μ s + d ∧ Q r (m + d)) :
    Accrues T μ Q (perform c) m := h

theorem accrues_bind {Q : α → M → Prop} {Q' : β → M → Prop} {p : Prog C R α}
    {f : α → Prog C R β} (hp : Accrues T μ Q p m)
    (hf : ∀ a m', Q a m' → Accrues T μ Q' (f a) m') : Accrues T μ Q' (p >>= f) m := by
  rw [bind_def]
  induction p generalizing m with
  | ret a => exact hf a m hp
  | call c k ih =>
    intro s s' r hT
    obtain ⟨d, hd, hk⟩ := hp s s' r hT
    exact ⟨d, hd, ih r hk⟩

theorem Accrues.map {Q : α → M → Prop} {Q' : β → M → Prop} {f : α → β} {p : Prog C R α}
    (h : Accrues T μ Q p m) (hQ : ∀ a m, Q a m → Q' (f a) m) : Accrues T μ Q' (f <$> p) m := by
  rw [map_eq_pure_bind]
  exact accrues_bind h hQ

/-- An error of the first program is the result. -/
theorem accrues_bind_except {ε : Type} {Q : Except ε α → M → Prop} {Q' : Except ε β → M → Prop}
    {x : ExceptT ε (Prog C R) α} {f : α → ExceptT ε (Prog C R) β} (hx : Accrues T μ Q x.run m)
    (hf : ∀ a m', Q (.ok a) m' → Accrues T μ Q' (f a).run m')
    (he : ∀ e m', Q (.error e) m' → Q' (.error e) m') : Accrues T μ Q' (x >>= f).run m := by
  rw [ExceptT.run_bind]
  refine accrues_bind hx fun r m' hr => ?_
  cases r with
  | ok a => exact hf a m' hr
  | error e => exact he e m' hr

/-- A program none of whose calls changes the measure. -/
theorem AllCalls.accrues {P : C → Prop} {p : Prog C R α} (hp : AllCalls (fun _ _ => True) P p)
    (hP : ∀ c s s' r, P c → T c s s' r → μ s' = μ s) : Accrues T μ (fun _ m' => m' = m) p m := by
  induction p with
  | ret a => rfl
  | call c k ih =>
    intro s s' r hT
    refine ⟨0, ?_, ?_⟩
    · rw [add_zero]
      exact hP c s s' r hp.1 hT
    · rw [add_zero]
      exact ih r (hp.2 r trivial)

variable {T : ι → Handler C R S} {Q : ι → α → M → Prop} {ps ps' : Pool ι C R α} {s s' : S}

/-- A step of the pool changes the measure by what one program adds to its total. -/
theorem PoolStep.accrue {e : ι × (Σ c, R c)} (hstep : PoolStep T (ps, s) e (ps', s')) {ms : List M}
    (hps : List.Forall₂ (fun t m => Accrues (T t.1) μ (Q t.1) t.2 m) ps ms) :
    ∃ d ms', List.Forall₂ (fun t m => Accrues (T t.1) μ (Q t.1) t.2 m) ps' ms' ∧
      μ s' = μ s + d ∧ ms'.sum = ms.sum + d := by
  cases hstep with
  | call l rest i c k _ _ r hT =>
    have hl := (List.forall₂_take_append ms l _ hps.flip).flip
    have hr := (List.forall₂_drop_append ms l _ hps.flip).flip
    obtain ⟨m, mr, hm, hr', e⟩ := List.forall₂_cons_left_iff.mp hr
    have hms : ms = ms.take l.length ++ m :: mr := by rw [← e, List.take_append_drop]
    rw [hms]
    generalize ms.take l.length = ml at hl
    obtain ⟨d, hd, hk⟩ := hm s s' r hT
    refine ⟨d, ml ++ (m + d) :: mr, List.rel_append hl (.cons hk hr'), hd, ?_⟩
    simp only [List.sum_append, List.sum_cons]
    ac_rfl

/-- **Accrual.** In every interleaving the measure has grown by the sum of the programs' totals. -/
theorem PoolRuns.accrue (hruns : PoolRuns T (ps, s) (ps', s'))
    (hps : ∀ t ∈ ps, Accrues (T t.1) μ (Q t.1) t.2 0) :
    ∃ ms, List.Forall₂ (fun t m => Accrues (T t.1) μ (Q t.1) t.2 m) ps' ms ∧
      μ s' = μ s + ms.sum := by
  have key : ∀ x : Pool ι C R α × S, PoolRuns T (ps, s) x →
      ∃ ms, List.Forall₂ (fun t m => Accrues (T t.1) μ (Q t.1) t.2 m) x.1 ms ∧
        μ x.2 = μ s + ms.sum := by
    intro x hx
    induction hx with
    | refl =>
      refine ⟨ps.map fun _ => 0, List.forall₂_map_right_iff.mpr (List.forall₂_same.mpr hps), ?_⟩
      rw [List.sum_map_zero, add_zero]
    | tail _ hstep ih =>
      obtain ⟨ms₁, h₁, e₁⟩ := ih
      obtain ⟨e, hstep⟩ := hstep
      obtain ⟨d, ms₂, h₂, hd, hsum⟩ := hstep.accrue h₁
      exact ⟨ms₂, h₂, by rw [hd, e₁, hsum, add_assoc]⟩
  exact key _ hruns

end Accrues

end Effects
