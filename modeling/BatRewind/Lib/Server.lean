import BatRewind.Lib.Pool

/-!
# Servers

A server starts a program for every request that arrives. Its pool grows: a step is a call of one of
the programs, an arrival, or a change of the state from outside (`ServerStep`). A label may be
admitted only if `admits` holds of the pool and the state that it finds, such as what the server has
told its clients before.

* `ServerStep.mem_returned`: what has returned stays in the pool.
* `PoolRuns.server`: the programs may run while nothing arrives.
* **`ServerRuns.invariant`**: programs that keep their guarantees, together with a fact about each
  label that holds from its arrival on.
-/

namespace Effects

variable {C : Type} {R : C → Type} {S ι α : Type}

/-- **One step of a server.** -/
inductive ServerStep (T : ι → Handler C R S) (program : ι → Prog C R α)
    (admits : Pool ι C R α → S → ι → Prop) (Outside : S → S → Prop) :
    Pool ι C R α × S → Pool ι C R α × S → Prop
  | call {x y : Pool ι C R α × S} {e : ι × (Σ c, R c)} (h : PoolStep T x e y) :
      ServerStep T program admits Outside x y
  | arrive {ps : Pool ι C R α} {s : S} {i : ι} (h : admits ps s i) :
      ServerStep T program admits Outside (ps, s) ((i, program i) :: ps, s)
  | outside {ps : Pool ι C R α} {s s' : S} (h : Outside s s') :
      ServerStep T program admits Outside (ps, s) (ps, s')

/-- The runs of a server. -/
def ServerRuns (T : ι → Handler C R S) (program : ι → Prog C R α)
    (admits : Pool ι C R α → S → ι → Prop) (Outside : S → S → Prop) :
    Pool ι C R α × S → Pool ι C R α × S → Prop :=
  Relation.ReflTransGen (ServerStep T program admits Outside)

section Server

variable {T : ι → Handler C R S} {program : ι → Prog C R α}
  {admits : Pool ι C R α → S → ι → Prop} {Outside : S → S → Prop} {ps ps' : Pool ι C R α} {s s' : S}

theorem PoolStep.mem_returned {e : ι × (Σ c, R c)} (h : PoolStep T (ps, s) e (ps', s')) {i : ι}
    {a : α} (hmem : (i, Prog.ret a) ∈ ps) : (i, Prog.ret a) ∈ ps' := by
  cases h with
  | call l m i' c k _ _ r hT =>
    rcases List.mem_append.mp hmem with hl | hm
    · exact List.mem_append_left _ hl
    · rcases List.mem_cons.mp hm with heq | hm
      · cases heq
      · exact List.mem_append_right _ (List.mem_cons_of_mem _ hm)

/-- What has returned stays in the pool. -/
theorem ServerStep.mem_returned (h : ServerStep T program admits Outside (ps, s) (ps', s')) {i : ι}
    {a : α} (hmem : (i, Prog.ret a) ∈ ps) : (i, Prog.ret a) ∈ ps' := by
  cases h with
  | call h => exact h.mem_returned hmem
  | arrive h => exact List.mem_cons_of_mem _ hmem
  | outside h => exact hmem

/-- A run of the pool is a run of the server in which nothing arrives. -/
theorem PoolRuns.server {x y : Pool ι C R α × S} (h : PoolRuns T x y) :
    ServerRuns T program admits Outside x y := by
  refine Relation.ReflTransGen.mono (fun _ _ hstep => ?_) _ _ h
  obtain ⟨e, hstep⟩ := hstep
  exact .call hstep

variable {Rely : S → S → Prop} [Std.Refl Rely] [IsTrans S Rely] {G : ι → C → S → Prop}
  {Q : ι → α → S → Prop} {L : Pool ι C R α → S → ι → Prop}

/-- **Invariants of a server.** The programs that have arrived keep their guarantees, if calls and
changes from outside stay within `Rely`; and `L` holds of every label, if it holds when the label is
admitted and no step ends it. -/
theorem ServerRuns.invariant
    (hcall : ∀ i c s s' r, G i c s → T i c s s' r → Rely s s')
    (houtside : ∀ s s', Outside s s' → Rely s s')
    (hadmits : ∀ ps s i, admits ps s i →
      (∀ t ∈ ps, Always (T t.1) Rely (G t.1) (Q t.1) t.2 s ∧ L ps s t.1) →
      Always (T i) Rely (G i) (Q i) (program i) s ∧ L ps s i)
    (hstays : ∀ ps s ps' s' i, L ps s i → Rely s s' →
      ServerStep T program admits Outside (ps, s) (ps', s') → L ps' s' i)
    (hruns : ServerRuns T program admits Outside (ps, s) (ps', s'))
    (hps : ∀ t ∈ ps, Always (T t.1) Rely (G t.1) (Q t.1) t.2 s ∧ L ps s t.1) :
    ∀ t ∈ ps', Always (T t.1) Rely (G t.1) (Q t.1) t.2 s' ∧ L ps' s' t.1 := by
  have key : ∀ x : Pool ι C R α × S, ServerRuns T program admits Outside (ps, s) x →
      ∀ t ∈ x.1, Always (T t.1) Rely (G t.1) (Q t.1) t.2 x.2 ∧ L x.1 x.2 t.1 := by
    intro x hx
    induction hx with
    | refl => exact hps
    | @tail y z _ hstep ih =>
      have hstep' := hstep
      cases hstep with
      | @call _ _ e hcalls =>
        obtain ⟨ps₁, s₁⟩ := y
        obtain ⟨ps₂, s₂⟩ := z
        obtain ⟨i, c, r⟩ := e
        obtain ⟨hG, others, -, hothers⟩ := hcalls.always (fun _ => Rely) fun t ht => (ih t ht).1
        have hR := hcall i c s₁ s₂ r hG hcalls.handled
        have hlabel := hcalls.forall_label (P := L ps₁ s₁) fun t ht => (ih t ht).2
        exact fun t ht => ⟨hothers (fun _ _ => hR) t ht,
          hstays ps₁ s₁ ps₂ s₂ t.1 (hlabel t ht) hR hstep'⟩
      | @arrive ps₁ s₁ i hadmit =>
        have hrefl : Rely s₁ s₁ := Std.Refl.refl s₁
        obtain ⟨hprogram, hL⟩ := hadmits ps₁ s₁ i hadmit ih
        intro t ht
        rcases List.mem_cons.mp ht with rfl | ht
        · exact ⟨hprogram, hstays ps₁ s₁ _ s₁ i hL hrefl hstep'⟩
        · exact ⟨(ih t ht).1, hstays ps₁ s₁ _ s₁ t.1 (ih t ht).2 hrefl hstep'⟩
      | @outside ps₁ s₁ s₂ hout =>
        have hR := houtside s₁ s₂ hout
        exact fun t ht =>
          ⟨(ih t ht).1.mono hR, hstays ps₁ s₁ ps₁ s₂ t.1 (ih t ht).2 hR hstep'⟩
  exact key _ hruns

end Server

end Effects
