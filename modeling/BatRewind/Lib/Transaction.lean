import Mathlib.Data.Nat.Notation
import BatRewind.Lib.Prog

/-!
# Transactions

A connection to a store runs statements one by one, or between `begin` and `commit` on a copy that
becomes the store only at the `commit`. Any call may fail; a failing one changes nothing but ends
an open transaction if it is the `commit`.

* `handler E ok bad`: the calls; `E` is the effect of a statement, `ok` and `bad` say which calls
  may succeed and which may fail.
* `transaction`: run a body in a transaction and roll back on an error; `performs_transaction`: its
  statements.
* **`Triple.transaction_cases`**: the effects of the body are committed as a whole, or none of them
  is; `Triple.transaction` is the rule for a body that has no errors of its own.
-/

namespace Transactions

open Effects Effects.Prog

/-- The calls of a connection. -/
inductive Call (C : Type) where
  | begin
  | exec (q : C)
  | commit
  | rollback

/-- Their answers, where `A q` is what the statement `q` returns. -/
@[reducible] def Resp {C : Type} (A : C → Type) : Call C → Type
  | .begin | .commit => Except String Unit
  | .exec q => Except String (A q)
  | .rollback => Unit

/-- A connection: the store, the copy of an open transaction, and how many calls failed. -/
structure Conn (σ : Type) where
  committed : σ
  tx : Option σ
  failures : ℕ

section Handler

variable {C σ : Type} {A : C → Type}

/-- What the statements see. -/
def Conn.current (c : Conn σ) : σ := c.tx.getD c.committed

/-- What a statement leaves. -/
def Conn.update (c : Conn σ) (s : σ) : Conn σ :=
  match c.tx with
  | some _ => { c with tx := some s }
  | none => { c with committed := s }

/-- **The calls.** -/
def handler (E : (q : C) → σ → σ → A q → Prop) (ok bad : Call C → Prop) :
    Handler (Call C) (Resp A) (Conn σ)
  | .begin, c, c', r =>
    ok .begin ∧ c' = { c with tx := some c.committed } ∧ r = .ok () ∨
      bad .begin ∧ c' = { c with failures := c.failures + 1 } ∧ ∃ e, r = .error e
  | .exec q, c, c', r =>
    (ok (.exec q) ∧ ∃ s a, E q c.current s a ∧ c' = c.update s ∧ r = .ok a) ∨
      bad (.exec q) ∧ c' = { c with failures := c.failures + 1 } ∧ ∃ e, r = .error e
  | .commit, c, c', r =>
    ok .commit ∧ c' = { c with committed := c.current, tx := none } ∧ r = .ok () ∨
      bad .commit ∧ c' = { c with tx := none, failures := c.failures + 1 } ∧ ∃ e, r = .error e
  | .rollback, c, c', _ => c' = { c with tx := none }

/-- Run `body` in a transaction, and roll back if it or the `commit` fails. -/
def transaction (body : Prog (Call C) (Resp A) (Except String Unit)) :
    Prog (Call C) (Resp A) (Except String Unit) := do
  match ← perform (R := Resp A) .begin with
  | .error e => pure (.error e)
  | .ok () =>
    match ← body with
    | .error e => do
      perform (R := Resp A) .rollback
      pure (.error e)
    | .ok () =>
      match ← perform (R := Resp A) .commit with
      | .error e => do
        perform (R := Resp A) .rollback
        pure (.error e)
      | .ok () => pure (.ok ())

/-- The statement of a call, if it is one. -/
def Call.statement {C : Type} : Call C → Option C
  | .exec q => some q
  | _ => none

/-- The statements among the calls. -/
def executed (u : List (Σ q : Call C, Resp A q)) : List C := u.filterMap fun x => x.1.statement

/-- **The statements of a transaction** are those of its body, or none. -/
theorem performs_transaction {body : Prog (Call C) (Resp A) (Except String Unit)}
    {u : List (Σ q : Call C, Resp A q)} {r : Except String Unit}
    (h : Performs (transaction body) u r) :
    (∃ e, r = .error e) ∧ executed u = [] ∨
      ∃ v r', Performs body v r' ∧ executed u = executed v ∧ (r = .ok () → r' = .ok ()) := by
  obtain ⟨u₁, r₁, u₂, h₁, h₂, rfl⟩ := performs_bind.mp h
  obtain rfl := performs_perform.mp h₁
  cases r₁ with
  | error e =>
    obtain ⟨rfl, rfl⟩ := performs_pure.mp h₂
    exact Or.inl ⟨⟨e, rfl⟩, rfl⟩
  | ok _ =>
    obtain ⟨v, r', u₃, hbody, h₃, rfl⟩ := performs_bind.mp h₂
    refine Or.inr ⟨v, r', hbody, ?_⟩
    cases r' with
    | error e =>
      obtain ⟨u₄, _, u₅, h₄, h₅, rfl⟩ := performs_bind.mp h₃
      obtain rfl := performs_perform.mp h₄
      obtain ⟨rfl, rfl⟩ := performs_pure.mp h₅
      exact ⟨by simp [executed, Call.statement], fun hr => by cases hr⟩
    | ok _ =>
      refine ⟨?_, fun _ => rfl⟩
      obtain ⟨u₄, r₄, u₅, h₄, h₅, rfl⟩ := performs_bind.mp h₃
      obtain rfl := performs_perform.mp h₄
      cases r₄ with
      | error e =>
        obtain ⟨u₆, _, u₇, h₆, h₇, rfl⟩ := performs_bind.mp h₅
        obtain rfl := performs_perform.mp h₆
        obtain ⟨rfl, rfl⟩ := performs_pure.mp h₇
        simp [executed, Call.statement]
      | ok _ =>
        obtain ⟨rfl, rfl⟩ := performs_pure.mp h₅
        simp [executed, Call.statement]

variable {E : (q : C) → σ → σ → A q → Prop} {ok bad : Call C → Prop}

/-- **All or nothing.** If the body, from a copy of `s₀`, leaves the store alone and either succeeds
without a failed call in a copy that satisfies `Q`, or returns an error with a count of failures that
satisfies `F`, then the transaction commits such a copy, or returns an error and leaves the store as
it was. -/
theorem Triple.transaction_cases {body : Prog (Call C) (Resp A) (Except String Unit)} {s₀ : σ} {k : ℕ}
    {Q : σ → Prop} {F : ℕ → Prop} (hbegin : bad .begin → F (k + 1)) (hcommit : bad .commit → F (k + 1))
    (hbody : Triple (handler E ok bad) (fun c => c = ⟨s₀, some s₀, k⟩) body fun r c =>
      c.committed = s₀ ∧ ((r = .ok () ∧ c.failures = k ∧ ∃ s, c.tx = some s ∧ Q s) ∨
        (∃ e, r = .error e) ∧ F c.failures)) :
    Triple (handler E ok bad) (fun c => c = ⟨s₀, none, k⟩) (Transactions.transaction body)
      fun r c => (r = .ok () ∧ c.failures = k ∧ Q c.committed) ∨
        (∃ e, r = .error e) ∧ F c.failures ∧ c.committed = s₀ := by
  rintro c c' r rfl hruns
  obtain ⟨c₁, r₁, hrun₁, hruns⟩ := runs_bind.mp hruns
  rcases runs_perform.mp hrun₁ with ⟨-, rfl, rfl⟩ | ⟨hbad, rfl, e, rfl⟩
  · obtain ⟨c₂, r₂, hrun₂, hruns⟩ := runs_bind.mp hruns
    obtain ⟨hcommitted, hbody⟩ := hbody _ c₂ r₂ rfl hrun₂
    rcases hbody with ⟨rfl, hfail, s, htx, hQ⟩ | ⟨⟨e, rfl⟩, hF⟩
    · obtain ⟨c₃, r₃, hrun₃, hruns⟩ := runs_bind.mp hruns
      rcases runs_perform.mp hrun₃ with ⟨-, rfl, rfl⟩ | ⟨hbad, rfl, e, rfl⟩
      · obtain ⟨rfl, rfl⟩ := hruns
        refine Or.inl ⟨rfl, hfail, ?_⟩
        simpa [Conn.current, htx] using hQ
      · obtain ⟨c₄, _, hroll, rfl, rfl⟩ := runs_bind.mp hruns
        rw [runs_perform.mp hroll]
        exact Or.inr ⟨⟨e, rfl⟩, by simpa [hfail] using hcommit hbad, hcommitted⟩
    · obtain ⟨c₃, _, hroll, rfl, rfl⟩ := runs_bind.mp hruns
      rw [runs_perform.mp hroll]
      exact Or.inr ⟨⟨e, rfl⟩, hF, hcommitted⟩
  · obtain ⟨rfl, rfl⟩ := hruns
    exact Or.inr ⟨⟨e, rfl⟩, hbegin hbad, rfl⟩

/-- The same for a body that returns an error only after a failed call, for a reason `R`. -/
theorem Triple.transaction {body : Prog (Call C) (Resp A) (Except String Unit)} {s₀ : σ} {k : ℕ}
    {Q : σ → Prop} {R : Prop} (hbegin : bad .begin → R) (hcommit : bad .commit → R)
    (hbody : Triple (handler E ok bad) (fun c => c = ⟨s₀, some s₀, k⟩) body fun r c =>
      c.committed = s₀ ∧ ((r = .ok () ∧ c.failures = k ∧ ∃ s, c.tx = some s ∧ Q s) ∨
        (∃ e, r = .error e) ∧ R ∧ k < c.failures)) :
    Triple (handler E ok bad) (fun c => c = ⟨s₀, none, k⟩) (Transactions.transaction body)
      fun r c => (r = .ok () ∧ c.failures = k ∧ Q c.committed) ∨
        (∃ e, r = .error e) ∧ R ∧ k < c.failures ∧ c.committed = s₀ := by
  have h := Triple.transaction_cases (F := fun n => R ∧ k < n)
    (fun hbad => ⟨hbegin hbad, Nat.lt_succ_self k⟩) (fun hbad => ⟨hcommit hbad, Nat.lt_succ_self k⟩)
    hbody
  simpa only [and_assoc] using h

end Handler

end Transactions
