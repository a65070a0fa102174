import Mathlib.Data.List.Infix
import Mathlib.Data.Rat.Defs

/-!
# Values of a script

The values that `JSON.parse` returns, as JavaScript sees them. A string is a list of UTF-16 code
units. A number is an exact rational; its text is the parameter `num`. The result of a property
access is an `Option`: `none` is `undefined`.

* `Units`, `units`: strings, and the one of a literal; `units_injective`.
* `Value`, `Value.get`, `truthy`, `orElse`: property access with `?.`, truth, and `??`.
* `Value.toText`: `String(v)`, which throws for an object with an entry `toString`; `toNumber`,
  where the number of a string is the parameter `strNumber`.
-/

namespace Script

/-! ## Strings -/

/-- A string: its UTF-16 code units. -/
abbrev Units := List UInt16

/-- The code units of a character. -/
def charUnits (c : Char) : Units :=
  if c.toNat < 0x10000 then [c.toNat.toUInt16]
  else
    [(0xd800 + (c.toNat - 0x10000) / 0x400).toUInt16,
      (0xdc00 + (c.toNat - 0x10000) % 0x400).toUInt16]

/-- The code units of a text. -/
def units (s : String) : Units := s.toList.flatMap charUnits

theorem charUnits_ne_nil (c : Char) : charUnits c ≠ [] := by
  unfold charUnits
  split_ifs <;> simp

theorem units_ne_nil {s : String} (h : s ≠ "") : units s ≠ [] := by
  intro hs
  rw [units, List.flatMap_eq_nil_iff] at hs
  rcases hl : s.toList with _ | ⟨c, cs⟩
  · exact h (String.toList_eq_nil_iff.mp hl)
  · exact charUnits_ne_nil c (hs c (hl ▸ List.mem_cons_self))

/-- The first code unit of a character tells whether there is a second. -/
theorem charUnits_append_inj {c d : Char} {s t : Units}
    (h : charUnits c ++ s = charUnits d ++ t) : c = d ∧ s = t := by
  have hvalid : ∀ c : Char, c.toNat < 0xd800 ∨ 0xdfff < c.toNat ∧ c.toNat < 0x110000 := fun c =>
    c.valid
  have htoNat : ∀ n : ℕ, n.toUInt16.toNat = n % 2 ^ 16 := fun n => UInt16.toNat_ofNat'
  have hc := hvalid c
  have hd := hvalid d
  unfold charUnits at h
  split_ifs at h with hsmall hsmall' hsmall'
  · obtain ⟨hunit, hrest⟩ := List.cons.inj h
    have hnum := congrArg UInt16.toNat hunit
    rw [htoNat, htoNat] at hnum
    exact ⟨Char.toNat_inj.mp (by omega), hrest⟩
  · have hnum := congrArg UInt16.toNat (List.cons.inj h).1
    rw [htoNat, htoNat] at hnum
    omega
  · have hnum := congrArg UInt16.toNat (List.cons.inj h).1
    rw [htoNat, htoNat] at hnum
    omega
  · obtain ⟨hunit, hrest⟩ := List.cons.inj h
    obtain ⟨hunit', hrest⟩ := List.cons.inj hrest
    have hnum := congrArg UInt16.toNat hunit
    have hnum' := congrArg UInt16.toNat hunit'
    rw [htoNat, htoNat] at hnum hnum'
    exact ⟨Char.toNat_inj.mp (by omega), hrest⟩

/-- **A text has its own code units.** -/
theorem units_injective : Function.Injective units := by
  have hchars : ∀ cs ds : List Char, cs.flatMap charUnits = ds.flatMap charUnits → cs = ds := by
    intro cs
    induction cs with
    | nil =>
      intro ds h
      cases ds with
      | nil => rfl
      | cons d ds => exact absurd (List.append_eq_nil_iff.mp h.symm).1 (charUnits_ne_nil d)
    | cons c cs ih =>
      intro ds h
      cases ds with
      | nil => exact absurd (List.append_eq_nil_iff.mp h).1 (charUnits_ne_nil c)
      | cons d ds =>
        obtain ⟨rfl, hrest⟩ := charUnits_append_inj h
        rw [ih ds hrest]
  intro s t h
  exact String.toList_inj.mp (hchars _ _ h)

/-- White space and line terminators, the class `\s`. -/
def isSpace (u : UInt16) : Bool :=
  (9 ≤ u && u ≤ 13) || u = 0x20 || u = 0xa0 || u = 0x1680 || (0x2000 ≤ u && u ≤ 0x200a) ||
    u = 0x2028 || u = 0x2029 || u = 0x202f || u = 0x205f || u = 0x3000 || u = 0xfeff

/-- `replace(/\s+/g, ' ')`. -/
def collapseSpaces : Units → Units
  | [] => []
  | [u] => if isSpace u then [0x20] else [u]
  | u :: v :: s =>
    if isSpace u then
      if isSpace v then collapseSpaces (v :: s) else 0x20 :: collapseSpaces (v :: s)
    else u :: collapseSpaces (v :: s)

/-- `trim`. -/
def trim (s : Units) : Units := ((s.dropWhile isSpace).reverse.dropWhile isSpace).reverse

/-- Only blanks are left of white space. -/
theorem eq_blank_of_mem_collapseSpaces {u : UInt16} {s : Units} (h : u ∈ collapseSpaces s)
    (hu : isSpace u) : u = 0x20 := by
  fun_induction collapseSpaces s with
  | case1 => exact absurd h List.not_mem_nil
  | case2 v hv => exact List.mem_singleton.mp h
  | case3 v hv =>
    obtain rfl := List.mem_singleton.mp h
    exact absurd hu hv
  | case4 v w s hv hw ih => exact ih h
  | case5 v w s hv hw ih => exact (List.mem_cons.mp h).elim id ih
  | case6 v w s hv ih =>
    rcases List.mem_cons.mp h with rfl | h
    · exact absurd hu hv
    · exact ih h

theorem mem_of_mem_trim {u : UInt16} {s : Units} (h : u ∈ trim s) : u ∈ s := by
  rw [trim, List.mem_reverse] at h
  exact (List.dropWhile_sublist _).mem (List.mem_reverse.mp ((List.dropWhile_sublist _).mem h))

/-! ## Values -/

/-- A value. -/
inductive Value where
  | null
  | bool (b : Bool)
  | num (q : ℚ)
  | str (s : Units)
  | arr (xs : List Value)
  | obj (kvs : List (Units × Value))

/-- The error of an operation that a value does not have. -/
inductive TypeError where
  | typeError
deriving DecidableEq

section Throw

variable {α β : Type} {x : Except TypeError α} {f : α → Except TypeError β}

theorem bind_eq_ok {b : β} : x >>= f = .ok b ↔ ∃ a, x = .ok a ∧ f a = .ok b := by
  cases x with
  | error err => simp [bind, Except.bind]
  | ok a => simp [bind, Except.bind]

theorem map_eq_ok {g : α → β} {b : β} : x.map g = .ok b ↔ ∃ a, x = .ok a ∧ g a = b := by
  cases x with
  | error err => simp [Except.map]
  | ok a => simp [Except.map]

/-- A bind after a map. -/
theorem map_bind {γ δ : Type} {g : α → γ} {k : γ → Except TypeError δ} {m : β → δ}
    (hk : ∀ a, k (g a) = (f a).map m) : x.map g >>= k = (x >>= f).map m := by
  cases x with
  | error err => rfl
  | ok a => exact hk a

/-- There is one error. -/
theorem eq_error_of_ne_ok (h : ∀ a, x ≠ .ok a) : x = .error .typeError := by
  cases x with
  | error err => cases err; rfl
  | ok a => exact absurd rfl (h a)

end Throw

/-- An optional property access. Only objects have entries. -/
def Value.get : Value → Units → Option Value
  | .obj kvs, key => (kvs.find? fun kv => kv.1 = key).map Prod.snd
  | _, _ => none

/-- A property access: `undefined` and `null` have no properties. -/
def access (v : Option Value) (key : Units) : Except TypeError (Option Value) :=
  match v with
  | none | some .null => .error .typeError
  | some v => .ok (v.get key)

/-- Whether a value counts as true. -/
def truthy : Option Value → Bool
  | none | some .null => false
  | some (.bool b) => b
  | some (.num q) => q ≠ 0
  | some (.str s) => s ≠ []
  | some (.arr _) | some (.obj _) => true

/-- The operator `??`. -/
def orElse (v w : Option Value) : Option Value :=
  match v with
  | none | some .null => w
  | some v => some v

/-- Comparison with a number. -/
def isNum (v : Option Value) (q : ℚ) : Bool :=
  match v with
  | some (.num r) => r = q
  | _ => false

/-- The value, if it is a string. -/
def asStr : Option Value → Option Units
  | some (.str s) => some s
  | _ => none

section Text

variable (num : ℚ → Units)

mutual

/-- `String(v)`. -/
def Value.toText : Value → Except TypeError Units
  | .null => .ok (units "null")
  | .bool b => .ok (if b then units "true" else units "false")
  | .num q => .ok (num q)
  | .str s => .ok s
  | .arr xs => do
    let texts ← elementTexts xs
    return List.intercalate (units ",") texts
  | .obj kvs =>
    if units "toString" ∈ kvs.map Prod.fst then .error .typeError
    else .ok (units "[object Object]")

/-- The texts of the elements of an array; `null` has none. -/
def elementTexts : List Value → Except TypeError (List Units)
  | [] => .ok []
  | .null :: xs => do
    let texts ← elementTexts xs
    return [] :: texts
  | x :: xs => do
    let text ← x.toText
    let texts ← elementTexts xs
    return text :: texts

end

end Text

section Number

variable (strNumber : Units → Option ℚ) (num : ℚ → Units)

/-- The number of a value in an arithmetic operation; `none` is not a number. -/
def toNumber : Option Value → Except TypeError (Option ℚ)
  | none => .ok none
  | some .null => .ok (some 0)
  | some (.bool b) => .ok (some (if b then 1 else 0))
  | some (.num q) => .ok (some q)
  | some v => do
    let text ← v.toText num
    return strNumber text

end Number

end Script
