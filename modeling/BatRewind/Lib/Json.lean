import Mathlib.Algebra.Ring.Int.Defs
import Mathlib.Data.Rat.Defs

/-!
# JSON values and their decoding into structs

`Json` is a JSON value. Go's `encoding/json` accepts for an integer field what `strconv.ParseInt`
reads into 64 bits: such a literal is `.int`, and every other number is `.dec`, with a fraction, an
exponent or too many digits.

Decoding into a struct follows `encoding/json`: the keys of an object are taken in the order of
the text, a key names the field whose tag it is, or else the field whose tag it is up to letter
case (`fieldFor`), unknown keys are skipped, and `null` leaves a field as it is.
-/

namespace Encoding

/-- The integer has 64 bits. -/
def FitsInt64 (n : ℤ) : Prop := -2 ^ 63 ≤ n ∧ n < 2 ^ 63

instance (n : ℤ) : Decidable (FitsInt64 n) := inferInstanceAs (Decidable (_ ∧ _))

/-- A JSON value. A number is `.int` if it is an integer literal of 64 bits, otherwise `.dec`. -/
inductive Json where
  | null
  | bool (b : Bool)
  | int (n : ℤ)
  | dec (q : ℚ)
  | str (s : String)
  | arr (xs : List Json)
  | obj (kvs : List (String × Json))

/-- The name `encoding/json` gives to a kind of value in its errors. -/
def Json.kind : Json → String
  | .null => "null"
  | .bool _ => "bool"
  | .int _ | .dec _ => "number"
  | .str _ => "string"
  | .arr _ => "array"
  | .obj _ => "object"

/-- The text of an `UnmarshalTypeError`. -/
def typeError (v : Json) (field type : String) : String :=
  "json: cannot unmarshal " ++ v.kind ++ " into Go struct field " ++ field ++ " of type " ++ type

/-- A letter without its case. The long s and the Kelvin sign fold to ASCII letters. -/
def foldChar (c : Char) : Char :=
  if c = '\u017f' then 's' else if c = '\u212a' then 'k' else c.toLower

/-- The tag a key stands for. -/
def fieldFor (tags : List String) (key : String) : Option String :=
  (tags.find? fun t => t = key).or
    (tags.find? fun t => t.toList.map foldChar = key.toList.map foldChar)

theorem fieldFor_of_mem {tags : List String} {key : String} (h : key ∈ tags) :
    fieldFor tags key = some key := by
  have : tags.find? (fun t => t = key) = some key := by
    obtain ⟨t, ht⟩ := Option.isSome_iff_exists.mp
      (List.find?_isSome (p := fun t => decide (t = key)).mpr ⟨key, h, by simp⟩)
    have : t = key := by simpa using List.find?_some ht
    rw [ht, this]
  rw [fieldFor, this, Option.some_or]

/-- Decode the entries of an object into a struct, one after another. -/
def decodeFields {σ : Type} (tags : List String) (set : String → Json → σ → Except String σ) :
    List (String × Json) → σ → Except String σ
  | [], x => .ok x
  | (k, v) :: kvs, x =>
    match fieldFor tags k with
    | none => decodeFields tags set kvs x
    | some t => set t v x >>= decodeFields tags set kvs

theorem decodeFields_cons {σ : Type} {tags : List String}
    {set : String → Json → σ → Except String σ} {k : String} {v : Json}
    {kvs : List (String × Json)} {x y : σ} (hk : k ∈ tags) (hs : set k v x = .ok y) :
    decodeFields tags set ((k, v) :: kvs) x = decodeFields tags set kvs y := by
  rw [decodeFields, fieldFor_of_mem hk]
  simp only [hs]
  rfl

/-- An entry that may be left out. -/
theorem decodeFields_optional {σ α : Type} {tags : List String}
    {set : String → Json → σ → Except String σ} {k : String} {f : α → Json}
    {kvs : List (String × Json)} {x : σ} (o : Option α) (y : Option α → σ) (hk : k ∈ tags)
    (hnone : y none = x) (hsome : ∀ a, set k (f a) x = .ok (y (some a))) :
    decodeFields tags set ((o.toList.map fun a => (k, f a)) ++ kvs) x =
      decodeFields tags set kvs (y o) := by
  cases o with
  | none => rw [hnone, Option.toList, List.map_nil, List.nil_append]
  | some a =>
    rw [Option.toList, List.map_cons, List.map_nil, List.cons_append, List.nil_append]
    exact decodeFields_cons hk (hsome a)

/-- A string field. -/
def intoString (field : String) : Json → String → Except String String
  | .null, old => .ok old
  | .str s, _ => .ok s
  | v, _ => .error (typeError v field "string")

/-- An integer field. A literal that has no 64 bits is `.dec`, and is refused. -/
def intoInt (field type : String) : Json → ℤ → Except String ℤ
  | .null, old => .ok old
  | .int n, _ => .ok n
  | v, _ => .error (typeError v field type)

/-- A floating-point field, read as the exact value of the literal. -/
def intoFloat (field : String) : Json → ℚ → Except String ℚ
  | .null, old => .ok old
  | .int n, _ => .ok n
  | .dec q, _ => .ok q
  | v, _ => .error (typeError v field "float64")

/-- A floating-point number as a literal. -/
def ofFloat (q : ℚ) : Json := if q.den = 1 ∧ FitsInt64 q.num then .int q.num else .dec q

theorem intoFloat_ofFloat (field : String) (q old : ℚ) :
    intoFloat field (ofFloat q) old = .ok q := by
  unfold ofFloat
  split_ifs with h
  · simp only [intoFloat]
    rw [Rat.coe_int_num_of_den_eq_one h.1]
  · rfl

end Encoding
