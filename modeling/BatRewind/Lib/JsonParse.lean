import Mathlib.Data.Rat.Cast.Order
import BatRewind.Lib.Script

/-!
# `JSON.parse`

The grammar over UTF-16 code units. The functions for values take a fuel; every call of one of them
comes after a unit was read, so the length of the text is enough.

* `stringBody`, `parseNumber`, `parseValue`, `jsonParse`: the parser; `none` is its exception.
* `Reads chunk us`: in a string, `chunk` is read as `us`; `reads_flatMap`.
* `parseNumber_intText`: the decimal digits of an integer.
* **`jsonParse_object`**: an object whose members are read one by one.
-/

namespace Script

/-! ## The parser -/

/-- White space of the grammar. -/
def isWhite (u : UInt16) : Bool := u = 0x20 || u = 0x09 || u = 0x0a || u = 0x0d

/-- Skip white space and read the unit `u`. -/
def expect (u : UInt16) (s : Units) : Option Units :=
  match s.dropWhile isWhite with
  | [] => none
  | v :: t => if v = u then some t else none

/-- The value of a hexadecimal digit. -/
def hexValue (u : UInt16) : Option ℕ :=
  if 48 ≤ u ∧ u ≤ 57 then some (u.toNat - 48)
  else if 97 ≤ u ∧ u ≤ 102 then some (u.toNat - 87)
  else if 65 ≤ u ∧ u ≤ 70 then some (u.toNat - 55)
  else none

/-- The unit that four hexadecimal digits stand for. -/
def hexUnit (a b c d : UInt16) : Option UInt16 := do
  let a ← hexValue a
  let b ← hexValue b
  let c ← hexValue c
  let d ← hexValue d
  return (a * 4096 + b * 256 + c * 16 + d).toUInt16

/-- The unit that a letter after a backslash stands for. -/
def simpleEscape (u : UInt16) : Option UInt16 :=
  if u = 0x22 ∨ u = 0x5c ∨ u = 0x2f then some u
  else if u = 0x62 then some 0x08
  else if u = 0x66 then some 0x0c
  else if u = 0x6e then some 0x0a
  else if u = 0x72 then some 0x0d
  else if u = 0x74 then some 0x09
  else none

/-- The rest of a string literal, and what follows it. -/
def stringBody : Units → Option (Units × Units)
  | [] => none
  | u :: s =>
    if u = 0x22 then some ([], s)
    else if u = 0x5c then
      match s with
      | [] => none
      | v :: s =>
        if v = 0x75 then
          match s with
          | a :: b :: c :: d :: s => do
            let w ← hexUnit a b c d
            let r ← stringBody s
            return (w :: r.1, r.2)
          | _ => none
        else do
          let w ← simpleEscape v
          let r ← stringBody s
          return (w :: r.1, r.2)
    else if u < 0x20 then none
    else do
      let r ← stringBody s
      return (u :: r.1, r.2)

def isDigit (u : UInt16) : Bool := 48 ≤ u && u ≤ 57

/-- The number that a list of digits stands for. -/
def digitsValue (ds : Units) : ℕ := ds.foldl (fun n u => 10 * n + (u.toNat - 48)) 0

/-- The part of a number after the digits of its integer part. -/
def parseFraction : Units → Option (ℚ × Units)
  | [] => some (0, [])
  | u :: s =>
    if u = 0x2e then
      let ds := s.takeWhile isDigit
      if ds = [] then none else some (digitsValue ds / (10 ^ ds.length : ℕ), s.dropWhile isDigit)
    else some (0, u :: s)

/-- The power of ten at the end of a number. -/
def parseExponent : Units → Option (ℚ × Units)
  | [] => some (1, [])
  | u :: s =>
    if u = 0x65 ∨ u = 0x45 then
      let neg := s.head? = some 0x2d
      let s := if s.head? = some 0x2d ∨ s.head? = some 0x2b then s.tail else s
      let ds := s.takeWhile isDigit
      let power : ℚ := (10 ^ digitsValue ds : ℕ)
      if ds = [] then none else some (if neg then 1 / power else power, s.dropWhile isDigit)
    else some (1, u :: s)

def parseNumber (s : Units) : Option (ℚ × Units) := do
  let neg := s.head? = some 0x2d
  let s := if neg then s.tail else s
  let ds := s.takeWhile isDigit
  if ds = [] ∨ ds.head? = some 0x30 ∧ 1 < ds.length then none
  let f ← parseFraction (s.dropWhile isDigit)
  let e ← parseExponent f.2
  let q := (digitsValue ds + f.1) * e.1
  return (if neg then -q else q, e.2)

/-- `null`, `true`, `false` or a number. -/
def parseAtom (s : Units) : Option (Value × Units) :=
  if units "null" <+: s then some (.null, s.drop 4)
  else if units "true" <+: s then some (.bool true, s.drop 4)
  else if units "false" <+: s then some (.bool false, s.drop 5)
  else (parseNumber s).map fun r => (.num r.1, r.2)

/-- Set an entry of an object. -/
def putEntry (kvs : List (Units × Value)) (k : Units) (v : Value) : List (Units × Value) :=
  if kvs.any fun kv => kv.1 = k then kvs.map fun kv => if kv.1 = k then (k, v) else kv
  else kvs ++ [(k, v)]

mutual

def parseValue : ℕ → Units → Option (Value × Units)
  | 0, _ => none
  | n + 1, s =>
    match expect 0x22 s, expect 0x7b s, expect 0x5b s with
    | some s, _, _ => (stringBody s).map fun r => (.str r.1, r.2)
    | _, some s, _ =>
      match expect 0x7d s with
      | some s => some (.obj [], s)
      | none => parseMembers n [] s
    | _, _, some s =>
      match expect 0x5d s with
      | some s => some (.arr [], s)
      | none => parseElements n [] s
    | none, none, none => parseAtom (s.dropWhile isWhite)

/-- The members of an object, after those read so far. -/
def parseMembers : ℕ → List (Units × Value) → Units → Option (Value × Units)
  | 0, _, _ => none
  | n + 1, kvs, s => do
    let s ← expect 0x22 s
    let k ← stringBody s
    let s ← expect 0x3a k.2
    let v ← parseValue n s
    match expect 0x2c v.2 with
    | some s => parseMembers n (putEntry kvs k.1 v.1) s
    | none => do
      let s ← expect 0x7d v.2
      return (.obj (putEntry kvs k.1 v.1), s)

/-- The elements of an array, after those read so far. -/
def parseElements : ℕ → List Value → Units → Option (Value × Units)
  | 0, _, _ => none
  | n + 1, xs, s => do
    let v ← parseValue n s
    match expect 0x2c v.2 with
    | some s => parseElements n (xs ++ [v.1]) s
    | none => do
      let s ← expect 0x5d v.2
      return (.arr (xs ++ [v.1]), s)

end

/-- **`JSON.parse`.** -/
def jsonParse (s : Units) : Option Value := do
  let r ← parseValue (s.length + 1) s
  if r.2.all isWhite then some r.1 else none

/-! ## Strings -/

section Strings

variable {u v w : UInt16} {s rest : Units} {chunk us : Units}

/-- Inside a string literal, `chunk` is read as `us`. -/
def Reads (chunk us : Units) : Prop :=
  ∀ s, stringBody (chunk ++ s) = (stringBody s).map fun r => (us ++ r.1, r.2)

theorem Reads.nil : Reads [] [] := by
  intro s
  cases h : stringBody s <;> simp [h]

theorem Reads.append {chunk' us' : Units} (h : Reads chunk us) (h' : Reads chunk' us') :
    Reads (chunk ++ chunk') (us ++ us') := by
  intro s
  rw [List.append_assoc, h, h', Option.map_map]
  simp [Function.comp_def]

/-- **A string is read piece by piece.** -/
theorem reads_flatMap {α : Type} {f : α → Units} (h : ∀ a, ∃ us, Reads (f a) us) (as : List α) :
    ∃ us, Reads (as.flatMap f) us := by
  induction as with
  | nil => exact ⟨[], .nil⟩
  | cons a as ih =>
    obtain ⟨us, hus⟩ := h a
    obtain ⟨us', hus'⟩ := ih
    exact ⟨us ++ us', hus.append hus'⟩

/-- A unit that stands for itself. -/
def isPlain (u : UInt16) : Bool := u ≠ 0x22 && u ≠ 0x5c && 0x20 ≤ u

theorem reads_plain (h : isPlain u) : Reads [u] [u] := by
  intro s
  simp only [isPlain, Bool.and_eq_true, decide_eq_true_eq, ne_eq] at h
  obtain ⟨⟨hquote, hslash⟩, hlow⟩ := h
  rw [List.singleton_append, stringBody.eq_def]
  dsimp only
  rw [if_neg hquote, if_neg hslash, if_neg (UInt16.not_lt.mpr hlow)]
  cases stringBody s <;> rfl

theorem reads_plain_all (h : us.all isPlain) : Reads us us := by
  induction us with
  | nil => exact .nil
  | cons u us ih =>
    rw [List.all_cons, Bool.and_eq_true] at h
    exact (reads_plain h.1).append (ih h.2)

theorem reads_escape (h : simpleEscape v = some w) : Reads [0x5c, v] [w] := by
  intro s
  have hv : v ≠ 0x75 := by
    rintro rfl
    simp [simpleEscape] at h
  change stringBody (0x5c :: v :: s) = _
  rw [stringBody.eq_def]
  dsimp only
  rw [if_neg (by decide), if_pos rfl, if_neg hv, h]
  cases stringBody s <;> rfl

theorem reads_unicode {a b c d : UInt16} (h : hexUnit a b c d = some w) :
    Reads [0x5c, 0x75, a, b, c, d] [w] := by
  intro s
  change stringBody (0x5c :: 0x75 :: a :: b :: c :: d :: s) = _
  rw [stringBody.eq_def]
  dsimp only
  rw [if_neg (by decide), if_pos rfl, if_pos rfl, h]
  cases stringBody s <;> rfl

theorem stringBody_reads (h : Reads chunk us) (rest : Units) :
    stringBody (chunk ++ 0x22 :: rest) = some (us, rest) := by
  rw [h, stringBody.eq_def]
  simp

end Strings

/-! ## Numbers -/

section Numbers

variable {rest : Units}

/-- The decimal text of a natural number. -/
def natText (n : ℕ) : Units := (Nat.toDigits 10 n).map fun c => c.toNat.toUInt16

/-- The decimal text of an integer. -/
def intText (z : ℤ) : Units := if z < 0 then 0x2d :: natText z.natAbs else natText z.natAbs

/-- A unit that does not continue a number. -/
def endsNumber (u : UInt16) : Bool := !isDigit u && u ≠ 0x2e && u ≠ 0x65 && u ≠ 0x45

theorem toNat_digit {c : Char} (h : c.isDigit) :
    48 ≤ c.toNat ∧ c.toNat ≤ 57 ∧ c.toNat.toUInt16.toNat = c.toNat := by
  have hc : 48 ≤ c.toNat ∧ c.toNat ≤ 57 := Char.isDigit_iff_toNat.mp h
  refine ⟨hc.1, hc.2, ?_⟩
  change c.toNat % 2 ^ 16 = c.toNat
  omega

theorem isDigit_of_mem_toDigits {n : ℕ} {c : Char} (h : c ∈ Nat.toDigits 10 n) : c.isDigit :=
  Nat.isDigit_of_mem_toDigits (by decide) (by decide) h

theorem natText_isDigit {n : ℕ} {u : UInt16} (h : u ∈ natText n) : isDigit u := by
  obtain ⟨c, hc, rfl⟩ := List.mem_map.mp h
  have hd := toNat_digit (isDigit_of_mem_toDigits hc)
  simp only [isDigit, Bool.and_eq_true, decide_eq_true_eq, UInt16.le_iff_toNat_le, hd.2.2]
  exact ⟨hd.1, hd.2.1⟩

theorem natText_ne_nil (n : ℕ) : natText n ≠ [] := by
  intro h
  exact Nat.toDigits_ne_nil (List.map_eq_nil_iff.mp h)

/-- The digits of a number stand for it. -/
theorem digitsValue_natText (n : ℕ) : digitsValue (natText n) = n := by
  have hfold : ∀ (cs : List Char) (m : ℕ), (∀ c ∈ cs, c.isDigit) →
      (cs.map fun c => c.toNat.toUInt16).foldl (fun n u => 10 * n + (u.toNat - 48)) m =
        Nat.ofDigitChars 10 cs m := by
    intro cs
    induction cs with
    | nil => exact fun m _ => rfl
    | cons c cs ih =>
      intro m hcs
      obtain ⟨hc, hcs⟩ := List.forall_mem_cons.mp hcs
      rw [List.map_cons, List.foldl_cons, ih _ hcs, Nat.ofDigitChars_cons, (toNat_digit hc).2.2]
      rfl
  rw [digitsValue, natText, hfold _ 0 fun c hc => isDigit_of_mem_toDigits hc,
    Nat.ofDigitChars_ten_toDigits]

/-- Only zero is written with a leading zero. -/
theorem toDigits_head {n : ℕ} (h : (Nat.toDigits 10 n).head? = some '0') : n = 0 := by
  induction n using Nat.strongRecOn with
  | _ n ih =>
    by_cases hn : n < 10
    · rw [Nat.toDigits_of_lt_base hn] at h
      have hdigit : ∀ m < 10, [m.digitChar].head? = some '0' → m = 0 := by decide
      exact hdigit n hn h
    · rw [Nat.toDigits_of_base_le (by decide) (not_lt.mp hn),
        List.head?_append_of_ne_nil _ Nat.toDigits_ne_nil] at h
      have hdiv := ih (n / 10) (by omega) h
      omega

theorem natText_head {n : ℕ} (h : (natText n).head? = some 0x30) : n = 0 := by
  refine toDigits_head ?_
  rw [natText, List.head?_map] at h
  obtain ⟨c, hc, hu⟩ := Option.map_eq_some_iff.mp h
  have hd := toNat_digit (isDigit_of_mem_toDigits (List.mem_of_head? hc))
  have hzero : c.toNat = 48 := hd.2.2.symm.trans (congrArg UInt16.toNat hu)
  have hchar : c = '0' := Char.toNat_inj.mp hzero
  rw [hc, hchar]

/-- The digits of a number, and where they end. -/
theorem span_natText (n : ℕ) {u : UInt16} (hu : isDigit u = false) (rest : Units) :
    (natText n ++ u :: rest).takeWhile isDigit = natText n ∧
      (natText n ++ u :: rest).dropWhile isDigit = u :: rest := by
  rw [List.takeWhile_append_of_pos fun v hv => natText_isDigit hv,
    List.dropWhile_append_of_pos fun v hv => natText_isDigit hv]
  simp [hu]

theorem parseFraction_end {u : UInt16} (hu : u ≠ 0x2e) (rest : Units) :
    parseFraction (u :: rest) = some (0, u :: rest) := by
  rw [parseFraction, if_neg hu]

theorem parseExponent_end {u : UInt16} (hu : ¬ (u = 0x65 ∨ u = 0x45)) (rest : Units) :
    parseExponent (u :: rest) = some (1, u :: rest) := by
  rw [parseExponent, if_neg hu]

/-- **The decimal text of an integer is read as the integer.** -/
theorem parseNumber_intText (z : ℤ) {u : UInt16} (hu : endsNumber u) (rest : Units) :
    parseNumber (intText z ++ u :: rest) = some ((z : ℚ), u :: rest) := by
  simp only [endsNumber, Bool.and_eq_true, Bool.not_eq_true', decide_eq_true_eq, ne_eq] at hu
  obtain ⟨⟨⟨hdigit, hdot⟩, he⟩, hE⟩ := hu
  obtain ⟨htake, hdrop⟩ := span_natText z.natAbs hdigit rest
  have hlead : ¬ (natText z.natAbs = [] ∨
      (natText z.natAbs).head? = some 0x30 ∧ 1 < (natText z.natAbs).length) := by
    rintro (hnil | ⟨hhead, hlen⟩)
    · exact natText_ne_nil _ hnil
    · rw [natText_head hhead] at hlen
      exact absurd hlen (by decide)
  have hexp : ¬ (u = 0x65 ∨ u = 0x45) := fun h => h.elim he hE
  by_cases hz : z < 0
  · rw [intText, if_pos hz, parseNumber, List.cons_append]
    simp only [List.head?_cons, if_true, List.tail_cons, htake, hdrop, if_neg hlead,
      parseFraction_end hdot, Option.bind_eq_bind, Option.bind_some, parseExponent_end hexp,
      digitsValue_natText]
    rw [add_zero, mul_one, Nat.cast_natAbs, abs_of_neg hz, Int.cast_neg, neg_neg]
    rfl
  · have hne : (natText z.natAbs ++ u :: rest).head? ≠ some 0x2d := by
      rw [List.head?_append_of_ne_nil _ (natText_ne_nil _)]
      intro hhead
      exact absurd (natText_isDigit (List.mem_of_head? hhead)) (by decide)
    rw [intText, if_neg hz, parseNumber]
    simp only [if_neg hne, htake, hdrop, if_neg hlead, parseFraction_end hdot,
      Option.bind_eq_bind, Option.bind_some, parseExponent_end hexp, digitsValue_natText]
    rw [add_zero, mul_one, Nat.cast_natAbs, abs_of_nonneg (not_lt.mp hz)]
    rfl

/-- The text of an integer begins with a digit or a minus sign. -/
theorem intText_eq_cons (z : ℤ) :
    ∃ u s, intText z = u :: s ∧ (isDigit u ∨ u = 0x2d) := by
  by_cases hz : z < 0
  · exact ⟨0x2d, natText z.natAbs, if_pos hz, Or.inr rfl⟩
  · obtain ⟨u, s, hus⟩ := List.exists_cons_of_ne_nil (natText_ne_nil z.natAbs)
    have hu : u ∈ natText z.natAbs := hus ▸ List.mem_cons_self
    exact ⟨u, s, (if_neg hz).trans hus, Or.inl (natText_isDigit hu)⟩

end Numbers

/-! ## Objects -/

section Objects

variable {u v : UInt16} {rest chunk us : Units}

theorem expect_cons (hu : isWhite u = false) (s : Units) : expect u (u :: s) = some s := by
  simp [expect, hu]

theorem expect_ne (hv : isWhite v = false) (hne : v ≠ u) (s : Units) : expect u (v :: s) = none := by
  simp [expect, hv, hne]

/-- Before a comma or a closing brace, `text` is read as the value `v`. -/
def ReadsValue (text : Units) (v : Value) : Prop :=
  ∀ n u rest, u = 0x2c ∨ u = 0x7d →
    parseValue (n + 1) (text ++ u :: rest) = some (v, u :: rest)

theorem readsValue_string (h : Reads chunk us) :
    ReadsValue (0x22 :: (chunk ++ [0x22])) (.str us) := by
  intro n u rest _
  rw [List.cons_append, List.append_assoc, parseValue, expect_cons rfl]
  dsimp only
  rw [List.singleton_append, stringBody_reads h]
  rfl

theorem readsValue_int (z : ℤ) : ReadsValue (intText z) (.num z) := by
  intro n u rest hu
  have hend : endsNumber u := by
    rcases hu with rfl | rfl <;> decide
  obtain ⟨w, s, hs, hw⟩ := intText_eq_cons z
  have hnot : ∀ c : UInt16, isDigit c = false → c ≠ 0x2d → w ≠ c := by
    rintro c hdigit hminus rfl
    rcases hw with hw | hw
    · exact Bool.false_ne_true (hdigit.symm.trans hw)
    · exact hminus hw
  have hwhite : isWhite w = false := by
    simp [isWhite, hnot 0x20 rfl (by decide), hnot 0x09 rfl (by decide), hnot 0x0a rfl (by decide),
      hnot 0x0d rfl (by decide)]
  have hprefix : ∀ c t, isDigit c = false → c ≠ 0x2d → ¬ c :: t <+: w :: (s ++ u :: rest) := by
    intro c t hdigit hminus hp
    exact hnot c hdigit hminus (List.cons_prefix_cons.mp hp).1.symm
  have hdrop : (w :: (s ++ u :: rest)).dropWhile isWhite = w :: (s ++ u :: rest) := by
    simp [hwhite]
  have hnumber := parseNumber_intText z hend rest
  rw [hs, List.cons_append] at hnumber ⊢
  rw [parseValue, expect_ne hwhite (hnot 0x22 rfl (by decide)),
    expect_ne hwhite (hnot 0x7b rfl (by decide)), expect_ne hwhite (hnot 0x5b rfl (by decide))]
  dsimp only
  have hnull : ¬ units "null" <+: w :: (s ++ u :: rest) :=
    hprefix 0x6e (units "ull") rfl (by decide)
  have htrue : ¬ units "true" <+: w :: (s ++ u :: rest) :=
    hprefix 0x74 (units "rue") rfl (by decide)
  have hfalse : ¬ units "false" <+: w :: (s ++ u :: rest) :=
    hprefix 0x66 (units "alse") rfl (by decide)
  rw [hdrop, parseAtom, if_neg hnull, if_neg htrue, if_neg hfalse, hnumber]
  rfl

/-- A member of an object: its name and its value, and their texts. -/
structure Member where
  name : Units
  chunk : Units
  value : Value
  text : Units
  readsName : Reads chunk name
  readsValue : ReadsValue text value

/-- The text of a member. -/
def Member.literal (m : Member) : Units := 0x22 :: (m.chunk ++ 0x22 :: 0x3a :: m.text)

/-- The text of members, with commas between them. -/
def membersText : List Member → Units
  | [] => []
  | [m] => m.literal
  | m :: ms => m.literal ++ 0x2c :: membersText ms

theorem membersText_cons_cons (m m' : Member) (ms : List Member) :
    membersText (m :: m' :: ms) = m.literal ++ 0x2c :: membersText (m' :: ms) := rfl

/-- The entries that members make, after those read so far. -/
def putMembers (kvs : List (Units × Value)) (ms : List Member) : List (Units × Value) :=
  ms.foldl (fun kvs m => putEntry kvs m.name m.value) kvs

/-- **The members of an object are read one by one.** -/
theorem parseMembers_membersText (m : Member) (ms : List Member) (k : ℕ)
    (kvs : List (Units × Value)) (rest : Units) :
    parseMembers (ms.length + k + 2) kvs (membersText (m :: ms) ++ 0x7d :: rest) =
      some (.obj (putMembers kvs (m :: ms)), rest) := by
  induction ms generalizing m kvs with
  | nil =>
    rw [membersText, Member.literal, parseMembers]
    simp only [List.cons_append, List.append_assoc, expect_cons (u := 0x22) rfl,
      Option.bind_eq_bind, Option.bind_some, stringBody_reads m.readsName,
      expect_cons (u := 0x3a) rfl, List.length_nil, m.readsValue _ 0x7d rest (Or.inr rfl),
      expect_ne (u := 0x2c) (v := 0x7d) rfl (by decide), expect_cons (u := 0x7d) rfl]
    rfl
  | cons m' ms ih =>
    have hfuel : (m' :: ms).length + k + 2 = ms.length + k + 2 + 1 := by
      rw [List.length_cons]
      omega
    rw [membersText_cons_cons, Member.literal, hfuel, parseMembers]
    simp only [List.cons_append, List.append_assoc, expect_cons (u := 0x22) rfl,
      Option.bind_eq_bind, Option.bind_some, stringBody_reads m.readsName,
      expect_cons (u := 0x3a) rfl, m.readsValue _ 0x2c _ (Or.inl rfl),
      expect_cons (u := 0x2c) rfl]
    exact ih m' (putEntry kvs m.name m.value)

theorem length_le_membersText (ms : List Member) : ms.length ≤ (membersText ms).length := by
  induction ms with
  | nil => exact le_rfl
  | cons m ms ih =>
    cases ms with
    | nil => simp [membersText, Member.literal]
    | cons m' ms =>
      rw [membersText_cons_cons]
      simp only [List.length_append, List.length_cons] at ih ⊢
      omega

/-- **An object is read as its members say.** -/
theorem jsonParse_object (m : Member) (ms : List Member) :
    jsonParse (0x7b :: (membersText (m :: ms) ++ [0x7d])) =
      some (.obj (putMembers [] (m :: ms))) := by
  have hlen := length_le_membersText (m :: ms)
  rw [List.length_cons] at hlen
  obtain ⟨k, hk⟩ := Nat.exists_eq_add_of_le hlen
  have hfuel : (0x7b :: (membersText (m :: ms) ++ [0x7d])).length + 1 =
      ms.length + (k + 1) + 2 + 1 := by
    simp only [List.length_cons, List.length_append, List.length_nil]
    omega
  have hopen : ∀ s : Units, expect 0x7d (membersText (m :: ms) ++ s) = none := by
    intro s
    cases ms with
    | nil => exact expect_ne rfl (by decide) _
    | cons m' ms => exact expect_ne rfl (by decide) _
  rw [jsonParse, hfuel, parseValue, expect_ne (u := 0x22) rfl (by decide),
    expect_cons (u := 0x7b) rfl]
  dsimp only
  rw [hopen, parseMembers_membersText]
  rfl

end Objects

end Script
