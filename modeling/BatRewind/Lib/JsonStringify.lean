import BatRewind.Lib.JsonParse
import BatRewind.Lib.JsonText

/-!
# `JSON.stringify`

The text of a number is the parameter `num`.

* `quoteUnits`, `quoted`: a string literal and its inside; **`reads_quoteUnits`**: `JSON.parse`
  reads it back.
* `stringify`: the text of a value; **`jsonParse_stringify`**: an object is read back if its values
  are.
* `unescaped`: nothing in a string needs an escape; `quoteUnits_of_unescaped`.
* `solid`: the units that are not white space; **`length_solid_le`**: an escape has more of them
  than what it stands for.
-/

namespace Script

/-! ## String literals -/

/-- An escape of four hexadecimal digits. -/
def unicodeEscape (u : UInt16) : Units :=
  let digit := fun n => (Encoding.JsonText.hexDigit n).toNat.toUInt16
  [0x5c, 0x75, digit (u.toNat / 4096), digit (u.toNat / 256 % 16), digit (u.toNat / 16 % 16),
    digit (u.toNat % 16)]

/-- A unit inside a string literal. -/
def quoteUnit (u : UInt16) : Units :=
  if u = 0x22 ∨ u = 0x5c then [0x5c, u]
  else if u = 0x08 then units "\\b"
  else if u = 0x09 then units "\\t"
  else if u = 0x0a then units "\\n"
  else if u = 0x0c then units "\\f"
  else if u = 0x0d then units "\\r"
  else if u < 0x20 then unicodeEscape u
  else [u]

/-- The inside of a string literal. A surrogate without its partner is escaped. -/
def quoteUnits : Units → Units
  | [] => []
  | [u] => if 0xd800 ≤ u ∧ u ≤ 0xdfff then unicodeEscape u else quoteUnit u
  | u :: v :: s =>
    if 0xd800 ≤ u ∧ u ≤ 0xdbff ∧ 0xdc00 ≤ v ∧ v ≤ 0xdfff then u :: v :: quoteUnits s
    else if 0xd800 ≤ u ∧ u ≤ 0xdfff then unicodeEscape u ++ quoteUnits (v :: s)
    else quoteUnit u ++ quoteUnits (v :: s)

/-- A string literal. -/
def quoted (s : Units) : Units := 0x22 :: (quoteUnits s ++ [0x22])

/-! ## Reading a literal back -/

section Read

variable {u : UInt16}

theorem hexValue_digit {n : ℕ} (h : n < 16) :
    hexValue (Encoding.JsonText.hexDigit n).toNat.toUInt16 = some n := by
  have hall : ∀ n < 16, hexValue (Encoding.JsonText.hexDigit n).toNat.toUInt16 = some n := by
    decide
  exact hall n h

theorem reads_unicodeEscape (u : UInt16) : Reads (unicodeEscape u) [u] := by
  have hu : u.toNat < 65536 := u.toNat_lt
  have hvalue : u.toNat / 4096 * 4096 + u.toNat / 256 % 16 * 256 + u.toNat / 16 % 16 * 16 +
      u.toNat % 16 = u.toNat := by omega
  refine reads_unicode ?_
  unfold hexUnit
  rw [hexValue_digit (by omega), hexValue_digit (by omega), hexValue_digit (by omega),
    hexValue_digit (by omega)]
  change some (u.toNat / 4096 * 4096 + u.toNat / 256 % 16 * 256 + u.toNat / 16 % 16 * 16 +
    u.toNat % 16).toUInt16 = _
  rw [hvalue]
  exact congrArg some (UInt16.ofNat_toNat)

theorem reads_quoteUnit (u : UInt16) : Reads (quoteUnit u) [u] := by
  unfold quoteUnit
  split_ifs with hself hb ht hn hf hr hlow
  · refine reads_escape ?_
    rcases hself with rfl | rfl <;> rfl
  · exact hb ▸ reads_escape rfl
  · exact ht ▸ reads_escape rfl
  · exact hn ▸ reads_escape rfl
  · exact hf ▸ reads_escape rfl
  · exact hr ▸ reads_escape rfl
  · exact reads_unicodeEscape u
  · refine reads_plain ?_
    rw [not_or] at hself
    simp [isPlain, hself, UInt16.not_lt.mp hlow]

/-- Surrogates stand for themselves. -/
theorem isPlain_surrogate (h : 0xd800 ≤ u) : isPlain u := by
  have hnum : 0xd800 ≤ u.toNat := UInt16.le_iff_toNat_le.mp h
  have hne : ∀ v : UInt16, v.toNat < 0xd800 → u ≠ v := by
    rintro v hv rfl
    omega
  simp only [isPlain, Bool.and_eq_true, decide_eq_true_eq, ne_eq]
  exact ⟨⟨hne _ (by decide), hne _ (by decide)⟩, UInt16.le_trans (by decide) h⟩

/-- **A string literal is read back.** -/
theorem reads_quoteUnits (s : Units) : Reads (quoteUnits s) s := by
  fun_induction quoteUnits s with
  | case1 => exact .nil
  | case2 u h => exact reads_unicodeEscape u
  | case3 u h => exact reads_quoteUnit u
  | case4 u v s h ih =>
    have hlow : (0xd800 : UInt16) ≤ v := UInt16.le_trans (by decide) h.2.2.1
    have hpair := (reads_plain (isPlain_surrogate h.1)).append
      (reads_plain (isPlain_surrogate hlow))
    exact hpair.append ih
  | case5 u v s hpair h ih => exact (reads_unicodeEscape u).append ih
  | case6 u v s hpair h ih => exact (reads_quoteUnit u).append ih

end Read

/-! ## Values -/

section Values

variable (num : ℚ → Units)

mutual

/-- **`JSON.stringify`** of a value, without indentation. -/
def stringify : Value → Units
  | .null => units "null"
  | .bool b => if b then units "true" else units "false"
  | .num q => num q
  | .str s => quoted s
  | .arr xs => 0x5b :: (elementsText xs ++ [0x5d])
  | .obj kvs => 0x7b :: (entriesText kvs ++ [0x7d])

/-- The elements of an array, with commas between them. -/
def elementsText : List Value → Units
  | [] => []
  | [x] => stringify x
  | x :: xs => stringify x ++ 0x2c :: elementsText xs

/-- The entries of an object, with commas between them. -/
def entriesText : List (Units × Value) → Units
  | [] => []
  | [(k, v)] => quoted k ++ 0x3a :: stringify v
  | (k, v) :: kvs => quoted k ++ 0x3a :: (stringify v ++ 0x2c :: entriesText kvs)

end

variable {num}

/-- An entry whose value is read back. -/
def memberOf (kv : Units × Value) (h : ReadsValue (stringify num kv.2) kv.2) : Member :=
  ⟨kv.1, quoteUnits kv.1, kv.2, stringify num kv.2, reads_quoteUnits kv.1, h⟩

theorem literal_memberOf (kv : Units × Value) (h : ReadsValue (stringify num kv.2) kv.2) :
    (memberOf kv h).literal = quoted kv.1 ++ 0x3a :: stringify num kv.2 := by
  simp [memberOf, Member.literal, quoted]

theorem membersText_pmap (kvs : List (Units × Value))
    (h : ∀ kv ∈ kvs, ReadsValue (stringify num kv.2) kv.2) :
    membersText (kvs.pmap memberOf h) = entriesText num kvs := by
  induction kvs with
  | nil => rfl
  | cons kv kvs ih =>
    cases kvs with
    | nil => exact literal_memberOf kv _
    | cons kv' kvs =>
      have hrest := ih fun e he => h e (List.mem_cons_of_mem _ he)
      rw [List.pmap_cons] at hrest
      rw [List.pmap_cons, List.pmap_cons, membersText_cons_cons, literal_memberOf, hrest]
      simp [entriesText]

/-- New names are added at the end. -/
theorem putMembers_pmap (kvs kvs' : List (Units × Value))
    (h : ∀ kv ∈ kvs', ReadsValue (stringify num kv.2) kv.2)
    (hnames : ((kvs ++ kvs').map Prod.fst).Nodup) :
    putMembers kvs (kvs'.pmap memberOf h) = kvs ++ kvs' := by
  induction kvs' generalizing kvs with
  | nil => exact (List.append_nil kvs).symm
  | cons kv kvs' ih =>
    have hsplit : kvs ++ kv :: kvs' = (kvs ++ [kv]) ++ kvs' := List.append_cons ..
    have hnew : (kvs.any fun e => e.1 = kv.1) = false := by
      rw [List.any_eq_false]
      intro e he heq
      rw [List.map_append, List.map_cons, List.nodup_append] at hnames
      exact hnames.2.2 e.1 (List.mem_map_of_mem he) kv.1 List.mem_cons_self (of_decide_eq_true heq)
    have hput : putEntry kvs kv.1 kv.2 = kvs ++ [kv] := by
      rw [putEntry, hnew]
      rfl
    rw [hsplit] at hnames ⊢
    rw [← ih (kvs ++ [kv]) (fun e he => h e (List.mem_cons_of_mem _ he)) hnames, ← hput]
    rfl

/-- **An object is read back** if its values are. -/
theorem jsonParse_stringify (kv : Units × Value) (kvs : List (Units × Value))
    (h : ∀ e ∈ kv :: kvs, ReadsValue (stringify num e.2) e.2)
    (hnames : ((kv :: kvs).map Prod.fst).Nodup) :
    jsonParse (stringify num (.obj (kv :: kvs))) = some (.obj (kv :: kvs)) := by
  have hput := putMembers_pmap [] (kv :: kvs) h hnames
  rw [List.pmap_cons] at hput
  rw [stringify, ← membersText_pmap _ h, List.pmap_cons, jsonParse_object, hput]
  rfl

end Values

/-! ## Strings without escapes -/

/-- Nothing in a string needs an escape: no quote, no backslash, no control character and no
surrogate without its partner. -/
def unescaped : Units → Bool
  | [] => true
  | [u] => isPlain u && !(0xd800 ≤ u && u ≤ 0xdfff)
  | u :: v :: s =>
    if 0xd800 ≤ u ∧ u ≤ 0xdbff ∧ 0xdc00 ≤ v ∧ v ≤ 0xdfff then unescaped s
    else isPlain u && !(0xd800 ≤ u && u ≤ 0xdfff) && unescaped (v :: s)

/-- The units that are not white space. -/
def solid (s : Units) : Units := s.filter fun u => !isSpace u

section Solid

variable {u v : UInt16} {s t : Units}

theorem solid_append (s t : Units) : solid (s ++ t) = solid s ++ solid t := List.filter_append ..

theorem solid_dropWhile (s : Units) : solid (s.dropWhile isSpace) = solid s := by
  induction s with
  | nil => rfl
  | cons u s ih =>
    by_cases hu : isSpace u
    · rw [List.dropWhile_cons_of_pos hu, ih, solid, solid, List.filter_cons_of_neg (by simp [hu])]
    · rw [List.dropWhile_cons_of_neg hu]

/-- Trimming takes white space away only. -/
theorem solid_trim (s : Units) : solid (trim s) = solid s := by
  have hreverse : ∀ t : Units, solid t.reverse = (solid t).reverse := fun t =>
    List.filter_reverse
  rw [trim, hreverse, solid_dropWhile, hreverse, solid_dropWhile, List.reverse_reverse]

theorem solid_intercalate (sep : Units) (hsep : solid sep = []) (xs : List Units) :
    solid (List.intercalate sep xs) = xs.flatMap solid := by
  induction xs with
  | nil => rfl
  | cons x xs ih =>
    cases xs with
    | nil => simp [List.intercalate]
    | cons y ys =>
      rw [List.intercalate_cons_cons, solid_append, solid_append, hsep, List.append_nil, ih]
      rfl

theorem length_solid_singleton (u : UInt16) : (solid [u]).length ≤ 1 :=
  List.length_filter_le ..

/-- An escape has at least two units. -/
theorem two_le_length_solid (hu : isSpace u = false) (hv : isSpace v = false) (s : Units) :
    2 ≤ (solid (u :: v :: s)).length := by
  simp [solid, hu, hv]

theorem quoteUnit_of_isPlain (h : isPlain u) : quoteUnit u = [u] := by
  simp only [isPlain, Bool.and_eq_true, decide_eq_true_eq, ne_eq] at h
  obtain ⟨⟨hquote, hslash⟩, hlow⟩ := h
  have hne : ∀ v : UInt16, v < 0x20 → u ≠ v := by
    rintro v hv rfl
    exact UInt16.not_lt.mpr hlow hv
  rw [quoteUnit, if_neg (not_or.mpr ⟨hquote, hslash⟩), if_neg (hne _ (by decide)),
    if_neg (hne _ (by decide)), if_neg (hne _ (by decide)), if_neg (hne _ (by decide)),
    if_neg (hne _ (by decide)), if_neg (UInt16.not_lt.mpr hlow)]

theorem length_solid_quoteUnit (h : isPlain u = false) : 2 ≤ (solid (quoteUnit u)).length := by
  unfold quoteUnit
  split_ifs with hself hb ht hn hf hr hlow
  · rcases hself with rfl | rfl <;> decide
  · decide
  · decide
  · decide
  · decide
  · decide
  · exact two_le_length_solid rfl rfl _
  · rw [not_or] at hself
    simp [isPlain, hself, UInt16.not_lt.mp hlow] at h

/-- A string without escapes is its own inside. -/
theorem quoteUnits_of_unescaped (h : unescaped s) : quoteUnits s = s := by
  fun_induction quoteUnits s with
  | case1 => rfl
  | case2 u hs => simp [unescaped, hs] at h
  | case3 u hs =>
    rw [unescaped, Bool.and_eq_true] at h
    exact quoteUnit_of_isPlain h.1
  | case4 u v s hpair ih =>
    rw [unescaped, if_pos hpair] at h
    rw [ih h]
  | case5 u v s hpair hs ih =>
    rw [unescaped, if_neg hpair] at h
    simp [hs] at h
  | case6 u v s hpair hs ih =>
    rw [unescaped, if_neg hpair, Bool.and_eq_true, Bool.and_eq_true] at h
    rw [quoteUnit_of_isPlain h.1.1, ih h.2]
    rfl

/-- **An escape is longer than what it stands for.** -/
theorem length_solid_le (s : Units) : (solid s).length ≤ (solid (quoteUnits s)).length ∧
    (unescaped s = false → (solid s).length < (solid (quoteUnits s)).length) := by
  have hsplit : ∀ (u : UInt16) (s : Units), solid (u :: s) = solid [u] ++ solid s := fun u s =>
    solid_append [u] s
  have hescape : ∀ u : UInt16, 2 ≤ (solid (unicodeEscape u)).length := fun u =>
    two_le_length_solid rfl rfl _
  fun_induction quoteUnits s with
  | case1 => exact ⟨le_rfl, fun h => absurd h (by decide)⟩
  | case2 u hs =>
    have hone := length_solid_singleton u
    have htwo := hescape u
    exact ⟨by omega, fun _ => by omega⟩
  | case3 u hs =>
    have hone := length_solid_singleton u
    cases hplain : isPlain u with
    | true => simp [quoteUnit_of_isPlain hplain, unescaped, hplain, hs]
    | false =>
      have htwo := length_solid_quoteUnit hplain
      exact ⟨by omega, fun _ => by omega⟩
  | case4 u v s hpair ih =>
    rw [unescaped, if_pos hpair, hsplit u, hsplit v, hsplit u (v :: quoteUnits s),
      hsplit v (quoteUnits s)]
    simp only [List.length_append]
    exact ⟨by omega, fun h => by have := ih.2 h; omega⟩
  | case5 u v s hpair hs ih =>
    have hone := length_solid_singleton u
    have htwo := hescape u
    rw [hsplit u, solid_append]
    simp only [List.length_append]
    exact ⟨by omega, fun _ => by omega⟩
  | case6 u v s hpair hs ih =>
    have hone := length_solid_singleton u
    rw [unescaped, if_neg hpair, hsplit u, solid_append]
    simp only [List.length_append]
    cases hplain : isPlain u with
    | true =>
      have hsurrogate : (decide (0xd800 ≤ u) && decide (u ≤ 0xdfff)) = false := by
        rw [← Bool.decide_and, decide_eq_false hs]
      rw [quoteUnit_of_isPlain hplain, hsurrogate]
      exact ⟨by omega, fun h => by have := ih.2 h; omega⟩
    | false =>
      have htwo := length_solid_quoteUnit hplain
      exact ⟨by omega, fun _ => by omega⟩

end Solid

end Script
