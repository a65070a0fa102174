import BatRewind.Lib.Base64
import BatRewind.Lib.JsonParse
import BatRewind.Lib.JsonText

/-!
# `json.Marshal`

The text that Go's `encoding/json` gives to strings, integers and objects, as bytes. A string is any
list of bytes; bytes that are no character are replaced.

* `runes`: the characters of a string; `appendString`: its literal, with HTML characters escaped.
* `formatInt`: an integer; `marshalObject`: an object.
* `readsValue_appendString`, `readsValue_formatInt`: `JSON.parse` reads the literals, byte by byte.
* **`jsonParse_marshalObject`**: and so it reads an object.
-/

namespace Marshal

open Base64 Encoding Script

/-! ## Literals -/

/-- The characters of a string, after the given number of bytes; `none` is a byte that is no part
of a character. -/
def runesFrom : ℕ → List UInt8 → List (Option Char)
  | _, [] => []
  | skip + 1, _ :: bs => runesFrom skip bs
  | 0, b :: bs =>
    match (b :: bs).toByteArray.utf8DecodeChar? 0 with
    | some c => some c :: runesFrom (c.utf8Size - 1) bs
    | none => none :: runesFrom 0 bs

/-- The characters of a string. -/
def runes (s : List UInt8) : List (Option Char) := runesFrom 0 s

/-- The bytes of a text. -/
def bytes (s : String) : List UInt8 := Utf8.encode s.toList

/-- The byte of a hexadecimal digit. -/
def hexByte (n : ℕ) : UInt8 := (JsonText.hexDigit n).toNat.toUInt8

/-- An ASCII character in a literal. -/
def appendByte (b : UInt8) : List UInt8 :=
  if b = 0x5c ∨ b = 0x22 then [0x5c, b]
  else if b = 0x08 then bytes "\\b"
  else if b = 0x0c then bytes "\\f"
  else if b = 0x0a then bytes "\\n"
  else if b = 0x0d then bytes "\\r"
  else if b = 0x09 then bytes "\\t"
  else if b < 0x20 ∨ b = 0x3c ∨ b = 0x3e ∨ b = 0x26 then
    [0x5c, 0x75, 0x30, 0x30, hexByte (b.toNat / 16), hexByte (b.toNat % 16)]
  else [b]

/-- A character in a literal. -/
def appendRune : Option Char → List UInt8
  | none => bytes "\\ufffd"
  | some c =>
    if c.toNat < 128 then appendByte c.toNat.toUInt8
    else if c.toNat = 0x2028 ∨ c.toNat = 0x2029 then
      bytes "\\u202" ++ [hexByte (c.toNat % 16)]
    else String.utf8EncodeChar c

/-- **The literal of a string.** -/
def appendString (s : List UInt8) : List UInt8 :=
  0x22 :: ((runes s).flatMap appendRune ++ [0x22])

/-- The decimal text of an integer. -/
def formatInt (z : ℤ) : List UInt8 :=
  let digits := (Nat.toDigits 10 z.natAbs).map fun c => c.toNat.toUInt8
  if z < 0 then 0x2d :: digits else digits

/-- A field of an object: its name, and the text of its value. -/
def fieldText (f : String × List UInt8) : List UInt8 := 0x22 :: (bytes f.1 ++ 0x22 :: 0x3a :: f.2)

def marshalFields : List (String × List UInt8) → List UInt8
  | [] => []
  | [f] => fieldText f
  | f :: fs => fieldText f ++ 0x2c :: marshalFields fs

/-- **An object.** -/
def marshalObject (fs : List (String × List UInt8)) : List UInt8 :=
  0x7b :: (marshalFields fs ++ [0x7d])

/-! ## Reading literals -/

theorem latin1_append (bs bs' : List UInt8) : latin1 (bs ++ bs') = latin1 bs ++ latin1 bs' :=
  List.map_append

theorem latin1_cons (b : UInt8) (bs : List UInt8) : latin1 (b :: bs) = b.toUInt16 :: latin1 bs :=
  rfl

/-- Plain units, or one escape. -/
def isPiece (chunk : Units) : Bool :=
  chunk.all isPlain ||
    match chunk with
    | [u, v] => u = 0x5c && (simpleEscape v).isSome
    | [u, v, a, b, c, d] => u = 0x5c && v = 0x75 && (hexUnit a b c d).isSome
    | _ => false

theorem exists_reads {chunk : Units} (h : isPiece chunk) : ∃ us, Reads chunk us := by
  unfold isPiece at h
  rw [Bool.or_eq_true] at h
  rcases h with h | h
  · exact ⟨chunk, reads_plain_all h⟩
  · split at h
    · simp only [Bool.and_eq_true, decide_eq_true_eq] at h
      obtain ⟨rfl, hv⟩ := h
      obtain ⟨w, hw⟩ := Option.isSome_iff_exists.mp hv
      exact ⟨[w], reads_escape hw⟩
    · simp only [Bool.and_eq_true, decide_eq_true_eq] at h
      obtain ⟨⟨rfl, rfl⟩, hv⟩ := h
      obtain ⟨w, hw⟩ := Option.isSome_iff_exists.mp hv
      exact ⟨[w], reads_unicode hw⟩
    · exact absurd h (by decide)

theorem isPiece_appendByte : ∀ n < 128, isPiece (latin1 (appendByte n.toUInt8)) := by
  decide +kernel

/-- The bytes of a character that is not ASCII are high. -/
theorem encodeChar_high {c : Char} (hc : 128 ≤ c.toNat) :
    ∀ b ∈ String.utf8EncodeChar c, 128 ≤ b.toNat := by
  have hval : c.val.toNat = c.toNat := rfl
  unfold String.utf8EncodeChar
  dsimp only
  rw [hval]
  intro b hb
  split_ifs at hb with h₁ h₂ h₃
  · omega
  all_goals
    simp only [List.mem_cons, List.not_mem_nil, or_false] at hb
    rcases hb with rfl | rfl | rfl | rfl <;> simp only [UInt8.toNat_ofNat'] <;> omega

/-- **A piece of a literal is read.** -/
theorem exists_reads_appendRune (r : Option Char) : ∃ us, Reads (latin1 (appendRune r)) us := by
  cases r with
  | none => exact exists_reads (by decide +kernel)
  | some c =>
    rw [appendRune]
    split_ifs with hascii hline
    · exact exists_reads (isPiece_appendByte c.toNat hascii)
    · rcases hline with hline | hline
      · rw [hline]
        exact exists_reads (by decide +kernel)
      · rw [hline]
        exact exists_reads (by decide +kernel)
    · refine ⟨_, reads_plain_all (List.all_eq_true.mpr fun u hu => ?_)⟩
      obtain ⟨b, hb, rfl⟩ := List.mem_map.mp hu
      have hhigh := encodeChar_high (not_lt.mp hascii) b hb
      have hplain : ∀ n < 256, 128 ≤ n → isPlain n.toUInt8.toUInt16 := by decide +kernel
      have hbyte := hplain b.toNat b.toNat_lt hhigh
      rwa [toUInt8_eq rfl] at hbyte

theorem latin1_flatMap {α : Type} (f : α → List UInt8) (as : List α) :
    latin1 (as.flatMap f) = as.flatMap fun a => latin1 (f a) := List.map_flatMap

/-- **`JSON.parse` reads the literal of a string**, byte by byte. -/
theorem readsValue_appendString (s : List UInt8) :
    ∃ us, ReadsValue (latin1 (appendString s)) (.str us) := by
  obtain ⟨us, hus⟩ := reads_flatMap exists_reads_appendRune (runes s)
  refine ⟨us, ?_⟩
  have hlit : latin1 (appendString s) =
      0x22 :: (((runes s).flatMap fun r => latin1 (appendRune r)) ++ [0x22]) := by
    rw [appendString, latin1_cons, latin1_append, latin1_flatMap]
    rfl
  rw [hlit]
  exact readsValue_string hus

theorem latin1_formatInt (z : ℤ) : latin1 (formatInt z) = intText z := by
  have hdigits : ∀ n, latin1 ((Nat.toDigits 10 n).map fun c => c.toNat.toUInt8) = natText n := by
    intro n
    rw [latin1, List.map_map, natText]
    refine List.map_congr_left fun c hc => ?_
    have hd := toNat_digit (isDigit_of_mem_toDigits hc)
    refine UInt16.toNat_inj.mp ?_
    rw [hd.2.2]
    change c.toNat % 2 ^ 8 = c.toNat
    omega
  unfold formatInt intText
  dsimp only
  split_ifs
  · rw [latin1_cons, hdigits]
    rfl
  · exact hdigits _

/-- **And an integer.** -/
theorem readsValue_formatInt (z : ℤ) : ReadsValue (latin1 (formatInt z)) (.num z) :=
  (latin1_formatInt z).symm ▸ readsValue_int z

/-! ## Reading objects -/

theorem latin1_fieldText (name : String) (text : List UInt8) : latin1 (fieldText (name, text)) =
    0x22 :: (latin1 (bytes name) ++ 0x22 :: 0x3a :: latin1 text) := by
  rw [fieldText, latin1_cons, latin1_append, latin1_cons, latin1_cons]
  rfl

theorem latin1_marshalFields {fs : List (String × List UInt8)} {ms : List Member}
    (h : fs.map (fun f => latin1 (fieldText f)) = ms.map Member.literal) :
    latin1 (marshalFields fs) = membersText ms := by
  induction fs generalizing ms with
  | nil =>
    obtain rfl := List.map_eq_nil_iff.mp h.symm
    rfl
  | cons f fs ih =>
    obtain ⟨m, ms, rfl, hm, hms⟩ := List.map_eq_cons_iff.mp h.symm
    cases fs with
    | nil =>
      obtain rfl := List.map_eq_nil_iff.mp hms
      exact hm.symm
    | cons f' fs =>
      obtain ⟨m', ms', rfl, -, -⟩ := List.map_eq_cons_iff.mp hms
      rw [membersText_cons_cons, ← ih hms.symm, hm]
      exact latin1_append (fieldText f) (0x2c :: marshalFields (f' :: fs))

/-- **`JSON.parse` reads an object**, byte by byte. -/
theorem jsonParse_marshalObject {fs : List (String × List UInt8)} {m : Member} {ms : List Member}
    (h : fs.map (fun f => latin1 (fieldText f)) = (m :: ms).map Member.literal) :
    jsonParse (latin1 (marshalObject fs)) = some (.obj (putMembers [] (m :: ms))) := by
  rw [marshalObject, latin1_cons, latin1_append, latin1_marshalFields h]
  exact jsonParse_object m ms

end Marshal
