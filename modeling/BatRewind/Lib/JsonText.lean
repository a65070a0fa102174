import Mathlib.Algebra.Order.Ring.Nat
import BatRewind.Lib.Json
import BatRewind.Lib.Utf8

/-!
# The text of a JSON value

`text` is `JSON.stringify` without indentation, as a list of characters; the text of a number is the
parameter `num`. `size` is the number of bytes of a text.

* `quote`: a string literal; `length_le_quote`: no character of a string is lost.
* `size_text_arr`, `size_text_obj`: the bytes of an array and of an object are those of its elements.
-/

namespace Encoding

namespace JsonText

/-- The hexadecimal digit of a number below 16, in lower case. -/
def hexDigit (n : ℕ) : Char := "0123456789abcdef".toList.getD n '0'

/-- A character inside a string literal. -/
def escape (c : Char) : List Char :=
  if c = '"' then ['\\', '"']
  else if c = '\\' then ['\\', '\\']
  else if c.toNat = 8 then ['\\', 'b']
  else if c.toNat = 9 then ['\\', 't']
  else if c.toNat = 10 then ['\\', 'n']
  else if c.toNat = 12 then ['\\', 'f']
  else if c.toNat = 13 then ['\\', 'r']
  else if c.toNat < 32 then ['\\', 'u', '0', '0', hexDigit (c.toNat / 16), hexDigit (c.toNat % 16)]
  else [c]

/-- A string literal. -/
def quote (s : String) : List Char := '"' :: (s.toList.flatMap escape ++ ['"'])

section Text

variable (num : ℚ → List Char)

mutual

/-- **The text of a value.** -/
def text : Json → List Char
  | .null => "null".toList
  | .bool b => if b then "true".toList else "false".toList
  | .int n => num n
  | .dec q => num q
  | .str s => quote s
  | .arr [] => "[]".toList
  | .arr (x :: xs) => '[' :: (text x ++ elements xs ++ [']'])
  | .obj [] => "\x7b\x7d".toList
  | .obj ((k, v) :: kvs) => '\x7b' :: (quote k ++ ':' :: (text v ++ entries kvs ++ ['\x7d']))

/-- Further elements of an array. -/
def elements : List Json → List Char
  | [] => []
  | x :: xs => ',' :: (text x ++ elements xs)

/-- Further entries of an object. -/
def entries : List (String × Json) → List Char
  | [] => []
  | (k, v) :: kvs => ',' :: (quote k ++ ':' :: (text v ++ entries kvs))

end

end Text

/-- The number of bytes of a text. -/
def size (cs : List Char) : ℕ := (Utf8.encode cs).length

section Size

variable {num : ℚ → List Char}

@[simp] theorem size_nil : size [] = 0 := rfl

@[simp] theorem size_append (cs ds : List Char) : size (cs ++ ds) = size cs + size ds := by
  rw [size, Utf8.encode_append, List.length_append]
  rfl

theorem size_cons (c : Char) (cs : List Char) : size (c :: cs) = size [c] + size cs :=
  size_append [c] cs

/-- Every character takes a byte or more. -/
theorem length_le_size (cs : List Char) : cs.length ≤ size cs := by
  induction cs with
  | nil => exact Nat.zero_le _
  | cons c cs ih =>
    have hc : 0 < size [c] := by
      rw [size, Utf8.encode_cons, Utf8.encode_nil, List.append_nil]
      exact List.length_pos_of_ne_nil String.utf8EncodeChar_ne_nil
    rw [size_cons, List.length_cons]
    omega

theorem escape_ne_nil (c : Char) : escape c ≠ [] := by
  unfold escape
  split_ifs <;> simp

/-- No character of a string is lost. -/
theorem length_le_quote (s : String) : s.toList.length + 2 ≤ (quote s).length := by
  have hbody : s.toList.length ≤ (s.toList.flatMap escape).length := by
    induction s.toList with
    | nil => exact Nat.zero_le _
    | cons c cs ih =>
      have hc : 0 < (escape c).length := List.length_pos_of_ne_nil (escape_ne_nil c)
      rw [List.flatMap_cons, List.length_append, List.length_cons]
      omega
  simp only [quote, List.length_cons, List.length_append, List.length_nil]
  omega

theorem size_elements (xs : List Json) :
    size (elements num xs) = (xs.map fun x => size (text num x) + 1).sum := by
  induction xs with
  | nil => rfl
  | cons x xs ih =>
    have hcomma : size [','] = 1 := rfl
    rw [elements, size_cons, size_append, ih, hcomma, List.map_cons, List.sum_cons]
    omega

/-- **The bytes of an array**: each element takes a comma or a bracket. -/
theorem size_text_arr {xs : List Json} (h : xs ≠ []) :
    size (text num (.arr xs)) = (xs.map fun x => size (text num x) + 1).sum + 1 := by
  cases xs with
  | nil => exact absurd rfl h
  | cons x xs =>
    have hopen : size ['['] = 1 := rfl
    have hclose : size [']'] = 1 := rfl
    rw [text, size_cons, size_append, size_append, size_elements, hopen, hclose, List.map_cons,
      List.sum_cons]
    omega

variable (num) in
/-- The bytes of an entry, with its colon and a comma or a brace. -/
def entrySize (kv : String × Json) : ℕ := size (quote kv.1) + size (text num kv.2) + 2

theorem size_entries (kvs : List (String × Json)) :
    size (entries num kvs) = (kvs.map (entrySize num)).sum := by
  induction kvs with
  | nil => rfl
  | cons kv kvs ih =>
    have hcomma : size [','] = 1 := rfl
    have hcolon : size [':'] = 1 := rfl
    rw [entries, size_cons, size_append, size_cons ':', size_append, ih, hcomma, hcolon,
      List.map_cons, List.sum_cons, entrySize]
    omega

/-- **The bytes of an object.** -/
theorem size_text_obj {kvs : List (String × Json)} (h : kvs ≠ []) :
    size (text num (.obj kvs)) = (kvs.map (entrySize num)).sum + 1 := by
  cases kvs with
  | nil => exact absurd rfl h
  | cons kv kvs =>
    have hopen : size ['\x7b'] = 1 := rfl
    have hclose : size ['\x7d'] = 1 := rfl
    have hcolon : size [':'] = 1 := rfl
    rw [text, size_cons, size_append, size_cons ':', size_append, size_append, size_entries, hopen,
      hclose, hcolon, List.map_cons, List.sum_cons, entrySize]
    omega

end Size

end JsonText

end Encoding
