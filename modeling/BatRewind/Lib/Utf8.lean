import Mathlib.Data.List.Basic

/-!
# UTF-8 as lists of bytes

`encode cs` are the bytes of a sequence of characters and `Valid bs` says that `bs` are the bytes
of one. A byte *starts a character* if it is not a continuation byte
(`UInt8.IsUTF8FirstByte`).

* `encodeChar_append_inj`: no encoding of a character is a proper prefix of another.
* `Valid.encode_append_iff`: an encoded prefix can be stripped.
* **`Valid.take_iff`**: what a valid sequence leaves when it is cut at a byte is valid exactly if
  that byte starts a character; `Valid.drop`: then so is the other part.
-/

namespace Utf8

/-- The bytes of a sequence of characters. -/
def encode (cs : List Char) : List UInt8 := cs.flatMap String.utf8EncodeChar

/-- The bytes of some sequence of characters. -/
def Valid (bs : List UInt8) : Prop := ∃ cs, encode cs = bs

@[simp] theorem encode_nil : encode [] = [] := rfl

@[simp] theorem encode_cons (c : Char) (cs : List Char) :
    encode (c :: cs) = String.utf8EncodeChar c ++ encode cs := rfl

theorem encode_append (cs ds : List Char) : encode (cs ++ ds) = encode cs ++ encode ds :=
  List.flatMap_append

theorem valid_encode (cs : List Char) : Valid (encode cs) := ⟨cs, rfl⟩

theorem valid_nil : Valid [] := ⟨[], rfl⟩

/-! ## Unique parsing -/

/-- **Prefix-freeness.** -/
theorem encodeChar_append_inj {c d : Char} {bs bs' : List UInt8}
    (h : String.utf8EncodeChar c ++ bs = String.utf8EncodeChar d ++ bs') : c = d ∧ bs = bs' := by
  have hc := ByteArray.utf8DecodeChar?_utf8EncodeChar_append (b := bs.toByteArray) (c := c)
  have hd := ByteArray.utf8DecodeChar?_utf8EncodeChar_append (b := bs'.toByteArray) (c := d)
  rw [← List.toByteArray_append] at hc hd
  rw [h, hd] at hc
  have hcd : c = d := (Option.some.inj hc).symm
  subst hcd
  exact ⟨rfl, List.append_cancel_left h⟩

/-- What follows an encoded prefix is the encoding of the remaining characters. -/
theorem encode_append_eq {cs ds : List Char} {bs : List UInt8} (h : encode ds ++ bs = encode cs) :
    ∃ es, cs = ds ++ es ∧ encode es = bs := by
  induction ds generalizing cs with
  | nil => exact ⟨cs, rfl, h.symm⟩
  | cons d ds ih =>
    rw [encode_cons, List.append_assoc] at h
    cases cs with
    | nil => exact absurd (List.append_eq_nil_iff.1 h).1 String.utf8EncodeChar_ne_nil
    | cons c cs =>
      have hcd := encodeChar_append_inj h
      have hrest := ih hcd.2
      exact hrest.imp fun es hes => ⟨by rw [← hcd.1, hes.1]; rfl, hes.2⟩

theorem Valid.encode_append_iff {cs : List Char} {bs : List UInt8} :
    Valid (encode cs ++ bs) ↔ Valid bs := by
  constructor
  · rintro ⟨ds, hds⟩
    exact (encode_append_eq hds.symm).imp fun es hes => hes.2
  · rintro ⟨ds, rfl⟩
    exact ⟨cs ++ ds, encode_append cs ds⟩

theorem Valid.cons {bs : List UInt8} (h : Valid bs) (c : Char) :
    Valid (String.utf8EncodeChar c ++ bs) :=
  h.imp' (fun cs => c :: cs) fun cs hcs => by rw [encode_cons, hcs]

/-! ## Cuts -/

/-- Inside the encoding of one character only the first byte starts a character. -/
theorem isUTF8FirstByte_getElem_encodeChar_append {c : Char} {bs : List UInt8} {n : ℕ}
    (hn : n < (String.utf8EncodeChar c).length) (h : n < (String.utf8EncodeChar c ++ bs).length) :
    (String.utf8EncodeChar c ++ bs)[n].IsUTF8FirstByte ↔ n = 0 := by
  rw [List.getElem_append_left hn]
  exact UInt8.isUTF8FirstByte_getElem_utf8EncodeChar

/-- The first byte of a valid sequence starts a character. -/
theorem isUTF8FirstByte_head {cs : List Char} (h : 0 < (encode cs).length) :
    (encode cs)[0].IsUTF8FirstByte := by
  cases cs with
  | nil => exact absurd h (Nat.lt_irrefl 0)
  | cons c cs =>
    have hc : 0 < (String.utf8EncodeChar c).length :=
      List.length_pos_of_ne_nil String.utf8EncodeChar_ne_nil
    exact (isUTF8FirstByte_getElem_encodeChar_append hc h).2 rfl

/-- A cut before a byte that starts a character falls between two characters. -/
theorem encode_take {cs : List Char} {n : ℕ} (h : n < (encode cs).length)
    (hb : (encode cs)[n].IsUTF8FirstByte) : Valid ((encode cs).take n) := by
  induction cs generalizing n with
  | nil => exact absurd h (Nat.not_lt_zero n)
  | cons c cs ih =>
    simp only [encode_cons] at h hb ⊢
    by_cases hn : n < (String.utf8EncodeChar c).length
    · rw [(isUTF8FirstByte_getElem_encodeChar_append hn h).1 hb]
      exact valid_nil
    · have hle : (String.utf8EncodeChar c).length ≤ n := Nat.le_of_not_lt hn
      rw [List.length_append] at h
      rw [List.getElem_append_right hle] at hb
      rw [List.take_append, List.take_of_length_le hle]
      have hrest := ih (by omega) hb
      exact hrest.cons c

/-- **Cutting at a byte.** -/
theorem Valid.take_iff {bs : List UInt8} (hv : Valid bs) {n : ℕ} (h : n < bs.length) :
    Valid (bs.take n) ↔ bs[n].IsUTF8FirstByte := by
  obtain ⟨cs, rfl⟩ := hv
  refine ⟨fun ht => ?_, encode_take h⟩
  obtain ⟨ds, hds⟩ := ht
  have hcut : encode ds ++ (encode cs).drop n = encode cs := by rw [hds, List.take_append_drop]
  obtain ⟨es, -, hes⟩ := encode_append_eq hcut
  have hpos : 0 < (encode es).length := by rw [hes, List.length_drop]; omega
  have hhead := isUTF8FirstByte_head hpos
  simpa [hes] using hhead

/-- The part after such a cut. -/
theorem Valid.drop {bs : List UInt8} (hv : Valid bs) {n : ℕ} (h : n < bs.length)
    (hb : bs[n].IsUTF8FirstByte) : Valid (bs.drop n) := by
  obtain ⟨ds, hds⟩ := (hv.take_iff h).2 hb
  rw [← List.take_append_drop n bs, ← hds] at hv
  exact Valid.encode_append_iff.1 hv

end Utf8
