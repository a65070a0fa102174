import Mathlib.Algebra.GroupWithZero.Nat
import BatRewind.Queue.Stream

/-!
# The session id at the door and in the database

The writer lets a session id pass if `uuid.Parse` accepts it, and forwards it unchanged; the `uuid`
columns of the database have a grammar of their own. Both read bytes.

* `uuidParse`: hyphenated digits, alone, after `urn:uuid:` or between any two bytes, or 32 digits.
* `postgresUUID`: digits in groups of four, hyphens between groups, one optional pair of braces.
* `hexQuads_of_hexGroups`: digits with hyphens after whole groups are read to their end.
* **`sessionID_storable_iff`**: an id that passes the writer is stored exactly if it is `Native`;
  `urn_sessionID_not_storable`: it need not be.
-/

namespace BatRewind

open Encoding

/-! ## The two grammars -/

/-- A hexadecimal digit. -/
def isHexDigit (b : UInt8) : Bool := (48 ≤ b && b ≤ 57) || (65 ≤ b && b ≤ 70) || (97 ≤ b && b ≤ 102)

/-- Runs of digits of the given lengths, with hyphens between them. -/
def hexGroups : List ℕ → Bytes → Bool
  | [], bs => bs = []
  | [n], bs => bs.length = n && bs.all isHexDigit
  | n :: ns, bs => (bs.take n).length = n && (bs.take n).all isHexDigit &&
      (bs.drop n).head? = some 45 && hexGroups ns (bs.drop (n + 1))

/-- The lower case of an ASCII letter. -/
def toLowerByte (b : UInt8) : UInt8 := if 65 ≤ b ∧ b ≤ 90 then b + 32 else b

/-- **`uuid.Parse`**: the form is chosen by the length in bytes. -/
def uuidParse (s : Bytes) : Bool :=
  match s.length with
  | 36 => hexGroups [8, 4, 4, 4, 12] s
  | 45 => (s.take 9).map toLowerByte = utf8 "urn:uuid:" && hexGroups [8, 4, 4, 4, 12] (s.drop 9)
  | 38 => hexGroups [8, 4, 4, 4, 12] ((s.drop 1).take 36)
  | 32 => hexGroups [32] s
  | _ => false

/-- The text after an optional hyphen. -/
def skipHyphen : Bytes → Bytes
  | 45 :: src => src
  | src => src

/-- The text after `k` groups of four digits, with optional hyphens between the groups. -/
def hexQuads : ℕ → Bytes → Option Bytes
  | 0, src => some src
  | k + 1, a :: b :: c :: d :: src =>
    if isHexDigit a && isHexDigit b && isHexDigit c && isHexDigit d then
      hexQuads k (if k = 0 then src else skipHyphen src)
    else none
  | _ + 1, _ => none

/-- **The input of a `uuid` column.** -/
def postgresUUID : Bytes → Bool
  | 123 :: src => hexQuads 8 src = some [125]
  | src => hexQuads 8 src = some []

/-- Not the `urn:uuid:` form, and what encloses the digits, if anything, is braces. -/
def Native (s : Bytes) : Prop :=
  s.length ≠ 45 ∧ (s.length = 38 → s.head? = some 123 ∧ s.getLast? = some 125)

/-! ## Digits -/

theorem isHexDigit_hyphen : isHexDigit 45 = false := by decide

theorem isHexDigit_brace : isHexDigit 123 = false := by decide

theorem skipHyphen_cons {b : UInt8} (bs : Bytes) (h : isHexDigit b = true) :
    skipHyphen (b :: bs) = b :: bs := by
  unfold skipHyphen
  split
  next src heq =>
    rw [(List.cons.inj heq).1, isHexDigit_hyphen] at h
    exact absurd h (by simp)
  next => rfl

theorem length_skipHyphen (bs : Bytes) : bs.length ≤ (skipHyphen bs).length + 1 := by
  unfold skipHyphen
  split
  · simp
  · omega

/-- The first of several groups, and the rest after its hyphen. -/
theorem hexGroups_cons {n m : ℕ} {ns : List ℕ} {bs : Bytes}
    (h : hexGroups (n :: m :: ns) bs = true) :
    ∃ g rest, bs = g ++ 45 :: rest ∧ g.length = n ∧ (∀ b ∈ g, isHexDigit b = true) ∧
      hexGroups (m :: ns) rest = true := by
  simp only [hexGroups, Bool.and_eq_true, decide_eq_true_eq, List.all_eq_true] at h
  obtain ⟨⟨⟨hlen, hhex⟩, hhyphen⟩, hrest⟩ := h
  refine ⟨bs.take n, bs.drop (n + 1), ?_, hlen, hhex, hrest⟩
  have hdrop : bs.drop n = 45 :: bs.drop (n + 1) := by
    cases hd : bs.drop n with
    | nil => rw [hd] at hhyphen; simp at hhyphen
    | cons b rest =>
      rw [hd] at hhyphen
      rw [← List.drop_drop, hd, Option.some.inj hhyphen]
      rfl
  rw [← hdrop, List.take_append_drop]

/-- A whole number of groups is read to its end, and the hyphen after it skipped. -/
theorem hexQuads_run {m : ℕ} (hm : 0 < m) (k : ℕ) {g : Bytes} (rest : Bytes)
    (hlen : g.length = 4 * m) (hhex : ∀ b ∈ g, isHexDigit b = true) :
    hexQuads (m + k) (g ++ rest) = hexQuads k (if k = 0 then rest else skipHyphen rest) := by
  induction m, hm using Nat.le_induction generalizing g with
  | base =>
    match g, hlen with
    | [a, b, c, d], _ =>
      simp only [List.mem_cons, forall_eq_or_imp] at hhex
      rw [Nat.succ_add, Nat.zero_add]
      simp [hexQuads, hhex]
  | succ m hm ih =>
    match g, hlen with
    | [a, b, c, d], hlen =>
      simp only [List.length_cons, List.length_nil] at hlen
      omega
    | a :: b :: c :: d :: e :: g, hlen =>
      simp only [List.mem_cons, forall_eq_or_imp] at hhex
      have htail := ih (g := e :: g) (by simp at hlen ⊢; omega) (by simpa using hhex.2.2.2.2)
      rw [← htail, show m + 1 + k = m + k + 1 by omega]
      simp [hexQuads, hhex, skipHyphen_cons _ hhex.2.2.2.2.1]

/-- **Groups of whole quadruples are read to their end**, whatever follows. -/
theorem hexQuads_of_hexGroups (ms : List ℕ) (hms : ms ≠ []) (hpos : ∀ m ∈ ms, 0 < m) {bs : Bytes}
    (h : hexGroups (ms.map (4 * ·)) bs = true) (rest : Bytes) :
    hexQuads ms.sum (bs ++ rest) = some rest := by
  induction ms generalizing bs with
  | nil => exact absurd rfl hms
  | cons m ms ih =>
    have hm : 0 < m := hpos m List.mem_cons_self
    cases ms with
    | nil =>
      simp only [List.map_cons, List.map_nil, hexGroups, Bool.and_eq_true, decide_eq_true_eq,
        List.all_eq_true] at h
      have hrun := hexQuads_run hm 0 rest h.1 h.2
      simpa [hexQuads] using hrun
    | cons m' ms =>
      obtain ⟨g, tail, rfl, hlen, hhex, hgroups⟩ := hexGroups_cons h
      have hsum : (m' :: ms).sum ≠ 0 := by
        have hm' : 0 < m' := hpos m' (by simp)
        rw [List.sum_cons]
        omega
      have hrest := ih (by simp) (fun x hx => hpos x (List.mem_cons_of_mem m hx)) hgroups
      rw [List.sum_cons, List.append_assoc, hexQuads_run hm _ _ hlen hhex, if_neg hsum]
      exact hrest

/-- A group of digits does not start with a brace. -/
theorem head_of_hexGroups {n : ℕ} {ns : List ℕ} {bs : Bytes} (hn : 0 < n)
    (h : hexGroups (n :: ns) bs = true) : ∃ b rest, bs = b :: rest ∧ isHexDigit b = true := by
  cases bs with
  | nil =>
    cases ns with
    | nil => simp [hexGroups] at h; omega
    | cons m ns => simp [hexGroups] at h
  | cons b rest =>
    refine ⟨b, rest, rfl, ?_⟩
    cases ns with
    | nil =>
      simp only [hexGroups, Bool.and_eq_true, List.all_eq_true] at h
      exact h.2 b List.mem_cons_self
    | cons m ns =>
      obtain ⟨g, tail, hbs, hlen, hhex, -⟩ := hexGroups_cons h
      cases g with
      | nil => simp at hlen; omega
      | cons a g =>
        rw [(List.cons.inj hbs).1]
        exact hhex a List.mem_cons_self

theorem length_le_of_hexQuads {k : ℕ} {src rest : Bytes} (h : hexQuads k src = some rest) :
    src.length ≤ 5 * k + rest.length := by
  fun_induction hexQuads k src with
  | case1 => simp_all
  | case2 k a b c d src hhex ih =>
    have htail := ih h
    split_ifs at htail with hk
    · simp only [List.length_cons]
      omega
    · have hskip := length_skipHyphen src
      simp only [List.length_cons]
      omega
  | case3 => cases h
  | case4 => cases h

/-! ## Comparing them -/

theorem postgresUUID_of_ne_brace {b : UInt8} {src : Bytes} (h : b ≠ 123) :
    postgresUUID (b :: src) = decide (hexQuads 8 (b :: src) = some []) := by
  unfold postgresUUID
  split
  next src' heq => exact absurd (List.cons.inj heq).1 h
  next => rfl

/-- Plain digits and hyphenated digits are stored. -/
theorem postgresUUID_of_hexGroups (ms : List ℕ) (hms : ms ≠ []) (hpos : ∀ m ∈ ms, 0 < m)
    (hsum : ms.sum = 8) {bs : Bytes} (h : hexGroups (ms.map (4 * ·)) bs = true) :
    postgresUUID bs = true := by
  have hread := hexQuads_of_hexGroups ms hms hpos h []
  rw [hsum, List.append_nil] at hread
  cases ms with
  | nil => exact absurd rfl hms
  | cons m ms =>
    have hm : 0 < 4 * m := by
      have := hpos m List.mem_cons_self
      omega
    obtain ⟨b, rest, rfl, hb⟩ := head_of_hexGroups hm h
    have hne : b ≠ 123 := by
      intro hb'
      rw [hb', isHexDigit_brace] at hb
      exact absurd hb (by simp)
    rw [postgresUUID_of_ne_brace hne, hread]
    rfl

/-- A hyphen inside a group. -/
theorem hexQuads_hyphen (k : ℕ) (b : UInt8) (src : Bytes) :
    hexQuads (k + 1) (b :: 45 :: src) = none := by
  match src with
  | [] => rfl
  | [_] => rfl
  | c :: d :: src => simp [hexQuads, isHexDigit_hyphen]

/-- With a byte before them hyphenated digits are not stored, unless it is a brace. -/
theorem hexQuads_shifted (x : UInt8) {bs : Bytes} (rest : Bytes)
    (h : hexGroups [8, 4, 4, 4, 12] bs = true) : hexQuads 8 (x :: bs ++ rest) = none := by
  obtain ⟨g, tail, rfl, hlen, hhex, -⟩ := hexGroups_cons h
  match g, hlen with
  | [a, b, c, d, e, f, i, j], _ =>
    simp only [List.mem_cons, forall_eq_or_imp] at hhex
    -- the third group would hold the hyphen
    have hd := skipHyphen_cons (e :: f :: i :: j :: 45 :: (tail ++ rest)) hhex.2.2.2.1
    have hj := skipHyphen_cons (45 :: (tail ++ rest)) hhex.2.2.2.2.2.2.2.1
    have hlast := hexQuads_hyphen 5 j (tail ++ rest)
    simp [hexQuads, hhex, hd, hj, hlast]

theorem native_of_length {s : Bytes} (h45 : s.length ≠ 45) (h38 : s.length ≠ 38) : Native s :=
  ⟨h45, fun h => absurd h h38⟩

/-- **What `uuid.Parse` accepts can be stored exactly if it is native.** -/
theorem uuidParse_storable_iff {s : Bytes} (h : uuidParse s = true) :
    postgresUUID s = true ↔ Native s := by
  unfold uuidParse at h
  split at h
  next hl =>
    have hstored : postgresUUID s = true :=
      postgresUUID_of_hexGroups [2, 1, 1, 1, 3] (by simp) (by decide) rfl h
    exact iff_of_true hstored (native_of_length (by omega) (by omega))
  next hl =>
    refine iff_of_false (fun hpg => ?_) fun hn => hn.1 hl
    unfold postgresUUID at hpg
    split at hpg
    next src =>
      have hshort := length_le_of_hexQuads (of_decide_eq_true hpg)
      simp only [List.length_cons, List.length_nil] at hl hshort
      omega
    next =>
      have hshort := length_le_of_hexQuads (of_decide_eq_true hpg)
      simp only [List.length_nil] at hshort
      omega
  next hl =>
    cases s with
    | nil => simp at hl
    | cons x s =>
      obtain ⟨m, y, rfl⟩ := List.eq_nil_or_concat' s |>.resolve_left (by rintro rfl; simp at hl)
      have hm : m.length = 36 := by simpa using hl
      rw [List.drop_one, List.tail_cons, List.take_append_of_le_length hm.ge,
        List.take_of_length_le hm.le] at h
      have hlast : (x :: (m ++ [y])).getLast? = some y := by
        rw [← List.cons_append, List.getLast?_concat]
      by_cases hx : x = 123
      · subst hx
        have hread : hexQuads 8 (m ++ [y]) = some [y] :=
          hexQuads_of_hexGroups [2, 1, 1, 1, 3] (by simp) (by decide) h [y]
        simp [postgresUUID, hread, Native, hm, hlast]
      · have hnone := hexQuads_shifted x [y] h
        rw [List.cons_append] at hnone
        rw [postgresUUID_of_ne_brace hx, hnone]
        simp [Native, hm, hx]
  next hl =>
    have hstored : postgresUUID s = true :=
      postgresUUID_of_hexGroups [8] (by simp) (by decide) rfl h
    exact iff_of_true hstored (native_of_length (by omega) (by omega))
  next => cases h

/-! ## At the writer -/

/-- **A session id that passes the writer can be stored exactly if it is native.** The worker
upserts the id `got.sessionID` that it decodes from the payload. -/
theorem sessionID_storable_iff {lib : Writer.Libraries}
    (hlib : ∀ s, lib.parseUUID s = uuidParse (utf8 s)) {body : Json} {req got : IngestRequest}
    (hpass : Writer.check lib body = .ok req) (hgot : decode (encode req) = .ok got) :
    postgresUUID (utf8 got.sessionID) = true ↔ Native (utf8 req.sessionID) := by
  obtain rfl : req = got := Except.ok.inj ((decode_encode req).symm.trans hgot)
  refine uuidParse_storable_iff ?_
  rw [← hlib]
  exact Writer.check_parse hpass

/-- Libraries with `uuid.Parse`. -/
def googleLibraries : Writer.Libraries where
  invalid := fun _ => "Key: 'IngestRequest' Error:Field validation failed"
  parseUUID := fun s => uuidParse (utf8 s)

theorem check_sampleBatch :
    Writer.check googleLibraries (encode sampleBatch) = .ok sampleBatch := by
  have hparse : googleLibraries.parseUUID sampleBatch.sessionID = true := by decide +kernel
  exact Writer.check_encode (by decide) hparse

/-- An ordinary session id is stored. -/
theorem sampleID_storable : postgresUUID (utf8 sampleID) = true :=
  (sessionID_storable_iff (fun _ => rfl) check_sampleBatch (decode_encode sampleBatch)).2
    (native_of_length (by decide +kernel) (by decide +kernel))

/-- A batch whose session id has the `urn:uuid:` form. -/
def urnBatch : IngestRequest :=
  plainBatch "urn:uuid:6c1f0a9e-8f51-4a53-9d2e-0b7d1a1c0a00" [⟨4, .obj [], 1⟩]

/-- An id that passes the writer and is no input of a `uuid` column. -/
theorem urn_sessionID_not_storable :
    Writer.check googleLibraries (encode urnBatch) = .ok urnBatch ∧
      postgresUUID (utf8 urnBatch.sessionID) = false := by
  have hparse : googleLibraries.parseUUID urnBatch.sessionID = true := by decide +kernel
  exact ⟨Writer.check_encode (by decide) hparse, by decide +kernel⟩

end BatRewind
