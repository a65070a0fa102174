import BatRewind.Lib.Script

/-!
# Base64

`rawURL` is the encoding without padding over the URL alphabet, and `atob` the forgiving decoder of
a browser over the standard one. Both go through sextets, the numbers below 64.

* `sextets`, `ofSextets`: **`ofSextets_sextets`**.
* `stdValue_urlUnit`: the two alphabets agree below 62.
* **`atob_rawURL`**: the decoder reads an encoding back exactly if it has no sextet of 62 or more,
  and else fails.
* **`rawURLDecode_rawURL`**: the decoder over the URL alphabet reads every encoding back.
-/

namespace Base64

open Script

/-! ## Sextets -/

/-- The bits of a list of bytes in groups of six, the last one filled up with zeros. -/
def sextets : List UInt8 → List ℕ
  | [] => []
  | [a] => [a.toNat / 4, a.toNat % 4 * 16]
  | [a, b] => [a.toNat / 4, a.toNat % 4 * 16 + b.toNat / 16, b.toNat % 16 * 4]
  | a :: b :: c :: bs =>
    a.toNat / 4 :: (a.toNat % 4 * 16 + b.toNat / 16) :: (b.toNat % 16 * 4 + c.toNat / 64) ::
      c.toNat % 64 :: sextets bs

/-- The bytes of a list of sextets. Left-over bits are dropped, a left-over sextet is an error. -/
def ofSextets : List ℕ → Option (List UInt8)
  | [] => some []
  | [_] => none
  | [x, y] => some [(x * 4 + y / 16).toUInt8]
  | [x, y, z] => some [(x * 4 + y / 16).toUInt8, (y % 16 * 16 + z / 4).toUInt8]
  | x :: y :: z :: w :: xs => do
    let bs ← ofSextets xs
    return (x * 4 + y / 16).toUInt8 :: (y % 16 * 16 + z / 4).toUInt8 ::
      (z % 4 * 64 + w).toUInt8 :: bs

theorem toUInt8_eq {n : ℕ} {a : UInt8} (h : n = a.toNat) : n.toUInt8 = a := by
  rw [h]
  exact UInt8.ofNat_toNat

theorem sextets_lt (bs : List UInt8) : ∀ n ∈ sextets bs, n < 64 := by
  fun_induction sextets bs with
  | case1 => simp
  | case2 a =>
    have ha := a.toNat_lt
    simp only [List.forall_mem_cons, List.not_mem_nil, false_implies, implies_true, and_true]
    omega
  | case3 a b =>
    have ha := a.toNat_lt
    have hb := b.toNat_lt
    simp only [List.forall_mem_cons, List.not_mem_nil, false_implies, implies_true, and_true]
    omega
  | case4 a b c bs ih =>
    have ha := a.toNat_lt
    have hb := b.toNat_lt
    have hc := c.toNat_lt
    simp only [List.forall_mem_cons]
    exact ⟨by omega, by omega, by omega, by omega, ih⟩

/-- **The bytes come back.** -/
theorem ofSextets_sextets (bs : List UInt8) : ofSextets (sextets bs) = some bs := by
  fun_induction sextets bs with
  | case1 => rfl
  | case2 a =>
    have ha := a.toNat_lt
    rw [ofSextets, toUInt8_eq (a := a) (by omega)]
  | case3 a b =>
    have ha := a.toNat_lt
    have hb := b.toNat_lt
    rw [ofSextets, toUInt8_eq (a := a) (by omega), toUInt8_eq (a := b) (by omega)]
  | case4 a b c bs ih =>
    have ha := a.toNat_lt
    have hb := b.toNat_lt
    have hc := c.toNat_lt
    rw [ofSextets, ih]
    simp only [Option.bind_eq_bind, Option.bind_some]
    rw [toUInt8_eq (a := a) (by omega), toUInt8_eq (a := b) (by omega),
      toUInt8_eq (a := c) (by omega)]
    rfl

theorem length_sextets (bs : List UInt8) : (sextets bs).length % 4 ≠ 1 := by
  fun_induction sextets bs with
  | case1 => decide
  | case2 a => simp
  | case3 a b => simp
  | case4 a b c bs ih =>
    simp only [List.length_cons]
    omega

/-! ## Alphabets -/

/-- The letters and the digits, for the numbers below 62. -/
def alphanumeric (n : ℕ) : UInt16 :=
  if n < 26 then (65 + n).toUInt16 else if n < 52 then (71 + n).toUInt16 else (n - 4).toUInt16

/-- A character of the URL alphabet. -/
def urlUnit (n : ℕ) : UInt16 := if n = 62 then 0x2d else if n = 63 then 0x5f else alphanumeric n

/-- The value of a character of the standard alphabet. -/
def stdValue (u : UInt16) : Option ℕ :=
  if 65 ≤ u ∧ u ≤ 90 then some (u.toNat - 65)
  else if 97 ≤ u ∧ u ≤ 122 then some (u.toNat - 71)
  else if 48 ≤ u ∧ u ≤ 57 then some (u.toNat + 4)
  else if u = 0x2b then some 62
  else if u = 0x2f then some 63
  else none

/-- **The alphabets agree below 62**, and the two other characters are not standard. -/
theorem stdValue_urlUnit : ∀ n < 64, stdValue (urlUnit n) = if n < 62 then some n else none := by
  decide

/-- The value of a character of the URL alphabet. -/
def urlValue (u : UInt16) : Option ℕ :=
  if u = 0x2d then some 62
  else if u = 0x5f then some 63
  else if u = 0x2b ∨ u = 0x2f then none
  else stdValue u

theorem urlValue_urlUnit : ∀ n < 64, urlValue (urlUnit n) = some n := by
  decide

/-- ASCII white space. -/
def isAsciiSpace (u : UInt16) : Bool :=
  u = 0x09 || u = 0x0a || u = 0x0c || u = 0x0d || u = 0x20

theorem urlUnit_ordinary : ∀ n < 64, isAsciiSpace (urlUnit n) = false ∧ urlUnit n ≠ 0x3d ∧
    urlUnit n ≠ 0x2e := by
  decide

/-! ## Encoding and decoding -/

/-- `RawURLEncoding.EncodeToString`. -/
def rawURL (bs : List UInt8) : Units := (sextets bs).map urlUnit

/-- Without one or two characters `=` at the end. -/
def stripPadding (s : Units) : Units :=
  if [0x3d, 0x3d] <:+ s then s.dropLast.dropLast else if [0x3d] <:+ s then s.dropLast else s

/-- The units of a list of bytes, one for each. -/
def latin1 (bs : List UInt8) : Units := bs.map UInt8.toUInt16

/-- **`atob`**; `none` is its exception. -/
def atob (data : Units) : Option Units := do
  let s := data.filter fun u => !isAsciiSpace u
  let s := if s.length % 4 = 0 then stripPadding s else s
  if s.length % 4 = 1 then none
  let xs ← s.mapM stdValue
  let bs ← ofSextets xs
  return latin1 bs

/-- `RawURLEncoding.DecodeString`, which skips line breaks. -/
def rawURLDecode (s : Units) : Option (List UInt8) := do
  let xs ← (s.filter fun u => u ≠ 0x0a && u ≠ 0x0d).mapM urlValue
  ofSextets xs

theorem mem_rawURL {bs : List UInt8} {u : UInt16} (h : u ∈ rawURL bs) :
    isAsciiSpace u = false ∧ u ≠ 0x3d ∧ u ≠ 0x2e := by
  obtain ⟨n, hn, rfl⟩ := List.mem_map.mp h
  exact urlUnit_ordinary n (sextets_lt bs n hn)

theorem stripPadding_eq {s : Units} (h : ∀ u ∈ s, u ≠ 0x3d) : stripPadding s = s := by
  have hlast : ∀ t : Units, 0x3d ∈ t → ¬ t <:+ s := fun t ht hs => h 0x3d (hs.subset ht) rfl
  rw [stripPadding, if_neg (hlast _ List.mem_cons_self), if_neg (hlast _ List.mem_cons_self)]

theorem mapM_stdValue {xs : List ℕ} (h : ∀ n ∈ xs, n < 64) :
    (xs.map urlUnit).mapM stdValue = if ∀ n ∈ xs, n < 62 then some xs else none := by
  induction xs with
  | nil => rfl
  | cons n xs ih =>
    obtain ⟨hn, hxs⟩ := List.forall_mem_cons.mp h
    rw [List.map_cons, List.mapM_cons, stdValue_urlUnit n hn, ih hxs]
    simp only [List.forall_mem_cons]
    by_cases h62 : n < 62
    · by_cases hall : ∀ m ∈ xs, m < 62
      · rw [if_pos h62, if_pos hall, if_pos ⟨h62, hall⟩]
        rfl
      · rw [if_pos h62, if_neg hall, if_neg fun hboth => hall hboth.2]
        rfl
    · have hnot : ¬ (n < 62 ∧ ∀ m ∈ xs, m < 62) := fun hboth => h62 hboth.1
      rw [if_neg h62, if_neg hnot]
      rfl

/-- **The browser reads an encoding back exactly if it has no sextet of 62 or more.** -/
theorem atob_rawURL (bs : List UInt8) :
    atob (rawURL bs) = if ∀ n ∈ sextets bs, n < 62 then some (latin1 bs) else none := by
  have hfilter : (rawURL bs).filter (fun u => !isAsciiSpace u) = rawURL bs := by
    refine List.filter_eq_self.mpr fun u hu => ?_
    rw [(mem_rawURL hu).1]
    rfl
  have hstrip : stripPadding (rawURL bs) = rawURL bs :=
    stripPadding_eq fun u hu => (mem_rawURL hu).2.1
  have hlen : (rawURL bs).length % 4 ≠ 1 := by
    rw [rawURL, List.length_map]
    exact length_sextets bs
  rw [atob]
  simp only [hfilter, hstrip, ite_self, if_neg hlen]
  rw [rawURL, mapM_stdValue (sextets_lt bs)]
  split_ifs with hall
  · simp [ofSextets_sextets]
  · rfl

theorem mapM_urlValue {xs : List ℕ} (h : ∀ n ∈ xs, n < 64) :
    (xs.map urlUnit).mapM urlValue = some xs := by
  induction xs with
  | nil => rfl
  | cons n xs ih =>
    obtain ⟨hn, hxs⟩ := List.forall_mem_cons.mp h
    rw [List.map_cons, List.mapM_cons, urlValue_urlUnit n hn, ih hxs]
    rfl

/-- **Every encoding is read back.** -/
theorem rawURLDecode_rawURL (bs : List UInt8) : rawURLDecode (rawURL bs) = some bs := by
  have hfilter : (rawURL bs).filter (fun u => u ≠ 0x0a && u ≠ 0x0d) = rawURL bs := by
    refine List.filter_eq_self.mpr fun u hu => ?_
    have hspace := (mem_rawURL hu).1
    by_contra hbreak
    simp only [ne_eq, Bool.and_eq_true, decide_eq_true_eq, not_and_or, not_not] at hbreak
    rcases hbreak with rfl | rfl <;> exact absurd hspace (by decide)
  unfold rawURLDecode
  rw [hfilter, rawURL, mapM_urlValue (sextets_lt bs)]
  exact ofSextets_sextets bs

end Base64
