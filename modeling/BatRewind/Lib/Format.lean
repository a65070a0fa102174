import BatRewind.Lib.JsonParse

/-!
# Numbers and dates as text

`toFixed(1)` of an exact number, where the text of a very large one is the parameter `num`, and
`toISOString` of a time value in milliseconds, over the proleptic Gregorian calendar.

* `toFixed`, `civil`, `toISOString`.
* `not_mem_toFixed`, `not_mem_toISOString`: such a text has no line break in it.
-/

namespace Script

/-- `q.toFixed(1)`. A half is rounded away from zero. -/
def toFixed (num : ℚ → Units) (q : ℚ) : Units :=
  let sign := if q < 0 then units "-" else []
  let x := if q < 0 then -q else q
  if 10 ^ 21 ≤ x then sign ++ num x
  else
    let n := (x * 10 + 1 / 2).floor.toNat
    sign ++ natText (n / 10) ++ units "." ++ natText (n % 10)

/-- The year, the month and the day, for the number of days since 1970. -/
def civil (days : ℤ) : ℤ × ℕ × ℕ :=
  -- the year begins in March, and 400 years have 146097 days
  let era := (days + 719468) / 146097
  let day := ((days + 719468) % 146097).toNat
  let year := (day - day / 1460 + day / 36524 - day / 146096) / 365
  let dayOfYear := day - (365 * year + year / 4 - year / 100)
  let month := (5 * dayOfYear + 2) / 153
  let y := (year : ℤ) + 400 * era
  (if month < 10 then y else y + 1, if month < 10 then month + 3 else month - 9,
    dayOfYear - (153 * month + 2) / 5 + 1)

/-- A number with at least `width` digits. -/
def padded (width n : ℕ) : Units :=
  List.replicate (width - (natText n).length) 0x30 ++ natText n

/-- Four digits, or a sign and six. -/
def yearText (y : ℤ) : Units :=
  if 0 ≤ y ∧ y ≤ 9999 then padded 4 y.toNat
  else (if y < 0 then units "-" else units "+") ++ padded 6 y.natAbs

/-- **`toISOString()`.** -/
def toISOString (t : ℤ) : Units :=
  let date := civil (t / 86400000)
  let ms := (t % 86400000).toNat
  yearText date.1 ++ units "-" ++ padded 2 date.2.1 ++ units "-" ++ padded 2 date.2.2 ++
    units "T" ++ padded 2 (ms / 3600000) ++ units ":" ++ padded 2 (ms / 60000 % 60) ++ units ":" ++
    padded 2 (ms / 1000 % 60) ++ units "." ++ padded 3 (ms % 1000) ++ units "Z"

example : toISOString 253402300800000 = units "+010000-01-01T00:00:00.000Z" := by decide +kernel
example : toISOString 1709164800000 = units "2024-02-29T00:00:00.000Z" := by decide +kernel

/-! ## No line breaks -/

theorem not_mem_natText (n : ℕ) : 0x0a ∉ natText n := fun h =>
  absurd (natText_isDigit h) (by decide)

theorem not_mem_intText (z : ℤ) : 0x0a ∉ intText z := by
  unfold intText
  split_ifs
  · rw [List.mem_cons, not_or]
    exact ⟨by decide, not_mem_natText _⟩
  · exact not_mem_natText _

theorem not_mem_padded (width n : ℕ) : 0x0a ∉ padded width n := by
  rw [padded, List.mem_append, not_or]
  exact ⟨fun h => absurd (List.eq_of_mem_replicate h) (by decide), not_mem_natText n⟩

theorem not_mem_yearText (y : ℤ) : 0x0a ∉ yearText y := by
  have hminus : 0x0a ∉ units "-" := by decide
  have hplus : 0x0a ∉ units "+" := by decide
  unfold yearText
  split_ifs
  · exact not_mem_padded _ _
  · simp [hminus, not_mem_padded]
  · simp [hplus, not_mem_padded]

theorem not_mem_toFixed {num : ℚ → Units} (hnum : ∀ q, 0x0a ∉ num q) (q : ℚ) :
    0x0a ∉ toFixed num q := by
  have hminus : 0x0a ∉ units "-" := by decide
  have hpoint : 0x0a ∉ units "." := by decide
  unfold toFixed
  dsimp only
  split_ifs <;> simp [hminus, hpoint, hnum, not_mem_natText]

theorem not_mem_toISOString (t : ℤ) : 0x0a ∉ toISOString t := by
  have hfixed : 0x0a ∉ units "-" ∧ 0x0a ∉ units "T" ∧ 0x0a ∉ units ":" ∧ 0x0a ∉ units "." ∧
      0x0a ∉ units "Z" := by decide
  simp [toISOString, hfixed, not_mem_yearText, not_mem_padded]

end Script
