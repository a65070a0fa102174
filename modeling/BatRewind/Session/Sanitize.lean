import BatRewind.Lib.Utf8
import BatRewind.Session.Model

/-!
# Which metadata can be stored after sanitizing

`Sanitized` cuts the three strings of the metadata at a fixed number of bytes, and the parser of
the user agent cuts again at positions it computes. A text column takes valid UTF-8 only.

* `stringsIndex_eq_some`, `tokenVersion_induction`: what the scanner of the user agent cuts out.
* `tokenVersion_valid`, `tokenVersion_plain`, `length_tokenVersion_le`: its cuts are harmless.
* `truncate_valid_iff`: a truncation is harmless exactly if no character crosses the bound.
* **`sanitized_storable_iff`**: so the sanitized metadata can be stored exactly if this holds of
  all three strings; `accented_language_not_storable`: it need not.
-/

namespace BatRewind

open Utf8

theorem utf8_valid (s : String) : Valid (utf8 s) := valid_encode s.toList

/-! ## The scanner -/

/-- The pattern stands at the position found. -/
theorem stringsIndex_eq_some {pat ua : Bytes} {i : ℕ} (h : stringsIndex pat ua = some i) :
    i ≤ ua.length ∧ pat <+: ua.drop i := by
  induction ua generalizing i with
  | nil =>
    by_cases hp : pat = []
    · have hi : i = 0 := by simpa [stringsIndex, hp] using h.symm
      subst hi
      exact ⟨Nat.le_refl 0, by simp [hp]⟩
    · simp [stringsIndex, hp] at h
  | cons b bs ih =>
    rw [stringsIndex] at h
    split_ifs at h with hp
    · have hi : i = 0 := (Option.some.inj h).symm
      subst hi
      exact ⟨Nat.zero_le _, List.isPrefixOf_iff_prefix.1 hp⟩
    · cases hj : stringsIndex pat bs with
      | none => simp [hj] at h
      | some j =>
        have hi : i = j + 1 := by simpa [hj] using h.symm
        have hbs := ih hj
        subst hi
        exact ⟨Nat.succ_le_succ hbs.1, hbs.2⟩

/-- A version is empty, or a piece of the agent after a marker. -/
theorem tokenVersion_induction {ua : Bytes} {P : Bytes → Prop} (nil : P [])
    (piece : ∀ m i, stringsIndex (utf8 m) ua = some i →
      P ((ua.drop (i + (utf8 m).length)).take (versionEnd (ua.drop (i + (utf8 m).length)))))
    (ms : List String) : P (tokenVersion ua ms) := by
  induction ms with
  | nil => exact nil
  | cons m ms ih =>
    rw [tokenVersion]
    cases h : stringsIndex (utf8 m) ua with
    | none => exact ih
    | some i => exact piece m i h

/-- The browser version is the version after one of some markers. -/
theorem detectBrowser_version (ua : Bytes) : ∃ ms, (detectBrowser ua).2 = tokenVersion ua ms := by
  unfold detectBrowser
  split_ifs
  all_goals first | exact ⟨_, rfl⟩ | exact ⟨[], rfl⟩

/-- What follows an occurrence of a string in valid text is valid. -/
theorem valid_after {ua : Bytes} (hv : Valid ua) {m : String} {i : ℕ}
    (h : stringsIndex (utf8 m) ua = some i) : Valid (ua.drop (i + (utf8 m).length)) := by
  obtain ⟨hi, rest, hrest⟩ := stringsIndex_eq_some h
  have hdrop : ua.drop (i + (utf8 m).length) = rest := by
    rw [← List.drop_drop, ← hrest, List.drop_left]
  have hat : Valid (ua.drop i) := by
    by_cases hlt : i < ua.length
    · by_cases hm : 0 < (utf8 m).length
      · -- the first byte of the marker starts a character
        refine hv.drop hlt ?_
        have hget : ua[i] = (utf8 m)[0] := by
          have h0 : (ua.drop i)[0]? = (utf8 m ++ rest)[0]? := by rw [hrest]
          rw [List.getElem?_drop, List.getElem?_append_left hm] at h0
          simpa [hlt, hm] using h0
        rw [hget]
        exact isUTF8FirstByte_head hm
      · have hnil : utf8 m = [] := List.eq_nil_of_length_eq_zero (by omega)
        rw [hnil] at h
        cases ua with
        | nil => exact absurd hlt (Nat.not_lt_zero i)
        | cons b bs =>
          have hi : i = 0 := by simpa [stringsIndex] using h.symm
          rw [hi]
          exact hv
    · rw [List.drop_of_length_le (Nat.le_of_not_lt hlt)]
      exact valid_nil
  rw [← hrest] at hat
  rw [hdrop]
  exact Valid.encode_append_iff.1 hat

/-- The end of a version never cuts a character. -/
theorem valid_take_versionEnd {rest : Bytes} (hv : Valid rest) :
    Valid (rest.take (versionEnd rest)) := by
  by_cases h : versionEnd rest < rest.length
  · refine (hv.take_iff h).2 ?_
    have hend := List.findIdx_getElem (w := h)
    simp only [Bool.or_eq_true, decide_eq_true_eq] at hend
    change rest[versionEnd rest].IsUTF8FirstByte
    rcases hend with (hb | hb) | hb <;> (unfold versionEnd; rw [hb]; decide)
  · rw [List.take_of_length_le (Nat.le_of_not_lt h)]
    exact hv

/-- The version cut out of valid text is valid. -/
theorem tokenVersion_valid {ua : Bytes} (hv : Valid ua) (ms : List String) :
    Valid (tokenVersion ua ms) :=
  tokenVersion_induction valid_nil (fun _ _ h => valid_take_versionEnd (valid_after hv h)) ms

/-- No space, `;` or `)` is left in a version. -/
theorem tokenVersion_plain (ua : Bytes) (ms : List String) :
    ∀ b ∈ tokenVersion ua ms, b ≠ 32 ∧ b ≠ 59 ∧ b ≠ 41 := by
  refine tokenVersion_induction (P := fun v => ∀ b ∈ v, b ≠ 32 ∧ b ≠ 59 ∧ b ≠ 41) (by simp)
    (fun m i _ b hb => ?_) ms
  obtain ⟨j, hj, rfl⟩ := List.mem_iff_getElem.1 hb
  rw [List.length_take] at hj
  rw [List.getElem_take]
  have hend : j < versionEnd (ua.drop (i + (utf8 m).length)) :=
    lt_of_lt_of_le hj (Nat.min_le_left _ _)
  unfold versionEnd at hend
  have hbefore := List.not_of_lt_findIdx hend
  simpa [and_assoc] using hbefore

/-- A version is at most as long as the agent. -/
theorem length_tokenVersion_le (ua : Bytes) (ms : List String) :
    (tokenVersion ua ms).length ≤ ua.length := by
  refine tokenVersion_induction (P := fun v => v.length ≤ ua.length) (Nat.zero_le _)
    (fun m i _ => ?_) ms
  rw [List.length_take, List.length_drop]
  omega

/-! ## Truncation -/

/-- No character of the string crosses the bound of `n` bytes. -/
def FitsBound (s : String) (n : ℕ) : Prop :=
  ∀ h : n < (utf8 s).length, (utf8 s)[n].IsUTF8FirstByte

instance (s : String) (n : ℕ) : Decidable (FitsBound s n) := by
  unfold FitsBound
  infer_instance

theorem truncate_isPrefix (s : String) (n : ℕ) : truncate s n <+: utf8 s := by
  unfold truncate
  split_ifs with h
  · exact List.prefix_rfl
  · exact List.take_prefix n _

theorem length_truncate_le (s : String) (n : ℕ) : (truncate s n).length ≤ n := by
  unfold truncate
  split_ifs with h
  · exact h
  · exact List.length_take_le n _

/-- **Harmless truncations.** -/
theorem truncate_valid_iff (s : String) (n : ℕ) : Valid (truncate s n) ↔ FitsBound s n := by
  unfold truncate FitsBound
  split_ifs with h
  · exact ⟨fun _ hlt => absurd hlt (Nat.not_lt.2 h), fun _ => utf8_valid s⟩
  · have hlt : n < (utf8 s).length := Nat.lt_of_not_le h
    rw [(utf8_valid s).take_iff hlt]
    exact ⟨fun hb _ => hb, fun hb => hb hlt⟩

/-! ## Sanitized metadata -/

/-- A stored text: a prefix of what was sent, at most `n` bytes long, and valid. -/
structure StorableText (sent : String) (n : ℕ) (stored : Bytes) : Prop where
  isPrefix : stored <+: utf8 sent
  bounded : stored.length ≤ n
  valid : Valid stored

/-- A stored dimension. -/
def StorableDimension (v : ℤ) : Prop := 0 ≤ v ∧ v ≤ maxDimension

/-- What the database needs of the sanitized metadata and of the version derived from it. -/
structure Storable (c : ClientMeta String) : Prop where
  screenWidth : StorableDimension c.sanitized.screenWidth
  screenHeight : StorableDimension c.sanitized.screenHeight
  viewportWidth : StorableDimension c.sanitized.viewportWidth
  viewportHeight : StorableDimension c.sanitized.viewportHeight
  language : StorableText c.language maxLangLen c.sanitized.language
  timezone : StorableText c.timezone maxTZLen c.sanitized.timezone
  userAgent : StorableText c.userAgent maxUALen c.sanitized.userAgent
  version : Valid (parseUserAgent c.sanitized.userAgent).browserVersion
  versionPlain : ∀ b ∈ (parseUserAgent c.sanitized.userAgent).browserVersion,
    b ≠ 32 ∧ b ≠ 59 ∧ b ≠ 41
  versionLength : (parseUserAgent c.sanitized.userAgent).browserVersion.length ≤
    c.sanitized.userAgent.length

theorem storableDimension_clampInt (v : ℤ) : StorableDimension (clampInt v 0 maxDimension) := by
  have hmax : (0 : ℤ) ≤ maxDimension := by decide
  unfold StorableDimension clampInt
  split_ifs <;> omega

theorem storableText_iff (s : String) (n : ℕ) :
    StorableText s n (truncate s n) ↔ FitsBound s n :=
  ⟨fun h => (truncate_valid_iff s n).1 h.valid, fun h =>
    ⟨truncate_isPrefix s n, length_truncate_le s n, (truncate_valid_iff s n).2 h⟩⟩

/-- The version of a parsed agent is the version after one of some markers. -/
theorem parseUserAgent_version (ua : Bytes) :
    ∃ ms, (parseUserAgent ua).browserVersion = tokenVersion ua ms := by
  unfold parseUserAgent
  split_ifs
  · exact ⟨[], rfl⟩
  · exact detectBrowser_version ua

/-- **The sanitized metadata can be stored** exactly if no character of its strings crosses their
bounds. -/
theorem sanitized_storable_iff (c : ClientMeta String) :
    Storable c ↔ FitsBound c.language maxLangLen ∧ FitsBound c.timezone maxTZLen ∧
      FitsBound c.userAgent maxUALen := by
  constructor
  · intro h
    exact ⟨(storableText_iff _ _).1 h.language, (storableText_iff _ _).1 h.timezone,
      (storableText_iff _ _).1 h.userAgent⟩
  · rintro ⟨hlang, htz, hua⟩
    have hvalid : Valid c.sanitized.userAgent := (truncate_valid_iff _ _).2 hua
    obtain ⟨ms, hms⟩ := parseUserAgent_version c.sanitized.userAgent
    exact {
      screenWidth := storableDimension_clampInt _
      screenHeight := storableDimension_clampInt _
      viewportWidth := storableDimension_clampInt _
      viewportHeight := storableDimension_clampInt _
      language := (storableText_iff _ _).2 hlang
      timezone := (storableText_iff _ _).2 htz
      userAgent := (storableText_iff _ _).2 hua
      version := by rw [hms]; exact tokenVersion_valid hvalid ms
      versionPlain := by rw [hms]; exact tokenVersion_plain _ ms
      versionLength := by rw [hms]; exact length_tokenVersion_le _ ms }

/-- A language whose accented last letter crosses the bound of 35 bytes. -/
def accentedLanguage : ClientMeta String :=
  ⟨1920, 1080, 1280, 720, 1, "en-x-abcdefgh-abcdefgh-abcdefgh-abé", "", ""⟩

/-- Metadata that cannot be stored after sanitizing. -/
theorem accented_language_not_storable : ¬ Storable accentedLanguage := by
  intro h
  have hfit := (storableText_iff _ _).1 h.language
  exact absurd hfit (by decide)

end BatRewind
