import BatRewind.Session.Listing

/-!
# Browsing the session list

The page `sessions.tsx` of the dashboard: the search parameters of its URL, the request that
`listSessions` of `http/sessions/list.ts` makes of them, and the clicks that change them. Numbers
are integers, and a query string is read back as it was written.

* `SessionFilters.query`: the request; a parameter that is falsy is left out.
* `Search.navigate`: a click. While the page is loading the total is `0`.
* `Browses`: any clicks, in pages that are loading or show a response.
* `Search.shows_iff`: the response to a page in range is that page of the matching sessions.
* **`browse_exact`**: from the first page on the page number stays in range, and the pages that
  follow one another show every matching session once, newest first.
-/

namespace BatRewind

open Effects Paging

/-! ## The request -/

/-- The parameters of a request for sessions. -/
structure SessionFilters where
  identifier : Option String := none
  serviceName : Option String := none
  environment : Option String := none
  startDate : Option String := none
  endDate : Option String := none
  limit : Option ℤ := none
  offset : Option ℤ := none

/-- The text of a number, unless it is missing or `0`. -/
def numberParam : Option ℤ → String
  | some z => if z ≠ 0 then toString z else ""
  | none => ""

/-- The query string of `listSessions`. -/
def SessionFilters.query (f : SessionFilters) : ListQuery where
  identifier := f.identifier.getD ""
  serviceName := f.serviceName.getD ""
  environment := f.environment.getD ""
  startDate := f.startDate.getD ""
  endDate := f.endDate.getD ""
  limit := numberParam f.limit
  offset := numberParam f.offset

/-- The validated search parameters. -/
structure Search where
  identifier : Option String := none
  serviceName : Option String := none
  environment : Option String := none
  page : ℤ := 1

namespace Search

/-- The sessions of a page. -/
def pageLimit : ℕ := 20

/-- What a page asks for. -/
def filters (s : Search) : SessionFilters where
  identifier := s.identifier
  serviceName := s.serviceName
  environment := s.environment
  limit := some pageLimit
  offset := some ((s.page - 1) * pageLimit)

def totalPages (total : ℕ) : ℕ := pageCount total pageLimit

/-! ## Clicks -/

/-- The controls of the page, with the contents of the form. -/
inductive Click where
  | previous
  | next
  | applyFilters (identifier serviceName environment : String)
  | clearFilters

/-- `s || undefined`. -/
def orUndefined (s : String) : Option String := if s = "" then none else some s

/-- **A click.** The pagination is there if there is more than one page. -/
def navigate (total : ℕ) (s : Search) : Click → Search
  | .previous =>
    if totalPages total > 1 then { s with page := max 1 (s.page - 1) } else s
  | .next =>
    if totalPages total > 1 then { s with page := min (totalPages total) (s.page + 1) } else s
  | .applyFilters identifier serviceName environment =>
    { identifier := orUndefined identifier, serviceName := orUndefined serviceName,
      environment := orUndefined environment, page := 1 }
  | .clearFilters => { page := 1 }

end Search

section Browse

variable (parseTime : String → Option Time) (scan : Scan ReplaySession) (db : DB)

/-- The response to the request of a page. -/
def Search.Shows (s : Search) (r : ListResponse) : Prop :=
  Runs (Steady scan) (Reader.list parseTime s.filters.query).run db db (.ok r)

/-- **Clicks**, each while the page is loading or shows its response. -/
inductive Browses : Search → List Search.Click → Search → Prop
  | nil (s : Search) : Browses s [] s
  | loading {s s' : Search} {c : Search.Click} {cs : List Search.Click}
      (h : Browses (s.navigate 0 c) cs s') : Browses s (c :: cs) s'
  | loaded {s s' : Search} {r : ListResponse} {c : Search.Click} {cs : List Search.Click}
      (hr : s.Shows parseTime scan db r) (h : Browses (s.navigate r.total c) cs s') :
      Browses s (c :: cs) s'

/-- **What is seen** by clicking on the next page until there is none. -/
inductive Leafs : Search → List ReplaySession → Prop
  | last {s : Search} {r : ListResponse} (hr : s.Shows parseTime scan db r)
      (hend : Search.totalPages r.total ≤ s.page) : Leafs s r.data
  | next {s : Search} {r : ListResponse} {rest : List ReplaySession}
      (hr : s.Shows parseTime scan db r) (hmore : s.page < Search.totalPages r.total)
      (hrest : Leafs (s.navigate r.total .next) rest) : Leafs s (r.data ++ rest)

/-- The sessions that the filters of a page select. -/
def Search.rows (s : Search) : List ReplaySession := matching parseTime db s.filters.query

/-- The page number is that of a page, or of the first one. -/
def Search.InRange (s : Search) : Prop :=
  1 ≤ s.page ∧ s.page ≤ max 1 (Search.totalPages (s.rows parseTime db).length : ℤ)

end Browse

namespace Search

open Reader

variable {parseTime : String → Option Time} {scan : Scan ReplaySession} {db : DB} {s s' : Search}

/-! ## Responses -/

theorem toString_ne_empty (n : ℕ) : toString (n : ℤ) ≠ "" := by
  intro h
  have hlist : (toString (n : ℤ)).toList = Nat.toDigits 10 n := Nat.toList_repr
  rw [h] at hlist
  exact Nat.toDigits_ne_nil hlist.symm

/-- A number is read back from its parameter; a missing parameter counts as `0`. -/
theorem atoi_numberParam {n : ℕ} (h : n < 2 ^ 63) :
    (if numberParam (some (n : ℤ)) ≠ "" then (atoi (numberParam (some (n : ℤ)))).getD 0 else 0) =
      (n : ℤ) := by
  by_cases hn : (n : ℤ) = 0
  · rw [hn]
    rfl
  · have hparam : numberParam (some (n : ℤ)) = toString (n : ℤ) := if_pos hn
    rw [hparam, if_pos (toString_ne_empty n), atoi_toString h, Option.getD_some]

/-- The rows do not depend on the page number. -/
theorem rows_page (s : Search) (page : ℤ) :
    ({ s with page := page } : Search).rows parseTime db = s.rows parseTime db := rfl

theorem page_lt_iff (total : ℕ) {k : ℕ} : k < totalPages total ↔ k * pageLimit < total :=
  lt_pageCount_iff (by decide)

theorem filter_limit : (s.filters.query.filter parseTime).limit = (pageLimit : ℤ) := by
  have hread := atoi_numberParam (n := pageLimit) (by decide)
  simp only [ListQuery.filter, SessionFilters.query, filters]
  exact hread

theorem filter_offset {k : ℕ} (hk : s.page - 1 = (k : ℤ)) (hsmall : k * pageLimit < 2 ^ 63) :
    (s.filters.query.filter parseTime).offset = ((k * pageLimit : ℕ) : ℤ) := by
  have hread := atoi_numberParam hsmall
  rw [Int.natCast_mul, ← hk] at hread ⊢
  exact hread

/-- A page of the requested size is a page by number. -/
theorem take_pageSize (l : List ReplaySession) (k : ℕ) :
    (l.drop ((k * pageLimit : ℕ) : ℤ).toNat).take (pageSize (pageLimit : ℤ)).toNat =
      Paging.page l pageLimit k := by
  have hsize : (pageSize (pageLimit : ℤ)).toNat = pageLimit := by decide
  rw [hsize, Int.toNat_natCast]
  rfl

/-- **The response to a page in range.** -/
theorem shows_iff (hcount : (s.rows parseTime db).length < 2 ^ 63)
    (hrange : s.InRange parseTime db) {r : ListResponse} :
    s.Shows parseTime scan db r ↔ r = {
      data := Paging.page (newestFirst scan (s.rows parseTime db)) pageLimit (s.page - 1).toNat
      total := (s.rows parseTime db).length
      limit := pageLimit
      offset := (s.page - 1) * pageLimit } := by
  obtain ⟨h1, hmax⟩ := hrange
  obtain ⟨k, hk⟩ := Int.eq_ofNat_of_zero_le (show 0 ≤ s.page - 1 by omega)
  have hsmall : k * pageLimit < 2 ^ 63 := by
    by_cases hk0 : k = 0
    · rw [hk0]
      decide
    · have hlt := (page_lt_iff (s.rows parseTime db).length (k := k)).mp (by omega)
      omega
  unfold Shows
  rw [list_runs, filter_limit, filter_offset hk hsmall, take_pageSize, hk, ← Int.natCast_mul]
  exact ⟨fun h => Except.ok.inj h.2, fun h => ⟨rfl, congrArg _ h⟩⟩

/-! ## Clicks -/

/-- A click on a page in range leads to a page in range. -/
theorem InRange.navigate (h : s.InRange parseTime db) {total : ℕ}
    (htotal : total = 0 ∨ total = (s.rows parseTime db).length) (c : Click) :
    (s.navigate total c).InRange parseTime db := by
  obtain ⟨h1, hmax⟩ := h
  have hnone : totalPages 0 = 0 := rfl
  cases c with
  | previous =>
    simp only [Search.navigate]
    split_ifs
    · refine ⟨le_max_left _ _, ?_⟩
      rw [rows_page]
      simp only
      omega
    · exact ⟨h1, hmax⟩
  | next =>
    simp only [Search.navigate]
    split_ifs with hmany
    · rcases htotal with rfl | rfl
      · omega
      refine ⟨?_, (min_le_left _ _).trans ?_⟩
      · simp only
        omega
      · rw [rows_page]
        exact le_max_right _ _
    · exact ⟨h1, hmax⟩
  | applyFilters identifier serviceName environment => exact ⟨le_rfl, le_max_left _ _⟩
  | clearFilters => exact ⟨le_rfl, le_max_left _ _⟩

/-- **The page number stays in range.** -/
theorem InRange.browses (hcount : db.sessions.rows.length < 2 ^ 63) {clicks : List Click}
    (h : Browses parseTime scan db s clicks s') (hs : s.InRange parseTime db) :
    s'.InRange parseTime db := by
  induction h with
  | nil s => exact hs
  | loading _ ih => exact ih (hs.navigate (Or.inl rfl) _)
  | @loaded s s' r c cs hr _ ih =>
    have hrows : (s.rows parseTime db).length < 2 ^ 63 :=
      (List.length_filter_le _ _).trans_lt hcount
    have htotal : r.total = (s.rows parseTime db).length := by
      rw [(shows_iff hrows hs).mp hr]
    exact ih (hs.navigate (Or.inr htotal) _)

/-- From a page in range on, the sessions of this page and of the later ones are seen. -/
theorem leafs_iff (hcount : (s.rows parseTime db).length < 2 ^ 63) (hs : s.InRange parseTime db)
    (seen : List ReplaySession) : Leafs parseTime scan db s seen ↔
      seen = (newestFirst scan (s.rows parseTime db)).drop ((s.page - 1).toNat * pageLimit) := by
  have hlen := (newestFirst_perm scan (s.rows parseTime db)).length_eq
  -- the induction is on the number of pages that are left
  induction hn : totalPages (s.rows parseTime db).length - s.page.toNat generalizing s seen with
  | zero =>
    have hend : (totalPages (s.rows parseTime db).length : ℤ) ≤ s.page := by
      have := hs.1
      omega
    have hall : Paging.page (newestFirst scan (s.rows parseTime db)) pageLimit (s.page - 1).toNat =
        (newestFirst scan (s.rows parseTime db)).drop ((s.page - 1).toNat * pageLimit) := by
      refine List.take_of_length_le ?_
      have hlast := (not_congr (page_lt_iff (s.rows parseTime db).length
        (k := (s.page - 1).toNat + 1))).mp (by omega)
      rw [List.length_drop, hlen]
      rw [Nat.add_mul] at hlast
      omega
    rw [← hall]
    constructor
    · rintro (⟨hr, -⟩ | ⟨hr, hmore, -⟩)
      · rw [(shows_iff hcount hs).mp hr]
      · rw [(shows_iff hcount hs).mp hr] at hmore
        simp only at hmore
        omega
    · rintro rfl
      exact Leafs.last ((shows_iff hcount hs).mpr rfl) hend
  | succ n ih =>
    have hmore : s.page < totalPages (s.rows parseTime db).length := by omega
    have hnext : s.navigate (s.rows parseTime db).length .next = { s with page := s.page + 1 } := by
      have := hs.1
      have hmany : totalPages (s.rows parseTime db).length > 1 := by omega
      simp only [Search.navigate]
      rw [if_pos hmany, min_eq_right (by omega)]
    have hs' := hs.navigate (Or.inr rfl) .next
    rw [hnext] at hs'
    have hpage : ((s.page + 1 - 1).toNat) * pageLimit =
        (s.page - 1).toNat * pageLimit + pageLimit := by
      have := hs.1
      rw [show (s.page + 1 - 1).toNat = (s.page - 1).toNat + 1 by omega, Nat.add_mul, Nat.one_mul]
    have hrest := fun seen => ih (s := { s with page := s.page + 1 }) hcount hs' seen hlen (by
        have h1 := hs.1
        simp only [rows_page]
        omega)
    simp only [rows_page, hpage, ← List.drop_drop] at hrest
    constructor
    · rintro (⟨hr, hend⟩ | ⟨hr, -, hleafs⟩)
      · rw [(shows_iff hcount hs).mp hr] at hend
        simp only at hend
        omega
      · rw [(shows_iff hcount hs).mp hr] at hleafs ⊢
        rw [hnext] at hleafs
        rw [(hrest _).mp hleafs]
        exact List.take_append_drop _ _
    · rintro rfl
      have hleafs := (hrest _).mpr rfl
      rw [← hnext] at hleafs
      have := Leafs.next ((shows_iff hcount hs).mpr rfl) hmore hleafs
      rwa [Paging.page, List.take_append_drop] at this

/-! ## Main theorem -/

/-- **Browsing is exact.** Whatever is clicked on from a first page on, the page number stays in
range and the page shows its part of the matching sessions; and the pages of any filters show every
matching session once, newest first. -/
theorem browse_exact (parseTime : String → Option Time) (scan : Scan ReplaySession) (db : DB)
    (hcount : db.sessions.rows.length < 2 ^ 63) {clicks : List Click} (hpage : s.page = 1)
    (h : Browses parseTime scan db s clicks s') :
    s'.InRange parseTime db ∧
      (∀ r, s'.Shows parseTime scan db r ↔ r = {
        data := Paging.page (newestFirst scan (s'.rows parseTime db)) pageLimit (s'.page - 1).toNat
        total := (s'.rows parseTime db).length
        limit := pageLimit
        offset := (s'.page - 1) * pageLimit }) ∧
      ∀ seen, Leafs parseTime scan db { s' with page := 1 } seen ↔
        seen = newestFirst scan (s'.rows parseTime db) := by
  have hfirst : ∀ s : Search, s.page = 1 → s.InRange parseTime db := by
    intro s hs
    exact ⟨hs.ge, hs.le.trans (le_max_left _ _)⟩
  have hrows : (s'.rows parseTime db).length < 2 ^ 63 :=
    (List.length_filter_le _ _).trans_lt hcount
  have hrange := InRange.browses hcount h (hfirst s hpage)
  refine ⟨hrange, fun r => shows_iff hrows hrange, fun seen => ?_⟩
  have hleafs : Leafs parseTime scan db { s' with page := 1 } seen ↔ _ :=
    leafs_iff (s := { s' with page := 1 }) hrows (hfirst _ rfl) seen
  rwa [rows_page, sub_self, Int.toNat_zero, Nat.zero_mul, List.drop_zero] at hleafs

/-- The second of three pages. -/
theorem browse_second_page :
    ((({} : Search).navigate 45 .next).InRange (fun _ => none) (Purge.crowded 45 (by decide))) ∧
      (({} : Search).navigate 45 .next).page = 2 := by
  have hlen : (({} : Search).rows (fun _ => none) (Purge.crowded 45 (by decide))).length = 45 := by
    decide +kernel
  have hshows : ({} : Search).Shows (fun _ => none) ⟨id, .refl⟩ (Purge.crowded 45 (by decide)) _ :=
    (shows_iff (by rw [hlen]; decide) ⟨le_rfl, le_max_left _ _⟩).mpr rfl
  have hclicks := Browses.loaded (c := .next) hshows (.nil _)
  rw [hlen] at hclicks
  exact ⟨(browse_exact (fun _ => none) ⟨id, .refl⟩ (Purge.crowded 45 (by decide))
    (by decide +kernel) rfl hclicks).1, by decide⟩

end Search

end BatRewind
