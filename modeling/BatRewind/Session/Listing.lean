import BatRewind.Lib.Paging
import BatRewind.Session.Purge
import BatRewind.Session.Repository

/-!
# Walking through the session list

`ReaderHandler.List` of `internal/session/reader_handler.go`, and a client that follows the `limit`
of each response. The repository replaces a limit outside `1 .. 100` by `50`, and the response
reports the limit of the request. `time.Parse` is the parameter `parseTime`.

* `atoi`: `strconv.Atoi`; `atoi_toString`: it reads back the offset that a client writes.
* `Reader.list`: the handler; `Steady scan`: a database that refuses nothing and always finds the
  rows in one order.
* `Reader.list_runs`: the one response to a request; `Reader.serves`: the list is served in pages.
* **`paging_iff`**: the client receives every matching session once exactly if the limit is between
  `1` and `100`, or all of them fit on the first page and are not more than the limit.
-/

namespace BatRewind

open Effects Effects.Prog Paging

/-! ## The handler -/

/-- The number of an `int` of 64 bits with the given decimal digits. -/
def intOfDigits (sign : ℤ) (ds : List Char) : Option ℤ :=
  let z := sign * (Nat.ofDigitChars 10 ds 0 : ℤ)
  if ds ≠ [] ∧ ds.all Char.isDigit ∧ -2 ^ 63 ≤ z ∧ z < 2 ^ 63 then some z else none

/-- `strconv.Atoi`: an optional sign and decimal digits. -/
def atoi (s : String) : Option ℤ :=
  match s.toList with
  | '-' :: ds => intOfDigits (-1) ds
  | '+' :: ds => intOfDigits 1 ds
  | ds => intOfDigits 1 ds

/-- The query parameters of `GET /v1/sessions`; a missing one is empty. -/
structure ListQuery where
  identifier : String := ""
  serviceName : String := ""
  environment : String := ""
  startDate : String := ""
  endDate : String := ""
  limit : String := ""
  offset : String := ""

/-- The filter of a request. A parameter that cannot be parsed counts as missing. -/
def ListQuery.filter (parseTime : String → Option Time) (q : ListQuery) : ListFilter where
  identifier := q.identifier
  serviceName := q.serviceName
  environment := q.environment
  startDate := if q.startDate ≠ "" then parseTime q.startDate else none
  endDate := if q.endDate ≠ "" then parseTime q.endDate else none
  limit := if q.limit ≠ "" then (atoi q.limit).getD 0 else 0
  offset := if q.offset ≠ "" then (atoi q.offset).getD 0 else 0

/-- The response of status 200. -/
structure ListResponse where
  data : List ReplaySession
  total : ℕ
  limit : ℤ
  offset : ℤ

namespace Reader

/-- **`ReaderHandler.List`.** An error is the text of a response of status 500. -/
def list (parseTime : String → Option Time) (q : ListQuery) : Svc ListResponse := do
  let f := q.filter parseTime
  let found ← Repository.list f
  return { data := found.1, total := found.2, limit := f.limit, offset := f.offset }

end Reader

/-! ## Offsets in decimal -/

theorem atoi_toString {n : ℕ} (h : n < 2 ^ 63) : atoi (toString (n : ℤ)) = some (n : ℤ) := by
  have hlist : (toString (n : ℤ)).toList = Nat.toDigits 10 n := Nat.toList_repr
  have hdigits : ∀ c ∈ Nat.toDigits 10 n, c.isDigit = true :=
    fun c hc => Nat.isDigit_of_mem_toDigits (by decide) (by decide) hc
  unfold atoi
  rw [hlist]
  split
  next ds heq => exact absurd (hdigits '-' (by simp [heq])) (by decide)
  next ds heq => exact absurd (hdigits '+' (by simp [heq])) (by decide)
  next =>
    unfold intOfDigits
    rw [Nat.ofDigitChars_ten_toDigits, one_mul]
    exact if_pos ⟨Nat.toDigits_ne_nil, List.all_eq_true.mpr hdigits, by omega, by omega⟩

/-! ## Responses -/

/-- A database that refuses nothing and always scans the sessions in one order. -/
def Steady (scan : Scan ReplaySession) : Handler Call Resp DB :=
  Answers fun e => e.fault = none ∧ e.scanSessions = scan

/-- The sessions that a request asks for. -/
def matching (parseTime : String → Option Time) (db : DB) (q : ListQuery) : List ReplaySession :=
  db.sessions.rows.filter (q.filter parseTime).accepts

/-- Newest first, and those started at the same time in the order of the scan. -/
def newestFirst (scan : Scan ReplaySession) (l : List ReplaySession) : List ReplaySession :=
  (scan.1 l).insertionSort fun a b => b.startedAt ≤ a.startedAt

theorem newestFirst_perm (scan : Scan ReplaySession) (l : List ReplaySession) :
    (newestFirst scan l).Perm l :=
  (List.perm_insertionSort _ _).trans (scan.2 l)

namespace Reader

variable {parseTime : String → Option Time} {scan : Scan ReplaySession} {db db' : DB}
  {q : ListQuery}

/-- **A statement that only reads** has the one answer that the scan gives. -/
theorem runs_query {s : Stmt} {a : Answer s} {r : Except String (Answer s)}
    (hread : ∀ e : Env, e.scanSessions = scan → s.run e db = .ok (db, a)) :
    Runs (Steady scan) (sql s).run db db' r ↔ db' = db ∧ r = .ok a := by
  have hexec : ∀ e : Env, e.fault = none → e.scanSessions = scan →
      exec e (.sql s) db = (db, .ok a) := by
    intro e hfault hscan
    rw [exec_sql_of_none hfault, hread e hscan]
  refine runs_perform.trans ⟨?_, ?_⟩
  · rintro ⟨e, ⟨hfault, hscan⟩, h⟩
    rw [hexec e hfault hscan] at h
    cases h
    exact ⟨rfl, rfl⟩
  · rintro ⟨rfl, rfl⟩
    exact ⟨{ Env.quiet none 0 fun _ => "" with scanSessions := scan }, ⟨rfl, rfl⟩,
      hexec _ rfl rfl⟩

theorem runs_countSessions {f : ListFilter} {r : Except String ℕ} :
    Runs (Steady scan) (sql (.countSessions f)).run db db' r ↔
      db' = db ∧ r = .ok (db.sessions.rows.filter f.accepts).length :=
  runs_query fun _ _ => rfl

theorem runs_findSessions {f : ListFilter} {limit offset : ℤ}
    {r : Except String (List ReplaySession)} :
    Runs (Steady scan) (sql (.findSessions f limit offset)).run db db' r ↔ db' = db ∧
      r = .ok (((newestFirst scan (db.sessions.rows.filter f.accepts)).drop offset.toNat).take
        limit.toNat) := by
  refine runs_query fun e hscan => ?_
  rw [← hscan]
  rfl

/-- The number of rows that the repository asks for. -/
def pageSize (limit : ℤ) : ℤ := if limit ≤ 0 ∨ limit > 100 then 50 else limit

theorem repositoryList_runs {f : ListFilter} {r : Except String (List ReplaySession × ℕ)} :
    Runs (Steady scan) (Repository.list f).run db db' r ↔ db' = db ∧ r = .ok
      (((newestFirst scan (db.sessions.rows.filter f.accepts)).drop f.offset.toNat).take
        (pageSize f.limit).toNat, (db.sessions.rows.filter f.accepts).length) := by
  unfold Repository.list
  rw [runs_bind_sure fun _ _ => runs_countSessions]
  exact (runs_bind_sure fun _ _ => runs_findSessions).trans Iff.rfl

/-- **The one response to a request.** -/
theorem list_runs {r : Except String ListResponse} :
    Runs (Steady scan) (list parseTime q).run db db' r ↔ db' = db ∧ r = .ok {
      data := ((newestFirst scan (matching parseTime db q)).drop
        (q.filter parseTime).offset.toNat).take (pageSize (q.filter parseTime).limit).toNat
      total := (matching parseTime db q).length
      limit := (q.filter parseTime).limit
      offset := (q.filter parseTime).offset } := by
  unfold list
  exact (runs_bind_sure fun _ _ => repositoryList_runs).trans Iff.rfl

/-! ## Main theorem -/

/-- What a client is answered that asks for an offset. -/
def responds (parseTime : String → Option Time) (scan : Scan ReplaySession) (db : DB)
    (q : ListQuery) (offset : ℤ) (r : Paging.Response ReplaySession) : Prop :=
  ∃ response : ListResponse, r = ⟨response.data, response.total, response.limit⟩ ∧
    Runs (Steady scan) (list parseTime { q with offset := toString offset }).run db db
      (.ok response)

/-- **The list is served in pages**, and the limit of the request is reported. -/
theorem serves (parseTime : String → Option Time) (scan : Scan ReplaySession) (db : DB)
    (q : ListQuery) (hcount : (matching parseTime db q).length < 2 ^ 63) :
    Serves (responds parseTime scan db q) (newestFirst scan (matching parseTime db q))
      (pageSize (q.filter parseTime).limit).toNat (q.filter parseTime).limit := by
  have hlen := (newestFirst_perm scan (matching parseTime db q)).length_eq
  refine ⟨fun {offset r} hr => ?_, fun {offset} h0 hlt {r} => ?_⟩
  · obtain ⟨response, rfl, hruns⟩ := hr
    obtain rfl := Except.ok.inj (list_runs.mp hruns).2
    exact ⟨hlen.symm, rfl⟩
  · obtain ⟨n, rfl⟩ := Int.eq_ofNat_of_zero_le h0
    have hoffset : ({ q with offset := toString (n : ℤ) }.filter parseTime).offset = (n : ℤ) := by
      have hread := atoi_toString (n := n) (by omega)
      have hne : toString (n : ℤ) ≠ "" := by
        intro heq
        rw [heq] at hread
        cases hread
      simp only [ListQuery.filter]
      rw [if_pos hne, hread]
      rfl
    have hmatching : matching parseTime db { q with offset := toString (n : ℤ) } =
        matching parseTime db q := rfl
    unfold responds
    simp only [list_runs, hoffset, hmatching, hlen]
    constructor
    · rintro ⟨response, rfl, -, heq⟩
      obtain rfl := Except.ok.inj heq
      rfl
    · rintro rfl
      exact ⟨_, rfl, trivial, rfl⟩

theorem pageSize_pos (limit : ℤ) : 0 < (pageSize limit).toNat := by
  unfold pageSize
  split_ifs <;> omega

/-- **When paging by the reported limit visits everything once.** The total is always right. -/
theorem paging_iff (parseTime : String → Option Time) (scan : Scan ReplaySession) (db : DB)
    (q : ListQuery) (hcount : (matching parseTime db q).length < 2 ^ 63) :
    (VisitsAll (responds parseTime scan db q) (matching parseTime db q) ↔
      (1 ≤ (q.filter parseTime).limit ∧ (q.filter parseTime).limit ≤ 100) ∨
        ((matching parseTime db q).length ≤ 50 ∧
          ((matching parseTime db q).length : ℤ) ≤ (q.filter parseTime).limit)) ∧
      ∀ offset r, responds parseTime scan db q offset r →
        r.total = (matching parseTime db q).length := by
  have hserves := serves parseTime scan db q hcount
  have hperm := newestFirst_perm scan (matching parseTime db q)
  refine ⟨?_, fun offset r hr => (hserves.header hr).1.trans hperm.length_eq⟩
  rw [← visitsAll_congr hperm, hserves.visitsAll_iff (pageSize_pos _), hperm.length_eq]
  -- the repository takes the limit as it is, or 50
  by_cases hlimit : (q.filter parseTime).limit ≤ 0 ∨ (q.filter parseTime).limit > 100
  · rw [pageSize, if_pos hlimit]
    omega
  · rw [pageSize, if_neg hlimit]
    omega

/-- Pages of two. -/
theorem paging_two :
    VisitsAll (responds (fun _ => none) ⟨id, .refl⟩ (Purge.crowded 3 (by decide)) { limit := "2" })
      (matching (fun _ => none) (Purge.crowded 3 (by decide)) { limit := "2" }) :=
  (paging_iff _ ⟨id, .refl⟩ (Purge.crowded 3 (by decide)) { limit := "2" } (by decide)).1.mpr
    (Or.inl (by decide))

/-- Without a limit the client asks for the first page for ever. -/
theorem paging_no_limit :
    ¬ VisitsAll (responds (fun _ => none) ⟨id, .refl⟩ (Purge.crowded 3 (by decide)) {})
      (matching (fun _ => none) (Purge.crowded 3 (by decide)) {}) := by
  rintro ⟨⟨received, hw⟩, -⟩
  exact (serves _ ⟨id, .refl⟩ _ {} (by decide)).not_walk (by decide) (by decide) hw

end Reader

end BatRewind
