import BatRewind.Session.Listing
import BatRewind.Worker.DeadLetters

/-!
# The overview

`Repository.GetStats` and the dead letters as the dashboard shows them: six queries without a
transaction. Two of them are no statements of the other methods; they get calls of their own.

* `getStats`: the queries; `StatsSteady`: a database that refuses nothing, at one time.
* `getStats_runs`: what the overview shows of a database that does not change.
* `unresolved_retriedAll`: what a retry of all dead letters does to their number.
* **`overview_agrees`**: every figure is the total of a list, the recent sessions are the head of the
  first page, and a retry takes as many dead letters off the figure as it reports.
-/

namespace BatRewind

open Tables Effects Effects.Prog

/-! ## The queries -/

/-- The response of `GET /v1/stats`. -/
structure Stats where
  totalSessions : ℕ
  sessionsToday : ℕ
  sessionsThisWeek : ℕ
  failedIngestCount : ℕ
  activeServices : List String
  recentSessions : List ReplaySession

/-- A query of the overview. -/
inductive StatsCall where
  | base (c : Call)
  | countUnresolved
  | pluckServices

/-- The answer to a query. -/
@[reducible] def StatsResp : StatsCall → Type
  | .base c => Resp c
  | .countUnresolved => Except String ℕ
  | .pluckServices => Except String (List String)

/-- The dead letters that wait for a retry. -/
def DB.unresolved (db : DB) : List FailedIngest := db.failed.rows.filter fun f => !f.resolved

/-- The service names in use. -/
def DB.serviceNames (db : DB) : List String := db.sessions.rows.map ReplaySession.serviceName

/-- A database that refuses nothing, scans the sessions in one order and is read at time `now`. The
distinct service names come in any order. -/
def StatsSteady (scan : Scan ReplaySession) (now : Time) : Handler StatsCall StatsResp DB
  | .base c, db, db', r =>
    Answers (fun e => e.fault = none ∧ e.scanSessions = scan ∧ e.now = now) c db db' r
  | .countUnresolved, db, db', r => db' = db ∧ r = .ok db.unresolved.length
  | .pluckServices, db, db', r => db' = db ∧
      ∃ services, services.Nodup ∧ (∀ x, x ∈ services ↔ x ∈ db.serviceNames) ∧ r = .ok services

/-- A day, in nanoseconds. -/
def day : Time := 24 * 3600 * 1000000000

/-- Midnight in UTC. -/
def todayStart (now : Time) : Time := now - now % day

/-- Midnight six days before. -/
def weekStart (now : Time) : Time := todayStart now - 6 * day

/-- A fallible sequence of queries. -/
abbrev StatsSvc := ExceptT String (Prog StatsCall StatsResp)

/-- Send a statement of the repository. -/
def statsSql (q : Stmt) : StatsSvc (Answer q) :=
  ExceptT.mk (perform (R := StatsResp) (.base (.sql q)))

/-- **`GetStats`.** -/
def getStats : StatsSvc Stats := do
  let now ← ExceptT.lift (perform (R := StatsResp) (.base .timeNow))
  let totalSessions ← statsSql (.countSessions {})
  let sessionsToday ← statsSql (.countSessions { startDate := some (todayStart now) })
  let sessionsThisWeek ← statsSql (.countSessions { startDate := some (weekStart now) })
  let failedIngestCount ← ExceptT.mk (perform (R := StatsResp) .countUnresolved)
  let services ← ExceptT.mk (perform (R := StatsResp) .pluckServices)
  let recentSessions ← statsSql (.findSessions {} 5 0)
  return {
    totalSessions := totalSessions
    sessionsToday := sessionsToday
    sessionsThisWeek := sessionsThisWeek
    failedIngestCount := failedIngestCount
    activeServices := services
    recentSessions := recentSessions }

/-! ## What is shown -/

/-- The sessions that a filter selects. -/
def DB.accepted (db : DB) (f : ListFilter) : List ReplaySession := db.sessions.rows.filter f.accepts

/-- **The figures of a database.** -/
structure Shows (scan : Scan ReplaySession) (now : Time) (db : DB) (stats : Stats) : Prop where
  totalSessions : stats.totalSessions = (db.accepted {}).length
  sessionsToday : stats.sessionsToday =
    (db.accepted { startDate := some (todayStart now) }).length
  sessionsThisWeek : stats.sessionsThisWeek =
    (db.accepted { startDate := some (weekStart now) }).length
  failedIngestCount : stats.failedIngestCount = db.unresolved.length
  nodup : stats.activeServices.Nodup
  activeServices : ∀ x, x ∈ stats.activeServices ↔ x ∈ db.serviceNames
  recentSessions : stats.recentSessions = (newestFirst scan (db.accepted {})).take 5

section Runs

variable {scan : Scan ReplaySession} {now : Time} {db db' : DB}

/-- A statement that only reads. -/
theorem runs_statsSql {q : Stmt} {a : Answer q}
    (hread : ∀ e : Env, e.scanSessions = scan → q.run e db = .ok (db, a)) :
    ∀ s₁ r₁, Runs (StatsSteady scan now) (statsSql q).run db s₁ r₁ ↔ s₁ = db ∧ r₁ = .ok a := by
  have hexec : ∀ e : Env, e.fault = none → e.scanSessions = scan →
      exec e (.sql q) db = (db, .ok a) := by
    intro e hfault hscan
    rw [exec_sql_of_none hfault, hread e hscan]
  refine fun s₁ r₁ => runs_perform.trans ⟨?_, ?_⟩
  · rintro ⟨e, ⟨hfault, hscan, -⟩, h⟩
    rw [hexec e hfault hscan] at h
    cases h
    exact ⟨rfl, rfl⟩
  · rintro ⟨rfl, rfl⟩
    exact ⟨{ Env.quiet none now fun _ => "" with scanSessions := scan }, ⟨rfl, rfl, rfl⟩,
      hexec _ rfl rfl⟩

theorem runs_statsNow : ∀ s₁ r₁, Runs (StatsSteady scan now)
    (ExceptT.lift (perform (R := StatsResp) (.base .timeNow)) : StatsSvc Time).run db s₁ r₁ ↔
      s₁ = db ∧ r₁ = .ok now := by
  intro s₁ r₁
  rw [runs_lift]
  constructor
  · rintro ⟨t, h, rfl⟩
    obtain ⟨rfl, e, ⟨-, -, rfl⟩, rfl⟩ := answers_timeNow.mp (runs_perform.mp h)
    exact ⟨rfl, rfl⟩
  · rintro ⟨rfl, rfl⟩
    refine ⟨now, runs_perform.mpr (answers_timeNow.mpr ⟨rfl, ?_⟩), rfl⟩
    exact ⟨{ Env.quiet none now fun _ => "" with scanSessions := scan }, ⟨rfl, rfl, rfl⟩, rfl⟩

/-- **The overview of a database that does not change.** -/
theorem getStats_runs {r : Except String Stats} :
    Runs (StatsSteady scan now) getStats.run db db' r ↔
      db' = db ∧ ∃ stats, r = .ok stats ∧ Shows scan now db stats := by
  unfold getStats
  rw [runs_bind_sure runs_statsNow, runs_bind_sure (runs_statsSql fun _ _ => rfl),
    runs_bind_sure (runs_statsSql fun _ _ => rfl), runs_bind_sure (runs_statsSql fun _ _ => rfl),
    runs_bind_sure fun _ _ => runs_perform]
  -- the order of the service names is open
  have hrecent : ∀ s₁ r₁, Runs (StatsSteady scan now) (statsSql (.findSessions {} 5 0)).run db s₁ r₁ ↔
      s₁ = db ∧ r₁ = .ok ((newestFirst scan (db.accepted {})).take 5) := by
    refine runs_statsSql fun e hscan => ?_
    rw [← hscan]
    rfl
  rw [runs_bind_except]
  constructor
  · rintro (⟨db₁, services, h₁, h₂⟩ | ⟨e, h₁, -⟩)
    · obtain ⟨rfl, services', hnodup, hmem, heq⟩ := runs_perform.mp h₁
      obtain rfl := Except.ok.inj heq
      rw [runs_bind_sure hrecent] at h₂
      obtain ⟨rfl, rfl⟩ := h₂
      exact ⟨rfl, _, rfl, rfl, rfl, rfl, rfl, hnodup, hmem, rfl⟩
    · obtain ⟨-, _, -, -, heq⟩ := runs_perform.mp h₁
      cases heq
  · rintro ⟨rfl, stats, rfl, h⟩
    refine Or.inl ⟨db', stats.activeServices, runs_perform.mpr ⟨rfl, _, h.nodup, h.activeServices,
      rfl⟩, ?_⟩
    rw [runs_bind_sure hrecent]
    refine ⟨rfl, congrArg Except.ok ?_⟩
    obtain ⟨h₁, h₂, h₃, h₄, -, -, h₅⟩ := h
    cases stats
    subst h₁ h₂ h₃ h₄ h₅
    rfl

end Runs

/-! ## Dead letters -/

/-- **A retry of all dead letters** takes those it moves off the unresolved ones. -/
theorem unresolved_retriedAll {db db' : DB} {n : ℕ} (h : RetriedAll db db' n) :
    db'.unresolved.length + n = db.unresolved.length := by
  have hstay : db'.unresolved.Perm (db.unresolved.filter fun f => !db'.resolved f.id) := by
    refine (List.perm_ext_iff_of_nodup ?_ ?_).mpr fun f => ?_
    · exact (List.Nodup.of_map _ db'.failed.nodup).filter _
    · exact ((List.Nodup.of_map _ db.failed.nodup).filter _).filter _
    simp only [DB.unresolved, List.mem_filter, Bool.not_eq_true']
    constructor
    · rintro ⟨hf, hres⟩
      obtain ⟨f₀, hf₀, hid⟩ := h.keys f hf
      have hfind : db'.resolved f.id = false := by
        rw [DB.resolved, Table.find_eq_some.mpr ⟨hf, rfl⟩]
        exact hres
      have hnot : f₀ ∉ movedRows db db' := by
        intro hmoved
        rw [movedRows, List.mem_filter, hid, hfind, Bool.and_false] at hmoved
        exact absurd hmoved.2 (by decide)
      obtain rfl := db'.failed.eq_of_key_eq (h.others f₀ hf₀ hnot) hf hid
      exact ⟨⟨hf₀, hres⟩, hfind⟩
    · rintro ⟨⟨hf, hres⟩, hfind⟩
      refine ⟨h.others f hf fun hmoved => ?_, hres⟩
      rw [movedRows, List.mem_filter, hfind, Bool.and_false] at hmoved
      exact absurd hmoved.2 (by decide)
  have hmoved : movedRows db db' = db.unresolved.filter fun f => db'.resolved f.id := by
    rw [movedRows, DB.unresolved, List.filter_filter]
    exact List.filter_congr fun f _ => Bool.and_comm _ _
  rw [hstay.length_eq, h.count, hmoved, Nat.add_comm]
  exact (List.length_eq_length_filter_add _).symm

/-- The conditions of a filter. -/
def ListFilter.conditions (f : ListFilter) : ListFilter := { f with limit := 0, offset := 0 }

theorem accepts_conditions (f : ListFilter) : f.accepts = f.conditions.accepts := rfl

/-- **The overview agrees with the lists** of the same database. -/
structure Overview (parseTime : String → Option Time) (scan : Scan ReplaySession) (now : Time)
    (db : DB) (stats : Stats) : Prop where
  totals : ∀ q response, Runs (Steady scan) (Reader.list parseTime q).run db db (.ok response) →
    ((q.filter parseTime).conditions = {} → response.total = stats.totalSessions) ∧
    ((q.filter parseTime).conditions = { startDate := some (todayStart now) } →
      response.total = stats.sessionsToday) ∧
    ((q.filter parseTime).conditions = { startDate := some (weekStart now) } →
      response.total = stats.sessionsThisWeek) ∧
    ∀ service, service ≠ "" → (q.filter parseTime).conditions = { serviceName := service } →
      (0 < response.total ↔ service ∈ stats.activeServices)
  services : stats.activeServices.Nodup
  recent : ∀ q response, Runs (Steady scan) (Reader.list parseTime q).run db db (.ok response) →
    (q.filter parseTime).conditions = {} → (q.filter parseTime).offset ≤ 0 →
    5 ≤ Reader.pageSize (q.filter parseTime).limit → stats.recentSessions = response.data.take 5
  failed : ∀ db' items, Runs AnyAnswer (Repository.listFailed true).run db db' (.ok items) →
    items.length = stats.failedIngestCount
  retried : ∀ db' r stats', Runs AnyAnswer Service.retryAllFailed.run db db' r →
    Runs (StatsSteady scan now) getStats.run db' db' (.ok stats') →
    stats'.failedIngestCount + returnedCount r = stats.failedIngestCount
  ordered : stats.sessionsToday ≤ stats.sessionsThisWeek ∧
    stats.sessionsThisWeek ≤ stats.totalSessions

section Overview

variable {parseTime : String → Option Time} {scan : Scan ReplaySession} {now : Time} {db db' : DB}

/-- A filter that selects more shows more. -/
theorem length_accepted_le {f g : ListFilter} (h : ∀ s, f.accepts s → g.accepts s) :
    (db.accepted f).length ≤ (db.accepted g).length :=
  (List.monotone_filter_right db.sessions.rows h).length_le

theorem accepts_startDate {t : Time} {s : ReplaySession} :
    ({ startDate := some t } : ListFilter).accepts s ↔ t ≤ s.startedAt := by
  simp [ListFilter.accepts]

theorem weekStart_le (now : Time) : weekStart now ≤ todayStart now :=
  Int.sub_le_self _ (by decide)

/-- **Every figure of the overview is that of a list**, and the query changes nothing. -/
theorem overview_agrees (parseTime : String → Option Time) {r : Except String Stats}
    (h : Runs (StatsSteady scan now) getStats.run db db' r) :
    db' = db ∧ ∃ stats, r = .ok stats ∧ Overview parseTime scan now db stats := by
  obtain ⟨rfl, stats, rfl, hshows⟩ := getStats_runs.mp h
  have htotal : ∀ q response,
      Runs (Steady scan) (Reader.list parseTime q).run db' db' (.ok response) →
      response.total = (db'.accepted (q.filter parseTime).conditions).length := by
    intro q response hlist
    rw [Except.ok.inj (Reader.list_runs.mp hlist).2]
    rfl
  refine ⟨rfl, stats, rfl, ?_, hshows.nodup, ?_, ?_, ?_, ?_⟩
  · intro q response hlist
    have hcount := htotal q response hlist
    refine ⟨fun hq => ?_, fun hq => ?_, fun hq => ?_, fun service hne hq => ?_⟩
    · rw [hcount, hq, hshows.totalSessions]
    · rw [hcount, hq, hshows.sessionsToday]
    · rw [hcount, hq, hshows.sessionsThisWeek]
    · rw [hcount, hq, hshows.activeServices, List.length_pos_iff_exists_mem]
      simp only [DB.accepted, DB.serviceNames, List.mem_filter, List.mem_map]
      refine exists_congr fun s => and_congr_right fun _ => ?_
      simp [ListFilter.accepts, hne]
  · intro q response hlist hq hoffset hsize
    obtain rfl := Except.ok.inj (Reader.list_runs.mp hlist).2
    have hmatching : matching parseTime db' q = db'.accepted {} := by
      rw [matching, accepts_conditions, hq]
      rfl
    rw [hshows.recentSessions, hmatching, Int.toNat_of_nonpos hoffset, List.drop_zero, List.take_take,
      Nat.min_eq_left (by omega)]
  · intro db₁ items hlist
    obtain ⟨e, -, hrun⟩ := Answers.accepted (runs_perform.mp hlist)
    obtain ⟨-, rfl⟩ := Prod.mk.inj (Except.ok.inj hrun)
    rw [hshows.failedIngestCount, List.length_insertionSort, (e.scanFailed.2 _).length_eq]
    rfl
  · intro db₁ r₁ stats' hretry hstats'
    obtain ⟨-, _, heq, hshows'⟩ := getStats_runs.mp hstats'
    obtain rfl := Except.ok.inj heq
    rw [hshows'.failedIngestCount, hshows.failedIngestCount]
    exact unresolved_retriedAll (retryAllFailed_retriedAll hretry)
  · rw [hshows.sessionsToday, hshows.sessionsThisWeek, hshows.totalSessions]
    refine ⟨length_accepted_le fun s hs => ?_, length_accepted_le fun s _ => ?_⟩
    · exact accepts_startDate.mpr ((weekStart_le now).trans (accepts_startDate.mp hs))
    · simp [ListFilter.accepts]

/-- A session that was started at time `t`. -/
def sessionAt (id service : String) (t : Time) : ReplaySession :=
  { Service.sessionOf (plainBatch id []) t with serviceName := service }

/-- Sessions of the first, the fifth and the tenth day, and a dead letter. -/
def overviewDB : DB where
  sessions := ⟨[sessionAt sampleID "shop" 0, sessionAt otherID "admin" (9 * day + 1),
    sessionAt (sampleEventID true) "shop" (4 * day)], by decide⟩
  events := .empty
  failed := letterDB.failed
  token_unique := by simp [sessionAt, Service.sessionOf]
  session_exists := by simp [Table.empty]

/-- Its overview on the tenth day. -/
theorem overview_tenth_day : ∃ stats,
    Runs (StatsSteady ⟨id, .refl⟩ (9 * day + 5)) getStats.run overviewDB overviewDB (.ok stats) ∧
    Overview (fun _ => none) ⟨id, .refl⟩ (9 * day + 5) overviewDB stats ∧
    stats.totalSessions = 3 ∧ stats.sessionsToday = 1 ∧ stats.sessionsThisWeek = 2 ∧
    stats.failedIngestCount = 1 ∧ stats.activeServices = ["shop", "admin"] ∧
    stats.recentSessions.map ReplaySession.id = [otherID, sampleEventID true, sampleID] := by
  let newest := (newestFirst ⟨id, .refl⟩ (overviewDB.accepted {})).take 5
  have hnewest : newest.map ReplaySession.id = [otherID, sampleEventID true, sampleID] := by
    decide +kernel
  have hshows : Shows ⟨id, .refl⟩ (9 * day + 5) overviewDB
      ⟨3, 1, 2, 1, ["shop", "admin"], newest⟩ := by
    refine ⟨by decide +kernel, by decide +kernel, by decide +kernel, rfl, by decide, fun x => ?_,
      rfl⟩
    have hnames : overviewDB.serviceNames = ["shop", "admin", "shop"] := rfl
    simp only [hnames, List.mem_cons]
    grind
  have hrun := getStats_runs.mpr ⟨rfl, _, rfl, hshows⟩
  obtain ⟨-, stats, heq, hoverview⟩ := overview_agrees (fun _ => none) hrun
  obtain rfl := Except.ok.inj heq
  exact ⟨_, hrun, hoverview, rfl, rfl, rfl, rfl, rfl, hnewest⟩

end Overview

end BatRewind
