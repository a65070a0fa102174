import Mathlib.Data.List.FinRange
import Mathlib.Data.List.Indexes
import Mathlib.Data.Set.Finite.Basic
import BatRewind.Session.Ingest

/-!
# Batches that can be stored

Runs of `ingest` from a given database: a batch whose event ids are fresh and whose share token no
other session holds is stored if no statement is refused (**`ingest_runs`**).

* `Unfailing`: the answers of a database that refuses nothing but violations of its constraints.
* **`ingest_unfailing`**: there a batch is stored if no other session holds its share token, and
  `ingest_unfailing_taken`: else its attempts fail, whatever their number.
-/

namespace BatRewind

open Encoding Tables Effects Effects.Prog

variable {db : DB}

theorem healthyAt_sql {q : Stmt} (now : Time) (db : DB) (h : q.Admits db) :
    ∃ e db' a, Runs (HealthyAt now) (sql q).run db db' (.ok a) ∧ q.run e db = .ok (db', a) := by
  obtain ⟨⟨db', a⟩, hrun⟩ := Stmt.run_ok_iff (e := .quiet none now fun _ => "").mpr h
  exact ⟨_, db', a, runs_perform.mpr ⟨answers_accept rfl rfl hrun, a, rfl⟩, hrun⟩

theorem runs_wrap_ok {α : Type} {T : Handler Call Resp DB} {x : Svc α} {db' : DB} {a : α}
    (h : Runs T x.run db db' (.ok a)) (text : String) : Runs T (wrap text x).run db db' (.ok a) :=
  runs_adapt.mpr ⟨.ok a, h, rfl⟩

theorem runs_bind_ok {α β : Type} {T : Handler Call Resp DB} {x : Svc α} {f : α → Svc β}
    {db₁ db' : DB} {a : α} {r : Except String β} (h : Runs T x.run db db₁ (.ok a))
    (hf : Runs T (f a).run db₁ db' r) : Runs T (x >>= f).run db db' r :=
  runs_bind_except.mpr (Or.inl ⟨db₁, a, h, hf⟩)

theorem upsertSession_runs (now : Time) (db : DB) (s : ReplaySession) :
    ∃ db', Runs (HealthyAt now) (Repository.upsertSession s).run db db' (.ok ()) ∧
      Wrote db (saveRow s (db.sessions.find s.id)) db' := by
  obtain ⟨e, db₁, affected, hup, hrun⟩ := healthyAt_sql (q := .updateSession s) now db trivial
  obtain ⟨rfl, hzero⟩ := Stmt.run_updateSession hrun
  cases hfind : db.sessions.find s.id with
  | none =>
    rw [DB.updateSession_of_none hfind] at hup
    obtain ⟨e', db₂, a, h₂, hrun₂⟩ := healthyAt_sql (q := .insertSession s) now db trivial
    cases hrun₂
    obtain ⟨-, he, hf⟩ := db.insertSession_rows s
    refine ⟨db.insertSession s, runs_bind_ok hup ?_, DB.insertSession_of_none hfind, he, hf⟩
    rw [if_pos (hzero.mpr hfind)]
    exact h₂
  | some row =>
    refine ⟨db.updateSession s, runs_bind_ok hup ?_, DB.updateSession_of_some hfind, rfl, rfl⟩
    rw [if_neg fun h => by rw [hzero.mp h] at hfind; cases hfind]
    exact ⟨rfl, rfl⟩

theorem UpdatesRow.runs {q : Stmt} {id : String} {f : ReplaySession → ReplaySession}
    (hq : UpdatesRow q id f) (now : Time) {row : ReplaySession}
    (hrow : db.sessions.find id = some row) (hadm : q.Admits db) :
    ∃ db' a, Runs (HealthyAt now) (sql q).run db db' (.ok a) ∧ Wrote db (f row) db' := by
  obtain ⟨e, db', a, h, hrun⟩ := healthyAt_sql now db hadm
  exact ⟨db', a, h, hq.run hrun hrow⟩

theorem wrote_self {row : ReplaySession} {id : String} (h : db.sessions.find id = some row) :
    Wrote db row db := ⟨(Table.put_self h).symm, rfl, rfl⟩

theorem persistToken_runs {req : IngestRequest} (now : Time) {row : ReplaySession}
    (hrow : db.sessions.find req.sessionID = some row)
    (htok : req.shareToken ≠ "" → ∀ r ∈ db.sessions.rows, r.shareToken = some req.shareToken →
      r.id = req.sessionID) :
    ∃ db', Runs (HealthyAt now) (Service.persistToken req).run db db' (.ok ()) ∧
      Wrote db (tokenRow req row) db' := by
  unfold Service.persistToken tokenRow
  split_ifs with hs
  · have hfree : db.tokenTaken req.sessionID req.shareToken = false := by
      refine List.any_eq_false.mpr fun r hr => ?_
      have := htok hs r hr
      simp only [ne_eq, decide_not, Bool.and_eq_true, Bool.not_eq_true', decide_eq_false_iff_not,
        decide_eq_true_eq, not_and]
      exact fun hne ht => hne (this ht)
    obtain ⟨db', a, h, hw⟩ :=
      (updatesRow_setShareToken req.sessionID req.shareToken).runs now hrow (Or.inl hfree)
    exact ⟨db', runs_wrap_ok h _, hw⟩
  · exact ⟨db, ⟨rfl, rfl⟩, wrote_self hrow⟩

theorem storeClient_runs {req : IngestRequest} (now : Time) {row : ReplaySession}
    (hrow : db.sessions.find req.sessionID = some row) :
    ∃ db', Runs (HealthyAt now) (Service.storeClient req).run db db' (.ok ()) ∧
      Wrote db (clientRow req row) db' := by
  unfold Service.storeClient clientRow
  cases req.client with
  | some c =>
    obtain ⟨db', a, h, hw⟩ := (updatesRow_setClientMetadata req.sessionID
      (Repository.clientColumns c.sanitized (parseUserAgent c.sanitized.userAgent))).runs now hrow
        trivial
    exact ⟨db', runs_wrap_ok h _, hw⟩
  | none => exact ⟨db, ⟨rfl, rfl⟩, wrote_self hrow⟩

theorem timeNow_runs (now : Time) : Runs (HealthyAt now) timeNow.run db db (.ok now) := by
  refine runs_lift.mpr ⟨now, runs_perform.mpr ⟨?_, trivial⟩, rfl⟩
  exact ⟨.quiet none now fun _ => "", rfl, rfl⟩

theorem uuidNew_runs (now : Time) (ids : ℕ → String) :
    Runs (HealthyAt now) uuidNew.run db db (.ok ids) := by
  refine runs_lift.mpr ⟨ids, runs_perform.mpr ⟨?_, trivial⟩, rfl⟩
  exact ⟨.quiet none now ids, rfl, rfl⟩

theorem prepare_runs {req : IngestRequest} (now : Time)
    (htok : req.shareToken ≠ "" → ∀ r ∈ db.sessions.rows, r.shareToken = some req.shareToken →
      r.id = req.sessionID) :
    ∃ db', Runs (HealthyAt now) (Service.prepare req now).run db db' (.ok ()) ∧
      Wrote db (preparedRow req now (db.sessions.find req.sessionID)) db' := by
  have hkept := kept_saveRow now (find_id db req.sessionID)
  obtain ⟨db₁, h₁, hw₁⟩ := upsertSession_runs now db (Service.sessionOf req now)
  have htok₁ : req.shareToken ≠ "" → ∀ r ∈ db₁.sessions.rows,
      r.shareToken = some req.shareToken → r.id = req.sessionID := by
    intro hs r hr ht
    rw [hw₁.sessions, Table.mem_put] at hr
    rcases hr with rfl | ⟨hr, -⟩
    · exact hkept.1
    · exact htok hs r hr ht
  obtain ⟨db₂, h₂, hw₂⟩ := persistToken_runs now (hw₁.find hkept.1) htok₁
  have hw₂ := hw₁.trans hw₂ (tokenRow_id _).symm
  obtain ⟨db₃, h₃, hw₃⟩ := storeClient_runs now (hw₂.find hkept.tokenRow.1)
  exact ⟨db₃, runs_bind_ok (runs_wrap_ok h₁ _) (runs_bind_ok h₂ h₃),
    hw₂.trans hw₃ (clientRow_id _).symm⟩

section

variable (db : DB) (req : IngestRequest) (now : Time) (ids : ℕ → String)
  (hids : ((db.events.rows ++ Service.eventsOf req now ids).map ReplayEvent.id).Nodup)
  (htok : req.shareToken ≠ "" → ∀ r ∈ db.sessions.rows, r.shareToken = some req.shareToken →
    r.id = req.sessionID)
include hids htok

/-- The statements of a batch up to the insertion of its events. -/
theorem insertEvents_runs :
    ∃ db₁ db₂, Runs (HealthyAt now) (Service.prepare req now).run db db₁ (.ok ()) ∧
      Runs (HealthyAt now) (sql (.insertEvents (Service.eventsOf req now ids))).run db₁ db₂
        (.ok ()) ∧
      db₂.sessions = db.sessions.put (preparedRow req now (db.sessions.find req.sessionID)) ∧
      db₂.events.rows = db.events.rows ++ Service.eventsOf req now ids ∧ db₂.failed = db.failed := by
  obtain ⟨db₁, h₁, hw⟩ := prepare_runs now htok
  have hrow := hw.find preparedRow_id
  have hadm : (Stmt.insertEvents (Service.eventsOf req now ids)).Admits db₁ := by
    refine ⟨fun ev hev => ?_, by rw [hw.events]; exact hids⟩
    rw [eventsOf_sessionID hev]
    exact Table.find_isSome.mp (hrow ▸ rfl)
  obtain ⟨e, db₂, _, h₂, hrun⟩ := healthyAt_sql now db₁ hadm
  obtain ⟨hs, he, hf⟩ := Stmt.run_rows hrun
  refine ⟨db₁, db₂, h₁, h₂, (Table.ext hs).trans hw.sessions, ?_, (Table.ext hf).trans hw.failed⟩
  rw [he, hw.events]
  rfl

/-- **A batch that violates no constraint can be stored**, at any clock reading and with any
fresh ids. -/
theorem ingest_runs :
    ∃ db', Runs (HealthyAt now) (Service.ingest req).run db db' (.ok ()) ∧
      Stored req now ids db db' := by
  obtain ⟨db₁, db₂, h₁, h₂, hs, he, hf⟩ := insertEvents_runs db req now ids hids htok
  have hrow : db₂.sessions.find req.sessionID =
      some (preparedRow req now (db.sessions.find req.sessionID)) :=
    hs ▸ find_put_id preparedRow_id
  obtain ⟨db₃, a', h₃, hw₃⟩ := (updatesRow_incrementEventCount req.sessionID
    (Service.eventsOf req now ids).length).runs now hrow trivial
  refine ⟨db₃, ?_, ?_, hw₃.events ▸ he, hw₃.failed.trans hf⟩
  · rw [ingest_eq]
    exact runs_bind_ok (timeNow_runs now) (runs_bind_ok h₁
      (runs_bind_ok (uuidNew_runs now ids) (runs_bind_ok (runs_wrap_ok h₂ _) h₃)))
  · rw [hw₃.sessions, hs, preparedRow_eventCount, Nat.zero_add, length_eventsOf]
    exact Table.put_put db.sessions rfl

/-- The increment of the count may be refused after the events were inserted. -/
theorem ingest_runs_uncounted (msg : String) :
    ∃ db', Runs AnyAnswer (Service.ingest req).run db db' (.error msg) ∧
      db'.sessions = db.sessions.put (preparedRow req now (db.sessions.find req.sessionID)) ∧
      db'.events.rows = db.events.rows ++ Service.eventsOf req now ids := by
  obtain ⟨db₁, db₂, h₁, h₂, hs, he, hf⟩ := insertEvents_runs db req now ids hids htok
  have hany : ∀ c db db' r, HealthyAt now c db db' r → AnyAnswer c db db' r :=
    fun _ _ _ _ h => h.1.mono fun _ _ => trivial
  refine ⟨db₂, ?_, hs, he⟩
  rw [ingest_eq]
  refine runs_bind_ok ((timeNow_runs now).mono hany) (runs_bind_ok (h₁.mono hany)
    (runs_bind_ok ((uuidNew_runs now ids).mono hany)
      (runs_bind_ok (runs_wrap_ok (h₂.mono hany) _) ?_)))
  exact runs_perform.mpr (answers_refuse (e := .quiet (some msg) now ids) trivial rfl)

end

/-- A single event with a fresh id can be stored. -/
theorem plainBatch_runs (db : DB) (sessionID : String) (ev : RawEvent) (now : Time) (id : String)
    (hid : id ∉ db.events.keys) :
    ∃ db', Runs (HealthyAt now) (Service.ingest (plainBatch sessionID [ev])).run db db' (.ok ()) ∧
      Stored (plainBatch sessionID [ev]) now (fun _ => id) db db' :=
  ingest_runs db _ now (fun _ => id) (Table.nodup_append_of_notMem hid) fun h => absurd rfl h

/-! ## A database that refuses violations only -/

/-- The ids that are generated are new, and no two are the same. -/
def NewIDs (db : DB) : (c : Call) → Resp c → Prop
  | .uuidNew, ids => Function.Injective ids ∧ ∀ i, ids i ∉ db.events.keys ∧ ids i ∉ db.failed.keys
  | .timeNow, _ | .sql _, _ => True

/-- **Nothing fails**: a statement is refused only if it violates a constraint, and generated ids
are new. -/
def Unfailing : Handler Call Resp DB := fun c db db' r =>
  Answers (fun e => e.fault = none) c db db' r ∧ NewIDs db c r

/-- No other session holds the share token of the batch. -/
def TokenFree (req : IngestRequest) (db : DB) : Prop :=
  req.shareToken ≠ "" → ∀ r ∈ db.sessions.rows, r.shareToken = some req.shareToken →
    r.id = req.sessionID

theorem Unfailing.accepted {q : Stmt} {db' : DB} {r : Except String (Answer q)}
    (h : Unfailing (.sql q) db db' r) (hadm : q.Admits db) : ∃ a, r = .ok a := by
  obtain ⟨⟨e, he, hexec⟩, -⟩ := h
  obtain ⟨⟨db₁, a⟩, hrun⟩ := Stmt.run_ok_iff (e := e).mpr hadm
  rw [exec_sql_of_none he, hrun] at hexec
  exact ⟨a, (Prod.mk.inj hexec).2.symm⟩

/-- Infinitely many ids are new. -/
theorem exists_newIDs (db : DB) : ∃ ids, NewIDs db .uuidNew ids := by
  have hused := (db.events.keys ++ db.failed.keys).finite_toSet
  let f := hused.infinite_compl.natEmbedding
  refine ⟨fun i => f i, Subtype.val_injective.comp f.injective, fun i => ?_⟩
  have hnew : (f i : String) ∉ db.events.keys ++ db.failed.keys := (f i).2
  exact not_or.mp (mt List.mem_append.mpr hnew)

/-- Every call may be answered. -/
theorem exists_unfailing (c : Call) (db : DB) : ∃ db' r, Unfailing c db db' r := by
  cases c with
  | timeNow => exact ⟨db, 0, ⟨.quiet none 0 fun _ => "", rfl, rfl⟩, trivial⟩
  | uuidNew =>
    obtain ⟨ids, hids⟩ := exists_newIDs db
    exact ⟨db, ids, ⟨.quiet none 0 ids, rfl, rfl⟩, hids⟩
  | sql q => exact ⟨_, _, ⟨.quiet none 0 fun _ => "", rfl, rfl⟩, trivial⟩

section Unfailing

variable {req : IngestRequest} {now : Time} {db' : DB} {r : Except String Unit}

/-- A statement of `ingest` before the insertion of the events. -/
def Call.prepares (req : IngestRequest) : Call → Prop
  | .sql (.updateSession _) | .sql (.insertSession _) | .sql (.setClientMetadata _ _) => True
  | .sql (.setShareToken id token) =>
    id = req.sessionID ∧ token = req.shareToken ∧ req.shareToken ≠ ""
  | _ => False

theorem allCalls_prepare {A : (c : Call) → Resp c → Prop} :
    AllCalls A (Call.prepares req) (Service.prepare req now).run := by
  refine AllCalls.bind_except (AllCalls.adapt (AllCalls.bind_except (allCalls_sql trivial)
    fun affected => ?_) _) fun _ => AllCalls.bind_except ?_ fun _ => allCalls_storeClient
      fun _ => trivial
  · split_ifs
    · exact allCalls_sql trivial
    · exact allCalls_pure _
  · unfold Service.persistToken
    split_ifs with hs
    · exact (allCalls_sql ⟨rfl, rfl, hs⟩).adapt _
    · exact allCalls_pure _

/-- A statement before the insertion of the events gives a token to the session only. -/
theorem TokenFree.onSessions {q : Stmt} (h : TokenFree req db) (hq : (Call.sql q).prepares req)
    (hs : req.shareToken ≠ "") : ∀ x ∈ q.onSessions db.sessions.rows,
      x.shareToken = some req.shareToken → x.id = req.sessionID := by
  have hold := h hs
  -- an update keeps the id, and the token unless it sets the one of the session
  have hupdate : ∀ (id : String) (f : ReplaySession → ReplaySession),
      (∀ y, (f y).id = y.id ∧ ((f y).shareToken = y.shareToken ∨ id = req.sessionID)) →
      ∀ x ∈ updateRow id f db.sessions.rows, x.shareToken = some req.shareToken →
        x.id = req.sessionID := by
    intro id f hf x hx ht
    obtain ⟨y, hy, rfl⟩ := mem_updateRow hx
    split_ifs at ht ⊢ with hid
    · obtain ⟨hfid, hkeep | hsession⟩ := hf y
      · exact hfid.trans (hold y hy (hkeep ▸ ht))
      · exact hfid.trans (hid.trans hsession)
    · exact hold y hy ht
  cases q with
  | updateSession s => exact hupdate _ _ fun y => ⟨rfl, Or.inl rfl⟩
  | setClientMetadata id d => exact hupdate _ _ fun y => ⟨rfl, Or.inl rfl⟩
  | setShareToken id token => exact hupdate _ _ fun y => ⟨rfl, Or.inr hq.1⟩
  | insertSession s =>
    intro x hx ht
    simp only [Stmt.onSessions, upsertRow] at hx
    split_ifs at hx
    · exact hupdate s.id (overwrite s) (fun y => ⟨rfl, Or.inl rfl⟩) x hx ht
    · rcases List.mem_append.mp hx with hx | hx
      · exact hold x hx ht
      · rw [List.mem_singleton.mp hx] at ht
        cases ht
  | _ => cases hq

/-- The statements before the insertion of the events are accepted. -/
theorem TokenFree.healthy (hfree : TokenFree req db) {c : Call} {r : Resp c}
    (hc : c.prepares req) (h : Unfailing c db db' r) : Healthy c db db' r ∧ TokenFree req db' := by
  cases c with
  | timeNow | uuidNew => cases hc
  | sql q =>
    have hadm : q.Admits db := by
      cases q with
      | setShareToken id token =>
        obtain ⟨rfl, rfl, hs⟩ := hc
        refine Or.inl (List.any_eq_false.mpr fun r hr => ?_)
        simp only [ne_eq, decide_not, Bool.and_eq_true, Bool.not_eq_true', decide_eq_false_iff_not,
          decide_eq_true_eq, not_and]
        exact fun hne ht => hne (hfree hs r hr ht)
      | updateSession | insertSession | setClientMetadata => trivial
      | _ => cases hc
    obtain ⟨a, rfl⟩ := h.accepted hadm
    obtain ⟨e, -, hrun⟩ := h.1.accepted
    refine ⟨⟨h.1.mono fun _ _ => trivial, a, rfl⟩, fun hs => ?_⟩
    rw [(Stmt.run_rows hrun).1]
    exact hfree.onSessions hc hs

/-- The rows of a batch have different ids, if the generated ones are different. -/
theorem nodup_eventsOf {ids : ℕ → String} (hids : NewIDs db .uuidNew ids) :
    ((db.events.rows ++ Service.eventsOf req now ids).map ReplayEvent.id).Nodup := by
  have hmap : (Service.eventsOf req now ids).map ReplayEvent.id =
      List.ofFn fun i : Fin req.events.length => ids i := by
    rw [Service.eventsOf, List.mapIdx_eq_ofFn, List.map_ofFn]
    rfl
  rw [List.map_append, hmap]
  refine db.events.nodup.append ?_ fun id hold hnew => ?_
  · exact List.nodup_ofFn_ofInjective (hids.1.comp Fin.val_injective)
  · obtain ⟨i, rfl⟩ := (List.mem_ofFn' _ _).mp hnew
    exact (hids.2 i).1 hold

/-- If nothing fails, the session of a batch whose token is free is written. -/
theorem prepare_unfailing (h : Runs Unfailing (Service.prepare req now).run db db' r)
    (hfree : TokenFree req db) :
    r = .ok () ∧ Wrote db (preparedRow req now (db.sessions.find req.sessionID)) db' := by
  have hhealthy : Runs Healthy (Service.prepare req now).run db db' r :=
    h.mono_invariant (I := TokenFree req) allCalls_prepare
      (fun c db db' r hc hfree hr => hfree.healthy hc hr) hfree
  obtain ⟨a, rfl⟩ := neverFails_prepare (fun _ _ _ _ h => h.2) req now _ _ _ hhealthy
  obtain ⟨t, ht⟩ := runs_traced (hhealthy.mono fun _ _ _ _ h => h.1) []
  obtain ⟨u, -, -, ⟨_, hr, -⟩ | ⟨-, row, -, -, hw, ⟨_, hr⟩ | ⟨-, rfl⟩⟩⟩ := prepare_cases ht
  · cases hr
  · cases hr
  · exact ⟨rfl, hw⟩

/-- If nothing fails, the events of a session that is there are appended. -/
theorem append_unfailing (h : Runs Unfailing (Service.append req now).run db db' r)
    (hsession : req.sessionID ∈ db.sessions.keys) : ∃ a, r = .ok a := by
  rcases runs_bind_except.mp h with ⟨db₁, ids, h₁, h₂⟩ | ⟨msg, h₁, -⟩
  swap
  · obtain ⟨_, -, hr⟩ := runs_lift.mp h₁
    cases hr
  obtain ⟨_, hids, hr⟩ := runs_lift.mp h₁
  cases hr
  obtain ⟨hans, hnew⟩ := runs_perform.mp hids
  obtain ⟨hdb, -⟩ := answers_uuidNew.mp hans
  have hadm : (Stmt.insertEvents (Service.eventsOf req now ids)).Admits db₁ := by
    rw [hdb]
    refine ⟨fun ev hev => ?_, nodup_eventsOf hnew⟩
    rw [eventsOf_sessionID hev]
    exact hsession
  rcases runs_bind_except.mp h₂ with ⟨db₂, _, -, h₃⟩ | ⟨msg, h₃, -⟩
  · exact Unfailing.accepted (runs_perform.mp h₃) trivial
  · obtain ⟨r₀, h₄, hr⟩ := runs_adapt.mp h₃
    obtain ⟨a, rfl⟩ := Unfailing.accepted (runs_perform.mp h₄) hadm
    cases hr

/-- **If nothing fails, a batch whose token is free is stored.** -/
theorem ingest_unfailing (h : Runs Unfailing (Service.ingest req).run db db' r)
    (hfree : TokenFree req db) : r = .ok () ∧ ∃ now ids, Stored req now ids db db' := by
  have hanswers : Runs (Answers fun e => e.fault = none) (Service.ingest req).run db db' r :=
    h.mono fun _ _ _ _ h => h.1
  suffices hok : ∃ a, r = .ok a by
    obtain ⟨a, rfl⟩ := hok
    obtain ⟨e, ids, -, hst⟩ := ingest_stored hanswers
    exact ⟨rfl, e.now, ids, hst⟩
  rw [ingest_eq] at h
  rcases runs_bind_except.mp h with ⟨db₀, now, h₁, h₂⟩ | ⟨msg, h₁, -⟩
  swap
  · obtain ⟨_, -, hr⟩ := runs_lift.mp h₁
    cases hr
  obtain ⟨_, hnow, -⟩ := runs_lift.mp h₁
  obtain ⟨hdb, -⟩ := answers_timeNow.mp (runs_perform.mp hnow).1
  subst hdb
  rcases runs_bind_except.mp h₂ with ⟨db₁, _, h₃, h₄⟩ | ⟨msg, h₃, -⟩
  · obtain ⟨-, hw⟩ := prepare_unfailing h₃ hfree
    exact append_unfailing h₄ (Table.find_isSome.mp ((hw.find preparedRow_id) ▸ rfl))
  · cases (prepare_unfailing h₃ hfree).1

/-- **A token that another session holds makes every attempt fail**: no event is inserted, and the
other session keeps the token. -/
theorem ingest_unfailing_taken (h : Runs Unfailing (Service.ingest req).run db db' r)
    (htaken : ¬ TokenFree req db) : (∃ msg, r = .error msg) ∧ db'.events = db.events ∧
      db'.failed = db.failed ∧ ¬ TokenFree req db' := by
  simp only [TokenFree, not_forall] at htaken
  obtain ⟨hs, x, hx, ht, hne⟩ := htaken
  have hanswers : Runs (Answers fun e => e.fault = none) (Service.ingest req).run db db' r :=
    h.mono fun _ _ _ _ h => h.1
  obtain ⟨t, htraced⟩ := runs_traced hanswers []
  obtain ⟨e, u, -, -, -, hi⟩ := ingest_cases htraced
  -- the other session's row stays, so the token cannot be given to this one
  have hstay : ∀ row : ReplaySession, row.id = req.sessionID →
      db'.sessions = db.sessions.put row → x ∈ db'.sessions.rows := by
    intro row hrow hput
    rw [hput]
    exact Table.mem_put.mpr (Or.inr ⟨hx, fun he => hne (he.trans hrow)⟩)
  have hfalse : ∀ row : ReplaySession, row.id = req.sessionID →
      row.shareToken = some req.shareToken → db'.sessions ≠ db.sessions.put row := by
    intro row hrow htoken hput
    have hrow' : row ∈ db'.sessions.rows := hput ▸ Table.mem_put.mpr (Or.inl rfl)
    exact hne ((db'.token_unique x (hstay row hrow hput) row hrow' _ ht htoken).trans hrow)
  have htaken' : x ∈ db'.sessions.rows → ¬ TokenFree req db' := fun hmem hfree =>
    hne (hfree hs x hmem ht)
  cases hi with
  | refused msg hdb =>
    rw [hdb]
    exact ⟨⟨msg, rfl⟩, rfl, rfl, fun hfree => hne (hfree hs x hx ht)⟩
  | prepared msg row hrow _ hw =>
    exact ⟨⟨msg, rfl⟩, hw.events, hw.failed, htaken' (hstay row hrow.1 hw.sessions)⟩
  | uncounted msg ids hput =>
    exact absurd hput (hfalse _ preparedRow_id (preparedRow_shareToken hs))
  | stored ids hput =>
    exact absurd hput (hfalse _ preparedRow_id (preparedRow_shareToken hs))

end Unfailing

/-! ## Runs on samples -/

/-- `exec` as long as nothing is refused. -/
def execHealthy (e : Env) : (c : Call) → DB → Option (DB × Resp c)
  | .timeNow, db => some (exec e .timeNow db)
  | .uuidNew, db => some (exec e .uuidNew db)
  | .sql q, db =>
    match exec e (.sql q) db with
    | (db', .ok a) => some (db', .ok a)
    | (_, .error _) => none

theorem execHealthy_healthy {e : Env} {c : Call} {db db' : DB} {r : Resp c}
    (h : execHealthy e c db = some (db', r)) : Healthy c db db' r := by
  cases c with
  | timeNow | uuidNew => exact ⟨⟨e, trivial, Option.some.inj h⟩, trivial⟩
  | sql q =>
    rw [execHealthy] at h
    split at h
    next db₁ a hexec =>
      obtain ⟨rfl, rfl⟩ := Prod.mk.inj (Option.some.inj h)
      exact ⟨⟨e, trivial, hexec⟩, a, rfl⟩
    next => cases h

/-- The trace beside the database. -/
def execTraced (e : Env) (c : Call) (s : DB × Trace) : Option ((DB × Trace) × Resp c) :=
  (execHealthy e c s.1).map fun x => ((x.1, s.2 ++ [⟨c, x.2⟩]), x.2)

theorem execTraced_traced {e : Env} {c : Call} {s s' : DB × Trace} {r : Resp c}
    (h : execTraced e c s = some (s', r)) : Healthy.traced c s s' r := by
  obtain ⟨⟨db', r'⟩, hexec, he⟩ := Option.map_eq_some_iff.mp h
  obtain ⟨rfl, rfl⟩ := Prod.mk.inj he
  exact ⟨execHealthy_healthy hexec, rfl⟩

end BatRewind
