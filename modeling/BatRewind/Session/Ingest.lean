import BatRewind.Session.SessionRow

/-!
# Runs of `ingest`

`ingest` sends up to six statements without an enclosing transaction, so what it leaves behind
depends on the statement that was refused.

* `Ingested` lists what a run may leave behind; **`ingest_cases`** says that every run is one of
  these, and `ingest_healthy` that it is the last if every statement is accepted.
* `allCalls_ingest`: the statements write rows of the batch's session only.
-/

namespace BatRewind

open Encoding Tables Effects Effects.Prog

/-! ## What a run leaves behind -/

/-- Calls with their answers. -/
abbrev Trace := List (Σ c, Resp c)

/-- Some upsert of a session was accepted. -/
def upserted (t : Trace) : Bool :=
  t.any fun
    | ⟨.sql (.updateSession _), .ok affected⟩ => affected ≠ 0
    | ⟨.sql (.insertSession _), .ok _⟩ => true
    | _ => false

/-- Some `IncrementEventCount` was refused. -/
def uncounted (t : Trace) : Bool :=
  t.any fun
    | ⟨.sql (.incrementEventCount _ _), .error _⟩ => true
    | _ => false

@[simp] theorem upserted_append (t u : Trace) : upserted (t ++ u) = (upserted t || upserted u) :=
  List.any_append

@[simp] theorem uncounted_append (t u : Trace) :
    uncounted (t ++ u) = (uncounted t || uncounted u) := List.any_append

/-- One session row was written and nothing else. -/
structure Wrote (db : DB) (row : ReplaySession) (db' : DB) : Prop where
  sessions : db'.sessions = db.sessions.put row
  events : db'.events = db.events
  failed : db'.failed = db.failed

/-- **What a run of `ingest` leaves behind**, with the calls `u` it made and its result. -/
inductive Ingested (req : IngestRequest) (now : Time) (db db' : DB) (u : Trace) :
    Except String Unit → Prop
  /-- The upsert was refused. -/
  | refused (msg : String) (hdb : db' = db) (hu : upserted u = false) (hc : uncounted u = false) :
      Ingested req now db db' u (.error msg)
  /-- A statement between the upsert and the insertion of the events was refused, or that was. -/
  | prepared (msg : String) (row : ReplaySession)
      (hrow : Kept req (db.sessions.find req.sessionID) row) (hnow : row.startedAt = now)
      (hw : Wrote db row db') (hu : upserted u = true) (hc : uncounted u = false) :
      Ingested req now db db' u (.error msg)
  /-- The events were inserted and the increment of the count was refused. -/
  | uncounted (msg : String) (ids : ℕ → String)
      (hs : db'.sessions = db.sessions.put (preparedRow req now (db.sessions.find req.sessionID)))
      (he : db'.events.rows = db.events.rows ++ Service.eventsOf req now ids)
      (hf : db'.failed = db.failed) (hu : upserted u = true) (hc : uncounted u = true) :
      Ingested req now db db' u (.error msg)
  /-- Every statement was accepted. -/
  | stored (ids : ℕ → String)
      (hs : db'.sessions = db.sessions.put (storedRow req now (db.sessions.find req.sessionID)))
      (he : db'.events.rows = db.events.rows ++ Service.eventsOf req now ids)
      (hf : db'.failed = db.failed) (hu : upserted u = true) (hc : uncounted u = false) :
      Ingested req now db db' u (.ok ())

section Runs

variable {E : Env → Prop} {db db' : DB} {t t' : Trace}

theorem runs_sql {q : Stmt} {r : Except String (Answer q)} :
    Runs (Answers E).traced (sql q).run (db, t) (db', t') r ↔
      Answers E (.sql q) db db' r ∧ t' = t ++ [⟨.sql q, r⟩] := runs_perform

theorem runs_timeNow {r : Except String Time} :
    Runs (Answers E).traced timeNow.run (db, t) (db', t') r ↔
      ∃ now, Answers E .timeNow db db' now ∧ t' = t ++ [⟨.timeNow, now⟩] ∧ r = .ok now := by
  simp only [timeNow, runs_lift, runs_perform, Handler.traced, and_assoc]

theorem runs_uuidNew {r : Except String (ℕ → String)} :
    Runs (Answers E).traced uuidNew.run (db, t) (db', t') r ↔
      ∃ ids, Answers E .uuidNew db db' ids ∧ t' = t ++ [⟨.uuidNew, ids⟩] ∧ r = .ok ids := by
  simp only [uuidNew, runs_lift, runs_perform, Handler.traced, and_assoc]

/-- The calls `u` write one session row, or are refused and change nothing. -/
def WritesRow {α : Type} (row : ReplaySession) (db db' : DB) (u : Trace) (r : Except String α) :
    Prop :=
  upserted u = false ∧ BatRewind.uncounted u = false ∧
    ((∃ msg, r = .error msg ∧ db' = db) ∨ ((∃ a, r = .ok a) ∧ Wrote db row db'))

/-- A statement that updates one session row by `f` and does nothing else. -/
structure UpdatesRow (q : Stmt) (id : String) (f : ReplaySession → ReplaySession) : Prop where
  id_eq : ∀ x, (f x).id = x.id
  sessions : ∀ l, q.onSessions l = updateRow id f l
  events : ∀ l, q.onEvents l = l
  failed : ∀ now l, q.onFailed now l = l

theorem UpdatesRow.run {q : Stmt} {id : String} {f : ReplaySession → ReplaySession}
    (hq : UpdatesRow q id f) {e : Env} {a : Answer q} (hrun : q.run e db = .ok (db', a))
    {row : ReplaySession} (hrow : db.sessions.find id = some row) : Wrote db (f row) db' := by
  obtain ⟨h₁, h₂, h₃⟩ := Stmt.run_rows hrun
  refine ⟨?_, Table.ext (h₂.trans (hq.events _)), Table.ext (h₃.trans (hq.failed _ _))⟩
  rw [← Table.modify_eq_put hq.id_eq hrow]
  exact Table.ext (h₁.trans (hq.sessions _))

theorem updatesRow_setShareToken (id token : String) :
    UpdatesRow (.setShareToken id token) id fun r => { r with shareToken := some token } :=
  ⟨fun _ => rfl, fun _ => rfl, fun _ => rfl, fun _ _ => rfl⟩

theorem updatesRow_setClientMetadata (id : String) (d : DeviceColumns) :
    UpdatesRow (.setClientMetadata id d) id fun r => { r with device := d } :=
  ⟨fun _ => rfl, fun _ => rfl, fun _ => rfl, fun _ _ => rfl⟩

theorem updatesRow_incrementEventCount (id : String) (delta : ℕ) :
    UpdatesRow (.incrementEventCount id delta) id
      fun r => { r with eventCount := r.eventCount + delta } :=
  ⟨fun _ => rfl, fun _ => rfl, fun _ => rfl, fun _ _ => rfl⟩

theorem UpdatesRow.writesRow {q : Stmt} {id : String} {f : ReplaySession → ReplaySession}
    (hq : UpdatesRow q id f)
    (hu : ∀ r, upserted [⟨.sql q, r⟩] = false ∧ BatRewind.uncounted [⟨.sql q, r⟩] = false)
    {row : ReplaySession} (hrow : db.sessions.find id = some row) {text : String}
    {r : Except String (Answer q)}
    (h : Runs (Answers E).traced (wrap text (sql q)).run (db, t) (db', t') r) :
    ∃ u, t' = t ++ u ∧ WritesRow (f row) db db' u r := by
  obtain ⟨r₀, h₀, rfl⟩ := runs_adapt.mp h
  obtain ⟨ha, rfl⟩ := runs_sql.mp h₀
  refine ⟨_, rfl, (hu r₀).1, (hu r₀).2, ?_⟩
  cases r₀ with
  | error msg => exact Or.inl ⟨_, rfl, ha.refused⟩
  | ok a =>
    obtain ⟨e, -, hrun⟩ := ha.accepted
    exact Or.inr ⟨⟨a, rfl⟩, hq.run hrun hrow⟩

theorem writesRow_pure {r : Except String Unit} {row : ReplaySession} {id : String}
    (hrow : db.sessions.find id = some row)
    (h : Runs (Answers E).traced (pure () : Svc Unit).run (db, t) (db', t') r) :
    ∃ u, t' = t ++ u ∧ WritesRow row db db' u r := by
  obtain ⟨hend, rfl⟩ := h
  obtain ⟨rfl, rfl⟩ := Prod.mk.inj hend
  exact ⟨[], (List.append_nil _).symm, rfl, rfl,
    Or.inr ⟨⟨(), rfl⟩, (Table.put_self hrow).symm, rfl, rfl⟩⟩

theorem persistToken_cases {req : IngestRequest} {r : Except String Unit} {row : ReplaySession}
    (hrow : db.sessions.find req.sessionID = some row)
    (h : Runs (Answers E).traced (Service.persistToken req).run (db, t) (db', t') r) :
    ∃ u, t' = t ++ u ∧ WritesRow (tokenRow req row) db db' u r := by
  unfold Service.persistToken at h
  unfold tokenRow
  split_ifs at h ⊢ with hs
  · exact (updatesRow_setShareToken _ _).writesRow (fun _ => ⟨rfl, rfl⟩) hrow h
  · exact writesRow_pure hrow h

theorem storeClient_cases {req : IngestRequest} {r : Except String Unit} {row : ReplaySession}
    (hrow : db.sessions.find req.sessionID = some row)
    (h : Runs (Answers E).traced (Service.storeClient req).run (db, t) (db', t') r) :
    ∃ u, t' = t ++ u ∧ WritesRow (clientRow req row) db db' u r := by
  unfold Service.storeClient at h
  unfold clientRow
  cases hc : req.client with
  | some c =>
    rw [hc] at h
    exact (updatesRow_setClientMetadata _ _).writesRow (fun _ => ⟨rfl, rfl⟩) hrow h
  | none =>
    rw [hc] at h
    exact writesRow_pure hrow h

theorem find_put_id {t : Table ReplaySession.id} {row : ReplaySession} {id : String}
    (h : row.id = id) : (t.put row).find id = some row := by
  rw [← h]
  exact Table.find_put t row

theorem Wrote.find {row : ReplaySession} {id : String} (h : Wrote db row db') (hid : row.id = id) :
    db'.sessions.find id = some row := by
  rw [h.sessions]
  exact find_put_id hid

theorem Wrote.trans {db₁ : DB} {row row' : ReplaySession} (h : Wrote db row db₁)
    (h' : Wrote db₁ row' db') (hid : row.id = row'.id) : Wrote db row' db' where
  sessions := by rw [h'.sessions, h.sessions, Table.put_put _ hid]
  events := h'.events.trans h.events
  failed := h'.failed.trans h.failed

theorem upsertSession_cases {s : ReplaySession} {r : Except String Unit}
    (h : Runs (Answers E).traced (Repository.upsertSession s).run (db, t) (db', t') r) :
    ∃ u, t' = t ++ u ∧ BatRewind.uncounted u = false ∧
      ((∃ msg, r = .error msg ∧ db' = db ∧ upserted u = false) ∨
        (r = .ok () ∧ upserted u = true ∧
          Wrote db (saveRow s (db.sessions.find s.id)) db')) := by
  rcases runs_bind_except.mp h with ⟨⟨db₁, t₁⟩, affected, h₁, h₂⟩ | ⟨msg, h₁, rfl⟩
  · obtain ⟨ha, rfl⟩ := runs_sql.mp h₁
    obtain ⟨e, -, hrun⟩ := ha.accepted
    obtain ⟨rfl, hzero⟩ := Stmt.run_updateSession hrun
    split_ifs at h₂ with h₀
    · -- no row: `Save` goes on with an `INSERT`
      have hnone := hzero.mp h₀
      obtain ⟨ha', rfl⟩ := runs_sql.mp h₂
      rw [DB.updateSession_of_none hnone] at ha'
      refine ⟨_, List.append_assoc _ _ _, rfl, ?_⟩
      cases r with
      | error msg => exact Or.inl ⟨msg, rfl, ha'.refused, by simp [upserted, h₀]⟩
      | ok a =>
        obtain ⟨e', -, hrun'⟩ := ha'.accepted
        cases hrun'
        obtain ⟨-, he, hf⟩ := db.insertSession_rows s
        refine Or.inr ⟨rfl, by simp [upserted], ?_⟩
        rw [hnone]
        exact ⟨DB.insertSession_of_none hnone, he, hf⟩
    · obtain ⟨hend, rfl⟩ := h₂
      obtain ⟨rfl, rfl⟩ := Prod.mk.inj hend
      obtain ⟨row, hrow⟩ := Option.ne_none_iff_exists'.mp (mt hzero.mpr h₀)
      refine ⟨_, rfl, rfl, Or.inr ⟨rfl, by simp [upserted, h₀], ?_⟩⟩
      rw [hrow]
      exact ⟨DB.updateSession_of_some hrow, rfl, rfl⟩
  · obtain ⟨ha, rfl⟩ := runs_sql.mp h₁
    exact ⟨_, rfl, rfl, Or.inl ⟨msg, rfl, ha.refused, rfl⟩⟩

/-- The statements of `ingest` up to the insertion of the events. -/
def Service.prepare (req : IngestRequest) (now : Time) : Svc Unit := do
  wrap "upsert session: " (Repository.upsertSession (sessionOf req now))
  persistToken req
  storeClient req

/-- The insertion of the events, and their count. -/
def Service.append (req : IngestRequest) (now : Time) : Svc Unit := do
  let ids ← uuidNew
  wrap "insert events: " (Repository.insertEvents (eventsOf req now ids))
  Repository.incrementEventCount req.sessionID (eventsOf req now ids).length

theorem ingest_eq (req : IngestRequest) : Service.ingest req =
    timeNow >>= fun now => Service.prepare req now >>= fun _ => Service.append req now := by
  simp only [Service.ingest, Service.prepare, Service.append, LawfulMonad.bind_assoc]

theorem prepare_cases {req : IngestRequest} {now : Time} {r : Except String Unit}
    (h : Runs (Answers E).traced (Service.prepare req now).run (db, t) (db', t') r) :
    ∃ u, t' = t ++ u ∧ BatRewind.uncounted u = false ∧
      ((∃ msg, r = .error msg ∧ db' = db ∧ upserted u = false) ∨
        (upserted u = true ∧
          ∃ row, Kept req (db.sessions.find req.sessionID) row ∧ row.startedAt = now ∧
            Wrote db row db' ∧ ((∃ msg, r = .error msg) ∨
              (r = .ok () ∧ row = preparedRow req now (db.sessions.find req.sessionID))))) := by
  have hkept := kept_saveRow now (find_id db req.sessionID)
  rcases runs_bind_except.mp h with ⟨⟨db₁, t₁⟩, _, h₁, h⟩ | ⟨msg, h₁, rfl⟩
  swap
  · obtain ⟨r₀, h₀, hr⟩ := runs_adapt.mp h₁
    obtain ⟨u, rfl, hc, hup⟩ := upsertSession_cases h₀
    rcases hup with ⟨_, rfl, hdb, hu⟩ | ⟨rfl, -⟩
    · exact ⟨u, rfl, hc, Or.inl ⟨msg, rfl, hdb, hu⟩⟩
    · cases hr
  obtain ⟨r₀, h₀, hr⟩ := runs_adapt.mp h₁
  obtain ⟨u, rfl, hc, hup⟩ := upsertSession_cases h₀
  rcases hup with ⟨_, rfl, -⟩ | ⟨-, hu, hw⟩
  · cases hr
  have hnow : (saveRow (Service.sessionOf req now) (db.sessions.find req.sessionID)).startedAt =
    now := saveRow_startedAt _
  rcases runs_bind_except.mp h with ⟨⟨db₂, t₂⟩, _, h₂, h⟩ | ⟨msg, h₂, rfl⟩
  swap
  · obtain ⟨u₂, rfl, hu₂, hc₂, ⟨_, -, rfl⟩ | ⟨⟨_, hr⟩, -⟩⟩ := persistToken_cases (hw.find hkept.1) h₂
    · exact ⟨u ++ u₂, List.append_assoc _ _ _, by simp [hc, hc₂],
        Or.inr ⟨by simp [hu], _, hkept, hnow, hw, Or.inl ⟨msg, rfl⟩⟩⟩
    · cases hr
  obtain ⟨u₂, rfl, hu₂, hc₂, ⟨_, hr, -⟩ | ⟨-, hw₂⟩⟩ := persistToken_cases (hw.find hkept.1) h₂
  · cases hr
  have hw₂ := hw.trans hw₂ (tokenRow_id _).symm
  obtain ⟨u₃, rfl, hu₃, hc₃, ⟨msg, rfl, rfl⟩ | ⟨⟨_, rfl⟩, hw₃⟩⟩ :=
    storeClient_cases (hw₂.find hkept.tokenRow.1) h
  · exact ⟨u ++ u₂ ++ u₃, by simp [List.append_assoc], by simp [hc, hc₂, hc₃],
      Or.inr ⟨by simp [hu], _, hkept.tokenRow, (tokenRow_startedAt _).trans hnow, hw₂,
        Or.inl ⟨msg, rfl⟩⟩⟩
  · exact ⟨u ++ u₂ ++ u₃, by simp [List.append_assoc], by simp [hc, hc₂, hc₃],
      Or.inr ⟨by simp [hu], _, hkept.tokenRow.clientRow,
        (clientRow_startedAt _).trans ((tokenRow_startedAt _).trans hnow),
        hw₂.trans hw₃ (clientRow_id _).symm, Or.inr ⟨rfl, rfl⟩⟩⟩

/-- The insertion of the events fails, or the count of them, or neither. -/
theorem append_cases {req : IngestRequest} {now : Time} {r : Except String Unit}
    {row : ReplaySession} (hrow : db.sessions.find req.sessionID = some row)
    (h : Runs (Answers E).traced (Service.append req now).run (db, t) (db', t') r) :
    ∃ u, t' = t ++ u ∧ upserted u = false ∧
      ((∃ msg, r = .error msg ∧ db' = db ∧ BatRewind.uncounted u = false) ∨
        (∃ ids, db'.events.rows = db.events.rows ++ Service.eventsOf req now ids ∧
          db'.failed = db.failed ∧
          ((∃ msg, r = .error msg ∧ db'.sessions = db.sessions ∧ BatRewind.uncounted u = true) ∨
            (r = .ok () ∧ BatRewind.uncounted u = false ∧ db'.sessions =
              db.sessions.put { row with eventCount := row.eventCount + req.events.length })))) := by
  rcases runs_bind_except.mp h with ⟨⟨db₁, t₁⟩, ids, h₁, k₁⟩ | ⟨msg, h₁, rfl⟩
  swap
  · obtain ⟨_, -, -, hr⟩ := runs_uuidNew.mp h₁
    cases hr
  obtain ⟨_, hids, rfl, hr⟩ := runs_uuidNew.mp h₁
  cases hr
  obtain ⟨rfl, -⟩ := answers_uuidNew.mp hids
  rcases runs_bind_except.mp k₁ with ⟨⟨db₂, t₂⟩, _, h₂, k₂⟩ | ⟨msg, h₂, rfl⟩
  swap
  · obtain ⟨r₀, h₀, hr⟩ := runs_adapt.mp h₂
    obtain ⟨ha, rfl⟩ := runs_sql.mp h₀
    cases r₀ with
    | ok a => cases hr
    | error msg₀ =>
      exact ⟨_, List.append_assoc _ _ _, rfl, Or.inl ⟨msg, rfl, ha.refused, rfl⟩⟩
  obtain ⟨r₀, h₀, hr⟩ := runs_adapt.mp h₂
  obtain ⟨ha, rfl⟩ := runs_sql.mp h₀
  cases r₀ with
  | error msg₀ => cases hr
  | ok a =>
    obtain ⟨e, -, hrun⟩ := ha.accepted
    obtain ⟨hs, he, hf⟩ := Stmt.run_rows hrun
    obtain ⟨ha', rfl⟩ := runs_sql.mp k₂
    cases r with
    | error msg =>
      refine ⟨_, by rw [List.append_assoc, List.append_assoc], rfl, Or.inr ⟨ids, ?_⟩⟩
      rw [ha'.refused]
      exact ⟨he, Table.ext hf, Or.inl ⟨msg, rfl, Table.ext hs, rfl⟩⟩
    | ok a' =>
      obtain ⟨e', -, hrun'⟩ := ha'.accepted
      rw [← show db₂.sessions = db₁.sessions from Table.ext hs] at hrow ⊢
      obtain ⟨hs', he', hf'⟩ := (updatesRow_incrementEventCount _ _).run hrun' hrow
      refine ⟨_, by rw [List.append_assoc, List.append_assoc], rfl,
        Or.inr ⟨ids, ?_, ?_, Or.inr ⟨rfl, rfl, ?_⟩⟩⟩
      · rw [he']
        exact he
      · exact hf'.trans (Table.ext hf)
      · rw [hs', Service.eventsOf, List.length_mapIdx]

/-- **Every run of `ingest` is one of the four cases.** -/
theorem ingest_cases {req : IngestRequest} {r : Except String Unit}
    (h : Runs (Answers E).traced (Service.ingest req).run (db, t) (db', t') r) :
    ∃ e u, E e ∧ t' = t ++ u ∧ ⟨.timeNow, e.now⟩ ∈ u ∧ Ingested req e.now db db' u r := by
  rw [ingest_eq] at h
  rcases runs_bind_except.mp h with ⟨⟨db₁, t₁⟩, now, h₁, k₁⟩ | ⟨msg, h₁, rfl⟩
  swap
  · obtain ⟨now, -, -, hr⟩ := runs_timeNow.mp h₁
    cases hr
  obtain ⟨now', hnow, rfl, hr⟩ := runs_timeNow.mp h₁
  cases hr
  obtain ⟨rfl, e, hE, rfl⟩ := answers_timeNow.mp hnow
  refine ⟨e, ?_⟩
  rcases runs_bind_except.mp k₁ with ⟨⟨db₂, t₂⟩, _, h₂, k₂⟩ | ⟨msg, h₂, rfl⟩
  swap
  · obtain ⟨u, rfl, hc, ⟨_, -, hdb, hu⟩ | ⟨hu, row, hkept, hstart, hw, -⟩⟩ := prepare_cases h₂
    · exact ⟨_, hE, List.append_assoc _ _ _, List.mem_cons_self, .refused msg hdb hu hc⟩
    · exact ⟨_, hE, List.append_assoc _ _ _, List.mem_cons_self,
        .prepared msg row hkept hstart hw hu hc⟩
  obtain ⟨u, rfl, hc, ⟨_, hr, -⟩ | ⟨hu, row, hkept, hstart, hw, ⟨_, hr⟩ | ⟨-, hrow⟩⟩⟩ :=
    prepare_cases h₂
  · cases hr
  · cases hr
  obtain ⟨u', rfl, -, hend⟩ := append_cases (hw.find hkept.1) k₂
  have hu' : upserted ([⟨.timeNow, e.now⟩] ++ u ++ u') = true := by
    rw [upserted_append, upserted_append, hu, Bool.or_true, Bool.true_or]
  have hcu : BatRewind.uncounted ([⟨.timeNow, e.now⟩] ++ u ++ u') = BatRewind.uncounted u' := by
    rw [uncounted_append, uncounted_append, hc]
    rfl
  refine ⟨[⟨.timeNow, e.now⟩] ++ u ++ u', hE, by simp only [List.append_assoc],
    List.mem_cons_self, ?_⟩
  rcases hend with ⟨msg, rfl, rfl, hc'⟩ | ⟨ids, he, hf, ⟨msg, rfl, hs, hc'⟩ | ⟨rfl, hc', hs⟩⟩
  · exact .prepared msg row hkept hstart hw hu' (hcu.trans hc')
  · subst hrow
    exact .uncounted msg ids (hs.trans hw.sessions) (hw.events ▸ he) (hf.trans hw.failed) hu'
      (hcu.trans hc')
  · subst hrow
    refine .stored ids ?_ (hw.events ▸ he) (hf.trans hw.failed) hu' (hcu.trans hc')
    rw [hs, hw.sessions, preparedRow_eventCount, Nat.zero_add]
    exact Table.put_put db₁.sessions rfl

end Runs

/-! ## The calls of the service -/

/-- The call writes rows of session `id` only, and only as `ingest` does. -/
def Call.ofSession (id : String) : Call → Prop
  | .timeNow | .uuidNew => True
  | .sql (.updateSession s) | .sql (.insertSession s) => s.id = id
  | .sql (.setShareToken i _) | .sql (.setClientMetadata i _) | .sql (.incrementEventCount i _) =>
    i = id
  | .sql (.insertEvents es) => ∀ ev ∈ es, ev.sessionID = id
  | _ => False

/-- The calls of the service that have nothing to do with batches. -/
def Call.upkeep : Call → Prop
  | .timeNow | .uuidNew => True
  | .sql (.selectSession _) | .sql (.updateSessionEnd _ _ _) | .sql (.setShareToken _ _) => True
  | .sql (.deleteSession _) | .sql (.pluckStartedBefore _) | .sql (.purgeSessions _) => True
  | _ => False

section AllCalls

variable {A : (c : Call) → Resp c → Prop} {P : Call → Prop}

theorem allCalls_sql {q : Stmt} (h : P (.sql q)) : AllCalls A P (sql q).run := allCalls_perform h

theorem allCalls_persistToken {req : IngestRequest}
    (h : ∀ token, P (.sql (.setShareToken req.sessionID token))) :
    AllCalls A P (Service.persistToken req).run := by
  unfold Service.persistToken
  split_ifs
  · exact (allCalls_sql (h _)).adapt _
  · exact allCalls_pure _

theorem allCalls_storeClient {req : IngestRequest}
    (h : ∀ d, P (.sql (.setClientMetadata req.sessionID d))) :
    AllCalls A P (Service.storeClient req).run := by
  unfold Service.storeClient
  split
  · exact (allCalls_sql (h _)).adapt _
  · exact allCalls_pure _

theorem allCalls_append {req : IngestRequest} {now : Time} (hid : P .uuidNew)
    (he : ∀ ids, P (.sql (.insertEvents (Service.eventsOf req now ids))))
    (hc : ∀ n, P (.sql (.incrementEventCount req.sessionID n))) :
    AllCalls A P (Service.append req now).run :=
  (AllCalls.lift (allCalls_perform hid)).bind_except fun ids =>
    ((allCalls_sql (he ids)).adapt _).bind_except fun _ => allCalls_sql (hc _)

theorem allCalls_ingest (req : IngestRequest) :
    AllCalls A (Call.ofSession req.sessionID) (Service.ingest req).run := by
  rw [ingest_eq]
  refine (AllCalls.lift (allCalls_perform trivial)).bind_except fun now => ?_
  refine AllCalls.bind_except (AllCalls.bind_except (AllCalls.adapt ?_ _) fun _ =>
    (allCalls_persistToken fun _ => rfl).bind_except fun _ => allCalls_storeClient fun _ => rfl)
    fun _ => allCalls_append trivial (fun _ _ => eventsOf_sessionID) fun _ => rfl
  refine AllCalls.bind_except (allCalls_sql rfl) fun affected => ?_
  split_ifs
  · exact allCalls_sql rfl
  · exact allCalls_pure _

theorem allCalls_finalizeSession (sessionID : String) :
    AllCalls A Call.upkeep (Service.finalizeSession sessionID).run :=
  (allCalls_sql trivial).bind_except fun _ =>
    (allCalls_perform trivial).lift.bind_except fun _ => allCalls_sql trivial

theorem allCalls_createShareToken (id : String) :
    AllCalls A Call.upkeep (Service.createShareToken id).run := by
  have hnew : AllCalls A Call.upkeep (do
      let ids ← uuidNew
      wrap "set share token: " (Repository.setShareToken id (ids 0))
      return ids 0 : Svc String).run :=
    (allCalls_perform trivial).lift.bind_except fun _ =>
      ((allCalls_sql trivial).adapt _).bind_except fun _ => allCalls_pure _
  refine ((allCalls_sql trivial).adapt _).bind_except fun sess => ?_
  split
  · split_ifs
    · exact allCalls_pure _
    · exact hnew
  · exact hnew

theorem allCalls_purgeOlderThan (retention : ℤ) :
    AllCalls A Call.upkeep (Service.purgeOlderThan retention).run := by
  unfold Service.purgeOlderThan
  split_ifs
  · exact allCalls_pure _
  refine (allCalls_perform trivial).lift.bind_except fun now =>
    (allCalls_sql trivial).bind_except fun ids => ?_
  split_ifs
  · exact allCalls_pure _
  · exact (allCalls_sql trivial).bind_except fun _ => allCalls_pure _

end AllCalls

/-! ## When every statement is accepted -/

section NeverFails

/-- The method returns no error. -/
def NeverFails {α : Type} (T : Handler Call Resp DB) (x : Svc α) : Prop :=
  ∀ db db' r, Runs T x.run db db' r → ∃ a, r = .ok a

variable {T : Handler Call Resp DB} {α β : Type}

theorem neverFails_pure (a : α) : NeverFails T (pure a : Svc α) := by
  rintro db db' r ⟨-, rfl⟩
  exact ⟨a, rfl⟩

theorem NeverFails.bind {x : Svc α} {f : α → Svc β} (hx : NeverFails T x)
    (hf : ∀ a, NeverFails T (f a)) : NeverFails T (x >>= f) := by
  intro db db' r h
  rcases runs_bind_except.mp h with ⟨db₁, a, -, h₂⟩ | ⟨msg, h₁, rfl⟩
  · exact hf a db₁ db' r h₂
  · obtain ⟨a, ha⟩ := hx _ _ _ h₁
    cases ha

theorem NeverFails.wrap {x : Svc α} (hx : NeverFails T x) (text : String) :
    NeverFails T (wrap text x) := by
  intro db db' r h
  obtain ⟨r₀, h₀, rfl⟩ := runs_adapt.mp h
  obtain ⟨a, rfl⟩ := hx _ _ _ h₀
  exact ⟨a, rfl⟩

theorem neverFails_lift (p : Prog Call Resp α) : NeverFails T (ExceptT.lift p : Svc α) := by
  intro db db' r h
  obtain ⟨a, -, rfl⟩ := runs_lift.mp h
  exact ⟨a, rfl⟩

variable (hT : ∀ c db db' r, T c db db' r → Accepted c r)
include hT

theorem neverFails_sql (q : Stmt) : NeverFails T (sql q) :=
  fun db db' r h => hT (.sql q) db db' r (runs_perform.mp h)

theorem neverFails_upsertSession (s : ReplaySession) :
    NeverFails T (Repository.upsertSession s) := by
  refine (neverFails_sql hT _).bind fun affected => ?_
  split_ifs
  · exact neverFails_sql hT _
  · exact neverFails_pure ()

theorem neverFails_prepare (req : IngestRequest) (now : Time) :
    NeverFails T (Service.prepare req now) := by
  have htoken : NeverFails T (Service.persistToken req) := by
    unfold Service.persistToken
    split_ifs
    · exact (neverFails_sql hT _).wrap _
    · exact neverFails_pure ()
  have hclient : NeverFails T (Service.storeClient req) := by
    unfold Service.storeClient
    split
    · exact (neverFails_sql hT _).wrap _
    · exact neverFails_pure ()
  exact ((neverFails_upsertSession hT _).wrap _).bind fun _ => htoken.bind fun _ => hclient

theorem neverFails_ingest (req : IngestRequest) : NeverFails T (Service.ingest req) := by
  rw [ingest_eq]
  refine (neverFails_lift _).bind fun now => (neverFails_prepare hT req now).bind fun _ => ?_
  exact (neverFails_lift _).bind fun ids =>
    ((neverFails_sql hT _).wrap _).bind fun _ => neverFails_sql hT _

end NeverFails

/-- The tables after a batch whose statements were all accepted. -/
structure Stored (req : IngestRequest) (now : Time) (ids : ℕ → String) (db db' : DB) : Prop where
  sessions : db'.sessions = db.sessions.put (storedRow req now (db.sessions.find req.sessionID))
  events : db'.events.rows = db.events.rows ++ Service.eventsOf req now ids
  failed : db'.failed = db.failed

section Stored

variable {req : IngestRequest} {now : Time} {ids : ℕ → String} {db db' : DB}

/-- The rows of a batch hold its events. -/
theorem map_raw_eventsOf (req : IngestRequest) (now : Time) (ids : ℕ → String) :
    (Service.eventsOf req now ids).map ReplayEvent.raw = req.events := by
  refine List.ext_getElem? fun i => ?_
  simp only [Service.eventsOf, List.getElem?_map, List.getElem?_mapIdx, Option.map_map]
  cases req.events[i]? <;> rfl

theorem length_eventsOf : (Service.eventsOf req now ids).length = req.events.length :=
  List.length_mapIdx

theorem Stored.mem_keys (h : Stored req now ids db db') : req.sessionID ∈ db'.sessions.keys := by
  rw [h.sessions]
  exact Table.mem_keys_put.mpr (Or.inl (kept_preparedRow db).1.symm)

theorem Stored.eventsOf_self (h : Stored req now ids db db') :
    db'.eventsOf req.sessionID = db.eventsOf req.sessionID ++ Service.eventsOf req now ids := by
  unfold DB.eventsOf
  rw [h.events, List.filter_append]
  congr 1
  exact List.filter_eq_self.mpr fun ev hev => by simp [eventsOf_sessionID hev]

theorem Stored.eventsOf_other (h : Stored req now ids db db') {id : String}
    (hid : id ≠ req.sessionID) : db'.eventsOf id = db.eventsOf id := by
  unfold DB.eventsOf
  rw [h.events, List.filter_append]
  have hnil : ((Service.eventsOf req now ids).filter fun ev => ev.sessionID = id) = [] :=
    List.filter_eq_nil_iff.mpr fun ev hev => by simp [eventsOf_sessionID hev, Ne.symm hid]
  rw [hnil, List.append_nil]

end Stored

theorem ingest_stored {E : Env → Prop} {db db' : DB} {req : IngestRequest}
    (h : Runs (Answers E) (Service.ingest req).run db db' (.ok ())) :
    ∃ e ids, E e ∧ Stored req e.now ids db db' := by
  obtain ⟨t', ht⟩ := runs_traced h []
  obtain ⟨e, u, hE, -, -, hi⟩ := ingest_cases ht
  cases hi with
  | stored ids hs he hf => exact ⟨e, ids, hE, hs, he, hf⟩

/-- **A batch whose statements are all accepted is stored.** -/
theorem ingest_healthyAt {now : Time} {db db' : DB} {req : IngestRequest} {r : Except String Unit}
    (h : Runs (HealthyAt now) (Service.ingest req).run db db' r) :
    r = .ok () ∧ ∃ ids, Stored req now ids db db' := by
  obtain ⟨a, rfl⟩ := neverFails_ingest (fun _ _ _ _ h => h.2) req _ _ _ h
  obtain ⟨e, ids, rfl, hst⟩ := ingest_stored (h.mono fun _ _ _ _ h => h.1)
  exact ⟨rfl, ids, hst⟩

theorem ingest_healthy {db db' : DB} {req : IngestRequest} {r : Except String Unit}
    (h : Runs Healthy (Service.ingest req).run db db' r) :
    r = .ok () ∧ ∃ now ids, Stored req now ids db db' := by
  obtain ⟨a, rfl⟩ := neverFails_ingest (fun _ _ _ _ h => h.2) req _ _ _ h
  obtain ⟨e, ids, -, hst⟩ := ingest_stored (h.mono fun _ _ _ _ h => h.1)
  exact ⟨rfl, e.now, ids, hst⟩

end BatRewind
