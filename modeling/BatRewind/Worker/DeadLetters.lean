import BatRewind.Session.Retries
import BatRewind.Worker.Process

/-!
# Dead letters

A batch whose four attempts fail is saved to `failed_ingest` and ingested later by `RetryFailed`:
it goes through one more encoding and decoding than a batch that is ingested directly.

* `Refusing`: every attempt fails at its first repository call, and the batch can be saved.
* `SameTables`: equal sessions and events; `Saved.leaves_iff`: what a retry of the saved row can
  leave in these tables is what a direct `Ingest` can leave.
* `Marked moved db db'`: exactly the dead letters `moved` were marked as resolved.
* **`dead_letter_agrees`**: both, for every message of the queue and every run of
  `RetryAllFailed`.
-/

namespace BatRewind

open Encoding Tables Effects Effects.Prog Worker

/-! ## The batch is saved -/

section Saving

/-- **Every attempt fails at its first repository call**, the upsert of the session, without
changing anything, and `SaveFailed` succeeds. -/
def Refusing : Handler WorkerCall WorkerResp DB
  | .svc (.sql (.updateSession s)), db, db', r =>
    AnyAnswer (.sql (.updateSession s)) db db' r ∧ ∀ affected, r = .ok affected → affected = 0
  | .svc (.sql (.insertSession s)), db, db', r =>
    AnyAnswer (.sql (.insertSession s)) db db' r ∧ ∃ msg, r = .error msg
  | .svc (.sql (.insertFailed f)), db, db', r => Healthy (.sql (.insertFailed f)) db db' r
  | .svc c, db, db', r => AnyAnswer c db db' r
  | .ack _, db, db', _ | .slog _, db, db', _ | .sleep _, db, db', _ => db' = db

/-- The batch was saved as the dead letter `f`, and nothing else was changed. -/
structure Saved (req : IngestRequest) (db db' : DB) (f : FailedIngest) : Prop where
  sessions : db'.sessions = db.sessions
  events : db'.events = db.events
  failed : db'.failed.rows = db.failed.rows ++ [f]
  payload : f.payload = encode req
  unresolved : f.resolved = false

variable {req : IngestRequest} {db db' : DB} {workerID : ℕ} {msgID : String}

theorem refusing_upsertSession {row : ReplaySession} {r : Except String Unit}
    (h : Runs (fun c => Refusing (.svc c)) (Repository.upsertSession row).run db db' r) :
    db' = db ∧ ∃ msg, r = .error msg := by
  rcases runs_bind_except.mp h with ⟨db₁, affected, h₁, h₂⟩ | ⟨msg, h₁, rfl⟩
  · obtain ⟨hany, hzero⟩ := runs_perform.mp h₁
    obtain ⟨e, -, hrun⟩ := Answers.accepted hany
    obtain ⟨rfl, hnone⟩ := Stmt.run_updateSession hrun
    have h0 := hzero affected rfl
    rw [if_pos h0] at h₂
    obtain ⟨hany₂, msg, rfl⟩ := runs_perform.mp h₂
    refine ⟨?_, msg, rfl⟩
    rw [Answers.refused hany₂, DB.updateSession_of_none (hnone.mp h0)]
  · exact ⟨Answers.refused (runs_perform.mp h₁).1, msg, rfl⟩

/-- Every attempt fails and changes nothing. -/
theorem refusing_ingest {r : Except String Unit}
    (h : Runs Refusing (svc (Service.ingest req)) db db' r) : db' = db ∧ ∃ msg, r = .error msg := by
  have h := runs_hoist.mp h
  rcases runs_bind_except.mp h with ⟨db₁, now, h₁, h₂⟩ | ⟨msg, h₁, -⟩
  · obtain ⟨_, h₀, -⟩ := runs_lift.mp h₁
    obtain rfl : db₁ = db := (answers_timeNow.mp (runs_perform.mp h₀)).1
    rcases runs_bind_except.mp h₂ with ⟨db₂, _, h₃, -⟩ | ⟨msg, h₃, rfl⟩
    · obtain ⟨r₀, h₄, hr⟩ := runs_adapt.mp h₃
      obtain ⟨-, msg, rfl⟩ := refusing_upsertSession h₄
      cases hr
    · obtain ⟨r₀, h₄, -⟩ := runs_adapt.mp h₃
      exact ⟨(refusing_upsertSession h₄).1, msg, rfl⟩
  · obtain ⟨_, -, hr⟩ := runs_lift.mp h₁
    cases hr

theorem refusing_saveFailed {errMsg : String} {retries : ℕ}
    (h : Runs Refusing (Worker.saveFailed req errMsg retries) db db' ()) :
    ∃ f, Saved req db db' f := by
  obtain ⟨db₁, ids, h₁, hsave⟩ := runs_bind.mp h
  obtain rfl : db₁ = db := (answers_uuidNew.mp (runs_perform.mp h₁)).1
  obtain ⟨db₂, r, h₂, h₃⟩ := runs_bind.mp hsave
  obtain ⟨hany, a, rfl⟩ := runs_perform.mp (runs_hoist.mp h₂)
  obtain rfl : db' = db₂ := runs_perform.mp h₃
  obtain ⟨e, -, hrun⟩ := Answers.accepted hany
  obtain ⟨hs, he, hf⟩ := Stmt.run_rows hrun
  exact ⟨_, Table.ext hs, Table.ext he, hf, rfl, rfl⟩

theorem refusing_ack (h : Runs Refusing (ack msgID) db db' ()) : db' = db := by
  obtain ⟨db₁, r, h₁, rfl, -⟩ := runs_bind.mp h
  exact runs_perform.mp h₁

theorem refusing_backoff {delay : ℕ} (h : Runs Refusing (backoff delay) db db' ()) : db' = db := by
  unfold backoff at h
  split_ifs at h
  · exact runs_perform.mp h
  · exact h.1

/-- The loop over the delays that are left ends with the batch saved. -/
theorem refusing_processFrom {attempt : ℕ} {ds : List ℕ} (hds : ds ≠ [])
    (hlen : attempt + ds.length = delays.length)
    (h : Runs Refusing (processFrom workerID msgID req attempt ds) db db' ()) :
    ∃ f, Saved req db db' f := by
  induction ds generalizing attempt db with
  | nil => exact absurd rfl hds
  | cons delay ds ih =>
    obtain ⟨db₁, _, h₁, hattempt⟩ := runs_bind.mp h
    obtain rfl := refusing_backoff h₁
    obtain ⟨db₂, r, h₂, hfailure⟩ := runs_bind.mp hattempt
    obtain ⟨rfl, msg, rfl⟩ := refusing_ingest h₂
    obtain ⟨db₃, _, h₃, h₄⟩ := runs_bind.mp hfailure
    obtain ⟨db₄, _, h₅, h₆⟩ := runs_bind.mp h₃
    obtain rfl : db₄ = db₂ := runs_perform.mp h₅
    rw [List.length_cons] at hlen
    by_cases hlast : ds = []
    · -- the last attempt saves the batch, and nothing follows
      subst hlast
      rw [if_pos (by rw [List.length_nil] at hlen; omega)] at h₆
      obtain ⟨db₅, _, h₇, h₈⟩ := runs_bind.mp h₆
      obtain rfl := refusing_ack h₈
      obtain ⟨rfl, -⟩ := h₄
      exact refusing_saveFailed h₇
    · have hpos := List.length_pos_of_ne_nil hlast
      rw [if_neg (by omega)] at h₆
      obtain ⟨rfl, -⟩ := h₆
      exact ih hlast (by omega) h₄

theorem refusing_process (h : Runs Refusing (process workerID msgID req) db db' ()) :
    ∃ f, Saved req db db' f :=
  refusing_processFrom (by decide) rfl h

end Saving

/-! ## The retry of the saved row -/

section Retry

/-- Equal sessions and events. -/
def SameTables (db db' : DB) : Prop := db.sessions = db'.sessions ∧ db.events = db'.events

variable {req : IngestRequest} {db db₁ db' : DB}

/-- `Ingest` reads and writes the sessions and the events alone. -/
theorem ingest_sameTables (hsame : SameTables db₁ db)
    (h : Runs Healthy (Service.ingest req).run db₁ db' (.ok ())) :
    ∃ db₂, Runs Healthy (Service.ingest req).run db db₂ (.ok ()) ∧ SameTables db' db₂ := by
  obtain ⟨-, now, ids, hst⟩ := ingest_healthy h
  have hs := hst.sessions
  have he := hst.events
  rw [hsame.1] at hs
  rw [hsame.2] at he
  have hids : ((db.events.rows ++ Service.eventsOf req now ids).map ReplayEvent.id).Nodup :=
    he ▸ db'.events.nodup
  -- a session that holds the token of the batch still holds it after the batch
  have htok : req.shareToken ≠ "" → ∀ r ∈ db.sessions.rows,
      r.shareToken = some req.shareToken → r.id = req.sessionID := by
    intro hne r hr hrt
    have hid : (storedRow req now (db.sessions.find req.sessionID)).id = req.sessionID :=
      preparedRow_id
    by_contra hrid
    have hmem : r ∈ db'.sessions.rows := by
      rw [hs]
      exact Table.mem_put.mpr (Or.inr ⟨hr, fun h => hrid (h.trans hid)⟩)
    have hnew : storedRow req now (db.sessions.find req.sessionID) ∈ db'.sessions.rows := by
      rw [hs]
      exact Table.mem_put.mpr (Or.inl rfl)
    exact hrid ((db'.token_unique r hmem _ hnew req.shareToken hrt
      (preparedRow_shareToken hne)).trans hid)
  obtain ⟨db₂, hrun, hst₂⟩ := ingest_runs db req now ids hids htok
  refine ⟨db₂, hrun.mono fun _ _ _ _ h => h.healthy, ?_, ?_⟩
  · rw [hs, hst₂.sessions]
  · exact Table.ext (he.trans hst₂.events.symm)

variable {f : FailedIngest}

theorem Saved.find (h : Saved req db db₁ f) : db₁.failed.find f.id = some f := by
  refine Table.find_eq_some.mpr ⟨?_, rfl⟩
  rw [h.failed]
  exact List.mem_append_right _ (List.mem_singleton_self f)

/-- What follows the reading of a dead letter whose payload decodes. -/
def ingestAndMark (id : String) (req : IngestRequest) : Svc Unit := do
  wrap "retry failed: " (Service.ingest req)
  Repository.markFailedResolved id

theorem find_of_selectFailed {id : String} (h : AnyAnswer (.sql (.selectFailed id)) db db' (.ok f)) :
    db' = db ∧ db.failed.find id = some f := by
  obtain ⟨e, -, hrun⟩ := Answers.accepted h
  exact run_selectFailed hrun

/-- **A retry** cannot read a batch, or it ingests the batch of the dead letter and marks it. -/
theorem retryFailed_cases {T : Handler Call Resp DB}
    (hT : ∀ c db db' r, T c db db' r → AnyAnswer c db db' r) {id : String} {r : Except String Unit}
    (h : Runs T (Service.retryFailed id).run db db' r) :
    (db' = db ∧ (∃ msg, r = .error msg) ∧
      ((∃ msg, T (.sql (.selectFailed id)) db db (.error msg)) ∨
        ∃ f msg, db.failed.find id = some f ∧ decode f.payload = .error msg)) ∨
    ∃ f req, db.failed.find id = some f ∧ decode f.payload = .ok req ∧
      Runs T (ingestAndMark id req).run db db' r := by
  rcases runs_bind_except.mp h with ⟨db₁, f, h₁, h₂⟩ | ⟨msg, h₁, rfl⟩
  · obtain ⟨r₀, hsel, hr₀⟩ := runs_adapt.mp h₁
    cases r₀ with
    | error msg => cases hr₀
    | ok f' =>
      obtain rfl : f = f' := Except.ok.inj hr₀
      obtain ⟨rfl, hf⟩ := find_of_selectFailed (hT _ _ _ _ (runs_perform.mp hsel))
      cases hd : decode f.payload with
      | error msg =>
        rw [hd] at h₂
        obtain ⟨rfl, rfl⟩ := h₂
        exact Or.inl ⟨rfl, ⟨_, rfl⟩, Or.inr ⟨f, msg, hf, hd⟩⟩
      | ok req =>
        rw [hd] at h₂
        exact Or.inr ⟨f, req, hf, hd, h₂⟩
  · obtain ⟨r₀, hsel, hr₀⟩ := runs_adapt.mp h₁
    cases r₀ with
    | error msg' =>
      have hcall := runs_perform.mp hsel
      obtain rfl := Answers.refused (hT _ _ _ _ hcall)
      exact Or.inl ⟨rfl, ⟨_, rfl⟩, Or.inl ⟨msg', hcall⟩⟩
    | ok f => cases hr₀

theorem markFailedResolved_cases {T : Handler Call Resp DB}
    (hT : ∀ c db db' r, T c db db' r → AnyAnswer c db db' r) {id : String} {r : Except String Unit}
    (h : Runs T (Repository.markFailedResolved id).run db db' r) :
    SameTables db' db ∧ ((∃ msg, r = .error msg) ∧ db'.failed = db.failed ∨
      r = .ok () ∧ ∃ now, ∀ id', db'.failed.find id' = (db.failed.find id').map fun f =>
        if id' = id then { f with resolved := true, resolvedAt := some now } else f) := by
  rcases runs_bind_except.mp h with ⟨db₁, now, h₁, h₂⟩ | ⟨msg, h₁, -⟩
  · obtain ⟨_, h₀, -⟩ := runs_lift.mp h₁
    obtain rfl : db₁ = db := (answers_timeNow.mp (hT _ _ _ _ (runs_perform.mp h₀))).1
    rcases Answers.sql_cases (hT _ _ _ _ (runs_perform.mp h₂)) with
      ⟨msg, rfl, rfl⟩ | ⟨e, a, -, hrun, rfl⟩
    · exact ⟨⟨rfl, rfl⟩, Or.inl ⟨⟨msg, rfl⟩, rfl⟩⟩
    · obtain ⟨hs, he, -⟩ := Stmt.run_rows hrun
      exact ⟨⟨Table.ext hs, Table.ext he⟩, Or.inr ⟨rfl, now, run_markFailedResolved hrun⟩⟩
  · obtain ⟨_, -, hr⟩ := runs_lift.mp h₁
    cases hr

theorem ingestAndMark_cases {T : Handler Call Resp DB} {id : String} {r : Except String Unit}
    (h : Runs T (ingestAndMark id req).run db db' r) :
    (∃ msg, r = .error msg ∧ ∃ msg', Runs T (Service.ingest req).run db db' (.error msg')) ∨
    ∃ db₁, Runs T (Service.ingest req).run db db₁ (.ok ()) ∧
      Runs T (Repository.markFailedResolved id).run db₁ db' r := by
  rcases runs_bind_except.mp h with ⟨db₁, _, h₁, h₂⟩ | ⟨msg, h₁, rfl⟩
  · obtain ⟨r₀, hrun, hr₀⟩ := runs_adapt.mp h₁
    cases r₀ with
    | error msg => cases hr₀
    | ok _ => exact Or.inr ⟨db₁, hrun, h₂⟩
  · obtain ⟨r₀, hrun, hr₀⟩ := runs_adapt.mp h₁
    cases r₀ with
    | error msg' => exact Or.inl ⟨msg, rfl, msg', hrun⟩
    | ok _ => cases hr₀

theorem SameTables.symm (h : SameTables db db') : SameTables db' db := ⟨h.1.symm, h.2.symm⟩

theorem SameTables.trans {db₂ : DB} (h : SameTables db db') (h' : SameTables db' db₂) :
    SameTables db db₂ := ⟨h.1.trans h'.1, h.2.trans h'.2⟩

/-- With every statement accepted, the method may return without error and leave the sessions and
the events of `tables`. -/
def Leaves (x : Svc Unit) (db tables : DB) : Prop :=
  ∃ db', Runs Healthy x.run db db' (.ok ()) ∧ SameTables db' tables

theorem Saved.sameTables (h : Saved req db db₁ f) : SameTables db₁ db := ⟨h.sessions, h.events⟩

theorem Saved.decode_payload (h : Saved req db db₁ f) : decode f.payload = .ok req := by
  rw [h.payload, decode_encode]

/-- A retry of the saved row ingests the batch. -/
theorem Saved.retryFailed_runs (h : Saved req db db₁ f) {r : Except String Unit}
    (hrun : Runs Healthy (Service.retryFailed f.id).run db₁ db' r) :
    r = .ok () ∧ ∃ db₂, Runs Healthy (Service.ingest req).run db₁ db₂ (.ok ()) ∧
      SameTables db' db₂ := by
  have hany : ∀ c db db' r, Healthy c db db' r → AnyAnswer c db db' r := fun _ _ _ _ h => h.1
  rcases retryFailed_cases hany hrun with
    ⟨-, -, ⟨msg, -, a, ha⟩ | ⟨f', msg, hf, hd⟩⟩ | ⟨f', req', hf, hd, hrest⟩
  · cases ha
  · rw [h.find] at hf
    obtain rfl := Option.some.inj hf
    rw [h.decode_payload] at hd
    cases hd
  · rw [h.find] at hf
    obtain rfl := Option.some.inj hf
    rw [h.decode_payload] at hd
    obtain rfl := Except.ok.inj hd
    rcases ingestAndMark_cases hrest with ⟨-, -, msg, hing⟩ | ⟨db₂, hing, hmark⟩
    · cases (ingest_healthy hing).1
    · obtain ⟨hsame, -⟩ := markFailedResolved_cases hany hmark
      refine ⟨?_, db₂, hing, hsame⟩
      have hnever : NeverFails Healthy (Repository.markFailedResolved f.id) :=
        (neverFails_lift _).bind fun now => neverFails_sql (fun _ _ _ _ h => h.2) _
      obtain ⟨_, rfl⟩ := hnever _ _ _ hmark
      rfl

/-- A batch that can be ingested can be retried from the saved row. -/
theorem Saved.retryFailed_leaves (h : Saved req db db₁ f) {db₂ : DB}
    (hrun : Runs Healthy (Service.ingest req).run db₁ db₂ (.ok ())) :
    Leaves (Service.retryFailed f.id) db₁ db₂ := by
  have hhealthy : ∀ c db db' r, HealthyAt 0 c db db' r → Healthy c db db' r :=
    fun _ _ _ _ h => h.healthy
  have hselect : Runs Healthy (Repository.getFailed f.id).run db₁ db₁ (.ok f) := by
    obtain ⟨e, db', f', hsel, hsql⟩ := healthyAt_sql (q := .selectFailed f.id) 0 db₁
      (Table.find_isSome.mp (h.find ▸ rfl))
    have hans := runs_perform.mp (hsel.mono hhealthy)
    obtain ⟨rfl, hf⟩ := find_of_selectFailed hans.1
    rw [h.find] at hf
    obtain rfl := Option.some.inj hf
    exact runs_perform.mpr hans
  obtain ⟨e, db₃, a, hmark, hsql⟩ := healthyAt_sql (q := .markFailedResolved f.id 0) 0 db₂ trivial
  obtain ⟨hs, he, -⟩ := Stmt.run_rows hsql
  refine ⟨db₃, runs_bind_ok (runs_wrap_ok hselect _) ?_, Table.ext hs, Table.ext he⟩
  rw [h.decode_payload]
  refine runs_bind_ok (a := req) ⟨rfl, rfl⟩ (runs_bind_ok (runs_wrap_ok hrun _) ?_)
  exact runs_bind_ok ((timeNow_runs 0).mono hhealthy) (hmark.mono hhealthy)

/-- **What a retry of the saved row can leave** in the sessions and the events is what a direct
`Ingest` can leave there. -/
theorem Saved.leaves_iff (h : Saved req db db₁ f) (tables : DB) :
    Leaves (Service.retryFailed f.id) db₁ tables ↔ Leaves (Service.ingest req) db tables := by
  constructor
  · rintro ⟨db₂, hrun, hsame⟩
    obtain ⟨-, db₃, hing, hsame₃⟩ := h.retryFailed_runs hrun
    obtain ⟨db₄, hdirect, hsame₄⟩ := ingest_sameTables h.sameTables hing
    exact ⟨db₄, hdirect, (hsame₃.trans hsame₄).symm.trans hsame⟩
  · rintro ⟨db₂, hrun, hsame⟩
    obtain ⟨db₃, hing, hsame₃⟩ := ingest_sameTables h.sameTables.symm hrun
    obtain ⟨db₄, hretry, hsame₄⟩ := h.retryFailed_leaves hing
    exact ⟨db₄, hretry, (hsame₄.trans hsame₃.symm).trans hsame⟩

end Retry

/-! ## `RetryAllFailed` -/

section RetryAll

/-- **Exactly the dead letters `moved` were marked as resolved.** -/
structure Marked (moved : List String) (db db' : DB) : Prop where
  others : ∀ id ∉ moved, db'.failed.find id = db.failed.find id
  moved : ∀ id ∈ moved, ∃ f now, db.failed.find id = some f ∧
    db'.failed.find id = some { f with resolved := true, resolvedAt := some now }

variable {db db₁ db' : DB}

theorem Marked.refl (h : db'.failed = db.failed) : Marked [] db db' :=
  ⟨fun _ _ => by rw [h], fun _ h => by cases h⟩

theorem Marked.trans {a b : List String} (h : Marked a db db₁) (h' : Marked b db₁ db')
    (hab : ∀ id ∈ a, id ∉ b) : Marked (a ++ b) db db' := by
  refine ⟨fun id hid => ?_, fun id hid => ?_⟩
  · rw [List.mem_append, not_or] at hid
    rw [h'.others id hid.2, h.others id hid.1]
  · rcases List.mem_append.mp hid with ha | hb
    · rw [h'.others id (hab id ha)]
      exact h.moved id ha
    · obtain ⟨f, now, hf, hf'⟩ := h'.moved id hb
      rw [h.others id fun ha => hab id ha hb] at hf
      exact ⟨f, now, hf, hf'⟩

/-- `Ingest` does not touch the dead letters. -/
theorem ingest_failed {req : IngestRequest} {r : Except String Unit}
    (h : Runs AnyAnswer (Service.ingest req).run db db' r) : db'.failed = db.failed := by
  refine (allCalls_ingest req).preserves (I := fun x => x.failed = db.failed)
    (fun c x x' r hc hx hT => ?_) db db' r rfl h
  cases c with
  | timeNow => rw [(answers_timeNow.mp hT).1, hx]
  | uuidNew => rw [(answers_uuidNew.mp hT).1, hx]
  | sql q =>
    rcases Answers.sql_cases hT with ⟨_, rfl, -⟩ | ⟨e, a, -, hrun, -⟩
    · exact hx
    · rw [← hx]
      refine Table.ext ?_
      rw [(Stmt.run_rows hrun).2.2]
      cases q <;> trivial

/-- **A retry** returns no error if and only if it marks its dead letter. -/
theorem retryFailed_marked {id : String} {r : Except String Unit}
    (h : Runs AnyAnswer (Service.retryFailed id).run db db' r) :
    (∃ msg, r = .error msg) ∧ Marked [] db db' ∨ r = .ok () ∧ Marked [id] db db' := by
  have hany : ∀ c db db' r, AnyAnswer c db db' r → AnyAnswer c db db' r := fun _ _ _ _ h => h
  rcases retryFailed_cases hany h with ⟨rfl, herr, -⟩ | ⟨f, req, hf, -, hrest⟩
  · exact Or.inl ⟨herr, Marked.refl rfl⟩
  rcases ingestAndMark_cases hrest with ⟨msg, rfl, _, hing⟩ | ⟨db₁, hing, hmark⟩
  · exact Or.inl ⟨⟨msg, rfl⟩, Marked.refl (ingest_failed hing)⟩
  have hfailed := ingest_failed hing
  rcases (markFailedResolved_cases hany hmark).2 with ⟨herr, hsame⟩ | ⟨rfl, now, hfind⟩
  · exact Or.inl ⟨herr, Marked.refl (hsame.trans hfailed)⟩
  · refine Or.inr ⟨rfl, fun id' hid' => ?_, fun id' hid' => ?_⟩
    · have hne : ¬ id' = id := fun he => hid' (List.mem_singleton.mpr he)
      rw [hfind, hfailed]
      simp [hne]
    · obtain rfl := List.mem_singleton.mp hid'
      refine ⟨f, now, hf, ?_⟩
      rw [hfind, hfailed, hf, Option.map_some, if_pos rfl]

/-- **The loop** counts the dead letters that it marks. -/
theorem retryEach_marked {items : List FailedIngest} {succeeded : ℕ} {r : Except String ℕ}
    (hnodup : (items.map FailedIngest.id).Nodup)
    (h : Runs AnyAnswer (Service.retryEach items succeeded).run db db' r) :
    ∃ moved : List String, moved.Sublist (items.map FailedIngest.id) ∧
      r = .ok (succeeded + moved.length) ∧ Marked moved db db' := by
  induction items generalizing succeeded db with
  | nil =>
    obtain ⟨rfl, rfl⟩ := h
    exact ⟨[], List.Sublist.refl _, rfl, Marked.refl rfl⟩
  | cons f items ih =>
    rw [List.map_cons, List.nodup_cons] at hnodup
    rcases runs_bind_except.mp h with ⟨db₁, a, h₁, h₂⟩ | ⟨_, h₁, -⟩
    · obtain ⟨a', hretry, ha⟩ := runs_lift.mp h₁
      obtain rfl := Except.ok.inj ha
      rcases retryFailed_marked hretry with ⟨⟨msg, rfl⟩, hmark⟩ | ⟨rfl, hmark⟩
      · obtain ⟨moved, hsub, hr, hmoved⟩ := ih hnodup.2 h₂
        exact ⟨moved, hsub.cons _, hr, hmark.trans hmoved fun _ h => by cases h⟩
      · obtain ⟨moved, hsub, hr, hmoved⟩ := ih hnodup.2 h₂
        refine ⟨f.id :: moved, hsub.cons_cons _, ?_, hmark.trans hmoved fun id hid hmem => ?_⟩
        · rw [hr, List.length_cons]
          congr 1
          omega
        · obtain rfl := List.mem_singleton.mp hid
          exact hnodup.1 (hsub.subset hmem)
    · obtain ⟨_, -, hr⟩ := runs_lift.mp h₁
      cases hr

/-- The dead letters that were unresolved in `db` and are resolved in `db'`. -/
def movedRows (db db' : DB) : List FailedIngest :=
  db.failed.rows.filter fun f => !f.resolved && db'.resolved f.id

/-- **The dead letters after `RetryAllFailed`** that returned the count `n`. -/
structure RetriedAll (db db' : DB) (n : ℕ) : Prop where
  count : n = (movedRows db db').length
  moved : ∀ f ∈ movedRows db db', ∃ now,
    { f with resolved := true, resolvedAt := some now } ∈ db'.failed.rows
  others : ∀ f ∈ db.failed.rows, f ∉ movedRows db db' → f ∈ db'.failed.rows
  keys : ∀ f' ∈ db'.failed.rows, ∃ f ∈ db.failed.rows, f.id = f'.id

theorem Marked.resolved_iff {moved : List String} (h : Marked moved db db') {f : FailedIngest}
    (hf : f ∈ db.failed.rows) (hunres : f.resolved = false) :
    db'.resolved f.id = true ↔ f.id ∈ moved := by
  have hfind : db.failed.find f.id = some f := Table.find_eq_some.mpr ⟨hf, rfl⟩
  constructor
  · intro hres
    by_contra hid
    rw [DB.resolved, h.others _ hid, hfind] at hres
    simp [hunres] at hres
  · intro hid
    obtain ⟨f', now, -, hf'⟩ := h.moved _ hid
    rw [DB.resolved, hf']
    rfl

theorem Marked.retriedAll {moved : List String} (h : Marked moved db db') (hnodup : moved.Nodup)
    (hunres : ∀ id ∈ moved, ∃ f ∈ db.failed.rows, f.id = id ∧ f.resolved = false) :
    RetriedAll db db' moved.length := by
  have hmem : ∀ f, f ∈ movedRows db db' ↔ f ∈ db.failed.rows ∧ f.resolved = false ∧ f.id ∈ moved := by
    intro f
    rw [movedRows, List.mem_filter]
    refine and_congr_right fun hf => ?_
    rw [Bool.and_eq_true, Bool.not_eq_true']
    exact and_congr_right fun hres => h.resolved_iff hf hres
  refine ⟨?_, fun f hf => ?_, fun f hf hnot => ?_, fun f' hf' => ?_⟩
  · have hperm : ((movedRows db db').map FailedIngest.id).Perm moved := by
      refine (List.perm_ext_iff_of_nodup ?_ hnodup).mpr fun id => ?_
      · exact db.failed.nodup.sublist (List.filter_sublist.map _)
      · rw [List.mem_map]
        constructor
        · rintro ⟨f, hf, rfl⟩
          exact ((hmem f).mp hf).2.2
        · intro hid
          obtain ⟨f, hf, rfl, hres⟩ := hunres id hid
          exact ⟨f, (hmem f).mpr ⟨hf, hres, hid⟩, rfl⟩
    rw [← hperm.length_eq, List.length_map]
  · obtain ⟨hf, -, hid⟩ := (hmem f).mp hf
    obtain ⟨f', now, hfind, hfind'⟩ := h.moved _ hid
    rw [Table.find_eq_some.mpr ⟨hf, rfl⟩] at hfind
    obtain rfl := Option.some.inj hfind
    exact ⟨now, (Table.find_eq_some.mp hfind').1⟩
  · have hid : f.id ∉ moved := by
      intro hid
      obtain ⟨f', hf', he, hres⟩ := hunres _ hid
      obtain rfl := db.failed.eq_of_key_eq hf' hf he
      exact hnot ((hmem f').mpr ⟨hf, hres, hid⟩)
    have hfind := h.others _ hid
    rw [Table.find_eq_some.mpr ⟨hf, rfl⟩] at hfind
    exact (Table.find_eq_some.mp hfind).1
  · have hfind' := Table.find_eq_some.mpr ⟨hf', rfl⟩
    by_cases hid : f'.id ∈ moved
    · obtain ⟨f, hf, he, -⟩ := hunres _ hid
      exact ⟨f, hf, he⟩
    · rw [h.others _ hid] at hfind'
      exact ⟨f', (Table.find_eq_some.mp hfind').1, rfl⟩

/-- The count that `RetryAllFailed` returns; beside an error it is zero. -/
def returnedCount : Except String ℕ → ℕ
  | .ok n => n
  | .error _ => 0

/-- **`RetryAllFailed` counts the dead letters that it moves** from unresolved to resolved. -/
theorem retryAllFailed_retriedAll {r : Except String ℕ}
    (h : Runs AnyAnswer Service.retryAllFailed.run db db' r) :
    RetriedAll db db' (returnedCount r) := by
  rcases runs_bind_except.mp h with ⟨db₁, items, h₁, h₂⟩ | ⟨msg, h₁, rfl⟩
  · obtain ⟨e, -, hrun⟩ := Answers.accepted (runs_perform.mp h₁)
    obtain ⟨rfl, rfl⟩ := Prod.mk.inj (Except.ok.inj hrun)
    set items := (e.scanFailed.1 (db.failed.rows.filter fun f => !true || !f.resolved)).insertionSort
      fun a b => b.createdAt ≤ a.createdAt
    have hperm : items.Perm (db.failed.rows.filter fun f => !true || !f.resolved) :=
      (List.perm_insertionSort _ _).trans (e.scanFailed.2 _)
    have hnodup : (items.map FailedIngest.id).Nodup :=
      (hperm.map _).nodup_iff.mpr (db.failed.nodup.sublist (List.filter_sublist.map _))
    obtain ⟨moved, hsub, rfl, hmarked⟩ := retryEach_marked hnodup h₂
    rw [Nat.zero_add]
    refine hmarked.retriedAll (hnodup.sublist hsub) fun id hid => ?_
    obtain ⟨f, hf, rfl⟩ := List.mem_map.mp (hsub.subset hid)
    obtain ⟨hrow, hres⟩ := List.mem_filter.mp (hperm.subset hf)
    exact ⟨f, hrow, rfl, by simpa using hres⟩
  · obtain rfl := Answers.refused (runs_perform.mp h₁)
    exact (Marked.refl rfl).retriedAll List.nodup_nil fun _ h => by cases h

end RetryAll

/-! ## Both paths -/

section Agreement

/-- **The dead-letter path agrees with the direct path.** A batch whose attempts all failed at
their first repository call is saved, its retry does not fail, and what the retry can leave in the
sessions and the events is what a direct `Ingest` can leave there, over all clock readings and
generated ids. `RetryAllFailed` counts the dead letters it moves and leaves the others alone. -/
theorem dead_letter_agrees {workerID : ℕ} {msgID : String} {req : IngestRequest} {db db₁ : DB}
    (hproc : Runs Refusing (process workerID msgID req) db db₁ ()) :
    (∃ f, Saved req db db₁ f ∧
      (∀ db₂ r, Runs Healthy (Service.retryFailed f.id).run db₁ db₂ r → r = .ok ()) ∧
      ∀ tables, Leaves (Service.retryFailed f.id) db₁ tables ↔
        Leaves (Service.ingest req) db tables) ∧
    ∀ db db' r, Runs AnyAnswer Service.retryAllFailed.run db db' r →
      RetriedAll db db' (returnedCount r) := by
  obtain ⟨f, hsaved⟩ := refusing_process hproc
  refine ⟨⟨f, hsaved, fun db₂ r hrun => (hsaved.retryFailed_runs hrun).1, hsaved.leaves_iff⟩, ?_⟩
  exact fun db db' r hrun => retryAllFailed_retriedAll hrun

/-- The calls of a worker while every upsert is refused. -/
def execRefusing (e : Env) : (c : WorkerCall) → DB → Option (DB × WorkerResp c)
  | .svc (.sql (.updateSession _)), db => some (db, .error "refused")
  | .svc (.sql (.insertSession _)), db => some (db, .error "refused")
  | .svc c, db => execHealthy e c db
  | .ack _, db => some (db, .ok ())
  | .slog _, db | .sleep _, db => some (db, ())

theorem execRefusing_refusing {e : Env} {c : WorkerCall} {db db' : DB} {r : WorkerResp c}
    (h : execRefusing e c db = some (db', r)) : Refusing c db db' r := by
  have hfault : ∀ q, AnyAnswer (.sql q) db db (.error "refused") := fun q =>
    answers_refuse (e := .quiet (some "refused") 0 fun _ => "") trivial rfl
  cases c with
  | svc c =>
    cases c with
    | timeNow => exact (execHealthy_healthy (c := .timeNow) h).1
    | uuidNew => exact (execHealthy_healthy (c := .uuidNew) h).1
    | sql q =>
      cases q with
      | updateSession s =>
        obtain ⟨rfl, rfl⟩ := Prod.mk.inj (Option.some.inj h)
        exact ⟨hfault _, fun _ h => by cases h⟩
      | insertSession s =>
        obtain ⟨rfl, rfl⟩ := Prod.mk.inj (Option.some.inj h)
        exact ⟨hfault _, _, rfl⟩
      | insertFailed f => exact execHealthy_healthy (c := .sql (.insertFailed f)) h
      | _ =>
        simp only [execRefusing] at h
        exact (execHealthy_healthy h).1
  | ack m => exact (Prod.mk.inj (Option.some.inj h)).1.symm
  | slog entry => exact (Prod.mk.inj (Option.some.inj h)).1.symm
  | sleep n => exact (Prod.mk.inj (Option.some.inj h)).1.symm

/-- A batch of one event that is saved and retried on empty tables. -/
theorem dead_letter_agrees_sample : ∃ db₁ f, Saved sampleBatch DB.empty db₁ f ∧
    ∃ tables, Leaves (Service.retryFailed f.id) db₁ tables ∧
      (tables.eventsOf sampleID).length = 1 := by
  let e : Env := .quiet none 0 fun _ => sampleEventID false
  obtain ⟨db₁, hfollow⟩ : ∃ db₁, (process 1 "1-0" sampleBatch).follow execRefusing
      (List.replicate 19 e) DB.empty = some (db₁, ()) := ⟨_, rfl⟩
  have hproc : Runs Refusing (process 1 "1-0" sampleBatch) DB.empty db₁ () :=
    runs_follow (T := Refusing) (fun _ _ _ _ _ h => execRefusing_refusing h) hfollow
  obtain ⟨⟨f, hsaved, -, hleaves⟩, -⟩ := dead_letter_agrees hproc
  obtain ⟨tables, hrun, hst⟩ := plainBatch_runs DB.empty sampleID ⟨4, .obj [], 1⟩ 0
    (sampleEventID false) (by decide)
  have hdirect : Leaves (Service.ingest sampleBatch) DB.empty tables :=
    ⟨tables, hrun.mono fun _ _ _ _ h => h.healthy, rfl, rfl⟩
  exact ⟨db₁, f, hsaved, tables, (hleaves tables).mpr hdirect,
    congrArg List.length hst.eventsOf_self⟩

end Agreement

end BatRewind
