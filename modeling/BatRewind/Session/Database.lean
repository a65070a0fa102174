import Mathlib.Data.List.Sort
import BatRewind.Lib.Table
import BatRewind.Session.Codec

/-!
# The database

`DB` holds the tables `replay_sessions`, `replay_events` and `failed_ingest` with the constraints
of the migrations: the primary keys, the unique index on `share_token` and the foreign key of the
events. A `Stmt` is one statement, or one transaction, that the repository sends.

* `Stmt.run` is what a statement does when the database is reachable; a violated constraint is an
  error, and `Stmt.Admits` says when there is none (`Stmt.run_ok_iff`).
* `Stmt.onSessions`, `Stmt.onEvents`, `Stmt.onFailed` are the effects on each table by itself;
  **`Stmt.run_rows`** says that an accepted statement has them.
-/

namespace BatRewind

open Encoding Tables

/-! ## Tables -/

/-- **The database.** A share token is held by at most one session, and every event belongs to a
session. -/
@[ext] structure DB where
  sessions : Table ReplaySession.id
  events : Table ReplayEvent.id
  failed : Table FailedIngest.id
  token_unique : ∀ a ∈ sessions.rows, ∀ b ∈ sessions.rows, ∀ t,
    a.shareToken = some t → b.shareToken = some t → a.id = b.id
  session_exists : ∀ e ∈ events.rows, e.sessionID ∈ sessions.keys

namespace DB

/-- The database after the migrations. -/
def empty : DB := ⟨.empty, .empty, .empty, by simp, by simp⟩

/-- The event rows of a session. -/
def eventsOf (db : DB) (sessionID : String) : List ReplayEvent :=
  db.events.rows.filter fun e => e.sessionID = sessionID

/-- Update session `id`, leaving ids and share tokens alone. -/
def modifySession (db : DB) (id : String) (f : ReplaySession → ReplaySession)
    (hid : ∀ r, (f r).id = r.id) (htok : ∀ r, (f r).shareToken = r.shareToken) : DB where
  sessions := db.sessions.modify id f hid
  events := db.events
  failed := db.failed
  token_unique := by
    have key : ∀ a ∈ (db.sessions.modify id f hid).rows, ∃ a₀ ∈ db.sessions.rows,
        a.id = a₀.id ∧ a.shareToken = a₀.shareToken := by
      intro a ha
      obtain ⟨a₀, h₀, rfl⟩ := List.mem_map.mp ha
      refine ⟨a₀, h₀, ?_, ?_⟩ <;> split_ifs <;> simp [hid, htok]
    intro a ha b hb t hat hbt
    obtain ⟨a₀, ha₀, hai, hat₀⟩ := key a ha
    obtain ⟨b₀, hb₀, hbi, hbt₀⟩ := key b hb
    rw [hai, hbi]
    exact db.token_unique a₀ ha₀ b₀ hb₀ t (hat₀ ▸ hat) (hbt₀ ▸ hbt)
  session_exists := by
    rw [Table.keys_modify]
    exact db.session_exists

/-- Delete the sessions with an id satisfying `p`, and their events. -/
def deleteRows (db : DB) (p : String → Bool) : DB where
  sessions := db.sessions.delete fun r => p r.id
  events := db.events.delete fun ev => p ev.sessionID
  failed := db.failed
  token_unique := by
    intro a ha b hb
    exact db.token_unique a (List.mem_of_mem_filter ha) b (List.mem_of_mem_filter hb)
  session_exists := by
    intro ev hev
    obtain ⟨hev, hp⟩ := List.mem_filter.mp hev
    obtain ⟨r, hr, hid⟩ := Table.mem_keys.mp (db.session_exists ev hev)
    exact Table.mem_keys.mpr ⟨r, List.mem_filter.mpr ⟨hr, by simpa only [hid] using hp⟩, hid⟩

/-- Whether `token` is held by a session other than `id`. -/
def tokenTaken (db : DB) (id token : String) : Bool :=
  db.sessions.rows.any fun r => r.id ≠ id && r.shareToken = some token

/-- Set the share token of session `id`, which no other session holds. -/
def withShareToken (db : DB) (id token : String) (h : db.tokenTaken id token = false) : DB where
  sessions := db.sessions.modify id (fun r => { r with shareToken := some token }) fun _ => rfl
  events := db.events
  failed := db.failed
  token_unique := by
    have hfree : ∀ r ∈ db.sessions.rows, r.shareToken = some token → r.id = id := by
      intro r hr ht
      by_contra hne
      exact Bool.false_ne_true (h.symm.trans (List.any_eq_true.mpr ⟨r, hr, by simp [hne, ht]⟩))
    intro a ha b hb t hat hbt
    obtain ⟨a₀, ha₀, rfl⟩ := List.mem_map.mp ha
    obtain ⟨b₀, hb₀, rfl⟩ := List.mem_map.mp hb
    by_cases ea : a₀.id = id <;> by_cases eb : b₀.id = id <;>
      simp only [ea, eb, if_true, if_false] at hat hbt ⊢
    · cases hat
      exact (hfree b₀ hb₀ hbt).symm
    · cases hbt
      exact ea (hfree a₀ ha₀ hat)
    · exact db.token_unique a₀ ha₀ b₀ hb₀ t hat hbt
  session_exists := by
    rw [Table.keys_modify]
    exact db.session_exists

/-- Insert a session that has no share token. -/
def withSession (db : DB) (t : Table ReplaySession.id) (s : ReplaySession)
    (ht : t.rows = db.sessions.rows ++ [s]) (hs : s.shareToken = none) : DB where
  sessions := t
  events := db.events
  failed := db.failed
  token_unique := by
    intro a ha b hb x hax hbx
    rw [ht, List.mem_append, List.mem_singleton] at ha hb
    rcases ha with ha | rfl
    · rcases hb with hb | rfl
      · exact db.token_unique a ha b hb x hax hbx
      · rw [hs] at hbx; cases hbx
    · rw [hs] at hax; cases hax
  session_exists := by
    intro ev hev
    obtain ⟨r, hr, hid⟩ := Table.mem_keys.mp (db.session_exists ev hev)
    exact Table.mem_keys.mpr ⟨r, ht ▸ List.mem_append_left _ hr, hid⟩

/-- Insert events of sessions that exist. -/
def withEvents (db : DB) (t : Table ReplayEvent.id) (es : List ReplayEvent)
    (ht : t.rows = db.events.rows ++ es) (hes : ∀ ev ∈ es, ev.sessionID ∈ db.sessions.keys) :
    DB where
  sessions := db.sessions
  events := t
  failed := db.failed
  token_unique := db.token_unique
  session_exists := by
    intro ev hev
    rw [ht, List.mem_append] at hev
    exact hev.elim (db.session_exists ev) (hes ev)

/-- The database with other dead letters. -/
def withFailed (db : DB) (t : Table FailedIngest.id) : DB := { db with failed := t }

end DB

/-! ## Statements -/

/-- The filter of a session list. -/
structure ListFilter where
  identifier : String := ""
  serviceName : String := ""
  environment : String := ""
  startDate : Option Time := none
  endDate : Option Time := none
  limit : ℤ := 0
  offset : ℤ := 0

/-- The `WHERE` clauses of a filter. -/
def ListFilter.accepts (f : ListFilter) (s : ReplaySession) : Bool :=
  (f.identifier = "" || s.identifier = f.identifier) &&
  (f.serviceName = "" || s.serviceName = f.serviceName) &&
  (f.environment = "" || s.environment = f.environment) &&
  (f.startDate.all fun t => t ≤ s.startedAt) &&
  (f.endDate.all fun t => s.startedAt ≤ t)

/-- One statement or transaction of the repository. -/
inductive Stmt where
  /-- `UPDATE` of `Save`: every column but the omitted ones. -/
  | updateSession (s : ReplaySession)
  /-- `INSERT .. ON CONFLICT (id) DO UPDATE` of `Save`. -/
  | insertSession (s : ReplaySession)
  | setClientMetadata (id : String) (d : DeviceColumns)
  | incrementEventCount (id : String) (delta : ℕ)
  | updateSessionEnd (id : String) (endedAt : Option Time) (durationMs : Option ℤ)
  | insertEvents (es : List ReplayEvent)
  | countSessions (f : ListFilter)
  | findSessions (f : ListFilter) (limit offset : ℤ)
  | selectSession (id : String)
  | setShareToken (id token : String)
  /-- The transaction of `DeleteSession`. -/
  | deleteSession (id : String)
  | pluckStartedBefore (cutoff : Time)
  /-- The transaction of `PurgeOlderThan`. -/
  | purgeSessions (ids : List String)
  | selectByShareToken (token : String)
  | selectEvents (sessionID : String)
  | insertFailed (f : FailedIngest)
  | listFailed (onlyUnresolved : Bool)
  | selectFailed (id : String)
  | markFailedResolved (id : String) (now : Time)

/-- What an accepted statement returns. `Save`'s `UPDATE` returns the number of affected rows. -/
@[reducible] def Answer : Stmt → Type
  | .updateSession _ => ℕ
  | .countSessions _ => ℕ
  | .findSessions _ _ _ => List ReplaySession
  | .selectSession _ | .selectByShareToken _ => ReplaySession
  | .pluckStartedBefore _ => List String
  | .selectEvents _ => List ReplayEvent
  | .listFailed _ => List FailedIngest
  | .selectFailed _ => FailedIngest
  | _ => Unit

/-- The order in which the database happens to scan the rows of a query. -/
abbrev Scan (ρ : Type) := { f : List ρ → List ρ // ∀ l, (f l).Perm l }

/-- What the environment decides at a call: whether the statement is refused, the driver's text
for a violated constraint, the clock, the generated ids and the order of rows that the query
leaves open. -/
structure Env where
  fault : Option String
  violation : String
  now : Time
  uuid : ℕ → String
  scanSessions : Scan ReplaySession
  scanEvents : Scan ReplayEvent
  scanFailed : Scan FailedIngest

/-- The order of `GetEvents`: `timestamp ASC, created_at ASC`. -/
def eventLE (a b : ReplayEvent) : Prop :=
  a.timestamp < b.timestamp ∨ (a.timestamp = b.timestamp ∧ a.createdAt ≤ b.createdAt)

instance : DecidableRel eventLE := fun a b => by unfold eventLE; infer_instance

/-- The text of `gorm.ErrRecordNotFound`. -/
def errRecordNotFound : String := "record not found"

/-- The row that `Save` leaves of `r`: every column of `s` but the omitted ones. -/
def overwrite (s r : ReplaySession) : ReplaySession :=
  { s with id := r.id, shareToken := r.shareToken, device := r.device }

/-- The row that `Save` inserts: the omitted columns are `NULL`. -/
def inserted (s : ReplaySession) : ReplaySession := { s with shareToken := none, device := {} }

/-- The `UPDATE` of `Save`. -/
def DB.updateSession (db : DB) (s : ReplaySession) : DB :=
  db.modifySession s.id (overwrite s) (fun _ => rfl) fun _ => rfl

/-- The `INSERT .. ON CONFLICT` of `Save`. -/
def DB.insertSession (db : DB) (s : ReplaySession) : DB :=
  match h : db.sessions.insert [inserted s] with
  | some t => db.withSession t (inserted s) (Table.rows_of_insert h) rfl
  | none => db.updateSession s

/-- **What an accepted statement does.** -/
def Stmt.run (e : Env) : (q : Stmt) → DB → Except String (DB × Answer q)
  | .updateSession s, db =>
    .ok (db.updateSession s, (db.sessions.rows.filter fun r => r.id = s.id).length)
  | .insertSession s, db => .ok (db.insertSession s, ())
  | .setClientMetadata id d, db =>
    .ok (db.modifySession id (fun r => { r with device := d })
      (fun _ => rfl) fun _ => rfl, ())
  | .incrementEventCount id delta, db =>
    .ok (db.modifySession id
      (fun r => { r with eventCount := r.eventCount + delta }) (fun _ => rfl) fun _ => rfl, ())
  | .updateSessionEnd id endedAt durationMs, db =>
    .ok (db.modifySession id
      (fun r => { r with endedAt := endedAt, durationMs := durationMs })
      (fun _ => rfl) fun _ => rfl, ())
  | .insertEvents es, db =>
    if hes : ∀ ev ∈ es, ev.sessionID ∈ db.sessions.keys then
      match ht : db.events.insert es with
      | some t => .ok (db.withEvents t es (Table.rows_of_insert ht) hes, ())
      | none => .error e.violation
    else .error e.violation
  | .countSessions f, db => .ok (db, (db.sessions.rows.filter f.accepts).length)
  | .findSessions f limit offset, db =>
    .ok (db, (((e.scanSessions.1 (db.sessions.rows.filter f.accepts)).insertionSort
      fun a b => b.startedAt ≤ a.startedAt).drop offset.toNat).take limit.toNat)
  | .selectSession id, db =>
    match db.sessions.find id with
    | some s => .ok (db, s)
    | none => .error errRecordNotFound
  | .setShareToken id token, db =>
    if h : db.tokenTaken id token = false then .ok (db.withShareToken id token h, ())
    -- the index is checked only if the update touches a row
    else if id ∈ db.sessions.keys then .error e.violation
    else .ok (db, ())
  | .deleteSession id, db =>
    .ok (db.deleteRows (fun x => x = id), ())
  | .pluckStartedBefore cutoff, db =>
    .ok (db, ((e.scanSessions.1 db.sessions.rows).filter fun r => r.startedAt < cutoff).map
      ReplaySession.id)
  | .purgeSessions ids, db =>
    .ok (db.deleteRows (fun x => ids.contains x), ())
  | .selectByShareToken token, db =>
    match db.sessions.rows.find? fun r => r.shareToken = some token with
    | some s => .ok (db, s)
    | none => .error errRecordNotFound
  | .selectEvents sessionID, db =>
    .ok (db, (e.scanEvents.1 (db.eventsOf sessionID)).insertionSort eventLE)
  | .insertFailed f, db =>
    -- gorm fills in `created_at`
    match db.failed.insert [{ f with createdAt := e.now }] with
    | some t => .ok (db.withFailed t, ())
    | none => .error e.violation
  | .listFailed onlyUnresolved, db =>
    .ok (db, (e.scanFailed.1 (db.failed.rows.filter fun f =>
      !onlyUnresolved || !f.resolved)).insertionSort fun a b => b.createdAt ≤ a.createdAt)
  | .selectFailed id, db =>
    match db.failed.find id with
    | some f => .ok (db, f)
    | none => .error errRecordNotFound
  | .markFailedResolved id now, db =>
    .ok (db.withFailed (db.failed.modify id
      (fun f => { f with resolved := true, resolvedAt := some now }) fun _ => rfl), ())

/-! ## What a statement does to each table -/

/-- The rows of `replay_sessions` with the row of session `id` updated. -/
def updateRow (id : String) (f : ReplaySession → ReplaySession) (l : List ReplaySession) :
    List ReplaySession :=
  l.map fun r => if r.id = id then f r else r

/-- The rows of `replay_sessions` after the `INSERT .. ON CONFLICT` of `Save`. -/
def upsertRow (s : ReplaySession) (l : List ReplaySession) : List ReplaySession :=
  if s.id ∈ l.map ReplaySession.id then updateRow s.id (overwrite s) l else l ++ [inserted s]

namespace Stmt

/-- `replay_sessions` after an accepted statement. -/
def onSessions : Stmt → List ReplaySession → List ReplaySession
  | .updateSession s, l => updateRow s.id (overwrite s) l
  | .insertSession s, l => upsertRow s l
  | .setClientMetadata id d, l => updateRow id (fun r => { r with device := d }) l
  | .incrementEventCount id delta, l =>
    updateRow id (fun r => { r with eventCount := r.eventCount + delta }) l
  | .updateSessionEnd id endedAt durationMs, l =>
    updateRow id (fun r => { r with endedAt := endedAt, durationMs := durationMs }) l
  | .setShareToken id token, l => updateRow id (fun r => { r with shareToken := some token }) l
  | .deleteSession id, l => l.filter fun r => r.id ≠ id
  | .purgeSessions ids, l => l.filter fun r => r.id ∉ ids
  | _, l => l

/-- `replay_events` after an accepted statement. -/
def onEvents : Stmt → List ReplayEvent → List ReplayEvent
  | .insertEvents es, l => l ++ es
  | .deleteSession id, l => l.filter fun ev => ev.sessionID ≠ id
  | .purgeSessions ids, l => l.filter fun ev => ev.sessionID ∉ ids
  | _, l => l

/-- `failed_ingest` after a statement accepted at time `now`. -/
def onFailed (now : Time) : Stmt → List FailedIngest → List FailedIngest
  | .insertFailed f, l => l ++ [{ f with createdAt := now }]
  | .markFailedResolved id t, l =>
    l.map fun f => if f.id = id then { f with resolved := true, resolvedAt := some t } else f
  | _, l => l

end Stmt

theorem updateRow_of_notMem {id : String} {f : ReplaySession → ReplaySession}
    {l : List ReplaySession} (h : id ∉ l.map ReplaySession.id) : updateRow id f l = l := by
  refine (List.map_congr_left fun r hr => ?_).trans (List.map_id l)
  exact if_neg fun he => h (List.mem_map.mpr ⟨r, hr, he⟩)

theorem mem_updateRow {id : String} {f : ReplaySession → ReplaySession} {l : List ReplaySession}
    {r' : ReplaySession} (h : r' ∈ updateRow id f l) :
    ∃ r ∈ l, r' = if r.id = id then f r else r := by
  obtain ⟨r, hr, rfl⟩ := List.mem_map.mp h
  exact ⟨r, hr, rfl⟩

theorem DB.insertSession_rows (db : DB) (s : ReplaySession) :
    (db.insertSession s).sessions.rows = upsertRow s db.sessions.rows ∧
      (db.insertSession s).events = db.events ∧ (db.insertSession s).failed = db.failed := by
  unfold DB.insertSession upsertRow
  split
  next t h =>
    have hs : s.id ∉ db.sessions.rows.map ReplaySession.id :=
      Table.notMem_of_insert (r := inserted s) h (List.mem_singleton_self (inserted s))
    rw [if_neg hs]
    exact ⟨Table.rows_of_insert h, rfl, rfl⟩
  next h =>
    have hs : s.id ∈ db.sessions.rows.map ReplaySession.id :=
      Table.mem_of_insert_singleton (r := inserted s) h
    rw [if_pos hs]
    exact ⟨rfl, rfl, rfl⟩

/-- **The tables after an accepted statement.** -/
theorem Stmt.run_rows {q : Stmt} {e : Env} {db db' : DB} {a : Answer q}
    (h : q.run e db = .ok (db', a)) :
    db'.sessions.rows = q.onSessions db.sessions.rows ∧
      db'.events.rows = q.onEvents db.events.rows ∧
      db'.failed.rows = q.onFailed e.now db.failed.rows := by
  cases q with
  | insertSession s =>
    cases h
    obtain ⟨h₁, h₂, h₃⟩ := db.insertSession_rows s
    exact ⟨h₁, congrArg _ h₂, congrArg _ h₃⟩
  | insertEvents es =>
    simp only [Stmt.run] at h
    split_ifs at h
    split at h
    next t ht =>
      cases h
      exact ⟨rfl, Table.rows_of_insert ht, rfl⟩
    next => cases h
  | setShareToken id token =>
    simp only [Stmt.run] at h
    split_ifs at h with h₁ h₂
    · cases h
      exact ⟨rfl, rfl, rfl⟩
    · cases h
      exact ⟨(updateRow_of_notMem h₂).symm, rfl, rfl⟩
  | deleteSession id =>
    cases h
    simp [Stmt.onSessions, Stmt.onEvents, Stmt.onFailed, DB.deleteRows]
  | purgeSessions ids =>
    cases h
    simp [Stmt.onSessions, Stmt.onEvents, Stmt.onFailed, DB.deleteRows]
  | insertFailed f =>
    simp only [Stmt.run] at h
    split at h
    next t ht =>
      cases h
      exact ⟨rfl, rfl, Table.rows_of_insert ht⟩
    next => cases h
  | selectSession id | selectByShareToken token | selectFailed id =>
    simp only [Stmt.run] at h
    split at h <;> cases h
    exact ⟨rfl, rfl, rfl⟩
  | _ =>
    cases h
    exact ⟨rfl, rfl, rfl⟩

theorem DB.updateSession_of_none {db : DB} {s : ReplaySession}
    (h : db.sessions.find s.id = none) : db.updateSession s = db :=
  DB.ext (Table.modify_eq_self (f := overwrite s) (fun _ => rfl) h) rfl rfl

theorem DB.updateSession_of_some {db : DB} {s row : ReplaySession}
    (h : db.sessions.find s.id = some row) :
    (db.updateSession s).sessions = db.sessions.put (overwrite s row) :=
  Table.modify_eq_put (f := overwrite s) (fun _ => rfl) h

theorem DB.insertSession_of_none {db : DB} {s : ReplaySession}
    (h : db.sessions.find s.id = none) :
    (db.insertSession s).sessions = db.sessions.put (inserted s) := by
  have hs : s.id ∉ db.sessions.rows.map ReplaySession.id := Table.find_eq_none.mp h
  refine Table.ext ?_
  rw [(db.insertSession_rows s).1, Table.rows_put_of_notMem (r := inserted s) hs, upsertRow,
    if_neg hs]

/-- The `UPDATE` of `Save` affects no row exactly if there is none with the id. -/
theorem Stmt.run_updateSession {s : ReplaySession} {e : Env} {db db' : DB} {affected : ℕ}
    (h : (Stmt.updateSession s).run e db = .ok (db', affected)) :
    db' = db.updateSession s ∧ (affected = 0 ↔ db.sessions.find s.id = none) := by
  cases h
  refine ⟨rfl, ?_⟩
  rw [Table.find_eq_none, Table.mem_keys, List.length_eq_zero_iff, List.filter_eq_nil_iff]
  simp

/-- No constraint is violated, and the row asked for exists. -/
def Stmt.Admits : Stmt → DB → Prop
  | .setShareToken id token, db => db.tokenTaken id token = false ∨ id ∉ db.sessions.keys
  | .insertEvents es, db => (∀ ev ∈ es, ev.sessionID ∈ db.sessions.keys) ∧
      ((db.events.rows ++ es).map ReplayEvent.id).Nodup
  | .insertFailed f, db => f.id ∉ db.failed.keys
  | .selectSession id, db => id ∈ db.sessions.keys
  | .selectByShareToken token, db => ∃ r ∈ db.sessions.rows, r.shareToken = some token
  | .selectFailed id, db => id ∈ db.failed.keys
  | _, _ => True

/-- **A statement is accepted exactly if it violates no constraint.** -/
theorem Stmt.run_ok_iff {q : Stmt} {e : Env} {db : DB} :
    (∃ x, q.run e db = .ok x) ↔ q.Admits db := by
  cases q with
  | setShareToken id token =>
    simp only [Stmt.run, Stmt.Admits]
    by_cases h₁ : db.tokenTaken id token = false
    · simp [h₁]
    · by_cases h₂ : id ∈ db.sessions.keys <;> simp [h₁, h₂]
  | insertEvents es =>
    simp only [Stmt.run, Stmt.Admits]
    by_cases h₁ : ∀ ev ∈ es, ev.sessionID ∈ db.sessions.keys
    · rw [dif_pos h₁]
      split
      next t ht =>
        have hnd := t.nodup
        rw [Table.rows_of_insert ht] at hnd
        exact iff_of_true ⟨_, rfl⟩ ⟨h₁, hnd⟩
      next ht => exact iff_of_false (by simp) fun h => by simp [Table.insert_eq_some h.2] at ht
    · rw [dif_neg h₁]
      exact iff_of_false (by simp) fun h => h₁ h.1
  | insertFailed f =>
    simp only [Stmt.run, Stmt.Admits]
    split
    next t ht =>
      exact iff_of_true ⟨_, rfl⟩ (Table.notMem_of_insert (r := { f with createdAt := e.now }) ht
        (List.mem_singleton_self _))
    next ht =>
      exact iff_of_false (by simp) (not_not_intro
        (Table.mem_of_insert_singleton (r := { f with createdAt := e.now }) ht))
  | selectSession id | selectFailed id =>
    simp only [Stmt.run, Stmt.Admits, ← Table.find_isSome]
    split
    next h => simp [h]
    next h => simp [h]
  | selectByShareToken token =>
    simp only [Stmt.run, Stmt.Admits]
    split
    next r h =>
      exact iff_of_true ⟨_, rfl⟩
        ⟨r, List.mem_of_find?_eq_some h, by simpa using List.find?_some h⟩
    next h =>
      refine iff_of_false (by simp) ?_
      rintro ⟨r, hr, ht⟩
      simpa [ht] using List.find?_eq_none.mp h r hr
  | _ => exact iff_of_true ⟨_, rfl⟩ trivial

end BatRewind
