import BatRewind.Lib.Prog
import BatRewind.Session.Database

/-!
# The repository

The methods of `internal/session/repository.go` are programs over calls: a clock reading, fresh
ids, or a statement. A refused statement (`Env.fault`, or a violated constraint) changes nothing
and returns an error. `gorm`'s `Save` is an `UPDATE` of every column but the omitted ones and, when
that affects no row, an `INSERT .. ON CONFLICT`.

* `AnyAnswer`, `Healthy`, `HealthyAt`: the handlers under which a statement may be refused, is
  accepted, is accepted at a given clock reading.
-/

namespace BatRewind

open Encoding Tables Effects Effects.Prog

/-! ## Calls -/

/-- A call of the session service: the clock, the id generator, or a statement. -/
inductive Call where
  | timeNow
  | uuidNew
  | sql (q : Stmt)

/-- The answer to a call. `uuid.New` answers with the ids it will generate. -/
@[reducible] def Resp : Call → Type
  | .timeNow => Time
  | .uuidNew => ℕ → String
  | .sql q => Except String (Answer q)

/-- **One call against the database.** -/
def exec (e : Env) : (c : Call) → DB → DB × Resp c
  | .timeNow, db => (db, e.now)
  | .uuidNew, db => (db, e.uuid)
  | .sql q, db =>
    match e.fault with
    | some msg => (db, .error msg)
    | none =>
      match q.run e db with
      | .ok (db', a) => (db', .ok a)
      | .error msg => (db, .error msg)

/-- The call was not answered with an error. -/
def Accepted : (c : Call) → Resp c → Prop
  | .timeNow, _ | .uuidNew, _ => True
  | .sql _, r => ∃ a, r = .ok a

/-- The environment at every call satisfies `E`. -/
def Answers (E : Env → Prop) : Handler Call Resp DB := fun c db db' r =>
  ∃ e, E e ∧ exec e c db = (db', r)

/-- Any statement may be refused. -/
def AnyAnswer : Handler Call Resp DB := Answers fun _ => True

/-- Every statement succeeds. -/
def Healthy : Handler Call Resp DB := fun c db db' r => AnyAnswer c db db' r ∧ Accepted c r

/-- Every statement succeeds and the clock reads `t`. -/
def HealthyAt (t : Time) : Handler Call Resp DB := fun c db db' r =>
  Answers (fun e => e.now = t) c db db' r ∧ Accepted c r

/-- An environment that refuses nothing, or everything with `fault`. -/
def Env.quiet (fault : Option String) (now : Time) (uuid : ℕ → String) : Env where
  fault := fault
  violation := "duplicate key value violates unique constraint"
  now := now
  uuid := uuid
  scanSessions := ⟨id, fun _ => .refl _⟩
  scanEvents := ⟨id, fun _ => .refl _⟩
  scanFailed := ⟨id, fun _ => .refl _⟩

@[simp] theorem exec_sql_of_fault {e : Env} {msg : String} (he : e.fault = some msg) (q : Stmt)
    (db : DB) : exec e (.sql q) db = (db, .error msg) := by
  simp only [exec, he]

@[simp] theorem exec_sql_of_none {e : Env} (he : e.fault = none) (q : Stmt) (db : DB) :
    exec e (.sql q) db = match q.run e db with
      | .ok (db', a) => (db', .ok a)
      | .error msg => (db, .error msg) := by
  simp only [exec, he]

/-- **A statement is refused and changes nothing, or does what `Stmt.run` says.** -/
theorem Answers.sql_cases {E : Env → Prop} {q : Stmt} {db db' : DB} {r : Except String (Answer q)}
    (h : Answers E (.sql q) db db' r) : (∃ msg, db' = db ∧ r = .error msg) ∨
      ∃ e a, E e ∧ q.run e db = .ok (db', a) ∧ r = .ok a := by
  obtain ⟨e, hE, h⟩ := h
  cases hf : e.fault with
  | some msg =>
    rw [exec_sql_of_fault hf, Prod.mk.injEq] at h
    exact Or.inl ⟨msg, h.1.symm, h.2.symm⟩
  | none =>
    rw [exec_sql_of_none hf] at h
    rcases hr : q.run e db with msg | ⟨db₁, a⟩ <;> rw [hr] at h <;>
      simp only [Prod.mk.injEq] at h
    · exact Or.inl ⟨msg, h.1.symm, h.2.symm⟩
    · obtain ⟨rfl, rfl⟩ := h
      exact Or.inr ⟨e, a, hE, hr, rfl⟩

theorem Answers.refused {E : Env → Prop} {q : Stmt} {db db' : DB} {msg : String}
    (h : Answers E (.sql q) db db' (.error msg)) : db' = db := by
  rcases h.sql_cases with ⟨_, hdb, -⟩ | ⟨_, _, -, -, hr⟩
  · exact hdb
  · cases hr

theorem Answers.accepted {E : Env → Prop} {q : Stmt} {db db' : DB} {a : Answer q}
    (h : Answers E (.sql q) db db' (.ok a)) : ∃ e, E e ∧ q.run e db = .ok (db', a) := by
  rcases h.sql_cases with ⟨_, -, hr⟩ | ⟨e, _, hE, hrun, hr⟩
  · cases hr
  · cases hr
    exact ⟨e, hE, hrun⟩

theorem answers_refuse {E : Env → Prop} {q : Stmt} {db : DB} {e : Env} {msg : String} (hE : E e)
    (hf : e.fault = some msg) : Answers E (.sql q) db db (.error msg) :=
  ⟨e, hE, exec_sql_of_fault hf q db⟩

theorem answers_accept {E : Env → Prop} {q : Stmt} {db db' : DB} {e : Env} {a : Answer q}
    (hE : E e) (hf : e.fault = none) (h : q.run e db = .ok (db', a)) :
    Answers E (.sql q) db db' (.ok a) :=
  ⟨e, hE, by rw [exec_sql_of_none hf, h]⟩

theorem Answers.mono {E E' : Env → Prop} (hE : ∀ e, E e → E' e) {c : Call} {db db' : DB}
    {r : Resp c} (h : Answers E c db db' r) : Answers E' c db db' r := by
  obtain ⟨e, he, h⟩ := h
  exact ⟨e, hE e he, h⟩

theorem HealthyAt.healthy {t : Time} {c : Call} {db db' : DB} {r : Resp c}
    (h : HealthyAt t c db db' r) : Healthy c db db' r :=
  ⟨h.1.mono fun _ _ => trivial, h.2⟩

theorem answers_timeNow {E : Env → Prop} {db db' : DB} {r : Time} :
    Answers E .timeNow db db' r ↔ db' = db ∧ ∃ e, E e ∧ r = e.now := by
  constructor
  · rintro ⟨e, hE, h⟩
    obtain ⟨h₁, h₂⟩ := Prod.mk.inj h
    exact ⟨h₁.symm, e, hE, h₂.symm⟩
  · rintro ⟨rfl, e, hE, rfl⟩
    exact ⟨e, hE, rfl⟩

theorem answers_uuidNew {E : Env → Prop} {db db' : DB} {r : ℕ → String} :
    Answers E .uuidNew db db' r ↔ db' = db ∧ ∃ e, E e ∧ r = e.uuid := by
  constructor
  · rintro ⟨e, hE, h⟩
    obtain ⟨h₁, h₂⟩ := Prod.mk.inj h
    exact ⟨h₁.symm, e, hE, h₂.symm⟩
  · rintro ⟨rfl, e, hE, rfl⟩
    exact ⟨e, hE, rfl⟩

/-! ## Methods -/

/-- A fallible method of the repository or the service. -/
abbrev Svc := ExceptT String (Prog Call Resp)

/-- Send a statement. -/
def sql (q : Stmt) : Svc (Answer q) := ExceptT.mk (perform (R := Resp) (.sql q))

/-- `time.Now().UTC()`. -/
def timeNow : Svc Time := ExceptT.lift (perform (R := Resp) .timeNow)

/-- `uuid.New()`, called as often as needed. -/
def uuidNew : Svc (ℕ → String) := ExceptT.lift (perform (R := Resp) .uuidNew)

/-- `fmt.Errorf("..: %w", err)`. -/
def wrap {α : Type} (text : String) (x : Svc α) : Svc α := ExceptT.adapt (fun err => text ++ err) x

namespace Repository

/-- Insert or update a session, leaving the columns of `omitOnUpsert` alone. -/
def upsertSession (s : ReplaySession) : Svc Unit := do
  let affected ← sql (.updateSession s)
  if affected = 0 then sql (.insertSession s)

/-- The columns of sanitized metadata and the fields derived from its user agent. -/
def clientColumns (m : ClientMeta Bytes) (ua : UserAgent) : DeviceColumns where
  screenWidth := m.screenWidth
  screenHeight := m.screenHeight
  viewportWidth := m.viewportWidth
  viewportHeight := m.viewportHeight
  devicePixelRatio := m.devicePixelRatio
  language := m.language
  timezone := m.timezone
  userAgent := m.userAgent
  browser := ua.browser
  browserVersion := ua.browserVersion
  os := ua.os
  deviceType := ua.deviceType

def setClientMetadata (id : String) (m : ClientMeta Bytes) (ua : UserAgent) : Svc Unit :=
  sql (.setClientMetadata id (clientColumns m ua))

def incrementEventCount (sessionID : String) (delta : ℕ) : Svc Unit :=
  sql (.incrementEventCount sessionID delta)

def updateSessionEnd (s : ReplaySession) : Svc Unit :=
  sql (.updateSessionEnd s.id s.endedAt s.durationMs)

def insertEvents (events : List ReplayEvent) : Svc Unit := sql (.insertEvents events)

/-- A page of sessions, newest first, and the number of all that match. -/
def list (f : ListFilter) : Svc (List ReplaySession × ℕ) := do
  let total ← sql (.countSessions f)
  let limit := if f.limit ≤ 0 ∨ f.limit > 100 then 50 else f.limit
  let sessions ← sql (.findSessions f limit f.offset)
  return (sessions, total)

def getByID (id : String) : Svc ReplaySession := sql (.selectSession id)

def setShareToken (id token : String) : Svc Unit := sql (.setShareToken id token)

/-- Remove a session and all its events in one transaction. -/
def deleteSession (id : String) : Svc Unit := sql (.deleteSession id)

/-- Delete the sessions started before `cutoff`, and their events. -/
def purgeOlderThan (cutoff : Time) : Svc ℕ := do
  let ids ← sql (.pluckStartedBefore cutoff)
  if ids.length = 0 then return 0
  sql (.purgeSessions ids)
  return ids.length

def getByShareToken (token : String) : Svc ReplaySession := sql (.selectByShareToken token)

def getEvents (sessionID : String) : Svc (List ReplayEvent) := sql (.selectEvents sessionID)

def saveFailed (f : FailedIngest) : Svc Unit := sql (.insertFailed f)

def listFailed (onlyUnresolved : Bool) : Svc (List FailedIngest) := sql (.listFailed onlyUnresolved)

def getFailed (id : String) : Svc FailedIngest := sql (.selectFailed id)

def markFailedResolved (id : String) : Svc Unit := do
  let now ← timeNow
  sql (.markFailedResolved id now)

end Repository

end BatRewind
