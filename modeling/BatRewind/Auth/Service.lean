import BatRewind.Lib.Prog
import BatRewind.Lib.Table
import BatRewind.Session.Model

/-!
# API keys and projects

The tables `api_keys` and `projects` and the methods of `internal/auth` that use them, as programs
over calls: the clock, generated ids, random bytes and statements. Any statement may be refused;
the foreign keys of the two tables are not modelled, a violation of one is a refusal.

* `AuthStmt.run`: what an accepted statement does; the unique columns are fields of `AuthDB`.
* `Auth.createAPIKey`, `Auth.validateAPIKey`, `Auth.ensureAPIKey`, `Auth.ensureProject`: the
  service; `sha256` is a parameter.
* `KeyCall`, `KeyRuns`: calls one after another.
-/

namespace BatRewind

open Tables Effects Effects.Prog

/-! ## Tables -/

/-- A row of `api_keys`; `projectID` is empty where the database holds `NULL`. -/
structure APIKey where
  id : String
  keyHash : String
  projectID : String
  name : String
  createdAt : Time
  expiresAt : Option Time := none
  active : Bool
deriving DecidableEq

/-- A row of `projects`; `createdBy` is empty where the database holds `NULL`. -/
structure Project where
  id : String
  name : String
  slug : String
  createdBy : String := ""
  createdAt : Time
deriving DecidableEq

/-- **The tables**, with their unique columns. -/
structure AuthDB where
  apiKeys : Table APIKey.id
  projects : Table Project.id
  hash_unique : (apiKeys.rows.map APIKey.keyHash).Nodup
  slug_unique : (projects.rows.map Project.slug).Nodup

namespace AuthDB

/-- The tables after the migrations. -/
def empty : AuthDB := ⟨.empty, .empty, List.nodup_nil, List.nodup_nil⟩

/-- Insert an API key, unless its id or its hash is taken. -/
def insertKey (db : AuthDB) (k : APIKey) : Option AuthDB :=
  match h : db.apiKeys.insert [k] with
  | some t =>
    if hk : ((db.apiKeys.rows ++ [k]).map APIKey.keyHash).Nodup then
      some { db with apiKeys := t, hash_unique := by rw [Table.rows_of_insert h]; exact hk }
    else none
  | none => none

/-- Insert a project, unless its id or its slug is taken. -/
def insertProject (db : AuthDB) (p : Project) : Option AuthDB :=
  match h : db.projects.insert [p] with
  | some t =>
    if hp : ((db.projects.rows ++ [p]).map Project.slug).Nodup then
      some { db with projects := t, slug_unique := by rw [Table.rows_of_insert h]; exact hp }
    else none
  | none => none

theorem map_hash_modify {id : String} {f : APIKey → APIKey}
    (hf : ∀ k, (f k).keyHash = k.keyHash) (l : List APIKey) :
    (l.map fun k => if k.id = id then f k else k).map APIKey.keyHash = l.map APIKey.keyHash := by
  rw [List.map_map]
  refine List.map_congr_left fun k _ => ?_
  simp only [Function.comp_apply]
  split_ifs
  · exact hf k
  · rfl

/-- Update the key `id`, leaving ids and hashes alone. -/
def modifyKey (db : AuthDB) (id : String) (f : APIKey → APIKey) (hid : ∀ k, (f k).id = k.id)
    (hhash : ∀ k, (f k).keyHash = k.keyHash) : AuthDB :=
  { db with
    apiKeys := db.apiKeys.modify id f hid
    hash_unique := by
      rw [Table.rows_modify, map_hash_modify hhash]
      exact db.hash_unique }

end AuthDB

/-! ## Statements and calls -/

/-- A statement of the repository. -/
inductive AuthStmt where
  | createAPIKey (k : APIKey)
  | selectActiveByHash (keyHash : String)
  | selectAPIKey (id : String)
  | revokeAPIKey (id : String)
  | updateAPIKeyProject (keyID projectID : String)
  | createProject (p : Project)
  | selectProjectBySlug (slug : String)

/-- What an accepted statement returns. -/
@[reducible] def AuthAnswer : AuthStmt → Type
  | .selectActiveByHash _ | .selectAPIKey _ => APIKey
  | .selectProjectBySlug _ => Project
  | _ => Unit

/-- An error of the database driver. -/
inductive DBError where
  /-- `gorm.ErrRecordNotFound` -/
  | recordNotFound
  | other (text : String)
deriving DecidableEq

/-- What the environment decides at a call: whether the statement is refused, the text for a
violated constraint, the clock, the generated id and the random bytes. -/
structure AuthEnv where
  fault : Option String
  violation : String
  now : Time
  uuid : String
  random : Except String Bytes

/-- **What an accepted statement does.** Hashes and slugs are unique, so the row that `First`
takes does not depend on its order. -/
def AuthStmt.run (e : AuthEnv) : (q : AuthStmt) → AuthDB → Except DBError (AuthDB × AuthAnswer q)
  | .createAPIKey k, db =>
    match db.insertKey k with
    | some db' => .ok (db', ())
    | none => .error (.other e.violation)
  | .selectActiveByHash h, db =>
    match db.apiKeys.rows.find? fun k => k.keyHash = h && k.active with
    | some k => .ok (db, k)
    | none => .error .recordNotFound
  | .selectAPIKey id, db =>
    match db.apiKeys.find id with
    | some k => .ok (db, k)
    | none => .error .recordNotFound
  | .revokeAPIKey id, db =>
    .ok (db.modifyKey id (fun k => { k with active := false }) (fun _ => rfl) fun _ => rfl, ())
  | .updateAPIKeyProject id projectID, db =>
    .ok (db.modifyKey id (fun k => { k with projectID := projectID }) (fun _ => rfl)
      fun _ => rfl, ())
  | .createProject p, db =>
    match db.insertProject p with
    | some db' => .ok (db', ())
    | none => .error (.other e.violation)
  | .selectProjectBySlug slug, db =>
    match db.projects.rows.find? fun p => p.slug = slug with
    | some p => .ok (db, p)
    | none => .error .recordNotFound

/-- A call of the service. -/
inductive AuthCall where
  | timeNow
  | uuidNew
  | randRead
  | sql (q : AuthStmt)

/-- The answer to a call. -/
@[reducible] def AuthResp : AuthCall → Type
  | .timeNow => Time
  | .uuidNew => String
  | .randRead => Except String Bytes
  | .sql q => Except DBError (AuthAnswer q)

/-- One call against the tables. -/
def authExec (e : AuthEnv) : (c : AuthCall) → AuthDB → AuthDB × AuthResp c
  | .timeNow, db => (db, e.now)
  | .uuidNew, db => (db, e.uuid)
  | .randRead, db => (db, e.random)
  | .sql q, db =>
    match e.fault with
    | some msg => (db, .error (.other msg))
    | none =>
      match q.run e db with
      | .ok (db', a) => (db', .ok a)
      | .error err => (db, .error err)

/-- The environment at every call satisfies `E`. -/
def AuthAnswers (E : AuthEnv → Prop) : Handler AuthCall AuthResp AuthDB := fun c db db' r =>
  ∃ e, E e ∧ authExec e c db = (db', r)

/-- Any statement may be refused. -/
def AnyAuthAnswer : Handler AuthCall AuthResp AuthDB := AuthAnswers fun _ => True

/-- Any statement may be refused, and the clock reads `t`. -/
def ClockAt (t : Time) : Handler AuthCall AuthResp AuthDB := AuthAnswers fun e => e.now = t

/-- No statement is refused, and the clock reads `t`. -/
def ReachableAt (t : Time) : Handler AuthCall AuthResp AuthDB :=
  AuthAnswers fun e => e.now = t ∧ e.fault = none

/-! ## Methods -/

/-- The errors of the service. -/
inductive AuthError where
  /-- `ErrNotFound` -/
  | notFound
  /-- `ErrSlugTaken` -/
  | slugTaken
  | db (err : DBError)
  | random (text : String)
deriving DecidableEq

/-- A fallible method. -/
abbrev AuthSvc := ExceptT AuthError (Prog AuthCall AuthResp)

namespace Auth

def timeNow : AuthSvc Time := ExceptT.lift (perform (R := AuthResp) .timeNow)

def uuidNew : AuthSvc String := ExceptT.lift (perform (R := AuthResp) .uuidNew)

/-- Send a statement. -/
def sql (q : AuthStmt) : ExceptT DBError (Prog AuthCall AuthResp) (AuthAnswer q) :=
  ExceptT.mk (perform (R := AuthResp) (.sql q))

/-- The error of a query: a missing record is `ErrNotFound`. -/
def queryError : DBError → AuthError
  | .recordNotFound => .notFound
  | err => .db err

/-- The text of a driver error names a violated unique constraint. -/
def isDuplicate (text : String) : Bool :=
  stringsContains (utf8 text) "23505" || stringsContains (utf8 text) "duplicate key" ||
    stringsContains (utf8 text) "UNIQUE constraint"

/-- The error of `CreateProject`. -/
def projectError : DBError → AuthError
  | .other text => if isDuplicate text then .slugTaken else .db (.other text)
  | err => .db err

namespace Repository

def createAPIKey (k : APIKey) : AuthSvc Unit := ExceptT.adapt .db (sql (.createAPIKey k))

/-- The active key with a hash, if it has not expired. -/
def getAPIKeyByHash (keyHash : String) : AuthSvc APIKey := do
  let k ← ExceptT.adapt queryError (sql (.selectActiveByHash keyHash))
  match k.expiresAt with
  | none => return k
  | some t => do
    let now ← timeNow
    if t < now then throw .notFound else return k

def getAPIKeyByID (id : String) : AuthSvc APIKey :=
  ExceptT.adapt queryError (sql (.selectAPIKey id))

def revokeAPIKey (id : String) : AuthSvc Unit := ExceptT.adapt .db (sql (.revokeAPIKey id))

def updateAPIKeyProject (keyID projectID : String) : AuthSvc Unit :=
  ExceptT.adapt .db (sql (.updateAPIKeyProject keyID projectID))

def createProject (p : Project) : AuthSvc Unit :=
  ExceptT.adapt projectError (sql (.createProject p))

def getProjectBySlug (slug : String) : AuthSvc Project :=
  ExceptT.adapt queryError (sql (.selectProjectBySlug slug))

end Repository

/-- The two hexadecimal digits of a byte. -/
def hexByte (b : UInt8) : List Char :=
  [(b.toNat / 16).digitChar, (b.toNat % 16).digitChar]

/-- `hex.EncodeToString`. -/
def hexEncode (bs : Bytes) : String := String.ofList (bs.flatMap hexByte)

section Service

variable (sha256 : Bytes → Bytes)

/-- The stored hash of a raw key. -/
def hashOf (rawKey : String) : String := hexEncode (sha256 (utf8 rawKey))

/-- The row of a new key. -/
def newKey (id rawKey projectID name : String) (now : Time) : APIKey where
  id := id
  keyHash := hashOf sha256 rawKey
  projectID := projectID
  name := name
  createdAt := now
  active := true

/-- Create a key of 32 random bytes and return it. -/
def createAPIKey (projectID name : String) : AuthSvc String := do
  let raw ← ExceptT.adapt AuthError.random (ExceptT.mk (perform (R := AuthResp) .randRead))
  let rawKey := "rew_" ++ hexEncode raw
  let id ← uuidNew
  let now ← timeNow
  Repository.createAPIKey (newKey sha256 id rawKey projectID name now)
  return rawKey

/-- The record of a raw key that may be used. -/
def validateAPIKey (rawKey : String) : AuthSvc APIKey :=
  Repository.getAPIKeyByHash (hashOf sha256 rawKey)

/-- Create the given raw key if it does not already exist. -/
def ensureAPIKey (rawKey name : String) : AuthSvc Unit := do
  match ← ExceptT.lift (Repository.getAPIKeyByHash (hashOf sha256 rawKey)).run with
  | .ok _ => return
  | .error _ => do
    let id ← uuidNew
    let now ← timeNow
    Repository.createAPIKey (newKey sha256 id rawKey "" name now)

end Service

/-- Give a key without a project the project `projectID`; errors are ignored. -/
def adoptKey (apiKeyID projectID : String) : AuthSvc Unit :=
  if apiKeyID ≠ "" then do
    match ← ExceptT.lift (Repository.getAPIKeyByID apiKeyID).run with
    | .ok key =>
      if key.projectID = "" then do
        let _ ← ExceptT.lift (Repository.updateAPIKeyProject apiKeyID projectID).run
        return
      else return
    | .error _ => return
  else return

/-- The project of a service name, created if it does not exist. -/
def ensureProject (serviceName apiKeyID : String) : AuthSvc String := do
  match ← ExceptT.lift (Repository.getProjectBySlug serviceName).run with
  | .ok project => return project.id
  | .error err =>
    if err ≠ .notFound then throw err
    let id ← uuidNew
    let now ← timeNow
    let newProject : Project :=
      { id := id, name := serviceName, slug := serviceName, createdAt := now }
    match ← ExceptT.lift (Repository.createProject newProject).run with
    | .error createErr =>
      match ← ExceptT.lift (Repository.getProjectBySlug serviceName).run with
      | .ok existing => return existing.id
      | .error _ => throw createErr
    | .ok () =>
      adoptKey apiKeyID newProject.id
      return newProject.id

end Auth

/-! ## Runs -/

/-- A call that changes keys or projects. -/
inductive KeyCall where
  | createAPIKey (projectID name : String)
  | ensureAPIKey (rawKey name : String)
  | revokeAPIKey (id : String)
  | updateAPIKeyProject (keyID projectID : String)
  | ensureProject (serviceName apiKeyID : String)

/-- The program of a call; its result goes to the caller. -/
def KeyCall.program (sha256 : Bytes → Bytes) :
    KeyCall → Prog AuthCall AuthResp (Except AuthError Unit)
  | .createAPIKey projectID name =>
    (do let _ ← Auth.createAPIKey sha256 projectID name; pure ()).run
  | .ensureAPIKey rawKey name => (Auth.ensureAPIKey sha256 rawKey name).run
  | .revokeAPIKey id => (Auth.Repository.revokeAPIKey id).run
  | .updateAPIKeyProject keyID projectID =>
    (Auth.Repository.updateAPIKeyProject keyID projectID).run
  | .ensureProject serviceName apiKeyID =>
    (do let _ ← Auth.ensureProject serviceName apiKeyID; pure ()).run

/-- Calls one after another; any statement may be refused. -/
def KeyRuns (sha256 : Bytes → Bytes) : List KeyCall → AuthDB → AuthDB → Prop
  | [], db, db' => db' = db
  | c :: calls, db, db' =>
    ∃ db₁ r, Runs AnyAuthAnswer (c.program sha256) db db₁ r ∧ KeyRuns sha256 calls db₁ db'

end BatRewind
