import Mathlib.Algebra.Order.Group.Multiset
import BatRewind.Auth.Service
import BatRewind.Auth.Token
import BatRewind.Lib.Pool

/-!
# Accounts

The table `users` with `SetupOwner` and `Login` of `internal/auth`. Every writer calls `SetupOwner`
when it starts; here the starts run side by side, statement by statement. The comparison of bcrypt
and the signature of a token are the parameters `compareHash` and `sign`.

* `Users.setupOwner`, `Users.login`, `Users.boot`: the code.
* `UserAnswers compareHash sound`: the database and bcrypt; if they are `sound`, nothing is refused.
* `serves_setupOwner`, `serves_login`: a call within what the others may do, which is to add accounts
  (`AccountsKept`); `accrues_setupOwner`: the account that it adds is the one that it returns.
* **`one_owner`**: in every interleaving of starts and logins the new accounts are those that the
  starts returned; writers that start with one configuration make one account, whose password logs
  in.
-/

namespace BatRewind

open Tables Effects Effects.Prog

/-! ## The table -/

/-- A role. -/
inductive UserRole where
  | owner
  | admin
  | viewer
deriving DecidableEq

def UserRole.text : UserRole → String
  | .owner => "owner"
  | .admin => "admin"
  | .viewer => "viewer"

/-- A row of `users`. -/
structure Account where
  id : String
  name : String
  email : String
  passwordHash : String
  role : UserRole
  createdAt : Time
deriving DecidableEq

/-- What a token tells of an account. -/
def Account.user (u : Account) : User where
  id := utf8 u.id
  email := utf8 u.email
  role := utf8 u.role.text

/-- **The table**, with its unique column. -/
structure UserDB where
  users : Table Account.id
  email_unique : (users.rows.map Account.email).Nodup

namespace UserDB

/-- The table after the migrations. -/
def empty : UserDB := ⟨.empty, List.nodup_nil⟩

/-- Insert a user, unless its id or its email is taken. -/
def insertUser (db : UserDB) (u : Account) : Option UserDB :=
  match h : db.users.insert [u] with
  | some t =>
    if hu : ((db.users.rows ++ [u]).map Account.email).Nodup then
      some { users := t, email_unique := by rw [Table.rows_of_insert h]; exact hu }
    else none
  | none => none

end UserDB

/-! ## Statements and calls -/

/-- A statement of the repository. -/
inductive UserStmt where
  | createUser (u : Account)
  | selectUserByEmail (email : String)
  | countUsers

@[reducible] def UserAnswer : UserStmt → Type
  | .createUser _ => Unit
  | .selectUserByEmail _ => Account
  | .countUsers => ℕ

/-- What the environment decides at a call. -/
structure UserEnv where
  fault : Option String
  violation : String
  now : Time
  uuid : String
  hash : Except String String

/-- **What an accepted statement does.** -/
def UserStmt.run (e : UserEnv) : (q : UserStmt) → UserDB → Except DBError (UserDB × UserAnswer q)
  | .createUser u, db =>
    match db.insertUser u with
    | some db' => .ok (db', ())
    | none => .error (.other e.violation)
  | .selectUserByEmail email, db =>
    match db.users.rows.find? fun u => u.email = email with
    | some u => .ok (db, u)
    | none => .error .recordNotFound
  | .countUsers, db => .ok (db, db.users.rows.length)

/-- A call of the service. -/
inductive UserCall where
  | timeNow
  | uuidNew
  | generateFromPassword (password : String)
  | sql (q : UserStmt)

@[reducible] def UserResp : UserCall → Type
  | .timeNow => Time
  | .uuidNew => String
  | .generateFromPassword _ => Except String String
  | .sql q => Except DBError (UserAnswer q)

/-- One call against the table. -/
def userExec (e : UserEnv) : (c : UserCall) → UserDB → UserDB × UserResp c
  | .timeNow, db => (db, e.now)
  | .uuidNew, db => (db, e.uuid)
  | .generateFromPassword _, db => (db, e.hash)
  | .sql q, db =>
    match e.fault with
    | some msg => (db, .error (.other msg))
    | none =>
      match q.run e db with
      | .ok (db', a) => (db', .ok a)
      | .error err => (db, .error err)

/-- The environment of a call: a hash that bcrypt makes compares with its password; if the
environment is `sound`, nothing is refused and no generated id is taken. -/
structure UserEnv.Fits (compareHash : String → String → Bool) (sound : Prop) (db : UserDB)
    (e : UserEnv) (c : UserCall) : Prop where
  hashes : ∀ password hash, c = .generateFromPassword password → e.hash = .ok hash →
    compareHash hash password = true
  sound_fault : sound → e.fault = none
  sound_hash : sound → ∃ hash, e.hash = .ok hash
  sound_uuid : sound → ∀ u, c = .sql (.createUser u) → u.id ∉ db.users.keys

/-- What a call may do. -/
def UserAnswers (compareHash : String → String → Bool) (sound : Prop) :
    Handler UserCall UserResp UserDB := fun c db db' r =>
  ∃ e : UserEnv, e.Fits compareHash sound db c ∧ userExec e c db = (db', r)

/-! ## The service -/

/-- The errors of the service. -/
inductive UserError where
  /-- `ErrInvalidCredentials` -/
  | invalidCredentials
  /-- `ErrOwnerAlreadyExists` -/
  | ownerAlreadyExists
  /-- `ErrEmailTaken` -/
  | emailTaken
  /-- `ErrNotFound` -/
  | notFound
  | db (err : DBError)
  | bcrypt (text : String)
deriving DecidableEq

/-- A fallible method. -/
abbrev UserSvc := ExceptT UserError (Prog UserCall UserResp)

namespace Users

def timeNow : UserSvc Time := ExceptT.lift (perform (R := UserResp) .timeNow)

def uuidNew : UserSvc String := ExceptT.lift (perform (R := UserResp) .uuidNew)

/-- `bcrypt.GenerateFromPassword` with the default cost. -/
def generateFromPassword (password : String) : UserSvc String :=
  ExceptT.adapt .bcrypt (ExceptT.mk (perform (R := UserResp) (.generateFromPassword password)))

/-- Send a statement. -/
def sql (q : UserStmt) : ExceptT DBError (Prog UserCall UserResp) (UserAnswer q) :=
  ExceptT.mk (perform (R := UserResp) (.sql q))

/-- The error of `CreateUser`. -/
def createError : DBError → UserError
  | .other text => if Auth.isDuplicate text then .emailTaken else .db (.other text)
  | err => .db err

/-- The error of a query. -/
def queryError : DBError → UserError
  | .recordNotFound => .notFound
  | err => .db err

namespace Repository

def createUser (u : Account) : UserSvc Unit := ExceptT.adapt createError (sql (.createUser u))

def getUserByEmail (email : String) : UserSvc Account :=
  ExceptT.adapt queryError (sql (.selectUserByEmail email))

def countUsers : UserSvc ℕ := ExceptT.adapt .db (sql .countUsers)

end Repository

/-- **Create the owner**, unless there is a user. -/
def setupOwner (name email password : String) : UserSvc Account := do
  let count ← Repository.countUsers
  if count > 0 then throw .ownerAlreadyExists
  let hash ← generateFromPassword password
  let id ← uuidNew
  let now ← timeNow
  let user : Account :=
    { id := id, name := name, email := email, passwordHash := hash, role := .owner, createdAt := now }
  Repository.createUser user
  return user

section Login

variable (compareHash : String → String → Bool) (sign : Script.Units → Bytes)

/-- **A token for an email and a password.** -/
def login (email password : String) : UserSvc (Script.Units × Account) := do
  match ← ExceptT.lift (Repository.getUserByEmail email).run with
  | .error _ => throw .invalidCredentials
  | .ok user =>
    if compareHash user.passwordHash password = false then throw .invalidCredentials
    let now ← timeNow
    let now' ← timeNow
    return (Token.generateToken sign user.user now now', user)

end Login

/-- The owner of the configuration, set up when the writer starts; an error is only logged. -/
def boot (ownerName ownerEmail ownerPassword : String) :
    Prog UserCall UserResp (Option (Except UserError Account)) :=
  if ownerEmail ≠ "" ∧ ownerPassword ≠ "" then
    some <$> (setupOwner ownerName ownerEmail ownerPassword).run
  else pure none

/-- What runs side by side. -/
inductive Job where
  | boot (ownerName ownerEmail ownerPassword : String)
  | login (email password : String)

/-- The program of a job, with the account that it made or logged in. -/
def Job.program (compareHash : String → String → Bool) (sign : Script.Units → Bytes) :
    Job → Prog UserCall UserResp (Option (Except UserError Account))
  | .boot name email password => Users.boot name email password
  | .login email password =>
    (fun r => some (Prod.snd <$> r)) <$> (Users.login compareHash sign email password).run

end Users

/-! ## Statements -/

section Statements

variable {compareHash : String → String → Bool} {sound : Prop} {db db' : UserDB}

theorem UserDB.insertUser_rows {u : Account} (h : db.insertUser u = some db') :
    db'.users.rows = db.users.rows ++ [u] := by
  unfold UserDB.insertUser at h
  split at h
  next t ht =>
    split_ifs at h
    cases h
    exact Table.rows_of_insert ht
  next => cases h

/-- A user is refused only if its id or its email is taken. -/
theorem UserDB.insertUser_none {u : Account} (h : db.insertUser u = none) :
    u.id ∈ db.users.keys ∨ db.users.rows ≠ [] := by
  unfold UserDB.insertUser at h
  split at h
  next t ht =>
    split_ifs at h with hemail
    refine Or.inr fun hnil => hemail ?_
    rw [hnil]
    exact List.nodup_singleton _
  next hnone => exact Or.inl (Table.mem_of_insert_singleton hnone)

/-- A statement is refused, fails on its own, or does what `UserStmt.run` says. -/
theorem UserAnswers.sql_cases {q : UserStmt} {r : Except DBError (UserAnswer q)}
    (h : UserAnswers compareHash sound (.sql q) db db' r) :
    (¬ sound ∧ db' = db ∧ ∃ text, r = .error (.other text)) ∨
      (∃ e err, e.Fits compareHash sound db (.sql q) ∧ q.run e db = .error err ∧ db' = db ∧
        r = .error err) ∨
      ∃ e a, q.run e db = .ok (db', a) ∧ r = .ok a := by
  obtain ⟨e, hE, h⟩ := h
  unfold userExec at h
  cases hf : e.fault with
  | some text =>
    rw [hf] at h
    obtain ⟨h₁, h₂⟩ := Prod.mk.inj h
    refine Or.inl ⟨fun hs => ?_, h₁.symm, text, h₂.symm⟩
    rw [hE.sound_fault hs] at hf
    cases hf
  | none =>
    rw [hf] at h
    dsimp only at h
    rcases hr : q.run e db with err | ⟨db₁, a⟩ <;> rw [hr] at h <;> obtain ⟨h₁, h₂⟩ := Prod.mk.inj h
    · exact Or.inr (Or.inl ⟨e, err, hE, hr, h₁.symm, h₂.symm⟩)
    · exact Or.inr (Or.inr ⟨e, a, h₁ ▸ hr, h₂.symm⟩)

/-- Accounts are only added. -/
def AccountsKept (db db' : UserDB) : Prop := ∀ u ∈ db.users.rows, u ∈ db'.users.rows

instance : Std.Refl AccountsKept := ⟨fun _ _ h => h⟩

instance : IsTrans UserDB AccountsKept := ⟨fun _ _ _ h h' u hu => h' u (h u hu)⟩

theorem AccountsKept.ne_nil (h : AccountsKept db db') (hne : db.users.rows ≠ []) :
    db'.users.rows ≠ [] := by
  obtain ⟨u, hu⟩ := List.exists_mem_of_ne_nil _ hne
  exact List.ne_nil_of_mem (h u hu)

/-- **What a call does to the table**: only an accepted `createUser` adds a row. -/
theorem UserAnswers.changes {c : UserCall} {r : UserResp c}
    (h : UserAnswers compareHash sound c db db' r) : db' = db ∨
      ∃ u, c = .sql (.createUser u) ∧ db'.users.rows = db.users.rows ++ [u] := by
  cases c with
  | timeNow | uuidNew | generateFromPassword password =>
    obtain ⟨e, -, h⟩ := h
    exact Or.inl (Prod.mk.inj h).1.symm
  | sql q =>
    rcases h.sql_cases with ⟨-, rfl, -⟩ | ⟨_, _, -, -, rfl, -⟩ | ⟨e, a, hrun, -⟩
    · exact Or.inl rfl
    · exact Or.inl rfl
    cases q with
    | createUser u =>
      simp only [UserStmt.run] at hrun
      split at hrun
      next db₁ hu =>
        cases hrun
        exact Or.inr ⟨u, rfl, UserDB.insertUser_rows hu⟩
      next => cases hrun
    | selectUserByEmail email =>
      simp only [UserStmt.run] at hrun
      split at hrun
      next => exact Or.inl (Prod.mk.inj (Except.ok.inj hrun)).1.symm
      next => cases hrun
    | countUsers => exact Or.inl (Prod.mk.inj (Except.ok.inj hrun)).1.symm

theorem UserAnswers.kept {c : UserCall} {r : UserResp c}
    (h : UserAnswers compareHash sound c db db' r) : AccountsKept db db' := by
  rcases h.changes with rfl | ⟨u, -, hrows⟩
  · exact Std.Refl.refl _
  · intro u' hu'
    rw [hrows]
    exact List.mem_append_left _ hu'

end Statements

/-! ## The service between the calls of the others -/

section Programs

variable {compareHash : String → String → Bool} {sign : Script.Units → Bytes} {sound : Prop}
  {db₀ : UserDB} {name email password : String}

/-- A program, between calls of the others. -/
abbrev UserServes {α : Type} (compareHash : String → String → Bool) (sound : Prop)
    (Q : α → UserDB → Prop) (p : Prog UserCall UserResp α) (db : UserDB) : Prop :=
  Always (UserAnswers compareHash sound) AccountsKept (fun _ _ => True) Q p db

theorem serves_countUsers (db₀ : UserDB) :
    UserServes compareHash sound
      (fun r db => (∀ n, r = .ok n → (n = 0 → db₀.users.rows = []) ∧
        (0 < n → db.users.rows ≠ [])) ∧ (sound → ∃ n, r = .ok n))
      Users.Repository.countUsers.run db₀ := by
  have hcount : UserServes compareHash sound
      (fun (r : Except DBError ℕ) db => (∀ n, r = .ok n → (n = 0 → db₀.users.rows = []) ∧
        (0 < n → db.users.rows ≠ [])) ∧ (sound → ∃ n, r = .ok n))
      (Users.sql .countUsers).run db₀ := by
    intro db₁ h₁
    refine ⟨trivial, fun db₂ r hT db₃ h₃ => ?_⟩
    rcases hT.sql_cases with ⟨hs, -, text, rfl⟩ | ⟨e, err, -, hrun, -, -⟩ | ⟨e, a, hrun, rfl⟩
    · exact ⟨by rintro _ ⟨⟩, fun h => absurd h hs⟩
    · cases hrun
    · cases hrun
      refine ⟨?_, fun _ => ⟨_, rfl⟩⟩
      rintro _ ⟨⟩
      refine ⟨fun hzero => ?_, fun hpos => h₃.ne_nil (List.length_pos_iff.mp hpos)⟩
      by_contra hne
      exact h₁.ne_nil hne (List.length_eq_zero_iff.mp hzero)
  refine hcount.mapError _ fun r db hr => ?_
  cases r with
  | ok n => exact ⟨fun n' h => hr.1 n' (by cases h; rfl), fun hs => ⟨n, rfl⟩⟩
  | error err =>
    refine ⟨by rintro _ ⟨⟩, fun hs => ?_⟩
    obtain ⟨n, hn⟩ := hr.2 hs
    cases hn

theorem serves_generateFromPassword (password : String) (db : UserDB) :
    UserServes compareHash sound
      (fun r _ => (∀ hash, r = .ok hash → compareHash hash password = true) ∧
        (sound → ∃ hash, r = .ok hash))
      (Users.generateFromPassword password).run db := by
  have hgenerate : UserServes compareHash sound
      (fun (r : Except String String) _ => (∀ hash, r = .ok hash →
        compareHash hash password = true) ∧ (sound → ∃ hash, r = .ok hash))
      (perform (R := UserResp) (.generateFromPassword password)) db := by
    intro db₁ _
    refine ⟨trivial, fun db₂ r hT db₃ _ => ?_⟩
    obtain ⟨e, hE, h⟩ := hT
    obtain ⟨-, rfl⟩ := Prod.mk.inj h
    exact ⟨fun hash h => hE.hashes password hash rfl h, hE.sound_hash⟩
  refine Always.mapError hgenerate _ fun r db hr => ?_
  cases r with
  | ok hash => exact ⟨fun hash' h => hr.1 hash' (by cases h; rfl), fun _ => ⟨hash, rfl⟩⟩
  | error err =>
    refine ⟨by rintro _ ⟨⟩, fun hs => ?_⟩
    obtain ⟨hash, hhash⟩ := hr.2 hs
    cases hhash

/-- An insert that is refused by a sound database finds an account. -/
theorem serves_createUser (u : Account) (db : UserDB) :
    UserServes compareHash sound
      (fun r db => (r = .ok () → u ∈ db.users.rows) ∧ (sound → db.users.rows ≠ []))
      (Users.Repository.createUser u).run db := by
  have hinsert : UserServes compareHash sound
      (fun (r : Except DBError Unit) db => (r = .ok () → u ∈ db.users.rows) ∧
        (sound → db.users.rows ≠ [])) (Users.sql (.createUser u)).run db := by
    intro db₁ h₁
    refine ⟨trivial, fun db₂ r hT db₃ h₃ => ?_⟩
    rcases hT.sql_cases with ⟨hs, -, text, rfl⟩ | ⟨e, err, hE, hrun, rfl, rfl⟩ | ⟨e, a, hrun, rfl⟩
    · exact ⟨by rintro ⟨⟩, fun h => absurd h hs⟩
    · refine ⟨by rintro ⟨⟩, fun hs => ?_⟩
      simp only [UserStmt.run] at hrun
      split at hrun
      next => cases hrun
      next hnone =>
        rcases UserDB.insertUser_none hnone with hid | hne
        · exact absurd hid (hE.sound_uuid hs u rfl)
        · exact h₃.ne_nil hne
    · simp only [UserStmt.run] at hrun
      split at hrun
      next db₂ hu =>
        cases hrun
        have hmem : u ∈ db₃.users.rows := by
          refine h₃ u ?_
          rw [UserDB.insertUser_rows hu]
          exact List.mem_append_right _ (List.mem_singleton_self u)
        exact ⟨fun _ => hmem, fun _ => List.ne_nil_of_mem hmem⟩
      next => cases hrun
  refine hinsert.mapError _ fun r db hr => ⟨fun h => hr.1 ?_, hr.2⟩
  cases r with
  | ok u => rfl
  | error err => cases h

/-- What a start that began in `db₀` made. -/
structure Account.MadeBy (compareHash : String → String → Bool) (name email password : String)
    (u : Account) (db₀ db : UserDB) : Prop where
  mem : u ∈ db.users.rows
  name_eq : u.name = name
  email_eq : u.email = email
  role_eq : u.role = .owner
  opens : compareHash u.passwordHash password = true
  first : db₀.users.rows = []

/-- **A start** returns the account that it made, if there was none; on a sound database there is an
account afterwards. -/
theorem serves_setupOwner (name email password : String) (db₀ : UserDB) :
    UserServes compareHash sound
      (fun r db => (∀ u, r = .ok u → u.MadeBy compareHash name email password db₀ db) ∧
        (sound → db.users.rows ≠ []))
      (Users.setupOwner name email password).run db₀ := by
  unfold Users.setupOwner
  refine always_bind_error (serves_countUsers db₀) (fun count db₁ hcount => ?_)
    fun e db₁ db₂ he _ => ⟨by rintro _ ⟨⟩, fun hs => ?_⟩
  swap
  · obtain ⟨n, hn⟩ := he.2 hs
    cases hn
  obtain ⟨hzero, hpos⟩ := hcount.1 count rfl
  by_cases hcount : count > 0
  · rw [if_pos hcount]
    exact fun db₂ h₂ => ⟨by rintro _ ⟨⟩, fun _ => h₂.ne_nil (hpos hcount)⟩
  rw [if_neg hcount]
  have hnone := hzero (by omega)
  refine always_bind_error (serves_generateFromPassword password db₁)
    (fun hash db₂ hhash => ?_) fun e db₂ db₃ he _ => ⟨by rintro _ ⟨⟩, fun hs => ?_⟩
  swap
  · obtain ⟨hash, hhash⟩ := he.2 hs
    cases hhash
  have hlift : ∀ (c : UserCall) (db : UserDB), UserServes compareHash sound (Succeeds fun _ _ => True)
      (ExceptT.lift (perform (R := UserResp) c) : UserSvc (UserResp c)).run db := fun c db =>
    Always.lift_succeeds (always_perform fun _ _ => ⟨trivial, fun _ _ _ _ _ => trivial⟩)
  refine (hlift .uuidNew db₂).bind_succeeds fun id db₃ _ => ?_
  refine (hlift .timeNow db₃).bind_succeeds fun now db₄ _ => ?_
  refine always_bind_error (serves_createUser _ db₄) (fun _ db₅ hcreate => ?_)
    fun e db₅ db₆ he h₆ => ⟨by rintro _ ⟨⟩, fun hs => h₆.ne_nil (he.2 hs)⟩
  intro db₆ h₆
  refine ⟨?_, fun hs => h₆.ne_nil (hcreate.2 hs)⟩
  rintro _ ⟨⟩
  exact ⟨h₆ _ (hcreate.1 rfl), rfl, rfl, rfl, hhash.1 hash rfl, hnone⟩

/-- A lookup returns an account with the email; a sound database finds one that was there. -/
theorem serves_getUserByEmail (email : String) (db₀ : UserDB) :
    UserServes compareHash sound
      (fun r db => (∀ u, r = .ok u → u ∈ db.users.rows ∧ u.email = email) ∧
        (sound → ∀ u ∈ db₀.users.rows, u.email = email → r = .ok u))
      (Users.Repository.getUserByEmail email).run db₀ := by
  have hselect : UserServes compareHash sound
      (fun (r : Except DBError Account) db =>
        (∀ u, r = .ok u → u ∈ db.users.rows ∧ u.email = email) ∧
        (sound → ∀ u ∈ db₀.users.rows, u.email = email → r = .ok u))
      (Users.sql (.selectUserByEmail email)).run db₀ := by
    intro db₁ h₁
    refine ⟨trivial, fun db₂ r hT db₃ h₃ => ?_⟩
    rcases hT.sql_cases with ⟨hs, -, text, rfl⟩ | ⟨e, err, -, hrun, rfl, rfl⟩ | ⟨e, a, hrun, rfl⟩
    · exact ⟨by rintro _ ⟨⟩, fun h => absurd h hs⟩
    · refine ⟨by rintro _ ⟨⟩, fun _ u hu hemail => ?_⟩
      simp only [UserStmt.run] at hrun
      split at hrun
      next => cases hrun
      next hnone => exact absurd (List.find?_eq_none.mp hnone u (h₁ u hu)) (by simp [hemail])
    · simp only [UserStmt.run] at hrun
      split at hrun
      next u hu =>
        cases hrun
        have hmem := List.mem_of_find?_eq_some hu
        have hemail : a.email = email := by simpa using List.find?_some hu
        refine ⟨?_, fun _ u' hu' hemail' => ?_⟩
        · rintro _ ⟨⟩
          exact ⟨h₃ a hmem, hemail⟩
        · have hsame := List.inj_on_of_nodup_map db₁.email_unique hmem (h₁ u' hu')
            (hemail.trans hemail'.symm)
          rw [hsame]
      next => cases hrun
  refine hselect.mapError _ fun r db hr => ?_
  cases r with
  | ok u =>
    refine ⟨fun u' h => hr.1 u' (by cases h; rfl), fun hs u' hu' hemail => ?_⟩
    cases hr.2 hs u' hu' hemail
    rfl
  | error err =>
    refine ⟨by rintro _ ⟨⟩, fun hs u' hu' hemail => ?_⟩
    cases hr.2 hs u' hu' hemail

/-- **A login** returns an account that the password opens, and no error tells why it failed; on a
sound database it finds the account that was there. -/
theorem serves_login (sign : Script.Units → Bytes) (email password : String) (db₀ : UserDB) :
    UserServes compareHash sound
      (fun r db => (∀ x, r = .ok x → x.2 ∈ db.users.rows ∧ x.2.email = email ∧
          compareHash x.2.passwordHash password = true) ∧
        (∀ e, r = .error e → e = .invalidCredentials) ∧
        (sound → ∀ u ∈ db₀.users.rows, u.email = email →
          compareHash u.passwordHash password = true → ∃ token, r = .ok (token, u)))
      (Users.login compareHash sign email password).run db₀ := by
  have hthrow : ∀ db, (sound → ∀ u ∈ db₀.users.rows, u.email = email →
      compareHash u.passwordHash password = true → False) →
      UserServes compareHash sound
        (fun (r : Except UserError (Script.Units × Account)) db =>
          (∀ x, r = .ok x → x.2 ∈ db.users.rows ∧ x.2.email = email ∧
            compareHash x.2.passwordHash password = true) ∧
          (∀ e, r = .error e → e = .invalidCredentials) ∧
          (sound → ∀ u ∈ db₀.users.rows, u.email = email →
            compareHash u.passwordHash password = true → ∃ token, r = .ok (token, u)))
        (throw .invalidCredentials : UserSvc (Script.Units × Account)).run db := by
    intro db hnone db₁ _
    refine ⟨by rintro _ ⟨⟩, ?_, fun hs u hu hemail hopens => (hnone hs u hu hemail hopens).elim⟩
    rintro _ ⟨⟩
    rfl
  -- the account stays while the clock is read
  have hlift : ∀ (u : Account) (c : UserCall) (db : UserDB), u ∈ db.users.rows →
      UserServes compareHash sound (Succeeds fun _ db => u ∈ db.users.rows)
        (ExceptT.lift (perform (R := UserResp) c) : UserSvc (UserResp c)).run db := by
    intro u c db hu
    refine Always.lift_succeeds (always_perform fun db₁ h₁ => ⟨trivial, fun db₂ r hT db₃ h₃ => ?_⟩)
    exact h₃ u (hT.kept u (h₁ u hu))
  unfold Users.login
  refine (Always.lift_succeeds ((serves_getUserByEmail email db₀).frame
    fun _ _ _ _ _ hT => hT.kept)).bind_succeeds fun r db₁ hr => ?_
  obtain ⟨⟨hfound, hfinds⟩, h₁⟩ := hr
  cases r with
  | error err =>
    refine hthrow db₁ fun hs u hu hemail _ => ?_
    cases hfinds hs u hu hemail
  | ok user =>
    obtain ⟨hmem, hemail⟩ := hfound user rfl
    dsimp only
    by_cases hopens : compareHash user.passwordHash password = false
    · rw [if_pos hopens]
      refine hthrow db₁ fun hs u hu hemail' hopens' => ?_
      obtain rfl := Except.ok.inj (hfinds hs u hu hemail')
      rw [hopens] at hopens'
      cases hopens'
    · rw [if_neg hopens]
      refine (hlift user .timeNow db₁ hmem).bind_succeeds fun now db₂ h₂ => ?_
      refine (hlift user .timeNow db₂ h₂).bind_succeeds fun now' db₃ h₃ => ?_
      intro db₄ h₄
      refine ⟨?_, by rintro _ ⟨⟩, fun hs u hu hemail' _ => ?_⟩
      · rintro _ ⟨⟩
        exact ⟨h₄ user h₃, hemail, Bool.eq_true_of_not_eq_false hopens⟩
      · obtain rfl := Except.ok.inj (hfinds hs u hu hemail')
        exact ⟨_, rfl⟩

/-- A login looks an account up and reads the clock. -/
theorem allCalls_login {P : UserCall → Prop} (sign : Script.Units → Bytes) (email password : String)
    (hselect : P (.sql (.selectUserByEmail email))) (hnow : P .timeNow) :
    AllCalls (fun _ _ => True) P (Users.login compareHash sign email password).run := by
  unfold Users.login
  refine AllCalls.bind_except (AllCalls.lift ((allCalls_perform (R := UserResp) hselect).adapt _))
    fun r => ?_
  cases r with
  | error e => trivial
  | ok u =>
    dsimp only
    split_ifs
    · trivial
    · exact (allCalls_perform (R := UserResp) hnow).lift.bind_except fun _ =>
        (allCalls_perform (R := UserResp) hnow).lift.bind_except fun _ => trivial

/-- The account that a result brings into the table. -/
def newAccount {ε : Type} : Except ε Account → Multiset Account
  | .ok u => {u}
  | .error _ => 0

/-- A call that adds no account. -/
def NoCreate (c : UserCall) : Prop := ∀ u, c ≠ .sql (.createUser u)

theorem rows_eq_of_noCreate {c : UserCall} {db db' : UserDB} {r : UserResp c} (hc : NoCreate c)
    (hT : UserAnswers compareHash sound c db db' r) :
    (db'.users.rows : Multiset Account) = db.users.rows := by
  rcases hT.changes with rfl | ⟨u, rfl, -⟩
  · rfl
  · exact absurd rfl (hc u)

/-- A program that adds no account. -/
theorem accrues_noCreate {α : Type} {p : Prog UserCall UserResp α}
    (hp : AllCalls (fun _ _ => True) NoCreate p) :
    Accrues (UserAnswers compareHash sound) (fun db => (db.users.rows : Multiset Account))
      (fun _ m => m = 0) p 0 :=
  hp.accrues fun _ _ _ _ => rows_eq_of_noCreate

theorem accrues_createUser (u : Account) :
    Accrues (UserAnswers compareHash sound) (fun db => (db.users.rows : Multiset Account))
      (fun r m => m = newAccount ((fun _ => u) <$> r)) (Users.Repository.createUser u).run 0 := by
  have hinsert : Accrues (UserAnswers compareHash sound)
      (fun db => (db.users.rows : Multiset Account))
      (fun (r : Except DBError Unit) m => m = newAccount ((fun _ => u) <$> r))
      (Users.sql (.createUser u)).run 0 := by
    intro db db' r hT
    rcases hT.sql_cases with ⟨-, rfl, text, rfl⟩ | ⟨e, err, -, -, rfl, rfl⟩ | ⟨e, a, hrun, rfl⟩
    · exact ⟨0, (add_zero _).symm, add_zero _⟩
    · exact ⟨0, (add_zero _).symm, add_zero _⟩
    · simp only [UserStmt.run] at hrun
      split at hrun
      next db₂ hu =>
        cases hrun
        refine ⟨{u}, ?_, zero_add _⟩
        dsimp only
        rw [UserDB.insertUser_rows hu, ← Multiset.coe_add]
        rfl
      next => cases hrun
  unfold Users.Repository.createUser
  rw [ExceptT.run_adapt]
  refine hinsert.map fun r m hm => ?_
  cases r with
  | ok _ => exact hm
  | error _ => exact hm

/-- **A start adds the account that it returns**, and nothing if it fails. -/
theorem accrues_setupOwner (name email password : String) :
    Accrues (UserAnswers compareHash sound) (fun db => (db.users.rows : Multiset Account))
      (fun r m => m = newAccount r) (Users.setupOwner name email password).run 0 := by
  have hcalls : ∀ c, NoCreate c → AllCalls (fun _ _ => True) NoCreate
      (ExceptT.lift (perform (R := UserResp) c) : UserSvc (UserResp c)).run :=
    fun c hc => (allCalls_perform hc).lift
  unfold Users.setupOwner
  refine accrues_bind_except (accrues_noCreate ?_) (fun count m hm => ?_) fun _ _ h => h
  · exact (allCalls_perform (R := UserResp) (c := .sql .countUsers) (by rintro _ ⟨⟩)).adapt _
  subst hm
  split_ifs
  · rfl
  refine accrues_bind_except (accrues_noCreate ?_) (fun hash m hm => ?_) fun _ _ h => h
  · exact (allCalls_perform (R := UserResp) (c := .generateFromPassword password)
      (by rintro _ ⟨⟩)).adapt _
  subst hm
  refine accrues_bind_except (accrues_noCreate (hcalls .uuidNew (by rintro _ ⟨⟩)))
    (fun id m hm => ?_) fun _ _ h => h
  subst hm
  refine accrues_bind_except (accrues_noCreate (hcalls .timeNow (by rintro _ ⟨⟩)))
    (fun now m hm => ?_) fun _ _ h => h
  subst hm
  exact accrues_bind_except (accrues_createUser _) (fun _ m hm => hm) fun _ _ h => h

end Programs

/-! ## Interleavings -/

section Interleavings

variable {compareHash : String → String → Bool} {sign : Script.Units → Bytes} {sound : Prop}
  {db₀ db : UserDB} {jobs : List Users.Job}
  {ps : Pool Users.Job UserCall UserResp (Option (Except UserError Account))}

/-- The jobs, each in a process of its own. -/
def userPool (compareHash : String → String → Bool) (sign : Script.Units → Bytes)
    (jobs : List Users.Job) : Pool Users.Job UserCall UserResp (Option (Except UserError Account)) :=
  jobs.map fun job => (job, job.program compareHash sign)

/-- What a job that began in `db₀` leaves behind. -/
def Users.Job.Leaves (compareHash : String → String → Bool) (sound : Prop) (db₀ : UserDB) :
    Users.Job → Option (Except UserError Account) → UserDB → Prop
  | .boot name email password, r, db =>
    (∀ u, r = some (.ok u) → u.MadeBy compareHash name email password db₀ db) ∧
      (sound → email ≠ "" → password ≠ "" → db.users.rows ≠ [])
  | .login email password, r, db =>
    (∀ u, r = some (.ok u) → u ∈ db.users.rows ∧ u.email = email ∧
        compareHash u.passwordHash password = true) ∧
      (∀ e, r = some (.error e) → e = .invalidCredentials) ∧
      (sound → ∀ u ∈ db₀.users.rows, u.email = email →
        compareHash u.passwordHash password = true → r = some (.ok u))

/-- What a job adds to the table. -/
def Users.Job.adds : Users.Job → Option (Except UserError Account) → Multiset Account
  | .boot _ _ _, some r => newAccount r
  | _, _ => 0

/-- The account that a job which has returned added. -/
def addedAccount (t : Users.Job × Prog UserCall UserResp (Option (Except UserError Account))) :
    Multiset Account :=
  match t.2 with
  | .ret r => t.1.adds r
  | .call _ _ => 0

theorem serves_userJob (job : Users.Job) (db₀ : UserDB) :
    UserServes compareHash sound (job.Leaves compareHash sound db₀)
      (job.program compareHash sign) db₀ := by
  cases job with
  | boot name email password =>
    change UserServes compareHash sound _ (Users.boot name email password) db₀
    unfold Users.boot
    split_ifs with hset
    · refine (serves_setupOwner name email password db₀).map
        fun r db hr => ⟨fun u hu => hr.1 u (Option.some.inj hu), fun hs _ _ => hr.2 hs⟩
    · exact fun db _ => ⟨by rintro _ ⟨⟩, fun _ he hp => absurd ⟨he, hp⟩ hset⟩
  | login email password =>
    refine (serves_login sign email password db₀).map
      fun r db hr => ?_
    obtain ⟨hok, herror, hfinds⟩ := hr
    refine ⟨fun u hu => ?_, fun e he => ?_, fun hs u hu hemail hopens => ?_⟩
    · cases r with
      | ok x =>
        cases hu
        exact hok x rfl
      | error e => cases hu
    · cases r with
      | ok x => cases he
      | error e' =>
        obtain rfl := Except.error.inj (Option.some.inj he)
        exact herror e' rfl
    · obtain ⟨token, rfl⟩ := hfinds hs u hu hemail hopens
      rfl

theorem accrues_userJob (job : Users.Job) :
    Accrues (UserAnswers compareHash sound) (fun db => (db.users.rows : Multiset Account))
      (fun r m => m = job.adds r) (job.program compareHash sign) 0 := by
  cases job with
  | boot name email password =>
    change Accrues _ _ _ (Users.boot name email password) 0
    unfold Users.boot
    split_ifs
    · exact (accrues_setupOwner name email password).map fun _ _ hm => hm
    · rfl
  | login email password =>
    refine (accrues_noCreate ?_).map fun _ _ hm => hm
    exact allCalls_login sign email password (by rintro _ ⟨⟩) (by rintro _ ⟨⟩)

theorem sum_addedAccount {T : Handler UserCall UserResp UserDB} {ms : List (Multiset Account)}
    (h : List.Forall₂ (fun t m => Accrues T (fun db => (db.users.rows : Multiset Account))
      (fun r m => m = t.1.adds r) t.2 m) ps ms) (hfin : Pool.Finished ps) :
    (ps.map addedAccount).sum = ms.sum := by
  induction h with
  | nil => rfl
  | @cons t m ts ms ht _ ih =>
    obtain ⟨r, hr⟩ := hfin t List.mem_cons_self
    obtain ⟨job, p⟩ := t
    subst hr
    rw [List.map_cons, List.sum_cons, List.sum_cons,
      ih fun t' ht' => hfin t' (List.mem_cons_of_mem _ ht')]
    exact congrArg (· + ms.sum) (Eq.symm ht)

theorem mem_sum_addedAccount {u : Account} :
    u ∈ (ps.map addedAccount).sum ↔ ∃ t ∈ ps, u ∈ addedAccount t := by
  induction ps with
  | nil => simp
  | cons t ps ih => simp [ih]

/-- Only a start adds an account, the one that it returned. -/
theorem eq_boot_of_mem_addedAccount {u : Account}
    {t : Users.Job × Prog UserCall UserResp (Option (Except UserError Account))}
    (h : u ∈ addedAccount t) :
    ∃ name email password, t = (.boot name email password, .ret (some (.ok u))) := by
  obtain ⟨job, p⟩ := t
  cases p with
  | call c k => simp [addedAccount] at h
  | ret r =>
    cases job with
    | login email password => simp [addedAccount, Users.Job.adds] at h
    | boot name email password =>
      rcases r with _ | e | u'
      · simp [addedAccount, Users.Job.adds] at h
      · simp [addedAccount, Users.Job.adds, newAccount] at h
      · obtain rfl : u = u' := by simpa [addedAccount, Users.Job.adds, newAccount] using h
        exact ⟨name, email, password, rfl⟩

/-- **The owner.** In every interleaving of the starts of writers with logins, each of which may be
refused at any statement: once all have returned, the new accounts are exactly those that starts
returned; a start makes an owner with its name, email and password, and only if there was no account
when the interleaving began; a login gets an account that its password opens, or an error that does
not tell why. If nothing is refused, a login with the password of an account that was there succeeds,
and writers that start with one email and password on an empty table make exactly one account, which
that password opens. -/
theorem one_owner (hruns : PoolRuns (fun _ => UserAnswers compareHash sound)
      (userPool compareHash sign jobs, db₀) (ps, db)) (hfin : Pool.Finished ps) :
    (db.users.rows : Multiset Account) = db₀.users.rows + (ps.map addedAccount).sum ∧
      (∀ job r, (job, .ret r) ∈ ps → job.Leaves compareHash sound db₀ r db) ∧
      (sound → db₀.users.rows = [] → ∀ email password, email ≠ "" → password ≠ "" →
        (∃ name, .boot name email password ∈ jobs) →
        (∀ name email' password', .boot name email' password' ∈ jobs →
          email' = email ∧ password' = password) →
        ∃ u, db.users.rows = [u] ∧ (ps.map addedAccount).sum = {u} ∧ u.email = email ∧
          u.role = .owner ∧ compareHash u.passwordHash password = true) := by
  have hprogs : ∀ t ∈ userPool compareHash sign jobs,
      UserServes compareHash sound (t.1.Leaves compareHash sound db₀) t.2 db₀ := by
    intro t ht
    obtain ⟨job, -, rfl⟩ := List.mem_map.mp ht
    exact serves_userJob job db₀
  obtain ⟨hkept, hps⟩ := hruns.invariant (J := AccountsKept db₀) (G := fun _ _ _ => True)
    (Q := fun job : Users.Job => job.Leaves compareHash sound db₀)
    (fun _ _ _ _ _ hJ _ hT => ⟨IsTrans.trans _ _ _ hJ hT.kept, hT.kept⟩) (Std.Refl.refl db₀) hprogs
  have hleaves : ∀ job r, (job, Prog.ret r) ∈ ps → job.Leaves compareHash sound db₀ r db :=
    fun job r hr => hps _ hr db (Std.Refl.refl db)
  obtain ⟨ms, hms, hsum⟩ := hruns.accrue (μ := fun db : UserDB => (db.users.rows : Multiset Account))
    (Q := fun job r m => m = Users.Job.adds job r) (by
      intro t ht
      obtain ⟨job, -, rfl⟩ := List.mem_map.mp ht
      exact accrues_userJob job)
  rw [← sum_addedAccount hms hfin] at hsum
  refine ⟨hsum, hleaves, fun hs hempty email password he hp hboot hsame => ?_⟩
  have hlabels : ps.map Prod.fst = jobs := by
    rw [hruns.labels, userPool, List.map_map]
    exact List.map_id _
  -- the account of a start that has returned
  have hmade : ∀ u ∈ db.users.rows, u.email = email ∧ u.role = .owner ∧
      compareHash u.passwordHash password = true := by
    intro u hu
    rw [hempty, Multiset.coe_nil, zero_add] at hsum
    have hmem : u ∈ (ps.map addedAccount).sum := hsum ▸ hu
    obtain ⟨t, ht, hadded⟩ := mem_sum_addedAccount.mp hmem
    obtain ⟨name, email', password', rfl⟩ := eq_boot_of_mem_addedAccount hadded
    have hboot' : .boot name email' password' ∈ jobs := hlabels ▸ List.mem_map_of_mem ht
    obtain ⟨rfl, rfl⟩ := hsame name email' password' hboot'
    have hu := (hleaves _ _ ht).1 u rfl
    exact ⟨hu.email_eq, hu.role_eq, hu.opens⟩
  have hne : db.users.rows ≠ [] := by
    obtain ⟨name, hboot⟩ := hboot
    obtain ⟨⟨job, p⟩, ht, rfl⟩ := List.mem_map.mp (hlabels.symm ▸ hboot)
    obtain ⟨r, hr⟩ := hfin _ ht
    dsimp only at hr
    subst hr
    exact (hleaves _ _ ht).2 hs he hp
  have hunique := db.email_unique
  rw [hempty, Multiset.coe_nil, zero_add] at hsum
  rw [← hsum]
  generalize db.users.rows = rows at hmade hne hunique
  cases rows with
  | nil => exact absurd rfl hne
  | cons u rows =>
    cases rows with
    | nil => exact ⟨u, rfl, rfl, hmade u List.mem_cons_self⟩
    | cons u' rows =>
      have hemail := (hmade u List.mem_cons_self).1
      have hemail' := (hmade u' (List.mem_cons_of_mem _ List.mem_cons_self)).1
      simp [hemail, hemail'] at hunique

/-- A call of a start with the password "secret", and a generated id that is not taken. -/
def secretCall (db : UserDB) : UserCall → Bool
  | .generateFromPassword password => password = "secret"
  | .sql (.createUser u) => u.id ∉ db.users.keys
  | _ => true

/-- Two writers that both find no account: the insert of one of them is refused. -/
theorem one_owner_overtaken : ∃ db r r',
    PoolRuns (fun _ => UserAnswers (fun hash password => hash == password) True)
      (userPool (fun hash password => hash == password) (fun _ => [])
        [.boot "Admin" "a@shop" "secret", .boot "Admin" "a@shop" "secret"], .empty)
      ([(.boot "Admin" "a@shop" "secret", .ret r), (.boot "Admin" "a@shop" "secret", .ret r')],
        db) ∧
    ∃ u, db.users.rows = [u] ∧ u.email = "a@shop" ∧ u.role = .owner := by
  let e : String → UserEnv := fun id => ⟨none, "23505", 0, id, .ok "secret"⟩
  obtain ⟨db, r, r', hrun⟩ : ∃ db r r', Pool.follow (fun (_ : Users.Job) id c db =>
      if secretCall db c then some (userExec (e id) c db) else none)
      [(0, "a"), (1, "b"), (0, "a"), (1, "b"), (0, "a"), (1, "b"), (0, "a"), (1, "b"), (0, "a"),
        (1, "b")]
      (userPool (fun hash password => hash == password) (fun _ => [])
        [.boot "Admin" "a@shop" "secret", .boot "Admin" "a@shop" "secret"], .empty) =
      some ([(.boot "Admin" "a@shop" "secret", .ret r), (.boot "Admin" "a@shop" "secret", .ret r')],
        db) := ⟨_, _, _, rfl⟩
  have hruns := Pool.follow_runs
    (T := fun _ => UserAnswers (fun hash password => hash == password) True)
    (fun _ id c db db' r hr => by
      split_ifs at hr with hc
      have hfits : (e id).Fits (fun hash password => hash == password) True db c := by
        refine ⟨?_, fun _ => rfl, fun _ => ⟨_, rfl⟩, ?_⟩
        · rintro password hash rfl hhash
          obtain rfl : "secret" = hash := Except.ok.inj hhash
          have hpassword : password = "secret" := of_decide_eq_true hc
          exact beq_iff_eq.mpr hpassword.symm
        · rintro - u rfl
          exact of_decide_eq_true hc
      exact ⟨e id, hfits, Option.some.inj hr⟩) hrun
  have hfin : Pool.Finished [(Users.Job.boot "Admin" "a@shop" "secret", Prog.ret (C := UserCall)
      (R := UserResp) r), (.boot "Admin" "a@shop" "secret", .ret r')] := by
    intro t ht
    rcases List.mem_cons.mp ht with rfl | ht
    · exact ⟨r, rfl⟩
    · rw [List.mem_singleton.mp ht]
      exact ⟨r', rfl⟩
  obtain ⟨-, -, howner⟩ := one_owner hruns hfin
  obtain ⟨u, hu, -, hemail, hrole, -⟩ := howner trivial rfl "a@shop" "secret" (by decide)
    (by decide) ⟨"Admin", List.mem_cons_self⟩ (by
      intro name email' password' hmem
      rcases List.mem_cons.mp hmem with h | h
      · exact (Users.Job.boot.inj h).2
      · exact (Users.Job.boot.inj (List.mem_singleton.mp h)).2)
  exact ⟨db, r, r', hruns, u, hu, hemail, hrole⟩

end Interleavings

end BatRewind
