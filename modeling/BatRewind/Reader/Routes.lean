import BatRewind.Auth.Guard
import BatRewind.Session.Stats

/-!
# The reader

The routes of `cmd/reader` with their handlers, from `internal/auth/handler.go` and
`internal/session/reader_handler.go`. Login and the share links are open, every other route is
behind `JWTMiddleware`. A body comes as `ShouldBindJSON` binds it; `parseTime` is `time.Parse`.

* `ReaderCall`: the calls of a request, to the tables of accounts, of keys and of sessions.
* `Reader.openRoute`, `Reader.protectedRoute`, `Reader.jwtMiddleware`, `Reader.serve`: the routes.
* `ReaderAnswers`: what a call may do; any statement may be refused.
* `serves_openRoute`, `serves_jwtMiddleware`, `serves_protectedRoute`: what a request does between
  the calls of the others.
-/

namespace BatRewind

open Script Effects Effects.Prog

/-! ## Calls -/

/-- A call while a request is served. -/
inductive ReaderCall where
  | users (c : UserCall)
  | keys (c : AuthCall)
  | sessions (c : StatsCall)
  | listAPIKeysByProject (projectID : String)
  | listAllProjects

@[reducible] def ReaderResp : ReaderCall → Type
  | .users c => UserResp c
  | .keys c => AuthResp c
  | .sessions c => StatsResp c
  | .listAPIKeysByProject _ => Except String (List APIKey)
  | .listAllProjects => Except String (List Project)

/-- **The tables and the clock**, which counts nanoseconds in 63 bits. -/
structure ReaderState where
  users : UserDB
  keys : AuthDB
  sessions : DB
  clock : Time
  clock_fits : 0 ≤ clock ∧ clock < 2 ^ 63

/-- Any query of the overview may be refused. -/
def AnyStatsAnswer : Handler StatsCall StatsResp DB
  | .base c, db, db', r => AnyAnswer c db db' r
  | .countUnresolved, db, db', r =>
    db' = db ∧ ∀ n, r = .ok n → n = db.unresolved.length
  | .pluckServices, db, db', r => db' = db ∧ ∀ services, r = .ok services →
    services.Nodup ∧ ∀ x, x ∈ services ↔ x ∈ db.serviceNames

/-- **What a call may do**: it changes the tables that it is about, and a token is checked at the
time of the clock. -/
def ReaderAnswers (compareHash : String → String → Bool) :
    Handler ReaderCall ReaderResp ReaderState
  | .users .timeNow, s, s', r => s' = s ∧ r = s.clock
  | .users c, s, s', r =>
    UserAnswers compareHash False c s.users s'.users r ∧ s' = { s with users := s'.users }
  | .keys c, s, s', r => AnyAuthAnswer c s.keys s'.keys r ∧ s' = { s with keys := s'.keys }
  | .sessions c, s, s', r =>
    AnyStatsAnswer c s.sessions s'.sessions r ∧ s' = { s with sessions := s'.sessions }
  | .listAPIKeysByProject projectID, s, s', r => s' = s ∧ ∀ keys, r = .ok keys →
    keys.Perm (s.keys.apiKeys.rows.filter fun k => k.projectID = projectID)
  | .listAllProjects, s, s', r => s' = s ∧ ∀ projects, r = .ok projects →
    projects.Perm s.keys.projects.rows

/-! ## Requests and replies -/

/-- The fields of a user in JSON. -/
structure UserJson where
  id : String
  name : String
  email : String
  role : UserRole
  createdAt : Time
deriving DecidableEq

def Account.json (u : Account) : UserJson where
  id := u.id
  name := u.name
  email := u.email
  role := u.role
  createdAt := u.createdAt

/-- The fields of an API key in JSON. -/
structure APIKeyJson where
  id : String
  projectID : String
  name : String
  createdAt : Time
  expiresAt : Option Time
  active : Bool

def APIKey.json (k : APIKey) : APIKeyJson where
  id := k.id
  projectID := k.projectID
  name := k.name
  createdAt := k.createdAt
  expiresAt := k.expiresAt
  active := k.active

/-- The body of a reply. -/
inductive ReplyBody where
  | empty
  | error (text : String)
  | token (token : Units) (user : UserJson)
  | key (key : String)
  | apiKeys (keys : List APIKeyJson)
  | projects (projects : List Project)
  | stats (stats : Stats)
  | sessions (response : ListResponse)
  | session (sess : ReplaySession)
  | events (events : List ReplayEvent)
  | shareToken (token : String)
  | publicSession (sess : PublicSession)
  | failed (items : List FailedIngest)
  | retried (count : ℕ)

/-- A reply: its status and its body. -/
structure ReaderReply where
  status : ℕ
  body : ReplyBody

/-- A route that is open. A body that cannot be bound is the text of the error. -/
inductive OpenRoute where
  | login (body : Except String (String × String))
  | getPublicSession (token : String)
  | getPublicEvents (token : String)

/-- A route behind the middleware. -/
inductive ProtectedRoute where
  | createAPIKey (body : Except String (String × String))
  | listAPIKeys (projectID : String)
  | revokeAPIKey (id : String)
  | listProjects
  | getStats
  | list (q : ListQuery)
  | getByID (id : String)
  | getEvents (id : String)
  | delete (id : String)
  | createShareLink (id : String)
  | listFailed (resolved : String)
  | retryFailed (id : String)
  | retryAll

/-- A route with its parameters. -/
inductive ReaderRoute where
  | isOpen (r : OpenRoute)
  | isProtected (r : ProtectedRoute)

/-- A request, with the header `Authorization`, empty if there is none. -/
structure ReaderRequest where
  route : ReaderRoute
  authorization : Units

/-! ## Handlers -/

/-- The text of an error of the auth service. -/
def AuthError.text : AuthError → String
  | .notFound | .db .recordNotFound => "record not found"
  | .slugTaken => "slug already in use"
  | .db (.other text) | .random text => text

namespace Reader

/-- A program that serves a request. -/
abbrev ReaderProg (α : Type) := Prog ReaderCall ReaderResp α

def ofUsers {α : Type} (p : Prog UserCall UserResp α) : ReaderProg α :=
  (p : Prog UserCall (fun c => ReaderResp (.users c)) α).hoist .users

def ofKeys {α : Type} (x : AuthSvc α) : ReaderProg (Except String α) :=
  Except.mapError AuthError.text <$>
    (x.run : Prog AuthCall (fun c => ReaderResp (.keys c)) (Except AuthError α)).hoist .keys

def ofStats {α : Type} (x : StatsSvc α) : ReaderProg (Except String α) :=
  (x.run : Prog StatsCall (fun c => ReaderResp (.sessions c)) (Except String α)).hoist .sessions

def ofSessions {α : Type} (x : Svc α) : ReaderProg (Except String α) :=
  (x.run : Prog Call (fun c => ReaderResp (.sessions (.base c))) (Except String α)).hoist
    fun c => .sessions (.base c)

/-- A reply of status 500 with the text of an error. -/
def internalError (text : String) : ReaderReply := ⟨500, .error text⟩

/-- A reply of status 404 with a text of its own. -/
def notFound (text : String) (_err : String) : ReaderReply := ⟨404, .error text⟩

/-- A reply of status 200. -/
def statusOK (body : ReplyBody) : ReaderReply := ⟨200, body⟩

/-- A reply of status 204. -/
def noContent : ReaderReply := ⟨204, .empty⟩

/-- **A handler**: call the service, and reply to its error or its result. -/
def respond {α : Type} (p : ReaderProg (Except String α)) (onError : String → ReaderReply)
    (onOK : α → ReaderReply) : ReaderProg ReaderReply :=
  (fun r => match r with
    | .ok a => onOK a
    | .error err => onError err) <$> p

section Handlers

variable (compareHash : String → String → Bool) (sha256 : Bytes → Bytes) (jwt : JWT)
  (parseTime : String → Option Time)

/-- `Handler.Login` -/
def login (body : Except String (String × String)) : ReaderProg ReaderReply :=
  match body with
  | .error err => pure ⟨400, .error err⟩
  | .ok (email, password) => do
    match ← ofUsers (Users.login compareHash jwt.sign email password).run with
    | .error _ => return ⟨401, .error "invalid credentials"⟩
    | .ok (token, user) => return statusOK (.token token user.json)

def createAPIKey (body : Except String (String × String)) : ReaderProg ReaderReply :=
  match body with
  | .error err => pure ⟨400, .error err⟩
  | .ok (projectID, name) =>
    respond (ofKeys (Auth.createAPIKey sha256 projectID name)) internalError
      fun rawKey => ⟨201, .key rawKey⟩

def listAPIKeys (projectID : String) : ReaderProg ReaderReply :=
  if projectID = "" then pure ⟨400, .error "project_id is required"⟩
  else respond (perform (R := ReaderResp) (.listAPIKeysByProject projectID)) internalError
    fun keys => statusOK (.apiKeys (keys.map APIKey.json))

def revokeAPIKey (id : String) : ReaderProg ReaderReply :=
  respond (ofKeys (Auth.Repository.revokeAPIKey id)) internalError fun _ => noContent

def listProjects : ReaderProg ReaderReply :=
  respond (perform (R := ReaderResp) .listAllProjects) internalError
    fun projects => statusOK (.projects projects)

def getStats : ReaderProg ReaderReply :=
  respond (ofStats BatRewind.getStats) internalError fun stats => statusOK (.stats stats)

/-- `ReaderHandler.List` -/
def listSessions (q : ListQuery) : ReaderProg ReaderReply :=
  respond (ofSessions (list parseTime q)) internalError
    fun response => statusOK (.sessions response)

def getByID (id : String) : ReaderProg ReaderReply :=
  respond (ofSessions (Repository.getByID id)) (notFound "session not found")
    fun sess => statusOK (.session sess)

def getEvents (id : String) : ReaderProg ReaderReply :=
  respond (ofSessions (Repository.getEvents id)) internalError
    fun events => statusOK (.events events)

def delete (id : String) : ReaderProg ReaderReply :=
  respond (ofSessions (Service.delete id)) internalError fun _ => noContent

def createShareLink (id : String) : ReaderProg ReaderReply :=
  respond (ofSessions (Service.createShareToken id)) (notFound "session not found")
    fun token => statusOK (.shareToken token)

def getPublicSession (token : String) : ReaderProg ReaderReply :=
  respond (ofSessions (Service.getPublicSession token)) (notFound "not found")
    fun sess => statusOK (.publicSession sess)

def getPublicEvents (token : String) : ReaderProg ReaderReply :=
  respond (ofSessions (Service.getPublicEvents token)) (notFound "not found")
    fun events => statusOK (.events events)

/-- The dead letters, without the resolved ones unless the parameter `resolved` says otherwise. -/
def listFailed (resolved : String) : ReaderProg ReaderReply :=
  respond (ofSessions (Repository.listFailed (resolved ≠ "true"))) internalError
    fun items => statusOK (.failed items)

def retryFailed (id : String) : ReaderProg ReaderReply :=
  respond (ofSessions (Service.retryFailed id)) internalError fun _ => noContent

def retryAll : ReaderProg ReaderReply :=
  respond (ofSessions Service.retryAllFailed) internalError fun count => statusOK (.retried count)

/-! ## Routes -/

/-- The header of a request that carries a token. -/
def bearer : Units := units "Bearer "

/-- **`JWTMiddleware`**: reply with status 401, or go on to the handler. -/
def jwtMiddleware (authorization : Units) (next : ReaderProg ReaderReply) :
    ReaderProg ReaderReply :=
  if bearer.isPrefixOf authorization = false then
    pure ⟨401, .error "missing or invalid Authorization header"⟩
  else do
    match ← ofUsers (Auth.validateToken jwt (authorization.drop bearer.length)).run with
    | .error _ => return ⟨401, .error "invalid or expired token"⟩
    | .ok _ => next

/-- The open routes. -/
def openRoute : OpenRoute → ReaderProg ReaderReply
  | .login body => login compareHash jwt body
  | .getPublicSession token => getPublicSession token
  | .getPublicEvents token => getPublicEvents token

/-- The routes behind the middleware. -/
def protectedRoute : ProtectedRoute → ReaderProg ReaderReply
  | .createAPIKey body => createAPIKey sha256 body
  | .listAPIKeys projectID => listAPIKeys projectID
  | .revokeAPIKey id => revokeAPIKey id
  | .listProjects => listProjects
  | .getStats => getStats
  | .list q => listSessions parseTime q
  | .getByID id => getByID id
  | .getEvents id => getEvents id
  | .delete id => delete id
  | .createShareLink id => createShareLink id
  | .listFailed resolved => listFailed resolved
  | .retryFailed id => retryFailed id
  | .retryAll => retryAll

/-- **The reader.** -/
def serve (req : ReaderRequest) : ReaderProg ReaderReply :=
  match req.route with
  | .isOpen r => openRoute compareHash jwt r
  | .isProtected r => jwtMiddleware jwt req.authorization (protectedRoute sha256 parseTime r)

end Handlers

end Reader

/-! ## What a request does -/

/-- Accounts are only added, and the clock does not go back. -/
def ReaderRely (s s' : ReaderState) : Prop := AccountsKept s.users s'.users ∧ s.clock ≤ s'.clock

instance : Std.Refl ReaderRely := ⟨fun s => ⟨Std.Refl.refl s.users, le_rfl⟩⟩

instance : IsTrans ReaderState ReaderRely :=
  ⟨fun _ _ _ h h' => ⟨IsTrans.trans _ _ _ h.1 h'.1, h.2.trans h'.2⟩⟩

/-- The calls of an open route: they read an account, or one session. -/
def OpenCall : OpenRoute → ReaderCall → Prop
  | .login body, c => c = .users .timeNow ∨
    ∃ email password, body = .ok (email, password) ∧ c = .users (.sql (.selectUserByEmail email))
  | .getPublicSession token, c => c = .sessions (.base (.sql (.selectByShareToken token)))
  | .getPublicEvents token, c => c = .sessions (.base (.sql (.selectByShareToken token))) ∨
    ∃ id, c = .sessions (.base (.sql (.selectEvents id)))

/-- A call of a handler behind the middleware. -/
def Behind (c : ReaderCall) : Prop := ∀ c', c ≠ .users c'

/-- The header carries a token with a signature of the server. -/
structure Presents (jwt : JWT) (authorization : Units) (claims : TokenClaims) : Prop where
  bearer : Reader.bearer.isPrefixOf authorization = true
  verified : jwt.verified (authorization.drop Reader.bearer.length) = some claims

/-- What a reply with a token tells: account `u` has the email and the password, and the token is
for `u`, made at the time `now`. -/
structure IssuedTo (compareHash : String → String → Bool) (jwt : JWT) (email password : String)
    (token : Units) (u : Account) (now : Time) (s : ReaderState) : Prop where
  mem : u ∈ s.users.users.rows
  email_eq : u.email = email
  opens : compareHash u.passwordHash password = true
  made : ∃ now', token = Token.generateToken jwt.sign u.user now now' ∧
    (Token.claimsOf u.user now now').Fits
  now_le : now ≤ s.clock

section Requests

variable {compareHash : String → String → Bool} {sha256 : Bytes → Bytes} {jwt : JWT}
  {parseTime : String → Option Time} {s s' : ReaderState}

theorem IssuedTo.mono {email password : String} {token : Units} {u : Account} {now : Time}
    (h : IssuedTo compareHash jwt email password token u now s) (hs : ReaderRely s s') :
    IssuedTo compareHash jwt email password token u now s' :=
  { h with mem := hs.1 u h.mem, now_le := h.now_le.trans hs.2 }

/-- Only a call to the table of accounts may change it; none moves the clock. -/
theorem ReaderAnswers.changes {c : ReaderCall} {r : ReaderResp c}
    (h : ReaderAnswers compareHash c s s' r) : s'.clock = s.clock ∧
      (s'.users = s.users ∨ ∃ u, c = .users (.sql (.createUser u)) ∧
        AccountsKept s.users s'.users) := by
  have hwith : ∀ {db : UserDB}, s' = { s with users := db } → s'.clock = s.clock := by
    rintro db rfl
    rfl
  cases c with
  | users c =>
    cases c with
    | timeNow =>
      obtain ⟨rfl, -⟩ := h
      exact ⟨rfl, Or.inl rfl⟩
    | uuidNew | generateFromPassword password =>
      refine ⟨hwith h.2, Or.inl ?_⟩
      rcases h.1.changes with heq | ⟨u, heq, -⟩
      · exact heq
      · cases heq
    | sql q =>
      refine ⟨hwith h.2, ?_⟩
      rcases h.1.changes with heq | ⟨u, heq, -⟩
      · exact Or.inl heq
      · cases heq
        exact Or.inr ⟨u, rfl, h.1.kept⟩
  | keys c =>
    obtain ⟨-, heq⟩ := h
    rw [heq]
    exact ⟨rfl, Or.inl rfl⟩
  | sessions c =>
    obtain ⟨-, heq⟩ := h
    rw [heq]
    exact ⟨rfl, Or.inl rfl⟩
  | listAPIKeysByProject projectID | listAllProjects =>
    obtain ⟨rfl, -⟩ := h
    exact ⟨rfl, Or.inl rfl⟩

theorem ReaderAnswers.rely {c : ReaderCall} {r : ReaderResp c}
    (h : ReaderAnswers compareHash c s s' r) : ReaderRely s s' := by
  obtain ⟨hclock, husers⟩ := h.changes
  refine ⟨?_, hclock.ge⟩
  rcases husers with heq | ⟨u, -, hkept⟩
  · rw [heq]
    exact Std.Refl.refl s.users
  · exact hkept

/-! ### Calls -/

theorem allCalls_respond {P : ReaderCall → Prop} {α : Type}
    {p : Reader.ReaderProg (Except String α)} (hp : AllCalls (fun _ _ => True) P p)
    (onError : String → ReaderReply) (onOK : α → ReaderReply) :
    AllCalls (fun _ _ => True) P (Reader.respond p onError onOK) := by
  unfold Reader.respond
  rw [map_eq_pure_bind]
  exact hp.bind fun _ => trivial

/-- **An open route only reads.** -/
theorem allCalls_openRoute (r : OpenRoute) :
    AllCalls (fun _ _ => True) (OpenCall r) (Reader.openRoute compareHash jwt r) := by
  cases r with
  | login body =>
    change AllCalls _ _ (Reader.login compareHash jwt body)
    unfold Reader.login
    cases body with
    | error err => trivial
    | ok credentials =>
      obtain ⟨email, password⟩ := credentials
      refine AllCalls.bind (allCalls_hoist ?_) fun r => ?_
      · exact allCalls_login jwt.sign email password (Or.inr ⟨email, password, rfl, rfl⟩)
          (Or.inl rfl)
      · cases r with
        | ok x => trivial
        | error e => trivial
  | getPublicSession token =>
    refine allCalls_respond (allCalls_hoist ?_) _ _
    exact AllCalls.bind_except (allCalls_perform rfl) fun _ => trivial
  | getPublicEvents token =>
    refine allCalls_respond (allCalls_hoist ?_) _ _
    refine AllCalls.bind_except (allCalls_perform (Or.inl rfl)) fun sess => ?_
    exact AllCalls.bind_except (allCalls_perform (Or.inr ⟨sess.id, rfl⟩)) fun _ => trivial

/-- A handler leaves the accounts alone. -/
theorem behind_ofKeys {α : Type} (x : AuthSvc α) :
    AllCalls (fun _ _ => True) Behind (Reader.ofKeys x) := by
  unfold Reader.ofKeys
  rw [map_eq_pure_bind]
  exact AllCalls.bind (allCalls_hoist (allCalls_of_forall (fun _ _ => by rintro ⟨⟩) _))
    fun _ => trivial

theorem behind_ofSessions {α : Type} (x : Svc α) :
    AllCalls (fun _ _ => True) Behind (Reader.ofSessions x) :=
  allCalls_hoist (allCalls_of_forall (fun _ _ => by rintro ⟨⟩) _)

theorem behind_ofStats {α : Type} (x : StatsSvc α) :
    AllCalls (fun _ _ => True) Behind (Reader.ofStats x) :=
  allCalls_hoist (allCalls_of_forall (fun _ _ => by rintro ⟨⟩) _)

/-! ### Guarantees -/

/-- A request between the calls of the others. -/
abbrev ReaderServes {α : Type} (compareHash : String → String → Bool)
    (G : ReaderCall → Prop) (Q : α → ReaderState → Prop) (p : Reader.ReaderProg α)
    (s : ReaderState) : Prop :=
  Always (ReaderAnswers compareHash) ReaderRely (fun c _ => G c) Q p s

/-- A call to the table of accounts is one of the service. -/
theorem ReaderAnswers.users {c : UserCall} {r : UserResp c}
    (h : ReaderAnswers compareHash (.users c) s s' r) :
    UserAnswers compareHash False c s.users s'.users r := by
  cases c with
  | timeNow =>
    obtain ⟨rfl, rfl⟩ := h
    refine ⟨⟨none, "", s'.clock, "", .ok ""⟩, ⟨?_, False.elim, False.elim, False.elim⟩, rfl⟩
    rintro _ _ ⟨⟩
  | uuidNew | generateFromPassword password | sql q => exact h.1

/-- A reading of the clock. -/
theorem serves_clock {P : ReaderState → Prop} (hP : ∀ s s', P s → ReaderRely s s' → P s') {ε : Type}
    (hs : P s) :
    Always (fun c => ReaderAnswers compareHash (.users c)) ReaderRely (fun _ _ => True)
      (Succeeds fun now s' => P s' ∧ now ≤ s'.clock ∧ 0 ≤ now ∧ now < 2 ^ 63)
      (ExceptT.lift (perform (R := UserResp) .timeNow) :
        ExceptT ε (Prog UserCall UserResp) Time).run s := by
  refine Always.lift_succeeds fun s₁ h₁ => ⟨trivial, fun s₂ now hT s₃ h₃ => ?_⟩
  obtain ⟨rfl, rfl⟩ := hT
  exact ⟨hP _ _ (hP _ _ hs h₁) h₃, h₃.2, s₂.clock_fits⟩

/-- **A login** gives out a token for the account that has the email and the password. -/
theorem serves_readerLogin (email password : String) (s : ReaderState) :
    Always (fun c => ReaderAnswers compareHash (.users c)) ReaderRely (fun _ _ => True)
      (Returns fun x s' => ∃ now, IssuedTo compareHash jwt email password x.1 x.2 now s')
      (Users.login compareHash jwt.sign email password).run s := by
  have hfind : UserServes compareHash False
      (fun r db => ∀ u, r = .ok u → u ∈ db.users.rows ∧ u.email = email)
      (Users.Repository.getUserByEmail email).run s.users :=
    (serves_getUserByEmail email s.users).imp fun _ _ h => h.1
  unfold Users.login
  refine (Always.lift_succeeds (hfind.part (f := ReaderState.users) (fun _ _ _ _ hT => hT.users)
    (fun _ _ h => h.1) fun _ _ h => h)).bind_succeeds fun r s₁ hr => ?_
  cases r with
  | error err => exact fun s₂ _ => returns_error _
  | ok user =>
    obtain ⟨hmem, hemail⟩ := hr user rfl
    dsimp only
    by_cases hopens : compareHash user.passwordHash password = false
    · rw [if_pos hopens]
      exact fun s₂ _ => returns_error _
    · rw [if_neg hopens]
      have hkeeps : ∀ s s' : ReaderState, user ∈ s.users.users.rows → ReaderRely s s' →
          user ∈ s'.users.users.rows := fun s s' hu hs => hs.1 user hu
      refine (serves_clock hkeeps hmem).bind_succeeds fun now s₂ hnow => ?_
      have hkeeps₂ : ∀ s s' : ReaderState, user ∈ s.users.users.rows ∧ now ≤ s.clock →
          ReaderRely s s' → user ∈ s'.users.users.rows ∧ now ≤ s'.clock :=
        fun s s' h hs => ⟨hs.1 user h.1, h.2.trans hs.2⟩
      refine (serves_clock hkeeps₂ ⟨hnow.1, hnow.2.1⟩).bind_succeeds fun now' s₃ hnow' => ?_
      intro s₄ h₄
      obtain ⟨hmem₄, hle⟩ := hkeeps₂ s₃ s₄ hnow'.1 h₄
      refine returns_ok ⟨now, hmem₄, hemail, Bool.eq_true_of_not_eq_false hopens, ⟨now', rfl, ?_⟩,
        hle⟩
      exact claimsOf_fits hnow.2.2 hnow'.2.2

/-- A reply with a token tells of an account. -/
def OpenRoute.Tells (compareHash : String → String → Bool) (jwt : JWT) :
    OpenRoute → ReaderReply → ReaderState → Prop
  | .login body, reply, s => ∀ token user, reply = Reader.statusOK (.token token user) →
    ∃ email password u now, body = .ok (email, password) ∧ user = u.json ∧
      IssuedTo compareHash jwt email password token u now s
  | _, _, _ => True

/-- **An open route.** -/
theorem serves_openRoute (r : OpenRoute) (s : ReaderState) :
    ReaderServes compareHash (OpenCall r) (r.Tells compareHash jwt)
      (Reader.openRoute compareHash jwt r) s := by
  have htells : ReaderServes compareHash (fun _ => True) (r.Tells compareHash jwt)
      (Reader.openRoute compareHash jwt r) s := by
    cases r with
    | login body =>
      change ReaderServes compareHash _ _ (Reader.login compareHash jwt body) s
      unfold Reader.login
      cases body with
      | error err =>
        intro s₁ _
        rintro token user ⟨⟩
      | ok credentials =>
        obtain ⟨email, password⟩ := credentials
        refine always_bind (always_hoist.mpr (serves_readerLogin email password s))
          fun r s₁ hr => ?_
        cases r with
        | error err =>
          intro s₂ _
          rintro token user ⟨⟩
        | ok x =>
          obtain ⟨token, u⟩ := x
          obtain ⟨now, hissued⟩ := hr (token, u) rfl
          intro s₂ h₂
          rintro _ _ ⟨⟩
          exact ⟨email, password, u, now, rfl, rfl, hissued.mono h₂⟩
    | getPublicSession token | getPublicEvents token =>
      exact AllCalls.always (P := fun _ => True) (allCalls_of_forall (fun _ => trivial) _)
        (fun _ _ h => h) s
  exact htells.allCalls (allCalls_openRoute r) fun _ _ _ h => h

/-- The token of the header was valid at some time from `arrived` on. -/
def Passed (jwt : JWT) (arrived : Time) (authorization : Units) : Prop :=
  ∃ claims t, Presents jwt authorization claims ∧ arrived ≤ t ∧ claims.valid t = true

/-- A reply of the middleware, or of a handler behind it. -/
structure Guards (jwt : JWT) (arrived : Time) (authorization : Units) (reply : ReaderReply)
    (s : ReaderState) : Prop where
  passed : reply.status ≠ 401 → Passed jwt arrived authorization
  expired : reply.status = 401 → ∀ claims, Presents jwt authorization claims →
    ∃ t ≤ s.clock, claims.valid t = false

theorem validateToken_of_verified {token : Units} {claims : TokenClaims}
    (h : jwt.verified token = some claims) : (Auth.validateToken jwt token).run =
      .call .timeNow fun now =>
        .ret (if claims.valid now = false then .error "invalid token" else .ok claims) := by
  unfold Auth.validateToken
  rw [h]
  refine congrArg (Prog.call UserCall.timeNow) (funext fun now => ?_)
  change ExceptT.run (if claims.valid now = false then _ else _) = _
  split_ifs <;> rfl

/-- **The middleware for a token with a signature of the server** reads the clock. -/
theorem jwtMiddleware_of_presents {authorization : Units} {claims : TokenClaims}
    (h : Presents jwt authorization claims) (next : Reader.ReaderProg ReaderReply) :
    Reader.jwtMiddleware jwt authorization next = .call (.users .timeNow) fun now =>
      if claims.valid now = false then .ret ⟨401, .error "invalid or expired token"⟩ else next := by
  unfold Reader.jwtMiddleware
  rw [h.bearer, if_neg (by decide), validateToken_of_verified h.verified]
  refine congrArg (Prog.call (ReaderCall.users .timeNow)) (funext fun now => ?_)
  dsimp only
  split_ifs <;> rfl

/-- Without one it replies at once. -/
theorem jwtMiddleware_of_not_presents {authorization : Units}
    (h : ∀ claims, ¬ Presents jwt authorization claims) (next : Reader.ReaderProg ReaderReply) :
    ∃ text, Reader.jwtMiddleware jwt authorization next = .ret ⟨401, .error text⟩ := by
  unfold Reader.jwtMiddleware Auth.validateToken
  by_cases hbearer : Reader.bearer.isPrefixOf authorization = false
  · rw [if_pos hbearer]
    exact ⟨_, rfl⟩
  · rw [if_neg hbearer]
    cases hverified : jwt.verified (authorization.drop Reader.bearer.length) with
    | none => exact ⟨_, rfl⟩
    | some claims => exact absurd ⟨Bool.eq_true_of_not_eq_false hbearer, hverified⟩ (h claims)

/-- **The middleware**: until a token has passed, only the clock is read. -/
theorem serves_jwtMiddleware {next : Reader.ReaderProg ReaderReply} {authorization : Units}
    {arrived : Time} (hs : arrived ≤ s.clock)
    (hnext : ∀ s, ReaderServes compareHash Behind (fun reply _ => reply.status ≠ 401) next s) :
    ReaderServes compareHash
      (fun c => c = .users .timeNow ∨ Behind c ∧ Passed jwt arrived authorization)
      (Guards jwt arrived authorization)
      (Reader.jwtMiddleware jwt authorization next) s := by
  by_cases h : ∃ claims, Presents jwt authorization claims
  · obtain ⟨claims, hclaims⟩ := h
    rw [jwtMiddleware_of_presents hclaims]
    intro s₁ h₁
    refine ⟨Or.inl rfl, fun s₂ now hT => ?_⟩
    obtain ⟨rfl, rfl⟩ := hT
    dsimp only
    by_cases hvalid : claims.valid s₂.clock = false
    · rw [if_pos hvalid]
      refine fun s₃ h₃ => ⟨fun h => absurd rfl h, fun _ claims' hclaims' => ?_⟩
      have hsame := hclaims.verified.symm.trans hclaims'.verified
      exact ⟨s₂.clock, h₃.2, Option.some.inj hsame ▸ hvalid⟩
    · rw [if_neg hvalid]
      have hpassed : Passed jwt arrived authorization :=
        ⟨claims, s₂.clock, hclaims, hs.trans h₁.2, Bool.eq_true_of_not_eq_false hvalid⟩
      refine ((hnext s₂).weaken fun c _ hc => Or.inr ⟨hc, hpassed⟩).imp fun reply s₃ hreply => ?_
      exact ⟨fun _ => hpassed, fun h => absurd h hreply⟩
  · have hnone : ∀ claims, ¬ Presents jwt authorization claims := fun claims hc => h ⟨claims, hc⟩
    obtain ⟨text, heq⟩ := jwtMiddleware_of_not_presents hnone next
    rw [heq]
    exact fun s₁ _ => ⟨fun h => absurd rfl h, fun _ claims hclaims => absurd hclaims (hnone claims)⟩

/-- A handler behind the middleware. -/
theorem serves_respond {α : Type} {p : Reader.ReaderProg (Except String α)}
    {onError : String → ReaderReply} {onOK : α → ReaderReply}
    (hp : AllCalls (fun _ _ => True) Behind p) (herror : ∀ err, (onError err).status ≠ 401)
    (hok : ∀ a, (onOK a).status ≠ 401) (s : ReaderState) :
    ReaderServes compareHash Behind (fun reply _ => reply.status ≠ 401)
      (Reader.respond p onError onOK) s := by
  have hcalls : ReaderServes compareHash Behind (fun _ _ => True) p s :=
    hp.always (fun _ _ h => h) s
  refine hcalls.map fun r _ _ => ?_
  cases r with
  | ok a => exact hok a
  | error err => exact herror err

/-- **No handler behind the middleware** touches the accounts, or replies like the middleware. -/
theorem serves_protectedRoute (r : ProtectedRoute) (s : ReaderState) :
    ReaderServes compareHash Behind (fun reply _ => reply.status ≠ 401)
      (Reader.protectedRoute sha256 parseTime r) s := by
  have hinternal : ∀ err, (Reader.internalError err).status ≠ 401 := by simp [Reader.internalError]
  have hmissing : ∀ text err, (Reader.notFound text err).status ≠ 401 := by simp [Reader.notFound]
  have hok : ∀ body, (Reader.statusOK body).status ≠ 401 := by simp [Reader.statusOK]
  have hbad : ∀ body s, ReaderServes compareHash Behind (fun reply _ => reply.status ≠ 401)
      (pure ⟨400, body⟩ : Reader.ReaderProg ReaderReply) s := fun body s s₁ _ => by simp
  cases r with
  | createAPIKey body =>
    cases body with
    | error err => exact hbad _ s
    | ok key => exact serves_respond (behind_ofKeys _) hinternal (by simp) s
  | listAPIKeys projectID =>
    change ReaderServes compareHash _ _ (Reader.listAPIKeys projectID) s
    unfold Reader.listAPIKeys
    split_ifs
    · exact hbad _ s
    · exact serves_respond (allCalls_perform (by rintro _ ⟨⟩)) hinternal (fun _ => hok _) s
  | listProjects =>
    exact serves_respond (allCalls_perform (by rintro _ ⟨⟩)) hinternal (fun _ => hok _) s
  | revokeAPIKey id =>
    exact serves_respond (behind_ofKeys _) hinternal (by simp [Reader.noContent]) s
  | getStats => exact serves_respond (behind_ofStats _) hinternal (fun _ => hok _) s
  | getByID id => exact serves_respond (behind_ofSessions _) (hmissing _) (fun _ => hok _) s
  | createShareLink id => exact serves_respond (behind_ofSessions _) (hmissing _) (fun _ => hok _) s
  | delete id | retryFailed id =>
    exact serves_respond (behind_ofSessions _) hinternal (by simp [Reader.noContent]) s
  | list q | getEvents id | listFailed resolved | retryAll =>
    exact serves_respond (behind_ofSessions _) hinternal (fun _ => hok _) s

end Requests

end BatRewind
