import BatRewind.Lib.Server
import BatRewind.Reader.Routes

/-!
# Who may use the reader

Requests arrive at the reader while others are served, call by call, and the writer and the workers
change the tables beside it. A client cannot sign: what carries a signature of the server was given
out by a login before.

* `Arrival`, `Unforged`: a request with the time of its arrival, and what a client can send.
* `ReaderRuns`: the runs of the reader.
* `LetIn`: a request with a token of a login.
* `serves_arrival`, `holdsToken_of_unforged`: what a request does, and where its token is from.
* **`reader_guarded`**: in every run, a request behind the middleware makes calls, and gets a reply
  other than 401, only with a token of a login that had the password of an account on the day
  before; and until that day is over such a token is accepted.
-/

namespace BatRewind

open Base64 Marshal Script Token Effects Effects.Prog

/-! ## Runs -/

/-- A request with the time of its arrival. -/
structure Arrival where
  arrived : Time
  req : ReaderRequest

/-- The token in the header of a request. -/
def ReaderRequest.token (req : ReaderRequest) : Units :=
  req.authorization.drop Reader.bearer.length

/-- The requests that are or were served. -/
abbrev ReaderPool := Pool Arrival ReaderCall ReaderResp ReaderReply

/-- A login with this email and password has replied with the token. -/
def Replied (ps : ReaderPool) (email password : String) (token : Units) (user : UserJson) : Prop :=
  ∃ i : Arrival, i.req.route = .isOpen (.login (.ok (email, password))) ∧
    (i, .ret (Reader.statusOK (.token token user))) ∈ ps

/-- **What a client can send**: if its token is signed, a login has given out what is signed. -/
structure Unforged (jwt : JWT) (ps : ReaderPool) (s : ReaderState) (i : Arrival) : Prop where
  arrived : i.arrived = s.clock
  signed : ∀ claims, Presents jwt i.req.authorization claims →
    ∃ email password token user, Replied ps email password token user ∧
      signing token = signing i.req.token

/-- **The runs of the reader.** -/
abbrev ReaderRuns (compareHash : String → String → Bool) (sha256 : Bytes → Bytes) (jwt : JWT)
    (parseTime : String → Option Time) :
    ReaderPool × ReaderState → ReaderPool × ReaderState → Prop :=
  ServerRuns (fun _ => ReaderAnswers compareHash)
    (fun i : Arrival => Reader.serve compareHash sha256 jwt parseTime i.req) (Unforged jwt)
    ReaderRely

/-! ## Tokens -/

/-- **The token of the request is one of a login**: at the time `now` it had the email and the
password of account `u`. -/
structure HoldsToken (compareHash : String → String → Bool) (jwt : JWT) (ps : ReaderPool)
    (s : ReaderState) (i : Arrival) (u : Account) (now : Time) : Prop where
  mem : u ∈ s.users.users.rows
  now_le : now ≤ i.arrived
  login : ∃ password token, Replied ps u.email password token u.json ∧
    compareHash u.passwordHash password = true ∧ signing token = signing i.req.token
  signed : ∃ now', (claimsOf u.user now now').Fits ∧
    signing i.req.token = signing (generateToken jwt.sign u.user now now')

/-- **The request is let in**: the login was on the day before it arrived. -/
structure LetIn (compareHash : String → String → Bool) (jwt : JWT) (ps : ReaderPool)
    (s : ReaderState) (i : Arrival) (u : Account) (now : Time) : Prop
    extends HoldsToken compareHash jwt ps s i u now where
  on_time : i.arrived < now + day

/-- The calls that a request may make. -/
def Arrival.Calls (jwt : JWT) (i : Arrival) (c : ReaderCall) : Prop :=
  match i.req.route with
  | .isOpen r => OpenCall r c
  | .isProtected _ =>
    c = .users .timeNow ∨ Behind c ∧ Passed jwt i.arrived i.req.authorization

/-- What holds when a request has its reply. -/
def Arrival.Leaves (compareHash : String → String → Bool) (jwt : JWT) (i : Arrival)
    (reply : ReaderReply) (s : ReaderState) : Prop :=
  match i.req.route with
  | .isOpen r => r.Tells compareHash jwt reply s
  | .isProtected _ => Guards jwt i.arrived i.req.authorization reply s

section Guarded

variable {compareHash : String → String → Bool} {sha256 : Bytes → Bytes} {jwt : JWT}
  {parseTime : String → Option Time} {ps ps' : ReaderPool} {s₀ s s' : ReaderState} {i : Arrival}

theorem Arrival.calls_isOpen {r : OpenRoute} (hr : i.req.route = .isOpen r) {c : ReaderCall} :
    i.Calls jwt c ↔ OpenCall r c := by
  unfold Arrival.Calls
  rw [hr]

theorem Arrival.calls_isProtected {r : ProtectedRoute} (hr : i.req.route = .isProtected r)
    {c : ReaderCall} : i.Calls jwt c ↔
      c = .users .timeNow ∨ Behind c ∧ Passed jwt i.arrived i.req.authorization := by
  unfold Arrival.Calls
  rw [hr]

theorem Arrival.leaves_isOpen {r : OpenRoute} (hr : i.req.route = .isOpen r) {reply : ReaderReply} :
    i.Leaves compareHash jwt reply s ↔ r.Tells compareHash jwt reply s := by
  unfold Arrival.Leaves
  rw [hr]

theorem Arrival.leaves_isProtected {r : ProtectedRoute} (hr : i.req.route = .isProtected r)
    {reply : ReaderReply} : i.Leaves compareHash jwt reply s ↔
      Guards jwt i.arrived i.req.authorization reply s := by
  unfold Arrival.Leaves
  rw [hr]

theorem serve_isProtected {req : ReaderRequest} {r : ProtectedRoute}
    (h : req.route = .isProtected r) :
    Reader.serve compareHash sha256 jwt parseTime req = Reader.jwtMiddleware jwt req.authorization
      (Reader.protectedRoute sha256 parseTime r) := by
  unfold Reader.serve
  rw [h]

/-- **A request** from its arrival on. -/
theorem serves_arrival (harrived : i.arrived ≤ s.clock) :
    ReaderServes compareHash (i.Calls jwt) (i.Leaves compareHash jwt)
      (Reader.serve compareHash sha256 jwt parseTime i.req) s := by
  cases hr : i.req.route with
  | isOpen r =>
    unfold Reader.serve
    rw [hr]
    refine ((serves_openRoute r s).weaken fun c _ hc => ?_).imp fun reply s hreply => ?_
    · exact (Arrival.calls_isOpen hr).mpr hc
    · exact (Arrival.leaves_isOpen hr).mpr hreply
  | isProtected r =>
    rw [serve_isProtected hr]
    refine ((serves_jwtMiddleware harrived (serves_protectedRoute r)).weaken
      fun c _ hc => ?_).imp fun reply s hreply => ?_
    · exact (Arrival.calls_isProtected hr).mpr hc
    · exact (Arrival.leaves_isProtected hr).mpr hreply

/-- What a login in the pool has replied, it has replied of an account. -/
theorem issued_of_replied
    (hps : ∀ t ∈ ps, ReaderServes compareHash (t.1.Calls jwt) (t.1.Leaves compareHash jwt) t.2 s)
    {email password : String} {token : Units} {user : UserJson}
    (h : Replied ps email password token user) :
    ∃ u now, user = u.json ∧ IssuedTo compareHash jwt email password token u now s := by
  obtain ⟨i, hr, hmem⟩ := h
  have hleaves := (Arrival.leaves_isOpen hr).mp (hps _ hmem s (Std.Refl.refl s))
  obtain ⟨email', password', u, now, heq, huser, hissued⟩ := hleaves token user rfl
  obtain ⟨rfl, rfl⟩ := Prod.mk.inj (Except.ok.inj heq)
  exact ⟨u, now, huser, hissued⟩

/-- **Where the token of a request is from.** -/
theorem holdsToken_of_unforged
    (hps : ∀ t ∈ ps, ReaderServes compareHash (t.1.Calls jwt) (t.1.Leaves compareHash jwt) t.2 s)
    (h : Unforged jwt ps s i) {claims : TokenClaims}
    (hclaims : Presents jwt i.req.authorization claims) :
    ∃ u now, HoldsToken compareHash jwt ps s i u now := by
  obtain ⟨email, password, token, user, hreplied, hsigning⟩ := h.signed claims hclaims
  obtain ⟨u, now, rfl, hissued⟩ := issued_of_replied hps hreplied
  obtain ⟨now', rfl, hfits⟩ := hissued.made
  have hemail := hissued.email_eq
  subst hemail
  exact ⟨u, now, hissued.mem, h.arrived ▸ hissued.now_le,
    ⟨password, _, hreplied, hissued.opens, hsigning⟩, now', hfits, hsigning.symm⟩

/-- A later pool and a later state have the account and the reply of the login still. -/
theorem HoldsToken.mono {u : Account} {now : Time} (h : HoldsToken compareHash jwt ps s i u now)
    (hs : ReaderRely s s') (hps : ∀ i' reply, (i', .ret reply) ∈ ps → (i', .ret reply) ∈ ps') :
    HoldsToken compareHash jwt ps' s' i u now := by
  obtain ⟨password, token, ⟨i', hr, hmem⟩, hopens, hsigning⟩ := h.login
  exact { h with
    mem := hs.1 u h.mem
    login := ⟨password, token, ⟨i', hr, hps _ _ hmem⟩, hopens, hsigning⟩ }

/-- **The requests of a run**: each keeps its guarantee, and its token is one of a login. -/
theorem ReaderRuns.serves (hruns : ReaderRuns compareHash sha256 jwt parseTime ([], s₀) (ps, s)) :
    ∀ t ∈ ps, ReaderServes compareHash (t.1.Calls jwt) (t.1.Leaves compareHash jwt) t.2 s ∧
      ∀ claims, Presents jwt t.1.req.authorization claims →
        ∃ u now, HoldsToken compareHash jwt ps s t.1 u now := by
  refine ServerRuns.invariant (G := fun i c _ => i.Calls jwt c)
    (Q := fun i => i.Leaves compareHash jwt) (L := fun ps s i => ∀ claims,
      Presents jwt i.req.authorization claims → ∃ u now, HoldsToken compareHash jwt ps s i u now)
    (fun i c s s' r _ hT => hT.rely) (fun _ _ h => h) (fun ps s i h hps => ?_)
    (fun ps s ps' s' i hL hs hstep claims hclaims => ?_) hruns ?_
  · exact ⟨serves_arrival h.arrived.le,
      fun claims hclaims => holdsToken_of_unforged (fun t ht => (hps t ht).1) h hclaims⟩
  · obtain ⟨u, now, hholds⟩ := hL claims hclaims
    exact ⟨u, now, hholds.mono hs fun _ _ => hstep.mem_returned⟩
  · exact fun t ht => absurd ht List.not_mem_nil

/-- **A token that has passed** is one of a login on the day before. -/
theorem letIn_of_passed (hjwt : jwt.Reads)
    (hholds : ∀ claims, Presents jwt i.req.authorization claims →
      ∃ u now, HoldsToken compareHash jwt ps s i u now)
    (h : Passed jwt i.arrived i.req.authorization) :
    ∃ u now, LetIn compareHash jwt ps s i u now := by
  obtain ⟨claims, t, hclaims, hle, hvalid⟩ := h
  obtain ⟨u, now, htoken⟩ := hholds claims hclaims
  obtain ⟨now', hfits, hsigning⟩ := htoken.signed
  have hexpiry := claims_eq_of_signing hjwt hfits hclaims.verified hsigning
  rw [hexpiry, valid_iff] at hvalid
  exact ⟨u, now, htoken, lt_of_le_of_lt hle (hvalid.trans_le expiresAt_le)⟩

/-- An open call, or a reading of the clock, changes nothing. -/
theorem eq_of_reads {c : ReaderCall} {r : ReaderResp c}
    (hc : c = .users .timeNow ∨ ∃ r, OpenCall r c) (hT : ReaderAnswers compareHash c s s' r) :
    s' = s := by
  have hclock : ∀ {r : Time}, ReaderAnswers compareHash (.users .timeNow) s s' r → s' = s :=
    fun hT => hT.1
  have hsession : ∀ {q : Stmt} {r : Except String (Answer q)},
      (∀ e db db' a, q.run e db = .ok (db', a) → db' = db) →
      ReaderAnswers compareHash (.sessions (.base (.sql q))) s s' r → s' = s := by
    rintro q r hq ⟨hT, heq⟩
    have hdb : s'.sessions = s.sessions := by
      rcases Answers.sql_cases hT with ⟨_, hdb, -⟩ | ⟨e, a, -, hrun, -⟩
      · exact hdb
      · exact hq e _ _ a hrun
    rw [heq, hdb]
  have hshare : ∀ token (e : Env) db db' a,
      (Stmt.selectByShareToken token).run e db = .ok (db', a) → db' = db := by
    intro token e db db' a hrun
    simp only [Stmt.run] at hrun
    split at hrun <;> cases hrun
    rfl
  rcases hc with rfl | ⟨r', hopen⟩
  · exact hclock hT
  cases r' with
  | login body =>
    rcases hopen with rfl | ⟨email, password, -, rfl⟩
    · exact hclock hT
    · obtain ⟨hT, heq⟩ := hT
      have husers : s'.users = s.users := by
        rcases hT.changes with heq | ⟨u, heq, -⟩
        · exact heq
        · cases heq
      rw [heq, husers]
  | getPublicSession token =>
    obtain rfl := hopen
    exact hsession (hshare token) hT
  | getPublicEvents token =>
    rcases hopen with rfl | ⟨id, rfl⟩
    · exact hsession (hshare token) hT
    · refine hsession (fun e db db' a hrun => ?_) hT
      exact (Prod.mk.inj (Except.ok.inj hrun)).1.symm

/-- **The guard of the reader.** In every run: no request changes the accounts; a request on an open
route only reads what the route is about; a request behind the middleware makes a call other than to
the clock, and gets a reply other than 401, only with a token of a login that had the password of an
account, at most a day before the request arrived; so nothing changes without such a token; and a
token is refused only when that day, up to a second, is over. -/
theorem reader_guarded (hjwt : jwt.Reads)
    (hruns : ReaderRuns compareHash sha256 jwt parseTime ([], s₀) (ps, s)) :
    (∀ i c r ps' s', PoolStep (fun _ => ReaderAnswers compareHash) (ps, s) (i, ⟨c, r⟩) (ps', s') →
      s'.users = s.users ∧ (∀ r, i.req.route = .isOpen r → OpenCall r c) ∧
        (∀ r, i.req.route = .isProtected r → c ≠ .users .timeNow →
          ∃ u now, LetIn compareHash jwt ps s i u now) ∧
        (s' ≠ s → ∃ u now, LetIn compareHash jwt ps s i u now)) ∧
      ∀ i reply r, (i, .ret reply) ∈ ps → i.req.route = .isProtected r →
        (reply.status ≠ 401 → ∃ u now, LetIn compareHash jwt ps s i u now) ∧
        (reply.status = 401 → ∀ email password token user, Replied ps email password token user →
          i.req.authorization = Reader.bearer ++ token →
          ∃ u now, user = u.json ∧ IssuedTo compareHash jwt email password token u now s ∧
            now + day < s.clock + 1000000000) := by
  have hserves := hruns.serves
  have hps : ∀ t ∈ ps, ReaderServes compareHash (t.1.Calls jwt) (t.1.Leaves compareHash jwt) t.2
      s := fun t ht => (hserves t ht).1
  refine ⟨fun i c r ps' s' hstep => ?_, fun i reply r hmem hr => ?_⟩
  · obtain ⟨hcalls, hT, -⟩ := hstep.guarantee (G := fun i c _ => i.Calls jwt c)
      (fun _ _ _ _ _ _ hT => ReaderAnswers.rely hT) hps
    have hholds : ∀ claims, Presents jwt i.req.authorization claims →
        ∃ u now, HoldsToken compareHash jwt ps s i u now := by
      obtain ⟨t, ht, rfl⟩ := List.mem_map.mp hstep.labels.2
      exact (hserves t ht).2
    cases hr : i.req.route with
    | isOpen route =>
      have hopen := (Arrival.calls_isOpen hr).mp hcalls
      obtain rfl := eq_of_reads (Or.inr ⟨route, hopen⟩) hT
      refine ⟨rfl, ?_, ?_, fun h => absurd rfl h⟩
      · rintro _ ⟨⟩
        exact hopen
      · rintro _ ⟨⟩
    | isProtected route =>
      refine ⟨?_, by rintro _ ⟨⟩, fun _ _ hclock => ?_, fun hchanged => ?_⟩
      · rcases (Arrival.calls_isProtected hr).mp hcalls with rfl | ⟨hbehind, -⟩
        · rw [eq_of_reads (Or.inl rfl) hT]
        · rcases (ReaderAnswers.changes hT).2 with heq | ⟨u, heq, -⟩
          · exact heq
          · exact absurd heq (hbehind _)
      · rcases (Arrival.calls_isProtected hr).mp hcalls with heq | ⟨-, hpassed⟩
        · exact absurd heq hclock
        · exact letIn_of_passed hjwt hholds hpassed
      · rcases (Arrival.calls_isProtected hr).mp hcalls with heq | ⟨-, hpassed⟩
        · exact absurd (eq_of_reads (Or.inl heq) hT) hchanged
        · exact letIn_of_passed hjwt hholds hpassed
  · obtain ⟨hserve, hholds⟩ := hserves _ hmem
    have hguards := (Arrival.leaves_isProtected hr).mp (hserve s (Std.Refl.refl s))
    refine ⟨fun hstatus => letIn_of_passed hjwt hholds (hguards.passed hstatus), ?_⟩
    intro hstatus email password token user hreplied hheader
    obtain ⟨u, now, huser, hissued⟩ := issued_of_replied hps hreplied
    refine ⟨u, now, huser, hissued, ?_⟩
    obtain ⟨now', rfl, hfits⟩ := hissued.made
    have hpresents : Presents jwt i.req.authorization
        ⟨some (claimsOf u.user now now').expiresAt, none⟩ := by
      rw [hheader]
      refine ⟨List.isPrefixOf_iff_prefix.mpr (List.prefix_append _ _), ?_⟩
      rw [List.drop_left]
      exact verified_generateToken hjwt hfits
    obtain ⟨t, ht, hinvalid⟩ := hguards.expired hstatus _ hpresents
    have hexpired : ¬ t < (claimsOf u.user now now').expiresAt * 1000000000 := by
      rw [← valid_iff, hinvalid]
      exact Bool.false_ne_true
    have hexpiry : (claimsOf u.user now now').expiresAt = (now + day) / 1000000000 := rfl
    have htime : ∀ a b c : ℤ, ¬ b < a / 1000000000 * 1000000000 → b ≤ c → a < c + 1000000000 := by
      intro a b c hab hbc
      omega
    rw [hexpiry] at hexpired
    exact htime _ _ _ hexpired ht

/-! ## A run -/

/-- A package that reads JSON as `JSON.parse` does; the code of a text is the text. -/
def parsingJWT : JWT where
  method bs := do
    let v ← jsonParse (latin1 bs)
    match access (some v) (units "alg") with
    | .ok (some (.str alg)) => some (if alg = units "HS256" then .hmac .sha256 else .other)
    | _ => none
  claims bs := do
    let v ← jsonParse (latin1 bs)
    match access (some v) (units "exp") with
    | .ok (some (.num exp)) => some ⟨some exp.floor, none⟩
    | _ => none
  mac _ text := text.map UInt16.toUInt8

theorem parsingJWT_reads : parsingJWT.Reads where
  method := by decide +kernel
  claims c _ := by
    obtain ⟨v, hv, hexp⟩ := jsonParse_claims c
    change ((jsonParse (latin1 (marshalClaims c))).bind fun v => _) = _
    rw [hv, Option.bind_some, hexp]
    dsimp only
    rw [Rat.floor_intCast]

/-- An owner whose hash is the password itself. -/
def shopOwner : Account := ⟨"u1", "Ana", "a@shop", "secret", .owner, 0⟩

def shopState : ReaderState where
  users := ⟨⟨[shopOwner], List.nodup_singleton _⟩, List.nodup_singleton _⟩
  keys := .empty
  sessions := .empty
  clock := 0
  clock_fits := by decide

def shopToken : Units := generateToken parsingJWT.sign shopOwner.user 0 0

def shopLogin : Arrival := ⟨0, .isOpen (.login (.ok ("a@shop", "secret"))), []⟩

def shopListing : Arrival := ⟨0, .isProtected .listProjects, Reader.bearer ++ shopToken⟩

theorem shopListing_presents : Presents parsingJWT shopListing.req.authorization
    ⟨some (claimsOf shopOwner.user 0 0).expiresAt, none⟩ where
  bearer := List.isPrefixOf_iff_prefix.mpr (List.prefix_append _ _)
  verified := by
    have htoken : shopListing.req.authorization.drop Reader.bearer.length = shopToken :=
      List.drop_left
    rw [htoken]
    exact verified_generateToken parsingJWT_reads (claimsOf_fits (by decide) (by decide))

/-- A login, and a listing with its token. -/
theorem reader_guarded_listing : ∃ ps s u now,
    ReaderRuns (fun hash password => hash == password) id parsingJWT (fun _ => none)
      ([], shopState) (ps, s) ∧
    (shopListing, .ret (Reader.statusOK (.projects []))) ∈ ps ∧
    LetIn (fun hash password => hash == password) parsingJWT ps s shopListing u now := by
  let login : Arrival × Prog ReaderCall ReaderResp ReaderReply :=
    (shopLogin, .ret (Reader.statusOK (.token shopToken shopOwner.json)))
  let listing : Arrival × Prog ReaderCall ReaderResp ReaderReply :=
    (shopListing, .ret (Reader.statusOK (.projects [])))
  have hlogin : PoolRuns (fun _ => ReaderAnswers fun hash password => hash == password)
      ([(shopLogin, Reader.serve (fun hash password => hash == password) id parsingJWT
        (fun _ => none) shopLogin.req)], shopState) ([login], shopState) := by
    have hclock : ReaderAnswers (fun hash password => hash == password)
        (ReaderCall.users .timeNow) shopState shopState (0 : Time) := ⟨rfl, rfl⟩
    have hselect : ReaderAnswers (fun hash password => hash == password)
        (ReaderCall.users (.sql (.selectUserByEmail "a@shop"))) shopState shopState
        (.ok shopOwner : Except DBError Account) := by
      refine ⟨⟨⟨none, "", 0, "", .ok ""⟩, ⟨?_, False.elim, False.elim, False.elim⟩, rfl⟩, rfl⟩
      rintro _ _ ⟨⟩
    refine .head ⟨_, .call [] [] shopLogin
      (ReaderCall.users (.sql (.selectUserByEmail "a@shop"))) _ _ _ _ hselect⟩ ?_
    refine .head ⟨_, .call [] [] shopLogin (ReaderCall.users .timeNow) _ _ _ _ hclock⟩ ?_
    exact .single ⟨_, .call [] [] shopLogin (ReaderCall.users .timeNow) _ _ _ _ hclock⟩
  have hlisting : PoolRuns (fun _ => ReaderAnswers fun hash password => hash == password)
      ([(shopListing, Reader.serve (fun hash password => hash == password) id parsingJWT
        (fun _ => none) shopListing.req), login], shopState) ([listing, login], shopState) := by
    have hvalid : ¬ (⟨some (claimsOf shopOwner.user 0 0).expiresAt, none⟩ : TokenClaims).valid
        shopState.clock = false := by
      rw [Bool.not_eq_false, valid_iff]
      decide
    rw [serve_isProtected (r := .listProjects) rfl, jwtMiddleware_of_presents shopListing_presents]
    refine .head ⟨_, .call [] [login] shopListing (ReaderCall.users .timeNow) _ shopState _
      shopState.clock ⟨rfl, rfl⟩⟩ ?_
    rw [if_neg hvalid]
    refine .single ⟨_, .call [] [login] shopListing .listAllProjects _ shopState _ (.ok [])
      ⟨rfl, ?_⟩⟩
    rintro _ ⟨⟩
    exact List.Perm.refl _
  have hruns : ReaderRuns (fun hash password => hash == password) id parsingJWT (fun _ => none)
      ([], shopState) ([listing, login], shopState) := by
    refine .head (.arrive (i := shopLogin) ⟨rfl, fun claims h => ?_⟩) ?_
    · exact absurd h.bearer (by decide)
    refine .trans hlogin.server (.head (.arrive (i := shopListing) ⟨rfl, fun claims _ => ?_⟩)
      hlisting.server)
    exact ⟨"a@shop", "secret", shopToken, shopOwner.json, ⟨shopLogin, rfl, List.mem_cons_self⟩,
      congrArg signing List.drop_left.symm⟩
  obtain ⟨u, now, hletIn⟩ := ((reader_guarded parsingJWT_reads hruns).2 shopListing
    (Reader.statusOK (.projects [])) .listProjects List.mem_cons_self rfl).1 (by decide)
  exact ⟨_, _, u, now, hruns, List.mem_cons_self, hletIn⟩

end Guarded

end BatRewind
