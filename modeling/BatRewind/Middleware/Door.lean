import Mathlib.Algebra.Order.Group.Multiset
import BatRewind.Auth.Keys
import BatRewind.Middleware.RateLimit
import BatRewind.Worker.Pipeline

/-!
# The door of the writer

A request to `POST /v1/record` passes `BodyLimit`, `APIKeyMiddleware` and the rate limiter before
`WriterHandler.Ingest` sees it. Requests run side by side and next to calls that change the API
keys, call by call; the writer begins with a new limiter.

* `Door.ingest`: the chain of handlers; `Door.answering E`: the tables, the limiter and the stream,
  with clock readings from `E`.
* `Door.calls` records the calls of `Allow` in the order of the lock; nothing reads it.
* `always_ingest`: what a request does before it passes; `accrues_calls`, `accrues_entries`: what it
  adds to the limiter's record and to the stream.
* **`door_exact`**: who gets a bucket, who passes, how many batches a key gets in, and what the
  stream holds.
-/

namespace BatRewind

open Buckets Encoding Tables Effects Effects.Prog RateLimiter

/-! ## Requests -/

/-- The body of a request: the bytes up to the end of its first JSON value, and that value or the
error of the decoder. -/
structure Body where
  bytes : ℕ
  json : Except String Json

/-- A request; the length is `-1` if unknown and `apiKey` is empty without the header. -/
structure HTTPRequest where
  contentLength : ℤ
  apiKey : String
  clientIP : String
  body : Body

/-- The reply of a middleware that aborts. -/
inductive Abort where
  | requestEntityTooLarge (error : String)
  | unauthorized (error : String)
  | tooManyRequests (error : String)

/-- A call while a request is served. -/
inductive DoorCall where
  | auth (c : AuthCall)
  | allow (key : String) (now : Time)
  | writer (c : WriterCall)

@[reducible] def DoorResp : DoorCall → Type
  | .auth c => AuthResp c
  | .allow _ _ => Bool
  | .writer c => WriterResp c

/-- A chain of handlers: an error is the reply of a middleware. -/
abbrev DoorProg := ExceptT Abort (Prog DoorCall DoorResp)

/-- **The shared state**, with a record of the calls of `Allow`. -/
structure Door where
  auth : AuthDB
  limiter : RateLimiter
  queue : Stream
  calls : List (String × Time × Bool)

namespace Door

/-- A program of the auth service. -/
def ofAuth {α : Type} (p : Prog AuthCall AuthResp α) : Prog DoorCall DoorResp α :=
  (p : Prog AuthCall (fun c => DoorResp (.auth c)) α).hoist .auth

section Handlers

variable (sha256 : Bytes → Bytes) (lib : Writer.Libraries) (maxBytes : ℤ)

/-- `BodyLimit`, for the announced length. -/
def bodyLimit (req : HTTPRequest) : DoorProg Unit :=
  if 0 < maxBytes ∧ maxBytes < req.contentLength then
    throw (.requestEntityTooLarge "payload too large")
  else pure ()

/-- `http.MaxBytesReader` under the decoder. -/
def readBody (body : Body) : Except String Json :=
  if 0 < maxBytes ∧ maxBytes < body.bytes then .error "http: request body too large" else body.json

/-- `APIKeyMiddleware`: the key that goes into the context. -/
def apiKeyMiddleware (req : HTTPRequest) : DoorProg APIKey :=
  if req.apiKey = "" then throw (.unauthorized "missing X-API-Key header")
  else do
    match ← ExceptT.lift (ofAuth (Auth.validateAPIKey sha256 req.apiKey).run) with
    | .error _ => throw (.unauthorized "invalid or expired API key")
    | .ok key => return key

/-- The key of a request in the limiter. -/
def limiterKey (apiKeyID clientIP : String) : String := if apiKeyID = "" then clientIP else apiKeyID

/-- The middleware of the limiter. The clock is read before the lock is taken. -/
def rateLimit (apiKeyID clientIP : String) : DoorProg Unit := do
  let now ← ExceptT.lift (perform (R := DoorResp) (.auth .timeNow))
  let allowed ← ExceptT.lift (perform (R := DoorResp) (.allow (limiterKey apiKeyID clientIP) now))
  if allowed then return else throw (.tooManyRequests "rate limit exceeded")

/-- `WriterHandler.Ingest` on what `MaxBytesReader` lets through. -/
def handle (req : HTTPRequest) : Prog DoorCall DoorResp Reply :=
  match readBody maxBytes req.body with
  | .error err => pure ⟨.badRequest, some err⟩
  | .ok body =>
    (Writer.ingest lib body : Prog WriterCall (fun c => DoorResp (.writer c)) Reply).hoist .writer

/-- **The route**: the `api_key_id` of the context and the reply of the handler. -/
def ingest (req : HTTPRequest) : DoorProg (String × Reply) := do
  bodyLimit maxBytes req
  let key ← apiKeyMiddleware sha256 req
  rateLimit key.id req.clientIP
  let reply ← ExceptT.lift (handle lib maxBytes req)
  return (key.id, reply)

end Handlers

/-- What a call may do. -/
def answering (E : AuthEnv → Prop) : Handler DoorCall DoorResp Door
  | .auth c, s, s', r => AuthAnswers E c s.auth s'.auth r ∧ s' = { s with auth := s'.auth }
  | .allow key now, s, s', r =>
    r = (s.limiter.allow key now).1 ∧
      s' = { s with limiter := (s.limiter.allow key now).2, calls := s.calls ++ [(key, now, r)] }
  | .writer c, s, s', r => enqueueing c s.queue s'.queue r ∧ s' = { s with queue := s'.queue }

/-- The writer at its start. -/
def start (db : AuthDB) (q : Stream) (rate : ℚ) (burst : ℤ) : Door :=
  ⟨db, newRateLimiter rate burst, q, []⟩

/-- What runs side by side: requests, and calls that change the keys. -/
inductive Job where
  | request (req : HTTPRequest)
  | keys (c : KeyCall)

/-- The result of a job; `none` for a call that changes the keys. -/
abbrev Outcome := Option (Except Abort (String × Reply))

/-- The program of a job. -/
def Job.program (sha256 : Bytes → Bytes) (lib : Writer.Libraries) (maxBytes : ℤ) :
    Job → Prog DoorCall DoorResp Outcome
  | .request req => some <$> (ingest sha256 lib maxBytes req).run
  | .keys c => (fun _ => none) <$> ofAuth (c.program sha256)

end Door

/-! ## Keys -/

/-- No key is lost, and none that is revoked becomes active again. -/
structure KeysKept (db db' : AuthDB) : Prop where
  ids : ∀ k ∈ db.apiKeys.rows, ∃ k' ∈ db'.apiKeys.rows, k'.id = k.id
  revoked : ∀ keyHash, Revoked keyHash db → Revoked keyHash db'

instance : Std.Refl KeysKept := ⟨fun _ => ⟨fun k hk => ⟨k, hk, rfl⟩, fun _ h => h⟩⟩

instance : IsTrans AuthDB KeysKept where
  trans _ _ _ h h' := by
    refine ⟨fun k hk => ?_, fun keyHash hr => h'.revoked keyHash (h.revoked keyHash hr)⟩
    obtain ⟨k₁, hk₁, hid₁⟩ := h.ids k hk
    obtain ⟨k₂, hk₂, hid₂⟩ := h'.ids k₁ hk₁
    exact ⟨k₂, hk₂, hid₂.trans hid₁⟩

/-- A key with this id was issued. -/
def IssuedID (id : String) (db : AuthDB) : Prop := ∃ k ∈ db.apiKeys.rows, k.id = id

section Keys

variable {E : AuthEnv → Prop} {db db' : AuthDB}

theorem IssuedID.kept {id : String} (h : IssuedID id db) (hkept : KeysKept db db') :
    IssuedID id db' := by
  obtain ⟨k, hk, rfl⟩ := h
  exact hkept.ids k hk

theorem KeyChange.keysKept {c : AuthCall} (h : KeyChange db db' c) : KeysKept db db' := by
  refine ⟨fun k hk => ?_, fun keyHash => h.revoked⟩
  cases h with
  | keep _ h => exact ⟨k, h ▸ hk, rfl⟩
  | insert k' h => exact ⟨k, h ▸ List.mem_append_left _ hk, rfl⟩
  | revoke id h | project id projectID h =>
    refine ⟨_, h ▸ List.mem_map_of_mem hk, ?_⟩
    split_ifs <;> rfl

theorem keysKept_auth (c : AuthCall) (db db' : AuthDB) (r : AuthResp c) (_ : True)
    (h : AuthAnswers E c db db' r) : KeysKept db db' := h.keyChange.keysKept

/-- **A key that validates was issued**, and was not revoked before the call. -/
theorem always_getAPIKeyByHash (keyHash : String) (db₀ : AuthDB) :
    Always (AuthAnswers E) KeysKept (fun _ _ => True)
      (Returns fun k db => IssuedID k.id db ∧ ¬ Revoked keyHash db₀)
      (Auth.Repository.getAPIKeyByHash keyHash).run db₀ := by
  refine always_bind_except (P := fun k db => IssuedID k.id db ∧ ¬ Revoked keyHash db₀) ?_ ?_
  · refine Always.adapt (x := Auth.sql (.selectActiveByHash keyHash)) ?_ _
    refine fun db₁ h₁ => ⟨trivial, fun db₂ r hT db₃ h₃ k hk => ?_⟩
    subst hk
    obtain ⟨rfl, hmem, hhash, hactive⟩ := selectActiveByHash_ok hT
    refine ⟨h₃.ids k hmem, fun hrev => ?_⟩
    rw [(h₁.revoked keyHash hrev).not_active hmem hhash] at hactive
    cases hactive
  · rintro k db₁ ⟨hid, hrev⟩
    have hreturn : ∀ db₂, KeysKept db₁ db₂ → Always (AuthAnswers E) KeysKept (fun _ _ => True)
        (Returns fun k db => IssuedID k.id db ∧ ¬ Revoked keyHash db₀)
        (pure k : AuthSvc APIKey).run db₂ := fun db₂ h₂ =>
      always_pure_except fun db₃ h₃ => ⟨(hid.kept h₂).kept h₃, hrev⟩
    cases k.expiresAt with
    | none => exact hreturn db₁ (Std.Refl.refl db₁)
    | some t =>
      have hnow : Always (AuthAnswers E) KeysKept (fun _ _ => True)
          (Returns fun _ db => KeysKept db₁ db) Auth.timeNow.run db₁ := by
        refine Always.lift (fun db₂ h₂ => ⟨trivial, fun db₃ r hT db₄ h₄ => ?_⟩)
        have hstep := keysKept_auth _ _ _ _ trivial hT
        exact IsTrans.trans _ _ _ (IsTrans.trans _ _ _ h₂ hstep) h₄
      refine always_bind_except hnow fun now db₂ h₂ => ?_
      split_ifs
      · exact fun _ _ => returns_error _
      · exact hreturn db₂ h₂

end Keys

namespace Door

/-! ## What a request does -/

/-- What the others may do. -/
def Rely (s s' : Door) : Prop := KeysKept s.auth s'.auth

instance : Std.Refl Rely := ⟨fun s => Std.Refl.refl s.auth⟩

instance : IsTrans Door Rely := ⟨fun s s₁ s' => IsTrans.trans s.auth s₁.auth s'.auth⟩

/-- A call of `Allow` is for an issued key, with a reading between `t₀` and `t₁`. A key with an empty
id would be limited by address. -/
def Admitted (t₀ t₁ : Time) : DoorCall → Door → Prop
  | .allow key now, s => (t₀ ≤ now ∧ now ≤ t₁) ∧ (IssuedID key s.auth ∨ IssuedID "" s.auth)
  | _, _ => True

/-- The clock reads between `t₀` and `t₁`. -/
def Between (t₀ t₁ : Time) (e : AuthEnv) : Prop := t₀ ≤ e.now ∧ e.now ≤ t₁

section Always

variable (sha256 : Bytes → Bytes) (lib : Writer.Libraries) (maxBytes : ℤ) {t₀ t₁ : Time}

theorem answering_rely {E : AuthEnv → Prop} {c : DoorCall} {s s' : Door} {r : DoorResp c}
    (h : answering E c s s' r) : Rely s s' := by
  cases c with
  | auth c => exact h.1.keyChange.keysKept
  | allow key now | writer c =>
    have hauth : s'.auth = s.auth := by rw [h.2]
    rw [Rely, hauth]
    exact Std.Refl.refl s.auth

/-- A request, between calls of the others. -/
abbrev Serves {α : Type} (t₀ t₁ : Time) (Q : α → Door → Prop) (p : Prog DoorCall DoorResp α)
    (s : Door) : Prop :=
  Always (answering (Between t₀ t₁)) Rely (Admitted t₀ t₁) Q p s

/-- A program that reads or changes keys. -/
theorem serves_auth {α : Type} {Q : α → AuthDB → Prop} {p : Prog AuthCall AuthResp α} {s : Door}
    (h : Always (AuthAnswers (Between t₀ t₁)) KeysKept (fun _ _ => True) Q p s.auth) :
    Serves t₀ t₁ (fun a s => Q a s.auth) (ofAuth p) s :=
  always_hoist.mpr (h.part (f := Door.auth) (fun _ _ _ _ hT => hT.1) (fun _ _ h => h)
    fun _ _ _ => trivial)

theorem serves_apiKeyMiddleware (req : HTTPRequest) (s₀ : Door) :
    Serves t₀ t₁ (Returns fun k s => IssuedID k.id s.auth ∧
        ¬ Revoked (Auth.hashOf sha256 req.apiKey) s₀.auth)
      (apiKeyMiddleware sha256 req).run s₀ := by
  unfold apiKeyMiddleware
  split_ifs
  · exact fun _ _ => returns_error _
  · have hvalid := serves_auth (always_getAPIKeyByHash (E := Between t₀ t₁)
      (Auth.hashOf sha256 req.apiKey) s₀.auth)
    refine always_bind_except (Always.lift hvalid) fun r s₁ hr => ?_
    cases r with
    | error err => exact fun _ _ => returns_error _
    | ok k =>
      obtain ⟨hid, hrev⟩ := hr k rfl
      exact always_pure_except fun s₂ h₂ => ⟨hid.kept h₂, hrev⟩

theorem serves_rateLimit {id : String} (clientIP : String) {s₀ : Door}
    (hid : IssuedID id s₀.auth) :
    Serves t₀ t₁ (Returns fun _ _ => True) (rateLimit id clientIP).run s₀ := by
  have hnow : Serves t₀ t₁
      (fun (now : Time) (s : Door) => (t₀ ≤ now ∧ now ≤ t₁) ∧ IssuedID id s.auth)
      (perform (R := DoorResp) (.auth .timeNow)) s₀ := by
    intro s₁ h₁
    refine ⟨trivial, fun s₂ now hT s₃ h₃ => ?_⟩
    obtain ⟨hdb, e, he, rfl⟩ := authAnswers_timeNow.mp hT.1
    exact ⟨he, (hid.kept h₁).kept (hdb ▸ h₃)⟩
  refine always_bind_except (Always.lift hnow) fun now s₁ hs₁ => ?_
  have hallow : Serves t₀ t₁ (fun (_ : Bool) _ => True)
      (perform (R := DoorResp) (.allow (limiterKey id clientIP) now)) s₁ := by
    intro s₂ h₂
    refine ⟨⟨hs₁.1, ?_⟩, fun _ _ _ _ _ => trivial⟩
    have hid₂ : IssuedID id s₂.auth := hs₁.2.kept h₂
    unfold limiterKey
    split_ifs with hempty
    · exact Or.inr (hempty ▸ hid₂)
    · exact Or.inl hid₂
  refine always_bind_except (Always.lift hallow) fun allowed s₂ _ => ?_
  cases allowed with
  | true => exact always_pure_except fun _ _ => trivial
  | false => exact fun _ _ => returns_error _

theorem allCalls_handle (P : DoorCall → Prop) (hP : ∀ c, P (.writer c)) (req : HTTPRequest) :
    AllCalls (fun _ _ => True) P (handle lib maxBytes req) := by
  unfold handle
  split
  · exact allCalls_pure _
  · exact allCalls_hoist (allCalls_of_forall hP _)

/-- **A request calls `Allow` for an issued key only**, and does not pass with a revoked one. -/
theorem serves_ingest (req : HTTPRequest) (s₀ : Door) :
    Serves t₀ t₁ (Returns fun _ _ => ¬ Revoked (Auth.hashOf sha256 req.apiKey) s₀.auth)
      (ingest sha256 lib maxBytes req).run s₀ := by
  have hlimit : Serves t₀ t₁ (Returns fun _ s => Rely s₀ s) (bodyLimit maxBytes req).run s₀ := by
    unfold bodyLimit
    split_ifs
    · exact fun _ _ => returns_error _
    · exact always_pure_except fun _ h => h
  refine always_bind_except hlimit fun _ s₁ h₁ => ?_
  refine always_bind_except (serves_apiKeyMiddleware sha256 req s₁) fun key s₂ h₂ => ?_
  obtain ⟨hid, hrev⟩ := h₂
  have hrev₀ : ¬ Revoked (Auth.hashOf sha256 req.apiKey) s₀.auth := mt (h₁.revoked _) hrev
  refine always_bind_except (serves_rateLimit req.clientIP hid) fun _ s₃ _ => ?_
  have hhandle : Serves t₀ t₁ (fun (_ : Reply) _ => True) (handle lib maxBytes req) s₃ :=
    (allCalls_handle lib maxBytes (fun c => ∀ s, Admitted t₀ t₁ c s) (fun _ _ => trivial) req).always
      (fun _ s h => h s) s₃
  exact always_bind_except (Always.lift hhandle) fun reply s₄ _ =>
    always_pure_except fun _ _ => hrev₀

/-- What a job leaves behind: a request with a key that was revoked when it began has not passed. -/
def Refuses (sha256 : Bytes → Bytes) (db₀ : AuthDB) : Job → Outcome → Door → Prop
  | .request req, r, _ => ∀ x, r = some (.ok x) → ¬ Revoked (Auth.hashOf sha256 req.apiKey) db₀
  | .keys _, _, _ => True

theorem serves_program (job : Job) (s₀ : Door) :
    Serves t₀ t₁ (Refuses sha256 s₀.auth job) (job.program sha256 lib maxBytes) s₀ := by
  cases job with
  | request req =>
    refine (serves_ingest sha256 lib maxBytes req s₀).map fun r s hr x hx => ?_
    exact hr x (Option.some.inj hx)
  | keys c =>
    have hcall : Serves t₀ t₁ (fun _ _ => True) (ofAuth (c.program sha256)) s₀ :=
      serves_auth ((allCalls_of_forall (P := fun _ => True) (fun _ => trivial) _).always
          (fun _ _ h => h) s₀.auth)
    exact hcall.map fun _ _ h => h

end Always

/-! ## What a request adds -/

/-- The calls of `Allow` for a key that were allowed. -/
def admitted (k : String) (s : Door) : ℕ := allowed (history k s.calls)

/-- The payloads of the stream. -/
def payloads (q : Stream) : Multiset Json := q.entries.rows.map Message.data

section Accrues

variable (sha256 : Bytes → Bytes) (lib : Writer.Libraries) (maxBytes : ℤ) {E : AuthEnv → Prop}

/-- Every call but `Allow`. -/
def NoAllow : DoorCall → Prop
  | .allow _ _ => False
  | _ => True

/-- Every call but those of the writer. -/
def NoWriter : DoorCall → Prop
  | .writer _ => False
  | _ => True

theorem admitted_eq {k : String} (c : DoorCall) (s s' : Door) (r : DoorResp c) (hc : NoAllow c)
    (h : answering E c s s' r) : admitted k s' = admitted k s := by
  cases c with
  | auth c | writer c => rw [admitted, h.2, admitted]
  | allow key now => cases hc

theorem payloads_eq (c : DoorCall) (s s' : Door) (r : DoorResp c) (hc : NoWriter c)
    (h : answering E c s s' r) : payloads s'.queue = payloads s.queue := by
  cases c with
  | auth c | allow key now => rw [h.2]
  | writer c => cases hc

theorem allCalls_bodyLimit {P : DoorCall → Prop} (req : HTTPRequest) :
    AllCalls (fun _ _ => True) P (bodyLimit maxBytes req).run := by
  unfold bodyLimit
  split_ifs <;> exact allCalls_pure _

theorem allCalls_apiKeyMiddleware {P : DoorCall → Prop} (hP : ∀ c, P (.auth c))
    (req : HTTPRequest) :
    AllCalls (fun _ _ => True) P (apiKeyMiddleware sha256 req).run := by
  unfold apiKeyMiddleware
  split_ifs
  · exact allCalls_pure _
  · refine (AllCalls.lift (allCalls_hoist (allCalls_of_forall hP _))).bind_except fun r => ?_
    cases r <;> exact allCalls_pure _

theorem allCalls_rateLimit {P : DoorCall → Prop} (hnow : P (.auth .timeNow))
    (hallow : ∀ key now, P (.allow key now)) (id clientIP : String) :
    AllCalls (fun _ _ => True) P (rateLimit id clientIP).run := by
  refine (AllCalls.lift (allCalls_perform hnow)).bind_except fun now => ?_
  refine (AllCalls.lift (allCalls_perform (hallow _ _))).bind_except fun r => ?_
  split_ifs <;> exact allCalls_pure _

theorem accrues_rateLimit {k : String} (id clientIP : String) :
    Accrues (answering E) (admitted k)
      (fun r m => r = .ok () → limiterKey id clientIP = k → 1 ≤ m) (rateLimit id clientIP).run 0 := by
  have hnow : Accrues (answering E) (admitted k) (fun _ m => m = 0)
      (ExceptT.lift (perform (R := DoorResp) (.auth .timeNow)) : DoorProg Time).run 0 :=
    (AllCalls.lift (allCalls_perform (P := NoAllow) (c := .auth .timeNow) trivial)).accrues admitted_eq
  refine accrues_bind_except hnow (fun now m hm => ?_) fun _ _ _ h => by cases h
  subst hm
  have hallow : Accrues (answering E) (admitted k)
      (fun r m => r = true → limiterKey id clientIP = k → 1 ≤ m)
      (perform (R := DoorResp) (.allow (limiterKey id clientIP) now)) 0 := by
    refine accrues_perform fun s s' r hT => ?_
    refine ⟨allowed (if limiterKey id clientIP = k then [(now, r)] else []), ?_, ?_⟩
    · rw [admitted, hT.2, history_concat, admitted, allowed, List.countP_append]
      rfl
    · rintro rfl hkey
      rw [if_pos hkey]
      exact le_rfl
  have hlift : Accrues (answering E) (admitted k)
      (fun r m => r = .ok true → limiterKey id clientIP = k → 1 ≤ m)
      (ExceptT.lift (perform (R := DoorResp) (.allow (limiterKey id clientIP) now)) :
        DoorProg Bool).run 0 := by
    rw [ExceptT.run_lift]
    exact hallow.map fun r m hr h => hr (Except.ok.inj h)
  refine accrues_bind_except hlift (fun r m hr => ?_) fun _ _ _ h => by cases h
  cases r with
  | true => exact fun _ hkey => hr rfl hkey
  | false =>
    intro h
    cases h

/-- **A request that passes has taken a token of its key.** -/
theorem accrues_admitted {k : String} (hk : k ≠ "") (req : HTTPRequest) :
    Accrues (answering E) (admitted k) (fun r m => ∀ reply, r = .ok (k, reply) → 1 ≤ m)
      (ingest sha256 lib maxBytes req).run 0 := by
  have hlimit := (allCalls_bodyLimit maxBytes (P := NoAllow) req).accrues
    (T := answering E) (μ := admitted k) (m := 0) admitted_eq
  refine accrues_bind_except hlimit (fun _ m hm => ?_) fun _ _ _ => nofun
  subst hm
  have hkey := (allCalls_apiKeyMiddleware sha256 (P := NoAllow) (fun _ => trivial) req).accrues
    (T := answering E) (μ := admitted k) (m := 0) admitted_eq
  refine accrues_bind_except hkey (fun key m hm => ?_) fun _ _ _ => nofun
  subst hm
  refine accrues_bind_except (accrues_rateLimit key.id req.clientIP) (fun _ m hm => ?_)
    fun _ _ _ => nofun
  have hhandle := (AllCalls.lift (ε := Abort) (allCalls_handle lib maxBytes NoAllow
    (fun _ => trivial) req)).accrues (T := answering E) (μ := admitted k) (m := m) admitted_eq
  refine accrues_bind_except hhandle (fun reply m' hm' => ?_) fun _ _ _ => nofun
  subst hm'
  intro reply' hok
  obtain ⟨hid, -⟩ := Prod.mk.inj (Except.ok.inj hok)
  refine hm rfl ?_
  rw [limiterKey, if_neg (hid ▸ hk)]
  exact hid

/-- A job that lets a request pass has taken a token. -/
theorem accrues_accepted {k : String} (hk : k ≠ "") (job : Job) :
    Accrues (answering E) (admitted k) (fun r m => ∀ reply, r = some (.ok (k, reply)) → 1 ≤ m)
      (job.program sha256 lib maxBytes) 0 := by
  cases job with
  | request req =>
    refine (accrues_admitted sha256 lib maxBytes hk req).map fun r m hr reply h => ?_
    exact hr reply (Option.some.inj h)
  | keys c =>
    have hcalls : AllCalls (fun _ _ => True) NoAllow (ofAuth (c.program sha256)) :=
      allCalls_hoist (allCalls_of_forall (fun _ => trivial) _)
    have hcall := hcalls.accrues (T := answering E) (μ := admitted k) (m := 0) admitted_eq
    exact hcall.map fun _ _ _ => nofun

/-- The batch of a request, if it passes the checks. -/
def batch (lib : Writer.Libraries) (maxBytes : ℤ) (req : HTTPRequest) : Option IngestRequest :=
  match readBody maxBytes req.body with
  | .error _ => none
  | .ok body => (Writer.check lib body).toOption

/-- What a reply stands for in the stream: with 204, the batch. -/
def entered (lib : Writer.Libraries) (maxBytes : ℤ) (req : HTTPRequest) (reply : Reply) :
    Multiset Json :=
  match batch lib maxBytes req with
  | some b => if reply.status = .noContent then {encode b} else 0
  | none => 0

theorem accrues_handle (req : HTTPRequest) :
    Accrues (answering E) (fun s => payloads s.queue)
      (fun reply m => m = entered lib maxBytes req reply) (handle lib maxBytes req) 0 := by
  unfold handle entered batch
  cases readBody maxBytes req.body with
  | error err => rfl
  | ok body =>
    unfold Writer.ingest
    dsimp only
    cases hc : Writer.check lib body with
    | error reply => rfl
    | ok b =>
      intro s s' r hT
      rcases hT with ⟨⟨id, hid, rfl⟩ | ⟨hq, err, rfl⟩, -⟩
      · refine ⟨{encode b}, ?_, zero_add _⟩
        have hrows := (Stream.enqueue_cases hid).1
        simp only [payloads, hrows, List.map_append, ← Multiset.coe_add]
        rfl
      · refine ⟨0, ?_, zero_add _⟩
        simp only [hq, add_zero]

/-- What a job adds to the stream. -/
def added (lib : Writer.Libraries) (maxBytes : ℤ) : Job → Outcome → Multiset Json
  | .request req, some (.ok x) => entered lib maxBytes req x.2
  | _, _ => 0

/-- **A request adds its batch if it is answered with 204**, and nothing else. -/
theorem accrues_added (job : Job) :
    Accrues (answering E) (fun s => payloads s.queue) (fun r m => m = added lib maxBytes job r)
      (job.program sha256 lib maxBytes) 0 := by
  cases job with
  | keys c =>
    have hcalls : AllCalls (fun _ _ => True) NoWriter (ofAuth (c.program sha256)) :=
      allCalls_hoist (allCalls_of_forall (fun _ => trivial) _)
    have hcall := hcalls.accrues (T := answering E) (μ := fun s => payloads s.queue) (m := 0)
      payloads_eq
    exact hcall.map fun _ _ h => h
  | request req =>
    refine Accrues.map (Q := fun r m => m = added lib maxBytes (.request req) (some r)) ?_
      fun _ _ h => h
    have hlimit := (allCalls_bodyLimit maxBytes (P := NoWriter) req).accrues
      (T := answering E) (μ := fun s => payloads s.queue) (m := 0) payloads_eq
    refine accrues_bind_except hlimit (fun _ m hm => ?_) fun _ _ h => h
    subst hm
    have hkey := (allCalls_apiKeyMiddleware sha256 (P := NoWriter) (fun _ => trivial)
      req).accrues (T := answering E) (μ := fun s => payloads s.queue) (m := 0) payloads_eq
    refine accrues_bind_except hkey (fun key m hm => ?_) fun _ _ h => h
    subst hm
    have hrate := (allCalls_rateLimit (P := NoWriter) trivial (fun _ _ => trivial) key.id
      req.clientIP).accrues (T := answering E) (μ := fun s => payloads s.queue) (m := 0) payloads_eq
    refine accrues_bind_except hrate (fun _ m hm => ?_) fun _ _ h => h
    subst hm
    have hhandle : Accrues (answering E) (fun s => payloads s.queue)
        (fun (r : Except Abort Reply) m => ∃ reply, r = .ok reply ∧ m = entered lib maxBytes req reply)
        (ExceptT.lift (handle lib maxBytes req) : DoorProg Reply).run 0 := by
      rw [ExceptT.run_lift]
      exact (accrues_handle lib maxBytes req).map fun reply m h => ⟨reply, rfl, h⟩
    refine accrues_bind_except hhandle (fun reply m hm => ?_) fun e m h => ?_
    · obtain ⟨_, heq, rfl⟩ := hm
      cases heq
      rfl
    · obtain ⟨_, heq, -⟩ := h
      cases heq

end Accrues

/-! ## Interleavings -/

/-- **What holds at every moment**: the limiter has served calls for issued keys, and no entry of
the stream was lost. -/
structure Sound (t₀ t₁ : Time) (rate : ℚ) (burst : ℤ) (q₀ : Stream) (s : Door) : Prop where
  served : ∃ calls, (s.limiter, s.calls) = (newRateLimiter rate burst).run calls ∧
    ∀ c ∈ calls, (t₀ ≤ c.2 ∧ c.2 ≤ t₁) ∧ (IssuedID c.1 s.auth ∨ IssuedID "" s.auth)
  kept : q₀.entries.rows <+: s.queue.entries.rows

section Interleavings

variable {sha256 : Bytes → Bytes} {lib : Writer.Libraries} {maxBytes : ℤ} {t₀ t₁ : Time} {rate : ℚ}
  {burst : ℤ} {db₀ : AuthDB} {q₀ : Stream} {jobs : List Job} {s : Door}
  {ps : Pool Job DoorCall DoorResp Outcome}

theorem sound_start : Sound t₀ t₁ rate burst q₀ (start db₀ q₀ rate burst) := by
  refine ⟨⟨[], rfl, ?_⟩, List.prefix_refl _⟩
  intro c hc
  cases hc

/-- **One call.** -/
theorem Sound.call {s' : Door} {c : DoorCall} {r : DoorResp c} (h : Sound t₀ t₁ rate burst q₀ s)
    (hc : Admitted t₀ t₁ c s) (hT : answering (Between t₀ t₁) c s s' r) :
    Sound t₀ t₁ rate burst q₀ s' := by
  obtain ⟨⟨calls, hrun, hcalls⟩, hkept⟩ := h
  have hissued : ∀ key, IssuedID key s.auth ∨ IssuedID "" s.auth →
      IssuedID key s'.auth ∨ IssuedID "" s'.auth := fun key hkey =>
    hkey.imp (fun h => h.kept (answering_rely hT)) fun h => h.kept (answering_rely hT)
  cases c with
  | auth c =>
    have hsame : (s'.limiter, s'.calls) = (s.limiter, s.calls) ∧ s'.queue = s.queue := by
      rw [hT.2]
      exact ⟨rfl, rfl⟩
    exact ⟨⟨calls, hsame.1.trans hrun, fun c hc => (hcalls c hc).imp_right (hissued c.1)⟩,
      hsame.2 ▸ hkept⟩
  | allow key now =>
    obtain ⟨rfl, rfl⟩ := hT
    refine ⟨⟨calls ++ [(key, now)], ?_, fun c hmem => ?_⟩, hkept⟩
    · rw [run_concat, ← hrun]
      rfl
    · rcases List.mem_append.mp hmem with hmem | hmem
      · exact hcalls c hmem
      · rw [List.mem_singleton.mp hmem]
        exact hc
  | writer c =>
    have hsame : (s'.limiter, s'.calls) = (s.limiter, s.calls) ∧ s'.auth = s.auth := by
      rw [hT.2]
      exact ⟨rfl, rfl⟩
    refine ⟨⟨calls, hsame.1.trans hrun, fun c hc => (hcalls c hc).imp_right (hissued c.1)⟩, ?_⟩
    cases c with
    | enqueue data =>
      rcases hT.1 with ⟨id, hid, -⟩ | ⟨hq, -⟩
      · rw [(Stream.enqueue_cases hid).1]
        exact hkept.trans (List.prefix_append _ _)
      · exact hq ▸ hkept

/-- The bucket of a key is there because of a call for it. -/
theorem Sound.bucket {key : String} {b : TokenBucket} (h : Sound t₀ t₁ rate burst q₀ s)
    (hrate : 0 < rate) (hburst : 1 ≤ burst) (hb : s.limiter.buckets key = some b) :
    IssuedID key s.auth ∨ IssuedID "" s.auth := by
  obtain ⟨calls, hrun, hcalls⟩ := h.served
  have hlimiter : s.limiter = ((newRateLimiter rate burst).run calls).1 := congrArg Prod.fst hrun
  have hbucket := congrArg Prod.fst (run_bucket hrate hburst calls key)
  rw [← hlimiter, hb] at hbucket
  by_contra hnone
  have hreadings : readings key calls = [] := by
    rw [readings, List.map_eq_nil_iff, List.filter_eq_nil_iff]
    intro c hc
    have hne : c.1 ≠ key := fun he => hnone (he ▸ (hcalls c hc).2)
    simpa using hne
  rw [hreadings] at hbucket
  cases hbucket

/-- **No key gets more in than its bucket allows**, however many requests run at once. -/
theorem Sound.admitted_le (h : Sound t₀ t₁ rate burst q₀ s) (hrate : 0 < rate)
    (hburst : 1 ≤ burst) (ht : t₀ ≤ t₁) (k : String) :
    (admitted k s : ℚ) ≤ burst + rate * seconds (t₁ - t₀) := by
  obtain ⟨calls, hrun, hcalls⟩ := h.served
  have htrace : s.calls = ((newRateLimiter rate burst).run calls).2 := congrArg Prod.snd hrun
  have hhistory := congrArg Prod.snd (run_bucket hrate hburst calls k)
  dsimp only at hhistory
  have hcount := allowed_inSeconds (history k s.calls) 0
  rw [List.drop_zero, List.drop_zero, htrace, hhistory] at hcount
  have hmono : ∀ t t' : Time, t ≤ t' → seconds t ≤ seconds t' := by
    intro t t' hle
    have hle' : (t : ℚ) ≤ t' := by exact_mod_cast hle
    exact div_le_div_of_nonneg_right hle' (by norm_num)
  rw [admitted, htrace, ← hcount, seconds_sub]
  refine allowed_serveAll_le hrate.le (by exact_mod_cast zero_le_one.trans hburst)
    (hmono t₀ t₁ ht) fun r hr => ?_
  obtain ⟨t, ht', rfl⟩ := List.mem_map.mp hr
  obtain ⟨c, hc, rfl⟩ := List.mem_map.mp ht'
  obtain ⟨hlo, hhi⟩ := (hcalls c (List.mem_of_mem_filter hc)).1
  exact ⟨hmono _ _ hlo, hmono _ _ hhi⟩

/-! ## Main theorem -/

/-- The request was answered with 204 under the API key `k`. -/
def accepted (k : String) (t : Job × Prog DoorCall DoorResp Outcome) : Bool :=
  match t.2 with
  | .ret (some (.ok (id, reply))) => id = k && reply.status = .noContent
  | _ => false

/-- The job has returned. -/
def returned (t : Job × Prog DoorCall DoorResp Outcome) : Bool :=
  match t.2 with
  | .ret _ => true
  | .call _ _ => false

/-- What the jobs that have returned added to the stream. -/
def addedBy (lib : Writer.Libraries) (maxBytes : ℤ) (t : Job × Prog DoorCall DoorResp Outcome) :
    Multiset Json :=
  match t.2 with
  | .ret r => added lib maxBytes t.1 r
  | .call _ _ => 0

theorem countP_accepted_le {k : String} {T : Handler DoorCall DoorResp Door} {ms : List ℕ}
    (h : List.Forall₂ (fun t m => Accrues T (admitted k)
      (fun r m => ∀ reply, r = some (.ok (k, reply)) → 1 ≤ m) t.2 m) ps ms) :
    ps.countP (accepted k) ≤ ms.sum := by
  induction h with
  | nil => exact le_rfl
  | @cons t m ts ms ht _ ih =>
    rw [List.countP_cons, List.sum_cons, add_comm]
    refine add_le_add ?_ ih
    split_ifs with hacc
    · unfold accepted at hacc
      split at hacc
      next id reply hret =>
        rw [hret] at ht
        obtain ⟨hid, -⟩ := Bool.and_eq_true_iff.mp hacc
        exact ht reply (by rw [of_decide_eq_true hid])
      next => cases hacc
    · exact Nat.zero_le m

theorem sum_addedBy_le {T : Handler DoorCall DoorResp Door} {ms : List (Multiset Json)}
    (h : List.Forall₂ (fun t m => Accrues T (fun s => payloads s.queue)
      (fun r m => m = added lib maxBytes t.1 r) t.2 m) ps ms) :
    (ps.map (addedBy lib maxBytes)).sum ≤ ms.sum ∧
      (Pool.Finished ps → (ps.map (addedBy lib maxBytes)).sum = ms.sum) := by
  induction h with
  | nil => exact ⟨le_rfl, fun _ => rfl⟩
  | @cons t m ts ms ht _ ih =>
    rw [List.map_cons, List.sum_cons, List.sum_cons]
    refine ⟨add_le_add ?_ ih.1, fun hfin => ?_⟩
    · obtain ⟨job, p⟩ := t
      cases p with
      | ret r => exact ht ▸ le_rfl
      | call c k => exact Multiset.zero_le m
    · obtain ⟨r, hr⟩ := hfin t List.mem_cons_self
      obtain ⟨job, p⟩ := t
      subst hr
      rw [ih.2 fun t' ht' => hfin t' (List.mem_cons_of_mem _ ht')]
      exact congrArg (· + ms.sum) (Eq.symm ht)

end Interleavings

/-! ## A burst of two -/

/-- The answers of a healthy writer. -/
def respond (e : AuthEnv) : (c : DoorCall) → Door → Door × DoorResp c
  | .auth c, s => ({ s with auth := (authExec e c s.auth).1 }, (authExec e c s.auth).2)
  | .allow key now, s =>
    ({ s with
        limiter := (s.limiter.allow key now).2
        calls := s.calls ++ [(key, now, (s.limiter.allow key now).1)] },
      (s.limiter.allow key now).1)
  | .writer (.enqueue data), s =>
    match s.queue.enqueue "1-0" data with
    | some q => ({ s with queue := q }, .ok ())
    | none => (s, .error "duplicate id")

theorem answering_respond {E : AuthEnv → Prop} {e : AuthEnv} (he : E e) {c : DoorCall}
    {s s' : Door} {r : DoorResp c} (h : respond e c s = (s', r)) : answering E c s s' r := by
  cases c with
  | auth c =>
    cases h
    exact ⟨⟨e, he, rfl⟩, rfl⟩
  | allow key now =>
    cases h
    exact ⟨rfl, rfl⟩
  | writer c =>
    cases c with
    | enqueue data =>
      simp only [respond] at h
      split at h
      next q hq =>
        cases h
        exact ⟨Or.inl ⟨"1-0", hq, rfl⟩, rfl⟩
      next =>
        cases h
        exact ⟨Or.inr ⟨rfl, _, rfl⟩, rfl⟩

/-- The clock stands still. -/
def demoEnv : AuthEnv := ⟨none, "", 0, sampleID, .ok []⟩

/-- The tables with the key of the demo. -/
def demoDB : AuthDB :=
  (AuthDB.empty.insertKey (Auth.newKey sampleSha256 sampleID "rew_demo" "" "Demo" 0)).getD .empty

/-- A request with the key of the demo. -/
def demoRequest : HTTPRequest := ⟨-1, "rew_demo", "::1", ⟨300, .ok (encode sampleBatch)⟩⟩

/-- Two requests at once, with a burst of one. -/
def demoPool : Pool Job DoorCall DoorResp Outcome × Door :=
  ([Job.request demoRequest, .request demoRequest].map fun j =>
    (j, j.program sampleSha256 sampleLibraries 5000000), start demoDB .empty 20 1)

end Door

end BatRewind
