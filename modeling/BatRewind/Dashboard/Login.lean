import BatRewind.Auth.Token
import BatRewind.Lib.JsonStringify

/-!
# The stored login

`packages/dashboard/src/lib/auth.ts` keeps the token in the local storage and reads its expiry. The
text of a number and the number of a string are the parameters `num` and `strNumber`.

* `setAuth`, `clearAuth`, `isTokenExpired`, `isAuthenticated`: the code; an exception is an error.
* `isTokenExpired_issued`: the answer for a token that the server issued.
* **`token_read_back_iff`**: it is right at every later time exactly if the claims, cut into
  sextets, have none of 62 or more.
-/

namespace BatRewind

open Base64 Marshal Script Token

namespace Login

/-! ## The code -/

/-- The local storage. -/
abbrev Storage := String → Option Units

def tokenKey : String := "batrewind_token"

def userKey : String := "batrewind_user"

/-- The user that is stored beside the token. -/
structure StoredUser where
  id : Units
  name : Units
  email : Units
  role : Units

/-- `JSON.stringify(user)`. -/
def StoredUser.stringify (user : StoredUser) : Units :=
  units "\x7b\"id\":\"" ++ quoteUnits user.id ++ units "\",\"name\":\"" ++ quoteUnits user.name ++
    units "\",\"email\":\"" ++ quoteUnits user.email ++ units "\",\"role\":\"" ++
    quoteUnits user.role ++ units "\"\x7d"

def getToken (st : Storage) : Option Units := st tokenKey

def setAuth (st : Storage) (token : Units) (user : StoredUser) : Storage := fun key =>
  if key = userKey then some user.stringify else if key = tokenKey then some token else st key

def clearAuth (st : Storage) : Storage := fun key =>
  if key = tokenKey ∨ key = userKey then none else st key

section Expiry

variable (strNumber : Units → Option ℚ) (num : ℚ → Units)

/-- `JSON.parse(atob(token.split('.')[1]))`. -/
def readPayload (token : Units) : Option Value := do
  let text ← atob ((token.splitOn 0x2e)[1]?.getD (units "undefined"))
  jsonParse text

/-- **Whether the stored token has expired** at the reading `now`, in milliseconds. -/
def isTokenExpired (now : ℤ) (st : Storage) : Bool :=
  match getToken st with
  | none | some [] => true
  | some token =>
    match readPayload token with
    | none => true
    | some payload =>
      match access (some payload) (units "exp") >>= toNumber strNumber num with
      | .error _ => true
      | .ok none => false
      | .ok (some exp) => decide (exp * 1000 < now)

/-- **Whether a user is logged in**, and the storage after the check. -/
def isAuthenticated (now : ℤ) (st : Storage) : Bool × Storage :=
  match getToken st with
  | none | some [] => (false, st)
  | some _ => if isTokenExpired strNumber num now st then (false, clearAuth st) else (true, st)

end Expiry

/-! ## Tokens of the server -/

section Issued

variable {strNumber : Units → Option ℚ} {num : ℚ → Units}

theorem getToken_setAuth (st : Storage) (token : Units) (user : StoredUser) :
    getToken (setAuth st token user) = some token := rfl

/-- The payload of a token. -/
theorem readPayload_generateToken (sign : Units → Bytes) (user : User) (issued issued' : Time) :
    readPayload (generateToken sign user issued issued') =
      if ∀ n ∈ sextets (marshalClaims (claimsOf user issued issued')), n < 62 then
        jsonParse (latin1 (marshalClaims (claimsOf user issued issued')))
      else none := by
  rw [readPayload, claims_segment, Option.getD_some, atob_rawURL]
  split_ifs <;> rfl

/-- **The answer for a token of the server.** -/
theorem isTokenExpired_issued (sign : Units → Bytes) (user : User) (issued issued' : Time)
    (st : Storage) (stored : StoredUser) (now : ℤ) :
    isTokenExpired strNumber num now
        (setAuth st (generateToken sign user issued issued') stored) = true ↔
      (∀ n ∈ sextets (marshalClaims (claimsOf user issued issued')), n < 62) →
        (claimsOf user issued issued').expiresAt * 1000 < now := by
  obtain ⟨u, s, htoken⟩ :=
    List.exists_cons_of_ne_nil (generateToken_ne_nil sign user issued issued')
  have hread := readPayload_generateToken sign user issued issued'
  rw [isTokenExpired, getToken_setAuth, htoken]
  dsimp only
  rw [← htoken, hread]
  split_ifs with hall
  · obtain ⟨v, hv, hexp⟩ := jsonParse_claims (claimsOf user issued issued')
    rw [hv]
    dsimp only
    rw [hexp]
    change decide ((((claimsOf user issued issued').expiresAt : ℤ) : ℚ) * 1000 < now) = true ↔ _
    rw [decide_eq_true_iff]
    exact ⟨fun h _ => by exact_mod_cast h, fun h => by exact_mod_cast h hall⟩
  · exact iff_of_true rfl fun h => absurd h hall

/-- Only an expired token changes the storage. -/
theorem isTokenExpired_of_changed {st : Storage} {now : ℤ}
    (h : (isAuthenticated strNumber num now st).2 ≠ st) :
    isTokenExpired strNumber num now st = true := by
  unfold isAuthenticated at h
  split at h
  · exact absurd rfl h
  · exact absurd rfl h
  · by_cases hexp : isTokenExpired strNumber num now st = true
    · exact hexp
    · rw [if_neg hexp] at h
      exact absurd rfl h

/-- When a token is issued it has not expired. -/
theorem expiresAt_not_lt (user : User) (issued issued' : Time) : ∃ now : ℤ,
    issued ≤ now * 1000000 ∧ ¬ (claimsOf user issued issued').expiresAt * 1000 < now := by
  have key : ∀ t : ℤ, ∃ now : ℤ, t ≤ now * 1000000 ∧
      ¬ (t + 24 * 3600 * 1000000000) / 1000000000 * 1000 < now := fun t =>
    ⟨(t + 999999) / 1000000, by omega, by omega⟩
  exact key issued

/-- From the time `issued` on, the token counts as expired exactly if `exp` has passed, and the
storage changes only then. -/
def ReadBack (strNumber : Units → Option ℚ) (num : ℚ → Units) (st : Storage) (issued : Time)
    (exp : ℤ) : Prop :=
  ∀ now : ℤ, issued ≤ now * 1000000 →
    (isTokenExpired strNumber num now st = true ↔ exp * 1000 < now) ∧
      ((isAuthenticated strNumber num now st).2 ≠ st → exp * 1000 < now)

/-- **The dashboard reads back a token of the server** exactly if its claims have no sextet of 62 or
more. -/
theorem token_read_back_iff (strNumber : Units → Option ℚ) (num : ℚ → Units)
    (sign : Units → Bytes) (user : User) (issued issued' : Time) (st : Storage)
    (stored : StoredUser) :
    ReadBack strNumber num (setAuth st (generateToken sign user issued issued') stored) issued
        (claimsOf user issued issued').expiresAt ↔
      ∀ n ∈ sextets (marshalClaims (claimsOf user issued issued')), n < 62 := by
  unfold ReadBack
  simp only [isTokenExpired_issued]
  constructor
  · intro hall
    by_contra hsextets
    obtain ⟨now, hlater, hvalid⟩ := expiresAt_not_lt user issued issued'
    exact hvalid ((hall now hlater).1.mp fun h => absurd h hsextets)
  · intro hsextets now _
    refine ⟨⟨fun h => h hsextets, fun h _ => h⟩, fun hchanged => ?_⟩
    exact (isTokenExpired_issued sign user issued issued' st stored now).mp
      (isTokenExpired_of_changed hchanged) hsextets

/-- A user whose address has a tilde in it. -/
def tildeUser : User where
  id := bytes "6c1f0a9e-8f51-4a53-9d2e-0b7d1a1c0a00"
  email := bytes "ana~b@example.com"
  role := bytes "viewer"

/-- The tilde ends a group of three bytes, and a minus sign stands for its last six bits. -/
theorem tilde_logged_out : ¬ ∀ (strNumber : Units → Option ℚ) (num : ℚ → Units)
    (sign : Units → Bytes) (user : User) (issued issued' : Time) (st : Storage)
    (stored : StoredUser),
      ReadBack strNumber num (setAuth st (generateToken sign user issued issued') stored) issued
        (claimsOf user issued issued').expiresAt := by
  intro hall
  let issued : Time := 1750000000 * 1000000000
  have hsextets : ¬ ∀ n ∈ sextets (marshalClaims (claimsOf tildeUser issued issued)), n < 62 := by
    decide +kernel
  have hread := hall (fun _ => none) (fun _ => []) (fun _ => []) tildeUser issued issued
    (fun _ => none) ⟨[], [], [], []⟩ 1750000000000 (by decide)
  have hexp := hread.1.mp ((isTokenExpired_issued ..).mpr fun h => absurd h hsextets)
  exact absurd hexp (by decide)

end Issued

end Login

end BatRewind
