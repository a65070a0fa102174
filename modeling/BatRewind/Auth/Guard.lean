import BatRewind.Auth.Users

/-!
# Signed tokens

`ValidateToken` of `internal/auth/service.go`. What the token package reads in the JSON of a token,
and its message authentication codes under the secret of the server, are the parameter `JWT`.

* `JWT.verified`: the claims of a token that carries a signature of the server;
  `TokenClaims.valid`: the times in the claims; `Auth.validateToken`: the code.
* `JWT.Reads`: the package reads back what `generateToken` writes.
* **`verified_generateToken`**: a token of a login is verified; **`valid_iff`**: it is valid until
  its expiry.
* `claims_eq_of_signing`: the claims of a verified token are in the segments that were signed.
-/

namespace BatRewind

open Base64 Script Token Effects Effects.Prog

/-! ## Tokens -/

/-- The hash of a message authentication code. -/
inductive MACHash where
  | sha256
  | sha384
  | sha512
deriving DecidableEq

/-- The algorithm of a token. -/
inductive SigningMethod where
  /-- `SigningMethodHMAC` -/
  | hmac (hash : MACHash)
  | other
deriving DecidableEq

/-- The claims that are checked, in seconds. -/
structure TokenClaims where
  expiresAt : Option ℤ
  notBefore : Option ℤ

/-- The checks of the validator at the time `now`. -/
def TokenClaims.valid (c : TokenClaims) (now : Time) : Bool :=
  (c.expiresAt.all fun exp => now < exp * 1000000000) &&
    c.notBefore.all fun nbf => nbf * 1000000000 ≤ now

/-- **The token package**: what it reads in the JSON of a header and of claims, and the code of a
text under the secret. -/
structure JWT where
  method : Bytes → Option SigningMethod
  claims : Bytes → Option TokenClaims
  mac : MACHash → Units → Bytes

namespace JWT

variable (jwt : JWT)

/-- `SigningMethodHS256.Sign`. -/
def sign : Units → Bytes := jwt.mac .sha256

/-- **`ParseWithClaims`**, up to the check of the claims. The secret is the key of every code. -/
def verified (token : Units) : Option TokenClaims :=
  match token.splitOn 0x2e with
  | [header, payload, signature] => do
    let method ← rawURLDecode header >>= jwt.method
    let claims ← rawURLDecode payload >>= jwt.claims
    let sig ← rawURLDecode signature
    match method with
    | .hmac hash => if jwt.mac hash (header ++ 0x2e :: payload) = sig then some claims else none
    | .other => none
  | _ => none

end JWT

namespace Auth

/-- **The claims of a token**, if it is signed and has not expired. -/
def validateToken (jwt : JWT) (token : Units) :
    ExceptT String (Prog UserCall UserResp) TokenClaims :=
  match jwt.verified token with
  | none => throw "invalid token"
  | some claims => do
    let now ← ExceptT.lift (perform (R := UserResp) .timeNow)
    if claims.valid now = false then throw "invalid token"
    return claims

end Auth

/-! ## Tokens of a login -/

/-- Times that a float holds exactly. -/
structure Claims.Fits (c : Claims) : Prop where
  expiresAt_nonneg : 0 ≤ c.expiresAt
  expiresAt_lt : c.expiresAt < 2 ^ 53
  issuedAt_nonneg : 0 ≤ c.issuedAt
  issuedAt_lt : c.issuedAt < 2 ^ 53

/-- **The package reads what it writes.** -/
structure JWT.Reads (jwt : JWT) : Prop where
  method : jwt.method header = some (.hmac .sha256)
  claims : ∀ c : Claims, c.Fits → jwt.claims (marshalClaims c) = some ⟨some c.expiresAt, none⟩

/-- The segments that are signed. -/
def signing (token : Units) : List Units := (token.splitOn 0x2e).take 2

section Tokens

variable {jwt : JWT} {user : User} {now now' t : Time}

/-- The times of a token, if the clock counts nanoseconds in 63 bits. -/
theorem claimsOf_fits (hnow : 0 ≤ now ∧ now < 2 ^ 63) (hnow' : 0 ≤ now' ∧ now' < 2 ^ 63) :
    (claimsOf user now now').Fits := by
  have key : ∀ n m : ℤ, 0 ≤ n ∧ n < 2 ^ 63 → 0 ≤ m ∧ m < 2 ^ 63 →
      0 ≤ (n + 24 * 3600 * 1000000000) / 1000000000 ∧
        (n + 24 * 3600 * 1000000000) / 1000000000 < 2 ^ 53 ∧
        0 ≤ m / 1000000000 ∧ m / 1000000000 < 2 ^ 53 := by
    intro n m hn hm
    omega
  obtain ⟨h₁, h₂, h₃, h₄⟩ := key now now' hnow hnow'
  exact ⟨h₁, h₂, h₃, h₄⟩

theorem splitOn_generateToken (sign : Units → Bytes) (user : User) (now now' : Time) :
    (generateToken sign user now now').splitOn 0x2e =
      [rawURL header, rawURL (marshalClaims (claimsOf user now now')),
        rawURL (sign (rawURL header ++ 0x2e :: rawURL (marshalClaims (claimsOf user now now'))))] :=
  splitOn_rawURL _ _ _

theorem signing_generateToken (sign : Units → Bytes) (user : User) (now now' : Time) :
    signing (generateToken sign user now now') =
      [rawURL header, rawURL (marshalClaims (claimsOf user now now'))] := by
  rw [signing, splitOn_generateToken]
  rfl

/-- **A token of a login is verified.** -/
theorem verified_generateToken (hjwt : jwt.Reads) (hfits : (claimsOf user now now').Fits) :
    jwt.verified (generateToken jwt.sign user now now') =
      some ⟨some (claimsOf user now now').expiresAt, none⟩ := by
  unfold JWT.verified
  rw [splitOn_generateToken]
  dsimp only
  simp only [rawURLDecode_rawURL, Option.bind_eq_bind, Option.bind_some, hjwt.method,
    hjwt.claims _ hfits]
  exact if_pos rfl

/-- The claims of a verified token are those of its second segment. -/
theorem claims_of_verified {token : Units} {c : TokenClaims} (h : jwt.verified token = some c) :
    ∃ header payload, signing token = [header, payload] ∧
      (rawURLDecode payload).bind jwt.claims = some c := by
  unfold JWT.verified at h
  split at h
  next header payload signature hsplit =>
    refine ⟨header, payload, ?_, ?_⟩
    · rw [signing, hsplit]
      rfl
    · obtain ⟨method, -, h⟩ := Option.bind_eq_some_iff.mp h
      obtain ⟨claims, hclaims, h⟩ := Option.bind_eq_some_iff.mp h
      obtain ⟨sig, -, h⟩ := Option.bind_eq_some_iff.mp h
      cases method with
      | hmac hash =>
        dsimp only at h
        split_ifs at h
        rwa [← Option.some.inj h]
      | other => cases h
  next => cases h

/-- **The claims of a verified token are those that were signed.** -/
theorem claims_eq_of_signing (hjwt : jwt.Reads) (hfits : (claimsOf user now now').Fits)
    {token : Units} {c : TokenClaims} (h : jwt.verified token = some c)
    (hsigning : signing token = signing (generateToken jwt.sign user now now')) :
    c = ⟨some (claimsOf user now now').expiresAt, none⟩ := by
  obtain ⟨header, payload, hsegments, hclaims⟩ := claims_of_verified h
  rw [signing_generateToken, hsegments] at hsigning
  have hpayload : payload = rawURL (marshalClaims (claimsOf user now now')) := by
    simpa using (List.cons.inj hsigning).2
  rw [hpayload, rawURLDecode_rawURL, Option.bind_some, hjwt.claims _ hfits] at hclaims
  exact (Option.some.inj hclaims).symm

/-- **A token is valid until its expiry.** -/
theorem valid_iff : (⟨some (claimsOf user now now').expiresAt, none⟩ : TokenClaims).valid t = true ↔
    t < (claimsOf user now now').expiresAt * 1000000000 := by
  simp [TokenClaims.valid]

/-- The expiry is at most a day after the login. -/
theorem expiresAt_le : (claimsOf user now now').expiresAt * 1000000000 ≤
    now + 24 * 3600 * 1000000000 :=
  Int.ediv_mul_le _ (by decide)

end Tokens

end BatRewind
