import BatRewind.Lib.JsonMarshal
import BatRewind.Session.Model
import BatRewind.Session.UserAgent

/-!
# The token of a login

`generateToken` of `internal/auth/service.go`: a JSON web token, three segments in base64 for URLs.
The signature is the parameter `sign`. A string of the server is any list of bytes.

* `marshalClaims`: the JSON of the claims; `generateToken`: the token.
* **`jsonParse_claims`**: `JSON.parse` finds the expiry in the claims, read byte by byte.
* `claims_segment`: where the claims stand in a token.
-/

namespace BatRewind

open Base64 Marshal Script

/-- A user, as far as its token tells. -/
structure User where
  id : Bytes
  email : Bytes
  role : Bytes

/-- The claims of a token; its times are in seconds. -/
structure Claims where
  userID : Bytes
  email : Bytes
  role : Bytes
  expiresAt : ℤ
  issuedAt : ℤ

namespace Token

/-- `NewNumericDate`: whole seconds. -/
def newNumericDate (t : Time) : ℤ := t / 1000000000

/-- The claims in JSON. The registered claims that are not set are left out. -/
def marshalClaims (c : Claims) : Bytes :=
  marshalObject [("user_id", appendString c.userID), ("email", appendString c.email),
    ("role", appendString c.role), ("exp", formatInt c.expiresAt), ("iat", formatInt c.issuedAt)]

/-- The header of `SigningMethodHS256` in JSON. -/
def header : Bytes :=
  marshalObject [("alg", appendString (bytes "HS256")), ("typ", appendString (bytes "JWT"))]

/-- The claims of a user. The clock is read for the expiry, and then again. -/
def claimsOf (user : User) (now now' : Time) : Claims where
  userID := user.id
  email := user.email
  role := user.role
  expiresAt := newNumericDate (now + 24 * 3600 * 1000000000)
  issuedAt := newNumericDate now'

/-- **The token of a user**, with the two readings of the clock. -/
def generateToken (sign : Units → Bytes) (user : User) (now now' : Time) : Units :=
  let signing := rawURL header ++ 0x2e :: rawURL (marshalClaims (claimsOf user now now'))
  signing ++ 0x2e :: rawURL (sign signing)

/-- **The expiry is read back from the claims**, whatever bytes the strings have. -/
theorem jsonParse_claims (c : Claims) : ∃ v, jsonParse (latin1 (marshalClaims c)) = some v ∧
    access (some v) (units "exp") = .ok (some (.num c.expiresAt)) := by
  obtain ⟨userID, huserID⟩ := readsValue_appendString c.userID
  obtain ⟨email, hemail⟩ := readsValue_appendString c.email
  obtain ⟨role, hrole⟩ := readsValue_appendString c.role
  have hname : ∀ name : String, (latin1 (bytes name)).all isPlain →
      Reads (latin1 (bytes name)) (latin1 (bytes name)) := fun name h => reads_plain_all h
  let ms : List Member := [
    ⟨_, _, .str email, _, hname "email" (by decide +kernel), hemail⟩,
    ⟨_, _, .str role, _, hname "role" (by decide +kernel), hrole⟩,
    ⟨_, _, .num c.expiresAt, _, hname "exp" (by decide +kernel), readsValue_formatInt _⟩,
    ⟨_, _, .num c.issuedAt, _, hname "iat" (by decide +kernel), readsValue_formatInt _⟩]
  let m : Member := ⟨_, _, .str userID, _, hname "user_id" (by decide +kernel), huserID⟩
  refine ⟨.obj (putMembers [] (m :: ms)), jsonParse_marshalObject ?_, rfl⟩
  simp only [List.map_cons, List.map_nil, latin1_fieldText]
  rfl

/-- An encoding has no dot. -/
theorem splitOn_rawURL (as bs cs : Bytes) :
    (rawURL as ++ 0x2e :: rawURL bs ++ 0x2e :: rawURL cs).splitOn 0x2e =
      [rawURL as, rawURL bs, rawURL cs] := by
  have hdots : ∀ segment ∈ [rawURL as, rawURL bs, rawURL cs], (0x2e : UInt16) ∉ segment := by
    intro segment hsegment hmem
    simp only [List.mem_cons, List.not_mem_nil, or_false] at hsegment
    rcases hsegment with rfl | rfl | rfl <;> exact (mem_rawURL hmem).2.2 rfl
  have hjoin : [0x2e].intercalate [rawURL as, rawURL bs, rawURL cs] =
      rawURL as ++ 0x2e :: rawURL bs ++ 0x2e :: rawURL cs := by
    simp [List.intercalate]
  rw [← hjoin]
  exact List.splitOn_intercalate 0x2e hdots (by simp)

/-- **The second segment of a token** are its claims. -/
theorem claims_segment (sign : Units → Bytes) (user : User) (now now' : Time) :
    ((generateToken sign user now now').splitOn 0x2e)[1]? =
      some (rawURL (marshalClaims (claimsOf user now now'))) := by
  rw [generateToken, splitOn_rawURL]
  rfl

theorem generateToken_ne_nil (sign : Units → Bytes) (user : User) (now now' : Time) :
    generateToken sign user now now' ≠ [] := by
  simp [generateToken]

end Token

end BatRewind
