import Mathlib.Algebra.Order.Ring.Rat
import BatRewind.Lib.Json
import BatRewind.Session.UserAgent

/-!
# Sessions, events and batches

The data of `internal/session/model.go`. Strings that come out of the JSON decoder are valid UTF-8
and are `String`; the sanitized metadata is cut at a byte position and is `Bytes`, so `ClientMeta`
is generic in its string type. The device columns of a session are one record, zero where the
database holds `NULL`, as the driver scans it.

The integers of a batch are `ℤ`: they come from literals of 64 bits, which is what `Json.int` stands
for, and are stored as they are or clamped.

Session ids are compared as strings, as SQLite does, the default. In the `uuid` column of PostgreSQL
the spellings of one UUID are one id, so there a session id of the model stands for all of its
spellings.
-/

namespace BatRewind

open Encoding

/-- A clock reading, in nanoseconds. -/
abbrev Time := ℤ

/-- The raw, untrusted device metadata of a batch. -/
structure ClientMeta (σ : Type) where
  screenWidth : ℤ
  screenHeight : ℤ
  viewportWidth : ℤ
  viewportHeight : ℤ
  devicePixelRatio : ℚ
  language : σ
  timezone : σ
  userAgent : σ
deriving DecidableEq

/-- Largest accepted dimension in pixels. -/
def maxDimension : ℤ := 16384
/-- Largest accepted pixel ratio. -/
def maxDPR : ℚ := 8
/-- Longest accepted user agent, in bytes. -/
def maxUALen : ℕ := 512
/-- Longest accepted language tag, in bytes. -/
def maxLangLen : ℕ := 35
/-- Longest accepted time zone name, in bytes. -/
def maxTZLen : ℕ := 64

/-- Clamp `v` into `lo .. hi`. -/
def clampInt (v lo hi : ℤ) : ℤ := if v < lo then lo else if v > hi then hi else v

/-- Clamp `v` into `lo .. hi`. -/
def clampFloat (v lo hi : ℚ) : ℚ := if v < lo then lo else if v > hi then hi else v

/-- The first `n` bytes. -/
def truncate (s : String) (n : ℕ) : Bytes :=
  if (utf8 s).length ≤ n then utf8 s else (utf8 s).take n

/-- The metadata with every field clamped or cut to its bound. -/
def ClientMeta.sanitized (c : ClientMeta String) : ClientMeta Bytes where
  screenWidth := clampInt c.screenWidth 0 maxDimension
  screenHeight := clampInt c.screenHeight 0 maxDimension
  viewportWidth := clampInt c.viewportWidth 0 maxDimension
  viewportHeight := clampInt c.viewportHeight 0 maxDimension
  devicePixelRatio := clampFloat c.devicePixelRatio 0 maxDPR
  language := truncate c.language maxLangLen
  timezone := truncate c.timezone maxTZLen
  userAgent := truncate c.userAgent maxUALen

/-- The twelve device columns of a session. -/
structure DeviceColumns where
  screenWidth : ℤ := 0
  screenHeight : ℤ := 0
  viewportWidth : ℤ := 0
  viewportHeight : ℤ := 0
  devicePixelRatio : ℚ := 0
  language : Bytes := []
  timezone : Bytes := []
  userAgent : Bytes := []
  browser : String := ""
  browserVersion : Bytes := []
  os : String := ""
  deviceType : String := ""
deriving DecidableEq

/-- A recorded browser session: a row of `replay_sessions`. -/
structure ReplaySession where
  id : String
  batSessionID : String
  identifier : String
  userEmail : String
  userName : String
  startURL : String
  environment : String
  serviceName : String
  startedAt : Time
  endedAt : Option Time := none
  durationMs : Option ℤ := none
  eventCount : ℕ := 0
  trigger : String
  shareToken : Option String := none
  device : DeviceColumns := {}
  createdAt : Time
deriving DecidableEq

/-- The redacted view of a session. -/
structure PublicSession where
  id : String
  serviceName : String
  environment : String
  startedAt : Time
  durationMs : Option ℤ
  eventCount : ℕ
deriving DecidableEq

/-- Strip everything sensitive from a session. -/
def ReplaySession.toPublic (s : ReplaySession) : PublicSession where
  id := s.id
  serviceName := s.serviceName
  environment := s.environment
  startedAt := s.startedAt
  durationMs := s.durationMs
  eventCount := s.eventCount

/-- An rrweb event of a batch. -/
structure RawEvent where
  type : ℤ
  data : Json
  timestamp : ℤ

/-- A stored rrweb event: a row of `replay_events`. -/
structure ReplayEvent where
  id : String
  sessionID : String
  seq : ℕ
  type : ℤ
  data : Json
  timestamp : ℤ
  createdAt : Time

/-- The captured event of a row. -/
def ReplayEvent.raw (e : ReplayEvent) : RawEvent := ⟨e.type, e.data, e.timestamp⟩

/-- A batch sent by the browser SDK. -/
structure IngestRequest where
  sessionID : String
  batSessionID : String
  identifier : String
  userEmail : String
  userName : String
  startURL : String
  environment : String
  serviceName : String
  trigger : String
  shareToken : String
  client : Option (ClientMeta String)
  events : List RawEvent

/-- A sample session id. -/
def sampleID : String := "6c1f0a9e-8f51-4a53-9d2e-0b7d1a1c0a00"

/-- The id of another session. -/
def otherID : String := "6c1f0a9e-8f51-4a53-9d2e-0b7d1a1c0b00"

/-- Two sample event ids. -/
def sampleEventID : Bool → String
  | false => "6c1f0a9e-8f51-4a53-9d2e-0b7d1a1c0a01"
  | true => "6c1f0a9e-8f51-4a53-9d2e-0b7d1a1c0a02"

/-- A batch with only the fields that the writer requires. -/
def plainBatch (sessionID : String) (events : List RawEvent) : IngestRequest where
  sessionID := sessionID
  batSessionID := ""
  identifier := "visitor"
  userEmail := ""
  userName := ""
  startURL := ""
  environment := ""
  serviceName := "shop"
  trigger := ""
  shareToken := ""
  client := none
  events := events

/-- A batch of one event. -/
abbrev sampleBatch : IngestRequest := plainBatch sampleID [⟨4, .obj [], 1⟩]

/-- A batch that could not be processed: a row of `failed_ingest`. -/
structure FailedIngest where
  id : String
  sessionID : String
  payload : Json
  error : String
  retryCount : ℕ
  resolved : Bool := false
  createdAt : Time := 0
  resolvedAt : Option Time := none

end BatRewind
