import Mathlib.Data.List.Basic

/-!
# Parsing the user agent

A Go string is a sequence of bytes. `utf8` gives the bytes of a Lean string; a truncated string
may end inside a character and is only a list of bytes. `parseUserAgent` derives browser, version,
operating system and device type by substring scanning.
-/

namespace BatRewind

/-- A Go string. -/
abbrev Bytes := List UInt8

/-- The UTF-8 bytes of a string. -/
def utf8 (s : String) : Bytes := s.toList.flatMap String.utf8EncodeChar

/-- `strings.Index`: the position of the first occurrence of `pat`. -/
def stringsIndex (pat : Bytes) : Bytes → Option ℕ
  | [] => if pat = [] then some 0 else none
  | b :: bs => if pat.isPrefixOf (b :: bs) then some 0 else (stringsIndex pat bs).map (· + 1)

/-- `strings.Contains`. -/
def stringsContains (ua : Bytes) (pat : String) : Bool := (stringsIndex (utf8 pat) ua).isSome

/-- `strings.IndexAny(rest, " ;)")`, with the length where there is none: the end of a version. -/
def versionEnd (rest : Bytes) : ℕ := rest.findIdx fun b => b = 32 || b = 59 || b = 41

/-- The version after the first marker that occurs, up to the next space, `;` or `)`. -/
def tokenVersion (ua : Bytes) : List String → Bytes
  | [] => []
  | m :: ms =>
    match stringsIndex (utf8 m) ua with
    | none => tokenVersion ua ms
    | some i =>
      let rest := ua.drop (i + (utf8 m).length)
      rest.take (versionEnd rest)

/-- Browser name and version. The more specific product tokens come first. -/
def detectBrowser (ua : Bytes) : String × Bytes :=
  if stringsContains ua "Edg/" || stringsContains ua "Edge/" || stringsContains ua "EdgiOS/" then
    ("Edge", tokenVersion ua ["Edg/", "Edge/", "EdgiOS/"])
  else if stringsContains ua "OPR/" || stringsContains ua "Opera/" then
    ("Opera", tokenVersion ua ["OPR/", "Opera/"])
  else if stringsContains ua "SamsungBrowser/" then
    ("Samsung Internet", tokenVersion ua ["SamsungBrowser/"])
  else if stringsContains ua "Firefox/" || stringsContains ua "FxiOS/" then
    ("Firefox", tokenVersion ua ["Firefox/", "FxiOS/"])
  else if stringsContains ua "CriOS/" then
    ("Chrome", tokenVersion ua ["CriOS/"])
  else if stringsContains ua "Chrome/" || stringsContains ua "Chromium/" then
    ("Chrome", tokenVersion ua ["Chrome/", "Chromium/"])
  else if stringsContains ua "Safari/" && stringsContains ua "Version/" then
    ("Safari", tokenVersion ua ["Version/"])
  else ("", [])

/-- Operating system. -/
def detectOS (ua : Bytes) : String :=
  if stringsContains ua "Windows NT" then "Windows"
  else if stringsContains ua "iPhone" || stringsContains ua "iPad" || stringsContains ua "iPod" then "iOS"
  else if stringsContains ua "Mac OS X" || stringsContains ua "Macintosh" then "macOS"
  else if stringsContains ua "Android" then "Android"
  else if stringsContains ua "CrOS" then "ChromeOS"
  else if stringsContains ua "Linux" then "Linux"
  else ""

/-- Device type. An Android agent without `Mobi` is a tablet. -/
def detectDeviceType (ua : Bytes) : String :=
  if stringsContains ua "iPad" || stringsContains ua "Tablet" then "tablet"
  else if stringsContains ua "Mobi" || stringsContains ua "iPhone" || stringsContains ua "Android" then
    if stringsContains ua "Android" && !stringsContains ua "Mobi" then "tablet" else "mobile"
  else "desktop"

/-- What the server derives from a user agent. -/
structure UserAgent where
  browser : String
  browserVersion : Bytes
  os : String
  deviceType : String
deriving DecidableEq

/-- Derive browser, version, operating system and device type. -/
def parseUserAgent (ua : Bytes) : UserAgent :=
  if ua = [] then ⟨"", [], "", ""⟩
  else ⟨(detectBrowser ua).1, (detectBrowser ua).2, detectOS ua, detectDeviceType ua⟩

end BatRewind
