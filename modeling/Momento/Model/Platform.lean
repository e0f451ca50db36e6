/-
  Momento.Model.Platform

  **WHAT THE SERVICE TAKES FROM OUTSIDE.**  Tables and engines the repository
  only calls: Unicode case, URL and address syntax, the regular expression
  engine, a hash, the timezone database, the UUID parser, the size of an index
  tuple, and the value a processor gives `int64(NaN)`.

  Nothing is assumed of them; every theorem holds for each `Platform`.
-/
import Momento.Model.Event

namespace Momento

/-- A parsed URL: what `sanitizeURL` and `originAllowed` read, and the rest. -/
structure Url where
  rest : String
  hostname : String
  rawQuery : String
  fragment : String
  deriving DecidableEq

/-- IPv4 or IPv6. -/
inductive IpFamily
  | v4
  | v6
  deriving DecidableEq

/-- Address bits of a family. -/
def IpFamily.width : IpFamily → Nat
  | .v4 => 32
  | .v6 => 128

/-- An address; an IPv4-mapped one is an IPv4 address, as for `net.IP`. -/
structure IpAddress where
  family : IpFamily
  bits : Nat
  inRange : bits < 2 ^ family.width
  deriving DecidableEq

/-- Microseconds since the epoch. -/
abbrev Instant := Int

/-- Days since the epoch. -/
abbrev Date := Int

/-- What the code takes from the platform. -/
structure Platform where
  /-- `uuid.Parse`. -/
  parseUuid : String → Option Uuid
  /-- `strings.ToLower`. -/
  toLower : String → String
  /-- `strings.ToUpper`. -/
  toUpper : String → String
  /-- `strconv.Quote`. -/
  quote : String → String
  /-- `url.Parse`. -/
  parseUrl : String → Option Url
  /-- `URL.String`. -/
  urlString : Url → String
  /-- `url.ParseQuery`. -/
  parseQuery : String → List (String × List String)
  /-- `Values.Encode`. -/
  encodeQuery : List (String × List String) → String
  /-- `net.ParseIP`. -/
  parseIp : String → Option IpAddress
  /-- `IP.String`. -/
  ipString : IpAddress → String
  /-- The matches of an expression, given by its text, from left to right: each
  with the text before it; and the text after the last one. -/
  splitMatches : String → String → List (String × String) × String
  /-- SHA-256, in hexadecimal. -/
  sha256Hex : String → String
  /-- SHA-256, in unpadded URL-safe base 64. -/
  sha256Base64 : String → String
  /-- `time.LoadLocation` finds the zone. -/
  loadLocation : String → Bool
  /-- The local calendar date; Go and PostgreSQL share the timezone database. -/
  localDate : String → Instant → Date
  /-- `AddDate(-5, 0, 0)` on the server's clock. -/
  fiveYearsBefore : Instant → Instant
  /-- The server takes the payload as `jsonb`: no `\u0000` in it, and its size. -/
  storesJson : InboxPayload → Bool
  /-- The tuple of `raw_events_release_idx` (site, environment, release version,
  time) fits a btree page, `pglz` having had its try. -/
  releaseIndexFits : String → Json → Bool
  /-- `int64(math.NaN())`, which the language leaves to the processor. -/
  int64OfNaN : Int
  int64OfNaN_range : -(2 ^ 63) ≤ int64OfNaN ∧ int64OfNaN < 2 ^ 63

/-- `Regexp.MatchString`. -/
def Platform.matchString (env : Platform) (expression text : String) : Bool :=
  (env.splitMatches expression text).1 ≠ []

/-- `Regexp.ReplaceAllStringFunc`. -/
def Platform.replaceAllStringFunc (env : Platform) (expression text : String)
    (replace : String → String) : String :=
  let (matched, rest) := env.splitMatches expression text
  String.join (matched.map fun (before, m) => before ++ replace m) ++ rest

/-- What one event reads from the clock and the random source while it is
processed. -/
structure EventReadings where
  /-- `uuid.NewV7()`. -/
  newV7 : Except String Uuid
  /-- `time.Now()`, where the five years are counted back. -/
  nowForOldest : Instant
  /-- `time.Now()`, where a day is added. -/
  nowForNewest : Instant
  /-- `time.Now()`, as the event's time. -/
  now : Instant

end Momento
