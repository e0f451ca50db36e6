/-
  Momento.Reports.SharedHandlers

  **WHAT A SHARED READ MAY DEPEND ON.**  A request may be answered with the response
  another caller's request got, when both have one flight key: the site the caller
  resolves, the report, and the form of the query string.  The caller, the headers and
  the path are not in the key.

  Every handler is a program of statements; a statement carries everything that is bound
  to it, and what the database answers is a function of the database, the clock and the
  statement.  What the arithmetic of a handler makes of a statement's rows is part of
  the answer (`Value.rows`, `Value.figure`).

  A handler meets its caller in three places: where the site is resolved, where the
  sibling sites are listed (`attributionTouchSites`), and where a segment is loaded.
-/
import Momento.Foundation.QueryString
import Momento.Reports.Attribution
import Momento.Service.WorkspaceIsolation

namespace Momento

open Foundation Foundation.QueryString Reports

/-! ## §1. Keys. -/

namespace Uuid

/-- A digit, counted from the left. -/
def nibble (u : Uuid) (i : Nat) : BitVec 4 := u.bits.extractLsb' (4 * (31 - i)) 4

/-- A digit in lower case. -/
def hexDigit (n : BitVec 4) : Byte :=
  if n.toNat < 10 then Fin.ofNat 256 (48 + n.toNat) else Fin.ofNat 256 (87 + n.toNat)

/-- Some digits of the id. -/
def digits (u : Uuid) (first count : Nat) : Bytes :=
  (List.range' first count).map fun i => hexDigit (u.nibble i)

/-- The five groups between the hyphens. -/
def groups (u : Uuid) : List Bytes :=
  [u.digits 0 8, u.digits 8 4, u.digits 12 4, u.digits 16 4, u.digits 20 12]

/-- `UUID.String`. -/
def text (u : Uuid) : Bytes := [45].intercalate u.groups

theorem hexDigit_injective : Function.Injective hexDigit := by
  intro a b
  revert a b
  decide

theorem hexDigit_ne (n : BitVec 4) : hexDigit n ≠ 45 ∧ hexDigit n ≠ 124 := by
  revert n
  decide

theorem ne_of_mem_digits {u : Uuid} {first count : Nat} {b : Byte} (h : b ∈ u.digits first count) :
    b ≠ 45 ∧ b ≠ 124 := by
  obtain ⟨i, -, rfl⟩ := List.mem_map.mp h
  exact hexDigit_ne _

theorem ne_of_mem_groups {u : Uuid} {group : Bytes} (hgroup : group ∈ u.groups) {b : Byte} (hb : b ∈ group) :
    b ≠ 45 ∧ b ≠ 124 := by
  simp only [groups, List.mem_cons, List.not_mem_nil, or_false] at hgroup
  rcases hgroup with rfl | rfl | rfl | rfl | rfl <;> exact ne_of_mem_digits hb

/-- The digits of a group give the nibbles back. -/
theorem nibble_eq_of_digits {u v : Uuid} {first count : Nat} (h : u.digits first count = v.digits first count)
    {i : Nat} (hfirst : first ≤ i) (hlast : i < first + count) : u.nibble i = v.nibble i := by
  have hi : i ∈ List.range' first count := by
    rw [List.mem_range'_1]
    exact ⟨hfirst, hlast⟩
  exact hexDigit_injective (List.map_inj_left.mp h i hi)

theorem eq_of_nibbles {u v : Uuid} (h : ∀ i < 32, u.nibble i = v.nibble i) : u = v := by
  have hbits : u.bits = v.bits := by
    apply BitVec.eq_of_getLsbD_eq
    intro j hj
    -- the bit `j` is a bit of the digit `31 - j / 4`
    have hdigit := congrArg (fun n => n.getLsbD (j % 4)) (h (31 - j / 4) (by omega))
    simp only [nibble, BitVec.getLsbD_extractLsb'] at hdigit
    have hplace : 4 * (31 - (31 - j / 4)) + j % 4 = j := by omega
    rw [hplace] at hdigit
    simpa [Nat.mod_lt j (by decide : 0 < 4)] using hdigit
  cases u
  cases v
  exact congrArg Uuid.mk hbits

/-- **Two identifiers with one text are the same.** -/
theorem text_injective : Function.Injective text := by
  intro u v h
  have hdash : ∀ (w : Uuid), ∀ group ∈ w.groups, (45 : Byte) ∉ group := by
    intro w group hgroup hmem
    exact (ne_of_mem_groups hgroup hmem).1 rfl
  have hgroups : u.groups = v.groups := by
    have hsplit := congrArg (List.splitOn 45) h
    unfold text at hsplit
    rw [List.splitOn_intercalate 45 (hdash u) (by simp [groups]),
      List.splitOn_intercalate 45 (hdash v) (by simp [groups])] at hsplit
    exact hsplit
  simp only [groups, List.cons.injEq, and_true] at hgroups
  obtain ⟨h₁, h₂, h₃, h₄, h₅⟩ := hgroups
  apply eq_of_nibbles
  intro i hi
  by_cases h8 : i < 8
  · exact nibble_eq_of_digits h₁ (by omega) (by omega)
  by_cases h12 : i < 12
  · exact nibble_eq_of_digits h₂ (by omega) (by omega)
  by_cases h16 : i < 16
  · exact nibble_eq_of_digits h₃ (by omega) (by omega)
  by_cases h20 : i < 20
  · exact nibble_eq_of_digits h₄ (by omega) (by omega)
  exact nibble_eq_of_digits h₅ (by omega) (by omega)

theorem bar_notMem_text (u : Uuid) : (124 : Byte) ∉ u.text := by
  intro h
  rcases mem_of_mem_intercalate h with h | ⟨group, hgroup, h⟩
  · exact absurd h (by decide)
  · exact (ne_of_mem_groups hgroup h).2 rfl

end Uuid

namespace SiteReports

/-- The keys of `sharedReadRoutes`. -/
inductive Report where
  | overview
  | visitorInsights
  | insights
  | anomalies
  | attribution
  | events
  | pages
  | ecommerce
  | experience
  | cohort
  | adoption
  | workspaceRollup
  | featureIntelligence
  | searchAnalytics
  | frustration
  | aiAnalytics
  | path
  deriving DecidableEq

/-- The last part of the route. -/
def Report.name : Report → String
  | .overview => "overview"
  | .visitorInsights => "visitor-insights"
  | .insights => "insights"
  | .anomalies => "anomalies"
  | .attribution => "attribution"
  | .events => "events"
  | .pages => "pages"
  | .ecommerce => "ecommerce"
  | .experience => "experience"
  | .cohort => "cohort"
  | .adoption => "adoption"
  | .workspaceRollup => "workspace-rollup"
  | .featureIntelligence => "feature-intelligence"
  | .searchAnalytics => "search-analytics"
  | .frustration => "frustration"
  | .aiAnalytics => "ai-analytics"
  | .path => "path"

theorem bar_notMem_name (report : Report) : (124 : Byte) ∉ ofText report.name := by
  cases report <;> decide +kernel

theorem name_injective {report report' : Report} (h : ofText report.name = ofText report'.name) :
    report = report' := by
  revert h
  cases report <;> cases report' <;> decide +kernel

/-- What a handler reads of a request. -/
structure Request where
  method : String
  caller : Principal
  /-- `chi.URLParam(r, "siteID")`. -/
  siteKey : String
  rawQuery : Bytes
  header : List (String × List String)

/-- `r.URL.Query()`. -/
def Request.query (r : Request) : Values := parse r.rawQuery

/-- `strings.ToLower`, as far as it brings about a letter of "segment": no other letter than these
has one of them for its lower case. -/
def toLower (b : Byte) : Byte := if 65 ≤ b ∧ b ≤ 90 then b + 32 else b

/-- `shareableQuery`: no key has to do with a segment. -/
def shareableQuery (r : Request) : Bool :=
  !(r.query.keys.any fun key => ofText "segment" <:+: key.map toLower)

/-- The key `shareIdenticalReads` joins by; `none` where it does not join. -/
def flightKey (sites : Table Uuid Site) (tenancy : Tenancy) (report : Report) (r : Request) : Option Bytes :=
  if r.method ≠ "GET" ∨ !shareableQuery r then none
  else (resolveSite r.caller sites tenancy r.siteKey).map fun siteId =>
    siteId.text ++ ofText "|" ++ ofText report.name ++ ofText "|" ++ r.query.encode

/-- **What one key says of two requests**: one report, one site both callers see, one form, and no
segment in it. -/
theorem eq_of_flightKey {sites : Table Uuid Site} {tenancy : Tenancy} {report report' : Report} {r r' : Request}
    {key : Bytes} (h : flightKey sites tenancy report r = some key)
    (h' : flightKey sites tenancy report' r' = some key) :
    report = report' ∧ r.query = r'.query ∧ shareableQuery r ∧ ∃ siteId,
      resolveSite r.caller sites tenancy r.siteKey = some siteId ∧
        resolveSite r'.caller sites tenancy r'.siteKey = some siteId := by
  unfold flightKey at h h'
  split at h
  · exact absurd h (by simp)
  next hjoins =>
  split at h'
  · exact absurd h' (by simp)
  obtain ⟨siteId, hsite, rfl⟩ := Option.map_eq_some_iff.mp h
  obtain ⟨siteId', hsite', heq⟩ := Option.map_eq_some_iff.mp h'
  -- each part ends at the first bar after it
  have hbar : ∀ (u : Uuid) (report : Report) (form : Bytes),
      u.text ++ ofText "|" ++ ofText report.name ++ ofText "|" ++ form
        = u.text ++ 124 :: (ofText report.name ++ 124 :: form) := by
    intro u report form
    have : ofText "|" = [124] := by decide
    simp [this]
  rw [hbar, hbar] at heq
  have houter := congrArg (cut 124) heq
  rw [cut_append (Uuid.bar_notMem_text _), cut_append (Uuid.bar_notMem_text _)] at houter
  obtain ⟨hid, hrest⟩ := Prod.mk.inj houter
  have hinner := congrArg (cut 124) hrest
  rw [cut_append (bar_notMem_name _), cut_append (bar_notMem_name _)] at hinner
  obtain ⟨hname, hform⟩ := Prod.mk.inj hinner
  obtain rfl := Uuid.text_injective hid
  refine ⟨(name_injective hname).symm, (encode_injective hform).symm, ?_, siteId', hsite, hsite'⟩
  simpa using (not_or.mp hjoins).2

/-! ## §2. The database, and what is asked of it. -/

/-- Nanoseconds since the epoch. -/
abbrev Nanos := Int

/-- `Time.Sub`: a duration is a 64-bit number. -/
def sub (t u : Nanos) : Int := max (-(2 ^ 63)) (min (2 ^ 63 - 1) (t - u))

/-- `cohortParams`. -/
structure CohortParams where
  from_ : Nanos
  to_ : Nanos
  environment : Bytes
  timezone : String
  granularity : Bytes
  periods : Int
  cohortEvent : Bytes
  returnEvent : Bytes

/-- A statement or a reporter's read, with everything bound to it. -/
inductive Statement (ν : Type) where
  | metrics (siteId : Uuid) (environment : Bytes) (from_ to_ : Nanos)
  | dailyTrend (siteId : Uuid) (dateFrom dateTo : Date) (environment : Bytes)
  | eventTrend (siteId : Uuid) (from_ to_ : Nanos) (timezone : String) (environment : Bytes)
  | build (siteId : Uuid) (environment : Bytes) (from_ to_ previousFrom previousTo : Nanos)
  | platform (siteId : Uuid) (environment : Bytes) (from_ to_ : Nanos)
  | detectSiteAnomalies (siteId : Uuid) (environment : Bytes) (location : String)
  | anomalyStates (siteId : Uuid) (environment : Bytes)
  | attribution (siteId : Uuid) (touchSites : List Uuid) (environment : Bytes) (from_ to_ : Nanos)
      (lookbackDays : Int) (model : Bytes) (halfLifeDays : Int) (scope : Bytes)
  | events (siteId : Uuid) (from_ to_ : Nanos) (environment : Bytes)
  | pages (siteId : Uuid) (from_ to_ : Nanos) (environment : Bytes)
  | ecommerceSummary (siteId : Uuid) (from_ to_ : Nanos) (environment : Bytes)
  | ecommerceProducts (siteId : Uuid) (from_ to_ : Nanos) (environment : Bytes)
  | ecommerceFunnel (siteId : Uuid) (from_ to_ : Nanos) (names : List String) (environment : Bytes)
  | vitals (siteId : Uuid) (from_ to_ : Nanos) (environment : Bytes)
  | errors (siteId : Uuid) (from_ to_ : Nanos) (environment : Bytes) (names : List String)
  | experienceImpact (siteId : Uuid) (environment : Bytes) (from_ to_ : Nanos)
  | releases (siteId : Uuid) (from_ to_ : Nanos) (environment : Bytes) (names : List String)
  | experienceCohort (siteId : Uuid) (environment : Bytes) (from_ to_ : Nanos) (resolver : ν) (segment : Option ν)
  | dimensions (siteId : Uuid) (environment : Bytes)
  | cohortGrid (siteId : Uuid) (params : CohortParams) (resolver : ν) (segment : Option ν)
  | adoption (siteId : Uuid) (environment : Bytes) (from_ to_ : Nanos) (limit : Nat)
  | services (workspaceId : Uuid) (from_ to_ : Nanos) (environment : Bytes) (names : List String)
  | uniqueUsers (workspaceId : Uuid) (from_ to_ : Nanos) (environment : Bytes)
  | population (siteId : Uuid) (from_ to_ : Nanos) (environment : Bytes)
  | features (siteId : Uuid) (from_ to_ : Nanos) (environment : Bytes) (midpoint : Nanos) (names : List String)
      (population : ν)
  | searchTotals (siteId : Uuid) (from_ to_ : Nanos) (environment : Bytes)
  | searchQueries (siteId : Uuid) (from_ to_ : Nanos) (environment : Bytes) (names : List String)
  | audiences (siteId : Uuid) (from_ to_ : Nanos) (environment : Bytes) (kind : String)
  | signals (siteId : Uuid) (from_ to_ : Nanos) (environment : Bytes) (names : List String)
  | affectedSessions (siteId : Uuid) (from_ to_ : Nanos) (environment : Bytes) (names : List String)
  | frictionImpact (siteId : Uuid) (from_ to_ : Nanos) (environment : Bytes)
  | aiOperations (siteId : Uuid) (environment group : Bytes) (from_ to_ : Nanos)
  | path (siteId : Uuid) (from_ to_ : Nanos) (environment view : Bytes) (includeSystem : Bool)

/-- Why a read fails, each with its text. -/
inductive QueryError where
  | deadlineExceeded (text : String)
  | canceled (text : String)
  | server (code message text : String)
  | other (text : String)

/-- `Error()`. -/
def QueryError.text : QueryError → String
  | .deadlineExceeded text => text
  | .canceled text => text
  | .server _ _ text => text
  | .other text => text

/-- A statement that fails, before its rows or while they are read. -/
structure Failure where
  atQuery : Bool
  error : QueryError

/-- `queryErrorResponse`. -/
def queryErrorResponse : QueryError → Refusal
  | .deadlineExceeded _ =>
    ⟨504, "QUERY_TIMEOUT", "분석 쿼리가 25초 제한을 초과했습니다. 기간을 좁히거나 Segment로 범위를 줄이고, 반복 조회는 Fast/Preview 모드나 Scheduled Report를 사용하십시오."⟩
  | .canceled _ => ⟨499, "QUERY_CANCELED", "요청이 취소되었습니다."⟩
  | .server code message text =>
    if code = "57014" ∨ code = "57P01" then
      ⟨504, "QUERY_TIMEOUT", "데이터베이스가 쿼리를 취소했습니다. 기간을 좁혀 다시 시도하십시오."⟩
    else if code = "53100" ∧ "shared memory".toList <:+: message.toList ∨ code = "53200" then
      ⟨500, "DATABASE_SHARED_MEMORY", "데이터베이스가 병렬 조회에 필요한 공유 메모리를 확보하지 못했습니다. PostgreSQL을 Docker로 운영 중이라면 컨테이너의 /dev/shm이 기본값 64MB일 가능성이 큽니다. `--shm-size=1g`(compose에서는 `shm_size: 1gb`)로 올린 뒤 다시 시도하십시오. 기간을 좁혀도 임시로 넘어갈 수 있지만 원인은 설정입니다."⟩
    else ⟨500, "QUERY_FAILED", text⟩
  | .other text => ⟨500, "QUERY_FAILED", text⟩

/-- A row of `segments`. -/
structure SegmentRow (ν : Type) where
  siteId : Uuid
  ownerId : Uuid
  shared : Bool
  name : Bytes
  /-- The definition, as `json.Unmarshal` takes it. -/
  definition : Except String ν

/-- The tables a handler decides by; `rest` is what only its statements read. -/
structure ReportDb (δ ν : Type) where
  sites : Table Uuid Site
  tenancy : Tenancy
  /-- `query_policies.max_exact_days`. -/
  queryPolicies : Table Uuid Int
  segments : Table Uuid (SegmentRow ν)
  rest : δ

/-- The calendar of a zone. -/
structure ZoneCalendar where
  /-- `time.Date(now.Year(), now.Month(), now.Day(), 0, 0, 0, 0, location)`. -/
  startOfDay : String → Nanos → Nanos
  /-- `AddDate(0, 0, days)`. -/
  addDays : String → Nanos → Int → Nanos
  isMidnight : String → Nanos → Bool
  localDate : String → Nanos → Date
  /-- `time.ParseInLocation("2006-01-02", …)`. -/
  parseInLocation : String → Bytes → Except String Nanos
  /-- `time.Parse(time.RFC3339, …)`. -/
  parseRFC3339 : Bytes → Except String Nanos

/-- A response, before it is JSON. -/
inductive Value (ν : Type) where
  /-- What a statement's rows come to. -/
  | rows (of : ν)
  /-- What the handler's arithmetic makes of several. -/
  | figure (of : List ν)
  | text (s : Bytes)
  | time (t : Nanos)
  | count (n : Int)
  | uuid (u : Uuid)
  | flag (b : Bool)
  | list (items : List (Value ν))
  | object (members : List (String × Value ν))

/-- What the server, the language and the database contribute. -/
structure ReportLibrary (δ ν : Type) where
  env : Platform
  calendar : ZoneCalendar
  /-- `uuid.Parse`. -/
  parseUuid : Bytes → Option Uuid
  /-- `int(math.Ceil(d.Hours() / 24))`. -/
  daysCovering : Int → Int
  /-- A statement on the database, at an instant. -/
  query : ReportDb δ ν → Nanos → Statement ν → Except Failure ν
  /-- `metricSet{}`, and `platformMetricValues{}`. -/
  noMetrics : ν
  noPlatformMetrics : ν
  /-- `json.Marshal`; `none` for a value it has no text for. -/
  marshal : Value ν → Option Bytes

/-! ## §3. Reading the form. -/

/-- The runes `unicode.IsSpace` is true of, as bytes. -/
def spaces : List Bytes :=
  [[9], [10], [11], [12], [13], [32], [0xC2, 0x85], [0xC2, 0xA0], [0xE1, 0x9A, 0x80]]
    ++ ((List.range 11).map fun i => [0xE2, 0x80, Fin.ofNat 256 (0x80 + i)])
    ++ [[0xE2, 0x80, 0xA8], [0xE2, 0x80, 0xA9], [0xE2, 0x80, 0xAF], [0xE2, 0x81, 0x9F], [0xE3, 0x80, 0x80]]

/-- Drop pieces off the front, at most so many. -/
def dropPieces (pieces : List Bytes) : Nat → Bytes → Bytes
  | 0, s => s
  | n + 1, s =>
    match pieces.find? fun piece => piece <+: s with
    | some piece => dropPieces pieces n (s.drop piece.length)
    | none => s

/-- `strings.TrimSpace`. -/
def trimSpace (s : Bytes) : Bytes :=
  let front := dropPieces spaces s.length s
  (dropPieces (spaces.map List.reverse) front.length front.reverse).reverse

/-- `0` to `9`. -/
def isDigit (b : Byte) : Bool := 48 ≤ b && b ≤ 57

/-- `strconv.ParseUint`: `none` for a syntax error; a number out of range is the greatest. -/
def parseUint (n : Nat) : Bytes → Option Nat
  | [] => some n
  | b :: rest =>
    if !isDigit b then none
    else if 2 ^ 64 ≤ 10 * n + (b.val - 48) then some (2 ^ 64 - 1)
    else parseUint (10 * n + (b.val - 48)) rest

/-- What `strconv.Atoi` returns beside its error. -/
def atoi (s : Bytes) : Int :=
  let negative := s.head? = some 45
  let digits := if negative ∨ s.head? = some 43 then s.tail else s
  if digits = [] then 0
  else match parseUint 0 digits with
    | none => 0
    | some n => if negative then max (-(2 ^ 63)) (-(n : Int)) else min (2 ^ 63 - 1) n

/-- `environmentNamePattern`. -/
def isEnvironmentName : Bytes → Bool
  | [] => false
  | b :: rest =>
    (97 ≤ b && b ≤ 122) && rest.length ≤ 31
      && rest.all fun b => (97 ≤ b && b ≤ 122) || isDigit b || b = 95 || b = 45

/-- `requestEnvironment`. -/
def requestEnvironment (r : Request) : Bytes :=
  let value := trimSpace (r.query.get (ofText "environment"))
  if value = [] then ofText "prd"
  else if !isEnvironmentName value then ofText "prd"
  else value

/-- `normalizePathView`. -/
def normalizePathView (value : Bytes) : Except String Bytes :=
  let value := trimSpace value
  if value = [] then .ok (ofText "all")
  else if value = ofText "all" ∨ value = ofText "pages" ∨ value = ofText "events" then .ok value
  else .error "view must be one of all, pages, or events"

/-- `aiOperationDimension`. -/
def aiOperationDimension (group : Bytes) : Bytes :=
  if group ∈ ["model", "provider", "agent", "mcp_server", "tool"].map ofText then group else ofText "model"

/-- The granularity `cohortBuckets` gives back. -/
def cohortBuckets (granularity : Bytes) : Bytes :=
  if granularity = ofText "day" then ofText "day"
  else if granularity = ofText "month" then ofText "month"
  else ofText "week"

/-- The ids of `segment_ids`. -/
def compared (r : Request) : List Bytes :=
  (((r.query.get (ofText "segment_ids")).splitOn 44).map trimSpace).filter (· ≠ [])

/-! ## §4. The handlers. -/

section
variable {δ ν : Type} (lib : ReportLibrary δ ν) (db : ReportDb δ ν) (now : Nanos) (r : Request)

/-- `siteTimezone`. -/
def siteTimezone (siteId : Uuid) : Except String String :=
  match db.sites.lookup siteId with
  | none => .error "no rows in result set"
  | some site =>
    if !lib.env.loadLocation site.timezone then .error ("invalid site timezone " ++ lib.env.quote site.timezone)
    else .ok site.timezone

/-- `loadQueryPolicy(…).MaxExactDays`. -/
def maxExactDays (siteId : Uuid) : Int := (db.queryPolicies.lookup siteId).getD 180

/-- `enforceRangePolicy`, and what `writeRangeError` answers to it. -/
def enforceRangePolicy (siteId : Uuid) (start stop : Nanos) : Except Refusal Unit :=
  let allowed := maxExactDays db siteId
  let days := lib.daysCovering (sub stop start)
  if allowed ≤ 0 then .ok ()
  else if allowed < days then
    .error ⟨400, "RANGE_EXCEEDS_POLICY", "조회 기간 " ++ toString days ++ "일은 이 사이트의 최대 정확 조회 기간 "
      ++ toString allowed ++ "일을 넘습니다. 기간을 줄이거나 관리자에게 정책 조정을 요청하세요."⟩
  else .ok ()

/-- A range that is refused. -/
def invalidRange (message : String) : Refusal := ⟨400, "INVALID_RANGE", message⟩

/-- A date of the zone, or a time in RFC 3339. -/
def parseTime (zone : String) (v : Bytes) : Except Refusal Nanos :=
  (if v.length = 10 then lib.calendar.parseInLocation zone v else lib.calendar.parseRFC3339 v).mapError invalidRange

/-- `dateRange`, its error as `writeRangeError` answers it. -/
def dateRange (siteId : Uuid) : Except Refusal (Nanos × Nanos) := do
  let zone ← (siteTimezone lib db siteId).mapError invalidRange
  let tomorrow := lib.calendar.addDays zone (lib.calendar.startOfDay zone now) 1
  let fromText := r.query.get (ofText "from")
  let toText := r.query.get (ofText "to")
  let start ← if fromText = [] then pure (lib.calendar.addDays zone tomorrow (-30)) else parseTime lib zone fromText
  let stop ← if toText = [] then pure tomorrow else parseTime lib zone toText
  let stop := if toText.length = 10 then lib.calendar.addDays zone stop 1 else stop
  if stop ≤ start then throw (invalidRange "date range must be positive")
  enforceRangePolicy lib db siteId start stop
  pure (start, stop)

/-- `previousDateRange`. -/
def previousDateRange (zone : String) (start stop : Nanos) : Nanos × Nanos :=
  if lib.calendar.isMidnight zone start ∧ lib.calendar.isMidnight zone stop then
    let days := lib.calendar.localDate zone stop - lib.calendar.localDate zone start
    (lib.calendar.addDays zone start (-days), start)
  else (start - sub stop start, start)

/-- `resolveSite`, and the handlers' answer where it fails. -/
def site : Except Refusal Uuid :=
  match resolveSite r.caller db.sites db.tenancy r.siteKey with
  | some siteId => .ok siteId
  | none => .error ⟨404, "UNKNOWN_SITE", "site not found"⟩

/-- A statement, its error as `writeQueryError` answers it. -/
def read (statement : Statement ν) : Except Refusal ν :=
  (lib.query db now statement).mapError fun failure => queryErrorResponse failure.error

/-- A query that failed. -/
def queryFailed (failure : Failure) : Refusal := ⟨500, "QUERY_FAILED", failure.error.text⟩

/-- The zone, or the answer of a handler without one. -/
def timezoneOf (siteId : Uuid) : Except Refusal String :=
  (siteTimezone lib db siteId).mapError fun message => ⟨500, "INVALID_TIMEZONE", message⟩

/-- `overviewTrend`. -/
def overviewTrend (siteId : Uuid) (environment : Bytes) (zone : String) (start stop : Nanos) : Except Refusal ν :=
  if lib.calendar.isMidnight zone start ∧ lib.calendar.isMidnight zone stop then
    read lib db now
      (.dailyTrend siteId (lib.calendar.localDate zone start) (lib.calendar.localDate zone stop) environment)
  else read lib db now (.eventTrend siteId start stop zone environment)

/-- `overview`. -/
def overview : Except Refusal (Value ν) := do
  let siteId ← site db r
  let (start, stop) ← dateRange lib db now r siteId
  let environment := requestEnvironment r
  let zone ← timezoneOf lib db siteId
  let (previousFrom, previousTo) := previousDateRange lib zone start stop
  let current ← read lib db now (.metrics siteId environment start stop)
  -- a comparison period that could not be read is an empty one
  let previous := (lib.query db now (.metrics siteId environment previousFrom previousTo)).toOption.getD lib.noMetrics
  let trend ← overviewTrend lib db now siteId environment zone start stop
  pure (.object [("from", .time start), ("to", .time stop), ("timezone", .text (ofText zone)),
    ("environment", .text environment), ("current", .rows current), ("previous", .rows previous), ("trend", .rows trend)])

/-- `visitorInsights`. -/
def visitorInsights : Except Refusal (Value ν) := do
  let siteId ← site db r
  let (start, stop) ← dateRange lib db now r siteId
  let zone ← timezoneOf lib db siteId
  let (previousFrom, previousTo) := previousDateRange lib zone start stop
  let report ← read lib db now (.build siteId (requestEnvironment r) start stop previousFrom previousTo)
  pure (.object [("report", .rows report), ("timezone", .text (ofText zone))])

/-- `insightsReport`. -/
def insightsReport : Except Refusal (Value ν) := do
  let siteId ← site db r
  let (start, stop) ← dateRange lib db now r siteId
  -- this error is dropped, and a location that is nil panics; the range has failed by then
  let zone ← (siteTimezone lib db siteId).mapError fun _ => ⟨500, "", ""⟩
  let (previousFrom, previousTo) := previousDateRange lib zone start stop
  let environment := requestEnvironment r
  let current ← (lib.query db now (.platform siteId environment start stop)).mapError queryFailed
  let previous :=
    (lib.query db now (.platform siteId environment previousFrom previousTo)).toOption.getD lib.noPlatformMetrics
  pure (.object [("engine", .text (ofText "offline-rule-v1")), ("environment", .text environment),
    ("current", .rows current), ("previous", .rows previous), ("insights", .figure [current, previous])])

/-- `siteAnomalies`. -/
def siteAnomalies : Except Refusal (Value ν) := do
  let siteId ← site db r
  let zone ← timezoneOf lib db siteId
  let environment := requestEnvironment r
  let report ← read lib db now (.detectSiteAnomalies siteId environment zone)
  let states ← read lib db now (.anomalyStates siteId environment)
  pure (.object [("report", .rows report), ("transitions", .figure [report, states]),
    ("notify_on", .list [.text (ofText "new"), .text (ofText "recovered")])])

/-- The sites of the site's workspace its caller sees, or the site alone. -/
def attributionTouchSites (siteId : Uuid) (scope : Bytes) : List Uuid :=
  if scope ≠ ofText "workspace" then [siteId]
  else
    let home := db.tenancy.workspaceOf.lookup siteId
    let out := (db.sites.entries.filter fun e =>
      e.2.active && home.isSome && db.tenancy.workspaceOf.lookup e.1 = home
        && db.tenancy.siteVisibleTo r.caller e.1).map Sigma.fst
    if out = [] then [siteId] else out

/-- The keys `AttributionOrder` knows. -/
def isAttributionModel (model : Bytes) : Bool :=
  (attributionModels.map AttributionModel.key).any fun key => (attributionWeight key 7).isSome && ofText key = model

/-- `channelAttribution`. -/
def channelAttribution : Except Refusal (Value ν) := do
  let siteId ← site db r
  let (start, stop) ← dateRange lib db now r siteId
  let asked := trimSpace (r.query.get (ofText "model"))
  let model := if asked = [] then ofText "last_non_direct" else asked
  if !isAttributionModel model then throw ⟨400, "INVALID_MODEL", "unsupported attribution model"⟩
  let lookback := atoi (r.query.get (ofText "lookback_days"))
  let halfLife := atoi (r.query.get (ofText "half_life_days"))
  let scope := if r.query.get (ofText "scope") = ofText "workspace" then ofText "workspace" else ofText "site"
  let touchSites := attributionTouchSites db r siteId scope
  let report ← read lib db now
    (.attribution siteId touchSites (requestEnvironment r) start stop lookback model halfLife scope)
  pure (.object [("report", .rows report),
    ("models", .list (attributionModels.map fun m => .object [("key", .text (ofText m.key)),
      ("label", .text (ofText m.label)), ("description", .text (ofText m.description)),
      ("multi_touch", .flag m.multiTouch)])),
    ("touch_sites", .count touchSites.length)])

/-- `eventReport`. -/
def eventReport : Except Refusal (Value ν) := do
  let siteId ← site db r
  let (start, stop) ← dateRange lib db now r siteId
  return .rows (← read lib db now (.events siteId start stop (requestEnvironment r)))

/-- `pageReport`. -/
def pageReport : Except Refusal (Value ν) := do
  let siteId ← site db r
  let (start, stop) ← dateRange lib db now r siteId
  return .rows (← read lib db now (.pages siteId start stop (requestEnvironment r)))

/-- `ecommerceReport`. -/
def ecommerceReport : Except Refusal (Value ν) := do
  let siteId ← site db r
  let (start, stop) ← dateRange lib db now r siteId
  let environment := requestEnvironment r
  let summary ← read lib db now (.ecommerceSummary siteId start stop environment)
  let products ← read lib db now (.ecommerceProducts siteId start stop environment)
  let funnel ← read lib db now
    (.ecommerceFunnel siteId start stop ["view_item", "add_to_cart", "begin_checkout", "purchase"] environment)
  pure (.object [("summary", .figure [summary]), ("funnel", .rows funnel), ("products", .rows products)])

/-- The events that count as errors. -/
def errorEvents : List String := ["error", "resource_error"]

/-- `loadSegment`: a segment that is shared, or the caller's, or seen by an administrator. -/
def loadSegment (siteId : Uuid) (id : Bytes) : Except String ν :=
  match lib.parseUuid id with
  | none => .error "invalid segment id"
  | some segmentId =>
    match (db.segments.lookup segmentId).filter fun row => row.siteId = siteId
        && (row.shared || row.ownerId = r.caller.id || isInstanceWide r.caller.role
          || r.caller.role = "workspace_admin") with
    | none => .error "segment not found"
    | some row => row.definition

/-- `segmentName`, its error passed over. -/
def segmentName (siteId : Uuid) (id : Bytes) : Bytes :=
  match (lib.parseUuid id).bind fun segmentId => (db.segments.lookup segmentId).filter fun row => row.siteId = siteId with
  | none => id
  | some row => row.name

/-- The segments a comparison asks for, at most three. -/
def checkCompared : Except Refusal Unit :=
  if 3 < (compared r).length then
    .error ⟨400, "TOO_MANY_SEGMENTS", "segment_ids accepts at most 3 segments"⟩
  else .ok ()

/-- Their definitions. -/
def loadCompared (siteId : Uuid) : Except Refusal (List (Bytes × ν)) :=
  (compared r).mapM fun id =>
    ((loadSegment lib db r siteId id).mapError fun message => ⟨400, "INVALID_SEGMENT", message⟩).map (id, ·)

/-- `experienceReport`. -/
def experienceReport : Except Refusal (Value ν) := do
  let siteId ← site db r
  let (start, stop) ← dateRange lib db now r siteId
  let environment := requestEnvironment r
  checkCompared r
  let cohorts ←
    if compared r = [] then pure []
    else do
      let resolver ← read lib db now (.dimensions siteId environment)
      let segments ← loadCompared lib db r siteId
      pure ((resolver, none) :: segments.map fun s => (resolver, some s))
  let vitals ← read lib db now (.vitals siteId start stop environment)
  let errors ← read lib db now (.errors siteId start stop environment errorEvents)
  let impact ← read lib db now (.experienceImpact siteId environment start stop)
  let releases ← read lib db now (.releases siteId start stop environment errorEvents)
  let measured ← cohorts.mapM fun (resolver, segment) =>
    read lib db now (.experienceCohort siteId environment start stop resolver (segment.map Prod.snd))
  let base := [("environment", .text environment), ("vitals", .rows vitals), ("errors", .rows errors),
    ("releases", .rows releases), ("impact", .figure [impact])]
  if compared r = [] then pure (.object base)
  else
    let labels := (ofText "전체") :: (compared r).map (segmentName lib db siteId)
    pure (.object (base ++ [("cohorts", .list (List.zipWith (fun label rows =>
      .object [("label", .text label), ("rows", .rows rows)]) labels measured)), ("gaps", .figure measured)]))

/-- `cohortReport`. -/
def cohortReport : Except Refusal (Value ν) := do
  let siteId ← site db r
  let (start, stop) ← dateRange lib db now r siteId
  let zone ← timezoneOf lib db siteId
  let asked := atoi (r.query.get (ofText "periods"))
  let params : CohortParams :=
    { from_ := start
      to_ := stop
      environment := requestEnvironment r
      timezone := zone
      granularity := cohortBuckets (r.query.get (ofText "granularity"))
      periods := if asked < 1 ∨ 52 < asked then 12 else asked
      cohortEvent := trimSpace (r.query.get (ofText "cohort_event"))
      returnEvent := trimSpace (r.query.get (ofText "return_event")) }
  let resolver ← read lib db now (.dimensions siteId (requestEnvironment r))
  checkCompared r
  let segments ← loadCompared lib db r siteId
  let baseline ← read lib db now (.cohortGrid siteId params resolver none)
  let grids ← segments.mapM fun s => read lib db now (.cohortGrid siteId params resolver (some s.2))
  let base := [("granularity", .text params.granularity), ("cohort_event", .text params.cohortEvent),
    ("return_event", .text params.returnEvent), ("environment", .text params.environment),
    ("cohorts", .rows baseline)]
  if compared r = [] then pure (.object base)
  else
    let labels := (ofText "전체") :: (compared r).map (segmentName lib db siteId)
    pure (.object (base ++ [("curves", .list (List.zipWith (fun label grid =>
      .object [("label", .text label), ("periods", .figure [grid])]) labels (baseline :: grids))),
      ("comparison", .figure (baseline :: grids))]))

/-- `adoptionReport`. -/
def adoptionReport : Except Refusal (Value ν) := do
  let siteId ← site db r
  let (start, stop) ← dateRange lib db now r siteId
  let rows ← read lib db now (.adoption siteId (requestEnvironment r) start stop 0)
  pure (.object [("environment", .text (requestEnvironment r)), ("rows", .rows rows)])

/-- `workspaceForSite`. -/
def workspaceForSite : Except Refusal (Uuid × Uuid) := do
  let siteId ← site db r
  match db.tenancy.workspaceOf.lookup siteId with
  | some workspaceId => pure (siteId, workspaceId)
  | none => throw ⟨404, "UNKNOWN_SITE", "site not found"⟩

/-- `workspaceRollup`. -/
def workspaceRollup : Except Refusal (Value ν) := do
  let (siteId, workspaceId) ← workspaceForSite db r
  let (start, stop) ← dateRange lib db now r siteId
  let environment := requestEnvironment r
  let services ← read lib db now (.services workspaceId start stop environment errorEvents)
  let uniqueUsers ← read lib db now (.uniqueUsers workspaceId start stop environment)
  pure (.object [("workspace_id", .uuid workspaceId), ("environment", .text environment),
    ("summary", .figure [services, uniqueUsers]), ("services", .rows services)])

/-- `featureIntelligence`. -/
def featureIntelligence : Except Refusal (Value ν) := do
  let siteId ← site db r
  let (start, stop) ← dateRange lib db now r siteId
  let environment := requestEnvironment r
  let population ← read lib db now (.population siteId start stop environment)
  let midpoint := start + (sub stop start).tdiv 2
  let features ← read lib db now (.features siteId start stop environment midpoint errorEvents population)
  pure (.object [("population", .rows population), ("environment", .text environment), ("features", .rows features)])

/-- `searchAnalytics`. -/
def searchAnalytics : Except Refusal (Value ν) := do
  let siteId ← site db r
  let (start, stop) ← dateRange lib db now r siteId
  let environment := requestEnvironment r
  let totals ← read lib db now (.searchTotals siteId start stop environment)
  let queries ← read lib db now (.searchQueries siteId start stop environment
    ["search", "search_result", "search_click", "search_no_result", "search_refine", "search_exit", "search_success"])
  let audiences ← read lib db now (.audiences siteId start stop environment "search")
  pure (.object [("environment", .text environment), ("summary", .figure [totals]), ("queries", .rows queries),
    ("audiences", .rows audiences)])

/-- The keys of `weights`. -/
def frustrationEvents : List String :=
  ["rage_click", "dead_click", "rapid_back", "form_retry", "repeated_search", "error_after_click",
    "slow_interaction", "error", "resource_error"]

/-- What the report adds. -/
def frictionImpactCaveat : String :=
  "이 비교는 연관성입니다. 신호를 겪은 집단이 원래 더 어려운 업무를 하고 있었을 수도 있으므로, 인과를 확인하려면 해당 화면을 고친 뒤 같은 집단을 다시 비교하세요."

/-- `frustrationAnalytics`. -/
def frustrationAnalytics : Except Refusal (Value ν) := do
  let siteId ← site db r
  let (start, stop) ← dateRange lib db now r siteId
  let environment := requestEnvironment r
  let signals ← read lib db now (.signals siteId start stop environment frustrationEvents)
  let sessions ← read lib db now (.affectedSessions siteId start stop environment frustrationEvents)
  let audiences ← read lib db now (.audiences siteId start stop environment "frustration")
  let impact ← read lib db now (.frictionImpact siteId start stop environment)
  pure (.object [("environment", .text environment), ("summary", .figure [signals, sessions]),
    ("signals", .rows signals), ("audiences", .rows audiences), ("impact", .rows impact),
    ("impact_caveat", .text (ofText frictionImpactCaveat))])

/-- `aiAnalyticsReport`. -/
def aiAnalyticsReport : Except Refusal (Value ν) := do
  let siteId ← site db r
  let (start, stop) ← dateRange lib db now r siteId
  let group := aiOperationDimension (r.query.get (ofText "group_by"))
  let environment := requestEnvironment r
  let out ← read lib db now (.aiOperations siteId environment group start stop)
  pure (.object [("environment", .text environment), ("group_by", .text group), ("rows", .rows out)])

/-- `pathReport`. -/
def pathReport : Except Refusal (Value ν) := do
  let siteId ← site db r
  let (start, stop) ← dateRange lib db now r siteId
  let view ← (normalizePathView (r.query.get (ofText "view"))).mapError fun message => ⟨400, "INVALID_PATH_VIEW", message⟩
  let includeSystem := r.query.get (ofText "include_system") = ofText "true"
  let rows ← (lib.query db now (.path siteId start stop (requestEnvironment r) view includeSystem)).mapError
    fun failure => if failure.atQuery then queryFailed failure else queryErrorResponse failure.error
  pure (.rows rows)

/-- **The handler of a route.** -/
def handlerOf : Report → Except Refusal (Value ν)
  | .overview => overview lib db now r
  | .visitorInsights => visitorInsights lib db now r
  | .insights => insightsReport lib db now r
  | .anomalies => siteAnomalies lib db now r
  | .attribution => channelAttribution lib db now r
  | .events => eventReport lib db now r
  | .pages => pageReport lib db now r
  | .ecommerce => ecommerceReport lib db now r
  | .experience => experienceReport lib db now r
  | .cohort => cohortReport lib db now r
  | .adoption => adoptionReport lib db now r
  | .workspaceRollup => workspaceRollup lib db now r
  | .featureIntelligence => featureIntelligence lib db now r
  | .searchAnalytics => searchAnalytics lib db now r
  | .frustration => frustrationAnalytics lib db now r
  | .aiAnalytics => aiAnalyticsReport lib db now r
  | .path => pathReport lib db now r

/-- `writeJSON`. -/
def writeJSON (status : Nat) (value : Value ν) : Nat × Bytes :=
  match lib.marshal value with
  | some body => (status, body ++ [10])
  | none =>
    (500, ofText ("\x7b\"error\":\x7b\"code\":\"RESPONSE_NOT_ENCODABLE\",\"message\":\"보고서에 표현할 수 없는 값이 있어 응답을 만들지 못했습니다.\"\x7d\x7d\n"))

/-- The status and the body of a report's handler. -/
def serve (report : Report) : Nat × Bytes :=
  match handlerOf lib db now r report with
  | .ok value => writeJSON lib 200 value
  | .error refusal =>
    writeJSON lib refusal.status (.object [("error", .object [("code", .text (ofText refusal.code)),
      ("message", .text (ofText refusal.message))])])

end

/-! ## §5. Two requests with one key. -/

section
variable {δ ν : Type} {lib : ReportLibrary δ ν} {db : ReportDb δ ν} {now : Nanos} {r r' : Request} {siteId : Uuid}

theorem visible_of_resolveSite {p : Principal} {sites : Table Uuid Site} {tenancy : Tenancy} {key : String}
    (h : resolveSite p sites tenancy key = some siteId) : tenancy.siteVisibleTo p siteId := by
  obtain ⟨e, hfind, rfl⟩ := Option.map_eq_some_iff.mp h
  have hpassed := List.find?_some hfind
  simp only [Bool.and_eq_true] at hpassed
  exact hpassed.2

/-- **A caller who sees a site sees every site of its workspace.** -/
theorem visible_sibling {p : Principal} {t : Tenancy} {other : Uuid} (h : t.siteVisibleTo p siteId)
    (hother : t.workspaceOf.lookup other = t.workspaceOf.lookup siteId) : t.siteVisibleTo p other := by
  unfold Tenancy.siteVisibleTo at h ⊢
  rw [hother]
  exact h

/-- Two requests that ask one thing of a site both callers see. -/
structure SameRead (db : ReportDb δ ν) (siteId : Uuid) (r r' : Request) : Prop where
  query : r.query = r'.query
  shareable : shareableQuery r
  left : resolveSite r.caller db.sites db.tenancy r.siteKey = some siteId
  right : resolveSite r'.caller db.sites db.tenancy r'.siteKey = some siteId

namespace SameRead
variable (h : SameRead db siteId r r')
include h

theorem site_left : site db r = .ok siteId := by
  unfold site
  rw [h.left]

theorem site_right : site db r' = .ok siteId := by
  unfold site
  rw [h.right]

theorem requestEnvironment_eq : requestEnvironment r = requestEnvironment r' := by
  unfold requestEnvironment
  rw [h.query]

theorem dateRange_eq (siteId : Uuid) : dateRange lib db now r siteId = dateRange lib db now r' siteId := by
  unfold dateRange
  rw [h.query]

/-- The siblings of the site are listed to both. -/
theorem attributionTouchSites_eq (scope : Bytes) :
    attributionTouchSites db r siteId scope = attributionTouchSites db r' siteId scope := by
  have hlisted : ∀ e ∈ db.sites.entries,
      (e.2.active && (db.tenancy.workspaceOf.lookup siteId).isSome
          && db.tenancy.workspaceOf.lookup e.1 = db.tenancy.workspaceOf.lookup siteId
          && db.tenancy.siteVisibleTo r.caller e.1)
        = (e.2.active && (db.tenancy.workspaceOf.lookup siteId).isSome
          && db.tenancy.workspaceOf.lookup e.1 = db.tenancy.workspaceOf.lookup siteId
          && db.tenancy.siteVisibleTo r'.caller e.1) := by
    intro e _
    by_cases hsibling : db.tenancy.workspaceOf.lookup e.1 = db.tenancy.workspaceOf.lookup siteId
    · rw [visible_sibling (visible_of_resolveSite h.left) hsibling,
        visible_sibling (visible_of_resolveSite h.right) hsibling]
    · simp [hsibling]
  unfold attributionTouchSites
  simp only [List.filter_congr hlisted]

/-- No segment is asked for, as `segment_ids` is a key with "segment" in it. -/
theorem compared_left : compared r = [] := by
  have hkey : ofText "segment_ids" ∉ r.query.keys := by
    intro hmem
    have hshare := h.shareable
    unfold shareableQuery at hshare
    rw [Bool.not_eq_true', List.any_eq_false] at hshare
    exact hshare _ hmem (by decide +kernel)
  unfold compared
  rw [Values.get_of_notMem hkey]
  decide +kernel

theorem compared_right : compared r' = [] := by
  have hsame : compared r' = compared r := by
    unfold compared
    rw [h.query]
  rw [hsame, h.compared_left]

theorem checkCompared_left : checkCompared r = .ok () := by
  unfold checkCompared
  rw [h.compared_left]
  rfl

theorem checkCompared_right : checkCompared r' = .ok () := by
  unfold checkCompared
  rw [h.compared_right]
  rfl

theorem loadCompared_left : loadCompared lib db r siteId = .ok [] := by
  unfold loadCompared
  rw [h.compared_left]
  rfl

theorem loadCompared_right : loadCompared lib db r' siteId = .ok [] := by
  unfold loadCompared
  rw [h.compared_right]
  rfl

/-- **A handler answers both alike.** -/
theorem handlerOf_eq (report : Report) : handlerOf lib db now r report = handlerOf lib db now r' report := by
  -- the caller is met where the site is resolved, and nowhere else for most reports
  have hsite : site db r = site db r' := by rw [h.site_left, h.site_right]
  have hrange : ∀ siteId, dateRange lib db now r siteId = dateRange lib db now r' siteId := h.dateRange_eq
  have henvironment := h.requestEnvironment_eq
  cases report with
  | overview =>
    simp only [handlerOf, overview, hsite, hrange, henvironment]
  | visitorInsights =>
    simp only [handlerOf, visitorInsights, hsite, hrange, henvironment]
  | insights =>
    simp only [handlerOf, insightsReport, hsite, hrange, henvironment]
  | anomalies =>
    simp only [handlerOf, siteAnomalies, hsite, henvironment]
  | attribution =>
    -- the sibling sites are those of the site that was resolved
    simp only [handlerOf, channelAttribution, h.site_left, h.site_right, hrange, henvironment, h.query, bind, Except.bind,
      h.attributionTouchSites_eq]
  | events =>
    simp only [handlerOf, eventReport, hsite, hrange, henvironment]
  | pages =>
    simp only [handlerOf, pageReport, hsite, hrange, henvironment]
  | ecommerce =>
    simp only [handlerOf, ecommerceReport, hsite, hrange, henvironment]
  | experience =>
    simp only [handlerOf, experienceReport, hsite, hrange, henvironment, h.checkCompared_left, h.checkCompared_right,
      h.compared_left, h.compared_right, if_true]
  | cohort =>
    simp only [handlerOf, cohortReport, h.site_left, h.site_right, hrange, henvironment, h.query, h.checkCompared_left,
      h.checkCompared_right, h.loadCompared_left, h.loadCompared_right, h.compared_left, h.compared_right, if_true,
      bind, Except.bind]
  | adoption =>
    simp only [handlerOf, adoptionReport, hsite, hrange, henvironment]
  | workspaceRollup =>
    simp only [handlerOf, workspaceRollup, workspaceForSite, hsite, hrange, henvironment]
  | featureIntelligence =>
    simp only [handlerOf, featureIntelligence, hsite, hrange, henvironment]
  | searchAnalytics =>
    simp only [handlerOf, searchAnalytics, hsite, hrange, henvironment]
  | frustration =>
    simp only [handlerOf, frustrationAnalytics, hsite, hrange, henvironment]
  | aiAnalytics =>
    simp only [handlerOf, aiAnalyticsReport, hsite, hrange, henvironment, h.query]
  | path =>
    simp only [handlerOf, pathReport, hsite, hrange, henvironment, h.query]

end SameRead

end

/-- **Joining discloses nothing**: whatever the database holds, requests with one flight key are
answered alike, each by the handler of its own route. -/
theorem shared_reads_disclose_nothing {δ ν : Type} (lib : ReportLibrary δ ν) (db : ReportDb δ ν) (now : Nanos)
    (report report' : Report) (r r' : Request) (key : Bytes)
    (h : flightKey db.sites db.tenancy report r = some key)
    (h' : flightKey db.sites db.tenancy report' r' = some key) :
    serve lib db now r report = serve lib db now r' report' := by
  obtain ⟨hreport, hquery, hshareable, siteId, hleft, hright⟩ := eq_of_flightKey h h'
  have hsame : SameRead db siteId r r' := ⟨hquery, hshareable, hleft, hright⟩
  unfold serve
  rw [hsame.handlerOf_eq report, hreport]

namespace HandlerSample

def siblingId : Uuid := ⟨2⟩

/-- Two sites of one workspace; one caller is a member of it, the other administers the instance. -/
def db : ReportDb Unit (List Uuid) where
  sites := AList.insert Sample.siteId Sample.site (AList.insert siblingId { Sample.site with siteKey := "sibling" } ∅)
  tenancy :=
    { workspaceOf := AList.insert Sample.siteId Sample.ourWorkspace (AList.insert siblingId Sample.ourWorkspace ∅)
      memberships := AList.insert (⟨4⟩, Sample.ourWorkspace) "viewer" ∅ }
  queryPolicies := ∅
  segments := ∅
  rest := ()

/-- The attribution read answers with the sites it was given, the others with nothing. -/
def library : ReportLibrary Unit (List Uuid) where
  env := Sample.platform
  calendar :=
    { startOfDay := fun _ t => t
      addDays := fun _ t days => t + days * 86400000000000
      isMidnight := fun _ t => t % 86400000000000 = 0
      localDate := fun _ t => t / 86400000000000
      parseInLocation := fun _ _ => .error "cannot parse"
      parseRFC3339 := fun _ => .error "cannot parse" }
  parseUuid _ := none
  daysCovering d := (d + 86399999999999) / 86400000000000
  query _ _
    | .attribution _ touchSites _ _ _ _ _ _ _ => .ok touchSites
    | _ => .ok []
  noMetrics := []
  noPlatformMetrics := []
  marshal
    | .object (("report", .rows sites) :: _) => some (sites.flatMap Uuid.text)
    | _ => none

def memberRequest : Request :=
  ⟨"GET", ⟨⟨4⟩, "viewer", false⟩, "site", ofText "scope=workspace&model=linear", []⟩

def administratorRequest : Request :=
  ⟨"GET", ⟨⟨5⟩, "super_admin", false⟩, "site", ofText "model=linear&&scope=%77orkspace", [("Accept", ["*/*"])]⟩

end HandlerSample

open HandlerSample in
/-- The member and the administrator ask for the attribution of the workspace. -/
theorem shared_reads_disclose_nothing_siblings :
    serve library db 0 memberRequest .attribution = serve library db 0 administratorRequest .attribution :=
  shared_reads_disclose_nothing library db 0 .attribution .attribution memberRequest administratorRequest
    ((flightKey db.sites db.tenancy .attribution memberRequest).getD []) (by decide +kernel) (by decide +kernel)

open HandlerSample in
/-- Both are told of both sites. -/
example : serve library db 0 memberRequest .attribution
    = (200, Sample.siteId.text ++ siblingId.text ++ [10]) := by decide +kernel

end SiteReports

end Momento
