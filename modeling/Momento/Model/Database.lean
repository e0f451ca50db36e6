/-
  Momento.Model.Database

  **THE TABLES.**  One row type and one key type for each table the ingestion
  path reads or writes.  `Config` is what it only reads, `Store` adds what
  processing an event writes, and `Database` adds the queue around it.  The split
  is a statement about the code: the body of a job is a transaction body over
  `Store`, so it cannot touch the inbox or the dead letters.

  `raw_events` is filled from a sequence: its rows stand newest first, their ids
  fall strictly and are all given out already, and `UNIQUE(site_id, event_id)`
  holds; all of it by construction (`RawEvents`).
-/
import Momento.Foundation.Table
import Momento.Foundation.Transaction
import Momento.Model.Privacy

namespace Momento

open Foundation

/-! ## §1. Values. -/

/-- `nullif(text, '')`. -/
def nullIfEmpty (s : String) : Option String := if s = "" then none else some s

/-- A `numeric` column: NaN is a value of it, the infinities do not fit one with
a precision. -/
inductive Numeric where
  | nan
  | fin (q : ℚ)
  deriving DecidableEq

/-- `NaN` swallows every sum. -/
def Numeric.add : Numeric → Numeric → Numeric
  | .fin a, .fin b => .fin (a + b)
  | _, _ => .nan

instance : Add Numeric := ⟨Numeric.add⟩

@[simp] theorem Numeric.fin_add (a b : ℚ) : Numeric.fin a + Numeric.fin b = .fin (a + b) := rfl

/-- Why a statement or the program around it failed. -/
inductive DbError where
  | noRows
  | program (message : String)
  | encode (message : String)
  | indexRowSize
  | numericOverflow
  | numericFormat
  | bigintOutOfRange
  | undeterminedParameter (position : Nat)
  | inFailedTransaction
  | uniqueViolation (constraint : String)
  | deadlockDetected
  | serializationFailure
  | fault (message : String)
  deriving DecidableEq

/-- `err.Error()`. -/
def DbError.message : DbError → String
  | .noRows => "no rows in result set"
  | .program message => message
  | .encode message => message
  | .indexRowSize =>
    "ERROR: index row size exceeds btree version 4 maximum 2704 (SQLSTATE 54000)"
  | .numericOverflow => "ERROR: numeric field overflow (SQLSTATE 22003)"
  | .numericFormat => "ERROR: value overflows numeric format (SQLSTATE 22003)"
  | .bigintOutOfRange => "ERROR: bigint out of range (SQLSTATE 22003)"
  | .undeterminedParameter position =>
    "ERROR: could not determine data type of parameter $" ++ toString position
      ++ " (SQLSTATE 42P18)"
  | .inFailedTransaction =>
    "ERROR: current transaction is aborted, commands ignored until end of transaction block (SQLSTATE 25P02)"
  | .uniqueViolation constraint =>
    "ERROR: duplicate key value violates unique constraint \"" ++ constraint
      ++ "\" (SQLSTATE 23505)"
  | .deadlockDetected => "ERROR: deadlock detected (SQLSTATE 40P01)"
  | .serializationFailure =>
    "ERROR: could not serialize access due to concurrent update (SQLSTATE 40001)"
  | .fault message => message

instance : SqlError DbError := ⟨.inFailedTransaction⟩

/-! ## §2. Configuration. -/

/-- A row of `sites`. -/
structure Site where
  siteKey : String
  trackingKeyHash : String
  serverApiKeyHash : String
  allowedDomains : List String
  active : Bool
  timezone : String
  engagementThresholdSeconds : Nat
  /-- `CHECK(engagement_threshold_seconds BETWEEN 1 AND 300)`. -/
  thresholdChecked : 1 ≤ engagementThresholdSeconds ∧ engagementThresholdSeconds ≤ 300

/-- `CHECK(contract_mode IN ('allow','warn','reject'))`. -/
inductive ContractMode
  | allow
  | warn
  | reject
  deriving DecidableEq

/-- What a version may be. -/
inductive ContractStatus
  | draft
  | active
  | deprecated
  deriving DecidableEq

/-- A row of `site_environments`. -/
structure SiteEnvironment where
  contractMode : ContractMode
  cardinalityLimit : Nat
  active : Bool

/-- A registered schema, as `validateProperties` decodes it; `none` is a document
that does not decode. -/
structure RegistrySchema where
  required : List String
  properties : List (String × String)

/-- A row of `event_definitions`. -/
structure EventDefinition where
  description : String
  schema : Option RegistrySchema
  validationMode : ContractMode
  conversion : Bool
  currentVersion : Nat
  deprecated : Bool

/-- A row of `event_contract_versions`. -/
structure ContractVersion where
  siteId : Uuid
  eventName : String
  version : Nat
  validationMode : ContractMode
  status : ContractStatus
  schema : Option RegistrySchema

/-- A row of `network_ranges`. -/
structure NetworkRange where
  name : String
  family : IpFamily
  bits : Nat
  maskLength : Nat
  internal : Bool

/-- `ip <<= cidr`. -/
def NetworkRange.contains (range : NetworkRange) (ip : IpAddress) : Bool :=
  range.family = ip.family
    && range.bits >>> (ip.family.width - range.maskLength)
      = ip.bits >>> (ip.family.width - range.maskLength)

/-- The key of `site_environments`. -/
structure EnvironmentKey where
  siteId : Uuid
  name : String
  deriving DecidableEq

/-- The key of `event_definitions`. -/
structure DefinitionKey where
  siteId : Uuid
  name : String
  deriving DecidableEq

/-- What ingestion only reads. -/
structure Config where
  sites : Table Uuid Site
  siteEnvironments : Table EnvironmentKey SiteEnvironment
  eventDefinitions : Table DefinitionKey EventDefinition
  contractVersions : List ContractVersion
  networkRanges : List NetworkRange
  /-- `settings.value->>'max_events_per_request'` of the security group. -/
  maxEventsPerRequest : Option Int
  /-- `privacypolicy.Load` on the stored policy. -/
  privacy : Except String Policy

/-! ## §3. Raw events. -/

/-- The columns of `raw_events` the collector writes. -/
structure RawEvent where
  id : Nat
  eventId : Uuid
  siteId : Uuid
  eventName : String
  eventTimestamp : Instant
  visitorId : String
  sessionId : String
  userId : Option String := none
  pageUrl : Option String := none
  pageTitle : Option String := none
  referrer : Option String := none
  source : Option String := none
  medium : Option String := none
  campaign : Option String := none
  deviceType : Option String := none
  browser : Option String := none
  os : Option String := none
  language : Option String := none
  screen : Option String := none
  userAgent : Option String := none
  clientIp : Option IpAddress := none
  networkName : String := ""
  properties : Properties := []
  userProperties : Properties := []
  sessionProperties : Properties := []
  isConversion : Bool := false
  isInternal : Bool := false
  trafficClass : String := "normal"
  environment : String := "prd"
  contractVersion : Int := 1

/-- `UNIQUE(site_id, event_id)`. -/
def RawEvent.uniqueKey (r : RawEvent) : Uuid × Uuid := (r.siteId, r.eventId)

/-- The table `raw_events`, newest row first, with its sequence. -/
structure RawEvents where
  rows : List RawEvent
  /-- The last id given out; its row may be gone. -/
  lastId : Nat
  newestFirst : rows.Pairwise (fun a b => b.id < a.id)
  givenOut : ∀ r ∈ rows, r.id ≤ lastId
  distinct : (rows.map RawEvent.uniqueKey).Nodup

namespace RawEvents

/-- No rows yet. -/
def empty : RawEvents := ⟨[], 0, List.Pairwise.nil, by simp, List.nodup_nil⟩

/-- The id the sequence gives out next. -/
def nextId (t : RawEvents) : Nat := t.lastId + 1

theorem lt_nextId (t : RawEvents) : ∀ r ∈ t.rows, r.id < t.nextId :=
  fun r hr => Nat.lt_succ_of_le (t.givenOut r hr)

/-- The row's key is taken. -/
def Holds (t : RawEvents) (siteId eventId : Uuid) : Prop :=
  (siteId, eventId) ∈ t.rows.map RawEvent.uniqueKey

instance (t : RawEvents) (siteId eventId : Uuid) : Decidable (t.Holds siteId eventId) :=
  inferInstanceAs (Decidable (_ ∈ _))

/-- The table with one more row, under the next id. -/
def insert (t : RawEvents) (row : RawEvent) (h : ¬ t.Holds row.siteId row.eventId) : RawEvents where
  rows := { row with id := t.nextId } :: t.rows
  lastId := t.nextId
  newestFirst := List.pairwise_cons.mpr ⟨t.lt_nextId, t.newestFirst⟩
  givenOut := by
    intro r hr
    rcases List.mem_cons.mp hr with rfl | hold
    · exact le_rfl
    · exact (t.lt_nextId r hold).le
  distinct := List.nodup_cons.mpr ⟨h, t.distinct⟩

/-- `DELETE FROM raw_events WHERE NOT keep`. -/
def keepRows (keep : RawEvent → Bool) (t : RawEvents) : RawEvents where
  rows := t.rows.filter keep
  lastId := t.lastId
  newestFirst := t.newestFirst.sublist List.filter_sublist
  givenOut := fun r hr => t.givenOut r (List.mem_of_mem_filter hr)
  distinct := t.distinct.sublist (List.filter_sublist.map _)

end RawEvents

/-! ## §4. Derived tables. -/

/-- The key of `visitors` and `visitor_identities`. -/
structure VisitorKey where
  siteId : Uuid
  visitorId : String
  deriving DecidableEq

/-- The key of `identified_users`. -/
structure UserKey where
  siteId : Uuid
  userId : String
  deriving DecidableEq

/-- The key of `visitor_sessions`. -/
structure VisitorSessionKey where
  siteId : Uuid
  visitorId : String
  sessionId : String
  deriving DecidableEq

/-- The key of `sessions`. -/
structure SessionKey where
  siteId : Uuid
  environment : String
  sessionId : String
  deriving DecidableEq

/-- The key of `daily_site_metrics`. -/
structure DayKey where
  siteId : Uuid
  eventDate : Date
  environment : String
  deriving DecidableEq

/-- The key of `daily_site_visitors`. -/
structure DayVisitorKey where
  day : DayKey
  visitorId : String
  deriving DecidableEq

/-- The key of `daily_site_sessions`. -/
structure DaySessionKey where
  day : DayKey
  sessionId : String
  deriving DecidableEq

/-- The key of `data_quality_daily`. -/
structure QualityKey where
  day : DayKey
  eventName : String
  deriving DecidableEq

/-- A row of `visitors`. -/
structure Visitor where
  userId : Option String
  firstSeen : Instant
  lastSeen : Instant
  eventCount : Nat
  conversionCount : Nat
  userProperties : Properties

/-- A row of `visitor_identities`. -/
structure VisitorIdentity where
  userId : String
  firstSeen : Instant
  linkedAt : Instant
  lastSeen : Instant
  deriving DecidableEq

/-- A row of `identified_users`. -/
structure IdentifiedUser where
  firstSeen : Instant
  lastSeen : Instant
  userProperties : Properties

/-- A row of `visitor_sessions`. -/
structure VisitorSession where
  userId : Option String
  firstSeen : Instant
  lastSeen : Instant

/-- A row of `sessions`. -/
structure Session where
  visitorId : String
  userId : Option String := none
  startedAt : Instant
  lastEventAt : Instant
  eventCount : Nat
  pageViews : Nat
  conversionCount : Nat
  engaged : Bool
  landingPage : Option String := none
  exitPage : Option String := none
  source : Option String := none
  medium : Option String := none
  campaign : Option String := none
  deviceType : Option String := none
  activeEngagementMs : Int := 0
  heartbeatCount : Nat := 0
  interactionCount : Nat := 0
  sessionProperties : Properties := []

/-- A row of `daily_site_metrics`. -/
structure DailyMetrics where
  events : Nat
  pageViews : Nat
  conversions : Nat
  revenue : Numeric
  deriving DecidableEq

/-- A row of `daily_site_visitors`. -/
structure DailyVisitor where
  userId : Option String
  firstSeen : Instant
  lastSeen : Instant
  eventCount : Nat
  conversionCount : Nat
  userProperties : Properties

/-- A row of `daily_site_sessions`. -/
structure DailySession where
  visitorId : String
  userId : Option String
  firstSeen : Instant
  lastSeen : Instant

/-- The counters of `data_quality_daily`. -/
structure Quality where
  received : Nat := 0
  accepted : Nat := 0
  duplicates : Nat := 0
  rejected : Nat := 0
  warnings : Nat := 0
  lateEvents : Nat := 0
  missingUserId : Nat := 0
  refusedUserId : Nat := 0
  missingFeature : Nat := 0
  unknownNetwork : Nat := 0
  piiBlocked : Nat := 0
  piiDetected : Nat := 0
  cardinalityViolations : Nat := 0
  deriving DecidableEq

/-- `… DO UPDATE SET c = data_quality_daily.c + excluded.c` for every counter. -/
def Quality.add (q r : Quality) : Quality where
  received := q.received + r.received
  accepted := q.accepted + r.accepted
  duplicates := q.duplicates + r.duplicates
  rejected := q.rejected + r.rejected
  warnings := q.warnings + r.warnings
  lateEvents := q.lateEvents + r.lateEvents
  missingUserId := q.missingUserId + r.missingUserId
  refusedUserId := q.refusedUserId + r.refusedUserId
  missingFeature := q.missingFeature + r.missingFeature
  unknownNetwork := q.unknownNetwork + r.unknownNetwork
  piiBlocked := q.piiBlocked + r.piiBlocked
  piiDetected := q.piiDetected + r.piiDetected
  cardinalityViolations := q.cardinalityViolations + r.cardinalityViolations

/-- The `sample` document of an issue. -/
inductive IssueSample where
  | contract (warnings : List String) (contractVersion : Int)
  | detected (types : List String)
  deriving DecidableEq

/-- A row of `data_quality_issues`. -/
structure QualityIssue where
  siteId : Uuid
  environment : String
  eventName : String
  code : String
  severity : String
  message : String
  sample : IssueSample
  deriving DecidableEq

/-- A row of `data_quality_dimension_values`. -/
structure DimensionValue where
  day : DayKey
  dimension : String
  valueHash : String
  deriving DecidableEq

/-- What an aggregate job may be. -/
inductive JobStatus
  | pending
  | running
  | success
  | failed
  deriving DecidableEq

/-- A row of `aggregate_jobs`. -/
structure AggregateJob where
  siteId : Uuid
  environment : String
  jobType : String
  /-- Null for a rebuild of the whole site. -/
  dateFrom : Option Date
  dateTo : Option Date
  status : JobStatus
  reason : String
  attempts : Nat := 0
  deriving DecidableEq

/-! ## §5. The store and the database. -/

/-- What processing an event reads and writes. -/
structure Store where
  config : Config
  rawEvents : RawEvents
  visitors : Table VisitorKey Visitor
  visitorIdentities : Table VisitorKey VisitorIdentity
  identifiedUsers : Table UserKey IdentifiedUser
  visitorSessions : Table VisitorSessionKey VisitorSession
  sessions : Table SessionKey Session
  dailySiteMetrics : Table DayKey DailyMetrics
  dailySiteVisitors : Table DayVisitorKey DailyVisitor
  dailySiteSessions : Table DaySessionKey DailySession
  dataQualityDaily : Table QualityKey Quality
  dataQualityIssues : List QualityIssue
  dimensionValues : List DimensionValue
  aggregateJobs : List AggregateJob

/-- Add counters to a row of `data_quality_daily`. -/
def Store.addQuality (key : QualityKey) (q : Quality) (s : Store) : Store :=
  { s with dataQualityDaily := s.dataQualityDaily.upsert key q (·.add q) }

/-- The store before the first event. -/
def Store.initial (config : Config) : Store where
  config := config
  rawEvents := .empty
  visitors := ∅
  visitorIdentities := ∅
  identifiedUsers := ∅
  visitorSessions := ∅
  sessions := ∅
  dailySiteMetrics := ∅
  dailySiteVisitors := ∅
  dailySiteSessions := ∅
  dataQualityDaily := ∅
  dataQualityIssues := []
  dimensionValues := []
  aggregateJobs := []

/-- A row of `event_inbox`. -/
structure InboxRow where
  siteId : Uuid
  /-- `json.Unmarshal` on the stored payload. -/
  payload : Except String InboxPayload
  attempts : Nat
  availableAt : Instant
  processedAt : Option Instant
  lastError : Option String

/-- A row of `event_dead_letters`. -/
structure DeadLetter where
  inboxId : Nat
  siteId : Uuid
  payload : Except String InboxPayload
  error : String

/-- The store, and the two queues of payloads. -/
structure Database where
  store : Store
  inbox : Table Nat InboxRow
  deadLetters : List DeadLetter

/-- The database before the first request. -/
def Database.initial (config : Config) : Database := ⟨Store.initial config, ∅, []⟩

end Momento
