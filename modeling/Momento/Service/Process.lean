/-
  Momento.Service.Process

  **THE BODY OF AN INBOX JOB**: `processOne` and every statement it sends, in the
  order it sends them.  Each statement is a function on the `Store`; the Go around
  it is a transaction body (`Tx`), because some statements' errors are looked at
  and some are dropped, and a dropped error still aborts the transaction.

  The pure functions (`Store.…`) are what the statements leave behind; a later
  module states that a body commits exactly when every statement can succeed,
  and then leaves their composition.
-/
import Momento.Service.Amounts

namespace Momento

open Foundation

/-- A body over the tables an inbox job touches. -/
abbrev Body := Tx Store DbError

/-! ## §1. What a job knows before its first event. -/

/-- What a job works with. -/
structure JobContext where
  env : Platform
  policy : Policy
  siteId : Uuid
  payload : InboxPayload
  timezone : String
  cardinalityLimit : Nat
  ip : Option IpAddress
  networkName : String
  isInternal : Bool

namespace JobContext

/-- The request of the payload. -/
def request (c : JobContext) : CollectRequest := c.payload.request

/-- The user the request names, unless the policy keeps no user ids. -/
def userId (c : JobContext) : String := if c.policy.collectUserId then c.request.userId else ""

/-- The user's properties, filtered. -/
def userProperties (c : JobContext) : Properties :=
  filteredProperties c.env c.request.userProperties c.policy.blockedProperties

/-- The user agent, where it is kept. -/
def userAgent (c : JobContext) : String :=
  if c.policy.collectUserAgent then c.payload.userAgent else ""

end JobContext

/-- `monitoringPattern`. -/
def monitoringPattern : String := "(?i)(uptime|pingdom|healthcheck|monitoring|prometheus)"

/-- `knownBotPattern`. -/
def knownBotPattern : String :=
  "(?i)(bot\\b|crawler|spider|slurp|bingpreview|headlesschrome)"

/-- `trafficClass`. -/
def JobContext.trafficClass (c : JobContext) : String :=
  if trimSpace c.payload.userAgent = "" then "suspicious"
  else if c.env.matchString monitoringPattern c.payload.userAgent then "monitoring"
  else if c.env.matchString knownBotPattern c.payload.userAgent then "known_bot"
  else "normal"

/-- `SELECT name, internal FROM network_ranges WHERE ip <<= cidr ORDER BY
masklen(cidr) DESC LIMIT 1`; of equally long masks the first one. -/
def networkOf (ranges : List NetworkRange) (ip : IpAddress) : Option NetworkRange :=
  ((ranges.filter (·.contains ip)).insertionSort (fun a b => b.maskLength ≤ a.maskLength)).head?

/-! ## §2. What an event becomes. -/

section Event
variable (c : JobContext) (event : IncomingEvent)

/-- The event's context, or the request's. -/
def contextOf : EventContext := event.context.getD c.request.context

/-- The stored properties: the filtered ones, with the filtered items under
`items` when there are any. -/
def storedProperties : Properties :=
  let props := filteredProperties c.env event.properties c.policy.blockedProperties
  if event.items = [] then props
  else Properties.set props "items" (.arr (event.items.map fun item =>
    .obj (filteredProperties c.env (some item) c.policy.blockedProperties)))

/-- The session's properties, filtered. -/
def storedSessionProperties : Properties :=
  filteredProperties c.env
    (match event.sessionProperties with
      | some p => some p
      | none => c.request.sessionProperties)
    c.policy.blockedProperties

/-- The page's address, cleaned. -/
def pageUrlOf : String := sanitizeUrl c.env (contextOf c event).page.url c.policy

/-- The tracker's timestamp, unless it is missing, older than five years or more
than a day ahead. -/
def eventTimeOf (readings : EventReadings) : Instant :=
  let time := event.timestamp * 1000
  if event.timestamp ≤ 0 ∨ time < c.env.fiveYearsBefore readings.nowForOldest
      ∨ readings.nowForNewest + 24 * 3600 * 1000000 < time then readings.now
  else time

/-- The version, 1 where none is given. -/
def contractVersionOf : Int := if event.contractVersion ≤ 0 then 1 else event.contractVersion

/-- `uuid.Parse(event.ID)`, else a fresh one. -/
def eventIdOf (readings : EventReadings) : Except DbError Uuid :=
  match c.env.parseUuid event.id with
  | some id => .ok id
  | none => match readings.newV7 with
    | .ok id => .ok id
    | .error message => .error (.program message)

/-- The names that convert by themselves. -/
def isConversionName : Bool := event.name = "conversion" || event.name = "purchase"

/-- The row the event is stored as; its id is the table's business. -/
def rawEventOf (eventId : Uuid) (eventTime : Instant) (conversion : Bool) : RawEvent where
  id := 0
  eventId := eventId
  siteId := c.siteId
  eventName := event.name
  eventTimestamp := eventTime
  visitorId := c.request.visitorId
  sessionId := c.request.sessionId
  userId := nullIfEmpty c.userId
  pageUrl := nullIfEmpty (pageUrlOf c event)
  pageTitle := nullIfEmpty (contextOf c event).page.title
  referrer := nullIfEmpty (contextOf c event).page.referrer
  source := nullIfEmpty (contextOf c event).traffic.source
  medium := nullIfEmpty (contextOf c event).traffic.medium
  campaign := nullIfEmpty (contextOf c event).traffic.campaign
  deviceType := nullIfEmpty (contextOf c event).device.type
  browser := nullIfEmpty (contextOf c event).device.browser
  os := nullIfEmpty (contextOf c event).device.os
  language := nullIfEmpty (contextOf c event).device.language
  screen := nullIfEmpty (contextOf c event).device.screen
  userAgent := nullIfEmpty c.userAgent
  clientIp := c.ip
  networkName := c.networkName
  properties := storedProperties c event
  userProperties := c.userProperties
  sessionProperties := storedSessionProperties c event
  isConversion := conversion
  isInternal := c.isInternal
  trafficClass := c.trafficClass
  environment := c.request.environment
  contractVersion := contractVersionOf event

/-- The event's local day in its environment. -/
def dayOf (eventTime : Instant) : DayKey :=
  ⟨c.siteId, c.env.localDate c.timezone eventTime, c.request.environment⟩

end Event

/-! ## §3. `raw_events`. -/

/-- The index tuple of `raw_events_release_idx`, where the row has one. -/
def releaseFits (env : Platform) (row : RawEvent) : Bool :=
  match row.properties.get "release_version" with
  | none => true
  | some v => env.releaseIndexFits row.environment v

/-- `INSERT … ON CONFLICT(site_id, event_id) DO NOTHING`; whether a row went in. -/
def insertRawEvent (env : Platform) (row : RawEvent) : Body Bool :=
  Tx.exec fun s =>
    if 2147483647 < row.contractVersion then
      .error (.encode ("failed to encode args[28]: unable to encode "
        ++ toString row.contractVersion ++ " into binary format for int4 (OID 23): "
        ++ toString row.contractVersion ++ " is greater than maximum value for int4"))
    else if h : s.rawEvents.Holds row.siteId row.eventId then .ok (false, s)
    else if releaseFits env row then
      .ok (true, { s with rawEvents := s.rawEvents.insert row h })
    else .error .indexRowSize

/-! ## §4. Data quality. -/

namespace Store

/-- `INSERT INTO aggregate_jobs … ON CONFLICT … DO NOTHING` on the partial index
over pending and running late-event jobs. -/
def queueLateEventJob (day : DayKey) (s : Store) : Store :=
  let taken (j : AggregateJob) : Bool :=
    j.siteId = day.siteId ∧ j.environment = day.environment ∧ j.dateFrom = some day.eventDate
      ∧ j.jobType = "late_event" ∧ (j.status = .pending ∨ j.status = .running)
  if s.aggregateJobs.any taken then s
  else
    { s with aggregateJobs :=
        ⟨day.siteId, day.environment, "late_event", some day.eventDate, some day.eventDate, .pending,
          "event arrived more than one hour late", 0⟩ :: s.aggregateJobs }

/-- `INSERT INTO data_quality_dimension_values … ON CONFLICT DO NOTHING`. -/
def addDimensionValue (v : DimensionValue) (s : Store) : Store :=
  if v ∈ s.dimensionValues then s else { s with dimensionValues := v :: s.dimensionValues }

/-- The values noted for a day. -/
def countDimensionValues (day : DayKey) (dimension : String) (s : Store) : Nat :=
  s.dimensionValues.countP (fun v => v.day = day ∧ v.dimension = dimension)

end Store

/-- The event came in more than an hour after it happened. -/
def isLate (receivedUnix : Int) (eventTime : Instant) : Bool :=
  0 < receivedUnix && 3600 * 1000000 < receivedUnix * 1000 - eventTime

/-- `strings.TrimSpace(fmt.Sprint(v)) == "" || v == nil`. -/
def isBlankProperty : Option Json → Bool
  | none => true
  | some .null => true
  | some v => trimSpace v.sprint = ""

/-- The counters one accepted event adds; the payload's privacy counts are
booked with its first accepted event (`unreported`). -/
def acceptedQuality (c : JobContext) (event : IncomingEvent) (eventTime : Instant)
    (unreported : Bool) : Quality where
  accepted := 1
  lateEvents := if isLate c.payload.receivedUnix eventTime then 1 else 0
  missingUserId := if c.userId = "" ∧ ¬c.payload.userIdRefused then 1 else 0
  refusedUserId := if c.userId = "" ∧ c.payload.userIdRefused then 1 else 0
  missingFeature := if isBlankProperty (propertyOf event.properties "feature") then 1 else 0
  unknownNetwork := if c.networkName = "External / Unclassified" then 1 else 0
  piiBlocked := if unreported then c.payload.privacyBlocked else 0
  piiDetected := if unreported then c.payload.piiDetected else 0

/-- The quality row of an event taken. -/
def recordAcceptedQuality (c : JobContext) (event : IncomingEvent) (eventTime : Instant)
    (unreported : Bool) : Body Unit := do
  Tx.update (Store.addQuality ⟨dayOf c eventTime, event.name⟩
    (acceptedQuality c event eventTime unreported))
  if isLate c.payload.receivedUnix eventTime then
    Tx.update (Store.queueLateEventJob (dayOf c eventTime))

/-- `stringProperty`. -/
def stringProperty (properties : Option Properties) (key : String) : String :=
  match propertyOf properties key with
  | none => ""
  | some .null => ""
  | some v => trimSpace v.sprint

/-- The dimensions an event has values for; a map in the source, whose order
does not matter. -/
def dimensionsOf (c : JobContext) (event : IncomingEvent) : List (String × String) :=
  [("event_name", event.name), ("page", pageUrlOf c event), ("network", c.networkName)]
    ++ ["feature", "department", "organization", "release_version", "model", "agent", "tool"].map
      fun key => (key, stringProperty event.properties key)

/-- The hashed value. -/
def dimensionValueOf (c : JobContext) (eventTime : Instant) (d : String × String) :
    DimensionValue :=
  ⟨dayOf c eventTime, d.1, c.env.sha256Hex d.2⟩

/-- The statement that reports a broken limit names two parameters only inside
`jsonb_build_object`, which takes any type: the server cannot prepare it. -/
def insertCardinalityIssue : Body (Option Unit) :=
  Tx.attempt fun _ => .error (.undeterminedParameter 5)

/-- One dimension of `recordCardinality`. -/
def recordDimension (c : JobContext) (event : IncomingEvent) (eventTime : Instant)
    (d : String × String) : Body Unit := do
  if d.2 = "" then return ()
  let v := dimensionValueOf c eventTime d
  let isNew ← Tx.exec fun s => .ok (decide (v ∉ s.dimensionValues), s.addDimensionValue v)
  if isNew then
    let count ← Tx.select (Store.countDimensionValues v.day d.1)
    if count = c.cardinalityLimit + 1 then
      let _ ← Tx.attempt fun s => .ok ((), s.addQuality ⟨v.day, event.name⟩ { cardinalityViolations := 1 })
      let _ ← insertCardinalityIssue

/-- The dimensions in turn. -/
def recordDimensions (c : JobContext) (event : IncomingEvent) (eventTime : Instant) :
    List (String × String) → Body Unit
  | [] => return ()
  | d :: ds => do
    recordDimension c event eventTime d
    recordDimensions c event eventTime ds

/-- `recordCardinality`. -/
def recordCardinality (c : JobContext) (event : IncomingEvent) (eventTime : Instant) : Body Unit :=
  recordDimensions c event eventTime (dimensionsOf c event)

/-! ## §5. Visitors and identities. -/

namespace Store

/-- The upsert into `visitor_identities`. -/
def linkIdentity (key : VisitorKey) (userId : String) (eventTime : Instant) (s : Store) : Store :=
  { s with
    visitorIdentities := s.visitorIdentities.upsert key
      { userId := userId
        firstSeen := (s.visitors.lookup key).elim eventTime Visitor.firstSeen
        linkedAt := eventTime
        lastSeen := eventTime }
      fun i =>
        -- `excluded.first_seen` is the inserted value, not the event's time
        { userId := if i.lastSeen ≤ eventTime then userId else i.userId
          firstSeen := min i.firstSeen ((s.visitors.lookup key).elim eventTime Visitor.firstSeen)
          linkedAt :=
            if eventTime < i.lastSeen then i.linkedAt
            else if i.userId = userId then min i.linkedAt eventTime
            else eventTime
          lastSeen := max i.lastSeen eventTime } }

/-- The user a visitor is linked to. -/
def linkedUser (key : VisitorKey) (s : Store) : Option String :=
  (s.visitorIdentities.lookup key).map VisitorIdentity.userId

/-! `UPDATE … SET user_id = i.user_id FROM visitor_identities i`, for one visitor
in the four tables that show the user. -/

/-- The link, in `visitors`. -/
def exposeInVisitors (key : VisitorKey) (s : Store) : Store :=
  { s with
    visitors := s.visitors.modifyRows fun k v =>
      if k = key then { v with userId := (s.linkedUser key).or v.userId } else v }

/-- The link, in `visitor_sessions`. -/
def exposeInVisitorSessions (key : VisitorKey) (s : Store) : Store :=
  { s with
    visitorSessions := s.visitorSessions.modifyRows fun k v =>
      if k.siteId = key.siteId ∧ k.visitorId = key.visitorId then
        { v with userId := (s.linkedUser key).or v.userId }
      else v }

/-- The link, in `daily_site_visitors`. -/
def exposeInDailyVisitors (key : VisitorKey) (s : Store) : Store :=
  { s with
    dailySiteVisitors := s.dailySiteVisitors.modifyRows fun k v =>
      if k.day.siteId = key.siteId ∧ k.visitorId = key.visitorId then
        { v with userId := (s.linkedUser key).or v.userId }
      else v }

/-- The link, in `daily_site_sessions`. -/
def exposeInDailySessions (key : VisitorKey) (s : Store) : Store :=
  { s with
    dailySiteSessions := s.dailySiteSessions.modifyRows fun k v =>
      if k.day.siteId = key.siteId ∧ v.visitorId = key.visitorId then
        { v with userId := (s.linkedUser key).or v.userId }
      else v }

/-- Remove the users no identity of the site names any more. -/
def removeUnlinkedUsers (siteId : Uuid) (s : Store) : Store :=
  { s with
    identifiedUsers := s.identifiedUsers.deleteRows fun k _ =>
      k.siteId = siteId
        && !s.visitorIdentities.entries.any fun e =>
          e.1.siteId = k.siteId && e.2.userId = k.userId }

/-- The upsert into `visitors`. -/
def countVisitor (key : VisitorKey) (userId : String) (userProperties : Properties)
    (eventTime : Instant) (conversion : Bool) (s : Store) : Store :=
  { s with
    visitors := s.visitors.upsert key
      { userId := (s.linkedUser key).or (nullIfEmpty userId)
        firstSeen := eventTime
        lastSeen := eventTime
        eventCount := 1
        conversionCount := conversion.toNat
        userProperties := userProperties }
      fun v =>
        { userId := (s.linkedUser key).or
            (((s.linkedUser key).or (nullIfEmpty userId)).or v.userId)
          firstSeen := min v.firstSeen eventTime
          lastSeen := max v.lastSeen eventTime
          eventCount := v.eventCount + 1
          conversionCount := v.conversionCount + conversion.toNat
          userProperties :=
            if userProperties ≠ [] ∧ v.lastSeen ≤ eventTime then userProperties
            else v.userProperties } }

/-- `RETURNING coalesce(user_id, '')`. -/
def canonicalUser (key : VisitorKey) (s : Store) : String :=
  ((s.visitors.lookup key).bind Visitor.userId).getD ""

/-- `UPDATE visitor_identities SET last_seen = greatest(last_seen, t)`. -/
def touchIdentity (key : VisitorKey) (eventTime : Instant) (s : Store) : Store :=
  { s with
    visitorIdentities := s.visitorIdentities.modifyRows fun k i =>
      if k = key then { i with lastSeen := max i.lastSeen eventTime } else i }

/-- The upsert into `identified_users`. -/
def countIdentifiedUser (key : VisitorKey) (userId : String) (userProperties : Properties)
    (eventTime : Instant) (s : Store) : Store :=
  { s with
    identifiedUsers := s.identifiedUsers.upsert ⟨key.siteId, userId⟩
      { firstSeen := (s.visitors.lookup key).elim eventTime Visitor.firstSeen
        lastSeen := eventTime
        userProperties := userProperties }
      fun u =>
        { firstSeen := min u.firstSeen ((s.visitors.lookup key).elim eventTime Visitor.firstSeen)
          lastSeen := max u.lastSeen eventTime
          userProperties :=
            if userProperties ≠ [] ∧ u.lastSeen ≤ eventTime then userProperties
            else u.userProperties } }

/-- The upsert into `visitor_sessions`. -/
def countVisitorSession (key : VisitorSessionKey) (userId : String) (eventTime : Instant)
    (s : Store) : Store :=
  { s with
    visitorSessions := s.visitorSessions.upsert key
      ⟨nullIfEmpty userId, eventTime, eventTime⟩
      fun v =>
        { userId := (nullIfEmpty userId).or v.userId
          firstSeen := min v.firstSeen eventTime
          lastSeen := max v.lastSeen eventTime } }

end Store

/-- `updateVisitorIdentity`. -/
def updateVisitorIdentity (key : VisitorKey) (userId : String) (eventTime : Instant) :
    Body Unit := do
  Tx.update (Store.linkIdentity key userId eventTime)
  Tx.update (Store.exposeInVisitors key)
  Tx.update (Store.exposeInVisitorSessions key)
  Tx.update (Store.exposeInDailyVisitors key)
  Tx.update (Store.exposeInDailySessions key)
  Tx.update (Store.removeUnlinkedUsers key.siteId)

/-- `updateVisitor`. -/
def updateVisitor (key : VisitorKey) (userId : String) (userProperties : Properties)
    (eventTime : Instant) (conversion : Bool) : Body String :=
  Tx.exec fun s =>
    let s' := s.countVisitor key userId userProperties eventTime conversion
    .ok (s'.canonicalUser key, s')

/-- `updateIdentifiedUser`. -/
def updateIdentifiedUser (key : VisitorKey) (userId : String) (userProperties : Properties)
    (eventTime : Instant) : Body Unit :=
  Tx.update (Store.countIdentifiedUser key userId userProperties eventTime)

/-- `updateVisitorSession`. -/
def updateVisitorSession (key : VisitorSessionKey) (userId : String) (eventTime : Instant) :
    Body Unit :=
  Tx.update (Store.countVisitorSession key userId eventTime)

/-! ## §6. Sessions. -/

/-- What one event gives its session: the values of the `INSERT`. -/
structure SessionTouch where
  visitorId : String
  userId : String
  eventTime : Instant
  pageView : Bool
  conversion : Bool
  page : Option String
  source : Option String
  medium : Option String
  campaign : Option String
  deviceType : Option String
  activeMs : Int
  heartbeat : Bool
  interaction : Bool
  sessionProperties : Properties

/-- What an event brings to its session. -/
def sessionTouch (c : JobContext) (event : IncomingEvent) (eventTime : Instant)
    (canonicalUser : String) (conversion : Bool) : SessionTouch where
  visitorId := c.request.visitorId
  userId := canonicalUser
  eventTime := eventTime
  pageView := event.name = "page_view"
  conversion := conversion
  page := if event.name = "page_view" then nullIfEmpty (pageUrlOf c event) else none
  source := nullIfEmpty (contextOf c event).traffic.source
  medium := nullIfEmpty (contextOf c event).traffic.medium
  campaign := nullIfEmpty (contextOf c event).traffic.campaign
  deviceType := nullIfEmpty (contextOf c event).device.type
  activeMs := activeEngagementMilliseconds c.env event
  heartbeat := event.name = "user_engagement"
  interaction := isInteractionEvent event.name
  sessionProperties := storedSessionProperties c event

/-- `engagement_threshold_seconds` of a site. -/
def Config.threshold (config : Config) (siteId : Uuid) : Nat :=
  (config.sites.lookup siteId).elim 0 Site.engagementThresholdSeconds

/-- The row a session starts with. -/
def SessionTouch.insert (t : SessionTouch) (threshold : Nat) : Session where
  visitorId := t.visitorId
  userId := nullIfEmpty t.userId
  startedAt := t.eventTime
  lastEventAt := t.eventTime
  eventCount := 1
  pageViews := t.pageView.toNat
  conversionCount := t.conversion.toNat
  engaged := 0 < t.conversion.toNat ∨ 2 ≤ t.pageView.toNat ∨ (threshold : Int) * 1000 ≤ t.activeMs
  landingPage := t.page
  exitPage := t.page
  source := t.source
  medium := t.medium
  campaign := t.campaign
  deviceType := t.deviceType
  activeEngagementMs := t.activeMs
  heartbeatCount := t.heartbeat.toNat
  interactionCount := t.interaction.toNat
  sessionProperties := t.sessionProperties

/-- `DO UPDATE SET …`, column by column. -/
def SessionTouch.update (t : SessionTouch) (threshold : Nat) (r : Session) : Session where
  visitorId := t.visitorId
  userId := (nullIfEmpty t.userId).or r.userId
  startedAt := min r.startedAt t.eventTime
  lastEventAt := max r.lastEventAt t.eventTime
  eventCount := r.eventCount + 1
  pageViews := r.pageViews + t.pageView.toNat
  conversionCount := r.conversionCount + t.conversion.toNat
  engaged :=
    (threshold : Int) * 1000000 ≤ max r.lastEventAt t.eventTime - min r.startedAt t.eventTime
      ∨ 0 < r.conversionCount + t.conversion.toNat
      ∨ 2 ≤ r.pageViews + t.pageView.toNat
      ∨ (threshold : Int) * 1000 ≤ r.activeEngagementMs + t.activeMs
  landingPage :=
    if t.eventTime < r.startedAt ∧ t.page ≠ none then t.page else r.landingPage.or t.page
  exitPage := if r.lastEventAt ≤ t.eventTime ∧ t.page ≠ none then t.page else r.exitPage
  source := r.source.or t.source
  medium := r.medium.or t.medium
  campaign := r.campaign.or t.campaign
  deviceType := r.deviceType.or t.deviceType
  activeEngagementMs := r.activeEngagementMs + t.activeMs
  heartbeatCount := r.heartbeatCount + t.heartbeat.toNat
  interactionCount := r.interactionCount + t.interaction.toNat
  sessionProperties :=
    if r.lastEventAt ≤ t.eventTime then r.sessionProperties.concat t.sessionProperties
    else t.sessionProperties.concat r.sessionProperties

/-- The upsert into `sessions`. -/
def Store.touchSession (key : SessionKey) (t : SessionTouch) (s : Store) : Store :=
  { s with
    sessions := s.sessions.upsert key (t.insert (s.config.threshold key.siteId))
      (t.update (s.config.threshold key.siteId)) }

/-- A `bigint` holds it. -/
def fitsBigint (n : Int) : Bool := -(2 ^ 63) ≤ n && n < 2 ^ 63

/-- The running total of active milliseconds stays a `bigint`. -/
def Store.engagementFits (key : SessionKey) (t : SessionTouch) (s : Store) : Bool :=
  (s.sessions.lookup key).elim true (fun r => fitsBigint (r.activeEngagementMs + t.activeMs))

/-- The session of a job. -/
def sessionKeyOf (c : JobContext) : SessionKey :=
  ⟨c.siteId, c.request.environment, c.request.sessionId⟩

/-- `updateSession`. -/
def updateSession (key : SessionKey) (t : SessionTouch) : Body Unit :=
  Tx.exec fun s =>
    if s.engagementFits key t then .ok ((), s.touchSession key t) else .error .bigintOutOfRange

/-! ## §7. Daily aggregates. -/

namespace Store

/-- The sum `revenue + excluded.revenue`, as the column takes it. -/
def revenueAfter (day : DayKey) (excluded : Numeric) (s : Store) : Except DbError Numeric :=
  match s.dailySiteMetrics.lookup day with
  | none => .ok excluded
  | some m => storeNumeric24_6 (m.revenue + excluded)

/-- The upsert into `daily_site_metrics`, the new revenue worked out. -/
def countMetrics (day : DayKey) (pageView conversion : Bool) (revenue : Numeric) (s : Store) :
    Store :=
  { s with
    dailySiteMetrics := s.dailySiteMetrics.upsert day
      ⟨1, pageView.toNat, conversion.toNat, revenue⟩
      fun m => ⟨m.events + 1, m.pageViews + pageView.toNat,
        m.conversions + conversion.toNat, revenue⟩ }

/-- The upsert into `daily_site_visitors`. -/
def countDailyVisitor (key : DayVisitorKey) (userId : String) (userProperties : Properties)
    (eventTime : Instant) (conversion : Bool) (s : Store) : Store :=
  { s with
    dailySiteVisitors := s.dailySiteVisitors.upsert key
      { userId := nullIfEmpty userId
        firstSeen := eventTime
        lastSeen := eventTime
        eventCount := 1
        conversionCount := conversion.toNat
        userProperties := userProperties }
      fun v =>
        { userId := (nullIfEmpty userId).or v.userId
          firstSeen := min v.firstSeen eventTime
          lastSeen := max v.lastSeen eventTime
          eventCount := v.eventCount + 1
          conversionCount := v.conversionCount + conversion.toNat
          userProperties :=
            if userProperties ≠ [] ∧ v.lastSeen ≤ eventTime then userProperties
            else v.userProperties } }

/-- The upsert into `daily_site_sessions`. -/
def countDailySession (key : DaySessionKey) (visitorId userId : String) (eventTime : Instant)
    (s : Store) : Store :=
  { s with
    dailySiteSessions := s.dailySiteSessions.upsert key
      ⟨visitorId, nullIfEmpty userId, eventTime, eventTime⟩
      fun v =>
        { visitorId := visitorId
          userId := (nullIfEmpty userId).or v.userId
          firstSeen := min v.firstSeen eventTime
          lastSeen := max v.lastSeen eventTime } }

end Store

/-- `updateDailyAggregates`. -/
def updateDailyAggregates (c : JobContext) (event : IncomingEvent) (eventTime : Instant)
    (canonicalUser : String) (conversion : Bool) : Body Unit := do
  Tx.exec fun s => do
    let excluded ← excludedRevenue (eventRevenue event)
    let revenue ← s.revenueAfter (dayOf c eventTime) excluded
    return ((), s.countMetrics (dayOf c eventTime) (event.name = "page_view") conversion revenue)
  Tx.update (Store.countDailyVisitor ⟨dayOf c eventTime, c.request.visitorId⟩ canonicalUser
    c.userProperties eventTime conversion)
  Tx.update (Store.countDailySession ⟨dayOf c eventTime, c.request.sessionId⟩
    c.request.visitorId canonicalUser eventTime)

/-! ## §8. One event. -/

/-- The visitor of a job. -/
def visitorKeyOf (c : JobContext) : VisitorKey := ⟨c.siteId, c.request.visitorId⟩

/-- Everything that follows a successful insert. -/
def updateDerived (c : JobContext) (event : IncomingEvent) (eventTime : Instant)
    (conversion unreported : Bool) : Body Unit := do
  recordAcceptedQuality c event eventTime unreported
  recordCardinality c event eventTime
  if c.userId ≠ "" then updateVisitorIdentity (visitorKeyOf c) c.userId eventTime
  let canonical ← updateVisitor (visitorKeyOf c) c.userId c.userProperties eventTime conversion
  if canonical ≠ "" then
    Tx.update (Store.touchIdentity (visitorKeyOf c) eventTime)
    updateIdentifiedUser (visitorKeyOf c) canonical c.userProperties eventTime
  updateSession (sessionKeyOf c) (sessionTouch c event eventTime canonical conversion)
  updateVisitorSession ⟨c.siteId, c.request.visitorId, c.request.sessionId⟩ canonical eventTime
  updateDailyAggregates c event eventTime canonical conversion

/-- The counter of a duplicate; its error is dropped. -/
def recordDuplicate (c : JobContext) (event : IncomingEvent) (eventTime : Instant) :
    Body (Option Unit) :=
  Tx.attempt fun s => .ok ((), s.addQuality ⟨dayOf c eventTime, event.name⟩ { duplicates := 1 })

/-- The conversion flag of the event's definition, where there is one. -/
def definedConversion (siteId : Uuid) (name : String) (s : Store) : Bool :=
  (s.config.eventDefinitions.lookup ⟨siteId, name⟩).elim false EventDefinition.conversion

/-- One round of the loop; `unreported` says that the payload's privacy counts
are still to be booked, and comes back for the next round. -/
def processEvent (c : JobContext) (unreported : Bool) (event : IncomingEvent)
    (readings : EventReadings) : Body Bool :=
  match eventIdOf c event readings with
  | .error e => Tx.fail e
  | .ok eventId => do
    let eventTime := eventTimeOf c event readings
    let conversion ←
      if isConversionName event then pure true
      else do
        let defined ← Tx.attempt fun s => .ok (definedConversion c.siteId event.name s, s)
        pure (defined.getD false)
    let inserted ← insertRawEvent c.env (rawEventOf c event eventId eventTime conversion)
    if inserted then
      updateDerived c event eventTime conversion unreported
      return false
    else
      let _ ← recordDuplicate c event eventTime
      return unreported

/-! ## §9. One job. -/

/-- The events, each with what it reads while it is processed. -/
def timed (events : List IncomingEvent) (readings : Nat → EventReadings) :
    List (IncomingEvent × EventReadings) :=
  events.mapIdx fun i e => (e, readings i)

/-- The events of a payload in turn. -/
def processEvents (c : JobContext) (unreported : Bool) :
    List (IncomingEvent × EventReadings) → Body Unit
  | [] => return ()
  | (event, readings) :: rest => do
    let unreported ← processEvent c unreported event readings
    processEvents c unreported rest

/-- `if p.Request.Environment == ""`. -/
def InboxPayload.withEnvironment (p : InboxPayload) : InboxPayload :=
  if p.request.environment = "" then { p with request := { p.request with environment := "prd" } }
  else p

/-- The site's timezone and the environment's limit. -/
def siteSettings (siteId : Uuid) (environment : String) (s : Store) :
    Except DbError (String × Nat) :=
  match s.config.sites.lookup siteId, s.config.siteEnvironments.lookup ⟨siteId, environment⟩ with
  | some site, some e => .ok (site.timezone, e.cardinalityLimit)
  | _, _ => .error .noRows

/-- The address that is stored. -/
def storedIp (env : Platform) (policy : Policy) (clientIp : String) : Option IpAddress :=
  let ip := env.parseIp (trimSpace clientIp)
  if policy.ipAnonymization then ip.map anonymizeIp else ip

/-- The transaction of a job. -/
def processPayload (env : Platform) (policy : Policy) (siteId : Uuid) (p : InboxPayload)
    (readings : Nat → EventReadings) : Body Unit := do
  let (timezone, cardinalityLimit) ← Tx.exec fun s =>
    (siteSettings siteId p.request.environment s).map fun x => (x, s)
  if !env.loadLocation timezone then
    Tx.fail (.program ("invalid site timezone " ++ env.quote timezone ++ ": unknown time zone "
      ++ timezone))
  else
    let ip := storedIp env policy p.clientIp
    let network ← match ip with
      | none => pure none
      | some address => do
        let found ← Tx.attempt fun s => .ok (networkOf s.config.networkRanges address, s)
        pure (found.getD none)
    processEvents
      { env := env, policy := policy, siteId := siteId, payload := p, timezone := timezone
        cardinalityLimit := cardinalityLimit, ip := ip
        networkName := network.elim "External / Unclassified" NetworkRange.name
        isInternal := network.elim false NetworkRange.internal }
      true (timed p.request.events readings)

/-- `Worker.processOne` on a stored payload, as `json.Unmarshal` reads it. -/
def processOne (env : Platform) (policy : Policy) (siteId : Uuid)
    (payload : Except String InboxPayload) (readings : Nat → EventReadings) : Body Unit :=
  match payload with
  | .error message => Tx.fail (.program message)
  | .ok p => processPayload env policy siteId p.withEnvironment readings

end Momento
