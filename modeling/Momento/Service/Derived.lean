/-
  Momento.Service.Derived

  **THE REBUILD.**  `RebuildSiteDerivedData` empties the derived tables of a site
  and fills them again from its raw events, one `INSERT … SELECT … GROUP BY` per
  table.  Here are the statements for sessions, visitors, identities and daily
  metrics: a row function on the group (`…Row`) and the table over all groups.

  The other half of each row, the engagement flag, is written in a third place
  when a site's threshold is changed (`updateSite`); it stands here too.
-/
import Momento.Foundation.OrderedAggregate
import Momento.Service.Process

namespace Momento

open Foundation

/-! ## §1. Keys and column shorthands. -/

namespace RawEvent

/-- The visitor of a row. -/
def visitorKey (r : RawEvent) : VisitorKey := ⟨r.siteId, r.visitorId⟩

/-- The session of a row. -/
def sessionKey (r : RawEvent) : SessionKey := ⟨r.siteId, r.environment, r.sessionId⟩

/-- `e.event_name='page_view' AND e.page_url IS NOT NULL`. -/
def page (r : RawEvent) : Option String := if r.eventName = "page_view" then r.pageUrl else none

end RawEvent

/-- `array_agg(col ORDER BY event_timestamp, id) FILTER(WHERE col IS NOT NULL)[1]`. -/
abbrev firstTouch {α : Type} (col : RawEvent → Option α) (rows : List RawEvent) : Option α :=
  earliest RawEvent.eventTimestamp RawEvent.id col rows

/-- `array_agg(col ORDER BY event_timestamp DESC, id DESC) FILTER(WHERE col IS NOT NULL)[1]`. -/
abbrev lastTouch {α : Type} (col : RawEvent → Option α) (rows : List RawEvent) : Option α :=
  latest RawEvent.eventTimestamp RawEvent.id col rows

/-- The row `firstTouch` takes its answer from. -/
abbrev firstRow {α : Type} (rows : List RawEvent) (col : RawEvent → Option α) : Option RawEvent :=
  earliestRow RawEvent.eventTimestamp RawEvent.id col rows

/-- The row `lastTouch` takes its answer from. -/
abbrev lastRow {α : Type} (rows : List RawEvent) (col : RawEvent → Option α) : Option RawEvent :=
  latestRow RawEvent.eventTimestamp RawEvent.id col rows

/-- `min(event_timestamp)`. -/
abbrev firstTime (rows : List RawEvent) : Option Instant := minTime RawEvent.eventTimestamp rows

/-- `max(event_timestamp)`. -/
abbrev lastTime (rows : List RawEvent) : Option Instant := maxTime RawEvent.eventTimestamp rows

theorem firstTime_cons (e : RawEvent) (rows : List RawEvent) :
    firstTime (e :: rows)
      = some ((firstTime rows).elim e.eventTimestamp (min e.eventTimestamp)) :=
  minTime_cons e rows

theorem lastTime_cons (e : RawEvent) (rows : List RawEvent) :
    lastTime (e :: rows)
      = some ((lastTime rows).elim e.eventTimestamp (max e.eventTimestamp)) :=
  maxTime_cons e rows

/-- `WHERE site_id = $1`. -/
def siteRows (siteId : Uuid) (rows : List RawEvent) : List RawEvent :=
  rows.filter (fun r => r.siteId = siteId)

/-- Restricting to the site first does not change a group of that site. -/
theorem groupOf_siteRows {κ : Type} [DecidableEq κ] {key : RawEvent → κ} {k : κ} {siteId : Uuid}
    {rows : List RawEvent} (hsite : ∀ r, key r = k → r.siteId = siteId) :
    Table.groupOf key (siteRows siteId rows) k = Table.groupOf key rows k :=
  Table.groupOf_filter fun r hr => decide_eq_true (hsite r hr)

/-! ## §2. Sessions. -/

/-- `property_entries` and `property_sets`: for every key the value of the last
row that carries it. -/
def latestProperties (rows : List RawEvent) : Properties :=
  (((rows.flatMap (·.sessionProperties)).map Prod.fst).dedup.insertionSort (· ≤ ·)).filterMap
    fun key => (lastTouch (fun r => r.sessionProperties.get key) rows).map (key, ·)

/-- `extract(epoch FROM (last_event_at - started_at)) >= threshold OR …`, the
flag `rebuildSessionsSQL` and `updateSite` compute alike. -/
def engagedFlag (threshold : Nat) (startedAt lastEventAt : Instant)
    (conversionCount pageViews : Nat) (activeEngagementMs : Int) : Bool :=
  (threshold : Int) * 1000000 ≤ lastEventAt - startedAt
    ∨ 0 < conversionCount
    ∨ 2 ≤ pageViews
    ∨ (threshold : Int) * 1000 ≤ activeEngagementMs

/-- `coalesce(sum(…),0)::bigint`. -/
def activeEngagementSum (rows : List RawEvent) : Int :=
  roundHalfAway (rows.map activeMillisecondsSql).sum

/-- The row `rebuildSessionsSQL` inserts for one group. -/
def rebuildSessionRow (threshold : Nat) (rows : List RawEvent) : Session where
  visitorId := (firstTouch (fun r => some r.visitorId) rows).getD ""
  userId := lastTouch RawEvent.userId rows
  startedAt := (firstTime rows).getD 0
  lastEventAt := (lastTime rows).getD 0
  eventCount := rows.length
  pageViews := rows.countP (fun r => r.eventName = "page_view")
  conversionCount := rows.countP RawEvent.isConversion
  engaged := engagedFlag threshold ((firstTime rows).getD 0) ((lastTime rows).getD 0)
    (rows.countP RawEvent.isConversion) (rows.countP (fun r => r.eventName = "page_view"))
    (activeEngagementSum rows)
  landingPage := firstTouch RawEvent.page rows
  exitPage := lastTouch RawEvent.page rows
  source := firstTouch RawEvent.source rows
  medium := firstTouch RawEvent.medium rows
  campaign := firstTouch RawEvent.campaign rows
  deviceType := firstTouch RawEvent.deviceType rows
  activeEngagementMs := activeEngagementSum rows
  heartbeatCount := rows.countP (fun r => r.eventName = "user_engagement")
  interactionCount := rows.countP (fun r => isInteractionEvent r.eventName)
  sessionProperties := latestProperties rows

/-- `rebuildSessionsSQL`. -/
def rebuildSessions (siteId : Uuid) (s : Store) : Table SessionKey Session :=
  Table.groupRows RawEvent.sessionKey (fun _ rows => rebuildSessionRow (s.config.threshold siteId) rows)
    (siteRows siteId s.rawEvents.rows)

/-- `updateSite`: the engagement flag of every session of the site, recomputed
for the threshold. -/
def recomputeEngaged (siteId : Uuid) (threshold : Nat) (sessions : Table SessionKey Session) :
    Table SessionKey Session :=
  sessions.modifyRows fun k r =>
    if k.siteId = siteId then
      { r with engaged := engagedFlag threshold r.startedAt r.lastEventAt r.conversionCount
                 r.pageViews r.activeEngagementMs }
    else r

/-! ## §3. Visitors and identities. -/

/-- The row `rebuildVisitorsSQL` inserts for one group. -/
def rebuildVisitorRow (rows : List RawEvent) : Visitor where
  userId := lastTouch RawEvent.userId rows
  firstSeen := (firstTime rows).getD 0
  lastSeen := (lastTime rows).getD 0
  eventCount := rows.length
  conversionCount := rows.countP RawEvent.isConversion
  userProperties :=
    (lastTouch (fun r => if r.userProperties = [] then none else some r.userProperties) rows).getD []

/-- `rebuildVisitorsSQL`. -/
def rebuildVisitors (siteId : Uuid) (s : Store) : Table VisitorKey Visitor :=
  Table.groupRows RawEvent.visitorKey (fun _ rows => rebuildVisitorRow rows)
    (siteRows siteId s.rawEvents.rows)

/-- The CTE `linked`: when the visitor was first seen as this user. -/
def linkedAt (userId : String) (rows : List RawEvent) : Option Instant :=
  firstTime (rows.filter (fun r => r.userId = some userId))

/-- The join of `bounds`, `latest` and `linked` for one visitor: no row for one
who was never identified. -/
def rebuildIdentityRow (rows : List RawEvent) : Option VisitorIdentity :=
  (lastTouch RawEvent.userId rows).map fun userId =>
    { userId := userId
      firstSeen := (firstTime rows).getD 0
      linkedAt := (linkedAt userId rows).getD 0
      lastSeen := (lastTime rows).getD 0 }

/-- `rebuildIdentitiesSQL`: the row of one visitor. -/
def rebuildIdentity (key : VisitorKey) (s : Store) : Option VisitorIdentity :=
  rebuildIdentityRow (Table.groupOf RawEvent.visitorKey s.rawEvents.rows key)

/-! ## §4. Daily metrics. -/

/-- `(event_timestamp AT TIME ZONE s.timezone)::date` and the other group
columns. -/
def RawEvent.dayKey (env : Platform) (timezone : String) (r : RawEvent) : DayKey :=
  ⟨r.siteId, env.localDate timezone r.eventTimestamp, r.environment⟩

/-- The row `rebuildDailyMetricsSQL` inserts for one group; the statement fails
where an amount cannot be cast or the revenue does not fit its column. -/
def rebuildMetricsRow (rows : List RawEvent) : Except DbError DailyMetrics := do
  let amounts ← rows.mapM revenueAmountSql
  let revenue ← storeNumeric24_6 (.fin amounts.sum)
  return { events := rows.length
           pageViews := rows.countP (fun r => r.eventName = "page_view")
           conversions := rows.countP RawEvent.isConversion
           revenue := revenue }

/-- `rebuildDailyMetricsSQL`, which joins the site for its time zone. -/
def rebuildDailyMetrics (env : Platform) (siteId : Uuid) (s : Store) :
    Table DayKey (Except DbError DailyMetrics) :=
  (s.config.sites.lookup siteId).elim ∅ fun site =>
    Table.groupRows (RawEvent.dayKey env site.timezone) (fun _ rows => rebuildMetricsRow rows)
      (siteRows siteId s.rawEvents.rows)

/-- `rebuildRangeDailyMetricsSQL`: the days from `first` to `last` of one
environment. -/
def rebuildRangeDailyMetrics (env : Platform) (siteId : Uuid) (environment : String)
    (first last : Date) (s : Store) : Table DayKey (Except DbError DailyMetrics) :=
  (s.config.sites.lookup siteId).elim ∅ fun site =>
    Table.groupRows (RawEvent.dayKey env site.timezone) (fun _ rows => rebuildMetricsRow rows)
      ((siteRows siteId s.rawEvents.rows).filter fun r =>
        r.environment = environment ∧ first ≤ (r.dayKey env site.timezone).eventDate
          ∧ (r.dayKey env site.timezone).eventDate ≤ last)

end Momento
