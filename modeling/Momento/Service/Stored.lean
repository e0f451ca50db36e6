/-
  Momento.Service.Stored

  **WHAT A JOB LEAVES BEHIND.**  Each body of `Process` gets one rule: when it
  commits and what the store is then.  Read from the bottom:

      processOne commits   ⟺   the payload decodes, the site's settings are there,
                               and every event FITS the store it meets
      the store then       =   the events applied one after the other

  `EventFits` is the exact list of what can go wrong on a server without faults;
  everything later argues about the applied events and never unfolds a body.
-/
import Momento.Service.Derived

namespace Momento

open Foundation

/-! ## §1. The store after each group of statements. -/

namespace Store

/-- After `recordAcceptedQuality`. -/
def acceptQuality (c : JobContext) (event : IncomingEvent) (eventTime : Instant)
    (unreported : Bool) (s : Store) : Store :=
  let s := s.addQuality ⟨dayOf c eventTime, event.name⟩ (acceptedQuality c event eventTime unreported)
  if isLate c.payload.receivedUnix eventTime then s.queueLateEventJob (dayOf c eventTime) else s

/-- After `recordCardinality`, no limit having been met. -/
def addDimensions (c : JobContext) (eventTime : Instant) (ds : List (String × String))
    (s : Store) : Store :=
  ds.foldl (fun s d => if d.2 = "" then s else s.addDimensionValue (dimensionValueOf c eventTime d)) s

/-- After `updateVisitorIdentity`, where it is called. -/
def identify (key : VisitorKey) (userId : String) (eventTime : Instant) (s : Store) : Store :=
  if userId ≠ "" then
    (((((s.linkIdentity key userId eventTime).exposeInVisitors key).exposeInVisitorSessions
      key).exposeInDailyVisitors key).exposeInDailySessions key).removeUnlinkedUsers key.siteId
  else s

/-- After the statements a known user adds. -/
def touchLinked (key : VisitorKey) (canonical : String) (userProperties : Properties)
    (eventTime : Instant) (s : Store) : Store :=
  if canonical ≠ "" then
    (s.touchIdentity key eventTime).countIdentifiedUser key canonical userProperties eventTime
  else s

/-- After `updateDailyAggregates`. -/
def countDay (c : JobContext) (event : IncomingEvent) (eventTime : Instant) (canonical : String)
    (conversion : Bool) (revenue : Numeric) (s : Store) : Store :=
  ((s.countMetrics (dayOf c eventTime) (event.name = "page_view") conversion
    revenue).countDailyVisitor ⟨dayOf c eventTime, c.request.visitorId⟩ canonical
    c.userProperties eventTime conversion).countDailySession
      ⟨dayOf c eventTime, c.request.sessionId⟩ c.request.visitorId canonical eventTime

/-- The store in which the visitor's upsert runs. -/
def beforeVisitor (c : JobContext) (event : IncomingEvent) (eventTime : Instant)
    (unreported : Bool) (s : Store) : Store :=
  ((s.acceptQuality c event eventTime unreported).addDimensions c eventTime
    (dimensionsOf c event)).identify (visitorKeyOf c) c.userId eventTime

/-- The store after the visitor's upsert. -/
def afterVisitor (c : JobContext) (event : IncomingEvent) (eventTime : Instant)
    (conversion unreported : Bool) (s : Store) : Store :=
  (s.beforeVisitor c event eventTime unreported).countVisitor (visitorKeyOf c) c.userId
    c.userProperties eventTime conversion

/-- The user the visitor's upsert returns. -/
def canonicalAfter (c : JobContext) (event : IncomingEvent) (eventTime : Instant)
    (conversion unreported : Bool) (s : Store) : String :=
  (s.afterVisitor c event eventTime conversion unreported).canonicalUser (visitorKeyOf c)

/-- The store after `updateVisitorSession`. -/
def afterSession (c : JobContext) (event : IncomingEvent) (eventTime : Instant)
    (conversion unreported : Bool) (s : Store) : Store :=
  let canonical := s.canonicalAfter c event eventTime conversion unreported
  (((s.afterVisitor c event eventTime conversion unreported).touchLinked (visitorKeyOf c) canonical
    c.userProperties eventTime).touchSession (sessionKeyOf c)
      (sessionTouch c event eventTime canonical conversion)).countVisitorSession
        ⟨c.siteId, c.request.visitorId, c.request.sessionId⟩ canonical eventTime

end Store

/-! ## §2. What an event needs of the store. -/

namespace Store

/-- No new value is the one right after the limit. -/
def DimensionsFit (c : JobContext) (eventTime : Instant) :
    List (String × String) → Store → Prop
  | [], _ => True
  | d :: ds, s =>
    (d.2 = "" ∨ dimensionValueOf c eventTime d ∈ s.dimensionValues
      ∨ s.countDimensionValues (dayOf c eventTime) d.1 ≠ c.cardinalityLimit)
    ∧ DimensionsFit c eventTime ds
        (if d.2 = "" then s else s.addDimensionValue (dimensionValueOf c eventTime d))

/-- The revenue column after the event. -/
def nextRevenue (day : DayKey) (event : IncomingEvent) (s : Store) : Except DbError Numeric := do
  s.revenueAfter day (← excludedRevenue (eventRevenue event))

end Store

/-- An event on its way into the tables, with all the body worked out for it. -/
structure Arrival where
  context : JobContext
  event : IncomingEvent
  eventId : Uuid
  eventTime : Instant
  conversion : Bool
  unreported : Bool

namespace Arrival

variable (a : Arrival)

/-- The raw row. -/
def row : RawEvent := rawEventOf a.context a.event a.eventId a.eventTime a.conversion

/-- Its visitor. -/
def visitorKey : VisitorKey := visitorKeyOf a.context

/-- Its session. -/
def sessionKey : SessionKey := sessionKeyOf a.context

/-- Its day. -/
def day : DayKey := dayOf a.context a.eventTime

/-- The event is in the store already. -/
def Known (s : Store) : Prop := s.rawEvents.Holds a.context.siteId a.eventId

instance (s : Store) : Decidable (a.Known s) := inferInstanceAs (Decidable (RawEvents.Holds _ _ _))

/-- What the statements after the insert need. -/
def DerivedFits (s : Store) : Prop :=
  s.DimensionsFit a.context a.eventTime (dimensionsOf a.context a.event)
    ∧ s.engagementFits a.sessionKey
        (sessionTouch a.context a.event a.eventTime "" a.conversion)
    ∧ ∃ revenue, s.nextRevenue a.day a.event = .ok revenue

/-- **Everything the event needs to be stored** on a server without faults. -/
def Fits (s : Store) : Prop :=
  a.row.contractVersion ≤ 2147483647
    ∧ (a.Known s ∨ (releaseFits a.context.env a.row = true ∧ a.DerivedFits s))

/-- The user the visitor is shown as once the event is in. -/
def canonical (s : Store) : String :=
  s.canonicalAfter a.context a.event a.eventTime a.conversion a.unreported

/-- The derived tables after the event. -/
def derive (s : Store) : Store :=
  (s.afterSession a.context a.event a.eventTime a.conversion a.unreported).countDay a.context
    a.event a.eventTime (a.canonical s) a.conversion
    ((s.nextRevenue a.day a.event).toOption.getD (.fin 0))

/-- The store after an event that was not in it. -/
def store (s : Store) (h : ¬a.Known s) : Store :=
  a.derive { s with rawEvents := s.rawEvents.insert a.row h }

/-- The store after the event: a known one is only counted. -/
def apply (s : Store) : Store :=
  if h : a.Known s then s.addQuality ⟨a.day, a.event.name⟩ { duplicates := 1 } else a.store s h

/-- Whether the payload's privacy counts are still to be booked afterwards. -/
def stillUnreported (s : Store) : Bool := if a.Known s then a.unreported else false

end Arrival

theorem Arrival.apply_known {a : Arrival} {s : Store} (h : a.Known s) :
    a.apply s = s.addQuality ⟨a.day, a.event.name⟩ { duplicates := 1 } := dif_pos h

theorem Arrival.apply_new {a : Arrival} {s : Store} (h : ¬a.Known s) : a.apply s = a.store s h :=
  dif_neg h

theorem Arrival.stillUnreported_known {a : Arrival} {s : Store} (h : a.Known s) :
    a.stillUnreported s = a.unreported := if_pos h

theorem Arrival.stillUnreported_new {a : Arrival} {s : Store} (h : ¬a.Known s) :
    a.stillUnreported s = false := if_neg h

/-- The conversion flag the body works out for an event. -/
def conversionOf (c : JobContext) (event : IncomingEvent) (s : Store) : Bool :=
  isConversionName event || definedConversion c.siteId event.name s

/-- The arrival of an event that has an id. -/
def arrivalOf (c : JobContext) (unreported : Bool) (event : IncomingEvent)
    (readings : EventReadings) (eventId : Uuid) (s : Store) : Arrival :=
  ⟨c, event, eventId, eventTimeOf c event readings, conversionOf c event s, unreported⟩

/-! ## §3. The rules of the bodies. -/

theorem commits_recordAcceptedQuality {c : JobContext} {event : IncomingEvent}
    {eventTime : Instant} {unreported : Bool} {s s' : Store} {u : Unit} :
    (recordAcceptedQuality c event eventTime unreported).Commits s u s'
      ↔ s' = s.acceptQuality c event eventTime unreported := by
  unfold recordAcceptedQuality Store.acceptQuality
  by_cases hlate : isLate c.payload.receivedUnix eventTime = true
  · simp [hlate, eq_comm]
  · simp [hlate]

theorem countDimensionValues_add (v : DimensionValue) (s : Store) (h : v ∉ s.dimensionValues) :
    (s.addDimensionValue v).countDimensionValues v.day v.dimension
      = s.countDimensionValues v.day v.dimension + 1 := by
  simp [Store.addDimensionValue, h, Store.countDimensionValues]

@[simp] theorem dimensionValueOf_day (c : JobContext) (eventTime : Instant) (d : String × String) :
    (dimensionValueOf c eventTime d).day = dayOf c eventTime := rfl

theorem commits_recordDimension {c : JobContext} {event : IncomingEvent} {eventTime : Instant}
    {d : String × String} {s s' : Store} {u : Unit} :
    (recordDimension c event eventTime d).Commits s u s'
      ↔ (d.2 = "" ∨ dimensionValueOf c eventTime d ∈ s.dimensionValues
          ∨ s.countDimensionValues (dayOf c eventTime) d.1 ≠ c.cardinalityLimit)
        ∧ s' = (if d.2 = "" then s else s.addDimensionValue (dimensionValueOf c eventTime d)) := by
  unfold recordDimension
  by_cases hempty : d.2 = ""
  · simp [hempty]
  by_cases hold : dimensionValueOf c eventTime d ∈ s.dimensionValues
  · simp [hempty, hold, eq_comm]
  · have hcount : (s.addDimensionValue (dimensionValueOf c eventTime d)).countDimensionValues
        (dayOf c eventTime) d.1 = s.countDimensionValues (dayOf c eventTime) d.1 + 1 :=
      countDimensionValues_add _ s hold
    by_cases hlimit : s.countDimensionValues (dayOf c eventTime) d.1 = c.cardinalityLimit
    · simp [hempty, hold, hlimit, hcount, insertCardinalityIssue]
    · simp [hempty, hold, hlimit, hcount, eq_comm]

theorem commits_recordDimensions {c : JobContext} {event : IncomingEvent} {eventTime : Instant}
    (ds : List (String × String)) {s s' : Store} {u : Unit} :
    (recordDimensions c event eventTime ds).Commits s u s'
      ↔ s.DimensionsFit c eventTime ds ∧ s' = s.addDimensions c eventTime ds := by
  induction ds generalizing s with
  | nil => simp [recordDimensions, Store.DimensionsFit, Store.addDimensions]
  | cons d ds ih =>
    simp only [recordDimensions, Tx.commits_bind, commits_recordDimension, ih,
      Store.DimensionsFit, Store.addDimensions, List.foldl_cons]
    constructor
    · rintro ⟨_, t, ⟨hd, rfl⟩, hds, hs⟩
      exact ⟨⟨hd, hds⟩, hs⟩
    · rintro ⟨⟨hd, hds⟩, hs⟩
      exact ⟨(), _, ⟨hd, rfl⟩, hds, hs⟩

theorem commits_updateVisitorIdentity {key : VisitorKey} {userId : String} {eventTime : Instant}
    {s s' : Store} {u : Unit} (h : userId ≠ "") :
    (updateVisitorIdentity key userId eventTime).Commits s u s'
      ↔ s' = s.identify key userId eventTime := by
  simp [updateVisitorIdentity, Store.identify, h, eq_comm]

theorem commits_updateDailyAggregates {c : JobContext} {event : IncomingEvent}
    {eventTime : Instant} {canonical : String} {conversion : Bool} {s s' : Store} {u : Unit} :
    (updateDailyAggregates c event eventTime canonical conversion).Commits s u s'
      ↔ ∃ revenue, s.nextRevenue (dayOf c eventTime) event = .ok revenue
          ∧ s' = s.countDay c event eventTime canonical conversion revenue := by
  unfold updateDailyAggregates Store.nextRevenue Store.countDay
  simp only [Tx.commits_bind, Tx.commits_exec]
  cases he : excludedRevenue (eventRevenue event) with
  | error e => simp [bind, Except.bind]
  | ok x =>
    cases hr : s.revenueAfter (dayOf c eventTime) x with
    | error e => simp [bind, Except.bind, hr]
    | ok revenue => simp [bind, Except.bind, hr, pure, Except.pure, eq_comm]

/-! ## §4. Frames: what the statements leave alone. -/

namespace Store

theorem acceptQuality_shape (c : JobContext) (event : IncomingEvent) (eventTime : Instant)
    (unreported : Bool) (s : Store) :
    ∃ jobs, s.acceptQuality c event eventTime unreported
      = { s.addQuality ⟨dayOf c eventTime, event.name⟩
            (acceptedQuality c event eventTime unreported) with aggregateJobs := jobs } := by
  unfold acceptQuality
  by_cases hlate : isLate c.payload.receivedUnix eventTime = true
  · simp only [hlate, if_true, queueLateEventJob]
    split
    · exact ⟨_, rfl⟩
    · exact ⟨_, rfl⟩
  · exact ⟨s.aggregateJobs, by simp [hlate, addQuality]⟩

theorem addDimensions_shape (c : JobContext) (eventTime : Instant) (ds : List (String × String))
    (s : Store) : ∃ values, s.addDimensions c eventTime ds = { s with dimensionValues := values } := by
  unfold addDimensions
  induction ds generalizing s with
  | nil => exact ⟨s.dimensionValues, rfl⟩
  | cons d ds ih =>
    rw [List.foldl_cons]
    by_cases hempty : d.2 = ""
    · rw [if_pos hempty]
      exact ih s
    · obtain ⟨values, h⟩ := ih (s.addDimensionValue (dimensionValueOf c eventTime d))
      rw [if_neg hempty, h]
      unfold addDimensionValue
      split
      · exact ⟨values, rfl⟩
      · exact ⟨values, rfl⟩

section Identify
variable (key : VisitorKey) (userId : String) (eventTime : Instant) (s : Store)

@[simp] theorem identify_config : (s.identify key userId eventTime).config = s.config := by
  unfold identify; split <;> rfl

@[simp] theorem identify_rawEvents : (s.identify key userId eventTime).rawEvents = s.rawEvents := by
  unfold identify; split <;> rfl

@[simp] theorem identify_sessions : (s.identify key userId eventTime).sessions = s.sessions := by
  unfold identify; split <;> rfl

@[simp] theorem identify_dailySiteMetrics :
    (s.identify key userId eventTime).dailySiteMetrics = s.dailySiteMetrics := by
  unfold identify; split <;> rfl

@[simp] theorem identify_dataQualityDaily :
    (s.identify key userId eventTime).dataQualityDaily = s.dataQualityDaily := by
  unfold identify; split <;> rfl

variable (canonical : String) (userProperties : Properties)

@[simp] theorem touchLinked_config :
    (s.touchLinked key canonical userProperties eventTime).config = s.config := by
  unfold touchLinked; split <;> rfl

@[simp] theorem touchLinked_rawEvents :
    (s.touchLinked key canonical userProperties eventTime).rawEvents = s.rawEvents := by
  unfold touchLinked; split <;> rfl

@[simp] theorem touchLinked_sessions :
    (s.touchLinked key canonical userProperties eventTime).sessions = s.sessions := by
  unfold touchLinked; split <;> rfl

@[simp] theorem touchLinked_visitors :
    (s.touchLinked key canonical userProperties eventTime).visitors = s.visitors := by
  unfold touchLinked; split <;> rfl

@[simp] theorem touchLinked_dailySiteMetrics :
    (s.touchLinked key canonical userProperties eventTime).dailySiteMetrics
      = s.dailySiteMetrics := by
  unfold touchLinked; split <;> rfl

@[simp] theorem touchLinked_dataQualityDaily :
    (s.touchLinked key canonical userProperties eventTime).dataQualityDaily
      = s.dataQualityDaily := by
  unfold touchLinked; split <;> rfl

end Identify

/-- The store in which the visitor's upsert runs, as one update of the store the
event met. -/
theorem beforeVisitor_shape (c : JobContext) (event : IncomingEvent) (eventTime : Instant)
    (unreported : Bool) (s : Store) :
    ∃ jobs values, s.beforeVisitor c event eventTime unreported
      = identify (visitorKeyOf c) c.userId eventTime
          { s.addQuality ⟨dayOf c eventTime, event.name⟩
              (acceptedQuality c event eventTime unreported) with
            aggregateJobs := jobs, dimensionValues := values } := by
  obtain ⟨jobs, hq⟩ := acceptQuality_shape c event eventTime unreported s
  obtain ⟨values, hd⟩ := addDimensions_shape c eventTime (dimensionsOf c event)
    (s.acceptQuality c event eventTime unreported)
  refine ⟨jobs, values, ?_⟩
  unfold beforeVisitor
  rw [hd, hq]

end Store

namespace Arrival

variable (a : Arrival) (s : Store)

/-- The touch the session gets. -/
def touch : SessionTouch :=
  sessionTouch a.context a.event a.eventTime (a.canonical s) a.conversion

/-- The store in which the session's upsert runs. -/
def beforeSession : Store :=
  (s.afterVisitor a.context a.event a.eventTime a.conversion a.unreported).touchLinked
    a.visitorKey (a.canonical s) a.context.userProperties a.eventTime

/-- The statements from the session's upsert on. -/
def finish (revenue : Numeric) (t : Store) : Store :=
  ((t.touchSession a.sessionKey (a.touch s)).countVisitorSession
    ⟨a.context.siteId, a.context.request.visitorId, a.context.request.sessionId⟩ (a.canonical s)
    a.eventTime).countDay a.context a.event a.eventTime (a.canonical s) a.conversion revenue

theorem derive_eq :
    a.derive s = a.finish s ((s.nextRevenue a.day a.event).toOption.getD (.fin 0))
      (a.beforeSession s) := rfl

section Frame
variable (revenue : Numeric) (t : Store)

@[simp] theorem finish_config : (a.finish s revenue t).config = t.config := rfl
@[simp] theorem finish_rawEvents : (a.finish s revenue t).rawEvents = t.rawEvents := rfl
@[simp] theorem finish_visitors : (a.finish s revenue t).visitors = t.visitors := rfl
@[simp] theorem finish_visitorIdentities :
    (a.finish s revenue t).visitorIdentities = t.visitorIdentities := rfl
@[simp] theorem finish_dataQualityDaily :
    (a.finish s revenue t).dataQualityDaily = t.dataQualityDaily := rfl

end Frame

@[simp] theorem beforeSession_config : (a.beforeSession s).config = s.config := by
  obtain ⟨jobs, values, h⟩ := Store.beforeVisitor_shape a.context a.event a.eventTime
    a.unreported s
  simp [beforeSession, Store.afterVisitor, Store.countVisitor, h, Store.addQuality]

theorem beforeSession_rawEvents : (a.beforeSession s).rawEvents = s.rawEvents := by
  obtain ⟨jobs, values, h⟩ := Store.beforeVisitor_shape a.context a.event a.eventTime
    a.unreported s
  simp [beforeSession, Store.afterVisitor, Store.countVisitor, h, Store.addQuality]

theorem beforeSession_sessions : (a.beforeSession s).sessions = s.sessions := by
  obtain ⟨jobs, values, h⟩ := Store.beforeVisitor_shape a.context a.event a.eventTime
    a.unreported s
  simp [beforeSession, Store.afterVisitor, Store.countVisitor, h, Store.addQuality]

theorem beforeSession_dailySiteMetrics :
    (a.beforeSession s).dailySiteMetrics = s.dailySiteMetrics := by
  obtain ⟨jobs, values, h⟩ := Store.beforeVisitor_shape a.context a.event a.eventTime
    a.unreported s
  simp [beforeSession, Store.afterVisitor, Store.countVisitor, h, Store.addQuality]

theorem beforeSession_dataQualityDaily :
    (a.beforeSession s).dataQualityDaily
      = (s.addQuality ⟨a.day, a.event.name⟩
          (acceptedQuality a.context a.event a.eventTime a.unreported)).dataQualityDaily := by
  obtain ⟨jobs, values, h⟩ := Store.beforeVisitor_shape a.context a.event a.eventTime
    a.unreported s
  simp [beforeSession, Store.afterVisitor, Store.countVisitor, h, Store.addQuality, day]

@[simp] theorem derive_config : (a.derive s).config = s.config := by
  rw [derive_eq, finish_config, beforeSession_config]

@[simp] theorem derive_rawEvents : (a.derive s).rawEvents = s.rawEvents := by
  rw [derive_eq, finish_rawEvents, beforeSession_rawEvents]

/-- The row as the table stores it. -/
def newRow : RawEvent := { a.row with id := s.rawEvents.nextId }

theorem store_rows (h : ¬a.Known s) :
    (a.store s h).rawEvents.rows = a.newRow s :: s.rawEvents.rows := by
  unfold store
  rw [derive_rawEvents]
  rfl

theorem lt_newRow_id {r : RawEvent} (hr : r ∈ s.rawEvents.rows) : r.id < (a.newRow s).id :=
  s.rawEvents.lt_nextId r hr

theorem newRow_eventTimestamp : (a.newRow s).eventTimestamp = a.eventTime := rfl

/-- **What an event does to the sessions.** -/
theorem derive_sessions :
    (a.derive s).sessions
      = s.sessions.upsert a.sessionKey ((a.touch s).insert (s.config.threshold a.context.siteId))
          ((a.touch s).update (s.config.threshold a.context.siteId)) := by
  have hfinish : ∀ revenue t, (a.finish s revenue t).sessions
      = (t.touchSession a.sessionKey (a.touch s)).sessions := fun _ _ => rfl
  rw [derive_eq, hfinish]
  unfold Store.touchSession
  rw [beforeSession_sessions, beforeSession_config]
  rfl

/-- **What an event does to the daily metrics.** -/
theorem derive_dailySiteMetrics :
    (a.derive s).dailySiteMetrics
      = (s.countMetrics a.day (a.event.name = "page_view") a.conversion
          ((s.nextRevenue a.day a.event).toOption.getD (.fin 0))).dailySiteMetrics := by
  have hfinish : ∀ revenue t, (a.finish s revenue t).dailySiteMetrics
      = (t.countMetrics a.day (a.event.name = "page_view") a.conversion
          revenue).dailySiteMetrics := fun _ _ => rfl
  rw [derive_eq, hfinish]
  unfold Store.countMetrics
  rw [beforeSession_dailySiteMetrics]

/-- **What an event does to the quality counters.** -/
theorem derive_dataQualityDaily :
    (a.derive s).dataQualityDaily
      = (s.addQuality ⟨a.day, a.event.name⟩
          (acceptedQuality a.context a.event a.eventTime a.unreported)).dataQualityDaily := by
  rw [derive_eq, finish_dataQualityDaily, beforeSession_dataQualityDaily]

end Arrival

/-! ## §5. One event. -/

theorem commits_updateSession {key : SessionKey} {t : SessionTouch} {s s' : Store} {u : Unit} :
    (updateSession key t).Commits s u s'
      ↔ s.engagementFits key t = true ∧ s' = s.touchSession key t := by
  unfold updateSession
  rw [Tx.commits_exec]
  by_cases h : s.engagementFits key t = true
  · rw [if_pos h]
    simp only [Except.ok.injEq, Prod.mk.injEq, true_and, h]
    exact eq_comm
  · simp [h]

theorem commits_updateVisitorSession {key : VisitorSessionKey} {userId : String}
    {eventTime : Instant} {s s' : Store} {u : Unit} :
    (updateVisitorSession key userId eventTime).Commits s u s'
      ↔ s' = s.countVisitorSession key userId eventTime := by
  simp [updateVisitorSession, eq_comm]

/-- The session's running total fits or not, whatever the user is called. -/
theorem engagementFits_touch (a : Arrival) (canonical : String) {s t : Store}
    (h : t.sessions = s.sessions) :
    t.engagementFits a.sessionKey
        (sessionTouch a.context a.event a.eventTime canonical a.conversion)
      = s.engagementFits a.sessionKey
        (sessionTouch a.context a.event a.eventTime "" a.conversion) := by
  unfold Store.engagementFits
  rw [h]
  rfl

theorem nextRevenue_congr (day : DayKey) (event : IncomingEvent) {s t : Store}
    (h : t.dailySiteMetrics = s.dailySiteMetrics) :
    t.nextRevenue day event = s.nextRevenue day event := by
  unfold Store.nextRevenue Store.revenueAfter
  rw [h]

theorem DimensionsFit_congr (c : JobContext) (eventTime : Instant) (ds : List (String × String))
    {s t : Store} (h : t.dimensionValues = s.dimensionValues) :
    t.DimensionsFit c eventTime ds ↔ s.DimensionsFit c eventTime ds := by
  induction ds generalizing s t with
  | nil => exact Iff.rfl
  | cons d ds ih =>
    have hnext : ∀ v, (t.addDimensionValue v).dimensionValues
        = (s.addDimensionValue v).dimensionValues := by
      intro v
      unfold Store.addDimensionValue
      rw [h]
      split
      · exact h
      · rfl
    unfold Store.DimensionsFit Store.countDimensionValues
    rw [h]
    by_cases hempty : d.2 = ""
    · rw [if_pos hempty, if_pos hempty, ih h]
    · rw [if_neg hempty, if_neg hempty, ih (hnext _)]

theorem acceptQuality_dimensionValues (c : JobContext) (event : IncomingEvent)
    (eventTime : Instant) (unreported : Bool) (s : Store) :
    (s.acceptQuality c event eventTime unreported).dimensionValues = s.dimensionValues := by
  obtain ⟨jobs, h⟩ := Store.acceptQuality_shape c event eventTime unreported s
  rw [h]
  rfl

namespace Arrival

variable (a : Arrival)

/-- The store after the session's two upserts has the metrics of the store the
event met. -/
theorem afterSession_dailySiteMetrics (s : Store) :
    (s.afterSession a.context a.event a.eventTime a.conversion a.unreported).dailySiteMetrics
      = s.dailySiteMetrics := a.beforeSession_dailySiteMetrics s

/-- The statements up to the visitor's upsert, which returns the user. -/
theorem commits_toVisitor {β : Type} {k : String → Body β} {s s' : Store} {b : β} :
    (do
      recordAcceptedQuality a.context a.event a.eventTime a.unreported
      recordCardinality a.context a.event a.eventTime
      if a.context.userId ≠ "" then
        updateVisitorIdentity (visitorKeyOf a.context) a.context.userId a.eventTime
      let canonical ← updateVisitor (visitorKeyOf a.context) a.context.userId
        a.context.userProperties a.eventTime a.conversion
      k canonical : Body β).Commits s b s'
      ↔ s.DimensionsFit a.context a.eventTime (dimensionsOf a.context a.event)
        ∧ (k (a.canonical s)).Commits
            (s.afterVisitor a.context a.event a.eventTime a.conversion a.unreported) b s' := by
  have hdims := DimensionsFit_congr a.context a.eventTime (dimensionsOf a.context a.event)
    (acceptQuality_dimensionValues a.context a.event a.eventTime a.unreported s)
  by_cases huser : a.context.userId = ""
  · simp [commits_recordAcceptedQuality, recordCardinality, commits_recordDimensions, huser,
      updateVisitor, hdims, Store.afterVisitor, Store.beforeVisitor, Store.identify, canonical,
      Store.canonicalAfter]
  · simp [commits_recordAcceptedQuality, recordCardinality, commits_recordDimensions, huser,
      updateVisitor, hdims, Store.afterVisitor, Store.beforeVisitor,
      commits_updateVisitorIdentity huser, canonical, Store.canonicalAfter]

/-- The statements a known user adds. -/
theorem commits_touchLinked {β : Type} {k : Body β} {s s' : Store} {b : β} :
    (do
      if a.canonical s ≠ "" then
        Tx.update (Store.touchIdentity (visitorKeyOf a.context) a.eventTime)
        updateIdentifiedUser (visitorKeyOf a.context) (a.canonical s) a.context.userProperties
          a.eventTime
      k : Body β).Commits
        (s.afterVisitor a.context a.event a.eventTime a.conversion a.unreported) b s'
      ↔ k.Commits (a.beforeSession s) b s' := by
  by_cases hcanonical : a.canonical s = ""
  · simp [hcanonical, beforeSession, Store.touchLinked]
  · simp [hcanonical, beforeSession, Store.touchLinked, updateIdentifiedUser, visitorKey]

/-- **The rule of the statements after the insert.** -/
theorem commits_updateDerived {s s' : Store} {u : Unit} :
    (updateDerived a.context a.event a.eventTime a.conversion a.unreported).Commits s u s'
      ↔ a.DerivedFits s ∧ s' = a.derive s := by
  unfold updateDerived
  rw [a.commits_toVisitor, a.commits_touchLinked]
  have hsession := engagementFits_touch a (a.canonical s) (a.beforeSession_sessions s)
  have hrevenue := nextRevenue_congr a.day a.event (a.afterSession_dailySiteMetrics s)
  have hafter : (((a.beforeSession s).touchSession a.sessionKey
      (sessionTouch a.context a.event a.eventTime (a.canonical s)
        a.conversion)).countVisitorSession
        ⟨a.context.siteId, a.context.request.visitorId, a.context.request.sessionId⟩
        (a.canonical s) a.eventTime)
      = s.afterSession a.context a.event a.eventTime a.conversion a.unreported := rfl
  simp only [Tx.commits_bind, commits_updateSession, commits_updateVisitorSession,
    commits_updateDailyAggregates]
  constructor
  · rintro ⟨hdims, _, t, ⟨hfits, rfl⟩, _, w, rfl, revenue, hrev, rfl⟩
    have hnext : s.nextRevenue a.day a.event = .ok revenue := hrevenue ▸ hafter ▸ hrev
    refine ⟨⟨hdims, hsession ▸ hfits, revenue, hnext⟩, ?_⟩
    unfold derive
    rw [hnext]
    rfl
  · rintro ⟨⟨hdims, hfits, revenue, hnext⟩, rfl⟩
    refine ⟨hdims, (), _, ⟨hsession.symm ▸ hfits, rfl⟩, (), _, rfl, revenue, ?_, ?_⟩
    · exact hrevenue.trans hnext
    · unfold derive
      rw [hnext]
      rfl

end Arrival

theorem commits_insertRawEvent {env : Platform} {row : RawEvent} {s s' : Store} {b : Bool} :
    (insertRawEvent env row).Commits s b s'
      ↔ row.contractVersion ≤ 2147483647
        ∧ ((s.rawEvents.Holds row.siteId row.eventId ∧ b = false ∧ s' = s)
          ∨ (b = true ∧ releaseFits env row = true
              ∧ ∃ h : ¬s.rawEvents.Holds row.siteId row.eventId,
                  s' = { s with rawEvents := s.rawEvents.insert row h })) := by
  unfold insertRawEvent
  rw [Tx.commits_exec]
  by_cases hversion : 2147483647 < row.contractVersion
  · simp [hversion, not_le.mpr hversion]
  have hle : row.contractVersion ≤ 2147483647 := not_lt.mp hversion
  rw [if_neg hversion]
  by_cases hknown : s.rawEvents.Holds row.siteId row.eventId
  · rw [dif_pos hknown]
    simp only [Except.ok.injEq, Prod.mk.injEq, hle, hknown, true_and, not_true_eq_false]
    constructor
    · rintro ⟨rfl, rfl⟩
      exact .inl ⟨rfl, rfl⟩
    · rintro (⟨rfl, rfl⟩ | ⟨-, -, h, -⟩)
      · exact ⟨rfl, rfl⟩
      · exact h.elim
  · rw [dif_neg hknown]
    by_cases hfits : releaseFits env row = true
    · rw [if_pos hfits]
      simp only [Except.ok.injEq, Prod.mk.injEq]
      constructor
      · rintro ⟨rfl, rfl⟩
        exact ⟨hle, .inr ⟨rfl, hfits, hknown, rfl⟩⟩
      · rintro ⟨-, ⟨h, -⟩ | ⟨rfl, -, -, rfl⟩⟩
        · exact absurd h hknown
        · exact ⟨rfl, rfl⟩
    · simp [hfits, hknown]

theorem commits_conversion {β : Type} {c : JobContext} {event : IncomingEvent} {k : Bool → Body β}
    {s s' : Store} {b : β} :
    (do
      let conversion ←
        if isConversionName event then pure true
        else do
          let defined ← Tx.attempt fun s => .ok (definedConversion c.siteId event.name s, s)
          pure (defined.getD false)
      k conversion : Body β).Commits s b s'
      ↔ (k (conversionOf c event s)).Commits s b s' := by
  unfold conversionOf
  by_cases hname : isConversionName event = true
  · simp [hname]
  · simp only [hname, if_neg, Bool.false_eq_true, not_false_eq_true, Tx.commits_bind,
      Tx.commits_attempt, Tx.commits_pure, Except.ok.injEq, Prod.mk.injEq, Bool.false_or]
    constructor
    · rintro ⟨_, _, ⟨defined, rfl, rfl, rfl⟩, _, _, ⟨rfl, rfl⟩, h⟩
      exact h
    · intro h
      exact ⟨_, _, ⟨_, rfl, rfl, rfl⟩, _, _, ⟨rfl, rfl⟩, h⟩

theorem commits_recordDuplicate {c : JobContext} {event : IncomingEvent} {eventTime : Instant}
    {s s' : Store} {x : Option Unit} :
    (recordDuplicate c event eventTime).Commits s x s'
      ↔ x = some () ∧ s' = s.addQuality ⟨dayOf c eventTime, event.name⟩ { duplicates := 1 } := by
  unfold recordDuplicate
  rw [Tx.commits_attempt]
  simp only [Except.ok.injEq, Prod.mk.injEq]
  constructor
  · rintro ⟨_, rfl, -, rfl⟩
    exact ⟨rfl, rfl⟩
  · rintro ⟨rfl, rfl⟩
    exact ⟨(), rfl, trivial, rfl⟩

/-- The raw insert changes nothing the later statements need. -/
theorem Arrival.derivedFits_insert (a : Arrival) (s : Store) (rawEvents : RawEvents) :
    a.DerivedFits { s with rawEvents := rawEvents } ↔ a.DerivedFits s := by
  unfold Arrival.DerivedFits
  rw [DimensionsFit_congr (s := s) (t := { s with rawEvents := rawEvents }) _ _ _ rfl]
  rfl

/-- **The rule of one round of the loop.** -/
theorem commits_processEvent {c : JobContext} {unreported : Bool} {event : IncomingEvent}
    {readings : EventReadings} {s s' : Store} {b : Bool} :
    (processEvent c unreported event readings).Commits s b s'
      ↔ ∃ eventId, eventIdOf c event readings = .ok eventId
        ∧ (arrivalOf c unreported event readings eventId s).Fits s
        ∧ b = (arrivalOf c unreported event readings eventId s).stillUnreported s
        ∧ s' = (arrivalOf c unreported event readings eventId s).apply s := by
  unfold processEvent
  cases hid : eventIdOf c event readings with
  | error e => simp
  | ok eventId =>
    simp only [Except.ok.injEq, exists_eq_left']
    rw [commits_conversion]
    obtain ⟨a, ha⟩ : ∃ a, a = arrivalOf c unreported event readings eventId s := ⟨_, rfl⟩
    have hrow : rawEventOf c event eventId (eventTimeOf c event readings)
        (conversionOf c event s) = a.row := by rw [ha]; rfl
    have hderived : ∀ t t' u, (updateDerived c event (eventTimeOf c event readings)
        (conversionOf c event s) unreported).Commits t u t'
        ↔ a.DerivedFits t ∧ t' = a.derive t := by
      intro t t' u
      rw [ha]
      exact Arrival.commits_updateDerived (arrivalOf c unreported event readings eventId s)
    have henv : c.env = a.context.env := by rw [ha]; rfl
    rw [← ha, hrow, henv]
    simp only [Tx.commits_bind, commits_insertRawEvent]
    by_cases hk : a.Known s
    · rw [Arrival.stillUnreported_known hk, Arrival.apply_known hk]
      constructor
      · rintro ⟨inserted, t, ⟨hversion, ⟨-, hins, rfl⟩ | ⟨-, -, hnew, -⟩⟩, hrest⟩
        · rw [hins, if_neg Bool.false_ne_true] at hrest
          simp only [Tx.commits_bind, commits_recordDuplicate, Tx.commits_pure] at hrest
          obtain ⟨_, _, ⟨rfl, rfl⟩, hb, hs'⟩ := hrest
          refine ⟨⟨hversion, .inl hk⟩, ?_, ?_⟩
          · rw [hb, ha]
            rfl
          · rw [hs', ha]
            rfl
        · exact absurd hk hnew
      · rintro ⟨⟨hversion, -⟩, hb, hs'⟩
        refine ⟨false, s, ⟨hversion, .inl ⟨hk, rfl, rfl⟩⟩, ?_⟩
        rw [if_neg Bool.false_ne_true]
        simp only [Tx.commits_bind, commits_recordDuplicate, Tx.commits_pure]
        refine ⟨_, _, ⟨rfl, rfl⟩, ?_, ?_⟩
        · rw [hb, ha]
          rfl
        · rw [hs', ha]
          rfl
    · rw [Arrival.stillUnreported_new hk, Arrival.apply_new hk]
      constructor
      · rintro ⟨inserted, t, ⟨hversion, ⟨hknown, -, -⟩ | ⟨hins, hrelease, hnew, rfl⟩⟩, hrest⟩
        · exact absurd hknown hk
        · rw [hins, if_pos rfl] at hrest
          simp only [Tx.commits_bind, hderived, Tx.commits_pure, a.derivedFits_insert] at hrest
          obtain ⟨_, _, ⟨hfits, rfl⟩, hb, hs'⟩ := hrest
          exact ⟨⟨hversion, .inr ⟨hrelease, hfits⟩⟩, hb, hs'⟩
      · rintro ⟨⟨hversion, hknown | ⟨hrelease, hfits⟩⟩, hb, hs'⟩
        · exact absurd hknown hk
        · refine ⟨true, _, ⟨hversion, .inr ⟨rfl, hrelease, hk, rfl⟩⟩, ?_⟩
          rw [if_pos rfl]
          simp only [Tx.commits_bind, hderived, Tx.commits_pure, a.derivedFits_insert]
          exact ⟨(), _, ⟨hfits, rfl⟩, hb, hs'⟩

/-! ## §6. One job. -/

/-- The events of a job fit, each the store the ones before it left. -/
def EventsFit (c : JobContext) : Bool → List (IncomingEvent × EventReadings) → Store → Prop
  | _, [], _ => True
  | unreported, (event, readings) :: rest, s =>
    ∃ eventId, eventIdOf c event readings = .ok eventId
      ∧ (arrivalOf c unreported event readings eventId s).Fits s
      ∧ EventsFit c ((arrivalOf c unreported event readings eventId s).stillUnreported s) rest
          ((arrivalOf c unreported event readings eventId s).apply s)

/-- The store after the events of a job. -/
def applyEvents (c : JobContext) :
    Bool → List (IncomingEvent × EventReadings) → Store → Store
  | _, [], s => s
  | unreported, (event, readings) :: rest, s =>
    match eventIdOf c event readings with
    | .error _ => s
    | .ok eventId =>
      applyEvents c ((arrivalOf c unreported event readings eventId s).stillUnreported s) rest
        ((arrivalOf c unreported event readings eventId s).apply s)

theorem commits_processEvents {c : JobContext} (events : List (IncomingEvent × EventReadings))
    {unreported : Bool} {s s' : Store} {u : Unit} :
    (processEvents c unreported events).Commits s u s'
      ↔ EventsFit c unreported events s ∧ s' = applyEvents c unreported events s := by
  induction events generalizing unreported s with
  | nil => simp [processEvents, EventsFit, applyEvents]
  | cons e rest ih =>
    obtain ⟨event, readings⟩ := e
    simp only [processEvents, Tx.commits_bind, commits_processEvent, ih, EventsFit, applyEvents]
    constructor
    · rintro ⟨_, _, ⟨eventId, hid, hfits, rfl, rfl⟩, hrest, rfl⟩
      refine ⟨⟨eventId, hid, hfits, hrest⟩, ?_⟩
      rw [hid]
    · rintro ⟨⟨eventId, hid, hfits, hrest⟩, rfl⟩
      refine ⟨_, _, ⟨eventId, hid, hfits, rfl, rfl⟩, hrest, ?_⟩
      rw [hid]

/-- What a job knows before its first event. -/
def jobContext (env : Platform) (policy : Policy) (siteId : Uuid) (p : InboxPayload)
    (timezone : String) (cardinalityLimit : Nat) (s : Store) : JobContext :=
  let network := (storedIp env policy p.clientIp).bind (networkOf s.config.networkRanges)
  { env := env, policy := policy, siteId := siteId, payload := p, timezone := timezone
    cardinalityLimit := cardinalityLimit, ip := storedIp env policy p.clientIp
    networkName := network.elim "External / Unclassified" NetworkRange.name
    isInternal := network.elim false NetworkRange.internal }

/-- **Everything a job needs to be processed** on a server without faults. -/
def JobFits (env : Platform) (policy : Policy) (siteId : Uuid) (p : InboxPayload)
    (readings : Nat → EventReadings) (s : Store) : Prop :=
  ∃ timezone limit, siteSettings siteId p.request.environment s = .ok (timezone, limit)
    ∧ env.loadLocation timezone = true
    ∧ EventsFit (jobContext env policy siteId p timezone limit s) true
        (timed p.request.events readings) s

/-- The store after a job that is processed. -/
def applyJob (env : Platform) (policy : Policy) (siteId : Uuid) (p : InboxPayload)
    (readings : Nat → EventReadings) (s : Store) : Store :=
  match siteSettings siteId p.request.environment s with
  | .error _ => s
  | .ok (timezone, limit) =>
    applyEvents (jobContext env policy siteId p timezone limit s) true
      (timed p.request.events readings) s

theorem commits_processPayload {env : Platform} {policy : Policy} {siteId : Uuid}
    {p : InboxPayload} {readings : Nat → EventReadings} {s s' : Store} {u : Unit} :
    (processPayload env policy siteId p readings).Commits s u s'
      ↔ JobFits env policy siteId p readings s ∧ s' = applyJob env policy siteId p readings s := by
  unfold processPayload JobFits applyJob
  cases hset : siteSettings siteId p.request.environment s with
  | error e => simp [hset, Except.map]
  | ok x =>
    obtain ⟨timezone, limit⟩ := x
    by_cases hzone : env.loadLocation timezone = true
    · cases hip : storedIp env policy p.clientIp with
      | none => simp [hset, Except.map, hzone, hip, commits_processEvents, jobContext]
      | some address =>
        simp [hset, Except.map, hzone, hip, commits_processEvents, jobContext]
    · simp [hset, Except.map, hzone]

/-- **The rule of a job.** -/
theorem commits_processOne {env : Platform} {policy : Policy} {siteId : Uuid}
    {payload : Except String InboxPayload} {readings : Nat → EventReadings} {s s' : Store}
    {u : Unit} :
    (processOne env policy siteId payload readings).Commits s u s'
      ↔ ∃ p, payload = .ok p ∧ JobFits env policy siteId p.withEnvironment readings s
        ∧ s' = applyJob env policy siteId p.withEnvironment readings s := by
  unfold processOne
  cases payload with
  | error message => simp
  | ok p => simp [commits_processPayload]

end Momento
