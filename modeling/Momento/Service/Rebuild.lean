/-
  Momento.Service.Rebuild

  **THE REBUILDS AS WHOLE STATEMENTS.**  `RebuildSiteDerivedData` empties eight
  tables of a site and fills them one after the other, each `INSERT … SELECT`
  reading the raw events and the tables already filled.
  `RebuildSiteDailyAggregates` does the three daily ones,
  `RebuildEnvironmentDateRange` those days of them that a range covers.

  A rebuild is one transaction: where a statement fails, nothing is left of it.
-/
import Momento.Service.Derived

namespace Momento

open Foundation

/-! ## §1. The remaining statements. -/

namespace RawEvent

/-- The row's key in `visitor_sessions`. -/
def visitorSessionKey (r : RawEvent) : VisitorSessionKey := ⟨r.siteId, r.visitorId, r.sessionId⟩

/-- The row's key in `daily_site_visitors`. -/
def dayVisitorKey (env : Platform) (timezone : String) (r : RawEvent) : DayVisitorKey :=
  ⟨r.dayKey env timezone, r.visitorId⟩

/-- The row's key in `daily_site_sessions`. -/
def daySessionKey (env : Platform) (timezone : String) (r : RawEvent) : DaySessionKey :=
  ⟨r.dayKey env timezone, r.sessionId⟩

end RawEvent

/-- `rebuildIdentitiesSQL`. -/
def rebuildIdentities (siteId : Uuid) (s : Store) : Table VisitorKey VisitorIdentity :=
  (Table.groupRows RawEvent.visitorKey (fun _ rows => rebuildIdentityRow rows)
    (siteRows siteId s.rawEvents.rows)).filterMapRows fun _ row => row

/-- `visitor_identities i JOIN visitors v`. -/
def identifiedVisitors (siteId : Uuid) (s : Store) : List (VisitorIdentity × Visitor) :=
  s.visitorIdentities.entries.filterMap fun e =>
    if e.1.siteId = siteId then (s.visitors.lookup e.1).map (e.2, ·) else none

/-- The row `rebuildIdentifiedUsersSQL` inserts for one group.  Its `ORDER BY`
names no second column: of visitors last seen at one time any may come first. -/
def rebuildIdentifiedUserRow (rows : List (VisitorIdentity × Visitor)) : IdentifiedUser where
  firstSeen := (minTime (fun r => r.1.firstSeen) rows).getD 0
  lastSeen := (maxTime (fun r => r.2.lastSeen) rows).getD 0
  userProperties := (latest (fun r => r.2.lastSeen) (fun _ => 0)
    (fun r => if r.2.userProperties = [] then none else some r.2.userProperties) rows).getD []

/-- `rebuildIdentifiedUsersSQL`. -/
def rebuildIdentifiedUsers (siteId : Uuid) (s : Store) : Table UserKey IdentifiedUser :=
  Table.groupRows (fun r => ⟨siteId, r.1.userId⟩) (fun _ rows => rebuildIdentifiedUserRow rows)
    (identifiedVisitors siteId s)

/-- The row `rebuildVisitorSessionsSQL` inserts for one group. -/
def rebuildVisitorSessionRow (rows : List RawEvent) : VisitorSession where
  userId := lastTouch RawEvent.userId rows
  firstSeen := (firstTime rows).getD 0
  lastSeen := (lastTime rows).getD 0

/-- `rebuildVisitorSessionsSQL`. -/
def rebuildVisitorSessions (siteId : Uuid) (s : Store) : Table VisitorSessionKey VisitorSession :=
  Table.groupRows RawEvent.visitorSessionKey (fun _ rows => rebuildVisitorSessionRow rows)
    (siteRows siteId s.rawEvents.rows)

/-- The user a row's visitor is linked to: `LEFT JOIN visitor_identities i`. -/
def joinedUser (s : Store) (r : RawEvent) : Option String := s.linkedUser r.visitorKey

/-- The row `rebuildDailyVisitorsSQL` inserts for one group. -/
def rebuildDailyVisitorRow (s : Store) (rows : List RawEvent) : DailyVisitor where
  userId := (rows.head?.bind (joinedUser s)).or (lastTouch RawEvent.userId rows)
  firstSeen := (firstTime rows).getD 0
  lastSeen := (lastTime rows).getD 0
  eventCount := rows.length
  conversionCount := rows.countP RawEvent.isConversion
  userProperties :=
    (lastTouch (fun r => if r.userProperties = [] then none else some r.userProperties) rows).getD []

/-- The row `rebuildDailySessionsSQL` inserts for one group. -/
def rebuildDailySessionRow (s : Store) (rows : List RawEvent) : DailySession where
  visitorId := (firstTouch (fun r => some r.visitorId) rows).getD ""
  userId := (lastTouch (joinedUser s) rows).or (lastTouch RawEvent.userId rows)
  firstSeen := (firstTime rows).getD 0
  lastSeen := (lastTime rows).getD 0

/-- The rows a date range of one environment covers. -/
def rangeRows (env : Platform) (timezone : String) (siteId : Uuid) (environment : String)
    (first last : Date) (rows : List RawEvent) : List RawEvent :=
  (siteRows siteId rows).filter fun r =>
    r.environment = environment ∧ first ≤ (r.dayKey env timezone).eventDate
      ∧ (r.dayKey env timezone).eventDate ≤ last

section Daily
variable (env : Platform) (siteId : Uuid) (environment : String) (first last : Date) (s : Store)

/-- `rebuildDailyVisitorsSQL`. -/
def rebuildDailyVisitors : Table DayVisitorKey DailyVisitor :=
  (s.config.sites.lookup siteId).elim ∅ fun site =>
    Table.groupRows (RawEvent.dayVisitorKey env site.timezone)
      (fun _ rows => rebuildDailyVisitorRow s rows) (siteRows siteId s.rawEvents.rows)

/-- `rebuildDailySessionsSQL`. -/
def rebuildDailySessions : Table DaySessionKey DailySession :=
  (s.config.sites.lookup siteId).elim ∅ fun site =>
    Table.groupRows (RawEvent.daySessionKey env site.timezone)
      (fun _ rows => rebuildDailySessionRow s rows) (siteRows siteId s.rawEvents.rows)

/-- `rebuildRangeDailyVisitorsSQL`. -/
def rebuildRangeDailyVisitors : Table DayVisitorKey DailyVisitor :=
  (s.config.sites.lookup siteId).elim ∅ fun site =>
    Table.groupRows (RawEvent.dayVisitorKey env site.timezone)
      (fun _ rows => rebuildDailyVisitorRow s rows)
      (rangeRows env site.timezone siteId environment first last s.rawEvents.rows)

/-- `rebuildRangeDailySessionsSQL`. -/
def rebuildRangeDailySessions : Table DaySessionKey DailySession :=
  (s.config.sites.lookup siteId).elim ∅ fun site =>
    Table.groupRows (RawEvent.daySessionKey env site.timezone)
      (fun _ rows => rebuildDailySessionRow s rows)
      (rangeRows env site.timezone siteId environment first last s.rawEvents.rows)

end Daily

/-! ## §2. The rebuilds. -/

/-- `WHERE site_id = $1`, on a day. -/
def coversSite (siteId : Uuid) (day : DayKey) : Bool := day.siteId = siteId

/-- `WHERE site_id=$1 AND environment=$2 AND event_date >= $3 AND event_date <= $4`. -/
def coversRange (siteId : Uuid) (environment : String) (first last : Date) (day : DayKey) : Bool :=
  day.siteId = siteId ∧ day.environment = environment ∧ first ≤ day.eventDate ∧ day.eventDate ≤ last

namespace Store
variable (env : Platform) (siteId : Uuid)

/-- The three daily tables, their covered rows replaced. -/
def replaceDaily (covers : DayKey → Bool) (metrics : Table DayKey DailyMetrics)
    (visitors : Table DayVisitorKey DailyVisitor) (sessions : Table DaySessionKey DailySession)
    (s : Store) : Store :=
  { s with
    dailySiteSessions := Table.replaceRows (fun k => covers k.day) sessions s.dailySiteSessions
    dailySiteVisitors := Table.replaceRows (fun k => covers k.day) visitors s.dailySiteVisitors
    dailySiteMetrics := Table.replaceRows covers metrics s.dailySiteMetrics }

/-- `RebuildSiteDailyAggregates`. -/
def rebuildSiteDailyAggregates (s : Store) : Except DbError Store := do
  let metrics ← (rebuildDailyMetrics env siteId s).collect
  return s.replaceDaily (coversSite siteId) metrics (rebuildDailyVisitors env siteId s)
    (rebuildDailySessions env siteId s)

/-- `RebuildEnvironmentDateRange`. -/
def rebuildEnvironmentDateRange (environment : String) (first last : Date) (s : Store) :
    Except DbError Store := do
  let metrics ← (rebuildRangeDailyMetrics env siteId environment first last s).collect
  return s.replaceDaily (coversRange siteId environment first last) metrics
    (rebuildRangeDailyVisitors env siteId environment first last s)
    (rebuildRangeDailySessions env siteId environment first last s)

/-- `visitors` from the raw rows. -/
def refillVisitors (s : Store) : Store :=
  { s with visitors := Table.replaceRows (fun k => k.siteId = siteId) (rebuildVisitors siteId s) s.visitors }

/-- `visitor_identities` from the raw rows. -/
def refillIdentities (s : Store) : Store :=
  { s with
    visitorIdentities := Table.replaceRows (fun k => k.siteId = siteId) (rebuildIdentities siteId s)
      s.visitorIdentities }

/-- `identified_users` from the raw rows. -/
def refillIdentifiedUsers (s : Store) : Store :=
  { s with
    identifiedUsers := Table.replaceRows (fun k => k.siteId = siteId)
      (rebuildIdentifiedUsers siteId s) s.identifiedUsers }

/-- `visitor_sessions` from the raw rows. -/
def refillVisitorSessions (s : Store) : Store :=
  { s with
    visitorSessions := Table.replaceRows (fun k => k.siteId = siteId)
      (rebuildVisitorSessions siteId s) s.visitorSessions }

/-- `sessions` from the raw rows. -/
def refillSessions (s : Store) : Store :=
  { s with sessions := Table.replaceRows (fun k => k.siteId = siteId) (rebuildSessions siteId s) s.sessions }

/-- The five tables of visitors, identities and sessions.  The source empties all
of them first; no statement reads a table that a later one fills. -/
def refill (s : Store) : Store :=
  ((((s.refillVisitors siteId).refillIdentities siteId).refillIdentifiedUsers siteId).refillVisitorSessions
    siteId).refillSessions siteId

/-- `RebuildSiteDerivedData`. -/
def rebuildSiteDerivedData (s : Store) : Except DbError Store :=
  (s.refill siteId).rebuildSiteDailyAggregates env siteId

end Store

/-! ## §3. What a rebuild leaves. -/

/-- A rebuild that goes through: the daily metrics of the covered days are those
`rebuilt` gives, the others and everything that is not derived stay. -/
structure RebuiltBy (covers : DayKey → Bool) (rebuilt : Table DayKey (Except DbError DailyMetrics))
    (s s' : Store) : Prop where
  config : s'.config = s.config
  rawEvents : s'.rawEvents = s.rawEvents
  aggregateJobs : s'.aggregateJobs = s.aggregateJobs
  covered : ∀ k, covers k = true → rebuilt.lookup k = (s'.dailySiteMetrics.lookup k).map Except.ok
  others : ∀ k, covers k = false → s'.dailySiteMetrics.lookup k = s.dailySiteMetrics.lookup k

section Rebuilt
variable {env : Platform} {siteId : Uuid} {s s' : Store}

theorem rebuiltBy_replaceDaily {covers : DayKey → Bool}
    {rebuilt : Table DayKey (Except DbError DailyMetrics)} {metrics : Table DayKey DailyMetrics}
    (hmetrics : rebuilt.collect = .ok metrics)
    (hcovers : ∀ k, covers k = false → rebuilt.lookup k = none)
    (visitors : Table DayVisitorKey DailyVisitor) (sessions : Table DaySessionKey DailySession) :
    RebuiltBy covers rebuilt s (s.replaceDaily covers metrics visitors sessions) := by
  have hlookup := Table.lookup_collect hmetrics
  have hnew : ∀ k, covers k = false → metrics.lookup k = none := by
    intro k hk
    have hnone := hcovers k hk
    rw [hlookup] at hnone
    exact Option.map_eq_none_iff.mp hnone
  refine ⟨rfl, rfl, rfl, fun k hk => ?_, fun k hk => ?_⟩
  · show _ = ((Table.replaceRows covers metrics s.dailySiteMetrics).lookup k).map Except.ok
    rw [Table.lookup_replaceRows _ hnew, if_pos hk]
    exact hlookup k
  · show (Table.replaceRows covers metrics s.dailySiteMetrics).lookup k = _
    rw [Table.lookup_replaceRows _ hnew, hk]
    rfl

theorem lookup_rebuildDailyMetrics_of_ne {k : DayKey} (h : coversSite siteId k = false) :
    (rebuildDailyMetrics env siteId s).lookup k = none := by
  have hne : k.siteId ≠ siteId := of_decide_eq_false h
  unfold rebuildDailyMetrics
  cases s.config.sites.lookup siteId with
  | none => rfl
  | some site =>
    rw [Option.elim_some, Table.lookup_groupRows, if_pos]
    refine (Table.groupOf_eq_nil_iff _ _ _).mpr fun hmem => ?_
    obtain ⟨r, hr, rfl⟩ := List.mem_map.mp hmem
    exact hne (of_decide_eq_true (List.mem_filter.mp hr).2)

theorem lookup_rebuildRangeDailyMetrics_of_ne {environment : String} {first last : Date}
    {k : DayKey} (h : coversRange siteId environment first last k = false) :
    (rebuildRangeDailyMetrics env siteId environment first last s).lookup k = none := by
  unfold rebuildRangeDailyMetrics
  cases s.config.sites.lookup siteId with
  | none => rfl
  | some site =>
    rw [Option.elim_some, Table.lookup_groupRows, if_pos]
    refine (Table.groupOf_eq_nil_iff _ _ _).mpr fun hmem => ?_
    obtain ⟨r, hr, rfl⟩ := List.mem_map.mp hmem
    obtain ⟨hsite, hrange⟩ := List.mem_filter.mp hr
    obtain ⟨henvironment, hfirst, hlast⟩ := of_decide_eq_true hrange
    have hcovered : r.siteId = siteId := of_decide_eq_true (List.mem_filter.mp hsite).2
    exact of_decide_eq_false h ⟨hcovered, henvironment, hfirst, hlast⟩

/-- Sums that the columns hold were collected first. -/
theorem ok_of_collect {κ ρ : Type} [DecidableEq κ] {rebuilt : Table κ (Except DbError ρ)} {write : Table κ ρ → Store}
    (h : (do let metrics ← rebuilt.collect; return write metrics) = Except.ok s') :
    ∃ metrics, rebuilt.collect = .ok metrics ∧ s' = write metrics := by
  cases hmetrics : rebuilt.collect with
  | error e =>
    rw [hmetrics] at h
    cases h
  | ok metrics =>
    rw [hmetrics] at h
    exact ⟨metrics, rfl, (Except.ok.inj h).symm⟩

/-- **A rebuild that goes through** writes the daily tables alone. -/
theorem replaced_of_daily (h : s.rebuildSiteDailyAggregates env siteId = .ok s') :
    ∃ metrics, (rebuildDailyMetrics env siteId s).collect = .ok metrics
      ∧ s' = s.replaceDaily (coversSite siteId) metrics (rebuildDailyVisitors env siteId s)
        (rebuildDailySessions env siteId s) :=
  ok_of_collect h

/-- So does one of a range of dates. -/
theorem replaced_of_range {environment : String} {first last : Date}
    (h : s.rebuildEnvironmentDateRange env siteId environment first last = .ok s') :
    ∃ metrics, (rebuildRangeDailyMetrics env siteId environment first last s).collect = .ok metrics
      ∧ s' = s.replaceDaily (coversRange siteId environment first last) metrics
        (rebuildRangeDailyVisitors env siteId environment first last s)
        (rebuildRangeDailySessions env siteId environment first last s) :=
  ok_of_collect h

theorem rebuiltBy_siteDailyAggregates (h : s.rebuildSiteDailyAggregates env siteId = .ok s') :
    RebuiltBy (coversSite siteId) (rebuildDailyMetrics env siteId s) s s' := by
  obtain ⟨metrics, hmetrics, rfl⟩ := replaced_of_daily h
  exact rebuiltBy_replaceDaily hmetrics (fun k hk => lookup_rebuildDailyMetrics_of_ne hk) _ _

theorem rebuiltBy_environmentDateRange {environment : String} {first last : Date}
    (h : s.rebuildEnvironmentDateRange env siteId environment first last = .ok s') :
    RebuiltBy (coversRange siteId environment first last)
      (rebuildRangeDailyMetrics env siteId environment first last s) s s' := by
  obtain ⟨metrics, hmetrics, rfl⟩ := replaced_of_range h
  exact rebuiltBy_replaceDaily hmetrics (fun k hk => lookup_rebuildRangeDailyMetrics_of_ne hk) _ _

theorem rebuiltBy_siteDerivedData (h : s.rebuildSiteDerivedData env siteId = .ok s') :
    RebuiltBy (coversSite siteId) (rebuildDailyMetrics env siteId s) s s' := by
  -- the other tables are filled before, and the metrics read none of them
  have hdaily := rebuiltBy_siteDailyAggregates h
  exact ⟨hdaily.config, hdaily.rawEvents, hdaily.aggregateJobs, hdaily.covered, hdaily.others⟩

end Rebuilt

end Momento
