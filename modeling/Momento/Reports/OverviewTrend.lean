/-
  Momento.Reports.OverviewTrend

  **THE TREND, FROM THE ROLLUPS OR FROM THE EVENTS.**  The overview shows a row per local
  date: from the three daily tables where the range starts and ends at local midnight,
  else from the events.  The tables' rows are what the events come to, so the two differ
  only in what they count in: the events of some dates, or those between two instants.
-/
import Momento.Foundation.SortedRows
import Momento.Foundation.Calendar
import Momento.Reports.DailyTables
import Momento.Reports.VisitorFlow

namespace Momento.Reports

open Foundation Foundation.Calendar Momento.Rollup

/-! ## §1. The two queries. -/

/-- A row of the trend, without its date. -/
structure TrendDay where
  users : Nat
  sessions : Nat
  pageViews : Nat
  events : Nat
  conversions : Nat

/-- `localDateBucketRange`. -/
def localDateBucketRange (loc : Location) (from_ to_ : Int) : Option (Date × Date) :=
  if loc.wall from_ % day = 0 ∧ loc.wall to_ % day = 0 then some (loc.localDate from_, loc.localDate to_) else none

section Queries
variable (env : Platform) (timezone : String) (s : Store) (siteId : Uuid) (environment : String)

section Rollups
variable (first last : Date)

/-- `WHERE site_id=$1 AND environment=$4 AND event_date >= $2::date AND event_date < $3::date`. -/
def inDays (k : DayKey) : Bool := k.siteId = siteId ∧ k.environment = environment ∧ first ≤ k.eventDate ∧ k.eventDate < last

/-- `coalesce('u:'||i.user_id,'v:'||d.visitor_id)`. -/
def rollupEntity (k : DayVisitorKey) : String :=
  entityId (canonicalUser s.visitorIdentities k.day.siteId k.visitorId none) k.visitorId

/-- `visitor_counts`. -/
def visitorCounts : Table Date Nat :=
  Table.groupRows (fun k : DayVisitorKey => k.day.eventDate) (fun _ rows => distinct (rollupEntity s) rows)
    ((s.dailySiteVisitors.entries.map Sigma.fst).filter fun k => inDays siteId environment first last k.day)

/-- `session_counts`. -/
def sessionCounts : Table Date Nat :=
  Table.groupRows (fun k : DaySessionKey => k.day.eventDate) (fun _ rows => distinct DaySessionKey.sessionId rows)
    ((s.dailySiteSessions.entries.map Sigma.fst).filter fun k => inDays siteId environment first last k.day)

/-- The days of the rollups. -/
def rollupRows : List (Date × TrendDay) :=
  (s.dailySiteMetrics.entries.filter fun m => inDays siteId environment first last m.1).map fun m =>
    (m.1.eventDate,
      { users := ((visitorCounts s siteId environment first last).lookup m.1.eventDate).getD 0
        sessions := ((sessionCounts s siteId environment first last).lookup m.1.eventDate).getD 0
        pageViews := m.2.pageViews
        events := m.2.events
        conversions := m.2.conversions })

/-- The trend from the daily tables. -/
def trendFromRollups : List (Date × TrendDay) := orderBy (rollupRows s siteId environment first last)

end Rollups

/-- `count(DISTINCT entity_id), count(DISTINCT session_id), …`. -/
def trendDay (rows : List AnalyticsEvent) : TrendDay where
  users := distinct (fun e : AnalyticsEvent => e.entityId) rows
  sessions := distinct (fun e : AnalyticsEvent => e.sessionId) rows
  pageViews := rows.countP fun e => e.eventName = "page_view"
  events := rows.length
  conversions := rows.countP fun e => e.isConversion

/-- `event_timestamp AT TIME ZONE $4`, its date. -/
def bucketDate (e : AnalyticsEvent) : Date := env.localDate timezone e.eventTimestamp

/-- The days of the events. -/
def eventsRows (from_ to_ : Instant) : List (Date × TrendDay) :=
  (Table.groupRows (bucketDate env timezone) (fun _ rows => trendDay rows)
    (period s siteId environment from_ to_)).pairs

/-- The trend from the events. -/
def trendFromEvents (from_ to_ : Instant) : List (Date × TrendDay) :=
  orderBy (eventsRows env timezone s siteId environment from_ to_)

/-- `overviewTrend`, of a range in nanoseconds; the database takes microseconds. -/
def overviewTrend (loc : Location) (from_ to_ : Int) : List (Date × TrendDay) :=
  match localDateBucketRange loc from_ to_ with
  | some (first, last) => trendFromRollups s siteId environment first last
  | none => trendFromEvents env timezone s siteId environment (from_ / 1000) (to_ / 1000)

/-! ## §2. What they count. -/

/-- The events of a local date. -/
def dateEvents (date : Date) : List AnalyticsEvent :=
  (analyticsEvents s).filter fun e =>
    e.siteId = siteId ∧ e.environment = environment ∧ bucketDate env timezone e = date

/-- **The events of the dates are those between the instants.** -/
def WholeDays (first last : Date) (from_ to_ : Instant) : Prop :=
  ∀ r ∈ s.rawEvents.rows, r.siteId = siteId → r.environment = environment →
    (first ≤ env.localDate timezone r.eventTimestamp ∧ env.localDate timezone r.eventTimestamp < last
      ↔ from_ ≤ r.eventTimestamp ∧ r.eventTimestamp < to_)

end Queries

/-! ## §3. The rows. -/

section Rows
variable {env : Platform} {timezone : String} {s : Store} {siteId : Uuid} {environment : String}
variable {first last date : Date} {from_ to_ : Instant} {row : TrendDay}

theorem inDays_iff {k : DayKey} : inDays siteId environment first last k = true
    ↔ k.siteId = siteId ∧ k.environment = environment ∧ first ≤ k.eventDate ∧ k.eventDate < last :=
  decide_eq_true_iff

theorem mem_dateEvents {e : AnalyticsEvent} : e ∈ dateEvents env timezone s siteId environment date
    ↔ e ∈ analyticsEvents s ∧ e.siteId = siteId ∧ e.environment = environment
      ∧ bucketDate env timezone e = date := by
  unfold dateEvents
  rw [List.mem_filter, decide_eq_true_iff]

/-- The events of a date are the group of its key. -/
theorem dateEvents_eq (hzone : zoneOf s siteId = some timezone) (date : Date) :
    dateEvents env timezone s siteId environment date
      = (DayPart.site.group env s ⟨siteId, date, environment⟩).map (analyticsEvent s.visitorIdentities) := by
  unfold DayPart.group dateEvents analyticsEvents
  show _ = ((zoneOf s siteId).elim [] _).map _
  rw [hzone, Option.elim_some, List.filter_map]
  congr 1
  refine List.filter_congr fun r _ => ?_
  show decide (r.siteId = siteId ∧ r.environment = environment ∧ env.localDate timezone r.eventTimestamp = date)
    = decide (DayKey.mk r.siteId (env.localDate timezone r.eventTimestamp) r.environment = ⟨siteId, date, environment⟩)
  refine decide_eq_decide.mpr ?_
  rw [DayKey.mk.injEq]
  exact ⟨fun h => ⟨h.1, h.2.2, h.2.1⟩, fun h => ⟨h.1, h.2.2, h.2.1⟩⟩

/-- The events of a date that are in the period. -/
theorem groupOf_period (date : Date) :
    Table.groupOf (bucketDate env timezone) (period s siteId environment from_ to_) date
      = (dateEvents env timezone s siteId environment date).filter fun e =>
          from_ ≤ e.eventTimestamp ∧ e.eventTimestamp < to_ := by
  unfold Table.groupOf period dateEvents
  rw [List.filter_filter, List.filter_filter]
  refine List.filter_congr fun e _ => ?_
  rw [← Bool.decide_and, ← Bool.decide_and]
  refine decide_eq_decide.mpr ?_
  tauto

/-- **The rows from the events.** -/
theorem eventsRow_iff : (date, row) ∈ eventsRows env timezone s siteId environment from_ to_
    ↔ (dateEvents env timezone s siteId environment date).filter
        (fun e => from_ ≤ e.eventTimestamp ∧ e.eventTimestamp < to_) ≠ []
      ∧ row = trendDay ((dateEvents env timezone s siteId environment date).filter fun e =>
          from_ ≤ e.eventTimestamp ∧ e.eventTimestamp < to_) := by
  unfold eventsRows
  rw [Table.mem_pairs, Table.lookup_groupRows, groupOf_period]
  by_cases hnil : (dateEvents env timezone s siteId environment date).filter
      (fun e => from_ ≤ e.eventTimestamp ∧ e.eventTimestamp < to_) = []
  · rw [if_pos hnil]
    exact iff_of_false nofun fun h => h.1 hnil
  · rw [if_neg hnil, Option.some_inj]
    exact ⟨fun h => ⟨hnil, h.symm⟩, fun h => h.2.symm⟩

/-! ### From the tables. -/

/-- A key has events where its day has some that fall to it. -/
theorem group_ne_nil_iff {κ : Type} [DecidableEq κ] (P : DayPart κ) (k : κ) :
    P.group env s k ≠ [] ↔ ∃ r ∈ DayPart.site.group env s (P.day k), P.keyOf (P.day k) r = k := by
  unfold DayPart.group
  show (zoneOf s (P.day k).siteId).elim [] _ ≠ [] ↔ ∃ r ∈ (zoneOf s (P.day k).siteId).elim [] _, _
  cases zoneOf s (P.day k).siteId with
  | none => exact iff_of_false (fun h => h rfl) fun ⟨_, hr, _⟩ => List.not_mem_nil hr
  | some zone =>
    rw [Option.elim_some, Option.elim_some]
    constructor
    · intro hne
      obtain ⟨r, hr⟩ := List.exists_mem_of_ne_nil _ hne
      obtain ⟨hmem, hkey⟩ := Table.mem_groupOf hr
      have hday : r.dayKey env zone = P.day k := by
        rw [← hkey, DayPart.day_key]
      refine ⟨r, List.mem_filter.mpr ⟨hmem, decide_eq_true hday⟩, ?_⟩
      rw [← hday]
      exact hkey
    · rintro ⟨r, hr, hkey⟩
      obtain ⟨hmem, hday⟩ := Table.mem_groupOf hr
      have hday : r.dayKey env zone = P.day k := hday
      refine List.ne_nil_of_mem (List.mem_filter.mpr ⟨hmem, decide_eq_true ?_⟩)
      show P.keyOf (r.dayKey env zone) r = k
      rw [hday]
      exact hkey

/-- A table that sums up its groups has a row where there are events. -/
theorem Holds.mem_keys_iff {κ ρ α : Type} [DecidableEq κ] {P : DayPart κ} {S : Summary RawEvent α} {proj : ρ → α}
    {t : Table κ ρ} (h : S.Holds proj (fun k => (P.day k).siteId = siteId) (P.group env s) t) {k : κ}
    (hk : (P.day k).siteId = siteId) :
    k ∈ t.entries.map Sigma.fst ↔ ∃ r ∈ DayPart.site.group env s (P.day k), P.keyOf (P.day k) r = k := by
  rw [← group_ne_nil_iff]
  show k ∈ t ↔ _
  rw [← AList.lookup_isSome, ← Option.isSome_map (f := proj), h k hk, ne_eq, ← Summary.of_eq_none_iff (S := S),
    Option.isSome_iff_ne_none]

theorem getD_lookup_distinct {σ α : Type} [DecidableEq α] (key : σ → Date) (f : σ → α) (rows : List σ) (date : Date) :
    ((Table.groupRows key (fun _ rows => distinct f rows) rows).lookup date).getD 0
      = distinct f (Table.groupOf key rows date) := by
  rw [Table.lookup_groupRows]
  split
  next hnil =>
    rw [hnil]
    rfl
  next => rfl

section Tables
variable (hs : DailyTables env siteId s) (hlinked : Linked siteId s) (hzone : zoneOf s siteId = some timezone)
variable (hfirst : first ≤ date) (hlast : date < last)

include hfirst hlast in
/-- The keys of a date are those of its day. -/
theorem mem_groupOf_day {κ : Type} (dayOf : κ → DayKey) {keys : List κ} {k : κ} :
    k ∈ Table.groupOf (fun k => (dayOf k).eventDate)
        (keys.filter fun k => inDays siteId environment first last (dayOf k)) date
      ↔ k ∈ keys ∧ dayOf k = ⟨siteId, date, environment⟩ := by
  constructor
  · intro hk
    obtain ⟨hmem, hdate⟩ := Table.mem_groupOf hk
    obtain ⟨hkey, hin⟩ := List.mem_filter.mp hmem
    obtain ⟨hsite, henvironment, -⟩ := inDays_iff.mp hin
    refine ⟨hkey, ?_⟩
    rw [← hsite, ← henvironment, ← hdate]
  · rintro ⟨hkey, hday⟩
    have hin : inDays siteId environment first last (dayOf k) = true := by
      rw [hday]
      exact inDays_iff.mpr ⟨rfl, rfl, hfirst, hlast⟩
    exact List.mem_filter.mpr ⟨List.mem_filter.mpr ⟨hkey, hin⟩, decide_eq_true (congrArg DayKey.eventDate hday)⟩

include hs hzone hfirst hlast in
theorem sessionCounts_eq : ((sessionCounts s siteId environment first last).lookup date).getD 0
    = distinct (fun e : AnalyticsEvent => e.sessionId) (dateEvents env timezone s siteId environment date) := by
  unfold sessionCounts
  rw [getD_lookup_distinct, distinct_eq_card, distinct_eq_card, dateEvents_eq hzone]
  congr 1
  ext sessionId
  simp only [List.mem_toFinset, List.mem_map]
  constructor
  · rintro ⟨k, hk, rfl⟩
    obtain ⟨hkey, hday⟩ := (mem_groupOf_day hfirst hlast DaySessionKey.day).mp hk
    obtain ⟨r, hr, heq⟩ := (Holds.mem_keys_iff hs.sessions (congrArg DayKey.siteId hday)).mp hkey
    refine ⟨_, ⟨r, hday ▸ hr, rfl⟩, ?_⟩
    exact congrArg DaySessionKey.sessionId heq
  · rintro ⟨e, ⟨r, hr, rfl⟩, rfl⟩
    refine ⟨⟨⟨siteId, date, environment⟩, r.sessionId⟩, ?_, rfl⟩
    refine (mem_groupOf_day hfirst hlast DaySessionKey.day).mpr ⟨?_, rfl⟩
    exact (Holds.mem_keys_iff (P := DayPart.sessions) hs.sessions rfl).mpr ⟨r, hr, rfl⟩

include hlinked in
/-- A row of the rollup is of the person its events are of. -/
theorem rollupEntity_eq {r : RawEvent} (hr : r ∈ s.rawEvents.rows) (hsite : r.siteId = siteId) (d : DayKey)
    (hd : d.siteId = siteId) :
    rollupEntity s ⟨d, r.visitorId⟩ = (analyticsEvent s.visitorIdentities r).entityId := by
  show entityId (canonicalUser s.visitorIdentities d.siteId r.visitorId none) r.visitorId
    = entityId (canonicalUser s.visitorIdentities r.siteId r.visitorId r.userId) r.visitorId
  rw [hd, hsite]
  unfold canonicalUser
  cases hidentity : s.visitorIdentities.lookup ⟨siteId, r.visitorId⟩ with
  | some identity => rfl
  | none =>
    have huser : r.userId = none := by
      by_contra hne
      have hmem := hlinked.events r hr hsite hne
      rw [← AList.lookup_isSome] at hmem
      unfold RawEvent.visitorKey at hmem
      rw [hsite, hidentity] at hmem
      cases hmem
    rw [huser]

include hs hlinked hzone hfirst hlast in
theorem visitorCounts_eq : ((visitorCounts s siteId environment first last).lookup date).getD 0
    = distinct (fun e : AnalyticsEvent => e.entityId) (dateEvents env timezone s siteId environment date) := by
  have hrow : ∀ r ∈ DayPart.site.group env s ⟨siteId, date, environment⟩,
      rollupEntity s ⟨⟨siteId, date, environment⟩, r.visitorId⟩
        = (analyticsEvent s.visitorIdentities r).entityId := by
    intro r hr
    obtain ⟨hmem, zone, -, hkey⟩ := DayPart.mem_group hr
    exact rollupEntity_eq hlinked hmem (DayPart.site_of_key hkey) _ rfl
  unfold visitorCounts
  rw [getD_lookup_distinct, distinct_eq_card, distinct_eq_card, dateEvents_eq hzone]
  congr 1
  ext entity
  simp only [List.mem_toFinset, List.mem_map]
  constructor
  · rintro ⟨k, hk, rfl⟩
    obtain ⟨hkey, hday⟩ := (mem_groupOf_day hfirst hlast DayVisitorKey.day).mp hk
    obtain ⟨r, hr, heq⟩ := (Holds.mem_keys_iff hs.visitors (congrArg DayKey.siteId hday)).mp hkey
    have hr : r ∈ DayPart.site.group env s ⟨siteId, date, environment⟩ := hday ▸ hr
    refine ⟨_, ⟨r, hr, rfl⟩, ?_⟩
    rw [← hrow r hr, ← hday]
    exact congrArg (rollupEntity s) heq
  · rintro ⟨e, ⟨r, hr, rfl⟩, rfl⟩
    refine ⟨⟨⟨siteId, date, environment⟩, r.visitorId⟩, ?_, hrow r hr⟩
    refine (mem_groupOf_day hfirst hlast DayVisitorKey.day).mpr ⟨?_, rfl⟩
    exact (Holds.mem_keys_iff (P := DayPart.visitors) hs.visitors rfl).mpr ⟨r, hr, rfl⟩

include hs hzone in
/-- What a row of `daily_site_metrics` counts. -/
theorem dailyMetrics_iff (date : Date) (c : Nat × Nat × Nat) :
    (s.dailySiteMetrics.lookup ⟨siteId, date, environment⟩).map metricCounts = some c
      ↔ dateEvents env timezone s siteId environment date ≠ []
        ∧ c = ((dateEvents env timezone s siteId environment date).length,
          (dateEvents env timezone s siteId environment date).countP (fun e => e.eventName = "page_view"),
          (dateEvents env timezone s siteId environment date).countP fun e => e.isConversion) := by
  rw [Summary.Holds.row counts_of hs.metrics rfl, dateEvents_eq hzone, List.length_map, List.countP_map,
    List.countP_map, ne_eq, List.map_eq_nil_iff]
  by_cases hnil : DayPart.site.group env s ⟨siteId, date, environment⟩ = []
  · rw [if_pos hnil]
    exact iff_of_false nofun fun h => h.1 hnil
  · rw [if_neg hnil, Option.some_inj]
    exact ⟨fun h => ⟨hnil, h.symm⟩, fun h => h.2.symm⟩

include hs hlinked hzone in
/-- **The rows from the rollups.** -/
theorem rollupRow_iff : (date, row) ∈ rollupRows s siteId environment first last
    ↔ (first ≤ date ∧ date < last) ∧ dateEvents env timezone s siteId environment date ≠ []
      ∧ row = trendDay (dateEvents env timezone s siteId environment date) := by
  unfold rollupRows
  rw [List.mem_map]
  constructor
  · rintro ⟨m, hm, heq⟩
    obtain ⟨hmem, hin⟩ := List.mem_filter.mp hm
    obtain ⟨hsite, henvironment, hfirst, hlast⟩ := inDays_iff.mp hin
    obtain ⟨rfl, hrow⟩ := Prod.mk.inj heq
    have hkey : m.1 = ⟨siteId, m.1.eventDate, environment⟩ := by
      rw [← hsite, ← henvironment]
    have hlookup : s.dailySiteMetrics.lookup ⟨siteId, m.1.eventDate, environment⟩ = some m.2 := by
      rw [← hkey]
      exact AList.mem_lookup_iff.mpr hmem
    obtain ⟨hne, hcounts⟩ := (dailyMetrics_iff hs hzone m.1.eventDate (metricCounts m.2)).mp (by rw [hlookup]; rfl)
    refine ⟨⟨hfirst, hlast⟩, hne, ?_⟩
    rw [← hrow, visitorCounts_eq hs hlinked hzone hfirst hlast, sessionCounts_eq hs hzone hfirst hlast]
    obtain ⟨hevents, hrest⟩ := Prod.mk.inj hcounts
    obtain ⟨hviews, hconversions⟩ := Prod.mk.inj hrest
    rw [hevents, hviews, hconversions]
    rfl
  · rintro ⟨⟨hfirst, hlast⟩, hne, hrow⟩
    obtain ⟨m, hm, hcounts⟩ := Option.map_eq_some_iff.mp ((dailyMetrics_iff hs hzone date _).mpr ⟨hne, rfl⟩)
    refine ⟨⟨⟨siteId, date, environment⟩, m⟩, ?_, ?_⟩
    · exact List.mem_filter.mpr ⟨AList.mem_lookup_iff.mp hm, inDays_iff.mpr ⟨rfl, rfl, hfirst, hlast⟩⟩
    · obtain ⟨hevents, hrest⟩ := Prod.mk.inj hcounts
      obtain ⟨hviews, hconversions⟩ := Prod.mk.inj hrest
      rw [hrow]
      show (date, TrendDay.mk (((visitorCounts s siteId environment first last).lookup date).getD 0)
        (((sessionCounts s siteId environment first last).lookup date).getD 0) m.pageViews m.events m.conversions) = _
      rw [visitorCounts_eq hs hlinked hzone hfirst hlast, sessionCounts_eq hs hzone hfirst hlast, hevents, hviews,
        hconversions]
      rfl

end Tables

theorem nodup_eventsRows :
    ((eventsRows env timezone s siteId environment from_ to_).map Prod.fst).Nodup := Table.nodup_pairs _

/-- A site has one row for a date and environment. -/
theorem nodup_rollupRows : ((rollupRows s siteId environment first last).map Prod.fst).Nodup := by
  unfold rollupRows
  rw [List.map_map]
  have hkeys : (s.dailySiteMetrics.entries.map Sigma.fst).Nodup := s.dailySiteMetrics.nodupKeys
  refine List.pairwise_map.mpr ?_
  refine ((List.pairwise_map.mp hkeys).filter _).imp_of_mem fun {a b} ha hb hne heq => hne ?_
  obtain ⟨hsite, henvironment, -⟩ := inDays_iff.mp (List.mem_filter.mp ha).2
  obtain ⟨hsite', henvironment', -⟩ := inDays_iff.mp (List.mem_filter.mp hb).2
  have heq : a.1.eventDate = b.1.eventDate := heq
  show DayKey.mk a.1.siteId a.1.eventDate a.1.environment = DayKey.mk b.1.siteId b.1.eventDate b.1.environment
  rw [hsite, hsite', henvironment, henvironment', heq]

/-! ## §4. Where they agree. -/

/-- **The rollups show what the events would**, exactly where the dates and the instants
are the same events. -/
theorem trendFromRollups_eq_iff (hs : DailyTables env siteId s) (hlinked : Linked siteId s)
    (hzone : zoneOf s siteId = some timezone) :
    trendFromRollups s siteId environment first last = trendFromEvents env timezone s siteId environment from_ to_
      ↔ WholeDays env timezone s siteId environment first last from_ to_ := by
  refine (orderBy_eq_iff nodup_rollupRows nodup_eventsRows).trans ?_
  constructor
  · intro hrows r hr hsite henvironment
    -- the row of its date counts all events of the date, or none
    have hmem : analyticsEvent s.visitorIdentities r
        ∈ dateEvents env timezone s siteId environment (env.localDate timezone r.eventTimestamp) :=
      mem_dateEvents.mpr ⟨List.mem_map_of_mem hr, hsite, henvironment, rfl⟩
    have hne := List.ne_nil_of_mem hmem
    constructor
    · intro hdates
      obtain ⟨-, hrow⟩ := eventsRow_iff.mp
        ((hrows _ _).mp ((rollupRow_iff hs hlinked hzone).mpr ⟨hdates, hne, rfl⟩))
      have hall := List.length_filter_eq_length_iff.mp (congrArg TrendDay.events hrow).symm
      exact of_decide_eq_true (hall _ hmem)
    · intro hin
      have hfilter : (dateEvents env timezone s siteId environment (env.localDate timezone r.eventTimestamp)).filter
          (fun e => from_ ≤ e.eventTimestamp ∧ e.eventTimestamp < to_) ≠ [] :=
        List.ne_nil_of_mem (List.mem_filter.mpr ⟨hmem, decide_eq_true hin⟩)
      exact ((rollupRow_iff hs hlinked hzone).mp ((hrows _ _).mpr (eventsRow_iff.mpr ⟨hfilter, rfl⟩))).1
  · intro hwhole date row
    rw [rollupRow_iff hs hlinked hzone, eventsRow_iff]
    have hdate : ∀ e ∈ dateEvents env timezone s siteId environment date,
        (first ≤ date ∧ date < last ↔ from_ ≤ e.eventTimestamp ∧ e.eventTimestamp < to_) := by
      intro e he
      obtain ⟨hmem, hsite, henvironment, hbucket⟩ := mem_dateEvents.mp he
      obtain ⟨r, hr, rfl⟩ := List.mem_map.mp hmem
      rw [← hbucket]
      exact hwhole r hr hsite henvironment
    by_cases hin : first ≤ date ∧ date < last
    · rw [List.filter_eq_self.mpr fun e he => decide_eq_true ((hdate e he).mp hin)]
      exact and_iff_right hin
    · rw [List.filter_eq_nil_iff.mpr fun e he => ?_]
      · exact iff_of_false (fun h => hin h.1) fun h => h.1 rfl
      · rw [decide_eq_true_iff]
        exact fun h => hin ((hdate e he).mpr h)

/-- An instant in whole seconds is one in microseconds. -/
theorem mul_lt_iff {t u : Int} (h : u % second = 0) : t * 1000 < u ↔ t < u / 1000 := by
  have hsecond : u = u / second * 1000000 * 1000 := by
    have := Int.mul_ediv_add_emod u second
    show u = u / 1000000000 * 1000000 * 1000
    have h' : second = 1000000000 := rfl
    rw [h, h'] at this
    omega
  omega

/-- **The clock never shows a date of the range outside of it**, where it passes each of
the two midnights once. -/
theorem wholeDays_of_clock {loc : Location} {start stop : Int}
    (hagree : ∀ t, env.localDate timezone t = loc.localDate (t * 1000))
    (hrange : localDateBucketRange loc start stop = some (first, last))
    (hstart : ∀ t, t < start ↔ loc.localDate t < loc.localDate start)
    (hstop : ∀ t, t < stop ↔ loc.localDate t < loc.localDate stop) :
    WholeDays env timezone s siteId environment first last (start / 1000) (stop / 1000) := by
  unfold localDateBucketRange at hrange
  split at hrange
  next hmidnight =>
    obtain ⟨rfl, rfl⟩ := Prod.mk.inj (Option.some.inj hrange)
    have hwhole : ∀ u offset : Int, (u + offset * 1000000000) % (86400 * 1000000000) = 0 → u % 1000000000 = 0 := by
      intro u offset h
      omega
    have hseconds : ∀ u : Int, loc.wall u % day = 0 → u % second = 0 := fun u hu => hwhole u _ hu
    intro r _ _ _
    rw [hagree, ← not_lt, ← hstart, ← hstop, mul_lt_iff (hseconds _ hmidnight.1), mul_lt_iff (hseconds _ hmidnight.2),
      not_lt]
  next => cases hrange

end Rows

end Momento.Reports
