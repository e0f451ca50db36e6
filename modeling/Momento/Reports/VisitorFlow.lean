/-
  Momento.Reports.VisitorFlow

  **THE VISITORS OF A PERIOD, TABLE BY TABLE.**  The visitor report counts the same people
  in five queries: the headline, the split into new and returning, how often they came,
  how long ago, and who stayed away since the period before.  Each query folds the events
  of the period to one row per person; who is new is what `FirstSeenCTE` has of the daily
  rollup.
-/
import Momento.Foundation.Buckets
import Momento.Foundation.DistinctCount
import Momento.Reports.Attribution
import Momento.Reports.FirstSeen

namespace Momento.Reports

open Foundation Momento.Rollup

/-! ## §1. The queries. -/

/-- What a period has of one person: a row of `period`, `per_user` and `people`. -/
structure Person where
  sessions : Nat
  lastAt : Instant
  converted : Bool
  pageViews : Nat

/-- `count(DISTINCT session_id), max(event_timestamp), bool_or(is_conversion),
count(*) FILTER(WHERE event_name='page_view')`. -/
def personRow (rows : List AnalyticsEvent) : Person where
  sessions := distinct (fun e : AnalyticsEvent => e.sessionId) rows
  lastAt := (maxTime (fun e : AnalyticsEvent => e.eventTimestamp) rows).getD 0
  converted := rows.any fun e => e.isConversion
  pageViews := rows.countP fun e => e.eventName = "page_view"

section Queries
variable (s : Store) (siteId : Uuid) (environment : String) (from_ to_ : Instant)

/-- `WHERE site_id=$1 AND environment=$4 AND event_timestamp >= $2 AND event_timestamp < $3`. -/
def period : List AnalyticsEvent :=
  (analyticsEvents s).filter fun e =>
    e.siteId = siteId ∧ e.environment = environment ∧ from_ ≤ e.eventTimestamp ∧ e.eventTimestamp < to_

/-- `… GROUP BY entity_id`. -/
def people : Table String Person :=
  Table.groupRows (fun e : AnalyticsEvent => e.entityId) (fun _ rows => personRow rows)
    (period s siteId environment from_ to_)

/-- What is counted of a period's visitors. -/
structure PeriodMetrics where
  users : Nat
  newUsers : Nat
  sessions : Nat
  pageViews : Nat
  convertedUsers : Nat
  engagedSessions : Nat
  averageSeconds : ℚ

/-- `session_summary`: the sessions that started in the period. -/
def startedSessions : List Session :=
  (s.sessions.entries.filter fun e => e.1.siteId = siteId ∧ e.1.environment = environment
    ∧ from_ ≤ e.2.startedAt ∧ e.2.startedAt < to_).map Sigma.snd

/-- `periodMetrics`. -/
def periodMetrics : PeriodMetrics :=
  let rows := (people s siteId environment from_ to_).entries
  let sessions := startedSessions s siteId environment from_ to_
  { users := rows.length
    newUsers := (firstSeenCTE s siteId environment to_).entries.countP fun f => from_ ≤ f.2
    sessions :=
      if 0 < sessions.length then sessions.length
      else distinct (fun e : AnalyticsEvent => e.sessionId) (period s siteId environment from_ to_)
    pageViews := (rows.map fun e => e.2.pageViews).sum
    convertedUsers := rows.countP fun e => e.2.converted
    engagedSessions := sessions.countP Session.engaged
    averageSeconds := ratio (sessions.map fun x => ((x.lastEventAt - x.startedAt : Int) : ℚ) / 1000000).sum
      (sessions.length : ℚ) }

/-- What is reported of new or returning visitors. -/
structure LifecycleRow where
  kind : String
  users : Nat
  sessions : Nat
  sessionsPerUser : Binary64
  conversionRate : Binary64
  sharePercent : Binary64

/-- `CASE WHEN f.first_at >= $2 THEN 'new' ELSE 'returning' END`. -/
def kindOf (firstAt : Instant) : String := if from_ ≤ firstAt then "new" else "returning"

/-- A row of `period p JOIN first_seen f ON f.entity_id=p.entity_id`. -/
structure KnownPerson where
  entityId : String
  person : Person
  firstAt : Instant

/-- The people of the period, with when they were first seen. -/
def joinFirstSeen : List KnownPerson :=
  (people s siteId environment from_ to_).entries.filterMap fun p =>
    ((firstSeenCTE s siteId environment to_).lookup p.1).map fun firstAt => ⟨p.1, p.2, firstAt⟩

/-- What the query counts of a kind. -/
structure KindCounts where
  users : Nat
  sessions : Nat
  converted : Nat

/-- The people of a kind, their sessions, and who converted. -/
def countKind (rows : List KnownPerson) : KindCounts :=
  ⟨rows.length, (rows.map fun j => j.person.sessions).sum, rows.countP fun j => j.person.converted⟩

/-- The kinds, each counted. -/
def kinds : Table String KindCounts :=
  Table.groupRows (fun j : KnownPerson => kindOf from_ j.firstAt) (fun _ rows => countKind rows)
    (joinFirstSeen s siteId environment from_ to_)

/-- `insightLifecycle`. -/
def insightLifecycle : List LifecycleRow :=
  let rows := (kinds s siteId environment from_ to_).entries
  let total := (rows.map fun e => e.2.users).sum
  (rows.map fun e =>
    { kind := e.1
      users := e.2.users
      sessions := e.2.sessions
      sessionsPerUser := Momento.ratio (float e.2.sessions) (float e.2.users)
      conversionRate := percent e.2.converted e.2.users
      sharePercent := percent e.2.users total }).mergeSort fun a b => a.kind ≤ b.kind

/-- What is reported of a bucket. -/
structure BucketRow where
  bucket : String
  label : String
  users : Nat
  sharePercent : Binary64
  conversionRate : Binary64

/-- By how many sessions there were. -/
def frequencyOf (p : Person) : String :=
  if p.sessions ≤ 1 then "1" else if p.sessions ≤ 3 then "2-3" else if p.sessions ≤ 9 then "4-9" else "10+"

/-- The days go by the calendar of the database's time zone. -/
def recencyOf (server : Server) (p : Person) : String :=
  if server.minusDays to_ 1 ≤ p.lastAt then "0-1"
  else if server.minusDays to_ 7 ≤ p.lastAt then "2-7"
  else if server.minusDays to_ 30 ≤ p.lastAt then "8-30"
  else "31+"

/-- The bucket, in Korean. -/
def frequencyLabel (bucket : String) : String :=
  if bucket = "1" then "1회 방문" else if bucket = "2-3" then "2~3회 방문"
  else if bucket = "4-9" then "4~9회 방문" else "10회 이상 방문"

/-- The bucket, in Korean. -/
def recencyLabel (bucket : String) : String :=
  if bucket = "0-1" then "최근 1일 이내 활동" else if bucket = "2-7" then "2~7일 전 활동"
  else if bucket = "8-30" then "8~30일 전 활동" else "31일 이상 미활동"

/-- The order of the buckets on the page. -/
def bucketOrder (bucket : String) : Nat :=
  if bucket = "1" ∨ bucket = "0-1" then 0 else if bucket = "2-3" ∨ bucket = "2-7" then 1
  else if bucket = "4-9" ∨ bucket = "8-30" then 2 else if bucket = "10+" ∨ bucket = "31+" then 3 else 0

/-- One of the two distributions: `count(*), count(*) FILTER(WHERE converted) … GROUP BY 2`,
and `finish`. -/
def buckets (bucketOf : Person → String) (label : String → String) : List BucketRow :=
  let rows := (Table.groupRows (fun e : Sigma fun _ : String => Person => bucketOf e.2)
    (fun _ rows => (rows.length, rows.countP fun e => e.2.converted))
    (people s siteId environment from_ to_).entries).entries
  let total := (rows.map fun e => e.2.1).sum
  (rows.map fun e =>
    { bucket := e.1
      label := label e.1
      users := e.2.1
      sharePercent := percent e.2.1 total
      conversionRate := percent e.2.2 e.2.1 }).mergeSort fun a b => bucketOrder a.bucket ≤ bucketOrder b.bucket

/-- `signals`. -/
structure Signals where
  loyalNotConverted : Nat
  singleVisitNew : Nat

/-- `insightVisitorBuckets`. -/
def insightVisitorBuckets (server : Server) : List BucketRow × List BucketRow × Signals :=
  (buckets s siteId environment from_ to_ frequencyOf frequencyLabel,
    buckets s siteId environment from_ to_ (recencyOf to_ server) recencyLabel,
    { loyalNotConverted := (people s siteId environment from_ to_).entries.countP fun e =>
        3 ≤ e.2.sessions ∧ ¬e.2.converted
      singleVisitNew := (joinFirstSeen s siteId environment from_ to_).countP fun j =>
        j.person.sessions ≤ 1 ∧ from_ ≤ j.firstAt })

/-- `SELECT DISTINCT entity_id`. -/
def visitorIds : List String := ((period s siteId environment from_ to_).map fun e => e.entityId).dedup

/-- `insightRetentionFlow`: who stopped visiting, and who came back. -/
def insightRetentionFlow (previousFrom previousTo : Instant) : Nat × Nat :=
  let previous := visitorIds s siteId environment previousFrom previousTo
  let current := visitorIds s siteId environment from_ to_
  let earlier := (firstSeenCTE s siteId environment previousFrom).keys
  (previous.countP fun e => e ∉ current, current.countP fun e => e ∉ previous ∧ e ∈ earlier)

end Queries

/-! ## §2. Who they count. -/

section People
variable (s : Store) (siteId : Uuid) (environment : String) (from_ to_ : Instant)

/-- The people with an event in the period. -/
def visitors : Finset String := ((period s siteId environment from_ to_).map fun e => e.entityId).toFinset

/-- A person has an event before the instant. -/
def SeenBefore (before : Instant) (entity : String) : Prop :=
  ∃ e ∈ analyticsEvents s, e.siteId = siteId ∧ e.environment = environment ∧ e.entityId = entity
    ∧ e.eventTimestamp < before

instance (before : Instant) (entity : String) : Decidable (SeenBefore s siteId environment before entity) :=
  inferInstanceAs (Decidable (∃ e ∈ analyticsEvents s, _))

/-- The visitors with no event before the period. -/
def newcomers : Finset String :=
  (visitors s siteId environment from_ to_).filter fun entity => ¬SeenBefore s siteId environment from_ entity

/-- The visitors with an event before the period. -/
def returners : Finset String :=
  (visitors s siteId environment from_ to_).filter fun entity => SeenBefore s siteId environment from_ entity

/-- What the period has of a person. -/
def personOf (entity : String) : Person :=
  personRow (Table.groupOf (fun e : AnalyticsEvent => e.entityId) (period s siteId environment from_ to_) entity)

/-- When the report has a person first. -/
def firstAt (before : Instant) (entity : String) : Instant :=
  ((firstSeenCTE s siteId environment before).lookup entity).getD 0

/-- The users a report has of a kind. -/
def usersOf (rows : List LifecycleRow) (kind : String) : Nat :=
  ((rows.filter fun r => r.kind = kind).map LifecycleRow.users).sum

/-- **The visitors of a period add up.** -/
structure VisitorsAddUp (server : Server) (previousFrom previousTo : Instant) : Prop where
  users : (periodMetrics s siteId environment from_ to_).users = (visitors s siteId environment from_ to_).card
  newUsers : (periodMetrics s siteId environment from_ to_).newUsers
    = (newcomers s siteId environment from_ to_).card
  lifecycleNew : usersOf (insightLifecycle s siteId environment from_ to_) "new"
    = (newcomers s siteId environment from_ to_).card
  lifecycleReturning : usersOf (insightLifecycle s siteId environment from_ to_) "returning"
    = (returners s siteId environment from_ to_).card
  split : (newcomers s siteId environment from_ to_).card + (returners s siteId environment from_ to_).card
    = (visitors s siteId environment from_ to_).card
  frequency : ((insightVisitorBuckets s siteId environment from_ to_ server).1.map BucketRow.users).sum
    = (visitors s siteId environment from_ to_).card
  recency : ((insightVisitorBuckets s siteId environment from_ to_ server).2.1.map BucketRow.users).sum
    = (visitors s siteId environment from_ to_).card
  singleVisitNew : (insightVisitorBuckets s siteId environment from_ to_ server).2.2.singleVisitNew
    = ((newcomers s siteId environment from_ to_).filter fun entity =>
        (personOf s siteId environment from_ to_ entity).sessions ≤ 1).card
  /-- The shares come to a hundred, but for the rounding of the doubles. -/
  shares : (visitors s siteId environment from_ to_).Nonempty →
    (visitors s siteId environment from_ to_).card ≤ 2 ^ 46 →
      AddUp ((insightLifecycle s siteId environment from_ to_).map LifecycleRow.sharePercent)
        ∧ AddUp ((insightVisitorBuckets s siteId environment from_ to_ server).1.map BucketRow.sharePercent)
        ∧ AddUp ((insightVisitorBuckets s siteId environment from_ to_ server).2.1.map BucketRow.sharePercent)
  /-- The sessions add up where a session is of one person. -/
  sessions : ((insightLifecycle s siteId environment from_ to_).map LifecycleRow.sessions).sum
      = distinct (fun e : AnalyticsEvent => e.sessionId) (period s siteId environment from_ to_)
    ↔ ∀ e ∈ period s siteId environment from_ to_, ∀ e' ∈ period s siteId environment from_ to_,
        e.sessionId = e'.sessionId → e.entityId = e'.entityId
  flow : insightRetentionFlow s siteId environment from_ to_ previousFrom previousTo
    = ((visitors s siteId environment previousFrom previousTo \ visitors s siteId environment from_ to_).card,
      ((visitors s siteId environment from_ to_ \ visitors s siteId environment previousFrom previousTo).filter
        fun entity => SeenBefore s siteId environment previousFrom entity).card)
  /-- Who returns was here in the period before, or came back. -/
  cameBack : previousTo = from_ → previousFrom ≤ from_ → (returners s siteId environment from_ to_).card
    = (visitors s siteId environment from_ to_ ∩ visitors s siteId environment previousFrom previousTo).card
      + (insightRetentionFlow s siteId environment from_ to_ previousFrom previousTo).2
  newOnce : ∀ from' to' : Instant, to_ ≤ from' →
    Disjoint (newcomers s siteId environment from_ to_) (newcomers s siteId environment from' to')

end People

section Counts
variable {s : Store} {siteId : Uuid} {environment : String} {from_ to_ : Instant}

theorem mem_period {e : AnalyticsEvent} :
    e ∈ period s siteId environment from_ to_
      ↔ e ∈ analyticsEvents s ∧ e.siteId = siteId ∧ e.environment = environment ∧ from_ ≤ e.eventTimestamp
        ∧ e.eventTimestamp < to_ := by
  unfold period
  rw [List.mem_filter, decide_eq_true_iff]

theorem mem_visitors {entity : String} :
    entity ∈ visitors s siteId environment from_ to_
      ↔ ∃ e ∈ analyticsEvents s, e.siteId = siteId ∧ e.environment = environment ∧ e.entityId = entity
        ∧ from_ ≤ e.eventTimestamp ∧ e.eventTimestamp < to_ := by
  unfold visitors
  rw [List.mem_toFinset, List.mem_map]
  constructor
  · intro h
    obtain ⟨e, he, hentity⟩ := h
    obtain ⟨hmem, hsite, henvironment, hfrom, hto⟩ := mem_period.mp he
    exact ⟨e, hmem, hsite, henvironment, hentity, hfrom, hto⟩
  · intro h
    obtain ⟨e, hmem, hsite, henvironment, hentity, hfrom, hto⟩ := h
    exact ⟨e, mem_period.mpr ⟨hmem, hsite, henvironment, hfrom, hto⟩, hentity⟩

/-- A visitor of the period was seen before its end. -/
theorem seenBefore_of_visitor {entity : String} (h : entity ∈ visitors s siteId environment from_ to_) :
    SeenBefore s siteId environment to_ entity := by
  obtain ⟨e, he, hsite, henvironment, hentity, -, hto⟩ := mem_visitors.mp h
  exact ⟨e, he, hsite, henvironment, hentity, hto⟩

/-- Who was seen before the end of a period was seen before it, or visits in it. -/
theorem seenBefore_iff {entity : String} (h : from_ ≤ to_) :
    SeenBefore s siteId environment to_ entity
      ↔ SeenBefore s siteId environment from_ entity ∨ entity ∈ visitors s siteId environment from_ to_ := by
  constructor
  · intro hseen
    obtain ⟨e, he, hsite, henvironment, hentity, hto⟩ := hseen
    by_cases hfrom : e.eventTimestamp < from_
    · exact .inl ⟨e, he, hsite, henvironment, hentity, hfrom⟩
    · exact .inr (mem_visitors.mpr ⟨e, he, hsite, henvironment, hentity, not_lt.mp hfrom, hto⟩)
  · intro hseen
    cases hseen with
    | inl hseen =>
      obtain ⟨e, he, hsite, henvironment, hentity, hbefore⟩ := hseen
      exact ⟨e, he, hsite, henvironment, hentity, hbefore.trans_le h⟩
    | inr hvisitor => exact seenBefore_of_visitor hvisitor

/-! ### The rows of the people. -/

theorem keys_people :
    (people s siteId environment from_ to_).entries.map Sigma.fst
      = ((period s siteId environment from_ to_).map fun e => e.entityId).dedup := by
  show (((period s siteId environment from_ to_).map fun e => e.entityId).dedup.map _).map Sigma.fst = _
  rw [List.map_map]
  exact List.map_id _

theorem mem_people {e : Sigma fun _ : String => Person} :
    e ∈ (people s siteId environment from_ to_).entries
      ↔ e.1 ∈ visitors s siteId environment from_ to_ ∧ e.2 = personOf s siteId environment from_ to_ e.1 := by
  show e ∈ ((period s siteId environment from_ to_).map fun e => e.entityId).dedup.map _ ↔ _
  rw [List.mem_map]
  constructor
  · intro h
    obtain ⟨entity, hmem, rfl⟩ := h
    exact ⟨List.mem_toFinset.mpr (List.mem_dedup.mp hmem), rfl⟩
  · intro h
    obtain ⟨hmem, hperson⟩ := h
    refine ⟨e.1, List.mem_dedup.mpr (List.mem_toFinset.mp hmem), ?_⟩
    exact Sigma.ext rfl (heq_of_eq hperson.symm)

/-- **Each visitor is one row.** -/
theorem length_people :
    (people s siteId environment from_ to_).entries.length = (visitors s siteId environment from_ to_).card := by
  rw [← List.length_map Sigma.fst, keys_people]
  exact (List.card_toFinset _).symm

theorem length_people_filter (p : String → Person → Bool) :
    ((people s siteId environment from_ to_).entries.filter fun e => p e.1 e.2).length
      = ((visitors s siteId environment from_ to_).filter fun entity =>
          p entity (personOf s siteId environment from_ to_ entity) = true).card := by
  rw [← Table.card_filter_keys]
  congr 1
  ext entity
  rw [List.mem_toFinset, List.mem_map, Finset.mem_filter]
  constructor
  · intro h
    obtain ⟨e, he, rfl⟩ := h
    obtain ⟨hmem, hp⟩ := List.mem_filter.mp he
    obtain ⟨hvisitor, hperson⟩ := mem_people.mp hmem
    rw [← hperson]
    exact ⟨hvisitor, hp⟩
  · intro h
    exact ⟨⟨entity, personOf s siteId environment from_ to_ entity⟩,
      List.mem_filter.mpr ⟨mem_people.mpr ⟨h.1, rfl⟩, h.2⟩, rfl⟩

/-- The sessions of the people are the distinct pairs of a person and a session. -/
theorem sum_people_sessions :
    ((people s siteId environment from_ to_).entries.map fun e => e.2.sessions).sum
      = distinct (fun e : AnalyticsEvent => (e.entityId, e.sessionId)) (period s siteId environment from_ to_) := by
  rw [← sum_distinct_groups (List.nodup_dedup _) fun e he => List.mem_dedup.mpr (List.mem_map_of_mem he)]
  show ((((period s siteId environment from_ to_).map fun e => e.entityId).dedup.map _).map _).sum = _
  rw [List.map_map]
  rfl

theorem countP_visitorIds (p : String → Bool) :
    (visitorIds s siteId environment from_ to_).countP p
      = ((visitors s siteId environment from_ to_).filter fun entity => p entity = true).card := by
  unfold visitorIds visitors
  have hnodup := (List.nodup_dedup ((period s siteId environment from_ to_).map fun e => e.entityId)).filter p
  rw [List.countP_eq_length_filter, ← List.toFinset_card_of_nodup hnodup]
  congr 1
  ext entity
  simp only [List.mem_toFinset, List.mem_filter, List.mem_dedup, Finset.mem_filter]

theorem mem_visitorIds {entity : String} :
    entity ∈ visitorIds s siteId environment from_ to_ ↔ entity ∈ visitors s siteId environment from_ to_ := by
  unfold visitorIds visitors
  rw [List.mem_dedup, List.mem_toFinset]

end Counts

/-! ## §3. Who is new. -/

section New
variable {env : Platform} {s : Store} {siteId : Uuid} {environment : String} {from_ to_ before : Instant}
  {entity : String}

theorem seenBefore_iff_eventTimes :
    SeenBefore s siteId environment before entity ↔ ∃ t ∈ eventTimes s siteId environment entity, t < before := by
  constructor
  · intro h
    obtain ⟨e, he, hsite, henvironment, hentity, hbefore⟩ := h
    exact ⟨e.eventTimestamp, ⟨e, he, hsite, henvironment, hentity, rfl⟩, hbefore⟩
  · intro h
    obtain ⟨t, ⟨e, he, hsite, henvironment, hentity, ht⟩, hbefore⟩ := h
    exact ⟨e, he, hsite, henvironment, hentity, ht ▸ hbefore⟩

theorem lookup_firstSeenCTE_of (hs : RolledUp env siteId s) {first : Instant} :
    (firstSeenCTE s siteId environment before).lookup entity = some first
      ↔ SeenBefore s siteId environment before entity ∧ IsLeast (eventTimes s siteId environment entity) first := by
  rw [lookup_firstSeenCTE_iff, seenBefore_iff_eventTimes]
  exact isLeast_iff_of_below (fun t ht => eventTimes_of_rowTimes hs ht) fun t ht => rowTimes_below hs ht

/-- The report has everyone who was seen. -/
theorem mem_firstSeenCTE_iff (hs : RolledUp env siteId s) :
    entity ∈ firstSeenCTE s siteId environment before ↔ SeenBefore s siteId environment before entity := by
  rw [← AList.lookup_isSome]
  constructor
  · intro h
    obtain ⟨first, hfirst⟩ := Option.isSome_iff_exists.mp h
    exact ((lookup_firstSeenCTE_of hs).mp hfirst).1
  · intro h
    obtain ⟨t, ht, hbefore⟩ := seenBefore_iff_eventTimes.mp h
    obtain ⟨t', ht', -⟩ := rowTimes_below hs ht hbefore
    have hgroup : (entity, t') ∈ Table.groupOf Prod.fst (seenDays s siteId environment before) entity :=
      List.mem_filter.mpr ⟨ht', decide_eq_true rfl⟩
    unfold firstSeenCTE
    rw [Table.lookup_groupRows, if_neg (List.ne_nil_of_mem hgroup)]
    rfl

theorem lookup_firstSeenCTE (hs : RolledUp env siteId s) (h : SeenBefore s siteId environment before entity) :
    (firstSeenCTE s siteId environment before).lookup entity = some (firstAt s siteId environment before entity) := by
  obtain ⟨first, hfirst⟩ := Option.isSome_iff_exists.mp (AList.lookup_isSome.mpr ((mem_firstSeenCTE_iff hs).mpr h))
  unfold firstAt
  rw [hfirst, Option.getD_some]

/-- **A person's first visit lies in the period exactly where no event of theirs is older.** -/
theorem firstAt_iff (hs : RolledUp env siteId s) (h : SeenBefore s siteId environment before entity) :
    from_ ≤ firstAt s siteId environment before entity ↔ ¬SeenBefore s siteId environment from_ entity := by
  obtain ⟨-, hmem, hleast⟩ := (lookup_firstSeenCTE_of hs).mp (lookup_firstSeenCTE hs h)
  rw [seenBefore_iff_eventTimes]
  constructor
  · intro hfrom hseen
    obtain ⟨t, ht, hbefore⟩ := hseen
    exact absurd ((hfrom.trans (hleast ht)).trans_lt hbefore) (lt_irrefl _)
  · intro hnot
    by_contra hlate
    exact hnot ⟨_, hmem, not_le.mp hlate⟩

/-- **Every visitor has a first visit**, so the join loses no row. -/
theorem joinFirstSeen_eq (hs : RolledUp env siteId s) :
    joinFirstSeen s siteId environment from_ to_
      = (people s siteId environment from_ to_).entries.map fun p =>
          ⟨p.1, p.2, firstAt s siteId environment to_ p.1⟩ := by
  unfold joinFirstSeen
  rw [← List.filterMap_eq_map]
  refine List.filterMap_congr fun p hp => ?_
  rw [lookup_firstSeenCTE hs (seenBefore_of_visitor (mem_people.mp hp).1), Option.map_some]
  rfl

/-- The rows of the join that a condition selects are the visitors it selects. -/
theorem length_joinFirstSeen_filter (hs : RolledUp env siteId s) (q : KnownPerson → Bool) :
    ((joinFirstSeen s siteId environment from_ to_).filter q).length
      = ((visitors s siteId environment from_ to_).filter fun entity =>
          q ⟨entity, personOf s siteId environment from_ to_ entity, firstAt s siteId environment to_ entity⟩
            = true).card := by
  rw [joinFirstSeen_eq hs, List.filter_map, List.length_map]
  exact length_people_filter fun entity person => q ⟨entity, person, firstAt s siteId environment to_ entity⟩

theorem filter_firstAt_eq_newcomers (hs : RolledUp env siteId s) :
    ((visitors s siteId environment from_ to_).filter fun entity => from_ ≤ firstAt s siteId environment to_ entity)
      = newcomers s siteId environment from_ to_ := by
  unfold newcomers
  exact Finset.filter_congr fun entity h => firstAt_iff hs (seenBefore_of_visitor h)

/-- The headline's new users: nobody who is first seen in the period is not a visitor of it. -/
theorem newUsers_eq (hs : RolledUp env siteId s) :
    (periodMetrics s siteId environment from_ to_).newUsers = (newcomers s siteId environment from_ to_).card := by
  show (firstSeenCTE s siteId environment to_).entries.countP (fun f => decide (from_ ≤ f.2)) = _
  rw [List.countP_eq_length_filter, ← Table.card_filter_keys]
  congr 1
  ext entity
  unfold newcomers
  rw [List.mem_toFinset, List.mem_map, Finset.mem_filter]
  constructor
  · intro h
    obtain ⟨f, hf, rfl⟩ := h
    obtain ⟨hmem, hfrom⟩ := List.mem_filter.mp hf
    have hlookup := AList.mem_lookup_iff.mpr hmem
    obtain ⟨hseen, ⟨e, he, hsite, henvironment, hentity, htime⟩, hleast⟩ := (lookup_firstSeenCTE_of hs).mp hlookup
    have hfrom := of_decide_eq_true hfrom
    obtain ⟨t, ht, hto⟩ := seenBefore_iff_eventTimes.mp hseen
    refine ⟨mem_visitors.mpr ⟨e, he, hsite, henvironment, hentity, ?_, ?_⟩, ?_⟩
    · rw [htime]
      exact hfrom
    · rw [htime]
      exact (hleast ht).trans_lt hto
    · rw [← firstAt_iff hs hseen]
      unfold firstAt
      rw [hlookup, Option.getD_some]
      exact hfrom
  · intro h
    obtain ⟨hvisitor, hnot⟩ := h
    have hseen := seenBefore_of_visitor hvisitor
    refine ⟨⟨entity, firstAt s siteId environment to_ entity⟩, List.mem_filter.mpr ⟨?_, decide_eq_true ?_⟩, rfl⟩
    · exact AList.mem_lookup_iff.mp (lookup_firstSeenCTE hs hseen)
    · exact (firstAt_iff hs hseen).mpr hnot

/-! ### The tables. -/

theorem usersOf_insightLifecycle (kind : String) :
    usersOf (insightLifecycle s siteId environment from_ to_) kind
      = ((joinFirstSeen s siteId environment from_ to_).filter fun j => kindOf from_ j.firstAt = kind).length := by
  unfold usersOf insightLifecycle
  rw [(((List.mergeSort_perm _ _).filter _).map _).sum_eq, List.filter_map, List.map_map]
  have hline := Table.sum_groupRows_of (f := KindCounts.users) (fun j : KnownPerson => kindOf from_ j.firstAt)
    (fun _ rows => countKind rows) (joinFirstSeen s siteId environment from_ to_) kind
  refine Eq.trans hline ?_
  split
  next hnil =>
    have hnil : (joinFirstSeen s siteId environment from_ to_).filter (fun j => kindOf from_ j.firstAt = kind) = [] :=
      hnil
    rw [hnil, List.length_nil]
  · rfl

theorem kindOf_eq_new_iff {firstAt : Instant} : kindOf from_ firstAt = "new" ↔ from_ ≤ firstAt := by
  unfold kindOf
  split
  · next h => exact iff_of_true rfl h
  · next h => exact iff_of_false (by decide) h

theorem kindOf_eq_returning_iff {firstAt : Instant} : kindOf from_ firstAt = "returning" ↔ ¬from_ ≤ firstAt := by
  unfold kindOf
  split
  · next h => exact iff_of_false (by decide) (not_not.mpr h)
  · next h => exact iff_of_true rfl h

theorem lifecycleNew_eq (hs : RolledUp env siteId s) :
    usersOf (insightLifecycle s siteId environment from_ to_) "new"
      = (newcomers s siteId environment from_ to_).card := by
  rw [usersOf_insightLifecycle, length_joinFirstSeen_filter hs, ← filter_firstAt_eq_newcomers hs]
  simp only [decide_eq_true_iff, kindOf_eq_new_iff]

theorem lifecycleReturning_eq (hs : RolledUp env siteId s) :
    usersOf (insightLifecycle s siteId environment from_ to_) "returning"
      = (returners s siteId environment from_ to_).card := by
  rw [usersOf_insightLifecycle, length_joinFirstSeen_filter hs]
  unfold returners
  congr 1
  refine Finset.filter_congr fun entity h => ?_
  rw [decide_eq_true_iff, kindOf_eq_returning_iff, firstAt_iff hs (seenBefore_of_visitor h), not_not]

theorem split_eq :
    (newcomers s siteId environment from_ to_).card + (returners s siteId environment from_ to_).card
      = (visitors s siteId environment from_ to_).card := by
  unfold newcomers returners
  rw [add_comm]
  exact Finset.card_filter_add_card_filter_not _

theorem sum_buckets_users (bucketOf : Person → String) (label : String → String) :
    ((buckets s siteId environment from_ to_ bucketOf label).map BucketRow.users).sum
      = (visitors s siteId environment from_ to_).card := by
  unfold buckets
  rw [((List.mergeSort_perm _ _).map _).sum_eq, List.map_map]
  have hlines := Table.sum_groupRows (f := Prod.fst) (w := fun _ => 1)
    (fun e : Sigma fun _ : String => Person => bucketOf e.2)
    (fun _ rows => (rows.length, rows.countP fun e => e.2.converted))
    (fun _ group => by simp) (people s siteId environment from_ to_).entries
  refine Eq.trans hlines ?_
  rw [List.map_const', List.sum_replicate, smul_eq_mul, mul_one, length_people]

theorem addUp_buckets (h : (visitors s siteId environment from_ to_).Nonempty)
    (hsmall : (visitors s siteId environment from_ to_).card ≤ 2 ^ 46) (bucketOf : Person → String)
    (label : String → String) :
    AddUp ((buckets s siteId environment from_ to_ bucketOf label).map BucketRow.sharePercent) := by
  have htotal : ((buckets s siteId environment from_ to_ bucketOf label).map BucketRow.users).sum
      = (visitors s siteId environment from_ to_).card := sum_buckets_users bucketOf label
  -- a share is of what the lines have together
  have hshare : ∀ r ∈ buckets s siteId environment from_ to_ bucketOf label,
      r.sharePercent = percent r.users (visitors s siteId environment from_ to_).card := by
    intro r hr
    rw [← htotal]
    unfold buckets at hr ⊢
    rw [((List.mergeSort_perm _ _).map _).sum_eq, List.map_map]
    obtain ⟨e, -, rfl⟩ := List.mem_map.mp (List.mem_mergeSort.mp hr)
    rfl
  rw [List.map_congr_left hshare]
  exact percents_addUp htotal (Finset.card_pos.mpr h).ne' hsmall

theorem sum_lifecycle_users (hs : RolledUp env siteId s) :
    ((kinds s siteId environment from_ to_).entries.map fun e => e.2.users).sum
      = (visitors s siteId environment from_ to_).card := by
  have hlines := Table.sum_groupRows (f := KindCounts.users) (w := fun _ => 1)
    (fun j : KnownPerson => kindOf from_ j.firstAt) (fun _ rows => countKind rows)
    (fun _ group => by simp [countKind]) (joinFirstSeen s siteId environment from_ to_)
  refine Eq.trans hlines ?_
  rw [List.map_const', List.sum_replicate, smul_eq_mul, mul_one, joinFirstSeen_eq hs, List.length_map, length_people]

theorem addUp_lifecycle (hs : RolledUp env siteId s) (h : (visitors s siteId environment from_ to_).Nonempty)
    (hsmall : (visitors s siteId environment from_ to_).card ≤ 2 ^ 46) :
    AddUp ((insightLifecycle s siteId environment from_ to_).map LifecycleRow.sharePercent) := by
  have htotal : ((insightLifecycle s siteId environment from_ to_).map LifecycleRow.users).sum
      = (visitors s siteId environment from_ to_).card := by
    rw [← sum_lifecycle_users hs]
    unfold insightLifecycle
    rw [((List.mergeSort_perm _ _).map _).sum_eq, List.map_map]
    rfl
  have hshare : ∀ r ∈ insightLifecycle s siteId environment from_ to_,
      r.sharePercent = percent r.users (visitors s siteId environment from_ to_).card := by
    intro r hr
    rw [← sum_lifecycle_users hs]
    unfold insightLifecycle at hr
    obtain ⟨e, -, rfl⟩ := List.mem_map.mp (List.mem_mergeSort.mp hr)
    rfl
  rw [List.map_congr_left hshare]
  exact percents_addUp htotal (Finset.card_pos.mpr h).ne' hsmall

/-- **The sessions of the kinds are those of the period where a session is of one person.** -/
theorem sum_lifecycle_sessions_iff (hs : RolledUp env siteId s) :
    ((insightLifecycle s siteId environment from_ to_).map LifecycleRow.sessions).sum
        = distinct (fun e : AnalyticsEvent => e.sessionId) (period s siteId environment from_ to_)
      ↔ ∀ e ∈ period s siteId environment from_ to_, ∀ e' ∈ period s siteId environment from_ to_,
          e.sessionId = e'.sessionId → e.entityId = e'.entityId := by
  have hlines := Table.sum_groupRows (f := KindCounts.sessions) (w := fun j => j.person.sessions)
    (fun j : KnownPerson => kindOf from_ j.firstAt) (fun _ rows => countKind rows)
    (fun _ group => rfl) (joinFirstSeen s siteId environment from_ to_)
  have hsum : ((insightLifecycle s siteId environment from_ to_).map LifecycleRow.sessions).sum
      = distinct (fun e : AnalyticsEvent => (e.entityId, e.sessionId)) (period s siteId environment from_ to_) := by
    unfold insightLifecycle
    rw [((List.mergeSort_perm _ _).map _).sum_eq, List.map_map, ← sum_people_sessions]
    refine Eq.trans hlines ?_
    rw [joinFirstSeen_eq hs, List.map_map]
    rfl
  rw [hsum]
  exact distinct_pair_eq_iff

theorem singleVisitNew_eq (hs : RolledUp env siteId s) (server : Server) :
    (insightVisitorBuckets s siteId environment from_ to_ server).2.2.singleVisitNew
      = ((newcomers s siteId environment from_ to_).filter fun entity =>
          (personOf s siteId environment from_ to_ entity).sessions ≤ 1).card := by
  show (joinFirstSeen s siteId environment from_ to_).countP _ = _
  rw [List.countP_eq_length_filter, length_joinFirstSeen_filter hs, ← filter_firstAt_eq_newcomers hs,
    Finset.filter_filter]
  congr 1
  refine Finset.filter_congr fun entity _ => ?_
  rw [decide_eq_true_iff, and_comm]

theorem insightRetentionFlow_eq (hs : RolledUp env siteId s) (previousFrom previousTo : Instant) :
    insightRetentionFlow s siteId environment from_ to_ previousFrom previousTo
      = ((visitors s siteId environment previousFrom previousTo \ visitors s siteId environment from_ to_).card,
        ((visitors s siteId environment from_ to_ \ visitors s siteId environment previousFrom previousTo).filter
          fun entity => SeenBefore s siteId environment previousFrom entity).card) := by
  refine Prod.ext ?_ ?_
  · show (visitorIds s siteId environment previousFrom previousTo).countP _
      = (visitors s siteId environment previousFrom previousTo \ visitors s siteId environment from_ to_).card
    rw [countP_visitorIds, ← Finset.filter_notMem_eq_sdiff]
    simp only [decide_eq_true_iff, mem_visitorIds]
  · show (visitorIds s siteId environment from_ to_).countP _
      = ((visitors s siteId environment from_ to_ \ visitors s siteId environment previousFrom previousTo).filter
          fun entity => SeenBefore s siteId environment previousFrom entity).card
    rw [countP_visitorIds, ← Finset.filter_notMem_eq_sdiff, Finset.filter_filter]
    simp only [decide_eq_true_iff, mem_visitorIds, ← AList.mem_keys, mem_firstSeenCTE_iff hs]

/-- **Who returns was here in the period before, or came back from longer ago.** -/
theorem returners_eq (hs : RolledUp env siteId s) {previousFrom : Instant} (h : previousFrom ≤ from_) :
    (returners s siteId environment from_ to_).card
      = (visitors s siteId environment from_ to_ ∩ visitors s siteId environment previousFrom from_).card
        + (insightRetentionFlow s siteId environment from_ to_ previousFrom from_).2 := by
  have hback : (insightRetentionFlow s siteId environment from_ to_ previousFrom from_).2
      = ((visitors s siteId environment from_ to_ \ visitors s siteId environment previousFrom from_).filter
          fun entity => SeenBefore s siteId environment previousFrom entity).card :=
    congrArg Prod.snd (insightRetentionFlow_eq hs previousFrom from_)
  rw [hback, ← Finset.filter_notMem_eq_sdiff, ← Finset.filter_mem_eq_inter, Finset.filter_filter,
    ← Finset.card_union_of_disjoint]
  · congr 1
    rw [← Finset.filter_or]
    unfold returners
    refine Finset.filter_congr fun entity _ => ?_
    rw [seenBefore_iff h]
    by_cases hmem : entity ∈ visitors s siteId environment previousFrom from_
    · exact iff_of_true (.inr hmem) (.inl hmem)
    · constructor
      · intro hseen
        exact .inr ⟨hmem, hseen.resolve_right hmem⟩
      · intro hback
        exact .inl (hback.resolve_left hmem).2
  · rw [Finset.disjoint_filter]
    intro entity _ hmem hback
    exact hback.1 hmem

/-- **Nobody is new twice.** -/
theorem newcomers_disjoint {from' to' : Instant} (h : to_ ≤ from') :
    Disjoint (newcomers s siteId environment from_ to_) (newcomers s siteId environment from' to') := by
  rw [Finset.disjoint_left]
  intro entity hnew hagain
  obtain ⟨e, he, hsite, henvironment, hentity, -, hto⟩ := mem_visitors.mp (Finset.mem_filter.mp hnew).1
  exact (Finset.mem_filter.mp hagain).2 ⟨e, he, hsite, henvironment, hentity, hto.trans_le h⟩

theorem visitorsAddUp (hs : RolledUp env siteId s) (server : Server) (previousFrom previousTo : Instant) :
    VisitorsAddUp s siteId environment from_ to_ server previousFrom previousTo where
  users := length_people
  newUsers := newUsers_eq hs
  lifecycleNew := lifecycleNew_eq hs
  lifecycleReturning := lifecycleReturning_eq hs
  split := split_eq
  frequency := sum_buckets_users frequencyOf frequencyLabel
  recency := sum_buckets_users (recencyOf to_ server) recencyLabel
  singleVisitNew := singleVisitNew_eq hs server
  shares h hsmall := ⟨addUp_lifecycle hs h hsmall, addUp_buckets h hsmall frequencyOf frequencyLabel,
    addUp_buckets h hsmall (recencyOf to_ server) recencyLabel⟩
  sessions := sum_lifecycle_sessions_iff hs
  flow := insightRetentionFlow_eq hs previousFrom previousTo
  cameBack hprevious hfrom := by
    subst hprevious
    exact returners_eq hs hfrom
  newOnce _ _ h := newcomers_disjoint h

end New

/-! ## §4. Every course. -/

/-- **The visitors of a period add up**: after any course in which nothing expires, the
tables of the visitor report have every visitor of the period once, split by whether an
event of theirs is older, and account for those of the period before. -/
theorem visitors_addUp (env : Platform) (server : Server) (config : Config) (actions : List Rollup.Action)
    (hexpires : Along (History.step env) NothingExpires (History.initial config) actions)
    (siteId : Uuid) (environment : String) (from_ to_ previousFrom previousTo : Instant) :
    VisitorsAddUp (actions.foldl (History.step env) (History.initial config)).store siteId environment from_ to_
      server previousFrom previousTo :=
  visitorsAddUp (rolledUp_run config actions hexpires siteId) server previousFrom previousTo

/-- A day, in microseconds. -/
def Sample.day : Int := 86400000000

/-- The visitor who says late who they are is one returning person. -/
theorem visitors_addUp_lateName :
    usersOf (insightLifecycle (lateNameRun.foldl (History.step Sample.platform)
        (History.initial (Sample.config 100))).store Sample.siteId "prd" (Sample.newYear * 1000)
        (Sample.newYear * 1000 + Sample.day)) "returning" = 1
      ∧ VisitorsAddUp (lateNameRun.foldl (History.step Sample.platform)
          (History.initial (Sample.config 100))).store Sample.siteId "prd" (Sample.newYear * 1000)
          (Sample.newYear * 1000 + Sample.day) AttributionSample.server (Sample.newYear * 1000 - Sample.day)
          (Sample.newYear * 1000) :=
  ⟨by decide +kernel, visitors_addUp Sample.platform AttributionSample.server (Sample.config 100) lateNameRun
    ⟨trivial, trivial, trivial, trivial, trivial⟩ Sample.siteId "prd" (Sample.newYear * 1000)
    (Sample.newYear * 1000 + Sample.day) (Sample.newYear * 1000 - Sample.day) (Sample.newYear * 1000)⟩

end Momento.Reports
