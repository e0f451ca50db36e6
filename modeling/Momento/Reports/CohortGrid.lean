/-
  Momento.Reports.CohortGrid

  **WHO COMES BACK.**  `runCohortGrid` asks one query for the cohorts of a window, their
  sizes, and how many of each were active in the periods after, and builds one row per
  cohort from the sorted answer.  A person's cohort is the bucket of their first activity,
  read from every event where an event name or a segment says what counts, and from the
  daily rollup where nothing does.
-/
import Mathlib.Data.Set.Card
import Momento.Foundation.Buckets
import Momento.Foundation.DistinctCount
import Momento.Reports.CohortMaturity
import Momento.Reports.VisitorFlow

namespace Momento.Cohorts

open Foundation Foundation.Calendar Momento.Rollup Momento.Reports

/-! ## §1. The query. -/

/-- `cohortParams`. -/
structure CohortParams where
  from_ : Instant
  to_ : Instant
  environment : String
  timezone : String
  granularity : Granularity
  periods : Nat
  cohortEvent : String
  returnEvent : String

/-- The bucket of a local date: `date_trunc('week', …)` is its Monday, `date_trunc('month', …)`
the first of its month. -/
def Granularity.bucketOf (granularity : Granularity) (date : Date) : Date :=
  match granularity with
  | .day => date
  | .week => date - (date + 3) % 7
  | .month => monthStart (monthOf date)

/-- `period_no`. -/
def Granularity.offset (granularity : Granularity) (activityDate cohortDate : Date) : Int :=
  match granularity with
  | .day => activityDate - cohortDate
  | .week => (activityDate - cohortDate).tdiv 7
  | .month => (yearOf activityDate - yearOf cohortDate) * 12 + monthOfYear activityDate - monthOfYear cohortDate

/-- A row of the answer. -/
structure GridRow where
  cohort : Int
  size : Nat
  period : Int
  retained : Nat

section Query
variable (env : Platform) (s : Store) (siteId : Uuid) (params : CohortParams)

/-- The bucket of an instant. -/
def CohortParams.bucket (t : Instant) : Date := params.granularity.bucketOf (env.localDate params.timezone t)

/-- `WHERE e.site_id=$1 AND e.environment=$4 … AND (segment)`. -/
def eventsInScope (segment : Option (AnalyticsEvent → Bool)) : List AnalyticsEvent :=
  (analyticsEvents s).filter fun e =>
    e.siteId = siteId ∧ e.environment = params.environment ∧ segment.elim true (fun keeps => keeps e) = true

/-- The candidates read from the events. -/
def candidatesFromEvents (segment : Option (AnalyticsEvent → Bool)) : Table String Date :=
  Table.groupRows (fun e : AnalyticsEvent => e.entityId)
    (fun _ rows => (minTime (fun e : AnalyticsEvent => params.bucket env e.eventTimestamp) rows).getD 0)
    ((eventsInScope s siteId params segment).filter fun e => params.cohortEvent = "" ∨ e.eventName = params.cohortEvent)

/-- The candidates read from the daily visitor rollup. -/
def candidatesFromRollup : Table String Date :=
  (firstSeenCTE s siteId params.environment params.to_).modifyRows fun _ first => params.bucket env first

/-- `cohort_candidates`. -/
def cohortCandidates (segment : Option (AnalyticsEvent → Bool)) : Table String Date :=
  if params.cohortEvent = "" ∧ segment.isNone then candidatesFromRollup env s siteId params
  else candidatesFromEvents env s siteId params segment

/-- `cohorts`. -/
def cohorts (candidates : Table String Date) : Table String Date :=
  candidates.keepRows fun _ date =>
    env.localDate params.timezone params.from_ ≤ date ∧ date < env.localDate params.timezone params.to_

/-- `activity`: the person and the bucket. -/
def activity (segment : Option (AnalyticsEvent → Bool)) : List (String × Date) :=
  (((eventsInScope s siteId params segment).filter fun e =>
    params.from_ ≤ e.eventTimestamp ∧ e.eventTimestamp < params.to_
      ∧ (params.returnEvent = "" ∨ e.eventName = params.returnEvent)).map fun e =>
    (e.entityId, params.bucket env e.eventTimestamp)).dedup

/-- A row of `cohorts c JOIN activity a ON … AND a.activity_date>=c.cohort_date`: the
cohort, the period and the person. -/
def returns (candidates : Table String Date) (segment : Option (AnalyticsEvent → Bool)) :
    List ((Date × Int) × String) :=
  (cohorts env params candidates).entries.flatMap fun c =>
    ((activity env s siteId params segment).filter fun a => a.1 = c.1 ∧ c.2 ≤ a.2).map fun a =>
      ((c.2, params.granularity.offset a.2 c.2), c.1)

/-- `retained`. -/
def retained (candidates : Table String Date) (segment : Option (AnalyticsEvent → Bool)) :
    Table (Date × Int) Nat :=
  Table.groupRows Prod.fst (fun _ rows => distinct Prod.snd rows) (returns env s siteId params candidates segment)

/-- `sizes`. -/
def sizes (candidates : Table String Date) : Table Date Nat :=
  Table.groupRows (fun c : Sigma fun _ : String => Date => c.2) (fun _ rows => rows.length)
    (cohorts env params candidates).entries

/-- `FROM sizes s JOIN retained r USING(cohort_date) WHERE r.period_no BETWEEN 0 AND $8 ORDER BY …`. -/
def gridRows (candidates : Table String Date) (segment : Option (AnalyticsEvent → Bool)) : List GridRow :=
  ((retained env s siteId params candidates segment).entries.filterMap fun r =>
    if 0 ≤ r.1.2 ∧ r.1.2 ≤ (params.periods : Int) - 1 then
      ((sizes env params candidates).lookup r.1.1).map fun size => ⟨r.1.1, size, r.1.2, r.2⟩
    else none).mergeSort fun a b => a.cohort < b.cohort ∨ a.cohort = b.cohort ∧ a.period ≤ b.period

/-- The entry of a cohort: its size is that of the first row, and a period that no row has
is a period nobody returned in. -/
def gridRow (rows : List GridRow) : CohortRow where
  cohort := (rows.head?.map GridRow.cohort).getD 0
  size := (rows.head?.map fun r => (r.size : Int)).getD 0
  users := (List.range params.periods).map fun period : Nat =>
    (((rows.filter fun r => r.period = (period : Int)).getLast?.map fun r => (r.retained : Int)).getD 0)

/-- The grid of some candidates. -/
def gridOf (candidates : Table String Date) (segment : Option (AnalyticsEvent → Bool)) : List CohortRow :=
  (Table.groupsInOrder GridRow.cohort (gridRows env s siteId params candidates segment)).map (gridRow params)

/-- `runCohortGrid`. -/
def runCohortGrid (segment : Option (AnalyticsEvent → Bool)) : List CohortRow :=
  gridOf env s siteId params (cohortCandidates env s siteId params segment) segment

end Query

/-! ## §2. What the rows count. -/

section Counts
variable (env : Platform) (s : Store) (siteId : Uuid) (params : CohortParams)

/-- The people of a cohort. -/
def members (candidates : Table String Date) (date : Date) : Set String :=
  {entity | (cohorts env params candidates).lookup entity = some date}

/-- Who of a cohort came back in a period. -/
def cameBack (candidates : Table String Date) (segment : Option (AnalyticsEvent → Bool)) (date : Date) (period : Int) :
    Set String :=
  {entity | entity ∈ members env params candidates date
    ∧ ∃ a ∈ activity env s siteId params segment, a.1 = entity ∧ date ≤ a.2
      ∧ params.granularity.offset a.2 date = period}

/-- **A grid is that of its cohorts**: the cohorts someone came back from, oldest first,
with how many they are and how many came back in each period. -/
structure GridCounts (members : Date → Set String) (cameBack : Date → Int → Set String) (periods : Nat)
    (grid : List CohortRow) : Prop where
  ascending : grid.Pairwise fun a b => a.cohort < b.cohort
  dates : ∀ date, date ∈ grid.map CohortRow.cohort ↔ ∃ period < periods, (cameBack date period).Nonempty
  rows : ∀ row ∈ grid, row.size = (members row.cohort).ncard
    ∧ row.users = (List.range periods).map fun period : Nat => ((cameBack row.cohort period).ncard : Int)

end Counts

section Rows
variable {env : Platform} {s : Store} {siteId : Uuid} {params : CohortParams} {candidates : Table String Date}
  {segment : Option (AnalyticsEvent → Bool)} {date : Date} {period : Int} {entity : String}

theorem mem_returns :
    ((date, period), entity) ∈ returns env s siteId params candidates segment
      ↔ entity ∈ cameBack env s siteId params candidates segment date period := by
  unfold returns
  rw [List.mem_flatMap]
  constructor
  · intro h
    obtain ⟨c, hc, hmem⟩ := h
    obtain ⟨a, ha, heq⟩ := List.mem_map.mp hmem
    obtain ⟨hactive, hjoin⟩ := List.mem_filter.mp ha
    obtain ⟨hentity, hdate⟩ := of_decide_eq_true hjoin
    obtain ⟨hkey, rfl⟩ := Prod.mk.inj heq
    obtain ⟨rfl, rfl⟩ := Prod.mk.inj hkey
    exact ⟨AList.mem_lookup_iff.mpr hc, a, hactive, hentity, hdate, rfl⟩
  · intro h
    obtain ⟨hmember, a, hactive, hentity, hdate, hperiod⟩ := h
    refine ⟨⟨entity, date⟩, AList.mem_lookup_iff.mp hmember, List.mem_map.mpr ⟨a, ?_, ?_⟩⟩
    · exact List.mem_filter.mpr ⟨hactive, decide_eq_true ⟨hentity, hdate⟩⟩
    · rw [← hperiod]

/-- The size of a cohort; one that is empty has no row. -/
theorem lookup_sizes :
    (sizes env params candidates).lookup date
      = if members env params candidates date = ∅ then none else some (members env params candidates date).ncard := by
  have hgroup : members env params candidates date
      = ((Table.groupOf (fun c : Sigma fun _ : String => Date => c.2) (cohorts env params candidates).entries date).map
          Sigma.fst).toFinset := by
    ext entity
    rw [List.coe_toFinset, Set.mem_ofPred_eq, List.mem_map]
    constructor
    · intro h
      exact ⟨⟨entity, date⟩, List.mem_filter.mpr ⟨AList.mem_lookup_iff.mp h, decide_eq_true rfl⟩, rfl⟩
    · intro h
      obtain ⟨c, hc, rfl⟩ := h
      obtain ⟨hmem, hdate⟩ := Table.mem_groupOf hc
      show (cohorts env params candidates).lookup c.1 = some date
      rw [← hdate]
      exact AList.mem_lookup_iff.mpr hmem
  have hcard := Table.card_filter_keys (cohorts env params candidates) fun c => decide (c.2 = date)
  unfold sizes
  rw [Table.lookup_groupRows]
  by_cases hnil : Table.groupOf (fun c : Sigma fun _ : String => Date => c.2) (cohorts env params candidates).entries date
      = []
  · rw [if_pos hnil, hgroup, hnil, if_pos (by simp)]
  · have hne : members env params candidates date ≠ ∅ := by
      rw [hgroup, Ne, Finset.coe_eq_empty, List.toFinset_eq_empty_iff, List.map_eq_nil_iff]
      exact hnil
    rw [if_neg hnil, if_neg hne, hgroup, Set.ncard_coe_finset]
    exact congrArg some hcard.symm

theorem lookup_retained :
    (retained env s siteId params candidates segment).lookup (date, period)
      = if cameBack env s siteId params candidates segment date period = ∅ then none
        else some (cameBack env s siteId params candidates segment date period).ncard := by
  have hgroup : cameBack env s siteId params candidates segment date period
      = ((Table.groupOf Prod.fst (returns env s siteId params candidates segment) (date, period)).map
          Prod.snd).toFinset := by
    ext entity
    rw [List.coe_toFinset, Set.mem_ofPred_eq, List.mem_map, ← mem_returns]
    constructor
    · intro h
      exact ⟨((date, period), entity), List.mem_filter.mpr ⟨h, decide_eq_true rfl⟩, rfl⟩
    · intro h
      obtain ⟨r, hr, rfl⟩ := h
      obtain ⟨hmem, hkey⟩ := Table.mem_groupOf hr
      rw [← hkey]
      exact hmem
  unfold retained
  rw [Table.lookup_groupRows]
  by_cases hnil : Table.groupOf Prod.fst (returns env s siteId params candidates segment) (date, period) = []
  · rw [if_pos hnil, hgroup, hnil, if_pos (by simp)]
  · have hne : cameBack env s siteId params candidates segment date period ≠ ∅ := by
      rw [hgroup, Ne, Finset.coe_eq_empty, List.toFinset_eq_empty_iff, List.map_eq_nil_iff]
      exact hnil
    rw [if_neg hnil, if_neg hne, hgroup, Set.ncard_coe_finset, distinct_eq_card]

/-- **A row of the answer** is of a period of the grid in which someone came back. -/
theorem mem_gridRows {r : GridRow} :
    r ∈ gridRows env s siteId params candidates segment
      ↔ (0 ≤ r.period ∧ r.period ≤ (params.periods : Int) - 1)
        ∧ (cameBack env s siteId params candidates segment r.cohort r.period).Nonempty
        ∧ r.size = (members env params candidates r.cohort).ncard
        ∧ r.retained = (cameBack env s siteId params candidates segment r.cohort r.period).ncard := by
  unfold gridRows
  rw [List.mem_mergeSort, List.mem_filterMap]
  constructor
  · intro h
    obtain ⟨e, he, hrow⟩ := h
    have hlookup := AList.mem_lookup_iff.mpr he
    by_cases hperiod : 0 ≤ e.1.2 ∧ e.1.2 ≤ (params.periods : Int) - 1
    · rw [if_pos hperiod] at hrow
      obtain ⟨size, hsize, rfl⟩ := Option.map_eq_some_iff.mp hrow
      rw [Option.mem_def, lookup_retained] at hlookup
      rw [lookup_sizes] at hsize
      by_cases hback : cameBack env s siteId params candidates segment e.1.1 e.1.2 = ∅
      · rw [if_pos hback] at hlookup
        cases hlookup
      · by_cases hmembers : members env params candidates e.1.1 = ∅
        · rw [if_pos hmembers] at hsize
          cases hsize
        · rw [if_neg hback] at hlookup
          rw [if_neg hmembers] at hsize
          exact ⟨hperiod, Set.nonempty_iff_ne_empty.mpr hback, (Option.some.inj hsize).symm,
            (Option.some.inj hlookup).symm⟩
    · rw [if_neg hperiod] at hrow
      cases hrow
  · intro h
    obtain ⟨hperiod, hback, hsize, hretained⟩ := h
    have hmembers : members env params candidates r.cohort ≠ ∅ := by
      obtain ⟨entity, hentity⟩ := hback
      exact Set.nonempty_iff_ne_empty.mp ⟨entity, hentity.1⟩
    refine ⟨⟨(r.cohort, r.period), r.retained⟩, ?_, ?_⟩
    · rw [← AList.mem_lookup_iff, Option.mem_def, lookup_retained, if_neg (Set.nonempty_iff_ne_empty.mp hback),
        hretained]
    · rw [if_pos hperiod, lookup_sizes, if_neg hmembers, Option.map_some, ← hsize]

theorem gridRows_sorted :
    (gridRows env s siteId params candidates segment).Pairwise fun a b => a.cohort ≤ b.cohort := by
  let before := fun a b : GridRow => decide (a.cohort < b.cohort ∨ a.cohort = b.cohort ∧ a.period ≤ b.period)
  have hsorted := @List.pairwise_mergeSort GridRow before
    (fun a b c hab hbc => by
      rw [decide_eq_true_iff] at hab hbc ⊢
      omega)
    (fun a b => by
      rw [Bool.or_eq_true, decide_eq_true_iff, decide_eq_true_iff]
      omega)
    ((retained env s siteId params candidates segment).entries.filterMap fun r =>
      if 0 ≤ r.1.2 ∧ r.1.2 ≤ (params.periods : Int) - 1 then
        ((sizes env params candidates).lookup r.1.1).map fun size => (⟨r.1.1, size, r.1.2, r.2⟩ : GridRow)
      else none)
  refine hsorted.imp fun {a b} hab => ?_
  have hab := of_decide_eq_true hab
  omega

/-! ### The loop. -/

/-- The entry of a cohort, from its rows. -/
theorem gridRow_eq {rows : List GridRow} {size : Nat} (returned : Int → Nat) (hne : rows ≠ [])
    (hrows : ∀ r ∈ rows, r.cohort = date ∧ r.size = size ∧ r.retained = returned r.period)
    (hmissing : ∀ period : Nat, period < params.periods → (∀ r ∈ rows, r.period ≠ period) → returned period = 0) :
    gridRow params rows = ⟨date, size, (List.range params.periods).map fun period : Nat => (returned (period : Int) : Int)⟩ := by
  cases rows with
  | nil => exact absurd rfl hne
  | cons first rest =>
    obtain ⟨hcohort, hsize, -⟩ := hrows first List.mem_cons_self
    unfold gridRow
    simp only [List.head?_cons, Option.map_some, Option.getD_some]
    rw [hcohort, hsize]
    congr 1
    refine List.map_congr_left fun period hperiod => ?_
    cases hlast : ((first :: rest).filter fun r => r.period = (period : Int)).getLast? with
    | none =>
      -- no row has the period
      have hnil := List.getLast?_eq_none_iff.mp hlast
      have hnone := hmissing period (List.mem_range.mp hperiod) fun r hr heq =>
        List.filter_eq_nil_iff.mp hnil r hr (decide_eq_true heq)
      rw [hnone]
      rfl
    | some r =>
      obtain ⟨hr, heq⟩ := List.mem_filter.mp (List.mem_of_getLast? hlast)
      show (r.retained : Int) = _
      rw [(hrows r hr).2.2, of_decide_eq_true heq]

/-- **The grid is that of its cohorts.** -/
theorem grid_counts (candidates : Table String Date) (segment : Option (AnalyticsEvent → Bool)) :
    GridCounts (members env params candidates) (cameBack env s siteId params candidates segment) params.periods
      (gridOf env s siteId params candidates segment) := by
  have hsorted : (gridRows env s siteId params candidates segment).Pairwise fun a b => a.cohort ≤ b.cohort :=
    gridRows_sorted
  obtain ⟨ks, hascending, hkeys, hgroups⟩ := Table.groupsInOrder_of_sorted hsorted
  have hrow : ∀ date ∈ ks, gridRow params
      (Table.groupOf GridRow.cohort (gridRows env s siteId params candidates segment) date)
      = ⟨date, (members env params candidates date).ncard, (List.range params.periods).map fun period : Nat =>
          ((cameBack env s siteId params candidates segment date period).ncard : Int)⟩ := by
    intro date hdate
    refine gridRow_eq (fun period => (cameBack env s siteId params candidates segment date period).ncard)
      (fun hnil => (Table.groupOf_eq_nil_iff ..).mp hnil ((hkeys date).mp hdate)) (fun r hr => ?_)
      fun period hperiod hnone => ?_
    · obtain ⟨hmem, hcohort⟩ := Table.mem_groupOf hr
      obtain ⟨-, -, hsize, hretained⟩ := mem_gridRows.mp hmem
      rw [← hcohort]
      exact ⟨rfl, hsize, hretained⟩
    · by_contra hne
      have hback : (cameBack env s siteId params candidates segment date period).Nonempty :=
        Set.nonempty_of_ncard_ne_zero hne
      refine hnone ⟨date, (members env params candidates date).ncard, period,
        (cameBack env s siteId params candidates segment date period).ncard⟩ (List.mem_filter.mpr ⟨?_, ?_⟩) rfl
      · exact mem_gridRows.mpr ⟨⟨Int.natCast_nonneg _, by show (period : Int) ≤ _; omega⟩, hback, rfl, rfl⟩
      · exact decide_eq_true rfl
  have hgrid : gridOf env s siteId params candidates segment = ks.map fun date =>
      (⟨date, (members env params candidates date).ncard, (List.range params.periods).map fun period : Nat =>
        ((cameBack env s siteId params candidates segment date period).ncard : Int)⟩ : CohortRow) := by
    unfold gridOf
    rw [hgroups, List.map_map]
    exact List.map_congr_left hrow
  rw [hgrid]
  refine ⟨?_, fun date => ?_, fun row hmem => ?_⟩
  · exact List.pairwise_map.mpr hascending
  · rw [List.map_map]
    show date ∈ ks.map id ↔ _
    rw [List.map_id, hkeys, List.mem_map]
    constructor
    · intro h
      obtain ⟨r, hr, rfl⟩ := h
      obtain ⟨⟨hlow, hhigh⟩, hback, -⟩ := mem_gridRows.mp hr
      refine ⟨r.period.toNat, by omega, ?_⟩
      rw [Int.toNat_of_nonneg hlow]
      exact hback
    · intro h
      obtain ⟨period, hperiod, hback⟩ := h
      exact ⟨⟨date, (members env params candidates date).ncard, period,
        (cameBack env s siteId params candidates segment date period).ncard⟩,
        mem_gridRows.mpr ⟨⟨Int.natCast_nonneg _, by show (period : Int) ≤ _; omega⟩, hback, rfl, rfl⟩, rfl⟩
  · obtain ⟨date, -, rfl⟩ := List.mem_map.mp hmem
    exact ⟨rfl, rfl⟩

/-- What a grid counts says what it is. -/
theorem GridCounts.unique {members : Date → Set String} {cameBack : Date → Int → Set String} {periods : Nat}
    {grid grid' : List CohortRow} (h : GridCounts members cameBack periods grid)
    (h' : GridCounts members cameBack periods grid') : grid = grid' := by
  have hmap : ∀ {grid : List CohortRow}, GridCounts members cameBack periods grid →
      grid = (grid.map CohortRow.cohort).map fun date => (⟨date, (members date).ncard,
        (List.range periods).map fun period : Nat => ((cameBack date period).ncard : Int)⟩ : CohortRow) := by
    intro grid h
    rw [List.map_map]
    refine ((List.map_congr_left fun row hrow => ?_).trans (List.map_id _)).symm
    obtain ⟨hsize, husers⟩ := h.rows row hrow
    cases row with
    | mk cohort size users =>
      show CohortRow.mk _ _ _ = _
      rw [← hsize, ← husers]
      rfl
  have hsorted : ∀ {grid : List CohortRow}, GridCounts members cameBack periods grid →
      (grid.map CohortRow.cohort).Pairwise (· < ·) := fun h => List.pairwise_map.mpr h.ascending
  have hperm : (grid.map CohortRow.cohort).Perm (grid'.map CohortRow.cohort) := by
    rw [List.perm_ext_iff_of_nodup ((hsorted h).imp fun hlt => hlt.ne) ((hsorted h').imp fun hlt => hlt.ne)]
    intro date
    rw [h.dates, h'.dates]
  rw [hmap h, hmap h', hperm.eq_of_pairwise (fun _ _ _ _ hlt hgt => absurd (hlt.trans hgt) (lt_irrefl _))
    (hsorted h) (hsorted h')]

end Rows

/-! ## §3. Cohorts of first events. -/

section First
variable (env : Platform) (s : Store) (siteId : Uuid) (params : CohortParams)

/-- The people whose first event lies in a bucket of the window, and before its end. -/
def firstCohort (date : Date) : Set String :=
  {entity | (∃ first, IsLeast (eventTimes s siteId params.environment entity) first ∧ first < params.to_
      ∧ params.bucket env first = date)
    ∧ env.localDate params.timezone params.from_ ≤ date ∧ date < env.localDate params.timezone params.to_}

/-- Who of them has an event of the window in a period. -/
def firstReturns (date : Date) (period : Int) : Set String :=
  {entity | entity ∈ firstCohort env s siteId params date ∧ ∃ e ∈ analyticsEvents s, e.siteId = siteId
    ∧ e.environment = params.environment ∧ e.entityId = entity ∧ params.from_ ≤ e.eventTimestamp
    ∧ e.eventTimestamp < params.to_ ∧ (params.returnEvent = "" ∨ e.eventName = params.returnEvent)
    ∧ date ≤ params.bucket env e.eventTimestamp
    ∧ params.granularity.offset (params.bucket env e.eventTimestamp) date = period}

/-- **The grid of a site is sound.** -/
structure GridSound : Prop where
  counts : GridCounts (firstCohort env s siteId params) (firstReturns env s siteId params) params.periods
    (runCohortGrid env s siteId params none)
  bounded : ∀ row ∈ runCohortGrid env s siteId params none, ∀ users ∈ row.users, users ≤ row.size
  pooled : ∀ maturity, ∀ point ∈ (pooledCurve maturity (runCohortGrid env s siteId params none) params.periods).2,
    point.users ≤ point.cohortUsers
  /-- Where any event is a return, and the window begins with a local date, no cohort is
  left out and each begins whole. -/
  whole : params.returnEvent = "" → 0 < params.periods →
    (∀ t, env.localDate params.timezone params.from_ ≤ env.localDate params.timezone t → params.from_ ≤ t) →
    (∀ date, (firstCohort env s siteId params date).Nonempty →
        date ∈ (runCohortGrid env s siteId params none).map CohortRow.cohort)
      ∧ ∀ row ∈ runCohortGrid env s siteId params none, row.users.head? = some row.size
  /-- The events give the same grid. -/
  plain : Monotone (env.localDate params.timezone) →
    params.bucket env params.to_ = env.localDate params.timezone params.to_ →
    runCohortGrid env s siteId params none
      = gridOf env s siteId params (candidatesFromEvents env s siteId params none) none

end First

section Buckets
variable {granularity : Granularity}

theorem bucketOf_le (date : Date) : granularity.bucketOf date ≤ date := by
  cases granularity with
  | day => exact le_refl date
  | week =>
    have h := Int.emod_nonneg (date + 3) (by decide : (7 : Int) ≠ 0)
    show date - (date + 3) % 7 ≤ date
    exact sub_le_self _ h
  | month => exact (monthOf_spec date).1

theorem bucketOf_mono : Monotone granularity.bucketOf := by
  intro d d' h
  cases granularity with
  | day => exact h
  | week =>
    have hmonday : ∀ x y : Int, x ≤ y → x - (x + 3) % 7 ≤ y - (y + 3) % 7 := by
      intro x y hxy
      omega
    exact hmonday d d' h
  | month => exact monthStart_strictMono.monotone (le_monthOf_iff.mpr ((monthOf_spec d).1.trans h))

theorem offset_self (date : Date) : granularity.offset date date = 0 := by
  cases granularity with
  | day => exact sub_self date
  | week =>
    show (date - date).tdiv 7 = 0
    rw [sub_self, Int.zero_tdiv]
  | month =>
    show (yearOf date - yearOf date) * 12 + monthOfYear date - monthOfYear date = 0
    rw [sub_self, zero_mul, zero_add, sub_self]

end Buckets

/-! ### The curve. -/

/-- What is pooled are never more than were exposed. -/
theorem poolRow_le {periods : Nat} {maturity : Int → Int} {totals : List (Int × Int)} {row : CohortRow}
    (h : ∀ t ∈ totals, t.2 ≤ t.1) (hrow : ∀ users ∈ row.users, users ≤ row.size) :
    ∀ t ∈ poolRow periods maturity totals row, t.2 ≤ t.1 := by
  have hloop : ∀ (values : List (Int × Nat)) (totals : List (Int × Int)), (∀ v ∈ values, v.1 ≤ row.size) →
      (∀ t ∈ totals, t.2 ≤ t.1) →
      ∀ t ∈ values.foldl (fun totals v => totals.modify v.2 fun t => (t.1 + row.size, t.2 + v.1)) totals,
        t.2 ≤ t.1 := by
    intro values
    induction values with
    | nil => intro totals _ h; exact h
    | cons v values ih =>
      intro totals hvalues h
      refine ih _ (fun w hw => hvalues w (List.mem_cons_of_mem _ hw)) fun t ht => ?_
      obtain ⟨i, hi⟩ := List.mem_iff_getElem?.mp ht
      rw [List.getElem?_modify] at hi
      obtain ⟨old, hold, rfl⟩ := Option.map_eq_some_iff.mp hi
      have hle := h old (List.mem_of_getElem? hold)
      split
      · exact add_le_add hle (hvalues v List.mem_cons_self)
      · exact hle
  refine hloop _ totals (fun v hv => ?_) h
  exact hrow v.1 (List.fst_mem_of_mem_zipIdx ((List.takeWhile_sublist _).subset hv))

theorem pooledCurve_le {grid : List CohortRow} (hgrid : ∀ row ∈ grid, ∀ users ∈ row.users, users ≤ row.size)
    (maturity : Int → Int) (periods : Nat) :
    ∀ point ∈ (pooledCurve maturity grid periods).2, point.users ≤ point.cohortUsers := by
  have htotals : ∀ (grid : List CohortRow) (totals : List (Int × Int)),
      (∀ row ∈ grid, ∀ users ∈ row.users, users ≤ row.size) → (∀ t ∈ totals, t.2 ≤ t.1) →
      ∀ t ∈ grid.foldl (poolRow periods maturity) totals, t.2 ≤ t.1 := by
    intro grid
    induction grid with
    | nil => intro totals _ h; exact h
    | cons row grid ih =>
      intro totals hrows h
      exact ih _ (fun r hr => hrows r (List.mem_cons_of_mem _ hr)) (poolRow_le h (hrows row List.mem_cons_self))
  intro point hpoint
  obtain ⟨i, hi, rfl⟩ := List.mem_mapIdx.mp hpoint
  refine htotals grid _ hgrid (fun t ht => ?_) _ (List.getElem_mem hi)
  rw [List.eq_of_mem_replicate ht]

/-! ## §4. The candidates. -/

section Candidates
variable {env : Platform} {s : Store} {siteId : Uuid} {params : CohortParams} {date : Date} {period : Int}
  {entity : String}

theorem lookup_cohorts {candidates : Table String Date} :
    (cohorts env params candidates).lookup entity = some date
      ↔ candidates.lookup entity = some date ∧ env.localDate params.timezone params.from_ ≤ date
        ∧ date < env.localDate params.timezone params.to_ := by
  unfold cohorts
  rw [Table.lookup_keepRows, Option.filter_eq_some_iff, decide_eq_true_iff]

/-- **From the rollup, a cohort is that of the first event.** -/
theorem members_rollup (hs : RolledUp env siteId s) :
    members env params (candidatesFromRollup env s siteId params) date = firstCohort env s siteId params date := by
  ext entity
  show (cohorts env params _).lookup entity = some date ↔ _
  rw [lookup_cohorts]
  refine and_congr ?_ Iff.rfl
  unfold candidatesFromRollup
  rw [Table.lookup_modifyRows, Option.map_eq_some_iff]
  constructor
  · intro h
    obtain ⟨first, hfirst, hdate⟩ := h
    obtain ⟨hseen, hleast⟩ := (lookup_firstSeenCTE_of hs).mp hfirst
    obtain ⟨t, ht, hbefore⟩ := seenBefore_iff_eventTimes.mp hseen
    exact ⟨first, hleast, (hleast.2 ht).trans_lt hbefore, hdate⟩
  · intro h
    obtain ⟨first, hleast, hbefore, hdate⟩ := h
    exact ⟨first, (lookup_firstSeenCTE_of hs).mpr
      ⟨seenBefore_iff_eventTimes.mpr ⟨first, hleast.1, hbefore⟩, hleast⟩, hdate⟩

/-- An activity is the bucket of an event of the window. -/
theorem mem_activity {a : String × Date} :
    a ∈ activity env s siteId params none
      ↔ ∃ e ∈ analyticsEvents s, e.siteId = siteId ∧ e.environment = params.environment ∧ e.entityId = a.1
        ∧ params.from_ ≤ e.eventTimestamp ∧ e.eventTimestamp < params.to_
        ∧ (params.returnEvent = "" ∨ e.eventName = params.returnEvent) ∧ params.bucket env e.eventTimestamp = a.2 := by
  unfold activity eventsInScope
  rw [List.mem_dedup, List.mem_map]
  constructor
  · intro h
    obtain ⟨e, he, heq⟩ := h
    obtain ⟨hscope, hwindow⟩ := List.mem_filter.mp he
    obtain ⟨hmem, hscope⟩ := List.mem_filter.mp hscope
    obtain ⟨hsite, henvironment, -⟩ := of_decide_eq_true hscope
    obtain ⟨hfrom, hto, hname⟩ := of_decide_eq_true hwindow
    exact ⟨e, hmem, hsite, henvironment, congrArg Prod.fst heq, hfrom, hto, hname, congrArg Prod.snd heq⟩
  · intro h
    obtain ⟨e, hmem, hsite, henvironment, hentity, hfrom, hto, hname, hdate⟩ := h
    exact ⟨e, List.mem_filter.mpr ⟨List.mem_filter.mpr ⟨hmem, decide_eq_true ⟨hsite, henvironment, rfl⟩⟩,
      decide_eq_true ⟨hfrom, hto, hname⟩⟩, Prod.ext hentity hdate⟩

theorem cameBack_eq {candidates : Table String Date}
    (hmembers : members env params candidates date = firstCohort env s siteId params date) :
    cameBack env s siteId params candidates none date period = firstReturns env s siteId params date period := by
  ext entity
  show entity ∈ members env params candidates date ∧ _ ↔ entity ∈ firstCohort env s siteId params date ∧ _
  rw [hmembers]
  refine and_congr Iff.rfl ?_
  constructor
  · intro h
    obtain ⟨a, ha, hentity, hdate, hperiod⟩ := h
    obtain ⟨e, hmem, hsite, henvironment, hperson, hfrom, hto, hname, hbucket⟩ := mem_activity.mp ha
    rw [← hbucket] at hdate hperiod
    exact ⟨e, hmem, hsite, henvironment, hperson.trans hentity, hfrom, hto, hname, hdate, hperiod⟩
  · intro h
    obtain ⟨e, hmem, hsite, henvironment, hperson, hfrom, hto, hname, hdate, hperiod⟩ := h
    exact ⟨(entity, params.bucket env e.eventTimestamp),
      mem_activity.mpr ⟨e, hmem, hsite, henvironment, hperson, hfrom, hto, hname, rfl⟩, rfl, hdate, hperiod⟩

/-- The least bucket of a person's events is what the events have of them. -/
theorem lookup_candidatesFromEvents (hevent : params.cohortEvent = "") :
    (candidatesFromEvents env s siteId params none).lookup entity = some date
      ↔ IsLeast (params.bucket env '' eventTimes s siteId params.environment entity) date := by
  have hgroup : ∀ d, (∃ e ∈ Table.groupOf (fun e : AnalyticsEvent => e.entityId)
      ((eventsInScope s siteId params none).filter fun e => params.cohortEvent = "" ∨ e.eventName = params.cohortEvent)
      entity, params.bucket env e.eventTimestamp = d)
      ↔ d ∈ params.bucket env '' eventTimes s siteId params.environment entity := by
    intro d
    constructor
    · intro h
      obtain ⟨e, he, hdate⟩ := h
      obtain ⟨hmem, hentity⟩ := Table.mem_groupOf he
      obtain ⟨hmem, hscope⟩ := List.mem_filter.mp (List.mem_filter.mp hmem).1
      obtain ⟨hsite, henvironment, -⟩ := of_decide_eq_true hscope
      exact ⟨e.eventTimestamp, ⟨e, hmem, hsite, henvironment, hentity, rfl⟩, hdate⟩
    · intro h
      obtain ⟨t, ⟨e, hmem, hsite, henvironment, hentity, rfl⟩, hdate⟩ := h
      refine ⟨e, List.mem_filter.mpr ⟨List.mem_filter.mpr ⟨List.mem_filter.mpr ⟨hmem, ?_⟩, ?_⟩, ?_⟩, hdate⟩
      · exact decide_eq_true ⟨hsite, henvironment, rfl⟩
      · exact decide_eq_true (Or.inl hevent)
      · exact decide_eq_true hentity
  unfold candidatesFromEvents
  rw [Table.lookup_groupRows]
  cases hmin : minTime (fun e : AnalyticsEvent => params.bucket env e.eventTimestamp)
      (Table.groupOf (fun e : AnalyticsEvent => e.entityId)
        ((eventsInScope s siteId params none).filter fun e =>
          params.cohortEvent = "" ∨ e.eventName = params.cohortEvent) entity) with
  | none =>
    have hnil := minTime_eq_none_iff.mp hmin
    rw [if_pos hnil]
    constructor
    · intro h
      cases h
    · intro h
      obtain ⟨e, he, -⟩ := (hgroup date).mpr h.1
      rw [hnil] at he
      exact absurd he List.not_mem_nil
  | some m =>
    obtain ⟨e, he, hm⟩ := minTime_mem hmin
    have hleast : IsLeast (params.bucket env '' eventTimes s siteId params.environment entity) m := by
      refine ⟨(hgroup m).mp ⟨e, he, hm⟩, fun d hd => ?_⟩
      obtain ⟨e', he', hdate⟩ := (hgroup d).mpr hd
      rw [← hdate]
      exact minTime_le hmin e' he'
    rw [if_neg (List.ne_nil_of_mem he), Option.getD_some, Option.some_inj]
    constructor
    · intro h
      rw [← h]
      exact hleast
    · intro h
      exact hleast.unique h

/-- **From the events, a cohort is that of the first event**, where clocks go forward and
the window ends with a bucket. -/
theorem members_events (hs : RolledUp env siteId s) (hevent : params.cohortEvent = "")
    (hclock : Monotone (env.localDate params.timezone))
    (hend : params.bucket env params.to_ = env.localDate params.timezone params.to_) :
    members env params (candidatesFromEvents env s siteId params none) date
      = firstCohort env s siteId params date := by
  have hbucket : Monotone (params.bucket env) := fun t t' h => bucketOf_mono (hclock h)
  ext entity
  show (cohorts env params _).lookup entity = some date ↔ _
  rw [lookup_cohorts, lookup_candidatesFromEvents hevent]
  constructor
  · intro h
    obtain ⟨hleast, hfrom, hto⟩ := h
    obtain ⟨t, ht, hdate⟩ := hleast.1
    refine ⟨?_, hfrom, hto⟩
    -- the event lies before the end, for its bucket does
    have hbefore : t < params.to_ := by
      by_contra hlate
      have hle := hbucket (not_lt.mp hlate)
      rw [hend, hdate] at hle
      exact absurd hto (not_lt.mpr hle)
    have hseen : SeenBefore s siteId params.environment params.to_ entity :=
      seenBefore_iff_eventTimes.mpr ⟨t, ht, hbefore⟩
    obtain ⟨-, hfirst⟩ := (lookup_firstSeenCTE_of hs).mp (lookup_firstSeenCTE hs hseen)
    refine ⟨_, hfirst, (hfirst.2 ht).trans_lt hbefore, le_antisymm ?_ ?_⟩
    · rw [← hdate]
      exact hbucket (hfirst.2 ht)
    · exact hleast.2 ⟨_, hfirst.1, rfl⟩
  · intro h
    obtain ⟨⟨first, hfirst, -, hdate⟩, hwindow⟩ := h
    refine ⟨⟨⟨first, hfirst.1, hdate⟩, fun d hd => ?_⟩, hwindow⟩
    obtain ⟨t, ht, htime⟩ := hd
    rw [← hdate, ← htime]
    exact hbucket (hfirst.2 ht)

/-- **A person of a cohort is in its first period.** -/
theorem firstReturns_zero (hreturn : params.returnEvent = "")
    (hfrom : ∀ t, env.localDate params.timezone params.from_ ≤ env.localDate params.timezone t → params.from_ ≤ t) :
    firstReturns env s siteId params date 0 = firstCohort env s siteId params date := by
  ext entity
  constructor
  · intro h
    exact h.1
  · intro h
    obtain ⟨⟨first, hfirst, hbefore, hdate⟩, hlow, -⟩ := id h
    obtain ⟨e, hmem, hsite, henvironment, hentity, htime⟩ := hfirst.1
    have hbucket : params.bucket env e.eventTimestamp = date := by
      rw [htime]
      exact hdate
    refine ⟨h, e, hmem, hsite, henvironment, hentity, ?_, ?_, Or.inl hreturn, hbucket.ge, ?_⟩
    · rw [htime]
      apply hfrom
      rw [← hdate] at hlow
      exact hlow.trans (bucketOf_le _)
    · rw [htime]
      exact hbefore
    · rw [hbucket]
      exact offset_self date

/-! ## §5. The grid. -/

theorem gridSound (hs : RolledUp env siteId s) (hevent : params.cohortEvent = "") :
    GridSound env s siteId params := by
  have hcandidates : runCohortGrid env s siteId params none
      = gridOf env s siteId params (candidatesFromRollup env s siteId params) none := by
    unfold runCohortGrid cohortCandidates
    rw [if_pos ⟨hevent, rfl⟩]
  have hof : ∀ candidates : Table String Date,
      (∀ date, members env params candidates date = firstCohort env s siteId params date) →
      GridCounts (firstCohort env s siteId params) (firstReturns env s siteId params) params.periods
        (gridOf env s siteId params candidates none) := by
    intro candidates hmembers
    have hcounts : GridCounts (members env params candidates) (cameBack env s siteId params candidates none)
        params.periods (gridOf env s siteId params candidates none) := grid_counts candidates none
    have hback : cameBack env s siteId params candidates none = firstReturns env s siteId params :=
      funext fun date => funext fun period => cameBack_eq (hmembers date)
    rw [funext hmembers, hback] at hcounts
    exact hcounts
  have hcounts : GridCounts (firstCohort env s siteId params) (firstReturns env s siteId params) params.periods
      (runCohortGrid env s siteId params none) := by
    rw [hcandidates]
    exact hof _ fun date => members_rollup hs
  have hfinite : ∀ date, (firstCohort env s siteId params date).Finite := by
    intro date
    refine Set.Finite.subset ((candidatesFromRollup env s siteId params).keys.toFinset.finite_toSet) fun entity h => ?_
    rw [← members_rollup hs] at h
    rw [List.coe_toFinset, Set.mem_ofPred_eq, ← AList.mem_keys, ← AList.lookup_isSome, (lookup_cohorts.mp h).1]
    rfl
  have hbounded : ∀ row ∈ runCohortGrid env s siteId params none, ∀ users ∈ row.users, users ≤ row.size := by
    intro row hrow users husers
    obtain ⟨hsize, hperiods⟩ := hcounts.rows row hrow
    rw [hperiods] at husers
    obtain ⟨period, -, rfl⟩ := List.mem_map.mp husers
    rw [hsize, Nat.cast_le]
    exact Set.ncard_le_ncard (fun entity h => h.1) (hfinite row.cohort)
  refine { counts := hcounts, bounded := hbounded, pooled := fun maturity => pooledCurve_le hbounded maturity _,
           whole := fun hreturn hperiods hfrom => ⟨fun date hdate => ?_, fun row hrow => ?_⟩,
           plain := fun hclock hend => ?_ }
  · refine (hcounts.dates date).mpr ⟨0, hperiods, ?_⟩
    rw [Nat.cast_zero, firstReturns_zero hreturn hfrom]
    exact hdate
  · obtain ⟨hsize, husers⟩ := hcounts.rows row hrow
    obtain ⟨n, hn⟩ := Nat.exists_eq_add_one_of_ne_zero hperiods.ne'
    rw [husers, hsize, hn, List.range_succ_eq_map, List.map_cons, List.head?_cons, Nat.cast_zero,
      firstReturns_zero hreturn hfrom]
  · exact hcounts.unique (hof _ fun date => members_events hs hevent hclock hend)

end Candidates

/-- **The cohort grid is sound**: after any course in which nothing expires, the grid of
all first visits has one row for each cohort someone came back from, oldest first, with
the people whose first event it is and how many of them came back in each period. -/
theorem cohortGrid_sound (env : Platform) (config : Config) (actions : List Rollup.Action)
    (hexpires : Along (History.step env) NothingExpires (History.initial config) actions) (siteId : Uuid)
    {params : CohortParams} (hevent : params.cohortEvent = "") :
    GridSound env (actions.foldl (History.step env) (History.initial config)).store siteId params :=
  gridSound (rolledUp_run config actions hexpires siteId) hevent

/-- Two days by the day. -/
def newYearParams : CohortParams where
  from_ := Sample.newYear * 1000 - Sample.day
  to_ := Sample.newYear * 1000 + Sample.day
  environment := "prd"
  timezone := "UTC"
  granularity := .day
  periods := 2
  cohortEvent := ""
  returnEvent := ""

/-- The visitor of the day before comes back at New Year. -/
theorem cohortGrid_lateName :
    (returns Sample.platform (lateNameRun.foldl (History.step Sample.platform)
        (History.initial (Sample.config 100))).store Sample.siteId newYearParams
        (candidatesFromRollup Sample.platform (lateNameRun.foldl (History.step Sample.platform)
          (History.initial (Sample.config 100))).store Sample.siteId newYearParams) none).map Prod.fst
        = [(20453, 0), (20453, 1)]
      ∧ GridSound Sample.platform (lateNameRun.foldl (History.step Sample.platform)
          (History.initial (Sample.config 100))).store Sample.siteId newYearParams :=
  ⟨by decide +kernel, cohortGrid_sound Sample.platform (Sample.config 100) lateNameRun
    ⟨trivial, trivial, trivial, trivial, trivial⟩ Sample.siteId rfl⟩

end Momento.Cohorts
