/-
  Momento.Reports.Funnel

  **A FUNNEL OVER THE EVENTS OF A SITE.**  One common table per step, each with
  one time per person: the first time of the first step, then, in a closed
  funnel, the earliest time of the step at or after the time kept for the step
  before it and within the limit.  The report counts the times of each table.

  What the counts should be is stated over whole chains of events, as many as
  there are; `funnel_counts_chains` says when the one time kept per step is
  enough.
-/
import Momento.Foundation.Table
import Momento.Foundation.Chains
import Momento.Model.Json
import Momento.Segment.Compile
import Momento.Reports.AnalyticsEvents

namespace Momento.Reports

open Foundation Foundation.Chains

/-! ## §1. The request. -/

/-- Whether the steps have to follow each other. -/
inductive FunnelMode
  | closed
  | opened
  deriving DecidableEq

/-- What a compiled segment says of an event: true, false or null. -/
abbrev Condition := AnalyticsEvent → Option Bool

/-- A step of a funnel. -/
structure FunnelStep where
  name : String
  event : String
  filters : List Segment.Node

/-- `funnelRequest`, past the handler's checks of mode, limit and number of steps. -/
structure FunnelRequest where
  environment : String
  mode : FunnelMode
  withinMinutes : Nat
  segmentId : String
  segment : Option Segment.Node
  steps : List FunnelStep

/-- What a run reads besides the events: the period, the saved segments, and
`compileSegment`, here with the condition the database evaluates its SQL to. -/
structure FunnelReadings where
  explicitDateRange : Except String (Instant × Instant)
  loadSegment : String → Except String Segment.Node
  compileSegment : Segment.Node → Except String Condition

/-! ## §2. The common table of all steps. -/

section
variable (readings : FunnelReadings) (siteId : Uuid) (request : FunnelRequest)

/-- The definitions that narrow the funnel: the saved segment, the one in the
request, the cohort. -/
def funnelSegments (cohort : Option Segment.Node) : Except String (List Segment.Node) :=
  if request.segmentId = "" then .ok (request.segment.toList ++ cohort.toList)
  else
    match readings.loadSegment request.segmentId with
    | .error e => .error e
    | .ok definition => .ok (definition :: (request.segment.toList ++ cohort.toList))

/-- `WHERE` all of them: a condition that is null keeps the row out. -/
def allHold (conditions : List Condition) (e : AnalyticsEvent) : Bool :=
  conditions.all fun condition => condition e = some true

/-- `base`. -/
def funnelBase (s : Store) (cohort : Option Segment.Node) : Except String (List AnalyticsEvent) :=
  match readings.explicitDateRange with
  | .error e => .error e
  | .ok (start, stop) =>
    match funnelSegments readings request cohort with
    | .error e => .error e
    | .ok segments =>
      match segments.mapM readings.compileSegment with
      | .error e => .error e
      | .ok conditions =>
        .ok ((analyticsEvents s).filter fun e =>
          e.siteId = siteId ∧ start ≤ e.eventTimestamp ∧ e.eventTimestamp < stop
            ∧ e.environment = request.environment ∧ allHold conditions e)

/-! ## §3. One common table per step. -/

/-- `conditionSQL` of a step. -/
def stepCondition (step : FunnelStep) : Except String (AnalyticsEvent → Bool) :=
  if trimSpace step.event = "" then .error "every funnel step requires an event"
  else
    match step.filters.mapM readings.compileSegment with
    | .error e => .error e
    | .ok conditions => .ok fun b => b.eventName = step.event ∧ allHold conditions b

end

/-- The columns `entity, t` of a step's table. -/
abbrev StepTable := Table String (Option Instant)

/-- A limit of so many minutes; none of zero minutes. -/
def withinLimit (minutes : Nat) (t t' : Instant) : Bool :=
  minutes = 0 || decide (t' ≤ t + minutes * 60000000)

section
variable (base : List AnalyticsEvent)

/-- `SELECT b.entity, min(b.event_timestamp) t FROM base b WHERE … GROUP BY b.entity`. -/
def firstStep (condition : AnalyticsEvent → Bool) : StepTable :=
  Table.groupRows (fun b => b.entityId) (fun _ group => minTime (fun b => b.eventTimestamp) group)
    (base.filter condition)

/-- `… FROM prev p LEFT JOIN base b ON b.entity = p.entity AND … WHERE p.t IS NOT NULL
GROUP BY p.entity`: a row for each person with a time, null where nothing joins. -/
def nextStep (minutes : Nat) (prev : StepTable) (condition : AnalyticsEvent → Bool) : StepTable :=
  prev.filterMapRows fun entity t => t.map fun t =>
    minTime (fun b => b.eventTimestamp) (base.filter fun b =>
      b.entityId = entity ∧ condition b ∧ t ≤ b.eventTimestamp ∧ withinLimit minutes t b.eventTimestamp)

/-- The tables after the first one. -/
def laterSteps (mode : FunnelMode) (minutes : Nat) :
    StepTable → List (AnalyticsEvent → Bool) → List StepTable
  | _, [] => []
  | prev, condition :: rest =>
    let table :=
      match mode with
      | .opened => firstStep base condition
      | .closed => nextStep base minutes prev condition
    table :: laterSteps mode minutes table rest

/-- `s1, s2, …`. -/
def stepTables (mode : FunnelMode) (minutes : Nat) : List (AnalyticsEvent → Bool) → List StepTable
  | [] => []
  | condition :: rest =>
    firstStep base condition :: laterSteps base mode minutes (firstStep base condition) rest

end

/-! ## §4. The counts. -/

/-- A row of the query, and of the answer. -/
structure FunnelRow where
  step : Nat
  name : String
  event : String
  users : Nat
  stepConversionRate : ℚ
  overallConversionRate : ℚ
  avgSeconds : ℚ

/-- `avg(extract(epoch FROM c.t - p.t)) FILTER (WHERE c.t IS NOT NULL)` over
`c JOIN p USING (entity)`, zero of no rows. -/
def averageSeconds (c p : StepTable) : ℚ :=
  let gaps := c.filterMapRows fun entity t =>
    match t, p.lookup entity with
    | some t, some (some before) => some (t - before)
    | _, _ => none
  let count := gaps.countRows some
  if count = 0 then 0 else (gaps.sumRows fun _ gap => (gap : ℚ)) / 1000000 / count

/-- `users * 100 / of`, zero of nobody. -/
def conversionRate (users of : Nat) : ℚ := if of = 0 then 0 else (users : ℚ) * 100 / of

/-- The rows after the first one, `first` counted there and `before` in the row
before. -/
def laterRows (mode : FunnelMode) (first : Nat) :
    Nat → Nat → StepTable → List (FunnelStep × StepTable) → List FunnelRow
  | _, _, _, [] => []
  | step, before, prev, (s, table) :: rest =>
    let users := table.countRows id
    { step := step, name := s.name, event := s.event, users := users
      stepConversionRate := conversionRate users before
      overallConversionRate := conversionRate users first
      avgSeconds :=
        match mode with
        | .opened => 0
        | .closed => averageSeconds table prev } :: laterRows mode first (step + 1) users table rest

/-- The rows of the report, each against the first and the one before. -/
def funnelRows (mode : FunnelMode) : List (FunnelStep × StepTable) → List FunnelRow
  | [] => []
  | (s, table) :: rest =>
    let users := table.countRows id
    { step := 1, name := s.name, event := s.event, users := users
      stepConversionRate := conversionRate users users
      overallConversionRate := conversionRate users users
      avgSeconds := 0 } :: laterRows mode users 2 users table rest

/-- **`runFunnelContext`.** -/
def runFunnelContext (readings : FunnelReadings) (siteId : Uuid) (request : FunnelRequest)
    (cohort : Option Segment.Node) (s : Store) : Except String (List FunnelRow) :=
  match funnelBase readings siteId request s cohort with
  | .error e => .error e
  | .ok base =>
    match request.steps.mapM (stepCondition readings) with
    | .error e => .error e
    | .ok conditions =>
      .ok (funnelRows request.mode
        (request.steps.zip (stepTables base request.mode request.withinMinutes conditions)))

/-! ## §5. One person's times. -/

/-- The time the funnel goes by. -/
def eventTime (b : AnalyticsEvent) : Int := b.eventTimestamp

/-- The events of one person. -/
def personRows (base : List AnalyticsEvent) (person : String) : List AnalyticsEvent :=
  base.filter fun b => b.entityId = person

/-- The time a table has of a person, if any. -/
def timeIn (table : StepTable) (person : String) : Option Instant := (table.lookup person).bind id

section
variable {base : List AnalyticsEvent} {minutes : Nat} {condition : AnalyticsEvent → Bool}

theorem nearDown_withinLimit (minutes : Nat) : NearDown (withinLimit minutes) := by
  intro a b c hab hbc h
  simp only [withinLimit, Bool.or_eq_true, decide_eq_true_eq] at h ⊢
  rcases h with h | h
  · exact .inl h
  · exact .inr (hbc.trans h)

theorem timeIn_firstStep (person : String) : timeIn (firstStep base condition) person
    = first eventTime (personRows base person) condition := by
  have hgroup : Table.groupOf (fun b => b.entityId) (base.filter condition) person
      = (personRows base person).filter condition := by
    unfold Table.groupOf personRows
    rw [List.filter_filter, List.filter_filter]
    congr 1
    funext b
    exact Bool.and_comm _ _
  unfold timeIn firstStep first
  rw [Table.lookup_groupRows, hgroup]
  by_cases hnil : (personRows base person).filter condition = []
  · rw [if_pos hnil, hnil]
    rfl
  · rw [if_neg hnil]
    rfl

theorem timeIn_nextStep (prev : StepTable) (person : String) :
    timeIn (nextStep base minutes prev condition) person
      = (timeIn prev person).bind (next eventTime (withinLimit minutes) (personRows base person) condition) := by
  unfold timeIn nextStep
  rw [Table.lookup_filterMapRows]
  cases prev.lookup person with
  | none => rfl
  | some t =>
    cases t with
    | none => rfl
    | some t =>
      show minTime _ _ = minTime _ _
      congr 1
      unfold personRows
      rw [List.filter_filter]
      congr 1
      funext b
      -- the same four tests, grouped another way
      by_cases hperson : b.entityId = person
      · simp only [hperson, eventTime, true_and, decide_true, Bool.decide_and, Bool.decide_eq_true,
          Bool.and_true, Bool.and_assoc]
        rfl
      · simp [hperson]

/-- **A table holds what the search reaches**, step after step. -/
theorem timeIn_laterSteps (person : String) : ∀ (rest : List (AnalyticsEvent → Bool)) {before : List _} {prev : StepTable},
    before ≠ [] →
    timeIn prev person = reached eventTime (withinLimit minutes) (personRows base person) before →
    ∀ {k table}, (laterSteps base .closed minutes prev rest)[k]? = some table →
      timeIn table person
        = reached eventTime (withinLimit minutes) (personRows base person) (before ++ rest.take (k + 1)) := by
  intro rest
  induction rest with
  | nil =>
    intro before prev _ _ k table htable
    simp [laterSteps] at htable
  | cons condition rest ih =>
    intro before prev hne hprev k table htable
    have hnext : timeIn (nextStep base minutes prev condition) person
        = reached eventTime (withinLimit minutes) (personRows base person) (before ++ [condition]) := by
      rw [timeIn_nextStep, hprev, reached_concat hne]
    cases k with
    | zero =>
      obtain rfl : nextStep base minutes prev condition = table := by simpa [laterSteps] using htable
      simpa using hnext
    | succ k =>
      have hrest : (laterSteps base .closed minutes (nextStep base minutes prev condition) rest)[k]?
          = some table := by simpa [laterSteps] using htable
      have := ih (by simp) hnext hrest
      simpa [List.append_assoc] using this

theorem timeIn_stepTables (person : String) {conditions : List (AnalyticsEvent → Bool)} {k : Nat}
    {table : StepTable} (h : (stepTables base .closed minutes conditions)[k]? = some table) :
    timeIn table person
      = reached eventTime (withinLimit minutes) (personRows base person) (conditions.take (k + 1)) := by
  cases conditions with
  | nil => simp [stepTables] at h
  | cons condition rest =>
    have hfirst : timeIn (firstStep base condition) person
        = reached eventTime (withinLimit minutes) (personRows base person) [condition] :=
      timeIn_firstStep person
    cases k with
    | zero =>
      obtain rfl : firstStep base condition = table := by simpa [stepTables] using h
      simpa using hfirst
    | succ k =>
      have hrest : (laterSteps base .closed minutes (firstStep base condition) rest)[k]? = some table := by
        simpa [stepTables] using h
      exact timeIn_laterSteps person rest (by simp) hfirst hrest

/-! ## §6. The rows are the counts of the tables. -/

theorem laterSteps_length (mode : FunnelMode) : ∀ (rest : List (AnalyticsEvent → Bool)) (prev : StepTable),
    (laterSteps base mode minutes prev rest).length = rest.length := by
  intro rest
  induction rest with
  | nil => intro prev; rfl
  | cons condition rest ih =>
    intro prev
    show (laterSteps base mode minutes _ rest).length + 1 = rest.length + 1
    rw [ih]

theorem stepTables_length (mode : FunnelMode) (conditions : List (AnalyticsEvent → Bool)) :
    (stepTables base mode minutes conditions).length = conditions.length := by
  cases conditions with
  | nil => rfl
  | cons condition rest =>
    show (laterSteps base mode minutes _ rest).length + 1 = rest.length + 1
    rw [laterSteps_length]

theorem laterRows_users (mode : FunnelMode) (first : Nat) : ∀ (rest : List (FunnelStep × StepTable)) (step before prev),
    (laterRows mode first step before prev rest).map (fun row => row.users)
      = rest.map fun r => r.2.countRows id := by
  intro rest
  induction rest with
  | nil => intro step before prev; rfl
  | cons r rest ih =>
    intro step before prev
    show _ :: List.map _ (laterRows _ _ _ _ _ _) = _
    rw [ih]
    rfl

/-- The users of the rows are those of the tables. -/
theorem funnelRows_users (mode : FunnelMode) (steps : List (FunnelStep × StepTable)) :
    (funnelRows mode steps).map (fun row => row.users) = steps.map fun r => r.2.countRows id := by
  cases steps with
  | nil => rfl
  | cons r rest =>
    show _ :: List.map _ (laterRows _ _ _ _ _ _) = _
    rw [laterRows_users]
    rfl

end

/-! ## §7. Whole chains of events. -/

section
variable (base : List AnalyticsEvent) (minutes : Nat) (conditions : List (AnalyticsEvent → Bool)) (k : Nat)

/-- The person has events that answer the steps up to number `k` (from zero) in
turn, within the limit; an event may answer several steps. -/
def HasChain (person : String) : Prop :=
  ∃ es, Chain eventTime (withinLimit minutes) (personRows base person) (conditions.take (k + 1)) es

/-- The same with as many events as steps. -/
def HasDistinctChain (person : String) : Prop :=
  ∃ es, Chain eventTime (withinLimit minutes) (personRows base person) (conditions.take (k + 1)) es ∧ es.Nodup

/-- Some event has to answer two of the steps. -/
def Doubles (person : String) : Prop :=
  HasChain base minutes conditions k person ∧ ¬ HasDistinctChain base minutes conditions k person

/-- There is a chain, but of two consecutive steps the earliest times they can be
done by are further apart than the limit. -/
def Overtakes (person : String) : Prop :=
  HasChain base minutes conditions k person
    ∧ Stranded eventTime (withinLimit minutes) (personRows base person) (conditions.take (k + 1))

end

section
variable {base : List AnalyticsEvent} {minutes : Nat} {conditions : List (AnalyticsEvent → Bool)} {k : Nat}

theorem HasDistinctChain.hasChain {person : String} (h : HasDistinctChain base minutes conditions k person) :
    HasChain base minutes conditions k person := by
  obtain ⟨es, hchain, -⟩ := h
  exact ⟨es, hchain⟩

theorem hasChain_iff_endsAt (hk : k < conditions.length) {person : String} :
    HasChain base minutes conditions k person ↔
      ∃ t, EndsAt eventTime (withinLimit minutes) (personRows base person) (conditions.take (k + 1)) t := by
  constructor
  · rintro ⟨es, hchain⟩
    have hlen := hchain.length
    rw [List.length_take] at hlen
    -- at least one step, so at least one event, and the chain ends at the last one
    have hne : es ≠ [] := by
      rintro rfl
      simp only [List.length_nil] at hlen
      omega
    refine ⟨eventTime (es.getLast hne), es.dropLast, es.getLast hne, ?_, rfl⟩
    rw [List.dropLast_append_getLast hne]
    exact hchain
  · rintro ⟨t, es, e, hchain, -⟩
    exact ⟨es ++ [e], hchain⟩

/-- Nobody without an event has a chain. -/
theorem finite_hasChain (hk : k < conditions.length) :
    {person | HasChain base minutes conditions k person}.Finite := by
  apply (List.finite_toSet (base.map fun b => b.entityId)).subset
  intro person h
  obtain ⟨-, es, e, hchain, -⟩ := (hasChain_iff_endsAt hk).mp h
  have he : e ∈ personRows base person := hchain.ofRows e (by simp)
  obtain ⟨hbase, hperson⟩ := List.mem_filter.mp he
  exact List.mem_map.mpr ⟨e, hbase, of_decide_eq_true hperson⟩

/-- **Whom a closed funnel counts**: a chain, and nothing overtaken on the way. -/
theorem counted_iff (hk : k < conditions.length) {table : StepTable}
    (h : (stepTables base .closed minutes conditions)[k]? = some table) (person : String) :
    (timeIn table person).isSome
      ↔ HasChain base minutes conditions k person ∧ ¬ Overtakes base minutes conditions k person := by
  rw [timeIn_stepTables person h, reached_isSome_iff (nearDown_withinLimit minutes), hasChain_iff_endsAt hk]
  constructor
  · rintro ⟨hends, hkept⟩
    exact ⟨hends, fun hover => hkept hover.2⟩
  · rintro ⟨hends, hover⟩
    exact ⟨hends, fun hstranded => hover ⟨(hasChain_iff_endsAt hk).mpr hends, hstranded⟩⟩

/-- What a table counts, and what is overtaken, are all who have a chain. -/
theorem countRows_add_overtakes (hk : k < conditions.length) {table : StepTable}
    (h : (stepTables base .closed minutes conditions)[k]? = some table) :
    table.countRows id + {person | Overtakes base minutes conditions k person}.ncard
      = {person | HasChain base minutes conditions k person}.ncard := by
  have hcounted : {person | (timeIn table person).isSome}
      = {person | HasChain base minutes conditions k person}
          \ {person | Overtakes base minutes conditions k person} := by
    ext person
    exact counted_iff hk h person
  have hsub : {person | Overtakes base minutes conditions k person}
      ⊆ {person | HasChain base minutes conditions k person} := fun _ hover => hover.1
  rw [Table.countRows_eq_ncard]
  show {person | (timeIn table person).isSome}.ncard + _ = _
  rw [hcounted]
  exact Set.ncard_sdiff_add_ncard_of_subset hsub (finite_hasChain hk)

theorem distinct_add_doubles (base : List AnalyticsEvent) (minutes : Nat) (hk : k < conditions.length) :
    {person | HasDistinctChain base minutes conditions k person}.ncard
        + {person | Doubles base minutes conditions k person}.ncard
      = {person | HasChain base minutes conditions k person}.ncard := by
  have hdoubles : {person | Doubles base minutes conditions k person}
      = {person | HasChain base minutes conditions k person}
          \ {person | HasDistinctChain base minutes conditions k person} := rfl
  have hsub : {person | HasDistinctChain base minutes conditions k person}
      ⊆ {person | HasChain base minutes conditions k person} := fun _ hdistinct => hdistinct.hasChain
  rw [hdoubles, Nat.add_comm]
  exact Set.ncard_sdiff_add_ncard_of_subset hsub (finite_hasChain hk)

/-- Without a limit nobody is overtaken. -/
theorem not_overtakes_of_no_limit {person : String} : ¬ Overtakes base 0 conditions k person := by
  rintro ⟨-, hstranded⟩
  have hnear : withinLimit 0 = anyGap := by
    funext t t'
    simp [withinLimit, anyGap]
  rw [hnear] at hstranded
  exact not_stranded_anyGap hstranded

end

/-! ## §8. The report. -/

theorem mapM_length {α β ε : Type} {f : α → Except ε β} : ∀ {xs : List α} {ys : List β},
    xs.mapM f = .ok ys → ys.length = xs.length := by
  intro xs
  induction xs with
  | nil =>
    intro ys h
    obtain rfl : [] = ys := Except.ok.inj h
    rfl
  | cons x xs ih =>
    intro ys h
    rw [List.mapM_cons] at h
    cases hx : f x with
    | error e =>
      rw [hx] at h
      cases h
    | ok y =>
      rw [hx] at h
      cases hxs : xs.mapM f with
      | error e =>
        rw [hxs] at h
        cases h
      | ok ys' =>
        rw [hxs] at h
        obtain rfl : y :: ys' = ys := Except.ok.inj h
        rw [List.length_cons, List.length_cons, ih hxs]

/-- **A closed funnel counts chains of distinct events exactly when, at every
step, the persons who double an event are as many as those who are overtaken.** -/
theorem funnel_counts_chains (readings : FunnelReadings) (siteId : Uuid) (request : FunnelRequest)
    (cohort : Option Segment.Node) (s : Store) {base : List AnalyticsEvent}
    {conditions : List (AnalyticsEvent → Bool)} (hmode : request.mode = .closed)
    (hbase : funnelBase readings siteId request s cohort = .ok base)
    (hsteps : request.steps.mapM (stepCondition readings) = .ok conditions) :
    ∃ rows, runFunnelContext readings siteId request cohort s = .ok rows
      ∧ rows.length = request.steps.length
      ∧ ((∀ k row, rows[k]? = some row →
            row.users = {person | HasDistinctChain base request.withinMinutes conditions k person}.ncard)
          ↔ ∀ k, k < request.steps.length →
            {person | Doubles base request.withinMinutes conditions k person}.ncard
              = {person | Overtakes base request.withinMinutes conditions k person}.ncard) := by
  have hrun : runFunnelContext readings siteId request cohort s
      = .ok (funnelRows .closed
          (request.steps.zip (stepTables base .closed request.withinMinutes conditions))) := by
    simp only [runFunnelContext, hbase, hsteps, hmode]
  have hlength := mapM_length hsteps
  have htables : (stepTables base .closed request.withinMinutes conditions).length = conditions.length :=
    stepTables_length .closed conditions
  have husers := funnelRows_users .closed
    (request.steps.zip (stepTables base .closed request.withinMinutes conditions))
  have hzip : (request.steps.zip (stepTables base .closed request.withinMinutes conditions)).map
      (fun r => r.2.countRows id)
        = (stepTables base .closed request.withinMinutes conditions).map fun table => table.countRows id := by
    rw [show (fun r : FunnelStep × StepTable => r.2.countRows id)
      = (fun table : StepTable => table.countRows id) ∘ Prod.snd from rfl, ← List.map_map,
      List.map_snd_zip (by omega)]
  rw [hzip] at husers
  refine ⟨_, hrun, ?_, ?_⟩
  · have := congrArg List.length husers
    simp only [List.length_map] at this
    omega
  · -- row `k` has the count of table `k`
    have hrow : ∀ (k : Nat) (table : StepTable),
        (stepTables base .closed request.withinMinutes conditions)[k]? = some table →
        ∃ row : FunnelRow, (funnelRows .closed (request.steps.zip
          (stepTables base .closed request.withinMinutes conditions)))[k]? = some row
          ∧ row.users = table.countRows id := by
      intro k table htable
      have hk := congrArg (fun l : List Nat => l[k]?) husers
      simp only [List.getElem?_map, htable] at hk
      exact Option.map_eq_some_iff.mp hk
    have htable : ∀ k, k < conditions.length →
        ∃ table, (stepTables base .closed request.withinMinutes conditions)[k]? = some table := by
      intro k hk
      exact ⟨_, List.getElem?_eq_getElem (by omega)⟩
    constructor
    · intro h k hk
      have hk : k < conditions.length := by omega
      obtain ⟨table, ht⟩ := htable k hk
      obtain ⟨row, hrow, hcount⟩ := hrow k table ht
      have hexact := h k row hrow
      have hover := countRows_add_overtakes hk ht
      have hdouble := distinct_add_doubles base request.withinMinutes hk
      omega
    · intro h k row hget
      have hk : k < conditions.length := by
        have hlt := (List.getElem?_eq_some_iff.mp hget).1
        have := congrArg List.length husers
        simp only [List.length_map] at this
        omega
      obtain ⟨table, ht⟩ := htable k hk
      obtain ⟨row', hrow', hcount⟩ := hrow k table ht
      rw [hget] at hrow'
      obtain rfl := Option.some.inj hrow'
      have hequal := h k (by omega)
      have hover := countRows_add_overtakes hk ht
      have hdouble := distinct_add_doubles base request.withinMinutes hk
      omega

/-! ## §9. Steps that share no event, and steps that do. -/

/-- Where no event answers two steps, nobody's chains all use one twice. -/
theorem doubles_eq_empty {base : List AnalyticsEvent} {conditions : List (AnalyticsEvent → Bool)}
    (hdisjoint : conditions.Pairwise fun p q => ∀ e ∈ base, ¬ (p e = true ∧ q e = true)) (minutes k : Nat) :
    {person | Doubles base minutes conditions k person} = ∅ := by
  ext person
  simp only [Set.mem_ofPred_eq, Set.mem_empty_iff_false, iff_false]
  rintro ⟨⟨es, hchain⟩, hdouble⟩
  apply hdouble
  refine ⟨es, hchain, hchain.nodup_of_disjoint ?_⟩
  refine (hdisjoint.sublist (List.take_sublist _ _)).imp ?_
  intro p q hpq e he
  exact hpq e (List.mem_of_mem_filter he)

/-- And without a limit nobody is overtaken. -/
theorem overtakes_eq_empty (base : List AnalyticsEvent) (conditions : List (AnalyticsEvent → Bool)) (k : Nat) :
    {person | Overtakes base 0 conditions k person} = ∅ := by
  ext person
  simp only [Set.mem_ofPred_eq, Set.mem_empty_iff_false, iff_false]
  exact not_overtakes_of_no_limit

/-- **No limit, and no event that answers two steps**: every count is right. -/
theorem funnel_exact_of_disjoint {base : List AnalyticsEvent} {conditions : List (AnalyticsEvent → Bool)}
    (hdisjoint : conditions.Pairwise fun p q => ∀ e ∈ base, ¬ (p e = true ∧ q e = true)) {k : Nat}
    (hk : k < conditions.length) {table : StepTable}
    (h : (stepTables base .closed 0 conditions)[k]? = some table) :
    table.countRows id = {person | HasDistinctChain base 0 conditions k person}.ncard := by
  have hcount := countRows_add_overtakes hk h
  have hchains := distinct_add_doubles base 0 hk
  rw [doubles_eq_empty hdisjoint, Set.ncard_empty] at hchains
  rw [overtakes_eq_empty, Set.ncard_empty] at hcount
  omega

/-! ### Two funnels the counts are wrong for. -/

namespace FunnelSample

def site : Uuid := ⟨1⟩

/-- Nothing in the configuration is read. -/
def config : Config where
  sites := ∅
  siteEnvironments := ∅
  eventDefinitions := ∅
  contractVersions := []
  networkRanges := []
  maxEventsPerRequest := none
  privacy := .error ""

/-- An event of the anonymous visitor `v`, so many minutes in. -/
def event (id : Nat) (name : String) (minute : Nat) : RawEvent where
  id := id
  eventId := ⟨id⟩
  siteId := site
  eventName := name
  eventTimestamp := minute * 60000000
  visitorId := "v"
  sessionId := "s"

/-- One page view. -/
def once : Store :=
  { Store.initial config with
    rawEvents := ⟨[event 1 "page_view" 0], 1, by simp, by simp [event], by simp⟩ }

/-- Two page views and a purchase soon after the second one. -/
def comeback : Store :=
  { Store.initial config with
    rawEvents := ⟨[event 3 "purchase" 110, event 2 "page_view" 100, event 1 "page_view" 0], 3,
      by simp [event], by simp [event], by simp [event, RawEvent.uniqueKey]⟩ }

def readings : FunnelReadings where
  explicitDateRange := .ok (0, 86400000000)
  loadSegment _ := .error "segment not found"
  compileSegment _ := .error "segment combinator must be and or or"

def funnel (events : List String) (minutes : Nat) : FunnelRequest where
  environment := "prd"
  mode := .closed
  withinMinutes := minutes
  segmentId := ""
  segment := none
  steps := events.map fun name => ⟨name, name, []⟩

/-- The condition of a step without filters. -/
def named (name : String) (b : AnalyticsEvent) : Bool := b.eventName = name ∧ allHold [] b

theorem conditions_funnel {events : List String} (minutes : Nat) (h : ∀ name ∈ events, trimSpace name ≠ "") :
    (funnel events minutes).steps.mapM (stepCondition readings) = .ok (events.map named) := by
  induction events with
  | nil => rfl
  | cons name events ih =>
    have hname : stepCondition readings ⟨name, name, []⟩ = .ok (named name) := by
      unfold stepCondition
      rw [if_neg (h name List.mem_cons_self)]
      rfl
    have ih := ih fun name' h' => h name' (List.mem_cons_of_mem _ h')
    simp only [funnel] at ih ⊢
    rw [List.map_cons, List.mapM_cons, hname, ih]
    rfl

theorem base_funnel (events : List String) (minutes : Nat) :
    funnelBase readings site (funnel events minutes) once none = .ok (analyticsEvents once)
      ∧ funnelBase readings site (funnel events minutes) comeback none = .ok (analyticsEvents comeback) :=
  ⟨rfl, rfl⟩

end FunnelSample

open FunnelSample in
/-- **One page view passes for two steps; and who comes back is not found**,
having gone through the limit the first time. -/
theorem funnel_miscounts :
    ((runFunnelContext readings site (funnel ["page_view", "page_view"] 0) none once).toOption.map
        (List.map fun row => row.users) = some [1, 1]
      ∧ {person | HasDistinctChain (analyticsEvents once) 0 (["page_view", "page_view"].map named) 1 person}.ncard
          = 0)
    ∧ ((runFunnelContext readings site (funnel ["page_view", "purchase"] 30) none comeback).toOption.map
        (List.map fun row => row.users) = some [1, 0]
      ∧ HasDistinctChain (analyticsEvents comeback) 30 (["page_view", "purchase"].map named) 1 "v:v") := by
  refine ⟨⟨by decide +kernel, ?_⟩, by decide +kernel, ?_⟩
  · have hnobody : {person | HasDistinctChain (analyticsEvents once) 0 (["page_view", "page_view"].map named) 1 person}
        = ∅ := by
      ext person
      simp only [Set.mem_ofPred_eq, Set.mem_empty_iff_false, iff_false]
      rintro ⟨es, hchain, hnodup⟩
      -- there is one event, so two different ones are not to be had
      have hsub : es ⊆ analyticsEvents once := fun e he => List.mem_of_mem_filter (hchain.ofRows e he)
      have hshort : es.length ≤ (analyticsEvents once).length := (hnodup.subperm hsub).length_le
      rw [hchain.length] at hshort
      exact absurd hshort (by decide +kernel)
    rw [hnobody, Set.ncard_empty]
  · refine ⟨[analyticsEvent ∅ (event 2 "page_view" 100), analyticsEvent ∅ (event 3 "purchase" 110)],
      ⟨.cons rfl (.cons rfl .nil), ?_, ?_⟩, ?_⟩
    · intro e he
      refine List.mem_filter.mpr ⟨?_, ?_⟩
      · show e ∈ [analyticsEvent ∅ (event 3 "purchase" 110), analyticsEvent ∅ (event 2 "page_view" 100),
          analyticsEvent ∅ (event 1 "page_view" 0)]
        simp only [List.mem_cons, List.not_mem_nil, or_false] at he ⊢
        tauto
      · simp only [List.mem_cons, List.not_mem_nil, or_false] at he
        rcases he with rfl | rfl <;> rfl
    · exact .cons_cons ⟨by decide, by decide⟩ (.singleton _)
    · refine List.nodup_cons.mpr ⟨?_, List.nodup_singleton _⟩
      intro he
      have hid := congrArg (fun e : AnalyticsEvent => e.id) (List.mem_singleton.mp he)
      exact absurd hid (by decide)

open FunnelSample in
/-- Page views and purchases are different events, and with no limit nobody is
overtaken: every step counts the persons that have such a chain. -/
theorem funnel_counts_chains_purchase :
    ∃ rows, runFunnelContext readings site (funnel ["page_view", "purchase"] 0) none comeback = .ok rows
      ∧ rows.length = 2
      ∧ ∀ k row, rows[k]? = some row → row.users
        = {person | HasDistinctChain (analyticsEvents comeback) 0 (["page_view", "purchase"].map named) k person}.ncard := by
  have hdisjoint : (["page_view", "purchase"].map named).Pairwise fun p q =>
      ∀ e ∈ analyticsEvents comeback, ¬ (p e = true ∧ q e = true) := by
    refine List.Pairwise.cons (fun q hq e _ hboth => ?_) (List.pairwise_singleton _ _)
    obtain rfl := List.mem_singleton.mp hq
    have hview : e.eventName = "page_view" := (of_decide_eq_true hboth.1).1
    have hpurchase : e.eventName = "purchase" := (of_decide_eq_true hboth.2).1
    rw [hview] at hpurchase
    exact absurd hpurchase (by decide)
  obtain ⟨rows, hrows, hlength, hiff⟩ :=
    funnel_counts_chains readings site (funnel ["page_view", "purchase"] 0) none comeback rfl
      (base_funnel ["page_view", "purchase"] 0).2 (conditions_funnel 0 (by decide +kernel))
  refine ⟨rows, hrows, hlength, hiff.mpr fun k _ => ?_⟩
  show Set.ncard {person | Doubles _ 0 _ k person} = Set.ncard {person | Overtakes _ 0 _ k person}
  rw [doubles_eq_empty hdisjoint, overtakes_eq_empty]

end Momento.Reports
