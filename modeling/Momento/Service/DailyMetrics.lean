/-
  Momento.Service.DailyMetrics

  **A DAY'S METRICS, KEPT AND REBUILT.**  Events, page views, conversions and the
  local date agree whatever the order.  The revenue does as long as every
  purchase's amount is read alike in Go and in SQL and has six decimals at most
  (`RevenueKept`): Go takes the first of `value` and `revenue` it can read as a
  number, SQL takes `value` unless it is null and looks no further; and Go's
  double is rounded to the column event by event, SQL's decimals once, as a sum.
-/
import Mathlib.Algebra.Order.Ring.Star
import Momento.Service.Runs
import Momento.Service.Derived

namespace Momento

open Foundation

/-! ## §1. Amounts that are read alike. -/

/-- Go takes the member for no number. -/
def NoNumber : Option Json → Prop
  | some (.num _) => False
  | some (.str s) => (parseFloat s).2 = false
  | _ => True

/-- Go takes the member for a number that is nothing at six decimals. -/
def WorthlessNumber : Option Json → Prop
  | some (.num x) => roundToScale 6 (Binary64.shortest x.value) = 0
  | some (.str s) => (parseFloat s).2 = true
    ∧ ∃ x, (parseFloat s).1 = .fin x ∧ roundToScale 6 (Binary64.shortest x.value) = 0
  | _ => False

/-- Both sides take the member for the amount `d`, and the column has room for
it: a JSON number is the same decimal on both; a plain decimal must survive the
double at six decimals. -/
def ReadAs (d : ℚ) : Option Json → Prop
  | some (.num x) => Binary64.shortest x.value = d ∧ |roundToScale 6 d| < 10 ^ 18
  | some (.str s) => signedPlainDecimal s.toList = some d ∧ withinNumeric s.toList = true
    ∧ |roundToScale 6 d| < 10 ^ 18
    ∧ roundToScale 6 (Binary64.shortest (Binary64.nearest d)) = roundToScale 6 d
  | _ => False

/-- **The amount is read alike, as `d`.**  `stored` is the member SQL looks at.
Either SQL finds no number there and what Go finds is worth nothing; or both read
the same member, which is `value`, or is `revenue` where Go finds no number under
`value`. -/
def AmountAlike (value revenue stored : Option Json) (d : ℚ) : Prop :=
  (d = 0 ∧ signedNumericText stored = none
      ∧ (WorthlessNumber value ∨ (NoNumber value ∧ (NoNumber revenue ∨ WorthlessNumber revenue))))
    ∨ (ReadAs d stored ∧ (value = stored ∨ (NoNumber value ∧ revenue = stored)))

/-- What the loop of `eventRevenue` returns. -/
def goAmount (value revenue : Option Json) : Binary64 :=
  ((revenueReading value).or (revenueReading revenue)).getD zeroFloat

section Amounts
variable {value revenue stored : Option Json} {d q : ℚ}

theorem revenueReading_eq_none : revenueReading value = none ↔ NoNumber value := by
  cases value with
  | none => simp [revenueReading, NoNumber]
  | some v => cases v <;> simp [revenueReading, NoNumber]

theorem excludedRevenue_zero : excludedRevenue zeroFloat = .ok (.fin 0) := by
  decide +kernel

theorem excludedRevenue_fin_iff {f : Binary64} :
    excludedRevenue f = .ok (.fin q)
      ↔ ∃ x, f = .fin x ∧ roundToScale 6 (Binary64.shortest x.value) = q ∧ |q| < 10 ^ 18 := by
  cases f with
  | nan => simp [excludedRevenue, numericOf, storeNumeric24_6]
  | inf negative => simp [excludedRevenue, numericOf]
  | fin x =>
    simp only [excludedRevenue, numericOf, storeNumeric24_6, Binary64.fin.injEq, exists_eq_left']
    by_cases hfits : |roundToScale 6 (Binary64.shortest x.value)| < 10 ^ 18
    · rw [if_pos hfits, Except.ok.injEq, Numeric.fin.injEq]
      exact ⟨fun h => ⟨h, h ▸ hfits⟩, fun h => h.1⟩
    · rw [if_neg hfits]
      constructor
      · rintro ⟨⟩
      · rintro ⟨rfl, hlt⟩
        exact absurd hlt hfits

/-- An amount the column has room for is read as a finite double. -/
theorem parseFloat_of_fits {s : String} (h : signedPlainDecimal s.toList = some d)
    (hd : |roundToScale 6 d| < 10 ^ 18) :
    ∃ x : FiniteDouble, parseFloat s = (.fin x, true) ∧ x.value = Binary64.nearest d := by
  have hclose := abs_roundToScale_sub_le 6 d
  have hbound : |d| ≤ 2 ^ 60 := by
    rw [abs_le] at hclose ⊢
    rw [abs_lt] at hd
    constructor <;> linarith
  have hfinite : |Binary64.nearest d| < 2 ^ 1024 :=
    (Binary64.abs_nearest_le_two_pow hbound).trans_lt (pow_lt_pow_right₀ one_lt_two (by norm_num))
  refine ⟨⟨Binary64.nearest d, Binary64.nearest_idem d, hfinite⟩, ?_, rfl⟩
  rw [parseFloat_of_signedPlainDecimal h, Binary64.ofRat_of_lt hfinite]

/-- What is worth nothing is taken, and adds nothing. -/
theorem worthlessNumber_iff :
    WorthlessNumber value ↔ ∃ f, revenueReading value = some f ∧ excludedRevenue f = .ok (.fin 0) := by
  have hzero : |(0 : ℚ)| < 10 ^ 18 := by norm_num
  cases value with
  | none => simp [WorthlessNumber, revenueReading]
  | some v =>
    cases v with
    | num x => simp [WorthlessNumber, revenueReading, excludedRevenue_fin_iff]
    | str s =>
      by_cases hok : (parseFloat s).2 = true
      · simp [WorthlessNumber, revenueReading, excludedRevenue_fin_iff, hok]
      · simp [WorthlessNumber, revenueReading, hok]
    | _ => simp [WorthlessNumber, revenueReading]

/-- **A number SQL reads and the column takes is a number in Go**, and the same
one exactly when it is read alike. -/
theorem readAs_iff (hd : signedNumericText stored = some d) (hcast : CastFits stored)
    (hfits : |roundToScale 6 d| < 10 ^ 18) :
    ∃ f, revenueReading stored = some f
      ∧ (ReadAs d stored ↔ excludedRevenue f = .ok (.fin (roundToScale 6 d))) := by
  cases stored with
  | none => cases hd
  | some v =>
    cases v with
    | num x =>
      obtain rfl := Option.some.inj hd
      refine ⟨.fin x, rfl, ?_⟩
      simp [ReadAs, excludedRevenue_fin_iff, hfits]
    | str s =>
      have hdecimal : signedPlainDecimal s.toList = some d := hd
      have hroom : withinNumeric s.toList = true := hcast
      obtain ⟨x, hparse, hx⟩ := parseFloat_of_fits hdecimal hfits
      refine ⟨.fin x, by simp [revenueReading, hparse], ?_⟩
      simp [ReadAs, excludedRevenue_fin_iff, hdecimal, hroom, hfits, hx]
    | _ => cases hd

theorem readAs_sound (h : ReadAs d stored) :
    signedNumericText stored = some d ∧ CastFits stored ∧ |roundToScale 6 d| < 10 ^ 18 := by
  cases stored with
  | none => exact h.elim
  | some v =>
    cases v with
    | num x => exact ⟨congrArg some h.1, trivial, h.2⟩
    | str s => exact ⟨h.1, h.2.1, h.2.2.1⟩
    | _ => exact h.elim

/-- **An amount that is read alike is the same amount in Go and in SQL.** -/
theorem amountAlike_sound (h : AmountAlike value revenue stored d) :
    excludedRevenue (goAmount value revenue) = .ok (.fin (roundToScale 6 d))
      ∧ guardedAmount stored = .ok d := by
  obtain ⟨rfl, hnone, hgo⟩ | ⟨hread, hmember⟩ := h
  · have hsql : guardedAmount stored = .ok 0 := by
      unfold guardedAmount
      rw [hnone]
    refine ⟨?_, hsql⟩
    rw [roundToScale_zero]
    unfold goAmount
    rcases hgo with hworthless | ⟨hno, hno' | hworthless⟩
    · obtain ⟨f, hf, hzero⟩ := worthlessNumber_iff.mp hworthless
      rw [hf]
      exact hzero
    · rw [revenueReading_eq_none.mpr hno, revenueReading_eq_none.mpr hno']
      exact excludedRevenue_zero
    · obtain ⟨f, hf, hzero⟩ := worthlessNumber_iff.mp hworthless
      rw [revenueReading_eq_none.mpr hno, hf]
      exact hzero
  · obtain ⟨hd, hcast, hfits⟩ := readAs_sound hread
    obtain ⟨f, hf, hiff⟩ := readAs_iff hd hcast hfits
    constructor
    · rw [← hiff.mp hread]
      unfold goAmount
      rcases hmember with rfl | ⟨hno, rfl⟩
      · rw [hf]
        rfl
      · rw [revenueReading_eq_none.mpr hno, hf]
        rfl
    · unfold guardedAmount
      rw [hd]
      exact if_pos hcast

/-- **And only such an amount is**, where SQL looks at a member Go may read. -/
theorem amountAlike_complete
    (hmember : signedNumericText stored ≠ none →
      value = stored ∨ (NoNumber value ∧ revenue = stored))
    (hgo : excludedRevenue (goAmount value revenue) = .ok (.fin q))
    (hsql : guardedAmount stored = .ok d) (hstore : storeNumeric24_6 (.fin d) = .ok (.fin q)) :
    AmountAlike value revenue stored d := by
  unfold guardedAmount at hsql
  cases hd : signedNumericText stored with
  | none =>
    rw [hd] at hsql
    obtain rfl := Except.ok.inj hsql
    have hzero : q = 0 := by
      simp [storeNumeric24_6] at hstore
      exact hstore.symm
    rw [hzero] at hgo
    refine .inl ⟨rfl, hd, ?_⟩
    unfold goAmount at hgo
    cases hvalue : revenueReading value with
    | some f =>
      rw [hvalue] at hgo
      exact .inl (worthlessNumber_iff.mpr ⟨f, hvalue, hgo⟩)
    | none =>
      refine .inr ⟨revenueReading_eq_none.mp hvalue, ?_⟩
      cases hrevenue : revenueReading revenue with
      | some f =>
        rw [hvalue, hrevenue] at hgo
        exact .inr (worthlessNumber_iff.mpr ⟨f, hrevenue, hgo⟩)
      | none => exact .inl (revenueReading_eq_none.mp hrevenue)
  | some d' =>
    rw [hd] at hsql
    simp only at hsql
    by_cases hcast : CastFits stored
    · rw [if_pos hcast] at hsql
      obtain rfl := Except.ok.inj hsql
      have hround : |roundToScale 6 d'| < 10 ^ 18 ∧ roundToScale 6 d' = q := by
        unfold storeNumeric24_6 at hstore
        simp only at hstore
        split at hstore
        next hfits => exact ⟨hfits, Numeric.fin.inj (Except.ok.inj hstore)⟩
        next => cases hstore
      obtain ⟨hfits, rfl⟩ := hround
      obtain ⟨f, hf, hiff⟩ := readAs_iff hd hcast hfits
      have hwhere := hmember (by simp [hd])
      refine .inr ⟨hiff.mpr ?_, hwhere⟩
      rw [← hgo]
      unfold goAmount
      rcases hwhere with rfl | ⟨hno, rfl⟩
      · rw [hf]
        rfl
      · rw [revenueReading_eq_none.mpr hno, hf]
        rfl
    · rw [if_neg hcast] at hsql
      cases hsql

end Amounts

/-! ## §2. The amount of an event. -/

/-- A member the filter leaves a number is left as it is. -/
theorem filterNested_of_number {env : Platform} {blocked : List String} {v : Json}
    (h : signedNumericText (some (filterNested env blocked v)) ≠ none) :
    filterNested env blocked v = v := by
  cases v with
  | num x => rfl
  | str s => rfl
  | _ => exact absurd rfl h

section Event
variable (c : JobContext) (event : IncomingEvent)

/-- The filter keeps `value`. -/
def KeepsValue : Prop := matchForm c.env "value" ∉ matchSet c.env c.policy.blockedProperties

/-- The member `RevenueAmountSQL` looks at once the event is stored. -/
def storedAmount : Option Json := amountProperty (storedProperties c event)

theorem get_storedProperties {key : String} (hkey : key ≠ "items") :
    (storedProperties c event).get key
      = if matchForm c.env key ∈ matchSet c.env c.policy.blockedProperties then none
        else (propertyOf event.properties key).map
          (filterNested c.env (matchSet c.env c.policy.blockedProperties)) := by
  have hfiltered := get_filterMembers c.env (matchSet c.env c.policy.blockedProperties)
    (event.properties.getD []) key
  unfold storedProperties
  simp only
  split
  · exact hfiltered
  · rw [Properties.get_set_of_ne _ hkey]
    exact hfiltered

/-- A stored number SQL looks at is a member Go looks at too. -/
theorem storedAmount_member (hkeeps : KeepsValue c)
    (h : signedNumericText (storedAmount c event) ≠ none) :
    propertyOf event.properties "value" = storedAmount c event
      ∨ (NoNumber (propertyOf event.properties "value")
        ∧ propertyOf event.properties "revenue" = storedAmount c event) := by
  have hvalue := get_storedProperties c event (show "value" ≠ "items" by decide)
  rw [if_neg hkeeps] at hvalue
  have hrevenue : signedNumericText ((storedProperties c event).get "revenue") ≠ none →
      propertyOf event.properties "revenue" = (storedProperties c event).get "revenue" := by
    rw [get_storedProperties c event (by decide)]
    split
    · intro hnone
      exact absurd rfl hnone
    · intro hnumber
      cases hmember : propertyOf event.properties "revenue" with
      | none => rfl
      | some r =>
        rw [hmember] at hnumber
        exact congrArg some (filterNested_of_number hnumber).symm
  unfold storedAmount amountProperty at h ⊢
  cases hmember : propertyOf event.properties "value" with
  | none =>
    rw [hmember] at hvalue
    simp only [Option.map_none] at hvalue
    rw [hvalue] at h ⊢
    exact .inr ⟨trivial, hrevenue h⟩
  | some v =>
    rw [hmember, Option.map_some] at hvalue
    cases v with
    | null =>
      have hnull : (storedProperties c event).get "value" = some .null := hvalue
      rw [hnull] at h ⊢
      exact .inr ⟨trivial, hrevenue h⟩
    | num x =>
      have hnum : (storedProperties c event).get "value" = some (.num x) := hvalue
      rw [hnum]
      exact .inl rfl
    | str s =>
      have hstr : (storedProperties c event).get "value" = some (.str s) := hvalue
      rw [hstr]
      exact .inl rfl
    | bool b =>
      have hbool : (storedProperties c event).get "value" = some (.bool b) := hvalue
      rw [hbool] at h
      exact absurd rfl h
    | arr items =>
      have harr : (storedProperties c event).get "value" = some (.arr _) := hvalue
      rw [harr] at h
      exact absurd rfl h
    | obj members =>
      have hobj : (storedProperties c event).get "value" = some (.obj _) := hvalue
      rw [hobj] at h
      exact absurd rfl h
    | strs texts =>
      have hstrs : (storedProperties c event).get "value" = some (.strs _) := hvalue
      rw [hstrs] at h
      exact absurd rfl h

/-- The event's amount, if it is a purchase, is read alike. -/
def EventAmountAlike (d : ℚ) : Prop :=
  if event.name = "purchase" then
    AmountAlike (propertyOf event.properties "value") (propertyOf event.properties "revenue")
      (storedAmount c event) d
  else d = 0

end Event

/-- **A plain decimal under `value`** is read alike whatever stands under
`revenue`. -/
theorem eventAmountAlike_of_text {c : JobContext} {event : IncomingEvent} {s : String} {d : ℚ}
    (hkeeps : KeepsValue c) (hvalue : propertyOf event.properties "value" = some (.str s))
    (hread : ReadAs d (some (.str s))) :
    EventAmountAlike c event (if event.name = "purchase" then d else 0) := by
  have hstored := get_storedProperties c event (show "value" ≠ "items" by decide)
  rw [if_neg hkeeps, hvalue] at hstored
  have htext : (storedProperties c event).get "value" = some (.str s) := hstored
  unfold EventAmountAlike
  split
  · refine .inr ⟨?_, .inl ?_⟩
    · unfold storedAmount amountProperty
      rw [htext]
      exact hread
    · unfold storedAmount amountProperty
      rw [htext]
      exact hvalue
  · rfl

/-- **The amount the event adds to the day, and the one its stored row adds to a
rebuild**, are the same. -/
def SameAmount (a : Arrival) (s : Store) : Prop :=
  ∃ d q, excludedRevenue (eventRevenue a.event) = .ok (.fin q)
    ∧ revenueAmountSql (a.newRow s) = .ok d ∧ storeNumeric24_6 (.fin d) = .ok (.fin q)

theorem eventAmountAlike_sound {a : Arrival} {s : Store} {d : ℚ}
    (h : EventAmountAlike a.context a.event d) :
    excludedRevenue (eventRevenue a.event) = .ok (.fin (roundToScale 6 d))
      ∧ revenueAmountSql (a.newRow s) = .ok d := by
  unfold EventAmountAlike at h
  unfold eventRevenue revenueAmountSql
  by_cases hname : a.event.name = "purchase"
  · rw [if_pos hname] at h
    rw [if_neg (not_not.mpr hname), if_pos (show (a.newRow s).eventName = "purchase" from hname)]
    exact amountAlike_sound h
  · rw [if_neg hname] at h
    rw [if_pos hname, if_neg (show ¬(a.newRow s).eventName = "purchase" from hname), h,
      roundToScale_zero]
    exact ⟨excludedRevenue_zero, rfl⟩

/-- **Which documents are worth the same on both sides**, where the filter keeps
`value`. -/
theorem sameAmount_iff {a : Arrival} {s : Store} (hkeeps : KeepsValue a.context) :
    SameAmount a s ↔ ∃ d, EventAmountAlike a.context a.event d := by
  constructor
  · rintro ⟨d, q, hgo, hsql, hstore⟩
    refine ⟨d, ?_⟩
    unfold EventAmountAlike
    unfold eventRevenue at hgo
    unfold revenueAmountSql at hsql
    by_cases hname : a.event.name = "purchase"
    · rw [if_neg (not_not.mpr hname)] at hgo
      rw [if_pos (show (a.newRow s).eventName = "purchase" from hname)] at hsql
      rw [if_pos hname]
      exact amountAlike_complete (storedAmount_member a.context a.event hkeeps) hgo hsql hstore
    · rw [if_neg (show ¬(a.newRow s).eventName = "purchase" from hname)] at hsql
      rw [if_neg hname]
      exact (Except.ok.inj hsql).symm
  · rintro ⟨d, h⟩
    obtain ⟨hgo, hsql⟩ := eventAmountAlike_sound (s := s) h
    obtain ⟨x, -, -, hfits⟩ := excludedRevenue_fin_iff.mp hgo
    exact ⟨d, _, hgo, hsql, if_pos hfits⟩

/-! ## §3. One day's events. -/

/-- The raw events of a local date and environment. -/
def Store.dayGroup (env : Platform) (s : Store) (k : DayKey) : List RawEvent :=
  (s.config.sites.lookup k.siteId).elim [] fun site =>
    Table.groupOf (RawEvent.dayKey env site.timezone) s.rawEvents.rows k

/-- What the rebuild answers for a day. -/
theorem lookup_rebuildDailyMetrics (env : Platform) (s : Store) (k : DayKey) :
    (rebuildDailyMetrics env k.siteId s).lookup k
      = if s.dayGroup env k = [] then none else some (rebuildMetricsRow (s.dayGroup env k)) := by
  unfold rebuildDailyMetrics Store.dayGroup
  cases s.config.sites.lookup k.siteId with
  | none => rfl
  | some site =>
    simp only [Option.elim_some]
    rw [Table.lookup_groupRows, groupOf_siteRows fun r hr => congrArg DayKey.siteId hr]
    rfl

/-- And what the rebuild of a range of dates answers for a day in it. -/
theorem lookup_rebuildRangeDailyMetrics (env : Platform) (s : Store) (k : DayKey)
    {first last : Date} (hfirst : first ≤ k.eventDate) (hlast : k.eventDate ≤ last) :
    (rebuildRangeDailyMetrics env k.siteId k.environment first last s).lookup k
      = (rebuildDailyMetrics env k.siteId s).lookup k := by
  unfold rebuildRangeDailyMetrics rebuildDailyMetrics
  cases s.config.sites.lookup k.siteId with
  | none => rfl
  | some site =>
    have hkeep : ∀ r, RawEvent.dayKey env site.timezone r = k →
        decide (r.environment = k.environment
          ∧ first ≤ (r.dayKey env site.timezone).eventDate
          ∧ (r.dayKey env site.timezone).eventDate ≤ last) = true := by
      intro r hr
      have henv : r.environment = k.environment := congrArg DayKey.environment hr
      rw [hr]
      exact decide_eq_true ⟨henv, hfirst, hlast⟩
    simp only [Option.elim_some]
    rw [Table.lookup_groupRows, Table.lookup_groupRows, Table.groupOf_filter hkeep]

/-- The stored event goes to the group of its own local date. -/
theorem Arrival.store_dayGroup {env : Platform} (a : Arrival) {s : Store}
    (harrives : Arrives env a s) (h : ¬a.Known s) (k : DayKey) :
    (a.store s h).dayGroup env k
      = if k = a.day then a.newRow s :: s.dayGroup env k else s.dayGroup env k := by
  obtain ⟨site, hsite, hzone⟩ : ∃ site, s.config.sites.lookup a.context.siteId = some site
      ∧ site.timezone = a.context.timezone := by
    have hset := harrives.settings
    unfold siteSettings at hset
    cases hsite : s.config.sites.lookup a.context.siteId with
    | none => simp [hsite] at hset
    | some site =>
      rw [hsite] at hset
      cases henvironment : s.config.siteEnvironments.lookup
          ⟨a.context.siteId, a.context.request.environment⟩ with
      | none => simp [henvironment] at hset
      | some e =>
        rw [henvironment] at hset
        exact ⟨site, rfl, (Prod.mk.inj (Except.ok.inj hset)).1⟩
  have hconfig : (a.store s h).config = s.config := a.derive_config _
  have hday : (a.newRow s).dayKey env a.context.timezone = a.day := by
    rw [← harrives.env_eq]
    rfl
  unfold Store.dayGroup
  rw [hconfig, a.store_rows s h]
  cases hk : s.config.sites.lookup k.siteId with
  | none =>
    rw [if_neg]
    · rfl
    · rintro rfl
      rw [show s.config.sites.lookup a.day.siteId = _ from hsite] at hk
      cases hk
  | some site' =>
    simp only [Option.elim_some]
    rw [Table.groupOf_cons]
    by_cases hsame : k.siteId = a.context.siteId
    · rw [hsame, hsite] at hk
      obtain rfl := Option.some.inj hk
      rw [hzone, hday]
      by_cases heq : k = a.day
      · rw [if_pos heq, if_pos heq.symm]
      · rw [if_neg heq, if_neg (Ne.symm heq)]
    · rw [if_neg, if_neg]
      · rintro rfl
        exact hsame rfl
      · rintro rfl
        exact hsame rfl

/-! ## §4. One event. -/

/-- **The event's amount is read alike and has six decimals at most.** -/
def RevenueKept (a : Arrival) (_ : Store) : Prop :=
  ∃ d, EventAmountAlike a.context a.event d ∧ roundToScale 6 d = d

/-- The metrics a day's group gives. -/
structure MetricsOf (g : List RawEvent) (m : DailyMetrics) : Prop where
  events : m.events = g.length
  pageViews : m.pageViews = g.countP (fun r => r.eventName = "page_view")
  conversions : m.conversions = g.countP RawEvent.isConversion
  revenue : ∃ amounts, g.mapM revenueAmountSql = .ok amounts ∧ m.revenue = .fin amounts.sum
    ∧ roundToScale 6 amounts.sum = amounts.sum ∧ |amounts.sum| < 10 ^ 18

/-- **The metrics invariant.** -/
def MetricsKept (env : Platform) (s : Store) : Prop :=
  ∀ k, match s.dailySiteMetrics.lookup k with
    | none => s.dayGroup env k = []
    | some m => s.dayGroup env k ≠ [] ∧ MetricsOf (s.dayGroup env k) m

/-- The metrics of a group are the row a rebuild makes of it. -/
theorem MetricsOf.rebuilt {g : List RawEvent} {m : DailyMetrics} (h : MetricsOf g m) :
    rebuildMetricsRow g = .ok m := by
  obtain ⟨amounts, hamounts, hrevenue, hscale, hfits⟩ := h.revenue
  have hstore : storeNumeric24_6 (.fin amounts.sum) = .ok (.fin amounts.sum) := by
    unfold storeNumeric24_6
    simp only [hscale, hfits, if_true]
  unfold rebuildMetricsRow
  rw [hamounts]
  simp only [bind, Except.bind, hstore]
  rw [← hrevenue, ← h.events, ← h.pageViews, ← h.conversions]
  rfl

section Step
variable {env : Platform} (a : Arrival) {s : Store}

/-- The first event of a day. -/
theorem metricsOf_insert {d : ℚ} (hsql : revenueAmountSql (a.newRow s) = .ok d)
    (hscale : roundToScale 6 d = d) (hfits : |d| < 10 ^ 18) :
    MetricsOf [a.newRow s]
      ⟨1, (decide (a.event.name = "page_view")).toNat, a.conversion.toNat, .fin d⟩ where
  events := rfl
  pageViews := ((Table.countP_cons_toNat _ _ _).trans (Nat.zero_add _)).symm
  conversions := ((Table.countP_cons_toNat _ _ _).trans (Nat.zero_add _)).symm
  revenue := ⟨[d], by rw [List.mapM_cons, hsql]; rfl, by simp, by simpa using hscale,
    by simpa using hfits⟩

/-- Another event of the day. -/
theorem metricsOf_update {g : List RawEvent} {m : DailyMetrics} {d : ℚ} {revenue : Numeric}
    (hold : MetricsOf g m) (hsql : revenueAmountSql (a.newRow s) = .ok d)
    (hscale : roundToScale 6 d = d)
    (hsum : storeNumeric24_6 (m.revenue + .fin d) = .ok revenue) :
    MetricsOf (a.newRow s :: g)
      ⟨m.events + 1, m.pageViews + (decide (a.event.name = "page_view")).toNat,
        m.conversions + a.conversion.toNat, revenue⟩ := by
  obtain ⟨amounts, hamounts, hrevenue, hold_scale, hold_fits⟩ := hold.revenue
  have hkeeps := roundToScale_add hscale hold_scale
  rw [hrevenue, Numeric.fin_add, add_comm] at hsum
  unfold storeNumeric24_6 at hsum
  simp only [hkeeps] at hsum
  split at hsum
  next hfits =>
    obtain rfl := Except.ok.inj hsum
    exact
      { events := by rw [List.length_cons, hold.events]
        pageViews := by
          rw [Table.countP_cons_toNat, ← hold.pageViews]
          rfl
        conversions := by
          rw [Table.countP_cons_toNat, ← hold.conversions]
          rfl
        revenue := by
          refine ⟨d :: amounts, ?_, ?_, ?_, ?_⟩
          · rw [List.mapM_cons, hsql, hamounts]
            rfl
          · rw [List.sum_cons]
          · rw [List.sum_cons]
            exact hkeeps
          · rw [List.sum_cons]
            exact hfits }
  next => cases hsum

/-- **One event keeps the metrics**, its amount being read alike. -/
theorem store_metricsKept (harrives : Arrives env a s) (h : ¬a.Known s) (hs : MetricsKept env s)
    (hkept : RevenueKept a s) : MetricsKept env (a.store s h) := by
  obtain ⟨d, halike, hscale⟩ := hkept
  obtain ⟨hgo, hsql⟩ := eventAmountAlike_sound (s := s) halike
  obtain ⟨x, -, -, hfits⟩ := excludedRevenue_fin_iff.mp hgo
  rw [hscale] at hgo hfits
  obtain ⟨revenue, hnext⟩ : ∃ revenue, s.nextRevenue a.day a.event = .ok revenue := by
    obtain ⟨-, hknown | ⟨-, -, -, hrevenue⟩⟩ := harrives.fits
    · exact absurd hknown h
    · exact hrevenue
  have hafter : s.revenueAfter a.day (.fin d) = .ok revenue := by
    rw [← hnext]
    unfold Store.nextRevenue
    rw [hgo]
    rfl
  have hnext' : Store.nextRevenue a.day a.event { s with rawEvents := s.rawEvents.insert a.row h }
      = .ok revenue := hnext
  intro k
  rw [a.store_dayGroup harrives h]
  unfold Arrival.store
  rw [a.derive_dailySiteMetrics, hnext']
  unfold Store.countMetrics
  simp only [Except.toOption, Option.getD_some]
  unfold Store.revenueAfter at hafter
  have hold := hs k
  by_cases hk : k = a.day
  · subst hk
    rw [if_pos rfl, Table.lookup_upsert_self]
    refine ⟨List.cons_ne_nil _ _, ?_⟩
    cases hrow : s.dailySiteMetrics.lookup a.day with
    | none =>
      rw [hrow] at hold hafter
      obtain rfl := Except.ok.inj hafter
      rw [hold]
      exact metricsOf_insert a hsql hscale hfits
    | some m =>
      rw [hrow] at hold hafter
      exact metricsOf_update a hold.2 hsql hscale hafter
  · rw [if_neg hk, Table.lookup_upsert_of_ne hk]
    exact hold

end Step

/-! ## §5. Runs. -/

/-- **Every day's metrics are the rebuilt ones**, those of a full rebuild and
those of a rebuild of any range of dates around the day. -/
structure MetricsAgree (env : Platform) (s : Store) : Prop where
  full : ∀ k, (s.dailySiteMetrics.lookup k).map Except.ok
    = (rebuildDailyMetrics env k.siteId s).lookup k
  range : ∀ k first last, first ≤ k.eventDate → k.eventDate ≤ last →
    (s.dailySiteMetrics.lookup k).map Except.ok
      = (rebuildRangeDailyMetrics env k.siteId k.environment first last s).lookup k

theorem metricsAgree_of_kept {env : Platform} {s : Store} (hs : MetricsKept env s) :
    MetricsAgree env s := by
  have hfull : ∀ k, (s.dailySiteMetrics.lookup k).map Except.ok
      = (rebuildDailyMetrics env k.siteId s).lookup k := by
    intro k
    have hk := hs k
    rw [lookup_rebuildDailyMetrics]
    cases hrow : s.dailySiteMetrics.lookup k with
    | none =>
      rw [hrow] at hk
      rw [if_pos hk]
      rfl
    | some m =>
      rw [hrow] at hk
      rw [if_neg hk.1, hk.2.rebuilt]
      rfl
  exact
    { full := hfull
      range := fun k first last hfirst hlast => by
        rw [lookup_rebuildRangeDailyMetrics env s k hfirst hlast]
        exact hfull k }

/-- **Daily metrics agree with their rebuild in every store a run reaches whose
purchases are all read alike**; and an event's two amounts are the same exactly
when it is read alike, where the privacy filter keeps `value`. -/
theorem dailyMetrics_rebuilt (env : Platform) (config : Config) (jobs : List Job) :
    (JobsMeet env RevenueKept (Store.initial config) jobs →
        MetricsAgree env (afterJobs env (Store.initial config) jobs))
      ∧ ∀ (a : Arrival) (s : Store), KeepsValue a.context →
          (SameAmount a s ↔ ∃ d, EventAmountAlike a.context a.event d) := by
  constructor
  · intro hmeet
    have hinv : MetricsKept env (afterJobs env (Store.initial config) jobs) := by
      refine afterJobs_induction ?_ ?_ jobs hmeet ?_
      · intro a s h harrives hs hkept
        exact store_metricsKept a harrives h hs hkept
      · intro s key hs
        exact hs
      · intro k
        show Store.dayGroup env (Store.initial config) k = []
        unfold Store.dayGroup
        cases (Store.initial config).config.sites.lookup k.siteId with
        | none => rfl
        | some site => rfl
    exact metricsAgree_of_kept hinv
  · intro a s hkeeps
    exact sameAmount_iff hkeeps

/-- One purchase with the given `value` and `revenue`. -/
def Sample.amounts (value : String) (revenue : FiniteDouble) : List Job :=
  [Sample.job (Sample.payload "v1" "" [{
      id := Sample.eventId '1', name := "purchase", timestamp := Sample.newYear - 1000
      properties := some [("revenue", .num revenue), ("value", .str value)] }])]

/-- A plain decimal under `value` is read alike, whatever stands under `revenue`. -/
theorem dailyMetrics_rebuilt_decimal :
    MetricsAgree Sample.platform (afterJobs Sample.platform (Store.initial (Sample.config 100))
      (Sample.amounts "19.9" (Binary64.ofNat 5 (by norm_num)))) := by
  refine (dailyMetrics_rebuilt Sample.platform (Sample.config 100)
    (Sample.amounts "19.9" (Binary64.ofNat 5 (by norm_num)))).1
    ⟨fun _ p timezone limit hp _ => ?_, trivial⟩
  obtain rfl := Except.ok.inj hp
  intro eventId _
  refine ⟨fun _ => ?_, trivial⟩
  have hallowed : matchForm Sample.platform "value"
      ∉ matchSet Sample.platform Policy.default.blockedProperties := by decide +kernel
  have hread : ReadAs (199 / 10) (some (.str "19.9")) := by
    have hdecimal : signedPlainDecimal "19.9".toList = some (199 / 10) := by decide +kernel
    have hroom : withinNumeric "19.9".toList = true := by decide +kernel
    have hfits : |roundToScale 6 (199 / 10)| < 10 ^ 18 := by decide +kernel
    have hround : roundToScale 6 (Binary64.shortest (Binary64.nearest (199 / 10)))
        = roundToScale 6 (199 / 10) := by decide +kernel
    exact ⟨hdecimal, hroom, hfits, hround⟩
  exact ⟨199 / 10, eventAmountAlike_of_text hallowed rfl hread, by decide +kernel⟩

/-- Go skips a `value` that is no number, SQL does not. -/
theorem textValue_not_rebuilt :
    ¬MetricsAgree Sample.platform (afterJobs Sample.platform (Store.initial (Sample.config 100))
      (Sample.amounts "free" (Binary64.ofNat 5 (by norm_num)))) := by
  intro hagree
  have hday := congrArg (Option.map (Except.map DailyMetrics.revenue))
    (hagree.full ⟨Sample.siteId, 20453, "prd"⟩)
  revert hday
  rw [Option.map_map]
  decide +kernel

end Momento
