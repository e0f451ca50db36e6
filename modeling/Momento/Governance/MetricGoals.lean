/-
  Momento.Governance.MetricGoals

  **GOALS AND HOW FAR THEY ARE.**  A goal's row says whether the metric's value meets
  the target, how far it is in percent, and where the period is heading.  Three
  calculations: the first compares, the second divides (by the value where less is
  better), the third extends the value to the end of the period.

  The second divides a rate by the value too where more is better, so there it falls
  as the value rises.
-/
import Momento.Foundation.Binary64Arithmetic
import Momento.Foundation.Calendar

namespace Momento.Goals

open Foundation Foundation.Calendar

/-! ## §1. Periods. -/

/-- `CHECK(comparator IN ('gte','lte'))`. -/
inductive Comparator
  | gte
  | lte
  deriving DecidableEq

/-- `CHECK(period IN ('day','week','month','quarter'))`. -/
inductive Period
  | day
  | week
  | month
  | quarter
  deriving DecidableEq

/-- The formats `saveSemanticMetric` takes. -/
inductive Format
  | number
  | percent
  | duration
  | currency
  deriving DecidableEq

section Periods
variable (loc : Location)

/-- `AddDate(0, months, days)`: a day past the end of the month runs over. -/
def addMonthsDays (t : Int) (months days : Int) : Int :=
  let wall := loc.wall t
  loc.date ((monthStart (monthOf (wall / day) + months) + (dayOfMonth (wall / day) - 1 + days)) * day + wall % day)

/-- `goalPeriodEnd`. -/
def goalPeriodEnd (start : Int) : Period → Int
  | .day => addMonthsDays loc start 0 1
  | .week => addMonthsDays loc start 0 7
  | .quarter => addMonthsDays loc start 3 0
  | .month => addMonthsDays loc start 1 0

/-- `(int(now.Weekday()) + 6) % 7`: the days since Monday; day 0 was a Thursday. -/
def sinceMonday (z : Int) : Int := (z + 3) % 7

/-- `goalPeriodStart`; weeks begin on Monday. -/
def goalPeriodStart (now : Int) : Period → Int
  | .day => loc.date (loc.localDate now * day)
  | .week => loc.date ((loc.localDate now - sinceMonday (loc.localDate now)) * day)
  | .quarter =>
    let z := loc.localDate now
    loc.date (monthStart (12 * yearOf z + (monthOfYear z - 1) / 3 * 3) * day)
  | .month => loc.date (monthStart (monthOf (loc.localDate now)) * day)

end Periods

/-! ## §2. The forecast. -/

open Binary64

/-- `Duration.Hours`. -/
def hoursOf (d : Int) : Binary64 := ofRat (hours d)

/-- The map `goalForecast` returns. -/
structure GoalForecast where
  periodStart : Option Int := none
  periodEnd : Option Int := none
  elapsedPercent : Option Binary64 := none
  remainingSeconds : Option Binary64 := none
  available : Bool
  basis : Option String := none
  reason : Option String := none
  projectedValue : Option Binary64 := none
  projectedAchieved : Option Bool := none
  remainingToTarget : Option Binary64 := none
  requiredDailyPace : Option Binary64 := none
  currentDailyPace : Option Binary64 := none
  status : Option String := none

/-- `(comparator == "gte" && value >= target) || (comparator == "lte" && value <= target)`. -/
def meets : Comparator → Binary64 → Binary64 → Bool
  | .gte, value, target => le target value
  | .lte, value, target => le value target

/-- What is left of a goal that grows: the remainder and the paces. -/
def withPace (now end_ : Int) (elapsed value target : Binary64) (out : GoalForecast) : GoalForecast :=
  let remaining := Binary64.sub target value
  let remaining := if lt remaining (.fin zero) then .fin zero else remaining
  let days := div (hoursOf (Calendar.sub end_ now)) (ofRat 24)
  { out with
    remainingToTarget := some remaining
    requiredDailyPace :=
      if lt (.fin zero) days && lt (.fin zero) remaining then some (div remaining days) else none
    currentDailyPace :=
      some (if lt (.fin zero) elapsed then div value (div elapsed (ofRat 86400)) else .fin zero) }

/-- **`goalForecast`**: the pace so far, until the end. -/
def goalForecast (loc : Location) (now start : Int) (period : Period) (format : Format) (value target : Binary64)
    (comparator : Comparator) : GoalForecast :=
  let end_ := goalPeriodEnd loc start period
  let total := seconds (Calendar.sub end_ start)
  let elapsed := seconds (Calendar.sub now start)
  if le total (.fin zero) || le elapsed (.fin zero) then
    { available := false, reason := some "기간이 아직 시작되지 않았습니다." }
  else
    let elapsed := if lt total elapsed then total else elapsed
    let fraction := div elapsed total
    let out : GoalForecast :=
      { periodStart := some start
        periodEnd := some end_
        elapsedPercent := some (mul fraction (.fin hundred))
        remainingSeconds := some (seconds (Calendar.sub end_ now))
        available := true
        basis := some "현재 기간의 진행률과 누적 값을 그대로 연장한 선형 추정입니다." }
    if lt fraction (ofRat (1 / 10)) then
      { out with
        available := false
        reason := some "기간 진행률이 10% 미만이어서 추정이 불안정합니다." }
    else
      -- a rate does not accumulate: its value so far is the estimate
      let projected := if format = .percent then value else div value fraction
      let onTrack := meets comparator projected target
      let out := { out with
        basis := if format = .percent then
            some "비율 지표는 누적되지 않으므로 현재 관측값을 그대로 착지 추정으로 사용합니다."
          else out.basis
        projectedValue := some projected
        projectedAchieved := some onTrack
        status := some (if onTrack then "on_track" else "behind") }
      if comparator = .gte ∧ format ≠ .percent then withPace now end_ elapsed value target out else out

/-! ## §3. The row. -/

/-- What the evaluation reads of `metric_goals` and of the metric. -/
structure MetricGoal where
  target : FiniteDouble
  comparator : Comparator
  period : Period
  format : Format

/-- What is reported of a goal. -/
structure GoalRow where
  value : Binary64
  progressPercent : Binary64
  achieved : Bool
  from_ : Int
  to_ : Int
  forecast : GoalForecast

/-- `progress`. -/
def progressPercent (comparator : Comparator) (format : Format) (value target : Binary64) : Binary64 :=
  if target = .fin zero then .fin zero
  else if comparator = .gte ∧ format ≠ .percent then percent value target
  else if value = .fin zero then .fin zero
  else percent target value

/-- One row of `metricGoalEvaluations`, for the value the metric has from the start of
the period until `now`. -/
def goalRow (loc : Location) (now : Int) (goal : MetricGoal) (value : Binary64) : GoalRow where
  value := value
  progressPercent := progressPercent goal.comparator goal.format value (.fin goal.target)
  achieved := meets goal.comparator value (.fin goal.target)
  from_ := goalPeriodStart loc now goal.period
  to_ := now + 1
  forecast := goalForecast loc now (goalPeriodStart loc now goal.period) goal.period goal.format value
    (.fin goal.target) goal.comparator

/-! ## §4. A goal that is achieved. -/

/-- The part of the period that has passed is a number, one at most. -/
theorem fraction_spec {elapsed total : FiniteDouble} (helapsed : 0 < elapsed.value)
    (hle : elapsed.value ≤ total.value) :
    ∃ f : FiniteDouble, div (.fin elapsed) (.fin total) = .fin f ∧ 0 ≤ f.value ∧ f.value ≤ 1 := by
  have htotal : 0 < total.value := helapsed.trans_le hle
  have hratio : elapsed.value / total.value ≤ ((1 : ℕ) : ℚ) := by
    rw [Nat.cast_one, div_le_one htotal]
    exact hle
  have hnonneg : 0 ≤ elapsed.value / total.value := (div_pos helapsed htotal).le
  have hround := nearestPos_le hnonneg hratio (by norm_num)
  rw [Nat.cast_one] at hround
  obtain ⟨f, hf, hvalue⟩ := ofRat_of_le_hundred hnonneg (hround.trans (by norm_num))
  refine ⟨f, ?_, ?_, ?_⟩
  · rw [← hf]
    simp only [div]
    rw [if_pos htotal.ne']
  · rw [hvalue]
    exact nearestPos_nonneg hnonneg
  · rw [hvalue]
    exact hround

/-- What a value becomes by the end of the period is no less than it is now. -/
theorem le_projected {value target f : FiniteDouble} (htarget : 0 < target.value)
    (hle : target.value ≤ value.value) (hpos : 0 < f.value) (hone : f.value ≤ 1) :
    le (.fin target) (div (.fin value) (.fin f)) = true := by
  have hvalue : 0 < value.value := htarget.trans_le hle
  have hprojected : target.value ≤ value.value / f.value := by
    rw [le_div_iff₀ hpos]
    calc target.value * f.value ≤ target.value * 1 := mul_le_mul_of_nonneg_left hone htarget.le
      _ = target.value := mul_one _
      _ ≤ value.value := hle
  simp only [div]
  rw [if_pos hpos.ne']
  exact le_ofRat htarget.le hprojected

theorem tenth_pos : ∃ x : FiniteDouble, ofRat (1 / 10) = .fin x ∧ 0 < x.value := by
  have hround := nearestPos_le (q := 1 / 10) (m := 1) (by norm_num) (by norm_num) (by norm_num)
  rw [Nat.cast_one] at hround
  obtain ⟨x, hx, hvalue⟩ := ofRat_of_le_hundred (q := 1 / 10) (by norm_num) (hround.trans (by norm_num))
  have hexp : exponent (1 / 10) ≤ -4 := by
    have hlog : Int.log 2 (1 / 10 : ℚ) < 0 := log_lt_of_lt (by norm_num) (by norm_num)
    unfold exponent
    omega
  have hlow : (1 : ℚ) / 16 ≤ nearestPos (1 / 10) :=
    multiple_le_nearestPos (by norm_num) (k := 1) (e := -4) (by norm_num) hexp
  refine ⟨x, hx, ?_⟩
  rw [hvalue]
  linarith

/-- **A GOAL THAT IS ACHIEVED IS NEVER LABELLED BEHIND**, at whatever instant of
whatever period. -/
theorem goalForecast_not_behind (loc : Location) (now start : Int) (period : Period) (format : Format)
    {value target : FiniteDouble} (htarget : 0 < target.value) (hachieved : target.value ≤ value.value) :
    (goalForecast loc now start period format (.fin value) (.fin target) .gte).status ≠ some "behind" := by
  obtain ⟨total, htotal⟩ := seconds_fin (goalPeriodEnd loc start period) start
  obtain ⟨elapsed, helapsed⟩ := seconds_fin now start
  unfold goalForecast
  simp only [htotal, helapsed]
  by_cases hunstarted : (le (.fin total) (.fin zero) || le (.fin elapsed) (.fin zero)) = true
  · rw [if_pos hunstarted]
    intro h
    cases h
  rw [if_neg hunstarted]
  -- the time that has passed is positive, and the whole period at most
  have hzero : zero.value = 0 := by simp [zero, ofNat]
  rw [Bool.or_eq_true, le_fin, le_fin, hzero, not_or, not_le, not_le] at hunstarted
  obtain ⟨hpositive, hpassed⟩ := hunstarted
  obtain ⟨spent, hspent, hspent0, hspentle⟩ : ∃ spent : FiniteDouble,
      (if lt (.fin total) (.fin elapsed) = true then Binary64.fin total else .fin elapsed) = .fin spent
        ∧ 0 < spent.value ∧ spent.value ≤ total.value := by
    by_cases hover : total.value < elapsed.value
    · exact ⟨total, by simp [lt, le, hover], hpositive, le_rfl⟩
    · exact ⟨elapsed, by simp [lt, le, not_lt.mp hover], hpassed, not_lt.mp hover⟩
  obtain ⟨f, hf, hf0, hf1⟩ := fraction_spec hspent0 hspentle
  simp only [hspent, hf]
  by_cases hearly : lt (.fin f) (ofRat (1 / 10)) = true
  · rw [if_pos hearly]
    intro h
    cases h
  rw [if_neg hearly]
  have hfpos : 0 < f.value := by
    rcases hf0.eq_or_lt with hf0 | hfpos
    · exfalso
      apply hearly
      obtain ⟨x, hx, hxpos⟩ := tenth_pos
      rw [hx]
      simp [lt, le, ← hf0, hxpos]
    · exact hfpos
  have htrack : meets .gte (if format = .percent then .fin value else div (.fin value) (.fin f)) (.fin target) = true := by
    show le (.fin target) _ = true
    split
    · exact (le_fin _ _).mpr hachieved
    · exact le_projected htarget hachieved hfpos hf1
  simp only [htrack]
  split
  · simp [withPace]
  · simp

/-! ## §5. Progress and achievement. -/

/-- **PROGRESS AGREES WITH ACHIEVEMENT**, and the forecast with both, for every goal but
a rate of which more is better; and for that one only where it is just met. -/
theorem goalProgress_iff (loc : Location) (now start : Int) (goal : MetricGoal) {value : FiniteDouble}
    (hvalue : 0 < value.value) (htarget : 0 < goal.target.value) :
    ((le (.fin hundred) (goalRow loc now goal (.fin value)).progressPercent = true
          ↔ (goalRow loc now goal (.fin value)).achieved = true)
        ∧ (goal.comparator = .gte → (goalRow loc now goal (.fin value)).achieved = true →
            (goalForecast loc now start goal.period goal.format (.fin value) (.fin goal.target) .gte).status
              ≠ some "behind"))
      ↔ (goal.comparator = .gte → goal.format = .percent → value.value = goal.target.value) := by
  have hnezero : ∀ x : FiniteDouble, 0 < x.value → Binary64.fin x ≠ .fin zero := by
    intro x hx heq
    have hvalue : x.value = zero.value := congrArg FiniteDouble.value (Binary64.fin.inj heq)
    simp [zero, ofNat] at hvalue
    linarith
  have hforecast : goal.comparator = .gte → (goalRow loc now goal (.fin value)).achieved = true →
      (goalForecast loc now start goal.period goal.format (.fin value) (.fin goal.target) .gte).status
        ≠ some "behind" := by
    intro hgte hachieved
    refine goalForecast_not_behind loc now start goal.period goal.format htarget ?_
    unfold goalRow at hachieved
    simp only [hgte, meets, le_fin] at hachieved
    exact hachieved
  rw [and_iff_left hforecast]
  unfold goalRow progressPercent
  simp only [hnezero goal.target htarget, hnezero value hvalue, if_false]
  cases hcomparator : goal.comparator with
  | lte =>
    -- the target divided by the value
    simp only [reduceCtorEq, false_and, if_false, false_implies, iff_true, meets]
    rw [hundred_le_percent_iff htarget hvalue, le_fin]
  | gte =>
    by_cases hformat : goal.format = .percent
    · -- the target divided by the value, though more is better
      simp only [hformat, ne_eq, not_true_eq_false, and_false, if_false, meets, forall_const]
      rw [hundred_le_percent_iff htarget hvalue, le_fin]
      constructor
      · intro h
        rcases le_total value.value goal.target.value with hle | hle
        · exact le_antisymm hle (h.mp hle)
        · exact le_antisymm (h.mpr hle) hle
      · intro h
        rw [h]
    · simp only [hformat, ne_eq, not_false_eq_true, and_self, if_true, meets, false_implies, forall_const, iff_true]
      rw [hundred_le_percent_iff hvalue htarget, le_fin]

namespace Sample

def ten : FiniteDouble := ofNat 10 (by norm_num)

def twelve : FiniteDouble := ofNat 12 (by norm_num)

/-- At least ten this month. -/
def monthly (format : Format) : MetricGoal := ⟨ten, .gte, .month, format⟩

/-- Of a number that passes its target, progress and forecast say so. -/
theorem goalProgress_iff_number :
    (le (.fin hundred) (goalRow Location.utc day (monthly .number) (.fin twelve)).progressPercent = true
          ↔ (goalRow Location.utc day (monthly .number) (.fin twelve)).achieved = true)
        ∧ ((monthly .number).comparator = .gte →
            (goalRow Location.utc day (monthly .number) (.fin twelve)).achieved = true →
            (goalForecast Location.utc day 0 .month .number (.fin twelve) (.fin ten) .gte).status ≠ some "behind") :=
  (goalProgress_iff Location.utc day 0 (monthly .number) (by simp [twelve, ofNat]) (by simp [monthly, ten, ofNat])).mpr
    fun _ h => by cases h

/-- Twelve percent of at least ten: achieved, at 83 percent. -/
theorem rate_progress_disagrees :
    ¬(le (.fin hundred) (goalRow Location.utc day (monthly .percent) (.fin twelve)).progressPercent = true
      ↔ (goalRow Location.utc day (monthly .percent) (.fin twelve)).achieved = true) := by
  have hachieved : (goalRow Location.utc day (monthly .percent) (.fin twelve)).achieved = true := by
    norm_num [goalRow, monthly, meets, ten, twelve, ofNat]
  have hprogress : (goalRow Location.utc day (monthly .percent) (.fin twelve)).progressPercent
      = percent (.fin ten) (.fin twelve) := by
    simp [goalRow, progressPercent, monthly, ten, twelve, zero, ofNat]
  rw [hachieved, hprogress, hundred_le_percent_iff (by simp [ten, ofNat]) (by simp [twelve, ofNat])]
  norm_num [ten, twelve, ofNat]

end Sample

end Momento.Goals
