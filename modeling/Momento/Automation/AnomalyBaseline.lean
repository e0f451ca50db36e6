/-
  Momento.Automation.AnomalyBaseline

  **ONE DAY DOES NOT DRAG THE BASELINE.**  A day is compared with the median of the
  same weekday in recent weeks, or of the recent days where there are too few of those,
  and its distance from it is measured by the median of theirs.  All is computed here
  in rational numbers.

  Which points are compared depends on their dates alone, so a value that is replaced
  stays one of the samples; and of three samples or more, a single one is never the
  median by being far off.  The search for the day goes by dates too, so the baseline
  that is reported stays among the others.  Medians forget the order of the samples,
  and with one point for each date there is only one that the search can find.
-/
import Momento.Automation.Payload
import Momento.Foundation.OrderStatistics
import Mathlib.Data.List.MinMax

namespace Momento.Baselines

open Foundation Calendar

/-! ## §1. The series. -/

/-- `time.Time`: an instant, and the zone it is shown in. -/
structure Time where
  instant : Int
  location : Location

/-- `Weekday()`: Sunday is 0; day 0 was a Thursday. -/
def Time.weekday (t : Time) : Int := (t.location.localDate t.instant + 4) % 7

/-- `UTC().Truncate(24 * time.Hour)`. -/
def Time.utcDay (t : Time) : Time := ⟨t.instant / day * day, .utc⟩

/-- The value of a day. -/
structure AnomalyPoint where
  date : Time
  value : ℚ

/-- What is watched, and which way is bad. -/
structure AnomalyMetric where
  key : String
  label : String
  badWhenHigher : Bool
  action : String

/-- The verdict, with its evidence. -/
structure Anomaly where
  metric : String
  label : String
  date : Time
  value : ℚ := 0
  baseline : ℚ := 0
  deviation : ℚ := 0
  changePercent : ℚ := 0
  robustZ : ℚ := 0
  severity : String
  direction : String
  samples : Nat := 0
  baselineKind : String := ""
  weekday : String
  evidence : String := ""
  action : String := ""

/-- `Detected`. -/
def Anomaly.isDetected (a : Anomaly) : Bool :=
  a.severity = "critical" || a.severity = "warning" || a.severity = "positive"

/-- Fewer samples than these are no baseline. -/
def minimumBaselineSamples : Nat := 3

/-- How far back the same weekday counts. -/
def weekdayLookbackWeeks : Int := 8

/-- How far back any day counts. -/
def fallbackLookbackDays : Int := 28

/-- `weekdayNames`, from Sunday on. -/
def weekdayNames : List String := ["일", "월", "화", "수", "목", "금", "토"]

/-- The weekday, in Korean. -/
def Time.weekdayName (t : Time) : String := weekdayNames.getD t.weekday.toNat ""

/-! ## §2. The baseline. -/

/-- Which days are compared with. -/
inductive BaselineKind
  | sameWeekday
  | recentDays
  deriving DecidableEq

def BaselineKind.text : BaselineKind → String
  | .sameWeekday => "same_weekday"
  | .recentDays => "recent_days"

/-- A point before the day that is of its weekday, and not too old. -/
def AnomalyPoint.isSameWeekday (point : AnomalyPoint) (target : Time) : Bool :=
  point.date.instant < target.instant && point.date.weekday = target.weekday
    && sub target.instant point.date.instant ≤ weekdayLookbackWeeks * 7 * (24 * hour)

/-- A point before the day, of whatever weekday, and not too old. -/
def AnomalyPoint.isRecent (point : AnomalyPoint) (target : Time) : Bool :=
  point.date.instant < target.instant && sub target.instant point.date.instant ≤ fallbackLookbackDays * (24 * hour)

/-- The same weekday first, and recent days only when that is too thin. -/
def baselineFor (series : List AnomalyPoint) (target : Time) : List ℚ × BaselineKind :=
  let sameWeekday := (series.filter (·.isSameWeekday target)).map AnomalyPoint.value
  let recent := (series.filter (·.isRecent target)).map AnomalyPoint.value
  if minimumBaselineSamples ≤ sameWeekday.length then (sameWeekday, .sameWeekday) else (recent, .recentDays)

/-- The middle value, or the mean of the two. -/
def median (values : List ℚ) : ℚ :=
  if values.length = 0 then 0
  else
    let sorted := sorted values
    let middle := sorted.length / 2
    if sorted.length % 2 = 1 then sorted.getD middle 0
    else (sorted.getD (middle - 1) 0 + sorted.getD middle 0) / 2

/-- The median distance from the centre, scaled to a standard deviation. -/
def medianAbsoluteDeviation (values : List ℚ) (center : ℚ) : ℚ :=
  if values.length = 0 then 0 else median (values.map fun value => |value - center|) * (14826 / 10000)

/-! ## §3. The verdict. -/

/-- Of nothing before, anything now is a hundred. -/
def percentChange (current previous : ℚ) : ℚ :=
  if previous = 0 then if current = 0 then 0 else 100 else (current - previous) * 100 / previous

/-- `%.nf`, for one digit or none. -/
def formatFixed (digits : ℕ) (q : ℚ) : String :=
  let scaled := (roundHalfEven (|q| * 10 ^ digits)).toNat
  let fraction := (Nat.toDigits 10 (scaled % 10 ^ digits)).leftpad digits '0'
  String.ofList ((if q < 0 then ['-'] else []) ++ Nat.toDigits 10 (scaled / 10 ^ digits)
    ++ if digits = 0 then [] else '.' :: fraction)

/-- A rise has its sign. -/
def formatSignedPercent (value : ℚ) : String :=
  if 0 < value then "+" ++ formatFixed 1 value ++ "%" else formatFixed 1 value ++ "%"

/-- The evidence of a verdict. -/
def evidenceText (target : Time) (value : ℚ) (samples : Nat) (kind : BaselineKind) (center robustZ change : ℚ) : String :=
  let basis := match kind with
    | .sameWeekday => "같은 요일 " ++ toString samples ++ "주 기준선"
    | .recentDays => "최근 " ++ toString samples ++ "일 기준선(같은 요일 표본 부족, 요일 혼합)"
  String.ofList (Automation.GoValue.formatDate target.instant) ++ "(" ++ target.weekdayName ++ ") " ++ formatFixed 0 value
    ++ " · " ++ basis ++ " " ++ formatFixed 0 center ++ " · 편차 " ++ formatFixed 1 robustZ ++ "σ · "
    ++ formatSignedPercent change

/-- What `DetectAnomaly` says of a value and the samples it is compared with. -/
def judge (metric : AnomalyMetric) (target : Time) (result : Anomaly) (value : ℚ) (samples : List ℚ)
    (kind : BaselineKind) : Anomaly :=
  let result := { result with value := value, baselineKind := kind.text, samples := samples.length }
  if samples.length < minimumBaselineSamples then
    { result with
      severity := "insufficient_history"
      evidence := "비교 가능한 과거 데이터가 " ++ toString samples.length ++ "일뿐이어서 판정하지 않았습니다." }
  else
    let center := median samples
    let spread := medianAbsoluteDeviation samples center
    -- What barely moves gets a floor.
    let floor := max 1 (center * (1 / 10))
    let spread := if spread < floor then floor else spread
    let robustZ := (value - center) / spread
    let change := percentChange value center
    let bad := (metric.badWhenHigher && decide (0 < robustZ)) || (!metric.badWhenHigher && decide (robustZ < 0))
    let severity :=
      if 7 / 2 ≤ |robustZ| ∧ bad = true then "critical"
      else if 5 / 2 ≤ |robustZ| ∧ bad = true then "warning"
      else if 5 / 2 ≤ |robustZ| ∧ bad = false then "positive"
      else "normal"
    let result := { result with
      baseline := center
      deviation := spread
      robustZ := robustZ
      changePercent := change
      direction := if 0 < robustZ then "above" else if robustZ < 0 then "below" else result.direction
      severity := severity
      evidence := evidenceText target value samples.length kind center robustZ change }
    if result.isDetected && severity ≠ "positive" then { result with action := metric.action } else result

/-- **`DetectAnomaly`**: the point of the day against its baseline. -/
def detectAnomaly (metric : AnomalyMetric) (series : List AnomalyPoint) (target : Time) : Anomaly :=
  let target := target.utcDay
  let result : Anomaly :=
    { metric := metric.key, label := metric.label, date := target, severity := "unknown", direction := "flat"
      weekday := target.weekdayName }
  match series.find? fun point => point.date.utcDay.instant = target.instant with
  | none => { result with evidence := "평가할 날짜의 집계가 없습니다." }
  | some point => judge metric target result point.value (baselineFor series target).1 (baselineFor series target).2

/-! ## §4. The property. -/

/-- The series with another value for its `i`-th point. -/
def replaceValue (series : List AnomalyPoint) (i : Nat) (x : ℚ) : List AnomalyPoint :=
  series.modify i fun point => { point with value := x }

/-- The point is a sample of a baseline of this kind. -/
def AnomalyPoint.isComparable (point : AnomalyPoint) (target : Time) : BaselineKind → Bool
  | .sameWeekday => point.isSameWeekday target
  | .recentDays => point.isRecent target

/-- The samples of the baseline, but for the `i`-th point of the series. -/
def unreplaced (series : List AnomalyPoint) (target : Time) (i : Nat) : List ℚ :=
  ((series.eraseIdx i).filter (·.isComparable target (baselineFor series target).2)).map AnomalyPoint.value

/-- Every date has one point at most. -/
def OnePerDate (series : List AnomalyPoint) : Prop := (series.map fun point => point.date.utcDay.instant).Nodup

/-! ## §5. The samples. -/

/-- **The samples** are the values of the points of one kind. -/
theorem baselineFor_eq (series : List AnomalyPoint) (target : Time) : (baselineFor series target).1
    = (series.filter (·.isComparable target (baselineFor series target).2)).map AnomalyPoint.value := by
  unfold baselineFor
  dsimp only
  split <;> rfl

/-- The kind depends on how many points there are of the weekday. -/
theorem kind_eq (series : List AnomalyPoint) (target : Time) : (baselineFor series target).2
    = if minimumBaselineSamples ≤ (series.filter (·.isSameWeekday target)).length then .sameWeekday else .recentDays := by
  unfold baselineFor
  simp only [List.length_map]
  split <;> rfl

section Replaced

variable (point : AnomalyPoint) (x : ℚ) (target : Time)

@[simp] theorem isComparable_value (kind : BaselineKind) :
    ({ point with value := x } : AnomalyPoint).isComparable target kind = point.isComparable target kind := by
  cases kind <;> rfl

/-- A value that is replaced leaves the kind as it is. -/
theorem kind_replaceValue (series : List AnomalyPoint) (i : Nat) :
    (baselineFor (replaceValue series i x) target).2 = (baselineFor series target).2 := by
  have hlength : ∀ (points : List AnomalyPoint) (i : Nat), ((replaceValue points i x).filter (·.isSameWeekday target)).length
      = (points.filter (·.isSameWeekday target)).length := by
    intro points
    induction points with
    | nil => intro i; cases i <;> rfl
    | cons p points ih =>
      intro i
      cases i with
      | zero =>
        show (List.filter _ ({ p with value := x } :: points)).length = _
        rw [List.filter_cons, List.filter_cons]
        have hp : ({ p with value := x } : AnomalyPoint).isSameWeekday target = p.isSameWeekday target := rfl
        rw [hp]
        split <;> rfl
      | succ i =>
        show (List.filter _ (p :: replaceValue points i x)).length = _
        rw [List.filter_cons, List.filter_cons]
        split
        · rw [List.length_cons, List.length_cons, ih i]
        · exact ih i
  rw [kind_eq, kind_eq, hlength]

/-- The values of the points of one kind. -/
def valuesOf (kind : BaselineKind) (series : List AnomalyPoint) : List ℚ :=
  (series.filter (·.isComparable target kind)).map AnomalyPoint.value

theorem valuesOf_cons (kind : BaselineKind) (series : List AnomalyPoint) : valuesOf target kind (point :: series)
    = if point.isComparable target kind then point.value :: valuesOf target kind series else valuesOf target kind series := by
  unfold valuesOf
  rw [List.filter_cons]
  split <;> rfl

/-- Replacing a value replaces it among the values of one kind, or leaves them alone. -/
theorem valuesOf_replaceValue (kind : BaselineKind) (series : List AnomalyPoint) :
    ∀ i, valuesOf target kind (replaceValue series i x) = valuesOf target kind (series.eraseIdx i)
        ∧ (valuesOf target kind series).length = (valuesOf target kind (series.eraseIdx i)).length
      ∨ (valuesOf target kind (replaceValue series i x)).Perm (x :: valuesOf target kind (series.eraseIdx i))
        ∧ (valuesOf target kind series).length = (valuesOf target kind (series.eraseIdx i)).length + 1 := by
  induction series with
  | nil =>
    intro i
    left
    cases i <;> exact ⟨rfl, rfl⟩
  | cons p series ih =>
    intro i
    cases i with
    | zero =>
      show valuesOf target kind ({ p with value := x } :: series) = valuesOf target kind series ∧ _ ∨
        (valuesOf target kind ({ p with value := x } :: series)).Perm (x :: valuesOf target kind series) ∧ _
      rw [valuesOf_cons, isComparable_value, valuesOf_cons]
      by_cases hp : p.isComparable target kind = true
      · right
        rw [if_pos hp, if_pos hp]
        exact ⟨List.Perm.refl _, rfl⟩
      · left
        rw [if_neg hp, if_neg hp]
        exact ⟨rfl, rfl⟩
    | succ i =>
      show valuesOf target kind (p :: replaceValue series i x) = valuesOf target kind (p :: series.eraseIdx i) ∧ _ ∨
        (valuesOf target kind (p :: replaceValue series i x)).Perm
          (x :: valuesOf target kind (p :: series.eraseIdx i)) ∧ _
      rw [List.eraseIdx_cons_succ, valuesOf_cons, valuesOf_cons, valuesOf_cons]
      by_cases hp : p.isComparable target kind = true
      · rw [if_pos hp, if_pos hp, if_pos hp, List.length_cons, List.length_cons]
        obtain ⟨hsame, hlength⟩ | ⟨hperm, hlength⟩ := ih i
        · left
          exact ⟨by rw [hsame], by rw [hlength]⟩
        · right
          exact ⟨(hperm.cons p.value).trans (List.Perm.swap x p.value _), by rw [hlength]⟩
      · rw [if_neg hp, if_neg hp, if_neg hp]
        exact ih i

end Replaced

/-! ## §6. The median. -/

/-- **The median lies within all samples but one.** -/
theorem median_between {values rest : List ℚ} {lo hi x : ℚ} (hperm : values.Perm (x :: rest)) (hlength : 2 ≤ rest.length)
    (h : ∀ v ∈ rest, lo ≤ v ∧ v ≤ hi) : lo ≤ median values ∧ median values ≤ hi := by
  have hvalues : values.length = rest.length + 1 := hperm.length_eq
  unfold median
  rw [if_neg (by omega)]
  simp only [length_sorted]
  by_cases hodd : values.length % 2 = 1
  · rw [if_pos hodd]
    exact inner_between h hperm (by omega) (by omega) 0
  · -- The two in the middle are both inner ones, of four samples or more.
    rw [if_neg hodd]
    obtain ⟨hlow, hlow'⟩ := inner_between h hperm (k := values.length / 2 - 1) (by omega) (by omega) 0
    obtain ⟨hhigh, hhigh'⟩ := inner_between h hperm (k := values.length / 2) (by omega) (by omega) 0
    constructor <;> linarith

theorem median_of_perm {values values' : List ℚ} (h : values.Perm values') : median values = median values' := by
  unfold median
  rw [sorted_eq_of_perm h, h.length_eq]

theorem medianAbsoluteDeviation_of_perm {values values' : List ℚ} (h : values.Perm values') (center : ℚ) :
    medianAbsoluteDeviation values center = medianAbsoluteDeviation values' center := by
  unfold medianAbsoluteDeviation
  rw [median_of_perm (h.map _), h.length_eq]

/-- **The verdict takes the samples in any order.** -/
theorem judge_of_perm (metric : AnomalyMetric) (target : Time) (result : Anomaly) (value : ℚ) {samples samples' : List ℚ}
    (h : samples.Perm samples') (kind : BaselineKind) :
    judge metric target result value samples kind = judge metric target result value samples' kind := by
  unfold judge
  simp only [h.length_eq, median_of_perm h, medianAbsoluteDeviation_of_perm h]

/-- With enough samples the baseline that is reported is their median, and the spread
is one at least. -/
theorem judge_baseline (metric : AnomalyMetric) (target : Time) (result : Anomaly) (value : ℚ) {samples : List ℚ}
    (h : minimumBaselineSamples ≤ samples.length) (kind : BaselineKind) :
    (judge metric target result value samples kind).baseline = median samples
      ∧ 1 ≤ (judge metric target result value samples kind).deviation := by
  have hfloor : ∀ spread : ℚ, 1 ≤ if spread < max 1 (median samples * (1 / 10)) then max 1 (median samples * (1 / 10))
      else spread := by
    intro spread
    split
    · exact le_max_left _ _
    · rename_i hspread
      exact (le_max_left _ _).trans (not_lt.mp hspread)
  constructor
  · simp only [judge, if_neg (not_lt.mpr h), apply_ite Anomaly.baseline, ite_self]
  · simp only [judge, if_neg (not_lt.mpr h), apply_ite Anomaly.deviation, ite_self]
    exact hfloor _

/-! ## §7. The series in any order. -/

theorem baselineFor_of_perm {series series' : List AnomalyPoint} (h : series'.Perm series) (target : Time) :
    (baselineFor series' target).1.Perm (baselineFor series target).1
      ∧ (baselineFor series' target).2 = (baselineFor series target).2 := by
  have hkind : (baselineFor series' target).2 = (baselineFor series target).2 := by
    rw [kind_eq, kind_eq, (h.filter _).length_eq]
  refine ⟨?_, hkind⟩
  rw [baselineFor_eq, hkind, baselineFor_eq series]
  exact (h.filter _).map _

theorem detectAnomaly_of_perm (metric : AnomalyMetric) (target : Time) {series series' : List AnomalyPoint}
    (hone : OnePerDate series) (h : series'.Perm series) :
    detectAnomaly metric series' target = detectAnomaly metric series target := by
  have hfind : series'.find? (fun point => point.date.utcDay.instant = target.utcDay.instant)
      = series.find? fun point => point.date.utcDay.instant = target.utcDay.instant :=
    (find?_eq_of_perm h.symm (length_filter_le_one hone _)).symm
  obtain ⟨hsamples, hkind⟩ := baselineFor_of_perm h target.utcDay
  unfold detectAnomaly
  simp only [hfind, hkind]
  split
  · rfl
  · exact judge_of_perm metric _ _ _ hsamples _

/-! ## §8. Both together. -/

/-- The median of the baseline after a replacement lies within the other samples. -/
theorem baseline_between (series : List AnomalyPoint) (target : Time) (i : Nat) (x : ℚ)
    (hsamples : minimumBaselineSamples ≤ (baselineFor series target).1.length) :
    (unreplaced series target i).minimum ≤ (median (baselineFor (replaceValue series i x) target).1 : WithTop ℚ)
      ∧ (median (baselineFor (replaceValue series i x) target).1 : WithBot ℚ) ≤ (unreplaced series target i).maximum := by
  have hbaseline : (baselineFor (replaceValue series i x) target).1
      = valuesOf target (baselineFor series target).2 (replaceValue series i x) := by
    rw [baselineFor_eq, kind_replaceValue]
    rfl
  have hlength : 3 ≤ (valuesOf target (baselineFor series target).2 series).length := by
    rw [baselineFor_eq] at hsamples
    exact hsamples
  have hothers : unreplaced series target i = valuesOf target (baselineFor series target).2 (series.eraseIdx i) := rfl
  rw [hbaseline, hothers]
  -- Whether the new value is a sample or not, the others are all samples but one at most.
  obtain ⟨y, rest, hperm, hrest, htwo⟩ : ∃ y rest,
      (valuesOf target (baselineFor series target).2 (replaceValue series i x)).Perm (y :: rest)
        ∧ (∀ v ∈ rest, v ∈ valuesOf target (baselineFor series target).2 (series.eraseIdx i)) ∧ 2 ≤ rest.length := by
    obtain ⟨hsame, hcount⟩ | ⟨hperm, hcount⟩ := valuesOf_replaceValue x target (baselineFor series target).2 series i
    · cases hvalues : valuesOf target (baselineFor series target).2 (series.eraseIdx i) with
      | nil =>
        rw [hcount, hvalues] at hlength
        exact absurd hlength (by decide)
      | cons y rest =>
        rw [hcount, hvalues, List.length_cons] at hlength
        refine ⟨y, rest, ?_, fun v hv => List.mem_cons_of_mem _ hv, by omega⟩
        rw [hsame, hvalues]
    · exact ⟨x, _, hperm, fun _ hv => hv, by omega⟩
  generalize valuesOf target (baselineFor series target).2 (series.eraseIdx i) = others at hrest ⊢
  obtain ⟨v, hv⟩ := List.exists_mem_of_length_pos (show 0 < rest.length by omega)
  have hne : others ≠ [] := List.ne_nil_of_mem (hrest v hv)
  obtain ⟨lo, hlo⟩ := WithTop.ne_top_iff_exists.mp (mt List.minimum_eq_top.mp hne)
  obtain ⟨hi, hhi⟩ := WithBot.ne_bot_iff_exists.mp (mt List.maximum_eq_bot.mp hne)
  have hlow := (List.minimum_eq_coe_iff.mp hlo.symm).2
  have hhigh := (List.maximum_eq_coe_iff.mp hhi.symm).2
  have hbetween := median_between hperm htwo fun v hv => ⟨hlow v (hrest v hv), hhigh v (hrest v hv)⟩
  rw [← hlo, ← hhi]
  exact ⟨WithTop.coe_le_coe.mpr hbetween.1, WithBot.coe_le_coe.mpr hbetween.2⟩

/-- The search for the day goes by dates, so it finds a point of the replaced series
where it finds one of the series. -/
theorem find?_replaceValue (target : Time) (x : ℚ) (series : List AnomalyPoint) : ∀ i,
    ((replaceValue series i x).find? fun point => point.date.utcDay.instant = target.instant).isSome
      = (series.find? fun point => point.date.utcDay.instant = target.instant).isSome := by
  induction series with
  | nil => intro i; cases i <;> rfl
  | cons p series ih =>
    intro i
    cases i with
    | zero =>
      show (List.find? _ ({ p with value := x } :: series)).isSome = _
      rw [List.find?_cons, List.find?_cons]
      cases decide (p.date.utcDay.instant = target.instant) <;> rfl
    | succ i =>
      show (List.find? _ (p :: replaceValue series i x)).isSome = _
      rw [List.find?_cons, List.find?_cons]
      cases decide (p.date.utcDay.instant = target.instant) with
      | true => rfl
      | false => exact ih i

/-- A replacement leaves as many samples as there were. -/
theorem length_baselineFor_replaceValue (series : List AnomalyPoint) (target : Time) (i : Nat) (x : ℚ) :
    (baselineFor (replaceValue series i x) target).1.length = (baselineFor series target).1.length := by
  rw [baselineFor_eq, kind_replaceValue, baselineFor_eq series]
  show (valuesOf target (baselineFor series target).2 (replaceValue series i x)).length
    = (valuesOf target (baselineFor series target).2 series).length
  obtain ⟨hsame, hlength⟩ | ⟨hperm, hlength⟩ := valuesOf_replaceValue x target (baselineFor series target).2 series i
  · rw [hsame, hlength]
  · rw [hperm.length_eq, hlength, List.length_cons]

/-- Where the day has a point and there are enough samples, the baseline that is
reported is the median of the samples, replaced or not. -/
theorem detectAnomaly_baseline (metric : AnomalyMetric) {target : Time} {series : List AnomalyPoint}
    (hsamples : minimumBaselineSamples ≤ (baselineFor series target.utcDay).1.length)
    (hday : ∃ point ∈ series, point.date.utcDay.instant = target.utcDay.instant) (i : Nat) (x : ℚ) :
    (detectAnomaly metric (replaceValue series i x) target).baseline
      = median (baselineFor (replaceValue series i x) target.utcDay).1 := by
  have hfound : ((replaceValue series i x).find? fun point =>
      point.date.utcDay.instant = target.utcDay.instant).isSome = true := by
    rw [find?_replaceValue, List.find?_isSome]
    obtain ⟨point, hmem, hdate⟩ := hday
    exact ⟨point, hmem, decide_eq_true hdate⟩
  obtain ⟨point, hpoint⟩ := Option.isSome_iff_exists.mp hfound
  have henough : minimumBaselineSamples ≤ (baselineFor (replaceValue series i x) target.utcDay).1.length := by
    rw [length_baselineFor_replaceValue]
    exact hsamples
  unfold detectAnomaly
  simp only [hpoint]
  exact (judge_baseline metric _ _ point.value henough _).1

/-- **The baseline is robust**: one value does not drag the median of the samples past
the others, nor the baseline that is reported, and the verdict does not depend on the
order of the points. -/
theorem baseline_robust (metric : AnomalyMetric) (target : Time) (series : List AnomalyPoint) :
    (minimumBaselineSamples ≤ (baselineFor series target).1.length → ∀ (i : Nat) (x : ℚ),
      (unreplaced series target i).minimum ≤ (median (baselineFor (replaceValue series i x) target).1 : WithTop ℚ)
        ∧ (median (baselineFor (replaceValue series i x) target).1 : WithBot ℚ) ≤ (unreplaced series target i).maximum)
    ∧ (minimumBaselineSamples ≤ (baselineFor series target.utcDay).1.length →
        (∃ point ∈ series, point.date.utcDay.instant = target.utcDay.instant) → ∀ (i : Nat) (x : ℚ),
      (unreplaced series target.utcDay i).minimum
          ≤ ((detectAnomaly metric (replaceValue series i x) target).baseline : WithTop ℚ)
        ∧ ((detectAnomaly metric (replaceValue series i x) target).baseline : WithBot ℚ)
          ≤ (unreplaced series target.utcDay i).maximum)
    ∧ (OnePerDate series → ∀ series', series'.Perm series →
      detectAnomaly metric series' target = detectAnomaly metric series target) := by
  refine ⟨fun hsamples i x => baseline_between series target i x hsamples, ?_,
    fun hone _ h => detectAnomaly_of_perm metric target hone h⟩
  intro hsamples hday i x
  rw [detectAnomaly_baseline metric hsamples hday]
  exact baseline_between series target.utcDay i x hsamples

namespace Sample

/-- Midnight of the day that is so many days before 2026-01-01. -/
def daysBefore (n : Int) : Time := ⟨(20454 - n) * day, .utc⟩

def visitors : AnomalyMetric := ⟨"users", "방문자", false, "채널·진입 페이지 변화와 배포·공지 일정을 대조하십시오."⟩

/-- Four days, one of which was an outage, and the day that is judged. -/
def series : List AnomalyPoint :=
  [⟨daysBefore 4, 900⟩, ⟨daysBefore 3, 880⟩, ⟨daysBefore 2, 3⟩, ⟨daysBefore 1, 910⟩, ⟨daysBefore 0, 890⟩]

/-- Whatever the outage left behind, the baseline that is reported stays among the
other days, and the verdict is that of the series in any order. -/
theorem baseline_robust_outage :
    (unreplaced series (daysBefore 0) 2).minimum
        ≤ (median (baselineFor (replaceValue series 2 1000000) (daysBefore 0)).1 : WithTop ℚ)
      ∧ ((detectAnomaly visitors (replaceValue series 2 1000000) (daysBefore 0)).baseline : WithBot ℚ)
        ≤ (unreplaced series (daysBefore 0).utcDay 2).maximum
      ∧ detectAnomaly visitors series.reverse (daysBefore 0) = detectAnomaly visitors series (daysBefore 0) :=
  ⟨((baseline_robust visitors (daysBefore 0) series).1 (by decide) 2 1000000).1,
    ((baseline_robust visitors (daysBefore 0) series).2.1 (by decide) ⟨⟨daysBefore 0, 890⟩, by simp [series], rfl⟩
      2 1000000).2,
    (baseline_robust visitors (daysBefore 0) series).2.2 (by unfold OnePerDate; decide) _ (List.reverse_perm _)⟩

end Sample

end Momento.Baselines
