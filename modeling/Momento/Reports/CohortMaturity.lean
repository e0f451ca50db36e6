/-
  Momento.Reports.CohortMaturity

  **HOW MANY PERIODS A COHORT HAS LIVED THROUGH.**  `cohortMaturity` counts the whole
  days, weeks or months from a cohort's date to the day before the window's end.  The
  window's end is a local midnight; the day before it is taken at UTC, where that
  midnight may fall on the local date it ends, or on the next.
-/
import Momento.Model.Figures
import Momento.Reports.Periods

namespace Momento.Cohorts

open Foundation Foundation.Calendar Momento.Periods

/-! ## §1. The code. -/

/-- `cohortBuckets`; anything but `day` and `month` is `week`. -/
inductive Granularity
  | day
  | week
  | month
  deriving DecidableEq

/-- `cohortMaturity`. -/
def cohortMaturity (cohortDate windowEnd : Int) (granularity : Granularity) : Int :=
  let last := Location.utc.addDate windowEnd (-1)
  match granularity with
  | .day => truncate (Binary64.nearest (hours (sub last cohortDate) / 24))
  | .month =>
    let lastDate := Location.utc.localDate last
    let date := Location.utc.localDate cohortDate
    let months := (yearOf lastDate - yearOf date) * 12 + monthOfYear lastDate - monthOfYear date
    let months := if dayOfMonth lastDate < dayOfMonth date then months - 1 else months
    if months < 0 then 0 else months
  | .week => truncate (Binary64.nearest (Binary64.nearest (hours (sub last cohortDate) / 24) / 7))

/-- A row of the cohort grid: a cohort's date and size, and how many of it returned in
each period. -/
structure CohortRow where
  cohort : Int
  size : Int
  users : List Int

/-- A point of the curve. -/
structure CurvePoint where
  period : Nat
  users : Int
  retentionRate : Binary64
  cohortUsers : Int

/-- Who was exposed to each period, and who returned in it, with one row more. -/
def poolRow (periods : Nat) (maturity : Int → Int) (totals : List (Int × Int)) (row : CohortRow) :
    List (Int × Int) :=
  (row.users.zipIdx.takeWhile fun v => v.2 < periods ∧ (v.2 : Int) ≤ maturity row.cohort).foldl
    (fun totals v => totals.modify v.2 fun t => (t.1 + row.size, t.2 + v.1)) totals

/-- **The cohorts added up**, period by period. -/
def pooledCurve (maturity : Int → Int) (grid : List CohortRow) (periods : Nat) : Int × List CurvePoint :=
  let totals := grid.foldl (poolRow periods maturity) (List.replicate periods (0, 0))
  ((grid.map CohortRow.size).sum,
    totals.mapIdx fun period t => ⟨period, t.2, percent t.2 t.1, t.1⟩)

/-- `pooledRetentionCurve`. -/
def pooledRetentionCurve (grid : List CohortRow) (periods : Nat) (windowEnd : Int) (granularity : Granularity) :
    Int × List CurvePoint :=
  pooledCurve (fun cohort => cohortMaturity (cohort * day) windowEnd granularity) grid periods

/-! ## §2. Whole periods between dates. -/

/-- From one date to another, the whole periods; fewer than none backwards. -/
def periodsBetween (granularity : Granularity) (c d : Int) : Int :=
  match granularity with
  | .day => d - c
  | .week => (d - c) / 7
  | .month => monthOf d - monthOf c - if dayOfMonth d < dayOfMonth c then 1 else 0

/-- What the claim counts: the whole periods from one date to another. -/
def wholePeriods (granularity : Granularity) (c d : Int) : Int := max 0 (periodsBetween granularity c d)

/-- The date on which so many periods are complete.  A month that is too short for the
day completes a month on the first of the next. -/
def completedOn (granularity : Granularity) (c n : Int) : Int :=
  match granularity with
  | .day => c + n
  | .week => c + 7 * n
  | .month =>
    if monthStart (monthOf c + n) + dayOfMonth c ≤ monthStart (monthOf c + n + 1) then
      monthStart (monthOf c + n) + dayOfMonth c - 1
    else monthStart (monthOf c + n + 1)

theorem wholePeriods_nonneg (granularity : Granularity) (c d : Int) : 0 ≤ wholePeriods granularity c d :=
  le_max_left _ _

theorem one_le_dayOfMonth (z : Int) : 1 ≤ dayOfMonth z := by
  have hstart := (monthOf_spec z).1
  unfold dayOfMonth
  omega

/-- **A period is complete from one date on.** -/
theorem le_periodsBetween_iff (granularity : Granularity) (c d n : Int) :
    n ≤ periodsBetween granularity c d ↔ completedOn granularity c n ≤ d := by
  cases granularity with
  | day =>
    show n ≤ d - c ↔ c + n ≤ d
    omega
  | week =>
    show n ≤ (d - c) / 7 ↔ c + 7 * n ≤ d
    omega
  | month =>
    have hc := one_le_dayOfMonth c
    have hd := one_le_dayOfMonth d
    obtain ⟨hlow, hhigh⟩ := monthOf_spec d
    have hof : dayOfMonth d = d - monthStart (monthOf d) + 1 := rfl
    show n ≤ monthOf d - monthOf c - (if dayOfMonth d < dayOfMonth c then 1 else 0)
      ↔ (if monthStart (monthOf c + n) + dayOfMonth c ≤ monthStart (monthOf c + n + 1) then
          monthStart (monthOf c + n) + dayOfMonth c - 1
        else monthStart (monthOf c + n + 1)) ≤ d
    rcases lt_trichotomy (monthOf d) (monthOf c + n) with hlt | heq | hgt
    · -- the month has not begun
      have hmono := monthStart_strictMono.monotone (show monthOf d + 1 ≤ monthOf c + n by omega)
      have hnext := (monthStart_succ (monthOf c + n)).1
      constructor
      · intro h
        split at h
        · omega
        · omega
      · intro h
        split at h
        · omega
        · omega
    · -- the month itself: its days decide
      rw [← heq]
      constructor
      · intro h
        split at h
        · omega
        split
        · omega
        · omega
      · intro h
        split at h
        · split
          · omega
          · omega
        · omega
    · have hmono := monthStart_strictMono.monotone (show monthOf c + n + 1 ≤ monthOf d by omega)
      constructor
      · intro _
        split
        · omega
        · omega
      · intro _
        split
        · omega
        · omega

/-! ## §3. What is counted. -/

/-- The most that a duration can hold. -/
def reach : Granularity → Option Int
  | .day => some 106751
  | .week => some 15250
  | .month => none

/-- A count cut off at the reach. -/
def withinReach (granularity : Granularity) (n : Int) : Int :=
  match reach granularity with
  | some limit => min limit n
  | none => n

/-- The UTC date of an instant. -/
def utcDate (t : Int) : Int := t / day

/-- The days of a duration between whole seconds, less than a day backwards. -/
theorem tdiv_sub {t u : Int} (h : u < t + day) : (sub t u).tdiv day = max 0 (min 106751 ((t - u) / day)) := by
  have hday : day = 86400000000000 := rfl
  unfold sub
  rw [hday] at h ⊢
  rcases le_total 0 (t - u) with hpos | hneg
  · rw [Int.tdiv_eq_ediv_of_nonneg (by omega)]
    omega
  · -- nothing of a day backwards is a whole one
    have hclamp : max (-2 ^ 63) (min (2 ^ 63 - 1) (t - u)) = -(u - t) := by omega
    have hnone : (u - t) / 86400000000000 = 0 := Int.ediv_eq_zero_of_lt (by omega) (by omega)
    rw [hclamp, Int.neg_tdiv, Int.tdiv_eq_ediv_of_nonneg (by omega), hnone]
    omega

/-- **What is counted**: the whole periods up to the day before the window's end, at
UTC. -/
theorem cohortMaturity_eq (granularity : Granularity) {c windowEnd : Int} (hsecond : second ∣ windowEnd)
    (hafter : c * day < windowEnd) :
    cohortMaturity (c * day) windowEnd granularity
      = max 0 (withinReach granularity (periodsBetween granularity c (utcDate windowEnd - 1))) := by
  have hday : day = 86400000000000 := rfl
  have hlast : Location.utc.addDate windowEnd (-1) = windowEnd - day := by
    rw [Location.addDate_utc]
    omega
  have hutc : ∀ t, Location.utc.localDate t = t / day := fun t => congrArg (· / day) (Location.wall_utc t)
  have hclear : HourClear (sub (windowEnd - day) (c * day)) :=
    hourClear_sub (dvd_sub hsecond ⟨86400, by rw [hday]; decide⟩) ⟨c * 86400, by show c * (86400 * second) = _; ring⟩
  have hdays := tdiv_sub (t := windowEnd - day) (u := c * day) (by omega)
  have hshift : (windowEnd - day - c * day) / day = utcDate windowEnd - 1 - c := by
    unfold utcDate
    rw [hday]
    omega
  rw [hshift] at hdays
  unfold cohortMaturity
  simp only
  rw [hlast]
  cases granularity with
  | day =>
    show truncate (Binary64.nearest (hours (sub (windowEnd - day) (c * day)) / 24)) = _
    rw [(truncate_hours hclear).1, hdays]
    rfl
  | week =>
    show truncate (Binary64.nearest (Binary64.nearest (hours (sub (windowEnd - day) (c * day)) / 24) / 7)) = _
    rw [(truncate_hours hclear).2, hdays]
    show (max 0 (min 106751 (utcDate windowEnd - 1 - c))).tdiv 7
      = max 0 (min 15250 ((utcDate windowEnd - 1 - c) / 7))
    rw [Int.tdiv_eq_ediv_of_nonneg (by omega)]
    omega
  | month =>
    have hlastDate : Location.utc.localDate (windowEnd - day) = utcDate windowEnd - 1 := by
      rw [hutc]
      unfold utcDate
      rw [hday]
      omega
    have hdate : Location.utc.localDate (c * day) = c := by
      rw [hutc]
      exact Int.mul_ediv_cancel c (by decide)
    show (if (if dayOfMonth (Location.utc.localDate (windowEnd - day))
          < dayOfMonth (Location.utc.localDate (c * day)) then _ else _) < 0 then 0
        else if dayOfMonth (Location.utc.localDate (windowEnd - day))
          < dayOfMonth (Location.utc.localDate (c * day)) then _ else _)
      = max 0 (monthOf (utcDate windowEnd - 1) - monthOf c
          - if dayOfMonth (utcDate windowEnd - 1) < dayOfMonth c then 1 else 0)
    rw [hlastDate, hdate]
    unfold yearOf monthOfYear
    split
    · split
      · omega
      · omega
    · split
      · omega
      · omega

/-! ## §4. When it is the local dates' count. -/

/-- The whole periods up to the last local date can be counted, the last of them is
complete before the UTC date of the window's end, and the next one is not. -/
structure Matures (granularity : Granularity) (c d windowEnd : Int) : Prop where
  inReach : ∀ limit, reach granularity = some limit → wholePeriods granularity c d ≤ limit
  complete : wholePeriods granularity c d = 0
    ∨ completedOn granularity c (wholePeriods granularity c d) < utcDate windowEnd
  notNext : reach granularity = some (wholePeriods granularity c d)
    ∨ utcDate windowEnd ≤ completedOn granularity c (wholePeriods granularity c d + 1)

/-- Where the window ends, at UTC, on the day after its last local date, all is counted. -/
theorem matures_of_utcDate {granularity : Granularity} {c d windowEnd : Int} (h : utcDate windowEnd = d + 1)
    (hreach : ∀ limit, reach granularity = some limit → wholePeriods granularity c d ≤ limit) :
    Matures granularity c d windowEnd where
  inReach := hreach
  complete := by
    rw [h, Int.lt_add_one_iff, ← le_periodsBetween_iff]
    unfold wholePeriods
    omega
  notNext := by
    right
    rw [h, Int.add_one_le_iff, ← not_le, ← le_periodsBetween_iff]
    unfold wholePeriods
    omega

/-- A count and the whole periods, as numbers. -/
theorem withinReach_eq_iff (granularity : Granularity) (n m : Int) (hm : 0 ≤ m) :
    max 0 (withinReach granularity n) = m
      ↔ (∀ limit, reach granularity = some limit → m ≤ limit) ∧ (m = 0 ∨ m ≤ n)
        ∧ (reach granularity = some m ∨ ¬m + 1 ≤ n) := by
  unfold withinReach
  cases hlimit : reach granularity with
  | none =>
    simp only [reduceCtorEq, false_implies, implies_true, true_and, false_or]
    omega
  | some limit =>
    have hpositive : 0 < limit := by
      cases granularity with
      | day =>
        obtain rfl := Option.some.inj hlimit
        decide
      | week =>
        obtain rfl := Option.some.inj hlimit
        decide
      | month => cases hlimit
    simp only [Option.some.injEq, forall_eq']
    omega

/-- Of a maturity a row asks for its own cohort's. -/
theorem poolRow_congr (periods : Nat) (totals : List (Int × Int)) (maturity maturity' : Int → Int) {row : CohortRow}
    (h : maturity row.cohort = maturity' row.cohort) :
    poolRow periods maturity totals row = poolRow periods maturity' totals row := by
  unfold poolRow
  rw [h]

section
variable (loc : Location)

theorem windowEnd_second (d : Int) : second ∣ windowEnd loc d :=
  loc.addDate_second (loc.date_second ⟨d * 86400, by show d * (86400 * second) = _; ring⟩) 1

/-- A cohort of the window began before the window ended. -/
theorem lt_of_lt_localDate {c t : Int} (h : c < loc.localDate t) : c * day < t := by
  have hday : day = 86400000000000 := rfl
  have hsecond : second = 1000000000 := rfl
  have hoffset := (loc.bounded (t / second)).2
  unfold Location.localDate Location.wall at h
  generalize loc.offset (t / second) = a at h hoffset
  rw [hday, hsecond] at h
  rw [hday]
  omega

/-- **A COHORT'S MATURITY IS THE LOCAL DATES' COUNT** if and only if the last of the
whole periods is complete before the UTC date of the window's end, and the next one is
not; and where that is so for every cohort of a grid, its curve is the local dates'. -/
theorem cohortMaturity_iff (granularity : Granularity) (d : Int) :
    (∀ c, c < loc.localDate (windowEnd loc d) →
        (cohortMaturity (c * day) (windowEnd loc d) granularity = wholePeriods granularity c d
          ↔ Matures granularity c d (windowEnd loc d)))
      ∧ ∀ (grid : List CohortRow) (periods : Nat),
        (∀ row ∈ grid, row.cohort < loc.localDate (windowEnd loc d)
          ∧ Matures granularity row.cohort d (windowEnd loc d)) →
        pooledRetentionCurve grid periods (windowEnd loc d) granularity
          = pooledCurve (wholePeriods granularity · d) grid periods := by
  have hmaturity : ∀ c, c < loc.localDate (windowEnd loc d) →
      (cohortMaturity (c * day) (windowEnd loc d) granularity = wholePeriods granularity c d
        ↔ Matures granularity c d (windowEnd loc d)) := by
    intro c hcohort
    rw [cohortMaturity_eq granularity (windowEnd_second loc d) (lt_of_lt_localDate loc hcohort),
      withinReach_eq_iff granularity _ _ (wholePeriods_nonneg granularity c d), le_periodsBetween_iff, le_periodsBetween_iff, not_le]
    constructor
    · intro h
      obtain ⟨hreach, hcomplete, hnext⟩ := h
      exact ⟨hreach, hcomplete.imp_right (by omega), hnext.imp_right (by omega)⟩
    · intro h
      exact ⟨h.inReach, h.complete.imp_right (by omega), h.notNext.imp_right (by omega)⟩
  refine ⟨hmaturity, ?_⟩
  intro grid periods hgrid
  unfold pooledRetentionCurve pooledCurve
  have hpool : ∀ totals, grid.foldl
        (poolRow periods fun cohort => cohortMaturity (cohort * day) (windowEnd loc d) granularity) totals
      = grid.foldl (poolRow periods (wholePeriods granularity · d)) totals := by
    induction grid with
    | nil => exact fun _ => rfl
    | cons row grid ih =>
      intro totals
      obtain ⟨hcohort, hmatures⟩ := hgrid row List.mem_cons_self
      rw [List.foldl_cons, List.foldl_cons, ih fun row hrow => hgrid row (List.mem_cons_of_mem _ hrow),
        poolRow_congr periods totals _ (wholePeriods granularity · d)
          ((hmaturity row.cohort hcohort).mpr hmatures)]
  rw [hpool]

end

/-! ## §5. A window that ends on 2026-08-23. -/

namespace Sample

/-- A zone nine hours ahead of UTC. -/
def seoul : Location where
  offset := fun _ => 32400
  bounded := fun _ => ⟨by decide, by decide⟩

/-- 2026-08-02 and 2026-08-23. -/
def begun : Int := 20667

def ended : Int := 20688

end Sample

/-- At UTC the cohort has lived through three weeks. -/
theorem cohortMaturity_iff_weeks :
    cohortMaturity (Sample.begun * day) (windowEnd Location.utc Sample.ended) .week = 3 := by
  have hiff := (cohortMaturity_iff Location.utc .week Sample.ended).1 Sample.begun (by decide +kernel)
  exact hiff.mpr (matures_of_utcDate (by decide +kernel) (by decide +kernel))

/-- **Ahead of UTC the last day is lost**: the same dates are 20 days instead of 21. -/
theorem aheadOfUtc_not_wholePeriods :
    ¬∀ (loc : Location) (granularity : Granularity) (c d : Int), c < loc.localDate (windowEnd loc d) →
      cohortMaturity (c * day) (windowEnd loc d) granularity = wholePeriods granularity c d := by
  intro h
  have hdays := h Sample.seoul .day Sample.begun Sample.ended (by decide +kernel)
  rw [cohortMaturity_eq .day (windowEnd_second _ _) (lt_of_lt_localDate Sample.seoul (by decide +kernel))] at hdays
  exact absurd hdays (by decide +kernel)

end Momento.Cohorts
