/-
  Momento.Reports.Periods

  **WHICH PERIODS A REPORT COMPARES.**  The console asks for dates, and the server makes
  instants of them in the site's calendar; a scheduled report counts the days back from
  the end of today.  Both compare with the period before, which `PreviousRange` shifts
  by whole days where it finds midnights at both ends, and by the elapsed time where it
  does not — as the scheduled visitor report does always.

  A day is a local date here: it begins where the calendars of the zone first show it,
  which is midnight on most days, and one o'clock where the clocks skip midnight.
-/
import Momento.Foundation.Calendar

namespace Momento.Periods

open Foundation Foundation.Calendar

/-! ## §1. Ranges. -/

/-- A bound of a requested range: ten characters are a date, anything else is a time. -/
inductive Bound
  | date (d : Int)
  | instant (t : Int)
  | malformed (message : String)

/-- Why a range is refused. -/
inductive RangeError
  | malformed (message : String)
  | notPositive
  | exceedsPolicy (days allowed : Int)

section
variable (loc : Location)

/-- The end of a range whose last date is `d`. -/
def windowEnd (d : Int) : Int := loc.addDate (loc.date (d * day)) 1

/-- `int(math.Ceil(to.Sub(from).Hours() / 24))`. -/
def rangeDays (from_ to_ : Int) : Int := ⌈Binary64.nearest (hours (sub to_ from_) / 24)⌉

/-- `dateRange`: without bounds, thirty days up to the end of today. -/
def dateRange (now maxExactDays : Int) (from_ to_ : Option Bound) : Except RangeError (Int × Int) := do
  let defaultTo := windowEnd loc (loc.localDate now)
  let from_ ← match from_ with
    | none => pure (loc.addDate defaultTo (-30))
    | some (.date d) => pure (loc.date (d * day))
    | some (.instant t) => pure t
    | some (.malformed message) => throw (.malformed message)
  let to_ ← match to_ with
    | none => pure defaultTo
    | some (.date d) => pure (windowEnd loc d)
    | some (.instant t) => pure t
    | some (.malformed message) => throw (.malformed message)
  if ¬from_ < to_ then throw .notPositive
  if 0 < maxExactDays ∧ maxExactDays < rangeDays from_ to_ then
    throw (.exceedsPolicy (rangeDays from_ to_) maxExactDays)
  return (from_, to_)

/-- `Hour`, `Minute`, `Second` and `Nanosecond` are zero. -/
def IsMidnight (t : Int) : Prop := loc.wall t % day = 0

instance (t : Int) : Decidable (IsMidnight loc t) := inferInstanceAs (Decidable (_ = _))

/-- `PreviousRange`. -/
def previousRange (from_ to_ : Int) : Int × Int :=
  if IsMidnight loc from_ ∧ IsMidnight loc to_ then
    let days := (sub (loc.localDate to_ * day) (loc.localDate from_ * day)).tdiv (24 * hour)
    (loc.addDate from_ (-days), from_)
  else (from_ + -sub to_ from_, from_)

/-! ## §2. The two sides. -/

/-- A range, and the one before it. -/
structure Comparison where
  from_ : Int
  to_ : Int
  previousFrom : Int
  previousTo : Int
  deriving DecidableEq

/-- `reportWindow`. -/
def reportWindow (now days : Int) : Int × Int :=
  let to_ := windowEnd loc (loc.localDate now)
  (loc.addDate to_ (-days), to_)

/-- The kinds of scheduled report that compare periods. -/
inductive ReportKind
  | overview
  | insights
  | visitorInsight
  deriving DecidableEq

/-- `buildPayload`, up to the reads. -/
def buildPayload (kind : ReportKind) (now days : Int) : Comparison :=
  let (from_, to_) := reportWindow loc now days
  match kind with
  | .overview | .insights =>
    let (previousFrom, previousTo) := previousRange loc from_ to_
    ⟨from_, to_, previousFrom, previousTo⟩
  | .visitorInsight => ⟨from_, to_, from_ + -sub to_ from_, from_⟩

/-- `dateRangeValues`: the first and the last of so many dates, today the last. -/
def dateRangeValues (now days : Int) : Int × Int := (loc.localDate now - (days - 1), loc.localDate now)

/-- What the console's reports compare for the last so many days. -/
def consolePeriods (now maxExactDays days : Int) : Except RangeError Comparison := do
  let (first, last) := dateRangeValues loc now days
  let (from_, to_) ← dateRange loc now maxExactDays (some (.date first)) (some (.date last))
  let (previousFrom, previousTo) := previousRange loc from_ to_
  return ⟨from_, to_, previousFrom, previousTo⟩

/-! ## §3. The property, and its condition. -/

/-- A date begins at `t`: what is earlier has an earlier local date, what is not has not. -/
def Begins (d t : Int) : Prop := ∀ u, t ≤ u ↔ d ≤ loc.localDate u

/-- The first date of the last so many days, -/
def firstDate (now days : Int) : Int := loc.localDate now + 1 - days

/-- and the first of as many before them. -/
def firstDateBefore (now days : Int) : Int := loc.localDate now + 1 - 2 * days

/-- The property: a scheduled report has the console's periods; they are the last local
dates and as many before them, whole ones, end to end. -/
structure SamePeriods (now days : Int) (scheduled console : Comparison) : Prop where
  same : scheduled = console
  adjoins : scheduled.previousTo = scheduled.from_
  endsToday : Begins loc (loc.localDate now + 1) scheduled.to_
  wholeDays : Begins loc (firstDate loc now days) scheduled.from_
  wholeDaysBefore : Begins loc (firstDateBefore loc now days) scheduled.previousFrom

/-- The start of a date, as `time.Date` has it. -/
def midnight (d : Int) : Int := loc.date (d * day)

/-- Tomorrow and the first date begin where the clocks show midnight. -/
def MeetAtMidnights (now days : Int) : Prop :=
  IsMidnight loc (midnight loc (firstDate loc now days)) ∧ IsMidnight loc (windowEnd loc (loc.localDate now))

instance (now days : Int) : Decidable (MeetAtMidnights loc now days) := inferInstanceAs (Decidable (_ ∧ _))

/-- The condition, for each kind of report. -/
structure Comparable (kind : ReportKind) (now days : Int) : Prop where
  /-- A day on the clock after today's start tomorrow begins. -/
  tomorrow : Begins loc (loc.localDate now + 1) (windowEnd loc (loc.localDate now))
  /-- The first date begins at its midnight, -/
  first : Begins loc (firstDate loc now days) (midnight loc (firstDate loc now days))
  /-- which is where the days counted back from tomorrow's beginning lead. -/
  back : loc.addDate (windowEnd loc (loc.localDate now)) (-days) = midnight loc (firstDate loc now days)
  /-- The dates before begin where the days counted back lead, between midnights; and in
  the visitor report, and where a midnight is missing, they take as long as those after. -/
  before : ∃ t, Begins loc (firstDateBefore loc now days) t
    ∧ (MeetAtMidnights loc now days →
        loc.addDate (midnight loc (firstDate loc now days))
          (loc.localDate (midnight loc (firstDate loc now days))
            - loc.localDate (windowEnd loc (loc.localDate now))) = t)
    ∧ (kind = .visitorInsight ∨ ¬MeetAtMidnights loc now days →
        windowEnd loc (loc.localDate now) - midnight loc (firstDate loc now days)
          = midnight loc (firstDate loc now days) - t)

end

/-! ## §4. Where dates begin. -/

section
variable {loc : Location}

/-- A date begins within a day of when it does at UTC. -/
theorem Begins.near {d t : Int} (h : Begins loc d t) : (d - 1) * day < t ∧ t ≤ (d + 1) * day := by
  have hday : day = 86400000000000 := rfl
  have hsecond : second = 1000000000 := rfl
  have hat := (h t).mp le_rfl
  have hbefore : ¬d ≤ loc.localDate (t - 1) := fun hle => by
    have hlate := (h (t - 1)).mpr hle
    omega
  have hoffset := loc.bounded (t / second)
  have hoffset' := loc.bounded ((t - 1) / second)
  unfold Location.localDate Location.wall at hat hbefore
  generalize loc.offset (t / second) = a at hat hoffset
  generalize loc.offset ((t - 1) / second) = b at hbefore hoffset'
  rw [hday, hsecond] at hat hbefore
  rw [hday]
  omega

/-- Where a date begins the calendars show it, or the one after. -/
theorem Begins.localDate {d t : Int} (h : Begins loc d t) : d ≤ loc.localDate t ∧ loc.localDate t ≤ d + 2 := by
  have hday : day = 86400000000000 := rfl
  have hsecond : second = 1000000000 := rfl
  refine ⟨(h t).mp le_rfl, ?_⟩
  have hnear := h.near.2
  have hoffset := loc.bounded (t / second)
  unfold Location.localDate Location.wall
  generalize loc.offset (t / second) = a at hoffset
  rw [hday] at hnear ⊢
  rw [hsecond]
  omega

/-- Between dates of a year a duration is exact. -/
theorem sub_of_begins {d e t u : Int} (ht : Begins loc d t) (hu : Begins loc e u) (h : e ≤ d ∧ d ≤ e + 400) :
    sub t u = t - u := by
  have hday : day = 86400000000000 := rfl
  have htnear := ht.near
  have hunear := hu.near
  rw [hday] at htnear hunear
  unfold sub
  omega

/-- And so are the days between the dates they begin with. -/
theorem days_of_begins {d e t u : Int} (ht : Begins loc d t) (hu : Begins loc e u) (h : e ≤ d ∧ d ≤ e + 400) :
    (sub (loc.localDate t * day) (loc.localDate u * day)).tdiv (24 * hour) = loc.localDate t - loc.localDate u := by
  have hday : day = 86400000000000 := rfl
  have htdate := ht.localDate
  have hudate := hu.localDate
  have hspan : sub (loc.localDate t * day) (loc.localDate u * day) = (loc.localDate t - loc.localDate u) * day := by
    unfold sub
    rw [hday]
    omega
  rw [hspan]
  exact Int.mul_tdiv_cancel _ (by decide)

/-- **What the shift starts at**: between midnights the days counted back, else the time. -/
theorem previousRange_of_begins {d e t u : Int} (ht : Begins loc d t) (hu : Begins loc e u)
    (h : e ≤ d ∧ d ≤ e + 400) :
    previousRange loc u t
      = (if IsMidnight loc u ∧ IsMidnight loc t then loc.addDate u (loc.localDate u - loc.localDate t)
          else u - (t - u), u) := by
  unfold previousRange
  rw [days_of_begins ht hu h, sub_of_begins ht hu h]
  split
  · show (loc.addDate u (-(loc.localDate t - loc.localDate u)), u) = _
    rw [neg_sub]
  · rw [← sub_eq_add_neg]

/-! ## §5. The two sides compared. -/

/-- A range of dates that is not refused. -/
theorem dateRange_of_dates {now maxExactDays first last : Int} {range : Int × Int}
    (h : dateRange loc now maxExactDays (some (.date first)) (some (.date last)) = .ok range) :
    range = (loc.date (first * day), windowEnd loc last) := by
  unfold dateRange at h
  simp only [pure_bind] at h
  split at h
  · cases h
  split at h
  · cases h
  · exact (Except.ok.inj h).symm

/-- What the console compares. -/
theorem consolePeriods_of_ok {now maxExactDays days : Int} {console : Comparison}
    (h : consolePeriods loc now maxExactDays days = .ok console) :
    console.from_ = midnight loc (firstDate loc now days)
      ∧ console.to_ = windowEnd loc (loc.localDate now)
      ∧ (console.previousFrom, console.previousTo) = previousRange loc console.from_ console.to_ := by
  unfold consolePeriods dateRangeValues at h
  simp only at h
  cases hrange : dateRange loc now maxExactDays (some (.date (loc.localDate now - (days - 1))))
      (some (.date (loc.localDate now))) with
  | error e =>
    rw [hrange] at h
    cases h
  | ok range =>
    rw [hrange] at h
    obtain rfl := dateRange_of_dates hrange
    obtain rfl := Except.ok.inj h
    unfold midnight firstDate
    rw [show loc.localDate now + 1 - days = loc.localDate now - (days - 1) by omega]
    exact ⟨rfl, rfl, rfl⟩

/-- What a scheduled report compares. -/
theorem buildPayload_eq (kind : ReportKind) (now days : Int) :
    (buildPayload loc kind now days).from_ = loc.addDate (windowEnd loc (loc.localDate now)) (-days)
      ∧ (buildPayload loc kind now days).to_ = windowEnd loc (loc.localDate now)
      ∧ (buildPayload loc kind now days).previousTo
        = loc.addDate (windowEnd loc (loc.localDate now)) (-days)
      ∧ (buildPayload loc kind now days).previousFrom
        = if kind = .visitorInsight then
            loc.addDate (windowEnd loc (loc.localDate now)) (-days)
              + -sub (windowEnd loc (loc.localDate now)) (loc.addDate (windowEnd loc (loc.localDate now)) (-days))
          else (previousRange loc (loc.addDate (windowEnd loc (loc.localDate now)) (-days))
            (windowEnd loc (loc.localDate now))).1 := by
  have hto : ∀ from_ to_, (previousRange loc from_ to_).2 = from_ := by
    intro from_ to_
    unfold previousRange
    split
    · rfl
    · rfl
  cases kind with
  | overview => exact ⟨rfl, rfl, hto _ _, rfl⟩
  | insights => exact ⟨rfl, rfl, hto _ _, rfl⟩
  | visitorInsight => exact ⟨rfl, rfl, rfl, rfl⟩

variable {now maxExactDays days : Int}

/-- The shift from the console's range, where its two ends begin dates. -/
theorem previousRange_of_ends (hdays : 1 ≤ days ∧ days ≤ 365)
    (htomorrow : Begins loc (loc.localDate now + 1) (windowEnd loc (loc.localDate now)))
    (hfirst : Begins loc (firstDate loc now days) (midnight loc (firstDate loc now days))) :
    sub (windowEnd loc (loc.localDate now)) (midnight loc (firstDate loc now days))
        = windowEnd loc (loc.localDate now) - midnight loc (firstDate loc now days)
      ∧ previousRange loc (midnight loc (firstDate loc now days)) (windowEnd loc (loc.localDate now))
        = (if MeetAtMidnights loc now days then
              loc.addDate (midnight loc (firstDate loc now days))
                (loc.localDate (midnight loc (firstDate loc now days))
                  - loc.localDate (windowEnd loc (loc.localDate now)))
            else midnight loc (firstDate loc now days)
              - (windowEnd loc (loc.localDate now) - midnight loc (firstDate loc now days)),
          midnight loc (firstDate loc now days)) := by
  have hnear : firstDate loc now days ≤ loc.localDate now + 1
      ∧ loc.localDate now + 1 ≤ firstDate loc now days + 400 := by
    unfold firstDate
    omega
  exact ⟨sub_of_begins htomorrow hfirst hnear, previousRange_of_begins htomorrow hfirst hnear⟩

/-- **SCHEDULED AND CONSOLE REPORTS COMPARE THE SAME PERIODS**, whole local dates before
whole local dates, if and only if the dates at which the periods meet begin where days
counted on the clock lead, and, for the visitor report and without midnights, both
periods take the same time. -/
theorem samePeriods_iff (kind : ReportKind) (hdays : 1 ≤ days ∧ days ≤ 365) {console : Comparison}
    (h : consolePeriods loc now maxExactDays days = .ok console) :
    SamePeriods loc now days (buildPayload loc kind now days) console ↔ Comparable loc kind now days := by
  obtain ⟨hfrom, hto, hprevious⟩ := consolePeriods_of_ok h
  obtain ⟨hfrom', hto', hpreviousTo', hpreviousFrom'⟩ := @buildPayload_eq loc kind now days
  rw [hfrom, hto] at hprevious
  constructor
  · intro hsame
    have htomorrow : Begins loc (loc.localDate now + 1) (windowEnd loc (loc.localDate now)) :=
      hto' ▸ hsame.endsToday
    have hback : loc.addDate (windowEnd loc (loc.localDate now)) (-days) = midnight loc (firstDate loc now days) := by
      rw [← hfrom', hsame.same, hfrom]
    have hfirst : Begins loc (firstDate loc now days) (midnight loc (firstDate loc now days)) := by
      rw [← hback, ← hfrom']
      exact hsame.wholeDays
    obtain ⟨htime, hshift⟩ := previousRange_of_ends hdays htomorrow hfirst
    rw [hshift] at hprevious
    obtain ⟨hpreviousFrom, -⟩ := Prod.mk.inj hprevious
    rw [hback, hshift, htime] at hpreviousFrom'
    have hsamePrevious : (buildPayload loc kind now days).previousFrom = console.previousFrom := by
      rw [hsame.same]
    refine ⟨htomorrow, hfirst, hback, _, hsame.wholeDaysBefore, fun hmeet => ?_, fun hlong => ?_⟩
    · rw [hsamePrevious, hpreviousFrom, if_pos hmeet]
    · -- the time both take is what the report goes back by
      have hback' : (buildPayload loc kind now days).previousFrom
          = midnight loc (firstDate loc now days)
            - (windowEnd loc (loc.localDate now) - midnight loc (firstDate loc now days)) := by
        by_cases hkind : kind = .visitorInsight
        · rw [hpreviousFrom', if_pos hkind, ← sub_eq_add_neg]
        · rw [hsamePrevious, hpreviousFrom, if_neg (hlong.resolve_left hkind)]
      omega
  · intro hcomparable
    obtain ⟨htomorrow, hfirst, hback, t, hbefore, hmidnights, hlong⟩ := hcomparable
    obtain ⟨htime, hshift⟩ := previousRange_of_ends hdays htomorrow hfirst
    rw [hshift] at hprevious
    obtain ⟨hpreviousFrom, hpreviousTo⟩ := Prod.mk.inj hprevious
    rw [hback] at hfrom' hpreviousTo'
    rw [hback, hshift, htime] at hpreviousFrom'
    have hconsole : console.previousFrom = t := by
      rw [hpreviousFrom]
      split
      · next hmeet => exact hmidnights hmeet
      next hmeet =>
        have hsameTime := hlong (.inr hmeet)
        omega
    have hscheduled : (buildPayload loc kind now days).previousFrom = t := by
      rw [hpreviousFrom']
      split
      next hkind =>
        have hsameTime := hlong (.inl hkind)
        omega
      · exact hpreviousFrom.symm.trans hconsole
    have hsame : buildPayload loc kind now days = console := by
      cases hbuilt : buildPayload loc kind now days
      cases console
      simp only [Comparison.mk.injEq]
      rw [hbuilt] at hfrom' hto' hpreviousTo' hscheduled
      exact ⟨hfrom'.trans hfrom.symm, hto'.trans hto.symm, hscheduled.trans hconsole.symm,
        hpreviousTo'.trans hpreviousTo.symm⟩
    refine ⟨hsame, hpreviousTo'.trans hfrom'.symm, ?_, ?_, ?_⟩
    · rw [hto']
      exact htomorrow
    · rw [hfrom']
      exact hfirst
    · rw [hscheduled]
      exact hbefore

end

/-! ## §6. Weeks with a clock change. -/

namespace Sample

/-- A zone five hours behind UTC, and four from 2026-03-08T07:00:00Z on. -/
def eastern : Location where
  offset := fun s => if s < 1772953200 then -18000 else -14400
  bounded := by
    intro s
    split
    · decide
    · decide

/-- Noon of 2026-03-10, at UTC. -/
def tuesday : Int := 1773144000 * second

/-- The week up to then and the week before it, by the calendar. -/
def weeks : Comparison where
  from_ := 1772600400 * second
  to_ := 1773201600 * second
  previousFrom := 1771995600 * second
  previousTo := 1772600400 * second

theorem consolePeriods_weeks : consolePeriods eastern tuesday 0 7 = .ok weeks := by
  rfl

/-- A zone two hours ahead of UTC, and three from 2026-03-28T22:00:00Z on: the 29th of
March begins at one o'clock. -/
def beirut : Location where
  offset := fun s => if s < 1774735200 then 7200 else 10800
  bounded := by
    intro s
    split
    · decide
    · decide

/-- Noon of 2026-04-11, at UTC. -/
def saturday : Int := 1775908800 * second

/-- The week up to then, and the week before it from its first instant on. -/
def springWeeks : Comparison where
  from_ := 1775336400 * second
  to_ := 1775941200 * second
  previousFrom := 1774735200 * second
  previousTo := 1775336400 * second

theorem consolePeriods_springWeeks : consolePeriods beirut saturday 0 7 = .ok springWeeks := by
  rfl

/-- Later dates begin at their midnights, three hours before UTC's. -/
theorem begins_beirut {d : Int} (h : 20542 ≤ d) (t : Int) (ht : t = d * day - 10800 * second) :
    Begins beirut d t := by
  have hday : day = 86400000000000 := rfl
  have hsecond : second = 1000000000 := rfl
  intro u
  unfold Location.localDate Location.wall beirut
  simp only
  rw [hday, hsecond] at ht ⊢
  split
  · omega
  · omega

/-- The 29th begins where the clocks are put forward. -/
theorem begins_gap : Begins beirut 20541 (1774735200 * second) := by
  have hday : day = 86400000000000 := rfl
  have hsecond : second = 1000000000 := rfl
  intro u
  unfold Location.localDate Location.wall beirut
  simp only
  rw [hday, hsecond]
  split
  · omega
  · omega

end Sample

/-- The overview of a week has the console's periods, also where the week before it begins
without a midnight. -/
theorem samePeriods_iff_overview :
    SamePeriods Sample.beirut Sample.saturday 7 (buildPayload Sample.beirut .overview Sample.saturday 7)
      Sample.springWeeks := by
  refine (samePeriods_iff .overview (by decide) Sample.consolePeriods_springWeeks).mpr
    ⟨Sample.begins_beirut (by decide +kernel) _ (by decide +kernel),
      Sample.begins_beirut (by decide +kernel) _ (by decide +kernel), by decide +kernel,
      1774735200 * second, Sample.begins_gap, fun _ => by decide +kernel, fun hlong => ?_⟩
  have hmidnights : MeetAtMidnights Sample.beirut Sample.saturday 7 := by decide +kernel
  exact absurd hlong (by simp [hmidnights])

/-- **An hour lost in the week** begins the visitor report's week before an hour late. -/
theorem visitorInsight_not_samePeriods :
    ¬∀ (loc : Location) (kind : ReportKind) (now maxExactDays days : Int) (console : Comparison),
      1 ≤ days ∧ days ≤ 365 → consolePeriods loc now maxExactDays days = .ok console →
        SamePeriods loc now days (buildPayload loc kind now days) console := by
  intro h
  have hsame := (h Sample.eastern .visitorInsight Sample.tuesday 0 7 Sample.weeks (by decide)
    Sample.consolePeriods_weeks).same
  exact absurd (congrArg Comparison.previousFrom hsame) (by decide +kernel)

end Momento.Periods
