/-
  Momento.Foundation.Calendar

  **DATES, ZONES AND DURATIONS.**  A date is a number of days, a month a number of
  months, an instant a number of nanoseconds; a zone says how far its clocks are ahead
  of UTC at each second.

      monthStart, monthOf   — the Gregorian calendar
      wall, date, addDate   — what clocks show, and the instant they show it at
      sub, hours            — a duration, saturating, and its hours as a double
-/
import Mathlib.Data.Int.ConditionallyCompleteOrder
import Momento.Foundation.Binary64Arithmetic

namespace Foundation.Calendar

/-! ## §1. Months. -/

/-! A day is counted from 1970-01-01, a month from January of the year 0. -/

/-- The leap days up to the end of February of a year. -/
def leapDays (year : Int) : Int := year / 4 - year / 100 + year / 400

/-- The first day of a month: years are counted from March, in months of 31 and 30
days in turn. -/
def monthStart (k : Int) : Int :=
  365 * ((k - 2) / 12) + leapDays ((k - 2) / 12) + (153 * ((k - 2) % 12) + 2) / 5 - 719468

/-- The month as 4800 of them in 146097 days would have it. -/
def monthGuess (z : Int) : Int := 4800 * (z + 719468) / 146097 + 2

/-- The month of a day, counted from year 0. -/
def monthOf (z : Int) : Int :=
  if z < monthStart (monthGuess z) then monthGuess z - 1
  else if z < monthStart (monthGuess z + 1) then monthGuess z
  else monthGuess z + 1

/-- The year of a day. -/
def yearOf (z : Int) : Int := monthOf z / 12

/-- The month of the year, from 1. -/
def monthOfYear (z : Int) : Int := monthOf z % 12 + 1

/-- The day of the month, from 1. -/
def dayOfMonth (z : Int) : Int := z - monthStart (monthOf z) + 1

theorem leapDays_succ (year : Int) :
    leapDays (year + 1) = leapDays year + if (4 ∣ year + 1 ∧ ¬100 ∣ year + 1) ∨ 400 ∣ year + 1 then 1 else 0 := by
  unfold leapDays
  by_cases h4 : 4 ∣ year + 1
  · by_cases h100 : 100 ∣ year + 1
    · by_cases h400 : 400 ∣ year + 1
      · rw [if_pos (.inr h400)]
        omega
      · rw [if_neg (by simp [h100, h400])]
        omega
    · rw [if_pos (.inl ⟨h4, h100⟩)]
      omega
  · rw [if_neg (by omega)]
    omega

/-- A month has 28 days at least, and 31 at most. -/
theorem monthStart_succ (k : Int) :
    monthStart k + 28 ≤ monthStart (k + 1) ∧ monthStart (k + 1) ≤ monthStart k + 31 := by
  unfold monthStart
  by_cases hlast : (k - 2) % 12 = 11
  · -- February ends the year
    have hyear : (k + 1 - 2) / 12 = (k - 2) / 12 + 1 := by omega
    have hmonth : (k + 1 - 2) % 12 = 0 := by omega
    rw [hyear, hmonth, hlast, leapDays_succ]
    split
    · omega
    · omega
  · have hyear : (k + 1 - 2) / 12 = (k - 2) / 12 := by omega
    have hmonth : (k + 1 - 2) % 12 = (k - 2) % 12 + 1 := by omega
    rw [hyear, hmonth]
    omega

theorem monthStart_strictMono : StrictMono monthStart := by
  refine strictMono_int_of_lt_succ fun k => ?_
  have hstep := (monthStart_succ k).1
  omega

/-- A month starts about when the average says. -/
theorem monthStart_near (k : Int) :
    146097 * (k - 2) - 28800 ≤ 4800 * (monthStart k + 719468)
      ∧ 4800 * (monthStart k + 719468) ≤ 146097 * (k - 2) + 28800 := by
  unfold monthStart leapDays
  omega

/-- **Every day lies in its month.** -/
theorem monthOf_spec (z : Int) : monthStart (monthOf z) ≤ z ∧ z < monthStart (monthOf z + 1) := by
  have hbelow := (monthStart_near (monthGuess z - 1)).2
  have habove := (monthStart_near (monthGuess z + 2)).1
  have hguess : 146097 * (monthGuess z - 2) ≤ 4800 * (z + 719468)
      ∧ 4800 * (z + 719468) < 146097 * (monthGuess z - 1) := by
    unfold monthGuess
    omega
  unfold monthOf
  split
  next hlt =>
    rw [show monthGuess z - 1 + 1 = monthGuess z by omega]
    exact ⟨by omega, hlt⟩
  next hge =>
    split
    · next hlt => exact ⟨not_lt.mp hge, hlt⟩
    next hge' =>
      rw [show monthGuess z + 1 + 1 = monthGuess z + 2 by omega]
      exact ⟨not_lt.mp hge', by omega⟩

theorem le_monthOf_iff {k : Int} {z : Int} : k ≤ monthOf z ↔ monthStart k ≤ z := by
  obtain ⟨hlow, hhigh⟩ := monthOf_spec z
  constructor
  · intro h
    exact le_trans (monthStart_strictMono.monotone h) hlow
  · intro h
    have hlt := monthStart_strictMono.lt_iff_lt.mp (lt_of_le_of_lt h hhigh)
    omega

/-! ## §2. Zones. -/

/-! An instant is counted in nanoseconds from 1970-01-01T00:00:00Z. -/

/-- In nanoseconds. -/
abbrev second : Int := 1000000000

/-- Twenty-four hours. -/
abbrev day : Int := 86400 * second

/-- A zone of the timezone database: the seconds its clocks are ahead of UTC at each
Unix second. -/
structure Location where
  offset : Int → Int
  bounded : ∀ s, -86400 < offset s ∧ offset s < 86400

namespace Location

/-- `time.UTC`. -/
def utc : Location where
  offset := fun _ => 0
  bounded := fun _ => ⟨by decide, by decide⟩

variable (loc : Location)

/-- What the zone's clocks show, as the instant at which clocks at UTC show it. -/
def wall (t : Int) : Int := t + loc.offset (t / second) * second

/-- `time.Date`: the offset is looked up at the wall time, as if it were an instant, and
then where that offset leads; one that is valid there is the same. -/
def date (wall : Int) : Int :=
  wall - loc.offset (wall / second - loc.offset (wall / second)) * second

/-- `AddDate(0, 0, n)`. -/
def addDate (t : Int) (n : Int) : Int := loc.date (loc.wall t + n * day)

/-- The date the zone's calendars show. -/
def localDate (t : Int) : Int := loc.wall t / day

theorem wall_utc (t : Int) : utc.wall t = t := by
  show t + 0 * second = t
  omega

theorem date_utc (t : Int) : utc.date t = t := by
  show t - 0 * second = t
  omega

theorem addDate_utc (t : Int) (n : Int) : utc.addDate t n = t + n * day := by
  rw [addDate, date_utc, wall_utc]

/-- A whole second is shown as one, and is one where it is shown. -/
theorem date_second {w : Int} (h : second ∣ w) : second ∣ loc.date w :=
  dvd_sub h (dvd_mul_left _ _)

theorem wall_second {t : Int} (h : second ∣ t) : second ∣ loc.wall t :=
  dvd_add h (dvd_mul_left _ _)

theorem addDate_second {t : Int} (h : second ∣ t) (n : Int) : second ∣ loc.addDate t n := by
  refine loc.date_second (dvd_add (loc.wall_second h) ?_)
  exact ⟨n * 86400, by show n * (86400 * second) = second * (n * 86400); ring⟩

end Location

/-! ## §3. Durations. -/

/-- In nanoseconds. -/
abbrev hour : Int := 3600 * second

/-- `Time.Sub`: a duration has 63 bits and a sign. -/
def sub (t u : Int) : Int := max (-2 ^ 63) (min (2 ^ 63 - 1) (t - u))

open Binary64

/-- `Duration.Seconds`. -/
def seconds (d : Int) : Binary64 :=
  add (ofRat (d.tdiv second)) (div (ofRat (d.tmod second)) (.fin (ofNat 1000000000 (by norm_num))))

/-- `Duration.Hours`. -/
def hours (d : Int) : ℚ := nearest (d.tdiv hour + nearest (d.tmod hour / 3600000000000))

/-- `int(x)`. -/
def truncate (q : ℚ) : Int := if q < 0 then -⌊-q⌋ else ⌊q⌋

/-- A duration's seconds are a number. -/
theorem seconds_fin (t u : Int) : ∃ x, seconds (Calendar.sub t u) = .fin x := by
  have hrange : -2 ^ 63 ≤ Calendar.sub t u ∧ Calendar.sub t u ≤ 2 ^ 63 := by
    unfold Calendar.sub
    omega
  generalize Calendar.sub t u = d at hrange
  have hwhole : |((d.tdiv second : Int) : ℚ)| ≤ 2 ^ 63 := by
    have hint : |d.tdiv second| ≤ 2 ^ 63 := by
      have habs : (d.tdiv second).natAbs = d.natAbs / 1000000000 := Int.natAbs_tdiv d second
      rw [abs_le]
      omega
    exact_mod_cast hint
  have hpart : |((d.tmod second : Int) : ℚ)| ≤ 2 ^ 63 := by
    have hint : |d.tmod second| ≤ 2 ^ 63 := by
      have habs : (d.tmod second).natAbs = d.natAbs % 1000000000 := Int.natAbs_tmod d second
      rw [abs_le]
      omega
    exact_mod_cast hint
  obtain ⟨x, hx, -, hxle⟩ := ofRat_of_abs_le (by norm_num) hwhole
  obtain ⟨y, hy, -, hyle⟩ := ofRat_of_abs_le (by norm_num) hpart
  have hnanos : |y.value / ((1000000000 : ℕ) : ℚ)| ≤ 2 ^ 63 := by
    rw [abs_div, Nat.abs_cast]
    exact (div_le_self (abs_nonneg _) (by norm_num)).trans hyle
  obtain ⟨z, hz, -, hzle⟩ := ofRat_of_abs_le (by norm_num) hnanos
  have hsum : |x.value + z.value| ≤ 2 ^ 64 := by
    calc |x.value + z.value| ≤ |x.value| + |z.value| := abs_add_le _ _
      _ ≤ 2 ^ 63 + 2 ^ 63 := add_le_add hxle hzle
      _ = 2 ^ 64 := by norm_num
  obtain ⟨w, hw, -, -⟩ := ofRat_of_abs_le (by norm_num) hsum
  have hquotient : div (.fin y) (.fin (ofNat 1000000000 (by norm_num))) = .fin z := by
    rw [← hz]
    simp [div, ofNat]
  refine ⟨w, ?_⟩
  unfold seconds
  rw [hx, hy, hquotient, ← hw]
  rfl

/-! A double below 2^33 keeps twenty bits after the point. -/

theorem exponent_le_of_lt {q : ℚ} (hq : 0 ≤ q) (h : q < 2 ^ (33 : ℤ)) : exponent q ≤ -20 := by
  have hlog : Int.log 2 q < 33 := by
    rcases hq.eq_or_lt with rfl | hpos
    · simp
    · exact log_lt_of_lt hpos h
  unfold exponent
  omega

theorem nearest_of_nonneg {q : ℚ} (hq : 0 ≤ q) : nearest q = nearestPos q := by
  rw [nearest, if_neg (not_lt.mpr hq)]

theorem nearest_le_of_le {q : ℚ} (hq : 0 ≤ q) (hlt : q < 2 ^ (33 : ℤ)) {r : ℚ} (h : q ≤ r) (a : ℤ)
    (hr : r = a * 2 ^ (-20 : ℤ)) : nearest q ≤ r := by
  rw [nearest_of_nonneg hq]
  exact nearestPos_le_multiple h hr (exponent_le_of_lt hq hlt)

theorem le_nearest_of_le {q : ℚ} (hq : 0 ≤ q) (hlt : q < 2 ^ (33 : ℤ)) {r : ℚ} (h : r ≤ q) (a : ℤ)
    (hr : r = a * 2 ^ (-20 : ℤ)) : r ≤ nearest q := by
  rw [nearest_of_nonneg hq]
  exact multiple_le_nearestPos h hr (exponent_le_of_lt hq hlt)

/-- The rounded hours of a duration of `h` hours and `p` nanoseconds, `n` whole days. -/
theorem nearest_hours_bounds {h p n : Int} (hp : 0 ≤ p ∧ p ≤ 3599000000000) (hh : 24 * n ≤ h ∧ h ≤ 24 * n + 23)
    (hn : 0 ≤ n ∧ n ≤ 106751) :
    (24 * n : ℚ) ≤ nearest (h + nearest (p / 3600000000000))
      ∧ nearest (h + nearest (p / 3600000000000)) ≤ 24 * (n + 1) - 1 / 4096 := by
  have hp' : (0 : ℚ) ≤ p ∧ (p : ℚ) ≤ 3599000000000 := by exact_mod_cast hp
  have hh' : (24 * n : ℚ) ≤ h ∧ (h : ℚ) ≤ 24 * n + 23 := by exact_mod_cast hh
  have hn' : (0 : ℚ) ≤ n ∧ (n : ℚ) ≤ 106751 := by exact_mod_cast hn
  -- the part of an hour
  have hpart : (0 : ℚ) ≤ p / 3600000000000 := div_nonneg hp'.1 (by norm_num)
  have hpart' : (p : ℚ) / 3600000000000 ≤ 1 - 1 / 4096 := by linarith
  have hlow : 0 ≤ nearest ((p : ℚ) / 3600000000000) :=
    le_nearest_of_le hpart (by norm_num; linarith) hpart 0 (by norm_num)
  have hhigh : nearest ((p : ℚ) / 3600000000000) ≤ 1 - 1 / 4096 :=
    nearest_le_of_le hpart (by norm_num; linarith) hpart' 1048320 (by norm_num)
  -- the hours with it
  have hsum : (0 : ℚ) ≤ h + nearest ((p : ℚ) / 3600000000000) := by linarith
  have hsmall : (h : ℚ) + nearest ((p : ℚ) / 3600000000000) < 2 ^ (33 : ℤ) := by
    norm_num
    linarith
  constructor
  · refine le_nearest_of_le hsum hsmall (by linarith) (24 * n * 1048576) ?_
    push_cast
    norm_num
    ring
  · refine nearest_le_of_le hsum hsmall (by linarith) (24 * (n + 1) * 1048576 - 256) ?_
    push_cast
    norm_num
    ring

/-- Divided by 24 it is between the days still, -/
theorem nearest_days_bounds {x : ℚ} {n : Int} (hx : (24 * n : ℚ) ≤ x ∧ x ≤ 24 * (n + 1) - 1 / 4096)
    (hn : 0 ≤ n ∧ n ≤ 106751) : (n : ℚ) ≤ nearest (x / 24) ∧ nearest (x / 24) ≤ n + 1 - 1 / 131072 := by
  have hn' : (0 : ℚ) ≤ n ∧ (n : ℚ) ≤ 106751 := by exact_mod_cast hn
  have hpos : (0 : ℚ) ≤ x / 24 := by linarith
  have hsmall : x / 24 < 2 ^ (33 : ℤ) := by
    norm_num
    linarith
  constructor
  · refine le_nearest_of_le hpos hsmall (by linarith) (n * 1048576) ?_
    push_cast
    norm_num
    ring
  · refine nearest_le_of_le hpos hsmall (by linarith) ((n + 1) * 1048576 - 8) ?_
    push_cast
    norm_num
    ring

/-- and by 7 once more, between the weeks. -/
theorem nearest_weeks_bounds {x : ℚ} {n : Int} (hx : (n : ℚ) ≤ x ∧ x ≤ n + 1 - 1 / 131072)
    (hn : 0 ≤ n ∧ n ≤ 106751) : ((n / 7 : Int) : ℚ) ≤ nearest (x / 7) ∧ nearest (x / 7) < (n / 7 : Int) + 1 := by
  have hn' : (0 : ℚ) ≤ n ∧ (n : ℚ) ≤ 106751 := by exact_mod_cast hn
  have hweek : 7 * (n / 7) ≤ n ∧ n + 1 ≤ 7 * (n / 7) + 7 := by omega
  have hweek' : (7 * (n / 7 : Int) : ℚ) ≤ n ∧ (n : ℚ) + 1 ≤ 7 * (n / 7 : Int) + 7 := by exact_mod_cast hweek
  have hpos : (0 : ℚ) ≤ x / 7 := by linarith
  have hsmall : x / 7 < 2 ^ (33 : ℤ) := by
    norm_num
    linarith
  constructor
  · refine le_nearest_of_le hpos hsmall (by linarith) (n / 7 * 1048576) ?_
    push_cast
    norm_num
    ring
  · have hle : nearest (x / 7) ≤ (n / 7 : Int) + 1 - 1 / 1048576 := by
      refine nearest_le_of_le hpos hsmall (by linarith) ((n / 7 + 1) * 1048576 - 1) ?_
      push_cast
      norm_num
      ring
    linarith

/-- A duration that ends a second before a whole hour at the latest, where it does not
end at one: at a whole second, and where it was cut off. -/
def HourClear (d : Int) : Prop := d.natAbs ≤ 2 ^ 63 ∧ (d.tmod hour).natAbs ≤ 3599000000000

theorem truncate_of_floor {q : ℚ} {n : Int} (hn : 0 ≤ n) (h : (n : ℚ) ≤ q ∧ q < n + 1) : truncate q = n := by
  have hq : ¬q < 0 := by
    have hn' : (0 : ℚ) ≤ n := by exact_mod_cast hn
    exact not_lt.mpr (le_trans hn' h.1)
  rw [truncate, if_neg hq]
  exact Int.floor_eq_iff.mpr h

/-- What is computed of a positive duration. -/
theorem truncate_hours_of_nonneg {d : Int} (hd : 0 ≤ d) (h : HourClear d) :
    truncate (nearest (hours d / 24)) = d / day
      ∧ truncate (nearest (nearest (hours d / 24) / 7)) = d / day / 7 := by
  obtain ⟨hrange, hclear⟩ := h
  have hhour : hour = 3600000000000 := rfl
  have hday : day = 86400000000000 := rfl
  rw [Int.tmod_eq_emod_of_nonneg hd, hhour] at hclear
  have hn : 0 ≤ d / day ∧ d / day ≤ 106751 := by
    rw [hday]
    omega
  have hhours : hours d = nearest ((d / hour : Int) + nearest ((d % hour : Int) / 3600000000000)) := by
    unfold hours
    rw [Int.tdiv_eq_ediv_of_nonneg hd, Int.tmod_eq_emod_of_nonneg hd]
  have hbounds := nearest_hours_bounds (h := d / hour) (p := d % hour) (n := d / day)
    (by rw [hhour]; omega) (by rw [hhour, hday]; omega) hn
  rw [← hhours] at hbounds
  have hdays := nearest_days_bounds hbounds hn
  have hweeks := nearest_weeks_bounds hdays hn
  exact ⟨truncate_of_floor hn.1 ⟨hdays.1, by linarith⟩, truncate_of_floor (by omega) hweeks⟩

/-! A duration backwards. -/

theorem nearest_neg_eq (q : ℚ) : nearest (-q) = -nearest q := by
  rcases le_total 0 q with h | h
  · exact nearest_neg h
  · have hneg := nearest_neg (q := -q) (by linarith)
    rw [neg_neg] at hneg
    rw [hneg, neg_neg]

theorem hours_neg (d : Int) : hours (-d) = -hours d := by
  unfold hours
  rw [Int.neg_tdiv, Int.neg_tmod, ← nearest_neg_eq]
  push_cast
  rw [neg_div, nearest_neg_eq]
  ring_nf

theorem truncate_neg {q : ℚ} (hq : 0 ≤ q) : truncate (-q) = -truncate q := by
  rcases hq.eq_or_lt with rfl | hpos
  · simp [truncate]
  · rw [truncate, if_pos (by linarith), neg_neg, truncate, if_neg (not_lt.mpr hq)]

theorem nearest_nonneg {q : ℚ} (hq : 0 ≤ q) : 0 ≤ nearest q := by
  rw [nearest_of_nonneg hq]
  exact nearestPos_nonneg hq

theorem hours_nonneg {d : Int} (hd : 0 ≤ d) : 0 ≤ hours d := by
  have hwhole : (0 : ℚ) ≤ (d.tdiv hour : Int) := by
    exact_mod_cast Int.tdiv_nonneg hd (by decide)
  have hpart : (0 : ℚ) ≤ (d.tmod hour : Int) := by
    exact_mod_cast Int.tmod_nonneg hour hd
  unfold hours
  exact nearest_nonneg (add_nonneg hwhole (nearest_nonneg (div_nonneg hpart (by norm_num))))

/-- **Hours divided by 24 and cut off are whole days**, and divided by 7 once more whole
weeks. -/
theorem truncate_hours {d : Int} (h : HourClear d) :
    truncate (nearest (hours d / 24)) = d.tdiv day
      ∧ truncate (nearest (nearest (hours d / 24) / 7)) = (d.tdiv day).tdiv 7 := by
  rcases le_total 0 d with hd | hd
  · have hday : 0 ≤ d / day := Int.ediv_nonneg hd (by decide)
    rw [Int.tdiv_eq_ediv_of_nonneg hd, Int.tdiv_eq_ediv_of_nonneg hday]
    exact truncate_hours_of_nonneg hd h
  · -- the same backwards
    obtain ⟨e, rfl⟩ : ∃ e, d = -e := ⟨-d, (neg_neg d).symm⟩
    have he : 0 ≤ e := by omega
    have hclear : HourClear e := by
      unfold HourClear at h
      rw [Int.neg_tmod, Int.natAbs_neg, Int.natAbs_neg] at h
      exact h
    have hday : 0 ≤ e / day := Int.ediv_nonneg he (by decide)
    obtain ⟨hdays, hweeks⟩ := truncate_hours_of_nonneg he hclear
    have hpos : 0 ≤ nearest (hours e / 24) := nearest_nonneg (div_nonneg (hours_nonneg he) (by norm_num))
    have hpos' : 0 ≤ nearest (nearest (hours e / 24) / 7) := nearest_nonneg (div_nonneg hpos (by norm_num))
    rw [hours_neg, neg_div, nearest_neg_eq, neg_div, nearest_neg_eq, truncate_neg hpos, truncate_neg hpos', hdays,
      hweeks, Int.neg_tdiv, Int.neg_tdiv, Int.tdiv_eq_ediv_of_nonneg he, Int.tdiv_eq_ediv_of_nonneg hday]
    exact ⟨rfl, rfl⟩

/-- A duration between whole seconds is clear of the hours. -/
theorem hourClear_sub {t u : Int} (ht : second ∣ t) (hu : second ∣ u) : HourClear (sub t u) := by
  have hsecond : second = 1000000000 := rfl
  have hhour : hour = 3600000000000 := rfl
  unfold HourClear sub
  rw [hhour]
  rw [hsecond] at ht hu
  rcases le_total (2 ^ 63 - 1) (t - u) with hover | hin
  · rw [min_eq_left hover]
    decide
  · rw [min_eq_right hin]
    rcases le_total (t - u) (-2 ^ 63) with hunder | hin'
    · rw [max_eq_left hunder]
      decide
    · rw [max_eq_right hin']
      have hdvd : (1000000000 : Int) ∣ (t - u).tmod 3600000000000 := by
        rw [Int.tmod_def]
        exact dvd_sub (dvd_sub ht hu) ⟨3600 * (t - u).tdiv 3600000000000, by ring⟩
      have hlt : ((t - u).tmod 3600000000000).natAbs < 3600000000000 := by
        have hmod := Int.natAbs_tmod (t - u) 3600000000000
        rw [hmod]
        exact Nat.mod_lt _ (by decide)
      constructor
      · omega
      · omega

end Foundation.Calendar
