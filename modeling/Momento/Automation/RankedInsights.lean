/-
  Momento.Automation.RankedInsights

  **THE MEASURES THAT MOVED.**  `RankInsights` compares five measures with the period
  before, leaves out what moved by less than a tenth, and puts first what moved most.

  What it leaves out has to be there, though: a measure that is zero in both periods
  did not move, and is listed.  And the change is a part of the previous value, so its
  sign tells the direction only where that value is positive: revenue that was
  negative, or that falls from nothing, is taken to have gone the other way.
-/
import Momento.Automation.Payload
import Momento.Model.Figures
import Momento.Foundation.Binary64Order
import Mathlib.Data.List.Sort

namespace Momento.Automation

open Foundation GoValue Binary64

/-! ## §1. Figures. -/

/-- `math.Abs`. -/
def magnitude (x : Binary64) : Binary64 := if lt x (.fin zero) then neg x else x

/-- `percentChange`: of nothing before, anything now is a hundred. -/
def percentChange (current previous : Binary64) : Binary64 :=
  if isZero previous then if isZero current then .fin zero else .fin hundred
  else div (mul (sub current previous) (.fin hundred)) previous

/-! ## §2. The insights. -/

/-- The figures of a period. -/
structure PlatformMetrics where
  users : Int
  events : Int
  conversions : Int
  errors : Int
  revenue : Binary64

/-- What is listed. -/
structure Insight where
  metric : String
  title : String
  severity : String
  changePercent : Binary64
  current : Binary64
  previous : Binary64
  evidence : String
  recommendation : String

/-- A figure of both periods, with what is said if it moved. -/
structure Candidate where
  metric : String
  title : String
  recommendation : String
  current : Binary64
  previous : Binary64
  badWhenHigher : Bool

/-- The five figures that are compared. -/
def candidates (current previous : PlatformMetrics) : List Candidate := [
  ⟨"users", "활성 사용자 변화", "조직·부서별 Adoption을 확인해 변화가 큰 대상을 점검하세요.",
    float current.users, float previous.users, false⟩,
  ⟨"events", "이벤트 사용량 변화", "배포와 주요 기능별 이벤트 추세를 비교하세요.",
    float current.events, float previous.events, false⟩,
  ⟨"conversions", "전환 변화", "Business Journey에서 이탈이 커진 단계를 확인하세요.",
    float current.conversions, float previous.conversions, false⟩,
  ⟨"errors", "사용자 오류 변화", "Experience에서 오류 메시지·페이지·릴리즈 영향을 확인하세요.",
    float current.errors, float previous.errors, true⟩,
  ⟨"revenue", "매출 변화", "구매 퍼널과 유입 채널의 전환율을 함께 확인하세요.",
    current.revenue, previous.revenue, false⟩]

theorem ten_lt_two_pow : 10 < 2 ^ 53 := by norm_num

theorem twenty_lt_two_pow : 20 < 2 ^ 53 := by norm_num

def ten : Binary64 := .fin (ofNat 10 ten_lt_two_pow)

def twenty : Binary64 := .fin (ofNat 20 twenty_lt_two_pow)

/-- Its change in a hundred. -/
def Candidate.change (c : Candidate) : Binary64 := percentChange c.current c.previous

/-- The measure moved by less than a tenth, and is there at all. -/
def Candidate.quiet (c : Candidate) : Bool := lt (magnitude c.change) ten && !isZero c.current

/-- How bad that is: by how far it moved, and which way. -/
def Candidate.severity (c : Candidate) : String :=
  if (c.badWhenHigher && lt twenty c.change) || (!c.badWhenHigher && lt c.change (neg twenty)) then "critical"
  else if le twenty (magnitude c.change) then "warning"
  else "info"

/-- What is listed of it. -/
def Candidate.insight (c : Candidate) : Insight where
  metric := c.metric
  title := c.title
  severity := c.severity
  changePercent := c.change
  current := c.current
  previous := c.previous
  evidence := "현재 " ++ formatFixed 2 c.current ++ ", 이전 기간 " ++ formatFixed 2 c.previous
  recommendation := c.recommendation

/-- `RankInsights`: what moved, and that which moved most first. -/
def rankInsights (current previous : PlatformMetrics) : List Insight :=
  (((candidates current previous).filter fun c => !c.quiet).map Candidate.insight).mergeSort
    fun i j => !lt (magnitude i.changePercent) (magnitude j.changePercent)

/-! ## §3. The property, and its condition. -/

/-- The measure changed by a tenth of the previous value, or more. -/
def Candidate.moved (c : Candidate) : Bool := le ten (magnitude c.change)

/-- It changed by more than a fifth, and its value went the way that is bad for it. -/
def Candidate.worsened (c : Candidate) : Prop :=
  lt twenty (magnitude c.change) = true
    ∧ (if c.badWhenHigher then lt c.previous c.current else lt c.current c.previous) = true

/-- The property: what moved is listed, each measure once; that which moved most comes
first; what worsened is critical; and nothing is listed whose values are equal. -/
structure Ranked (current previous : PlatformMetrics) : Prop where
  listed : ((rankInsights current previous).map Insight.metric).Perm
    (((candidates current previous).filter Candidate.moved).map Candidate.metric)
  ordered : (rankInsights current previous).Pairwise fun i j =>
    le (magnitude j.changePercent) (magnitude i.changePercent) = true
  critical : ∀ c ∈ candidates current previous, ∀ i ∈ rankInsights current previous, i.metric = c.metric →
    (i.severity = "critical" ↔ c.worsened)
  distinct : ∀ i ∈ rankInsights current previous, ¬ (le i.current i.previous && le i.previous i.current) = true

/-- There is a change: the previous value is finite, and what it is compared with is a
number or does not matter. -/
def Candidate.measured (c : Candidate) : Prop :=
  (∃ x, c.previous = .fin x) ∧ (c.current ≠ .nan ∨ isZero c.previous = true)

/-- The previous value is negative, or zero while the current one is negative. -/
def Candidate.fromBelow (c : Candidate) : Prop :=
  lt c.previous (.fin zero) = true ∨ isZero c.previous = true ∧ lt c.current (.fin zero) = true

/-- The condition: the measure has a change, it is not zero in both periods, and if it
moved by more than a fifth it did not come from below. -/
structure Candidate.Regular (c : Candidate) : Prop where
  measured : c.measured
  present : ¬ (isZero c.current = true ∧ isZero c.previous = true)
  fromAbove : lt twenty (magnitude c.change) = true → ¬ c.fromBelow

/-! ## §4. Figures. -/

theorem isZero_iff {x : Binary64} : isZero x = true ↔ ∃ v : FiniteDouble, x = .fin v ∧ v.value = 0 := by
  cases x with
  | nan => simp [isZero]
  | inf a => simp [isZero]
  | fin v => simp [isZero]

theorem magnitude_fin (x : FiniteDouble) : ∃ y : FiniteDouble, magnitude (.fin x) = .fin y ∧ y.value = |x.value| := by
  unfold magnitude
  by_cases hneg : x.value < 0
  · have hlt : lt (.fin x) (.fin zero) = true := by
      rw [lt_iff_not_le (by simp) (by simp), le_fin, zero_value, not_le]
      exact hneg
    obtain ⟨y, hy, hvalue⟩ := neg_fin x
    rw [if_pos hlt]
    exact ⟨y, hy, by rw [hvalue, abs_of_neg hneg]⟩
  · have hnot : ¬ lt (.fin x) (.fin zero) = true := by
      rw [lt_iff_not_le (by simp) (by simp), le_fin, zero_value, not_not]
      exact not_lt.mp hneg
    rw [if_neg hnot]
    exact ⟨x, rfl, (abs_of_nonneg (not_lt.mp hneg)).symm⟩

@[simp] theorem magnitude_inf (a : Bool) : magnitude (.inf a) = .inf false := by
  cases a <;> rfl

theorem magnitude_number {x : Binary64} : magnitude x ≠ .nan ↔ x ≠ .nan := by
  cases x with
  | nan => rfl
  | inf a => simp
  | fin v =>
    obtain ⟨y, hy, -⟩ := magnitude_fin v
    rw [hy]
    simp

theorem ten_value : (ofNat 10 ten_lt_two_pow : FiniteDouble).value = 10 := by simp [ofNat]

theorem twenty_value : (ofNat 20 twenty_lt_two_pow : FiniteDouble).value = 20 := by simp [ofNat]

/-- More than a fifth is one way or the other. -/
theorem twenty_lt_magnitude (x : Binary64) :
    lt twenty (magnitude x) = true ↔ lt twenty x = true ∨ lt x (neg twenty) = true := by
  obtain ⟨t, ht, htvalue⟩ := neg_fin (ofNat 20 (by norm_num))
  rw [twenty, ht]
  cases x with
  | nan => simp [magnitude, lt]
  | inf a => cases a <;> simp [lt, le]
  | fin v =>
    obtain ⟨y, hy, hvalue⟩ := magnitude_fin v
    rw [hy, lt_iff_not_le (by simp) (by simp), lt_iff_not_le (by simp) (by simp), lt_iff_not_le (by simp) (by simp),
      le_fin, le_fin, le_fin, hvalue, htvalue, twenty_value, not_le, not_le, not_le, lt_abs]
    constructor
    · intro h
      exact h.imp id fun hneg => by linarith
    · intro h
      exact h.imp id fun hneg => by linarith

/-- What lies above zero is no change below the bound, and so on. -/
theorem onSide_of_twenty_lt {x : Binary64} (h : lt twenty x = true) : ¬ OnSide true x := by
  cases x with
  | nan => cases h
  | inf a => cases a <;> simp_all [lt, le, twenty]
  | fin v =>
    rw [twenty, lt_iff_not_le (by simp) (by simp), le_fin, twenty_value] at h
    rw [onSide_fin]
    intro hneg
    have hle : v.value ≤ 0 := hneg
    linarith

theorem onSide_of_lt_neg_twenty {x : Binary64} (h : lt x (neg twenty) = true) : ¬ OnSide false x := by
  obtain ⟨t, ht, htvalue⟩ := neg_fin (ofNat 20 (by norm_num))
  rw [twenty, ht] at h
  cases x with
  | nan => cases h
  | inf a => cases a <;> simp_all [lt, le]
  | fin v =>
    rw [lt_iff_not_le (by simp) (by simp), le_fin, htvalue, twenty_value] at h
    rw [onSide_fin]
    intro hpos
    have hle : 0 ≤ v.value := hpos
    linarith

/-! ## §5. The change. -/

section Change

variable {current : Binary64} {previous : FiniteDouble}

theorem percentChange_fin (h : previous.value ≠ 0) : percentChange current (.fin previous)
    = div (mul (sub current (.fin previous)) (.fin hundred)) (.fin previous) := by
  have hnonzero : ¬ isZero (.fin previous) = true := by simpa [isZero] using h
  rw [percentChange, if_neg hnonzero]

theorem hundred_pos : 0 < hundred.value := by simp [hundred, ofNat]

/-- A rise is a change upwards where the previous value is positive, and downwards
where it is negative. -/
theorem onSide_rise (h : previous.value ≠ 0) (hle : le (.fin previous) current = true) :
    OnSide (decide (previous.value < 0)) (percentChange current (.fin previous)) := by
  rw [percentChange_fin h]
  have hside := ((onSide_sub hle).mul hundred_pos).div h
  rwa [Bool.false_xor] at hside

theorem onSide_fall (h : previous.value ≠ 0) (hle : le current (.fin previous) = true) :
    OnSide (!decide (previous.value < 0)) (percentChange current (.fin previous)) := by
  rw [percentChange_fin h]
  have hside := ((onSide_sub_neg hle).mul hundred_pos).div h
  rwa [Bool.true_xor] at hside

theorem sub_inf (x : Binary64) (a : Bool) : sub x (.inf a) = .nan ∨ ∃ b, sub x (.inf a) = .inf b := by
  cases x with
  | nan => exact .inl rfl
  | inf b =>
    rw [sub, neg, add]
    split
    · exact .inr ⟨b, rfl⟩
    · exact .inl rfl
  | fin v => exact .inr ⟨!a, rfl⟩

/-- Numbers have a change, where the previous value is finite and not zero. -/
theorem percentChange_number (h : previous.value ≠ 0) (hcurrent : current ≠ .nan) :
    percentChange current (.fin previous) ≠ .nan := by
  obtain hle | hle := le_total (rank (.fin previous)) (rank current)
  · exact (onSide_rise h ((le_iff_rank (by simp) hcurrent).mpr hle)).number
  · exact (onSide_fall h ((le_iff_rank hcurrent (by simp)).mpr hle)).number

/-- A result of ten at least stays that after rounding. -/
theorem ten_le_magnitude_ofRat {q : ℚ} (h : 10 ≤ |q|) : le ten (magnitude (ofRat q)) = true := by
  unfold ofRat
  split
  · obtain ⟨y, hy, hvalue⟩ := magnitude_fin ⟨nearest q, nearest_idem q, ‹_›⟩
    have hten : nearestPos (10 : ℚ) = 10 := by exact_mod_cast nearestPos_natCast (m := 10) (by norm_num)
    rw [hy, ten, le_fin, ten_value, hvalue, abs_nearest]
    exact le_nearestPos_of_le (by norm_num) h hten
  · rw [magnitude_inf]
    rfl

/-- What falls to zero moved. -/
theorem ten_le_drop {v : FiniteDouble} (hv : v.value = 0) (h : previous.value ≠ 0) :
    le ten (magnitude (percentChange (.fin v) (.fin previous))) = true := by
  have hpos : 0 < |previous.value| := abs_pos.mpr h
  have hsub : ∃ d : FiniteDouble, sub (.fin v) (.fin previous) = .fin d ∧ d.value = -previous.value := by
    obtain ⟨z, hz, hzvalue⟩ := neg_fin previous
    have hsum : nearest (v.value + z.value) = -previous.value := by
      rw [hv, hzvalue, zero_add, nearest_neg_value]
    have hbounded : |nearest (v.value + z.value)| < 2 ^ 1024 := by
      rw [hsum, abs_neg]
      exact previous.bounded
    refine ⟨⟨_, nearest_idem _, hbounded⟩, ?_, hsum⟩
    rw [sub, hz, add, ofRat_of_lt hbounded]
  obtain ⟨d, hd, hdvalue⟩ := hsub
  rw [percentChange_fin h, hd]
  have hproduct : d.value * hundred.value = -(previous.value * 100) := by
    rw [hdvalue, show hundred.value = 100 by simp [hundred, ofNat]]
    ring
  by_cases hsmall : |nearest (-(previous.value * 100))| < 2 ^ 1024
  · rw [mul, hproduct, ofRat_of_lt hsmall, div, if_pos h]
    refine ten_le_magnitude_ofRat ?_
    -- Sixty-four times the previous value is a double that the product does not round past.
    have hproduct64 : 2 ^ 6 * |previous.value| ≤ |nearest (-(previous.value * 100))| := by
      rw [abs_nearest, abs_neg, abs_mul]
      refine le_nearestPos_of_le (by positivity) ?_ (nearestPos_two_pow_mul hpos (nearestPos_abs_value previous) 6)
      norm_num
      linarith
    show 10 ≤ |nearest (-(previous.value * 100)) / previous.value|
    rw [abs_div, le_div_iff₀ hpos]
    linarith
  · have hinf : mul (.fin d) (.fin hundred) = .inf (decide (-(previous.value * 100) < 0)) := by
      rw [mul, hproduct, ofRat, dif_neg hsmall]
    rw [hinf, div, magnitude_inf]
    rfl

end Change

/-! ## §6. One measure. -/

namespace Candidate

variable {c : Candidate}

theorem change_of_zero (h : isZero c.previous = true) :
    c.change = if isZero c.current then .fin zero else .fin hundred := by
  rw [change, percentChange, if_pos h]

/-- **When there is a change at all.** -/
theorem change_number_iff : c.change ≠ .nan ↔ c.measured := by
  obtain hzero | hzero := Bool.eq_false_or_eq_true (isZero c.previous)
  · obtain ⟨v, hv, -⟩ := isZero_iff.mp hzero
    constructor
    · intro _
      exact ⟨⟨v, hv⟩, .inr hzero⟩
    · intro _
      rw [change_of_zero hzero]
      split <;> simp
  · have hnonzero : ¬ isZero c.previous = true := by rw [hzero]; decide
    constructor
    · intro h
      rw [change, percentChange, if_neg hnonzero] at h
      cases hp : c.previous with
      | nan =>
        rw [hp] at h
        cases hc : mul (sub c.current .nan) (.fin hundred) <;> simp [hc, div] at h
      | inf a =>
        rw [hp] at h
        -- Infinity over infinity, whatever is taken from it.
        obtain hsub | ⟨b, hsub⟩ := sub_inf c.current a
        · rw [hsub] at h
          exact absurd rfl h
        · rw [hsub, mul, if_neg hundred_pos.ne'] at h
          exact absurd rfl h
      | fin v =>
        refine ⟨⟨v, hp⟩, .inl ?_⟩
        intro hnan
        rw [hp, hnan] at h
        exact h rfl
    · intro h
      obtain ⟨⟨v, hv⟩, hcurrent⟩ := h
      have hvalue : v.value ≠ 0 := by
        rw [hv] at hzero
        simpa [isZero] using hzero
      rw [change, hv]
      exact percentChange_number hvalue (hcurrent.resolve_right hnonzero)

/-- A change is listed or quiet, but for a measure that is zero twice. -/
theorem quiet_eq (hmeasured : c.measured) (hpresent : ¬ (isZero c.current = true ∧ isZero c.previous = true)) :
    c.quiet = !c.moved := by
  have hnumber : magnitude c.change ≠ .nan := magnitude_number.mpr (change_number_iff.mpr hmeasured)
  have hlt : lt (magnitude c.change) ten = !c.moved := by
    rw [Bool.eq_iff_iff, lt_iff_not_le hnumber (by simp [ten]), Bool.not_eq_true', Bool.not_eq_true]
    rfl
  rw [quiet, hlt]
  obtain hzero | hzero := Bool.eq_false_or_eq_true (isZero c.current)
  · -- What is zero now, and was not, fell to zero.
    obtain ⟨⟨p, hp⟩, -⟩ := hmeasured
    obtain ⟨v, hv, hvalue⟩ := isZero_iff.mp hzero
    have hprevious : p.value ≠ 0 := by
      intro hnone
      exact hpresent ⟨hzero, isZero_iff.mpr ⟨p, hp, hnone⟩⟩
    have hmoved : c.moved = true := by
      rw [moved, change, hv, hp]
      exact ten_le_drop hvalue hprevious
    rw [hmoved]
    rfl
  · rw [hzero, Bool.not_false, Bool.and_true]

/-- What was zero twice is listed, though it did not move. -/
theorem zero_twice (h : isZero c.current = true ∧ isZero c.previous = true) : c.quiet = false ∧ c.moved = false := by
  have hchange : c.change = .fin zero := by rw [change_of_zero h.2, if_pos h.1]
  constructor
  · rw [quiet, h.1, Bool.not_true, Bool.and_false]
  · rw [moved, hchange]
    rfl

/-- So is what has no change. -/
theorem unmeasured (h : ¬ c.measured) : c.quiet = false ∧ c.moved = false := by
  have hnan : c.change = .nan := not_not.mp (mt change_number_iff.mp h)
  constructor
  · rw [quiet, hnan]
    rfl
  · rw [moved, hnan]
    rfl

theorem severity_critical : c.severity = "critical" ↔
    if c.badWhenHigher then lt twenty c.change = true else lt c.change (neg twenty) = true := by
  have hsecond : (if le twenty (magnitude c.change) then "warning" else "info") ≠ "critical" := by
    split <;> decide
  unfold severity
  by_cases hbad : c.badWhenHigher = true
  · rw [if_pos hbad, hbad, Bool.true_and, Bool.not_true, Bool.false_and, Bool.or_false]
    by_cases h : lt twenty c.change = true
    · simp [h]
    · rw [if_neg h]
      exact iff_of_false hsecond h
  · rw [if_neg hbad, Bool.eq_false_of_not_eq_true hbad, Bool.false_and, Bool.not_false, Bool.true_and, Bool.false_or]
    by_cases h : lt c.change (neg twenty) = true
    · simp [h]
    · rw [if_neg h]
      exact iff_of_false hsecond h

/-- A change upwards is a rise, but for a negative previous value. -/
theorem way_of_twenty_lt {v : FiniteDouble} (hp : c.previous = .fin v) (hv : v.value ≠ 0) (hc : c.current ≠ .nan)
    (h : lt twenty c.change = true) :
    (if v.value < 0 then lt c.current c.previous else lt c.previous c.current) = true := by
  rw [change, hp] at h
  have hside := onSide_of_twenty_lt h
  rw [hp]
  by_cases hneg : v.value < 0
  · rw [if_pos hneg, lt_iff_not_le hc (by simp)]
    intro hle
    have hrise := onSide_rise hv hle
    rw [decide_eq_true hneg] at hrise
    exact hside hrise
  · rw [if_neg hneg, lt_iff_not_le (by simp) hc]
    intro hle
    have hfall := onSide_fall hv hle
    rw [decide_eq_false hneg] at hfall
    exact hside hfall

theorem way_of_lt_neg_twenty {v : FiniteDouble} (hp : c.previous = .fin v) (hv : v.value ≠ 0) (hc : c.current ≠ .nan)
    (h : lt c.change (neg twenty) = true) :
    (if v.value < 0 then lt c.previous c.current else lt c.current c.previous) = true := by
  rw [change, hp] at h
  have hside := onSide_of_lt_neg_twenty h
  rw [hp]
  by_cases hneg : v.value < 0
  · rw [if_pos hneg, lt_iff_not_le (by simp) hc]
    intro hle
    have hfall := onSide_fall hv hle
    rw [decide_eq_true hneg] at hfall
    exact hside hfall
  · rw [if_neg hneg, lt_iff_not_le hc (by simp)]
    intro hle
    have hrise := onSide_rise hv hle
    rw [decide_eq_false hneg] at hrise
    exact hside hrise

theorem lt_asymm_number {x y : Binary64} (h : lt x y = true) : ¬ lt y x = true := by
  obtain ⟨hx, hy⟩ := number_of_lt h
  rw [lt_iff_rank hx hy] at h
  rw [lt_iff_rank hy hx]
  exact lt_asymm h

/-- From nothing everything is a hundred percent more. -/
theorem change_from_zero (h : isZero c.previous = true) (hc : ¬ isZero c.current = true) :
    lt twenty c.change = true ∧ ¬ lt c.change (neg twenty) = true := by
  have hchange : c.change = .fin hundred := by rw [change_of_zero h, if_neg hc]
  have hpositive : OnSide false (.fin hundred) := by
    rw [onSide_fin]
    exact hundred_pos.le
  constructor
  · rw [hchange, twenty, lt_iff_not_le (by simp) (by simp), le_fin, twenty_value, not_le]
    simp [hundred, ofNat]
    norm_num
  · intro hlt
    rw [hchange] at hlt
    exact onSide_of_lt_neg_twenty hlt hpositive

theorem compare_zero {v : FiniteDouble} (hv : v.value = 0) (x : Binary64) :
    lt (.fin v) x = lt (.fin zero) x ∧ lt x (.fin v) = lt x (.fin zero) := by
  cases x with
  | nan => exact ⟨rfl, rfl⟩
  | inf a => cases a <;> exact ⟨rfl, rfl⟩
  | fin u =>
    have hsame : v.value = zero.value := by rw [hv, zero_value]
    constructor
    · show (!decide (u.value ≤ v.value)) = !decide (u.value ≤ zero.value)
      rw [hsame]
    · show (!decide (v.value ≤ u.value)) = !decide (zero.value ≤ u.value)
      rw [hsame]

/-- Two moves that each go their own way: the first is the one that goes there, -/
theorem same_iff {first second here there : Prop} (h : first → here) (h' : second → there) (hway : here → ¬ there) :
    first ↔ (first ∨ second) ∧ here := by
  constructor
  · intro hfirst
    exact ⟨.inl hfirst, h hfirst⟩
  · intro ⟨hmoved, hhere⟩
    exact hmoved.resolve_right fun hsecond => hway hhere (h' hsecond)

/-- and if each goes the other's way, it is so only where there is no move. -/
theorem turned_iff {first second here there : Prop} (h : first → there) (h' : second → here) (hway : here → ¬ there) :
    (first ↔ (first ∨ second) ∧ here) ↔ ¬ (first ∨ second) := by
  constructor
  · intro hsame hmoved
    obtain hfirst | hsecond := hmoved
    · exact hway (hsame.mp hfirst).2 (h hfirst)
    · exact hway (h' hsecond) (h (hsame.mpr ⟨.inr hsecond, h' hsecond⟩))
  · intro hnone
    exact iff_of_false (fun hfirst => hnone (.inl hfirst)) fun hmoved => hnone hmoved.1

/-- **When the severity says where the measure went**: where a change of more than a
fifth does not come from below. -/
theorem critical_iff (hmeasured : c.measured) (hpresent : ¬ (isZero c.current = true ∧ isZero c.previous = true))
    (hnumber : c.badWhenHigher = true → c.current ≠ .nan) :
    (c.severity = "critical" ↔ c.worsened) ↔ (lt twenty (magnitude c.change) = true → ¬ c.fromBelow) := by
  obtain ⟨⟨v, hp⟩, hcurrent⟩ := hmeasured
  rw [severity_critical, worsened, twenty_lt_magnitude]
  by_cases hzero : isZero c.previous = true
  · have hnonzero : ¬ isZero c.current = true := fun h => hpresent ⟨h, hzero⟩
    have hv : v.value = 0 := by
      rw [hp] at hzero
      simpa [isZero] using hzero
    obtain ⟨hup, hdown⟩ := change_from_zero hzero hnonzero
    have hbelow : c.fromBelow ↔ lt c.current (.fin zero) = true := by
      have hnot : ¬ lt c.previous (.fin zero) = true := by
        rw [hp, (compare_zero hv _).1]
        decide
      rw [fromBelow, or_iff_right hnot]
      exact and_iff_right hzero
    rw [hbelow, hp, (compare_zero hv c.current).1, (compare_zero hv c.current).2]
    by_cases hbad : c.badWhenHigher = true
    · -- What is not zero is above it or below it.
      have hway : lt (.fin zero) c.current = true ↔ ¬ lt c.current (.fin zero) = true := by
        constructor
        · exact lt_asymm_number
        · intro h
          rw [lt_iff_not_le (hnumber hbad) (by simp), not_not] at h
          rw [lt_iff_not_le (by simp) (hnumber hbad)]
          intro hle
          obtain ⟨u, hu, huvalue⟩ := eq_zero_of_onSide (x := c.current) hle h
          exact hnonzero (isZero_iff.mpr ⟨u, hu, huvalue⟩)
      rw [if_pos hbad, if_pos hbad, hway]
      exact ⟨fun h _ => (h.mp hup).2, fun h => ⟨fun _ => ⟨.inl hup, h (.inl hup)⟩, fun _ => hup⟩⟩
    · rw [if_neg hbad, if_neg hbad]
      exact ⟨fun h _ hlow => hdown (h.mpr ⟨.inl hup, hlow⟩), fun h => ⟨fun hlow => absurd hlow hdown, fun hlow => absurd hlow.2 (h (.inl hup))⟩⟩
  · have hv : v.value ≠ 0 := by
      rw [hp] at hzero
      simpa [isZero] using hzero
    have hc : c.current ≠ .nan := hcurrent.resolve_right hzero
    have hrise := way_of_twenty_lt hp hv hc
    have hfall := way_of_lt_neg_twenty hp hv hc
    have hasymm : lt c.previous c.current = true → ¬ lt c.current c.previous = true := lt_asymm_number
    have hbelow : c.fromBelow ↔ v.value < 0 := by
      have hlt : lt c.previous (.fin zero) = true ↔ v.value < 0 := by
        rw [hp, lt_iff_not_le (by simp) (by simp), le_fin, zero_value, not_le]
      rw [fromBelow, hlt]
      exact or_iff_left fun h => hzero h.1
    rw [hbelow]
    by_cases hneg : v.value < 0
    · -- Below zero the sign of the change is turned over.
      simp only [if_pos hneg] at hrise hfall
      have hmoved : (lt twenty c.change = true ∨ lt c.change (neg twenty) = true → ¬ v.value < 0)
          ↔ ¬ (lt twenty c.change = true ∨ lt c.change (neg twenty) = true) :=
        ⟨fun h hmoved => h hmoved hneg, fun h hmoved => absurd hmoved h⟩
      rw [hmoved]
      by_cases hbad : c.badWhenHigher = true
      · rw [if_pos hbad, if_pos hbad]
        exact turned_iff hrise hfall hasymm
      · rw [if_neg hbad, if_neg hbad, or_comm]
        exact turned_iff hfall hrise fun hdown hup => hasymm hup hdown
    · simp only [if_neg hneg] at hrise hfall
      refine iff_of_true ?_ fun _ => hneg
      by_cases hbad : c.badWhenHigher = true
      · rw [if_pos hbad, if_pos hbad]
        exact same_iff hrise hfall hasymm
      · rw [if_neg hbad, if_neg hbad, or_comm]
        exact same_iff hfall hrise fun hdown hup => hasymm hup hdown

/-- A measure that is listed for its change has two values. -/
theorem distinct_of_moved (hmeasured : c.measured) (hpresent : ¬ (isZero c.current = true ∧ isZero c.previous = true))
    (hmoved : c.moved = true) : ¬ (le c.current c.previous && le c.previous c.current) = true := by
  intro hequal
  obtain ⟨hle, hge⟩ := (Bool.and_eq_true ..).mp hequal
  obtain ⟨⟨v, hp⟩, -⟩ := hmeasured
  by_cases hv : v.value = 0
  · rw [hp] at hle hge
    have hcurrent : isZero c.current = true := by
      cases hc : c.current with
      | nan => rw [hc] at hle; cases hle
      | inf a =>
        rw [hc] at hle hge
        cases a with
        | false => cases hle
        | true => cases hge
      | fin u =>
        rw [hc, le_fin, hv] at hle hge
        exact isZero_iff.mpr ⟨u, rfl, le_antisymm hle hge⟩
    exact hpresent ⟨hcurrent, isZero_iff.mpr ⟨v, hp, hv⟩⟩
  · rw [hp] at hle hge
    -- Neither a rise nor a fall: the change is zero.
    have hrise := onSide_rise hv hge
    have hfall := onSide_fall hv hle
    obtain ⟨u, hu, huvalue⟩ : ∃ u : FiniteDouble, percentChange c.current (.fin v) = .fin u ∧ u.value = 0 := by
      cases hsign : decide (v.value < 0) with
      | false =>
        rw [hsign] at hrise hfall
        exact eq_zero_of_onSide hfall hrise
      | true =>
        rw [hsign] at hrise hfall
        exact eq_zero_of_onSide hrise hfall
    obtain ⟨y, hy, hyvalue⟩ := magnitude_fin u
    rw [moved, change, hp, hu, hy, ten, le_fin, hyvalue, huvalue, abs_zero, ten_value] at hmoved
    linarith

end Candidate

/-! ## §7. The ranking. -/

theorem mergeSort_congr {α : Type} {r s : α → α → Bool} {l : List α} (h : ∀ a ∈ l, ∀ b ∈ l, r a b = s a b) :
    l.mergeSort r = l.mergeSort s := by
  have hmap := List.map_mergeSort (f := id) h
  rwa [List.map_id, List.map_id] at hmap

section Ranking

variable {current previous : PlatformMetrics}

/-- No two measures have one name. -/
theorem eq_of_metric {c d : Candidate} (hc : c ∈ candidates current previous) (hd : d ∈ candidates current previous)
    (h : c.metric = d.metric) : c = d := by
  have hnodup : ((candidates current previous).map Candidate.metric).Nodup := by
    show ["users", "events", "conversions", "errors", "revenue"].Nodup
    decide
  exact List.inj_on_of_nodup_map hnodup hc hd h

theorem mem_rankInsights {i : Insight} :
    i ∈ rankInsights current previous ↔ ∃ c ∈ candidates current previous, c.quiet = false ∧ c.insight = i := by
  rw [rankInsights, List.mem_mergeSort, List.mem_map]
  constructor
  · intro ⟨c, hc, hi⟩
    obtain ⟨hmem, hquiet⟩ := List.mem_filter.mp hc
    exact ⟨c, hmem, (Bool.not_eq_true' _).mp hquiet, hi⟩
  · intro ⟨c, hmem, hquiet, hi⟩
    exact ⟨c, List.mem_filter.mpr ⟨hmem, (Bool.not_eq_true' _).mpr hquiet⟩, hi⟩

/-- What is bad when it rises is counted. -/
theorem number_of_badWhenHigher {c : Candidate} (hc : c ∈ candidates current previous) (hbad : c.badWhenHigher = true) :
    c.current ≠ .nan := by
  simp only [candidates, List.mem_cons, List.not_mem_nil, or_false] at hc
  obtain rfl | rfl | rfl | rfl | rfl := hc
  all_goals try cases hbad
  show ofRat _ ≠ .nan
  unfold ofRat
  split <;> simp

/-- The sort leaves what moved most in front, where every change is a number. -/
theorem ordered_of_number (h : ∀ i ∈ rankInsights current previous, i.changePercent ≠ .nan) :
    (rankInsights current previous).Pairwise fun i j =>
      le (magnitude j.changePercent) (magnitude i.changePercent) = true := by
  have hnumber : ∀ i ∈ rankInsights current previous, magnitude i.changePercent ≠ .nan :=
    fun i hi => magnitude_number.mpr (h i hi)
  have hsort : rankInsights current previous
      = (((candidates current previous).filter fun c => !c.quiet).map Candidate.insight).mergeSort fun i j =>
          decide (rank (magnitude j.changePercent) ≤ rank (magnitude i.changePercent)) := by
    refine mergeSort_congr fun i hi j hj => ?_
    have hni := hnumber i (List.mem_mergeSort.mpr hi)
    have hnj := hnumber j (List.mem_mergeSort.mpr hj)
    rw [Bool.eq_iff_iff, decide_eq_true_eq, ← le_iff_rank hnj hni, Bool.not_eq_true', ← Bool.not_eq_true,
      lt_iff_not_le hni hnj, not_not]
  have hpairwise := @List.pairwise_mergeSort _ (fun i j : Insight =>
      decide (rank (magnitude j.changePercent) ≤ rank (magnitude i.changePercent)))
    (by
      intro a b c hab hbc
      exact decide_eq_true (le_trans (of_decide_eq_true hbc) (of_decide_eq_true hab)))
    (by
      intro a b
      rw [Bool.or_eq_true, decide_eq_true_eq, decide_eq_true_eq]
      exact le_total _ _)
    (((candidates current previous).filter fun c => !c.quiet).map Candidate.insight)
  rw [← hsort] at hpairwise
  refine hpairwise.imp_of_mem fun hi hj hle => ?_
  exact (le_iff_rank (hnumber _ hj) (hnumber _ hi)).mpr (of_decide_eq_true hle)

/-- More than a fifth is more than a tenth. -/
theorem moved_of_twenty_lt {c : Candidate} (h : lt twenty (magnitude c.change) = true) : c.moved = true := by
  obtain ⟨htwenty, hnumber⟩ := number_of_lt h
  have hten : ten ≠ .nan := by simp [ten]
  have hless : rank ten ≤ rank twenty := by
    rw [← le_iff_rank hten htwenty, ten, twenty, le_fin, ten_value, twenty_value]
    norm_num
  rw [Candidate.moved, le_iff_rank hten hnumber]
  exact hless.trans ((lt_iff_rank htwenty hnumber).mp h).le

/-- **The ranking is right** exactly when every measure is one it can read. -/
theorem ranked_iff (current previous : PlatformMetrics) :
    Ranked current previous ↔ ∀ c ∈ candidates current previous, c.Regular := by
  constructor
  · intro h c hc
    -- What is listed moved.
    have hlisted : c.quiet = false → c.moved = true := by
      intro hquiet
      have hmem : c.metric ∈ (rankInsights current previous).map Insight.metric :=
        List.mem_map_of_mem (f := Insight.metric) (mem_rankInsights.mpr ⟨c, hc, hquiet, rfl⟩)
      obtain ⟨d, hd, hmetric⟩ := List.mem_map.mp (h.listed.subset hmem)
      obtain ⟨hd, hmoved⟩ := List.mem_filter.mp hd
      rw [← eq_of_metric hd hc hmetric]
      exact hmoved
    have hmeasured : c.measured := by
      by_contra hnone
      obtain ⟨hquiet, hmoved⟩ := Candidate.unmeasured hnone
      exact absurd (hlisted hquiet) (by rw [hmoved]; decide)
    have hpresent : ¬ (isZero c.current = true ∧ isZero c.previous = true) := by
      intro hzero
      obtain ⟨hquiet, hmoved⟩ := Candidate.zero_twice hzero
      exact absurd (hlisted hquiet) (by rw [hmoved]; decide)
    refine ⟨hmeasured, hpresent, ?_⟩
    intro hfar
    have hquiet : c.quiet = false := by rw [Candidate.quiet_eq hmeasured hpresent, moved_of_twenty_lt hfar, Bool.not_true]
    have hcritical : c.severity = "critical" ↔ c.worsened :=
      h.critical c hc c.insight (mem_rankInsights.mpr ⟨c, hc, hquiet, rfl⟩) rfl
    exact (Candidate.critical_iff hmeasured hpresent (number_of_badWhenHigher hc)).mp hcritical hfar
  · intro h
    refine ⟨?_, ?_, ?_, ?_⟩
    · have hsame : (candidates current previous).filter (fun c => !c.quiet)
          = (candidates current previous).filter Candidate.moved := by
        refine List.filter_congr fun c hc => ?_
        rw [Candidate.quiet_eq (h c hc).measured (h c hc).present, Bool.not_not]
      rw [rankInsights, hsame]
      have hperm := (List.mergeSort_perm (((candidates current previous).filter Candidate.moved).map Candidate.insight)
        fun i j => !lt (magnitude i.changePercent) (magnitude j.changePercent)).map Insight.metric
      rw [List.map_map] at hperm
      exact hperm
    · refine ordered_of_number fun i hi => ?_
      obtain ⟨c, hc, -, rfl⟩ := mem_rankInsights.mp hi
      exact Candidate.change_number_iff.mpr (h c hc).measured
    · intro c hc i hi hmetric
      obtain ⟨d, hd, -, rfl⟩ := mem_rankInsights.mp hi
      obtain rfl := eq_of_metric hd hc hmetric
      exact (Candidate.critical_iff (h d hd).measured (h d hd).present (number_of_badWhenHigher hd)).mpr (h d hd).fromAbove
    · intro i hi
      obtain ⟨c, hc, hquiet, rfl⟩ := mem_rankInsights.mp hi
      have hmoved : c.moved = true := by
        rw [Candidate.quiet_eq (h c hc).measured (h c hc).present] at hquiet
        exact (Bool.not_eq_false' _).mp hquiet
      exact Candidate.distinct_of_moved (h c hc).measured (h c hc).present hmoved

end Ranking

namespace Sample

/-- A week of visits without a conversion, an error or a purchase. -/
def uneventful : PlatformMetrics := ⟨10, 100, 0, 0, .fin zero⟩

def noConversions : Candidate :=
  ⟨"conversions", "전환 변화", "Business Journey에서 이탈이 커진 단계를 확인하세요.", float 0, float 0, false⟩

/-- After another such week, its conversions are listed, zero now as they were before. -/
theorem uneventful_not_ranked : ¬ Ranked uneventful uneventful := by
  intro h
  have hmem : noConversions ∈ candidates uneventful uneventful := by simp [candidates, uneventful, noConversions]
  have hzero : isZero (float 0) = true := by
    have hnearest : nearest ((0 : Int) : ℚ) = 0 := by
      rw [nearest, if_neg (by simp), Int.cast_zero, nearestPos_zero]
    rw [float, ofRat_of_lt (by rw [hnearest, abs_zero]; positivity)]
    exact decide_eq_true hnearest
  obtain ⟨v, hv, -⟩ := isZero_iff.mp hzero
  have hquiet : noConversions.quiet = false := (Candidate.zero_twice ⟨hzero, hzero⟩).1
  refine h.distinct _ (mem_rankInsights.mpr ⟨_, hmem, hquiet, rfl⟩) ?_
  show (le (float 0) (float 0) && le (float 0) (float 0)) = true
  rw [hv, Bool.and_self, le_fin]

end Sample

end Momento.Automation
