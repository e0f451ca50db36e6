/-
  Momento.Foundation.Binary64Order

  **WHICH DOUBLE IS LARGER, AND ON WHICH SIDE OF ZERO A RESULT LIES.**  Apart from NaN
  the doubles are in order like the rationals with two infinities around them.  A
  rounded result lies on the side of zero the exact one lies on, or is zero.

      rank     — a number among the rationals and the two infinities
      OnSide   — not above zero, or not below it
-/
import Momento.Foundation.Binary64Arithmetic
import Mathlib.Order.WithBot
import Mathlib.Tactic.LinearCombination

namespace Foundation.Binary64

/-! ## §1. Numbers in order. -/

/-- Where a number stands; NaN has no place, and gets the lowest. -/
def rank : Binary64 → WithBot (WithTop ℚ)
  | .nan | .inf true => ⊥
  | .fin x => ((x.value : WithTop ℚ) : WithBot (WithTop ℚ))
  | .inf false => ((⊤ : WithTop ℚ) : WithBot (WithTop ℚ))

/-- **Numbers compare as their ranks do.** -/
theorem le_iff_rank {x y : Binary64} (hx : x ≠ .nan) (hy : y ≠ .nan) : le x y = true ↔ rank x ≤ rank y := by
  cases x with
  | nan => exact absurd rfl hx
  | inf a =>
    cases y with
    | nan => exact absurd rfl hy
    | inf b => cases a <;> cases b <;> simp [le, rank]
    | fin v => cases a <;> simp [le, rank]
  | fin u =>
    cases y with
    | nan => exact absurd rfl hy
    | inf b => cases b <;> simp [le, rank]
    | fin v => simp [le, rank]

theorem lt_iff_not_le {x y : Binary64} (hx : x ≠ .nan) (hy : y ≠ .nan) : lt x y = true ↔ ¬ le y x = true := by
  cases x with
  | nan => exact absurd rfl hx
  | inf a =>
    cases y with
    | nan => exact absurd rfl hy
    | inf b => simp [lt]
    | fin v => simp [lt]
  | fin u =>
    cases y with
    | nan => exact absurd rfl hy
    | inf b => simp [lt]
    | fin v =>
      show (!le (.fin v) (.fin u)) = true ↔ _
      rw [Bool.not_eq_true', Bool.not_eq_true]

/-- So do they strictly. -/
theorem lt_iff_rank {x y : Binary64} (hx : x ≠ .nan) (hy : y ≠ .nan) : lt x y = true ↔ rank x < rank y := by
  rw [lt_iff_not_le hx hy, le_iff_rank hy hx, not_le]

theorem le_of_lt {x y : Binary64} (h : lt x y = true) : le x y = true := by
  cases x with
  | nan => cases h
  | inf a =>
    cases y with
    | nan => cases h
    | inf b => cases a <;> cases b <;> first | rfl | cases h
    | fin v => cases a <;> first | rfl | cases h
  | fin u =>
    cases y with
    | nan => cases h
    | inf b => cases b <;> first | rfl | cases h
    | fin v =>
      have hlt : ¬ v.value ≤ u.value := by simpa [lt, le] using h
      exact decide_eq_true (not_le.mp hlt).le

/-- What is compared and found smaller is a number, like what it is compared with. -/
theorem number_of_le {x y : Binary64} (h : le x y = true) : x ≠ .nan ∧ y ≠ .nan := by
  constructor
  · rintro rfl
    cases h
  · rintro rfl
    cases x <;> cases h

theorem number_of_lt {x y : Binary64} (h : lt x y = true) : x ≠ .nan ∧ y ≠ .nan := number_of_le (le_of_lt h)

/-! ## §2. The negative of a finite double. -/

theorem nearest_neg_value (x : FiniteDouble) : nearest (-x.value) = -x.value := by
  obtain hx | hx := le_total 0 x.value
  · rw [nearest_neg hx, x.exact]
  · have hback := nearest_neg (neg_nonneg.mpr hx)
    rw [neg_neg, x.exact] at hback
    linarith

theorem neg_fin (x : FiniteDouble) : ∃ y : FiniteDouble, neg (.fin x) = .fin y ∧ y.value = -x.value := by
  have hbounded : |nearest (-x.value)| < 2 ^ 1024 := by
    rw [nearest_neg_value, abs_neg]
    exact x.bounded
  exact ⟨_, ofRat_of_lt hbounded, nearest_neg_value x⟩

/-! ## §3. The side of zero. -/

/-- Not above zero if `negative`, and else not below it. -/
def OnSide (negative : Bool) (x : Binary64) : Prop :=
  if negative then le x (.fin zero) = true else le (.fin zero) x = true

theorem zero_value : zero.value = 0 := by simp [zero, ofNat]

@[simp] theorem onSide_fin (negative : Bool) (x : FiniteDouble) :
    OnSide negative (.fin x) ↔ if negative then x.value ≤ 0 else 0 ≤ x.value := by
  cases negative
  · show le _ _ = true ↔ 0 ≤ x.value
    rw [le_fin, zero_value]
  · show le _ _ = true ↔ x.value ≤ 0
    rw [le_fin, zero_value]

@[simp] theorem onSide_inf (negative a : Bool) : OnSide negative (.inf a) ↔ a = negative := by
  cases negative <;> cases a <;> simp [OnSide, le]

theorem not_onSide_nan (negative : Bool) : ¬ OnSide negative .nan := by
  cases negative <;> simp [OnSide, le]

theorem OnSide.number {negative : Bool} {x : Binary64} (h : OnSide negative x) : x ≠ .nan := by
  rintro rfl
  exact not_onSide_nan negative h

/-- **Rounding keeps the side of zero.** -/
theorem onSide_ofRat {negative : Bool} {q : ℚ} (h : if negative then q ≤ 0 else 0 ≤ q) : OnSide negative (ofRat q) := by
  unfold ofRat
  split
  · rw [onSide_fin]
    cases negative with
    | false =>
      have hq : ¬ q < 0 := not_lt.mpr h
      show 0 ≤ nearest q
      rw [nearest, if_neg hq]
      exact nearestPos_nonneg h
    | true =>
      show nearest q ≤ 0
      obtain rfl | hq := (show q ≤ 0 from h).eq_or_lt
      · rw [nearest, if_neg (lt_irrefl 0), nearestPos_zero]
      · rw [nearest, if_pos hq]
        exact neg_nonpos.mpr (nearestPos_nonneg (neg_nonneg.mpr hq.le))
  · rename_i hlarge
    rw [onSide_inf]
    cases negative with
    | false => exact decide_eq_false (not_lt.mpr h)
    | true =>
      refine decide_eq_true (lt_of_le_of_ne h ?_)
      -- Zero is not past the largest double.
      rintro rfl
      refine hlarge ?_
      rw [nearest, if_neg (lt_irrefl 0), nearestPos_zero, abs_zero]
      exact pow_pos two_pos 1024

/-- The difference of what is smaller from what is larger. -/
theorem onSide_sub {x : Binary64} {y : FiniteDouble} (h : le (.fin y) x = true) : OnSide false (sub x (.fin y)) := by
  obtain ⟨z, hz, hvalue⟩ := neg_fin y
  rw [sub, hz]
  cases x with
  | nan => cases h
  | inf a =>
    cases a with
    | false => rw [add, onSide_inf]
    | true => cases h
  | fin v =>
    rw [le_fin] at h
    apply onSide_ofRat
    show 0 ≤ v.value + z.value
    rw [hvalue]
    linarith

theorem onSide_sub_neg {x : Binary64} {y : FiniteDouble} (h : le x (.fin y) = true) : OnSide true (sub x (.fin y)) := by
  obtain ⟨z, hz, hvalue⟩ := neg_fin y
  rw [sub, hz]
  cases x with
  | nan => cases h
  | inf a =>
    cases a with
    | false => cases h
    | true => rw [add, onSide_inf]
  | fin v =>
    rw [le_fin] at h
    apply onSide_ofRat
    show v.value + z.value ≤ 0
    rw [hvalue]
    linarith

/-- A positive factor keeps the side. -/
theorem OnSide.mul {negative : Bool} {x : Binary64} (h : OnSide negative x) {y : FiniteDouble} (hy : 0 < y.value) :
    OnSide negative (mul x (.fin y)) := by
  cases x with
  | nan => exact absurd h (not_onSide_nan negative)
  | inf a =>
    rw [onSide_inf] at h
    rw [Binary64.mul, if_neg hy.ne', decide_eq_false (not_lt.mpr hy.le), Bool.xor_false, onSide_inf]
    exact h
  | fin v =>
    rw [onSide_fin] at h
    refine onSide_ofRat ?_
    cases negative with
    | false => exact mul_nonneg h hy.le
    | true => exact mul_nonpos_of_nonpos_of_nonneg h hy.le

/-- A negative divisor turns it over. -/
theorem OnSide.div {negative : Bool} {x : Binary64} (h : OnSide negative x) {y : FiniteDouble} (hy : y.value ≠ 0) :
    OnSide (negative ^^ decide (y.value < 0)) (div x (.fin y)) := by
  cases x with
  | nan => exact absurd h (not_onSide_nan negative)
  | inf a =>
    rw [onSide_inf] at h
    rw [Binary64.div, onSide_inf, h]
  | fin v =>
    rw [onSide_fin] at h
    rw [Binary64.div, if_pos hy]
    refine onSide_ofRat ?_
    obtain hneg | hpos := lt_or_gt_of_ne hy
    · rw [decide_eq_true hneg]
      cases negative with
      | false => exact div_nonpos_of_nonneg_of_nonpos h hneg.le
      | true => exact div_nonneg_of_nonpos h hneg.le
    · rw [decide_eq_false (not_lt.mpr hpos.le)]
      cases negative with
      | false => exact div_nonneg h hpos.le
      | true => exact div_nonpos_of_nonpos_of_nonneg h hpos.le

/-- What lies on both sides is zero. -/
theorem eq_zero_of_onSide {x : Binary64} (hneg : OnSide true x) (hpos : OnSide false x) :
    ∃ v : FiniteDouble, x = .fin v ∧ v.value = 0 := by
  cases x with
  | nan => exact absurd hneg (not_onSide_nan true)
  | inf a =>
    rw [onSide_inf] at hneg hpos
    exact absurd (hneg.symm.trans hpos) (by decide)
  | fin v =>
    rw [onSide_fin] at hneg hpos
    exact ⟨v, rfl, le_antisymm hneg hpos⟩

/-! ## §4. How large a result is. -/

theorem abs_nearest (q : ℚ) : |nearest q| = nearestPos |q| := by
  by_cases hq : q < 0
  · rw [nearest, if_pos hq, abs_neg, abs_of_neg hq, abs_of_nonneg (nearestPos_nonneg (neg_nonneg.mpr hq.le))]
  · have hpos := not_lt.mp hq
    rw [nearest, if_neg hq, abs_of_nonneg hpos, abs_of_nonneg (nearestPos_nonneg hpos)]

theorem nearestPos_abs_value (x : FiniteDouble) : nearestPos |x.value| = |x.value| := by
  rw [← abs_nearest, x.exact]

/-- A power of two more is a double again, as long as there is one. -/
theorem nearestPos_two_pow_mul {v : ℚ} (hpos : 0 < v) (hv : nearestPos v = v) (k : ℕ) :
    nearestPos (2 ^ k * v) = 2 ^ k * v := by
  have hbits : 2 ^ k * v = roundHalfEven (v / 2 ^ exponent v) * 2 ^ (exponent v + k) := by
    have hexact : v = roundHalfEven (v / 2 ^ exponent v) * 2 ^ exponent v := hv.symm
    rw [zpow_add₀ (by norm_num), zpow_natCast]
    linear_combination 2 ^ k * hexact
  have hexp : exponent (2 ^ k * v) ≤ exponent v + k := by
    have hlt : 2 ^ k * v < 2 ^ (Int.log 2 v + 1 + k) := by
      rw [zpow_add₀ (by norm_num) _ (k : ℤ), zpow_natCast, mul_comm]
      exact mul_lt_mul_of_pos_right (lt_two_zpow_log v) (by positivity)
    have hlog := log_lt_of_lt (by positivity) hlt
    unfold exponent
    omega
  exact nearestPos_of_multiple _ (multiple_of_le hbits hexp)

end Foundation.Binary64
