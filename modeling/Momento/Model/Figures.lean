/-
  Momento.Model.Figures

  **SHARES AND RATIOS OF A REPORT.**  Counts are whole numbers, their shares are doubles:
  each is the exact share, rounded where the double has no room.  Up to 2^46 the product
  with a hundred is exact, and the only rounding is that of the quotient.
-/
import Momento.Foundation.Binary64Arithmetic
import Momento.Foundation.Buckets

namespace Momento

open Foundation Binary64

/-! ## §1. The figures. -/

/-- `x == 0`. -/
def isZero : Binary64 → Bool
  | .fin x => x.value = 0
  | _ => false

/-- `float64(n)`. -/
def float (n : Int) : Binary64 := ofRat n

/-- `percent`. -/
def percent (part total : Int) : Binary64 :=
  if total = 0 then .fin zero else div (mul (float part) (.fin hundred)) (float total)

/-- `ratio`. -/
def ratio (numerator denominator : Binary64) : Binary64 :=
  if isZero denominator then .fin zero else div numerator denominator

/-- `percent` before anything is rounded. -/
def exactPercent (part total : Nat) : ℚ := if total = 0 then 0 else (part : ℚ) * 100 / total

/-! ## §2. How exact a share is. -/

theorem exactPercent_nonneg (part total : Nat) : 0 ≤ exactPercent part total := by
  unfold exactPercent
  split
  · exact le_rfl
  · positivity

theorem exactPercent_le {part total : Nat} (h : part ≤ total) : exactPercent part total ≤ 100 := by
  unfold exactPercent
  by_cases hzero : total = 0
  · rw [if_pos hzero]
    norm_num
  · rw [if_neg hzero]
    have htotal : (0 : ℚ) < total := Nat.cast_pos.mpr (Nat.pos_of_ne_zero hzero)
    have hpart : (part : ℚ) ≤ total := Nat.cast_le.mpr h
    rw [div_le_iff₀ htotal]
    linarith

/-- A natural number below 2^53 is its own double. -/
theorem ofRat_natCast {m : Nat} (h : m < 2 ^ 53) : ofRat (m : ℚ) = .fin (ofNat m h) := by
  have hnearest : nearest (m : ℚ) = m := (ofNat m h).exact
  have hbounded : |nearest (m : ℚ)| < 2 ^ 1024 := by
    rw [hnearest]
    exact (ofNat m h).bounded
  rw [ofRat_of_lt hbounded, Binary64.fin.injEq, FiniteDouble.mk.injEq]
  exact hnearest

/-- A share of counts up to 2^46 is rounded once. -/
theorem percent_eq {part total : Nat} (hpart : part ≤ total) (hne : total ≠ 0) (hsmall : total ≤ 2 ^ 46) :
    percent part total = ofRat (exactPercent part total) := by
  have htotal : total < 2 ^ 53 := by omega
  have hproduct : part * 100 < 2 ^ 53 := by omega
  have hmul : mul (float part) (.fin hundred) = .fin (ofNat (part * 100) hproduct) := by
    have hfloat : float part = .fin (ofNat part (by omega)) := by
      have hpart : float part = ofRat (part : ℚ) := by
        unfold float
        push_cast
        rfl
      rw [hpart, ofRat_natCast (by omega)]
    rw [hfloat, ← ofRat_natCast hproduct]
    show ofRat (((part : Nat) : ℚ) * ((100 : Nat) : ℚ)) = _
    push_cast
    rfl
  have hdivisor : float total = .fin (ofNat total htotal) := by
    have hcast : float total = ofRat (total : ℚ) := by
      unfold float
      push_cast
      rfl
    rw [hcast, ofRat_natCast htotal]
  unfold percent exactPercent
  rw [if_neg (by exact_mod_cast hne), if_neg hne, hmul, hdivisor]
  show (if ((total : Nat) : ℚ) ≠ 0 then ofRat (((part * 100 : Nat) : ℚ) / ((total : Nat) : ℚ)) else _) = _
  rw [if_pos (Nat.cast_ne_zero.mpr hne)]
  push_cast
  rfl

/-- **A share is the exact one**, but for a part in 2^53. -/
theorem percent_near {part total : Nat} (hpart : part ≤ total) (hne : total ≠ 0) (hsmall : total ≤ 2 ^ 46) :
    ∃ x : FiniteDouble, percent part total = .fin x
      ∧ |x.value - exactPercent part total| ≤ exactPercent part total / 2 ^ 53 := by
  have hnonneg := exactPercent_nonneg part total
  have habs : |exactPercent part total| ≤ 2 ^ 7 := by
    rw [abs_of_nonneg hnonneg]
    exact (exactPercent_le hpart).trans (by norm_num)
  obtain ⟨x, hx, hvalue, -⟩ := ofRat_of_abs_le (k := 7) (by norm_num) habs
  refine ⟨x, (percent_eq hpart hne hsmall).trans hx, ?_⟩
  rw [hvalue, nearest, if_neg (not_lt.mpr hnonneg)]
  rcases Nat.eq_zero_or_pos part with rfl | hpos
  · have hzero : exactPercent 0 total = 0 := by
      unfold exactPercent
      rw [if_neg hne, Nat.cast_zero, zero_mul, zero_div]
    rw [hzero, nearestPos_zero]
    norm_num
  · refine abs_nearestPos_sub_le ?_
    -- a share of something is no subnormal
    have htotal : (0 : ℚ) < total := Nat.cast_pos.mpr (Nat.pos_of_ne_zero hne)
    have hbound : (total : ℚ) ≤ 2 ^ 46 := by exact_mod_cast hsmall
    have hone : (1 : ℚ) ≤ part := by exact_mod_cast hpos
    unfold exactPercent
    rw [if_neg hne, le_div_iff₀ htotal]
    calc (2 : ℚ) ^ (-1022 : ℤ) * total ≤ 2 ^ (-1022 : ℤ) * 2 ^ 46 :=
          mul_le_mul_of_nonneg_left hbound (two_zpow_pos _).le
      _ = 2 ^ (-976 : ℤ) := by
          rw [← zpow_natCast, ← zpow_add₀ (by norm_num)]
          norm_num
      _ ≤ 1 := zpow_le_one_of_nonpos₀ (by norm_num) (by norm_num)
      _ ≤ part * 100 := by linarith

/-! ## §3. The shares of a whole. -/

/-- Doubles that come to a hundred, but for a part in 2^53. -/
def AddUp (shares : List Binary64) : Prop :=
  ∃ xs : List FiniteDouble, shares = xs.map Binary64.fin
    ∧ |(xs.map FiniteDouble.value).sum - 100| ≤ 100 / 2 ^ 53

theorem percents_near {α : Type} {count : α → Nat} {total : Nat} (hne : total ≠ 0) (hsmall : total ≤ 2 ^ 46)
    (rows : List α) (hrows : ∀ r ∈ rows, count r ≤ total) :
    ∃ xs : List FiniteDouble, rows.map (fun r => percent (count r) total) = xs.map Binary64.fin
      ∧ |(xs.map FiniteDouble.value).sum - (rows.map fun r => exactPercent (count r) total).sum|
          ≤ (rows.map fun r => exactPercent (count r) total).sum / 2 ^ 53 := by
  induction rows with
  | nil => exact ⟨[], rfl, by simp⟩
  | cons r rows ih =>
    obtain ⟨xs, hxs, herror⟩ := ih fun r hr => hrows r (List.mem_cons_of_mem _ hr)
    obtain ⟨x, hx, hone⟩ := percent_near (hrows r List.mem_cons_self) hne hsmall
    refine ⟨x :: xs, by rw [List.map_cons, List.map_cons, hx, hxs], ?_⟩
    simp only [List.map_cons, List.sum_cons]
    rw [add_sub_add_comm, add_div]
    exact (abs_add_le _ _).trans (add_le_add hone herror)

/-- **The shares of a whole come to a hundred.** -/
theorem percents_addUp {α : Type} {count : α → Nat} {rows : List α} {total : Nat}
    (h : (rows.map count).sum = total) (hne : total ≠ 0) (hsmall : total ≤ 2 ^ 46) :
    AddUp (rows.map fun r => percent (count r) total) := by
  have hrows : ∀ r ∈ rows, count r ≤ total := by
    intro r hr
    rw [← h]
    exact List.single_le_sum (fun _ _ => Nat.zero_le _) _ (List.mem_map_of_mem hr)
  have hexact : (rows.map fun r => exactPercent (count r) total).sum = 100 := by
    rw [← sum_shares h hne]
    congr 1
    exact List.map_congr_left fun r _ => if_neg hne
  have hnear := percents_near hne hsmall rows hrows
  rw [hexact] at hnear
  exact hnear

end Momento
