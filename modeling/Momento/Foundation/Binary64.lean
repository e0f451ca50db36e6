/-
  Momento.Foundation.Binary64

  **BINARY64 BY ITS VALUES.**  A double is NaN, an infinity, or a rational that
  rounding to nearest-even leaves alone; the last part is a field of the value,
  so a rational that no double holds cannot be written as one.  `ofRat` is the
  correctly rounded value of a rational, and a product is the rounded product.

  `shortest` is the decimal a printer with "as many digits as needed" writes.
  The two roundings of PostgreSQL's `numeric` stand beside it: to an integer and
  to a fixed number of decimals, both half away from zero.
-/
import Mathlib.Data.Int.Log
import Mathlib.Data.Rat.Floor
import Mathlib.Tactic.FieldSimp
import Mathlib.Tactic.Linarith
import Mathlib.Tactic.Ring
import Mathlib.Tactic.Positivity
import Mathlib.Tactic.NormNum

namespace Foundation

/-! ## §1. Rounding a rational to an integer. -/

/-- To the nearest integer, ties to the even one. -/
def roundHalfEven (q : ℚ) : ℤ :=
  if q - ⌊q⌋ < 1 / 2 then ⌊q⌋
  else if 1 / 2 < q - ⌊q⌋ then ⌊q⌋ + 1
  else if ⌊q⌋ % 2 = 0 then ⌊q⌋ else ⌊q⌋ + 1

/-- To the nearest integer, ties away from zero (`numeric::bigint`). -/
def roundHalfAway (q : ℚ) : ℤ :=
  if q < 0 then -⌊-q + 1 / 2⌋ else ⌊q + 1 / 2⌋

/-- To `scale` decimals, ties away from zero (`numeric(p, scale)`). -/
def roundToScale (scale : ℕ) (q : ℚ) : ℚ :=
  roundHalfAway (q * 10 ^ scale) / 10 ^ scale

theorem roundHalfEven_intCast (n : ℤ) : roundHalfEven (n : ℚ) = n := by
  simp [roundHalfEven]

theorem roundHalfAway_intCast (n : ℤ) : roundHalfAway (n : ℚ) = n := by
  have hfloor : ∀ m : ℤ, ⌊(m : ℚ) + 1 / 2⌋ = m := by
    intro m
    rw [Int.floor_eq_iff]
    constructor <;> linarith
  unfold roundHalfAway
  split
  · have h := hfloor (-n)
    push_cast at h
    rw [h]
    omega
  · exact hfloor n

/-- The rounding error is a half at most. -/
theorem abs_roundHalfAway_sub_le (q : ℚ) : |(roundHalfAway q : ℚ) - q| ≤ 1 / 2 := by
  unfold roundHalfAway
  split
  · have hlow := Int.floor_le (-q + 1 / 2)
    have hhigh := Int.lt_floor_add_one (-q + 1 / 2)
    rw [abs_le]
    push_cast
    constructor <;> linarith
  · have hlow := Int.floor_le (q + 1 / 2)
    have hhigh := Int.lt_floor_add_one (q + 1 / 2)
    rw [abs_le]
    constructor <;> linarith

theorem abs_roundToScale_sub_le (scale : ℕ) (q : ℚ) :
    |roundToScale scale q - q| ≤ 1 / 2 / 10 ^ scale := by
  have hpos : (0 : ℚ) < 10 ^ scale := by positivity
  have herror := abs_roundHalfAway_sub_le (q * 10 ^ scale)
  have hsub : roundToScale scale q - q
      = ((roundHalfAway (q * 10 ^ scale) : ℚ) - q * 10 ^ scale) / 10 ^ scale := by
    unfold roundToScale
    field_simp
  rw [hsub, abs_div, abs_of_pos hpos]
  gcongr

/-- What `scale` decimals can write is kept. -/
theorem roundToScale_eq_self_iff {scale : ℕ} {q : ℚ} :
    roundToScale scale q = q ↔ ∃ n : ℤ, q * 10 ^ scale = n := by
  have hne : (10 : ℚ) ^ scale ≠ 0 := by positivity
  unfold roundToScale
  rw [div_eq_iff hne]
  constructor
  · intro h
    exact ⟨_, h.symm⟩
  · rintro ⟨n, hn⟩
    rw [hn, roundHalfAway_intCast]

theorem roundToScale_add {scale : ℕ} {p q : ℚ} (hp : roundToScale scale p = p)
    (hq : roundToScale scale q = q) : roundToScale scale (p + q) = p + q := by
  obtain ⟨m, hm⟩ := roundToScale_eq_self_iff.mp hp
  obtain ⟨n, hn⟩ := roundToScale_eq_self_iff.mp hq
  refine roundToScale_eq_self_iff.mpr ⟨m + n, ?_⟩
  rw [add_mul, hm, hn]
  push_cast
  rfl

@[simp] theorem roundToScale_zero (scale : ℕ) : roundToScale scale 0 = 0 :=
  roundToScale_eq_self_iff.mpr ⟨0, by simp⟩

/-- Rounding does not pass an integer from below. -/
theorem roundHalfEven_le {q : ℚ} {m : ℤ} (h : q ≤ m) : roundHalfEven q ≤ m := by
  have hfloor : ⌊q⌋ ≤ m := Int.floor_le_iff.mpr (by linarith)
  unfold roundHalfEven
  by_cases heq : ⌊q⌋ = m
  · have hq : q = m := le_antisymm h (by rw [← heq]; exact Int.floor_le q)
    have hsmall : q - ⌊q⌋ < 1 / 2 := by rw [heq, hq]; norm_num
    rw [if_pos hsmall]
    exact hfloor
  · have hlt : ⌊q⌋ + 1 ≤ m := by omega
    split
    · exact hfloor
    split
    · exact hlt
    split
    · exact hfloor
    · exact hlt

/-- Nor from above. -/
theorem le_roundHalfEven {q : ℚ} {m : ℤ} (h : (m : ℚ) ≤ q) : m ≤ roundHalfEven q := by
  have hfloor : m ≤ ⌊q⌋ := Int.le_floor.mpr h
  unfold roundHalfEven
  split
  · exact hfloor
  split
  · omega
  split
  · exact hfloor
  · omega

/-! ## §2. Rounding to 53 significant bits. -/

namespace Binary64

/-- The exponent of the last bit kept of a positive `q`. -/
def exponent (q : ℚ) : ℤ := max (Int.log 2 q - 52) (-1074)

/-- The rounded value of a nonnegative `q`, the exponent range unbounded above. -/
def nearestPos (q : ℚ) : ℚ := roundHalfEven (q / 2 ^ exponent q) * 2 ^ exponent q

/-- The rounded value of `q`. -/
def nearest (q : ℚ) : ℚ := if q < 0 then -nearestPos (-q) else nearestPos q

theorem two_zpow_pos (e : ℤ) : (0 : ℚ) < 2 ^ e := zpow_pos (by norm_num) e

@[simp] theorem nearestPos_zero : nearestPos 0 = 0 := by
  have h := roundHalfEven_intCast 0
  simp only [Int.cast_zero] at h
  simp [nearestPos, h]

theorem nearestPos_nonneg {q : ℚ} (h : 0 ≤ q) : 0 ≤ nearestPos q := by
  have hdiv : ((0 : ℤ) : ℚ) ≤ q / 2 ^ exponent q := by
    simpa using div_nonneg h (two_zpow_pos _).le
  have hround : (0 : ℚ) ≤ roundHalfEven (q / 2 ^ exponent q) := by
    exact_mod_cast le_roundHalfEven hdiv
  exact mul_nonneg hround (two_zpow_pos _).le

/-- A multiple of its own last bit is kept. -/
theorem nearestPos_of_multiple {r : ℚ} (k : ℤ) (h : r = k * 2 ^ exponent r) :
    nearestPos r = r := by
  have hdiv : r / 2 ^ exponent r = k := by
    rw [div_eq_iff (two_zpow_pos _).ne']
    exact h
  unfold nearestPos
  rw [hdiv, roundHalfEven_intCast]
  exact h.symm

/-- A multiple of `2 ^ e` is a multiple of every smaller power. -/
theorem multiple_of_le {r : ℚ} {k e e' : ℤ} (h : r = k * 2 ^ e) (hle : e' ≤ e) :
    r = (k * 2 ^ (e - e').toNat : ℤ) * 2 ^ e' := by
  push_cast
  have hsplit : (2 : ℚ) ^ e = 2 ^ (e - e').toNat * 2 ^ e' := by
    rw [← zpow_natCast, ← zpow_add₀ (by norm_num)]
    congr 1
    omega
  rw [h, hsplit]
  ring

theorem two_zpow_53_add (e : ℤ) : (2 : ℚ) ^ (53 + e) = 2 ^ 53 * 2 ^ e := by
  rw [zpow_add₀ (by norm_num)]
  congr 1

theorem lt_two_zpow_log (q : ℚ) : q < 2 ^ (Int.log 2 q + 1) := by
  have h := Int.lt_zpow_succ_log_self (b := 2) (by norm_num) q
  exact_mod_cast h

theorem log_lt_of_lt {q : ℚ} (hq : 0 < q) {e : ℤ} (h : q < 2 ^ e) : Int.log 2 q < e := by
  by_contra hge
  have hlow := Int.zpow_log_le_self (b := 2) (by norm_num) hq
  push_cast at hlow
  have hmono : (2 : ℚ) ^ e ≤ 2 ^ Int.log 2 q := zpow_le_zpow_right₀ (by norm_num) (by omega)
  linarith

/-- **Rounding is idempotent.** -/
theorem nearestPos_idem {q : ℚ} (hq : 0 ≤ q) : nearestPos (nearestPos q) = nearestPos q := by
  rcases hq.eq_or_lt with rfl | hpos
  · simp
  -- the rounded significand `n` of `q`, at most 2^53
  obtain ⟨e, he⟩ : ∃ e, e = exponent q := ⟨_, rfl⟩
  obtain ⟨n, hn⟩ : ∃ n, n = roundHalfEven (q / 2 ^ e) := ⟨_, rfl⟩
  have hr : nearestPos q = n * 2 ^ e := by rw [hn, he]; rfl
  have hemin : -1074 ≤ e := by rw [he]; exact le_max_right _ _
  have helog : Int.log 2 q - 52 ≤ e := by rw [he]; exact le_max_left _ _
  have hn53 : n ≤ 2 ^ 53 := by
    rw [hn]
    apply roundHalfEven_le
    rw [div_le_iff₀ (two_zpow_pos e)]
    have hup : (2 : ℚ) ^ (Int.log 2 q + 1) ≤ 2 ^ (53 + e) :=
      zpow_le_zpow_right₀ (by norm_num) (by omega)
    rw [two_zpow_53_add] at hup
    have hlt := lt_two_zpow_log q
    push_cast
    linarith
  have hn0 : 0 ≤ n := by
    have hdiv : ((0 : ℤ) : ℚ) ≤ q / 2 ^ e := by
      simpa using div_nonneg hq (two_zpow_pos e).le
    rw [hn]
    exact le_roundHalfEven hdiv
  rw [hr]
  rcases hn0.eq_or_lt with h0 | hnpos
  · simp [← h0]
  have hrpos : (0 : ℚ) < n * 2 ^ e := mul_pos (by exact_mod_cast hnpos) (two_zpow_pos e)
  have hexp : exponent (n * 2 ^ e : ℚ) = max (Int.log 2 (n * 2 ^ e : ℚ) - 52) (-1074) := rfl
  rcases hn53.eq_or_lt with htop | hsmall
  · -- the significand rounded up to a power of two: one bit less is enough
    have hpow : (n * 2 ^ e : ℚ) = 2 ^ (53 + e) := by
      rw [htop, two_zpow_53_add]
      norm_num
    have hlog : Int.log 2 (n * 2 ^ e : ℚ) < 53 + e + 1 :=
      log_lt_of_lt hrpos (by
        rw [hpow]; exact zpow_lt_zpow_right₀ (by norm_num) (by omega))
    have hpow' : (n * 2 ^ e : ℚ) = (2 ^ 52 : ℤ) * 2 ^ (e + 1) := by
      rw [hpow, show 53 + e = 52 + (e + 1) by ring, zpow_add₀ (by norm_num)]
      norm_num
    exact nearestPos_of_multiple _ (multiple_of_le hpow' (by rw [hexp]; omega))
  · have hlt : (n * 2 ^ e : ℚ) < 2 ^ (53 + e) := by
      rw [two_zpow_53_add]
      refine mul_lt_mul_of_pos_right ?_ (two_zpow_pos e)
      have : (n : ℚ) < ((2 ^ 53 : ℤ) : ℚ) := by exact_mod_cast hsmall
      push_cast at this
      exact this
    have hlog := log_lt_of_lt hrpos hlt
    exact nearestPos_of_multiple _ (multiple_of_le rfl (by rw [hexp]; omega))

theorem nearest_neg {q : ℚ} (h : 0 ≤ q) : nearest (-q) = -nearest q := by
  rcases h.eq_or_lt with rfl | hpos
  · simp [nearest]
  · simp [nearest, hpos, hpos.not_gt]

/-- **Rounding is idempotent**, on both sides of zero. -/
theorem nearest_idem (q : ℚ) : nearest (nearest q) = nearest q := by
  have hnonneg : ∀ r : ℚ, 0 ≤ r → nearest (nearest r) = nearest r := by
    intro r hr
    have hn : nearest r = nearestPos r := by simp [nearest, hr.not_gt]
    rw [hn]
    simp [nearest, (nearestPos_nonneg hr).not_gt, nearestPos_idem hr]
  rcases le_or_gt 0 q with h | h
  · exact hnonneg q h
  · have hq : q = -(-q) := by ring
    have h0 : 0 ≤ -q := by linarith
    have hpos : 0 ≤ nearest (-q) := by
      simpa [nearest, h0.not_gt] using nearestPos_nonneg h0
    rw [hq, nearest_neg h0, nearest_neg hpos, hnonneg _ h0]

/-! ## §3. Integers below 2^53 are exact, and rounding respects them. -/

theorem exponent_nonpos {q : ℚ} (hq : 0 < q) {m : ℕ} (h : q ≤ m) (hm : m < 2 ^ 53) :
    exponent q ≤ 0 := by
  have hlt : q < 2 ^ (53 : ℤ) := by
    have : (m : ℚ) < ((2 ^ 53 : ℕ) : ℚ) := by exact_mod_cast hm
    push_cast at this
    calc q ≤ m := h
      _ < 2 ^ 53 := this
      _ = 2 ^ (53 : ℤ) := by norm_num
  have hlog := log_lt_of_lt hq hlt
  unfold exponent
  omega

/-- **Rounding does not pass a multiple of a power of two** that is no finer than the
last bit kept, from below, -/
theorem nearestPos_le_multiple {q r : ℚ} (h : q ≤ r) {k e : ℤ} (hr : r = k * 2 ^ e) (he : exponent q ≤ e) :
    nearestPos q ≤ r := by
  have hint := multiple_of_le hr he
  have hdiv : q / 2 ^ exponent q ≤ ((k * 2 ^ (e - exponent q).toNat : ℤ) : ℚ) := by
    rw [div_le_iff₀ (two_zpow_pos _), ← hint]
    exact h
  have hround : (roundHalfEven (q / 2 ^ exponent q) : ℚ) ≤ ((k * 2 ^ (e - exponent q).toNat : ℤ) : ℚ) := by
    exact_mod_cast roundHalfEven_le hdiv
  calc nearestPos q ≤ ((k * 2 ^ (e - exponent q).toNat : ℤ) : ℚ) * 2 ^ exponent q :=
        mul_le_mul_of_nonneg_right hround (two_zpow_pos _).le
    _ = r := hint.symm

/-- nor from above. -/
theorem multiple_le_nearestPos {q r : ℚ} (h : r ≤ q) {k e : ℤ} (hr : r = k * 2 ^ e) (he : exponent q ≤ e) :
    r ≤ nearestPos q := by
  have hint := multiple_of_le hr he
  have hdiv : ((k * 2 ^ (e - exponent q).toNat : ℤ) : ℚ) ≤ q / 2 ^ exponent q := by
    rw [le_div_iff₀ (two_zpow_pos _), ← hint]
    exact h
  have hround : ((k * 2 ^ (e - exponent q).toNat : ℤ) : ℚ) ≤ (roundHalfEven (q / 2 ^ exponent q) : ℚ) := by
    exact_mod_cast le_roundHalfEven hdiv
  calc r = ((k * 2 ^ (e - exponent q).toNat : ℤ) : ℚ) * 2 ^ exponent q := hint
    _ ≤ nearestPos q := mul_le_mul_of_nonneg_right hround (two_zpow_pos _).le

theorem nearestPos_le {q : ℚ} (hq : 0 ≤ q) {m : ℕ} (h : q ≤ m) (hm : m < 2 ^ 53) :
    nearestPos q ≤ m := by
  rcases hq.eq_or_lt with rfl | hpos
  · simp
  exact nearestPos_le_multiple (k := m) (e := 0) h (by simp) (exponent_nonpos hpos h hm)

/-- Nor does it pass a power of two. -/
theorem nearestPos_le_two_pow {q : ℚ} (hq : 0 ≤ q) {k : ℕ} (h : q ≤ 2 ^ k) :
    nearestPos q ≤ 2 ^ k := by
  rcases hq.eq_or_lt with rfl | hpos
  · simp
  have hlog : Int.log 2 q < k + 1 := by
    refine log_lt_of_lt hpos (h.trans_lt ?_)
    rw [← zpow_natCast]
    exact zpow_lt_zpow_right₀ (by norm_num) (by omega)
  have he : exponent q ≤ k := by
    unfold exponent
    omega
  exact nearestPos_le_multiple (k := 1) (e := k) h (by simp) he

theorem abs_nearest_le_two_pow {q : ℚ} {k : ℕ} (h : |q| ≤ 2 ^ k) : |nearest q| ≤ 2 ^ k := by
  obtain ⟨hlow, hhigh⟩ := abs_le.mp h
  by_cases hneg : q < 0
  · have h0 : 0 ≤ -q := by linarith
    rw [nearest, if_pos hneg, abs_neg, abs_of_nonneg (nearestPos_nonneg h0)]
    exact nearestPos_le_two_pow h0 (by linarith)
  · have h0 : 0 ≤ q := not_lt.mp hneg
    rw [nearest, if_neg hneg, abs_of_nonneg (nearestPos_nonneg h0)]
    exact nearestPos_le_two_pow h0 hhigh

theorem nearestPos_natCast {m : ℕ} (hm : m < 2 ^ 53) : nearestPos m = m := by
  rcases Nat.eq_zero_or_pos m with rfl | hpos
  · simp
  · have he := exponent_nonpos (q := (m : ℚ)) (by exact_mod_cast hpos) le_rfl hm
    exact nearestPos_of_multiple _ (multiple_of_le (k := m) (e := 0) (by simp) he)

end Binary64

/-! ## §4. The values. -/

/-- A rational some double holds exactly. -/
structure FiniteDouble where
  value : ℚ
  exact : Binary64.nearest value = value
  bounded : |value| < 2 ^ 1024
  deriving DecidableEq

/-- A double: NaN, an infinity or a finite value. -/
inductive Binary64 where
  | nan
  | inf (negative : Bool)
  | fin (x : FiniteDouble)
  deriving DecidableEq

namespace Binary64

/-- The correctly rounded value of `q`; past the largest double, an infinity. -/
def ofRat (q : ℚ) : Binary64 :=
  if h : |nearest q| < 2 ^ 1024 then .fin ⟨nearest q, nearest_idem q, h⟩
  else .inf (decide (q < 0))

theorem ofRat_of_lt {q : ℚ} (h : |nearest q| < 2 ^ 1024) :
    ofRat q = .fin ⟨nearest q, nearest_idem q, h⟩ := by
  simp [ofRat, h]

/-- A natural number below 2^53, as a double. -/
def ofNat (m : ℕ) (h : m < 2 ^ 53) : FiniteDouble where
  value := m
  exact := by simp [nearest, nearestPos_natCast h]
  bounded := by
    rw [abs_of_nonneg (Nat.cast_nonneg m)]
    calc (m : ℚ) < 2 ^ 53 := by exact_mod_cast h
      _ < 2 ^ 1024 := pow_lt_pow_right₀ one_lt_two (by omega)

/-! ## §5. The shortest decimal. -/

/-- The multiples of `10 ^ e` on both sides of `q`. -/
def neighbours (q : ℚ) (e : ℤ) : List ℚ := [⌊q / 10 ^ e⌋ * 10 ^ e, ⌈q / 10 ^ e⌉ * 10 ^ e]

/-- The closer of the neighbours that read back as `q`. -/
def closestReading (q : ℚ) (e : ℤ) : Option ℚ :=
  match (neighbours q e).filter (fun c => nearest c = q) with
  | [] => none
  | [c] => some c
  | c :: c' :: _ => if |c' - q| < |c - q| then some c' else some c

/-- The shortest decimal that reads back as `q`, of those the closest to `q`;
seventeen digits are always enough. -/
def shortest (q : ℚ) : ℚ :=
  let magnitude := Int.log 10 |q|
  ((List.range 17).findSome? fun n => closestReading q (magnitude - n)).getD q

end Binary64

end Foundation
