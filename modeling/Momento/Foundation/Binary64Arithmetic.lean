/-
  Foundation.Binary64Arithmetic
  **ARITHMETIC ON DOUBLES.**  Sum, difference, product, quotient and order: the exact
  result, rounded once.  There is one zero: what a program does with the sign of a
  zero is not told apart here.
-/
import Momento.Foundation.Binary64

namespace Foundation.Binary64

/-! ## §1. Rounding passes no double. -/

/-- Below the half the integer before is the nearest one. -/
theorem roundHalfEven_le_of_lt_half {q : ℚ} {m : ℤ} (h : q < m + 1 / 2) : roundHalfEven q ≤ m := by
  have hfloor : ⌊q⌋ ≤ m := by
    have hlt : (⌊q⌋ : ℚ) < m + 1 := by linarith [Int.floor_le q]
    have hint : ⌊q⌋ < m + 1 := by exact_mod_cast hlt
    omega
  by_cases heq : ⌊q⌋ = m
  · have hsmall : q - ⌊q⌋ < 1 / 2 := by rw [heq]; linarith
    rw [roundHalfEven, if_pos hsmall]
    exact hfloor
  · refine roundHalfEven_le ?_
    have hnext : ⌊q⌋ + 1 ≤ m := by omega
    have hnext' : (⌊q⌋ : ℚ) + 1 ≤ m := by exact_mod_cast hnext
    linarith [Int.lt_floor_add_one q]

/-- The rounding error is a half at most. -/
theorem abs_roundHalfEven_sub_le (q : ℚ) : |(roundHalfEven q : ℚ) - q| ≤ 1 / 2 := by
  have hlow := Int.floor_le q
  have hhigh := Int.lt_floor_add_one q
  unfold roundHalfEven
  rw [abs_le]
  split
  · constructor <;> linarith
  split
  · push_cast
    constructor <;> linarith
  split
  · constructor <;> linarith
  · push_cast
    constructor <;> linarith

/-- **One rounding**: above the subnormal doubles the error is a part in 2^53 at most. -/
theorem abs_nearestPos_sub_le {q : ℚ} (h : 2 ^ (-1022 : ℤ) ≤ q) : |nearestPos q - q| ≤ q / 2 ^ 53 := by
  have hpos : 0 < q := (two_zpow_pos _).trans_le h
  have hlog : -1022 ≤ Int.log 2 q := (Int.zpow_le_iff_le_log (by norm_num) hpos).mp (by exact_mod_cast h)
  have hexp : exponent q = Int.log 2 q - 52 := by
    unfold exponent
    omega
  have hunit := two_zpow_pos (exponent q)
  -- half of the last bit kept
  have herror : |nearestPos q - q| ≤ 1 / 2 * 2 ^ exponent q := by
    have hscaled : nearestPos q - q
        = ((roundHalfEven (q / 2 ^ exponent q) : ℚ) - q / 2 ^ exponent q) * 2 ^ exponent q := by
      unfold nearestPos
      rw [sub_mul, div_mul_cancel₀ _ hunit.ne']
    rw [hscaled, abs_mul, abs_of_pos hunit]
    exact mul_le_mul_of_nonneg_right (abs_roundHalfEven_sub_le _) hunit.le
  have hbit : (2 : ℚ) ^ exponent q = 2 ^ Int.log 2 q / 2 ^ 52 := by
    rw [hexp, zpow_sub₀ (by norm_num)]
    norm_num
  have hbelow : (2 : ℚ) ^ Int.log 2 q ≤ q := Int.zpow_log_le_self (by norm_num) hpos
  calc |nearestPos q - q| ≤ 1 / 2 * 2 ^ exponent q := herror
    _ = 2 ^ Int.log 2 q / 2 ^ 53 := by rw [hbit]; ring
    _ ≤ q / 2 ^ 53 := div_le_div_of_nonneg_right hbelow (by norm_num)

theorem exponent_mono {q r : ℚ} (hq : 0 < q) (h : q ≤ r) : exponent q ≤ exponent r := by
  have hlog : Int.log 2 q ≤ Int.log 2 r := Int.log_mono_right hq h
  unfold exponent
  omega

/-- **Rounding from above passes no double.** -/
theorem le_nearestPos_of_le {q r : ℚ} (hr0 : 0 ≤ r) (h : r ≤ q) (hr : nearestPos r = r) : r ≤ nearestPos q := by
  rcases hr0.eq_or_lt with rfl | hpos
  · exact nearestPos_nonneg h
  have hle := exponent_mono hpos h
  by_cases heq : exponent r = exponent q
  · exact multiple_le_nearestPos h hr.symm heq.symm.le
  · -- the power of two under `q` lies between them, and is a double
    have hq : 0 < q := hpos.trans_le h
    have hexp : exponent q = Int.log 2 q - 52 := by
      have hlow : -1074 ≤ exponent r := le_max_right _ _
      unfold exponent at hle heq hlow ⊢
      omega
    have hlog : Int.log 2 r < Int.log 2 q := by
      have hlow : Int.log 2 r - 52 ≤ exponent r := le_max_left _ _
      omega
    have hbits : (2 : ℚ) ^ Int.log 2 q = ((2 ^ 52 : ℤ) : ℚ) * 2 ^ exponent q := by
      rw [hexp, zpow_sub₀ (by norm_num)]
      push_cast
      rw [mul_div_cancel₀ _ (by norm_num)]
    have hpower : (2 : ℚ) ^ Int.log 2 q ≤ nearestPos q :=
      multiple_le_nearestPos (Int.zpow_log_le_self (by norm_num) hq) hbits le_rfl
    calc r ≤ 2 ^ (Int.log 2 r + 1) := (lt_two_zpow_log r).le
      _ ≤ 2 ^ Int.log 2 q := zpow_le_zpow_right₀ (by norm_num) (by omega)
      _ ≤ nearestPos q := hpower

/-- A positive double is fewer than 2^53 last bits. -/
theorem lt_two_pow_bits {v : ℚ} : v < 2 ^ 53 * 2 ^ exponent v := by
  have hlog : Int.log 2 v - 52 ≤ exponent v := le_max_left _ _
  calc v < 2 ^ (Int.log 2 v + 1) := lt_two_zpow_log v
    _ ≤ 2 ^ (53 + exponent v) := zpow_le_zpow_right₀ (by norm_num) (by omega)
    _ = 2 ^ 53 * 2 ^ exponent v := two_zpow_53_add _

theorem exists_bits {v : ℚ} (h : nearestPos v = v) : ∃ k : ℤ, v = k * 2 ^ exponent v ∧ k + 1 ≤ 2 ^ 53 := by
  refine ⟨roundHalfEven (v / 2 ^ exponent v), h.symm, ?_⟩
  have hlt : (roundHalfEven (v / 2 ^ exponent v) : ℚ) * 2 ^ exponent v < 2 ^ 53 * 2 ^ exponent v := by
    calc (roundHalfEven (v / 2 ^ exponent v) : ℚ) * 2 ^ exponent v = v := h
      _ < 2 ^ 53 * 2 ^ exponent v := lt_two_pow_bits
  have hbits := lt_of_mul_lt_mul_right hlt (two_zpow_pos _).le
  have hint : roundHalfEven (v / 2 ^ exponent v) < 2 ^ 53 := by exact_mod_cast hbits
  omega

/-- **A smaller double is smaller by the last bit at least.** -/
theorem mul_two_pow_le_of_lt {v t : ℚ} (hpos : 0 < v) (hv : nearestPos v = v) (ht : nearestPos t = t) (h : v < t) :
    v * 2 ^ 53 ≤ t * (2 ^ 53 - 1) := by
  obtain ⟨j, hj, hjbits⟩ := exists_bits hv
  obtain ⟨k, hk, hkbits⟩ := exists_bits ht
  have hunit := two_zpow_pos (exponent v)
  have hjbits' : (j : ℚ) ≤ 2 ^ 53 - 1 := by
    have hcast : ((j + 1 : ℤ) : ℚ) ≤ 2 ^ 53 := by exact_mod_cast hjbits
    push_cast at hcast
    linarith
  by_cases heq : exponent v = exponent t
  · -- the same last bit: the whole numbers of them differ
    rw [← heq] at hk
    have hjk : (j : ℚ) < k := by
      have hlt : (j : ℚ) * 2 ^ exponent v < k * 2 ^ exponent v := hj ▸ hk ▸ h
      exact lt_of_mul_lt_mul_right hlt hunit.le
    have hjk' : (j : ℚ) + 1 ≤ k := by
      have hint : j < k := by exact_mod_cast hjk
      exact_mod_cast hint
    have hkbits' : (k : ℚ) ≤ 2 ^ 53 := by
      have hint : k ≤ 2 ^ 53 := by omega
      exact_mod_cast hint
    have hbits : (j : ℚ) * 2 ^ 53 ≤ k * (2 ^ 53 - 1) := by linarith
    have hscaled := mul_le_mul_of_nonneg_right hbits hunit.le
    have hvbits : v * 2 ^ 53 = j * 2 ^ exponent v * 2 ^ 53 := congrArg (· * 2 ^ 53) hj
    have htbits : t * (2 ^ 53 - 1) = k * 2 ^ exponent v * (2 ^ 53 - 1) := congrArg (· * (2 ^ 53 - 1)) hk
    rw [hvbits, htbits]
    linarith
  · -- a coarser last bit of `t`: there is a power of two between them
    have hle := exponent_mono hpos h.le
    have hexp : exponent t = Int.log 2 t - 52 := by
      have hlow : -1074 ≤ exponent v := le_max_right _ _
      unfold exponent at hle heq hlow ⊢
      omega
    have hpower : (2 : ℚ) ^ 53 * 2 ^ exponent v ≤ t := by
      calc (2 : ℚ) ^ 53 * 2 ^ exponent v = 2 ^ (53 + exponent v) := (two_zpow_53_add _).symm
        _ ≤ 2 ^ Int.log 2 t := zpow_le_zpow_right₀ (by norm_num) (by omega)
        _ ≤ t := Int.zpow_log_le_self (by norm_num) (hpos.trans h)
    have hsmall : v ≤ (2 ^ 53 - 1) * 2 ^ exponent v := by
      calc v = j * 2 ^ exponent v := hj
        _ ≤ (2 ^ 53 - 1) * 2 ^ exponent v := mul_le_mul_of_nonneg_right hjbits' hunit.le
    calc v * 2 ^ 53 ≤ (2 ^ 53 - 1) * 2 ^ exponent v * 2 ^ 53 := mul_le_mul_of_nonneg_right hsmall (by norm_num)
      _ = 2 ^ 53 * 2 ^ exponent v * (2 ^ 53 - 1) := by ring
      _ ≤ t * (2 ^ 53 - 1) := mul_le_mul_of_nonneg_right hpower (by norm_num)

/-! ## §2. The operations. -/

/-- 0. -/
def zero : FiniteDouble := ofNat 0 (by norm_num)

/-- `x + y`. -/
def add : Binary64 → Binary64 → Binary64
  | .fin x, .fin y => ofRat (x.value + y.value)
  | .inf a, .inf b => if a = b then .inf a else .nan
  | .inf a, .fin _ | .fin _, .inf a => .inf a
  | .nan, _ | _, .nan => .nan

/-- `-x`. -/
def neg : Binary64 → Binary64
  | .fin x => ofRat (-x.value)
  | .inf a => .inf !a
  | .nan => .nan

/-- `x - y`. -/
def sub (x y : Binary64) : Binary64 := add x (neg y)

/-- `x * y`. -/
def mul : Binary64 → Binary64 → Binary64
  | .fin x, .fin y => ofRat (x.value * y.value)
  | .inf a, .inf b => .inf (a ^^ b)
  | .inf a, .fin x | .fin x, .inf a => if x.value = 0 then .nan else .inf (a ^^ decide (x.value < 0))
  | .nan, _ | _, .nan => .nan

/-- `x / y`. -/
def div : Binary64 → Binary64 → Binary64
  | .fin x, .fin y =>
    if y.value ≠ 0 then ofRat (x.value / y.value)
    else if x.value = 0 then .nan
    else .inf (decide (x.value < 0))
  | .fin _, .inf _ => .fin zero
  | .inf a, .fin y => .inf (a ^^ decide (y.value < 0))
  | .inf _, .inf _ => .nan
  | .nan, _ | _, .nan => .nan

/-- `x <= y`, false where one is no number. -/
def le : Binary64 → Binary64 → Bool
  | .nan, _ | _, .nan => false
  | .inf true, _ | _, .inf false => true
  | .inf false, _ | _, .inf true => false
  | .fin x, .fin y => x.value ≤ y.value

/-- `x < y`. -/
def lt : Binary64 → Binary64 → Bool
  | .nan, _ | _, .nan => false
  | x, y => !le y x

@[simp] theorem le_fin (x y : FiniteDouble) : le (.fin x) (.fin y) = true ↔ x.value ≤ y.value := by
  simp [le]

/-- The value of a double that is not negative is rounded already. -/
theorem nearestPos_value {x : FiniteDouble} (h : 0 ≤ x.value) : nearestPos x.value = x.value := by
  have hexact := x.exact
  rw [nearest, if_neg (not_lt.mpr h)] at hexact
  exact hexact

/-- **A double that is no larger than an exact result is no larger than the rounded one.** -/
theorem le_ofRat {x : FiniteDouble} {q : ℚ} (hx : 0 ≤ x.value) (h : x.value ≤ q) : le (.fin x) (ofRat q) = true := by
  have hq : ¬q < 0 := not_lt.mpr (hx.trans h)
  unfold ofRat
  split
  · rw [le_fin]
    show x.value ≤ nearest q
    rw [nearest, if_neg hq]
    exact le_nearestPos_of_le hx h (nearestPos_value hx)
  · rw [decide_eq_false hq]
    rfl

/-- Results of a moderate size are no infinities. -/
theorem ofRat_of_abs_le {q : ℚ} {k : ℕ} (hk : k < 1024) (h : |q| ≤ 2 ^ k) :
    ∃ x, ofRat q = .fin x ∧ x.value = nearest q ∧ |x.value| ≤ 2 ^ k := by
  have hle := abs_nearest_le_two_pow h
  have hlt : |nearest q| < 2 ^ 1024 := hle.trans_lt (pow_lt_pow_right₀ one_lt_two hk)
  exact ⟨_, ofRat_of_lt hlt, rfl, hle⟩

/-- A result that rounds to less than a hundred is no infinity. -/
theorem ofRat_of_le_hundred {q : ℚ} (hq : 0 ≤ q) (h : nearestPos q ≤ 100) :
    ∃ x, ofRat q = .fin x ∧ x.value = nearestPos q := by
  have hnearest : nearest q = nearestPos q := by rw [nearest, if_neg (not_lt.mpr hq)]
  have hbounded : |nearest q| < 2 ^ 1024 := by
    rw [hnearest, abs_of_nonneg (nearestPos_nonneg hq)]
    calc nearestPos q ≤ 100 := h
      _ < 2 ^ 7 := by norm_num
      _ < 2 ^ 1024 := pow_lt_pow_right₀ one_lt_two (by norm_num)
  exact ⟨_, ofRat_of_lt hbounded, hnearest⟩

/-- A quotient of doubles that is below one is below it by the last bit at least. -/
theorem nearestPos_div_le {v t : FiniteDouble} (hv : 0 < v.value) (h : v.value < t.value) :
    nearestPos (v.value / t.value) ≤ (2 ^ 53 - 1) * 2 ^ (-53 : ℤ) := by
  have ht : 0 < t.value := hv.trans h
  have hbits := mul_two_pow_le_of_lt hv (nearestPos_value hv.le) (nearestPos_value ht.le) h
  have hone : v.value / t.value < 2 ^ (0 : ℤ) := by
    rw [zpow_zero, div_lt_one ht]
    exact h
  have hquotient : v.value / t.value ≤ (2 ^ 53 - 1) * 2 ^ (-53 : ℤ) := by
    rw [div_le_iff₀ ht, zpow_neg]
    norm_num at hbits ⊢
    linarith
  have hexp : exponent (v.value / t.value) ≤ -53 := by
    have hlog := log_lt_of_lt (div_pos hv ht) hone
    unfold exponent
    omega
  exact nearestPos_le_multiple hquotient (k := 2 ^ 53 - 1) (e := -53) (by norm_num) hexp

/-! ## §3. Percentages. -/

/-- 100. -/
def hundred : FiniteDouble := ofNat 100 (by norm_num)

/-- `part / whole * 100`. -/
def percent (part whole : Binary64) : Binary64 := mul (div part whole) (.fin hundred)

/-- Times a hundred, what is below one by the last bit stays below a hundred. -/
theorem nearestPos_hundred_lt {q : ℚ} (hq : 0 ≤ q) (h : q ≤ (2 ^ 53 - 1) * 2 ^ (-53 : ℤ)) :
    nearestPos (q * 100) < 100 := by
  rcases hq.eq_or_lt with rfl | hpos
  · simp
  have hproduct : q * 100 ≤ 100 - 100 / 2 ^ 53 := by
    rw [zpow_neg] at h
    norm_num at h ⊢
    linarith
  have hlt : q * 100 < 2 ^ (7 : ℤ) := by
    norm_num at hproduct ⊢
    linarith
  have hexp : exponent (q * 100) ≤ -46 := by
    have hlog := log_lt_of_lt (mul_pos hpos (by norm_num)) hlt
    unfold exponent
    omega
  by_cases heq : exponent (q * 100) = -46
  · -- the last bit is 2^-46, and a hundred is 100 * 2^46 of them
    have hround : roundHalfEven (q * 100 / 2 ^ (-46 : ℤ)) ≤ 100 * 2 ^ 46 - 1 := by
      refine roundHalfEven_le_of_lt_half ?_
      rw [div_lt_iff₀ (two_zpow_pos _), zpow_neg]
      norm_num at hproduct ⊢
      linarith
    have hround' : (roundHalfEven (q * 100 / 2 ^ (-46 : ℤ)) : ℚ) ≤ 100 * 2 ^ 46 - 1 := by exact_mod_cast hround
    unfold nearestPos
    rw [heq]
    calc (roundHalfEven (q * 100 / 2 ^ (-46 : ℤ)) : ℚ) * 2 ^ (-46 : ℤ)
        ≤ (100 * 2 ^ 46 - 1) * 2 ^ (-46 : ℤ) := mul_le_mul_of_nonneg_right hround' (two_zpow_pos _).le
      _ < 100 := by norm_num
  · -- below 64 the last bit is finer
    have hsmall : q * 100 ≤ 64 := by
      by_contra hbig
      have hlog : 6 ≤ Int.log 2 (q * 100) :=
        (Int.zpow_le_iff_le_log (by norm_num) (mul_pos hpos (by norm_num))).mp (by norm_num; linarith)
      unfold exponent at heq hexp
      omega
    have hround := nearestPos_le (q := q * 100) (m := 64) (by positivity) (by exact_mod_cast hsmall) (by norm_num)
    push_cast at hround
    linarith

/-- **A rounded percentage reaches 100 exactly when the part reaches the whole.** -/
theorem hundred_le_percent_iff {part whole : FiniteDouble} (hpart : 0 < part.value) (hwhole : 0 < whole.value) :
    le (.fin hundred) (percent (.fin part) (.fin whole)) = true ↔ whole.value ≤ part.value := by
  have hquotient : div (.fin part) (.fin whole) = ofRat (part.value / whole.value) := by
    simp only [div]
    rw [if_pos hwhole.ne']
  have hpositive : 0 ≤ part.value / whole.value := (div_pos hpart hwhole).le
  have hundred_value : hundred.value = 100 := by simp [hundred, ofNat]
  unfold percent
  rw [hquotient]
  constructor
  · intro hreaches
    by_contra hshort
    have hbits := nearestPos_div_le hpart (not_le.mp hshort)
    obtain ⟨x, hx, hvalue⟩ := ofRat_of_le_hundred hpositive (hbits.trans (by norm_num))
    have hx0 : 0 ≤ x.value := by
      rw [hvalue]
      exact nearestPos_nonneg hpositive
    have hlt := nearestPos_hundred_lt hx0 (by rw [hvalue]; exact hbits)
    obtain ⟨y, hy, hyvalue⟩ := ofRat_of_le_hundred (mul_nonneg hx0 (by norm_num)) hlt.le
    have hproduct : mul (ofRat (part.value / whole.value)) (.fin hundred) = .fin y := by
      rw [hx, ← hy, ← hundred_value]
      rfl
    rw [hproduct, le_fin, hundred_value, hyvalue] at hreaches
    linarith
  · intro hle
    have hone : (ofNat 1 (by norm_num)).value ≤ part.value / whole.value := by
      show ((1 : ℕ) : ℚ) ≤ _
      rw [Nat.cast_one, one_le_div hwhole]
      exact hle
    have hratio := le_ofRat (by simp [ofNat]) hone
    cases hr : ofRat (part.value / whole.value) with
    | nan =>
      rw [hr] at hratio
      cases hratio
    | inf a =>
      rw [hr] at hratio
      cases a with
      | true => cases hratio
      | false =>
        have hinf : mul (.inf false) (.fin hundred) = .inf false := by
          simp [mul, hundred_value]
        rw [hinf]
        rfl
    | fin x =>
      rw [hr, le_fin] at hratio
      have hx : 1 ≤ x.value := by simpa [ofNat] using hratio
      refine le_ofRat (by rw [hundred_value]; norm_num) ?_
      rw [hundred_value]
      linarith

end Foundation.Binary64
