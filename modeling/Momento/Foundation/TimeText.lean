/-
  Momento.Foundation.TimeText

  **INSTANTS AS TEXT.**  Go's `time.RFC3339Nano` in UTC, written by
  `appendFormatRFC3339` and read by `parseRFC3339`, and decimal integers, written by
  `strconv.FormatInt` and read by `strconv.ParseInt`.

  The fraction is written without its trailing zeros and read with as many as are
  missing.
-/
import Momento.Foundation.Calendar
import Mathlib.Data.List.DropRight

namespace Foundation.TimeText

open Calendar

/-! ## §1. Decimal digits. -/

/-- `appendInt`: the number with zeros in front. -/
def appendInt (x : Int) (width : Nat) : List Char :=
  let digits := (Nat.toDigits 10 x.natAbs).leftpad width '0'
  if x < 0 then '-' :: digits else digits

/-- A text of digits only. -/
def parseDigits (s : List Char) : Option Nat :=
  if s.all Char.isDigit then some (Nat.ofDigitChars 10 s 0) else none

/-- `parseUint` of `parseRFC3339`: digits whose number lies between two bounds. -/
def parseUint (s : List Char) (min max : Int) : Option Int :=
  ((parseDigits s).map Int.ofNat).filter fun x => min ≤ x && x ≤ max

theorem leftpad_digits (n width : Nat) :
    ∀ c ∈ (Nat.toDigits 10 n).leftpad width '0', c.isDigit = true := by
  intro c hc
  rw [List.leftpad, List.mem_append] at hc
  obtain hzero | hdigit := hc
  · rw [List.eq_of_mem_replicate hzero]
    rfl
  · exact Nat.isDigit_of_mem_toDigits (by decide) (by decide) hdigit

theorem ofDigitChars_leftpad (n width : Nat) :
    Nat.ofDigitChars 10 ((Nat.toDigits 10 n).leftpad width '0') 0 = n := by
  rw [List.leftpad, Nat.ofDigitChars_append, Nat.ofDigitChars_replicate_zero, Nat.mul_zero,
    Nat.ofDigitChars_ten_toDigits]

theorem appendInt_of_nonneg {x : Int} (hx : 0 ≤ x) (width : Nat) :
    appendInt x width = (Nat.toDigits 10 x.natAbs).leftpad width '0' := by
  rw [appendInt, if_neg (not_lt.mpr hx)]

theorem appendInt_digits {x : Int} (hx : 0 ≤ x) (width : Nat) :
    ∀ c ∈ appendInt x width, c.isDigit = true := by
  rw [appendInt_of_nonneg hx]
  exact leftpad_digits _ _

/-- A number with no more digits than the width takes the width. -/
theorem length_appendInt {x : Int} {width : Nat} (hx : 0 ≤ x) (hlt : x < 10 ^ width) (hwidth : 0 < width) :
    (appendInt x width).length = width := by
  have hdigits : (Nat.toDigits 10 x.natAbs).length ≤ width := by
    rw [Nat.length_toDigits_le_iff (by decide) hwidth]
    zify
    rw [abs_of_nonneg hx]
    exact hlt
  rw [appendInt_of_nonneg hx, List.length_leftpad]
  exact max_eq_left hdigits

/-- Written and read. -/
theorem parseDigits_appendInt {x : Int} (hx : 0 ≤ x) (width : Nat) :
    parseDigits (appendInt x width) = some x.natAbs := by
  rw [parseDigits, if_pos (List.all_eq_true.mpr (appendInt_digits hx width)), appendInt_of_nonneg hx,
    ofDigitChars_leftpad]

theorem parseUint_appendInt {x min max : Int} (hx : 0 ≤ x) (hmin : min ≤ x) (hmax : x ≤ max) (width : Nat) :
    parseUint (appendInt x width) min max = some x := by
  have hcast : Int.ofNat x.natAbs = x := Int.natAbs_of_nonneg hx
  rw [parseUint, parseDigits_appendInt hx, Option.map_some, hcast, Option.filter_some]
  simp [hmin, hmax]

/-! ## §2. The fraction of a second. -/

/-- `appendNano` with `.999999999`: the trailing zeros are left out, the point with the
last of them. -/
def appendNano (nanos : Int) : List Char :=
  let digits := (appendInt nanos 9).rdropWhile (· = '0')
  if digits = [] then [] else '.' :: digits

/-- `parseNanoseconds`: nine digits at most, the missing ones are zeros. -/
def nanoseconds (digits : List Char) : Int :=
  let digits := digits.take 9
  Nat.ofDigitChars 10 digits 0 * 10 ^ (9 - digits.length)

/-- The fraction at the front of a text, if it has one, and the rest. -/
def parseNano : List Char → Int × List Char
  | '.' :: rest =>
    if (rest.takeWhile Char.isDigit) = [] then (0, '.' :: rest)
    else (nanoseconds (rest.takeWhile Char.isDigit), rest.dropWhile Char.isDigit)
  | s => (0, s)

/-- The zeros at the end of the nine digits are the missing ones. -/
theorem nanoseconds_rdropWhile (digits : List Char) (h : digits.length = 9) :
    nanoseconds (digits.rdropWhile (· = '0')) = Nat.ofDigitChars 10 digits 0 := by
  have hsplit : digits.rdropWhile (· = '0') ++ digits.rtakeWhile (· = '0') = digits :=
    List.rdropWhile_append_rtakeWhile
  have hzeros : digits.rtakeWhile (· = '0') = List.replicate (digits.rtakeWhile (· = '0')).length '0' := by
    refine List.eq_replicate_of_mem fun c hc => ?_
    have hzero : decide (c = '0') = true := List.mem_rtakeWhile_imp (p := fun c => decide (c = '0')) hc
    exact of_decide_eq_true hzero
  generalize digits.rdropWhile (· = '0') = kept at hsplit ⊢
  generalize (digits.rtakeWhile (· = '0')) = zeros at hsplit hzeros
  have hlength : kept.length + zeros.length = 9 := by
    rw [← List.length_append, hsplit, h]
  have hvalue : Nat.ofDigitChars 10 digits 0 = 10 ^ zeros.length * Nat.ofDigitChars 10 kept 0 := by
    rw [← hsplit, Nat.ofDigitChars_append, hzeros, Nat.ofDigitChars_replicate_zero, List.length_replicate]
  have hmissing : 9 - kept.length = zeros.length := by omega
  dsimp only [nanoseconds]
  rw [List.take_of_length_le (by omega : kept.length ≤ 9), hmissing, hvalue]
  push_cast
  ring

/-- Written in front of a text that starts with no digit and no point, and read. -/
theorem parseNano_append {nanos : Int} (h : 0 ≤ nanos) (hlt : nanos < 1000000000) {rest : List Char}
    (hrest : rest.head? = some 'Z') : parseNano (appendNano nanos ++ rest) = (nanos, rest) := by
  have hdigits := appendInt_digits h 9
  have hlength : (appendInt nanos 9).length = 9 := length_appendInt h (by norm_num; omega) (by decide)
  have hvalue : nanoseconds ((appendInt nanos 9).rdropWhile (· = '0')) = nanos := by
    rw [nanoseconds_rdropWhile _ hlength, appendInt_of_nonneg h, ofDigitChars_leftpad]
    exact Int.natAbs_of_nonneg h
  have hkept : ∀ c ∈ (appendInt nanos 9).rdropWhile (· = '0'), c.isDigit = true := fun c hc =>
    hdigits c ((List.rdropWhile_prefix _ _).subset hc)
  obtain ⟨tail, rfl⟩ : ∃ tail, rest = 'Z' :: tail := by
    cases rest with
    | nil => cases hrest
    | cons c tail =>
      obtain rfl : c = 'Z' := by simpa using hrest
      exact ⟨tail, rfl⟩
  unfold appendNano
  generalize (appendInt nanos 9).rdropWhile (· = '0') = kept at hvalue hkept ⊢
  by_cases hempty : kept = []
  · -- no digit was left, so the number was zero
    subst hempty
    obtain rfl : (0 : Int) = nanos := hvalue
    rw [if_pos rfl]
    rfl
  · have htake : (kept ++ 'Z' :: tail).takeWhile Char.isDigit = kept := by
      rw [List.takeWhile_append_of_pos hkept]
      simp [show ¬ 'Z'.isDigit = true by decide]
    have hdrop : (kept ++ 'Z' :: tail).dropWhile Char.isDigit = 'Z' :: tail := by
      rw [List.dropWhile_append_of_pos hkept]
      simp [show ¬ 'Z'.isDigit = true by decide]
    rw [if_neg hempty, List.cons_append]
    show (if (kept ++ 'Z' :: tail).takeWhile Char.isDigit = [] then (0, '.' :: (kept ++ 'Z' :: tail))
      else (nanoseconds ((kept ++ 'Z' :: tail).takeWhile Char.isDigit),
        (kept ++ 'Z' :: tail).dropWhile Char.isDigit)) = (nanos, 'Z' :: tail)
    rw [htake, hdrop, if_neg hempty, hvalue]

/-! ## §3. Instants. -/

/-- In nanoseconds. -/
abbrev minute : Int := 60 * second

/-- The days of a month. -/
def daysIn (month : Int) : Int := monthStart (month + 1) - monthStart month

/-- `appendFormatRFC3339` in UTC. -/
def formatRfc3339Nano (t : Int) : List Char :=
  let date := t / day
  let clock := t % day
  appendInt (yearOf date) 4 ++ '-' :: (appendInt (monthOfYear date) 2
    ++ '-' :: (appendInt (dayOfMonth date) 2
    ++ 'T' :: (appendInt (clock / hour) 2
    ++ ':' :: (appendInt (clock % hour / minute) 2
    ++ ':' :: (appendInt (clock % minute / second) 2
    ++ (appendNano (clock % second) ++ ['Z']))))))

/-- The zone at the end of a text, as nanoseconds ahead of UTC. -/
def parseZone : List Char → Option Int
  | ['Z'] => some 0
  | [sign, h₁, h₂, colon, m₁, m₂] => do
    let hours ← parseUint [h₁, h₂] 0 23
    let minutes ← parseUint [m₁, m₂] 0 59
    if (sign = '+' ∨ sign = '-') ∧ colon = ':' then
      some ((if sign = '-' then -1 else 1) * (hours * hour + minutes * minute))
    else none
  | _ => none

/-- `parseRFC3339`. -/
def parseRfc3339 : List Char → Option Int
  | y₁ :: y₂ :: y₃ :: y₄ :: c₁ :: m₁ :: m₂ :: c₂ :: d₁ :: d₂ :: c₃
      :: h₁ :: h₂ :: c₄ :: n₁ :: n₂ :: c₅ :: s₁ :: s₂ :: rest => do
    let year ← parseUint [y₁, y₂, y₃, y₄] 0 9999
    let month ← parseUint [m₁, m₂] 1 12
    let date ← parseUint [d₁, d₂] 1 (daysIn (12 * year + (month - 1)))
    let hours ← parseUint [h₁, h₂] 0 23
    let minutes ← parseUint [n₁, n₂] 0 59
    let seconds ← parseUint [s₁, s₂] 0 59
    if c₁ = '-' ∧ c₂ = '-' ∧ c₃ = 'T' ∧ c₄ = ':' ∧ c₅ = ':' then
      let (nanos, zone) := parseNano rest
      let ahead ← parseZone zone
      some ((monthStart (12 * year + (month - 1)) + (date - 1)) * day
        + hours * hour + minutes * minute + seconds * second + nanos - ahead)
    else none
  | _ => none

/-- `time.Parse(time.RFC3339, …)`: what the short cut does not take goes to the general
parser of layouts. -/
def parse (general : List Char → Option Int) (s : List Char) : Option Int :=
  (parseRfc3339 s).or (general s)

/-- A text of four digits, character by character. -/
theorem appendInt_four {x : Int} (hx : 0 ≤ x) (hlt : x ≤ 9999) :
    ∃ a b c d, appendInt x 4 = [a, b, c, d] :=
  List.length_eq_four.mp (length_appendInt hx (by norm_num; omega) (by decide))

theorem appendInt_two {x : Int} (hx : 0 ≤ x) (hlt : x ≤ 99) : ∃ a b, appendInt x 2 = [a, b] :=
  List.length_eq_two.mp (length_appendInt hx (by norm_num; omega) (by decide))

/-- The parts of a date are what `parseRfc3339` asks for. -/
theorem date_parts (z : Int) : 1 ≤ monthOfYear z ∧ monthOfYear z ≤ 12 ∧ 1 ≤ dayOfMonth z ∧ dayOfMonth z ≤ 31
    ∧ dayOfMonth z ≤ daysIn (12 * yearOf z + (monthOfYear z - 1))
    ∧ monthStart (12 * yearOf z + (monthOfYear z - 1)) + (dayOfMonth z - 1) = z := by
  have hspec := monthOf_spec z
  have hmonth : 12 * yearOf z + (monthOfYear z - 1) = monthOf z := by
    unfold yearOf monthOfYear
    omega
  have hlength := (monthStart_succ (monthOf z)).2
  rw [hmonth]
  unfold monthOfYear dayOfMonth daysIn
  refine ⟨?_, ?_, ?_, ?_, ?_, ?_⟩
  all_goals omega

/-- The parts of a day add up to it. -/
theorem clock_parts {clock : Int} (h : 0 ≤ clock) (hlt : clock < day) :
    (0 ≤ clock / hour ∧ clock / hour ≤ 23) ∧ (0 ≤ clock % hour / minute ∧ clock % hour / minute ≤ 59)
      ∧ (0 ≤ clock % minute / second ∧ clock % minute / second ≤ 59)
      ∧ (0 ≤ clock % second ∧ clock % second < 1000000000)
      ∧ clock / hour * hour + clock % hour / minute * minute + clock % minute / second * second
        + clock % second = clock := by
  have hday : day = 86400000000000 := rfl
  have hhour : hour = 3600000000000 := rfl
  have hminute : minute = 60000000000 := rfl
  have hsecond : second = 1000000000 := rfl
  rw [hday] at hlt
  rw [hhour, hminute, hsecond]
  omega

/-- **A time of four-digit years is read back** to the nanosecond. -/
theorem parseRfc3339_format {t : Int} (hyear : 0 ≤ yearOf (t / day) ∧ yearOf (t / day) ≤ 9999) :
    parseRfc3339 (formatRfc3339Nano t) = some t := by
  have hday : day = 86400000000000 := rfl
  have hclock : 0 ≤ t % day ∧ t % day < day := by
    rw [hday]
    omega
  have htime : t / day * day + t % day = t := Int.ediv_mul_add_emod t day
  obtain ⟨hmonth, hmonth', hdate, hdate', hdays, hstart⟩ := date_parts (t / day)
  obtain ⟨hhours, hminutes, hseconds, hnanos, hsum⟩ := clock_parts hclock.1 hclock.2
  unfold formatRfc3339Nano
  dsimp only
  generalize yearOf (t / day) = year at *
  generalize monthOfYear (t / day) = month at *
  generalize dayOfMonth (t / day) = date at *
  generalize t % day / hour = hours at *
  generalize t % day % hour / minute = minutes at *
  generalize t % day % minute / second = seconds at *
  generalize t % day % second = nanos at *
  -- each part is read from the characters it was written to
  have ryear := parseUint_appendInt hyear.1 hyear.1 hyear.2 4
  have rmonth := parseUint_appendInt (by omega) hmonth hmonth' 2
  have rdate := parseUint_appendInt (by omega) hdate hdays 2
  have rhours := parseUint_appendInt hhours.1 hhours.1 hhours.2 2
  have rminutes := parseUint_appendInt hminutes.1 hminutes.1 hminutes.2 2
  have rseconds := parseUint_appendInt hseconds.1 hseconds.1 hseconds.2 2
  have rnanos := @parseNano_append nanos hnanos.1 hnanos.2 ['Z'] rfl
  obtain ⟨y₁, y₂, y₃, y₄, hy⟩ := appendInt_four hyear.1 hyear.2
  obtain ⟨m₁, m₂, hm⟩ := appendInt_two (x := month) (by omega) (by omega)
  obtain ⟨d₁, d₂, hd⟩ := appendInt_two (x := date) (by omega) (by omega)
  obtain ⟨h₁, h₂, hh⟩ := appendInt_two (x := hours) hhours.1 (by omega)
  obtain ⟨n₁, n₂, hn⟩ := appendInt_two (x := minutes) hminutes.1 (by omega)
  obtain ⟨s₁, s₂, hs⟩ := appendInt_two (x := seconds) hseconds.1 (by omega)
  rw [hy] at ryear
  rw [hm] at rmonth
  rw [hd] at rdate
  rw [hh] at rhours
  rw [hn] at rminutes
  rw [hs] at rseconds
  rw [hy, hm, hd, hh, hn, hs]
  show parseRfc3339 (y₁ :: y₂ :: y₃ :: y₄ :: '-' :: m₁ :: m₂ :: '-' :: d₁ :: d₂ :: 'T' :: h₁ :: h₂ :: ':' :: n₁ :: n₂
    :: ':' :: s₁ :: s₂ :: (appendNano nanos ++ ['Z'])) = some t
  unfold parseRfc3339
  simp only [ryear, rmonth, rdate, rhours, rminutes, rseconds, rnanos, parseZone, Option.bind_eq_bind,
    Option.bind_some, and_self, if_true, hstart]
  congr 1
  omega

/-- The characters of a time. -/
def IsTimeChar (c : Char) : Prop := c.isDigit = true ∨ c ∈ ['-', 'T', ':', '.', 'Z']

theorem appendInt_timeChar {x : Int} (hx : 0 ≤ x) (width : Nat) : ∀ c ∈ appendInt x width, IsTimeChar c :=
  fun c hc => .inl (appendInt_digits hx width c hc)

theorem appendNano_timeChar {nanos : Int} (h : 0 ≤ nanos) : ∀ c ∈ appendNano nanos, IsTimeChar c := by
  intro c hc
  unfold appendNano at hc
  dsimp only at hc
  split at hc
  · cases hc
  obtain rfl | hdigit := List.mem_cons.mp hc
  · exact .inr (by simp)
  · exact appendInt_timeChar h 9 c ((List.rdropWhile_prefix _ _).subset hdigit)

/-- A time after the year 0 is written with them. -/
theorem formatRfc3339Nano_timeChar {t : Int} (hyear : 0 ≤ yearOf (t / day)) :
    ∀ c ∈ formatRfc3339Nano t, IsTimeChar c := by
  have hday : day = 86400000000000 := rfl
  have hclock : 0 ≤ t % day ∧ t % day < day := by
    rw [hday]
    omega
  obtain ⟨hmonth, -, hdate, -⟩ := date_parts (t / day)
  obtain ⟨hhours, hminutes, hseconds, hnanos, -⟩ := clock_parts hclock.1 hclock.2
  have hmark : ∀ c ∈ ['-', 'T', ':', '.', 'Z'], IsTimeChar c := fun c hc => .inr hc
  intro c hc
  unfold formatRfc3339Nano at hc
  simp only [List.mem_append, List.mem_cons, List.not_mem_nil, or_false] at hc
  obtain hc | rfl | hc | rfl | hc | rfl | hc | rfl | hc | rfl | hc | hc | rfl := hc
  · exact appendInt_timeChar hyear 4 c hc
  · exact hmark _ (by simp)
  · exact appendInt_timeChar (by omega) 2 c hc
  · exact hmark _ (by simp)
  · exact appendInt_timeChar (by omega) 2 c hc
  · exact hmark _ (by simp)
  · exact appendInt_timeChar hhours.1 2 c hc
  · exact hmark _ (by simp)
  · exact appendInt_timeChar hminutes.1 2 c hc
  · exact hmark _ (by simp)
  · exact appendInt_timeChar hseconds.1 2 c hc
  · exact appendNano_timeChar hnanos.1 c hc
  · exact hmark _ (by simp)

/-! ## §4. Integers. -/

/-- The sign at the front, and the rest. -/
def takeSign : List Char → Bool × List Char
  | '-' :: rest => (true, rest)
  | '+' :: rest => (false, rest)
  | rest => (false, rest)

/-- `strconv.ParseInt(s, 10, 64)`: `none` is an error. -/
def parseInt (s : List Char) : Option Int :=
  let (negative, digits) := takeSign s
  if digits = [] then none
  else (parseDigits digits).bind fun n =>
    let x : Int := if negative then -n else n
    if -2 ^ 63 ≤ x ∧ x < 2 ^ 63 then some x else none

/-- `strconv.FormatInt(x, 10)`. -/
def formatInt (x : Int) : List Char := appendInt x 0

/-- A digit is no sign. -/
theorem takeSign_digits {c : Char} (hc : c.isDigit = true) (rest : List Char) :
    takeSign (c :: rest) = (false, c :: rest) := by
  unfold takeSign
  split
  next h =>
    obtain rfl : c = '-' := (List.cons.inj h).1
    exact absurd hc (by decide)
  next h =>
    obtain rfl : c = '+' := (List.cons.inj h).1
    exact absurd hc (by decide)
  next => rfl

/-- **A number of 63 bits is read back.** -/
theorem parseInt_format {n : Nat} (h : n < 2 ^ 63) : parseInt (formatInt n) = some (n : Int) := by
  have hread := parseDigits_appendInt (Int.natCast_nonneg n) 0
  have hdigits := appendInt_digits (Int.natCast_nonneg n) 0
  have hne : appendInt n 0 ≠ [] := by
    intro h
    have hlength := congrArg List.length h
    rw [appendInt_of_nonneg (Int.natCast_nonneg n), List.length_leftpad] at hlength
    have hpos : 0 < (Nat.toDigits 10 (n : Int).natAbs).length := Nat.length_toDigits_pos
    simp only [List.length_nil] at hlength
    omega
  have hbounds : -2 ^ 63 ≤ (n : Int) ∧ (n : Int) < 2 ^ 63 := by omega
  unfold formatInt
  generalize appendInt n 0 = s at *
  obtain ⟨c, rest, rfl⟩ := List.exists_cons_of_ne_nil hne
  unfold parseInt
  rw [takeSign_digits (hdigits c List.mem_cons_self)]
  dsimp only
  rw [if_neg hne, hread, Option.bind_some]
  exact if_pos hbounds

end Foundation.TimeText
