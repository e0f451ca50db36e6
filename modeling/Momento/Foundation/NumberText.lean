/-
  Momento.Foundation.NumberText

  **TEXTS THAT ARE NUMBERS, TWICE.**  Go's `strconv.ParseFloat(s, 64)` and the
  decimals PostgreSQL's guards `^[0-9]+(\.[0-9]+)?$` and
  `^-?[0-9]+(\.[0-9]+)?$` let through to a `::numeric` cast.  The first reads
  signs, exponents, hexadecimal mantissas, digit separators, infinities and NaN;
  the second reads plain decimals only, and exactly.

  `parseFloat_of_signedPlainDecimal` is where the two meet: a plain decimal is
  read by both, and the double is the rounded decimal.
-/
import Momento.Foundation.Binary64

namespace Foundation

/-! ## §1. Characters. -/

/-- The value of an ASCII digit. -/
def digit? (c : Char) : Option ℕ :=
  if '0' ≤ c ∧ c ≤ '9' then some (c.toNat - '0'.toNat) else none

/-- The value of an ASCII hexadecimal digit. -/
def hexDigit? (c : Char) : Option ℕ :=
  if '0' ≤ c ∧ c ≤ '9' then some (c.toNat - '0'.toNat)
  else if 'a' ≤ c.toLower ∧ c.toLower ≤ 'f' then some (c.toLower.toNat - 'a'.toNat + 10)
  else none

/-! ## §2. Plain decimals. -/

/-- A digit string read in base ten, after `acc`. -/
def readDigits (acc : ℕ) : List Char → Option ℕ
  | [] => some acc
  | c :: cs => (digit? c).bind fun d => readDigits (acc * 10 + d) cs

/-- `[0-9]+(\.[0-9]+)?`, the whole text. -/
def plainDecimal (cs : List Char) : Option ℚ :=
  let whole := cs.takeWhile (· ≠ '.')
  match cs.dropWhile (· ≠ '.') with
  | [] => if whole = [] then none else (readDigits 0 whole).map fun n : ℕ => (n : ℚ)
  | _ :: fraction =>
    if whole = [] ∨ fraction = [] then none
    else (readDigits 0 whole).bind fun n => (readDigits n fraction).map fun m : ℕ =>
      (m : ℚ) / 10 ^ fraction.length

/-- `-?[0-9]+(\.[0-9]+)?`, the whole text. -/
def signedPlainDecimal : List Char → Option ℚ
  | '-' :: cs => (plainDecimal cs).map (- ·)
  | cs => plainDecimal cs

/-- PostgreSQL's `numeric` has room for 131072 digits before the point and 16383
after it; the cast of a longer decimal is an error. -/
def withinNumeric (cs : List Char) : Bool :=
  ((cs.takeWhile (· ≠ '.')).dropWhile (fun c => c = '-' || c = '0')).length ≤ 131072
    && ((cs.dropWhile (· ≠ '.')).tail).length ≤ 16383

/-! ## §3. `strconv.ParseFloat`. -/

/-- What `readFloat`'s digit loop knows. -/
structure Mantissa where
  value : ℕ := 0
  fraction : ℕ := 0
  sawDot : Bool := false
  sawDigits : Bool := false
  underscores : Bool := false

/-- The digit loop of `readFloat`; the rest of the text comes back with it. -/
def readMantissa (digit : Char → Option ℕ) (base : ℕ) : Mantissa → List Char → Mantissa × List Char
  | m, [] => (m, [])
  | m, c :: cs =>
    if c = '_' then readMantissa digit base { m with underscores := true } cs
    else if c = '.' then
      if m.sawDot then (m, c :: cs) else readMantissa digit base { m with sawDot := true } cs
    else match digit c with
      | none => (m, c :: cs)
      | some d =>
        readMantissa digit base
          { m with value := m.value * base + d, sawDigits := true
                   fraction := if m.sawDot then m.fraction + 1 else m.fraction } cs

/-- The exponent's digits; they stop counting at ten thousand. -/
def readExponentDigits : ℕ → Bool → List Char → ℕ × Bool × List Char
  | e, underscores, [] => (e, underscores, [])
  | e, underscores, c :: cs =>
    if c = '_' then readExponentDigits e true cs
    else match digit? c with
      | none => (e, underscores, c :: cs)
      | some d => readExponentDigits (if e < 10000 then e * 10 + d else e) underscores cs

/-- The text after the exponent's letter: it needs a digit. -/
def readExponent (cs : List Char) : Option (ℤ × Bool × List Char) :=
  let (negative, digits) := match cs with
    | '+' :: ds => (false, ds)
    | '-' :: ds => (true, ds)
    | ds => (false, ds)
  match digits with
  | [] => none
  | c :: _ =>
    if (digit? c).isNone then none
    else
      let (e, underscores, rest) := readExponentDigits 0 false digits
      some (if negative then -(e : ℤ) else e, underscores, rest)

/-- `underscoreOK`: a separator stands between digits only.  `saw` is the kind of
the character before: a digit, a separator or another one. -/
def underscoreLoop (hex : Bool) : Char → List Char → Bool
  | saw, [] => saw ≠ '_'
  | saw, c :: cs =>
    if (digit? c).isSome || (hex && (hexDigit? c).isSome) then underscoreLoop hex '0' cs
    else if c = '_' then saw = '0' && underscoreLoop hex '_' cs
    else saw ≠ '_' && underscoreLoop hex '!' cs

/-- `underscoreOK`: underscores stand between digits, or after the base. -/
def underscoreOK (cs : List Char) : Bool :=
  let body := match cs with
    | '+' :: ds => ds
    | '-' :: ds => ds
    | ds => ds
  match body with
  | '0' :: c :: ds =>
    if c.toLower = 'b' ∨ c.toLower = 'o' ∨ c.toLower = 'x' then
      underscoreLoop (c.toLower = 'x') '0' ds
    else underscoreLoop false '^' body
  | _ => underscoreLoop false '^' body

/-- A hexadecimal mantissa stands after `0x`. -/
def hexPrefixed : List Char → Bool
  | '0' :: c :: _ :: _ => c.toLower = 'x'
  | _ => false

/-- A finite number in Go's syntax, its sign read already; `text` is the whole
text, for the separators. -/
def readUnsigned (text body : List Char) : Option ℚ :=
  let hex := hexPrefixed body
  let (m, rest) :=
    if hex then readMantissa hexDigit? 16 {} (body.drop 2) else readMantissa digit? 10 {} body
  if !m.sawDigits then none
  else
    let finish (e : ℤ) (underscores : Bool) : List Char → Option ℚ
      | _ :: _ => none
      | [] =>
        if (m.underscores || underscores) && !underscoreOK text then none
        else if hex then some (m.value * 2 ^ (e - 4 * m.fraction))
        else some (m.value * 10 ^ (e - m.fraction))
    match rest with
    | c :: cs =>
      if c.toLower = (if hex then 'p' else 'e') then
        (readExponent cs).bind fun (e, underscores, rest) => finish e underscores rest
      else none
    | [] => if hex then none else finish 0 false []

/-- `inf`, `infinity` and `nan`, in any case; only the infinities take a sign. -/
def special (cs : List Char) : Option Binary64 :=
  let unsigned := match cs with
    | '+' :: ds => ds
    | '-' :: ds => ds
    | ds => ds
  let lower := unsigned.map Char.toLower
  if lower = "inf".toList ∨ lower = "infinity".toList then some (.inf (cs.head? = some '-'))
  else if cs.map Char.toLower = "nan".toList then some .nan
  else none

/-- The value read, and whether `err == nil`: a text that is no number reads as
zero, one that overflows as an infinity, both with an error. -/
def parseFloat (s : String) : Binary64 × Bool :=
  match special s.toList with
  | some f => (f, true)
  | none =>
    let parsed := match s.toList with
      | '+' :: cs => readUnsigned s.toList cs
      | '-' :: cs => (readUnsigned s.toList cs).map (- ·)
      | cs => readUnsigned s.toList cs
    match parsed with
    | none => (.ofRat 0, false)
    | some q =>
      match Binary64.ofRat q with
      | .inf negative => (.inf negative, false)
      | f => (f, true)

/-! ## §4. A plain decimal is read by both. -/

/-- A digit is no letter, sign, point or separator, in either case. -/
theorem digit_ne {c : Char} (h : (digit? c).isSome) {x : Char} (hx : digit? x = none) : c ≠ x := by
  rintro rfl
  rw [hx] at h
  exact Bool.false_ne_true h

theorem toLower_digit {c : Char} (h : (digit? c).isSome) : c.toLower = c := by
  have hrange : '0' ≤ c ∧ c ≤ '9' := by
    by_contra hnot
    simp [digit?, hnot] at h
  have hle : c.val ≤ '9'.val := hrange.2
  have hupper : ¬('A'.val ≤ c.val ∧ c.val ≤ 'Z'.val) := fun h =>
    absurd (UInt32.le_trans h.1 hle) (by decide)
  exact dif_neg hupper

theorem lowerDigit_ne {c : Char} (h : (digit? c).isSome) {x : Char} (hx : digit? x = none) :
    c.toLower ≠ x := by
  rw [toLower_digit h]
  exact digit_ne h hx

/-- What the digit loop makes of a digit string: the value grows, the fraction
counts once the point is behind. -/
theorem readMantissa_digits {ds : List Char} {m : Mantissa} {n : ℕ}
    (h : readDigits m.value ds = some n) (rest : List Char) :
    readMantissa digit? 10 m (ds ++ rest)
      = readMantissa digit? 10
          { m with
            value := n
            sawDigits := m.sawDigits || !ds.isEmpty
            fraction := if m.sawDot then m.fraction + ds.length else m.fraction } rest := by
  induction ds generalizing m with
  | nil =>
    obtain rfl := Option.some.inj h
    simp
  | cons c ds ih =>
    obtain ⟨d, hd, hrest⟩ := Option.bind_eq_some_iff.mp h
    have hdigit : (digit? c).isSome := by simp [hd]
    have hstep : readMantissa digit? 10 m (c :: (ds ++ rest))
        = readMantissa digit? 10
            { m with
              value := m.value * 10 + d
              sawDigits := true
              fraction := if m.sawDot then m.fraction + 1 else m.fraction } (ds ++ rest) := by
      rw [readMantissa, if_neg (digit_ne hdigit (by decide)), if_neg (digit_ne hdigit (by decide)),
        hd]
    rw [List.cons_append, hstep, ih hrest]
    cases m.sawDot with
    | false => simp
    | true => simp [Nat.add_assoc, Nat.add_comm 1]

theorem readDigits_digits {ds : List Char} {acc n : ℕ} (h : readDigits acc ds = some n) :
    ∀ c ∈ ds, (digit? c).isSome := by
  induction ds generalizing acc with
  | nil => simp
  | cons c ds ih =>
    obtain ⟨d, hd, hrest⟩ := Option.bind_eq_some_iff.mp h
    intro c' hc'
    rcases List.mem_cons.mp hc' with rfl | hmem
    · simp [hd]
    · exact ih hrest c' hmem

/-- The parts of a plain decimal. -/
theorem plainDecimal_parts {cs : List Char} {q : ℚ} (h : plainDecimal cs = some q) :
    ∃ whole n, whole ≠ [] ∧ readDigits 0 whole = some n
      ∧ ((cs = whole ∧ q = n)
        ∨ ∃ fraction m, fraction ≠ [] ∧ readDigits n fraction = some m
            ∧ cs = whole ++ '.' :: fraction ∧ q = m / 10 ^ fraction.length) := by
  have hsplit := List.takeWhile_append_dropWhile (p := fun c => decide (c ≠ '.')) (l := cs)
  unfold plainDecimal at h
  simp only at h
  cases hrest : cs.dropWhile (fun c => decide (c ≠ '.')) with
  | nil =>
    rw [hrest] at h hsplit
    rw [List.append_nil] at hsplit
    by_cases hw : cs.takeWhile (fun c => decide (c ≠ '.')) = []
    · rw [if_pos hw] at h
      cases h
    · rw [if_neg hw] at h
      obtain ⟨n, hn, rfl⟩ := Option.map_eq_some_iff.mp h
      exact ⟨_, n, hw, hn, .inl ⟨hsplit.symm, rfl⟩⟩
  | cons dot fraction =>
    have hdot : dot = '.' := by
      have hhead := List.head?_dropWhile_not (fun c => decide (c ≠ '.')) cs
      rw [hrest] at hhead
      simpa using hhead
    rw [hrest] at h hsplit
    simp only at h
    by_cases hw : cs.takeWhile (fun c => decide (c ≠ '.')) = [] ∨ fraction = []
    · rw [if_pos hw] at h
      cases h
    · rw [if_neg hw] at h
      obtain ⟨hw₁, hw₂⟩ := not_or.mp hw
      obtain ⟨n, hn, hbind⟩ := Option.bind_eq_some_iff.mp h
      obtain ⟨m, hm, rfl⟩ := Option.map_eq_some_iff.mp hbind
      refine ⟨_, n, hw₁, hn, .inr ⟨fraction, m, hw₂, hm, ?_, rfl⟩⟩
      rw [hdot] at hsplit
      exact hsplit.symm

/-- The digit loop reads a plain decimal to its end. -/
theorem readMantissa_plainDecimal {cs : List Char} {q : ℚ} (h : plainDecimal cs = some q) :
    ∃ m, readMantissa digit? 10 {} cs = (m, []) ∧ m.sawDigits = true ∧ m.underscores = false
      ∧ q = m.value / 10 ^ m.fraction := by
  obtain ⟨whole, n, hwhole, hn, ⟨rfl, rfl⟩ | ⟨fraction, v, hfraction, hv, rfl, rfl⟩⟩ :=
    plainDecimal_parts h
  · have hloop := readMantissa_digits (m := {}) hn []
    rw [List.append_nil] at hloop
    refine ⟨_, hloop, ?_, rfl, ?_⟩
    · simpa using hwhole
    · simp
  · have hloop := readMantissa_digits (m := {}) hn ('.' :: fraction)
    rw [readMantissa, if_neg (by decide), if_pos rfl] at hloop
    have hloop' := readMantissa_digits
      (m := { value := n, fraction := 0, sawDot := true, sawDigits := !whole.isEmpty }) hv []
    rw [List.append_nil] at hloop'
    refine ⟨_, hloop.trans hloop', ?_, rfl, ?_⟩
    · simpa using .inl hwhole
    · simp

/-- A plain decimal starts with a digit and has no `x`. -/
theorem plainDecimal_chars {cs : List Char} {q : ℚ} (h : plainDecimal cs = some q) :
    (∃ c ds, cs = c :: ds ∧ (digit? c).isSome) ∧ ∀ c ∈ cs, c.toLower ≠ 'x' := by
  have hx : ∀ {ds : List Char} {acc n : ℕ}, readDigits acc ds = some n →
      ∀ c ∈ ds, c.toLower ≠ 'x' :=
    fun hds c hc => lowerDigit_ne (readDigits_digits hds c hc) (by decide)
  obtain ⟨whole, n, hwhole, hn, hparts⟩ := plainDecimal_parts h
  obtain ⟨c, ds, rfl⟩ := List.exists_cons_of_ne_nil hwhole
  have hc : (digit? c).isSome := readDigits_digits hn c (by simp)
  obtain ⟨rfl, -⟩ | ⟨fraction, m, -, hm, rfl, -⟩ := hparts
  · exact ⟨⟨c, ds, rfl, hc⟩, hx hn⟩
  · refine ⟨⟨c, _, rfl, hc⟩, fun c' hc' => ?_⟩
    rcases List.mem_append.mp hc' with hmem | hmem
    · exact hx hn c' hmem
    · rcases List.mem_cons.mp hmem with rfl | hmem
      · decide
      · exact hx hm c' hmem

theorem hexPrefixed_of_plainDecimal {body : List Char} {q : ℚ} (h : plainDecimal body = some q) :
    hexPrefixed body = false := by
  obtain ⟨-, hx⟩ := plainDecimal_chars h
  unfold hexPrefixed
  split
  next c _ _ => exact decide_eq_false (hx c (by simp))
  next => rfl

theorem readUnsigned_of_plainDecimal {text body : List Char} {q : ℚ}
    (h : plainDecimal body = some q) : readUnsigned text body = some q := by
  obtain ⟨m, hloop, hdigits, hunderscores, hq⟩ := readMantissa_plainDecimal h
  unfold readUnsigned
  simp only [hexPrefixed_of_plainDecimal h, Bool.false_eq_true, if_false, hloop, hdigits,
    hunderscores]
  rw [hq]
  simp [div_eq_mul_inv]

/-- No plain decimal is one of the names. -/
theorem special_of_signedPlainDecimal {cs : List Char} {q : ℚ} (h : signedPlainDecimal cs = some q) :
    special cs = none := by
  unfold special
  unfold signedPlainDecimal at h
  split at h
  next ds =>
    obtain ⟨r, hr, -⟩ := Option.map_eq_some_iff.mp h
    obtain ⟨⟨c, ds, rfl, hc⟩, -⟩ := plainDecimal_chars hr
    have hi : c.toLower ≠ 'i' := lowerDigit_ne hc (by decide)
    simp [hi]
  next =>
    obtain ⟨⟨c, ds, rfl, hc⟩, -⟩ := plainDecimal_chars h
    have hplus : c ≠ '+' := digit_ne hc (by decide)
    have hi : c.toLower ≠ 'i' := lowerDigit_ne hc (by decide)
    have hn : c.toLower ≠ 'n' := lowerDigit_ne hc (by decide)
    simp [hplus, hi, hn]

/-- **Go reads a plain decimal as the double closest to it**; one that is past
the largest double is an error. -/
theorem parseFloat_of_signedPlainDecimal {s : String} {q : ℚ}
    (h : signedPlainDecimal s.toList = some q) :
    parseFloat s
      = match Binary64.ofRat q with
        | .inf negative => (.inf negative, false)
        | f => (f, true) := by
  have hparsed : (match s.toList with
      | '+' :: cs => readUnsigned s.toList cs
      | '-' :: cs => (readUnsigned s.toList cs).map (- ·)
      | cs => readUnsigned s.toList cs) = some q := by
    generalize s.toList = text at h ⊢
    unfold signedPlainDecimal at h
    split at h
    next cs =>
      obtain ⟨r, hr, rfl⟩ := Option.map_eq_some_iff.mp h
      simp [readUnsigned_of_plainDecimal hr]
    next =>
      obtain ⟨⟨c, ds, rfl, hc⟩, -⟩ := plainDecimal_chars h
      have hplus : c ≠ '+' := digit_ne hc (by decide)
      simp [hplus, readUnsigned_of_plainDecimal h]
  unfold parseFloat
  rw [special_of_signedPlainDecimal h]
  simp only [hparsed]

end Foundation
