/-
  Momento.Foundation.IpText

  **ADDRESSES AS TEXT.**  Go's `net/netip`: `ParseAddr` with its three readers
  (dotted IPv4, colon groups, an embedded IPv4 after the groups) and `Addr.String`
  with its three writers (dotted, IPv4-mapped, groups with the longest run of zeros
  left out).  An address is its bytes in network order.
-/
import Mathlib.Data.List.TakeWhile
import Momento.Foundation.NumberText

namespace Foundation.IpText

/-! ## §1. Reading. -/

/-- `Is4`, `Is6`. -/
inductive Family
  | v4
  | v6
  deriving DecidableEq

/-- The bytes of an address. -/
def Family.size : Family → Nat
  | .v4 => 4
  | .v6 => 16

/-- `netip.Addr`. -/
structure Addr where
  family : Family
  bytes : List UInt8
  zone : List Char
  deriving DecidableEq

/-- The loop of `parseIPv4Fields`: the fields read, the value of the current one and
its number of digits. -/
def parseIPv4Fields (fields : List UInt8) (val digLen : Nat) : List Char → Option (List UInt8)
  | [] => if fields.length < 3 then none else some (fields ++ [UInt8.ofNat val])
  | c :: rest =>
    match digit? c with
    | some d =>
      -- a leading zero
      if digLen = 1 ∧ val = 0 then none
      else if 255 < val * 10 + d then none
      else parseIPv4Fields fields (val * 10 + d) (digLen + 1) rest
    | none =>
      if c = '.' then
        -- a field without a digit, or a fifth field
        if digLen = 0 ∨ rest = [] then none
        else if fields.length = 3 then none
        else parseIPv4Fields (fields ++ [UInt8.ofNat val]) 0 0 rest
      else none

/-- `parseIPv4`. -/
def parseIPv4 (s : List Char) : Option Addr := (parseIPv4Fields [] 0 0 s).map (⟨.v4, ·, []⟩)

/-- The value of a run of hexadecimal digits. -/
def hexValue (digits : List Char) : Nat :=
  digits.foldl (fun acc c => acc * 16 + (hexDigit? c).getD 0) 0

/-- A 16-bit chunk, as `parseIPv6` saves it. -/
def chunk (acc : Nat) : List UInt8 := [UInt8.ofNat (acc / 256), UInt8.ofNat acc]

/-- The loop of `parseIPv6`, two bytes a step: where the ellipsis stands among the
bytes read, these bytes, and the rest of the text. -/
def readGroups : Nat → Option Nat → List UInt8 → List Char →
    Option (List UInt8 × Option Nat × List Char)
  | 0, ellipsis, ip, s => some (ip, ellipsis, s)
  | k + 1, ellipsis, ip, s =>
    let digits := s.takeWhile fun c => (hexDigit? c).isSome
    if digits = [] ∨ 4 < digits.length then none
    else match s.drop digits.length with
      | [] => some (ip ++ chunk (hexValue digits), ellipsis, [])
      | '.' :: _ =>
        -- the trailing IPv4 address starts with these digits
        if ellipsis = none ∧ ip.length ≠ 12 then none
        else if 16 < ip.length + 4 then none
        else (parseIPv4Fields [] 0 0 s).map fun fields => (ip ++ fields, ellipsis, [])
      | [':'] => none
      | ':' :: ':' :: rest =>
        if ellipsis.isSome then none
        else if rest = [] then
          some (ip ++ chunk (hexValue digits), some (ip.length + 2), [])
        else readGroups k (some (ip.length + 2)) (ip ++ chunk (hexValue digits)) rest
      | ':' :: rest => readGroups k ellipsis (ip ++ chunk (hexValue digits)) rest
      | _ => none

/-- What `parseIPv6` makes of the bytes read: the ellipsis stands for at least one
group of zeros. -/
def expand : List UInt8 × Option Nat × List Char → Option (List UInt8)
  | (ip, ellipsis, rest) =>
    if rest ≠ [] then none
    else if ip.length < 16 then
      ellipsis.map fun e => ip.take e ++ List.replicate (16 - ip.length) 0 ++ ip.drop e
    else if ellipsis.isSome then none
    else some ip

/-- `parseIPv6` after the zone is split off. -/
def parseGroups : List Char → Option (List UInt8)
  | [':', ':'] => some (List.replicate 16 0)
  | ':' :: ':' :: s => (readGroups 8 (some 0) [] s).bind expand
  | s => (readGroups 8 none [] s).bind expand

/-- `parseIPv6`: an empty zone is none. -/
def parseIPv6 (text : List Char) : Option Addr :=
  let s := text.takeWhile (· ≠ '%')
  let zone := text.drop s.length
  if zone = ['%'] then none
  else (parseGroups s).map (⟨.v6, ·, zone.tail⟩)

/-- `netip.ParseAddr`; the errors are not told apart. -/
def parseAddr (s : List Char) : Option Addr :=
  match s.find? fun c => c = '.' ∨ c = ':' ∨ c = '%' with
  | some '.' => parseIPv4 s
  | some ':' => parseIPv6 s
  | _ => none

/-! ## §2. Writing. -/

/-- `appendDecimal`, of a byte. -/
def appendDecimal (x : Nat) : List Char :=
  (if 100 ≤ x then [Nat.digitChar (x / 100)] else [])
    ++ (if 10 ≤ x then [Nat.digitChar (x / 10 % 10)] else [])
    ++ [Nat.digitChar (x % 10)]

/-- `appendHex`, of a group. -/
def appendHex (x : Nat) : List Char :=
  (if 0x1000 ≤ x then [Nat.digitChar (x / 0x1000)] else [])
    ++ (if 0x100 ≤ x then [Nat.digitChar (x / 0x100 % 16)] else [])
    ++ (if 0x10 ≤ x then [Nat.digitChar (x / 0x10 % 16)] else [])
    ++ [Nat.digitChar (x % 16)]

/-- `Addr.string4`: the bytes with points between them. -/
def string4 : List UInt8 → List Char
  | [] => []
  | [b] => appendDecimal b.toNat
  | b :: rest => appendDecimal b.toNat ++ '.' :: string4 rest

/-- `Addr.v6u16`, every group. -/
def groups : List UInt8 → List Nat
  | hi :: lo :: rest => (hi.toNat * 256 + lo.toNat) :: groups rest
  | _ => []

/-- The first loop of `appendTo6`: the longest run of two or more zero groups, the
first of several; where it starts and where it is over. -/
def zeroRun (gs : List Nat) : Option (Nat × Nat) :=
  (List.range gs.length).foldl (fun best i =>
    let j := i + ((gs.drop i).takeWhile (· = 0)).length
    if 2 ≤ j - i ∧ best.elim 0 (fun run => run.2 - run.1) < j - i then some (i, j) else best) none

/-- Groups with colons between them. -/
def colons : List Nat → List Char
  | [] => []
  | [g] => appendHex g
  | g :: rest => appendHex g ++ ':' :: colons rest

/-- `Addr.string6`. -/
def string6 (bytes : List UInt8) : List Char :=
  match zeroRun (groups bytes) with
  | none => colons (groups bytes)
  | some (start, stop) =>
    colons ((groups bytes).take start) ++ ':' :: ':' :: colons ((groups bytes).drop stop)

/-- `Addr.Is4In6`, of the bytes of an IPv6 address. -/
def is4In6 (bytes : List UInt8) : Bool :=
  bytes.take 12 = List.replicate 10 0 ++ [0xff, 0xff]

/-- `Addr.string4In6`. -/
def string4In6 (bytes : List UInt8) : List Char :=
  "::ffff:".toList ++ string4 (bytes.drop 12)

/-- `Addr.String` of an address without a zone. -/
def writeAddr : Family → List UInt8 → List Char
  | .v4, bytes => string4 bytes
  | .v6, bytes => if is4In6 bytes then string4In6 bytes else string6 bytes

/-! ## §3. Numbers are read back. -/

theorem digit?_digitChar : ∀ {d : Nat}, d < 10 → digit? (Nat.digitChar d) = some d := by decide

theorem hexDigit?_digitChar : ∀ {d : Nat}, d < 16 → hexDigit? (Nat.digitChar d) = some d := by
  decide

theorem parseIPv4Fields_digit {d : Nat} (hd : d < 10) (fields : List UInt8) (val n : Nat)
    (rest : List Char) :
    parseIPv4Fields fields val n (Nat.digitChar d :: rest)
      = if n = 1 ∧ val = 0 then none
        else if 255 < val * 10 + d then none
        else parseIPv4Fields fields (val * 10 + d) (n + 1) rest := by
  rw [parseIPv4Fields, digit?_digitChar hd]

/-- A decimal byte is one field. -/
theorem parseIPv4Fields_decimal {x : Nat} (hx : x < 256) (fields : List UInt8) (rest : List Char) :
    ∃ n, 0 < n ∧ parseIPv4Fields fields 0 0 (appendDecimal x ++ rest)
      = parseIPv4Fields fields x n rest := by
  have h0 : x % 10 < 10 := Nat.mod_lt _ (by omega)
  have h1 : x / 10 % 10 < 10 := Nat.mod_lt _ (by omega)
  have h2 : x / 100 < 10 := by omega
  unfold appendDecimal
  by_cases h100 : 100 ≤ x
  · -- three digits, the first of them not zero
    refine ⟨3, by omega, ?_⟩
    have h10 : 10 ≤ x := by omega
    simp only [h100, h10, if_true, List.cons_append, List.nil_append]
    rw [parseIPv4Fields_digit h2, if_neg (by omega), if_neg (by omega),
      parseIPv4Fields_digit h1, if_neg (by omega), if_neg (by omega),
      parseIPv4Fields_digit h0, if_neg (by omega), if_neg (by omega)]
    congr 1
    omega
  · by_cases h10 : 10 ≤ x
    · refine ⟨2, by omega, ?_⟩
      simp only [h100, h10, if_true, if_false, List.cons_append, List.nil_append]
      rw [parseIPv4Fields_digit h1, if_neg (by omega), if_neg (by omega),
        parseIPv4Fields_digit h0, if_neg (by omega), if_neg (by omega)]
      congr 1
      omega
    · refine ⟨1, by omega, ?_⟩
      simp only [h100, h10, if_false, List.cons_append, List.nil_append]
      rw [parseIPv4Fields_digit h0, if_neg (by omega), if_neg (by omega)]
      congr 1
      omega

theorem appendDecimal_ne_nil (x : Nat) : appendDecimal x ≠ [] := by simp [appendDecimal]

theorem appendHex_ne_nil (x : Nat) : appendHex x ≠ [] := by simp [appendHex]

theorem string4_ne_nil {bytes : List UInt8} (h : bytes ≠ []) : string4 bytes ≠ [] := by
  cases bytes with
  | nil => exact absurd rfl h
  | cons b rest =>
    cases rest with
    | nil => exact appendDecimal_ne_nil _
    | cons b' rest => simp [string4]

theorem parseIPv4Fields_string4 {bytes : List UInt8} (hne : bytes ≠ []) :
    ∀ {fields : List UInt8}, fields.length + bytes.length = 4 →
      parseIPv4Fields fields 0 0 (string4 bytes) = some (fields ++ bytes) := by
  induction bytes with
  | nil => exact absurd rfl hne
  | cons b rest ih =>
    intro fields hlength
    have hb : b.toNat < 256 := b.toNat_lt
    cases rest with
    | nil =>
      show parseIPv4Fields fields 0 0 (appendDecimal b.toNat) = _
      obtain ⟨n, -, hread⟩ := parseIPv4Fields_decimal hb fields []
      rw [List.append_nil] at hread
      rw [hread, parseIPv4Fields, if_neg (by simp at hlength; omega), UInt8.ofNat_toNat]
    | cons b' rest =>
      show parseIPv4Fields fields 0 0 (appendDecimal b.toNat ++ '.' :: string4 (b' :: rest)) = _
      obtain ⟨n, hn, hread⟩ := parseIPv4Fields_decimal hb fields ('.' :: string4 (b' :: rest))
      have hmore : string4 (b' :: rest) ≠ [] := string4_ne_nil (by simp)
      have hpoint : digit? '.' = none := by decide
      simp only [List.length_cons] at hlength
      rw [hread, parseIPv4Fields, hpoint]
      simp only [if_true]
      rw [if_neg (by simp [hmore]; omega), if_neg (by omega), UInt8.ofNat_toNat,
        ih (by simp) (by simp; omega)]
      simp

/-- The hexadecimal digits of a 16-bit number: one to four, worth the number. -/
theorem appendHex_digits {x : Nat} (hx : x < 65536) :
    (∀ c ∈ appendHex x, (hexDigit? c).isSome) ∧ (appendHex x).length ≤ 4
      ∧ hexValue (appendHex x) = x := by
  have h0 := hexDigit?_digitChar (d := x % 16) (Nat.mod_lt _ (by omega))
  have h1 := hexDigit?_digitChar (d := x / 0x10 % 16) (Nat.mod_lt _ (by omega))
  have h2 := hexDigit?_digitChar (d := x / 0x100 % 16) (Nat.mod_lt _ (by omega))
  have h3 := hexDigit?_digitChar (d := x / 0x1000) (by omega)
  unfold appendHex hexValue
  by_cases h1000 : 0x1000 ≤ x
  · have h100 : 0x100 ≤ x := by omega
    have h10 : 0x10 ≤ x := by omega
    simp only [h1000, h100, h10, if_true]
    simp [h0, h1, h2, h3]
    omega
  · by_cases h100 : 0x100 ≤ x
    · have h10 : 0x10 ≤ x := by omega
      simp only [h1000, h100, h10, if_true, if_false]
      simp [h0, h1, h2]
      omega
    · by_cases h10 : 0x10 ≤ x
      · simp only [h1000, h100, h10, if_true, if_false]
        simp [h0, h1]
        omega
      · simp only [h1000, h100, h10, if_false]
        simp [h0]
        omega

/-! ## §4. Groups are read back. -/

/-- A run of digits ends where `rest` goes on with something else. -/
theorem takeWhile_run {p : Char → Bool} {digits rest : List Char} (hdigits : ∀ c ∈ digits, p c)
    (hrest : rest.takeWhile p = []) : (digits ++ rest).takeWhile p = digits := by
  rw [List.takeWhile_append_of_pos hdigits, hrest, List.append_nil]

/-- The loop finds a written group, and goes by what stands behind it. -/
theorem written_group {g : Nat} (hg : g < 65536) {rest : List Char}
    (hrest : rest.takeWhile (fun c => (hexDigit? c).isSome) = []) :
    (appendHex g ++ rest).takeWhile (fun c => (hexDigit? c).isSome) = appendHex g
      ∧ (appendHex g ++ rest).drop (appendHex g).length = rest
      ∧ hexValue (appendHex g) = g
      ∧ ¬(appendHex g = [] ∨ 4 < (appendHex g).length) := by
  obtain ⟨hdigits, hlength, hvalue⟩ := appendHex_digits hg
  have hne := appendHex_ne_nil g
  refine ⟨takeWhile_run hdigits hrest, List.drop_left, hvalue, ?_⟩
  simp [hne]
  omega

theorem readGroups_last {g : Nat} (hg : g < 65536) (k : Nat) (ellipsis : Option Nat)
    (ip : List UInt8) :
    readGroups (k + 1) ellipsis ip (appendHex g) = some (ip ++ chunk g, ellipsis, []) := by
  obtain ⟨htake, hdrop, hvalue, hsome⟩ :=
    written_group hg (List.takeWhile_nil (p := fun c => (hexDigit? c).isSome))
  rw [List.append_nil] at htake hdrop
  rw [readGroups, htake, hdrop, hvalue, if_neg hsome]

/-- A written group starts with a digit, so what starts with one is no colon. -/
theorem appendHex_head (g : Nat) (hg : g < 65536) :
    ∃ c rest, appendHex g = c :: rest ∧ c ≠ ':' ∧ c ≠ '.' ∧ c ≠ '%' := by
  obtain ⟨hdigits, -, -⟩ := appendHex_digits hg
  cases hhex : appendHex g with
  | nil => exact absurd hhex (appendHex_ne_nil g)
  | cons c rest =>
    have hc : (hexDigit? c).isSome := hdigits c (by simp [hhex])
    -- none of the three separators is a digit
    have hne : ∀ x, hexDigit? x = none → c ≠ x := by
      intro x hx hcx
      rw [hcx, hx] at hc
      exact absurd hc (by simp)
    exact ⟨c, rest, rfl, hne ':' (by decide), hne '.' (by decide), hne '%' (by decide)⟩

theorem colons_head {g : Nat} (hg : g < 65536) (gs : List Nat) (rest : List Char) :
    ∃ c tail, colons (g :: gs) ++ rest = c :: tail ∧ c ≠ ':' := by
  obtain ⟨c, tail, hhead, hcolon, -, -⟩ := appendHex_head g hg
  cases gs with
  | nil => exact ⟨c, tail ++ rest, by simp [colons, hhead], hcolon⟩
  | cons g' gs => exact ⟨c, tail ++ ':' :: colons (g' :: gs) ++ rest, by simp [colons, hhead], hcolon⟩

theorem readGroups_colon {g : Nat} (hg : g < 65536) {c : Char} (hc : c ≠ ':') (tail : List Char)
    (k : Nat) (ellipsis : Option Nat) (ip : List UInt8) :
    readGroups (k + 1) ellipsis ip (appendHex g ++ ':' :: c :: tail)
      = readGroups k ellipsis (ip ++ chunk g) (c :: tail) := by
  obtain ⟨htake, hdrop, hvalue, hsome⟩ := written_group hg (show (':' :: c :: tail).takeWhile
    (fun c => (hexDigit? c).isSome) = [] from rfl)
  rw [readGroups, htake, hdrop, hvalue, if_neg hsome]
  -- one colon: nothing but a digit is behind it
  split <;> simp_all

theorem readGroups_stop {g : Nat} (hg : g < 65536) (after : List Char) (k : Nat)
    (ip : List UInt8) :
    readGroups (k + 1) none ip (appendHex g ++ ':' :: ':' :: after)
      = if after = [] then some (ip ++ chunk g, some (ip.length + 2), [])
        else readGroups k (some (ip.length + 2)) (ip ++ chunk g) after := by
  obtain ⟨htake, hdrop, hvalue, hsome⟩ := written_group hg (show (':' :: ':' :: after).takeWhile
    (fun c => (hexDigit? c).isSome) = [] from rfl)
  rw [readGroups, htake, hdrop, hvalue, if_neg hsome]
  rfl

/-- **Groups with colons between them are the groups.** -/
theorem readGroups_colons {gs : List Nat} (hne : gs ≠ []) :
    ∀ {k : Nat} {ellipsis : Option Nat} {ip : List UInt8}, gs.length ≤ k → (∀ g ∈ gs, g < 65536) →
      readGroups k ellipsis ip (colons gs) = some (ip ++ gs.flatMap chunk, ellipsis, []) := by
  induction gs with
  | nil => exact absurd rfl hne
  | cons g gs ih =>
    intro k ellipsis ip hk hbound
    have hg : g < 65536 := hbound g (by simp)
    obtain ⟨k, rfl⟩ : ∃ k', k = k' + 1 := ⟨k - 1, by simp at hk; omega⟩
    cases gs with
    | nil =>
      show readGroups (k + 1) ellipsis ip (appendHex g) = _
      rw [readGroups_last hg]
      simp
    | cons g' gs =>
      show readGroups (k + 1) ellipsis ip (appendHex g ++ ':' :: colons (g' :: gs)) = _
      obtain ⟨c, tail, hhead, hc⟩ := colons_head (hbound g' (by simp)) gs []
      rw [List.append_nil] at hhead
      rw [hhead, readGroups_colon hg hc, ← hhead,
        ih (by simp) (by simp at hk ⊢; omega) (fun x hx => hbound x (by simp [hx]))]
      simp

/-- Groups, the ellipsis, and `after`. -/
theorem readGroups_ellipsis {gs : List Nat} (hne : gs ≠ []) :
    ∀ {k : Nat} {ip : List UInt8}, gs.length ≤ k → (∀ g ∈ gs, g < 65536) → ∀ after : List Char,
      readGroups k none ip (colons gs ++ ':' :: ':' :: after)
        = if after = [] then
            some (ip ++ gs.flatMap chunk, some (ip.length + 2 * gs.length), [])
          else readGroups (k - gs.length) (some (ip.length + 2 * gs.length))
            (ip ++ gs.flatMap chunk) after := by
  induction gs with
  | nil => exact absurd rfl hne
  | cons g gs ih =>
    intro k ip hk hbound after
    have hg : g < 65536 := hbound g (by simp)
    obtain ⟨k, rfl⟩ : ∃ k', k = k' + 1 := ⟨k - 1, by simp at hk; omega⟩
    cases gs with
    | nil =>
      show readGroups (k + 1) none ip (appendHex g ++ ':' :: ':' :: after) = _
      rw [readGroups_stop hg]
      simp
    | cons g' gs =>
      show readGroups (k + 1) none ip
        ((appendHex g ++ ':' :: colons (g' :: gs)) ++ ':' :: ':' :: after) = _
      obtain ⟨c, tail, hhead, hc⟩ := colons_head (hbound g' (by simp)) gs (':' :: ':' :: after)
      rw [List.append_assoc, List.cons_append, hhead, readGroups_colon hg hc, ← hhead,
        ih (by simp) (by simp at hk ⊢; omega) (fun x hx => hbound x (by simp [hx]))]
      have hsub : k - (gs.length + 1) = k + 1 - (gs.length + 1 + 1) := by omega
      have hpos : (ip ++ chunk g).length + 2 * (gs.length + 1) = ip.length + 2 * (gs.length + 1 + 1) := by
        simp [chunk]
        omega
      simp only [List.length_cons, hpos, hsub, List.flatMap_cons, List.append_assoc]

/-! ## §5. The longest run of zeros. -/

/-- What is left out is at least two groups, and all of them are zero. -/
theorem zeroRun_spec {gs : List Nat} {start stop : Nat} (h : zeroRun gs = some (start, stop)) :
    start + 2 ≤ stop ∧ stop ≤ gs.length
      ∧ gs = gs.take start ++ List.replicate (stop - start) 0 ++ gs.drop stop := by
  let Good : Option (Nat × Nat) → Prop := fun best => ∀ run, best = some run →
    run.1 + 2 ≤ run.2 ∧ run.2 ≤ gs.length
      ∧ gs = gs.take run.1 ++ List.replicate (run.2 - run.1) 0 ++ gs.drop run.2
  suffices hgood : Good (zeroRun gs) from hgood (start, stop) h
  refine List.foldlRecOn (motive := Good) (List.range gs.length) _ (by simp [Good]) ?_
  intro best hbest i hi run hrun
  have hi : i < gs.length := List.mem_range.mp hi
  -- either the run found so far stays, or the one that starts at `i` is taken
  dsimp only at hrun
  split at hrun
  · rename_i hlonger
    cases hrun
    have hzeros : (gs.drop i).takeWhile (· = 0)
        = List.replicate ((gs.drop i).takeWhile (· = 0)).length 0 :=
      List.eq_replicate_of_mem fun g hg => by simpa using List.mem_takeWhile_imp hg
    have hrun := List.takeWhile_prefix (l := gs.drop i) (· = 0)
    have hle := hrun.length_le
    rw [List.length_drop] at hle
    refine ⟨by omega, by omega, ?_⟩
    rw [Nat.add_sub_cancel_left, ← hzeros]
    calc gs = gs.take i ++ gs.drop i := (List.take_append_drop i gs).symm
      _ = gs.take i ++ ((gs.drop i).takeWhile (· = 0) ++ (gs.drop i).dropWhile (· = 0)) := by
        rw [List.takeWhile_append_dropWhile]
      _ = _ := by
        rw [← List.drop_drop, List.append_assoc]
        congr 2
        conv_rhs => rw [← List.takeWhile_append_dropWhile (p := (· = 0)) (l := gs.drop i)]
        rw [List.drop_left']
        simp
  · exact hbest run hrun

/-! ## §6. Bytes and groups. -/

theorem chunk_pair (hi lo : UInt8) : chunk (hi.toNat * 256 + lo.toNat) = [hi, lo] := by
  have hlo : lo.toNat < 256 := lo.toNat_lt
  have hdiv : (hi.toNat * 256 + lo.toNat) / 256 = hi.toNat := by omega
  have hmod : UInt8.ofNat (hi.toNat * 256 + lo.toNat) = lo := by
    apply UInt8.toNat_inj.mp
    simp
  rw [chunk, hdiv, hmod, UInt8.ofNat_toNat]

theorem flatMap_chunk_length (gs : List Nat) : (gs.flatMap chunk).length = 2 * gs.length := by
  induction gs with
  | nil => rfl
  | cons g gs ih =>
    rw [List.flatMap_cons, List.length_append, ih]
    simp [chunk]
    omega

theorem flatMap_chunk_zeros (n : Nat) :
    (List.replicate n 0).flatMap chunk = List.replicate (2 * n) 0 := by
  induction n with
  | zero => rfl
  | succ n ih =>
    rw [List.replicate_succ, List.flatMap_cons, ih]
    show [(0 : UInt8), 0] ++ List.replicate (2 * n) 0 = List.replicate (2 * n + 2) 0
    rw [List.replicate_succ, List.replicate_succ]
    rfl

/-- An even number of bytes is its groups. -/
theorem groups_bytes {bytes : List UInt8} {n : Nat} (h : bytes.length = 2 * n) :
    (groups bytes).length = n ∧ (groups bytes).flatMap chunk = bytes
      ∧ ∀ g ∈ groups bytes, g < 65536 := by
  induction n generalizing bytes with
  | zero =>
    obtain rfl : bytes = [] := List.length_eq_zero_iff.mp h
    simp [groups]
  | succ n ih =>
    obtain ⟨hi, lo, rest, rfl⟩ : ∃ hi lo rest, bytes = hi :: lo :: rest := by
      match bytes, h with
      | hi :: lo :: rest, _ => exact ⟨hi, lo, rest, rfl⟩
      | [_], h => simp at h; omega
    obtain ⟨hlength, hbytes, hbound⟩ := ih (show rest.length = 2 * n by simp at h; omega)
    have hhi : hi.toNat < 256 := hi.toNat_lt
    have hlo : lo.toNat < 256 := lo.toNat_lt
    refine ⟨by simp [groups, hlength], ?_, ?_⟩
    · rw [groups, List.flatMap_cons, chunk_pair, hbytes]
      rfl
    · intro g hg
      rw [groups, List.mem_cons] at hg
      cases hg with
      | inl h => omega
      | inr h => exact hbound g h

/-- The ellipsis stands for the groups that were left out. -/
theorem expand_zeros {before after : List Nat} {zeros : Nat} (hzeros : 0 < zeros)
    (htotal : before.length + zeros + after.length = 8) :
    expand (before.flatMap chunk ++ after.flatMap chunk, some (2 * before.length), [])
      = some ((before ++ List.replicate zeros 0 ++ after).flatMap chunk) := by
  have hbefore := flatMap_chunk_length before
  have hafter := flatMap_chunk_length after
  have hcount : 16 - (before.flatMap chunk ++ after.flatMap chunk).length = 2 * zeros := by
    rw [List.length_append]
    omega
  rw [expand, if_neg (by simp), if_pos (by rw [List.length_append]; omega), hcount, ← hbefore,
    Option.map_some, List.take_left, List.drop_left, List.flatMap_append, List.flatMap_append,
    flatMap_chunk_zeros]

/-! ## §7. Written addresses are read back. -/

/-- A text that does not start with a colon is read without a leading ellipsis. -/
theorem parseGroups_plain {c : Char} (hc : c ≠ ':') (tail : List Char) :
    parseGroups (c :: tail) = (readGroups 8 none [] (c :: tail)).bind expand := by
  unfold parseGroups
  split <;> simp_all

theorem parseGroups_ellipsis {c : Char} (tail : List Char) :
    parseGroups (':' :: ':' :: c :: tail)
      = (readGroups 8 (some 0) [] (c :: tail)).bind expand := rfl

theorem parseGroups_colons {gs : List Nat} (h8 : gs.length = 8) (hbound : ∀ g ∈ gs, g < 65536) :
    parseGroups (colons gs) = some (gs.flatMap chunk) := by
  have hne : gs ≠ [] := by
    rintro rfl
    exact absurd h8 (by decide)
  obtain ⟨g, gs', rfl⟩ := List.exists_cons_of_ne_nil hne
  obtain ⟨c, tail, hhead, hc⟩ := colons_head (hbound g (by simp)) gs' []
  rw [List.append_nil] at hhead
  have hread : readGroups 8 none [] (colons (g :: gs')) = _ :=
    readGroups_colons hne (by omega) hbound
  rw [hhead, parseGroups_plain hc, ← hhead, hread, List.nil_append, Option.bind_some, expand,
    if_neg (by simp), if_neg (by rw [flatMap_chunk_length]; omega), if_neg (by simp)]

/-- Groups on either side of an ellipsis that stands for `zeros` groups. -/
theorem parseGroups_shortened {before after : List Nat} {zeros : Nat} (hzeros : 0 < zeros)
    (htotal : before.length + zeros + after.length = 8) (hbefore : ∀ g ∈ before, g < 65536)
    (hafter : ∀ g ∈ after, g < 65536) :
    parseGroups (colons before ++ ':' :: ':' :: colons after)
      = some ((before ++ List.replicate zeros 0 ++ after).flatMap chunk) := by
  have hexpand := expand_zeros hzeros htotal
  cases before with
  | nil =>
    cases after with
    | nil =>
      -- the text is the ellipsis alone
      obtain rfl : zeros = 8 := by simpa using htotal
      rfl
    | cons g gs =>
      obtain ⟨c, tail, hhead, -⟩ := colons_head (hafter g (by simp)) gs []
      rw [List.append_nil] at hhead
      have hread : readGroups 8 (some 0) [] (colons (g :: gs)) = _ :=
        readGroups_colons (by simp) (by simp at htotal ⊢; omega) hafter
      show parseGroups (':' :: ':' :: colons (g :: gs)) = _
      rw [hhead, parseGroups_ellipsis, ← hhead, hread, Option.bind_some]
      exact hexpand
  | cons g gs =>
    obtain ⟨c, tail, hhead, hc⟩ :=
      colons_head (hbefore g (by simp)) gs (':' :: ':' :: colons after)
    have hread : readGroups 8 none [] (colons (g :: gs) ++ ':' :: ':' :: colons after) = _ :=
      readGroups_ellipsis (by simp) (by simp at htotal ⊢; omega) hbefore (colons after)
    rw [hhead, parseGroups_plain hc, ← hhead, hread]
    cases after with
    | nil =>
      rw [if_pos (show colons [] = [] from rfl), Option.bind_some, List.nil_append]
      simpa using hexpand
    | cons g' gs' =>
      obtain ⟨c', tail', hhead', -⟩ := colons_head (hafter g' (by simp)) gs' []
      rw [List.append_nil] at hhead'
      have hrest : readGroups (8 - (g :: gs).length) (some (0 + 2 * (g :: gs).length))
          ((g :: gs).flatMap chunk) (colons (g' :: gs')) = _ :=
        readGroups_colons (by simp) (by simp at htotal ⊢; omega) hafter
      rw [if_neg (by rw [hhead']; simp), List.nil_append, List.length_nil, hrest, Option.bind_some,
        Nat.zero_add]
      exact hexpand

theorem parseGroups_string6 {bytes : List UInt8} (h : bytes.length = 16) :
    parseGroups (string6 bytes) = some bytes := by
  obtain ⟨h8, hbytes, hbound⟩ := groups_bytes (n := 8) h
  unfold string6
  cases hrun : zeroRun (groups bytes) with
  | none => rw [parseGroups_colons h8 hbound, hbytes]
  | some run =>
    obtain ⟨hmore, hstop, hparts⟩ := zeroRun_spec hrun
    show parseGroups (colons ((groups bytes).take run.1)
      ++ ':' :: ':' :: colons ((groups bytes).drop run.2)) = _
    rw [parseGroups_shortened (show 0 < run.2 - run.1 by omega)
      (by rw [List.length_take, List.length_drop]; omega)
      (fun g hg => hbound g (List.mem_of_mem_take hg))
      (fun g hg => hbound g (List.mem_of_mem_drop hg)), ← hparts, hbytes]

/-- The digits of a decimal byte: one to three, all of them hexadecimal too. -/
theorem appendDecimal_digits {x : Nat} (hx : x < 256) :
    (∀ c ∈ appendDecimal x, (hexDigit? c).isSome) ∧ (appendDecimal x).length ≤ 3 := by
  have h0 := hexDigit?_digitChar (d := x % 10) (by omega)
  have h1 := hexDigit?_digitChar (d := x / 10 % 10) (by omega)
  have h2 := hexDigit?_digitChar (d := x / 100) (by omega)
  unfold appendDecimal
  constructor
  · intro c hc
    simp only [List.mem_append, List.mem_singleton] at hc
    obtain (hc | hc) | rfl := hc
    · split at hc <;> simp_all
    · split at hc <;> simp_all
    · simp [h0]
  · simp only [List.length_append, List.length_singleton]
    split <;> split <;> simp

/-- The step of the loop at a dotted address, when an ellipsis came before. -/
theorem readGroups_string4 {bytes : List UInt8} (h : bytes.length = 4) {ip : List UInt8}
    (hroom : ip.length + 4 ≤ 16) (k e : Nat) :
    readGroups (k + 1) (some e) ip (string4 bytes) = some (ip ++ bytes, some e, []) := by
  have hne : bytes ≠ [] := by
    rintro rfl
    exact absurd h (by decide)
  have hfields : parseIPv4Fields [] 0 0 (string4 bytes) = some ([] ++ bytes) :=
    parseIPv4Fields_string4 hne (by rw [h]; rfl)
  match bytes, h with
  | b :: b' :: rest, h =>
    obtain ⟨hdigits, hlength⟩ := appendDecimal_digits b.toNat_lt
    have hsome := appendDecimal_ne_nil b.toNat
    have htext : string4 (b :: b' :: rest)
        = appendDecimal b.toNat ++ '.' :: string4 (b' :: rest) := rfl
    have hrun : (appendDecimal b.toNat ++ '.' :: string4 (b' :: rest)).takeWhile
        (fun c => (hexDigit? c).isSome) = appendDecimal b.toNat := takeWhile_run hdigits rfl
    rw [readGroups, htext, hrun, List.drop_left, ← htext, hfields]
    rw [if_neg (by simp [hsome]; omega)]
    simp only [reduceCtorEq, false_and, if_false]
    rw [if_neg (by omega)]
    rfl

theorem parseGroups_string4In6 {bytes : List UInt8} (h : bytes.length = 16)
    (hmapped : is4In6 bytes) : parseGroups (string4In6 bytes) = some bytes := by
  have hfront : bytes.take 12 = List.replicate 10 0 ++ [0xff, 0xff] := of_decide_eq_true hmapped
  have hlast : (bytes.drop 12).length = 4 := by rw [List.length_drop, h]
  -- the one group before the dotted address is `ffff`
  obtain ⟨c, tail, hhead, hc⟩ : ∃ c tail, string4 (bytes.drop 12) = c :: tail ∧ c ≠ ':' := by
    match hdrop : bytes.drop 12, hlast with
    | b :: b' :: rest, _ =>
      obtain ⟨hdigits, -⟩ := appendDecimal_digits b.toNat_lt
      obtain ⟨c, tail, hdecimal⟩ := List.exists_cons_of_ne_nil (appendDecimal_ne_nil b.toNat)
      refine ⟨c, tail ++ '.' :: string4 (b' :: rest), by simp [string4, hdecimal], ?_⟩
      rintro rfl
      exact absurd (hdigits ':' (by simp [hdecimal])) (by decide)
  have hgroup : "ffff".toList = appendHex 0xffff := by decide
  have htext : string4In6 bytes = ':' :: ':' :: 'f' :: ("fff:".toList ++ string4 (bytes.drop 12)) :=
    rfl
  have hffff : 'f' :: ("fff:".toList ++ string4 (bytes.drop 12)) = appendHex 0xffff ++ ':' :: c :: tail := by
    rw [← hgroup, ← hhead]
    rfl
  rw [htext, parseGroups_ellipsis, hffff, readGroups_colon (by omega) hc, ← hhead,
    readGroups_string4 hlast (by decide), Option.bind_some, expand, if_neg (by simp),
    if_pos (by simp [hlast, chunk])]
  have hbytes : bytes = bytes.take 12 ++ bytes.drop 12 := (List.take_append_drop 12 bytes).symm
  conv_rhs => rw [hbytes, hfront]
  simp [hlast, chunk]

/-! ## §8. An address and its text. -/

/-- What a written address is made of. -/
def InAddress (c : Char) : Prop := (hexDigit? c).isSome ∨ c = '.' ∨ c = ':'

theorem string4_chars (bytes : List UInt8) : ∀ c ∈ string4 bytes, InAddress c := by
  induction bytes with
  | nil =>
    intro c hc
    exact absurd hc (by simp [string4])
  | cons b rest ih =>
    intro c hc
    obtain ⟨hdigits, -⟩ := appendDecimal_digits b.toNat_lt
    cases rest with
    | nil => exact Or.inl (hdigits c hc)
    | cons b' rest =>
      rw [string4, List.mem_append, List.mem_cons] at hc
      obtain hc | hc | hc := hc
      · exact Or.inl (hdigits c hc)
      · exact Or.inr (Or.inl hc)
      · exact ih c hc
      · simp

theorem colons_chars {gs : List Nat} (hbound : ∀ g ∈ gs, g < 65536) :
    ∀ c ∈ colons gs, InAddress c := by
  induction gs with
  | nil =>
    intro c hc
    exact absurd hc (by simp [colons])
  | cons g rest ih =>
    intro c hc
    obtain ⟨hdigits, -, -⟩ := appendHex_digits (hbound g (by simp))
    cases rest with
    | nil => exact Or.inl (hdigits c hc)
    | cons g' rest =>
      rw [colons, List.mem_append, List.mem_cons] at hc
      obtain hc | hc | hc := hc
      · exact Or.inl (hdigits c hc)
      · exact Or.inr (Or.inr hc)
      · exact ih (fun x hx => hbound x (by simp [hx])) c hc
      · simp

theorem string6_chars {bytes : List UInt8} (h : bytes.length = 16) :
    ∀ c ∈ string6 bytes, InAddress c := by
  obtain ⟨-, -, hbound⟩ := groups_bytes (n := 8) h
  unfold string6
  cases zeroRun (groups bytes) with
  | none => exact colons_chars hbound
  | some run =>
    intro c hc
    simp only [List.mem_append, List.mem_cons] at hc
    obtain hc | hc | hc | hc := hc
    · exact colons_chars (fun g hg => hbound g (List.mem_of_mem_take hg)) c hc
    · exact Or.inr (Or.inr hc)
    · exact Or.inr (Or.inr hc)
    · exact colons_chars (fun g hg => hbound g (List.mem_of_mem_drop hg)) c hc

theorem string4In6_chars (bytes : List UInt8) : ∀ c ∈ string4In6 bytes, InAddress c := by
  intro c hc
  obtain hc | hc := List.mem_append.mp hc
  · obtain rfl | rfl | rfl : c = ':' ∨ c = 'f' ∨ c = ':' := by simpa using hc
    · exact Or.inr (Or.inr rfl)
    · exact Or.inl (by decide)
    · exact Or.inr (Or.inr rfl)
  · exact string4_chars _ c hc

theorem writeAddr_chars {family : Family} {bytes : List UInt8} (h : bytes.length = family.size) :
    ∀ c ∈ writeAddr family bytes, InAddress c := by
  cases family with
  | v4 => exact string4_chars bytes
  | v6 =>
    cases hmapped : is4In6 bytes with
    | true =>
      rw [writeAddr, hmapped]
      exact string4In6_chars bytes
    | false =>
      rw [writeAddr, hmapped]
      exact string6_chars h

/-- The separator that decides who reads a text stands behind its first digits. -/
theorem find?_behind {digits : List Char} (hdigits : ∀ c ∈ digits, (hexDigit? c).isSome)
    (rest : List Char) {x : Char} (hx : x = '.' ∨ x = ':' ∨ x = '%') :
    (digits ++ x :: rest).find? (fun c => decide (c = '.' ∨ c = ':' ∨ c = '%')) = some x := by
  have hnone : digits.find? (fun c => decide (c = '.' ∨ c = ':' ∨ c = '%')) = none := by
    rw [List.find?_eq_none]
    intro c hc hsep
    have hdigit := hdigits c hc
    obtain rfl | rfl | rfl := of_decide_eq_true hsep
    · exact absurd hdigit (by decide)
    · exact absurd hdigit (by decide)
    · exact absurd hdigit (by decide)
  rw [List.find?_append, hnone, Option.none_or, List.find?_cons_of_pos (by simpa using hx)]

/-- Two groups and more have a colon behind the first one. -/
theorem colons_colon {gs : List Nat} (hbound : ∀ g ∈ gs, g < 65536) (rest : List Char)
    (hcolon : rest.head? = some ':' ∨ 2 ≤ gs.length) :
    ∃ digits tail, colons gs ++ rest = digits ++ ':' :: tail
      ∧ ∀ c ∈ digits, (hexDigit? c).isSome := by
  match gs with
  | [] =>
    cases rest with
    | nil => simp at hcolon
    | cons c tail =>
      obtain rfl : c = ':' := by simpa using hcolon
      exact ⟨[], tail, rfl, by simp⟩
  | [g] =>
    obtain ⟨hdigits, -, -⟩ := appendHex_digits (hbound g (by simp))
    cases rest with
    | nil => simp at hcolon
    | cons c tail =>
      obtain rfl : c = ':' := by simpa using hcolon
      exact ⟨appendHex g, tail, rfl, hdigits⟩
  | g :: g' :: gs =>
    obtain ⟨hdigits, -, -⟩ := appendHex_digits (hbound g (by simp))
    exact ⟨appendHex g, colons (g' :: gs) ++ rest, by simp [colons], hdigits⟩

theorem string6_colon {bytes : List UInt8} (h : bytes.length = 16) :
    ∃ digits tail, string6 bytes = digits ++ ':' :: tail ∧ ∀ c ∈ digits, (hexDigit? c).isSome := by
  obtain ⟨h8, -, hbound⟩ := groups_bytes (n := 8) h
  unfold string6
  cases zeroRun (groups bytes) with
  | none =>
    have hcolon := colons_colon hbound [] (Or.inr (by omega))
    rwa [List.append_nil] at hcolon
  | some run =>
    exact colons_colon (fun g hg => hbound g (List.mem_of_mem_take hg)) _ (Or.inl rfl)

/-- A text without a zone is read as groups. -/
theorem parseIPv6_of_chars {s : List Char} (hchars : ∀ c ∈ s, InAddress c) :
    parseIPv6 s = (parseGroups s).map (⟨.v6, ·, []⟩) := by
  have hpercent : ∀ c ∈ s, decide (c ≠ '%') = true := by
    intro c hc
    rw [decide_eq_true_iff]
    rintro rfl
    exact absurd (hchars '%' hc) (by simp [InAddress]; decide)
  have htake : s.takeWhile (fun c => decide (c ≠ '%')) = s := List.takeWhile_eq_self_iff.mpr hpercent
  rw [parseIPv6, htake, List.drop_length]
  rfl

/-- **What is written is read back**, in the family it was written in. -/
theorem parseAddr_writeAddr {family : Family} {bytes : List UInt8}
    (h : bytes.length = family.size) :
    parseAddr (writeAddr family bytes) = some ⟨family, bytes, []⟩ := by
  have hchars := writeAddr_chars h
  cases family with
  | v4 =>
    have hne : bytes ≠ [] := by
      rintro rfl
      exact absurd h (by decide)
    have hfields : parseIPv4Fields [] 0 0 (string4 bytes) = some ([] ++ bytes) :=
      parseIPv4Fields_string4 hne (by rw [h]; rfl)
    show parseAddr (string4 bytes) = _
    match bytes, h with
    | b :: b' :: rest, _ =>
      obtain ⟨hdigits, -⟩ := appendDecimal_digits b.toNat_lt
      have hfirst := find?_behind hdigits (string4 (b' :: rest)) (Or.inl (rfl : '.' = '.'))
      have htext : string4 (b :: b' :: rest)
          = appendDecimal b.toNat ++ '.' :: string4 (b' :: rest) := rfl
      rw [← htext] at hfirst
      rw [parseAddr, hfirst]
      show (parseIPv4Fields [] 0 0 (string4 (b :: b' :: rest))).map _ = _
      rw [hfields]
      rfl
  | v6 =>
    have hcolon : ∃ digits tail, writeAddr .v6 bytes = digits ++ ':' :: tail
        ∧ ∀ c ∈ digits, (hexDigit? c).isSome := by
      show ∃ digits tail, (if is4In6 bytes then string4In6 bytes else string6 bytes) = _ ∧ _
      split
      · exact ⟨[], ":ffff:".toList ++ string4 (bytes.drop 12), rfl, by simp⟩
      · exact string6_colon h
    obtain ⟨digits, tail, htext, hdigits⟩ := hcolon
    have hfirst := find?_behind hdigits tail (Or.inr (Or.inl (rfl : ':' = ':')))
    rw [← htext] at hfirst
    have hgroups : parseGroups (writeAddr .v6 bytes) = some bytes := by
      show parseGroups (if is4In6 bytes then string4In6 bytes else string6 bytes) = _
      split
      · rename_i hmapped
        exact parseGroups_string4In6 h hmapped
      · exact parseGroups_string6 h
    rw [parseAddr, hfirst]
    show parseIPv6 (writeAddr .v6 bytes) = _
    rw [parseIPv6_of_chars hchars, hgroups]
    rfl

/-! ## §9. What is accepted. -/

/-- Four bytes, from digits and points alone. -/
theorem parseIPv4Fields_spec {s : List Char} :
    ∀ {fields : List UInt8} {val digLen : Nat} {bytes : List UInt8}, fields.length ≤ 3 →
      parseIPv4Fields fields val digLen s = some bytes → bytes.length = 4 ∧ ':' ∉ s := by
  induction s with
  | nil =>
    intro fields val digLen bytes hfields h
    rw [parseIPv4Fields] at h
    split at h
    · exact absurd h (by simp)
    · cases h
      exact ⟨by simp; omega, by simp⟩
  | cons c rest ih =>
    intro fields val digLen bytes hfields h
    rw [parseIPv4Fields] at h
    have hcolon : digit? ':' = none := by decide
    split at h
    · -- a digit
      rename_i d hd
      have hc : c ≠ ':' := by
        rintro rfl
        exact absurd (hcolon.symm.trans hd) (by simp)
      split at h
      · exact absurd h (by simp)
      split at h
      · exact absurd h (by simp)
      obtain ⟨hlength, hrest⟩ := ih hfields h
      exact ⟨hlength, by simp [hrest, hc.symm]⟩
    · -- a point, or nothing that is accepted
      split at h
      · rename_i hpoint
        subst hpoint
        split at h
        · exact absurd h (by simp)
        split at h
        · exact absurd h (by simp)
        obtain ⟨hlength, hrest⟩ := ih (by simp; omega) h
        exact ⟨hlength, by simp [hrest]⟩
      · exact absurd h (by simp)

theorem readGroups_length {k : Nat} :
    ∀ {ellipsis : Option Nat} {ip : List UInt8} {s : List Char}
      {out : List UInt8 × Option Nat × List Char}, ip.length + 2 * k ≤ 16 →
      readGroups k ellipsis ip s = some out → out.1.length ≤ 16 := by
  induction k with
  | zero =>
    intro ellipsis ip s out hroom h
    cases h
    exact hroom
  | succ k ih =>
    intro ellipsis ip s out hroom h
    rw [readGroups] at h
    have hchunk : ∀ digits, (ip ++ chunk digits).length = ip.length + 2 := by simp [chunk]
    split at h
    · exact absurd h (by simp)
    split at h
    · -- the end of the text
      cases h
      rw [hchunk]
      omega
    · -- an IPv4 address at the end
      split at h
      · exact absurd h (by simp)
      split at h
      · exact absurd h (by simp)
      obtain ⟨fields, hfields, rfl⟩ := Option.map_eq_some_iff.mp h
      have hfour := (parseIPv4Fields_spec (by simp) hfields).1
      show (ip ++ fields).length ≤ 16
      rw [List.length_append]
      omega
    · exact absurd h (by simp)
    · split at h
      · exact absurd h (by simp)
      split at h
      · cases h
        rw [hchunk]
        omega
      · exact ih (by rw [hchunk]; omega) h
    · exact ih (by rw [hchunk]; omega) h
    · exact absurd h (by simp)

theorem expand_length {out : List UInt8 × Option Nat × List Char} {bytes : List UInt8}
    (hroom : out.1.length ≤ 16) (h : expand out = some bytes) : bytes.length = 16 := by
  obtain ⟨ip, ellipsis, rest⟩ := out
  rw [expand] at h
  split at h
  · exact absurd h (by simp)
  split at h
  · obtain ⟨e, -, rfl⟩ := Option.map_eq_some_iff.mp h
    simp only [List.length_append, List.length_take, List.length_replicate, List.length_drop]
    omega
  split at h
  · exact absurd h (by simp)
  cases h
  simp at hroom
  omega

theorem parseGroups_length {s : List Char} {bytes : List UInt8}
    (h : parseGroups s = some bytes) : bytes.length = 16 := by
  unfold parseGroups at h
  split at h
  · cases h
    rfl
  · obtain ⟨out, hread, hexpand⟩ := Option.bind_eq_some_iff.mp h
    exact expand_length (readGroups_length (by simp) hread) hexpand
  · obtain ⟨out, hread, hexpand⟩ := Option.bind_eq_some_iff.mp h
    exact expand_length (readGroups_length (by simp) hread) hexpand

/-- **An accepted text** has the bytes of its family, which is IPv6 exactly when a
colon is written. -/
theorem parseAddr_spec {s : List Char} {a : Addr} (h : parseAddr s = some a) :
    a.bytes.length = a.family.size ∧ (a.family = .v6 ↔ ':' ∈ s) := by
  unfold parseAddr at h
  split at h
  · obtain ⟨bytes, hfields, rfl⟩ := Option.map_eq_some_iff.mp h
    obtain ⟨hlength, hcolon⟩ := parseIPv4Fields_spec (by simp) hfields
    exact ⟨hlength, by simp [hcolon]⟩
  · rename_i hfirst
    have hcolon : ':' ∈ s := List.mem_of_find?_eq_some hfirst
    rw [parseIPv6] at h
    split at h
    · exact absurd h (by simp)
    · obtain ⟨bytes, hgroups, rfl⟩ := Option.map_eq_some_iff.mp h
      exact ⟨parseGroups_length hgroups, by simp [hcolon]⟩
  · exact absurd h (by simp)

end Foundation.IpText
