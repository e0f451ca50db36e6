/-
  Momento.Foundation.IpNetwork

  **RANGES OF ADDRESSES.**  A prefix of one family stands for the addresses that
  share its first bits.  Go's `net` keeps it as an address under a mask: `ParseCIDR`,
  `IPMask.Size`, `IPNet.String`; `net/netip` as `Prefix`.  An address of package
  `net` may have four bytes or sixteen; `nil` is the slice without bytes.
-/
import Mathlib.Data.Set.Basic
import Momento.Foundation.IpText

namespace Foundation.IpNetwork

open Foundation.IpText

/-! ## §1. Prefixes. -/

/-- Bit `i` of an address, from the top. -/
def bit (bytes : List UInt8) (i : Nat) : Bool := (bytes.getD (i / 8) 0).toNat.testBit (7 - i % 8)

/-- An address of its family, and how many of its bits count. -/
structure Prefix where
  family : Family
  address : List UInt8
  ones : Nat
  length_address : address.length = family.size
  ones_le : ones ≤ 8 * family.size

namespace Prefix

/-- The addresses of the family that share the first bits. -/
def addresses (p : Prefix) : Set (List UInt8) :=
  {a | a.length = p.family.size ∧ ∀ i < p.ones, bit a i = bit p.address i}

/-- No bit right of the prefix is set. -/
def HostBitsClear (p : Prefix) : Prop := ∀ i, p.ones ≤ i → bit p.address i = false

end Prefix

/-! ## §2. Masks. -/

/-- The loop of `net.CIDRMask`: `n` ones are left for the `l` bytes to come. -/
def maskBytes : Nat → Nat → List UInt8
  | 0, _ => []
  | l + 1, n =>
    if 8 ≤ n then 0xff :: maskBytes l (n - 8) else ~~~(0xff >>> UInt8.ofNat n) :: maskBytes l 0

/-- `net.CIDRMask`. -/
def cidrMask (ones bits : Nat) : List UInt8 :=
  if (bits ≠ 32 ∧ bits ≠ 128) ∨ bits < ones then [] else maskBytes (bits / 8) ones

/-- `IP.Mask`. -/
def ipMask (ip mask : List UInt8) : List UInt8 :=
  let mask' := if mask.length = 16 ∧ ip.length = 4 ∧ (mask.take 12).all (· = 0xff) then mask.drop 12
    else mask
  let ip' := if mask'.length = 4 ∧ ip.length = 16 ∧ is4In6 ip then ip.drop 12 else ip
  if ip'.length ≠ mask'.length then [] else List.zipWith (· &&& ·) ip' mask'

/-- The inner loop of `simpleMaskLength`: the ones at the top of a byte, and what the
shifts left of it. -/
def leadingOnes : Nat → UInt8 → Nat × UInt8
  | 0, v => (0, v)
  | k + 1, v => if v &&& 0x80 = 0 then (0, v)
    else ((leadingOnes k (v <<< 1)).1 + 1, (leadingOnes k (v <<< 1)).2)

/-- `simpleMaskLength`; `none` is -1. -/
def simpleMaskLength : List UInt8 → Option Nat
  | [] => some 0
  | v :: rest =>
    if v = 0xff then (simpleMaskLength rest).map (· + 8)
    else if (leadingOnes 8 v).2 ≠ 0 ∨ rest.any (· ≠ 0) then none
    else some (leadingOnes 8 v).1

/-- `IPMask.Size`. -/
def maskSize (mask : List UInt8) : Nat × Nat :=
  match simpleMaskLength mask with
  | none => (0, 0)
  | some ones => (ones, mask.length * 8)

/-! ## §3. Networks. -/

/-- `IP.To4`. -/
def to4 (ip : List UInt8) : List UInt8 :=
  if ip.length = 4 then ip else if ip.length = 16 ∧ is4In6 ip then ip.drop 12 else []

/-- `v4InV6Prefix`. -/
def v4InV6 : List UInt8 := List.replicate 10 0 ++ [0xff, 0xff]

/-- `IP.To16`. -/
def to16 (ip : List UInt8) : List UInt8 :=
  if ip.length = 4 then v4InV6 ++ ip else if ip.length = 16 then ip else []

/-- `Addr.As16`. -/
def as16 (a : Addr) : List UInt8 :=
  match a.family with
  | .v4 => v4InV6 ++ a.bytes
  | .v6 => a.bytes

/-- `hexString`. -/
def hexString (bytes : List UInt8) : List Char :=
  bytes.flatMap fun b => [Nat.digitChar (b.toNat / 16), Nat.digitChar (b.toNat % 16)]

/-- `IP.String`. -/
def ipString (ip : List UInt8) : List Char :=
  if ip.length = 0 then "<nil>".toList
  else if ip.length ≠ 4 ∧ ip.length ≠ 16 then '?' :: hexString ip
  else if (to4 ip).length = 4 then writeAddr .v4 (to4 ip)
  else writeAddr .v6 ip

/-- `net.IPNet`. -/
structure Network where
  ip : List UInt8
  mask : List UInt8

/-- `networkNumberAndMask`. -/
def networkNumberAndMask (n : Network) : List UInt8 × List UInt8 :=
  let ip := if to4 n.ip = [] then n.ip else to4 n.ip
  if to4 n.ip = [] ∧ ip.length ≠ 16 then ([], [])
  else if n.mask.length = 4 then if ip.length ≠ 4 then ([], []) else (ip, n.mask)
  else if n.mask.length = 16 then (ip, if ip.length = 4 then n.mask.drop 12 else n.mask)
  else ([], [])

/-- `IPNet.String`. -/
def Network.string (n : Network) : List Char :=
  let (nn, m) := networkNumberAndMask n
  if nn = [] ∨ m = [] then "<nil>".toList
  else match simpleMaskLength m with
    | none => ipString nn ++ '/' :: hexString m
    | some l => ipString nn ++ '/' :: Nat.toDigits 10 l

/-- `netip.AddrFromSlice`. -/
def addrFromSlice (slice : List UInt8) : Option Addr :=
  if slice.length = 4 then some ⟨.v4, slice, []⟩
  else if slice.length = 16 then some ⟨.v6, slice, []⟩
  else none

/-- `netip.PrefixFrom(addr, bits).String()`. -/
def prefixString (addr : Addr) (bits : Nat) : List Char :=
  if 8 * addr.family.size < bits then "invalid Prefix".toList
  else writeAddr addr.family addr.bytes ++ '/' :: Nat.toDigits 10 bits

/-! ## §4. Reading a range. -/

/-- The loop of `dtoi`: the number, and the text behind it. -/
def dtoiLoop (n : Nat) : List Char → Option (Nat × List Char)
  | [] => some (n, [])
  | c :: rest => match digit? c with
    | some d => if 0xFFFFFF ≤ n * 10 + d then none else dtoiLoop (n * 10 + d) rest
    | none => some (n, c :: rest)

/-- `dtoi`. -/
def dtoi (s : List Char) : Option (Nat × List Char) :=
  if (s.head?.bind digit?).isNone then none else dtoiLoop 0 s

/-- `net.ParseCIDR`: the address, and its network. -/
def parseCIDR (text : String) : Except String (List UInt8 × Network) :=
  let refused := .error ("invalid CIDR address: " ++ text)
  let addr := text.toList.takeWhile (· ≠ '/')
  match text.toList.drop addr.length with
  | [] => refused
  | _ :: mask => match parseAddr addr with
    | none => refused
    | some a =>
      if a.zone ≠ [] then refused
      else match dtoi mask with
        | some (n, []) =>
          if 8 * a.family.size < n then refused
          else .ok (as16 a, ⟨ipMask (as16 a) (cidrMask n (8 * a.family.size)),
            cidrMask n (8 * a.family.size)⟩)
        | _ => refused

/-! ## §5. Bits. -/

theorem bit_cons_low {b : UInt8} {rest : List UInt8} {i : Nat} (h : i < 8) :
    bit (b :: rest) i = b.toNat.testBit (7 - i) := by
  have hdiv : i / 8 = 0 := by omega
  have hmod : i % 8 = i := by omega
  rw [bit, hdiv, hmod]
  rfl

theorem bit_cons_high {b : UInt8} {rest : List UInt8} {i : Nat} (h : 8 ≤ i) :
    bit (b :: rest) i = bit rest (i - 8) := by
  have hdiv : i / 8 = (i - 8) / 8 + 1 := by omega
  have hmod : (i - 8) % 8 = i % 8 := by omega
  rw [bit, bit, hdiv, hmod]
  rfl

theorem bit_nil (i : Nat) : bit [] i = false := by
  show (0 : Nat).testBit (7 - i % 8) = false
  exact Nat.zero_testBit _

theorem bit_take {bytes : List UInt8} {n i : Nat} (h : i < 8 * n) :
    bit (bytes.take n) i = bit bytes i := by
  have hbyte : i / 8 < n := by omega
  rw [bit, bit, List.getD_eq_getElem?_getD, List.getD_eq_getElem?_getD,
    List.getElem?_take_of_lt hbyte]

theorem uint8_ext {a b : UInt8} (h : ∀ i < 8, a.toNat.testBit i = b.toNat.testBit i) : a = b := by
  apply UInt8.toNat_inj.mp
  apply Nat.eq_of_testBit_eq
  intro i
  by_cases hi : i < 8
  · exact h i hi
  · -- no byte has a bit there
    have hpow : 2 ^ 8 ≤ 2 ^ i := Nat.pow_le_pow_right (by omega) (by omega)
    rw [Nat.testBit_lt_two_pow (Nat.lt_of_lt_of_le a.toNat_lt hpow),
      Nat.testBit_lt_two_pow (Nat.lt_of_lt_of_le b.toNat_lt hpow)]

/-- Addresses of one length are the same when their bits are. -/
theorem eq_of_bits {a : List UInt8} :
    ∀ {b : List UInt8}, a.length = b.length → (∀ i < 8 * a.length, bit a i = bit b i) → a = b := by
  induction a with
  | nil =>
    intro b hlength _
    exact (List.length_eq_zero_iff.mp hlength.symm).symm
  | cons x a ih =>
    intro b hlength h
    cases b with
    | nil => exact absurd hlength (by simp)
    | cons y b =>
      have hhead : x = y := by
        apply uint8_ext
        intro i hi
        have hbit := h (7 - i) (by simp; omega)
        rw [bit_cons_low (by omega), bit_cons_low (by omega)] at hbit
        have hback : 7 - (7 - i) = i := by omega
        rwa [hback] at hbit
      have htail : a = b := by
        apply ih (by simpa using hlength)
        intro i hi
        have hbit := h (i + 8) (by simp; omega)
        rwa [bit_cons_high (by omega), bit_cons_high (by omega), Nat.add_sub_cancel] at hbit
      rw [hhead, htail]

theorem bit_and {a : List UInt8} :
    ∀ {m : List UInt8}, ∀ i, bit (List.zipWith (· &&& ·) a m) i = (bit a i && bit m i) := by
  induction a with
  | nil =>
    intro m i
    rw [List.zipWith_nil_left, bit_nil, Bool.false_and]
  | cons x a ih =>
    intro m i
    cases m with
    | nil => rw [List.zipWith_nil_right, bit_nil, Bool.and_false]
    | cons y m =>
      rw [List.zipWith_cons_cons]
      by_cases hi : i < 8
      · rw [bit_cons_low hi, bit_cons_low hi, bit_cons_low hi, UInt8.toNat_and, Nat.testBit_and]
      · have hge : 8 ≤ i := by omega
        rw [bit_cons_high hge, bit_cons_high hge, bit_cons_high hge, ih]

/-! ## §6. The mask of a prefix. -/

/-- The byte where the ones end. -/
theorem boundary_bit : ∀ {n : Nat}, n < 8 → ∀ {i : Nat}, i < 8 →
    (~~~(0xff >>> UInt8.ofNat n) : UInt8).toNat.testBit (7 - i) = decide (i < n) := by
  decide

theorem boundary_ones : ∀ {n : Nat}, n < 8 →
    (~~~(0xff >>> UInt8.ofNat n) : UInt8) ≠ 0xff
      ∧ leadingOnes 8 (~~~(0xff >>> UInt8.ofNat n)) = (n, 0) := by
  decide

theorem maskBytes_length (l : Nat) : ∀ n, (maskBytes l n).length = l := by
  induction l with
  | zero => intro n; rfl
  | succ l ih =>
    intro n
    rw [maskBytes]
    split
    · rw [List.length_cons, ih]
    · rw [List.length_cons, ih]

/-- **The mask has its ones first.** -/
theorem bit_maskBytes (l : Nat) : ∀ n i, bit (maskBytes l n) i = decide (i < n ∧ i < 8 * l) := by
  induction l with
  | zero =>
    intro n i
    rw [maskBytes, bit_nil]
    simp
  | succ l ih =>
    intro n i
    rw [maskBytes]
    by_cases hn : 8 ≤ n
    · rw [if_pos hn]
      by_cases hi : i < 8
      · have hone : ∀ {i : Nat}, i < 8 → (0xff : UInt8).toNat.testBit (7 - i) = true := by decide
        rw [bit_cons_low hi, hone hi]
        simp
        omega
      · rw [bit_cons_high (by omega), ih]
        congr 1
        apply propext
        omega
    · rw [if_neg hn]
      by_cases hi : i < 8
      · rw [bit_cons_low hi, boundary_bit (by omega) hi]
        congr 1
        apply propext
        omega
      · rw [bit_cons_high (by omega), ih]
        congr 1
        apply propext
        omega

theorem maskBytes_zero (l : Nat) : (maskBytes l 0).any (· ≠ 0) = false := by
  induction l with
  | zero => rfl
  | succ l ih =>
    rw [maskBytes, if_neg (by omega), List.any_cons, ih]
    rfl

/-- `IPMask.Size` finds the prefix length again. -/
theorem simpleMaskLength_maskBytes (l : Nat) :
    ∀ {n}, n ≤ 8 * l → simpleMaskLength (maskBytes l n) = some n := by
  induction l with
  | zero =>
    intro n hn
    obtain rfl : n = 0 := by omega
    rfl
  | succ l ih =>
    intro n hn
    rw [maskBytes]
    by_cases h8 : 8 ≤ n
    · rw [if_pos h8, simpleMaskLength, if_pos rfl, ih (by omega), Option.map_some]
      congr 1
      omega
    · obtain ⟨hff, hones⟩ := boundary_ones (n := n) (by omega)
      rw [if_neg h8, simpleMaskLength, if_neg hff, hones, maskBytes_zero]
      simp

theorem cidrMask_size {family : Family} {n : Nat} (h : n ≤ 8 * family.size) :
    cidrMask n (8 * family.size) = maskBytes family.size n := by
  have hbits : 8 * family.size = 32 ∨ 8 * family.size = 128 := by
    cases family with
    | v4 => exact Or.inl rfl
    | v6 => exact Or.inr rfl
  rw [cidrMask, if_neg (by omega), Nat.mul_div_cancel_left _ (by omega)]

/-! ## §7. Clearing the host bits. -/

namespace Prefix
variable (p : Prefix)

/-- The prefix with its host bits cleared. -/
def network : Prefix where
  family := p.family
  address := List.zipWith (· &&& ·) p.address (maskBytes p.family.size p.ones)
  ones := p.ones
  length_address := by
    rw [List.length_zipWith, p.length_address, maskBytes_length, Nat.min_self]
  ones_le := p.ones_le

theorem bit_network (i : Nat) :
    bit p.network.address i = (bit p.address i && decide (i < p.ones)) := by
  have hones := p.ones_le
  show bit (List.zipWith (· &&& ·) p.address (maskBytes p.family.size p.ones)) i = _
  rw [bit_and, bit_maskBytes]
  congr 1
  -- the prefix ends before the address does
  simp
  omega

theorem hostBitsClear_network : p.network.HostBitsClear := by
  intro i hi
  have hnot : ¬i < p.ones := Nat.not_lt.mpr hi
  rw [bit_network, decide_eq_false hnot, Bool.and_false]

/-- **Clearing the host bits leaves the addresses.** -/
theorem addresses_network : p.network.addresses = p.addresses := by
  have hsame : ∀ i < p.ones, bit p.network.address i = bit p.address i := by
    intro i hi
    rw [bit_network, decide_eq_true hi, Bool.and_true]
  ext a
  constructor
  · intro ha
    exact ⟨ha.1, fun i hi => (ha.2 i hi).trans (hsame i hi)⟩
  · intro ha
    exact ⟨ha.1, fun i hi => (ha.2 i hi).trans (hsame i hi).symm⟩

theorem ext_of {p q : Prefix} (hfamily : p.family = q.family) (haddress : p.address = q.address)
    (hones : p.ones = q.ones) : p = q := by
  cases p
  cases q
  cases hfamily
  cases haddress
  cases hones
  rfl

/-- A prefix without host bits is its network. -/
theorem network_eq {p : Prefix} (h : p.HostBitsClear) : p.network = p := by
  have hlength : p.network.address.length = p.address.length :=
    p.network.length_address.trans p.length_address.symm
  have haddress : p.network.address = p.address := by
    apply eq_of_bits hlength
    intro i _
    rw [bit_network]
    by_cases hi : i < p.ones
    · rw [decide_eq_true hi, Bool.and_true]
    · rw [h i (Nat.not_lt.mp hi), Bool.false_and]
  exact ext_of rfl haddress rfl

theorem network_network : p.network.network = p.network := network_eq p.hostBitsClear_network

/-- A masked address is IPv4-mapped only if it was before. -/
theorem is4In6_of_network (hfamily : p.family = .v6) (h : is4In6 p.network.address) :
    is4In6 p.address := by
  have hsize : p.family.size = 16 := by rw [hfamily]; rfl
  have hmasked : p.network.address.take 12 = v4InV6 := of_decide_eq_true h
  -- the last bit of `ffff` is set, so the mask covers it and all bits before
  have hlast : bit p.network.address 95 = true := by
    rw [← bit_take (n := 12) (by omega), hmasked]
    decide
  rw [bit_network, Bool.and_eq_true, decide_eq_true_iff] at hlast
  have htake : p.address.take 12 = p.network.address.take 12 := by
    apply eq_of_bits
    · rw [List.length_take, List.length_take, p.length_address, p.network.length_address]
      rfl
    · intro i hi
      rw [List.length_take, p.length_address, hsize] at hi
      rw [bit_take (by omega), bit_take (by omega), bit_network, decide_eq_true (by omega),
        Bool.and_true]
  exact decide_eq_true (htake.trans hmasked)

/-- `Prefix.String`, in the family of the prefix. -/
def render : List Char := writeAddr p.family p.address ++ '/' :: Nat.toDigits 10 p.ones

end Prefix

/-! ## §8. Reading a range. -/

/-- What a text says: an address of the family without a zone, a slash, and a number. -/
def Denotes (text : List Char) (p : Prefix) : Prop :=
  ∃ addr ones, text = addr ++ '/' :: ones ∧ '/' ∉ addr
    ∧ parseAddr addr = some ⟨p.family, p.address, []⟩ ∧ dtoi ones = some (p.ones, [])

theorem cut_slash {addr : List Char} (h : '/' ∉ addr) (rest : List Char) :
    (addr ++ '/' :: rest).takeWhile (· ≠ '/') = addr := by
  apply takeWhile_run
  · intro c hc
    rw [decide_eq_true_iff]
    rintro rfl
    exact h hc
  · rfl

/-- The text before and behind the first slash. -/
theorem slash_of_cut {text rest : List Char} {x : Char}
    (h : text.drop (text.takeWhile (· ≠ '/')).length = x :: rest) :
    text = text.takeWhile (· ≠ '/') ++ '/' :: rest ∧ '/' ∉ text.takeWhile (· ≠ '/') := by
  have hparts := List.takeWhile_append_dropWhile (p := fun c => decide (c ≠ '/')) (l := text)
  have hdrop : text.dropWhile (· ≠ '/') = x :: rest := by
    rw [← h]
    conv_rhs => rw [← hparts]
    rw [List.drop_left' (by rw [hparts])]
  have hx : x = '/' := by
    have hnot := List.head?_dropWhile_not (fun c => decide (c ≠ '/')) text
    rw [hdrop] at hnot
    simpa using hnot
  subst hx
  constructor
  · rw [← hdrop, hparts]
  · intro hmem
    exact absurd (List.mem_takeWhile_imp hmem) (by simp)

/-- A text denotes at most one prefix. -/
theorem Denotes.unique {text : List Char} {p q : Prefix} (hp : Denotes text p)
    (hq : Denotes text q) : p = q := by
  obtain ⟨addr, ones, rfl, hslash, haddr, hones⟩ := hp
  obtain ⟨addr', ones', htext, hslash', haddr', hones'⟩ := hq
  have hsame : addr = addr' := by
    rw [← cut_slash hslash ones, htext, cut_slash hslash']
  subst hsame
  obtain ⟨-, rfl⟩ : '/' = '/' ∧ ones = ones' := by simpa using htext
  rw [haddr] at haddr'
  rw [hones] at hones'
  injection haddr' with haddr'
  injection haddr' with hfamily haddress
  injection hones' with hones'
  injection hones' with hones'
  exact Prefix.ext_of hfamily haddress hones'

theorem dtoiLoop_digits {s : List Char} :
    ∀ {n m : Nat}, dtoiLoop n s = some (m, []) → ∀ c ∈ s, (digit? c).isSome := by
  induction s with
  | nil =>
    intro n m _ c hc
    exact absurd hc (by simp)
  | cons c rest ih =>
    intro n m h
    rw [dtoiLoop] at h
    split at h
    · rename_i d hd
      split at h
      · exact absurd h (by simp)
      intro x hx
      cases List.mem_cons.mp hx with
      | inl hx => rw [hx, hd]; rfl
      | inr hx => exact ih h x hx
    · exact absurd h (by simp)

/-- **A colon is written exactly where the family is IPv6.** -/
theorem Denotes.colon {text : List Char} {p : Prefix} (h : Denotes text p) :
    p.family = .v6 ↔ ':' ∈ text := by
  obtain ⟨addr, ones, rfl, -, haddr, hones⟩ := h
  have hcolon : p.family = .v6 ↔ ':' ∈ addr := (parseAddr_spec haddr).2
  have hnumber : ':' ∉ ones := by
    intro hmem
    rw [dtoi] at hones
    split at hones
    · exact absurd hones (by simp)
    · exact absurd (dtoiLoop_digits hones ':' hmem) (by decide)
  rw [hcolon]
  simp [hnumber]

theorem le_ofDigitChars {digits : List Char} :
    ∀ {n : Nat}, n ≤ Nat.ofDigitChars 10 digits n := by
  induction digits with
  | nil => intro n; simp
  | cons c rest ih =>
    intro n
    rw [Nat.ofDigitChars_cons]
    exact Nat.le_trans (by omega) ih

theorem digit?_of_isDigit {c : Char} (h : c.isDigit) : digit? c = some (c.toNat - '0'.toNat) := by
  have hrange : '0' ≤ c ∧ c ≤ '9' := by
    simpa [Char.isDigit, Char.le_def] using h
  rw [digit?, if_pos hrange]

/-- The loop reads a decimal that stays small. -/
theorem dtoiLoop_decimal {digits : List Char} (hdigits : ∀ c ∈ digits, c.isDigit) :
    ∀ {n : Nat}, Nat.ofDigitChars 10 digits n < 0xFFFFFF →
      dtoiLoop n digits = some (Nat.ofDigitChars 10 digits n, []) := by
  induction digits with
  | nil => intro n _; rw [dtoiLoop, Nat.ofDigitChars_nil]
  | cons c rest ih =>
    intro n hsmall
    have hnext : 10 * n + (c.toNat - '0'.toNat) = n * 10 + (c.toNat - '0'.toNat) := by omega
    rw [Nat.ofDigitChars_cons, hnext] at hsmall ⊢
    have hle : n * 10 + (c.toNat - '0'.toNat)
        ≤ Nat.ofDigitChars 10 rest (n * 10 + (c.toNat - '0'.toNat)) := le_ofDigitChars
    rw [dtoiLoop, digit?_of_isDigit (hdigits c (by simp))]
    show (if 0xFFFFFF ≤ n * 10 + (c.toNat - '0'.toNat) then none
      else dtoiLoop (n * 10 + (c.toNat - '0'.toNat)) rest) = _
    rw [if_neg (by omega), ih (fun x hx => hdigits x (by simp [hx])) hsmall]

theorem dtoi_toDigits {n : Nat} (h : n < 0xFFFFFF) : dtoi (Nat.toDigits 10 n) = some (n, []) := by
  have hdigits : ∀ c ∈ Nat.toDigits 10 n, c.isDigit := fun c hc =>
    Nat.isDigit_of_mem_toDigits (by decide) (by decide) hc
  obtain ⟨c, rest, htext⟩ := List.exists_cons_of_ne_nil (Nat.toDigits_ne_nil (n := n) (b := 10))
  have hfirst : (((Nat.toDigits 10 n).head?.bind digit?).isNone) = false := by
    rw [htext]
    show (digit? c).isNone = false
    rw [digit?_of_isDigit (hdigits c (by simp [htext]))]
    rfl
  rw [dtoi, hfirst, if_neg (by simp),
    dtoiLoop_decimal hdigits (by rwa [Nat.ofDigitChars_ten_toDigits]),
    Nat.ofDigitChars_ten_toDigits]

/-- **A prefix written in its own family is read back.** -/
theorem denotes_render (p : Prefix) : Denotes p.render p := by
  have hones := p.ones_le
  have hsize : 8 * p.family.size ≤ 128 := by cases p.family <;> decide
  refine ⟨writeAddr p.family p.address, Nat.toDigits 10 p.ones, rfl, ?_,
    parseAddr_writeAddr p.length_address, dtoi_toDigits (by omega)⟩
  intro hslash
  exact absurd (writeAddr_chars p.length_address '/' hslash) (by simp [InAddress]; decide)

/-- The address under a prefix as package `net` keeps it: sixteen bytes in either family. -/
def Prefix.address16 (p : Prefix) : List UInt8 := as16 ⟨p.family, p.address, []⟩

/-- The network of a prefix as package `net` keeps it. -/
def Prefix.ipNet (p : Prefix) : Network :=
  ⟨p.network.address, maskBytes p.family.size p.ones⟩

theorem is4In6_v4InV6 (bytes : List UInt8) : is4In6 (v4InV6 ++ bytes) = true := by
  have htake : (v4InV6 ++ bytes).take 12 = v4InV6 := List.take_left' rfl
  exact decide_eq_true htake

/-- The mask of a family is laid over an address of that family. -/
theorem ipMask_address16 (p : Prefix) :
    ipMask p.address16 (maskBytes p.family.size p.ones) = p.network.address := by
  have hlength := p.length_address
  have hmask : (maskBytes p.family.size p.ones).length = p.family.size := maskBytes_length _ _
  show _ = List.zipWith (· &&& ·) p.address (maskBytes p.family.size p.ones)
  cases hfamily : p.family with
  | v4 =>
    rw [hfamily] at hlength hmask
    have h16 : (v4InV6 ++ p.address).length = 16 := by rw [List.length_append, hlength]; rfl
    have hip : p.address16 = v4InV6 ++ p.address := by rw [Prefix.address16, hfamily]; rfl
    -- the address is shortened to the four bytes of the mask
    have hdrop : (v4InV6 ++ p.address).drop 12 = p.address := List.drop_left' rfl
    have h4 : (maskBytes Family.v4.size p.ones).length = 4 := hmask
    have hfour : p.address.length = 4 := hlength
    simp [ipMask, hip, h16, h4, is4In6_v4InV6, hdrop, hfour]
  | v6 =>
    rw [hfamily] at hlength hmask
    have hip : p.address16 = p.address := by rw [Prefix.address16, hfamily]; rfl
    have h16 : (maskBytes Family.v6.size p.ones).length = 16 := hmask
    have hsixteen : p.address.length = 16 := hlength
    simp [ipMask, hip, h16, hsixteen]

/-- **What `ParseCIDR` accepts** is what denotes a prefix, and its answer is that
prefix. -/
theorem parseCIDR_of_denotes {text : String} {p : Prefix} (h : Denotes text.toList p) :
    parseCIDR text = .ok (p.address16, p.ipNet) := by
  obtain ⟨addr, ones, htext, hslash, haddr, hones⟩ := h
  have hle := p.ones_le
  unfold parseCIDR
  rw [htext]
  dsimp only
  rw [cut_slash hslash, List.drop_left]
  dsimp only
  rw [haddr]
  simp only [ne_eq, not_true_eq_false, if_false]
  rw [hones]
  dsimp only
  rw [if_neg (by omega), cidrMask_size hle]
  show Except.ok (p.address16, (⟨ipMask p.address16 _, _⟩ : Network)) = _
  rw [ipMask_address16]
  rfl

/-- What `ParseCIDR` accepts denotes a prefix, and its answer is that prefix. -/
theorem denotes_of_parseCIDR {text : String} {ip : List UInt8} {network : Network}
    (h : parseCIDR text = .ok (ip, network)) : ∃ p, Denotes text.toList p := by
  unfold parseCIDR at h
  dsimp only at h
  split at h
  · exact absurd h (by simp)
  rename_i slash ones hrest
  split at h
  · exact absurd h (by simp)
  rename_i a haddr
  split at h
  · exact absurd h (by simp)
  rename_i hzone
  split at h
  · rename_i n hones
    split at h
    · exact absurd h (by simp)
    rename_i hbits
    obtain ⟨family, bytes, zone⟩ := a
    obtain rfl : zone = [] := by simpa using hzone
    obtain ⟨htext, hslash⟩ := slash_of_cut hrest
    refine ⟨⟨family, bytes, n, (parseAddr_spec haddr).1, Nat.not_lt.mp hbits⟩, ?_⟩
    exact ⟨_, ones, htext, hslash, haddr, hones⟩
  · exact absurd h (by simp)

/-! ## §9. Writing a range. -/

theorem maskSize_ipNet (p : Prefix) : maskSize p.ipNet.mask = (p.ones, p.family.size * 8) := by
  show maskSize (maskBytes p.family.size p.ones) = _
  rw [maskSize, simpleMaskLength_maskBytes _ p.ones_le, maskBytes_length]

/-- `To4` of an address as package `net` keeps it. -/
theorem to4_address16 (p : Prefix) :
    to4 p.address16 = [] ↔ p.family = .v6 ∧ is4In6 p.address = false := by
  have hlength := p.length_address
  cases hfamily : p.family with
  | v4 =>
    rw [hfamily] at hlength
    have hip : p.address16 = v4InV6 ++ p.address := by rw [Prefix.address16, hfamily]; rfl
    have h16 : (v4InV6 ++ p.address).length = 16 := by rw [List.length_append, hlength]; rfl
    have hdrop : (v4InV6 ++ p.address).drop 12 = p.address := List.drop_left' rfl
    have hne : p.address ≠ [] := by
      intro hnil
      rw [hnil] at hlength
      exact absurd hlength (by decide)
    rw [hip, to4, if_neg (by omega), if_pos ⟨h16, is4In6_v4InV6 _⟩, hdrop]
    simp [hne]
  | v6 =>
    rw [hfamily] at hlength
    have hip : p.address16 = p.address := by rw [Prefix.address16, hfamily]; rfl
    have h16 : p.address.length = 16 := hlength
    rw [hip, to4, if_neg (by omega)]
    by_cases hmapped : is4In6 p.address = true
    · have hdrop : p.address.drop 12 ≠ [] := by
        intro hnil
        have hzero := congrArg List.length hnil
        rw [List.length_drop, h16] at hzero
        exact absurd hzero (by decide)
      rw [if_pos ⟨h16, hmapped⟩]
      simp [hdrop, hmapped]
    · rw [if_neg (fun h => hmapped h.2)]
      simpa using hmapped

/-- **`IPNet.String` keeps the family** of an address that is not IPv4-mapped. -/
theorem string_ipNet {p : Prefix} (h : p.family = .v4 ∨ is4In6 p.address = false) :
    p.ipNet.string = p.network.render := by
  have hlength : p.network.address.length = p.family.size := p.network.length_address
  have hmask : (maskBytes p.family.size p.ones).length = p.family.size := maskBytes_length _ _
  have hones := simpleMaskLength_maskBytes p.family.size p.ones_le
  have hrender : p.network.render
      = writeAddr p.family p.network.address ++ '/' :: Nat.toDigits 10 p.ones := rfl
  have hnet : p.ipNet = ⟨p.network.address, maskBytes p.family.size p.ones⟩ := rfl
  cases hfamily : p.family with
  | v4 =>
    rw [hfamily] at hlength hmask hones hrender hnet
    have h4 : p.network.address.length = 4 := hlength
    have hto4 : to4 p.network.address = p.network.address := by rw [to4, if_pos h4]
    have hne : p.network.address ≠ [] := List.ne_nil_of_length_pos (by omega)
    have hm4 : (maskBytes Family.v4.size p.ones).length = 4 := hmask
    have hmne : maskBytes Family.v4.size p.ones ≠ [] := List.ne_nil_of_length_pos (by omega)
    rw [hrender, hnet]
    simp [Network.string, networkNumberAndMask, hto4, hne, hm4, h4, hmne, hones, ipString]
  | v6 =>
    have hplain : is4In6 p.address = false := by
      cases h with
      | inl h => exact absurd (hfamily.symm.trans h) (by decide)
      | inr h => exact h
    -- nothing that is masked becomes IPv4-mapped
    have hplain' : is4In6 p.network.address = false := by
      cases hmasked : is4In6 p.network.address with
      | false => rfl
      | true => exact absurd (p.is4In6_of_network hfamily hmasked) (by simp [hplain])
    rw [hfamily] at hlength hmask hones hrender hnet
    have h16 : p.network.address.length = 16 := hlength
    have hto4 : to4 p.network.address = [] := by
      rw [to4, if_neg (by omega), if_neg (by simp [hplain'])]
    have hne : p.network.address ≠ [] := List.ne_nil_of_length_pos (by omega)
    have hm16 : (maskBytes Family.v6.size p.ones).length = 16 := hmask
    have hmne : maskBytes Family.v6.size p.ones ≠ [] := List.ne_nil_of_length_pos (by omega)
    rw [hrender, hnet]
    simp [Network.string, networkNumberAndMask, hto4, hne, hm16, h16, hmne, hones, ipString]

end Foundation.IpNetwork
