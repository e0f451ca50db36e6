/-
  Foundation.BaseText
  **BYTES AS TEXT.**  Hexadecimal and base 64 over either alphabet, padded or not: what
  is written, and what a lenient reader takes (line breaks are skipped, the bits a last
  character has too many are dropped).
-/
import Mathlib.Data.List.GetD
import Momento.Foundation.QueryString

namespace Foundation.BaseText

open Foundation.QueryString

/-! ## §1. Hexadecimal. -/

/-- The digits of hexadecimal, in lower case. -/
def hexDigits : List Char := "0123456789abcdef".toList

/-- The digit of a value below sixteen. -/
def hexDigit (n : Nat) : Char := hexDigits.getD n '0'

/-- `hex.EncodeToString`. -/
def hexText (bytes : Bytes) : String :=
  String.ofList (bytes.flatMap fun b => [hexDigit (b.val / 16), hexDigit (b.val % 16)])

/-- The value of a digit, of either case. -/
def hexValue (c : Char) : Option Nat :=
  if '0' ≤ c ∧ c ≤ '9' then some (c.toNat - 48)
  else if 'a' ≤ c ∧ c ≤ 'f' then some (c.toNat - 87)
  else if 'A' ≤ c ∧ c ≤ 'F' then some (c.toNat - 55)
  else none

/-- `hex.DecodeString`. -/
def hexBytes : List Char → Option Bytes
  | [] => some []
  | [_] => none
  | a :: b :: rest => do
    let high ← hexValue a
    let low ← hexValue b
    let bytes ← hexBytes rest
    return Fin.ofNat 256 (high * 16 + low) :: bytes

theorem hexDigit_mem (n : Nat) : hexDigit n ∈ hexDigits := by
  unfold hexDigit
  by_cases h : n < hexDigits.length
  · rw [List.getD_eq_getElem _ _ h]
    exact List.getElem_mem h
  · rw [List.getD_eq_default _ _ (not_lt.mp h)]
    decide

/-- Hexadecimal has no other characters. -/
theorem hexText_mem {bytes : Bytes} {c : Char} (h : c ∈ (hexText bytes).toList) : c ∈ hexDigits := by
  unfold hexText at h
  rw [String.toList_ofList] at h
  obtain ⟨b, -, hc⟩ := List.mem_flatMap.mp h
  rcases List.mem_cons.mp hc with rfl | hc
  · exact hexDigit_mem _
  · obtain rfl := List.mem_singleton.mp hc
    exact hexDigit_mem _

/-! ## §2. Base 64. -/

/-- `base64.StdEncoding`, `base64.URLEncoding`. -/
inductive Alphabet
  | std
  | url
  deriving DecidableEq

/-- The sixty-four letters. -/
def Alphabet.letters : Alphabet → List Char
  | .std => "ABCDEFGHIJKLMNOPQRSTUVWXYZabcdefghijklmnopqrstuvwxyz0123456789+/".toList
  | .url => "ABCDEFGHIJKLMNOPQRSTUVWXYZabcdefghijklmnopqrstuvwxyz0123456789-_".toList

section Base64
variable (alphabet : Alphabet)

/-- The letter of a value. -/
def letter (n : Nat) : Char := alphabet.letters.getD n 'A'

/-- The value of a letter. -/
def letterValue (c : Char) : Option Nat :=
  if c ∈ alphabet.letters then some (alphabet.letters.idxOf c) else none

/-- `EncodeToString` without padding. -/
def encode64 : Bytes → List Char
  | [] => []
  | [a] => [letter alphabet (a.val / 4), letter alphabet (a.val % 4 * 16)]
  | [a, b] =>
    let n := a.val * 256 + b.val
    [letter alphabet (n / 1024), letter alphabet (n / 16 % 64), letter alphabet (n % 16 * 4)]
  | a :: b :: c :: rest =>
    let n := (a.val * 256 + b.val) * 256 + c.val
    letter alphabet (n / 262144) :: letter alphabet (n / 4096 % 64) :: letter alphabet (n / 64 % 64)
      :: letter alphabet (n % 64) :: encode64 rest

/-- `n` letters, of six bits each, as one number. -/
def quantum (letters : List Char) : Option Nat :=
  letters.foldl (fun n c => n.bind fun n => (letterValue alphabet c).map (n * 64 + ·)) (some 0)

/-- The quanta of four letters and the last one; `padded` says how that one ends. -/
def decodeQuanta (padded : Bool) : List Char → Option Bytes
  | [] => some []
  | [a, b, '=', '='] =>
    if padded then (quantum alphabet [a, b]).map fun n => [Fin.ofNat 256 (n / 16)] else none
  | [a, b, c, '='] =>
    if padded then
      (quantum alphabet [a, b, c]).map fun n => [Fin.ofNat 256 (n / 1024), Fin.ofNat 256 (n / 4)]
    else none
  | a :: b :: c :: d :: rest =>
    (quantum alphabet [a, b, c, d]).bind fun n => (decodeQuanta padded rest).map fun bytes =>
      Fin.ofNat 256 (n / 65536) :: Fin.ofNat 256 (n / 256) :: Fin.ofNat 256 n :: bytes
  | [a, b, c] =>
    if padded then none
    else (quantum alphabet [a, b, c]).map fun n => [Fin.ofNat 256 (n / 1024), Fin.ofNat 256 (n / 4)]
  | [a, b] =>
    if padded then none
    else (quantum alphabet [a, b]).map fun n => [Fin.ofNat 256 (n / 16)]
  | [_] => none

/-- `DecodeString`. -/
def decode64 (padded : Bool) (text : List Char) : Option Bytes :=
  decodeQuanta alphabet padded (text.filter fun c => c ≠ '\n' ∧ c ≠ '\r')

variable {alphabet}

theorem letterValue_letter {n : Nat} (h : n < 64) : letterValue alphabet (letter alphabet n) = some n := by
  have hall : ∀ alphabet : Alphabet, ∀ n < 64, letterValue alphabet (letter alphabet n) = some n := by
    intro alphabet
    cases alphabet with
    | std => decide +kernel
    | url => decide +kernel
  exact hall alphabet n h

/-- What no letter is. -/
theorem letter_ne {n : Nat} (h : n < 64) :
    letter alphabet n ≠ '=' ∧ letter alphabet n ≠ '\n' ∧ letter alphabet n ≠ '\r' := by
  have hall : ∀ alphabet : Alphabet, ∀ n < 64,
      letter alphabet n ≠ '=' ∧ letter alphabet n ≠ '\n' ∧ letter alphabet n ≠ '\r' := by
    intro alphabet
    cases alphabet with
    | std => decide +kernel
    | url => decide +kernel
  exact hall alphabet n h

theorem quantum_letters {ns : List Nat} (h : ∀ n ∈ ns, n < 64) (start : Nat) :
    (ns.map (letter alphabet)).foldl (fun n c => n.bind fun n => (letterValue alphabet c).map (n * 64 + ·))
        (some start)
      = some (ns.foldl (fun n m => n * 64 + m) start) := by
  induction ns generalizing start with
  | nil => rfl
  | cons n rest ih =>
    rw [List.map_cons, List.foldl_cons, List.foldl_cons, Option.bind_some,
      letterValue_letter (h n List.mem_cons_self), Option.map_some]
    exact ih (fun m hm => h m (List.mem_cons_of_mem _ hm)) _

/-- A quantum of four letters that is not the padded end. -/
theorem decodeQuanta_four {a b c d : Char} (hd : d ≠ '=') (padded : Bool) (rest : List Char) :
    decodeQuanta alphabet padded (a :: b :: c :: d :: rest)
      = (quantum alphabet [a, b, c, d]).bind fun n => (decodeQuanta alphabet padded rest).map fun bytes =>
          Fin.ofNat 256 (n / 65536) :: Fin.ofNat 256 (n / 256) :: Fin.ofNat 256 n :: bytes := by
  rw [decodeQuanta]
  · intro _ h
    exact absurd h hd
  · intro h
    exact absurd h hd

theorem decodeQuanta_three (alphabet : Alphabet) (a b c : Char) :
    decodeQuanta alphabet false [a, b, c]
      = (quantum alphabet [a, b, c]).map fun n => [Fin.ofNat 256 (n / 1024), Fin.ofNat 256 (n / 4)] := by
  rw [decodeQuanta]
  rfl

theorem quantum_map (alphabet : Alphabet) (ns : List Nat) (h : ∀ n ∈ ns, n < 64) :
    quantum alphabet (ns.map (letter alphabet)) = some (ns.foldl (fun n m => n * 64 + m) 0) :=
  quantum_letters h 0

theorem byte_eq {n : Nat} {b : Byte} (h : n % 256 = b.val) : Fin.ofNat 256 n = b := Fin.ext h

/-- The quanta are read back, -/
theorem decodeQuanta_encode64 (alphabet : Alphabet) (bytes : Bytes) :
    decodeQuanta alphabet false (encode64 alphabet bytes) = some bytes := by
  induction bytes using encode64.induct with
  | case1 => rfl
  | case2 a =>
    have ha := a.isLt
    have hvalue := quantum_map alphabet [a.val / 4, a.val % 4 * 16] (by simp; omega)
    show (quantum alphabet ([a.val / 4, a.val % 4 * 16].map (letter alphabet))).map _ = _
    rw [hvalue, Option.map_some]
    simp only [List.foldl_cons, List.foldl_nil]
    rw [byte_eq (b := a) (by omega)]
  | case3 a b =>
    have ha := a.isLt
    have hb := b.isLt
    have hvalue := quantum_map alphabet
      [(a.val * 256 + b.val) / 1024, (a.val * 256 + b.val) / 16 % 64, (a.val * 256 + b.val) % 16 * 4]
      (by simp; omega)
    simp only [List.map_cons, List.map_nil, List.foldl_cons, List.foldl_nil] at hvalue
    rw [encode64, decodeQuanta_three, hvalue, Option.map_some]
    rw [byte_eq (b := a) (by omega), byte_eq (b := b) (by omega)]
  | case4 a b c rest ih =>
    have ha := a.isLt
    have hb := b.isLt
    have hc := c.isLt
    have hlast : letter alphabet (((a.val * 256 + b.val) * 256 + c.val) % 64) ≠ '=' := (letter_ne (by omega)).1
    have hvalue := quantum_map alphabet
      [((a.val * 256 + b.val) * 256 + c.val) / 262144, ((a.val * 256 + b.val) * 256 + c.val) / 4096 % 64,
        ((a.val * 256 + b.val) * 256 + c.val) / 64 % 64, ((a.val * 256 + b.val) * 256 + c.val) % 64]
      (by simp; omega)
    simp only [List.map_cons, List.map_nil, List.foldl_cons, List.foldl_nil] at hvalue
    rw [encode64, decodeQuanta_four hlast, hvalue, Option.bind_some, ih, Option.map_some,
      byte_eq (b := a) (by omega), byte_eq (b := b) (by omega), byte_eq (b := c) (by omega)]

theorem encode64_ne_nil {alphabet : Alphabet} {bytes : Bytes} (h : bytes ≠ []) : encode64 alphabet bytes ≠ [] := by
  intro hnil
  have hback := decodeQuanta_encode64 alphabet bytes
  rw [hnil] at hback
  exact h (Option.some.inj hback).symm

theorem mem_encode64 {alphabet : Alphabet} {bytes : Bytes} {c : Char} (h : c ∈ encode64 alphabet bytes) :
    c ≠ '\n' ∧ c ≠ '\r' := by
  induction bytes using encode64.induct with
  | case1 => cases h
  | case2 a =>
    have ha := a.isLt
    rcases List.mem_cons.mp h with rfl | h
    · exact (letter_ne (by omega)).2
    · obtain rfl := List.mem_singleton.mp h
      exact (letter_ne (by omega)).2
  | case3 a b =>
    have ha := a.isLt
    have hb := b.isLt
    simp only [encode64, List.mem_cons, List.not_mem_nil, or_false] at h
    rcases h with rfl | rfl | rfl
    · exact (letter_ne (by omega)).2
    · exact (letter_ne (by omega)).2
    · exact (letter_ne (by omega)).2
  | case4 a b c rest ih =>
    have ha := a.isLt
    have hb := b.isLt
    have hc := c.isLt
    simp only [encode64, List.mem_cons] at h
    rcases h with rfl | rfl | rfl | rfl | h
    · exact (letter_ne (by omega)).2
    · exact (letter_ne (by omega)).2
    · exact (letter_ne (by omega)).2
    · exact (letter_ne (by omega)).2
    · exact ih h

/-- **and unpadded base 64 is**: no letter is a line break. -/
theorem decode64_encode64 (alphabet : Alphabet) (bytes : Bytes) :
    decode64 alphabet false (encode64 alphabet bytes) = some bytes := by
  have hletters : (encode64 alphabet bytes).filter (fun c => c ≠ '\n' ∧ c ≠ '\r') = encode64 alphabet bytes := by
    rw [List.filter_eq_self]
    intro c hc
    exact decide_eq_true (mem_encode64 hc)
  unfold decode64
  rw [hletters]
  exact decodeQuanta_encode64 alphabet bytes

end Base64

end Foundation.BaseText
