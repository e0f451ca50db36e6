/-
  Momento.Automation.Payload

  **WHAT A DELIVERY CARRIES.**  A payload is a `map[string]any` that nobody has encoded
  yet: under a key stands a value of some Go type, and a slice of structs is not a
  `[]any`, though both become the same document.  `fmt.Sprint` prints such a value, and
  `json.MarshalIndent` makes the document.

  A map lists its members in key order, each key once, as both of them do.
-/
import Momento.Model.Json
import Momento.Foundation.TimeText

namespace Momento.Automation

open Foundation Foundation.Calendar

/-! ## §1. Values. -/

/-- What the elements of a slice or a map are declared as. -/
inductive Declared where
  | any
  | typed
  deriving DecidableEq

/-- A Go value, as far as printing, encoding and asserting its type tell it from others. -/
inductive GoValue where
  | nil
  | bool (b : Bool)
  | int (n : Int)
  | int64 (n : Int)
  | float64 (x : Binary64)
  | string (s : String)
  /-- `time.Time` in UTC. -/
  | time (t : Int)
  /-- `uuid.UUID`, by its text. -/
  | uuid (text : String)
  | slice (elements : Declared) (items : List GoValue)
  | map (elements : Declared) (members : List (String × GoValue))
  /-- A struct: its fields by their JSON names, and those with `omitempty`. -/
  | record (omitempty : List String) (fields : List (String × GoValue))

/-- The members of an object, in order. -/
abbrev Members := List (String × GoValue)

namespace GoValue

/-- `values[key]`: of a missing key, nil. -/
def at_ (members : Members) (key : String) : GoValue := (members.lookup key).getD .nil

/-- `value.(string)`. -/
def asString : GoValue → Option String
  | .string s => some s
  | _ => none

/-- `value.(time.Time)`. -/
def asTime : GoValue → Option Int
  | .time t => some t
  | _ => none

/-- `value.(map[string]any)`. -/
def asMap : GoValue → Option Members
  | .map .any members => some members
  | _ => none

/-- `value.([]any)`. -/
def asSlice : GoValue → Option (List GoValue)
  | .slice .any items => some items
  | _ => none

/-- `value != nil`. -/
def present : GoValue → Bool
  | .nil => false
  | _ => true

/-! ## §2. Numbers and times as text. -/

/-- `%.nf`, rounded to even where it lies in the middle. -/
def formatFixed (digits : ℕ) : Binary64 → String
  | .nan => "NaN"
  | .inf negative => if negative then "-Inf" else "+Inf"
  | .fin x =>
    let scaled := (roundHalfEven (|x.value| * 10 ^ digits)).toNat
    let whole := Nat.toDigits 10 (scaled / 10 ^ digits)
    let fraction := (Nat.toDigits 10 (scaled % 10 ^ digits)).leftpad digits '0'
    String.ofList ((if x.value < 0 then ['-'] else []) ++ whole ++ '.' :: fraction)

/-- `%v`. -/
def formatV : Binary64 → String
  | .nan => "NaN"
  | .inf negative => if negative then "-Inf" else "+Inf"
  | .fin x => formatG x

/-- A number of a document: in the notation of ECMAScript. -/
def formatJson (x : FiniteDouble) : String :=
  if x.value = 0 then "0"
  else
    let (digits, e) := decimalDigits (Binary64.shortest |x.value|)
    let body : List Char :=
      if |x.value| < Binary64.nearest (1 / 10 ^ 6) ∨ 10 ^ 21 ≤ |x.value| then
        let fraction := match digits.tail with
          | [] => []
          | ds => '.' :: ds
        digits.take 1 ++ fraction ++ ['e', if e < 0 then '-' else '+'] ++ (toString e.natAbs).toList
      else if e < 0 then '0' :: '.' :: List.replicate (e.natAbs - 1) '0' ++ digits
      else
        let whole := digits.take (e.natAbs + 1)
        let padding := List.replicate (e.natAbs + 1 - digits.length) '0'
        match digits.drop (e.natAbs + 1) with
        | [] => whole ++ padding
        | ds => whole ++ '.' :: ds
    String.ofList (if x.value < 0 then '-' :: body else body)

open TimeText in
/-- `Format("2006-01-02")`. -/
def formatDate (t : Int) : List Char :=
  let date := t / day
  appendInt (yearOf date) 4 ++ '-' :: (appendInt (monthOfYear date) 2 ++ '-' :: appendInt (dayOfMonth date) 2)

open TimeText in
/-- `Time.String`. -/
def timeString (t : Int) : String :=
  let clock := t % day
  String.ofList (formatDate t ++ ' ' :: (appendInt (clock / hour) 2 ++ ':' :: (appendInt (clock % hour / minute) 2
    ++ ':' :: (appendInt (clock % minute / second) 2 ++ appendNano (clock % second))))) ++ " +0000 UTC"

/-! ## §3. `fmt.Sprint`. -/

mutual

/-- `fmt.Sprint(value)`. -/
def sprint : GoValue → String
  | .nil => "<nil>"
  | .bool b => toString b
  | .int n | .int64 n => toString n
  | .float64 x => formatV x
  | .string s => s
  | .time t => timeString t
  | .uuid text => text
  | .slice _ items => "[" ++ " ".intercalate (sprintItems items) ++ "]"
  | .map _ members => "map[" ++ " ".intercalate (sprintMembers members) ++ "]"
  | .record _ fields => "\x7b" ++ " ".intercalate (sprintFields fields) ++ "\x7d"

/-- Each of them in `%v`. -/
def sprintItems : List GoValue → List String
  | [] => []
  | v :: vs => sprint v :: sprintItems vs

/-- Each of them, after its key. -/
def sprintMembers : Members → List String
  | [] => []
  | (key, v) :: ms => (key ++ ":" ++ sprint v) :: sprintMembers ms

/-- Each of them, without its name. -/
def sprintFields : Members → List String
  | [] => []
  | (_, v) :: fs => sprint v :: sprintFields fs

end

/-! ## §4. `json.MarshalIndent(value, "", "  ")`. -/

/-- `u` and four hexadecimal digits. -/
def unicodeEscape (c : Char) : List Char := '\\' :: 'u' :: (Nat.toDigits 16 c.toNat).leftpad 4 '0'

/-- One character of a text, where HTML is escaped too. -/
def escapeJson (c : Char) : List Char :=
  if c = '"' ∨ c = '\\' then ['\\', c]
  else if c = '\x08' then ['\\', 'b']
  else if c = '\x0C' then ['\\', 'f']
  else if c = '\n' then ['\\', 'n']
  else if c = '\r' then ['\\', 'r']
  else if c = '\t' then ['\\', 't']
  else if c.toNat < 0x20 ∨ c ∈ ['<', '>', '&', '\u2028', '\u2029'] then unicodeEscape c
  else [c]

/-- A text in quotes. -/
def quoteJson (s : String) : String := String.ofList ('"' :: s.toList.flatMap escapeJson ++ ['"'])

/-- `omitempty` leaves it out. -/
def isEmpty : GoValue → Bool
  | .nil => true
  | .bool b => !b
  | .int n | .int64 n => n = 0
  | .float64 (.fin x) => x.value = 0
  | .string s => s = ""
  | .slice _ items => items.isEmpty
  | .map _ members => members.isEmpty
  | _ => false

/-- A line break and so many levels of indentation. -/
def newline (depth : ℕ) : String := String.ofList ('\n' :: List.replicate (2 * depth) ' ')

/-- The parts of an array or an object, a line each. -/
def bracket (left right : String) (depth : ℕ) (parts : List String) : String :=
  if parts = [] then left ++ right
  else left ++ newline (depth + 1) ++ ("," ++ newline (depth + 1)).intercalate parts ++ newline depth ++ right

/-- `MarshalJSON` of a time takes four digits of the year. -/
def yearFits (t : Int) : Bool := 0 ≤ yearOf (t / day) && yearOf (t / day) ≤ 9999

mutual

/-- The document of a value, or why there is none. -/
def encode (depth : ℕ) : GoValue → Except String String
  | .nil => pure "null"
  | .bool b => pure (toString b)
  | .int n | .int64 n => pure (toString n)
  | .float64 (.fin x) => pure (formatJson x)
  | .float64 x => throw ("json: unsupported value: " ++ formatV x)
  | .string s => pure (quoteJson s)
  | .time t =>
    if yearFits t then pure ("\"" ++ String.ofList (TimeText.formatRfc3339Nano t) ++ "\"")
    else throw ("json: error calling MarshalJSON for type time.Time: "
      ++ "Time.MarshalJSON: year outside of range [0,9999]")
  | .uuid text => pure (quoteJson text)
  | .slice _ items => do return bracket "[" "]" depth (← encodeItems (depth + 1) items)
  | .map _ members => do return bracket "\x7b" "\x7d" depth (← encodeMembers (depth + 1) [] members)
  | .record omitempty fields => do
    return bracket "\x7b" "\x7d" depth (← encodeMembers (depth + 1) omitempty fields)

/-- Each of them encoded. -/
def encodeItems (depth : ℕ) : List GoValue → Except String (List String)
  | [] => pure []
  | v :: vs => do
    let text ← encode depth v
    let texts ← encodeItems depth vs
    return text :: texts

/-- Each of them encoded, empty ones left out where the field says so. -/
def encodeMembers (depth : ℕ) (omitempty : List String) : Members → Except String (List String)
  | [] => pure []
  | (key, v) :: ms =>
    if key ∈ omitempty && isEmpty v then encodeMembers depth omitempty ms
    else do
      let text ← encode depth v
      let texts ← encodeMembers depth omitempty ms
      return (quoteJson key ++ ": " ++ text) :: texts

end

/-- `json.MarshalIndent(value, "", "  ")`. -/
def marshalIndent (v : GoValue) : Except String String := encode 0 v

/-! ## §5. What a value holds. -/

mutual

/-- The texts in a value: its strings, and the keys of its maps. -/
def strings : GoValue → List String
  | .string s => [s]
  | .uuid text => [text]
  | .slice _ items => stringsOfItems items
  | .map _ members => stringsOfMembers members
  | .record _ fields => stringsOfFields fields
  | .nil | .bool _ | .int _ | .int64 _ | .float64 _ | .time _ => []

/-- The texts in them. -/
def stringsOfItems : List GoValue → List String
  | [] => []
  | v :: vs => strings v ++ stringsOfItems vs

/-- The texts in them, and the keys. -/
def stringsOfMembers : Members → List String
  | [] => []
  | (key, v) :: ms => key :: strings v ++ stringsOfMembers ms

/-- The texts in them, without the names. -/
def stringsOfFields : Members → List String
  | [] => []
  | (_, v) :: fs => strings v ++ stringsOfFields fs

end

mutual

/-- JSON has a notation for it: no infinities, no other years. -/
def encodable : GoValue → Bool
  | .float64 (.fin _) => true
  | .float64 _ => false
  | .time t => yearFits t
  | .slice _ items => encodableItems items
  | .map _ members => encodableMembers members
  | .record _ fields => encodableMembers fields
  | .nil | .bool _ | .int _ | .int64 _ | .string _ | .uuid _ => true

/-- All of them can be encoded. -/
def encodableItems : List GoValue → Bool
  | [] => true
  | v :: vs => encodable v && encodableItems vs

/-- All of them can be encoded. -/
def encodableMembers : Members → Bool
  | [] => true
  | (_, v) :: ms => encodable v && encodableMembers ms

end

/-- The characters of the program's own names. -/
def isPlain (c : Char) : Bool := 0x20 ≤ c.toNat && c.toNat < 0x7F

mutual

/-- As Go keeps it: a map has each key once, and a struct names its fields in plain text. -/
def valid : GoValue → Bool
  | .slice _ items => validItems items
  | .map _ members => decide ((members.map Prod.fst).Pairwise (· < ·)) && validMembers members
  | .record _ fields => fields.all (fun field => field.1.toList.all isPlain) && validMembers fields
  | .nil | .bool _ | .int _ | .int64 _ | .float64 _ | .string _ | .time _ | .uuid _ => true

/-- All of them are valid. -/
def validItems : List GoValue → Bool
  | [] => true
  | v :: vs => valid v && validItems vs

/-- All of them are valid. -/
def validMembers : Members → Bool
  | [] => true
  | (_, v) :: ms => valid v && validMembers ms

end

end GoValue

/-- A payload, or what stands in one: `map[string]any`. -/
structure Payload where
  members : Members
  valid : (GoValue.map .any members).valid = true

/-! ## §6. The characters of a text. -/

/-- Every character is one of these. -/
def Holds (p : Char → Bool) (s : String) : Prop := ∀ c ∈ s.toList, p c = true

instance (p : Char → Bool) (s : String) : Decidable (Holds p s) :=
  List.decidableBAll (fun c => p c = true) s.toList

section
variable {p : Char → Bool}

theorem holds_append {a b : String} : Holds p (a ++ b) ↔ Holds p a ∧ Holds p b := by
  unfold Holds
  rw [String.toList_append]
  exact List.forall_mem_append

theorem holds_ofList {cs : List Char} : Holds p (String.ofList cs) ↔ ∀ c ∈ cs, p c = true := by
  rw [Holds, String.toList_ofList]

theorem holds_intercalate {separator : String} (hseparator : Holds p separator) (parts : List String) :
    Holds p (separator.intercalate parts) ↔ ∀ part ∈ parts, Holds p part := by
  induction parts with
  | nil =>
    rw [String.intercalate_nil]
    simp [Holds]
  | cons part parts ih =>
    cases parts with
    | nil =>
      rw [String.intercalate_singleton]
      simp
    | cons part' parts =>
      rw [String.intercalate_cons_cons, holds_append, holds_append, ih, List.forall_mem_cons (a := part)]
      exact ⟨fun h => ⟨h.1.1, h.2⟩, fun h => ⟨⟨h.1, hseparator⟩, h.2⟩⟩

theorem holds_join (l : List String) : Holds p (String.join l) ↔ ∀ s ∈ l, Holds p s := by
  unfold Holds
  rw [String.toList_join, List.forall_mem_flatMap]

theorem Holds.of_plain (hp : ∀ c, GoValue.isPlain c = true → p c = true) {s : String}
    (h : Holds GoValue.isPlain s) : Holds p s :=
  fun c hc => hp c (h c hc)

end

namespace GoValue

theorem plain_of_isDigit {c : Char} (h : c.isDigit = true) : isPlain c = true := by
  rw [Char.isDigit, Bool.and_eq_true, decide_eq_true_eq, decide_eq_true_eq] at h
  have hlow : 48 ≤ c.toNat := h.1
  have hhigh : c.toNat ≤ 57 := h.2
  simp only [isPlain, Bool.and_eq_true, decide_eq_true_eq]
  omega

theorem plain_toDigits (n : ℕ) : ∀ c ∈ Nat.toDigits 10 n, isPlain c = true :=
  fun _ hc => plain_of_isDigit (Nat.isDigit_of_mem_toDigits (by decide) (by decide) hc)

theorem plain_nat (n : ℕ) : Holds isPlain (toString n) := by
  intro c hc
  have htext : (toString n).toList = Nat.toDigits 10 n := by
    show (String.ofList (Nat.toDigits 10 n)).toList = _
    rw [String.toList_ofList]
  rw [htext] at hc
  exact plain_toDigits n c hc

theorem plain_int (n : Int) : Holds isPlain (toString n) := by
  cases n with
  | ofNat n => exact plain_nat n
  | negSucc n =>
    show Holds isPlain ("-" ++ toString (n + 1))
    exact holds_append.mpr ⟨by decide, plain_nat _⟩

/-- A fixed text, character by character. -/
theorem plain_all {cs : List Char} (h : cs.all isPlain = true) : ∀ c ∈ cs, isPlain c = true :=
  List.all_eq_true.mp h

theorem plain_append {cs ds : List Char} (hcs : ∀ c ∈ cs, isPlain c = true) (hds : ∀ c ∈ ds, isPlain c = true) :
    ∀ c ∈ cs ++ ds, isPlain c = true :=
  List.forall_mem_append.mpr ⟨hcs, hds⟩

theorem plain_cons {c : Char} {cs : List Char} (hc : isPlain c = true) (hcs : ∀ d ∈ cs, isPlain d = true) :
    ∀ d ∈ c :: cs, isPlain d = true :=
  List.forall_mem_cons.mpr ⟨hc, hcs⟩

theorem plain_zeros (n : ℕ) : ∀ c ∈ List.replicate n '0', isPlain c = true := by
  intro c hc
  rw [List.eq_of_mem_replicate hc]
  rfl

theorem plain_of_subset {cs ds : List Char} (h : ∀ c ∈ ds, isPlain c = true) (hsub : cs ⊆ ds) :
    ∀ c ∈ cs, isPlain c = true :=
  fun c hc => h c (hsub hc)

theorem plain_decimalDigits (q : ℚ) : ∀ c ∈ (decimalDigits q).1, isPlain c = true := plain_int _

/-- The digits behind the point, where there are any. -/
theorem plain_fraction {digits : List Char} (h : ∀ c ∈ digits, isPlain c = true) :
    ∀ c ∈ (match digits with | [] => [] | ds => '.' :: ds), isPlain c = true := by
  cases digits with
  | nil => simp
  | cons c cs => exact plain_cons rfl h

theorem plain_signed {q : ℚ} {body : List Char} (h : ∀ c ∈ body, isPlain c = true) :
    Holds isPlain (String.ofList (if q < 0 then '-' :: body else body)) := by
  rw [holds_ofList]
  split
  · exact plain_cons rfl h
  · exact h

/-- A decimal without an exponent. -/
theorem plain_wholePart {digits : List Char} (h : ∀ c ∈ digits, isPlain c = true) (n : ℕ) :
    ∀ c ∈ (match digits.drop n with
      | [] => digits.take n ++ List.replicate (n - digits.length) '0'
      | ds => digits.take n ++ '.' :: ds), isPlain c = true := by
  have htake : ∀ c ∈ digits.take n, isPlain c = true := plain_of_subset h (List.take_subset _ _)
  have hdrop : ∀ c ∈ digits.drop n, isPlain c = true := plain_of_subset h (List.drop_subset _ _)
  cases hrest : digits.drop n with
  | nil => exact plain_append htake (plain_zeros _)
  | cons d ds =>
    rw [hrest] at hdrop
    exact plain_append htake (plain_cons rfl hdrop)

theorem plain_sign (e : ℤ) : ∀ c ∈ ['e', if e < 0 then '-' else '+'], isPlain c = true := by
  split <;> exact plain_all (by decide)

theorem plain_formatG (x : FiniteDouble) : Holds isPlain (formatG x) := by
  unfold formatG
  split
  · decide
  have hdigits := plain_decimalDigits (Binary64.shortest |x.value|)
  generalize decimalDigits (Binary64.shortest |x.value|) = shown at hdigits ⊢
  obtain ⟨digits, e⟩ := shown
  refine plain_signed ?_
  split
  · have hfirst := plain_of_subset hdigits (List.take_subset 1 digits)
    have htail := plain_fraction (plain_of_subset hdigits (List.tail_subset digits))
    exact plain_append (plain_append (plain_append (plain_append hfirst htail) (plain_sign e)) (plain_zeros _))
      (plain_nat _)
  · split
    · exact plain_append (plain_cons rfl (plain_cons rfl (plain_zeros _))) hdigits
    · exact plain_wholePart hdigits _

theorem plain_formatJson (x : FiniteDouble) : Holds isPlain (formatJson x) := by
  unfold formatJson
  split
  · decide
  have hdigits := plain_decimalDigits (Binary64.shortest |x.value|)
  generalize decimalDigits (Binary64.shortest |x.value|) = shown at hdigits ⊢
  obtain ⟨digits, e⟩ := shown
  refine plain_signed ?_
  split
  · have hfirst := plain_of_subset hdigits (List.take_subset 1 digits)
    have htail := plain_fraction (plain_of_subset hdigits (List.tail_subset digits))
    exact plain_append (plain_append (plain_append hfirst htail) (plain_sign e)) (plain_nat _)
  · split
    · exact plain_append (plain_cons rfl (plain_cons rfl (plain_zeros _))) hdigits
    · exact plain_wholePart hdigits _

theorem plain_formatV (x : Binary64) : Holds isPlain (formatV x) := by
  cases x with
  | nan => decide
  | inf negative => cases negative <;> decide
  | fin x => exact plain_formatG x

theorem plain_formatFixed (digits : ℕ) (x : Binary64) : Holds isPlain (formatFixed digits x) := by
  cases x with
  | nan => exact plain_formatV .nan
  | inf negative => exact plain_formatV (.inf negative)
  | fin x =>
    show Holds isPlain (String.ofList _)
    rw [holds_ofList]
    refine plain_append (plain_append ?_ (plain_toDigits _)) (plain_cons rfl ?_)
    · split <;> exact plain_all (by decide)
    · exact plain_append (plain_zeros _) (plain_toDigits _)

open TimeText in
theorem plain_appendInt (x : Int) (width : ℕ) : ∀ c ∈ appendInt x width, isPlain c = true := by
  have hdigits : ∀ c ∈ (Nat.toDigits 10 x.natAbs).leftpad width '0', isPlain c = true :=
    plain_append (plain_zeros _) (plain_toDigits _)
  unfold appendInt
  dsimp only
  split
  · exact plain_cons rfl hdigits
  · exact hdigits

open TimeText in
theorem plain_appendNano (nanos : Int) : ∀ c ∈ appendNano nanos, isPlain c = true := by
  have hdigits := plain_of_subset (plain_appendInt nanos 9) (List.rdropWhile_prefix (· = '0') _).subset
  unfold appendNano
  dsimp only
  split
  · simp
  · exact plain_cons rfl hdigits

theorem plain_formatDate (t : Int) : ∀ c ∈ formatDate t, isPlain c = true :=
  plain_append (plain_appendInt _ _) (plain_cons rfl (plain_append (plain_appendInt _ _)
    (plain_cons rfl (plain_appendInt _ _))))

theorem plain_timeString (t : Int) : Holds isPlain (timeString t) := by
  unfold timeString
  dsimp only
  rw [holds_append, holds_ofList]
  refine ⟨plain_append (plain_formatDate t) (plain_cons rfl ?_), by decide⟩
  exact plain_append (plain_appendInt _ _) (plain_cons rfl (plain_append (plain_appendInt _ _)
    (plain_cons rfl (plain_append (plain_appendInt _ _) (plain_appendNano _)))))

theorem plain_rfc3339 (t : Int) : ∀ c ∈ TimeText.formatRfc3339Nano t, isPlain c = true :=
  plain_append (plain_appendInt _ _) (plain_cons rfl (plain_append (plain_appendInt _ _)
    (plain_cons rfl (plain_append (plain_appendInt _ _) (plain_cons rfl (plain_append (plain_appendInt _ _)
      (plain_cons rfl (plain_append (plain_appendInt _ _) (plain_cons rfl (plain_append (plain_appendInt _ _)
        (plain_append (plain_appendNano _) (plain_all (by decide)))))))))))))

/-! ## §7. What is printed, and what is encoded. -/

/-- A text between brackets. -/
theorem holds_between {p : Char → Bool} (hp : ∀ c, isPlain c = true → p c = true) {left right : String} (hleft : Holds isPlain left) (hright : Holds isPlain right)
    (s : String) : Holds p (left ++ s ++ right) ↔ Holds p s := by
  rw [holds_append, holds_append]
  exact ⟨fun h => h.1.2, fun h => ⟨⟨hleft.of_plain hp, h⟩, hright.of_plain hp⟩⟩

mutual

/-- **What is printed holds what the texts in the value hold**, and plain characters. -/
theorem holds_sprint {p : Char → Bool} (hp : ∀ c, isPlain c = true → p c = true) (v : GoValue) :
    Holds p (sprint v) ↔ ∀ s ∈ strings v, Holds p s := by
  have hnone : ∀ {text : String}, Holds isPlain text → (Holds p text ↔ ∀ s ∈ ([] : List String), Holds p s) :=
    fun htext => ⟨fun _ _ hs => absurd hs List.not_mem_nil, fun _ => htext.of_plain hp⟩
  have hspace : Holds p " " := Holds.of_plain hp (by decide)
  cases v with
  | nil => exact hnone (by decide)
  | bool b => exact hnone (by cases b <;> decide)
  | int n => exact hnone (plain_int n)
  | int64 n => exact hnone (plain_int n)
  | float64 x => exact hnone (plain_formatV x)
  | time t => exact hnone (plain_timeString t)
  | string s => simp [sprint, strings]
  | uuid text => simp [sprint, strings]
  | slice elements items =>
    rw [sprint, strings, holds_between hp (by decide) (by decide), holds_intercalate hspace]
    exact holds_sprintItems hp items
  | map elements members =>
    rw [sprint, strings, holds_between hp (by decide) (by decide), holds_intercalate hspace]
    exact holds_sprintMembers hp members
  | record omitempty fields =>
    rw [sprint, strings, holds_between hp (by decide) (by decide), holds_intercalate hspace]
    exact holds_sprintFields hp fields

theorem holds_sprintItems {p : Char → Bool} (hp : ∀ c, isPlain c = true → p c = true) (vs : List GoValue) :
    (∀ s ∈ sprintItems vs, Holds p s) ↔ ∀ s ∈ stringsOfItems vs, Holds p s := by
  cases vs with
  | nil => rw [sprintItems, stringsOfItems]
  | cons v vs =>
    rw [sprintItems, stringsOfItems, List.forall_mem_cons, List.forall_mem_append, holds_sprint hp v,
      holds_sprintItems hp vs]

theorem holds_sprintMembers {p : Char → Bool} (hp : ∀ c, isPlain c = true → p c = true) (ms : Members) :
    (∀ s ∈ sprintMembers ms, Holds p s) ↔ ∀ s ∈ stringsOfMembers ms, Holds p s := by
  cases ms with
  | nil => rw [sprintMembers, stringsOfMembers]
  | cons m ms =>
    obtain ⟨key, v⟩ := m
    have hcolon : Holds p ":" := Holds.of_plain hp (by decide)
    rw [sprintMembers, stringsOfMembers, List.cons_append, List.forall_mem_cons, List.forall_mem_cons,
      List.forall_mem_append, holds_append, holds_append, holds_sprint hp v, holds_sprintMembers hp ms]
    exact ⟨fun h => ⟨h.1.1.1, h.1.2, h.2⟩, fun h => ⟨⟨⟨h.1, hcolon⟩, h.2.1⟩, h.2.2⟩⟩

theorem holds_sprintFields {p : Char → Bool} (hp : ∀ c, isPlain c = true → p c = true) (fs : Members) :
    (∀ s ∈ sprintFields fs, Holds p s) ↔ ∀ s ∈ stringsOfFields fs, Holds p s := by
  cases fs with
  | nil => rw [sprintFields, stringsOfFields]
  | cons f fs =>
    obtain ⟨name, v⟩ := f
    rw [sprintFields, stringsOfFields, List.forall_mem_cons, List.forall_mem_append, holds_sprint hp v,
      holds_sprintFields hp fs]

end

/-- The character is written with such characters only. -/
def keeps (p : Char → Bool) (c : Char) : Bool := (escapeJson c).all p

theorem plain_escapeJson {c : Char} (h : isPlain c = true) : ∀ d ∈ escapeJson c, isPlain d = true := by
  unfold escapeJson
  split
  · exact plain_cons rfl (plain_cons h (by simp))
  split
  · exact plain_all (by decide)
  split
  · exact plain_all (by decide)
  split
  · exact plain_all (by decide)
  split
  · exact plain_all (by decide)
  split
  · exact plain_all (by decide)
  split
  · rename_i hescaped
    obtain hcontrol | hmark := hescaped
    · simp only [isPlain, Bool.and_eq_true, decide_eq_true_eq] at h
      omega
    · simp only [List.mem_cons, List.not_mem_nil, or_false] at hmark
      obtain rfl | rfl | rfl | rfl | rfl := hmark <;> exact plain_all (by decide)
  · exact plain_cons h (by simp)

theorem holds_quoteJson {p : Char → Bool} (hp : ∀ c, isPlain c = true → p c = true) (s : String) :
    Holds p (quoteJson s) ↔ Holds (keeps p) s := by
  have hquote : p '"' = true := hp _ rfl
  unfold quoteJson
  rw [holds_ofList, List.cons_append, List.forall_mem_cons, List.forall_mem_append, List.forall_mem_singleton]
  have hbody : (∀ d ∈ s.toList.flatMap escapeJson, p d = true) ↔ Holds (keeps p) s := by
    constructor
    · intro h c hc
      exact List.all_eq_true.mpr fun d hd => h d (List.mem_flatMap.mpr ⟨c, hc, hd⟩)
    · intro h d hd
      obtain ⟨c, hc, hdc⟩ := List.mem_flatMap.mp hd
      exact List.all_eq_true.mp (h c hc) d hdc
  rw [hbody]
  exact ⟨fun h => h.2.1, fun h => ⟨hquote, h, hquote⟩⟩

/-- A plain name is encoded with plain characters. -/
theorem plain_quoteJson {s : String} (h : s.toList.all isPlain = true) : Holds isPlain (quoteJson s) := by
  refine (holds_quoteJson (fun c hc => hc) s).mpr ?_
  intro c hc
  exact List.all_eq_true.mpr (plain_escapeJson (List.all_eq_true.mp h c hc))

/-- What is left out holds no text, and has a notation. -/
theorem of_isEmpty {v : GoValue} (h : isEmpty v = true) : (∀ s ∈ strings v, s = "") ∧ encodable v = true := by
  cases v with
  | nil => simp [strings, encodable]
  | bool b => simp [strings, encodable]
  | int n => simp [strings, encodable]
  | int64 n => simp [strings, encodable]
  | float64 x =>
    cases x with
    | fin x => simp [strings, encodable]
    | nan => cases h
    | inf negative => cases h
  | string s =>
    rw [isEmpty, decide_eq_true_eq] at h
    simp [strings, encodable, h]
  | time t => cases h
  | uuid text => cases h
  | slice elements items =>
    rw [isEmpty, List.isEmpty_iff] at h
    simp [strings, stringsOfItems, encodable, encodableItems, h]
  | map elements members =>
    rw [isEmpty, List.isEmpty_iff] at h
    simp [strings, stringsOfMembers, encodable, encodableMembers, h]
  | record omitempty fields => cases h

/-- What encoding answers where the texts are these: a document whose characters are
theirs, or a plain message where something has no notation. -/
def Encodes {α : Type} (p : Char → Bool) (good : α → Prop) (texts : List String) (ok : Bool) :
    Except String α → Prop
  | .ok document => ok = true ∧ (good document ↔ ∀ s ∈ texts, Holds (keeps p) s)
  | .error message => ok = false ∧ Holds isPlain message

namespace Encodes

variable {α β γ : Type} {p : Char → Bool}

theorem map {good : α → Prop} {good' : β → Prop} {texts : List String} {ok : Bool} {x : Except String α} {f : α → β}
    (hgood : ∀ a, good' (f a) ↔ good a) (hx : Encodes p good texts ok x) :
    Encodes p good' texts ok (do return f (← x)) := by
  cases x with
  | error message => exact hx
  | ok a => exact ⟨hx.1, (hgood a).trans hx.2⟩

/-- One value, and then another one; `r` says what stands around them. -/
theorem both {good : γ → Prop} {good₁ : α → Prop} {good₂ : β → Prop} {texts texts₁ texts₂ : List String}
    {ok₁ ok₂ : Bool} {x : Except String α} {y : Except String β} {f : α → β → γ} {r : Prop}
    (hgood : ∀ a b, good (f a b) ↔ r ∧ good₁ a ∧ good₂ b)
    (htexts : (∀ s ∈ texts, Holds (keeps p) s)
      ↔ r ∧ (∀ s ∈ texts₁, Holds (keeps p) s) ∧ ∀ s ∈ texts₂, Holds (keeps p) s)
    (hx : Encodes p good₁ texts₁ ok₁ x) (hy : Encodes p good₂ texts₂ ok₂ y) :
    Encodes p good texts (ok₁ && ok₂) (do let a ← x; let b ← y; return f a b) := by
  cases x with
  | error message =>
    refine ⟨?_, hx.2⟩
    rw [hx.1, Bool.false_and]
  | ok a =>
    cases y with
    | error message =>
      refine ⟨?_, hy.2⟩
      rw [hy.1, Bool.and_false]
    | ok b =>
      refine ⟨?_, ?_⟩
      · rw [hx.1, hy.1]
        rfl
      · rw [hgood a b, htexts, hx.2, hy.2]

end Encodes

theorem holds_newline {p : Char → Bool} (hp : ∀ c, isPlain c = true → p c = true) (hbreak : p '\n' = true)
    (depth : ℕ) : Holds p (newline depth) := by
  unfold newline
  rw [holds_ofList, List.forall_mem_cons]
  refine ⟨hbreak, ?_⟩
  intro c hc
  rw [List.eq_of_mem_replicate hc]
  exact hp _ rfl

theorem holds_bracket {p : Char → Bool} (hp : ∀ c, isPlain c = true → p c = true) (hbreak : p '\n' = true)
    {left right : String} (hleft : Holds isPlain left) (hright : Holds isPlain right) (depth : ℕ)
    (parts : List String) : Holds p (bracket left right depth parts) ↔ ∀ part ∈ parts, Holds p part := by
  have hl := hleft.of_plain hp
  have hr := hright.of_plain hp
  unfold bracket
  split
  · rename_i hnil
    rw [hnil, holds_append]
    exact ⟨fun _ part hpart => absurd hpart List.not_mem_nil, fun _ => ⟨hl, hr⟩⟩
  · have hseparator : Holds p ("," ++ newline (depth + 1)) :=
      holds_append.mpr ⟨Holds.of_plain hp (by decide), holds_newline hp hbreak _⟩
    rw [holds_append, holds_append, holds_append, holds_append, holds_intercalate hseparator]
    exact ⟨fun h => h.1.1.2, fun h => ⟨⟨⟨⟨hl, holds_newline hp hbreak _⟩, h⟩, holds_newline hp hbreak _⟩, hr⟩⟩

/-- What has no text in it is encoded in plain characters. -/
theorem encodes_plain {p : Char → Bool} (hp : ∀ c, isPlain c = true → p c = true) {text : String}
    (htext : Holds isPlain text) : Encodes p (Holds p) [] true (pure text) :=
  ⟨rfl, fun _ _ hs => absurd hs List.not_mem_nil, fun _ => htext.of_plain hp⟩

theorem encodes_text {p : Char → Bool} (hp : ∀ c, isPlain c = true → p c = true) (s : String) :
    Encodes p (Holds p) [s] true (pure (quoteJson s)) := by
  refine ⟨rfl, ?_⟩
  rw [holds_quoteJson hp, List.forall_mem_singleton]

mutual

/-- **The document holds what the texts in the value hold**, after escaping, and plain
characters. -/
theorem encodes {p : Char → Bool} (hp : ∀ c, isPlain c = true → p c = true) (hbreak : p '\n' = true) (depth : ℕ)
    (v : GoValue) (hv : valid v = true) : Encodes p (Holds p) (strings v) (encodable v) (encode depth v) := by
  cases v with
  | nil => exact encodes_plain hp (by decide)
  | bool b => exact encodes_plain hp (by cases b <;> decide)
  | int n => exact encodes_plain hp (plain_int n)
  | int64 n => exact encodes_plain hp (plain_int n)
  | float64 x =>
    cases x with
    | fin x => exact encodes_plain hp (plain_formatJson x)
    | nan => exact ⟨rfl, by decide⟩
    | inf negative => exact ⟨rfl, by cases negative <;> decide⟩
  | string s => exact encodes_text hp s
  | uuid text => exact encodes_text hp text
  | time t =>
    rw [encode, strings, encodable]
    split
    · rename_i hfits
      have hquote : Holds isPlain "\"" := by decide
      rw [hfits]
      exact encodes_plain hp (holds_append.mpr ⟨holds_append.mpr ⟨hquote, holds_ofList.mpr (plain_rfc3339 t)⟩, hquote⟩)
    · rename_i hfits
      exact ⟨Bool.eq_false_iff.mpr hfits, by decide⟩
  | slice elements items =>
    rw [valid] at hv
    rw [encode, strings, encodable]
    exact (encodesItems hp hbreak (depth + 1) items hv).map
      fun parts => holds_bracket hp hbreak (by decide) (by decide) depth parts
  | map elements members =>
    rw [valid, Bool.and_eq_true] at hv
    rw [encode, strings, encodable]
    exact (encodesMembers hp hbreak (depth + 1) members hv.2).map
      fun parts => holds_bracket hp hbreak (by decide) (by decide) depth parts
  | record omitempty fields =>
    rw [valid, Bool.and_eq_true] at hv
    rw [encode, strings, encodable]
    exact (encodesFields hp hbreak (depth + 1) omitempty fields hv.1 hv.2).map
      fun parts => holds_bracket hp hbreak (by decide) (by decide) depth parts

theorem encodesItems {p : Char → Bool} (hp : ∀ c, isPlain c = true → p c = true) (hbreak : p '\n' = true)
    (depth : ℕ) (vs : List GoValue) (hvs : validItems vs = true) :
    Encodes p (fun parts => ∀ part ∈ parts, Holds p part) (stringsOfItems vs) (encodableItems vs)
      (encodeItems depth vs) := by
  cases vs with
  | nil =>
    rw [encodeItems, stringsOfItems, encodableItems]
    exact ⟨rfl, by simp⟩
  | cons v vs =>
    rw [validItems, Bool.and_eq_true] at hvs
    rw [encodeItems, stringsOfItems, encodableItems]
    refine Encodes.both (r := True) ?_ ?_ (encodes hp hbreak depth v hvs.1) (encodesItems hp hbreak depth vs hvs.2)
    · intro text texts
      rw [List.forall_mem_cons, true_and]
    · rw [List.forall_mem_append, true_and]

theorem encodesMembers {p : Char → Bool} (hp : ∀ c, isPlain c = true → p c = true) (hbreak : p '\n' = true)
    (depth : ℕ) (ms : Members) (hms : validMembers ms = true) :
    Encodes p (fun parts => ∀ part ∈ parts, Holds p part) (stringsOfMembers ms) (encodableMembers ms)
      (encodeMembers depth [] ms) := by
  cases ms with
  | nil =>
    rw [encodeMembers, stringsOfMembers, encodableMembers]
    exact ⟨rfl, by simp⟩
  | cons m ms =>
    obtain ⟨key, v⟩ := m
    have hcolon : Holds p ": " := Holds.of_plain hp (by decide)
    rw [validMembers, Bool.and_eq_true] at hms
    rw [encodeMembers, stringsOfMembers, encodableMembers, if_neg (by simp)]
    refine Encodes.both (r := Holds (keeps p) key) ?_ ?_ (encodes hp hbreak depth v hms.1)
      (encodesMembers hp hbreak depth ms hms.2)
    · intro text texts
      rw [List.forall_mem_cons, holds_append, holds_append, holds_quoteJson hp]
      exact ⟨fun h => ⟨h.1.1.1, h.1.2, h.2⟩, fun h => ⟨⟨⟨h.1, hcolon⟩, h.2.1⟩, h.2.2⟩⟩
    · rw [List.cons_append, List.forall_mem_cons, List.forall_mem_append]

theorem encodesFields {p : Char → Bool} (hp : ∀ c, isPlain c = true → p c = true) (hbreak : p '\n' = true)
    (depth : ℕ) (omitempty : List String) (fs : Members)
    (hnames : (fs.all fun field => field.1.toList.all isPlain) = true) (hfs : validMembers fs = true) :
    Encodes p (fun parts => ∀ part ∈ parts, Holds p part) (stringsOfFields fs) (encodableMembers fs)
      (encodeMembers depth omitempty fs) := by
  cases fs with
  | nil =>
    rw [encodeMembers, stringsOfFields, encodableMembers]
    exact ⟨rfl, by simp⟩
  | cons f fs =>
    obtain ⟨name, v⟩ := f
    rw [List.all_cons, Bool.and_eq_true] at hnames
    rw [validMembers, Bool.and_eq_true] at hfs
    have hrest := encodesFields hp hbreak depth omitempty fs hnames.2 hfs.2
    rw [encodeMembers, stringsOfFields, encodableMembers]
    split
    · -- the field is left out, and had nothing in it
      rename_i hleft
      obtain ⟨hempty, hencodable⟩ := of_isEmpty (Bool.and_eq_true_iff.mp hleft).2
      have htexts : (∀ s ∈ strings v ++ stringsOfFields fs, Holds (keeps p) s)
          ↔ ∀ s ∈ stringsOfFields fs, Holds (keeps p) s := by
        rw [List.forall_mem_append]
        refine ⟨fun h => h.2, fun h => ⟨?_, h⟩⟩
        intro s hs c hc
        rw [hempty s hs] at hc
        simp at hc
      rw [hencodable, Bool.true_and]
      cases hfields : encodeMembers depth omitempty fs with
      | error message =>
        rw [hfields] at hrest
        exact hrest
      | ok parts =>
        rw [hfields] at hrest
        exact ⟨hrest.1, hrest.2.trans htexts.symm⟩
    · have hname : Holds p (quoteJson name ++ ": ") :=
        Holds.of_plain hp (holds_append.mpr ⟨plain_quoteJson hnames.1, by decide⟩)
      refine Encodes.both (r := True) ?_ ?_ (encodes hp hbreak depth v hfs.1) hrest
      · intro text texts
        rw [List.forall_mem_cons, holds_append, true_and]
        exact ⟨fun h => ⟨h.1.2, h.2⟩, fun h => ⟨⟨hname, h.1⟩, h.2⟩⟩
      · rw [List.forall_mem_append, true_and]

end

/-! ## §8. Members by their keys. -/

theorem mem_of_lookup {ms : Members} {key : String} {v : GoValue} (h : ms.lookup key = some v) : (key, v) ∈ ms := by
  obtain ⟨before, after, hlist, -⟩ := List.lookup_eq_some_iff.mp h
  rw [hlist]
  simp

theorem lookup_isSome_iff_mem {ms : Members} {key : String} :
    (ms.lookup key).isSome = true ↔ key ∈ ms.map Prod.fst := by
  rw [List.lookup_isSome_iff, List.mem_map]
  constructor
  · intro h
    obtain ⟨m, hm, hkey⟩ := h
    exact ⟨m, hm, (eq_of_beq hkey).symm⟩
  · intro h
    obtain ⟨m, hm, rfl⟩ := h
    exact ⟨m, hm, beq_self_eq_true _⟩

theorem lookup_of_mem {ms : Members} (hnodup : (ms.map Prod.fst).Nodup) {key : String} {v : GoValue}
    (h : (key, v) ∈ ms) : ms.lookup key = some v := by
  obtain ⟨w, hw⟩ := Option.isSome_iff_exists.mp (lookup_isSome_iff_mem.mpr (List.mem_map_of_mem h))
  have hsame := List.inj_on_of_nodup_map hnodup (mem_of_lookup hw) h rfl
  rw [hw, (Prod.mk.inj hsame).2]

theorem at_of_mem {ms : Members} (hnodup : (ms.map Prod.fst).Nodup) {key : String} {v : GoValue}
    (h : (key, v) ∈ ms) : at_ ms key = v := by
  rw [at_, lookup_of_mem hnodup h, Option.getD_some]

theorem at_of_not_mem {ms : Members} {key : String} (h : key ∉ ms.map Prod.fst) : at_ ms key = .nil := by
  cases hlookup : ms.lookup key with
  | none => rw [at_, hlookup, Option.getD_none]
  | some v => exact absurd (lookup_isSome_iff_mem.mp (by rw [hlookup]; rfl)) h

/-- A value of a valid map is valid. -/
theorem valid_of_mem {ms : Members} (h : validMembers ms = true) {key : String} {v : GoValue} (hmem : (key, v) ∈ ms) :
    v.valid = true := by
  induction ms with
  | nil => cases hmem
  | cons m ms ih =>
    obtain ⟨key', v'⟩ := m
    rw [validMembers, Bool.and_eq_true] at h
    obtain hhead | htail := List.mem_cons.mp hmem
    · rw [(Prod.mk.inj hhead).2]
      exact h.1
    · exact ih h.2 htail

/-- A valid map: each key once, and valid values. -/
structure ValidMap (ms : Members) : Prop where
  nodup : (ms.map Prod.fst).Nodup
  values : validMembers ms = true

theorem validMap_of_valid {elements : Declared} {ms : Members} (h : (GoValue.map elements ms).valid = true) :
    ValidMap ms := by
  rw [GoValue.valid, Bool.and_eq_true, decide_eq_true_eq] at h
  refine ⟨h.1.imp ?_, h.2⟩
  intro key key' hlt heq
  rw [heq] at hlt
  exact String.lt_irrefl _ hlt

theorem validMap_nil : ValidMap [] := ⟨List.nodup_nil, rfl⟩

theorem valid_at {ms : Members} (h : ValidMap ms) (key : String) : (at_ ms key).valid = true := by
  cases hlookup : ms.lookup key with
  | none =>
    rw [at_, hlookup]
    rfl
  | some v =>
    rw [at_, hlookup]
    exact valid_of_mem h.values (mem_of_lookup hlookup)

/-- A map that is asserted is valid where the value is. -/
theorem validMap_asMap {v : GoValue} (h : v.valid = true) : ValidMap ((asMap v).getD []) := by
  unfold asMap
  split
  · exact validMap_of_valid h
  · exact validMap_nil

end GoValue

end Momento.Automation
