/-
  Momento.Model.Json

  **JSON VALUES AS THE COLLECTOR HOLDS THEM.**  A decoded document is Go's `any`:
  every number is a `float64`, an object is a map.  The model lists an object's
  members in key order, each key once, which is how `json.Marshal` writes it and
  how two equal documents come to be equal here.

  One value is not decoded from anywhere: the collector itself puts `[]string`
  lists into an event's properties (`strs`).  The walks over documents do not
  enter it, and it reads back from the inbox as an ordinary array (`reload`).
-/
import Momento.Foundation.NumberText
import Mathlib.Data.List.Sort

namespace Momento

open Foundation

/-! ## §1. Text. -/

/-- `unicode.IsSpace`. -/
def isSpace (c : Char) : Bool :=
  let n := c.toNat
  (9 ≤ n && n ≤ 13) || n = 0x20 || n = 0x85 || n = 0xA0 || n = 0x1680
    || (0x2000 ≤ n && n ≤ 0x200A) || n = 0x2028 || n = 0x2029 || n = 0x202F
    || n = 0x205F || n = 0x3000

/-- `strings.TrimSpace`. -/
def trimSpace (s : String) : String :=
  String.ofList (((s.toList.dropWhile isSpace).reverse.dropWhile isSpace).reverse)

/-! ## §2. Values. -/

/-- A value of a decoded document. -/
inductive Json where
  | null
  | bool (b : Bool)
  | num (x : FiniteDouble)
  | str (s : String)
  | arr (items : List Json)
  | obj (members : List (String × Json))
  | strs (texts : List String)

/-- `map[string]any`. -/
abbrev Properties := List (String × Json)

namespace Properties

/-- `properties[key]`. -/
def get (p : Properties) (key : String) : Option Json := p.lookup key

/-- `properties[key] = value`: the members stay in key order. -/
def set (p : Properties) (key : String) (value : Json) : Properties :=
  (p.filter (fun m => m.1 ≠ key)).orderedInsert (fun a b => a.1 ≤ b.1) (key, value)

/-- The `||` of two `jsonb` objects: the right one wins. -/
def concat (p q : Properties) : Properties :=
  q.foldr (fun m acc => Properties.set acc m.1 m.2) p

theorem mem_set {p : Properties} {key : String} {value : Json} {m : String × Json} :
    m ∈ p.set key value ↔ m = (key, value) ∨ m ∈ p ∧ m.1 ≠ key := by
  unfold set
  rw [List.mem_orderedInsert, List.mem_filter]
  simp

theorem get_set_self (p : Properties) (key : String) (value : Json) :
    (p.set key value).get key = some value := by
  unfold get set
  have hnot : ∀ q : Properties, (∀ m ∈ q, m.1 ≠ key) →
      List.lookup key (q.orderedInsert (fun a b => a.1 ≤ b.1) (key, value)) = some value := by
    intro q hq
    induction q with
    | nil => simp
    | cons m q ih =>
      rw [List.orderedInsert_cons]
      split
      · simp
      have hne : key ≠ m.1 := fun h => hq m (by simp) h.symm
      rw [List.lookup_cons, beq_false_of_ne hne]
      exact ih (fun m' hm' => hq m' (by simp [hm']))
  apply hnot
  intro m hm
  simpa using (List.mem_filter.mp hm).2

theorem get_set_of_ne (p : Properties) {key key' : String} (h : key' ≠ key) (value : Json) :
    (p.set key value).get key' = p.get key' := by
  have hins : ∀ q : Properties,
      List.lookup key' (q.orderedInsert (fun a b => a.1 ≤ b.1) (key, value)) = q.lookup key' := by
    intro q
    induction q with
    | nil => simp [List.lookup_cons, beq_false_of_ne h]
    | cons m q ih =>
      rw [List.orderedInsert_cons]
      split
      · rw [List.lookup_cons, beq_false_of_ne h]
      · rw [List.lookup_cons, List.lookup_cons, ih]
  have hfil : List.lookup key' (p.filter (fun m => m.1 ≠ key)) = p.lookup key' := by
    induction p with
    | nil => rfl
    | cons m p ih =>
      by_cases hm : m.1 = key
      · rw [List.filter_cons_of_neg (by simp [hm]), ih, List.lookup_cons, hm,
          beq_false_of_ne h]
      · rw [List.filter_cons_of_pos (by simp [hm]), List.lookup_cons, List.lookup_cons, ih]
  unfold get set
  rw [hins, hfil]

/-- **What `||` answers**: the right object's member, else the left one's. -/
theorem get_concat (p q : Properties) (key : String) :
    (p.concat q).get key = (Properties.get q key).or (p.get key) := by
  induction q with
  | nil => simp [concat, get]
  | cons m q ih =>
    obtain ⟨k, v⟩ := m
    have hstep : p.concat ((k, v) :: q) = Properties.set (p.concat q) k v := rfl
    have hcons : Properties.get ((k, v) :: q) key
        = if key = k then some v else Properties.get q key := by
      by_cases hkey : key = k
      · simp [get, hkey]
      · simp [get, List.lookup_cons, beq_false_of_ne hkey, hkey]
    rw [hstep, hcons]
    by_cases hkey : key = k
    · rw [if_pos hkey, hkey, get_set_self]
      rfl
    · rw [if_neg hkey, get_set_of_ne _ hkey, ih]

end Properties

/-! ## §3. `fmt.Sprint`. -/

/-- The digits of a positive decimal and the power of ten of the first one. -/
def decimalDigits (q : ℚ) : List Char × ℤ :=
  let magnitude := Int.log 10 q
  let digits := ((List.range 17).find? fun n => (q / 10 ^ (magnitude - n)).den = 1).getD 17
  ((toString ⌊q / 10 ^ (magnitude - digits)⌋).toList, magnitude)

/-- `strconv.FormatFloat(x, 'g', -1, 64)`. -/
def formatG (x : FiniteDouble) : String :=
  if x.value = 0 then "0"
  else
    let (digits, e) := decimalDigits (Binary64.shortest |x.value|)
    let body : List Char :=
      if e < -4 ∨ 6 ≤ e then
        let fraction := match digits.tail with
          | [] => []
          | ds => '.' :: ds
        let power := (toString e.natAbs).toList
        digits.take 1 ++ fraction ++ ['e', if e < 0 then '-' else '+']
          ++ List.replicate (2 - power.length) '0' ++ power
      else if e < 0 then '0' :: '.' :: List.replicate (e.natAbs - 1) '0' ++ digits
      else
        let whole := digits.take (e.natAbs + 1)
        let padding := List.replicate (e.natAbs + 1 - digits.length) '0'
        match digits.drop (e.natAbs + 1) with
        | [] => whole ++ padding
        | ds => whole ++ '.' :: ds
    String.ofList (if x.value < 0 then '-' :: body else body)

namespace Json

mutual

/-- `fmt.Sprint(value)`. -/
def sprint : Json → String
  | null => "<nil>"
  | bool b => toString b
  | num x => formatG x
  | str s => s
  | arr items => "[" ++ " ".intercalate (sprintItems items) ++ "]"
  | obj members => "map[" ++ " ".intercalate (sprintMembers members) ++ "]"
  | strs texts => "[" ++ " ".intercalate texts ++ "]"

/-- Each of them in `%v`. -/
def sprintItems : List Json → List String
  | [] => []
  | v :: vs => sprint v :: sprintItems vs

/-- Each of them, after its key. -/
def sprintMembers : List (String × Json) → List String
  | [] => []
  | (key, v) :: ms => (key ++ ":" ++ sprint v) :: sprintMembers ms

end

/-! ## §4. Through the inbox. -/

mutual

/-- The value `json.Unmarshal` reads where `json.Marshal` wrote this one. -/
def reload : Json → Json
  | arr items => arr (reloadItems items)
  | obj members => obj (reloadMembers members)
  | strs texts => arr (texts.map str)
  | null => null
  | bool b => bool b
  | num x => num x
  | str s => str s

/-- Each of them read back. -/
def reloadItems : List Json → List Json
  | [] => []
  | v :: vs => reload v :: reloadItems vs

/-- Each of them read back. -/
def reloadMembers : List (String × Json) → List (String × Json)
  | [] => []
  | (key, v) :: ms => (key, reload v) :: reloadMembers ms

end

end Json

end Momento
