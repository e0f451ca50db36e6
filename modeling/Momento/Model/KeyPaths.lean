/-
  Momento.Model.KeyPaths

  **WHERE A MEMBER LIES IN A DOCUMENT**, and what the filter of blocked names does
  to it: a key path leads through objects and arrays to a member of an object.
-/
import Momento.Model.Privacy

namespace Momento

/-! ## §1. Paths. -/

/-- A step into a value: to a member of an object, or to an element of an array. -/
inductive PathStep where
  | member (key : String)
  | place (i : Nat)
  deriving DecidableEq

/-- A path whose last step is to a member. -/
abbrev KeyPath := List PathStep

/-- An entry as the container one step above has it. -/
def PathStep.under (step : PathStep) (e : KeyPath × Json) : KeyPath × Json := (step :: e.1, e.2)

namespace Json

mutual

/-- The key paths of a value, each with the value it leads to. -/
def entries : Json → List (KeyPath × Json)
  | .obj members => memberEntries members
  | .arr items => itemEntries 0 items
  | .null => []
  | .bool _ => []
  | .num _ => []
  | .str _ => []
  | .strs _ => []

/-- The entries of an array's elements, the first of which has place `i`. -/
def itemEntries (i : Nat) : List Json → List (KeyPath × Json)
  | [] => []
  | v :: vs => v.entries.map (PathStep.place i).under ++ itemEntries (i + 1) vs

/-- The members, and all below them. -/
def memberEntries : List (String × Json) → List (KeyPath × Json)
  | [] => []
  | (key, v) :: ms =>
    ([.member key], v) :: v.entries.map (PathStep.member key).under ++ memberEntries ms

end

end Json

/-- The entries of a document; one that is not there has none. -/
def documentEntries (p : Option Properties) : List (KeyPath × Json) := Json.memberEntries (p.getD [])

/-- The key paths of a document. -/
def keyPaths (p : Option Properties) : List KeyPath := (documentEntries p).map Prod.fst

/-! ## §2. No path is empty, and a path's way is a path. -/

section
open Json

/-- The prefixes of a key path that end at a member. -/
def KeyPath.HasStop (path : KeyPath) (way : KeyPath) (key : String) : Prop :=
  way ++ [.member key] <+: path

theorem hasStop_cons {step : PathStep} {path way : KeyPath} {key : String}
    (h : KeyPath.HasStop (step :: path) way key) :
    way = [] ∧ step = .member key ∨ ∃ rest, way = step :: rest ∧ KeyPath.HasStop path rest key := by
  cases way with
  | nil =>
    left
    exact ⟨rfl, (List.cons_prefix_cons.mp h).1.symm⟩
  | cons first rest =>
    right
    obtain ⟨rfl, hrest⟩ := List.cons_prefix_cons.mp h
    exact ⟨rest, rfl, hrest⟩

mutual

theorem ne_nil_of_mem_entries {v : Json} {e : KeyPath × Json} (h : e ∈ v.entries) : e.1 ≠ [] := by
  cases v with
  | obj members => exact ne_nil_of_mem_memberEntries h
  | arr items => exact ne_nil_of_mem_itemEntries h
  | null => cases h
  | bool b => cases h
  | num x => cases h
  | str s => cases h
  | strs texts => cases h

theorem ne_nil_of_mem_itemEntries {i : Nat} {items : List Json} {e : KeyPath × Json}
    (h : e ∈ itemEntries i items) : e.1 ≠ [] := by
  cases items with
  | nil => cases h
  | cons v vs =>
    rcases List.mem_append.mp h with hfirst | hrest
    · obtain ⟨inner, -, rfl⟩ := List.mem_map.mp hfirst
      exact List.cons_ne_nil _ _
    · exact ne_nil_of_mem_itemEntries hrest

theorem ne_nil_of_mem_memberEntries {members : List (String × Json)} {e : KeyPath × Json}
    (h : e ∈ memberEntries members) : e.1 ≠ [] := by
  cases members with
  | nil => cases h
  | cons m ms =>
    rcases List.mem_append.mp h with hfirst | hrest
    · rcases List.mem_cons.mp hfirst with rfl | hunder
      · exact List.cons_ne_nil _ _
      · obtain ⟨inner, -, rfl⟩ := List.mem_map.mp hunder
        exact List.cons_ne_nil _ _
    · exact ne_nil_of_mem_memberEntries hrest

end

mutual

/-- **The members on the way to a member** are members of the value too. -/
theorem stop_mem_entries {v : Json} {e : KeyPath × Json} {way : KeyPath} {key : String} (h : e ∈ v.entries)
    (hstop : KeyPath.HasStop e.1 way key) : ∃ value, (way ++ [.member key], value) ∈ v.entries := by
  cases v with
  | obj members => exact stop_mem_memberEntries h hstop
  | arr items => exact stop_mem_itemEntries h hstop
  | null => cases h
  | bool b => cases h
  | num x => cases h
  | str s => cases h
  | strs texts => cases h

theorem stop_mem_itemEntries {i : Nat} {items : List Json} {e : KeyPath × Json} {way : KeyPath} {key : String}
    (h : e ∈ itemEntries i items) (hstop : KeyPath.HasStop e.1 way key) :
    ∃ value, (way ++ [.member key], value) ∈ itemEntries i items := by
  cases items with
  | nil => cases h
  | cons v vs =>
    rcases List.mem_append.mp h with hfirst | hrest
    · obtain ⟨inner, hinner, rfl⟩ := List.mem_map.mp hfirst
      rcases hasStop_cons hstop with ⟨-, hstep⟩ | ⟨rest, rfl, hstop'⟩
      · cases hstep
      · obtain ⟨value, hvalue⟩ := stop_mem_entries hinner hstop'
        exact ⟨value, List.mem_append_left _ (List.mem_map_of_mem (f := (PathStep.place i).under) hvalue)⟩
    · obtain ⟨value, hvalue⟩ := stop_mem_itemEntries hrest hstop
      exact ⟨value, List.mem_append_right _ hvalue⟩

theorem stop_mem_memberEntries {members : List (String × Json)} {e : KeyPath × Json} {way : KeyPath} {key : String}
    (h : e ∈ memberEntries members) (hstop : KeyPath.HasStop e.1 way key) :
    ∃ value, (way ++ [.member key], value) ∈ memberEntries members := by
  cases members with
  | nil => cases h
  | cons m ms =>
    obtain ⟨name, v⟩ := m
    rcases List.mem_append.mp h with hfirst | hrest
    · rcases List.mem_cons.mp hfirst with rfl | hunder
      · rcases hasStop_cons hstop with ⟨rfl, hstep⟩ | ⟨rest, rfl, hstop'⟩
        · rw [← hstep]
          exact ⟨v, List.mem_append_left _ List.mem_cons_self⟩
        · exact absurd hstop'.length_le (by simp)
      · obtain ⟨inner, hinner, rfl⟩ := List.mem_map.mp hunder
        rcases hasStop_cons hstop with ⟨rfl, hstep⟩ | ⟨rest, rfl, hstop'⟩
        · rw [← hstep]
          exact ⟨v, List.mem_append_left _ List.mem_cons_self⟩
        · obtain ⟨value, hvalue⟩ := stop_mem_entries hinner hstop'
          exact ⟨value, List.mem_append_left _ (List.mem_cons_of_mem _
            (List.mem_map_of_mem (f := (PathStep.member name).under) hvalue))⟩
    · obtain ⟨value, hvalue⟩ := stop_mem_memberEntries hrest hstop
      exact ⟨value, List.mem_append_right _ hvalue⟩

end

end

/-! ## §3. Walks that keep every path. -/

namespace Json

/-- The value has no members and no elements. -/
def isScalar : Json → Bool
  | .obj _ => false
  | .arr _ => false
  | _ => true

/-- The walk goes through objects and arrays, and makes neither of anything else. -/
structure Walks (f : Json → Json) : Prop where
  obj : ∀ members, f (.obj members) = .obj (members.map fun m => (m.1, f m.2))
  arr : ∀ items, f (.arr items) = .arr (items.map f)
  scalar : ∀ v, isScalar v = true → (f v).entries = []

variable {f : Json → Json}

mutual

/-- **A walk leaves every key path in its place**, and walks through the value there. -/
theorem Walks.entries (hf : Walks f) (v : Json) : (f v).entries = v.entries.map fun e => (e.1, f e.2) := by
  cases v with
  | obj members =>
    rw [hf.obj]
    exact hf.memberEntries members
  | arr items =>
    rw [hf.arr]
    exact hf.itemEntries 0 items
  | null => exact hf.scalar .null rfl
  | bool b => exact hf.scalar (.bool b) rfl
  | num x => exact hf.scalar (.num x) rfl
  | str s => exact hf.scalar (.str s) rfl
  | strs texts => exact hf.scalar (.strs texts) rfl

theorem Walks.itemEntries (hf : Walks f) (i : Nat) (items : List Json) :
    Json.itemEntries i (items.map f) = (Json.itemEntries i items).map fun e => (e.1, f e.2) := by
  cases items with
  | nil => rfl
  | cons v vs =>
    show (f v).entries.map (PathStep.place i).under ++ Json.itemEntries (i + 1) (vs.map f) = _
    rw [hf.entries v, hf.itemEntries (i + 1) vs, List.map_map]
    show _ = (v.entries.map (PathStep.place i).under ++ Json.itemEntries (i + 1) vs).map _
    rw [List.map_append, List.map_map]
    rfl

theorem Walks.memberEntries (hf : Walks f) (members : List (String × Json)) :
    Json.memberEntries (members.map fun m => (m.1, f m.2))
      = (Json.memberEntries members).map fun e => (e.1, f e.2) := by
  cases members with
  | nil => rfl
  | cons m ms =>
    show ([.member m.1], f m.2) :: (f m.2).entries.map (PathStep.member m.1).under
        ++ Json.memberEntries (ms.map fun m => (m.1, f m.2)) = _
    rw [hf.entries m.2, hf.memberEntries ms, List.map_map]
    show _ = (([.member m.1], m.2) :: m.2.entries.map (PathStep.member m.1).under ++ Json.memberEntries ms).map _
    rw [List.map_append, List.map_cons, List.map_map]
    rfl

end

end Json

/-! ## §4. What the filter drops. -/

section
variable (env : Platform) (blocked : List String)

/-- The step is to a member of a blocked name. -/
def PathStep.blocks : PathStep → Bool
  | .member key => matchForm env key ∈ blocked
  | .place _ => false

/-- The path is to a member of a blocked name, or lies under one. -/
def KeyPath.crosses (path : KeyPath) : Bool := path.any (PathStep.blocks env blocked)

/-- What the filter leaves of an entry. -/
def filteredEntry (e : KeyPath × Json) : KeyPath × Json := (e.1, filterNested env blocked e.2)

/-- The entries the filter leaves, filtered. -/
def filteredEntries (entries : List (KeyPath × Json)) : List (KeyPath × Json) :=
  (entries.filter fun e => !e.1.crosses env blocked).map (filteredEntry env blocked)

theorem filteredEntries_append (l l' : List (KeyPath × Json)) :
    filteredEntries env blocked (l ++ l') = filteredEntries env blocked l ++ filteredEntries env blocked l' := by
  unfold filteredEntries
  rw [List.filter_append, List.map_append]

/-- Under a step that is not blocked the same entries are left. -/
theorem filteredEntries_under {step : PathStep} (h : step.blocks env blocked = false) (l : List (KeyPath × Json)) :
    filteredEntries env blocked (l.map step.under) = (filteredEntries env blocked l).map step.under := by
  have hcrosses : ((fun e : KeyPath × Json => !e.1.crosses env blocked) ∘ step.under)
      = fun e => !e.1.crosses env blocked := by
    funext e
    show (!(KeyPath.crosses env blocked (step :: e.1))) = _
    rw [KeyPath.crosses, List.any_cons, h, Bool.false_or]
    rfl
  unfold filteredEntries
  rw [List.filter_map, hcrosses, List.map_map, List.map_map]
  rfl

/-- Under a blocked name nothing is left. -/
theorem filteredEntries_under_blocked {step : PathStep} (h : step.blocks env blocked = true)
    (l : List (KeyPath × Json)) : filteredEntries env blocked (l.map step.under) = [] := by
  unfold filteredEntries
  rw [List.filter_eq_nil_iff.mpr]
  · rfl
  · intro e he
    obtain ⟨inner, -, rfl⟩ := List.mem_map.mp he
    show ¬(!(KeyPath.crosses env blocked (step :: inner.1))) = true
    rw [KeyPath.crosses, List.any_cons, h]
    simp

theorem filteredEntries_member (key : String) (v : Json) (l : List (KeyPath × Json)) :
    filteredEntries env blocked (([.member key], v) :: l)
      = if matchForm env key ∈ blocked then filteredEntries env blocked l
        else ([.member key], filterNested env blocked v) :: filteredEntries env blocked l := by
  unfold filteredEntries
  rw [List.filter_cons]
  by_cases hkey : matchForm env key ∈ blocked
  · rw [if_pos hkey, if_neg (by simp [KeyPath.crosses, PathStep.blocks, hkey])]
  · rw [if_neg hkey, if_pos (by simp [KeyPath.crosses, PathStep.blocks, hkey])]
    rfl

mutual

/-- **The filter drops the key paths that cross a blocked name** and no others. -/
theorem entries_filterNested (v : Json) :
    (filterNested env blocked v).entries = filteredEntries env blocked v.entries := by
  cases v with
  | obj members => exact entries_filterMembers members
  | arr items => exact entries_filterItems 0 items
  | null => rfl
  | bool b => rfl
  | num x => rfl
  | str s => rfl
  | strs texts => rfl

theorem entries_filterItems (i : Nat) (items : List Json) :
    Json.itemEntries i (filterItems env blocked items) = filteredEntries env blocked (Json.itemEntries i items) := by
  cases items with
  | nil => rfl
  | cons v vs =>
    show (filterNested env blocked v).entries.map (PathStep.place i).under
        ++ Json.itemEntries (i + 1) (filterItems env blocked vs)
      = filteredEntries env blocked (v.entries.map (PathStep.place i).under ++ Json.itemEntries (i + 1) vs)
    rw [filteredEntries_append, filteredEntries_under env blocked rfl, entries_filterNested v,
      entries_filterItems (i + 1) vs]

theorem entries_filterMembers (members : List (String × Json)) :
    Json.memberEntries (filterMembers env blocked members)
      = filteredEntries env blocked (Json.memberEntries members) := by
  cases members with
  | nil => rfl
  | cons m ms =>
    obtain ⟨key, v⟩ := m
    show Json.memberEntries (filterMembers env blocked ((key, v) :: ms))
      = filteredEntries env blocked
        (([.member key], v) :: (v.entries.map (PathStep.member key).under ++ Json.memberEntries ms))
    rw [filteredEntries_member, filteredEntries_append]
    by_cases hkey : matchForm env key ∈ blocked
    · -- the member goes, and all that is under it
      have hstep : (PathStep.member key).blocks env blocked = true := decide_eq_true hkey
      rw [filterMembers, if_pos hkey, if_pos hkey, filteredEntries_under_blocked env blocked hstep,
        List.nil_append, entries_filterMembers ms]
    · have hstep : (PathStep.member key).blocks env blocked = false := decide_eq_false hkey
      rw [filterMembers, if_neg hkey, if_neg hkey, filteredEntries_under env blocked hstep,
        ← entries_filterNested v, ← entries_filterMembers ms]
      rfl

end

mutual

/-- **A second filter finds nothing to do.** -/
theorem filterNested_filterNested (v : Json) :
    filterNested env blocked (filterNested env blocked v) = filterNested env blocked v := by
  cases v with
  | obj members => exact congrArg Json.obj (filterMembers_filterMembers members)
  | arr items => exact congrArg Json.arr (filterItems_filterItems items)
  | null => rfl
  | bool b => rfl
  | num x => rfl
  | str s => rfl
  | strs texts => rfl

theorem filterItems_filterItems (items : List Json) :
    filterItems env blocked (filterItems env blocked items) = filterItems env blocked items := by
  cases items with
  | nil => rfl
  | cons v vs =>
    show filterNested env blocked (filterNested env blocked v)
        :: filterItems env blocked (filterItems env blocked vs)
      = filterNested env blocked v :: filterItems env blocked vs
    rw [filterNested_filterNested v, filterItems_filterItems vs]

theorem filterMembers_filterMembers (members : List (String × Json)) :
    filterMembers env blocked (filterMembers env blocked members) = filterMembers env blocked members := by
  cases members with
  | nil => rfl
  | cons m ms =>
    obtain ⟨key, v⟩ := m
    by_cases hkey : matchForm env key ∈ blocked
    · rw [filterMembers, if_pos hkey, filterMembers_filterMembers ms]
    · rw [filterMembers, if_neg hkey, filterMembers, if_neg hkey, filterNested_filterNested v,
        filterMembers_filterMembers ms]

end

theorem filteredProperties_idem (p : Option Properties) (names : List String) :
    filteredProperties env (some (filteredProperties env p names)) names = filteredProperties env p names :=
  filterMembers_filterMembers env _ _

/-- What the filter leaves of a document. -/
theorem documentEntries_filtered (p : Option Properties) (names : List String) :
    documentEntries (some (filteredProperties env p names))
      = filteredEntries env (matchSet env names) (documentEntries p) :=
  entries_filterMembers env _ _

theorem keyPaths_filtered (p : Option Properties) (names : List String) :
    keyPaths (some (filteredProperties env p names))
      = (keyPaths p).filter fun path => !path.crosses env (matchSet env names) := by
  unfold keyPaths
  rw [documentEntries_filtered, filteredEntries, List.map_map, List.filter_map]
  rfl

end

end Momento
