/-
  Momento.Service.BlockedCounter

  **THE COUNTER OF BLOCKED PROPERTIES AND THE FILTER.**  `Accept` counts the blocked
  keys of a request, and then takes them out: two recursions over one document.

  The filter goes into every array.  The counter looks at the objects of an array, and
  not into the arrays of an array: what the filter takes out there is not counted.
-/
import Momento.Model.KeyPaths
import Momento.Service.Accept
import Momento.Service.Runs

namespace Momento

/-! ## §1. What is taken out of a request. -/

/-- The key paths at which something was taken out: the path is gone, and every member on
the way to it is still there. -/
def removedPaths (before after : List KeyPath) : List KeyPath :=
  before.filter fun path => path ∉ after ∧ ∀ way ∈ path.dropLast.inits, way ∈ before → way ∈ after

/-- The documents of a request. -/
def CollectRequest.documents (req : CollectRequest) : List (Option Properties) :=
  req.userProperties :: req.sessionProperties
    :: req.events.flatMap fun e => e.properties :: e.sessionProperties :: e.items.map some

/-- How many object keys were taken out between two states of a request, each at the top of
what went with it. -/
def removedKeys (before after : CollectRequest) : Nat :=
  (List.zipWith (fun p q => (removedPaths (keyPaths p) (keyPaths q)).length) before.documents
    after.documents).sum

section
variable (env : Platform)

theorem documents_applyPrivacyBeforeQueue (privacy : Policy) (req : CollectRequest) :
    (applyPrivacyBeforeQueue env privacy req).documents
      = req.documents.map fun p => some (filteredProperties env p privacy.blockedProperties) := by
  unfold applyPrivacyBeforeQueue CollectRequest.documents
  simp only [List.map_cons, List.map_flatMap, List.flatMap_map, filterEvent, List.map_map]
  rfl

/-! ## §2. The filter takes out the outermost blocked keys. -/

variable (blocked : List String)

/-- The path leads to a blocked key, and not through one. -/
def KeyPath.isOutermost (path : KeyPath) : Bool := path.crosses env blocked && !KeyPath.crosses env blocked path.dropLast

theorem crosses_of_extends {way path : KeyPath} (h : way <+: path) (hway : way.crosses env blocked = true) :
    path.crosses env blocked = true := by
  obtain ⟨step, hstep, hblocks⟩ := List.any_eq_true.mp hway
  exact List.any_eq_true.mpr ⟨step, h.subset hstep, hblocks⟩

/-- On the way to what is blocked there is a first member that is. -/
theorem exists_stop_of_crosses {way : KeyPath} (h : way.crosses env blocked = true) :
    ∃ up key, up ++ [.member key] <+: way ∧ KeyPath.crosses env blocked (up ++ [.member key]) = true := by
  obtain ⟨step, hstep, hblocks⟩ := List.any_eq_true.mp h
  obtain ⟨up, down, rfl⟩ := List.append_of_mem hstep
  cases step with
  | place i => cases hblocks
  | member key =>
    refine ⟨up, key, ⟨down, by simp⟩, ?_⟩
    exact List.any_eq_true.mpr ⟨_, List.mem_append_right _ List.mem_cons_self, hblocks⟩

/-- **What the filter takes out of a document.** -/
theorem removedPaths_filtered (p : Option Properties) (names : List String) :
    removedPaths (keyPaths p) (keyPaths (some (filteredProperties env p names)))
      = (keyPaths p).filter (KeyPath.isOutermost env (matchSet env names)) := by
  rw [keyPaths_filtered]
  unfold removedPaths
  apply List.filter_congr
  intro path hpath
  rw [Bool.eq_iff_iff]
  simp only [decide_eq_true_eq, List.mem_filter, List.mem_inits, KeyPath.isOutermost, Bool.and_eq_true,
    Bool.not_eq_true']
  constructor
  · rintro ⟨hgone, hway⟩
    refine ⟨?_, ?_⟩
    · -- the path itself went
      by_contra hcrosses
      exact hgone ⟨hpath, Bool.eq_false_iff.mpr hcrosses⟩
    · -- a blocked member on the way would have gone before
      by_contra hcrosses
      obtain ⟨up, key, hextends, hblocked⟩ := exists_stop_of_crosses env _ (Bool.eq_true_of_not_eq_false hcrosses)
      obtain ⟨e, he, rfl⟩ := List.mem_map.mp hpath
      obtain ⟨value, hvalue⟩ := stop_mem_memberEntries he (hextends.trans (List.dropLast_prefix e.1))
      have hkept := (hway _ hextends (List.mem_map.mpr ⟨_, hvalue, rfl⟩)).2
      rw [hblocked] at hkept
      cases hkept
  · rintro ⟨hcrosses, hway⟩
    refine ⟨fun hkept => ?_, ?_⟩
    · rw [hcrosses] at hkept
      cases hkept.2
    · intro way hextends hmem
      refine ⟨hmem, Bool.eq_false_iff.mpr fun hblocked => ?_⟩
      rw [crosses_of_extends env _ hextends hblocked] at hway
      cases hway

/-! ## §3. The counter counts those outside arrays of arrays. -/

/-- The path goes from an array straight into an array. -/
def KeyPath.nestsArrays : KeyPath → Bool
  | .place _ :: .place _ :: _ => true
  | _ :: rest => KeyPath.nestsArrays rest
  | [] => false

theorem nestsArrays_member (key : String) (path : KeyPath) :
    KeyPath.nestsArrays (.member key :: path) = KeyPath.nestsArrays path := rfl

theorem nestsArrays_place_member (i : Nat) (key : String) (path : KeyPath) :
    KeyPath.nestsArrays (.place i :: .member key :: path) = KeyPath.nestsArrays (.member key :: path) := rfl

theorem isOutermost_cons {step : PathStep} {path : KeyPath} (h : path ≠ []) :
    KeyPath.isOutermost env blocked (step :: path)
      = (!step.blocks env blocked && KeyPath.isOutermost env blocked path) := by
  unfold KeyPath.isOutermost KeyPath.crosses
  rw [List.dropLast_cons_of_ne_nil h, List.any_cons, List.any_cons]
  cases step.blocks env blocked <;> simp

/-- What the counter counts: an outermost blocked key, unless arrays nest on the way. -/
def KeyPath.isCounted (path : KeyPath) : Bool := path.isOutermost env blocked && !path.nestsArrays

theorem head_of_mem_memberEntries {members : List (String × Json)} {e : KeyPath × Json}
    (h : e ∈ Json.memberEntries members) : ∃ key rest, e.1 = .member key :: rest := by
  induction members with
  | nil => cases h
  | cons m ms ih =>
    rcases List.mem_append.mp h with hfirst | hrest
    · rcases List.mem_cons.mp hfirst with rfl | hunder
      · exact ⟨m.1, [], rfl⟩
      · obtain ⟨inner, -, rfl⟩ := List.mem_map.mp hunder
        exact ⟨m.1, inner.1, rfl⟩
    · exact ih hrest

theorem head_of_mem_itemEntries {i : Nat} {items : List Json} {e : KeyPath × Json}
    (h : e ∈ Json.itemEntries i items) : ∃ j rest, e.1 = .place j :: rest := by
  induction items generalizing i with
  | nil => cases h
  | cons v vs ih =>
    rcases List.mem_append.mp h with hfirst | hrest
    · obtain ⟨inner, -, rfl⟩ := List.mem_map.mp hfirst
      exact ⟨i, inner.1, rfl⟩
    · exact ih hrest

/-- The counted entries of a list. -/
def countedEntries (entries : List (KeyPath × Json)) : Nat :=
  entries.countP fun e => KeyPath.isCounted env blocked e.1

theorem countedEntries_append (l l' : List (KeyPath × Json)) :
    countedEntries env blocked (l ++ l') = countedEntries env blocked l + countedEntries env blocked l' :=
  List.countP_append

theorem countedEntries_under {step : PathStep} {l : List (KeyPath × Json)} (h : ∀ e ∈ l,
    KeyPath.isCounted env blocked (step :: e.1) = KeyPath.isCounted env blocked e.1) :
    countedEntries env blocked (l.map step.under) = countedEntries env blocked l := by
  unfold countedEntries
  rw [List.countP_map]
  apply List.countP_congr
  intro e he
  show KeyPath.isCounted env blocked (step :: e.1) = true ↔ _
  rw [h e he]

theorem countedEntries_under_none {step : PathStep} {l : List (KeyPath × Json)}
    (h : ∀ e ∈ l, KeyPath.isCounted env blocked (step :: e.1) = false) :
    countedEntries env blocked (l.map step.under) = 0 := by
  unfold countedEntries
  rw [List.countP_map, List.countP_eq_zero]
  intro e he
  show ¬KeyPath.isCounted env blocked (step :: e.1) = true
  rw [h e he]
  exact Bool.false_ne_true

mutual

/-- **What the counter counts in an object.** -/
theorem countBlockedProperties_eq (members : List (String × Json)) :
    countBlockedProperties env blocked members = countedEntries env blocked (Json.memberEntries members) := by
  cases members with
  | nil => rfl
  | cons m ms =>
    obtain ⟨key, v⟩ := m
    have hself : KeyPath.isCounted env blocked [.member key] = decide (matchForm env key ∈ blocked) := by
      simp [KeyPath.isCounted, KeyPath.isOutermost, KeyPath.crosses, PathStep.blocks, KeyPath.nestsArrays]
    show (if matchForm env key ∈ blocked then 1 else countBlockedValue env blocked v)
        + countBlockedProperties env blocked ms
      = countedEntries env blocked
        (([.member key], v) :: (v.entries.map (PathStep.member key).under ++ Json.memberEntries ms))
    rw [← List.singleton_append, countedEntries_append, countedEntries_append, countBlockedProperties_eq ms,
      ← Nat.add_assoc]
    congr 1
    by_cases hkey : matchForm env key ∈ blocked
    · -- the key is counted, and nothing under it
      have hunder : countedEntries env blocked (v.entries.map (PathStep.member key).under) = 0 := by
        apply countedEntries_under_none
        intro e he
        rw [KeyPath.isCounted, isOutermost_cons env blocked (ne_nil_of_mem_entries he)]
        simp [PathStep.blocks, hkey]
      rw [if_pos hkey, hunder]
      simp [countedEntries, hself, hkey]
    · have hunder : countedEntries env blocked (v.entries.map (PathStep.member key).under)
          = countedEntries env blocked v.entries := by
        apply countedEntries_under
        intro e he
        rw [KeyPath.isCounted, isOutermost_cons env blocked (ne_nil_of_mem_entries he), nestsArrays_member]
        simp [PathStep.blocks, hkey, KeyPath.isCounted]
      rw [if_neg hkey, hunder, countBlockedValue_eq v]
      simp [countedEntries, hself, hkey]

theorem countBlockedValue_eq (v : Json) :
    countBlockedValue env blocked v = countedEntries env blocked v.entries := by
  cases v with
  | obj members => exact countBlockedProperties_eq members
  | arr items => exact countBlockedObjects_eq 0 items
  | null => rfl
  | bool b => rfl
  | num x => rfl
  | str s => rfl
  | strs texts => rfl

theorem countBlockedObjects_eq (i : Nat) (items : List Json) :
    countBlockedObjects env blocked items = countedEntries env blocked (Json.itemEntries i items) := by
  cases items with
  | nil => rfl
  | cons v vs =>
    have hrest := countBlockedObjects_eq (i + 1) vs
    show countBlockedObjects env blocked (v :: vs)
      = countedEntries env blocked (v.entries.map (PathStep.place i).under ++ Json.itemEntries (i + 1) vs)
    rw [countedEntries_append, ← hrest]
    cases v with
    | obj members =>
      have hunder : countedEntries env blocked ((Json.memberEntries members).map (PathStep.place i).under)
          = countedEntries env blocked (Json.memberEntries members) := by
        apply countedEntries_under
        intro e he
        obtain ⟨key, rest, hpath⟩ := head_of_mem_memberEntries he
        rw [KeyPath.isCounted, isOutermost_cons env blocked (ne_nil_of_mem_memberEntries he), hpath,
          nestsArrays_place_member]
        rfl
      show countBlockedProperties env blocked members + countBlockedObjects env blocked vs
        = countedEntries env blocked ((Json.memberEntries members).map (PathStep.place i).under) + _
      rw [hunder, countBlockedProperties_eq members]
    | arr inner =>
      -- an array of an array: none of its entries is counted
      have hunder : countedEntries env blocked ((Json.itemEntries 0 inner).map (PathStep.place i).under) = 0 := by
        apply countedEntries_under_none
        intro e he
        obtain ⟨j, rest, hpath⟩ := head_of_mem_itemEntries he
        rw [KeyPath.isCounted, hpath, KeyPath.nestsArrays]
        simp
      show countBlockedObjects env blocked vs
        = countedEntries env blocked ((Json.itemEntries 0 inner).map (PathStep.place i).under) + _
      rw [hunder, Nat.zero_add]
    | null => exact (Nat.zero_add _).symm
    | bool b => exact (Nat.zero_add _).symm
    | num x => exact (Nat.zero_add _).symm
    | str s => exact (Nat.zero_add _).symm
    | strs texts => exact (Nat.zero_add _).symm

end

end

/-! ## §4. One request. -/

section
variable (env : Platform)

/-- The outermost blocked keys of a document that the counter misses. -/
def missedKeys (names : List String) (p : Option Properties) : Nat :=
  (keyPaths p).countP fun path => path.isOutermost env (matchSet env names) && path.nestsArrays

/-- What is taken out of a document is counted or missed. -/
theorem removed_eq_counted_add_missed (names : List String) (p : Option Properties) :
    (removedPaths (keyPaths p) (keyPaths (some (filteredProperties env p names)))).length
      = countBlockedProperties env (matchSet env names) (p.getD []) + missedKeys env names p := by
  have hcounted : countBlockedProperties env (matchSet env names) (p.getD [])
      = (keyPaths p).countP fun path => path.isOutermost env (matchSet env names) && !path.nestsArrays := by
    rw [countBlockedProperties_eq, countedEntries, keyPaths, List.countP_map]
    rfl
  rw [removedPaths_filtered, ← List.countP_eq_length_filter, hcounted, missedKeys,
    List.countP_eq_countP_filter_add _ _ KeyPath.nestsArrays, List.countP_filter, List.countP_filter, Nat.add_comm]

theorem countPrivacyBlocked_eq (req : CollectRequest) (names : List String) :
    countPrivacyBlocked env req names
      = (req.documents.map fun p => countBlockedProperties env (matchSet env names) (p.getD [])).sum := by
  unfold countPrivacyBlocked CollectRequest.documents
  simp only [List.map_cons, List.sum_cons, List.map_flatMap, List.map_map, Nat.add_assoc]
  congr 2
  induction req.events with
  | nil => rfl
  | cons e events ih =>
    rw [List.map_cons, List.sum_cons, List.flatMap_cons, List.sum_append, ih]
    simp only [List.sum_cons, Nat.add_assoc]

theorem removedKeys_applyPrivacyBeforeQueue (privacy : Policy) (req : CollectRequest) :
    removedKeys req (applyPrivacyBeforeQueue env privacy req)
      = countPrivacyBlocked env req privacy.blockedProperties
        + (req.documents.map (missedKeys env privacy.blockedProperties)).sum := by
  unfold removedKeys
  rw [documents_applyPrivacyBeforeQueue, List.zipWith_map_right, List.zipWith_self, countPrivacyBlocked_eq,
    ← List.sum_map_add]
  simp only [removed_eq_counted_add_missed]

/-- **THE COUNTER COUNTS WHAT THE FILTER TAKES OUT** of a request if and only if no outermost
blocked key of its documents lies in an array of an array. -/
theorem counter_counts_iff (privacy : Policy) (req : CollectRequest) :
    countPrivacyBlocked env req privacy.blockedProperties
        = removedKeys req (applyPrivacyBeforeQueue env privacy req)
      ↔ ∀ p ∈ req.documents, ∀ path ∈ keyPaths p,
          path.isOutermost env (matchSet env privacy.blockedProperties) = true → path.nestsArrays = false := by
  have hmissed : ∀ p, missedKeys env privacy.blockedProperties p = 0
      ↔ ∀ path ∈ keyPaths p,
          path.isOutermost env (matchSet env privacy.blockedProperties) = true → path.nestsArrays = false := by
    intro p
    rw [missedKeys, List.countP_eq_zero]
    simp only [Bool.and_eq_true, not_and, Bool.not_eq_true]
  rw [removedKeys_applyPrivacyBeforeQueue]
  constructor
  · intro h p hp
    have hsum : (req.documents.map (missedKeys env privacy.blockedProperties)).sum = 0 := by omega
    exact (hmissed p).mp (List.sum_eq_zero_iff.mp hsum _ (List.mem_map_of_mem hp))
  · intro h
    have hsum : (req.documents.map (missedKeys env privacy.blockedProperties)).sum = 0 := by
      apply List.sum_eq_zero_iff.mpr
      intro n hn
      obtain ⟨p, hp, rfl⟩ := List.mem_map.mp hn
      exact (hmissed p).mpr (h p hp)
    omega

end

/-- A request whose user properties have an address in an array of an array. -/
def nestedAddress : CollectRequest where
  siteId := "site"
  visitorId := "v1"
  sessionId := "s1"
  events := []
  userProperties := some [("contacts", .arr [.arr [.obj [("email", .str "ann@example.com")]]])]

/-- **An address in an array of an array** is taken out and not counted. -/
theorem nestedAddress_not_counted :
    ¬∀ (env : Platform) (privacy : Policy) (req : CollectRequest),
      countPrivacyBlocked env req privacy.blockedProperties
        = removedKeys req (applyPrivacyBeforeQueue env privacy req) := by
  intro h
  have hcount := h Sample.platform Policy.default nestedAddress
  revert hcount
  decide +kernel

end Momento
