/-
  Momento.Service.BlockedProperties

  **WHERE BLOCKED PROPERTIES GO.**  A request's documents are filtered before they are
  queued and again before they are stored, and the tables copy and merge what was
  stored before.  No blocked key comes into a table, at any depth.

  One key is set behind the second filter: `items`, which holds an event's typed items
  in its properties, whatever the properties had there.  The collector sets two more
  before the first: its contract and personal-data warnings.
-/
import Momento.Foundation.EveryRow
import Momento.Model.KeyPaths
import Momento.Service.PiiMasking

namespace Momento

open Foundation

/-! ## §1. Documents without blocked keys. -/

section
variable (env : Platform) (blocked : List String)

/-- No key of the document is blocked, at any depth. -/
def Unblocked (p : Properties) : Prop := ∀ path ∈ keyPaths (some p), path.crosses env blocked = false

/-- The path without the step to the `items` an event's properties have. -/
def KeyPath.pastItems : KeyPath → KeyPath
  | [] => []
  | step :: rest => if step = .member "items" then rest else step :: rest

/-- No key of an event's properties is blocked, but that `items` itself may be. -/
def UnblockedPastItems (p : Properties) : Prop :=
  ∀ path ∈ keyPaths (some p), path.pastItems.crosses env blocked = false

/-- The documents of the tables have no blocked key. -/
structure LeavesOut (s : Store) : Prop where
  rawEvents : ∀ r ∈ s.rawEvents.rows, UnblockedPastItems env blocked r.properties
    ∧ Unblocked env blocked r.userProperties ∧ Unblocked env blocked r.sessionProperties
  visitors : s.visitors.Every fun _ v => Unblocked env blocked v.userProperties
  identifiedUsers : s.identifiedUsers.Every fun _ u => Unblocked env blocked u.userProperties
  sessions : s.sessions.Every fun _ r => Unblocked env blocked r.sessionProperties
  dailySiteVisitors : s.dailySiteVisitors.Every fun _ v => Unblocked env blocked v.userProperties

variable {env blocked}

/-- A key path belongs to one of the members. -/
theorem mem_memberEntries {members : List (String × Json)} {e : KeyPath × Json} :
    e ∈ Json.memberEntries members ↔ ∃ m ∈ members, e ∈ Json.memberEntries [m] := by
  induction members with
  | nil => simp [Json.memberEntries]
  | cons m ms ih =>
    have hcons : e ∈ Json.memberEntries (m :: ms) ↔ e ∈ Json.memberEntries [m] ∨ e ∈ Json.memberEntries ms := by
      show e ∈ _ ++ _ ↔ e ∈ _ ++ [] ∨ _
      rw [List.append_nil]
      exact List.mem_append
    rw [hcons, ih]
    simp only [List.mem_cons, exists_eq_or_imp]

theorem mem_keyPaths {p : Properties} {path : KeyPath} :
    path ∈ keyPaths (some p) ↔ ∃ m ∈ p, path ∈ keyPaths (some [m]) := by
  have hmem : ∀ q : Properties, path ∈ keyPaths (some q) ↔ ∃ v, (path, v) ∈ Json.memberEntries q := by
    intro q
    unfold keyPaths documentEntries
    simp
  have hentries : ∀ e, e ∈ Json.memberEntries p ↔ ∃ m ∈ p, e ∈ Json.memberEntries [m] := by
    intro e
    exact mem_memberEntries
  simp only [hmem, hentries]
  constructor
  · rintro ⟨v, m, hm, hv⟩
    exact ⟨m, hm, v, hv⟩
  · rintro ⟨m, hm, v, hv⟩
    exact ⟨v, m, hm, hv⟩

theorem unblocked_iff {p : Properties} : Unblocked env blocked p ↔ ∀ m ∈ p, Unblocked env blocked [m] := by
  unfold Unblocked
  constructor
  · intro h m hm path hpath
    exact h path (mem_keyPaths.mpr ⟨m, hm, hpath⟩)
  · intro h path hpath
    obtain ⟨m, hm, hpath⟩ := mem_keyPaths.mp hpath
    exact h m hm path hpath

/-- `||` brings no key together that was not in one of the two. -/
theorem Unblocked.concat {p q : Properties} (hp : Unblocked env blocked p) (hq : Unblocked env blocked q) :
    Unblocked env blocked (p.concat q) := by
  rw [unblocked_iff] at *
  induction q with
  | nil => exact hp
  | cons m q ih =>
    intro m' hm'
    rcases Properties.mem_set.mp hm' with rfl | ⟨hold, -⟩
    · exact hq _ List.mem_cons_self
    · exact ih (fun m hm => hq m (List.mem_cons_of_mem _ hm)) m' hold

/-- **What was filtered by a list, or by one that has it, has none of it.** -/
theorem unblocked_filtered {names : List String} (h : blocked ⊆ matchSet env names) (p : Option Properties) :
    Unblocked env blocked (filteredProperties env p names) := by
  intro path hpath
  rw [keyPaths_filtered] at hpath
  have hkept := (List.mem_filter.mp hpath).2
  by_contra hcrosses
  obtain ⟨step, hstep, hblocks⟩ := List.any_eq_true.mp (Bool.eq_true_of_not_eq_false hcrosses)
  -- the step is blocked by the longer list too
  have hlonger : step.blocks env (matchSet env names) = true := by
    cases step with
    | place i => cases hblocks
    | member key => exact decide_eq_true (h (of_decide_eq_true hblocks))
  have hpath' : path.crosses env (matchSet env names) = true := List.any_eq_true.mpr ⟨step, hstep, hlonger⟩
  rw [hpath'] at hkept
  cases hkept

theorem mem_memberEntries_one {key : String} {v : Json} {e : KeyPath × Json} :
    e ∈ Json.memberEntries [(key, v)]
      ↔ e = ([.member key], v) ∨ ∃ inner ∈ v.entries, e = (PathStep.member key).under inner := by
  show e ∈ ([.member key], v) :: (v.entries.map (PathStep.member key).under ++ []) ↔ _
  rw [List.append_nil, List.mem_cons, List.mem_map]
  simp only [eq_comm]

/-- An entry of an array is one of an element's. -/
theorem mem_itemEntries {i : Nat} {items : List Json} {e : KeyPath × Json} :
    e ∈ Json.itemEntries i items
      ↔ ∃ j v inner, items[j]? = some v ∧ inner ∈ v.entries ∧ e = (PathStep.place (i + j)).under inner := by
  induction items generalizing i with
  | nil => simp [Json.itemEntries]
  | cons v vs ih =>
    show e ∈ v.entries.map (PathStep.place i).under ++ Json.itemEntries (i + 1) vs ↔ _
    rw [List.mem_append, List.mem_map, ih]
    constructor
    · rintro (⟨inner, hinner, rfl⟩ | ⟨j, w, inner, hw, hinner, rfl⟩)
      · exact ⟨0, v, inner, rfl, hinner, rfl⟩
      · refine ⟨j + 1, w, inner, hw, hinner, ?_⟩
        rw [show i + 1 + j = i + (j + 1) by omega]
    · rintro ⟨j, w, inner, hw, hinner, rfl⟩
      cases j with
      | zero =>
        left
        obtain rfl := Option.some.inj hw
        exact ⟨inner, hinner, rfl⟩
      | succ j =>
        right
        refine ⟨j, w, inner, hw, hinner, ?_⟩
        rw [show i + 1 + j = i + (j + 1) by omega]

theorem crosses_pastItems {path : KeyPath} (h : path.crosses env blocked = false) :
    path.pastItems.crosses env blocked = false := by
  cases path with
  | nil => exact h
  | cons step rest =>
    have hparts := h
    rw [KeyPath.crosses, List.any_cons, Bool.or_eq_false_iff] at hparts
    show KeyPath.crosses env blocked (if step = .member "items" then rest else step :: rest) = false
    split
    · exact hparts.2
    · exact h

/-- **The properties an event is stored with.** -/
theorem unblocked_storedProperties {c : JobContext} (henv : c.env = env)
    (h : blocked ⊆ matchSet env c.policy.blockedProperties) (event : IncomingEvent) :
    UnblockedPastItems env blocked (storedProperties c event) := by
  have hfiltered : ∀ p, Unblocked env blocked (filteredProperties c.env p c.policy.blockedProperties) := by
    intro p
    rw [henv]
    exact unblocked_filtered h p
  unfold storedProperties
  simp only
  split
  · intro path hpath
    exact crosses_pastItems (hfiltered _ path hpath)
  · intro path hpath
    obtain ⟨m, hm, hpath⟩ := mem_keyPaths.mp hpath
    rcases Properties.mem_set.mp hm with rfl | ⟨hold, -⟩
    · -- under `items` every element was filtered
      obtain ⟨e, he, rfl⟩ := List.mem_map.mp hpath
      rcases mem_memberEntries_one.mp he with rfl | ⟨inner, hinner, rfl⟩
      · rfl
      · obtain ⟨j, v, deep, hv, hdeep, rfl⟩ := mem_itemEntries.mp hinner
        rw [List.getElem?_map] at hv
        obtain ⟨item, -, rfl⟩ := Option.map_eq_some_iff.mp hv
        exact hfiltered (some item) deep.1 (List.mem_map.mpr ⟨deep, hdeep, rfl⟩)
    · exact crosses_pastItems (unblocked_iff.mp (hfiltered _) m hold path hpath)

/-! ## §2. The statements of an event. -/

variable {s : Store} {key : VisitorKey} {userId : String} {t : Instant} {userProperties : Properties}

/-- The tables that hold no documents may change. -/
theorem LeavesOut.quality (h : LeavesOut env blocked s) (quality : Table QualityKey Quality)
    (jobs : List AggregateJob) (values : List DimensionValue) :
    LeavesOut env blocked
      { s with dataQualityDaily := quality, aggregateJobs := jobs, dimensionValues := values } :=
  ⟨h.rawEvents, h.visitors, h.identifiedUsers, h.sessions, h.dailySiteVisitors⟩

/-- **`updateVisitorIdentity`** moves rows between users, and no documents. -/
theorem LeavesOut.identify (h : LeavesOut env blocked s) : LeavesOut env blocked (s.identify key userId t) := by
  unfold Store.identify
  split
  · refine
      { rawEvents := h.rawEvents
        visitors := h.visitors.modifyRows ?_
        identifiedUsers := h.identifiedUsers.deleteRows
        sessions := h.sessions
        dailySiteVisitors := h.dailySiteVisitors.modifyRows ?_ }
    · intro k v hv
      split
      · exact hv
      · exact hv
    · intro k v hv
      split
      · exact hv
      · exact hv
  · exact h

/-- **`updateVisitor`**: the new properties or the old ones. -/
theorem LeavesOut.countVisitor (h : LeavesOut env blocked s) (hnew : Unblocked env blocked userProperties)
    (conversion : Bool) : LeavesOut env blocked (s.countVisitor key userId userProperties t conversion) := by
  refine { h with visitors := h.visitors.upsert hnew ?_ }
  intro v hv
  show Unblocked env blocked (if userProperties ≠ [] ∧ v.lastSeen ≤ t then userProperties else v.userProperties)
  split
  · exact hnew
  · exact hv

/-- **The statements a known user adds.** -/
theorem LeavesOut.touchLinked (h : LeavesOut env blocked s) (hnew : Unblocked env blocked userProperties) :
    LeavesOut env blocked (s.touchLinked key userId userProperties t) := by
  unfold Store.touchLinked
  split
  · refine { h with identifiedUsers := h.identifiedUsers.upsert hnew ?_ }
    intro u hu
    show Unblocked env blocked (if userProperties ≠ [] ∧ u.lastSeen ≤ t then userProperties else u.userProperties)
    split
    · exact hnew
    · exact hu
  · exact h

/-- **`updateSession`** merges the new properties with the old ones. -/
theorem LeavesOut.touchSession (h : LeavesOut env blocked s) {session : SessionKey} {touch : SessionTouch}
    (hnew : Unblocked env blocked touch.sessionProperties) : LeavesOut env blocked (s.touchSession session touch) := by
  refine { h with sessions := h.sessions.upsert hnew ?_ }
  intro r hr
  show Unblocked env blocked (if r.lastEventAt ≤ touch.eventTime then r.sessionProperties.concat touch.sessionProperties
    else touch.sessionProperties.concat r.sessionProperties)
  split
  · exact hr.concat hnew
  · exact hnew.concat hr

theorem LeavesOut.countVisitorSession (h : LeavesOut env blocked s) {visit : VisitorSessionKey} :
    LeavesOut env blocked (s.countVisitorSession visit userId t) :=
  ⟨h.rawEvents, h.visitors, h.identifiedUsers, h.sessions, h.dailySiteVisitors⟩

/-- **`updateDailyAggregates`.** -/
theorem LeavesOut.countDay (h : LeavesOut env blocked s) {c : JobContext} {event : IncomingEvent}
    (hnew : Unblocked env blocked c.userProperties) (conversion : Bool) (revenue : Numeric) :
    LeavesOut env blocked (s.countDay c event t userId conversion revenue) := by
  refine { h with dailySiteVisitors := h.dailySiteVisitors.upsert hnew ?_ }
  intro v hv
  show Unblocked env blocked
    (if c.userProperties ≠ [] ∧ v.lastSeen ≤ t then c.userProperties else v.userProperties)
  split
  · exact hnew
  · exact hv

/-- **An event filtered by a list** leaves none of it in any table. -/
theorem LeavesOut.store (h : LeavesOut env blocked s) {a : Arrival} (henv : a.context.env = env)
    (hlist : blocked ⊆ matchSet env a.context.policy.blockedProperties) (hnew : ¬a.Known s) :
    LeavesOut env blocked (a.store s hnew) := by
  have huser : Unblocked env blocked a.context.userProperties := by
    unfold JobContext.userProperties
    rw [henv]
    exact unblocked_filtered hlist _
  have hsession : Unblocked env blocked (storedSessionProperties a.context a.event) := by
    unfold storedSessionProperties
    rw [henv]
    exact unblocked_filtered hlist _
  have hraw : LeavesOut env blocked { s with rawEvents := s.rawEvents.insert a.row hnew } := by
    refine { h with rawEvents := ?_ }
    intro r hr
    rcases List.mem_cons.mp hr with rfl | hold
    · exact ⟨unblocked_storedProperties henv hlist a.event, huser, hsession⟩
    · exact h.rawEvents r hold
  have hderive : ∀ s', LeavesOut env blocked s' → LeavesOut env blocked (a.derive s') := by
    intro s' hs'
    obtain ⟨jobs, values, hshape⟩ :=
      Store.beforeVisitor_shape a.context a.event a.eventTime a.unreported s'
    have hbefore : LeavesOut env blocked (s'.beforeVisitor a.context a.event a.eventTime a.unreported) := by
      rw [hshape]
      exact (hs'.quality _ jobs values).identify
    have hlinked : LeavesOut env blocked (a.beforeSession s') :=
      (hbefore.countVisitor huser a.conversion).touchLinked huser
    rw [Arrival.derive_eq]
    exact ((hlinked.touchSession hsession).countVisitorSession).countDay huser a.conversion _
  exact hderive _ hraw

/-! ## §3. Runs. -/

theorem LeavesOut.initial (config : Config) : LeavesOut env blocked (Store.initial config) where
  rawEvents := fun _ hr => absurd hr List.not_mem_nil
  visitors := Table.every_empty
  identifiedUsers := Table.every_empty
  sessions := Table.every_empty
  dailySiteVisitors := Table.every_empty

/-- **Jobs under policies that have the list** keep it out of the tables. -/
theorem LeavesOut.afterJobs (jobs : List Job)
    (hlist : ∀ j ∈ jobs, blocked ⊆ matchSet env j.policy.blockedProperties) (h : LeavesOut env blocked s) :
    LeavesOut env blocked (afterJobs env s jobs) := by
  induction jobs generalizing s with
  | nil => exact h
  | cons j jobs ih =>
    refine ih (fun j' hj' => hlist j' (List.mem_cons_of_mem _ hj')) ?_
    refine @afterJob_induction env (fun a _ => a.context.policy = j.policy) (LeavesOut env blocked)
      (fun a s hnew harrives hs hpolicy => ?_) (fun s key hs => hs.quality _ s.aggregateJobs s.dimensionValues) j s
      (fun _ => ?_) h
    · refine hs.store harrives.env_eq ?_ hnew
      rw [hpolicy]
      exact hlist j List.mem_cons_self
    · intro p timezone limit _ _
      exact eventsMeet_of_mem _ fun _ _ _ _ _ => rfl

end

/-! ## §4. Documents on their way. -/

/-- What a step on the way of a document leaves of its entries: some paths, each with
its value changed. -/
def leftEntries (keep : KeyPath → Bool) (change : Json → Json) (entries : List (KeyPath × Json)) :
    List (KeyPath × Json) :=
  (entries.filter fun e => keep e.1).map fun e => (e.1, change e.2)

theorem leftEntries_leftEntries (keep keep' : KeyPath → Bool) (change change' : Json → Json) (l : List (KeyPath × Json)) :
    leftEntries keep' change' (leftEntries keep change l)
      = leftEntries (fun path => keep' path && keep path) (fun v => change' (change v)) l := by
  unfold leftEntries
  rw [List.filter_map, List.map_map]
  show ((l.filter fun e => keep e.1).filter fun e => keep' e.1).map _ = _
  rw [List.filter_filter]
  rfl

theorem mem_leftEntries {keep : KeyPath → Bool} {change : Json → Json} {l : List (KeyPath × Json)} {e : KeyPath × Json} :
    e ∈ leftEntries keep change l ↔ ∃ v, (e.1, v) ∈ l ∧ keep e.1 = true ∧ change v = e.2 := by
  unfold leftEntries
  rw [List.mem_map]
  constructor
  · intro h
    obtain ⟨old, hold, rfl⟩ := h
    exact ⟨old.2, (List.mem_filter.mp hold).1, (List.mem_filter.mp hold).2, rfl⟩
  · intro h
    obtain ⟨v, hv, hkeep, hchange⟩ := h
    exact ⟨(e.1, v), List.mem_filter.mpr ⟨hv, hkeep⟩, Prod.ext rfl hchange⟩

/-- A walk passes everything. -/
theorem Json.Walks.passes {f : Json → Json} (hf : Json.Walks f) (p : Properties) :
    documentEntries (some (p.map fun m => (m.1, f m.2)))
      = leftEntries (fun _ => true) f (documentEntries (some p)) := by
  unfold leftEntries
  rw [List.filter_true]
  exact hf.memberEntries p

section
variable (env : Platform)

theorem visitMembers_eq_map (mode : String) (members : Properties) :
    (visitMembers env mode members).1 = members.map fun m => (m.1, (visitJson env mode m.2).1) := by
  induction members with
  | nil => rfl
  | cons m ms ih =>
    rw [List.map_cons, ← ih]
    rfl

theorem visitItems_eq_map (mode : String) (items : List Json) :
    (visitItems env mode items).1 = items.map fun v => (visitJson env mode v).1 := by
  induction items with
  | nil => rfl
  | cons v vs ih =>
    rw [List.map_cons, ← ih]
    rfl

theorem reloadMembers_eq_map (members : Properties) :
    Json.reloadMembers members = members.map fun m => (m.1, m.2.reload) := by
  induction members with
  | nil => rfl
  | cons m ms ih =>
    rw [List.map_cons, ← ih]
    rfl

theorem reloadItems_eq_map (items : List Json) : Json.reloadItems items = items.map Json.reload := by
  induction items with
  | nil => rfl
  | cons v vs ih =>
    rw [List.map_cons, ← ih]
    rfl

theorem walks_visit (mode : String) : Json.Walks fun v => (visitJson env mode v).1 where
  obj := fun members => congrArg Json.obj (visitMembers_eq_map env mode members)
  arr := fun items => congrArg Json.arr (visitItems_eq_map env mode items)
  scalar := by
    intro v hv
    cases v with
    | obj members => cases hv
    | arr items => cases hv
    | null => rfl
    | bool b => rfl
    | num x => rfl
    | str s => rfl
    | strs texts => rfl

/-- A list of texts has no members, and comes back as an array that has none. -/
theorem itemEntries_strs (i : Nat) (texts : List String) : Json.itemEntries i (texts.map Json.str) = [] := by
  induction texts generalizing i with
  | nil => rfl
  | cons text texts ih => exact ih (i + 1)

theorem walks_reload : Json.Walks Json.reload where
  obj := fun members => congrArg Json.obj (reloadMembers_eq_map members)
  arr := fun items => congrArg Json.arr (reloadItems_eq_map items)
  scalar := by
    intro v hv
    cases v with
    | obj members => cases hv
    | arr items => cases hv
    | null => rfl
    | bool b => rfl
    | num x => rfl
    | str s => rfl
    | strs texts => exact itemEntries_strs 0 texts

/-- What is stored of a value that neither filter drops: the inspection's, less what
the filters find in it. -/
def keptValue (privacy policy : Policy) (v : Json) : Json :=
  filterNested env (matchSet env policy.blockedProperties)
    (filterNested env (matchSet env privacy.blockedProperties)
      (visitJson env (piiMode env privacy.piiDetectionMode) v).1).reload

/-- The entries of a document whose path neither list blocks, with what is stored of
their values. -/
def keptEntries (privacy policy : Policy) (p : Option Properties) : List (KeyPath × Json) :=
  leftEntries (fun path => !path.crosses env (matchSet env policy.blockedProperties)
      && !path.crosses env (matchSet env privacy.blockedProperties))
    (keptValue env privacy policy) (documentEntries p)

theorem documentEntries_visitMap (mode : String) (p : Option Properties) :
    documentEntries (visitMap env mode p).1
      = leftEntries (fun _ => true) (fun v => (visitJson env mode v).1) (documentEntries p) := by
  cases p with
  | none => rfl
  | some members =>
    rw [← (walks_visit env mode).passes, ← visitMembers_eq_map]
    rfl

theorem documentEntries_reloadMap (p : Option Properties) :
    documentEntries (reloadMap p) = leftEntries (fun _ => true) Json.reload (documentEntries p) := by
  cases p with
  | none => rfl
  | some members =>
    rw [← walks_reload.passes, ← reloadMembers_eq_map]
    cases members with
    | nil => rfl
    | cons m members => rfl

theorem documentEntries_filteredBy (p : Option Properties) (names : List String) :
    documentEntries (some (filteredProperties env p names))
      = leftEntries (fun path => !path.crosses env (matchSet env names)) (filterNested env (matchSet env names))
          (documentEntries p) :=
  documentEntries_filtered env p names

/-- **What is stored of a document**: its entries outside blocked names. -/
theorem documentEntries_kept (privacy policy : Policy) (p : Option Properties) :
    documentEntries (some (keptProperties env privacy policy p)) = keptEntries env privacy policy p := by
  unfold keptProperties acceptedProperties keptEntries keptValue
  rw [documentEntries_filteredBy, reloadMembers_eq_map, walks_reload.passes, documentEntries_filteredBy,
    documentEntries_visitMap, leftEntries_leftEntries, leftEntries_leftEntries, leftEntries_leftEntries]
  simp only [Bool.and_true]

end

/-! ## §5. The collector's own keys. -/

/-- The top-level keys of an event's properties that the collector sets. -/
def ownKeys : List String := ["items", "_momento_contract_warnings", "_momento_pii_warnings"]

/-- The path begins at one of the collector's keys. -/
def KeyPath.startsOwn : KeyPath → Bool
  | .member key :: _ => key ∈ ownKeys
  | _ => false

/-- The two documents have the same entries, but under the collector's keys. -/
def AgreePastOwn (p q : Option Properties) : Prop :=
  ∀ e : KeyPath × Json, e.1.startsOwn = false → (e ∈ documentEntries p ↔ e ∈ documentEntries q)

section

theorem AgreePastOwn.trans {p q r : Option Properties} (h : AgreePastOwn p q) (h' : AgreePastOwn q r) :
    AgreePastOwn p r :=
  fun e he => (h e he).trans (h' e he)

/-- Setting one of the keys is not seen elsewhere. -/
theorem agreePastOwn_set {key : String} (hkey : key ∈ ownKeys) (p : Option Properties) (value : Json) :
    AgreePastOwn (some (Properties.set (p.getD []) key value)) p := by
  intro e he
  have hother : ∀ value', e ∉ Json.memberEntries [(key, value')] := by
    intro value' hmem
    rcases mem_memberEntries_one.mp hmem with rfl | ⟨inner, -, rfl⟩
    · exact absurd (decide_eq_true hkey) (ne_true_of_eq_false he)
    · exact absurd (decide_eq_true hkey) (ne_true_of_eq_false he)
  show e ∈ Json.memberEntries _ ↔ e ∈ Json.memberEntries _
  have hbefore : e ∈ Json.memberEntries (p.getD []) ↔ ∃ m ∈ p.getD [], e ∈ Json.memberEntries [m] :=
    mem_memberEntries
  rw [mem_memberEntries, hbefore]
  constructor
  · intro h
    obtain ⟨m, hm, hmem⟩ := h
    rcases Properties.mem_set.mp hm with rfl | ⟨hold, -⟩
    · exact absurd hmem (hother value)
    · exact ⟨m, hold, hmem⟩
  · intro h
    obtain ⟨m, hm, hmem⟩ := h
    refine ⟨m, Properties.mem_set.mpr (.inr ⟨hm, ?_⟩), hmem⟩
    intro hname
    obtain ⟨name, v⟩ := m
    obtain rfl : name = key := hname
    exact hother v hmem

/-- A step that leaves of each document what it leaves of its entries keeps the
agreement. -/
theorem AgreePastOwn.through {f : Option Properties → Option Properties} {keep : KeyPath → Bool}
    {change : Json → Json} (hf : ∀ p, documentEntries (f p) = leftEntries keep change (documentEntries p))
    {p q : Option Properties} (h : AgreePastOwn p q) : AgreePastOwn (f p) (f q) := by
  intro e he
  rw [hf, hf, mem_leftEntries, mem_leftEntries]
  constructor
  · intro hmem
    obtain ⟨v, hv, hrest⟩ := hmem
    exact ⟨v, (h (e.1, v) he).mp hv, hrest⟩
  · intro hmem
    obtain ⟨v, hv, hrest⟩ := hmem
    exact ⟨v, (h (e.1, v) he).mpr hv, hrest⟩

end

/-! ## §6. Through `Accept` and the inbox. -/

section
variable {env : Platform}

/-- What the contract check changes in an event's documents. -/
theorem notedContract_documents (config : Config) (siteId : Uuid) (mode : ContractMode) (event : IncomingEvent) :
    AgreePastOwn (notedContract config siteId mode event).properties event.properties
      ∧ (notedContract config siteId mode event).sessionProperties = event.sessionProperties
      ∧ (notedContract config siteId mode event).items = event.items := by
  have hchecked : (checkedContract config siteId mode event).1.properties = event.properties
      ∧ (checkedContract config siteId mode event).1.sessionProperties = event.sessionProperties
      ∧ (checkedContract config siteId mode event).1.items = event.items := by
    unfold checkedContract versioned
    simp only
    split <;> split <;> (try split) <;> exact ⟨rfl, rfl, rfl⟩
  obtain ⟨hproperties, hsession, hitems⟩ := hchecked
  unfold notedContract
  simp only
  split
  · refine ⟨?_, hsession, hitems⟩
    rw [← hproperties]
    exact agreePastOwn_set (by decide) _ _
  · refine ⟨?_, hsession, hitems⟩
    rw [hproperties]
    exact fun e _ => Iff.rfl

/-- What an event's documents have become when the worker reads them. -/
structure Arrived (env : Platform) (privacy : Policy) (event queued : IncomingEvent) : Prop where
  properties : AgreePastOwn queued.properties (reloadMap (some (acceptedProperties env privacy event.properties)))
  sessionProperties : queued.sessionProperties
    = reloadMap (some (acceptedProperties env privacy event.sessionProperties))
  items : queued.items = event.items.map fun item => Json.reloadMembers (acceptedProperties env privacy (some item))

/-- The inspection, the first filter and the inbox, with warnings noted or without. -/
theorem arrived_inspected {privacy : Policy} {config : Config} {siteId : Uuid} {mode : ContractMode}
    (event : IncomingEvent) (warn : IncomingEvent → IncomingEvent)
    (hwarn : warn = id ∨ ∃ labels, warn = withWarnings "_momento_pii_warnings" labels) :
    Arrived env privacy event
      (filterEvent env privacy (warn (visitEvent env (piiMode env privacy.piiDetectionMode)
        (notedContract config siteId mode event)).1)).reload := by
  obtain ⟨hproperties, hsession, hitems⟩ := notedContract_documents config siteId mode event
  generalize notedContract config siteId mode event = noted at hproperties hsession hitems
  have hvisited : AgreePastOwn (visitMap env (piiMode env privacy.piiDetectionMode) noted.properties).1
      (visitMap env (piiMode env privacy.piiDetectionMode) event.properties).1 :=
    hproperties.through (documentEntries_visitMap env _)
  have hwarned : AgreePastOwn (warn (visitEvent env (piiMode env privacy.piiDetectionMode) noted).1).properties
      (visitMap env (piiMode env privacy.piiDetectionMode) event.properties).1 := by
    rcases hwarn with rfl | ⟨labels, rfl⟩
    · exact hvisited
    · exact (agreePastOwn_set (by decide) _ _).trans hvisited
  have hfiltered := hwarned.through (documentEntries_filteredBy env · privacy.blockedProperties)
  have hrest : (warn (visitEvent env (piiMode env privacy.piiDetectionMode) noted).1).sessionProperties
        = (visitMap env (piiMode env privacy.piiDetectionMode) noted.sessionProperties).1
      ∧ (warn (visitEvent env (piiMode env privacy.piiDetectionMode) noted).1).items
        = (noted.items.map (visitMembers env (piiMode env privacy.piiDetectionMode))).map Prod.fst := by
    rcases hwarn with rfl | ⟨labels, rfl⟩
    · exact ⟨rfl, rfl⟩
    · exact ⟨rfl, rfl⟩
  refine ⟨hfiltered.through (documentEntries_reloadMap), ?_, ?_⟩
  · show reloadMap (some (filteredProperties env (warn _).sessionProperties privacy.blockedProperties)) = _
    rw [hrest.1, hsession]
    rfl
  · show ((warn _).items.map fun item => filteredProperties env (some item) privacy.blockedProperties).map
      Json.reloadMembers = _
    rw [hrest.2, hitems, List.map_map, List.map_map, List.map_map]
    rfl

/-- The inspection goes through the events one by one, and notes what it found on each,
or on none. -/
theorem protectPii_events (req : CollectRequest) (configuredMode : String) :
    ∃ warn : IncomingEvent → IncomingEvent,
      (warn = id ∨ ∃ labels, warn = withWarnings "_momento_pii_warnings" labels)
        ∧ (protectPii env req configuredMode).1.events
          = req.events.map fun e => warn (visitEvent env (piiMode env configuredMode) e).1 := by
  by_cases hwarn : 0 < (protectPii env req configuredMode).2.1 ∧ piiMode env configuredMode = "warn"
  · refine ⟨withWarnings "_momento_pii_warnings" (protectPii env req configuredMode).2.2, .inr ⟨_, rfl⟩, ?_⟩
    refine (if_pos hwarn).trans ?_
    rw [List.map_map, List.map_map]
    rfl
  · refine ⟨id, .inl rfl, ?_⟩
    refine (if_neg hwarn).trans ?_
    rw [List.map_map]
    rfl

/-- **The documents an admitted payload has after the inbox.** -/
theorem accept_documents {config : Config} {call : AcceptCall} {now : Instant} {a : Admission}
    {privacy : Policy} (h : accept env config call now = .ok a) (hprivacy : config.privacy = .ok privacy) :
    a.payload.reload.request.userProperties
        = reloadMap (some (acceptedProperties env privacy call.request.userProperties))
      ∧ ∀ (i : Nat) (event : IncomingEvent), call.request.events[i]? = some event →
        ∃ queued, a.payload.reload.request.events[i]? = some queued ∧ Arrived env privacy event queued := by
  obtain ⟨mode, events, privacy', -, hcontracts, hprivacy', hpayload⟩ := accept_ok h
  obtain rfl := Except.ok.inj (hprivacy'.symm.trans hprivacy)
  have hrequest : call.request.withEnvironment.userProperties = call.request.userProperties
      ∧ call.request.withEnvironment.events = call.request.events := by
    unfold CollectRequest.withEnvironment
    split
    · exact ⟨rfl, rfl⟩
    · exact ⟨rfl, rfl⟩
  have hevents := checkContracts_eq_map hcontracts
  rw [hrequest.2] at hevents
  unfold inspected at hpayload
  simp only at hpayload
  split at hpayload
  · cases hpayload
  have hshape := (Except.ok.inj hpayload).symm
  constructor
  · rw [hshape]
    show reloadMap (some (acceptedProperties env privacy' call.request.withEnvironment.userProperties)) = _
    rw [hrequest.1]
  · intro i event hevent
    obtain ⟨warn, hwarn, hwarned⟩ := @protectPii_events env
      { call.request.withEnvironment with events := events } privacy'.piiDetectionMode
    refine ⟨_, ?_, @arrived_inspected env privacy' config a.siteId mode event warn hwarn⟩
    rw [hshape]
    show (((protectPii env { call.request.withEnvironment with events := events }
      privacy'.piiDetectionMode).1.events.map (filterEvent env privacy')).map IncomingEvent.reload)[i]? = _
    rw [hwarned, hevents, List.map_map, List.map_map, List.map_map, List.getElem?_map, hevent]
    rfl

end

/-! ## §7. What is stored. -/

/-- What `processOne` makes of an event it reads from the inbox, and of its request, beside
what the client sent. -/
structure StoredAs (c : JobContext) (privacy : Policy) (request : CollectRequest) (event queued : IncomingEvent) :
    Prop where
  properties : ∀ e : KeyPath × Json, e.1.startsOwn = false →
    (e ∈ documentEntries (some (storedProperties c queued)) ↔ e ∈ keptEntries c.env privacy c.policy event.properties)
  items : event.items ≠ [] → (storedProperties c queued).get "items"
    = some (.arr (event.items.map fun item => .obj (keptProperties c.env privacy c.policy (some item))))
  sessionProperties : storedSessionProperties c queued
    = keptProperties c.env privacy c.policy event.sessionProperties
      ∨ storedSessionProperties c queued = keptProperties c.env privacy c.policy request.sessionProperties
  userProperties : c.userProperties = keptProperties c.env privacy c.policy request.userProperties

theorem storedAs_of_arrived {c : JobContext} {privacy : Policy} {request : CollectRequest}
    {event queued : IncomingEvent} (h : Arrived c.env privacy event queued)
    (huser : c.request.userProperties = reloadMap (some (acceptedProperties c.env privacy request.userProperties)))
    (hsession : c.request.sessionProperties
      = reloadMap (some (acceptedProperties c.env privacy request.sessionProperties))) :
    StoredAs c privacy request event queued where
  properties := by
    intro e he
    have hfiltered := h.properties.through (documentEntries_filteredBy c.env · c.policy.blockedProperties)
    rw [← documentEntries_kept]
    have hkept : AgreePastOwn (some (filteredProperties c.env queued.properties c.policy.blockedProperties))
        (some (keptProperties c.env privacy c.policy event.properties)) := by
      unfold keptProperties
      rw [← filteredProperties_reloadMap]
      exact hfiltered
    unfold storedProperties
    simp only
    split
    · exact hkept e he
    · exact ((agreePastOwn_set (by decide)
        (some (filteredProperties c.env queued.properties c.policy.blockedProperties)) _).trans hkept) e he
  items := by
    intro hitems
    have hqueued : queued.items ≠ [] := by
      rw [h.items]
      intro hnil
      exact hitems (List.map_eq_nil_iff.mp hnil)
    unfold storedProperties
    simp only
    rw [if_neg hqueued, Properties.get_set_self, h.items, List.map_map]
    rfl
  sessionProperties := by
    have hchosen : storedSessionProperties c queued
        = if acceptedProperties c.env privacy event.sessionProperties = []
          then keptProperties c.env privacy c.policy request.sessionProperties
          else keptProperties c.env privacy c.policy event.sessionProperties := by
      rw [← chosen_after_inbox, ← hsession, ← h.sessionProperties]
      rfl
    rw [hchosen]
    split
    · exact .inr rfl
    · exact .inl rfl
  userProperties := by
    unfold JobContext.userProperties
    rw [huser]
    exact filteredProperties_reloadMap c.env _ _

/-- **BLOCKED PROPERTIES ARE LEFT OUT**, and nothing else is.  Jobs under policies that
block a list of names bring none of it into a table; of a request the worker stores, at
each key path past the collector's own keys that neither policy blocks, what the
inspection and the filters make of the value there; and filtering twice is filtering
once. -/
theorem blocked_properties_left_out (env : Platform) :
    (∀ (blocked : List String) (jobs : List Job) (s : Store),
        (∀ j ∈ jobs, blocked ⊆ matchSet env j.policy.blockedProperties) → LeavesOut env blocked s →
          LeavesOut env blocked (afterJobs env s jobs))
      ∧ (∀ config : Config, ∀ blocked, LeavesOut env blocked (Store.initial config))
      ∧ (∀ (config : Config) (call : AcceptCall) (now : Instant) (a : Admission) (privacy policy : Policy)
          (siteId : Uuid) (timezone : String) (cardinalityLimit : Nat) (s : Store) (i : Nat) (event : IncomingEvent),
        accept env config call now = .ok a → config.privacy = .ok privacy → call.request.events[i]? = some event →
          ∃ queued, a.payload.reload.withEnvironment.request.events[i]? = some queued
            ∧ StoredAs (jobContext env policy siteId a.payload.reload.withEnvironment timezone cardinalityLimit s)
              privacy call.request event queued)
      ∧ (∀ (privacy policy : Policy) (p : Option Properties),
        documentEntries (some (keptProperties env privacy policy p)) = keptEntries env privacy policy p)
      ∧ ∀ (p : Option Properties) (names : List String),
        filteredProperties env (some (filteredProperties env p names)) names = filteredProperties env p names := by
  refine ⟨fun blocked jobs s hlist h => h.afterJobs jobs hlist, fun config blocked => LeavesOut.initial config,
    ?_, documentEntries_kept env, filteredProperties_idem env⟩
  intro config call now a privacy policy siteId timezone cardinalityLimit s i event haccept hprivacy hevent
  have hname : a.payload.reload.withEnvironment = a.payload.reload := by
    unfold InboxPayload.withEnvironment
    rw [if_neg]
    exact accept_environment haccept
  obtain ⟨huser, hevents⟩ := accept_documents haccept hprivacy
  obtain ⟨queued, hqueued, harrived⟩ := hevents i event hevent
  rw [hname]
  exact ⟨queued, hqueued, storedAs_of_arrived (c := jobContext env policy siteId a.payload.reload timezone
    cardinalityLimit s) harrived huser (accept_sessionProperties haccept hprivacy).1⟩

/-! ## §8. What is stored in spite of a name, and what is not stored as it came. -/

/-- The texts of a document, each with its key path. -/
def textEntries (p : Option Properties) : List (KeyPath × String) :=
  (documentEntries p).filterMap fun e =>
    match e.2 with
    | .str s => some (e.1, s)
    | _ => none

section
variable (env : Platform) (names : List String)

/-- A key on the path is one of the names, both trimmed and in lower case. -/
def KeyPath.Named (path : KeyPath) : Prop :=
  ∃ key, .member key ∈ path ∧ ∃ name ∈ names, matchForm env key = matchForm env name

/-- No key of the document is one of the names. -/
def NoKeyNamed (stored : Properties) : Prop := ∀ path ∈ keyPaths (some stored), ¬path.Named env names

/-- Every text that no name is above is stored where it was. -/
def TextsUnchanged (p : Option Properties) (stored : Properties) : Prop :=
  ∀ e ∈ textEntries p, ¬e.1.Named env names → e ∈ textEntries (some stored)

end

namespace Sample

/-- What is stored of an event's properties under a policy. -/
def storedFor (policy : Policy) (event : IncomingEvent) : Option Properties :=
  match accept addressPlatform { config 100 with privacy := .ok policy } (call [event]) (newYear * 1000) with
  | .error _ => none
  | .ok a =>
    let p := a.payload.reload.withEnvironment
    p.request.events[0]?.map (storedProperties
      (jobContext addressPlatform policy siteId p "UTC" 100 (Store.initial (config 100))))

def listing (names : List String) : Policy := { Policy.default with blockedProperties := names }

/-- A page view with one text. -/
def saying (key text : String) : IncomingEvent := { pageView '1' with properties := some [(key, .str text)] }

/-- A page view with a list of its own and one that is typed. -/
def listed : IncomingEvent :=
  { pageView '1' with properties := some [("items", .str "two")], items := [[("sku", .str "7")]] }

/-- A blank name blocks nothing. -/
theorem storedFor_blank : (storedFor (listing [" "]) (saying "" "x")).map (fun p => keyPaths (some p))
    = some [[.member ""]] := by
  decide +kernel

/-- The typed items take the key, blocked as it is. -/
theorem storedFor_listed_key : (storedFor (listing ["items"]) listed).map (fun p => keyPaths (some p))
    = some [[.member "items"], [.member "items", .place 0, .member "sku"]] := by
  decide +kernel

/-- Where it is not, what the event had there is gone. -/
theorem storedFor_listed_texts : (storedFor (listing ["sku"]) listed).map (fun p => textEntries (some p))
    = some [] := by
  decide +kernel

/-- An address is masked. -/
theorem storedFor_address :
    (storedFor (listing ["sku"]) (saying "note" "ann@example.com")).map (fun p => textEntries (some p))
      = some [([.member "note"], "[MASKED_EMAIL]")] := by
  decide +kernel

/-- A search, in a request whose user has an address. -/
def searchCall : AcceptCall :=
  call [{ pageView '1' with properties := some [("email", .str "y"), ("feature", .str "search")] }]

end Sample

/-- Of a search with an address the search is stored. -/
theorem blocked_properties_left_out_search :
    ∃ a queued, accept Sample.platform (Sample.config 100) Sample.searchCall (Sample.newYear * 1000) = .ok a
      ∧ a.payload.reload.withEnvironment.request.events[0]? = some queued
      ∧ (([.member "feature"], Json.str "search") ∈ documentEntries (some (storedProperties
          (jobContext Sample.platform Policy.default Sample.siteId a.payload.reload.withEnvironment "UTC" 100
            (Store.initial (Sample.config 100))) queued))) := by
  have hsome : (match accept Sample.platform (Sample.config 100) Sample.searchCall (Sample.newYear * 1000) with
      | .error _ => false
      | .ok _ => true) = true := by decide +kernel
  cases haccept : accept Sample.platform (Sample.config 100) Sample.searchCall (Sample.newYear * 1000) with
  | error turned =>
    rw [haccept] at hsome
    cases hsome
  | ok a =>
    obtain ⟨queued, hqueued, hstored⟩ := (blocked_properties_left_out Sample.platform).2.2.1
      (Sample.config 100) Sample.searchCall (Sample.newYear * 1000) a Policy.default Policy.default Sample.siteId
      "UTC" 100 (Store.initial (Sample.config 100)) 0 _ haccept rfl rfl
    refine ⟨a, queued, rfl, hqueued, (hstored.properties _ rfl).mpr ?_⟩
    -- the path is on no list, and the inspection finds nothing in the text
    unfold keptEntries
    rw [mem_leftEntries]
    have hfree : KeyPath.crosses Sample.platform (matchSet Sample.platform Policy.default.blockedProperties)
        [.member "feature"] = false := by decide +kernel
    have hsilent : (visitText Sample.platform (piiMode Sample.platform Policy.default.piiDetectionMode)
        "search").1 = "search" := by decide +kernel
    refine ⟨.str "search", List.mem_cons_of_mem _ List.mem_cons_self, ?_, congrArg Json.str hsilent⟩
    exact (Bool.and_self _).trans (congrArg not hfree)

/-- **Three ways past the list of names, or past a value**: a blank name blocks nothing;
the typed items are stored under their key, blocked or not, in place of what was there;
and the inspection masks what it finds. -/
theorem storedFor_not_as_named :
    (∃ stored, Sample.storedFor (Sample.listing [" "]) (Sample.saying "" "x") = some stored
        ∧ ¬NoKeyNamed Sample.addressPlatform [" "] stored)
      ∧ (∃ stored, Sample.storedFor (Sample.listing ["items"]) Sample.listed = some stored
        ∧ ¬NoKeyNamed Sample.addressPlatform ["items"] stored)
      ∧ (∃ stored, Sample.storedFor (Sample.listing ["sku"]) Sample.listed = some stored
        ∧ ¬TextsUnchanged Sample.addressPlatform ["sku"] Sample.listed.properties stored)
      ∧ ∃ stored, Sample.storedFor (Sample.listing ["sku"]) (Sample.saying "note" "ann@example.com") = some stored
        ∧ ¬TextsUnchanged Sample.addressPlatform ["sku"] (Sample.saying "note" "ann@example.com").properties
          stored := by
  have hnamed : ∀ (names : List String) (stored : Properties) (key name : String),
      [PathStep.member key] ∈ keyPaths (some stored) → name ∈ names →
      matchForm Sample.addressPlatform key = matchForm Sample.addressPlatform name →
        ¬NoKeyNamed Sample.addressPlatform names stored := by
    intro names stored key name hpath hname hform h
    exact h _ hpath ⟨key, List.mem_singleton_self _, name, hname, hform⟩
  have hlost : ∀ (event : IncomingEvent) (stored : Properties) (key text : String),
      event.properties = some [(key, .str text)] →
      matchForm Sample.addressPlatform key ≠ matchForm Sample.addressPlatform "sku" →
      ([PathStep.member key], text) ∉ textEntries (some stored) →
        ¬TextsUnchanged Sample.addressPlatform ["sku"] event.properties stored := by
    intro event stored key text hevent hform hnot h
    refine hnot (h ([.member key], text) ?_ ?_)
    · rw [hevent]
      exact List.mem_singleton_self _
    · intro hpath
      obtain ⟨key', hkey', name, hname, hform'⟩ := hpath
      obtain rfl := PathStep.member.inj (List.mem_singleton.mp hkey')
      obtain rfl := List.mem_singleton.mp hname
      exact hform hform'
  refine ⟨?_, ?_, ?_, ?_⟩
  · obtain ⟨stored, hstored, hpaths⟩ := Option.map_eq_some_iff.mp Sample.storedFor_blank
    exact ⟨stored, hstored, hnamed _ _ "" " " (by rw [hpaths]; exact List.mem_cons_self)
      (List.mem_singleton_self _) (by decide +kernel)⟩
  · obtain ⟨stored, hstored, hpaths⟩ := Option.map_eq_some_iff.mp Sample.storedFor_listed_key
    exact ⟨stored, hstored, hnamed _ _ "items" "items" (by rw [hpaths]; exact List.mem_cons_self)
      (List.mem_singleton_self _) rfl⟩
  · obtain ⟨stored, hstored, htexts⟩ := Option.map_eq_some_iff.mp Sample.storedFor_listed_texts
    refine ⟨stored, hstored, hlost _ _ "items" "two" rfl (by decide +kernel) ?_⟩
    rw [htexts]
    exact List.not_mem_nil
  · obtain ⟨stored, hstored, htexts⟩ := Option.map_eq_some_iff.mp Sample.storedFor_address
    refine ⟨stored, hstored, hlost _ _ "note" "ann@example.com" rfl (by decide +kernel) ?_⟩
    rw [htexts]
    decide +kernel

end Momento
