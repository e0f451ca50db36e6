/-
  Momento.Service.IdentityLinks

  **THE USER A VISITOR IS LINKED TO, KEPT AND REBUILT.**  `updateVisitorIdentity`
  compares an identify with `last_seen`, which anonymous events advance too;
  `rebuildIdentitiesSQL` looks for the latest identified event.  Event by event
  the two rows, and `visitors.user_id` with them, stay equal EXACTLY when the
  event keeps the link (`LinkKept`):

      first_seen  — a named visitor's event is not before the visitor's first one
      last_seen   — the event that names the visitor first is the visitor's last
      user_id     — an identify before the visitor's last event, but after the last
                    identified one, names the same user again
      linked_at   — a user the visitor comes back to was not seen before, and an
                    identify that arrives late is not before the link

  In time order only the last one can fail.
-/
import Momento.Service.Sessions

namespace Momento

open Foundation

/-! ## §1. One visitor's events. -/

/-- The raw events of a visitor, newest insertion first. -/
def Store.visitorGroup (s : Store) (k : VisitorKey) : List RawEvent :=
  Table.groupOf RawEvent.visitorKey s.rawEvents.rows k

namespace Arrival

variable (a : Arrival) (s : Store)

theorem store_visitorGroup (h : ¬a.Known s) (k : VisitorKey) :
    (a.store s h).visitorGroup k
      = if k = a.visitorKey then a.newRow s :: s.visitorGroup k else s.visitorGroup k := by
  unfold Store.visitorGroup
  rw [a.store_rows s h, Table.groupOf_cons]
  by_cases hk : k = a.visitorKey
  · subst hk
    rw [if_pos rfl, if_pos (by rfl)]
  · rw [if_neg hk, if_neg (fun h' => hk (h'.symm.trans rfl))]

theorem lt_newRow_id_visitor {k : VisitorKey} :
    ∀ r ∈ s.visitorGroup k, r.id < (a.newRow s).id :=
  fun _ hr => a.lt_newRow_id s (List.mem_of_mem_filter hr)

/-- `visitors` after the event, whose raw row changes nothing here. -/
theorem store_visitors (h : ¬a.Known s) (k : VisitorKey) :
    (a.store s h).visitors.lookup k = (a.derive s).visitors.lookup k := by
  unfold store
  rw [a.derive_visitors, a.derive_visitors]
  rfl

theorem store_visitorIdentities (h : ¬a.Known s) (k : VisitorKey) :
    (a.store s h).visitorIdentities.lookup k = (a.derive s).visitorIdentities.lookup k := by
  unfold store
  rw [a.derive_visitorIdentities, a.derive_visitorIdentities, a.canonical_insert]
  rfl

end Arrival

/-! ## §2. The visitor's time span. -/

/-- **The span invariant** of `visitors`. -/
structure VisitorTimes (s : Store) : Prop where
  first : ∀ k, (s.visitors.lookup k).map Visitor.firstSeen = firstTime (s.visitorGroup k)
  last : ∀ k, (s.visitors.lookup k).map Visitor.lastSeen = lastTime (s.visitorGroup k)

theorem VisitorTimes.initial (config : Config) : VisitorTimes (Store.initial config) where
  first _ := rfl
  last _ := rfl

/-- A visitor has a row exactly when it has events. -/
theorem VisitorTimes.lookup_eq_none {s : Store} (hs : VisitorTimes s) (k : VisitorKey) :
    s.visitors.lookup k = none ↔ s.visitorGroup k = [] := by
  have hfirst : firstTime (s.visitorGroup k) = none ↔ s.visitorGroup k = [] := minTime_eq_none_iff
  rw [← hfirst, ← hs.first k, Option.map_eq_none_iff]

/-- `first_seen` of a visitor who may be new. -/
theorem VisitorTimes.knownSince {s : Store} (hs : VisitorTimes s) (a : Arrival) :
    a.knownSince s = (firstTime (s.visitorGroup a.visitorKey)).getD a.eventTime := by
  rw [← hs.first a.visitorKey]
  unfold Arrival.knownSince
  cases s.visitors.lookup a.visitorKey with
  | none => rfl
  | some v => rfl

/-- Showing the visitor under the linked user changes no other column. -/
theorem Arrival.map_shownVisitor {β : Type} (a : Arrival) (s : Store) {f : Visitor → β}
    (hf : ∀ v user, f { v with userId := user } = f v) :
    (a.shownVisitor s).map f = (s.visitors.lookup a.visitorKey).map f := by
  unfold Arrival.shownVisitor
  rw [Option.map_map]
  congr 1
  funext v
  simp only [Function.comp_apply]
  split
  · exact hf v _
  · rfl

theorem Arrival.store_visitorTimes (a : Arrival) {s : Store} (h : ¬a.Known s)
    (hs : VisitorTimes s) : VisitorTimes (a.store s h) where
  first k := by
    rw [a.store_visitors, a.store_visitorGroup, a.derive_visitors]
    by_cases hk : k = a.visitorKey
    · subst hk
      rw [if_pos rfl, if_pos rfl]
      exact minTime_upsert ((a.map_shownVisitor s fun _ _ => rfl).trans (hs.first _)) rfl
        (fun _ => rfl)
    · rw [if_neg hk, if_neg hk]
      exact hs.first k
  last k := by
    rw [a.store_visitors, a.store_visitorGroup, a.derive_visitors]
    by_cases hk : k = a.visitorKey
    · subst hk
      rw [if_pos rfl, if_pos rfl]
      exact maxTime_upsert ((a.map_shownVisitor s fun _ _ => rfl).trans (hs.last _)) rfl
        (fun _ => rfl)
    · rw [if_neg hk, if_neg hk]
      exact hs.last k

/-! ## §3. The rebuilt identity of a group. -/

section Rebuilt
variable {g : List RawEvent} {e : RawEvent}

theorem linkedAt_cons_self {u : String} (he : e.userId = some u) :
    linkedAt u (e :: g) = some ((linkedAt u g).elim e.eventTimestamp (min e.eventTimestamp)) := by
  unfold linkedAt
  rw [List.filter_cons_of_pos (by simp [he])]
  exact minTime_cons _ _

theorem linkedAt_cons_of_ne {u : String} (he : e.userId ≠ some u) :
    linkedAt u (e :: g) = linkedAt u g := by
  unfold linkedAt
  rw [List.filter_cons_of_neg (by simp [he])]

theorem linkedAt_eq_none {u : String} : linkedAt u g = none ↔ ∀ r ∈ g, r.userId ≠ some u := by
  have hnil : linkedAt u g = none ↔ g.filter (fun r => r.userId = some u) = [] := minTime_eq_none_iff
  rw [hnil, List.filter_eq_nil_iff]
  simp

/-- A visitor without identified events has no row. -/
theorem rebuildIdentityRow_eq_none :
    rebuildIdentityRow g = none ↔ lastRow g RawEvent.userId = none := by
  unfold rebuildIdentityRow
  rw [Option.map_eq_none_iff]
  exact latest_eq_none_iff

/-- **What a rebuilt identity says of its group.** -/
theorem rebuildIdentityRow_eq_some {i : VisitorIdentity} :
    rebuildIdentityRow g = some i
      ↔ lastTouch RawEvent.userId g = some i.userId
          ∧ firstTime g = some i.firstSeen
          ∧ linkedAt i.userId g = some i.linkedAt
          ∧ lastTime g = some i.lastSeen := by
  unfold rebuildIdentityRow
  constructor
  · intro h
    obtain ⟨u, hu, rfl⟩ := Option.map_eq_some_iff.mp h
    obtain ⟨b, hb, hbu⟩ := Option.bind_eq_some_iff.mp hu
    have hmem := (latestRow_carries hb).1
    -- the row that names the user is in the group, so no minimum is empty
    have hne : g ≠ [] := List.ne_nil_of_mem hmem
    have hfirst : firstTime g ≠ none := fun h => hne (minTime_eq_none_iff.mp h)
    have hlast : lastTime g ≠ none := fun h => hne (maxTime_eq_none_iff.mp h)
    have hlinked : linkedAt u g ≠ none := fun h => linkedAt_eq_none.mp h b hmem hbu
    refine ⟨hu, ?_, ?_, ?_⟩
    · cases hf : firstTime g with
      | none => exact absurd hf hfirst
      | some t => rfl
    · cases hf : linkedAt u g with
      | none => exact absurd hf hlinked
      | some t => simp
    · cases hf : lastTime g with
      | none => exact absurd hf hlast
      | some t => rfl
  · rintro ⟨hu, hfirst, hlinked, hlast⟩
    rw [hu]
    simp [hfirst, hlinked, hlast]

/-- One more anonymous event. -/
theorem rebuildIdentityRow_cons_anonymous (he : e.userId = none) :
    rebuildIdentityRow (e :: g)
      = (rebuildIdentityRow g).map fun i =>
          { i with
            firstSeen := min e.eventTimestamp i.firstSeen
            lastSeen := max e.eventTimestamp i.lastSeen } := by
  cases hi : rebuildIdentityRow g with
  | none =>
    rw [rebuildIdentityRow_eq_none] at hi
    exact rebuildIdentityRow_eq_none.mpr ((latestRow_cons_none he).trans hi)
  | some i =>
    obtain ⟨huser, hfirst, hlinked, hlast⟩ := rebuildIdentityRow_eq_some.mp hi
    refine rebuildIdentityRow_eq_some.mpr ⟨(latest_cons_none he).trans huser, ?_, ?_, ?_⟩
    · rw [firstTime_cons, hfirst]
      rfl
    · exact (linkedAt_cons_of_ne (by simp [he])).trans hlinked
    · rw [lastTime_cons, hlast]
      rfl

/-- The first identified event of a visitor. -/
theorem rebuildIdentityRow_cons_first {u : String} (hid : ∀ r ∈ g, r.id < e.id)
    (he : e.userId = some u) (hnone : lastRow g RawEvent.userId = none) :
    rebuildIdentityRow (e :: g)
      = some
          { userId := u
            firstSeen := (firstTime g).elim e.eventTimestamp (min e.eventTimestamp)
            linkedAt := e.eventTimestamp
            lastSeen := (lastTime g).elim e.eventTimestamp (max e.eventTimestamp) } := by
  have hlinked : linkedAt u g = none := by
    refine linkedAt_eq_none.mpr fun r hr hru => ?_
    rw [latestRow_eq_none_iff.mp hnone r hr] at hru
    simp at hru
  refine rebuildIdentityRow_eq_some.mpr ⟨?_, firstTime_cons _ _, ?_, lastTime_cons _ _⟩
  · have hlatest : lastTouch RawEvent.userId (e :: g) = _ := latest_cons_some hid he
    have hrow : latestRow RawEvent.eventTimestamp RawEvent.id RawEvent.userId g = none := hnone
    rw [hrow] at hlatest
    exact hlatest
  · rw [linkedAt_cons_self he, hlinked]
    rfl

end Rebuilt

/-! ## §4. When an event keeps the link of its visitor. -/

section Kept
variable (g : List RawEvent) (e : RawEvent)

/-- The condition on `first_seen`. -/
def FirstSeenKept : Prop :=
  ∀ start, firstTime g = some start → (e.userId ≠ none ∨ ∃ r ∈ g, r.userId ≠ none) →
    start ≤ e.eventTimestamp

/-- The condition on `last_seen`. -/
def LastSeenKept : Prop :=
  ∀ last, lastTime g = some last → e.userId ≠ none → (∀ r ∈ g, r.userId = none) →
    last ≤ e.eventTimestamp

/-- The condition on `user_id`. -/
def UserIdKept : Prop :=
  ∀ last u b, lastTime g = some last → e.userId = some u → lastRow g RawEvent.userId = some b →
    b.eventTimestamp ≤ e.eventTimestamp → e.eventTimestamp < last → b.userId = some u

/-- The condition on `linked_at`. -/
def LinkedAtKept : Prop :=
  ∀ last u b, lastTime g = some last → e.userId = some u → lastRow g RawEvent.userId = some b →
    if e.eventTimestamp < last then
      b.userId = some u → ∃ r ∈ g, r.userId = some u ∧ r.eventTimestamp ≤ e.eventTimestamp
    else
      b.userId ≠ some u → ∀ r ∈ g, r.userId = some u → e.eventTimestamp ≤ r.eventTimestamp

/-- **The event keeps its visitor's link.** -/
structure LinkKept : Prop where
  firstSeen : FirstSeenKept g e
  lastSeen : LastSeenKept g e
  userId : UserIdKept g e
  linkedAt : LinkedAtKept g e

end Kept

section KeptIff
variable {g : List RawEvent} {e : RawEvent}

/-- With the last identified row known. -/
theorem userIdKept_iff {last : Instant} {u : String} {b : RawEvent} (hlast : lastTime g = some last)
    (he : e.userId = some u) (hb : lastRow g RawEvent.userId = some b) :
    UserIdKept g e
      ↔ (b.eventTimestamp ≤ e.eventTimestamp → e.eventTimestamp < last → b.userId = some u) := by
  unfold UserIdKept
  rw [hlast, he, hb]
  constructor
  · intro h
    exact h last u b rfl rfl rfl
  · rintro h _ _ _ ⟨⟩ ⟨⟩ ⟨⟩
    exact h

theorem linkedAtKept_iff {last : Instant} {u : String} {b : RawEvent}
    (hlast : lastTime g = some last) (he : e.userId = some u)
    (hb : lastRow g RawEvent.userId = some b) :
    LinkedAtKept g e
      ↔ if e.eventTimestamp < last then
          b.userId = some u → ∃ r ∈ g, r.userId = some u ∧ r.eventTimestamp ≤ e.eventTimestamp
        else
          b.userId ≠ some u → ∀ r ∈ g, r.userId = some u → e.eventTimestamp ≤ r.eventTimestamp := by
  unfold LinkedAtKept
  rw [hlast, he, hb]
  constructor
  · intro h
    exact h last u b rfl rfl rfl
  · rintro h _ _ _ ⟨⟩ ⟨⟩ ⟨⟩
    exact h

/-- The link to `u` is not after the event. -/
theorem linkedAt_le_iff {u : String} {t : Instant} (h : linkedAt u g = some t) :
    t ≤ e.eventTimestamp
      ↔ ∃ r ∈ g, r.userId = some u ∧ r.eventTimestamp ≤ e.eventTimestamp := by
  constructor
  · intro hle
    obtain ⟨r, hr, hrt⟩ := minTime_mem h
    obtain ⟨hmem, hru⟩ := List.mem_filter.mp hr
    exact ⟨r, hmem, of_decide_eq_true hru, hrt.le.trans hle⟩
  · rintro ⟨r, hr, hru, hle⟩
    exact (minTime_le h r (List.mem_filter.mpr ⟨hr, decide_eq_true hru⟩)).trans hle

/-- The event is the first one of `u`. -/
theorem elim_linkedAt_eq_iff {u : String} :
    (linkedAt u g).elim e.eventTimestamp (min e.eventTimestamp) = e.eventTimestamp
      ↔ ∀ r ∈ g, r.userId = some u → e.eventTimestamp ≤ r.eventTimestamp := by
  cases h : linkedAt u g with
  | none =>
    have hnone := linkedAt_eq_none.mp h
    simp only [Option.elim_none, true_iff]
    intro r hr hru
    exact absurd hru (hnone r hr)
  | some t =>
    rw [Option.elim_some, min_eq_left_iff]
    constructor
    · intro hle r hr hru
      exact hle.trans (minTime_le h r (List.mem_filter.mpr ⟨hr, decide_eq_true hru⟩))
    · intro hall
      obtain ⟨r, hr, hrt⟩ := minTime_mem h
      obtain ⟨hmem, hru⟩ := List.mem_filter.mp hr
      exact (hall r hmem (of_decide_eq_true hru)).trans hrt.le

/-- What an anonymous event leaves of the visitor's identity. -/
theorem anonymous_eq_rebuild_iff (he : e.userId = none) :
    ((rebuildIdentityRow g).map fun i => { i with lastSeen := max i.lastSeen e.eventTimestamp })
        = rebuildIdentityRow (e :: g)
      ↔ LinkKept g e := by
  rw [rebuildIdentityRow_cons_anonymous he]
  have hrest : LinkKept g e ↔ FirstSeenKept g e := by
    constructor
    · intro h
      exact h.firstSeen
    · intro h
      exact
        { firstSeen := h
          lastSeen := fun _ _ hnamed => absurd he hnamed
          userId := fun _ _ _ _ hu => by rw [he] at hu; simp at hu
          linkedAt := fun _ _ _ _ hu => by rw [he] at hu; simp at hu }
  rw [hrest]
  unfold FirstSeenKept
  cases hi : rebuildIdentityRow g with
  | none =>
    have hnone := latestRow_eq_none_iff.mp (rebuildIdentityRow_eq_none.mp hi)
    simp only [Option.map_none, true_iff]
    rintro start - (hnamed | ⟨r, hr, hnamed⟩)
    · exact absurd he hnamed
    · exact absurd (hnone r hr) hnamed
  | some i =>
    obtain ⟨huser, hfirst, -, -⟩ := rebuildIdentityRow_eq_some.mp hi
    obtain ⟨b, hb, hbu⟩ := Option.bind_eq_some_iff.mp huser
    have hnamed : ∃ r ∈ g, r.userId ≠ none :=
      ⟨b, (latestRow_carries hb).1, by simp [hbu]⟩
    simp only [Option.map_some, Option.some.injEq, VisitorIdentity.mk.injEq, hfirst, hnamed,
      or_true, forall_const, forall_eq', true_and, max_comm, and_true]
    exact eq_comm.trans min_eq_right_iff

/-- What the first identified event leaves of the visitor's identity. -/
theorem firstLink_eq_rebuild_iff {u : String} (hid : ∀ r ∈ g, r.id < e.id)
    (he : e.userId = some u) (hi : rebuildIdentityRow g = none) :
    some (VisitorIdentity.mk u ((firstTime g).getD e.eventTimestamp) e.eventTimestamp
        e.eventTimestamp) = rebuildIdentityRow (e :: g)
      ↔ LinkKept g e := by
  have hnone := rebuildIdentityRow_eq_none.mp hi
  have hanonymous := latestRow_eq_none_iff.mp hnone
  rw [rebuildIdentityRow_cons_first hid he hnone]
  have hrest : LinkKept g e ↔ FirstSeenKept g e ∧ LastSeenKept g e := by
    constructor
    · intro h
      exact ⟨h.firstSeen, h.lastSeen⟩
    · rintro ⟨hfirst, hlast⟩
      exact
        { firstSeen := hfirst
          lastSeen := hlast
          userId := fun _ _ b _ _ hb => by rw [hnone] at hb; simp at hb
          linkedAt := fun _ _ b _ _ hb => by rw [hnone] at hb; simp at hb }
  have hfirst : (firstTime g).getD e.eventTimestamp
        = (firstTime g).elim e.eventTimestamp (min e.eventTimestamp) ↔ FirstSeenKept g e := by
    unfold FirstSeenKept
    cases firstTime g with
    | none => simp
    | some start =>
      simp only [Option.getD_some, Option.elim_some, Option.some.injEq, forall_eq', he]
      simp
  have hlast : e.eventTimestamp
        = (lastTime g).elim e.eventTimestamp (max e.eventTimestamp) ↔ LastSeenKept g e := by
    unfold LastSeenKept
    cases lastTime g with
    | none => simp
    | some last =>
      have hall : (∀ r ∈ g, r.userId = none) ↔ True := iff_true_intro hanonymous
      simp only [Option.elim_some, Option.some.injEq, forall_eq', he, hall]
      simp
  rw [hrest, ← hfirst, ← hlast]
  simp

/-- What another identified event leaves of the visitor's identity. -/
theorem relink_eq_rebuild_iff {u : String} {i : VisitorIdentity} (hid : ∀ r ∈ g, r.id < e.id)
    (he : e.userId = some u) (hi : rebuildIdentityRow g = some i) :
    some (VisitorIdentity.mk
        (if i.lastSeen ≤ e.eventTimestamp then u else i.userId)
        i.firstSeen
        (if e.eventTimestamp < i.lastSeen then i.linkedAt
          else if i.userId = u then min i.linkedAt e.eventTimestamp else e.eventTimestamp)
        (max i.lastSeen e.eventTimestamp)) = rebuildIdentityRow (e :: g)
      ↔ LinkKept g e := by
  obtain ⟨huser, hfirst, hlinked, hlast⟩ := rebuildIdentityRow_eq_some.mp hi
  obtain ⟨b, hb, hbu⟩ := Option.bind_eq_some_iff.mp huser
  rw [eq_comm, rebuildIdentityRow_eq_some]
  -- column by column
  have huserIff : lastTouch RawEvent.userId (e :: g)
        = some (if i.lastSeen ≤ e.eventTimestamp then u else i.userId) ↔ UserIdKept g e := by
    have hguard := guardedLast_eq_latest_iff RawEvent.userId hid hlast
    have hvalue : (if i.lastSeen ≤ e.eventTimestamp ∧ e.userId ≠ none then e.userId
        else lastTouch RawEvent.userId g)
        = some (if i.lastSeen ≤ e.eventTimestamp then u else i.userId) := by
      rw [he, huser]
      by_cases hlate : i.lastSeen ≤ e.eventTimestamp
      · simp [hlate]
      · simp [hlate]
    rw [hvalue] at hguard
    have hrow : latestRow RawEvent.eventTimestamp RawEvent.id RawEvent.userId g = some b := hb
    rw [eq_comm, hguard, userIdKept_iff hlast he hb, he, hrow]
    simp only [Option.some.injEq, forall_eq', exists_eq_left']
    exact ⟨fun h hle hlt => h hlt hle, fun h hlt hle => h hle hlt⟩
  have hfirstIff : firstTime (e :: g) = some i.firstSeen ↔ FirstSeenKept g e := by
    unfold FirstSeenKept
    rw [firstTime_cons, hfirst]
    simp [he]
  have hlinkedIff : linkedAt (if i.lastSeen ≤ e.eventTimestamp then u else i.userId) (e :: g)
        = some (if e.eventTimestamp < i.lastSeen then i.linkedAt
          else if i.userId = u then min i.linkedAt e.eventTimestamp else e.eventTimestamp)
      ↔ LinkedAtKept g e := by
    rw [linkedAtKept_iff hlast he hb, hbu]
    by_cases hlt : e.eventTimestamp < i.lastSeen
    · -- an identify that arrives late: the user stays
      rw [if_neg (not_le.mpr hlt), if_pos hlt, if_pos hlt]
      by_cases hsame : i.userId = u
      · rw [linkedAt_cons_self (he.trans (congrArg some hsame.symm)), hlinked, hsame]
        rw [hsame] at hlinked
        simp [← linkedAt_le_iff hlinked]
      · rw [linkedAt_cons_of_ne (by simpa [he] using Ne.symm hsame), hlinked]
        simp [hsame]
    · rw [if_pos (not_lt.mp hlt), if_neg hlt, if_neg hlt, linkedAt_cons_self he, Option.some.injEq]
      by_cases hsame : i.userId = u
      · rw [if_pos hsame, ← hsame, hlinked]
        simp [min_comm]
      · rw [if_neg hsame, elim_linkedAt_eq_iff]
        simp [hsame]
  have hlastIff : lastTime (e :: g) = some (max i.lastSeen e.eventTimestamp) := by
    rw [lastTime_cons, hlast, max_comm]
    rfl
  have hlastSeen : LastSeenKept g e := by
    intro _ _ _ hall
    rw [hall b (latestRow_carries hb).1] at hbu
    simp at hbu
  rw [huserIff, hfirstIff, hlinkedIff]
  constructor
  · rintro ⟨h₁, h₂, h₃, -⟩
    exact ⟨h₂, hlastSeen, h₁, h₃⟩
  · intro h
    exact ⟨h.userId, h.firstSeen, h.linkedAt, hlastIff⟩

end KeptIff

/-! ## §5. One event. -/

/-- **The identities, and the users the visitors show, are the rebuilt ones.** -/
structure LinksAgree (s : Store) : Prop where
  identities : ∀ k, s.visitorIdentities.lookup k = rebuildIdentity k s
  users : ∀ k, (s.visitors.lookup k).map Visitor.userId
    = ((rebuildVisitors k.siteId s).lookup k).map Visitor.userId

/-- What the rebuild answers for a visitor. -/
theorem lookup_rebuildVisitors (s : Store) (k : VisitorKey) :
    (rebuildVisitors k.siteId s).lookup k
      = if s.visitorGroup k = [] then none else some (rebuildVisitorRow (s.visitorGroup k)) := by
  unfold rebuildVisitors
  rw [Table.lookup_groupRows, groupOf_siteRows fun r hr => congrArg VisitorKey.siteId hr]
  rfl

/-- The visitors follow the identities. -/
theorem linksAgree_of_identities {s : Store} (hs : IdentityShown s) (ht : VisitorTimes s)
    (h : ∀ k, s.visitorIdentities.lookup k = rebuildIdentity k s) : LinksAgree s where
  identities := h
  users k := by
    rw [lookup_rebuildVisitors]
    cases hv : s.visitors.lookup k with
    | none =>
      rw [if_pos ((ht.lookup_eq_none k).mp hv)]
    | some v =>
      have hne : s.visitorGroup k ≠ [] := by
        intro hnil
        rw [(ht.lookup_eq_none k).mpr hnil] at hv
        simp at hv
      have huser : v.userId = lastTouch RawEvent.userId (s.visitorGroup k) := by
        rw [hs.shown k v hv, Store.linkedUser, h k]
        unfold rebuildIdentity rebuildIdentityRow
        rw [Option.map_map]
        exact Option.map_id'
      rw [if_neg hne, Option.map_some, huser]
      rfl

namespace Arrival

variable (a : Arrival) {s : Store}

/-- A named identity is touched by every event of its visitor. -/
theorem touched_identity (hs : IdentityShown s) :
    ((a.linkedIdentity s).map fun i =>
        if a.canonical s ≠ "" then { i with lastSeen := max i.lastSeen a.eventTime } else i)
      = (a.linkedIdentity s).map fun i => { i with lastSeen := max i.lastSeen a.eventTime } := by
  cases hi : a.linkedIdentity s with
  | none => rfl
  | some i =>
    have hlinked : a.linkedAfter s = some i.userId := by
      unfold linkedAfter
      rw [hi]
      rfl
    have hcanonical : a.canonical s ≠ "" := by
      rw [a.canonical_eq_linked hs, hlinked]
      exact a.linkedAfter_named hs hlinked
    rw [Option.map_some, Option.map_some, if_pos hcanonical]

/-- **The event's visitor has the rebuilt identity again exactly when the event
keeps the link.** -/
theorem linkedIdentity_eq_rebuild_iff (ht : VisitorTimes s)
    (hold : s.visitorIdentities.lookup a.visitorKey = rebuildIdentity a.visitorKey s) :
    ((a.linkedIdentity s).map fun i => { i with lastSeen := max i.lastSeen a.eventTime })
        = rebuildIdentityRow (a.newRow s :: s.visitorGroup a.visitorKey)
      ↔ LinkKept (s.visitorGroup a.visitorKey) (a.newRow s) := by
  have hid := a.lt_newRow_id_visitor s (k := a.visitorKey)
  have hsince := ht.knownSince a
  have hlookup : s.visitorIdentities.lookup a.visitorKey
      = rebuildIdentityRow (s.visitorGroup a.visitorKey) := hold
  by_cases huser : a.context.userId = ""
  · have he : (a.newRow s).userId = none := if_pos huser
    have hsame : a.linkedIdentity s = rebuildIdentityRow (s.visitorGroup a.visitorKey) := by
      unfold linkedIdentity
      rw [if_neg (not_not.mpr huser), hlookup]
    rw [hsame]
    exact anonymous_eq_rebuild_iff he
  · have he : (a.newRow s).userId = some a.context.userId := if_neg huser
    unfold linkedIdentity
    rw [if_pos huser, hlookup]
    cases hi : rebuildIdentityRow (s.visitorGroup a.visitorKey) with
    | none =>
      have hfirst := firstLink_eq_rebuild_iff hid he hi
      rw [← hfirst]
      unfold firstLink
      rw [hsince]
      simp [newRow_eventTimestamp]
    | some i =>
      have hrelink := relink_eq_rebuild_iff hid he hi
      obtain ⟨-, hfirst, -, -⟩ := rebuildIdentityRow_eq_some.mp hi
      have hsame : min i.firstSeen (a.knownSince s) = i.firstSeen := by
        rw [hsince, hfirst]
        exact min_self _
      have hlast : max (max i.lastSeen a.eventTime) a.eventTime = max i.lastSeen a.eventTime :=
        max_eq_left (le_max_right _ _)
      rw [← hrelink, Option.elim_some, Option.map_some]
      unfold relink
      rw [hsame, hlast]
      rfl

theorem linksAgree_store_iff (h : ¬a.Known s) (hs : IdentityShown s) (ht : VisitorTimes s)
    (hagree : LinksAgree s) :
    LinksAgree (a.store s h) ↔ LinkKept (s.visitorGroup a.visitorKey) (a.newRow s) := by
  have hrow : ∀ k, rebuildIdentity k (a.store s h)
      = if k = a.visitorKey then rebuildIdentityRow (a.newRow s :: s.visitorGroup k)
        else rebuildIdentity k s := by
    intro k
    have hgroup := a.store_visitorGroup s h k
    unfold Store.visitorGroup at hgroup
    unfold rebuildIdentity
    rw [hgroup]
    split
    · rfl
    · rfl
  rw [← a.linkedIdentity_eq_rebuild_iff ht (hagree.identities a.visitorKey)]
  constructor
  · intro hafter
    have hself := hafter.identities a.visitorKey
    rw [a.store_visitorIdentities, a.derive_visitorIdentities, hrow, if_pos rfl, if_pos rfl,
      a.touched_identity hs] at hself
    exact hself
  · intro hself
    refine linksAgree_of_identities (a.store_identityShown h hs) (a.store_visitorTimes h ht)
      fun k => ?_
    rw [a.store_visitorIdentities, a.derive_visitorIdentities, hrow, a.touched_identity hs]
    by_cases hk : k = a.visitorKey
    · rw [if_pos hk, if_pos hk, hk]
      exact hself
    · rw [if_neg hk, if_neg hk]
      exact hagree.identities k

end Arrival

/-! ## §6. Runs. -/

/-- What a run carries along while the links agree. -/
structure LinksInvariant (s : Store) : Prop where
  identity : IdentityShown s
  times : VisitorTimes s
  agree : LinksAgree s

theorem LinksInvariant.initial (config : Config) : LinksInvariant (Store.initial config) where
  identity := .initial config
  times := .initial config
  agree := ⟨fun _ => rfl, fun _ => rfl⟩

theorem LinksInvariant.addQuality {s : Store} (hs : LinksInvariant s) (key : QualityKey)
    (q : Quality) : LinksInvariant (s.addQuality key q) where
  identity := ⟨hs.identity.named, hs.identity.shown⟩
  times := ⟨hs.times.first, hs.times.last⟩
  agree := ⟨hs.agree.identities, hs.agree.users⟩

/-- The event keeps the link of its visitor. -/
def KeepsLink (a : Arrival) (s : Store) : Prop :=
  LinkKept (s.visitorGroup a.visitorKey) (a.newRow s)

theorem LinksInvariant.store {a : Arrival} {s : Store} (h : ¬a.Known s) (hs : LinksInvariant s)
    (hkept : KeepsLink a s) : LinksInvariant (a.store s h) where
  identity := a.store_identityShown h hs.identity
  times := a.store_visitorTimes h hs.times
  agree := (a.linksAgree_store_iff h hs.identity hs.times hs.agree).mpr hkept

/-- **Every visitor is linked as the rebuild links it after every stored event of
a run exactly when every stored event keeps the link of its visitor**; and then
it is so at the run's end. -/
theorem identityLinks_rebuilt (env : Platform) (config : Config) (jobs : List Job) :
    (JobsMeet env (fun a s => ∀ h : ¬a.Known s, LinksAgree (a.store s h)) (Store.initial config) jobs
        ↔ JobsMeet env KeepsLink (Store.initial config) jobs)
      ∧ (JobsMeet env KeepsLink (Store.initial config) jobs →
          LinksAgree (afterJobs env (Store.initial config) jobs)) := by
  have hnew : ∀ a s, ∀ h : ¬a.Known s, Arrives env a s → LinksInvariant s → KeepsLink a s →
      LinksInvariant (a.store s h) := fun a s h _ hs hkept => hs.store h hkept
  have hknown : ∀ s key, LinksInvariant s → LinksInvariant (s.addQuality key { duplicates := 1 }) :=
    fun s key hs => hs.addQuality key _
  constructor
  · symm
    refine jobsMeet_congr ?_ hnew hknown jobs (.initial config)
    intro a s harrives hs
    have hiff := a.linksAgree_store_iff harrives.new hs.identity hs.times hs.agree
    unfold KeepsLink
    rw [← hiff]
    exact ⟨fun h _ => h, fun h => h harrives.new⟩
  · intro hmeet
    exact (afterJobs_induction hnew hknown jobs hmeet (.initial config)).agree

/-- An identify, a later anonymous event, and an identify as somebody else whose
time lies between the two. -/
def Sample.staleIdentify : List Job :=
  [Sample.job (Sample.payload "v1" "ann" [{
      id := Sample.eventId '1', name := "page_view", timestamp := Sample.newYear - 3000 }]),
   Sample.job (Sample.payload "v1" "" [{
      id := Sample.eventId '2', name := "page_view", timestamp := Sample.newYear - 1000 }]),
   Sample.job (Sample.payload "v1" "bob" [{
      id := Sample.eventId '3', name := "page_view", timestamp := Sample.newYear - 2000 }])]

/-- The anonymous event hides the second identify from the upsert, not from the
rebuild. -/
theorem staleIdentify_not_rebuilt :
    ¬LinksAgree (afterJobs Sample.platform (Store.initial (Sample.config 100))
      Sample.staleIdentify) := by
  intro hagree
  have hidentity := hagree.identities ⟨Sample.siteId, "v1"⟩
  revert hidentity
  decide +kernel

end Momento
