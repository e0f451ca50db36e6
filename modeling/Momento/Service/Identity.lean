/-
  Momento.Service.Identity

  **WHO A VISITOR IS, AFTER ONE MORE EVENT.**  An event that names a user links
  its visitor (`linkedIdentity`), the visitor's row is shown under the linked
  user, and that user is the one handed on to the session (`canonical`).

  In every store a run reaches, `visitors.user_id` is the linked user and nothing
  else (`IdentityShown`); so the user handed on is the linked user.
-/
import Momento.Service.Runs

namespace Momento

open Foundation

/-- `visitors` after `updateVisitorIdentity`. -/
theorem Store.identify_visitors (key : VisitorKey) (userId : String) (eventTime : Instant)
    (s : Store) (k : VisitorKey) :
    (s.identify key userId eventTime).visitors.lookup k
      = (s.visitors.lookup k).map fun v =>
          if k = key ∧ userId ≠ "" then
            { v with userId := ((s.identify key userId eventTime).linkedUser key).or v.userId }
          else v := by
  unfold Store.identify
  by_cases huser : userId = ""
  · simp [huser]
  · simp only [huser, ne_eq, not_false_eq_true, if_true, and_true]
    exact Table.lookup_modifyRows _ _ _

namespace Arrival

variable (a : Arrival) (s : Store)

/-! ## §1. The identity row after the upsert. -/

/-- `first_seen` of the visitor, where there is one already. -/
def knownSince : Instant := (s.visitors.lookup a.visitorKey).elim a.eventTime Visitor.firstSeen

/-- The row a first link inserts. -/
def firstLink : VisitorIdentity where
  userId := a.context.userId
  firstSeen := a.knownSince s
  linkedAt := a.eventTime
  lastSeen := a.eventTime

/-- The row another link leaves of `i`. -/
def relink (i : VisitorIdentity) : VisitorIdentity where
  userId := if i.lastSeen ≤ a.eventTime then a.context.userId else i.userId
  firstSeen := min i.firstSeen (a.knownSince s)
  linkedAt :=
    if a.eventTime < i.lastSeen then i.linkedAt
    else if i.userId = a.context.userId then min i.linkedAt a.eventTime
    else a.eventTime
  lastSeen := max i.lastSeen a.eventTime

/-- The visitor's identity once `updateVisitorIdentity` had its turn. -/
def linkedIdentity : Option VisitorIdentity :=
  if a.context.userId ≠ "" then
    some ((s.visitorIdentities.lookup a.visitorKey).elim (a.firstLink s) (a.relink s))
  else s.visitorIdentities.lookup a.visitorKey

/-- The user the visitor is linked to after the event. -/
def linkedAfter : Option String := (a.linkedIdentity s).map VisitorIdentity.userId

/-! ## §2. The two tables after the event. -/

/-- `visitor_identities` while the visitor's upsert runs. -/
theorem afterVisitor_identities (k : VisitorKey) :
    (s.afterVisitor a.context a.event a.eventTime a.conversion
        a.unreported).visitorIdentities.lookup k
      = if k = a.visitorKey then a.linkedIdentity s else s.visitorIdentities.lookup k := by
  obtain ⟨jobs, values, h⟩ := Store.beforeVisitor_shape a.context a.event a.eventTime
    a.unreported s
  unfold Store.afterVisitor Store.countVisitor
  rw [h]
  unfold linkedIdentity
  by_cases huser : a.context.userId = ""
  · simp only [Store.identify, huser, ne_eq, not_true_eq_false, if_false]
    by_cases hk : k = a.visitorKey
    · rw [if_pos hk, hk]
      rfl
    · rw [if_neg hk]
      rfl
  · simp only [Store.identify, huser, ne_eq, not_false_eq_true, if_true]
    by_cases hk : k = a.visitorKey
    · rw [if_pos hk, hk]
      exact Table.lookup_upsert_self _ _ _ _
    · rw [if_neg hk]
      exact Table.lookup_upsert_of_ne hk _ _ _

/-- **`visitor_identities` after the event.** -/
theorem derive_visitorIdentities (k : VisitorKey) :
    (a.derive s).visitorIdentities.lookup k
      = if k = a.visitorKey then
          (a.linkedIdentity s).map fun i =>
            if a.canonical s ≠ "" then { i with lastSeen := max i.lastSeen a.eventTime } else i
        else s.visitorIdentities.lookup k := by
  rw [derive_eq, finish_visitorIdentities]
  unfold beforeSession Store.touchLinked
  by_cases hcanonical : a.canonical s = ""
  · simp only [hcanonical, ne_eq, not_true_eq_false, if_false, Option.map_id']
    exact a.afterVisitor_identities s k
  · simp only [hcanonical, ne_eq, not_false_eq_true, if_true]
    unfold Store.countIdentifiedUser Store.touchIdentity
    rw [Table.lookup_modifyRows, a.afterVisitor_identities s k]
    by_cases hk : k = a.visitorKey
    · simp [hk]
    · simp [hk]

/-- The visitor's row as the upsert meets it, shown under the linked user. -/
def shownVisitor : Option Visitor :=
  (s.visitors.lookup a.visitorKey).map fun v =>
    if a.context.userId ≠ "" then { v with userId := (a.linkedAfter s).or v.userId } else v

/-- The user the upsert inserts. -/
def insertedUser : Option String := (a.linkedAfter s).or (nullIfEmpty a.context.userId)

/-- **`visitors` after the event.** -/
theorem derive_visitors (k : VisitorKey) :
    (a.derive s).visitors.lookup k
      = if k = a.visitorKey then
          some ((a.shownVisitor s).elim
            { userId := a.insertedUser s
              firstSeen := a.eventTime
              lastSeen := a.eventTime
              eventCount := 1
              conversionCount := a.conversion.toNat
              userProperties := a.context.userProperties }
            fun v =>
              { userId := (a.linkedAfter s).or ((a.insertedUser s).or v.userId)
                firstSeen := min v.firstSeen a.eventTime
                lastSeen := max v.lastSeen a.eventTime
                eventCount := v.eventCount + 1
                conversionCount := v.conversionCount + a.conversion.toNat
                userProperties :=
                  if a.context.userProperties ≠ [] ∧ v.lastSeen ≤ a.eventTime then
                    a.context.userProperties
                  else v.userProperties })
        else s.visitors.lookup k := by
  have hlinked : (s.beforeVisitor a.context a.event a.eventTime a.unreported).linkedUser
      a.visitorKey = a.linkedAfter s := by
    have h := a.afterVisitor_identities s a.visitorKey
    rw [if_pos rfl] at h
    unfold Store.linkedUser linkedAfter
    rw [← h]
    rfl
  have hbefore : ∀ k, (s.beforeVisitor a.context a.event a.eventTime
      a.unreported).visitors.lookup k
      = if k = a.visitorKey then a.shownVisitor s else s.visitors.lookup k := by
    intro k
    obtain ⟨jobs, values, h⟩ := Store.beforeVisitor_shape a.context a.event a.eventTime
      a.unreported s
    have hshow := Store.identify_visitors a.visitorKey a.context.userId a.eventTime
      { s.addQuality ⟨dayOf a.context a.eventTime, a.event.name⟩
          (acceptedQuality a.context a.event a.eventTime a.unreported) with
        aggregateJobs := jobs, dimensionValues := values } k
    have hlinked' := hlinked
    rw [h] at hlinked' ⊢
    refine hshow.trans ?_
    by_cases hk : k = a.visitorKey
    · subst hk
      rw [if_pos rfl]
      unfold shownVisitor
      rw [← hlinked']
      by_cases huser : a.context.userId = ""
      · simp [huser, Store.addQuality]
      · simp [huser, Store.addQuality, visitorKey]
    · rw [if_neg hk]
      simp [hk, Store.addQuality]
  rw [derive_eq, finish_visitors]
  unfold beforeSession
  rw [Store.touchLinked_visitors]
  unfold Store.afterVisitor Store.countVisitor
  by_cases hk : k = a.visitorKey
  · subst hk
    have hself := hbefore a.visitorKey
    rw [if_pos rfl] at hself
    rw [if_pos rfl]
    refine (Table.lookup_upsert_self _ _ _ _).trans ?_
    show some (Option.elim (AList.lookup a.visitorKey _) _ _) = _
    rw [hself]
    unfold insertedUser
    rw [← hlinked]
    rfl
  · rw [if_neg hk, ← (if_neg hk : (if k = a.visitorKey then a.shownVisitor s
      else s.visitors.lookup k) = s.visitors.lookup k), ← hbefore k]
    exact Table.lookup_upsert_of_ne hk _ _ _

/-- The user handed on is the one the visitor's row shows. -/
theorem canonical_eq :
    a.canonical s = (((a.derive s).visitors.lookup a.visitorKey).bind Visitor.userId).getD "" := by
  rw [derive_eq, finish_visitors]
  unfold beforeSession
  rw [Store.touchLinked_visitors]
  rfl

end Arrival

/-! ## §3. The visitor's row shows the linked user. -/

/-- **The identity invariant.** -/
structure IdentityShown (s : Store) : Prop where
  named : ∀ k i, s.visitorIdentities.lookup k = some i → i.userId ≠ ""
  shown : ∀ k v, s.visitors.lookup k = some v → v.userId = s.linkedUser k

theorem IdentityShown.initial (config : Config) : IdentityShown (Store.initial config) where
  named k i h := by simp [Store.initial] at h
  shown k v h := by simp [Store.initial] at h

namespace Arrival

variable (a : Arrival) {s : Store}

theorem linkedAfter_of_anonymous (h : a.context.userId = "") :
    a.linkedAfter s = s.linkedUser a.visitorKey := by
  simp [linkedAfter, linkedIdentity, h, Store.linkedUser]

theorem linkedAfter_of_identified (h : a.context.userId ≠ "") :
    a.linkedAfter s
      = some (match s.visitorIdentities.lookup a.visitorKey with
          | none => a.context.userId
          | some i => if i.lastSeen ≤ a.eventTime then a.context.userId else i.userId) := by
  unfold linkedAfter linkedIdentity
  rw [if_pos h]
  cases s.visitorIdentities.lookup a.visitorKey with
  | none => rfl
  | some i => rfl

theorem linkedAfter_named (hs : IdentityShown s) {u : String} (h : a.linkedAfter s = some u) :
    u ≠ "" := by
  by_cases huser : a.context.userId = ""
  · rw [a.linkedAfter_of_anonymous huser] at h
    unfold Store.linkedUser at h
    obtain ⟨i, hi, rfl⟩ := Option.map_eq_some_iff.mp h
    exact hs.named _ i hi
  · rw [a.linkedAfter_of_identified huser] at h
    cases hi : s.visitorIdentities.lookup a.visitorKey with
    | none =>
      simp only [hi, Option.some.injEq] at h
      exact h ▸ huser
    | some i =>
      simp only [hi, Option.some.injEq] at h
      rw [← h]
      split
      · exact huser
      · exact hs.named _ i hi

/-- The row of the event's visitor shows the linked user. -/
theorem derive_visitor_user (hs : IdentityShown s) :
    ((a.derive s).visitors.lookup a.visitorKey).bind Visitor.userId = a.linkedAfter s := by
  rw [a.derive_visitors, if_pos rfl]
  cases hlinked : a.linkedAfter s with
  | some u =>
    unfold insertedUser
    rw [hlinked]
    cases a.shownVisitor s with
    | none => rfl
    | some v => rfl
  | none =>
    have huser : a.context.userId = "" := by
      by_contra hne
      rw [a.linkedAfter_of_identified hne] at hlinked
      simp at hlinked
    have hnone := a.linkedAfter_of_anonymous (s := s) huser
    rw [hlinked] at hnone
    unfold insertedUser shownVisitor
    rw [hlinked]
    cases hv : s.visitors.lookup a.visitorKey with
    | none => simp [huser, nullIfEmpty]
    | some v => simp [huser, nullIfEmpty, hs.shown _ v hv, ← hnone]

/-- **The user handed on is the linked one.** -/
theorem canonical_eq_linked (hs : IdentityShown s) :
    a.canonical s = (a.linkedAfter s).getD "" := by
  rw [a.canonical_eq, a.derive_visitor_user hs]

theorem derive_linkedUser (k : VisitorKey) :
    (a.derive s).linkedUser k = if k = a.visitorKey then a.linkedAfter s else s.linkedUser k := by
  unfold Store.linkedUser
  rw [a.derive_visitorIdentities]
  by_cases hk : k = a.visitorKey
  · rw [if_pos hk, if_pos hk, Option.map_map]
    unfold linkedAfter
    congr 1
    funext i
    simp only [Function.comp_apply]
    split
    · rfl
    · rfl
  · rw [if_neg hk, if_neg hk]

theorem derive_identityShown (hs : IdentityShown s) : IdentityShown (a.derive s) where
  named k i h := by
    have huser : (a.derive s).linkedUser k = some i.userId := by
      unfold Store.linkedUser
      rw [h]
      rfl
    rw [a.derive_linkedUser] at huser
    by_cases hk : k = a.visitorKey
    · rw [if_pos hk] at huser
      exact a.linkedAfter_named hs huser
    · rw [if_neg hk] at huser
      obtain ⟨i', hi', heq⟩ := Option.map_eq_some_iff.mp huser
      rw [← heq]
      exact hs.named k i' hi'
  shown k v h := by
    rw [a.derive_linkedUser]
    by_cases hk : k = a.visitorKey
    · subst hk
      have huser := a.derive_visitor_user hs
      rw [h] at huser
      rw [if_pos rfl]
      exact huser
    · rw [if_neg hk]
      rw [a.derive_visitors, if_neg hk] at h
      exact hs.shown k v h

theorem store_identityShown (h : ¬a.Known s) (hs : IdentityShown s) :
    IdentityShown (a.store s h) :=
  a.derive_identityShown (s := { s with rawEvents := s.rawEvents.insert a.row h })
    ⟨hs.named, hs.shown⟩

end Arrival

end Momento
