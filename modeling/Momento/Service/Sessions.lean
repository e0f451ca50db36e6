/-
  Momento.Service.Sessions

  **ONE SESSION'S ROW AND ONE SESSION'S EVENTS.**  The stored event goes to the
  head of its session's group of raw events and touches its session's row; every
  other group and row stays.  The two facts both comparisons with the rebuild
  need are proved here: a row exists exactly where the group is not empty, and
  its time span is the group's (`SessionTimes`).
-/
import Momento.Service.Identity

namespace Momento

open Foundation

/-! ## §1. Groups. -/

/-- The raw events of a session, newest insertion first. -/
def Store.sessionGroup (s : Store) (k : SessionKey) : List RawEvent :=
  Table.groupOf RawEvent.sessionKey s.rawEvents.rows k

namespace Arrival

variable (a : Arrival) (s : Store)

theorem store_sessionGroup (h : ¬a.Known s) (k : SessionKey) :
    (a.store s h).sessionGroup k
      = if k = a.sessionKey then a.newRow s :: s.sessionGroup k else s.sessionGroup k := by
  unfold Store.sessionGroup
  rw [a.store_rows s h, Table.groupOf_cons]
  by_cases hk : k = a.sessionKey
  · subst hk
    rw [if_pos rfl, if_pos (by rfl)]
  · rw [if_neg hk, if_neg (fun h' => hk (h'.symm.trans rfl))]

/-- The user handed on does not depend on the raw events. -/
theorem canonical_insert (rawEvents : RawEvents) :
    a.canonical { s with rawEvents := rawEvents } = a.canonical s := by
  rw [a.canonical_eq, a.canonical_eq, a.derive_visitors, a.derive_visitors, if_pos rfl, if_pos rfl]
  rfl

/-- **The sessions after the event.** -/
theorem store_sessions (h : ¬a.Known s) (k : SessionKey) :
    (a.store s h).sessions.lookup k
      = if k = a.sessionKey then
          some ((s.sessions.lookup k).elim
            ((a.touch s).insert (s.config.threshold a.context.siteId))
            ((a.touch s).update (s.config.threshold a.context.siteId)))
        else s.sessions.lookup k := by
  have htouch : a.touch { s with rawEvents := s.rawEvents.insert a.row h } = a.touch s := by
    unfold touch
    rw [a.canonical_insert]
  unfold store
  rw [derive_sessions, htouch]
  by_cases hk : k = a.sessionKey
  · subst hk
    rw [if_pos rfl]
    exact Table.lookup_upsert_self _ _ _ _
  · rw [if_neg hk]
    exact Table.lookup_upsert_of_ne hk _ _ _

end Arrival

theorem mem_rows_of_mem_group {s : Store} {k : SessionKey} {r : RawEvent}
    (h : r ∈ s.sessionGroup k) : r ∈ s.rawEvents.rows :=
  List.mem_of_mem_filter h

/-! ## §2. The rebuilt row of a session. -/

/-- **What the rebuild answers for a session**: the row of its group. -/
theorem lookup_rebuildSessions (s : Store) (k : SessionKey) :
    (rebuildSessions k.siteId s).lookup k
      = if s.sessionGroup k = [] then none
        else some (rebuildSessionRow (s.config.threshold k.siteId) (s.sessionGroup k)) := by
  unfold rebuildSessions
  rw [Table.lookup_groupRows, groupOf_siteRows fun r hr => congrArg SessionKey.siteId hr]
  rfl

/-! ## §3. The time span. -/

/-- **The span invariant.** -/
structure SessionTimes (s : Store) : Prop where
  started : ∀ k, (s.sessions.lookup k).map Session.startedAt = firstTime (s.sessionGroup k)
  lastEvent : ∀ k, (s.sessions.lookup k).map Session.lastEventAt = lastTime (s.sessionGroup k)

theorem SessionTimes.initial (config : Config) : SessionTimes (Store.initial config) where
  started _ := rfl
  lastEvent _ := rfl

/-- A session has a row exactly when it has events. -/
theorem SessionTimes.lookup_eq_none {s : Store} (hs : SessionTimes s) (k : SessionKey) :
    s.sessions.lookup k = none ↔ s.sessionGroup k = [] := by
  have hfirst : firstTime (s.sessionGroup k) = none ↔ s.sessionGroup k = [] := minTime_eq_none_iff
  rw [← hfirst, ← hs.started k, Option.map_eq_none_iff]

theorem Arrival.store_sessionTimes (a : Arrival) {s : Store} (h : ¬a.Known s)
    (hs : SessionTimes s) : SessionTimes (a.store s h) where
  started k := by
    rw [a.store_sessions, a.store_sessionGroup]
    by_cases hk : k = a.sessionKey
    · rw [if_pos hk, if_pos hk]
      exact minTime_upsert (hs.started k) rfl (fun _ => rfl)
    · rw [if_neg hk, if_neg hk]
      exact hs.started k
  lastEvent k := by
    rw [a.store_sessions, a.store_sessionGroup]
    by_cases hk : k = a.sessionKey
    · rw [if_pos hk, if_pos hk]
      exact maxTime_upsert (hs.lastEvent k) rfl (fun _ => rfl)
    · rw [if_neg hk, if_neg hk]
      exact hs.lastEvent k

end Momento
