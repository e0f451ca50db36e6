/-
  Momento.Reports.FirstSeen

  **WHO IS NEW.**  `FirstSeenCTE` asks the daily rollup when a person was first seen in
  an environment: one row per visitor and day, where the view `analytics_events` has one
  per event.  The two meet in two facts that hold of every site after any course of
  jobs, rebuilds, erasures and changes of its settings in which nothing expires
  (`RolledUp`): a row's `first_seen` is the least time of its own events, and a row or
  an event that shows a user is of a visitor who is linked to one.
-/
import Mathlib.Order.Bounds.Basic
import Momento.Foundation.EveryRow
import Momento.Reports.AnalyticsEvents
import Momento.Service.RetentionClosure

namespace Momento.Reports

open Foundation Momento.Rollup

/-! ## §1. The report. -/

section Report
variable (s : Store) (siteId : Uuid) (environment : String) (before : Instant)

/-- `daily_site_visitors d LEFT JOIN visitor_identities i … WHERE …`: the person of each
row, and `d.first_seen`. -/
def seenDays : List (String × Instant) :=
  (s.dailySiteVisitors.entries.filter fun d =>
    d.1.day.siteId = siteId ∧ d.1.day.environment = environment ∧ d.2.firstSeen < before).map fun d =>
      (entityId (canonicalUser s.visitorIdentities d.1.day.siteId d.1.visitorId d.2.userId) d.1.visitorId,
        d.2.firstSeen)

/-- `FirstSeenCTE`: `min(d.first_seen) … GROUP BY 1`. -/
def firstSeenCTE : Table String Instant :=
  Table.groupRows Prod.fst (fun _ rows => (minTime Prod.snd rows).getD 0) (seenDays s siteId environment before)

/-- The times of a person's events in an environment. -/
def eventTimes (entity : String) : Set Instant :=
  {t | ∃ e ∈ analyticsEvents s, e.siteId = siteId ∧ e.environment = environment ∧ e.entityId = entity
    ∧ e.eventTimestamp = t}

/-- The times the report has of a person. -/
def rowTimes (entity : String) : Set Instant := {t | (entity, t) ∈ seenDays s siteId environment before}

/-- The report gives the least of the times it has. -/
theorem lookup_firstSeenCTE_iff (entity : String) (first : Instant) :
    (firstSeenCTE s siteId environment before).lookup entity = some first
      ↔ IsLeast (rowTimes s siteId environment before entity) first := by
  have hgroup : ∀ t, (entity, t) ∈ Table.groupOf Prod.fst (seenDays s siteId environment before) entity
      ↔ t ∈ rowTimes s siteId environment before entity := by
    intro t
    constructor
    · intro h
      exact (List.mem_filter.mp h).1
    · intro h
      exact List.mem_filter.mpr ⟨h, decide_eq_true rfl⟩
  have hentity : ∀ row ∈ Table.groupOf Prod.fst (seenDays s siteId environment before) entity,
      row = (entity, row.2) := by
    intro row hrow
    rw [← (Table.mem_groupOf hrow).2]
  unfold firstSeenCTE
  rw [Table.lookup_groupRows]
  cases hmin : minTime Prod.snd (Table.groupOf Prod.fst (seenDays s siteId environment before) entity) with
  | none =>
    have hnil := minTime_eq_none_iff.mp hmin
    rw [if_pos hnil]
    constructor
    · intro h
      cases h
    · intro h
      have hmem := (hgroup first).mpr h.1
      rw [hnil] at hmem
      exact absurd hmem List.not_mem_nil
  | some m =>
    obtain ⟨row, hrow, hm⟩ := minTime_mem hmin
    have hleast : IsLeast (rowTimes s siteId environment before entity) m := by
      constructor
      · rw [← hgroup, ← hm, ← hentity row hrow]
        exact hrow
      · intro t ht
        exact minTime_le hmin _ ((hgroup t).mpr ht)
    rw [if_neg (List.ne_nil_of_mem hrow), Option.getD_some, Option.some_inj]
    constructor
    · intro h
      rw [← h]
      exact hleast
    · intro h
      exact hleast.unique h

theorem mem_rowTimes_iff {entity : String} {t : Instant} :
    t ∈ rowTimes s siteId environment before entity
      ↔ ∃ k d, s.dailySiteVisitors.lookup k = some d ∧ k.day.siteId = siteId
        ∧ k.day.environment = environment ∧ d.firstSeen < before
        ∧ entityId (canonicalUser s.visitorIdentities k.day.siteId k.visitorId d.userId) k.visitorId = entity
        ∧ d.firstSeen = t := by
  show (entity, t) ∈ (s.dailySiteVisitors.entries.filter _).map _ ↔ _
  rw [List.mem_map]
  constructor
  · rintro ⟨d, hd, heq⟩
    obtain ⟨hmem, hwhere⟩ := List.mem_filter.mp hd
    obtain ⟨hsite, henvironment, hbefore⟩ := of_decide_eq_true hwhere
    exact ⟨d.1, d.2, AList.mem_lookup_iff.mpr hmem, hsite, henvironment, hbefore, congrArg Prod.fst heq,
      congrArg Prod.snd heq⟩
  · rintro ⟨k, d, hd, hsite, henvironment, hbefore, hentity, ht⟩
    exact ⟨⟨k, d⟩, List.mem_filter.mpr ⟨AList.mem_lookup_iff.mp hd,
      decide_eq_true ⟨hsite, henvironment, hbefore⟩⟩, Prod.ext hentity ht⟩

end Report

/-! ## §2. What ties the rollup to the events. -/

/-- The raw events of a visitor's local date and environment. -/
def dayVisitorGroup (env : Platform) (s : Store) (k : DayVisitorKey) : List RawEvent :=
  (s.dayGroup env k.day).filter fun r => r.visitorId = k.visitorId

/-- The visitor of a daily row. -/
def visitorOf (k : DayVisitorKey) : VisitorKey := ⟨k.day.siteId, k.visitorId⟩

/-- **A visitor of the site who shows a user is linked to one.** -/
structure Linked (siteId : Uuid) (s : Store) : Prop where
  site : ∀ r ∈ s.rawEvents.rows, r.siteId = siteId → (zoneOf s siteId).isSome = true
  events : ∀ r ∈ s.rawEvents.rows, r.siteId = siteId → r.userId ≠ none → r.visitorKey ∈ s.visitorIdentities
  visitors : ∀ k v, k.siteId = siteId → s.visitors.lookup k = some v → v.userId ≠ none →
    k ∈ s.visitorIdentities

/-- **The rollup of a site is that of its events.** -/
structure RolledUp (env : Platform) (siteId : Uuid) (s : Store) : Prop extends Linked siteId s where
  days : ∀ k : DayVisitorKey, k.day.siteId = siteId →
    (s.dailySiteVisitors.lookup k).map DailyVisitor.firstSeen = firstTime (dayVisitorGroup env s k)
  users : ∀ (k : DayVisitorKey) d, k.day.siteId = siteId → s.dailySiteVisitors.lookup k = some d →
    d.userId ≠ none → visitorOf k ∈ s.visitorIdentities

theorem RolledUp.initial (env : Platform) (config : Config) (siteId : Uuid) :
    RolledUp env siteId (Store.initial config) where
  site r hr := absurd hr List.not_mem_nil
  events r hr := absurd hr List.not_mem_nil
  visitors k v _ hv := by cases hv
  days k _ := by
    have hgroup : dayVisitorGroup env (Store.initial config) k = [] := by
      unfold dayVisitorGroup Store.dayGroup
      cases (Store.initial config).config.sites.lookup k.day.siteId with
      | none => rfl
      | some site => rfl
    rw [hgroup]
    rfl
  users k d _ hd := by cases hd

section Frame
variable {env : Platform} {siteId : Uuid} {s s' : Store}

theorem mem_dayVisitorGroup {k : DayVisitorKey} {r : RawEvent} (h : r ∈ dayVisitorGroup env s k) :
    r ∈ s.rawEvents.rows ∧ r.visitorKey = visitorOf k ∧ r.environment = k.day.environment := by
  unfold dayVisitorGroup Store.dayGroup at h
  obtain ⟨hgroup, hvisitor⟩ := List.mem_filter.mp h
  cases hsite : s.config.sites.lookup k.day.siteId with
  | none =>
    rw [hsite] at hgroup
    cases hgroup
  | some site =>
    rw [hsite] at hgroup
    obtain ⟨hmem, hday⟩ := Table.mem_groupOf hgroup
    have hid : r.visitorId = k.visitorId := of_decide_eq_true hvisitor
    refine ⟨hmem, ?_, congrArg DayKey.environment hday⟩
    unfold RawEvent.visitorKey visitorOf
    rw [hid, ← hday]
    rfl

/-- The rows of the site decide the invariant. -/
theorem dayVisitorGroup_congr (hzone : zoneOf s' siteId = zoneOf s siteId)
    (hrows : siteRows siteId s'.rawEvents.rows = siteRows siteId s.rawEvents.rows) {k : DayVisitorKey}
    (hk : k.day.siteId = siteId) : dayVisitorGroup env s' k = dayVisitorGroup env s k := by
  have hgroup : ∀ t : Store, t.dayGroup env k.day = (zoneOf t siteId).elim [] fun timezone =>
      Table.groupOf (RawEvent.dayKey env timezone) (siteRows siteId t.rawEvents.rows) k.day := by
    intro t
    unfold Store.dayGroup zoneOf
    rw [hk]
    cases t.config.sites.lookup siteId with
    | none => rfl
    | some site =>
      refine (groupOf_siteRows fun r hr => ?_).symm
      rw [← hk, ← hr]
      rfl
  unfold dayVisitorGroup
  rw [hgroup, hgroup, hzone, hrows]

theorem RolledUp.of_sameAt (inbox : Table Nat InboxRow) (deadLetters : List DeadLetter)
    (hs : RolledUp env siteId s)
    (h : Database.SameAt siteId ⟨s, inbox, deadLetters⟩ ⟨s', inbox, deadLetters⟩) : RolledUp env siteId s' := by
  have hrows : siteRows siteId s'.rawEvents.rows = siteRows siteId s.rawEvents.rows := h.rawEvents
  have hmem : ∀ r ∈ s'.rawEvents.rows, r.siteId = siteId → r ∈ s.rawEvents.rows := by
    intro r hr hsite
    have hin : r ∈ siteRows siteId s'.rawEvents.rows := List.mem_filter.mpr ⟨hr, decide_eq_true hsite⟩
    rw [hrows] at hin
    exact (List.mem_filter.mp hin).1
  have hlinked : ∀ k, k.siteId = siteId → k ∈ s.visitorIdentities → k ∈ s'.visitorIdentities := by
    intro k hk hold
    rw [← AList.lookup_isSome] at hold ⊢
    rw [h.visitorIdentities k hk]
    exact hold
  have hzone : zoneOf s' siteId = zoneOf s siteId := congrArg _ h.site
  refine { site := ?_, events := ?_, visitors := ?_, days := ?_, users := ?_ }
  · intro r hr hsite
    rw [hzone]
    exact hs.site r (hmem r hr hsite) hsite
  · intro r hr hsite huser
    exact hlinked r.visitorKey hsite (hs.events r (hmem r hr hsite) hsite huser)
  · intro k v hk hv huser
    exact hlinked k hk (hs.visitors k v hk ((h.visitors k hk).symm.trans hv) huser)
  · intro k hk
    rw [dayVisitorGroup_congr hzone hrows hk]
    exact (congrArg _ (h.dailySiteVisitors k hk)).trans (hs.days k hk)
  · intro k d hk hd huser
    exact hlinked _ hk (hs.users k d hk ((h.dailySiteVisitors k hk).symm.trans hd) huser)

end Frame

/-! ## §3. An event. -/

section Event
variable (a : Arrival) {s : Store}

/-- The visitors who are linked after an event: its own, if it names a user. -/
theorem store_mem_identities (h : ¬a.Known s) (k : VisitorKey) :
    k ∈ (a.store s h).visitorIdentities
      ↔ k ∈ s.visitorIdentities ∨ (k = a.visitorKey ∧ a.context.userId ≠ "") := by
  rw [← AList.lookup_isSome, ← AList.lookup_isSome, a.store_visitorIdentities, a.derive_visitorIdentities]
  by_cases hk : k = a.visitorKey
  · rw [if_pos hk, Option.isSome_map]
    unfold Arrival.linkedIdentity
    by_cases huser : a.context.userId = ""
    · rw [if_neg (not_not.mpr huser), hk]
      simp [huser]
    · rw [if_pos huser]
      simp [huser, hk]
  · simp [hk]

/-- A visitor's row that shows a user is of a linked visitor, also after the event. -/
theorem derive_visitor_linked (hold : ∀ v, s.visitors.lookup a.visitorKey = some v → v.userId ≠ none →
      a.visitorKey ∈ s.visitorIdentities)
    (hshown : ((a.derive s).visitors.lookup a.visitorKey).bind Visitor.userId ≠ none) :
    a.visitorKey ∈ s.visitorIdentities ∨ a.context.userId ≠ "" := by
  by_contra hnot
  obtain ⟨hnone, huser⟩ := not_or.mp hnot
  have huser : a.context.userId = "" := not_not.mp huser
  have hlookup : s.visitorIdentities.lookup a.visitorKey = none := AList.lookup_eq_none.mpr hnone
  have hlinked : a.linkedAfter s = none := by
    rw [a.linkedAfter_of_anonymous huser]
    unfold Store.linkedUser
    rw [hlookup]
    rfl
  apply hshown
  rw [a.derive_visitors, if_pos rfl]
  unfold Arrival.insertedUser Arrival.shownVisitor
  rw [hlinked]
  cases hv : s.visitors.lookup a.visitorKey with
  | none => simp [huser, nullIfEmpty]
  | some v =>
    have hanonymous : v.userId = none := by
      by_contra hsome
      exact hnone (hold v hv hsome)
    simp [huser, nullIfEmpty, hanonymous]

/-- The daily row an event counts in. -/
def visitorDay : DayVisitorKey := ⟨a.day, a.context.request.visitorId⟩

/-- **`daily_site_visitors` after an event**: rows of its visitor may be shown under
another user if it names one, and then its own row takes it in. -/
theorem store_dailySiteVisitors (h : ¬a.Known s) : ∃ user : Option String, ∀ k,
    (a.store s h).dailySiteVisitors.lookup k
      = let shown := (s.dailySiteVisitors.lookup k).map fun v =>
          if a.context.userId ≠ "" ∧ visitorOf k = a.visitorKey then { v with userId := user.or v.userId } else v
        let userId := nullIfEmpty (a.canonical { s with rawEvents := s.rawEvents.insert a.row h })
        if k = visitorDay a then
          some (shown.elim ⟨userId, a.eventTime, a.eventTime, 1, a.conversion.toNat, a.context.userProperties⟩
            fun v =>
              { userId := userId.or v.userId
                firstSeen := min v.firstSeen a.eventTime
                lastSeen := max v.lastSeen a.eventTime
                eventCount := v.eventCount + 1
                conversionCount := v.conversionCount + a.conversion.toNat
                userProperties :=
                  if a.context.userProperties ≠ [] ∧ v.lastSeen ≤ a.eventTime then a.context.userProperties
                  else v.userProperties })
        else shown := by
  obtain ⟨jobs, values, hshape⟩ := Store.beforeVisitor_shape a.context a.event a.eventTime a.unreported
    { s with rawEvents := s.rawEvents.insert a.row h }
  have hlinked : ∀ t : Store, (t.touchLinked a.visitorKey
      (a.canonical { s with rawEvents := s.rawEvents.insert a.row h }) a.context.userProperties
      a.eventTime).dailySiteVisitors = t.dailySiteVisitors := by
    intro t
    unfold Store.touchLinked
    split
    · rfl
    · rfl
  have hidentify : ∀ t : Store, t.dailySiteVisitors = s.dailySiteVisitors → ∃ user : Option String, ∀ k,
      (t.identify a.visitorKey a.context.userId a.eventTime).dailySiteVisitors.lookup k
        = (s.dailySiteVisitors.lookup k).map fun v =>
          if a.context.userId ≠ "" ∧ visitorOf k = a.visitorKey then { v with userId := user.or v.userId }
          else v := by
    intro t ht
    unfold Store.identify
    by_cases huser : a.context.userId = ""
    · refine ⟨none, fun k => ?_⟩
      simp [huser, ht]
    · rw [if_pos huser]
      refine ⟨(((t.linkIdentity a.visitorKey a.context.userId a.eventTime).exposeInVisitors
        a.visitorKey).exposeInVisitorSessions a.visitorKey).linkedUser a.visitorKey, fun k => ?_⟩
      refine (Table.lookup_modifyRows _ _ k).trans ?_
      show (t.dailySiteVisitors.lookup k).map _ = _
      rw [ht]
      congr 1
      funext v
      have hkey : (k.day.siteId = a.visitorKey.siteId ∧ k.visitorId = a.visitorKey.visitorId)
          ↔ a.context.userId ≠ "" ∧ visitorOf k = a.visitorKey := by
        rw [VisitorKey.mk.injEq]
        exact ⟨fun h => ⟨huser, h⟩, fun h => h.2⟩
      exact if_congr hkey rfl rfl
  obtain ⟨user, hbefore⟩ := hidentify
    { s.addQuality ⟨dayOf a.context a.eventTime, a.event.name⟩
        (acceptedQuality a.context a.event a.eventTime a.unreported) with
      rawEvents := s.rawEvents.insert a.row h, aggregateJobs := jobs, dimensionValues := values } rfl
  refine ⟨user, fun k => ?_⟩
  have hrow : (a.beforeSession { s with rawEvents := s.rawEvents.insert a.row h }).dailySiteVisitors.lookup k
      = (s.dailySiteVisitors.lookup k).map fun v =>
        if a.context.userId ≠ "" ∧ visitorOf k = a.visitorKey then { v with userId := user.or v.userId } else v := by
    rw [← hbefore k]
    unfold Arrival.beforeSession
    rw [hlinked]
    show (Store.beforeVisitor a.context a.event a.eventTime a.unreported _).dailySiteVisitors.lookup k = _
    rw [hshape]
    rfl
  unfold Arrival.store
  rw [a.derive_eq]
  show ((a.beforeSession { s with rawEvents := s.rawEvents.insert a.row h }).dailySiteVisitors.upsert
    (visitorDay a) _ _).lookup k = _
  by_cases hk : k = visitorDay a
  · rw [if_pos hk, ← hrow, hk]
    exact Table.lookup_upsert_self _ _ _ _
  · rw [if_neg hk, Table.lookup_upsert_of_ne hk, hrow]

variable {env : Platform} {siteId : Uuid}

theorem store_dayVisitorGroup (harrives : Arrives env a s) (h : ¬a.Known s) (k : DayVisitorKey) :
    dayVisitorGroup env (a.store s h) k
      = if k = visitorDay a then a.newRow s :: dayVisitorGroup env s k else dayVisitorGroup env s k := by
  unfold dayVisitorGroup
  rw [a.store_dayGroup harrives h]
  by_cases hday : k.day = a.day
  · rw [if_pos hday, List.filter_cons]
    show (if decide (a.context.request.visitorId = k.visitorId) = true then _ else _) = _
    by_cases hvisitor : a.context.request.visitorId = k.visitorId
    · have hk : k = visitorDay a := by
        unfold visitorDay
        rw [← hday, hvisitor]
      rw [if_pos (decide_eq_true hvisitor), if_pos hk]
    · have hk : k ≠ visitorDay a := by
        intro heq
        rw [heq] at hvisitor
        exact hvisitor rfl
      rw [if_neg (by simpa using hvisitor), if_neg hk]
  · have hk : k ≠ visitorDay a := by
      intro heq
      rw [heq] at hday
      exact hday rfl
    rw [if_neg hday, if_neg hk]

/-- The settings of the site were read, so the site is there. -/
theorem site_of_arrives (harrives : Arrives env a s) : (zoneOf s a.context.siteId).isSome = true := by
  have hset := harrives.settings
  unfold siteSettings at hset
  unfold zoneOf
  cases hsite : s.config.sites.lookup a.context.siteId with
  | none => simp [hsite] at hset
  | some site => rfl

/-- The daily row of an event's own visitor shows a user only if the visitor is linked. -/
theorem canonical_linked (hs : Linked a.visitorKey.siteId s) (h : ¬a.Known s)
    (huser : nullIfEmpty (a.canonical { s with rawEvents := s.rawEvents.insert a.row h }) ≠ none) :
    a.visitorKey ∈ (a.store s h).visitorIdentities := by
  rw [store_mem_identities]
  refine (derive_visitor_linked a (fun v hv => hs.visitors a.visitorKey v rfl hv) ?_).imp (fun h => h)
    fun h => ⟨rfl, h⟩
  intro hnone
  apply huser
  rw [a.canonical_insert, a.canonical_eq, hnone]
  rfl

/-- **One stored event keeps the rollup of every site that of its events.** -/
theorem rolledUp_store (harrives : Arrives env a s) (h : ¬a.Known s) (hs : ∀ siteId, RolledUp env siteId s) :
    RolledUp env siteId (a.store s h) := by
  have hconfig : (a.store s h).config = s.config := a.derive_config _
  have hlinked : ∀ k, k ∈ s.visitorIdentities → k ∈ (a.store s h).visitorIdentities := by
    intro k hk
    exact (store_mem_identities a h k).mpr (Or.inl hk)
  obtain ⟨user, hrows⟩ := store_dailySiteVisitors a h
  refine { site := ?_, events := ?_, visitors := ?_, days := ?_, users := ?_ }
  · intro r hr hsite
    unfold zoneOf
    rw [hconfig]
    rw [a.store_rows] at hr
    cases List.mem_cons.mp hr with
    | inl hnew =>
      rw [← hsite, hnew]
      exact site_of_arrives a harrives
    | inr hold => exact (hs siteId).site r hold hsite
  · intro r hr hsite huser
    rw [a.store_rows] at hr
    cases List.mem_cons.mp hr with
    | inl hnew =>
      rw [store_mem_identities]
      right
      rw [hnew] at huser ⊢
      refine ⟨rfl, fun hempty => huser ?_⟩
      show nullIfEmpty a.context.userId = none
      rw [hempty]
      rfl
    | inr hold => exact hlinked _ ((hs siteId).events r hold hsite huser)
  · intro k v hk hv huser
    rw [a.store_visitors] at hv
    by_cases hown : k = a.visitorKey
    · subst hown
      rw [store_mem_identities]
      refine (derive_visitor_linked a (fun v hv => (hs siteId).visitors a.visitorKey v hk hv) ?_).imp
        (fun h => h) fun h => ⟨rfl, h⟩
      rw [hv]
      exact huser
    · rw [a.derive_visitors, if_neg hown] at hv
      exact hlinked k ((hs siteId).visitors k v hk hv huser)
  · intro k hk
    rw [hrows k, store_dayVisitorGroup a harrives h]
    -- showing a user leaves the times
    have hshown : ((s.dailySiteVisitors.lookup k).map fun v =>
        if a.context.userId ≠ "" ∧ visitorOf k = a.visitorKey then { v with userId := user.or v.userId }
        else v).map DailyVisitor.firstSeen = firstTime (dayVisitorGroup env s k) := by
      rw [← (hs siteId).days k hk, Option.map_map]
      congr 1
      funext v
      simp only [Function.comp_apply]
      split
      · rfl
      · rfl
    by_cases hown : k = visitorDay a
    · dsimp only
      rw [if_pos hown, if_pos hown]
      exact minTime_upsert hshown rfl fun _ => rfl
    · dsimp only
      rw [if_neg hown, if_neg hown]
      exact hshown
  · intro k d hk hd huser
    rw [hrows k] at hd
    dsimp only at hd
    have hown : k = visitorDay a → visitorOf k = a.visitorKey := by
      intro h
      rw [h]
      rfl
    have hshown : ∀ v, ((s.dailySiteVisitors.lookup k).map fun v =>
        if a.context.userId ≠ "" ∧ visitorOf k = a.visitorKey then { v with userId := user.or v.userId }
        else v) = some v → v.userId ≠ none → visitorOf k ∈ (a.store s h).visitorIdentities := by
      intro v hv hsome
      obtain ⟨old, hold, hshow⟩ := Option.map_eq_some_iff.mp hv
      by_cases hnamed : a.context.userId ≠ "" ∧ visitorOf k = a.visitorKey
      · exact (store_mem_identities a h _).mpr (Or.inr ⟨hnamed.2, hnamed.1⟩)
      · rw [if_neg hnamed] at hshow
        rw [← hshow] at hsome
        exact hlinked _ ((hs siteId).users k old hk hold hsome)
    by_cases hday : k = visitorDay a
    · rw [if_pos hday] at hd
      by_cases hcanonical : nullIfEmpty (a.canonical { s with rawEvents := s.rawEvents.insert a.row h }) = none
      · -- no user is handed on, so the row keeps the one it shows
        cases hv : ((s.dailySiteVisitors.lookup k).map fun v =>
            if a.context.userId ≠ "" ∧ visitorOf k = a.visitorKey then { v with userId := user.or v.userId }
            else v) with
        | none =>
          rw [hv, hcanonical] at hd
          rw [← Option.some.inj hd] at huser
          exact absurd rfl huser
        | some v =>
          rw [hv, hcanonical] at hd
          rw [← Option.some.inj hd] at huser
          exact hshown v hv huser
      · rw [hown hday]
        exact canonical_linked a (hs _).toLinked h hcanonical
    · rw [if_neg hday] at hd
      exact hshown d hd huser

theorem rolledUp_job {s : Store} (j : Job) (hs : ∀ siteId, RolledUp env siteId s) (siteId : Uuid) :
    RolledUp env siteId (afterJob env s j) := by
  have hmeet : j.Succeeds env s → j.Meets env (fun _ _ => True) s :=
    fun _ _ _ _ _ _ => eventsMeet_of_forall _ fun _ _ => trivial
  refine afterJob_induction (I := fun s => ∀ siteId, RolledUp env siteId s) ?_ ?_ hmeet hs siteId
  · intro a s hnew harrives hs _ siteId
    exact rolledUp_store a harrives hnew hs
  · -- a duplicate touches the quality counters only
    intro s key hs siteId
    exact ⟨⟨(hs siteId).site, (hs siteId).events, (hs siteId).visitors⟩, (hs siteId).days, (hs siteId).users⟩

end Event

/-! ## §4. Rebuilds. -/

section Rebuild
variable {env : Platform} {siteId : Uuid} {s s' : Store}

/-- What a rebuild writes for a visitor's day. -/
def rebuiltDay (env : Platform) (s : Store) (k : DayVisitorKey) : Option DailyVisitor :=
  if dayVisitorGroup env s k = [] then none else some (rebuildDailyVisitorRow s (dayVisitorGroup env s k))

theorem dayVisitorGroup_eq {k : DayVisitorKey} {site : Site}
    (hsite : s.config.sites.lookup k.day.siteId = some site) : dayVisitorGroup env s k
      = Table.groupOf (RawEvent.dayVisitorKey env site.timezone) s.rawEvents.rows k := by
  unfold dayVisitorGroup Store.dayGroup
  rw [hsite, Option.elim_some]
  unfold Table.groupOf
  rw [List.filter_filter]
  refine List.filter_congr fun r _ => ?_
  rw [← Bool.decide_and, decide_eq_decide]
  unfold RawEvent.dayVisitorKey
  rw [DayVisitorKey.mk.injEq]
  exact And.comm

theorem rebuildDailyVisitors_spec (k : DayVisitorKey) : (rebuildDailyVisitors env siteId s).lookup k
    = if coversSite siteId k.day = true then rebuiltDay env s k else none := by
  by_cases hk : k.day.siteId = siteId
  · rw [if_pos (show coversSite siteId k.day = true from decide_eq_true hk)]
    unfold rebuildDailyVisitors rebuiltDay
    cases hsite : s.config.sites.lookup siteId with
    | none =>
      have hnil : dayVisitorGroup env s k = [] := by
        unfold dayVisitorGroup Store.dayGroup
        rw [hk, hsite]
        rfl
      rw [if_pos hnil]
      rfl
    | some site =>
      rw [Option.elim_some, Table.lookup_groupRows, dayVisitorGroup_eq (hk ▸ hsite),
        groupOf_siteRows fun r hr => ?_]
      rw [← hk, ← hr]
      rfl
  · rw [if_neg (show ¬coversSite siteId k.day = true from by simpa [coversSite] using hk)]
    exact lookup_rebuildDailyVisitors_of_ne hk

theorem rebuildRangeDailyVisitors_spec {environment : String} {first last : Date} (k : DayVisitorKey) :
    (rebuildRangeDailyVisitors env siteId environment first last s).lookup k
      = if coversRange siteId environment first last k.day = true then rebuiltDay env s k else none := by
  have hfilter : ∀ site : Site, Table.groupOf (RawEvent.dayVisitorKey env site.timezone)
      (rangeRows env site.timezone siteId environment first last s.rawEvents.rows) k
      = if coversRange siteId environment first last k.day = true then
          Table.groupOf (RawEvent.dayVisitorKey env site.timezone) s.rawEvents.rows k
        else [] := by
    intro site
    by_cases hcovers : coversRange siteId environment first last k.day = true
    · rw [if_pos hcovers]
      obtain ⟨hsite, henvironment, hfirst, hlast⟩ := of_decide_eq_true hcovers
      unfold rangeRows
      rw [Table.groupOf_filter fun r hr => ?_, groupOf_siteRows fun r hr => ?_]
      · rw [← hsite, ← hr]
        rfl
      · have hday : r.dayKey env site.timezone = k.day := congrArg DayVisitorKey.day hr
        have henv : r.environment = k.day.environment := congrArg DayKey.environment hday
        rw [hday]
        exact decide_eq_true ⟨henv.trans henvironment, hfirst, hlast⟩
    · rw [if_neg hcovers]
      refine (Table.groupOf_eq_nil_iff _ _ _).mpr fun hmem => hcovers ?_
      obtain ⟨r, hr, hkey⟩ := List.mem_map.mp hmem
      obtain ⟨hsiteRow, hwhere⟩ := List.mem_filter.mp hr
      obtain ⟨henvironment, hfirst, hlast⟩ := of_decide_eq_true hwhere
      have hday : r.dayKey env site.timezone = k.day := congrArg DayVisitorKey.day hkey
      have hsite : r.siteId = siteId := of_decide_eq_true (List.mem_filter.mp hsiteRow).2
      rw [hday] at hfirst hlast
      refine decide_eq_true ⟨?_, ?_, hfirst, hlast⟩
      · rw [← hday]
        exact hsite
      · rw [← hday]
        exact henvironment
  unfold rebuildRangeDailyVisitors rebuiltDay
  cases hsite : s.config.sites.lookup siteId with
  | none =>
    have hnone : (if coversRange siteId environment first last k.day = true then
        (if dayVisitorGroup env s k = [] then none
        else some (rebuildDailyVisitorRow s (dayVisitorGroup env s k))) else none) = none := by
      by_cases hcovers : coversRange siteId environment first last k.day = true
      · have hnil : dayVisitorGroup env s k = [] := by
          unfold dayVisitorGroup Store.dayGroup
          rw [(of_decide_eq_true hcovers).1, hsite]
          rfl
        rw [if_pos hcovers, if_pos hnil]
      · rw [if_neg hcovers]
    rw [hnone]
    rfl
  | some site =>
    rw [Option.elim_some, Table.lookup_groupRows, hfilter site]
    by_cases hcovers : coversRange siteId environment first last k.day = true
    · have hk : k.day.siteId = siteId := (of_decide_eq_true hcovers).1
      rw [if_pos hcovers, if_pos hcovers, dayVisitorGroup_eq (hk ▸ hsite)]
    · rw [if_neg hcovers, if_neg hcovers, if_pos rfl]

/-- A rebuilt row is first seen at its group's least time, and shows a user only of a
linked visitor. -/
theorem rebuiltDay_firstSeen (k : DayVisitorKey) :
    (rebuiltDay env s k).map DailyVisitor.firstSeen = firstTime (dayVisitorGroup env s k) := by
  unfold rebuiltDay
  cases hfirst : firstTime (dayVisitorGroup env s k) with
  | none =>
    rw [if_pos (minTime_eq_none_iff.mp hfirst)]
    rfl
  | some t =>
    obtain ⟨r, hr, -⟩ := minTime_mem hfirst
    rw [if_neg (List.ne_nil_of_mem hr), Option.map_some]
    show some ((firstTime (dayVisitorGroup env s k)).getD 0) = _
    rw [hfirst]
    rfl

theorem rebuiltDay_linked (hs : Linked siteId s) {k : DayVisitorKey} {d : DailyVisitor} (hk : k.day.siteId = siteId)
    (hd : rebuiltDay env s k = some d) (huser : d.userId ≠ none) : visitorOf k ∈ s.visitorIdentities := by
  unfold rebuiltDay at hd
  split at hd
  · cases hd
  rw [← Option.some.inj hd] at huser
  have hshown : ((dayVisitorGroup env s k).head?.bind (joinedUser s)).or
      (lastTouch RawEvent.userId (dayVisitorGroup env s k)) ≠ none := huser
  cases hjoined : (dayVisitorGroup env s k).head?.bind (joinedUser s) with
  | some u =>
    obtain ⟨r, hr, hu⟩ := Option.bind_eq_some_iff.mp hjoined
    obtain ⟨i, hi, -⟩ := Option.map_eq_some_iff.mp hu
    rw [← (mem_dayVisitorGroup (List.mem_of_mem_head? hr)).2.1]
    exact Retention.mem_of_lookup hi
  | none =>
    rw [hjoined, Option.none_or] at hshown
    obtain ⟨u, hu⟩ := Option.ne_none_iff_exists'.mp hshown
    obtain ⟨r, hr, hnamed⟩ := latest_mem hu
    obtain ⟨hmem, hkey, -⟩ := mem_dayVisitorGroup hr
    rw [← hkey]
    refine hs.events r hmem ?_ (by rw [hnamed]; exact Option.some_ne_none u)
    rw [← hk]
    exact congrArg VisitorKey.siteId hkey

/-- **A rebuild of days leaves the rollup that of the events**, where the rows it does
not cover were. -/
theorem rolledUp_replaceDaily {covers : DayKey → Bool} {metrics : Table DayKey DailyMetrics}
    {visitors : Table DayVisitorKey DailyVisitor} {sessions : Table DaySessionKey DailySession}
    (hs : Linked siteId s)
    (hvisitors : ∀ k, visitors.lookup k = if covers k.day = true then rebuiltDay env s k else none)
    (hothers : (∀ k : DayVisitorKey, k.day.siteId = siteId → covers k.day = true) ∨ RolledUp env siteId s) :
    RolledUp env siteId (s.replaceDaily covers metrics visitors sessions) := by
  have hlookup : ∀ k, (s.replaceDaily covers metrics visitors sessions).dailySiteVisitors.lookup k
      = if covers k.day = true then rebuiltDay env s k else s.dailySiteVisitors.lookup k := by
    intro k
    refine (Table.lookup_replaceRows s.dailySiteVisitors (fun k hk => ?_) k).trans ?_
    · rw [hvisitors, if_neg (by simp [hk])]
    · by_cases hk : covers k.day = true
      · rw [if_pos hk, if_pos hk, hvisitors, if_pos hk]
      · rw [if_neg hk, if_neg hk]
  refine { hs with site := hs.site, events := hs.events, visitors := hs.visitors, days := ?_, users := ?_ }
  · intro k hk
    show _ = firstTime (dayVisitorGroup env s k)
    rw [hlookup]
    by_cases hcovers : covers k.day = true
    · rw [if_pos hcovers]
      exact rebuiltDay_firstSeen k
    · rw [if_neg hcovers]
      cases hothers with
      | inl hall => exact absurd (hall k hk) hcovers
      | inr hold => exact hold.days k hk
  · intro k d hk hd huser
    rw [hlookup] at hd
    show visitorOf k ∈ s.visitorIdentities
    by_cases hcovers : covers k.day = true
    · rw [if_pos hcovers] at hd
      exact rebuiltDay_linked hs hk hd huser
    · rw [if_neg hcovers] at hd
      cases hothers with
      | inl hall => exact absurd (hall k hk) hcovers
      | inr hold => exact hold.users k d hk hd huser

theorem refill_identities (k : VisitorKey) :
    (s.refill siteId).visitorIdentities.lookup k
      = if k.siteId = siteId then rebuildIdentityRow (s.visitorGroup k) else s.visitorIdentities.lookup k := by
  show (Table.replaceRows (fun k => decide (k.siteId = siteId)) (rebuildIdentities siteId s)
    s.visitorIdentities).lookup k = _
  rw [Table.lookup_replaceRows s.visitorIdentities
    fun k hk => lookup_rebuildIdentities_of_ne (of_decide_eq_false hk)]
  by_cases hk : k.siteId = siteId
  · rw [if_pos (decide_eq_true hk), if_pos hk]
    unfold rebuildIdentities Store.visitorGroup
    rw [Table.lookup_filterMapRows, Table.lookup_groupRows, groupOf_siteRows fun r hr => ?_]
    · by_cases hnil : Table.groupOf RawEvent.visitorKey s.rawEvents.rows k = []
      · rw [if_pos hnil, hnil]
        rfl
      · rw [if_neg hnil]
        rfl
    · rw [← hk, ← hr]
      rfl
  · rw [if_neg (by simpa using hk), if_neg hk]

/-- A visitor one of whose events names a user is linked after the refill. -/
theorem mem_refill_identities {k : VisitorKey} {u : String} (hk : k.siteId = siteId)
    (hu : lastTouch RawEvent.userId (s.visitorGroup k) = some u) : k ∈ (s.refill siteId).visitorIdentities := by
  rw [← AList.lookup_isSome, refill_identities, if_pos hk]
  unfold rebuildIdentityRow
  rw [hu]
  rfl

/-- **The refill links the visitors of its site who show a user.** -/
theorem linked_refill (hsite : ∀ r ∈ s.rawEvents.rows, r.siteId = siteId →
      (zoneOf s siteId).isSome = true) : Linked siteId (s.refill siteId) where
  site := hsite
  events r hr hrsite huser := by
    cases hlast : lastTouch RawEvent.userId (s.visitorGroup r.visitorKey) with
    | some u => exact mem_refill_identities hrsite hlast
    | none =>
      -- the event itself names a user
      have hmem : r ∈ s.visitorGroup r.visitorKey := Table.mem_groupOf_self hr
      exact absurd (latestRow_eq_none_iff.mp (latest_eq_none_iff.mp hlast) r hmem) huser
  visitors k v hk hv huser := by
    rw [Retention.refill_visitors, if_pos hk] at hv
    by_cases hnil : s.visitorGroup k = []
    · rw [if_pos hnil] at hv
      cases hv
    · rw [if_neg hnil] at hv
      rw [← Option.some.inj hv] at huser
      obtain ⟨u, hu⟩ := Option.ne_none_iff_exists'.mp huser
      exact mem_refill_identities hk hu

theorem rolledUp_dailyAggregates (hs : Linked siteId s) (h : s.rebuildSiteDailyAggregates env siteId = .ok s') :
    RolledUp env siteId s' := by
  obtain ⟨metrics, -, rfl⟩ := replaced_of_daily h
  exact rolledUp_replaceDaily hs rebuildDailyVisitors_spec (Or.inl fun k hk => decide_eq_true hk)

theorem rolledUp_dateRange {environment : String} {first last : Date} {other : Uuid} (hs : RolledUp env other s)
    (h : s.rebuildEnvironmentDateRange env siteId environment first last = .ok s') : RolledUp env other s' := by
  obtain ⟨metrics, -, rfl⟩ := replaced_of_range h
  exact rolledUp_replaceDaily hs.toLinked rebuildRangeDailyVisitors_spec (Or.inr hs)

/-- **A rebuild of one site makes its rollup that of its events**, and leaves the
others'. -/
theorem rolledUp_derivedData (hsite : ∀ r ∈ s.rawEvents.rows, r.siteId = siteId →
      (zoneOf s siteId).isSome = true)
    (hothers : ∀ other, other ≠ siteId → RolledUp env other s)
    (h : s.rebuildSiteDerivedData env siteId = .ok s') (other : Uuid) : RolledUp env other s' := by
  by_cases hown : other = siteId
  · subst hown
    exact rolledUp_dailyAggregates (linked_refill hsite) h
  · exact (hothers other hown).of_sameAt ∅ [] (rebuildSiteDerivedData_sameAt s ∅ [] h hown)

end Rebuild

/-! ## §5. Histories. -/

/-- A retention pass finds nothing to delete. -/
def NothingExpires (h : History) : Rollup.Action → Prop
  | .sweep readings batch => h.store.drop readings batch = h.store
  | _ => True

section Steps
variable {env : Platform} {s s' : Store}

/-- New settings of a site that leave its time zone, or another site's. -/
theorem rolledUp_zone {siteId : Uuid} (hs : RolledUp env siteId s) (hzone : zoneOf s' siteId = zoneOf s siteId)
    (hrows : s'.rawEvents = s.rawEvents) (hvisitors : s'.visitors = s.visitors)
    (hidentities : s'.visitorIdentities = s.visitorIdentities)
    (hdays : s'.dailySiteVisitors = s.dailySiteVisitors) : RolledUp env siteId s' := by
  refine { site := ?_, events := ?_, visitors := ?_, days := ?_, users := ?_ }
  · rw [hrows, hzone]
    exact hs.site
  · rw [hrows, hidentities]
    exact hs.events
  · rw [hvisitors, hidentities]
    exact hs.visitors
  · intro k hk
    rw [hdays, dayVisitorGroup_congr hzone (congrArg (fun raw => siteRows siteId raw.rows) hrows) hk]
    exact hs.days k hk
  · rw [hdays, hidentities]
    exact hs.users

theorem rolledUp_updateSite {siteId : Uuid} {update : SiteUpdate} (hs : ∀ siteId, RolledUp env siteId s)
    (h : s.updateSite env siteId update = .ok s') (id : Uuid) : RolledUp env id s' := by
  obtain ⟨previous, site, hsite, hzone, ⟨-, hrebuild⟩ | ⟨hsame, rfl⟩⟩ := Store.ok_updateSite h
  · by_cases hid : id = siteId
    · -- the site's own days are rebuilt in its new time zone
      subst hid
      refine rolledUp_dailyAggregates ?_ hrebuild
      refine ⟨fun r hr hrsite => ?_, (hs id).events, (hs id).visitors⟩
      refine (congrArg Option.isSome (zoneOf_withSite id _ s id)).trans ?_
      rw [if_pos rfl, hsite]
      rfl
    · refine RolledUp.of_sameAt ∅ [] ?_ (rebuildSiteDailyAggregates_sameAt _ ∅ [] hrebuild hid)
      refine rolledUp_zone (hs id) ?_ rfl rfl rfl rfl
      refine (zoneOf_withSite siteId _ s id).trans ?_
      rw [if_neg hid]
  · exact rolledUp_zone (hs id) (Rollup.zoneOf_withSite_of_eq hsite (hsame.trans hzone.symm) id) rfl rfl rfl rfl

/-- The other sites lose no event to an erasure. -/
theorem siteRows_deleteSelected {siteId other : Uuid} (selection : Selection) (hother : other ≠ siteId) :
    siteRows other (s.deleteSelected siteId selection).rawEvents.rows = siteRows other s.rawEvents.rows := by
  show (s.rawEvents.rows.filter _).filter _ = s.rawEvents.rows.filter _
  rw [List.filter_filter]
  refine List.filter_congr fun r _ => ?_
  by_cases hr : r.siteId = other
  · have hne : r.siteId ≠ siteId := by rwa [hr]
    simp [hr, hother]
  · simp [hr]

theorem rolledUp_erase {siteId : Uuid} {selection : Selection} (hs : ∀ siteId, RolledUp env siteId s)
    (h : s.eraseEvents env siteId selection = .ok s') (id : Uuid) : RolledUp env id s' := by
  refine rolledUp_derivedData (s := s.deleteSelected siteId selection) ?_ ?_ h id
  · intro r hr
    exact (hs siteId).site r (List.mem_of_mem_filter hr)
  · intro other hother
    have hsame := Database.SameAt.refl other ⟨s, ∅, []⟩
    exact RolledUp.of_sameAt ∅ [] (hs other) { hsame with rawEvents := siteRows_deleteSelected selection hother }

/-- **One step keeps the rollups** those of the events, where nothing expires. -/
theorem rolledUp_step {h : History} {a : Rollup.Action} (hs : ∀ siteId, RolledUp env siteId h.store)
    (hexpires : NothingExpires h a) : ∀ siteId, RolledUp env siteId (h.step env a).store := by
  refine History.step_keeps (I := fun s => ∀ siteId, RolledUp env siteId s)
    (fun _ _ hs id => rolledUp_zone (hs id) rfl rfl rfl rfl rfl) (fun j _ hs => rolledUp_job j hs) ?_
    (fun _ _ siteId hs => rolledUp_derivedData (hs siteId).site fun other _ => hs other)
    (fun _ _ _ _ _ _ hs h id => rolledUp_dateRange (hs id) h) (fun _ _ _ _ => rolledUp_updateSite)
    (fun _ _ _ _ => rolledUp_erase) hs
  rintro readings batch rfl
  rw [show h.store.drop readings batch = h.store from hexpires]
  exact hs

/-- The rollups are those of the events in every state that is reached. -/
theorem rolledUp_run (config : Config) (actions : List Rollup.Action)
    (hexpires : Along (History.step env) NothingExpires (History.initial config) actions) (siteId : Uuid) :
    RolledUp env siteId (actions.foldl (History.step env) (History.initial config)).store :=
  along_induction (I := fun h : History => ∀ siteId, RolledUp env siteId h.store)
    (fun _ _ hs hexpires => rolledUp_step hs hexpires) actions (RolledUp.initial env config) hexpires siteId

end Steps

/-! ## §6. The report is its definition. -/

/-- The least of the times that lie before `b`, where the report has a time no later
for each of them. -/
theorem isLeast_iff_of_below {α : Type} [LinearOrder α] {S T : Set α} {b m : α}
    (hsub : ∀ t ∈ S, t ∈ T ∧ t < b) (hbelow : ∀ t ∈ T, t < b → ∃ t' ∈ S, t' ≤ t) :
    IsLeast S m ↔ (∃ t ∈ T, t < b) ∧ IsLeast T m := by
  constructor
  · intro h
    obtain ⟨hmem, hbefore⟩ := hsub m h.1
    refine ⟨⟨m, hmem, hbefore⟩, hmem, fun t ht => ?_⟩
    by_cases hlate : t < b
    · obtain ⟨t', ht', hle⟩ := hbelow t ht hlate
      exact (h.2 ht').trans hle
    · exact hbefore.le.trans (not_lt.mp hlate)
  · rintro ⟨⟨t, ht, hbefore⟩, hmem, hleast⟩
    obtain ⟨t', ht', hle⟩ := hbelow m hmem ((hleast ht).trans_lt hbefore)
    -- what the report has is a time of the events itself
    have heq : t' = m := le_antisymm hle (hleast (hsub t' ht').1)
    rw [heq] at ht'
    exact ⟨ht', fun t ht => hleast (hsub t ht).1⟩

section Definition
variable {env : Platform} {siteId : Uuid} {s : Store} {environment entity : String} {before : Instant}

/-- **A row and an event of one visitor are one person's.** -/
theorem canonicalUser_eq (hs : RolledUp env siteId s) {k : DayVisitorKey} {d : DailyVisitor} {r : RawEvent}
    (hk : k.day.siteId = siteId) (hd : s.dailySiteVisitors.lookup k = some d) (hr : r ∈ s.rawEvents.rows)
    (hkey : r.visitorKey = visitorOf k) :
    canonicalUser s.visitorIdentities k.day.siteId k.visitorId d.userId
      = canonicalUser s.visitorIdentities r.siteId r.visitorId r.userId := by
  have hsite : r.siteId = k.day.siteId := congrArg VisitorKey.siteId hkey
  have hvisitor : r.visitorId = k.visitorId := congrArg VisitorKey.visitorId hkey
  unfold canonicalUser
  rw [hsite, hvisitor]
  cases hlink : s.visitorIdentities.lookup ⟨k.day.siteId, k.visitorId⟩ with
  | some i => rfl
  | none =>
    -- nobody is linked, so neither shows a user
    have hnot : visitorOf k ∉ s.visitorIdentities := AList.lookup_eq_none.mp hlink
    have hrow : d.userId = none := by
      by_contra hsome
      exact hnot (hs.users k d hk hd hsome)
    have hevent : r.userId = none := by
      by_contra hsome
      rw [← hkey] at hnot
      exact hnot (hs.events r hr (hsite.trans hk) hsome)
    show d.userId = r.userId
    rw [hrow, hevent]

theorem eventTimes_of_rowTimes (hs : RolledUp env siteId s) {t : Instant}
    (h : t ∈ rowTimes s siteId environment before entity) : t ∈ eventTimes s siteId environment entity ∧ t < before := by
  obtain ⟨k, d, hd, hk, henvironment, hbefore, hentity, ht⟩ := (mem_rowTimes_iff ..).mp h
  have hfirst := hs.days k hk
  rw [hd, Option.map_some] at hfirst
  obtain ⟨r, hr, htime⟩ := minTime_mem hfirst.symm
  obtain ⟨hmem, hkey, henv⟩ := mem_dayVisitorGroup hr
  have hsite : r.siteId = k.day.siteId := congrArg VisitorKey.siteId hkey
  have hvisitor : r.visitorId = k.visitorId := congrArg VisitorKey.visitorId hkey
  refine ⟨⟨analyticsEvent s.visitorIdentities r, List.mem_map_of_mem hmem, hsite.trans hk,
    henv.trans henvironment, ?_, htime.trans ht⟩, ht ▸ hbefore⟩
  rw [← hentity, canonicalUser_eq hs hk hd hmem hkey, ← hvisitor]
  rfl

theorem rowTimes_below (hs : RolledUp env siteId s) {t : Instant} (h : t ∈ eventTimes s siteId environment entity)
    (hbefore : t < before) : ∃ t' ∈ rowTimes s siteId environment before entity, t' ≤ t := by
  obtain ⟨e, he, hsite, henvironment, hentity, ht⟩ := h
  obtain ⟨r, hr, rfl⟩ := List.mem_map.mp he
  have hrsite : r.siteId = siteId := hsite
  obtain ⟨timezone, hzone⟩ := Option.isSome_iff_exists.mp (hs.site r hr hrsite)
  obtain ⟨site, hlookup, htimezone⟩ := Option.map_eq_some_iff.mp hzone
  -- the row of the event's own day
  have hgroup : r ∈ dayVisitorGroup env s (r.dayVisitorKey env timezone) := by
    have hown : s.config.sites.lookup (r.dayVisitorKey env timezone).day.siteId = some site := by
      rw [← hlookup, ← hrsite]
      rfl
    rw [dayVisitorGroup_eq hown, htimezone]
    exact Table.mem_groupOf_self hr
  have hk : (r.dayVisitorKey env timezone).day.siteId = siteId := hrsite
  have hdays := hs.days _ hk
  cases hfirst : firstTime (dayVisitorGroup env s (r.dayVisitorKey env timezone)) with
  | none =>
    rw [minTime_eq_none_iff.mp hfirst] at hgroup
    exact absurd hgroup List.not_mem_nil
  | some first =>
    rw [hfirst] at hdays
    obtain ⟨d, hd, hseen⟩ := Option.map_eq_some_iff.mp hdays
    have hle : d.firstSeen ≤ t := by
      rw [hseen, ← ht]
      exact minTime_le hfirst r hgroup
    refine ⟨d.firstSeen, (mem_rowTimes_iff ..).mpr ⟨_, d, hd, hk, henvironment, hle.trans_lt hbefore, ?_, rfl⟩,
      hle⟩
    rw [canonicalUser_eq hs hk hd hr rfl, ← hentity]
    rfl

end Definition

/-- **Who is new, from the rollup and from the events**: after any course in which
nothing expires, the report lists for every site, environment and instant exactly the
people with an event before the instant, each with the least time of its events. -/
theorem firstSeenCTE_iff (env : Platform) (config : Config) (actions : List Rollup.Action)
    (hexpires : Along (History.step env) NothingExpires (History.initial config) actions)
    (siteId : Uuid) (environment : String) (before : Instant) (entity : String) (first : Instant) :
    (firstSeenCTE (actions.foldl (History.step env) (History.initial config)).store siteId environment
        before).lookup entity = some first
      ↔ (∃ t ∈ eventTimes (actions.foldl (History.step env) (History.initial config)).store siteId environment
          entity, t < before)
        ∧ IsLeast (eventTimes (actions.foldl (History.step env) (History.initial config)).store siteId
            environment entity) first := by
  have hs := rolledUp_run config actions hexpires siteId
  rw [lookup_firstSeenCTE_iff]
  exact isLeast_iff_of_below (fun t ht => eventTimes_of_rowTimes hs ht) fun t ht => rowTimes_below hs ht

/-! ## §7. A visitor who says late who they are. -/

/-- A page view of New Year, then one of the day before that comes in late and names the
user, and a rebuild of everything. -/
def lateNameRun : List Rollup.Action :=
  [.job (Sample.job (Sample.payload "v1" "" [{
      id := Sample.eventId '1', name := "page_view", timestamp := Sample.newYear }])),
    .job (Sample.job (Sample.payload "v1" "ada" [{
      id := Sample.eventId '2', name := "page_view", timestamp := Sample.newYear - 86400000 }])),
    .request Sample.siteId "prd" "full_rebuild" "check" none none, .runNext 0 none]

theorem firstSeenCTE_lateName :
    (∃ t ∈ eventTimes (lateNameRun.foldl (History.step Sample.platform)
        (History.initial (Sample.config 100))).store Sample.siteId "prd" "u:ada", t < Sample.newYear * 1000)
      ∧ IsLeast (eventTimes (lateNameRun.foldl (History.step Sample.platform)
          (History.initial (Sample.config 100))).store Sample.siteId "prd" "u:ada")
        ((Sample.newYear - 86400000) * 1000) :=
  (firstSeenCTE_iff Sample.platform (Sample.config 100) lateNameRun ⟨trivial, trivial, trivial, trivial, trivial⟩
    Sample.siteId "prd" (Sample.newYear * 1000) "u:ada" ((Sample.newYear - 86400000) * 1000)).mp
    (by decide +kernel)

end Momento.Reports
