/-
  Momento.Reports.DailyTables

  **THE DAILY TABLES ARE THEIR EVENTS.**  Three tables have rows per local date: of the
  site, of its visitors and of its sessions.  Each event adds to one row of each; rebuilds
  of a site, of a range of dates and after a change of the time zone put in all rows
  anew.  What the rows count is a summary of the raw events of their key, whichever of
  these wrote them.

      DayPart          — a daily table's key: a day, and whose row it is
      counts, visits, span
                       — what is summed up in the rows
-/
import Momento.Foundation.GroupSummary
import Momento.Reports.FirstSeen

namespace Momento.Reports

open Foundation Momento.Rollup

/-! ## §1. Keys of a day. -/

/-- The key of a daily table. -/
structure DayPart (κ : Type) where
  day : κ → DayKey
  keyOf : DayKey → RawEvent → κ
  day_keyOf : ∀ d r, day (keyOf d r) = d

namespace DayPart

/-- `daily_site_metrics`. -/
def site : DayPart DayKey := ⟨id, fun d _ => d, fun _ _ => rfl⟩

/-- `daily_site_visitors`. -/
def visitors : DayPart DayVisitorKey := ⟨DayVisitorKey.day, fun d r => ⟨d, r.visitorId⟩, fun _ _ => rfl⟩

/-- `daily_site_sessions`. -/
def sessions : DayPart DaySessionKey := ⟨DaySessionKey.day, fun d r => ⟨d, r.sessionId⟩, fun _ _ => rfl⟩

section
variable {κ ρ : Type} [DecidableEq κ] (P : DayPart κ) (env : Platform)

/-- The key of an event in a time zone. -/
def key (timezone : String) (r : RawEvent) : κ := P.keyOf (r.dayKey env timezone) r

/-- The raw events of a key. -/
def group (s : Store) (k : κ) : List RawEvent :=
  (zoneOf s (P.day k).siteId).elim [] fun timezone => Table.groupOf (P.key env timezone) s.rawEvents.rows k

/-- `INSERT … SELECT … GROUP BY`, of a site. -/
def rebuild (siteId : Uuid) (row : List RawEvent → ρ) (s : Store) : Table κ ρ :=
  (s.config.sites.lookup siteId).elim ∅ fun site =>
    Table.groupRows (P.key env site.timezone) (fun _ rows => row rows) (siteRows siteId s.rawEvents.rows)

/-- The same, of some dates of an environment. -/
def rebuildRange (siteId : Uuid) (environment : String) (first last : Date) (row : List RawEvent → ρ) (s : Store) :
    Table κ ρ :=
  (s.config.sites.lookup siteId).elim ∅ fun site =>
    Table.groupRows (P.key env site.timezone) (fun _ rows => row rows)
      (rangeRows env site.timezone siteId environment first last s.rawEvents.rows)

variable {P env} {s s' : Store} {siteId : Uuid} {k : κ} {row : List RawEvent → ρ}

omit [DecidableEq κ] in
theorem day_key (timezone : String) (r : RawEvent) : P.day (P.key env timezone r) = r.dayKey env timezone :=
  P.day_keyOf _ r

omit [DecidableEq κ] in
theorem site_of_key {timezone : String} {r : RawEvent} (h : P.key env timezone r = k) :
    r.siteId = (P.day k).siteId := by
  rw [← h, day_key]
  rfl

theorem mem_group {r : RawEvent} (h : r ∈ P.group env s k) :
    r ∈ s.rawEvents.rows ∧ ∃ timezone, zoneOf s (P.day k).siteId = some timezone ∧ P.key env timezone r = k := by
  unfold group at h
  cases hzone : zoneOf s (P.day k).siteId with
  | none =>
    rw [hzone] at h
    cases h
  | some timezone =>
    rw [hzone] at h
    obtain ⟨hmem, hkey⟩ := Table.mem_groupOf h
    exact ⟨hmem, timezone, rfl, hkey⟩

/-- The rows and the time zone of the site decide a group. -/
theorem group_congr (hzone : zoneOf s' siteId = zoneOf s siteId)
    (hrows : siteRows siteId s'.rawEvents.rows = siteRows siteId s.rawEvents.rows) (hk : (P.day k).siteId = siteId) :
    P.group env s' k = P.group env s k := by
  have hgroup : ∀ t : Store, P.group env t k = (zoneOf t siteId).elim [] fun timezone =>
      Table.groupOf (P.key env timezone) (siteRows siteId t.rawEvents.rows) k := by
    intro t
    unfold group
    rw [hk]
    cases zoneOf t siteId with
    | none => rfl
    | some timezone => exact (groupOf_siteRows fun r hr => (site_of_key hr).trans hk).symm
  rw [hgroup, hgroup, hzone, hrows]

theorem group_eq {site : Momento.Site} (hsite : s.config.sites.lookup (P.day k).siteId = some site) :
    P.group env s k = Table.groupOf (P.key env site.timezone) s.rawEvents.rows k := by
  unfold group zoneOf
  rw [hsite]
  rfl

theorem group_of_none (hsite : s.config.sites.lookup (P.day k).siteId = none) : P.group env s k = [] := by
  unfold group zoneOf
  rw [hsite]
  rfl

/-! ### Rebuilds. -/

/-- What a rebuild writes for a key. -/
def rebuilt (P : DayPart κ) (env : Platform) (s : Store) (row : List RawEvent → ρ) (k : κ) : Option ρ :=
  if P.group env s k = [] then none else some (row (P.group env s k))

/-- **A rebuild of a site** puts in the rows of its keys. -/
theorem lookup_rebuild (P : DayPart κ) (k : κ) : (P.rebuild env siteId row s).lookup k
    = if coversSite siteId (P.day k) = true then P.rebuilt env s row k else none := by
  unfold rebuild rebuilt
  by_cases hk : (P.day k).siteId = siteId
  · rw [if_pos (show coversSite siteId (P.day k) = true from decide_eq_true hk)]
    cases hsite : s.config.sites.lookup siteId with
    | none =>
      rw [group_of_none (hk ▸ hsite), if_pos rfl]
      rfl
    | some site =>
      rw [Option.elim_some, Table.lookup_groupRows, group_eq (hk ▸ hsite),
        groupOf_siteRows fun r hr => (site_of_key hr).trans hk]
  · rw [if_neg (show ¬coversSite siteId (P.day k) = true from by simpa [coversSite] using hk)]
    cases s.config.sites.lookup siteId with
    | none => rfl
    | some site =>
      rw [Option.elim_some, Table.lookup_groupRows, if_pos]
      refine (Table.groupOf_eq_nil_iff _ _ _).mpr fun hmem => hk ?_
      obtain ⟨r, hr, hkey⟩ := List.mem_map.mp hmem
      rw [← site_of_key hkey]
      exact of_decide_eq_true (List.mem_filter.mp hr).2

/-- **A rebuild of dates** puts in the rows of the keys it covers. -/
theorem lookup_rebuildRange (P : DayPart κ) {environment : String} {first last : Date} (k : κ) :
    (P.rebuildRange env siteId environment first last row s).lookup k
      = if coversRange siteId environment first last (P.day k) = true then P.rebuilt env s row k else none := by
  unfold rebuildRange rebuilt
  cases hsite : s.config.sites.lookup siteId with
  | none =>
    by_cases hcovers : coversRange siteId environment first last (P.day k) = true
    · have hk : (P.day k).siteId = siteId := (of_decide_eq_true hcovers).1
      rw [if_pos hcovers, group_of_none (hk ▸ hsite), if_pos rfl]
      rfl
    · rw [if_neg hcovers]
      rfl
  | some site =>
    rw [Option.elim_some, Table.lookup_groupRows]
    by_cases hcovers : coversRange siteId environment first last (P.day k) = true
    · obtain ⟨hk, henvironment, hfirst, hlast⟩ := of_decide_eq_true hcovers
      have hgroup : Table.groupOf (P.key env site.timezone)
          (rangeRows env site.timezone siteId environment first last s.rawEvents.rows) k
          = P.group env s k := by
        rw [group_eq (hk ▸ hsite)]
        unfold rangeRows
        rw [Table.groupOf_filter fun r hr => ?_, groupOf_siteRows fun r hr => (site_of_key hr).trans hk]
        have hday : r.dayKey env site.timezone = P.day k := by
          rw [← hr, day_key]
        have henv : r.environment = (P.day k).environment := congrArg DayKey.environment hday
        rw [hday]
        exact decide_eq_true ⟨henv.trans henvironment, hfirst, hlast⟩
      rw [if_pos hcovers, hgroup]
    · rw [if_neg hcovers, if_pos]
      refine (Table.groupOf_eq_nil_iff _ _ _).mpr fun hmem => hcovers ?_
      obtain ⟨r, hr, hkey⟩ := List.mem_map.mp hmem
      obtain ⟨hsiteRow, hwhere⟩ := List.mem_filter.mp hr
      obtain ⟨henvironment, hfirst, hlast⟩ := of_decide_eq_true hwhere
      have hday : r.dayKey env site.timezone = P.day k := by
        rw [← hkey, day_key]
      rw [hday] at hfirst hlast
      refine decide_eq_true ⟨?_, ?_, hfirst, hlast⟩
      · rw [← site_of_key hkey]
        exact of_decide_eq_true (List.mem_filter.mp hsiteRow).2
      · rw [← hday]
        exact henvironment

/-! ### An event. -/

/-- **The stored event goes to the group of its own key.** -/
theorem group_store (a : Arrival) (harrives : Arrives env a s) (h : ¬a.Known s) (k : κ) :
    P.group env (a.store s h) k
      = if k = P.keyOf a.day (a.newRow s) then a.newRow s :: P.group env s k else P.group env s k := by
  have hconfig : (a.store s h).config = s.config := a.derive_config _
  have hzone : zoneOf (a.store s h) = zoneOf s := by
    funext siteId
    unfold zoneOf
    rw [hconfig]
  have hown : zoneOf s a.context.siteId = some a.context.timezone := by
    have hset := harrives.settings
    unfold siteSettings at hset
    unfold zoneOf
    cases hsite : s.config.sites.lookup a.context.siteId with
    | none => simp [hsite] at hset
    | some site =>
      rw [hsite] at hset
      cases henvironment : s.config.siteEnvironments.lookup
          ⟨a.context.siteId, a.context.request.environment⟩ with
      | none => simp [henvironment] at hset
      | some e =>
        rw [henvironment] at hset
        exact congrArg some (Prod.mk.inj (Except.ok.inj hset)).1
  have hkey : P.key env a.context.timezone (a.newRow s) = P.keyOf a.day (a.newRow s) := by
    unfold key
    rw [← harrives.env_eq]
    rfl
  unfold group
  rw [hzone, a.store_rows s h]
  by_cases hsite : (P.day k).siteId = a.context.siteId
  · rw [hsite, hown, Option.elim_some, Option.elim_some, Table.groupOf_cons, hkey]
    by_cases heq : k = P.keyOf a.day (a.newRow s)
    · rw [if_pos heq, if_pos heq.symm]
    · rw [if_neg heq, if_neg (Ne.symm heq)]
  · have hne : k ≠ P.keyOf a.day (a.newRow s) := by
      intro heq
      apply hsite
      rw [heq, P.day_keyOf]
      rfl
    rw [if_neg hne]
    cases zoneOf s (P.day k).siteId with
    | none => rfl
    | some timezone =>
      rw [Option.elim_some, Option.elim_some, Table.groupOf_cons, if_neg]
      intro heq
      exact hsite (site_of_key heq).symm

end

end DayPart

/-! ## §2. What is summed up. -/

/-- Events, page views and conversions. -/
def counts : Summary RawEvent (Nat × Nat × Nat) where
  ins r := (1, (decide (r.eventName = "page_view")).toNat, r.isConversion.toNat)
  upd r c := (c.1 + 1, c.2.1 + (decide (r.eventName = "page_view")).toNat, c.2.2 + r.isConversion.toNat)

/-- First and last time, events and conversions. -/
def visits : Summary RawEvent (Instant × Instant × Nat × Nat) where
  ins r := (r.eventTimestamp, r.eventTimestamp, 1, r.isConversion.toNat)
  upd r v := (min v.1 r.eventTimestamp, max v.2.1 r.eventTimestamp, v.2.2.1 + 1, v.2.2.2 + r.isConversion.toNat)

/-- First and last time. -/
def span : Summary RawEvent (Instant × Instant) where
  ins r := (r.eventTimestamp, r.eventTimestamp)
  upd r v := (min v.1 r.eventTimestamp, max v.2 r.eventTimestamp)

/-- The counters of a row. -/
def metricCounts (m : DailyMetrics) : Nat × Nat × Nat := (m.events, m.pageViews, m.conversions)

/-- The times and counters of a row. -/
def visitsOf (v : DailyVisitor) : Instant × Instant × Nat × Nat :=
  (v.firstSeen, v.lastSeen, v.eventCount, v.conversionCount)

/-- The times of a row. -/
def spanOf (v : DailySession) : Instant × Instant := (v.firstSeen, v.lastSeen)

theorem counts_of {group : List RawEvent} (hne : group ≠ []) : counts.of group
    = some (group.length, group.countP (fun r => r.eventName = "page_view"), group.countP RawEvent.isConversion) := by
  refine Summary.of_eq (f := fun group => (group.length, group.countP (fun r => r.eventName = "page_view"),
    group.countP RawEvent.isConversion)) (fun r => ?_) (fun r group _ => ?_) hne
  · rw [Table.countP_cons_toNat, Table.countP_cons_toNat, List.countP_nil, List.countP_nil, Nat.zero_add, Nat.zero_add]
    rfl
  · rw [Table.countP_cons_toNat, Table.countP_cons_toNat]
    rfl

theorem firstTime_getD_cons (r : RawEvent) {group : List RawEvent} (hne : group ≠ []) :
    (firstTime (r :: group)).getD 0 = min ((firstTime group).getD 0) r.eventTimestamp := by
  rw [firstTime_cons]
  cases hfirst : firstTime group with
  | none => exact absurd (minTime_eq_none_iff.mp hfirst) hne
  | some t => exact min_comm _ _

theorem lastTime_getD_cons (r : RawEvent) {group : List RawEvent} (hne : group ≠ []) :
    (lastTime (r :: group)).getD 0 = max ((lastTime group).getD 0) r.eventTimestamp := by
  rw [lastTime_cons]
  cases hlast : lastTime group with
  | none => exact absurd (maxTime_eq_none_iff.mp hlast) hne
  | some t => exact max_comm _ _

theorem visits_of {group : List RawEvent} (hne : group ≠ []) : visits.of group
    = some ((firstTime group).getD 0, (lastTime group).getD 0, group.length, group.countP RawEvent.isConversion) := by
  refine Summary.of_eq (f := fun group => ((firstTime group).getD 0, (lastTime group).getD 0, group.length,
    group.countP RawEvent.isConversion)) (fun r => ?_) (fun r group hne => ?_) hne
  · rw [Table.countP_cons_toNat, List.countP_nil, Nat.zero_add]
    rfl
  · rw [Table.countP_cons_toNat, firstTime_getD_cons r hne, lastTime_getD_cons r hne]
    rfl

theorem span_of {group : List RawEvent} (hne : group ≠ []) :
    span.of group = some ((firstTime group).getD 0, (lastTime group).getD 0) := by
  refine Summary.of_eq (f := fun group => ((firstTime group).getD 0, (lastTime group).getD 0))
    (fun r => rfl) (fun r group hne => ?_) hne
  rw [firstTime_getD_cons r hne, lastTime_getD_cons r hne]
  rfl

/-! ## §3. The tables. -/

/-- **The daily tables of a site are summaries of its events.** -/
structure DailyTables (env : Platform) (siteId : Uuid) (s : Store) : Prop where
  metrics : counts.Holds metricCounts (fun k => (DayPart.site.day k).siteId = siteId) (DayPart.site.group env s)
    s.dailySiteMetrics
  visitors : visits.Holds visitsOf (fun k => (DayPart.visitors.day k).siteId = siteId) (DayPart.visitors.group env s)
    s.dailySiteVisitors
  sessions : span.Holds spanOf (fun k => (DayPart.sessions.day k).siteId = siteId) (DayPart.sessions.group env s)
    s.dailySiteSessions

section Tables
variable {env : Platform} {siteId : Uuid} {s s' : Store}

theorem DayPart.group_initial {κ : Type} [DecidableEq κ] (P : DayPart κ) (config : Config) (k : κ) :
    P.group env (Store.initial config) k = [] := by
  unfold DayPart.group
  cases zoneOf (Store.initial config) (P.day k).siteId with
  | none => rfl
  | some timezone => rfl

theorem DailyTables.initial (env : Platform) (config : Config) (siteId : Uuid) :
    DailyTables env siteId (Store.initial config) where
  metrics k _ := by
    rw [DayPart.group_initial]
    rfl
  visitors k _ := by
    rw [DayPart.group_initial]
    rfl
  sessions k _ := by
    rw [DayPart.group_initial]
    rfl

/-- The rows of the site, its time zone and its daily rows decide. -/
theorem DailyTables.congr (h : DailyTables env siteId s) (hzone : zoneOf s' siteId = zoneOf s siteId)
    (hrows : siteRows siteId s'.rawEvents.rows = siteRows siteId s.rawEvents.rows)
    (hmetrics : ∀ k : DayKey, k.siteId = siteId → s'.dailySiteMetrics.lookup k = s.dailySiteMetrics.lookup k)
    (hvisitors : ∀ k : DayVisitorKey, k.day.siteId = siteId →
      s'.dailySiteVisitors.lookup k = s.dailySiteVisitors.lookup k)
    (hsessions : ∀ k : DaySessionKey, k.day.siteId = siteId →
      s'.dailySiteSessions.lookup k = s.dailySiteSessions.lookup k) : DailyTables env siteId s' where
  metrics k hk := by
    rw [hmetrics k hk, DayPart.group_congr hzone hrows hk]
    exact h.metrics k hk
  visitors k hk := by
    rw [hvisitors k hk, DayPart.group_congr hzone hrows hk]
    exact h.visitors k hk
  sessions k hk := by
    rw [hsessions k hk, DayPart.group_congr hzone hrows hk]
    exact h.sessions k hk

theorem DailyTables.of_sameAt (inbox : Table Nat InboxRow) (deadLetters : List DeadLetter)
    (hs : DailyTables env siteId s)
    (h : Database.SameAt siteId ⟨s, inbox, deadLetters⟩ ⟨s', inbox, deadLetters⟩) : DailyTables env siteId s' :=
  hs.congr (congrArg _ h.site) h.rawEvents h.dailySiteMetrics h.dailySiteVisitors h.dailySiteSessions

/-- What a step leaves alone, it leaves as it was. -/
theorem DailyTables.frame (h : DailyTables env siteId s) (hzone : zoneOf s' siteId = zoneOf s siteId)
    (hrows : s'.rawEvents = s.rawEvents) (hmetrics : s'.dailySiteMetrics = s.dailySiteMetrics)
    (hvisitors : s'.dailySiteVisitors = s.dailySiteVisitors)
    (hsessions : s'.dailySiteSessions = s.dailySiteSessions) : DailyTables env siteId s' :=
  h.congr hzone (congrArg (fun raw : RawEvents => siteRows siteId raw.rows) hrows)
    (fun k _ => congrArg (AList.lookup k) hmetrics) (fun k _ => congrArg (AList.lookup k) hvisitors)
    fun k _ => congrArg (AList.lookup k) hsessions

end Tables

/-! ### An event. -/

section Event
variable (a : Arrival) {s : Store} {env : Platform} {siteId : Uuid}

/-- The session's row an event counts in. -/
def sessionDay : DaySessionKey := ⟨a.day, a.context.request.sessionId⟩

/-- **`daily_site_metrics` after an event.** -/
theorem store_counts (h : ¬a.Known s) (k : DayKey) :
    ((a.store s h).dailySiteMetrics.lookup k).map metricCounts
      = if k = a.day then some (((s.dailySiteMetrics.lookup k).map metricCounts).elim (counts.ins (a.newRow s))
          (counts.upd (a.newRow s)))
        else (s.dailySiteMetrics.lookup k).map metricCounts := by
  unfold Arrival.store
  rw [a.derive_dailySiteMetrics]
  unfold Store.countMetrics
  by_cases hk : k = a.day
  · subst hk
    rw [if_pos rfl, Table.lookup_upsert_self]
    cases s.dailySiteMetrics.lookup a.day with
    | none => rfl
    | some m => rfl
  · rw [if_neg hk, Table.lookup_upsert_of_ne hk]

/-- **`daily_site_visitors` after an event.** -/
theorem store_visits (h : ¬a.Known s) (k : DayVisitorKey) :
    ((a.store s h).dailySiteVisitors.lookup k).map visitsOf
      = if k = visitorDay a then some (((s.dailySiteVisitors.lookup k).map visitsOf).elim (visits.ins (a.newRow s))
          (visits.upd (a.newRow s)))
        else (s.dailySiteVisitors.lookup k).map visitsOf := by
  obtain ⟨user, hrows⟩ := store_dailySiteVisitors a h
  have hrow := hrows k
  dsimp only at hrow
  rw [hrow]
  by_cases hk : k = visitorDay a
  · rw [if_pos hk, if_pos hk]
    cases s.dailySiteVisitors.lookup k with
    | none => rfl
    | some v =>
      -- showing a user leaves what is summed up
      rw [Option.map_some]
      split
      · rfl
      · rfl
  · rw [if_neg hk, if_neg hk, Option.map_map]
    congr 1
    funext v
    simp only [Function.comp_apply]
    split
    · rfl
    · rfl

/-- The last statement writes the session's row of the day. -/
theorem finish_dailySiteSessions (u : Store) (revenue : Numeric) (t : Store) :
    (a.finish u revenue t).dailySiteSessions
      = (t.countDailySession (sessionDay a) a.context.request.visitorId (a.canonical u) a.eventTime).dailySiteSessions :=
  rfl

theorem touchLinked_dailySiteSessions (key : VisitorKey) (canonical : String) (userProperties : Properties)
    (eventTime : Instant) (t : Store) :
    (t.touchLinked key canonical userProperties eventTime).dailySiteSessions = t.dailySiteSessions := by
  unfold Store.touchLinked
  split
  · rfl
  · rfl

/-- Showing a user leaves the times. -/
theorem identify_spans (key : VisitorKey) (userId : String) (eventTime : Instant) (t : Store) (k : DaySessionKey) :
    ((t.identify key userId eventTime).dailySiteSessions.lookup k).map spanOf
      = (t.dailySiteSessions.lookup k).map spanOf := by
  unfold Store.identify
  split
  · refine (congrArg (Option.map spanOf) (Table.lookup_modifyRows _ _ k)).trans ?_
    rw [Option.map_map]
    show (t.dailySiteSessions.lookup k).map _ = _
    congr 1
    funext v
    simp only [Function.comp_apply]
    split
    · rfl
    · rfl
  · rfl

theorem beforeSession_spans (u : Store) (k : DaySessionKey) :
    ((a.beforeSession u).dailySiteSessions.lookup k).map spanOf = (u.dailySiteSessions.lookup k).map spanOf := by
  obtain ⟨jobs, values, hshape⟩ := Store.beforeVisitor_shape a.context a.event a.eventTime a.unreported u
  unfold Arrival.beforeSession
  rw [touchLinked_dailySiteSessions]
  show ((Store.beforeVisitor a.context a.event a.eventTime a.unreported _).dailySiteSessions.lookup k).map spanOf = _
  rw [hshape]
  exact identify_spans _ _ _ _ k

/-- **`daily_site_sessions` after an event.** -/
theorem store_span (h : ¬a.Known s) (k : DaySessionKey) :
    ((a.store s h).dailySiteSessions.lookup k).map spanOf
      = if k = sessionDay a then some (((s.dailySiteSessions.lookup k).map spanOf).elim (span.ins (a.newRow s))
          (span.upd (a.newRow s)))
        else (s.dailySiteSessions.lookup k).map spanOf := by
  have hbefore := beforeSession_spans a { s with rawEvents := s.rawEvents.insert a.row h } k
  unfold Arrival.store
  rw [a.derive_eq, finish_dailySiteSessions]
  unfold Store.countDailySession
  by_cases hk : k = sessionDay a
  · rw [if_pos hk, ← show _ = (s.dailySiteSessions.lookup k).map spanOf from hbefore]
    subst hk
    rw [Table.lookup_upsert_self]
    cases (a.beforeSession { s with rawEvents := s.rawEvents.insert a.row h }).dailySiteSessions.lookup
        (sessionDay a) with
    | none => rfl
    | some v => rfl
  · rw [if_neg hk, Table.lookup_upsert_of_ne hk]
    exact hbefore

/-- **One stored event keeps the daily tables.** -/
theorem dailyTables_store (harrives : Arrives env a s) (h : ¬a.Known s) (hs : DailyTables env siteId s) :
    DailyTables env siteId (a.store s h) where
  metrics := hs.metrics.upsert (DayPart.group_store a harrives h) (store_counts a h)
  visitors := hs.visitors.upsert (DayPart.group_store a harrives h) (store_visits a h)
  sessions := hs.sessions.upsert (DayPart.group_store a harrives h) (store_span a h)

theorem dailyTables_job {s : Store} (j : Job) (hs : ∀ siteId, DailyTables env siteId s) (siteId : Uuid) :
    DailyTables env siteId (afterJob env s j) := by
  have hmeet : j.Succeeds env s → j.Meets env (fun _ _ => True) s :=
    fun _ _ _ _ _ _ => eventsMeet_of_forall _ fun _ _ => trivial
  refine afterJob_induction (I := fun s => ∀ siteId, DailyTables env siteId s) ?_ ?_ hmeet hs siteId
  · intro a s hnew harrives hs _ siteId
    exact dailyTables_store a harrives hnew (hs siteId)
  · -- a duplicate touches the quality counters only
    intro s key hs siteId
    exact ⟨(hs siteId).metrics, (hs siteId).visitors, (hs siteId).sessions⟩

end Event

/-! ### Rebuilds. -/

section Rebuild
variable {env : Platform} {siteId other : Uuid} {s s' : Store}

/-- A rebuilt row counts what its events come to. -/
theorem rebuilt_metrics {m : DailyMetrics} {group : List RawEvent} (h : rebuildMetricsRow group = .ok m) :
    metricCounts m = (group.length, group.countP (fun r => r.eventName = "page_view"),
      group.countP RawEvent.isConversion) := by
  unfold rebuildMetricsRow at h
  cases hamounts : group.mapM revenueAmountSql with
  | error e =>
    rw [hamounts] at h
    cases h
  | ok amounts =>
    rw [hamounts] at h
    cases hrevenue : storeNumeric24_6 (.fin amounts.sum) with
    | error e =>
      simp only [bind, Except.bind, hrevenue] at h
      cases h
    | ok revenue =>
      simp only [bind, Except.bind, hrevenue] at h
      rw [← Except.ok.inj h]
      rfl

/-- Rows that a rebuild puts in sum up what they cover. -/
theorem summary_rebuilt {κ ρ α : Type} [DecidableEq κ] (P : DayPart κ) (S : Summary RawEvent α)
    {row : List RawEvent → ρ} {proj : ρ → α} (hrow : ∀ group, group ≠ [] → S.of group = some (proj (row group)))
    {covers : DayKey → Bool} {rows : Table κ ρ}
    (hrows : ∀ k, rows.lookup k = if covers (P.day k) = true then P.rebuilt env s row k else none) (k : κ) :
    (rows.lookup k).map proj = if covers (P.day k) = true then S.of (P.group env s k) else none := by
  rw [hrows]
  unfold DayPart.rebuilt
  by_cases hcovers : covers (P.day k) = true
  · rw [if_pos hcovers, if_pos hcovers]
    by_cases hnil : P.group env s k = []
    · rw [if_pos hnil, hnil]
      rfl
    · rw [if_neg hnil, Option.map_some, hrow _ hnil]
  · rw [if_neg hcovers, if_neg hcovers]
    rfl

/-- **A rebuild of days leaves the daily tables summaries**, where the rows it does not
cover were. -/
theorem dailyTables_replaceDaily {covers : DayKey → Bool} {rebuilt : Table DayKey (Except DbError DailyMetrics)}
    {metrics : Table DayKey DailyMetrics} {visitors : Table DayVisitorKey DailyVisitor}
    {sessions : Table DaySessionKey DailySession} (hcollect : rebuilt.collect = .ok metrics)
    (hmetrics : ∀ k, rebuilt.lookup k
      = if covers (DayPart.site.day k) = true then DayPart.site.rebuilt env s rebuildMetricsRow k else none)
    (hvisitors : ∀ k, visitors.lookup k
      = if covers (DayPart.visitors.day k) = true then DayPart.visitors.rebuilt env s (rebuildDailyVisitorRow s) k
        else none)
    (hsessions : ∀ k, sessions.lookup k
      = if covers (DayPart.sessions.day k) = true then DayPart.sessions.rebuilt env s (rebuildDailySessionRow s) k
        else none)
    (hothers : (∀ day : DayKey, day.siteId = siteId → covers day = true) ∨ DailyTables env siteId s) :
    DailyTables env siteId (s.replaceDaily covers metrics visitors sessions) := by
  have hcounts : ∀ k, (metrics.lookup k).map metricCounts
      = if covers (DayPart.site.day k) = true then counts.of (DayPart.site.group env s k) else none := by
    intro k
    have hrow := Table.lookup_collect hcollect k
    rw [hmetrics] at hrow
    by_cases hcovers : covers (DayPart.site.day k) = true
    · rw [if_pos hcovers] at hrow ⊢
      unfold DayPart.rebuilt at hrow
      by_cases hnil : DayPart.site.group env s k = []
      · rw [if_pos hnil] at hrow
        rw [hnil, Option.map_eq_none_iff.mp hrow.symm]
        rfl
      · rw [if_neg hnil] at hrow
        obtain ⟨m, hm, hok⟩ := Option.map_eq_some_iff.mp hrow.symm
        rw [hm, counts_of hnil, Option.map_some, rebuilt_metrics hok.symm]
    · rw [if_neg hcovers] at hrow ⊢
      rw [Option.map_eq_none_iff.mp hrow.symm]
      rfl
  have hall : ∀ {κ : Type} (P : DayPart κ), (∀ day : DayKey, day.siteId = siteId → covers day = true) →
      ∀ k, (P.day k).siteId = siteId → covers (P.day k) = true := fun P h k hk => h (P.day k) hk
  refine ⟨?_, ?_, ?_⟩
  · exact Summary.Holds.replaceRows hcounts (hothers.imp (hall DayPart.site) DailyTables.metrics)
  · exact Summary.Holds.replaceRows (summary_rebuilt DayPart.visitors visits (fun group hne => visits_of hne) hvisitors)
      (hothers.imp (hall DayPart.visitors) DailyTables.visitors)
  · exact Summary.Holds.replaceRows (summary_rebuilt DayPart.sessions span (fun group hne => span_of hne) hsessions)
      (hothers.imp (hall DayPart.sessions) DailyTables.sessions)

theorem dailyTables_dailyAggregates (h : s.rebuildSiteDailyAggregates env siteId = .ok s') :
    DailyTables env siteId s' := by
  obtain ⟨metrics, hmetrics, rfl⟩ := replaced_of_daily h
  exact dailyTables_replaceDaily hmetrics DayPart.site.lookup_rebuild DayPart.visitors.lookup_rebuild
    DayPart.sessions.lookup_rebuild (Or.inl fun day hday => decide_eq_true hday)

theorem dailyTables_dateRange {environment : String} {first last : Date} (hs : DailyTables env other s)
    (h : s.rebuildEnvironmentDateRange env siteId environment first last = .ok s') : DailyTables env other s' := by
  obtain ⟨metrics, hmetrics, rfl⟩ := replaced_of_range h
  exact dailyTables_replaceDaily hmetrics DayPart.site.lookup_rebuildRange DayPart.visitors.lookup_rebuildRange
    DayPart.sessions.lookup_rebuildRange (Or.inr hs)

/-- **A rebuild of one site makes its daily tables summaries**, and leaves the others'. -/
theorem dailyTables_derivedData (hothers : ∀ other, other ≠ siteId → DailyTables env other s)
    (h : s.rebuildSiteDerivedData env siteId = .ok s') (other : Uuid) : DailyTables env other s' := by
  by_cases hown : other = siteId
  · subst hown
    exact dailyTables_dailyAggregates (s := s.refill other) h
  · exact (hothers other hown).of_sameAt ∅ [] (rebuildSiteDerivedData_sameAt s ∅ [] h hown)

end Rebuild

/-! ## §4. Courses. -/

section Steps
variable {env : Platform} {s s' : Store} {siteId : Uuid}

theorem dailyTables_updateSite {siteId : Uuid} {update : SiteUpdate} (hs : ∀ siteId, DailyTables env siteId s)
    (h : s.updateSite env siteId update = .ok s') (id : Uuid) : DailyTables env id s' := by
  obtain ⟨previous, site, hsite, hzone, ⟨-, hrebuild⟩ | ⟨hsame, rfl⟩⟩ := Store.ok_updateSite h
  · by_cases hid : id = siteId
    · -- the site's own days are rebuilt in its new time zone
      subst hid
      exact dailyTables_dailyAggregates hrebuild
    · refine DailyTables.of_sameAt ∅ [] ?_ (rebuildSiteDailyAggregates_sameAt _ ∅ [] hrebuild hid)
      refine (hs id).frame ?_ rfl rfl rfl rfl
      refine (zoneOf_withSite siteId _ s id).trans ?_
      rw [if_neg hid]
  · exact (hs id).frame (Rollup.zoneOf_withSite_of_eq hsite (hsame.trans hzone.symm) id) rfl rfl rfl rfl

theorem dailyTables_erase {siteId : Uuid} {selection : Selection} (hs : ∀ siteId, DailyTables env siteId s)
    (h : s.eraseEvents env siteId selection = .ok s') (id : Uuid) : DailyTables env id s' := by
  refine dailyTables_derivedData (s := s.deleteSelected siteId selection) ?_ h id
  intro other hother
  exact (hs other).congr rfl (siteRows_deleteSelected selection hother) (fun _ _ => rfl) (fun _ _ => rfl) fun _ _ => rfl

/-- **One action keeps the daily tables** the summaries of their events, where nothing
expires. -/
theorem dailyTables_step {h : History} {a : Rollup.Action} (hs : ∀ siteId, DailyTables env siteId h.store)
    (hexpires : NothingExpires h a) : ∀ siteId, DailyTables env siteId (h.step env a).store := by
  refine History.step_keeps (I := fun s => ∀ siteId, DailyTables env siteId s)
    (fun _ _ hs id => (hs id).frame rfl rfl rfl rfl rfl) (fun j _ hs => dailyTables_job j hs) ?_
    (fun _ _ _ hs => dailyTables_derivedData fun other _ => hs other)
    (fun _ _ _ _ _ _ hs h id => dailyTables_dateRange (hs id) h) (fun _ _ _ _ => dailyTables_updateSite)
    (fun _ _ _ _ => dailyTables_erase) hs
  rintro readings batch rfl
  rw [show h.store.drop readings batch = h.store from hexpires]
  exact hs

/-- The tables are summaries after any course in which nothing expires. -/
theorem dailyTables_run (env : Platform) (config : Config) (actions : List Rollup.Action)
    (hexpires : Along (History.step env) NothingExpires (History.initial config) actions) (siteId : Uuid) :
    DailyTables env siteId (actions.foldl (History.step env) (History.initial config)).store :=
  along_induction (I := fun h : History => ∀ siteId, DailyTables env siteId h.store)
    (fun _ _ hs hexpires => dailyTables_step hs hexpires) actions (DailyTables.initial env config) hexpires siteId

end Steps

end Momento.Reports
