/-
  Momento.Http.TraceSessions

  **A TIMELINE READ AS VISITS.**  `groupTraceSessions` walks a newest-first page of
  events backwards, collects them under the text `visitor|session`, and enriches each
  visit with the row of `sessions`.

  The text does not tell where the visitor ends: the ids are the client's own and may
  hold a `|` themselves.
-/
import Momento.Model.Database
import Momento.Foundation.Calendar

namespace Momento.Http.Trace

open Foundation Foundation.Binary64

/-! ## §1. The events and the visits. -/

/-- A column that may be null. -/
def text (value : Option String) : String := value.getD ""

/-- A row `traceEvents` reads, with what the grouping writes to it. -/
structure TraceEvent where
  row : RawEvent
  secondsSincePrevious : Binary64 := .fin zero
  marker : String := ""

/-- `Event.Timestamp`. -/
abbrev TraceEvent.timestamp (e : TraceEvent) : Instant := e.row.eventTimestamp

/-- What is reported of a visit. -/
structure TraceSession where
  sessionId : String
  visitorId : String
  startedAt : Instant
  endedAt : Instant
  durationSeconds : Binary64 := .fin zero
  events : List TraceEvent := []
  eventCount : Nat := 0
  pageViews : Nat := 0
  conversions : Nat := 0
  engaged : Bool := false
  isPartial : Bool := false
  deviceType : String
  browser : String
  os : String
  source : String
  medium : String
  campaign : String
  network : String
  landingPage : String := ""
  exitPage : String := ""
  interactionCount : Nat := 0
  activeEngagementMs : Int := 0

/-- `t.Sub(u).Seconds()` of two instants of the database. -/
def secondsBetween (t u : Instant) : Binary64 := Calendar.seconds (Calendar.sub (1000 * t) (1000 * u))

/-! ## §2. The grouping. -/

/-- `key`. -/
def traceKey (e : TraceEvent) : String := e.row.visitorId ++ "|" ++ e.row.sessionId

/-- A visit as its first event opens it; the event itself is added next. -/
def newSession (e : TraceEvent) : TraceSession :=
  { sessionId := e.row.sessionId
    visitorId := e.row.visitorId
    startedAt := e.timestamp
    endedAt := e.timestamp
    deviceType := text e.row.deviceType
    browser := text e.row.browser
    os := text e.row.os
    source := text e.row.source
    medium := text e.row.medium
    campaign := text e.row.campaign
    network := e.row.networkName }

/-- `event.SecondsSincePrevious`. -/
def sincePrevious (events : List TraceEvent) (e : TraceEvent) : TraceEvent :=
  match events.getLast? with
  | some previous => { e with secondsSincePrevious := secondsBetween e.timestamp previous.timestamp }
  | none => e

/-- It is a page view. -/
def isPageView (r : RawEvent) : Bool := r.eventName = "page_view"

/-- The loop's body, for the visit the event is in. -/
def TraceSession.extend (s : TraceSession) (e : TraceEvent) : TraceSession :=
  let viewed := isPageView e.row
  { s with
    pageViews := s.pageViews + viewed.toNat
    landingPage := if viewed ∧ s.landingPage = "" then text e.row.pageUrl else s.landingPage
    exitPage := if viewed then text e.row.pageUrl else s.exitPage
    conversions := s.conversions + e.row.isConversion.toNat
    endedAt := e.timestamp
    events := s.events ++ [sincePrevious s.events e] }

/-- `grouped` and `order`: the visits by key, in the order their keys appeared. -/
def addEvent (e : TraceEvent) : List (String × TraceSession) → List (String × TraceSession)
  | [] => [(traceKey e, (newSession e).extend e)]
  | (key, s) :: rest => if key = traceKey e then (key, s.extend e) :: rest else (key, s) :: addEvent e rest

/-- `markIdentifyMoment`: the first event with a user. -/
def markIdentifyMoment : List TraceEvent → List TraceEvent
  | [] => []
  | e :: rest =>
    if text e.row.userId ≠ "" then { e with marker := "identified" } :: rest
    else e :: markIdentifyMoment rest

/-- A page the stored row knows is taken from it. -/
def storedPage (stored : Option String) (page : String) : String :=
  if text stored ≠ "" then text stored else page

/-- What the stored row of the visit's session id says of it. -/
def TraceSession.enrich (s : TraceSession) : Option Session → TraceSession
  | none => s
  | some summary =>
    { s with
      engaged := summary.engaged
      interactionCount := summary.interactionCount
      activeEngagementMs := summary.activeEngagementMs
      isPartial := s.eventCount < summary.eventCount
      landingPage := storedPage summary.landingPage s.landingPage
      exitPage := storedPage summary.exitPage s.exitPage
      startedAt := if summary.startedAt < s.startedAt then summary.startedAt else s.startedAt
      endedAt := if s.endedAt < summary.lastEventAt then summary.lastEventAt else s.endedAt }

/-- The second loop's body. -/
def TraceSession.finish (s : TraceSession) (stored : String → Option Session) : TraceSession :=
  let s := { s with eventCount := s.events.length }
  let s := s.enrich (stored s.sessionId)
  { s with
    durationSeconds := secondsBetween s.endedAt s.startedAt
    events := markIdentifyMoment s.events }

/-- `groupTraceSessions`. -/
def groupTraceSessions (store : Table SessionKey Session) (siteId : Uuid) (environment : String)
    (events : List TraceEvent) : List TraceSession :=
  let grouped := events.reverse.foldl (fun groups e => addEvent e groups) []
  -- one row at most: site, environment and id are the table's key
  let stored := fun sessionId => store.lookup ⟨siteId, environment, sessionId⟩
  (grouped.map fun ks => ks.2.finish stored).mergeSort fun s t => t.startedAt ≤ s.startedAt

/-! ## §3. One event in its visit. -/

/-- The rows of a visit. -/
def TraceSession.rows (s : TraceSession) : List RawEvent := s.events.map TraceEvent.row

/-- The visit holds the rows of a group: all of them in their order, counted, its
bounds the first and the last. -/
structure Holds (group : List TraceEvent) (s : TraceSession) : Prop where
  rows : s.rows = group.map TraceEvent.row
  pageViews : s.pageViews = s.rows.countP isPageView
  conversions : s.conversions = s.rows.countP RawEvent.isConversion
  started : s.rows.head?.map RawEvent.eventTimestamp = some s.startedAt
  ended : s.rows.getLast?.map RawEvent.eventTimestamp = some s.endedAt

@[simp] theorem sincePrevious_row (events : List TraceEvent) (e : TraceEvent) :
    (sincePrevious events e).row = e.row := by
  unfold sincePrevious
  split
  · rfl
  · rfl

theorem extend_rows (s : TraceSession) (e : TraceEvent) : (s.extend e).rows = s.rows ++ [e.row] := by
  show (s.events ++ [sincePrevious s.events e]).map TraceEvent.row = s.events.map TraceEvent.row ++ [e.row]
  rw [List.map_append, List.map_singleton, sincePrevious_row]

/-- A count goes up by one where the new row counts. -/
theorem countP_concat (p : RawEvent → Bool) (rows : List RawEvent) (r : RawEvent) :
    (rows ++ [r]).countP p = rows.countP p + (p r).toNat := by
  rw [List.countP_append, Table.countP_cons_toNat, List.countP_nil, Nat.zero_add]

/-- An event more in the visit: what holds of the group holds of the longer one. -/
theorem extend_holds {group : List TraceEvent} {s : TraceSession} (e : TraceEvent) (h : Holds group s) :
    Holds (group ++ [e]) (s.extend e) where
  rows := by rw [extend_rows, h.rows, List.map_append, List.map_singleton]
  pageViews := by
    rw [extend_rows, countP_concat, ← h.pageViews]
    rfl
  conversions := by
    rw [extend_rows, countP_concat, ← h.conversions]
    rfl
  started := by
    -- the first row is the one it was
    rw [extend_rows, List.head?_append, Option.map_or, h.started]
    rfl
  ended := by
    rw [extend_rows, List.getLast?_concat]
    rfl

/-- The first event of a visit. -/
theorem newSession_holds (e : TraceEvent) : Holds [e] ((newSession e).extend e) where
  rows := rfl
  pageViews := by
    rw [extend_rows]
    exact (countP_concat isPageView [] e.row).symm
  conversions := by
    rw [extend_rows]
    exact (countP_concat RawEvent.isConversion [] e.row).symm
  started := rfl
  ended := rfl

/-! ## §4. The map of the visits. -/

/-- A visit under the key of its group. -/
def Kept (kg : String × List TraceEvent) (ks : String × TraceSession) : Prop :=
  kg.1 = ks.1 ∧ Holds kg.2 ks.2

/-- The map of the visits follows the map of the groups through one event. -/
theorem addEvent_holds (e : TraceEvent) {groups : List (String × List TraceEvent)}
    {sessions : List (String × TraceSession)} (h : List.Forall₂ Kept groups sessions) :
    List.Forall₂ Kept (Table.addToGroup traceKey e groups) (addEvent e sessions) := by
  induction h with
  | nil => exact .cons ⟨rfl, newSession_holds e⟩ .nil
  | @cons kg ks groups sessions hhead htail ih =>
    obtain ⟨k, g⟩ := kg
    obtain ⟨k', s⟩ := ks
    obtain ⟨hkey, hholds⟩ := hhead
    obtain rfl : k = k' := hkey
    unfold Table.addToGroup addEvent
    by_cases hk : k = traceKey e
    · rw [if_pos hk, if_pos hk]
      exact .cons ⟨rfl, extend_holds e hholds⟩ htail
    · rw [if_neg hk, if_neg hk]
      exact .cons ⟨rfl, hholds⟩ ih

/-- **The map of the visits follows the map of the groups** through a page. -/
theorem foldl_addEvent_holds (page : List TraceEvent) :
    List.Forall₂ Kept (page.foldl (fun groups e => Table.addToGroup traceKey e groups) [])
      (page.foldl (fun groups e => addEvent e groups) []) := by
  induction page using List.reverseRecOn with
  | nil => exact .nil
  | append_singleton page e ih =>
    rw [List.foldl_append, List.foldl_append]
    exact addEvent_holds e ih

/-! ## §5. A finished visit. -/

theorem markIdentifyMoment_rows (events : List TraceEvent) :
    (markIdentifyMoment events).map TraceEvent.row = events.map TraceEvent.row := by
  induction events with
  | nil => rfl
  | cons e rest ih =>
    unfold markIdentifyMoment
    split
    · rfl
    · rw [List.map_cons, List.map_cons, ih]

theorem enrich_events (s : TraceSession) (summary : Option Session) : (s.enrich summary).events = s.events := by
  cases summary with
  | none => rfl
  | some summary => rfl

@[simp] theorem finish_rows (s : TraceSession) (stored : String → Option Session) :
    (s.finish stored).rows = s.rows := by
  unfold TraceSession.finish TraceSession.rows
  simp only [markIdentifyMoment_rows, enrich_events]

/-- The stored row counts nothing of its own. -/
theorem finish_counts (s : TraceSession) (stored : String → Option Session) :
    (s.finish stored).eventCount = s.rows.length ∧ (s.finish stored).pageViews = s.pageViews
      ∧ (s.finish stored).conversions = s.conversions := by
  unfold TraceSession.finish TraceSession.rows
  rw [List.length_map]
  dsimp only
  cases stored s.sessionId with
  | none => exact ⟨rfl, rfl, rfl⟩
  | some summary => exact ⟨rfl, rfl, rfl⟩

/-- The stored row widens the bounds. -/
theorem finish_bounds (s : TraceSession) (stored : String → Option Session) :
    (s.finish stored).startedAt ≤ s.startedAt ∧ s.endedAt ≤ (s.finish stored).endedAt := by
  unfold TraceSession.finish
  dsimp only
  cases stored s.sessionId with
  | none => exact ⟨le_rfl, le_rfl⟩
  | some summary =>
    show (if summary.startedAt < s.startedAt then summary.startedAt else s.startedAt) ≤ s.startedAt
      ∧ s.endedAt ≤ (if s.endedAt < summary.lastEventAt then summary.lastEventAt else s.endedAt)
    constructor
    · split
      next h => exact h.le
      next => exact le_rfl
    · split
      next h => exact h.le
      next => exact le_rfl

/-- The visit's events, in order and within its bounds. -/
structure InOrder (s : TraceSession) : Prop where
  ascending : s.rows.Pairwise fun r r' => r.eventTimestamp ≤ r'.eventTimestamp
  within : ∀ r ∈ s.rows, s.startedAt ≤ r.eventTimestamp ∧ r.eventTimestamp ≤ s.endedAt

/-- In a list in order every row lies between the first and the last. -/
theorem between_ends {rows : List RawEvent} {first last : Instant}
    (hasc : rows.Pairwise fun r r' => r.eventTimestamp ≤ r'.eventTimestamp)
    (hfirst : rows.head?.map RawEvent.eventTimestamp = some first)
    (hlast : rows.getLast?.map RawEvent.eventTimestamp = some last) :
    ∀ r ∈ rows, first ≤ r.eventTimestamp ∧ r.eventTimestamp ≤ last := by
  intro r hr
  constructor
  · cases rows with
    | nil => cases hr
    | cons r₀ rest =>
      have hr₀ : r₀.eventTimestamp = first := by simpa using hfirst
      rw [← hr₀]
      obtain rfl | hmem := List.mem_cons.mp hr
      · exact le_rfl
      · exact List.rel_of_pairwise_cons hasc hmem
  · obtain rfl | ⟨front, r₁, rfl⟩ := List.eq_nil_or_concat rows
    · cases hr
    · rw [List.concat_eq_append] at *
      have hr₁ : r₁.eventTimestamp = last := by simpa using hlast
      rw [← hr₁]
      obtain hmem | hmem := List.mem_append.mp hr
      · exact (List.pairwise_append.mp hasc).2.2 r hmem r₁ (List.mem_singleton_self r₁)
      · rw [List.mem_singleton.mp hmem]

/-- A visit of a page in order is in order. -/
theorem finish_inOrder {group : List TraceEvent} {s : TraceSession} (h : Holds group s)
    (hasc : group.Pairwise fun e e' => e.timestamp ≤ e'.timestamp) (stored : String → Option Session) :
    InOrder (s.finish stored) := by
  have hrows : s.rows.Pairwise fun r r' => r.eventTimestamp ≤ r'.eventTimestamp := by
    rw [h.rows, List.pairwise_map]
    exact hasc
  constructor
  · rw [finish_rows]
    exact hrows
  · intro r hr
    rw [finish_rows] at hr
    have hbetween := between_ends hrows h.started h.ended r hr
    have hbounds := finish_bounds s stored
    exact ⟨hbounds.1.trans hbetween.1, hbetween.2.trans hbounds.2⟩

/-! ## §6. The visits partition the page. -/

/-- The ids that say whose event in which visit. -/
def ids (r : RawEvent) : String × String := (r.visitorId, r.sessionId)

/-- No event is lost and none is there twice; the visits are in order; the counts add up. -/
structure Accounts (events : List TraceEvent) (sessions : List TraceSession) : Prop where
  rows : (sessions.flatMap TraceSession.rows).Perm (events.map TraceEvent.row)
  inOrder : ∀ s ∈ sessions, InOrder s
  eventCount : (sessions.map TraceSession.eventCount).sum = events.length
  pageViews : (sessions.map TraceSession.pageViews).sum = events.countP fun e => isPageView e.row
  conversions : (sessions.map TraceSession.conversions).sum = events.countP fun e => e.row.isConversion

/-- The visits partition the page: and two events share a visit exactly when both their
ids are equal. -/
structure Partitions (events : List TraceEvent) (sessions : List TraceSession) : Prop
    extends Accounts events sessions where
  together : ∀ s ∈ sessions, ∀ r ∈ s.rows, ∀ r' ∈ s.rows, ids r = ids r'
  apart : sessions.Pairwise fun s t => ∀ r ∈ s.rows, ∀ r' ∈ t.rows, ids r ≠ ids r'

/-- The visits before they are sorted. -/
def finished (stored : String → Option Session) (page : List TraceEvent) : List TraceSession :=
  (page.foldl (fun groups e => addEvent e groups) []).map fun ks => ks.2.finish stored

/-- Each is the finished visit of a group. -/
def Finished (stored : String → Option Session) (group : List TraceEvent) (t : TraceSession) : Prop :=
  ∃ s, Holds group s ∧ t = s.finish stored

theorem finished_spec (stored : String → Option Session) (page : List TraceEvent) :
    List.Forall₂ (Finished stored) (Table.groupsInOrder traceKey page) (finished stored page) := by
  unfold Table.groupsInOrder finished
  rw [List.forall₂_map_left_iff, List.forall₂_map_right_iff]
  exact (foldl_addEvent_holds page).imp fun _ ks h => ⟨ks.2, h.2, rfl⟩

theorem Finished.rows {stored : String → Option Session} {group : List TraceEvent} {t : TraceSession}
    (h : Finished stored group t) : t.rows = group.map TraceEvent.row := by
  obtain ⟨s, hs, rfl⟩ := h
  rw [finish_rows, hs.rows]

/-- The visits' rows are the groups' rows. -/
theorem finished_rows (stored : String → Option Session) (page : List TraceEvent) :
    (finished stored page).map TraceSession.rows
      = (Table.groupsInOrder traceKey page).map (List.map TraceEvent.row) := by
  have hspec := finished_spec stored page
  generalize finished stored page = sessions at hspec ⊢
  generalize Table.groupsInOrder traceKey page = groups at hspec ⊢
  induction hspec with
  | nil => rfl
  | cons hhead _ ih => rw [List.map_cons, List.map_cons, hhead.rows, ih]

theorem finished_mem {stored : String → Option Session} {page : List TraceEvent} {t : TraceSession}
    (ht : t ∈ finished stored page) : ∃ g ∈ Table.groupsInOrder traceKey page, Finished stored g t := by
  have hspec := finished_spec stored page
  generalize finished stored page = sessions at hspec ht
  generalize Table.groupsInOrder traceKey page = groups at hspec ⊢
  induction hspec with
  | nil => cases ht
  | cons hhead _ ih =>
    obtain rfl | hmem := List.mem_cons.mp ht
    · exact ⟨_, List.mem_cons_self, hhead⟩
    · obtain ⟨g, hg, hfinished⟩ := ih hmem
      exact ⟨g, List.mem_cons_of_mem _ hg, hfinished⟩

/-- A sum over the visits is a count of their rows. -/
theorem sum_of_rows {sessions : List TraceSession} {count : TraceSession → Nat} {p : RawEvent → Bool}
    (hcount : ∀ s ∈ sessions, count s = s.rows.countP p) :
    (sessions.map count).sum = (sessions.flatMap TraceSession.rows).countP p := by
  rw [List.countP_flatMap]
  congr 1
  exact List.map_congr_left hcount

/-- No event is lost or there twice, whatever the keys. -/
theorem finished_accounts (stored : String → Option Session) {page : List TraceEvent}
    (hasc : page.Pairwise fun e e' => e.timestamp ≤ e'.timestamp) :
    Accounts page (finished stored page) := by
  have hrows : ((finished stored page).flatMap TraceSession.rows).Perm (page.map TraceEvent.row) := by
    rw [List.flatMap_def, finished_rows, ← List.map_flatten]
    exact (Table.groupsInOrder_perm traceKey page).map TraceEvent.row
  have hcount : ∀ p : RawEvent → Bool, ((finished stored page).flatMap TraceSession.rows).countP p
      = page.countP fun e => p e.row := by
    intro p
    rw [hrows.countP_eq, List.countP_map]
    rfl
  refine ⟨hrows, ?_, ?_, ?_, ?_⟩
  · intro t ht
    obtain ⟨g, hg, s, hs, rfl⟩ := finished_mem ht
    exact finish_inOrder hs (hasc.sublist (Table.groupsInOrder_sublist traceKey page g hg)) stored
  · rw [sum_of_rows (p := fun _ => true), hcount, List.countP_true]
    intro t ht
    obtain ⟨_, _, s, _, rfl⟩ := finished_mem ht
    rw [(finish_counts s stored).1, finish_rows, List.countP_true]
  · rw [sum_of_rows (p := isPageView), hcount]
    intro t ht
    obtain ⟨_, _, s, hs, rfl⟩ := finished_mem ht
    rw [(finish_counts s stored).2.1, finish_rows, hs.pageViews]
  · rw [sum_of_rows (p := RawEvent.isConversion), hcount]
    intro t ht
    obtain ⟨_, _, s, hs, rfl⟩ := finished_mem ht
    rw [(finish_counts s stored).2.2, finish_rows, hs.conversions]

/-! ## §7. Who shares a visit with whom. -/

theorem traceKey_of_ids {e e' : TraceEvent} (h : ids e.row = ids e'.row) : traceKey e = traceKey e' := by
  have hvisitor : e.row.visitorId = e'.row.visitorId := congrArg Prod.fst h
  have hsession : e.row.sessionId = e'.row.sessionId := congrArg Prod.snd h
  rw [traceKey, traceKey, hvisitor, hsession]

/-- Within a visit the events have one key, -/
theorem finished_together {stored : String → Option Session} {page : List TraceEvent} {t : TraceSession}
    (ht : t ∈ finished stored page) : ∀ r ∈ t.rows, ∀ r' ∈ t.rows,
      ∃ e ∈ page, ∃ e' ∈ page, e.row = r ∧ e'.row = r' ∧ traceKey e = traceKey e' := by
  obtain ⟨g, hg, hfinished⟩ := finished_mem ht
  have hsub := Table.groupsInOrder_sublist traceKey page g hg
  have hkey := (Table.groupsInOrder_spec traceKey page g hg).2
  intro r hr r' hr'
  rw [hfinished.rows] at hr hr'
  obtain ⟨e, he, hrow⟩ := List.mem_map.mp hr
  obtain ⟨e', he', hrow'⟩ := List.mem_map.mp hr'
  exact ⟨e, hsub.subset he, e', hsub.subset he', hrow, hrow', hkey e he e' he'⟩

/-- two events with one key are in one visit, -/
theorem finished_shared (stored : String → Option Session) {page : List TraceEvent} {e e' : TraceEvent}
    (he : e ∈ page) (he' : e' ∈ page) (hkey : traceKey e = traceKey e') :
    ∃ t ∈ finished stored page, e.row ∈ t.rows ∧ e'.row ∈ t.rows := by
  have hgroup := Table.groupOf_mem_groupsInOrder traceKey he
  have hmapped : (Table.groupOf traceKey page (traceKey e)).map TraceEvent.row
      ∈ (finished stored page).map TraceSession.rows := by
    rw [finished_rows]
    exact List.mem_map_of_mem hgroup
  obtain ⟨t, ht, hrows⟩ := List.mem_map.mp hmapped
  have hmem : ∀ e₁ ∈ page, traceKey e₁ = traceKey e → e₁.row ∈ t.rows := by
    intro e₁ h₁ hk
    rw [hrows]
    exact List.mem_map_of_mem (List.mem_filter.mpr ⟨h₁, decide_eq_true hk⟩)
  exact ⟨t, ht, hmem e he rfl, hmem e' he' hkey.symm⟩

/-- and the events of two visits have two, and so two pairs of ids. -/
theorem finished_apart (stored : String → Option Session) (page : List TraceEvent) :
    (finished stored page).Pairwise fun s t => ∀ r ∈ s.rows, ∀ r' ∈ t.rows, ids r ≠ ids r' := by
  have hgroups := Table.groupsInOrder_pairwise traceKey page
  have hmapped : ((finished stored page).map TraceSession.rows).Pairwise
      fun rows rows' => ∀ r ∈ rows, ∀ r' ∈ rows', ids r ≠ ids r' := by
    rw [finished_rows, List.pairwise_map]
    refine hgroups.imp fun {g g'} h r hr r' hr' hids => ?_
    obtain ⟨e, he, rfl⟩ := List.mem_map.mp hr
    obtain ⟨e', he', rfl⟩ := List.mem_map.mp hr'
    exact h e he e' he' (traceKey_of_ids hids)
  exact List.pairwise_map.mp hmapped

/-- The visits of a page are the finished ones, sorted. -/
theorem groupTraceSessions_perm (store : Table SessionKey Session) (siteId : Uuid) (environment : String)
    (events : List TraceEvent) :
    (groupTraceSessions store siteId environment events).Perm
      (finished (fun sessionId => store.lookup ⟨siteId, environment, sessionId⟩) events.reverse) :=
  List.mergeSort_perm _ _

section
variable (store : Table SessionKey Session) (siteId : Uuid) (environment : String)
variable {events : List TraceEvent} (hnewest : events.Pairwise fun e e' => e'.timestamp ≤ e.timestamp)
include hnewest

/-- **No event of the page is lost or counted twice**, and each visit is in order and
within its bounds. -/
theorem groupTraceSessions_accounts :
    Accounts events (groupTraceSessions store siteId environment events) := by
  have hperm := groupTraceSessions_perm store siteId environment events
  have hacc := finished_accounts (fun sessionId => store.lookup ⟨siteId, environment, sessionId⟩)
    (List.pairwise_reverse.mpr hnewest)
  have hreverse := List.reverse_perm events
  constructor
  · exact (hperm.flatMap_right _).trans (hacc.rows.trans (hreverse.map _))
  · intro s hs
    exact hacc.inOrder s (hperm.subset hs)
  · rw [(hperm.map _).sum_eq, hacc.eventCount, List.length_reverse]
  · rw [(hperm.map _).sum_eq, hacc.pageViews, hreverse.countP_eq]
  · rw [(hperm.map _).sum_eq, hacc.conversions, hreverse.countP_eq]

/-- **The visits partition the page** exactly when no two pairs of ids in it give one
text `visitor|session`. -/
theorem partitions_iff :
    Partitions events (groupTraceSessions store siteId environment events)
      ↔ ∀ e ∈ events, ∀ e' ∈ events, traceKey e = traceKey e' → ids e.row = ids e'.row := by
  have hperm := groupTraceSessions_perm store siteId environment events
  generalize hstored : (fun sessionId => store.lookup ⟨siteId, environment, sessionId⟩) = stored at hperm
  constructor
  · intro h e he e' he' hkey
    obtain ⟨s, hs, hr, hr'⟩ := finished_shared stored (List.mem_reverse.mpr he) (List.mem_reverse.mpr he') hkey
    exact h.together s (hperm.symm.subset hs) e.row hr e'.row hr'
  · intro hids
    refine ⟨groupTraceSessions_accounts store siteId environment hnewest, ?_, ?_⟩
    · intro s hs r hr r' hr'
      obtain ⟨e, he, e', he', rfl, rfl, hkey⟩ := finished_together (hperm.subset hs) r hr r' hr'
      exact hids e (List.mem_reverse.mp he) e' (List.mem_reverse.mp he') hkey
    · refine (hperm.pairwise_iff ?_).mpr (finished_apart stored events.reverse)
      intro s t h r hr r' hr' heq
      exact h r' hr' r hr heq.symm

end

namespace Sample

/-- An event of one visitor in one session. -/
def event (id : Nat) (visitorId sessionId : String) (timestamp : Instant) : TraceEvent where
  row :=
    { id := id, eventId := ⟨.ofNat 128 id⟩, siteId := ⟨2⟩, eventName := "page_view", eventTimestamp := timestamp
      visitorId := visitorId, sessionId := sessionId, pageUrl := some "/", trafficClass := "human"
      environment := "production", contractVersion := 0 }

/-- The session id `b|c` of the visitor `a`, and the session id `c` of the visitor `a|b`. -/
def twoVisitors : List TraceEvent := [event 2 "a" "b|c" 7, event 1 "a|b" "c" 5]

theorem twoVisitors_newest : twoVisitors.Pairwise fun e e' => e'.timestamp ≤ e.timestamp := by
  simp [twoVisitors, event, TraceEvent.timestamp]

theorem partitions_iff_twoVisitors :
    Partitions twoVisitors (groupTraceSessions ∅ ⟨2⟩ "production" twoVisitors)
      ↔ ∀ e ∈ twoVisitors, ∀ e' ∈ twoVisitors, traceKey e = traceKey e' → ids e.row = ids e'.row :=
  partitions_iff ∅ ⟨2⟩ "production" twoVisitors_newest

/-- Their events are in one visit. -/
theorem two_visitors_share_visit :
    twoVisitors.Pairwise (fun e e' => e'.timestamp ≤ e.timestamp)
      ∧ ∃ s ∈ groupTraceSessions ∅ ⟨2⟩ "production" twoVisitors,
        ∃ r ∈ s.rows, ∃ r' ∈ s.rows, ids r = ("a", "b|c") ∧ ids r' = ("a|b", "c") := by
  refine ⟨twoVisitors_newest, ?_⟩
  have hkey : traceKey (event 2 "a" "b|c" 7) = traceKey (event 1 "a|b" "c" 5) := by decide
  obtain ⟨s, hs, hr, hr'⟩ := finished_shared (fun sessionId => (∅ : Table SessionKey Session).lookup
    ⟨⟨2⟩, "production", sessionId⟩) (List.mem_reverse.mpr (show event 2 "a" "b|c" 7 ∈ twoVisitors by simp [twoVisitors]))
    (List.mem_reverse.mpr (show event 1 "a|b" "c" 5 ∈ twoVisitors by simp [twoVisitors])) hkey
  have hperm := groupTraceSessions_perm ∅ ⟨2⟩ "production" twoVisitors
  exact ⟨s, hperm.symm.subset hs, _, hr, _, hr', rfl, rfl⟩

end Sample

end Momento.Http.Trace
