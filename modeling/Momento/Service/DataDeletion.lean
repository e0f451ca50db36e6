/-
  Momento.Service.DataDeletion

  **`deleteAnalyticsData`.**  An administrator has the data of a site, a visitor, a user, a
  period or a property deleted: in the queue, in the dead letters, in the raw events and,
  by a rebuild, in what is derived from them; all in one transaction.

  The site is the one whose key the body names.
-/
import Momento.Service.Erasure
import Momento.Service.Roles

namespace Momento

open Foundation

/-! ## §1. What is asked for. -/

/-- The body of the request. -/
structure DeletionRequest where
  siteId : String
  mode : String
  value : String
  start : String
  stop : String
  confirm : String

/-- The calendar of a zone. -/
structure Calendar where
  /-- `time.ParseInLocation("2006-01-02", …)`. -/
  parseInLocation : String → String → Option Instant
  /-- `AddDate(0, 0, 1)`. -/
  nextDay : String → Instant → Instant

/-- A request that was understood. -/
inductive Deletion where
  | site
  | visitor (visitorId : String)
  | userId (userId : String)
  | period (start stop : Instant)
  | property (name : String)

/-- `eventNamePatternForProperty`. -/
def isPropertyName (name : String) : Bool :=
  match name.toList with
  | [] => false
  | c :: cs =>
    (c.isAlpha || c = '_') && cs.length ≤ 127 && cs.all fun c => c.isAlphanum || c = '_' || c = '.' || c = '-'

/-- `SELECT id FROM sites WHERE site_key=$1`. -/
def siteByKey (sites : Table Uuid Site) (key : String) : Option Uuid :=
  (sites.entries.find? fun e => e.2.siteKey = key).map Sigma.fst

/-- `parseDateRange`. -/
def parseDateRange (env : Platform) (calendar : Calendar) (sites : Table Uuid Site) (siteId : Uuid)
    (start stop : String) : Except Refusal (Instant × Instant) :=
  match sites.lookup siteId with
  | none => .error ⟨400, "INVALID_RANGE", "no rows in result set"⟩
  | some site =>
    if !env.loadLocation site.timezone then
      .error ⟨400, "INVALID_RANGE", "invalid site timezone " ++ env.quote site.timezone⟩
    else match calendar.parseInLocation site.timezone start, calendar.parseInLocation site.timezone stop with
      | some first, some last =>
        let last := calendar.nextDay site.timezone last
        if last ≤ first ∨ 3660 * 24 * 3600 * 1000000 < last - first then
          .error ⟨400, "INVALID_RANGE", "date range must be positive and at most 10 years"⟩
        else .ok (first, last)
      | _, _ => .error ⟨400, "INVALID_RANGE", "from/to must use YYYY-MM-DD"⟩

/-- The checks before the transaction. -/
def DeletionRequest.understood (env : Platform) (calendar : Calendar) (sites : Table Uuid Site)
    (request : DeletionRequest) : Except Refusal (Uuid × Deletion) :=
  if request.confirm ≠ "DELETE" then .error ⟨400, "CONFIRMATION_REQUIRED", "confirm must be DELETE"⟩
  else match siteByKey sites request.siteId with
    | none => .error ⟨404, "UNKNOWN_SITE", "site not found"⟩
    | some siteId =>
      match request.mode with
      | "site" => .ok (siteId, .site)
      | "visitor" => .ok (siteId, .visitor request.value)
      | "user_id" => .ok (siteId, .userId request.value)
      | "property" =>
        if isPropertyName request.value then .ok (siteId, .property request.value)
        else .error ⟨400, "INVALID_PROPERTY", "property name is invalid"⟩
      | "period" =>
        (parseDateRange env calendar sites siteId request.start request.stop).map fun range =>
          (siteId, .period range.1 range.2)
      | _ => .error ⟨400, "INVALID_MODE", "mode must be site, visitor, user_id, period, or property"⟩

/-! ## §2. The queue. -/

/-- The event without the property. -/
def IncomingEvent.withoutProperty (name : String) (event : IncomingEvent) : IncomingEvent :=
  { event with properties := event.properties.map fun p => p.filter fun m => m.1 ≠ name }

section
variable (env : Platform)

/-- The time the scrub takes a queued event for. -/
def queuedTime (now : Instant) (event : IncomingEvent) : Instant :=
  let occurred := event.timestamp * 1000
  if event.timestamp ≤ 0 ∨ occurred < env.fiveYearsBefore now ∨ now + 24 * 3600 * 1000000 < occurred then now
  else occurred

/-- What the scrub meets: its clock, and whether a stored document that does not decode
names the visitor or the user. -/
structure ScrubReadings where
  now : Instant
  names : String → Bool

/-- A payload with other events; without any its row is deleted. -/
def InboxPayload.keeping (payload : InboxPayload) (events : List IncomingEvent) : Option InboxPayload :=
  if events = [] then none else some { payload with request := { payload.request with events := events } }.reload

/-- **What is left of a queued payload**: none, when its row is deleted. -/
def scrubbed (readings : ScrubReadings) (linked : List String) :
    Deletion → Except String InboxPayload → Option (Except String InboxPayload)
  | .site, _ => none
  | .visitor visitorId, .ok p => if p.request.visitorId = visitorId then none else some (.ok p)
  | .userId userId, .ok p =>
    if nullIfEmpty p.request.userId = some userId ∨ p.request.visitorId ∈ linked then none else some (.ok p)
  | .visitor _, .error e | .userId _, .error e => if readings.names e then none else some (.error e)
  -- A document that does not decode cannot be proven free of the selected data.
  | .period .., .error _ | .property _, .error _ => none
  | .period start stop, .ok p =>
    (p.keeping (p.request.events.filter fun event =>
      queuedTime env readings.now event < start ∨ stop ≤ queuedTime env readings.now event)).map .ok
  | .property name, .ok p => (p.keeping (p.request.events.map (IncomingEvent.withoutProperty name))).map .ok

/-- `scrubQueuedAnalyticsData`. -/
def Database.scrubQueued (readings : ScrubReadings) (siteId : Uuid) (deletion : Deletion) (linked : List String)
    (db : Database) : Database :=
  { db with
    inbox := db.inbox.filterMapRows fun _ row =>
      if row.siteId = siteId then
        (scrubbed env readings linked deletion row.payload).map fun payload => { row with payload := payload }
      else some row
    deadLetters := db.deadLetters.filterMap fun letter =>
      if letter.siteId = siteId then
        (scrubbed env readings linked deletion letter.payload).map fun payload => { letter with payload := payload }
      else some letter }

end

/-! ## §3. The raw events. -/

/-- `UPDATE raw_events SET properties=properties-$2 WHERE …`. -/
def RawEvents.withoutProperty (covers : RawEvent → Bool) (name : String) (t : RawEvents) : RawEvents where
  rows := t.rows.map fun r => if covers r then { r with properties := r.properties.filter fun m => m.1 ≠ name } else r
  lastId := t.lastId
  newestFirst := by
    rw [List.pairwise_map]
    refine t.newestFirst.imp ?_
    intro a b h
    split <;> split <;> exact h
  givenOut := by
    intro r hr
    obtain ⟨old, hold, rfl⟩ := List.mem_map.mp hr
    split <;> exact t.givenOut old hold
  distinct := by
    rw [List.map_map]
    have hkeys : RawEvent.uniqueKey ∘ (fun r : RawEvent =>
        if covers r then { r with properties := r.properties.filter fun m => m.1 ≠ name } else r)
          = RawEvent.uniqueKey := by
      funext r
      simp only [Function.comp]
      split <;> rfl
    rw [hkeys]
    exact t.distinct

/-- The events a deletion takes away. -/
def Deletion.selects (linked : List String) : Deletion → RawEvent → Bool
  | .site, _ => true
  | .visitor visitorId, r => Selection.selects (.visitor visitorId) r
  | .userId user, r => Selection.selects (.userId user linked) r
  | .period start stop, r => Selection.selects (.period start stop) r
  | .property _, _ => false

/-- `SELECT visitor_id FROM visitor_identities …`, in the one mode that asks. -/
def Deletion.linked (siteId : Uuid) (store : Store) : Deletion → List String
  | .userId user => store.linkedVisitors siteId user
  | _ => []

/-! ## §4. The transaction. -/

section
variable (env : Platform) (readings : ScrubReadings) (siteId : Uuid) (db : Database)

/-- `DELETE FROM raw_events WHERE …`, and the rebuild. -/
def Database.deleteRawEvents (covers : RawEvent → Bool) : Except DbError (Nat × Database) :=
  let store := { db.store with rawEvents := db.store.rawEvents.keepRows fun r => !(r.siteId = siteId && covers r) }
  (store.rebuildSiteDerivedData env siteId).map fun store =>
    (db.store.rawEvents.rows.countP fun r => r.siteId = siteId && covers r, { db with store := store })

/-- `UPDATE raw_events SET properties=properties-$2 WHERE site_id=$1 AND properties ? $2`. -/
def Database.dropProperty (name : String) : Nat × Database :=
  let covers (r : RawEvent) : Bool := r.siteId = siteId && (r.properties.get name).isSome
  (db.store.rawEvents.rows.countP covers,
    { db with store := { db.store with rawEvents := db.store.rawEvents.withoutProperty covers name } })

/-- **The transaction**: how many raw events it deleted or changed, and the database. -/
def deleteData (deletion : Deletion) : Except DbError (Nat × Database) :=
  let linked := deletion.linked siteId db.store
  let db := db.scrubQueued env readings siteId deletion linked
  match deletion with
  | .property name => .ok (db.dropProperty siteId name)
  | deletion => db.deleteRawEvents env siteId (deletion.selects linked)

end

/-! ## §5. What a deletion leaves alone. -/

/-- Every row of a site is as it was. -/
structure Database.SameAt (siteId : Uuid) (db db' : Database) : Prop where
  site : db'.store.config.sites.lookup siteId = db.store.config.sites.lookup siteId
  environments : ∀ k, k.siteId = siteId →
    db'.store.config.siteEnvironments.lookup k = db.store.config.siteEnvironments.lookup k
  definitions : ∀ k, k.siteId = siteId →
    db'.store.config.eventDefinitions.lookup k = db.store.config.eventDefinitions.lookup k
  versions : db'.store.config.contractVersions.filter (fun v => v.siteId = siteId)
    = db.store.config.contractVersions.filter (fun v => v.siteId = siteId)
  rawEvents : db'.store.rawEvents.rows.filter (fun r => r.siteId = siteId)
    = db.store.rawEvents.rows.filter (fun r => r.siteId = siteId)
  visitors : ∀ k, k.siteId = siteId → db'.store.visitors.lookup k = db.store.visitors.lookup k
  visitorIdentities : ∀ k, k.siteId = siteId →
    db'.store.visitorIdentities.lookup k = db.store.visitorIdentities.lookup k
  identifiedUsers : ∀ k, k.siteId = siteId → db'.store.identifiedUsers.lookup k = db.store.identifiedUsers.lookup k
  visitorSessions : ∀ k, k.siteId = siteId → db'.store.visitorSessions.lookup k = db.store.visitorSessions.lookup k
  sessions : ∀ k, k.siteId = siteId → db'.store.sessions.lookup k = db.store.sessions.lookup k
  dailySiteMetrics : ∀ k, k.siteId = siteId → db'.store.dailySiteMetrics.lookup k = db.store.dailySiteMetrics.lookup k
  dailySiteVisitors : ∀ k, k.day.siteId = siteId →
    db'.store.dailySiteVisitors.lookup k = db.store.dailySiteVisitors.lookup k
  dailySiteSessions : ∀ k, k.day.siteId = siteId →
    db'.store.dailySiteSessions.lookup k = db.store.dailySiteSessions.lookup k
  dataQualityDaily : ∀ k, k.day.siteId = siteId → db'.store.dataQualityDaily.lookup k = db.store.dataQualityDaily.lookup k
  dataQualityIssues : db'.store.dataQualityIssues.filter (fun i => i.siteId = siteId)
    = db.store.dataQualityIssues.filter (fun i => i.siteId = siteId)
  dimensionValues : db'.store.dimensionValues.filter (fun v => v.day.siteId = siteId)
    = db.store.dimensionValues.filter (fun v => v.day.siteId = siteId)
  aggregateJobs : db'.store.aggregateJobs.filter (fun j => j.siteId = siteId)
    = db.store.aggregateJobs.filter (fun j => j.siteId = siteId)
  inbox : ∀ id row, row.siteId = siteId → (db'.inbox.lookup id = some row ↔ db.inbox.lookup id = some row)
  deadLetters : db'.deadLetters.filter (fun l => l.siteId = siteId) = db.deadLetters.filter (fun l => l.siteId = siteId)

theorem Database.SameAt.refl (siteId : Uuid) (db : Database) : db.SameAt siteId db := by
  constructor <;> intros <;> rfl

theorem Database.SameAt.trans {siteId : Uuid} {db db' db'' : Database} (h : db.SameAt siteId db')
    (h' : db'.SameAt siteId db'') : db.SameAt siteId db'' where
  site := h'.site.trans h.site
  environments k hk := (h'.environments k hk).trans (h.environments k hk)
  definitions k hk := (h'.definitions k hk).trans (h.definitions k hk)
  versions := h'.versions.trans h.versions
  rawEvents := h'.rawEvents.trans h.rawEvents
  visitors k hk := (h'.visitors k hk).trans (h.visitors k hk)
  visitorIdentities k hk := (h'.visitorIdentities k hk).trans (h.visitorIdentities k hk)
  identifiedUsers k hk := (h'.identifiedUsers k hk).trans (h.identifiedUsers k hk)
  visitorSessions k hk := (h'.visitorSessions k hk).trans (h.visitorSessions k hk)
  sessions k hk := (h'.sessions k hk).trans (h.sessions k hk)
  dailySiteMetrics k hk := (h'.dailySiteMetrics k hk).trans (h.dailySiteMetrics k hk)
  dailySiteVisitors k hk := (h'.dailySiteVisitors k hk).trans (h.dailySiteVisitors k hk)
  dailySiteSessions k hk := (h'.dailySiteSessions k hk).trans (h.dailySiteSessions k hk)
  dataQualityDaily k hk := (h'.dataQualityDaily k hk).trans (h.dataQualityDaily k hk)
  dataQualityIssues := h'.dataQualityIssues.trans h.dataQualityIssues
  dimensionValues := h'.dimensionValues.trans h.dimensionValues
  aggregateJobs := h'.aggregateJobs.trans h.aggregateJobs
  inbox id row hrow := (h'.inbox id row hrow).trans (h.inbox id row hrow)
  deadLetters := h'.deadLetters.trans h.deadLetters

section
variable {env : Platform} {readings : ScrubReadings} {siteId other : Uuid}

/-- A statement that maps only the rows of one site leaves those of another. -/
theorem filter_filterMap_of_ne {ρ : Type} (site : ρ → Uuid) {f : ρ → Option ρ}
    (hsite : ∀ r r', f r = some r' → site r' = site r)
    (hother : ∀ r, site r = other → f r = some r) (rows : List ρ) :
    (rows.filterMap f).filter (fun r => site r = other) = rows.filter (fun r => site r = other) := by
  induction rows with
  | nil => rfl
  | cons r rest ih =>
    by_cases hr : site r = other
    · rw [List.filterMap_cons_some (hother r hr), List.filter_cons, List.filter_cons, ih]
    · rw [List.filter_cons, if_neg (by simpa using hr)]
      cases hf : f r with
      | none => rw [List.filterMap_cons_none hf, ih]
      | some r' =>
        have hr' : ¬site r' = other := by rwa [hsite r r' hf]
        rw [List.filterMap_cons_some hf, List.filter_cons, if_neg (by simpa using hr'), ih]

/-- The queue's rows of another site. -/
theorem scrubQueued_sameAt (h : other ≠ siteId) (deletion : Deletion) (linked : List String) (db : Database) :
    db.SameAt other (db.scrubQueued env readings siteId deletion linked) := by
  have hsame := Database.SameAt.refl other db
  refine { hsame with inbox := ?_, deadLetters := ?_ }
  · intro id row hrow
    show (db.inbox.filterMapRows _).lookup id = some row ↔ _
    rw [Table.lookup_filterMapRows]
    cases hold : db.inbox.lookup id with
    | none => exact Iff.rfl
    | some old =>
      rw [Option.bind_some]
      by_cases hsite : old.siteId = siteId
      · -- A row of the site stays one, so it is not the row of the other site.
        rw [if_pos hsite]
        constructor
        · intro hnew
          obtain ⟨payload, -, rfl⟩ := Option.map_eq_some_iff.mp hnew
          exact absurd (hrow.symm.trans hsite) h
        · intro hnew
          obtain rfl := Option.some.inj hnew
          exact absurd (hrow.symm.trans hsite) h
      · rw [if_neg hsite]
  · refine filter_filterMap_of_ne DeadLetter.siteId ?_ ?_ db.deadLetters
    · intro letter letter' hf
      split at hf
      · obtain ⟨payload, -, rfl⟩ := Option.map_eq_some_iff.mp hf
        rfl
      · rw [← Option.some.inj hf]
    · intro letter hletter
      rw [if_neg]
      rw [hletter]
      exact h

/-- The groups of one site's events have keys of that site. -/
theorem lookup_groupRows_siteRows {κ ρ : Type} [DecidableEq κ] {key : RawEvent → κ} (site : κ → Uuid)
    (hkey : ∀ r, site (key r) = r.siteId) (agg : κ → List RawEvent → ρ) (rows : List RawEvent) {k : κ}
    (hk : site k ≠ siteId) : (Table.groupRows key agg (siteRows siteId rows)).lookup k = none := by
  rw [Table.lookup_groupRows, if_pos]
  refine (Table.groupOf_eq_nil_iff _ _ _).mpr ?_
  intro hmem
  obtain ⟨r, hr, rfl⟩ := List.mem_map.mp hmem
  rw [hkey] at hk
  exact hk (of_decide_eq_true (List.mem_filter.mp hr).2)

/-- A table whose rows of one site were replaced. -/
theorem lookup_replaceRows_of_ne {κ ρ : Type} [DecidableEq κ] (site : κ → Uuid) {new : Table κ ρ} (t : Table κ ρ)
    (hnew : ∀ k, site k ≠ siteId → new.lookup k = none) (h : other ≠ siteId) {k : κ} (hk : site k = other) :
    (Table.replaceRows (fun k => site k = siteId) new t).lookup k = t.lookup k := by
  have hne : site k ≠ siteId := by rwa [hk]
  rw [Table.lookup_replaceRows t (fun k hk => hnew k (of_decide_eq_false hk)), if_neg (by simpa using hne)]

theorem lookup_rebuildIdentities_of_ne {s : Store} {k : VisitorKey} (hk : k.siteId ≠ siteId) :
    (rebuildIdentities siteId s).lookup k = none := by
  unfold rebuildIdentities
  rw [Table.lookup_filterMapRows, lookup_groupRows_siteRows VisitorKey.siteId (fun _ => rfl) _ _ hk]
  rfl

theorem lookup_rebuildIdentifiedUsers_of_ne {s : Store} {k : UserKey} (hk : k.siteId ≠ siteId) :
    (rebuildIdentifiedUsers siteId s).lookup k = none := by
  unfold rebuildIdentifiedUsers
  rw [Table.lookup_groupRows, if_pos]
  refine (Table.groupOf_eq_nil_iff _ _ _).mpr ?_
  intro hmem
  obtain ⟨r, -, rfl⟩ := List.mem_map.mp hmem
  exact hk rfl

theorem lookup_rebuildDailyVisitors_of_ne {s : Store} {k : DayVisitorKey} (hk : k.day.siteId ≠ siteId) :
    (rebuildDailyVisitors env siteId s).lookup k = none := by
  unfold rebuildDailyVisitors
  cases s.config.sites.lookup siteId with
  | none => rfl
  | some site => exact lookup_groupRows_siteRows (fun k => k.day.siteId) (fun _ => rfl) _ _ hk

theorem lookup_rebuildDailySessions_of_ne {s : Store} {k : DaySessionKey} (hk : k.day.siteId ≠ siteId) :
    (rebuildDailySessions env siteId s).lookup k = none := by
  unfold rebuildDailySessions
  cases s.config.sites.lookup siteId with
  | none => rfl
  | some site => exact lookup_groupRows_siteRows (fun k => k.day.siteId) (fun _ => rfl) _ _ hk

section
variable (s : Store) (inbox : Table Nat InboxRow) (deadLetters : List DeadLetter)

theorem refillVisitors_sameAt (h : other ≠ siteId) :
    Database.SameAt other ⟨s, inbox, deadLetters⟩ ⟨s.refillVisitors siteId, inbox, deadLetters⟩ := by
  have hsame := Database.SameAt.refl other ⟨s, inbox, deadLetters⟩
  refine { hsame with visitors := ?_ }
  intro k hk
  exact lookup_replaceRows_of_ne VisitorKey.siteId s.visitors
    (fun k hk => lookup_groupRows_siteRows VisitorKey.siteId (fun _ => rfl) _ _ hk) h hk

theorem refillIdentities_sameAt (h : other ≠ siteId) :
    Database.SameAt other ⟨s, inbox, deadLetters⟩ ⟨s.refillIdentities siteId, inbox, deadLetters⟩ := by
  have hsame := Database.SameAt.refl other ⟨s, inbox, deadLetters⟩
  refine { hsame with visitorIdentities := ?_ }
  intro k hk
  exact lookup_replaceRows_of_ne VisitorKey.siteId s.visitorIdentities
    (fun k hk => lookup_rebuildIdentities_of_ne hk) h hk

theorem refillIdentifiedUsers_sameAt (h : other ≠ siteId) :
    Database.SameAt other ⟨s, inbox, deadLetters⟩ ⟨s.refillIdentifiedUsers siteId, inbox, deadLetters⟩ := by
  have hsame := Database.SameAt.refl other ⟨s, inbox, deadLetters⟩
  refine { hsame with identifiedUsers := ?_ }
  intro k hk
  exact lookup_replaceRows_of_ne UserKey.siteId s.identifiedUsers
    (fun k hk => lookup_rebuildIdentifiedUsers_of_ne hk) h hk

theorem refillVisitorSessions_sameAt (h : other ≠ siteId) :
    Database.SameAt other ⟨s, inbox, deadLetters⟩ ⟨s.refillVisitorSessions siteId, inbox, deadLetters⟩ := by
  have hsame := Database.SameAt.refl other ⟨s, inbox, deadLetters⟩
  refine { hsame with visitorSessions := ?_ }
  intro k hk
  exact lookup_replaceRows_of_ne VisitorSessionKey.siteId s.visitorSessions
    (fun k hk => lookup_groupRows_siteRows VisitorSessionKey.siteId (fun _ => rfl) _ _ hk) h hk

theorem refillSessions_sameAt (h : other ≠ siteId) :
    Database.SameAt other ⟨s, inbox, deadLetters⟩ ⟨s.refillSessions siteId, inbox, deadLetters⟩ := by
  have hsame := Database.SameAt.refl other ⟨s, inbox, deadLetters⟩
  refine { hsame with sessions := ?_ }
  intro k hk
  exact lookup_replaceRows_of_ne SessionKey.siteId s.sessions
    (fun k hk => lookup_groupRows_siteRows SessionKey.siteId (fun _ => rfl) _ _ hk) h hk

theorem refill_sameAt (h : other ≠ siteId) :
    Database.SameAt other ⟨s, inbox, deadLetters⟩ ⟨s.refill siteId, inbox, deadLetters⟩ := by
  have hvisitors := refillVisitors_sameAt s inbox deadLetters h
  have hidentities := refillIdentities_sameAt (s.refillVisitors siteId) inbox deadLetters h
  have husers := refillIdentifiedUsers_sameAt ((s.refillVisitors siteId).refillIdentities siteId) inbox deadLetters h
  have hvisits := refillVisitorSessions_sameAt
    (((s.refillVisitors siteId).refillIdentities siteId).refillIdentifiedUsers siteId) inbox deadLetters h
  exact (((hvisitors.trans hidentities).trans husers).trans hvisits).trans
    (refillSessions_sameAt _ inbox deadLetters h)

/-- The three daily tables. -/
theorem rebuildSiteDailyAggregates_sameAt {s' : Store} (hrebuild : s.rebuildSiteDailyAggregates env siteId = .ok s')
    (h : other ≠ siteId) : Database.SameAt other ⟨s, inbox, deadLetters⟩ ⟨s', inbox, deadLetters⟩ := by
  obtain ⟨metrics, hmetrics, rfl⟩ := replaced_of_daily hrebuild
  have hnew : ∀ k : DayKey, k.siteId ≠ siteId → metrics.lookup k = none := by
    intro k hk
    have hnone : (rebuildDailyMetrics env siteId s).lookup k = none :=
      lookup_rebuildDailyMetrics_of_ne (decide_eq_false hk)
    rw [Table.lookup_collect hmetrics] at hnone
    exact Option.map_eq_none_iff.mp hnone
  have hsame := Database.SameAt.refl other ⟨s, inbox, deadLetters⟩
  refine { hsame with dailySiteMetrics := ?_, dailySiteVisitors := ?_, dailySiteSessions := ?_ }
  · intro k hk
    exact lookup_replaceRows_of_ne DayKey.siteId s.dailySiteMetrics hnew h hk
  · intro k hk
    exact lookup_replaceRows_of_ne (fun k : DayVisitorKey => k.day.siteId) s.dailySiteVisitors
      (fun k hk => lookup_rebuildDailyVisitors_of_ne hk) h hk
  · intro k hk
    exact lookup_replaceRows_of_ne (fun k : DaySessionKey => k.day.siteId) s.dailySiteSessions
      (fun k hk => lookup_rebuildDailySessions_of_ne hk) h hk

/-- The rebuild of one site leaves the rows of another. -/
theorem rebuildSiteDerivedData_sameAt {s' : Store} (hrebuild : s.rebuildSiteDerivedData env siteId = .ok s')
    (h : other ≠ siteId) : Database.SameAt other ⟨s, inbox, deadLetters⟩ ⟨s', inbox, deadLetters⟩ :=
  (refill_sameAt s inbox deadLetters h).trans
    (rebuildSiteDailyAggregates_sameAt (s.refill siteId) inbox deadLetters hrebuild h)

end

/-- A deletion of raw events that went through: the rebuild of what it left. -/
theorem deleteRawEvents_ok {covers : RawEvent → Bool} {db db' : Database} {affected : Nat}
    (hdelete : db.deleteRawEvents env siteId covers = .ok (affected, db')) :
    ∃ store, ({ db.store with rawEvents := db.store.rawEvents.keepRows fun r =>
        !(r.siteId = siteId && covers r) } : Store).rebuildSiteDerivedData env siteId = .ok store
      ∧ db' = { db with store := store } := by
  unfold Database.deleteRawEvents at hdelete
  dsimp only at hdelete
  cases hrebuild : ({ db.store with rawEvents := db.store.rawEvents.keepRows fun r =>
      !(r.siteId = siteId && covers r) } : Store).rebuildSiteDerivedData env siteId with
  | error e =>
    rw [hrebuild] at hdelete
    cases hdelete
  | ok store =>
    rw [hrebuild] at hdelete
    obtain ⟨-, rfl⟩ := Prod.mk.inj (Except.ok.inj hdelete)
    exact ⟨store, rfl, rfl⟩

/-- Raw events of another site are not deleted. -/
theorem deleteRawEvents_sameAt {covers : RawEvent → Bool} {db db' : Database} {affected : Nat}
    (hdelete : db.deleteRawEvents env siteId covers = .ok (affected, db')) (h : other ≠ siteId) : db.SameAt other db' := by
  obtain ⟨store, hrebuild, rfl⟩ := deleteRawEvents_ok hdelete
  refine Database.SameAt.trans ?_ (rebuildSiteDerivedData_sameAt _ db.inbox db.deadLetters hrebuild h)
  have hsame := Database.SameAt.refl other db
  refine { hsame with rawEvents := ?_ }
  show (db.store.rawEvents.rows.filter _).filter _ = _
  rw [List.filter_filter]
  refine List.filter_congr ?_
  intro r _
  by_cases hr : r.siteId = other
  · simp [hr, h]
  · simp [hr]

/-- Raw events of another site keep their properties. -/
theorem dropProperty_sameAt (name : String) (db : Database) (h : other ≠ siteId) :
    db.SameAt other (db.dropProperty siteId name).2 := by
  have hsame := Database.SameAt.refl other db
  refine { hsame with rawEvents := ?_ }
  show (db.store.rawEvents.rows.map _).filter _ = _
  rw [← List.filterMap_eq_map]
  refine filter_filterMap_of_ne RawEvent.siteId ?_ ?_ db.store.rawEvents.rows
  · intro r r' hr
    rw [← Option.some.inj hr]
    dsimp only
    split <;> rfl
  · intro r hr
    have hne : r.siteId ≠ siteId := by rwa [hr]
    simp [hne]

/-- **A deletion stays within its site.** -/
theorem deleteData_sameAt {deletion : Deletion} {db db' : Database} {affected : Nat}
    (hdelete : deleteData env readings siteId db deletion = .ok (affected, db')) (h : other ≠ siteId) :
    db.SameAt other db' := by
  have hscrub : db.SameAt other (db.scrubQueued env readings siteId deletion (deletion.linked siteId db.store)) :=
    scrubQueued_sameAt h deletion _ db
  cases deletion with
  | property name =>
    obtain ⟨-, rfl⟩ := Prod.mk.inj (Except.ok.inj hdelete)
    exact hscrub.trans (dropProperty_sameAt name _ h)
  | site => exact hscrub.trans (deleteRawEvents_sameAt hdelete h)
  | visitor visitorId => exact hscrub.trans (deleteRawEvents_sameAt hdelete h)
  | userId userId => exact hscrub.trans (deleteRawEvents_sameAt hdelete h)
  | period start stop => exact hscrub.trans (deleteRawEvents_sameAt hdelete h)

end

end Momento
