/-
  Momento.Service.ErasureCompleteness

  **AN ERASURE AMONG THE WORKERS.**  `deleteAnalyticsData` and `executePrivacyRequest`
  delete in one transaction, while requests come in and passes of the workers begin and
  end.  What the others can do lies around two of its moments:

      linked   — it reads which visitors are linked to the user
      erase    — it has waited for the inbox rows that passes hold; it scrubs the queue,
                 deletes the raw events, rebuilds, and commits

  From its scrub on it holds every inbox row it selects, so that no pass writes what it
  selects before it ends; that is why the rest of it is one step.

  The links are read before the wait, and what a pass links meanwhile is missed.
-/
import Momento.Foundation.Runs
import Momento.Service.DataDeletion
import Momento.Service.InboxJobs
import Momento.Service.Selected

namespace Momento

open Foundation

/-! ## §1. Privacy requests. -/

/-- `CHECK(request_type IN ('delete','export','property_delete'))`. -/
inductive RequestType
  | delete
  | exportOnly
  | propertyDelete
  deriving DecidableEq

/-- `CHECK(identity_type IN ('user_id','visitor_id','period'))`. -/
inductive IdentityType
  | userId
  | visitorId
  | period
  deriving DecidableEq

/-- `status`. -/
inductive RequestStatus
  | pending
  | approved
  | running
  | completed
  | rejected
  | failed
  deriving DecidableEq

/-- A row of `privacy_requests`. -/
structure PrivacyRequest where
  requestType : RequestType
  identityType : IdentityType
  identityValue : String
  dateFrom : Option Date
  dateTo : Option Date
  status : RequestStatus

/-- `time.Time{}`. -/
def zeroTime : Instant := -62135596800000000

section
variable (env : Platform) (startOfDay : String → Date → Instant)

/-- `privacyRequestDateRange`; `startOfDay` is `time.Date` at midnight. -/
def privacyRequestDateRange (sites : Table Uuid Site) (siteId : Uuid) (first last : Date) :
    Except DbError (Instant × Instant) :=
  match sites.lookup siteId with
  | none => .error .noRows
  | some site =>
    if !env.loadLocation site.timezone then .error (.program ("invalid site timezone " ++ env.quote site.timezone))
    else .ok (startOfDay site.timezone first, startOfDay site.timezone (last + 1))

/-- The instants between the request's dates. -/
def PrivacyRequest.range (sites : Table Uuid Site) (siteId : Uuid) (request : PrivacyRequest) :
    Except DbError (Instant × Instant) :=
  match request.dateFrom, request.dateTo with
  | some first, some last => privacyRequestDateRange env startOfDay sites siteId first last
  | _, _ => .ok (zeroTime, zeroTime)

/-- What a request to delete selects. -/
def PrivacyRequest.deletion (request : PrivacyRequest) (range : Instant × Instant) : Deletion :=
  match request.identityType with
  | .visitorId => .visitor request.identityValue
  | .userId => .userId request.identityValue
  | .period => .period range.1 range.2

/-- The transaction of a deletion, the linked visitors having been read. -/
def eraseData (readings : ScrubReadings) (siteId : Uuid) (linked : List String) (deletion : Deletion)
    (db : Database) : Except DbError (Nat × Database) :=
  let db := db.scrubQueued env readings siteId deletion linked
  match deletion with
  | .property name => .ok (db.dropProperty siteId name)
  | deletion => db.deleteRawEvents env siteId (deletion.selects linked)

theorem deleteData_eq (readings : ScrubReadings) (siteId : Uuid) (deletion : Deletion) (db : Database) :
    deleteData env readings siteId db deletion
      = eraseData env readings siteId (deletion.linked siteId db.store) deletion db := rfl

/-- **`executePrivacyRequest`**, the linked visitors having been read. -/
def executePrivacyRequest (readings : ScrubReadings) (siteId : Uuid) (linked : List String)
    (request : PrivacyRequest) (db : Database) : Except DbError (Nat × Database) :=
  if request.status ≠ .pending then .error (.program "request is not pending: no rows in result set")
  else
    match request.range env startOfDay db.store.config.sites siteId with
    | .error e => .error e
    | .ok range =>
      match request.requestType with
      | .exportOnly =>
        .ok (db.store.rawEvents.rows.countP fun r => r.siteId = siteId && (request.deletion range).selects linked r, db)
      | .propertyDelete =>
        if isPropertyName request.identityValue then .ok (db.dropProperty siteId request.identityValue)
        else .error (.program "property_delete requires a safe property name in identity_value")
      | .delete => eraseData env readings siteId linked (request.deletion range) db

/-! ## §2. The world of an erasure. -/

/-- The two doors.  The mode for a whole site is not among them: it names no person,
period or property, and deletes the dead letters before it waits for the inbox rows. -/
inductive Erasure where
  | analytics (deletion : Deletion) (selective : deletion ≠ .site)
  | privacy (request : PrivacyRequest)

/-- What an erasure selects; an export selects nothing for deletion. -/
def Erasure.deletion (sites : Table Uuid Site) (siteId : Uuid) : Erasure → Option Deletion
  | .analytics deletion _ => some deletion
  | .privacy request =>
    match request.requestType with
    | .exportOnly => none
    | .propertyDelete => some (.property request.identityValue)
    | .delete => (request.range env startOfDay sites siteId).toOption.map request.deletion

/-- The visitors the transaction reads first. -/
def Erasure.linked (siteId : Uuid) (store : Store) : Erasure → List String
  | .analytics deletion _ => deletion.linked siteId store
  | .privacy request =>
    if request.identityType = .userId then store.linkedVisitors siteId request.identityValue else []

/-- What the transaction does then. -/
def Erasure.execute (readings : ScrubReadings) (siteId : Uuid) (linked : List String) (db : Database) :
    Erasure → Except DbError (Nat × Database)
  | .analytics deletion _ => eraseData env readings siteId linked deletion db
  | .privacy request => executePrivacyRequest env startOfDay readings siteId linked request db

/-- The scrub writes or locks the inbox row: `FOR UPDATE` of all rows of the site, or the
rows its `DELETE` selects. -/
def Deletion.locks (readings : ScrubReadings) (linked : List String) (payload : Except String InboxPayload) :
    Deletion → Bool
  | .site | .period .. | .property _ => true
  | .visitor visitorId => (scrubbed env readings linked (.visitor visitorId) payload).isNone
  | .userId user => (scrubbed env readings linked (.userId user) payload).isNone

/-- The inbox rows of the site the transaction has to wait for. -/
def Erasure.locks (readings : ScrubReadings) (siteId : Uuid) (linked : List String) (sites : Table Uuid Site)
    (payload : Except String InboxPayload) : Erasure → Bool
  | .analytics deletion _ => deletion.locks env readings linked payload
  | .privacy request =>
    match request.requestType with
    | .exportOnly | .propertyDelete => false
    | .delete => (request.range env startOfDay sites siteId).toOption.elim false fun range =>
      (request.deletion range).locks env readings linked payload

/-- How far the erasure is. -/
inductive Progress where
  | asked
  | waiting (linked : List String)
  /-- With what it had read, what was linked when it deleted, and its clock. -/
  | succeeded (linked links : List String) (readings : ScrubReadings)
  | failed

/-- The database, and how far the erasure is. -/
structure Scene where
  world : World
  progress : Progress

/-- What can happen. -/
inductive Move where
  | readLinked
  | erase (readings : ScrubReadings)
  | act (action : Action)

variable (siteId : Uuid) (erasure : Erasure)

/-- Some open pass holds a row the transaction has to wait for. -/
def Scene.blocked (readings : ScrubReadings) (linked : List String) (scene : Scene) : Bool :=
  scene.world.claims.any fun c => c.jobs.any fun job =>
    job.siteId = siteId
      && erasure.locks env startOfDay readings siteId linked scene.world.db.store.config.sites job.payload

/-- The one transaction. -/
def Scene.erase (readings : ScrubReadings) (scene : Scene) : Scene :=
  match scene.progress with
  | .waiting linked =>
    if scene.blocked env startOfDay siteId erasure readings linked then scene
    else match erasure.execute env startOfDay readings siteId linked scene.world.db with
      | .error _ => { scene with progress := .failed }
      | .ok (_, db) =>
        { world := { scene.world with db := db }
          progress := .succeeded linked (erasure.linked siteId scene.world.db.store) readings }
  | _ => scene

/-- **A step.** -/
def Scene.step (scene : Scene) : Move → Scene
  | .readLinked =>
    match scene.progress with
    | .asked => { scene with progress := .waiting (erasure.linked siteId scene.world.db.store) }
    | _ => scene
  | .erase readings => scene.erase env startOfDay siteId erasure readings
  | .act action => { scene with world := scene.world.step env action }

/-- Any database, before anything happens. -/
def Scene.initial (db : Database) : Scene := ⟨⟨db, [], [], []⟩, .asked⟩

/-- The steps in order. -/
def Scene.run (scene : Scene) (moves : List Move) : Scene := moves.foldl (Scene.step env startOfDay siteId erasure) scene

end

/-! ## §3. The queue. -/

/-- The document stands in the inbox or in the dead letters of the site. -/
def Database.Queued (siteId : Uuid) (db : Database) (payload : Except String InboxPayload) : Prop :=
  (∃ id row, db.inbox.lookup id = some row ∧ row.siteId = siteId ∧ row.payload = payload)
    ∨ ∃ letter ∈ db.deadLetters, letter.siteId = siteId ∧ letter.payload = payload

namespace Selected
variable (sel : Selected)

/-- Nothing of a payload is selected. -/
structure AbsentPayload (p : InboxPayload) : Prop where
  visitor : ¬sel.visitor p.request.visitorId
  user : sel.NoUser (nullIfEmpty p.request.userId)
  events : ∀ event ∈ p.request.events, ¬sel.queued event

/-- Nothing of a stored payload is selected. -/
def AbsentDocument : Except String InboxPayload → Prop
  | .ok p => sel.AbsentPayload p
  | .error e => ¬sel.unreadable e

/-- **Nothing of it is left in the database**: no raw event, no derived row, no queued
payload and no dead letter of the site. -/
structure AbsentFromDatabase (env : Platform) (siteId : Uuid) (db : Database) : Prop where
  store : sel.AbsentFrom env siteId db.store
  queue : ∀ payload, db.Queued siteId payload → sel.AbsentDocument payload

end Selected

section
variable (env : Platform)

/-- The worker, or the scrub, cannot use the event's timestamp. -/
def Unusable (oldest newest : Instant) (event : IncomingEvent) : Prop :=
  event.timestamp ≤ 0 ∨ event.timestamp * 1000 < env.fiveYearsBefore oldest
    ∨ newest + 24 * 3600 * 1000000 < event.timestamp * 1000

/-- **The data a deletion selects**: `linked` are the visitors it read, `links` those that
are linked to the user when it deletes. -/
def Deletion.selected (linked links : List String) (readings : ScrubReadings) : Deletion → Selected
  | .site => ⟨fun _ => True, fun _ => False, fun _ => False, fun _ => False, fun _ => False, fun _ => True⟩
  | .visitor visitorId =>
    ⟨fun v => v = visitorId, fun _ => False, fun _ => False, fun _ => False, fun _ => False,
      fun e => readings.names e = true⟩
  | .userId user =>
    ⟨fun v => v ∈ linked ∨ v ∈ links, fun u => u = user, fun _ => False, fun _ => False, fun _ => False,
      fun e => readings.names e = true⟩
  | .period start stop =>
    ⟨fun _ => False, fun _ => False, fun t => start ≤ t ∧ t < stop, fun _ => False,
      fun event => start ≤ queuedTime env readings.now event ∧ queuedTime env readings.now event < stop,
      fun _ => True⟩
  | .property name =>
    ⟨fun _ => False, fun _ => False, fun _ => False, fun p => p = name,
      fun event => (propertyOf event.properties name).isSome ∨ (name = "items" ∧ event.items ≠ []),
      fun _ => True⟩

/-! ## §4. When an erasure is complete. -/

/-- The worker's clock does not bring an event into the period that the scrub found outside. -/
def Deletion.Timely (scrub : Instant) (event : IncomingEvent) (readings : EventReadings) : Deletion → Prop
  | .period start stop =>
    (Unusable env readings.nowForOldest readings.nowForNewest event →
        ¬(start ≤ readings.now ∧ readings.now < stop))
      ∧ (¬Unusable env readings.nowForOldest readings.nowForNewest event → Unusable env scrub scrub event →
          ¬(start ≤ event.timestamp * 1000 ∧ event.timestamp * 1000 < stop))
  | _ => True

variable (startOfDay : String → Date → Instant) (siteId : Uuid) (erasure : Erasure)

/-- What the transaction must find when it deletes. -/
def Erasure.Covers (readings : ScrubReadings) (linked : List String) (db : Database) : Prop :=
  match erasure.deletion env startOfDay db.store.config.sites siteId with
  | some (.userId user) => ∀ v ∈ db.store.linkedVisitors siteId user, v ∈ linked
  | some (.property name) =>
    name ∉ ["value", "revenue", "active_seconds"]
      ∧ match erasure with
        | .analytics .. => name = "items" → ∀ p, db.Queued siteId (.ok p) → ∀ event ∈ p.request.events, event.items = []
        | .privacy _ => ∀ payload, db.Queued siteId payload →
            ((Deletion.property name).selected env linked [] readings).AbsentDocument payload
  | _ => True

/-- A transaction of `Accept` that brings none of the selected data. -/
def AcceptWrite.BringsNone (sel : Selected) : AcceptWrite → Prop
  | .admission a _ => a.siteId = siteId → sel.AbsentPayload a.payload.reload
  | _ => True

/-- **The condition on a move.** -/
def Scene.Meets (scene : Scene) : Move → Prop
  | .erase readings =>
    ∀ linked, scene.progress = .waiting linked →
      erasure.Covers env startOfDay siteId readings linked scene.world.db
  | .act (.write i true) =>
    ∀ deletion linked links readings, scene.progress = .succeeded linked links readings →
      erasure.deletion env startOfDay scene.world.db.store.config.sites siteId = some deletion →
      ∀ next rest, scene.world.calls[i]? = some (next :: rest) →
        next.BringsNone siteId (deletion.selected env linked links readings)
  | .act (.finish i rounds true) =>
    ∀ deletion linked links readings, scene.progress = .succeeded linked links readings →
      erasure.deletion env startOfDay scene.world.db.store.config.sites siteId = some deletion →
      ∀ c, scene.world.claims[i]? = some c → ∀ job ∈ c.jobs, job.siteId = siteId → ∀ p, job.payload = .ok p →
        ∀ (k : Nat) event, p.request.events[k]? = some event →
          deletion.Timely env readings.now event ((rounds job.id).readings k)
  | _ => True

end

/-! ## §5. The scrub. -/

section Scrub
variable {env : Platform} {readings : ScrubReadings} {siteId : Uuid} {linked links : List String}
  {deletion : Deletion} {db : Database}

/-- What the scrub leaves comes from what it found. -/
theorem queued_scrubQueued {payload' : Except String InboxPayload}
    (h : (db.scrubQueued env readings siteId deletion linked).Queued siteId payload') :
    ∃ payload, db.Queued siteId payload ∧ scrubbed env readings linked deletion payload = some payload' := by
  rcases h with ⟨id, row, hrow, hsite, rfl⟩ | ⟨letter, hletter, hsite, rfl⟩
  · have hlookup : (db.inbox.filterMapRows fun _ row =>
        if row.siteId = siteId then
          (scrubbed env readings linked deletion row.payload).map fun payload => { row with payload := payload }
        else some row).lookup id = some row := hrow
    rw [Table.lookup_filterMapRows] at hlookup
    obtain ⟨old, hold, hnew⟩ := Option.bind_eq_some_iff.mp hlookup
    split at hnew
    · rename_i holdSite
      obtain ⟨payload, hpayload, rfl⟩ := Option.map_eq_some_iff.mp hnew
      exact ⟨old.payload, .inl ⟨id, old, hold, holdSite, rfl⟩, hpayload⟩
    · rename_i holdSite
      obtain rfl := Option.some.inj hnew
      exact absurd hsite holdSite
  · obtain ⟨old, hold, hnew⟩ := List.mem_filterMap.mp hletter
    split at hnew
    · rename_i holdSite
      obtain ⟨payload, hpayload, rfl⟩ := Option.map_eq_some_iff.mp hnew
      exact ⟨old.payload, .inr ⟨old, hold, holdSite, rfl⟩, hpayload⟩
    · rename_i holdSite
      obtain rfl := Option.some.inj hnew
      exact absurd hsite holdSite

/-- The `DELETE` of the scrub leaves what it does not select. -/
theorem scrubbed_of_not_locks {payload : Except String InboxPayload}
    (h : deletion.locks env readings linked payload = false) :
    scrubbed env readings linked deletion payload = some payload := by
  cases deletion with
  | site => cases h
  | period start stop => cases h
  | property name => cases h
  | visitor visitorId =>
    cases payload with
    | ok p =>
      by_cases hvisitor : p.request.visitorId = visitorId
      · simp [Deletion.locks, scrubbed, hvisitor] at h
      · simp [scrubbed, hvisitor]
    | error e =>
      by_cases hnames : readings.names e = true
      · simp [Deletion.locks, scrubbed, hnames] at h
      · simp [scrubbed, hnames]
  | userId user =>
    cases payload with
    | ok p =>
      by_cases hperson : nullIfEmpty p.request.userId = some user ∨ p.request.visitorId ∈ linked
      · simp [Deletion.locks, scrubbed, hperson] at h
      · simp only [scrubbed]
        rw [if_neg hperson]
    | error e =>
      by_cases hnames : readings.names e = true
      · simp [Deletion.locks, scrubbed, hnames] at h
      · simp [scrubbed, hnames]

/-- A row the scrub does not lock stays as it is. -/
theorem lookup_scrubQueued {id : Nat} {row : InboxRow} (hrow : db.inbox.lookup id = some row)
    (hlocks : row.siteId = siteId → deletion.locks env readings linked row.payload = false) :
    (db.scrubQueued env readings siteId deletion linked).inbox.lookup id = some row := by
  show (db.inbox.filterMapRows _).lookup id = some row
  rw [Table.lookup_filterMapRows, hrow, Option.bind_some]
  by_cases hsite : row.siteId = siteId
  · rw [if_pos hsite, scrubbed_of_not_locks (hlocks hsite)]
    rfl
  · rw [if_neg hsite]

theorem get_reloadMembers_none {p : Properties} {key : String} (h : p.get key = none) :
    Properties.get (Json.reloadMembers p) key = none := by
  induction p with
  | nil => rfl
  | cons m p ih =>
    obtain ⟨k, v⟩ := m
    unfold Properties.get at h ih ⊢
    rw [List.lookup_cons] at h
    unfold Json.reloadMembers
    rw [List.lookup_cons]
    cases hkey : key == k with
    | true =>
      rw [hkey] at h
      cases h
    | false =>
      rw [hkey] at h
      exact ih h

theorem propertyOf_reloadMap_none {p : Option Properties} {key : String} (h : propertyOf p key = none) :
    propertyOf (reloadMap p) key = none := by
  cases p with
  | none => rfl
  | some members =>
    cases members with
    | nil => rfl
    | cons m rest => exact get_reloadMembers_none h

theorem get_filter_ne (p : Properties) (name : String) : Properties.get (p.filter fun m => m.1 ≠ name) name = none := by
  unfold Properties.get
  rw [List.lookup_eq_none_iff]
  intro m hm
  have hne := (List.mem_filter.mp hm).2
  simp only [ne_eq, decide_not, Bool.not_eq_true', decide_eq_false_iff_not] at hne
  exact bne_iff_ne.mpr (Ne.symm hne)

/-- The property is gone from a scrubbed event, through the inbox too. -/
theorem propertyOf_withoutProperty (name : String) (event : IncomingEvent) :
    propertyOf (event.withoutProperty name).reload.properties name = none := by
  refine propertyOf_reloadMap_none ?_
  unfold IncomingEvent.withoutProperty propertyOf
  cases event.properties with
  | none => rfl
  | some p => exact get_filter_ne p name

/-- **A scrubbed document carries none of the data.** -/
theorem absent_scrubbed {payload payload' : Except String InboxPayload}
    (h : scrubbed env readings linked deletion payload = some payload')
    (hlinks : ∀ user, deletion = .userId user → ∀ v ∈ links, v ∈ linked)
    (hitems : deletion = .property "items" → ∀ p, payload = .ok p → ∀ event ∈ p.request.events, event.items = []) :
    (deletion.selected env linked links readings).AbsentDocument payload' := by
  cases deletion with
  | site =>
    simp only [scrubbed] at h
    cases h
  | visitor visitorId =>
    cases payload with
    | ok p =>
      simp only [scrubbed] at h
      split at h
      · cases h
      rename_i hne
      obtain rfl := Option.some.inj h
      exact ⟨hne, fun _ _ hu => hu, fun _ _ hq => hq⟩
    | error e =>
      simp only [scrubbed] at h
      split at h
      · cases h
      rename_i hne
      obtain rfl := Option.some.inj h
      exact hne
  | userId user =>
    cases payload with
    | ok p =>
      simp only [scrubbed] at h
      split at h
      · cases h
      rename_i hne
      obtain rfl := Option.some.inj h
      refine ⟨?_, ?_, fun _ _ hq => hq⟩
      · rintro (hmem | hmem)
        · exact hne (.inr hmem)
        · exact hne (.inr (hlinks user rfl _ hmem))
      · rintro u hu rfl
        exact hne (.inl hu)
    | error e =>
      simp only [scrubbed] at h
      split at h
      · cases h
      rename_i hne
      obtain rfl := Option.some.inj h
      exact hne
  | period start stop =>
    cases payload with
    | error e => cases h
    | ok p =>
      obtain ⟨kept, hkept, rfl⟩ := Option.map_eq_some_iff.mp h
      unfold InboxPayload.keeping at hkept
      split at hkept
      · cases hkept
      obtain rfl := Option.some.inj hkept
      refine ⟨id, fun _ _ hu => hu, ?_⟩
      intro event hevent
      obtain ⟨old, hold, rfl⟩ := List.mem_map.mp hevent
      -- The inbox gives back the timestamp it was given.
      have hout := of_decide_eq_true (List.mem_filter.mp hold).2
      rintro ⟨hstart, hstop⟩
      rcases hout with hbefore | hafter
      · exact absurd hstart (not_le.mpr hbefore)
      · exact absurd hstop (not_lt.mpr hafter)
  | property name =>
    cases payload with
    | error e => cases h
    | ok p =>
      obtain ⟨kept, hkept, rfl⟩ := Option.map_eq_some_iff.mp h
      unfold InboxPayload.keeping at hkept
      split at hkept
      · cases hkept
      obtain rfl := Option.some.inj hkept
      refine ⟨id, fun _ _ hu => hu, ?_⟩
      intro event hevent
      obtain ⟨scrub, hscrub, rfl⟩ := List.mem_map.mp hevent
      obtain ⟨old, hold, rfl⟩ := List.mem_map.mp hscrub
      rintro (hsome | ⟨rfl, hne⟩)
      · rw [propertyOf_withoutProperty] at hsome
        cases hsome
      · have hnil := hitems rfl p rfl old hold
        refine hne ?_
        show old.items.map Json.reloadMembers = []
        rw [hnil]
        rfl

end Scrub

/-! ## §6. The transaction. -/

section Deletes
variable {env : Platform} {startOfDay : String → Date → Instant} {readings : ScrubReadings} {siteId : Uuid}
  {linked links : List String} {deletion : Deletion} {db db' : Database} {affected : Nat}

/-- The derived tables are read from other properties. -/
theorem not_counted (hname : ∀ name, deletion = .property name → name ∉ ["value", "revenue", "active_seconds"]) :
    ¬(deletion.selected env linked links readings).Counted := by
  intro hcounted
  cases deletion with
  | property name =>
    have hnot := hname name rfl
    rcases hcounted with rfl | rfl | rfl
    · exact hnot (by simp)
    · exact hnot (by simp)
    · exact hnot (by simp)
  | site => rcases hcounted with h | h | h <;> exact h
  | visitor visitorId => rcases hcounted with h | h | h <;> exact h
  | userId user => rcases hcounted with h | h | h <;> exact h
  | period start stop => rcases hcounted with h | h | h <;> exact h

/-- A raw event the deletion leaves. -/
theorem absentRow_of_not_selects {r : RawEvent} (hproperty : ∀ name, deletion ≠ .property name)
    (hlinks : ∀ user, deletion = .userId user → ∀ v ∈ links, v ∈ linked) (h : deletion.selects linked r = false) :
    (deletion.selected env linked links readings).AbsentRow r := by
  cases deletion with
  | site => cases h
  | property name => exact absurd rfl (hproperty name)
  | visitor visitorId =>
    have hne : r.visitorId ≠ visitorId := of_decide_eq_false h
    exact ⟨⟨hne, fun _ _ hu => hu, id, id⟩, fun _ hp => absurd hp id⟩
  | userId user =>
    have hne : ¬(r.userId = some user ∨ r.visitorId ∈ linked) := of_decide_eq_false h
    refine ⟨⟨?_, ?_, id, id⟩, fun _ hp => absurd hp id⟩
    · rintro (hmem | hmem)
      · exact hne (.inr hmem)
      · exact hne (.inr (hlinks user rfl _ hmem))
    · rintro u hu rfl
      exact hne (.inl hu)
  | period start stop =>
    have hne : ¬(start ≤ r.eventTimestamp ∧ r.eventTimestamp < stop) := of_decide_eq_false h
    exact ⟨⟨id, fun _ _ hu => hu, hne, hne⟩, fun _ hp => absurd hp id⟩

/-- **A deletion of events leaves none of the data.** -/
theorem absentFrom_deleteRawEvents (hproperty : ∀ name, deletion ≠ .property name)
    (hlinks : ∀ user, deletion = .userId user → ∀ v ∈ links, v ∈ linked)
    (h : db.deleteRawEvents env siteId (deletion.selects linked) = .ok (affected, db')) :
    (deletion.selected env linked links readings).AbsentFrom env siteId db'.store
      ∧ db'.store.config = db.store.config ∧ db'.inbox = db.inbox ∧ db'.deadLetters = db.deadLetters := by
  obtain ⟨store, hrebuild, rfl⟩ := deleteRawEvents_ok h
  refine ⟨Selected.absentFrom_rebuilt ?_ (not_counted fun name hname => absurd hname (hproperty name)) hrebuild,
    (rebuiltBy_siteDerivedData hrebuild).config, rfl, rfl⟩
  intro r hr hsite
  have hkept := (List.mem_filter.mp hr).2
  refine absentRow_of_not_selects hproperty hlinks ?_
  simpa [hsite] using hkept

/-- **Dropping a property leaves none of it.** -/
theorem absentFrom_dropProperty (name : String) (hname : name ∉ ["value", "revenue", "active_seconds"])
    (db : Database) :
    ((Deletion.property name).selected env linked links readings).AbsentFrom env siteId
      (db.dropProperty siteId name).2.store := by
  obtain ⟨sel, hsel⟩ : ∃ sel, sel = (Deletion.property name).selected env linked links readings := ⟨_, rfl⟩
  have hlacks : ∀ v u t t', sel.Lacks v u t t' := by
    intro v u t t'
    rw [hsel]
    exact ⟨id, fun _ _ hu => hu, id, id⟩
  have hcovers : ∀ timezone date, ¬sel.Covers env timezone date := by
    rintro timezone date ⟨⟨t, ht⟩, hall⟩
    exact (hlacks "" none t t).first (hall t ht)
  have hcounted : ¬sel.Counted := by
    rw [hsel]
    exact not_counted fun other hother => by
      obtain rfl := Deletion.property.inj hother
      exact hname
  rw [← hsel]
  refine
    { rawEvents := ?_
      visitors := fun _ _ _ _ => hlacks _ _ _ _
      visitorIdentities := fun _ i _ _ => ⟨hlacks _ _ _ _, (hlacks "" none i.linkedAt 0).first⟩
      identifiedUsers := fun k u _ _ =>
        ⟨(hlacks "" (some k.userId) 0 0).user _ rfl, (hlacks "" none u.firstSeen 0).first,
          (hlacks "" none u.lastSeen 0).first⟩
      visitorSessions := fun _ _ _ _ => hlacks _ _ _ _
      sessions := fun _ _ _ _ => ⟨hlacks _ _ _ _, fun hp => absurd (.inr (.inr hp)) hcounted⟩
      dailySiteMetrics := fun _ _ _ _ _ _ => ⟨hcovers _ _, ?_⟩
      dailySiteVisitors := fun _ _ _ _ _ _ => ⟨hcovers _ _, hlacks _ _ _ _⟩
      dailySiteSessions := fun _ _ _ _ _ _ => ⟨hcovers _ _, hlacks _ _ _ _⟩ }
  · intro r hr hsite
    refine ⟨hlacks _ _ _ _, ?_⟩
    intro p hp
    rw [hsel] at hp
    obtain rfl : p = name := hp
    obtain ⟨old, -, rfl⟩ := List.mem_map.mp hr
    dsimp only at hsite ⊢
    split
    · exact get_filter_ne _ _
    rename_i hnot
    rw [if_neg hnot] at hsite
    simp only [hsite, decide_true, Bool.true_and, Bool.not_eq_true, Option.isSome_eq_false_iff,
      Option.isNone_iff_eq_none] at hnot
    exact hnot
  · rintro (hp | hp)
    · exact absurd (.inl hp) hcounted
    · exact absurd (.inr (.inl hp)) hcounted

/-- **What the transaction leaves of its selection**: nothing; and what it does to the
rest of the database that others rely on. -/
theorem eraseData_spec (hname : ∀ name, deletion = .property name → name ∉ ["value", "revenue", "active_seconds"])
    (hlinks : ∀ user, deletion = .userId user → ∀ v ∈ links, v ∈ linked)
    (hitems : deletion = .property "items" → ∀ p, db.Queued siteId (.ok p) → ∀ event ∈ p.request.events, event.items = [])
    (h : eraseData env readings siteId linked deletion db = .ok (affected, db')) :
    (deletion.selected env linked links readings).AbsentFromDatabase env siteId db' := by
  have hqueue : ∀ payload, (db.scrubQueued env readings siteId deletion linked).Queued siteId payload →
      (deletion.selected env linked links readings).AbsentDocument payload := by
    intro payload hpayload
    obtain ⟨old, hold, hscrubbed⟩ := queued_scrubQueued hpayload
    exact absent_scrubbed hscrubbed hlinks fun hd p hp => hitems hd p (hp ▸ hold)
  have hevents : (∀ name, deletion ≠ .property name) →
      (db.scrubQueued env readings siteId deletion linked).deleteRawEvents env siteId (deletion.selects linked)
        = .ok (affected, db') →
      (deletion.selected env linked links readings).AbsentFromDatabase env siteId db' := by
    intro hproperty hdelete
    obtain ⟨hstore, -, hinbox, hletters⟩ := absentFrom_deleteRawEvents hproperty hlinks hdelete
    refine ⟨hstore, fun payload hpayload => hqueue payload ?_⟩
    unfold Database.Queued at hpayload ⊢
    rw [hinbox, hletters] at hpayload
    exact hpayload
  cases deletion with
  | property name =>
    obtain ⟨-, rfl⟩ := Prod.mk.inj (Except.ok.inj h)
    exact ⟨absentFrom_dropProperty name (hname name rfl) _, hqueue⟩
  | site => exact hevents (fun _ hd => Deletion.noConfusion hd) h
  | visitor visitorId => exact hevents (fun _ hd => Deletion.noConfusion hd) h
  | userId user => exact hevents (fun _ hd => Deletion.noConfusion hd) h
  | period start stop => exact hevents (fun _ hd => Deletion.noConfusion hd) h

/-- What others rely on: the configuration, and the inbox rows that were not locked. -/
theorem eraseData_frame (h : eraseData env readings siteId linked deletion db = .ok (affected, db')) :
    db'.store.config = db.store.config
      ∧ ∀ id row, db.inbox.lookup id = some row →
          (row.siteId = siteId → deletion.locks env readings linked row.payload = false) →
          db'.inbox.lookup id = some row := by
  have hevents : (db.scrubQueued env readings siteId deletion linked).deleteRawEvents env siteId
      (deletion.selects linked) = .ok (affected, db') →
      db'.store.config = db.store.config
        ∧ ∀ id row, db.inbox.lookup id = some row →
            (row.siteId = siteId → deletion.locks env readings linked row.payload = false) →
            db'.inbox.lookup id = some row := by
    intro hdelete
    obtain ⟨store, hrebuild, rfl⟩ := deleteRawEvents_ok hdelete
    exact ⟨(rebuiltBy_siteDerivedData hrebuild).config, fun id row hrow hlocks => lookup_scrubQueued hrow hlocks⟩
  cases deletion with
  | property name =>
    obtain ⟨-, rfl⟩ := Prod.mk.inj (Except.ok.inj h)
    exact ⟨rfl, fun id row hrow hlocks => lookup_scrubQueued hrow hlocks⟩
  | site => exact hevents h
  | visitor visitorId => exact hevents h
  | userId user => exact hevents h
  | period start stop => exact hevents h

end Deletes

/-! ## §7. The workers. -/

section Workers
variable {env : Platform} {siteId : Uuid}

/-- A round puts nothing into the queue that was not there. -/
theorem RoundEnds.queued {policy : Policy} {now : Instant} {job : ClaimedJob} {round : Round} {db db' : Database}
    {verdict : Verdict} {row : InboxRow} (h : RoundEnds env policy now job round db db' verdict)
    (hclaimed : job.Claimed db row) {payload : Except String InboxPayload} (hpayload : db'.Queued siteId payload) :
    db.Queued siteId payload := by
  have hupdate : ∀ (d : Database) f, (∀ r : InboxRow, (f r).siteId = r.siteId ∧ (f r).payload = r.payload) →
      (d.updateInbox job.id f).Queued siteId payload → d.Queued siteId payload := by
    intro d f hf hq
    rcases hq with ⟨id, r, hr, hsite, rfl⟩ | hletter
    · have hlookup : (d.inbox.modifyRows fun k row => if k = job.id then f row else row).lookup id = some r := hr
      rw [Table.lookup_modifyRows] at hlookup
      obtain ⟨old, hold, rfl⟩ := Option.map_eq_some_iff.mp hlookup
      left
      refine ⟨id, old, hold, ?_, ?_⟩
      · split at hsite
        · rwa [(hf old).1] at hsite
        · exact hsite
      · split
        · exact (hf old).2.symm
        · rfl
    · exact .inr hletter
  cases h with
  | @done store _ =>
    exact hupdate { db with store := store } (fun r => { r with processedAt := some now, lastError := none })
      (fun _ => ⟨rfl, rfl⟩) hpayload
  | @retry e _ _ =>
    exact hupdate db (fun r => { r with
        attempts := r.attempts + 1
        lastError := some e.message
        availableAt := now + Database.retryDelay r.attempts })
      (fun _ => ⟨rfl, rfl⟩) hpayload
  | @dead e _ _ =>
    have hold := hupdate { db with deadLetters := ⟨job.id, job.siteId, job.payload, e.message⟩ :: db.deadLetters }
      (fun r => { r with attempts := r.attempts + 1, lastError := some e.message, processedAt := some now })
      (fun _ => ⟨rfl, rfl⟩) hpayload
    rcases hold with hinbox | ⟨letter, hletter, hsite, rfl⟩
    · exact .inl hinbox
    · rcases List.mem_cons.mp hletter with rfl | hold
      · -- The dead letter is the claimed row's payload.
        exact .inl ⟨job.id, row, hclaimed.lookup, hclaimed.siteId.trans hsite, hclaimed.payload⟩
      · exact .inr ⟨letter, hold, hsite, rfl⟩

variable {linked links : List String} {scrub : ScrubReadings} {deletion : Deletion}

/-- The worker's time for an event is not a selected one. -/
theorem not_instant_eventTime {c : JobContext} (henv : c.env = env) {event : IncomingEvent} {readings : EventReadings}
    (hqueued : ¬(deletion.selected env linked links scrub).queued event)
    (htimely : deletion.Timely env scrub.now event readings) :
    ¬(deletion.selected env linked links scrub).instant (eventTimeOf c event readings) := by
  cases deletion with
  | site => exact id
  | visitor visitorId => exact id
  | userId user => exact id
  | property name => exact id
  | period start stop =>
    obtain ⟨hreplaced, hkept⟩ := htimely
    by_cases hworker : Unusable env readings.nowForOldest readings.nowForNewest event
    · have htime : eventTimeOf c event readings = readings.now := by
        unfold eventTimeOf
        rw [henv]
        exact if_pos hworker
      rw [htime]
      exact hreplaced hworker
    · have htime : eventTimeOf c event readings = event.timestamp * 1000 := by
        unfold eventTimeOf
        rw [henv]
        exact if_neg hworker
      rw [htime]
      by_cases hscrub : Unusable env scrub.now scrub.now event
      · exact hkept hworker hscrub
      · -- Both take the event's own time.
        have hsame : queuedTime env scrub.now event = event.timestamp * 1000 := if_neg hscrub
        rw [← hsame]
        exact hqueued

/-- The stored properties have no selected one. -/
theorem storedProperties_get_none (c : JobContext) {event : IncomingEvent}
    (hqueued : ¬(deletion.selected env linked links scrub).queued event) (name : String)
    (hname : (deletion.selected env linked links scrub).property name) :
    (storedProperties c event).get name = none := by
  cases deletion with
  | site => exact hname.elim
  | visitor visitorId => exact hname.elim
  | userId user => exact hname.elim
  | period start stop => exact hname.elim
  | property dropped =>
    obtain rfl : name = dropped := hname
    have hnone : propertyOf event.properties name = none := by
      by_contra hsome
      exact hqueued (.inl (Option.isSome_iff_ne_none.mpr hsome))
    have hfiltered : Properties.get
        (filteredProperties c.env event.properties c.policy.blockedProperties) name = none := by
      unfold filteredProperties
      rw [get_filterMembers]
      split
      · rfl
      have hget : Properties.get (event.properties.getD []) name = none := hnone
      rw [hget]
      rfl
    unfold storedProperties
    dsimp only
    by_cases hitems : event.items = []
    · rw [if_pos hitems]
      exact hfiltered
    · rw [if_neg hitems]
      have hne : name ≠ "items" := fun heq => hqueued (.inr ⟨heq, hitems⟩)
      rw [Properties.get_set_of_ne _ hne]
      exact hfiltered

/-- **A job whose payload carries none of the data stores none.** -/
theorem absentFrom_afterJob {s : Store} {j : Job} (hcounted : ¬(deletion.selected env linked links scrub).Counted)
    (hpayload : j.siteId = siteId → (deletion.selected env linked links scrub).AbsentDocument j.payload)
    (htimely : j.siteId = siteId → ∀ p, j.payload = .ok p → ∀ (k : Nat) event, p.request.events[k]? = some event →
      deletion.Timely env scrub.now event (j.readings k))
    (h : (deletion.selected env linked links scrub).AbsentFrom env siteId s) :
    (deletion.selected env linked links scrub).AbsentFrom env siteId (afterJob env s j) := by
  refine @afterJob_induction env (fun a _ => (deletion.selected env linked links scrub).Passes siteId a)
    (fun s => (deletion.selected env linked links scrub).AbsentFrom env siteId s)
    (fun a s hnew harrives hs hgood => hs.store hcounted hgood hnew harrives)
    (fun s key hs => hs.quality _ s.aggregateJobs s.dimensionValues) j s (fun _ => ?_) h
  intro p timezone limit hp _
  refine eventsMeet_of_mem _ ?_
  rintro ⟨event, readings⟩ hmem unreported eventId s
  obtain ⟨k, hk, heq⟩ := List.mem_mapIdx.mp hmem
  obtain ⟨rfl, rfl⟩ := Prod.mk.inj heq
  have hevents : p.withEnvironment.request.events = p.request.events := by
    unfold InboxPayload.withEnvironment
    split <;> rfl
  have hvisitor : p.withEnvironment.request.visitorId = p.request.visitorId := by
    unfold InboxPayload.withEnvironment
    split <;> rfl
  have huser : p.withEnvironment.request.userId = p.request.userId := by
    unfold InboxPayload.withEnvironment
    split <;> rfl
  have hevent : p.request.events[k]? = some (p.withEnvironment.request.events[k]) := by
    rw [← hevents]
    exact List.getElem?_eq_getElem hk
  have habsent : j.siteId = siteId → (deletion.selected env linked links scrub).AbsentPayload p := by
    intro hsite
    have hdocument := hpayload hsite
    rw [hp] at hdocument
    exact hdocument
  have hqueued : j.siteId = siteId →
      ¬(deletion.selected env linked links scrub).queued p.withEnvironment.request.events[k] :=
    fun hsite => (habsent hsite).events _ (List.mem_of_getElem? hevent)
  refine ⟨fun hsite => ?_, fun hsite name hname => storedProperties_get_none _ (hqueued hsite) name hname⟩
  have htime := not_instant_eventTime (c := jobContext env j.policy j.siteId p.withEnvironment timezone limit s)
    rfl (hqueued hsite) (htimely hsite p hp k _ hevent)
  refine ⟨?_, ?_, htime, htime⟩
  · show ¬(deletion.selected env linked links scrub).visitor p.withEnvironment.request.visitorId
    rw [hvisitor]
    exact (habsent hsite).visitor
  · -- The policy may keep no user at all.
    show (deletion.selected env linked links scrub).NoUser
      (nullIfEmpty (if j.policy.collectUserId then p.withEnvironment.request.userId else ""))
    rw [huser]
    split
    · exact (habsent hsite).user
    · exact Selected.noUser_none

/-- **A pass over such jobs** leaves none. -/
theorem absentFromDatabase_pass {policy : Policy} {now : Instant} {c : Claim} {rounds : Nat → Round}
    {db db' : Database} {verdicts : List (Nat × Verdict)}
    (hcounted : ¬(deletion.selected env linked links scrub).Counted)
    (hclaimed : ∀ job ∈ c.jobs, ∃ row, job.Claimed db row) (hdistinct : (c.jobs.map ClaimedJob.id).Nodup)
    (htimely : ∀ job ∈ c.jobs, job.siteId = siteId → ∀ p, job.payload = .ok p →
      ∀ (k : Nat) event, p.request.events[k]? = some event →
        deletion.Timely env scrub.now event ((rounds job.id).readings k))
    (h : (deletion.selected env linked links scrub).AbsentFromDatabase env siteId db)
    (hpass : processJobs env policy now (c.rounds rounds) db = .ok (db', verdicts)) :
    (deletion.selected env linked links scrub).AbsentFromDatabase env siteId db' := by
  have hround : ∀ (db : Database) (_ : List (Nat × Verdict)) policy now job (round : Round) db' verdict row,
      (job.siteId = siteId → ∀ p, job.payload = .ok p → ∀ (k : Nat) event, p.request.events[k]? = some event →
        deletion.Timely env scrub.now event (round.readings k)) →
      job.Claimed db row → (deletion.selected env linked links scrub).AbsentFromDatabase env siteId db →
      RoundEnds env policy now job round db db' verdict →
      (deletion.selected env linked links scrub).AbsentFromDatabase env siteId db' := by
    intro db log policy now job round db' verdict row htimely hrow hdb hends
    refine ⟨?_, fun payload hpayload => hdb.queue payload (hends.queued hrow hpayload)⟩
    rw [hends.store_eq]
    refine absentFrom_afterJob hcounted (fun hsite => ?_) htimely hdb.store
    exact hdb.queue job.payload (.inl ⟨job.id, row, hrow.lookup, hrow.siteId.trans hsite, hrow.payload⟩)
  have hids : (c.rounds rounds).map (fun p => p.1.id) = c.jobs.map ClaimedJob.id := by
    simp [Claim.rounds, Function.comp_def]
  refine (@processJobs_induction_on env
    (fun db _ => (deletion.selected env linked links scrub).AbsentFromDatabase env siteId db) _ hround policy now
    (c.rounds rounds) db db' [] verdicts ?_ (hids ▸ hdistinct) ?_ h hpass).1
  · intro p hp
    obtain ⟨job, hjob, rfl⟩ := List.mem_map.mp hp
    exact hclaimed job hjob
  · intro p hp
    obtain ⟨job, hjob, rfl⟩ := List.mem_map.mp hp
    exact htimely job hjob

/-- A transaction of `Accept` that brings none. -/
theorem absentFromDatabase_write {db : Database} {write : AcceptWrite}
    {sel : Selected} (hbrings : write.BringsNone siteId sel) (h : sel.AbsentFromDatabase env siteId db) :
    sel.AbsentFromDatabase env siteId (write.run env db) := by
  cases write with
  | rejection key piiDetected => exact ⟨h.store.quality _ db.store.aggregateJobs db.store.dimensionValues, h.queue⟩
  | issue row =>
    exact ⟨⟨h.store.rawEvents, h.store.visitors, h.store.visitorIdentities, h.store.identifiedUsers,
      h.store.visitorSessions, h.store.sessions, h.store.dailySiteMetrics, h.store.dailySiteVisitors,
      h.store.dailySiteSessions⟩, h.queue⟩
  | admission a readings =>
    show sel.AbsentFromDatabase env siteId (a.queue env readings db)
    unfold Admission.queue
    split
    · exact h
    rename_i hfree
    refine ⟨?_, ?_⟩
    · show sel.AbsentFrom env siteId (countReceived _ a.payload.request.events db.store)
      unfold countReceived
      have hcount : ∀ (events : List IncomingEvent) (s : Store), sel.AbsentFrom env siteId s →
          sel.AbsentFrom env siteId (events.foldl (fun s event => s.addQuality
            ⟨⟨a.siteId, receivedDate env a.site readings.dated, a.payload.request.environment⟩, event.name⟩
            (receivedQuality event)) s) := by
        intro events
        induction events with
        | nil => exact fun s hs => hs
        | cons event rest ih =>
          exact fun s hs => ih _ (hs.quality _ s.aggregateJobs s.dimensionValues)
      exact hcount _ _ h.store
    · intro payload hpayload
      rcases hpayload with ⟨id, row, hrow, hsite, rfl⟩ | hletter
      · by_cases hid : id = readings.inboxId
        · subst hid
          have hnew : (AList.insert readings.inboxId (⟨a.siteId, .ok a.payload.reload, 0, readings.queued, none, none⟩ : InboxRow)
              db.inbox).lookup readings.inboxId = some row := hrow
          rw [AList.lookup_insert] at hnew
          obtain rfl := Option.some.inj hnew
          exact hbrings hsite
        · have hold : (AList.insert readings.inboxId (⟨a.siteId, .ok a.payload.reload, 0, readings.queued, none, none⟩ : InboxRow)
              db.inbox).lookup id = some row := hrow
          rw [AList.lookup_insert_ne hid] at hold
          exact h.queue row.payload (.inl ⟨id, row, hold, hsite, rfl⟩)
      · exact h.queue payload (.inr hletter)

end Workers

/-! ## §8. Runs. -/

section Runs
variable (env : Platform) (startOfDay : String → Date → Instant) (siteId : Uuid) (erasure : Erasure)

/-- **The erasure has kept its promise**: where it has succeeded, nothing of what it
selected is left in the database. -/
def Scene.Erased (scene : Scene) : Prop :=
  ∀ deletion linked links readings, scene.progress = .succeeded linked links readings →
    erasure.deletion env startOfDay scene.world.db.store.config.sites siteId = some deletion →
    (deletion.selected env linked links readings).AbsentFromDatabase env siteId scene.world.db

/-- The invariant of a run. -/
structure Scene.Sound (scene : Scene) : Prop where
  sent : AllSent env scene.world.calls
  locks : LocksHold scene.world.db scene.world.claims
  erased : scene.Erased env startOfDay siteId erasure
  counted : ∀ deletion linked links readings, scene.progress = .succeeded linked links readings →
    erasure.deletion env startOfDay scene.world.db.store.config.sites siteId = some deletion →
    ¬(deletion.selected env linked links readings).Counted

variable {env startOfDay siteId erasure}

/-- What the erasure does when its turn comes. -/
theorem Erasure.execute_spec {readings : ScrubReadings} {linked : List String} {db db' : Database} {affected : Nat}
    (hcovers : erasure.Covers env startOfDay siteId readings linked db)
    (h : erasure.execute env startOfDay readings siteId linked db = .ok (affected, db')) {deletion : Deletion}
    (hdeletion : erasure.deletion env startOfDay db.store.config.sites siteId = some deletion) :
    let sel := deletion.selected env linked (erasure.linked siteId db.store) readings
    ¬sel.Counted ∧ sel.AbsentFromDatabase env siteId db' := by
  intro sel
  have hlinks : ∀ user, deletion = .userId user →
      erasure.linked siteId db.store = db.store.linkedVisitors siteId user →
      ∀ v ∈ erasure.linked siteId db.store, v ∈ linked := by
    rintro user rfl hlinked
    unfold Erasure.Covers at hcovers
    rw [hdeletion] at hcovers
    rw [hlinked]
    exact hcovers
  have hname : ∀ name, deletion = .property name → name ∉ ["value", "revenue", "active_seconds"] := by
    rintro name rfl
    unfold Erasure.Covers at hcovers
    rw [hdeletion] at hcovers
    exact hcovers.1
  refine ⟨not_counted hname, ?_⟩
  cases erasure with
  | analytics asked selective =>
    obtain rfl := Option.some.inj hdeletion
    refine eraseData_spec hname ?_ ?_ h
    · rintro user rfl
      exact hlinks user rfl rfl
    · rintro rfl
      unfold Erasure.Covers at hcovers
      exact hcovers.2 rfl
  | privacy request =>
    have hexecute : executePrivacyRequest env startOfDay readings siteId linked request db = .ok (affected, db') := h
    unfold executePrivacyRequest at hexecute
    split at hexecute
    · cases hexecute
    cases hrange : request.range env startOfDay db.store.config.sites siteId with
    | error e =>
      rw [hrange] at hexecute
      cases hexecute
    | ok range =>
      rw [hrange] at hexecute
      unfold Erasure.deletion at hdeletion
      cases htype : request.requestType with
      | exportOnly =>
        simp only [htype] at hdeletion
        cases hdeletion
      | propertyDelete =>
        simp only [htype] at hdeletion hexecute
        obtain rfl := Option.some.inj hdeletion
        split at hexecute
        · obtain ⟨-, rfl⟩ := Prod.mk.inj (Except.ok.inj hexecute)
          unfold Erasure.Covers Erasure.deletion at hcovers
          simp only [htype] at hcovers
          -- This door leaves the queue alone, so it had to be clean.
          exact ⟨absentFrom_dropProperty _ hcovers.1 db, hcovers.2⟩
        · cases hexecute
      | delete =>
        simp only [htype, hrange] at hdeletion hexecute
        obtain rfl := Option.some.inj hdeletion
        refine eraseData_spec hname ?_ ?_ hexecute
        · intro user huser
          refine hlinks user huser ?_
          unfold PrivacyRequest.deletion at huser
          split at huser
          · cases huser
          · rename_i htype
            obtain rfl := Deletion.userId.inj huser
            exact if_pos htype
          · cases huser
        · intro hproperty
          unfold PrivacyRequest.deletion at hproperty
          split at hproperty
          · cases hproperty
          · cases hproperty
          · cases hproperty

theorem Erasure.execute_frame {readings : ScrubReadings} {linked : List String} {db db' : Database} {affected : Nat}
    (h : erasure.execute env startOfDay readings siteId linked db = .ok (affected, db')) :
    db'.store.config = db.store.config
      ∧ ∀ id row, db.inbox.lookup id = some row →
          (row.siteId = siteId →
            erasure.locks env startOfDay readings siteId linked db.store.config.sites row.payload = false) →
          db'.inbox.lookup id = some row := by
  cases erasure with
  | analytics asked selective => exact eraseData_frame h
  | privacy request =>
    have hexecute : executePrivacyRequest env startOfDay readings siteId linked request db = .ok (affected, db') := h
    unfold executePrivacyRequest at hexecute
    split at hexecute
    · cases hexecute
    cases hrange : request.range env startOfDay db.store.config.sites siteId with
    | error e =>
      rw [hrange] at hexecute
      cases hexecute
    | ok range =>
      rw [hrange] at hexecute
      cases htype : request.requestType with
      | exportOnly =>
        simp only [htype] at hexecute
        obtain ⟨-, rfl⟩ := Prod.mk.inj (Except.ok.inj hexecute)
        exact ⟨rfl, fun id row hrow _ => hrow⟩
      | propertyDelete =>
        simp only [htype] at hexecute
        split at hexecute
        · obtain ⟨-, rfl⟩ := Prod.mk.inj (Except.ok.inj hexecute)
          exact ⟨rfl, fun id row hrow _ => hrow⟩
        · cases hexecute
      | delete =>
        simp only [htype] at hexecute
        obtain ⟨hconfig, hkeeps⟩ := eraseData_frame hexecute
        refine ⟨hconfig, fun id row hrow hlocks => hkeeps id row hrow fun hsite => ?_⟩
        have hfree := hlocks hsite
        unfold Erasure.locks at hfree
        simp only [htype, hrange] at hfree
        exact hfree

/-- **The step of the erasure.** -/
theorem Scene.sound_erase {scene : Scene} (h : scene.Sound env startOfDay siteId erasure) (readings : ScrubReadings)
    (hmeets : scene.Meets env startOfDay siteId erasure (.erase readings)) :
    (scene.erase env startOfDay siteId erasure readings).Sound env startOfDay siteId erasure := by
  unfold Scene.erase
  split
  · rename_i linked hprogress
    by_cases hblocked : scene.blocked env startOfDay siteId erasure readings linked = true
    · rw [if_pos hblocked]
      exact h
    · rw [if_neg hblocked]
      split
      · refine ⟨h.sent, h.locks, ?_, ?_⟩
        · intro deletion linked links readings hsucceeded
          cases hsucceeded
        · intro deletion linked links readings hsucceeded
          cases hsucceeded
      · rename_i affected db hexecute
        obtain ⟨hconfig, hkeeps⟩ := Erasure.execute_frame hexecute
        have hspec := @Erasure.execute_spec env startOfDay siteId erasure readings linked scene.world.db db affected
          (hmeets linked hprogress) hexecute
        refine ⟨h.sent, h.locks.of_lookup ?_, ?_, ?_⟩
        · intro id hid
          obtain ⟨c, hc, hmem⟩ := List.mem_flatMap.mp hid
          obtain ⟨job, hjob, rfl⟩ := List.mem_map.mp hmem
          obtain ⟨row, hrow⟩ := h.locks.claimed c hc job hjob
          rw [hrow.lookup]
          refine hkeeps job.id row hrow.lookup fun hsite => ?_
          -- A pass that holds a row to be scrubbed would have been waited for.
          by_contra hlocks
          refine hblocked (List.any_eq_true.mpr ⟨c, hc, List.any_eq_true.mpr ⟨job, hjob, ?_⟩⟩)
          rw [← hrow.payload, ← hrow.siteId, hsite, decide_eq_true rfl, Bool.true_and]
          exact Bool.not_eq_false _ ▸ hlocks
        · intro deletion linked' links readings' hsucceeded hdeletion
          obtain ⟨rfl, rfl, rfl⟩ := Progress.succeeded.inj hsucceeded
          exact (hspec (hconfig ▸ hdeletion)).2
        · intro deletion linked' links readings' hsucceeded hdeletion
          obtain ⟨rfl, rfl, rfl⟩ := Progress.succeeded.inj hsucceeded
          exact (hspec (hconfig ▸ hdeletion)).1
  · exact h

/-- **A step of the others.** -/
theorem Scene.sound_act {scene : Scene} (h : scene.Sound env startOfDay siteId erasure) (action : Action)
    (hmeets : scene.Meets env startOfDay siteId erasure (.act action)) :
    Scene.Sound env startOfDay siteId erasure { scene with world := scene.world.step env action } := by
  have hconfig := World.step_config env scene.world action
  obtain ⟨hsent, hlocks, -⟩ := @World.step_induction env (fun _ _ => True)
    (fun _ _ _ _ _ => trivial) (fun _ _ _ _ _ _ _ _ _ _ _ _ => trivial) scene.world action h.sent h.locks trivial
  refine ⟨hsent, hlocks, ?_, ?_⟩
  · intro deletion linked links readings hprogress hdeletion
    have hdeletion' : erasure.deletion env startOfDay scene.world.db.store.config.sites siteId = some deletion := by
      rw [← hconfig]
      exact hdeletion
    have herased := h.erased deletion linked links readings hprogress hdeletion'
    have hcounted := h.counted deletion linked links readings hprogress hdeletion'
    cases action with
    | call => exact herased
    | claim => exact herased
    | write i commits =>
      show (deletion.selected env linked links readings).AbsentFromDatabase env siteId (scene.world.write env i commits).db
      unfold World.write
      split
      · rename_i next rest hcall
        cases commits with
        | false => exact herased
        | true =>
          exact absentFromDatabase_write
            (hmeets deletion linked links readings hprogress hdeletion' next rest hcall) herased
      · exact herased
    | finish i rounds commits =>
      show (deletion.selected env linked links readings).AbsentFromDatabase env siteId
        (scene.world.finish env i rounds commits).db
      unfold World.finish
      split
      · exact herased
      rename_i c hc
      split
      · rename_i db verdicts hbatch
        unfold processBatch at hbatch
        cases hpolicy : scene.world.db.store.config.privacy with
        | error message =>
          rw [hpolicy] at hbatch
          cases hbatch
        | ok policy =>
          rw [hpolicy] at hbatch
          refine absentFromDatabase_pass hcounted (fun job hjob => ?_) ?_ ?_ herased hbatch
          · exact h.locks.claimed c (List.mem_of_getElem? hc) job hjob
          · obtain ⟨hown, -, -⟩ := List.nodup_append.mp
              ((lockedIds_perm_eraseIdx hc).nodup_iff.mp h.locks.distinct)
            exact hown
          · exact hmeets deletion linked links readings hprogress hdeletion' c hc
      · exact herased
  · intro deletion linked links readings hprogress hdeletion
    refine h.counted deletion linked links readings hprogress ?_
    rw [← hconfig]
    exact hdeletion

/-- **One move.** -/
theorem Scene.sound_step {scene : Scene} (h : scene.Sound env startOfDay siteId erasure) (move : Move)
    (hmeets : scene.Meets env startOfDay siteId erasure move) :
    (scene.step env startOfDay siteId erasure move).Sound env startOfDay siteId erasure := by
  cases move with
  | readLinked =>
    unfold Scene.step
    dsimp only
    split
    · refine ⟨h.sent, h.locks, ?_, ?_⟩
      · intro deletion linked links readings hsucceeded
        cases hsucceeded
      · intro deletion linked links readings hsucceeded
        cases hsucceeded
    · exact h
  | erase readings => exact Scene.sound_erase h readings hmeets
  | act action => exact Scene.sound_act h action hmeets

theorem Scene.sound_initial (db : Database) : (Scene.initial db).Sound env startOfDay siteId erasure where
  sent _ h := absurd h List.not_mem_nil
  locks := ⟨fun _ h => absurd h List.not_mem_nil, List.nodup_nil⟩
  erased _ _ _ _ h := Progress.noConfusion h
  counted _ _ _ _ h := Progress.noConfusion h

/-- **ERASURES ARE COMPLETE** in every run from any database in which they cover what they
select: in every state the run reaches, an erasure that has succeeded has left nothing. -/
theorem erasures_complete (env : Platform) (startOfDay : String → Date → Instant) (siteId : Uuid)
    (erasure : Erasure) (db : Database) (moves : List Move)
    (h : Along (Scene.step env startOfDay siteId erasure) (Scene.Meets env startOfDay siteId erasure)
      (Scene.initial db) moves) :
    ((Scene.initial db).run env startOfDay siteId erasure moves).Erased env startOfDay siteId erasure :=
  (along_induction (I := Scene.Sound env startOfDay siteId erasure)
    (fun _ move hsound hmeets => Scene.sound_step hsound move hmeets) moves
    (Scene.sound_initial db) h).erased

end Runs

/-! ## §9. A link that comes too late. -/

namespace Sample

/-- A request of the visitor, under a user or none. -/
def visit (visitor user : String) (c : Char) : AcceptCall where
  request := { siteId := "site", trackingKey := "sk", visitorId := visitor, sessionId := "s1", userId := user
               events := [pageView c] }
  origin := ""
  clientIp := ""
  userAgent := "Mozilla/5.0"

def startOfDay (_ : String) (date : Date) : Instant := date * (24 * 3600 * 1000000)

def scrubReadings : ScrubReadings := ⟨newYear * 1000, fun _ => false⟩

/-- `v1` was here before it told who it is; a pass has just claimed the event that says it. -/
def lateLink : List Move :=
  [.act (.call (visit "v1" "" '1') (acceptReadings 1)), .act (.write 0 true), .act (.claim (newYear * 1000)),
    .act (.finish 0 (fun _ => ⟨readings, [], []⟩) true),
    .act (.call (visit "v1" "u" '2') (acceptReadings 2)), .act (.write 1 true), .act (.claim (newYear * 1000)),
    .readLinked, .act (.finish 0 (fun _ => ⟨readings, [], []⟩) true), .erase scrubReadings]

def eraseUser : Erasure := .analytics (.userId "u") nofun

def lateScene : Scene := (Scene.initial (Database.initial (config 100))).run platform startOfDay siteId eraseUser lateLink

/-- The erasure has succeeded, missing a link. -/
def missed (visitor : String) (scene : Scene) : Bool :=
  match scene.progress with
  | .succeeded linked links _ => visitor ∉ linked && visitor ∈ links
  | _ => false

/-- The same visitor, deleted by name. -/
def eraseVisitor : Erasure := .analytics (.visitor "v1") nofun

/-- A pass deletes nothing and a claim follows. -/
def oneVisit : List Move :=
  [.act (.call (visit "v1" "" '1') (acceptReadings 1)), .act (.write 0 true), .act (.claim (newYear * 1000)),
    .act (.finish 0 (fun _ => ⟨readings, [], []⟩) true), .readLinked, .erase scrubReadings]

end Sample

/-- **AN ERASURE THAT MISSES A LINK**: the pass that links the visitor to the user commits
while the deletion waits for it.  No inbox row is left to process, and an event of the
visitor is still there. -/
theorem erasure_incomplete :
    (∀ e ∈ Sample.lateScene.world.db.inbox.entries, e.2.processedAt.isSome = true)
      ∧ ¬Sample.lateScene.Erased Sample.platform Sample.startOfDay Sample.siteId Sample.eraseUser := by
  have hprocessed : (Sample.lateScene.world.db.inbox.entries.all fun e => e.2.processedAt.isSome) = true := by
    decide +kernel
  have hmissed : Sample.missed "v1" Sample.lateScene = true := by decide +kernel
  have hevent : (Sample.lateScene.world.db.store.rawEvents.rows.any fun r =>
      r.siteId = Sample.siteId && r.visitorId = "v1") = true := by decide +kernel
  refine ⟨List.all_eq_true.mp hprocessed, ?_⟩
  intro herased
  obtain ⟨r, hr, hrow⟩ := List.any_eq_true.mp hevent
  simp only [Bool.and_eq_true, decide_eq_true_eq] at hrow
  unfold Sample.missed at hmissed
  split at hmissed
  · rename_i linked links readings hprogress
    simp only [Bool.and_eq_true, decide_eq_true_eq] at hmissed
    have habsent := herased _ linked links readings hprogress rfl
    refine (habsent.store.rawEvents r hr hrow.1).person.visitor (.inr ?_)
    rw [hrow.2]
    exact hmissed.2
  · cases hmissed

theorem erasures_complete_visitor :
    ((Scene.initial (Database.initial (Sample.config 100))).run Sample.platform Sample.startOfDay Sample.siteId
      Sample.eraseVisitor Sample.oneVisit).Erased Sample.platform Sample.startOfDay Sample.siteId Sample.eraseVisitor :=
  erasures_complete Sample.platform Sample.startOfDay Sample.siteId Sample.eraseVisitor _ Sample.oneVisit
    ⟨trivial, fun _ _ _ _ h => Progress.noConfusion h, trivial, fun _ _ _ _ h => Progress.noConfusion h, trivial,
      fun _ _ => trivial, trivial⟩

end Momento
