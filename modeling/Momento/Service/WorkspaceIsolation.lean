/-
  Momento.Service.WorkspaceIsolation

  **WHOSE ROWS AN ADMINISTRATOR'S REQUEST REACHES.**  A deletion, an event definition, an
  annotation saved or deleted: each handler finds its site in its own way, two by the
  membership rule, two by a site key in the body, and an annotation by an id the client
  names.

  A request is checked first (`prepare`) and then carried out (`Plan.execute`).  Where a
  plan leads is a matter of the sites, the memberships and the places of the annotations
  alone; that is the directory.
-/
import Momento.Service.Accept
import Momento.Service.DataDeletion
import Momento.Service.Runs

namespace Momento

open Foundation

/-! ## §1. Tenants. -/

/-- The workspaces of the sites. -/
structure Tenancy where
  /-- `sites.workspace_id`. -/
  workspaceOf : Table Uuid Uuid
  /-- `user_workspace_roles`: the user and the workspace, the role. -/
  memberships : Table (Uuid × Uuid) String

namespace Tenancy
variable (t : Tenancy) (p : Principal) (siteId : Uuid)

/-- The site is in a workspace of the caller. -/
def Belongs : Prop := ∃ workspace, t.workspaceOf.lookup siteId = some workspace ∧ (p.id, workspace) ∈ t.memberships

/-- `siteVisibleTo`. -/
def siteVisibleTo : Bool :=
  isInstanceWide p.role || (t.workspaceOf.lookup siteId).any fun workspace => (p.id, workspace) ∈ t.memberships

end Tenancy

/-- Where an annotation is. -/
structure Place where
  workspaceId : Uuid
  siteId : Option Uuid

/-- A row of `analytics_annotations`. -/
structure Annotation where
  place : Place
  environment : String
  occurredAt : Instant
  endedAt : Option Instant
  kind : String
  title : String
  description : String
  source : String
  metadata : Option Properties

/-- The database of the console. -/
structure AdminDb where
  data : Database
  tenancy : Tenancy
  annotations : Table Uuid Annotation

/-! ## §2. The requests. -/

/-- The body of `upsertEventDefinition`. -/
structure DefinitionBody where
  siteId : String
  name : String
  description : String
  schema : Option RegistrySchema
  validationMode : String
  conversion : Bool

/-- The body of an annotation. -/
structure AnnotationBody where
  id : String
  environment : String
  /-- None where the body has the zero time. -/
  occurredAt : Option Instant
  endedAt : Option Instant
  kind : String
  title : String
  description : String
  source : String
  metadata : Option Properties
  workspaceWide : Bool

/-- A request; its body may not decode, an id of its path may not parse. -/
inductive AdminRequest where
  | deleteAnalyticsData (body : Except String DeletionRequest)
  | upsertEventDefinition (body : Except String DefinitionBody)
  | annotationSave (siteKey : String) (body : Except String AnnotationBody)
  | annotationDelete (siteKey : String) (id : Option Uuid)

/-- What the server and the database contribute. -/
structure AdminLibrary where
  env : Platform
  calendar : Calendar
  /-- `$1::uuid`. -/
  castUuid : String → Except String Uuid

/-- What a request meets: the scrub's readings, the id a new row draws, and the answer to a
statement that fails. -/
structure AdminReadings where
  scrub : ScrubReadings
  newId : Uuid
  fails : Option Refusal

/-- What a request that passed its checks is to do. -/
inductive Plan where
  | deleteData (siteId : Uuid) (deletion : Deletion)
  | define (siteId : Uuid) (mode : ContractMode) (body : DefinitionBody)
  | annotate (id : Uuid) (row : Annotation)
  | unannotate (siteId id : Uuid)

/-- `map[string]bool{"deployment": true, …}`. -/
def annotationKinds : List String :=
  ["deployment", "release", "incident", "campaign", "training", "feature_flag", "organization", "manual"]

/-- The modes by name. -/
def parseContractMode (mode : String) : Option ContractMode :=
  match mode with
  | "allow" => some .allow
  | "warn" => some .warn
  | "reject" => some .reject
  | _ => none

section
variable (lib : AdminLibrary) (p : Principal) (sites : Table Uuid Site) (tenancy : Tenancy)

/-- `resolveSite`. -/
def resolveSite (key : String) : Option Uuid :=
  (sites.entries.find? fun e => e.2.siteKey = key && e.2.active && tenancy.siteVisibleTo p e.1).map Sigma.fst

/-- The id and the row `saveAnnotation` inserts, for the site of the path. -/
def AnnotationBody.prepare (newId siteId : Uuid) (body : AnnotationBody) : Except Refusal Plan :=
  match body.occurredAt with
  | none => .error ⟨400, "INVALID_ANNOTATION", "occurred_at, title, and a valid kind are required"⟩
  | some occurredAt =>
    if trimSpace body.title = "" ∨ body.kind ∉ annotationKinds then
      .error ⟨400, "INVALID_ANNOTATION", "occurred_at, title, and a valid kind are required"⟩
    else match if body.id = "" then .ok newId else lib.castUuid body.id, tenancy.workspaceOf.lookup siteId with
      | .error message, _ => .error ⟨500, "ANNOTATION_SAVE_FAILED", message⟩
      | .ok _, none => .error ⟨500, "ANNOTATION_SAVE_FAILED", "no rows in result set"⟩
      | .ok id, some workspace =>
        .ok (.annotate id
          { place := ⟨workspace, if body.workspaceWide then none else some siteId⟩
            environment := if isEnvironmentName body.environment then body.environment else "prd"
            occurredAt := occurredAt
            endedAt := body.endedAt
            kind := body.kind
            title := trimSpace body.title
            description := body.description
            source := if body.source = "" then "manual" else body.source
            metadata := body.metadata })

/-- **The checks of the four handlers.** -/
def AdminRequest.prepare (newId : Uuid) (request : AdminRequest) : Except Refusal Plan :=
  if !admin p then .error ⟨403, "FORBIDDEN", "administrator permission required"⟩
  else match request with
    | .deleteAnalyticsData (.error message) => .error ⟨400, "INVALID_PAYLOAD", message⟩
    | .deleteAnalyticsData (.ok body) =>
      (body.understood lib.env lib.calendar sites).map fun u => .deleteData u.1 u.2
    | .upsertEventDefinition (.error message) => .error ⟨400, "INVALID_PAYLOAD", message⟩
    | .upsertEventDefinition (.ok body) =>
      match parseContractMode body.validationMode, siteByKey sites body.siteId with
      | none, _ => .error ⟨400, "INVALID_MODE", "validation mode must be allow, warn, or reject"⟩
      | some _, none => .error ⟨500, "DEFINITION_SAVE_FAILED", "no rows in result set"⟩
      | some mode, some siteId => .ok (.define siteId mode body)
    | .annotationSave siteKey body =>
      match resolveSite p sites tenancy siteKey, body with
      | none, _ => .error ⟨404, "UNKNOWN_SITE", "site not found"⟩
      | some _, .error message => .error ⟨400, "INVALID_PAYLOAD", message⟩
      | some siteId, .ok body => body.prepare lib tenancy newId siteId
    | .annotationDelete siteKey id =>
      match resolveSite p sites tenancy siteKey, id with
      | none, _ => .error ⟨404, "UNKNOWN_SITE", "site not found"⟩
      | some _, none => .error ⟨400, "INVALID_ID", "invalid annotation id"⟩
      | some siteId, some id => .ok (.unannotate siteId id)

end

/-! ## §3. What they do. -/

/-- What a request is answered. -/
inductive AdminAnswer where
  | affected (rows : Nat)
  | defined (version : Nat)
  | annotated (id : Uuid)
  | deleted

namespace AdminDb
variable (db : AdminDb)

/-- The statements of `upsertEventDefinition`. -/
def define (siteId : Uuid) (mode : ContractMode) (body : DefinitionBody) : Nat × AdminDb :=
  let config := db.data.store.config
  let isOf (v : ContractVersion) : Bool := v.siteId = siteId && v.eventName = body.name
  let version := ((config.contractVersions.filter isOf).map ContractVersion.version).foldl max 0 + 1
  let definition : EventDefinition :=
    { description := body.description
      schema := body.schema
      validationMode := mode
      conversion := body.conversion
      currentVersion := version
      deprecated := (config.eventDefinitions.lookup ⟨siteId, body.name⟩).elim false EventDefinition.deprecated }
  let versions :=
    ⟨siteId, body.name, version, mode, .active, body.schema⟩ :: config.contractVersions.map fun v =>
      if isOf v && v.status = .active then { v with status := .deprecated } else v
  (version,
    { db with data := { db.data with store := { db.data.store with config :=
      { config with
        eventDefinitions := AList.insert ⟨siteId, body.name⟩ definition config.eventDefinitions
        contractVersions := versions } } } })

/-- `INSERT … ON CONFLICT(id) DO UPDATE`: an annotation that is there keeps its workspace. -/
def annotate (id : Uuid) (row : Annotation) : AdminDb :=
  { db with annotations := db.annotations.upsert id row fun old =>
      { row with place := ⟨old.place.workspaceId, row.place.siteId⟩ } }

/-- `DELETE FROM analytics_annotations a USING sites s WHERE … a.workspace_id=s.workspace_id`. -/
def unannotate (siteId id : Uuid) : Option AdminDb :=
  match db.annotations.lookup id with
  | none => none
  | some row =>
    if db.tenancy.workspaceOf.lookup siteId = some row.place.workspaceId then
      some { db with annotations := db.annotations.erase id }
    else none

end AdminDb

/-- The statements of a plan. -/
def Plan.execute (lib : AdminLibrary) (readings : AdminReadings) (db : AdminDb) :
    Plan → Except Refusal AdminAnswer × AdminDb
  | .deleteData siteId deletion =>
    match Momento.deleteData lib.env readings.scrub siteId db.data deletion with
    | .error e => (.error ⟨500, "DERIVED_REBUILD_FAILED", e.message⟩, db)
    | .ok (rows, data) => (.ok (.affected rows), { db with data := data })
  | .define siteId mode body =>
    let (version, db) := db.define siteId mode body
    (.ok (.defined version), db)
  | .annotate id row => (.ok (.annotated id), db.annotate id row)
  | .unannotate siteId id =>
    match db.unannotate siteId id with
    | none => (.error ⟨404, "NOT_FOUND", "annotation not found"⟩, db)
    | some db => (.ok .deleted, db)

/-- **A request**: checked, then carried out unless a statement fails. -/
def AdminRequest.run (lib : AdminLibrary) (p : Principal) (readings : AdminReadings) (db : AdminDb)
    (request : AdminRequest) : Except Refusal AdminAnswer × AdminDb :=
  match request.prepare lib p db.data.store.config.sites db.tenancy readings.newId, readings.fails with
  | .error refusal, _ => (.error refusal, db)
  | .ok _, some refusal => (.error refusal, db)
  | .ok plan, none => plan.execute lib readings db

/-! ## §4. Isolation. -/

/-- The place is the caller's: its workspace, and its site if it has one. -/
def Place.Home (t : Tenancy) (p : Principal) (place : Place) : Prop :=
  (p.id, place.workspaceId) ∈ t.memberships ∧ ∀ siteId, place.siteId = some siteId → t.Belongs p siteId

/-- **No row elsewhere is inserted, changed or deleted.** -/
structure Isolated (p : Principal) (db db' : AdminDb) : Prop where
  sites : ∀ siteId, ¬db.tenancy.Belongs p siteId → db.data.SameAt siteId db'.data
  annotations : ∀ id a, db'.annotations.lookup id ≠ db.annotations.lookup id →
    db.annotations.lookup id = some a ∨ db'.annotations.lookup id = some a → a.place.Home db.tenancy p

theorem Isolated.refl (p : Principal) (db : AdminDb) : Isolated p db db :=
  ⟨fun siteId _ => Database.SameAt.refl siteId db.data, fun _ _ h _ => absurd rfl h⟩

/-- What of the database decides where a request leads. -/
structure Directory where
  sites : Table Uuid Site
  tenancy : Tenancy
  /-- Where the annotations are. -/
  places : Table Uuid Place

/-- The database is one with this directory. -/
structure AdminDb.In (db : AdminDb) (d : Directory) : Prop where
  sites : db.data.store.config.sites = d.sites
  tenancy : db.tenancy = d.tenancy
  places : ∀ id, (db.annotations.lookup id).map Annotation.place = d.places.lookup id

/-- **The plan stays at home**: its site is the caller's; the annotation it overwrites or
deletes, if there is one, is. -/
def Plan.Home (p : Principal) (d : Directory) : Plan → Prop
  | .deleteData siteId _ => d.tenancy.Belongs p siteId
  | .define siteId _ _ => d.tenancy.Belongs p siteId
  | .annotate id _ => ∀ place, d.places.lookup id = some place → place.Home d.tenancy p
  | .unannotate siteId id => ∀ place, d.places.lookup id = some place →
      d.tenancy.workspaceOf.lookup siteId = some place.workspaceId → place.Home d.tenancy p

section
variable {lib : AdminLibrary} {p : Principal} {readings : AdminReadings} {db : AdminDb} {d : Directory}

/-- The definition's rows are of one site. -/
theorem define_sameAt {siteId other : Uuid} (h : other ≠ siteId) (mode : ContractMode) (body : DefinitionBody) :
    db.data.SameAt other (db.define siteId mode body).2.data := by
  have hsame := Database.SameAt.refl other db.data
  refine { hsame with definitions := ?_, versions := ?_ }
  · intro k hk
    refine AList.lookup_insert_ne ?_
    rintro rfl
    exact h hk.symm
  · show List.filter _ (_ :: List.map _ _) = _
    rw [List.filter_cons, if_neg (by simpa using h.symm), ← List.filterMap_eq_map]
    refine filter_filterMap_of_ne ContractVersion.siteId ?_ ?_ _
    · intro v v' hv
      rw [← Option.some.inj hv]
      dsimp only
      split <;> rfl
    · intro v hv
      have hne : v.siteId ≠ siteId := by rwa [hv]
      simp [hne]

theorem mem_memberships_of_visible {siteId workspace : Uuid} (hp : isInstanceWide p.role = false)
    (h : db.tenancy.siteVisibleTo p siteId = true) (hworkspace : db.tenancy.workspaceOf.lookup siteId = some workspace) :
    (p.id, workspace) ∈ db.tenancy.memberships := by
  unfold Tenancy.siteVisibleTo at h
  rw [hp, hworkspace] at h
  simpa using h

/-- What a checked request carries: a new annotation's own place is at home. -/
theorem prepare_annotate {request : AdminRequest} {newId id : Uuid} {row : Annotation} {sites : Table Uuid Site}
    (hp : isInstanceWide p.role = false)
    (h : request.prepare lib p sites db.tenancy newId = .ok (.annotate id row)) :
    row.place.Home db.tenancy p := by
  unfold AdminRequest.prepare at h
  split at h
  · cases h
  cases request with
  | deleteAnalyticsData body =>
    cases body with
    | error message => cases h
    | ok body =>
      dsimp only at h
      cases hunderstood : body.understood lib.env lib.calendar sites with
      | error refusal =>
        rw [hunderstood] at h
        cases h
      | ok u =>
        rw [hunderstood] at h
        cases h
  | upsertEventDefinition body =>
    cases body with
    | error message => cases h
    | ok body =>
      dsimp only at h
      split at h <;> cases h
  | annotationDelete siteKey path =>
    dsimp only at h
    split at h <;> cases h
  | annotationSave siteKey body =>
    dsimp only at h
    split at h
    · cases h
    · cases h
    next siteId body hresolved =>
      have hvisible : db.tenancy.siteVisibleTo p siteId = true := by
        obtain ⟨e, he, rfl⟩ := Option.map_eq_some_iff.mp hresolved
        have htest := List.find?_some he
        simp only [Bool.and_eq_true] at htest
        exact htest.2
      unfold AnnotationBody.prepare at h
      split at h
      · cases h
      split at h
      · cases h
      split at h
      · cases h
      · cases h
      next workspace _ hworkspace =>
        obtain ⟨rfl, rfl⟩ := Plan.annotate.inj (Except.ok.inj h)
        have hmember := mem_memberships_of_visible hp hvisible hworkspace
        refine ⟨hmember, ?_⟩
        intro site hsite
        dsimp only at hsite
        split at hsite
        · cases hsite
        · obtain rfl := Option.some.inj hsite
          exact ⟨workspace, hworkspace, hmember⟩

/-- **A plan at home is isolated.** -/
theorem execute_isolated {plan : Plan} (hd : db.In d) (hhome : plan.Home p d)
    (hplace : ∀ id row, plan = .annotate id row → row.place.Home db.tenancy p) :
    Isolated p db (plan.execute lib readings db).2 := by
  have hplaces : ∀ id a, db.annotations.lookup id = some a → d.places.lookup id = some a.place := by
    intro id a ha
    rw [← hd.places, ha]
    rfl
  cases plan with
  | deleteData siteId deletion =>
    unfold Plan.execute
    dsimp only
    split
    · exact Isolated.refl p db
    next rows data hdelete =>
      refine ⟨fun other hother => ?_, fun _ _ h _ => absurd rfl h⟩
      refine deleteData_sameAt hdelete ?_
      rintro rfl
      rw [hd.tenancy] at hother
      exact hother hhome
  | define siteId mode body =>
    refine ⟨fun other hother => ?_, fun _ _ h _ => absurd rfl h⟩
    refine define_sameAt ?_ mode body
    rintro rfl
    rw [hd.tenancy] at hother
    exact hother hhome
  | annotate id row =>
    have hown := hplace id row rfl
    refine ⟨fun other _ => Database.SameAt.refl other db.data, ?_⟩
    intro id' a hchanged hrow
    have hafter : (db.annotate id row).annotations.lookup id' ≠ db.annotations.lookup id' := hchanged
    unfold AdminDb.annotate at hafter
    by_cases hid : id' = id
    · rw [hd.tenancy] at hown ⊢
      rcases hrow with hbefore | hnow
      · exact hhome a.place (hid ▸ hplaces id' a hbefore)
      · -- The row is the new one; where it replaces one it keeps the workspace.
        have hlookup : (db.annotations.upsert id row fun old =>
            { row with place := ⟨old.place.workspaceId, row.place.siteId⟩ }).lookup id' = some a := hnow
        rw [hid, Table.lookup_upsert_self] at hlookup
        obtain rfl := Option.some.inj hlookup
        cases hold : db.annotations.lookup id with
        | none => exact hown
        | some old => exact ⟨(hhome old.place (hplaces id old hold)).1, hown.2⟩
    · exact absurd (Table.lookup_upsert_of_ne hid _ _ _) hafter
  | unannotate siteId id =>
    unfold Plan.execute AdminDb.unannotate
    dsimp only
    cases hrow : db.annotations.lookup id with
    | none => exact Isolated.refl p db
    | some row =>
      dsimp only
      by_cases hworkspace : db.tenancy.workspaceOf.lookup siteId = some row.place.workspaceId
      · rw [if_pos hworkspace]
        refine ⟨fun other _ => Database.SameAt.refl other db.data, ?_⟩
        intro id' a hchanged hfound
        dsimp only at hchanged hfound
        by_cases hid : id' = id
        · rw [hid] at hfound
          rcases hfound with hbefore | hnow
          · rw [hrow] at hbefore
            obtain rfl := Option.some.inj hbefore
            rw [hd.tenancy] at hworkspace ⊢
            exact hhome row.place (hplaces id row hrow) hworkspace
          · rw [AList.lookup_erase] at hnow
            cases hnow
        · exact absurd (AList.lookup_erase_ne hid) hchanged
      · rw [if_neg hworkspace]
        exact Isolated.refl p db

end

/-! ## §5. A plan that leads elsewhere. -/

/-- A database with the directory: its annotations have one title, and there are no events. -/
def Directory.filled (d : Directory) (title : String) (visitors : Table VisitorKey Visitor)
    (inbox : Table Nat InboxRow) : AdminDb where
  data :=
    { store :=
        { Store.initial ⟨d.sites, ∅, ∅, [], [], none, .ok Policy.default⟩ with visitors := visitors }
      inbox := inbox
      deadLetters := [] }
  tenancy := d.tenancy
  annotations := d.places.filterMapRows fun _ place =>
    some ⟨place, "prd", 0, none, "manual", title, "", "manual", none⟩

section
variable (lib : AdminLibrary) (readings : AdminReadings) {p : Principal} {d : Directory}

theorem Directory.lookup_filled (title : String) (visitors : Table VisitorKey Visitor) (inbox : Table Nat InboxRow)
    (id : Uuid) :
    (d.filled title visitors inbox).annotations.lookup id
      = (d.places.lookup id).map fun place => ⟨place, "prd", 0, none, "manual", title, "", "manual", none⟩ := by
  show (d.places.filterMapRows _).lookup id = _
  rw [Table.lookup_filterMapRows]
  cases d.places.lookup id with
  | none => rfl
  | some place => rfl

theorem Directory.filled_in {title : String} {visitors : Table VisitorKey Visitor} {inbox : Table Nat InboxRow} :
    (d.filled title visitors inbox).In d := by
  refine ⟨rfl, rfl, fun id => ?_⟩
  rw [Directory.lookup_filled, Option.map_map]
  cases d.places.lookup id with
  | none => rfl
  | some place => rfl

/-- Without events, the rebuild empties the site's visitors. -/
theorem rebuild_of_no_events (env : Platform) (siteId : Uuid) {s : Store} (h : s.rawEvents.rows = []) :
    ∃ s', s.rebuildSiteDerivedData env siteId = .ok s' ∧ ∀ k, k.siteId = siteId → s'.visitors.lookup k = none := by
  have hmetrics : (rebuildDailyMetrics env siteId (s.refill siteId)).collect = .ok ∅ := by
    show (((s.config.sites.lookup siteId).elim ∅ fun site => Table.groupRows (RawEvent.dayKey env site.timezone)
      (fun _ rows => rebuildMetricsRow rows) (siteRows siteId s.rawEvents.rows)) : Table DayKey _).collect = _
    rw [h]
    cases s.config.sites.lookup siteId with
    | none => rfl
    | some site => rfl
  refine ⟨(s.refill siteId).replaceDaily (coversSite siteId) ∅ (rebuildDailyVisitors env siteId (s.refill siteId))
    (rebuildDailySessions env siteId (s.refill siteId)), ?_, ?_⟩
  · unfold Store.rebuildSiteDerivedData Store.rebuildSiteDailyAggregates
    rw [hmetrics]
    rfl
  · intro k hk
    have hempty : rebuildVisitors siteId s = ∅ := by
      unfold rebuildVisitors
      rw [h]
      rfl
    show (Table.replaceRows (fun k : VisitorKey => k.siteId = siteId) (rebuildVisitors siteId s) s.visitors).lookup k = none
    rw [hempty, Table.lookup_replaceRows _ (fun _ _ => rfl), if_pos (decide_eq_true hk)]
    rfl

/-- A deletion that rebuilds empties the visitors of a site without events. -/
theorem deleteRawEvents_of_no_events (env : Platform) (siteId : Uuid) (covers : RawEvent → Bool) (db : Database)
    (h : db.store.rawEvents.rows = []) :
    ∃ rows data, db.deleteRawEvents env siteId covers = .ok (rows, data) ∧
      ∀ k, k.siteId = siteId → data.store.visitors.lookup k = none := by
  have hkept : (db.store.rawEvents.keepRows fun r => !(r.siteId = siteId && covers r)).rows = [] := by
    show db.store.rawEvents.rows.filter _ = []
    rw [h]
    rfl
  obtain ⟨store, hrebuild, hgone⟩ := rebuild_of_no_events env siteId
    (s := { db.store with rawEvents := db.store.rawEvents.keepRows fun r => !(r.siteId = siteId && covers r) }) hkept
  refine ⟨db.store.rawEvents.rows.countP fun r => r.siteId = siteId && covers r, { db with store := store }, ?_, hgone⟩
  unfold Database.deleteRawEvents
  dsimp only
  rw [hrebuild]
  rfl

/-- A visitor, and a queued document that does not decode. -/
def strayVisitor : Visitor := ⟨none, 0, 0, 0, 0, []⟩

def strayRow (siteId : Uuid) : InboxRow := ⟨siteId, .error "", 0, 0, none, none⟩

/-- **Every deletion changes some database at its site**: a property is looked for in the
queue, everything else ends with a rebuild. -/
theorem deleteData_elsewhere (siteId : Uuid) (deletion : Deletion) :
    ∃ db : AdminDb, db.In d ∧
      ¬db.data.SameAt siteId ((Plan.deleteData siteId deletion).execute lib readings db).2.data := by
  by_cases hproperty : ∃ name, deletion = .property name
  · obtain ⟨name, rfl⟩ := hproperty
    refine ⟨d.filled "" ∅ (AList.singleton 0 (strayRow siteId)), Directory.filled_in, ?_⟩
    intro hsame
    have hrow := (hsame.inbox 0 (strayRow siteId) rfl).mpr rfl
    have hgone : ((d.filled "" ∅ (AList.singleton 0 (strayRow siteId))).data.scrubQueued lib.env readings.scrub siteId
        (.property name) []).inbox.lookup 0 = none := by
      show (Table.filterMapRows _ _).lookup 0 = none
      rw [Table.lookup_filterMapRows]
      show (if siteId = siteId then _ else _) = _
      rw [if_pos rfl]
      rfl
    have hsame : some (strayRow siteId) = none := hrow.symm.trans hgone
    cases hsame
  · let db := d.filled "" (AList.insert ⟨siteId, "visitor"⟩ strayVisitor ∅) ∅
    refine ⟨db, Directory.filled_in, ?_⟩
    intro hsame
    have hvisitor : db.data.store.visitors.lookup ⟨siteId, "visitor"⟩ = some strayVisitor := AList.lookup_insert _
    have hempty : db.data.store.rawEvents.rows = [] := rfl
    obtain ⟨rows, data, hdelete, hgone⟩ := deleteRawEvents_of_no_events lib.env siteId
      (deletion.selects (deletion.linked siteId db.data.store))
      (db.data.scrubQueued lib.env readings.scrub siteId deletion (deletion.linked siteId db.data.store)) hempty
    have hexecute : deleteData lib.env readings.scrub siteId db.data deletion = .ok (rows, data) := by
      cases deletion with
      | property name => exact absurd ⟨name, rfl⟩ hproperty
      | site => exact hdelete
      | visitor visitorId => exact hdelete
      | userId userId => exact hdelete
      | period start stop => exact hdelete
    have hkept := hsame.visitors ⟨siteId, "visitor"⟩ rfl
    unfold Plan.execute at hkept
    dsimp only at hkept
    rw [hexecute, hvisitor] at hkept
    have hnone := hgone ⟨siteId, "visitor"⟩ rfl
    rw [hkept] at hnone
    cases hnone

/-- A definition adds a version at its site. -/
theorem define_elsewhere (siteId : Uuid) (mode : ContractMode) (body : DefinitionBody) :
    ∃ db : AdminDb, db.In d ∧
      ¬db.data.SameAt siteId ((Plan.define siteId mode body).execute lib readings db).2.data := by
  refine ⟨d.filled "" ∅ ∅, Directory.filled_in, ?_⟩
  intro hsame
  have hversions : List.filter (fun v : ContractVersion => v.siteId = siteId) (_ :: []) = [] := hsame.versions
  rw [List.filter_cons, if_pos (decide_eq_true rfl)] at hversions
  cases hversions

/-- An annotation that is there is overwritten, wherever it is. -/
theorem annotate_elsewhere {id : Uuid} (row : Annotation) {place : Place} (hplace : d.places.lookup id = some place)
    (hhome : ¬place.Home d.tenancy p) :
    ∃ db : AdminDb, db.In d ∧ ¬Isolated p db ((Plan.annotate id row).execute lib readings db).2 := by
  -- The old title is not the new one.
  obtain ⟨title, htitle⟩ : ∃ title : String, title ≠ row.title := by
    by_cases hempty : row.title = ""
    · exact ⟨"old", by rw [hempty]; decide⟩
    · exact ⟨"", Ne.symm hempty⟩
  refine ⟨d.filled title ∅ ∅, Directory.filled_in, ?_⟩
  intro hisolated
  have hbefore : (d.filled title ∅ ∅).annotations.lookup id = _ := Directory.lookup_filled title ∅ ∅ id
  rw [hplace] at hbefore
  refine hhome (hisolated.annotations id _ ?_ (Or.inl hbefore))
  have hafter : ((d.filled title ∅ ∅).annotate id row).annotations.lookup id
      = some { row with place := ⟨place.workspaceId, row.place.siteId⟩ } := by
    show (Table.upsert id row _ _).lookup id = _
    rw [Table.lookup_upsert_self, hbefore]
    rfl
  intro hsame
  have heq := hafter.symm.trans (hsame.trans hbefore)
  exact htitle (congrArg Annotation.title (Option.some.inj heq)).symm

/-- An annotation of the workspace is deleted, whatever site it is on. -/
theorem unannotate_elsewhere {siteId id : Uuid} {place : Place} (hplace : d.places.lookup id = some place)
    (hworkspace : d.tenancy.workspaceOf.lookup siteId = some place.workspaceId) (hhome : ¬place.Home d.tenancy p) :
    ∃ db : AdminDb, db.In d ∧ ¬Isolated p db ((Plan.unannotate siteId id).execute lib readings db).2 := by
  refine ⟨d.filled "" ∅ ∅, Directory.filled_in, ?_⟩
  intro hisolated
  have hbefore : (d.filled "" ∅ ∅).annotations.lookup id = _ := Directory.lookup_filled "" ∅ ∅ id
  rw [hplace] at hbefore
  refine hhome (hisolated.annotations id _ ?_ (Or.inl hbefore))
  have hfound : (d.filled "" ∅ ∅).unannotate siteId id
      = some { d.filled "" ∅ ∅ with annotations := (d.filled "" ∅ ∅).annotations.erase id } := by
    unfold AdminDb.unannotate
    rw [hbefore]
    exact if_pos hworkspace
  unfold Plan.execute
  dsimp only
  rw [hfound, hbefore]
  dsimp only
  rw [AList.lookup_erase]
  intro hsame
  cases hsame

end

/-! ## §6. The requests. -/

/-- **Where the boundary stands.**  For the directory, a request of a caller who is no
administrator of the whole deployment stays at home in every database if and only if it is
refused, or its plan is at home. -/
theorem writes_isolated_iff (lib : AdminLibrary) {p : Principal} (hp : isInstanceWide p.role = false) (d : Directory)
    (request : AdminRequest) (readings : AdminReadings) :
    (∀ db : AdminDb, db.In d → Isolated p db (request.run lib p readings db).2) ↔
      (readings.fails = none → ∀ plan, request.prepare lib p d.sites d.tenancy readings.newId = .ok plan →
        plan.Home p d) := by
  have hrun : ∀ db : AdminDb, db.In d → request.run lib p readings db
      = match request.prepare lib p d.sites d.tenancy readings.newId, readings.fails with
        | .error refusal, _ => (.error refusal, db)
        | .ok _, some refusal => (.error refusal, db)
        | .ok plan, none => plan.execute lib readings db := by
    intro db hd
    unfold AdminRequest.run
    rw [hd.sites, hd.tenancy]
  constructor
  · intro hisolated hfails plan hplan
    have hexecuted : ∀ db : AdminDb, db.In d → Isolated p db (plan.execute lib readings db).2 := by
      intro db hd
      have h := hisolated db hd
      rw [hrun db hd, hplan, hfails] at h
      exact h
    cases plan with
    | deleteData siteId deletion =>
      by_contra hhome
      obtain ⟨db, hd, hchanged⟩ := deleteData_elsewhere lib readings siteId deletion
      exact hchanged ((hexecuted db hd).sites siteId (by rw [hd.tenancy]; exact hhome))
    | define siteId mode body =>
      by_contra hhome
      obtain ⟨db, hd, hchanged⟩ := define_elsewhere lib readings siteId mode body
      exact hchanged ((hexecuted db hd).sites siteId (by rw [hd.tenancy]; exact hhome))
    | annotate id row =>
      intro place hplace
      by_contra hhome
      obtain ⟨db, hd, hchanged⟩ := annotate_elsewhere lib readings row hplace hhome
      exact hchanged (hexecuted db hd)
    | unannotate siteId id =>
      intro place hplace hworkspace
      by_contra hhome
      obtain ⟨db, hd, hchanged⟩ := unannotate_elsewhere lib readings hplace hworkspace hhome
      exact hchanged (hexecuted db hd)
  · intro hcond db hd
    rw [hrun db hd]
    cases hplan : request.prepare lib p d.sites d.tenancy readings.newId with
    | error refusal => exact Isolated.refl p db
    | ok plan =>
      cases hfails : readings.fails with
      | some refusal => exact Isolated.refl p db
      | none =>
        refine execute_isolated hd (hcond hfails plan hplan) ?_
        rintro id row rfl
        rw [← hd.tenancy] at hplan
        exact prepare_annotate hp hplan

namespace Sample

def theirSiteId : Uuid := ⟨2⟩

def ourWorkspace : Uuid := ⟨10⟩

def theirWorkspace : Uuid := ⟨20⟩

/-- Two sites in two workspaces, an annotation in each. -/
def directory : Directory where
  sites := AList.insert siteId site (AList.insert theirSiteId { site with siteKey := "theirs" } ∅)
  tenancy :=
    { workspaceOf := AList.insert siteId ourWorkspace (AList.insert theirSiteId theirWorkspace ∅)
      memberships := AList.insert (⟨4⟩, ourWorkspace) "workspace_admin" ∅ }
  places := AList.insert ⟨30⟩ ⟨ourWorkspace, some siteId⟩ (AList.insert ⟨31⟩ ⟨theirWorkspace, none⟩ ∅)

def workspaceAdmin : Principal := ⟨⟨4⟩, "workspace_admin", false⟩

def adminLibrary : AdminLibrary where
  env := platform
  calendar := ⟨fun _ _ => none, fun _ t => t⟩
  castUuid text := (parseUuid text).elim (.error "invalid input syntax for type uuid") .ok

def adminReadings : AdminReadings := ⟨⟨0, fun _ => false⟩, ⟨32⟩, none⟩

def define (siteKey : String) : AdminRequest :=
  .upsertEventDefinition (.ok ⟨siteKey, "checkout", "", none, "warn", false⟩)

end Sample

/-- A definition for the site of the caller. -/
theorem writes_isolated_define :
    Isolated Sample.workspaceAdmin (Sample.directory.filled "" ∅ ∅)
      ((Sample.define "site").run Sample.adminLibrary Sample.workspaceAdmin Sample.adminReadings
        (Sample.directory.filled "" ∅ ∅)).2 := by
  refine (writes_isolated_iff Sample.adminLibrary (p := Sample.workspaceAdmin) (by decide) Sample.directory
    (Sample.define "site") Sample.adminReadings).mpr ?_ _ Directory.filled_in
  intro _ plan hplan
  obtain rfl := Except.ok.inj hplan
  exact ⟨Sample.ourWorkspace, by decide, by decide⟩

/-- **A site key in the body is not checked against the memberships.** -/
theorem writes_not_isolated :
    ¬∀ (lib : AdminLibrary) (p : Principal), isInstanceWide p.role = false →
      ∀ (db : AdminDb) (request : AdminRequest) (readings : AdminReadings),
        Isolated p db (request.run lib p readings db).2 := by
  intro h
  have hisolated := h Sample.adminLibrary Sample.workspaceAdmin (by decide) (Sample.directory.filled "" ∅ ∅)
    (Sample.define "theirs") Sample.adminReadings
  have hforeign : ¬Sample.directory.tenancy.Belongs Sample.workspaceAdmin Sample.theirSiteId := by
    rintro ⟨workspace, hworkspace, hmember⟩
    obtain rfl : Sample.theirWorkspace = workspace := Option.some.inj hworkspace
    revert hmember
    decide
  have hversions := congrArg List.length (hisolated.sites Sample.theirSiteId hforeign).versions
  have hone : 1 = 0 := hversions
  cases hone

end Momento
