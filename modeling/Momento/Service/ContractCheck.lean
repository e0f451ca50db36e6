/-
  Momento.Service.ContractCheck

  **THE CONTRACT CHECK OF A DEPLOYMENT PIPELINE.**  `validateEventContractCI` is asked,
  before events are sent, whether the collector would take them.  It selects versions by a
  query of its own and has its own copy of the property checks.

  The copies agree.  The queries do not: the collector never reads a draft, the check
  does.
-/
import Momento.Service.Accept
import Momento.Service.Roles
import Momento.Service.Runs

namespace Momento

open Foundation

/-! ## §1. The answer. -/

/-- An event of the request's body. -/
structure CiEvent where
  name : String
  contractVersion : Int
  properties : Option Properties

/-- The body of the request. -/
structure CiRequest where
  environment : String
  events : List CiEvent

/-- `status`. -/
inductive CiStatus
  | valid
  | warning
  | error
  deriving DecidableEq

/-- The result of one event. -/
structure CiResult where
  event : String
  version : Option Int
  status : CiStatus
  messages : List String

/-- The answer. -/
structure CiReport where
  environment : String
  results : List CiResult

/-- `errorsCount`: it goes up with each result of this status. -/
def CiReport.errors (report : CiReport) : Nat := (report.results.filter (·.status = .error)).length

/-- `"valid"` of the answer. -/
def CiReport.valid (report : CiReport) : Bool := report.errors = 0

/-- Whether the two statements about one event are answered. -/
structure CiReadings where
  definition : Bool
  version : Bool

/-! ## §2. The property checks. -/

/-- `!ok || value == nil || fmt.Sprint(value) == ""`. -/
def isMissingCI : Option Json → Bool
  | none => true
  | some .null => true
  | some value => value.sprint = ""

/-- The `switch` over the declared type. -/
def hasTypeCI (type : String) (value : Json) : Bool :=
  match type with
  | "string" => match value with
    | .str _ => true
    | _ => false
  | "number" | "integer" => match value with
    | .num _ => true
    | _ => false
  | "boolean" => match value with
    | .bool _ => true
    | _ => false
  | "array" => match value with
    | .arr _ => true
    | _ => false
  | "object" => match value with
    | .obj _ => true
    | _ => false
  | _ => true

/-- A property that is there, and not null, has its declared type. -/
def meetsTypeCI (type : String) : Option Json → Bool
  | none => true
  | some .null => true
  | some value => hasTypeCI type value

/-- What the check makes of the properties. -/
def validateCIProperties (properties : Option Properties) : Option RegistrySchema → List String
  | none => ["invalid registry schema"]
  | some schema =>
    (schema.required.filter fun key => isMissingCI (propertyOf properties key)).map (· ++ " is required")
      ++ (schema.properties.filter fun (key, type) => !meetsTypeCI type (propertyOf properties key)).map
        fun (key, type) => key ++ " must be " ++ type

/-- `strictestCIMode`. -/
def strictestCIMode (a b : ContractMode) : ContractMode := if a.rank < b.rank then b else a

/-! ## §3. The events. -/

section
variable (config : Config) (siteId : Uuid)

/-- `WHERE site_id=$1 AND event_name=$2 AND version=$3`, whatever the status. -/
def contractVersion (name : String) (number : Int) : Option ContractVersion :=
  config.contractVersions.find? fun v => v.siteId = siteId && v.eventName = name && (v.version : Int) = number

/-- The version a text names, or the current one. -/
def CiEvent.number (event : CiEvent) (definition : EventDefinition) : Int :=
  if event.contractVersion = 0 then definition.currentVersion else event.contractVersion

/-- `validateEventContractCI`, of one event. -/
def checkEventCI (environmentMode : ContractMode) (readings : CiReadings) (event : CiEvent) : CiResult :=
  match config.eventDefinitions.lookup ⟨siteId, event.name⟩, readings.definition with
  | none, _ | _, false => ⟨event.name, none, .error, ["event is not registered"]⟩
  | some definition, true =>
    let version := event.number definition
    match contractVersion config siteId event.name version, readings.version with
    | none, _ | _, false => ⟨event.name, some version, .error, ["contract version is not registered"]⟩
    | some item, true =>
      let messages := validateCIProperties event.properties item.schema
        ++ if definition.deprecated ∨ item.status = .deprecated then ["event or contract is deprecated"] else []
      let mode := strictestCIMode environmentMode item.validationMode
      ⟨event.name, some version,
        if messages ≠ [] ∧ mode = .reject then .error else if messages ≠ [] then .warning else .valid, messages⟩

/-- **`validateEventContractCI`**: what `resolveSite` answered, the body if it decodes, and
which statements are answered. -/
def validateEventContractCI (resolved : Option Uuid) (body : Option CiRequest) (environmentRead : Bool)
    (readings : Nat → CiReadings) : Except Refusal CiReport :=
  match resolved with
  | none => .error ⟨404, "UNKNOWN_SITE", "site not found"⟩
  | some siteId =>
    match body with
    | none => .error ⟨400, "INVALID_PAYLOAD", "1 to 1000 events are required"⟩
    | some request =>
      if request.events = [] ∨ 1000 < request.events.length then
        .error ⟨400, "INVALID_PAYLOAD", "1 to 1000 events are required"⟩
      else
        let environment := if isEnvironmentName request.environment then request.environment else "prd"
        match contractModeOf config siteId environment, environmentRead with
        | none, _ | _, false => .error ⟨400, "INVALID_ENVIRONMENT", "unknown or inactive environment"⟩
        | some mode, true =>
          .ok ⟨environment, request.events.mapIdx fun i event => checkEventCI config siteId mode (readings i) event⟩

end

/-! ## §4. The copies agree. -/

theorem formatG_ne_empty (x : FiniteDouble) : formatG x ≠ "" := by
  unfold formatG
  split
  · decide
  dsimp only
  rw [Ne, String.ofList_eq_empty_iff]
  generalize decimalDigits (Binary64.shortest |x.value|) = shown
  obtain ⟨digits, e⟩ := shown
  split
  · exact List.cons_ne_nil _ _
  dsimp only
  split
  · simp
  split
  · exact List.cons_ne_nil _ _
  split
  · -- The whole part has a digit or a zero for each power of ten.
    intro hnil
    have hlength := congrArg List.length hnil
    rw [List.length_append, List.length_take, List.length_replicate, List.length_nil] at hlength
    omega
  · simp

/-- Only the empty text prints as nothing. -/
theorem sprint_eq_empty_iff (value : Json) : value.sprint = "" ↔ value = .str "" := by
  have hbracket : ∀ opening body : String, opening ++ body ++ "]" ≠ "" := by
    intro opening body hnil
    have hlength := congrArg String.length hnil
    rw [String.length_append] at hlength
    simp at hlength
  cases value with
  | null => simp [Json.sprint]
  | bool b => cases b <;> exact iff_of_false (by decide) Json.noConfusion
  | num x => simp [Json.sprint, formatG_ne_empty x]
  | str s => simp [Json.sprint]
  | arr items => simp only [Json.sprint, hbracket "[" _, reduceCtorEq]
  | obj members => simp only [Json.sprint, hbracket "map[" _, reduceCtorEq]
  | strs texts => simp only [Json.sprint, hbracket "[" _, reduceCtorEq]

theorem isMissingCI_eq (value : Option Json) : isMissingCI value = isMissing value := by
  cases value with
  | none => rfl
  | some value =>
    cases value with
    | null => rfl
    | str s => rfl
    | bool b => cases b <;> rfl
    | num x =>
      show decide (Json.sprint (.num x) = "") = false
      simp [sprint_eq_empty_iff]
    | arr items =>
      show decide (Json.sprint (.arr items) = "") = false
      simp [sprint_eq_empty_iff]
    | obj members =>
      show decide (Json.sprint (.obj members) = "") = false
      simp [sprint_eq_empty_iff]
    | strs texts =>
      show decide (Json.sprint (.strs texts) = "") = false
      simp [sprint_eq_empty_iff]

/-- By the declared type here, by the value there. -/
theorem hasTypeCI_eq {type : String} {value : Json} (h : value ≠ .null) : hasTypeCI type value = hasType type value := by
  unfold hasTypeCI
  split
  · cases value <;> first | contradiction | rfl
  · cases value <;> first | contradiction | rfl
  · cases value <;> first | contradiction | rfl
  · cases value <;> first | contradiction | rfl
  · cases value <;> first | contradiction | rfl
  · cases value <;> first | contradiction | rfl
  next hstring hnumber hinteger hboolean harray hobject =>
    have hother : type ≠ "string" ∧ type ≠ "number" ∧ type ≠ "integer" ∧ type ≠ "boolean" ∧ type ≠ "array"
        ∧ type ≠ "object" := ⟨hstring, hnumber, hinteger, hboolean, harray, hobject⟩
    cases value with
    | null => contradiction
    | _ => simp [hasType, hother]

theorem meetsTypeCI_eq (type : String) (value : Option Json) : meetsTypeCI type value = value.elim true (hasType type) := by
  cases value with
  | none => rfl
  | some value =>
    by_cases hnull : value = .null
    · rw [hnull]
      rfl
    · have hcopy : hasTypeCI type value = hasType type value := hasTypeCI_eq hnull
      cases value with
      | null => contradiction
      | _ => exact hcopy

/-- **The two checks are one function.** -/
theorem validateCIProperties_eq (properties : Option Properties) (schema : Option RegistrySchema) :
    validateCIProperties properties schema = validateProperties properties schema := by
  cases schema with
  | none => rfl
  | some schema =>
    unfold validateCIProperties validateProperties
    simp only [isMissingCI_eq, meetsTypeCI_eq]

/-- One schema, its declarations walked in two orders. -/
inductive SameSchema : Option RegistrySchema → Option RegistrySchema → Prop
  | undecodable : SameSchema none none
  | decoded {required : List String} {properties properties' : List (String × String)}
      (h : properties.Perm properties') : SameSchema (some ⟨required, properties⟩) (some ⟨required, properties'⟩)

theorem validateCIProperties_perm (properties : Option Properties) {schema schema' : Option RegistrySchema}
    (h : SameSchema schema schema') :
    (validateCIProperties properties schema).Perm (validateProperties properties schema') := by
  rw [validateCIProperties_eq]
  cases h with
  | undecodable => exact List.Perm.refl _
  | decoded h => exact ((h.filter _).map _).append_left _

/-! ## §5. One event. -/

/-- Constraints of `event_contract_versions`. -/
structure Config.Registered (config : Config) : Prop where
  /-- `UNIQUE(site_id,event_name,version)`. -/
  unique : ∀ v ∈ config.contractVersions, ∀ v' ∈ config.contractVersions,
    v.siteId = v'.siteId → v.eventName = v'.eventName → v.version = v'.version → v = v'
  /-- `CHECK(version > 0)`. -/
  positive : ∀ v ∈ config.contractVersions, 0 < v.version

/-- The event the collector is sent is the one that was checked. -/
structure CiEvent.Sent (event : CiEvent) (incoming : IncomingEvent) : Prop where
  name : incoming.name = event.name
  contractVersion : incoming.contractVersion = event.contractVersion
  properties : incoming.properties = event.properties

section
variable (config : Config) (siteId : Uuid)

/-- Some version of the event is no draft. -/
def isCollected (name : String) : Bool :=
  config.contractVersions.any fun v => v.siteId = siteId && v.eventName = name && v.status ≠ .draft

/-- The version the event selects is a draft, and the event is not one the collector takes
without a contract. -/
def selectsDraft (event : CiEvent) : Bool :=
  ((config.eventDefinitions.lookup ⟨siteId, event.name⟩).bind fun definition =>
      contractVersion config siteId event.name (event.number definition)).any (·.status = .draft)
    && (event.name ∉ automaticEvents || isCollected config siteId event.name)

/-- The collector turns the request of the event away for its contract. -/
def Rejects (mode : ContractMode) (incoming : IncomingEvent) : Prop :=
  (checkedContract config siteId mode incoming).2.1 ≠ [] ∧ (checkedContract config siteId mode incoming).2.2 = .reject

end

section
variable {config : Config} {siteId : Uuid} {mode : ContractMode}

theorem contractVersion_some {name : String} {number : Int} {item : ContractVersion}
    (h : contractVersion config siteId name number = some item) :
    item ∈ config.contractVersions ∧ item.siteId = siteId ∧ item.eventName = name ∧ (item.version : Int) = number := by
  have hmem := List.mem_of_find?_eq_some h
  have htest := List.find?_some h
  simp only [Bool.and_eq_true, decide_eq_true_eq] at htest
  exact ⟨hmem, htest.1.1, htest.1.2, htest.2⟩

/-- **What the check asks of an event it does not call an error.** -/
theorem checkEventCI_passes {readings : CiReadings} {event : CiEvent}
    (h : (checkEventCI config siteId mode readings event).status ≠ .error) :
    ∃ definition item, config.eventDefinitions.lookup ⟨siteId, event.name⟩ = some definition
      ∧ contractVersion config siteId event.name (event.number definition) = some item
      ∧ ¬(validateProperties event.properties item.schema ≠ []
          ∧ strictestValidationMode mode item.validationMode = .reject) := by
  unfold checkEventCI at h
  split at h
  · exact absurd rfl h
  · exact absurd rfl h
  next definition hdefinition _ =>
    dsimp only at h
    split at h
    · exact absurd rfl h
    · exact absurd rfl h
    next item hitem _ =>
      refine ⟨definition, item, hdefinition, hitem, ?_⟩
      rintro ⟨hviolated, hreject⟩
      apply h
      -- One violation is enough for an error in this mode.
      have hmessages : ∀ more, validateCIProperties event.properties item.schema ++ more ≠ [] := by
        intro more hnil
        rw [validateCIProperties_eq] at hnil
        exact hviolated (List.append_eq_nil_iff.mp hnil).1
      exact if_pos ⟨hmessages _, hreject⟩

theorem contractsOf_eq {name : String} {definition : EventDefinition}
    (h : config.eventDefinitions.lookup ⟨siteId, name⟩ = some definition) :
    contractsOf config siteId name
      = if isCollected config siteId name then
          some ⟨definition.currentVersion, config.contractVersions.filter fun v =>
            v.siteId = siteId && v.eventName = name && v.status ≠ .draft⟩
        else none := by
  have hempty : (config.contractVersions.filter fun v =>
      v.siteId = siteId && v.eventName = name && v.status ≠ .draft).isEmpty = !isCollected config siteId name := by
    unfold isCollected
    induction config.contractVersions with
    | nil => rfl
    | cons v rest ih =>
      rw [List.filter_cons, List.any_cons]
      cases v.siteId = siteId && v.eventName = name && v.status ≠ .draft with
      | true => rfl
      | false => exact ih
  unfold contractsOf
  rw [h, Option.bind_some]
  dsimp only
  rw [hempty]
  cases isCollected config siteId name with
  | true => rfl
  | false => rfl

/-- The collector's versions of an event are the registered ones that are no draft. -/
theorem version_eq (hconfig : config.Registered) {name : String} {number : Int} {item : ContractVersion}
    (h : contractVersion config siteId name number = some item) (current : Int) :
    EventContracts.version ⟨current, config.contractVersions.filter fun v =>
        v.siteId = siteId && v.eventName = name && v.status ≠ .draft⟩ number
      = if item.status = .draft then none else some item := by
  obtain ⟨hmem, hsite, hname, hnumber⟩ := contractVersion_some h
  have hsame : ∀ v ∈ config.contractVersions.filter (fun v =>
      v.siteId = siteId && v.eventName = name && v.status ≠ .draft), (v.version : Int) = number →
      v = item ∧ item.status ≠ .draft := by
    intro v hv hv'
    obtain ⟨hregistered, htest⟩ := List.mem_filter.mp hv
    simp only [Bool.and_eq_true, decide_eq_true_eq, ne_eq, decide_not, Bool.not_eq_true', decide_eq_false_iff_not]
      at htest
    have heq := hconfig.unique v hregistered item hmem (htest.1.1.trans hsite.symm) (htest.1.2.trans hname.symm)
      (by omega)
    exact ⟨heq, heq ▸ htest.2⟩
  unfold EventContracts.version
  split
  next hdraft =>
    rw [List.find?_eq_none]
    intro v hv hv'
    exact (hsame v hv (of_decide_eq_true hv')).2 hdraft
  next hcollected =>
    have hitem : item ∈ config.contractVersions.filter fun v =>
        v.siteId = siteId && v.eventName = name && v.status ≠ .draft := by
      rw [List.mem_filter]
      exact ⟨hmem, by simp [hsite, hname, hcollected]⟩
    cases hfind : List.find? (fun v : ContractVersion => (v.version : Int) = number)
        (config.contractVersions.filter fun v => v.siteId = siteId && v.eventName = name && v.status ≠ .draft) with
    | none => exact absurd (decide_eq_true hnumber) (List.find?_eq_none.mp hfind item hitem)
    | some v =>
      have hv := List.find?_some hfind
      rw [(hsame v (List.mem_of_find?_eq_some hfind) (of_decide_eq_true hv)).1]

/-- **Where the two queries part.**  Of the events the check passes, the collector turns
away those that select a draft, in reject mode. -/
theorem rejects_iff (hconfig : config.Registered) {readings : CiReadings} {event : CiEvent} {incoming : IncomingEvent}
    (hsent : event.Sent incoming) (hpasses : (checkEventCI config siteId mode readings event).status ≠ .error) :
    Rejects config siteId mode incoming ↔ mode = .reject ∧ selectsDraft config siteId event = true := by
  obtain ⟨definition, item, hdefinition, hitem, hmeets⟩ := checkEventCI_passes hpasses
  obtain ⟨hmem, -, -, hnumber⟩ := contractVersion_some hitem
  have hselects : selectsDraft config siteId event
      = (decide (item.status = .draft) && (event.name ∉ automaticEvents || isCollected config siteId event.name)) := by
    unfold selectsDraft
    rw [hdefinition, Option.bind_some, hitem]
    rfl
  have hpositive : event.number definition ≠ 0 := by
    have := hconfig.positive item hmem
    omega
  -- The collector settles on the same version number.
  have hversioned : ∀ versions, versioned (some ⟨definition.currentVersion, versions⟩) incoming
      = { incoming with contractVersion := event.number definition } := by
    intro versions
    unfold versioned CiEvent.number
    dsimp only
    rw [hsent.contractVersion]
    split
    · rfl
    · rw [← hsent.contractVersion]
  have hcontracts := contractsOf_eq hdefinition
  unfold Rejects checkedContract
  dsimp only
  rw [hsent.name, hcontracts]
  cases hcollected : isCollected config siteId event.name with
  | false =>
    -- No version is read: the event counts as unregistered.
    have hdraft : item.status = .draft := by
      by_contra hdraft
      obtain ⟨-, hsite, hname, -⟩ := contractVersion_some hitem
      have hno := List.any_eq_false.mp hcollected item hmem
      simp [hsite, hname, hdraft] at hno
    rw [if_neg Bool.false_ne_true, hselects, hcollected]
    have hmode : ∀ e : IncomingEvent, effectiveMode mode none e = mode := fun e => rfl
    rw [hmode]
    have hwarnings : contractWarnings mode none incoming
        = if event.name ∈ automaticEvents then [] else ["event is not registered"] := by
      rw [← hsent.name]
      rfl
    show contractWarnings mode none incoming ≠ [] ∧ _ ↔ _
    rw [hwarnings]
    by_cases hautomatic : event.name ∈ automaticEvents
    · simp [hautomatic]
    · simp [hautomatic, hdraft]
  | true =>
    rw [if_pos rfl, hversioned, if_neg hpositive, hselects, hcollected, Bool.or_true, Bool.and_true, decide_eq_true_eq]
    have hread := version_eq hconfig hitem definition.currentVersion
    by_cases hdraft : item.status = .draft
    · -- The draft is not read: the number counts as unregistered.
      rw [if_pos hdraft] at hread
      unfold contractWarnings effectiveMode
      dsimp only [Option.bind_some]
      rw [hread]
      simp [hdraft]
    · rw [if_neg hdraft] at hread
      unfold contractWarnings effectiveMode
      dsimp only [Option.bind_some]
      rw [hread]
      dsimp only [Option.elim_some]
      rw [hsent.properties]
      constructor
      · rintro ⟨hviolated, hreject⟩
        rw [hreject, if_pos (by decide)] at hviolated
        exact absurd ⟨hviolated, hreject⟩ hmeets
      · rintro ⟨-, hdraft'⟩
        exact absurd hdraft' hdraft

theorem checkContracts_error_iff {events : List IncomingEvent} :
    (∃ e, checkContracts config siteId mode events = .error e) ↔ ∃ event ∈ events, Rejects config siteId mode event := by
  induction events with
  | nil =>
    constructor
    · rintro ⟨e, h⟩
      cases h
    · rintro ⟨event, h, -⟩
      cases h
  | cons event rest ih =>
    unfold checkContracts
    dsimp only
    split
    next hrejects =>
      exact ⟨fun _ => ⟨event, List.mem_cons_self, hrejects⟩, fun _ => ⟨_, rfl⟩⟩
    next haccepts =>
      rw [List.exists_mem_cons_iff, ← ih]
      constructor
      · rintro ⟨e, h⟩
        refine Or.inr ?_
        cases hrest : checkContracts config siteId mode rest with
        | error e' => exact ⟨e', rfl⟩
        | ok checked =>
          rw [hrest] at h
          cases h
      · rintro (hrejects | ⟨e, h⟩)
        · exact absurd hrejects haccepts
        · rw [h]
          exact ⟨e, rfl⟩

end

/-! ## §6. The requests. -/

/-- The collector's answer is about a contract. -/
def contractRejected : Except Turned Admission → Bool
  | .error (.contract ..) => true
  | _ => false

theorem inspected_not_contract {env : Platform} {privacy : Policy} {siteId : Uuid} {site : Site} {req : CollectRequest}
    {call : AcceptCall} {now : Instant} {turned : Turned}
    (h : inspected env privacy siteId site req call now = .error turned) :
    contractRejected (.error turned) = false := by
  unfold inspected at h
  dsimp only at h
  split at h
  · obtain rfl := Except.error.inj h
    rfl
  · cases h

/-- A request that gets as far as its contracts is turned away for one or for none. -/
theorem contractRejected_accept {env : Platform} {config : Config} {call : AcceptCall} {now : Instant} {siteId : Uuid}
    {site : Site} {mode : ContractMode}
    (h : admitToSite env config call.request.withEnvironment call.origin = .ok (siteId, site, mode)) :
    contractRejected (accept env config call now) = true
      ↔ ∃ event ∈ call.request.withEnvironment.events, Rejects config siteId mode event := by
  rw [← checkContracts_error_iff]
  unfold accept
  dsimp only
  rw [h]
  simp only [bind, Except.bind]
  cases hcontracts : checkContracts config siteId mode call.request.withEnvironment.events with
  | error e => exact iff_of_true rfl ⟨e, rfl⟩
  | ok events =>
    refine iff_of_false ?_ ?_
    · dsimp only
      cases config.privacy with
      | error message => exact Bool.false_ne_true
      | ok privacy =>
        dsimp only
        cases hpayload : inspected env privacy siteId site { call.request.withEnvironment with events := events } call
            now with
        | error turned =>
          intro hrejected
          have hother := inspected_not_contract hpayload
          dsimp only at hrejected
          rw [hother] at hrejected
          cases hrejected
        | ok payload => exact Bool.false_ne_true
    · rintro ⟨e, he⟩
      cases he

theorem CollectRequest.withEnvironment_events (req : CollectRequest) : req.withEnvironment.events = req.events := by
  unfold CollectRequest.withEnvironment
  split
  · rfl
  · rfl

/-- The environment's mode is the one the check went by. -/
theorem admitToSite_mode {env : Platform} {config : Config} {req : CollectRequest} {origin : String} {siteId : Uuid}
    {site : Site} {mode : ContractMode} (h : admitToSite env config req origin = .ok (siteId, site, mode)) :
    contractModeOf config siteId req.environment = some mode := by
  unfold admitToSite at h
  cases hshape : checkShape env req with
  | error e =>
    rw [hshape] at h
    cases h
  | ok u =>
    rw [hshape] at h
    dsimp only [bind, Except.bind] at h
    cases hsite : siteForCollect config req.siteId with
    | none =>
      rw [hsite] at h
      cases h
    | some found =>
      obtain ⟨siteId', site'⟩ := found
      rw [hsite] at h
      dsimp only at h
      cases hkey : checkKey env site' req.trackingKey origin with
      | error e =>
        rw [hkey] at h
        cases h
      | ok u =>
        rw [hkey] at h
        dsimp only at h
        split at h
        · cases h
        cases hmode : contractModeOf config siteId' req.environment with
        | none =>
          rw [hmode] at h
          cases h
        | some mode' =>
          rw [hmode] at h
          obtain ⟨rfl, -, rfl⟩ : siteId' = siteId ∧ site' = site ∧ mode' = mode := by
            have := Except.ok.inj h
            simpa using this
          exact hmode

/-- What a report that says `valid` says of each event. -/
theorem validateEventContractCI_ok {config : Config} {siteId : Uuid} {request : CiRequest} {environmentRead : Bool}
    {readings : Nat → CiReadings} {report : CiReport}
    (h : validateEventContractCI config (some siteId) (some request) environmentRead readings = .ok report)
    (hvalid : report.valid = true) :
    ∃ mode, contractModeOf config siteId report.environment = some mode
      ∧ ∀ event ∈ request.events, ∃ reading, (checkEventCI config siteId mode reading event).status ≠ .error := by
  unfold validateEventContractCI at h
  dsimp only at h
  split at h
  · cases h
  cases hmode : contractModeOf config siteId
      (if isEnvironmentName request.environment then request.environment else "prd") with
  | none =>
    rw [hmode] at h
    cases h
  | some mode =>
    rw [hmode] at h
    cases environmentRead with
    | false => cases h
    | true =>
      obtain rfl := Except.ok.inj h
      refine ⟨mode, hmode, ?_⟩
      intro event hevent
      obtain ⟨i, hi, rfl⟩ := List.getElem_of_mem hevent
      refine ⟨readings i, ?_⟩
      intro herror
      have hnone : ∀ result ∈ request.events.mapIdx fun i event => checkEventCI config siteId mode (readings i) event,
          ¬(decide (result.status = .error) = true) :=
        List.filter_eq_nil_iff.mp (List.length_eq_zero_iff.mp (of_decide_eq_true hvalid))
      apply hnone (checkEventCI config siteId mode (readings i) request.events[i])
      · exact List.mem_mapIdx.mpr ⟨i, hi, rfl⟩
      · exact decide_eq_true herror

/-- Lists whose members satisfy their conditions together. -/
theorem exists_mem_congr {α β : Type} {P : β → Prop} {Q : α → Prop} {as : List α} {bs : List β}
    (h : List.Forall₂ (fun a b => P b ↔ Q a) as bs) : (∃ b ∈ bs, P b) ↔ ∃ a ∈ as, Q a := by
  induction h with
  | nil =>
    constructor
    · rintro ⟨b, hb, -⟩
      cases hb
    · rintro ⟨a, ha, -⟩
      cases ha
  | cons hiff _ ih => rw [List.exists_mem_cons_iff, List.exists_mem_cons_iff, hiff, ih]

/-- **What the check predicts.**  When it answers `valid`, the collector turns none of the
events away for a contract exactly if the environment does not reject or no event selects a
draft; the two report the same violations. -/
theorem ci_predicts {config : Config} (hconfig : config.Registered) {siteId : Uuid} {request : CiRequest}
    {environmentRead : Bool} {readings : Nat → CiReadings} {report : CiReport}
    (hreport : validateEventContractCI config (some siteId) (some request) environmentRead readings = .ok report)
    (hvalid : report.valid = true) {env : Platform} {call : AcceptCall} {site : Site} {mode : ContractMode}
    (hcall : admitToSite env config call.request.withEnvironment call.origin = .ok (siteId, site, mode))
    (henvironment : call.request.withEnvironment.environment = report.environment)
    (hsent : List.Forall₂ CiEvent.Sent request.events call.request.events) (now : Instant) :
    (contractRejected (accept env config call now) = false
      ↔ (mode = .reject → ∀ event ∈ request.events, selectsDraft config siteId event = false)) ∧
    ∀ (properties : Option Properties) (schema schema' : Option RegistrySchema), SameSchema schema schema' →
      (validateCIProperties properties schema).Perm (validateProperties properties schema') := by
  refine ⟨?_, fun properties _ _ h => validateCIProperties_perm properties h⟩
  obtain ⟨mode', hmode', hpasses⟩ := validateEventContractCI_ok hreport hvalid
  obtain rfl : mode' = mode := by
    have hmode := admitToSite_mode hcall
    rw [henvironment, hmode'] at hmode
    exact Option.some.inj hmode
  have hpairs : List.Forall₂ (fun event incoming => Rejects config siteId mode' incoming
      ↔ mode' = .reject ∧ selectsDraft config siteId event = true) request.events call.request.events := by
    refine ((List.forall₂_and_left _ _).mpr ⟨hpasses, hsent⟩).imp ?_
    rintro event incoming ⟨⟨reading, hpass⟩, heq⟩
    exact rejects_iff hconfig heq hpass
  rw [← Bool.not_eq_true, contractRejected_accept hcall, CollectRequest.withEnvironment_events, exists_mem_congr hpairs]
  constructor
  · intro hnone hreject event hevent
    rw [← Bool.not_eq_true]
    intro hdraft
    exact hnone ⟨event, hevent, hreject, hdraft⟩
  · rintro hcond ⟨event, hevent, hreject, hdraft⟩
    rw [hcond hreject event hevent] at hdraft
    cases hdraft

namespace Sample

def schema : Option RegistrySchema := some ⟨["plan"], [("plan", "string")]⟩

/-- A site that rejects, with one version of one event. -/
def contracts (status : ContractStatus) : Config :=
  { config 10 with
    siteEnvironments := AList.singleton ⟨siteId, "prd"⟩ ⟨.reject, 10, true⟩
    eventDefinitions := AList.singleton ⟨siteId, "checkout"⟩ ⟨"", schema, .warn, false, 1, false⟩
    contractVersions := [⟨siteId, "checkout", 1, .warn, status, schema⟩] }

theorem contracts_registered (status : ContractStatus) : (contracts status).Registered := by
  constructor
  · intro v hv v' hv' _ _ _
    rw [List.mem_singleton.mp hv, List.mem_singleton.mp hv']
  · intro v hv
    rw [List.mem_singleton.mp hv]
    exact Nat.one_pos

def plan : Option Properties := some [("plan", .str "team")]

def ciRequest : CiRequest := ⟨"prd", [⟨"checkout", 0, plan⟩]⟩

def ciReadings : Nat → CiReadings := fun _ => ⟨true, true⟩

def ciReport : CiReport := ⟨"prd", [⟨"checkout", some 1, .valid, []⟩]⟩

/-- The checked event, as a server sends it. -/
def checkedCall : AcceptCall where
  request :=
    { siteId := "site"
      trackingKey := "sk"
      visitorId := "v1"
      sessionId := "s1"
      events := [{ name := "checkout", timestamp := newYear, properties := plan }] }
  origin := ""
  clientIp := ""
  userAgent := ""

theorem checkedCall_sent : List.Forall₂ CiEvent.Sent ciRequest.events checkedCall.request.events :=
  .cons ⟨rfl, rfl, rfl⟩ .nil

end Sample

/-- A version that collects. -/
theorem ci_predicts_active :
    contractRejected (accept Sample.platform (Sample.contracts .active) Sample.checkedCall 0) = false := by
  have hreport : validateEventContractCI (Sample.contracts .active) (some Sample.siteId) (some Sample.ciRequest) true
      Sample.ciReadings = .ok Sample.ciReport := rfl
  have hcall : admitToSite Sample.platform (Sample.contracts .active) Sample.checkedCall.request.withEnvironment
      Sample.checkedCall.origin = .ok (Sample.siteId, Sample.site, .reject) := rfl
  exact (ci_predicts (Sample.contracts_registered .active) hreport rfl hcall rfl Sample.checkedCall_sent 0).1.mpr
    (by decide)

/-- **A draft passes the check**, and the collector turns the event away. -/
theorem ci_mispredicts :
    ¬∀ config : Config, config.Registered → ∀ siteId request environmentRead readings report,
      validateEventContractCI config (some siteId) (some request) environmentRead readings = .ok report →
      report.valid = true → ∀ env call site mode,
      admitToSite env config call.request.withEnvironment call.origin = .ok (siteId, site, mode) →
      call.request.withEnvironment.environment = report.environment →
      List.Forall₂ CiEvent.Sent request.events call.request.events → ∀ now,
      contractRejected (accept env config call now) = false := by
  intro h
  have haccepted := h (Sample.contracts .draft) (Sample.contracts_registered .draft) Sample.siteId Sample.ciRequest true
    Sample.ciReadings Sample.ciReport rfl rfl Sample.platform Sample.checkedCall Sample.site .reject rfl rfl
    Sample.checkedCall_sent 0
  have hrejected : contractRejected (accept Sample.platform (Sample.contracts .draft) Sample.checkedCall 0) = true := rfl
  rw [hrejected] at haccepted
  cases haccepted

end Momento
