/-
  Momento.Service.SessionProperties

  **WHOSE SESSION PROPERTIES AN EVENT GETS.**  A request may give session properties
  for all its events and an object of its own for one event, which then stands in
  place of the common one.  `processOne` makes the choice by asking whether the event's
  map is `nil` — after the inbox, where `omitempty` has dropped every empty map.

  So the choice made after the inbox is the one made on the request unless the
  event's own object arrived empty, or was emptied by the privacy filter, and the
  common one still has something in it.
-/
import Momento.Service.Processable

namespace Momento

open Foundation

section
variable (env : Platform)

/-! ## §1. The names in a document. -/

/-- The policy drops a property of this name. -/
def Policy.Blocks (privacy : Policy) (name : String) : Prop :=
  matchForm env name ∈ matchSet env privacy.blockedProperties

instance (privacy : Policy) (name : String) : Decidable (privacy.Blocks env name) :=
  inferInstanceAs (Decidable (_ ∈ _))

theorem names_filterMembers (privacy : Policy) (members : Properties) :
    (filterMembers env (matchSet env privacy.blockedProperties) members).map Prod.fst
      = (members.map Prod.fst).filter fun name => ¬privacy.Blocks env name := by
  induction members with
  | nil => rfl
  | cons m members ih =>
    obtain ⟨name, value⟩ := m
    by_cases hblocked : privacy.Blocks env name
    · have hmem : matchForm env name ∈ matchSet env privacy.blockedProperties := hblocked
      rw [filterMembers, if_pos hmem, ih, List.map_cons, List.filter_cons_of_neg (by simp [hblocked])]
    · have hmem : matchForm env name ∉ matchSet env privacy.blockedProperties := hblocked
      rw [filterMembers, if_neg hmem, List.map_cons, ih, List.map_cons,
        List.filter_cons_of_pos (by simp [hblocked])]

theorem names_visitMembers (mode : String) (members : Properties) :
    (visitMembers env mode members).1.map Prod.fst = members.map Prod.fst := by
  induction members with
  | nil => rfl
  | cons m members ih =>
    obtain ⟨name, value⟩ := m
    rw [visitMembers, List.map_cons, List.map_cons, ih]

theorem names_reloadMembers (members : Properties) :
    (Json.reloadMembers members).map Prod.fst = members.map Prod.fst := by
  induction members with
  | nil => rfl
  | cons m members ih =>
    obtain ⟨name, value⟩ := m
    rw [Json.reloadMembers, List.map_cons, List.map_cons, ih]

/-! ## §2. The two ways to choose. -/

/-- What `Accept` leaves of a document. -/
def acceptedProperties (privacy : Policy) (p : Option Properties) : Properties :=
  filteredProperties env (visitMap env (piiMode env privacy.piiDetectionMode) p).1
    privacy.blockedProperties

/-- What `processOne`, under its own policy, leaves of what `Accept` left. -/
def keptProperties (privacy policy : Policy) (p : Option Properties) : Properties :=
  filteredProperties env (some (Json.reloadMembers (acceptedProperties env privacy p)))
    policy.blockedProperties

/-- The event's own session properties where the request gave it an object, the
request's otherwise. -/
def CollectRequest.sessionPropertiesOf (req : CollectRequest) (event : IncomingEvent) :
    Option Properties :=
  match event.sessionProperties with
  | some own => some own
  | none => req.sessionProperties

/-- What the inbox hands `processOne` of the events of a payload, each with the
session properties it uses for it. -/
def usedSessionProperties (policy : Policy) (siteId : Uuid) (timezone : String)
    (cardinalityLimit : Nat) (s : Store) (p : InboxPayload) : List Properties :=
  p.request.events.map (storedSessionProperties (jobContext env policy siteId p timezone cardinalityLimit s))

/-- The event's own object has a property that is kept on the way in, or nothing of
the request's is kept on the whole way. -/
def OwnPropertiesReach (privacy policy : Policy) (req : CollectRequest) (event : IncomingEvent) : Prop :=
  ∀ own, event.sessionProperties = some own →
    (∃ m ∈ own, ¬privacy.Blocks env m.1)
      ∨ ∀ m ∈ req.sessionProperties.getD [], privacy.Blocks env m.1 ∨ policy.Blocks env m.1

theorem names_acceptedProperties (privacy : Policy) (p : Option Properties) :
    (acceptedProperties env privacy p).map Prod.fst
      = ((p.getD []).map Prod.fst).filter fun name => ¬privacy.Blocks env name := by
  unfold acceptedProperties filteredProperties
  rw [names_filterMembers]
  cases p with
  | none => rfl
  | some members =>
    show ((visitMembers env _ members).1.map Prod.fst).filter _ = _
    rw [names_visitMembers]
    rfl

/-- `Accept` empties a document of blocked names only. -/
theorem acceptedProperties_eq_nil_iff (privacy : Policy) (p : Option Properties) :
    acceptedProperties env privacy p = [] ↔ ∀ m ∈ p.getD [], privacy.Blocks env m.1 := by
  rw [← List.map_eq_nil_iff (f := Prod.fst), names_acceptedProperties, List.filter_eq_nil_iff]
  simp

theorem keptProperties_eq_nil_iff (privacy policy : Policy) (p : Option Properties) :
    keptProperties env privacy policy p = []
      ↔ ∀ m ∈ p.getD [], privacy.Blocks env m.1 ∨ policy.Blocks env m.1 := by
  unfold keptProperties filteredProperties
  rw [← List.map_eq_nil_iff (f := Prod.fst), names_filterMembers, Option.getD_some,
    names_reloadMembers, names_acceptedProperties, List.filter_eq_nil_iff]
  simp [or_iff_not_imp_left]

/-- A map that comes back as `nil` reads like the empty one that went in. -/
theorem filteredProperties_reloadMap (members : Properties) (blocked : List String) :
    filteredProperties env (reloadMap (some members)) blocked
      = filteredProperties env (some (Json.reloadMembers members)) blocked := by
  cases members with
  | nil => rfl
  | cons m members => rfl

/-- **What is used for an event** that reaches the worker with these maps. -/
theorem chosen_after_inbox (privacy policy : Policy) (own common : Option Properties) :
    filteredProperties env
        (match reloadMap (some (acceptedProperties env privacy own)) with
          | some p => some p
          | none => reloadMap (some (acceptedProperties env privacy common)))
        policy.blockedProperties
      = if acceptedProperties env privacy own = [] then keptProperties env privacy policy common
        else keptProperties env privacy policy own := by
  cases hown : acceptedProperties env privacy own with
  | nil =>
    rw [if_pos rfl]
    exact filteredProperties_reloadMap env _ _
  | cons m members =>
    rw [if_neg (List.cons_ne_nil m members), keptProperties, hown]
    rfl

end

/-! ## §3. Through `Accept` and the inbox. -/

section
variable {env : Platform}

/-- The contract check leaves the session properties alone. -/
theorem notedContract_sessionProperties (config : Config) (siteId : Uuid) (mode : ContractMode)
    (event : IncomingEvent) :
    (notedContract config siteId mode event).sessionProperties = event.sessionProperties := by
  have hchecked : (checkedContract config siteId mode event).1.sessionProperties
      = event.sessionProperties := by
    unfold checkedContract versioned
    simp only
    split <;> split <;> (try split) <;> rfl
  unfold notedContract
  simp only
  split
  · exact hchecked
  · exact hchecked

theorem checkContracts_sessionProperties {config : Config} {siteId : Uuid} {mode : ContractMode}
    {events checked : List IncomingEvent} (h : checkContracts config siteId mode events = .ok checked) :
    checked.map IncomingEvent.sessionProperties = events.map IncomingEvent.sessionProperties := by
  rw [checkContracts_eq_map h, List.map_map]
  refine List.map_congr_left fun event _ => ?_
  exact notedContract_sessionProperties config siteId mode event

/-- What is queued of the session properties of a request. -/
theorem inspected_sessionProperties {privacy : Policy} {siteId : Uuid} {site : Site}
    {req : CollectRequest} {call : AcceptCall} {now : Instant} {payload : InboxPayload}
    (h : inspected env privacy siteId site req call now = .ok payload) :
    payload.request.sessionProperties = some (acceptedProperties env privacy req.sessionProperties)
      ∧ payload.request.events.map IncomingEvent.sessionProperties
        = req.events.map fun e => some (acceptedProperties env privacy e.sessionProperties) := by
  unfold inspected at h
  simp only at h
  split at h
  · cases h
  obtain rfl := Except.ok.inj h
  refine ⟨rfl, ?_⟩
  simp only [applyPrivacyBeforeQueue, protectPii, List.map_map]
  -- the warnings of `warn` go into the properties, not the session's
  split
  · rw [List.map_map]
    rfl
  · rw [List.map_map]
    rfl

/-- **The maps an admitted payload has after the inbox.** -/
theorem accept_sessionProperties {config : Config} {call : AcceptCall} {now : Instant} {a : Admission}
    {privacy : Policy} (h : accept env config call now = .ok a) (hprivacy : config.privacy = .ok privacy) :
    a.payload.reload.request.sessionProperties
        = reloadMap (some (acceptedProperties env privacy call.request.sessionProperties))
      ∧ a.payload.reload.request.events.map IncomingEvent.sessionProperties
        = call.request.events.map fun e =>
            reloadMap (some (acceptedProperties env privacy e.sessionProperties)) := by
  obtain ⟨mode, events, privacy', -, hcontracts, hprivacy', hpayload⟩ := accept_ok h
  obtain rfl := Except.ok.inj (hprivacy'.symm.trans hprivacy)
  obtain ⟨hcommon, hown⟩ := inspected_sessionProperties hpayload
  have hrequest : call.request.withEnvironment.sessionProperties = call.request.sessionProperties
      ∧ call.request.withEnvironment.events = call.request.events := by
    unfold CollectRequest.withEnvironment
    split
    · exact ⟨rfl, rfl⟩
    · exact ⟨rfl, rfl⟩
  have hevents := checkContracts_sessionProperties hcontracts
  rw [hrequest.2] at hevents
  constructor
  · show reloadMap a.payload.request.sessionProperties = _
    rw [hcommon]
    show reloadMap (some (acceptedProperties env privacy' call.request.withEnvironment.sessionProperties)) = _
    rw [hrequest.1]
  · show (a.payload.request.events.map IncomingEvent.reload).map IncomingEvent.sessionProperties = _
    have hreload : (a.payload.request.events.map IncomingEvent.reload).map IncomingEvent.sessionProperties
        = (a.payload.request.events.map IncomingEvent.sessionProperties).map reloadMap := by
      rw [List.map_map, List.map_map]
      rfl
    have hchecked : events.map (fun e => some (acceptedProperties env privacy' e.sessionProperties))
        = (events.map IncomingEvent.sessionProperties).map
            fun own => some (acceptedProperties env privacy' own) := by
      rw [List.map_map]
      rfl
    rw [hreload, hown]
    show (events.map fun e => some (acceptedProperties env privacy' e.sessionProperties)).map reloadMap = _
    rw [hchecked, hevents, List.map_map, List.map_map]
    rfl

/-- The event the request has at this place gets the session properties chosen on
the request itself. -/
def SessionPropertiesSurvive (env : Platform) (privacy policy : Policy) (call : AcceptCall)
    (used : List Properties) (i : Nat) (event : IncomingEvent) : Prop :=
  used[i]? = some (keptProperties env privacy policy (call.request.sessionPropertiesOf event))

/-- **THE CHOICE AFTER THE INBOX IS THE ONE ON THE REQUEST** for an event if and only
if the event's own object reaches the inbox with something in it, where it has one,
or nothing of the request's is kept. -/
theorem sessionProperties_survive_iff {config : Config} {call : AcceptCall} {now : Instant}
    {a : Admission} {privacy : Policy} (h : accept env config call now = .ok a)
    (hprivacy : config.privacy = .ok privacy) (policy : Policy) (siteId : Uuid) (timezone : String)
    (cardinalityLimit : Nat) (s : Store) {i : Nat} {event : IncomingEvent}
    (hi : call.request.events[i]? = some event) :
    SessionPropertiesSurvive env privacy policy call
        (usedSessionProperties env policy siteId timezone cardinalityLimit s
          a.payload.reload.withEnvironment) i event
      ↔ OwnPropertiesReach env privacy policy call.request event := by
  have hname : a.payload.reload.withEnvironment = a.payload.reload := by
    unfold InboxPayload.withEnvironment
    rw [if_neg]
    exact accept_environment h
  obtain ⟨hcommon, hown⟩ := accept_sessionProperties h hprivacy
  -- the event as the worker meets it
  have hqueued : (a.payload.reload.request.events.map IncomingEvent.sessionProperties)[i]?
      = some (reloadMap (some (acceptedProperties env privacy event.sessionProperties))) := by
    rw [hown, List.getElem?_map, hi]
    rfl
  rw [List.getElem?_map] at hqueued
  obtain ⟨queued, hqueued, hmap⟩ := Option.map_eq_some_iff.mp hqueued
  have hused : (usedSessionProperties env policy siteId timezone cardinalityLimit s
      a.payload.reload.withEnvironment)[i]?
      = some (if acceptedProperties env privacy event.sessionProperties = []
          then keptProperties env privacy policy call.request.sessionProperties
          else keptProperties env privacy policy event.sessionProperties) := by
    rw [hname, usedSessionProperties, List.getElem?_map, hqueued, ← chosen_after_inbox, ← hmap, ← hcommon]
    rfl
  unfold SessionPropertiesSurvive OwnPropertiesReach CollectRequest.sessionPropertiesOf
  rw [hused, Option.some.injEq]
  cases hevent : event.sessionProperties with
  | none =>
    rw [if_pos ((acceptedProperties_eq_nil_iff env privacy none).mpr fun m hm => absurd hm List.not_mem_nil)]
    simp
  | some own =>
    have hempty := acceptedProperties_eq_nil_iff env privacy (some own)
    rw [Option.getD_some] at hempty
    by_cases hnil : acceptedProperties env privacy (some own) = []
    · -- emptied: the request's are used, and the event's would have been empty
      have hblocked := hempty.mp hnil
      have hkept : keptProperties env privacy policy (some own) = [] :=
        (keptProperties_eq_nil_iff env privacy policy _).mpr fun m hm => .inl (hblocked m hm)
      rw [if_pos hnil, hkept, keptProperties_eq_nil_iff]
      constructor
      · exact fun hall own' _ => .inr hall
      · intro hreach
        rcases hreach own rfl with ⟨m, hm, hnot⟩ | hall
        · exact absurd (hblocked m hm) hnot
        · exact hall
    · rw [if_neg hnil]
      rw [hempty] at hnil
      push Not at hnil
      refine ⟨fun _ own' hown' => ?_, fun _ => rfl⟩
      obtain rfl := Option.some.inj hown'
      exact .inl hnil

end

/-! ## §4. One request. -/

namespace Sample

/-- A page view with these session properties, in a request that says `plan` is
`gold`. -/
def planCall (own : Option Properties) : AcceptCall :=
  let plain := call [{ pageView '1' with sessionProperties := own }]
  { plain with request := { plain.request with sessionProperties := some [("plan", .str "gold")] } }

/-- What the worker uses for the page view, where the request is admitted. -/
def planUsed (own : Option Properties) : Option (List Properties) :=
  match accept platform (config 100) (planCall own) (newYear * 1000) with
  | .error _ => none
  | .ok a => some (usedSessionProperties platform Policy.default siteId "UTC" 100
      (Store.initial (config 100)) a.payload.reload.withEnvironment)

theorem accept_of_planUsed {own : Option Properties} {used : List Properties}
    (h : planUsed own = some used) :
    ∃ a, accept platform (config 100) (planCall own) (newYear * 1000) = .ok a
      ∧ usedSessionProperties platform Policy.default siteId "UTC" 100 (Store.initial (config 100))
          a.payload.reload.withEnvironment = used := by
  unfold planUsed at h
  cases haccept : accept platform (config 100) (planCall own) (newYear * 1000) with
  | error turned =>
    rw [haccept] at h
    cases h
  | ok a =>
    rw [haccept] at h
    exact ⟨a, rfl, Option.some.inj h⟩

end Sample

/-- An object with a seat in it takes the place of the request's plan. -/
theorem sessionProperties_survive_iff_seat :
    ∃ used, Sample.planUsed (some [("seat", .str "12")]) = some used
      ∧ (SessionPropertiesSurvive Sample.platform Policy.default Policy.default
            (Sample.planCall (some [("seat", .str "12")])) used 0
            { Sample.pageView '1' with sessionProperties := some [("seat", .str "12")] }
          ↔ OwnPropertiesReach Sample.platform Policy.default Policy.default
            (Sample.planCall (some [("seat", .str "12")])).request
            { Sample.pageView '1' with sessionProperties := some [("seat", .str "12")] }) := by
  have hsome : (Sample.planUsed (some [("seat", .str "12")])).isSome = true := by decide +kernel
  obtain ⟨used, hused⟩ := Option.isSome_iff_exists.mp hsome
  obtain ⟨a, haccept, rfl⟩ := Sample.accept_of_planUsed hused
  exact ⟨_, hused, sessionProperties_survive_iff haccept rfl Policy.default Sample.siteId "UTC" 100
    (Store.initial (Sample.config 100)) rfl⟩

/-- **An empty object is taken for none**: the page view gets the request's plan. -/
theorem emptyObject_not_survives :
    ¬∀ (env : Platform) (config : Config) (call : AcceptCall) (now : Instant) (a : Admission)
        (privacy policy : Policy) (siteId : Uuid) (timezone : String) (cardinalityLimit : Nat) (s : Store)
        (i : Nat) (event : IncomingEvent),
      accept env config call now = .ok a → config.privacy = .ok privacy →
        call.request.events[i]? = some event →
        SessionPropertiesSurvive env privacy policy call
          (usedSessionProperties env policy siteId timezone cardinalityLimit s
            a.payload.reload.withEnvironment) i event := by
  intro h
  have hlength : (Sample.planUsed (some [])).map (fun used => used[0]?.map List.length)
      = some (some 1) := by decide +kernel
  obtain ⟨used, hused, hone⟩ := Option.map_eq_some_iff.mp hlength
  obtain ⟨a, haccept, rfl⟩ := Sample.accept_of_planUsed hused
  have hsurvive := h _ _ _ _ a Policy.default Policy.default Sample.siteId "UTC" 100
    (Store.initial (Sample.config 100)) 0 _ haccept rfl rfl
  unfold SessionPropertiesSurvive at hsurvive
  rw [hsurvive] at hone
  -- the object the claim asks for has no member
  have hzero : (keptProperties Sample.platform Policy.default Policy.default (some [])).length = 0 := rfl
  rw [Option.map_some] at hone
  exact absurd (hzero.symm.trans (Option.some.inj hone)) (by decide)

end Momento
