/-
  Momento.Service.PiiMasking

  **WHAT MASKING LEAVES IN A PAYLOAD.**  In mask mode `Accept` walks the request once
  and replaces what a detector matches in each text it visits.  Then the blocked
  properties go, and the URLs are taken apart and put together again.

  The walk reaches every text of every document, at any depth, and dropping blocked
  properties before it or after it is the same.  But the device's texts and the
  collector's own lists of warnings are not visited; a text is masked once, whatever
  the replacements uncover; and a URL's query is decoded after it was masked.
-/
import Momento.Service.SessionProperties

namespace Momento

open Foundation

/-! ## §1. The texts of a payload. -/

/-- A string of a document: a text, or an entry of one of the collector's own lists. -/
inductive Leaf where
  | text (s : String)
  | own (s : String)

/-- Its text. -/
def Leaf.string : Leaf → String
  | .text s => s
  | .own s => s

namespace Json

mutual

/-- The leaves of a value. -/
def leaves : Json → List Leaf
  | str s => [.text s]
  | arr items => itemLeaves items
  | obj members => memberLeaves members
  | strs texts => texts.map .own
  | null => []
  | bool _ => []
  | num _ => []

/-- The leaves of an array. -/
def itemLeaves : List Json → List Leaf
  | [] => []
  | v :: vs => leaves v ++ itemLeaves vs

/-- The leaves of an object. -/
def memberLeaves : List (String × Json) → List Leaf
  | [] => []
  | (_, v) :: ms => leaves v ++ memberLeaves ms

end

end Json

/-- The texts of properties. -/
def documentTexts (p : Option Properties) : List String :=
  (Json.memberLeaves (p.getD [])).map Leaf.string

/-- The two addresses. -/
def EventContext.urls (c : EventContext) : List String := [c.page.url, c.page.referrer]

/-- The texts that are masked and then left as they are. -/
def EventContext.texts (c : EventContext) : List String :=
  [c.page.title, c.traffic.source, c.traffic.medium, c.traffic.campaign, c.traffic.term, c.traffic.content]

/-- The texts of the device. -/
def DeviceContext.texts (d : DeviceContext) : List String :=
  [d.type, d.browser, d.os, d.language, d.screen]

/-- Its strings. -/
def EventContext.strings (c : EventContext) : List String := c.urls ++ c.texts ++ c.device.texts

/-- Its strings. -/
def IncomingEvent.strings (e : IncomingEvent) : List String :=
  e.name :: documentTexts e.properties ++ documentTexts e.sessionProperties
    ++ (e.items.flatMap fun item => documentTexts (some item)) ++ e.context.elim [] EventContext.strings

/-- Every string of a request but its identifiers. -/
def CollectRequest.strings (req : CollectRequest) : List String :=
  documentTexts req.userProperties ++ documentTexts req.sessionProperties ++ req.context.strings
    ++ req.events.flatMap IncomingEvent.strings

/-! ## §2. The property. -/

section
variable (env : Platform)

/-- Some detector matches the text. -/
def detected (text : String) : Bool :=
  env.matchString emailPiiPattern text || env.matchString residentPiiPattern text
    || ((env.splitMatches cardPiiPattern text).1.any fun m => isCard m.2)
    || env.matchString phonePiiPattern text || env.matchString tokenPiiPattern text

/-- The text after `maskPIIString`. -/
def masked (text : String) : String := (maskPiiString env text).1

/-- The property: no string of the payload is matched by a detector, and a user id that
one named is blank. -/
def PiiMasked (call : AcceptCall) (payload : InboxPayload) : Prop :=
  (∀ text ∈ payload.request.strings, detected env text = false)
    ∧ (maskUserId env call.request.userId ≠ [] → payload.request.userId = "")

/-! What a condition on the texts, and one on the URLs, asks of a request. -/

variable (privacy : Policy) (clean cleanUrl : String → Prop)

/-- A text is clean; an entry of the collector's own lists has nothing in it as it is. -/
def LeafLeavesNothing : Leaf → Prop
  | .text s => clean s
  | .own s => detected env s = false

/-- Every string under the document's kept names leaves nothing. -/
def DocumentLeavesNothing (p : Option Properties) : Prop :=
  ∀ leaf ∈ Json.memberLeaves (filteredProperties env p privacy.blockedProperties),
    LeafLeavesNothing env clean leaf

/-- The URLs and the texts are clean, the device's texts have nothing in them. -/
structure ContextLeavesNothing (c : EventContext) : Prop where
  urls : ∀ url ∈ c.urls, cleanUrl url
  texts : ∀ text ∈ c.texts, clean text
  device : ∀ text ∈ c.device.texts, detected env text = false

/-- The strings of an event: its name, its documents and its context. -/
structure EventLeavesNothing (e : IncomingEvent) : Prop where
  name : clean e.name
  properties : DocumentLeavesNothing env privacy clean e.properties
  sessionProperties : DocumentLeavesNothing env privacy clean e.sessionProperties
  items : ∀ item ∈ e.items, DocumentLeavesNothing env privacy clean (some item)
  context : ∀ c, e.context = some c → ContextLeavesNothing env clean cleanUrl c

/-- Device texts and the collector's warnings have nothing in them as they are, every
other text is clean, and every URL. -/
structure RequestLeavesNothing (req : CollectRequest) : Prop where
  userProperties : DocumentLeavesNothing env privacy clean req.userProperties
  sessionProperties : DocumentLeavesNothing env privacy clean req.sessionProperties
  context : ContextLeavesNothing env clean cleanUrl req.context
  events : ∀ e ∈ req.events, EventLeavesNothing env privacy clean cleanUrl e

/-- Nothing is left of a text once it was masked, -/
def MaskedAway (text : String) : Prop := detected env (masked env text) = false

/-- and of a URL once it was also sanitised. -/
def SanitisedAway (url : String) : Prop := detected env (sanitizeUrl env (masked env url) privacy) = false

/-! ## §3. The walks. -/

/-- A leaf after the detectors. -/
def maskLeaf : Leaf → Leaf
  | .text s => .text (masked env s)
  | .own s => .own s

mutual

/-- **The walk reaches every string**, and masks all but the collector's own. -/
theorem leaves_visitJson (v : Json) :
    (visitJson env "mask" v).1.leaves = v.leaves.map (maskLeaf env) := by
  cases v with
  | str s => rfl
  | arr items => exact itemLeaves_visitItems items
  | obj members => exact memberLeaves_visitMembers members
  | strs texts =>
    show texts.map Leaf.own = (texts.map Leaf.own).map (maskLeaf env)
    rw [List.map_map]
    rfl
  | null => rfl
  | bool b => rfl
  | num x => rfl

theorem itemLeaves_visitItems (items : List Json) :
    Json.itemLeaves (visitItems env "mask" items).1 = (Json.itemLeaves items).map (maskLeaf env) := by
  cases items with
  | nil => rfl
  | cons v vs =>
    show (visitJson env "mask" v).1.leaves ++ Json.itemLeaves (visitItems env "mask" vs).1
      = (v.leaves ++ Json.itemLeaves vs).map (maskLeaf env)
    rw [leaves_visitJson v, itemLeaves_visitItems vs, List.map_append]

theorem memberLeaves_visitMembers (members : List (String × Json)) :
    Json.memberLeaves (visitMembers env "mask" members).1
      = (Json.memberLeaves members).map (maskLeaf env) := by
  cases members with
  | nil => rfl
  | cons m ms =>
    show (visitJson env "mask" m.2).1.leaves ++ Json.memberLeaves (visitMembers env "mask" ms).1
      = (m.2.leaves ++ Json.memberLeaves ms).map (maskLeaf env)
    rw [leaves_visitJson m.2, memberLeaves_visitMembers ms, List.map_append]

end

mutual

/-- Blocked properties may go before the walk or after it. -/
theorem filterNested_visitJson (mode : String) (blocked : List String) (v : Json) :
    filterNested env blocked (visitJson env mode v).1 = (visitJson env mode (filterNested env blocked v)).1 := by
  cases v with
  | str s => rfl
  | arr items => exact congrArg Json.arr (filterItems_visitItems mode blocked items)
  | obj members => exact congrArg Json.obj (filterMembers_visitMembers mode blocked members)
  | strs texts => rfl
  | null => rfl
  | bool b => rfl
  | num x => rfl

theorem filterItems_visitItems (mode : String) (blocked : List String) (items : List Json) :
    filterItems env blocked (visitItems env mode items).1
      = (visitItems env mode (filterItems env blocked items)).1 := by
  cases items with
  | nil => rfl
  | cons v vs =>
    show filterNested env blocked (visitJson env mode v).1
        :: filterItems env blocked (visitItems env mode vs).1
      = (visitJson env mode (filterNested env blocked v)).1
        :: (visitItems env mode (filterItems env blocked vs)).1
    rw [filterNested_visitJson mode blocked v, filterItems_visitItems mode blocked vs]

theorem filterMembers_visitMembers (mode : String) (blocked : List String)
    (members : List (String × Json)) :
    filterMembers env blocked (visitMembers env mode members).1
      = (visitMembers env mode (filterMembers env blocked members)).1 := by
  cases members with
  | nil => rfl
  | cons m ms =>
    obtain ⟨name, v⟩ := m
    show filterMembers env blocked ((name, (visitJson env mode v).1) :: (visitMembers env mode ms).1) = _
    by_cases hblocked : matchForm env name ∈ blocked
    · rw [filterMembers, if_pos hblocked, filterMembers, if_pos hblocked,
        filterMembers_visitMembers mode blocked ms]
    · rw [filterMembers, if_neg hblocked, filterMembers, if_neg hblocked,
        filterNested_visitJson mode blocked v, filterMembers_visitMembers mode blocked ms]
      rfl

end

end

/-! ## §4. Field by field. -/

section
variable {env : Platform} {privacy : Policy}

theorem document_iff (p : Option Properties) :
    (∀ text ∈ documentTexts (some (filteredProperties env (visitMap env "mask" p).1
        privacy.blockedProperties)), detected env text = false)
      ↔ DocumentLeavesNothing env privacy (MaskedAway env) p := by
  have hvisited : filteredProperties env (visitMap env "mask" p).1 privacy.blockedProperties
      = (visitMembers env "mask" (filteredProperties env p privacy.blockedProperties)).1 := by
    cases p with
    | none => rfl
    | some members => exact filterMembers_visitMembers env "mask" _ members
  have hleaf : ∀ leaf : Leaf, detected env (maskLeaf env leaf).string = false
      ↔ LeafLeavesNothing env (MaskedAway env) leaf := by
    intro leaf
    cases leaf with
    | text s => exact Iff.rfl
    | own s => exact Iff.rfl
  unfold documentTexts DocumentLeavesNothing
  rw [hvisited, Option.getD_some, memberLeaves_visitMembers, List.map_map]
  simp only [List.forall_mem_map, Function.comp_apply, hleaf]

theorem context_iff (c : EventContext) :
    (∀ text ∈ (sanitizeContext env privacy (visitContext env "mask" c).1).strings,
        detected env text = false)
      ↔ ContextLeavesNothing env (MaskedAway env) (SanitisedAway env privacy) c := by
  have hstrings : (sanitizeContext env privacy (visitContext env "mask" c).1).strings
      = c.urls.map (fun url => sanitizeUrl env (masked env url) privacy)
        ++ c.texts.map (masked env) ++ c.device.texts := rfl
  rw [hstrings]
  simp only [List.forall_mem_append, List.forall_mem_map]
  constructor
  · rintro ⟨⟨hurls, htexts⟩, hdevice⟩
    exact ⟨hurls, htexts, hdevice⟩
  · rintro ⟨hurls, htexts, hdevice⟩
    exact ⟨⟨hurls, htexts⟩, hdevice⟩

theorem event_iff (e : IncomingEvent) :
    (∀ text ∈ (filterEvent env privacy (visitEvent env "mask" e).1).strings, detected env text = false)
      ↔ EventLeavesNothing env privacy (MaskedAway env) (SanitisedAway env privacy) e := by
  have hitems : (∀ item ∈ (filterEvent env privacy (visitEvent env "mask" e).1).items,
        ∀ text ∈ documentTexts (some item), detected env text = false)
      ↔ ∀ item ∈ e.items, DocumentLeavesNothing env privacy (MaskedAway env) (some item) := by
    show (∀ item ∈ ((e.items.map (visitMembers env "mask")).map Prod.fst).map
      (fun item => filteredProperties env (some item) privacy.blockedProperties), _) ↔ _
    simp only [List.forall_mem_map]
    exact forall₂_congr fun item _ => document_iff (some item)
  have hcontext : (∀ text ∈ (filterEvent env privacy (visitEvent env "mask" e).1).context.elim []
        EventContext.strings, detected env text = false)
      ↔ ∀ c, e.context = some c →
          ContextLeavesNothing env (MaskedAway env) (SanitisedAway env privacy) c := by
    show (∀ text ∈ (((e.context.map (visitContext env "mask")).map Prod.fst).map
      (sanitizeContext env privacy)).elim [] EventContext.strings, _) ↔ _
    cases e.context with
    | none => simp
    | some c => simpa using context_iff c
  unfold IncomingEvent.strings
  simp only [List.cons_append, List.forall_mem_cons, List.forall_mem_append, List.forall_mem_flatMap,
    hitems, hcontext]
  constructor
  · rintro ⟨hname, ⟨⟨hproperties, hsession⟩, hitems⟩, hcontext⟩
    exact ⟨hname, (document_iff _).mp hproperties, (document_iff _).mp hsession, hitems, hcontext⟩
  · rintro ⟨hname, hproperties, hsession, hitems, hcontext⟩
    exact ⟨hname, ⟨⟨(document_iff _).mpr hproperties, (document_iff _).mpr hsession⟩, hitems⟩, hcontext⟩

/-- What an inspected payload holds in mask mode. -/
theorem inspected_request {siteId : Uuid} {site : Site} {req : CollectRequest} {call : AcceptCall}
    {now : Instant} {payload : InboxPayload} (hmask : piiMode env privacy.piiDetectionMode = "mask")
    (h : inspected env privacy siteId site req call now = .ok payload) :
    payload.request = applyPrivacyBeforeQueue env privacy
      { req with
        userProperties := (visitMap env "mask" req.userProperties).1
        sessionProperties := (visitMap env "mask" req.sessionProperties).1
        context := (visitContext env "mask" req.context).1
        userId := if maskUserId env req.userId ≠ [] then "" else req.userId
        events := req.events.map fun e => (visitEvent env "mask" e).1 } := by
  unfold inspected at h
  simp only at h
  split at h
  · cases h
  obtain rfl := Except.ok.inj h
  simp only [protectPii, hmask, List.map_map]
  simp [Function.comp_def]

theorem request_iff {siteId : Uuid} {site : Site} {req : CollectRequest} {call : AcceptCall}
    {now : Instant} {payload : InboxPayload} (hmask : piiMode env privacy.piiDetectionMode = "mask")
    (h : inspected env privacy siteId site req call now = .ok payload) :
    (∀ text ∈ payload.request.strings, detected env text = false)
      ↔ RequestLeavesNothing env privacy (MaskedAway env) (SanitisedAway env privacy) req := by
  have hevents : (∀ e ∈ (req.events.map fun e => (visitEvent env "mask" e).1).map (filterEvent env privacy),
        ∀ text ∈ e.strings, detected env text = false)
      ↔ ∀ e ∈ req.events,
          EventLeavesNothing env privacy (MaskedAway env) (SanitisedAway env privacy) e := by
    simp only [List.forall_mem_map]
    exact forall₂_congr fun e _ => event_iff e
  rw [inspected_request hmask h]
  unfold CollectRequest.strings applyPrivacyBeforeQueue
  simp only [List.forall_mem_append, List.forall_mem_flatMap, hevents]
  constructor
  · rintro ⟨⟨⟨huser, hsession⟩, hcontext⟩, hevents⟩
    exact ⟨(document_iff _).mp huser, (document_iff _).mp hsession, (context_iff _).mp hcontext, hevents⟩
  · rintro ⟨huser, hsession, hcontext, hevents⟩
    exact ⟨⟨⟨(document_iff _).mpr huser, (document_iff _).mpr hsession⟩, (context_iff _).mpr hcontext⟩,
      hevents⟩

/-! ## §5. An accepted request. -/

/-- The request `Accept` inspects: its events' contracts were looked at. -/
def CollectRequest.noted (req : CollectRequest) (config : Config) (siteId : Uuid) (mode : ContractMode) :
    CollectRequest :=
  { req with events := req.events.map (notedContract config siteId mode) }

/-- **An accepted request, string by string**: the device's texts and the noted warnings
are queued as they are, each other text masked, each URL masked and sanitised. -/
theorem accepted_iff {config : Config} {call : AcceptCall} {now : Instant} {a : Admission}
    {mode : ContractMode} (h : accept env config call now = .ok a) (hprivacy : config.privacy = .ok privacy)
    (hmask : piiMode env privacy.piiDetectionMode = "mask")
    (hmode : contractModeOf config a.siteId call.request.withEnvironment.environment = some mode) :
    PiiMasked env call a.payload
      ↔ RequestLeavesNothing env privacy (MaskedAway env) (SanitisedAway env privacy)
          (call.request.noted config a.siteId mode) := by
  obtain ⟨mode', events, privacy', hsite, hcontracts, hprivacy', hpayload⟩ := accept_ok h
  obtain rfl := Except.ok.inj (hprivacy'.symm.trans hprivacy)
  obtain ⟨-, e, henvironment, hactive, rfl⟩ := admitToSite_ok hsite
  have hsame : mode = e.contractMode := by
    unfold contractModeOf at hmode
    rw [henvironment, Option.bind_some, if_pos hactive] at hmode
    exact (Option.some.inj hmode).symm
  subst hsame
  obtain rfl := checkContracts_eq_map hcontracts
  -- the environment's default name changes no text
  have hnamed : RequestLeavesNothing env privacy' (MaskedAway env) (SanitisedAway env privacy') { call.request.withEnvironment with
        events := call.request.withEnvironment.events.map (notedContract config a.siteId e.contractMode) }
      ↔ RequestLeavesNothing env privacy' (MaskedAway env) (SanitisedAway env privacy')
          (call.request.noted config a.siteId e.contractMode) := by
    unfold CollectRequest.withEnvironment
    split
    · exact ⟨fun h => ⟨h.1, h.2, h.3, h.4⟩, fun h => ⟨h.1, h.2, h.3, h.4⟩⟩
    · exact Iff.rfl
  have huser : maskUserId env call.request.userId ≠ [] → a.payload.request.userId = "" := by
    intro hfound
    have hid : call.request.withEnvironment.userId = call.request.userId := by
      unfold CollectRequest.withEnvironment
      split
      · rfl
      · rfl
    rw [inspected_request hmask hpayload]
    simp only [applyPrivacyBeforeQueue, hid, if_pos hfound]
    split
    · rfl
    · rfl
  unfold PiiMasked
  rw [request_iff hmask hpayload, hnamed]
  exact and_iff_left huser

end

/-! ## §6. Two samples. -/

namespace Sample

/-- The platform of the samples, with an address its detectors know. -/
def addressPlatform : Platform :=
  { platform with
    splitMatches := fun expression s =>
      if expression = emailPiiPattern ∧ s = "ann@example.com" then ([("", s)], "") else ([], s) }

/-- A page view, of a search, whose page has this title, on a browser of this name. -/
def shownCall (title browser : String) : AcceptCall :=
  call [{ pageView '1' with
    context := some {
      page := { url := "https://example.com/a?q=tea", title := title }
      device := { browser := browser } } }]

end Sample

end Momento
