/-
  Momento.Service.Accept

  **`CollectorService.Accept`.**  What happens to a collection request before it
  is in the inbox: the shape checks, the site's key, origin and limits, the event
  contracts, the PII inspection, and the privacy filters.

  The decision (`accept`) is a pure function of the request, the configuration
  and the clock.  The transactions that follow it are listed apart
  (`AcceptCall.writes`): an admission is one, a PII rejection is one per event.
-/
import Momento.Model.Database

namespace Momento

open Foundation

/-! ## §1. The shape of a request. -/

/-- `eventNamePattern`. -/
def isEventName (name : String) : Bool :=
  match name.toList with
  | [] => false
  | c :: cs => c.isAlpha && cs.length ≤ 63 && cs.all fun c => c.isAlphanum || c = '_'

/-- `environmentPattern`. -/
def isEnvironmentName (name : String) : Bool :=
  match name.toList with
  | [] => false
  | c :: cs =>
    c.isLower && cs.length ≤ 31 && cs.all fun c => c.isLower || c.isDigit || c = '_' || c = '-'

/-- `len` of a map. -/
def propertyCount (p : Option Properties) : Nat := (p.getD []).length

/-- Why `Accept` turns a request away. -/
inductive Turned where
  | refused (message : String)
  | contract (siteId : Uuid) (site : Site) (environment : String) (event : IncomingEvent)
      (warnings : List String)
  | pii (siteId : Uuid) (site : Site) (environment : String) (events : List IncomingEvent)
      (kinds : List String)

/-- The shape of one event. -/
def checkEventShape (env : Platform) (event : IncomingEvent) : Except Turned Unit := do
  if !isEventName event.name then
    throw (.refused ("invalid event name " ++ env.quote event.name))
  if 100 < propertyCount event.properties then
    throw (.refused ("event " ++ env.quote event.name ++ " has too many properties"))

/-- The shape of a request. -/
def checkShape (env : Platform) (req : CollectRequest) : Except Turned Unit := do
  if req.siteId = "" ∨ req.visitorId = "" ∨ req.sessionId = "" ∨ req.events = [] then
    throw (.refused "site_id, visitor_id, session_id and events are required")
  if 128 < req.visitorId.utf8ByteSize ∨ 128 < req.sessionId.utf8ByteSize
      ∨ 128 < req.userId.utf8ByteSize then
    throw (.refused "identifier is too long")
  if 100 < propertyCount req.sessionProperties ∨ 100 < propertyCount req.userProperties then
    throw (.refused "user_properties and session_properties accept at most 100 properties")
  if !isEnvironmentName req.environment then
    throw (.refused "invalid environment")
  req.events.forM (checkEventShape env)

/-! ## §2. The site. -/

/-- The active site with this key. -/
def siteForCollect (config : Config) (siteKey : String) : Option (Uuid × Site) :=
  (config.sites.entries.find? fun e => e.2.siteKey = siteKey && e.2.active).map
    fun e => (e.1, e.2)

/-- `least(1000, greatest(1, coalesce(…, 100)))`. -/
def Config.maxEvents (config : Config) : Int :=
  min 1000 (max 1 (config.maxEventsPerRequest.getD 100))

/-- `strings.TrimSuffix(s, ".")`. -/
def trimDot (s : String) : String :=
  if s.toList.getLast? = some '.' then String.ofList s.toList.dropLast else s

/-- `originAllowed`. -/
def originAllowed (env : Platform) (origin : String) (allowed : List String) : Bool :=
  if allowed = [] then true
  else if origin = "" then false
  else match env.parseUrl origin with
    | none => false
    | some u =>
      let host := env.toLower (trimDot u.hostname)
      allowed.any fun domain =>
        let domain := env.toLower (trimSpace (trimDot domain))
        domain = host
          || (domain.toList.take 2 = ['*', '.'] && domain.toList.tail.isSuffixOf host.toList)

/-- The key that a call needs. -/
def checkKey (env : Platform) (site : Site) (trackingKey origin : String) : Except Turned Unit := do
  let providedHash := env.sha256Base64 trackingKey
  if origin = "" then
    if trackingKey = "" ∨ providedHash ≠ site.serverApiKeyHash then
      throw (.refused "server API key is required for server-side events")
  else if trackingKey ≠ "" ∧ providedHash ≠ site.trackingKeyHash
      ∧ providedHash ≠ site.serverApiKeyHash then
    throw (.refused "invalid tracking key")
  if origin ≠ "" ∧ !originAllowed env origin site.allowedDomains then
    throw (.refused "origin is not allowed")

/-- `contract_mode` of the active environment. -/
def contractModeOf (config : Config) (siteId : Uuid) (environment : String) : Option ContractMode :=
  (config.siteEnvironments.lookup ⟨siteId, environment⟩).bind
    fun e => if e.active then some e.contractMode else none

/-! ## §3. Event contracts. -/

/-- The events the tracker emits on its own. -/
def automaticEvents : List String :=
  ["page_view", "click", "outbound_click", "file_download", "scroll", "form_start", "form_submit",
    "user_engagement", "error", "resource_error", "web_vital", "rage_click", "dead_click",
    "rapid_back", "form_retry", "repeated_search", "error_after_click", "slow_interaction",
    "search", "search_click", "search_refine", "session_start", "collection_dropped"]

/-- The contracts of an event. -/
structure EventContracts where
  current : Int
  versions : List ContractVersion

/-- A registered event with the versions that are not drafts, where there are any. -/
def contractsOf (config : Config) (siteId : Uuid) (name : String) : Option EventContracts :=
  (config.eventDefinitions.lookup ⟨siteId, name⟩).bind fun definition =>
    let versions := config.contractVersions.filter fun v =>
      v.siteId = siteId && v.eventName = name && v.status ≠ .draft
    if versions.isEmpty then none else some ⟨definition.currentVersion, versions⟩

/-- A version by its number. -/
def EventContracts.version (c : EventContracts) (number : Int) : Option ContractVersion :=
  c.versions.find? fun v => (v.version : Int) = number

/-- How strict a mode is. -/
def ContractMode.rank : ContractMode → Nat
  | .allow => 0
  | .warn => 1
  | .reject => 2

/-- `strictestValidationMode`. -/
def strictestValidationMode (a b : ContractMode) : ContractMode := if a.rank < b.rank then b else a

/-- A required property is missing when it is absent, null or the empty text. -/
def isMissing : Option Json → Bool
  | none => true
  | some .null => true
  | some (.str s) => s = ""
  | some _ => false

/-- The value has the declared type; a type nobody knows is met by everything. -/
def hasType (type : String) (value : Json) : Bool :=
  match value with
  | .str _ => type ∉ ["number", "integer", "boolean", "array", "object"]
  | .num _ => type ∉ ["string", "boolean", "array", "object"]
  | .bool _ => type ∉ ["string", "number", "integer", "array", "object"]
  | .arr _ => type ∉ ["string", "number", "integer", "boolean", "object"]
  | .obj _ => type ∉ ["string", "number", "integer", "boolean", "array"]
  | .strs _ => type ∉ ["string", "number", "integer", "boolean", "array", "object"]
  | .null => true

/-- `validateProperties`. -/
def validateProperties (properties : Option Properties) : Option RegistrySchema → List String
  | none => ["invalid registry schema"]
  | some schema =>
    (schema.required.filter fun key => isMissing (propertyOf properties key)).map
        (· ++ " is required")
      ++ (schema.properties.filter fun (key, type) =>
          !(propertyOf properties key).elim true (hasType type)).map
        fun (key, type) => key ++ " must be " ++ type

section Contracts
variable (config : Config) (siteId : Uuid) (mode : ContractMode)

/-- The registry's objections to an event whose version is settled. -/
def contractWarnings (contracts : Option EventContracts) (event : IncomingEvent) : List String :=
  match contracts with
  | none => if event.name ∈ automaticEvents then [] else ["event is not registered"]
  | some c =>
    match c.version event.contractVersion with
    | none => ["contract version " ++ toString event.contractVersion ++ " is not registered"]
    | some item =>
      if strictestValidationMode mode item.validationMode ≠ .allow then
        validateProperties event.properties item.schema
      else []

/-- The event under the version it is checked against. -/
def versioned (contracts : Option EventContracts) (event : IncomingEvent) : IncomingEvent :=
  match contracts with
  | some c => if event.contractVersion = 0 then { event with contractVersion := c.current } else event
  | none => event

/-- The mode that decides over the event's warnings. -/
def effectiveMode (contracts : Option EventContracts) (event : IncomingEvent) : ContractMode :=
  (contracts.bind fun c => c.version event.contractVersion).elim mode
    fun item => strictestValidationMode mode item.validationMode

/-- The event after its contract was looked at, with the objections. -/
def checkedContract (event : IncomingEvent) : IncomingEvent × List String × ContractMode :=
  let contracts := contractsOf config siteId event.name
  let event := versioned contracts event
  let warnings := contractWarnings mode contracts event
  let event := if event.contractVersion = 0 then { event with contractVersion := 1 } else event
  (event, warnings, effectiveMode mode contracts event)

/-- Note the objections on the event itself. -/
def withWarnings (key : String) (texts : List String) (event : IncomingEvent) : IncomingEvent :=
  { event with properties := some (Properties.set (event.properties.getD []) key (.strs texts)) }

/-- Every event's contract in turn; the first event in reject mode ends it. -/
def checkContracts : List IncomingEvent → Except (IncomingEvent × List String) (List IncomingEvent)
  | [] => .ok []
  | event :: rest =>
    let (event, warnings, strictest) := checkedContract config siteId mode event
    if warnings ≠ [] ∧ strictest = .reject then .error (event, warnings)
    else
      let event :=
        if warnings ≠ [] ∧ strictest = .warn then
          withWarnings "_momento_contract_warnings" warnings event
        else event
      (checkContracts rest).map (event :: ·)

end Contracts

/-! ## §4. Personal data. -/

/-- `emailPIIPattern`. -/
def emailPiiPattern : String := "(?i)\\b[a-z0-9._%+\\-]+@[a-z0-9.\\-]+\\.[a-z]\x7b2,\x7d\\b"

/-- `phonePIIPattern`. -/
def phonePiiPattern : String :=
  "(?:\\+?82[- ]?)?0?1[016789][- ]?\\d\x7b3,4\x7d[- ]?\\d\x7b4\x7d"

/-- `residentPIIPattern`. -/
def residentPiiPattern : String := "\\b\\d\x7b6\x7d[- ]?[1-8]\\d\x7b6\x7d\\b"

/-- `cardPIIPattern`. -/
def cardPiiPattern : String := "\\b(?:\\d[ -]*?)\x7b13,19\x7d\\b"

/-- `tokenPIIPattern`. -/
def tokenPiiPattern : String :=
  "(?i)(?:bearer\\s+[A-Za-z0-9._~+/=-]\x7b12,\x7d|eyJ[A-Za-z0-9_-]\x7b10,\x7d\\.[A-Za-z0-9_-]\x7b10,\x7d\\.[A-Za-z0-9_-]\x7b5,\x7d)"

/-- `longDigitsPIIPattern`. -/
def longDigitsPiiPattern : String := "\\+?\\d\x7b8,\x7d"

/-- The Luhn sum: from the left, every second digit doubled, so that the last
one is not. -/
def luhnSum (digits : List Char) : Nat :=
  (digits.mapIdx fun i c =>
    let digit := c.toNat - '0'.toNat
    if i % 2 = digits.length % 2 then (if 9 < digit * 2 then digit * 2 - 9 else digit * 2)
    else digit).sum

/-- `validLuhn`. -/
def validLuhn (digits : List Char) : Bool :=
  13 ≤ digits.length && digits.length ≤ 19 && digits.all Char.isDigit && luhnSum digits % 10 = 0

/-- A value and the detectors that spoke on the way. -/
abbrev Seen (α : Type) := α × List String

section Pii
variable (env : Platform)

/-- A pattern is replaced, and noted. -/
def replacePii (pattern kind : String) (seen : Seen String) : Seen String :=
  if env.matchString pattern seen.1 then
    (env.replaceAllStringFunc pattern seen.1 fun _ => "[MASKED_" ++ env.toUpper kind ++ "]",
      seen.2 ++ [kind])
  else seen

/-- A run of digits, blanks and dashes that is a card number. -/
def isCard (candidate : String) : Bool :=
  validLuhn (candidate.toList.filter fun c => c ≠ ' ' && c ≠ '-')

/-- Card numbers are replaced, and noted. -/
def replaceCards (seen : Seen String) : Seen String :=
  (env.replaceAllStringFunc cardPiiPattern seen.1 fun candidate =>
      if isCard candidate then "[MASKED_PAYMENT_CARD]" else candidate,
    seen.2 ++ (((env.splitMatches cardPiiPattern seen.1).1.map Prod.snd).filter isCard).map
      fun _ => "payment_card")

/-- `maskPIIString`. -/
def maskPiiString (value : String) : Seen String :=
  replacePii env tokenPiiPattern "credential" (replacePii env phonePiiPattern "phone"
    (replaceCards env (replacePii env residentPiiPattern "resident_number"
      (replacePii env emailPiiPattern "email" (value, [])))))

/-- `maskUserID`. -/
def maskUserId (value : String) : List String :=
  let found := (maskPiiString env value).2
  if found = [] ∧ env.matchString longDigitsPiiPattern value then ["long_digits"] else found

/-- `detect`, `warn`, `mask` and `reject` are modes; anything else means `mask`. -/
def piiMode (configuredMode : String) : String :=
  let mode := env.toLower (trimSpace configuredMode)
  if mode ∈ ["detect", "warn", "mask", "reject"] then mode else "mask"

/-- What `visit` does to a text: the detectors look at it, `mask` replaces it. -/
def visitText (mode : String) (text : String) : Seen String :=
  let (masked, found) := maskPiiString env text
  (if mode = "mask" then masked else text, found)

mutual

/-- `visit`; the collector's own text lists are not entered. -/
def visitJson (mode : String) : Json → Seen Json
  | .obj members => ((visitMembers mode members).map .obj id)
  | .arr items => ((visitItems mode items).map .arr id)
  | .str s => ((visitText env mode s).map .str id)
  | .null => (.null, [])
  | .bool b => (.bool b, [])
  | .num x => (.num x, [])
  | .strs texts => (.strs texts, [])

/-- The detectors, on the items of an array. -/
def visitItems (mode : String) : List Json → Seen (List Json)
  | [] => ([], [])
  | v :: vs =>
    let (v, found) := visitJson mode v
    let (vs, more) := visitItems mode vs
    (v :: vs, found ++ more)

/-- The detectors, on the members of an object. -/
def visitMembers (mode : String) : List (String × Json) → Seen (List (String × Json))
  | [] => ([], [])
  | (key, v) :: ms =>
    let (v, found) := visitJson mode v
    let (ms, more) := visitMembers mode ms
    ((key, v) :: ms, found ++ more)

end

/-- The detectors, on properties. -/
def visitMap (mode : String) : Option Properties → Seen (Option Properties)
  | none => (none, [])
  | some members => (visitMembers env mode members).map some id

/-- The page and traffic texts of a context; the device's are not looked at. -/
def visitContext (mode : String) (c : EventContext) : Seen EventContext :=
  let (url, f₁) := visitText env mode c.page.url
  let (title, f₂) := visitText env mode c.page.title
  let (referrer, f₃) := visitText env mode c.page.referrer
  let (source, f₄) := visitText env mode c.traffic.source
  let (medium, f₅) := visitText env mode c.traffic.medium
  let (campaign, f₆) := visitText env mode c.traffic.campaign
  let (term, f₇) := visitText env mode c.traffic.term
  let (content, f₈) := visitText env mode c.traffic.content
  ({ c with page := ⟨url, title, referrer⟩, traffic := ⟨source, medium, campaign, term, content⟩ },
    f₁ ++ f₂ ++ f₃ ++ f₄ ++ f₅ ++ f₆ ++ f₇ ++ f₈)

/-- The detectors, on an event. -/
def visitEvent (mode : String) (event : IncomingEvent) : Seen IncomingEvent :=
  let (properties, f₁) := visitMap env mode event.properties
  let (sessionProperties, f₂) := visitMap env mode event.sessionProperties
  let items := event.items.map (visitMembers env mode)
  let context := event.context.map (visitContext env mode)
  let (name, f₃) := visitText env mode event.name
  ({ event with
      properties := properties
      sessionProperties := sessionProperties
      items := items.map Prod.fst
      context := context.map Prod.fst
      name := name },
    f₁ ++ f₂ ++ (items.map Prod.snd).flatten ++ context.elim [] Prod.snd ++ f₃)

/-- The detectors in the order they are reported in. -/
def piiKinds : List String :=
  ["email", "phone", "resident_number", "payment_card", "credential", "long_digits"]

/-- The request after the inspection, how often a detector spoke, and which. -/
def protectPii (req : CollectRequest) (configuredMode : String) :
    CollectRequest × Nat × List String :=
  let mode := piiMode env configuredMode
  let (userProperties, f₁) := visitMap env mode req.userProperties
  let (sessionProperties, f₂) := visitMap env mode req.sessionProperties
  let (context, f₃) := visitContext env mode req.context
  let events := req.events.map (visitEvent env mode)
  let identifiers := (maskPiiString env req.visitorId).2 ++ (maskPiiString env req.sessionId).2
  let userFound := maskUserId env req.userId
  let found := f₁ ++ f₂ ++ f₃ ++ (events.map Prod.snd).flatten ++ identifiers ++ userFound
  let labels := piiKinds.filter (· ∈ found)
  let events := events.map Prod.fst
  ({ req with
      userProperties := userProperties
      sessionProperties := sessionProperties
      context := context
      userId := if userFound ≠ [] ∧ (mode = "mask" ∨ mode = "reject") then "" else req.userId
      events :=
        if 0 < found.length ∧ mode = "warn" then
          events.map (withWarnings "_momento_pii_warnings" labels)
        else events },
    found.length, labels)

/-! ## §5. What is kept. -/

/-- The two addresses of a context. -/
def sanitizeContext (privacy : Policy) (c : EventContext) : EventContext :=
  { c with page := { c.page with
      url := sanitizeUrl env c.page.url privacy
      referrer := sanitizeUrl env c.page.referrer privacy } }

/-- Blocked properties go, addresses are cleaned. -/
def filterEvent (privacy : Policy) (event : IncomingEvent) : IncomingEvent :=
  let filtered (p : Option Properties) := filteredProperties env p privacy.blockedProperties
  { event with
    properties := some (filtered event.properties)
    sessionProperties := some (filtered event.sessionProperties)
    items := event.items.map fun item => filtered (some item)
    context := event.context.map (sanitizeContext env privacy) }

/-- `applyPrivacyBeforeQueue`. -/
def applyPrivacyBeforeQueue (privacy : Policy) (req : CollectRequest) : CollectRequest :=
  { req with
    userId := if privacy.collectUserId then req.userId else ""
    userProperties := some (filteredProperties env req.userProperties privacy.blockedProperties)
    sessionProperties :=
      some (filteredProperties env req.sessionProperties privacy.blockedProperties)
    context := sanitizeContext env privacy req.context
    events := req.events.map (filterEvent env privacy) }

/-- The client's address as it is queued. -/
def queuedIp (privacy : Policy) (clientIp : String) : String :=
  if privacy.ipAnonymization then
    ((env.parseIp clientIp).map anonymizeIp).elim "" env.ipString
  else clientIp

end Pii

/-! ## §6. The decision. -/

/-- The arguments of `Accept`. -/
structure AcceptCall where
  request : CollectRequest
  origin : String
  clientIp : String
  userAgent : String

/-- What one call reads from the clock and the inbox's sequence. -/
structure AcceptReadings where
  /-- `time.Now()`, for `ReceivedUnix`. -/
  received : Instant
  /-- `time.Now()`, for the date the counters are booked under. -/
  dated : Instant
  /-- `now()` of the transaction. -/
  queued : Instant
  /-- `nextval` of the inbox's id. -/
  inboxId : Nat

/-- What goes into the inbox. -/
structure Admission where
  siteId : Uuid
  site : Site
  payload : InboxPayload

/-- `if req.Environment == ""`. -/
def CollectRequest.withEnvironment (req : CollectRequest) : CollectRequest :=
  if req.environment = "" then { req with environment := "prd" } else req

/-- The checks up to the contract mode of the environment. -/
def admitToSite (env : Platform) (config : Config) (req : CollectRequest) (origin : String) :
    Except Turned (Uuid × Site × ContractMode) := do
  checkShape env req
  match siteForCollect config req.siteId with
  | none => throw (.refused "unknown site")
  | some (siteId, site) =>
    checkKey env site req.trackingKey origin
    if config.maxEvents < req.events.length then
      throw (.refused ("at most " ++ toString config.maxEvents
        ++ " events are accepted per request"))
    match contractModeOf config siteId req.environment with
    | none => throw (.refused "unknown or inactive environment")
    | some mode => return (siteId, site, mode)

/-- The payload of a request whose contracts were checked, unless personal data
in it is refused. -/
def inspected (env : Platform) (privacy : Policy) (siteId : Uuid) (site : Site)
    (req : CollectRequest) (call : AcceptCall) (now : Instant) : Except Turned InboxPayload :=
  let (safe, detected, kinds) := protectPii env req privacy.piiDetectionMode
  if 0 < detected ∧ privacy.piiDetectionMode = "reject" then
    .error (.pii siteId site safe.environment safe.events kinds)
  else
    .ok
      { request := applyPrivacyBeforeQueue env privacy safe
        clientIp := queuedIp env privacy call.clientIp
        origin := call.origin
        userAgent := if privacy.collectUserAgent then call.userAgent else ""
        receivedUnix := now / 1000
        privacyBlocked := countPrivacyBlocked env req privacy.blockedProperties
        piiDetected := detected
        userIdRefused := trimSpace req.userId ≠ "" && trimSpace safe.userId = "" }

/-- **`Accept` up to its transaction**: the payload it queues, or why not. -/
def accept (env : Platform) (config : Config) (call : AcceptCall) (now : Instant) :
    Except Turned Admission := do
  let req := call.request.withEnvironment
  let (siteId, site, mode) ← admitToSite env config req call.origin
  match checkContracts config siteId mode req.events with
  | .error (event, warnings) => throw (.contract siteId site req.environment event warnings)
  | .ok events =>
    match config.privacy with
    | .error message => throw (.refused ("privacy policy could not be read: " ++ message))
    | .ok privacy =>
      let payload ← inspected env privacy siteId site { req with events := events } call now
      return ⟨siteId, site, payload⟩

/-- The error the client is told. -/
def Turned.message : Turned → String
  | .refused message => message
  | .contract _ _ _ event warnings =>
    "schema validation failed for " ++ event.name ++ ": " ++ "; ".intercalate warnings
  | .pii _ _ _ _ _ => "PII detected by privacy policy"

/-! ## §7. The writes. -/

/-- The site's local date; the server's where its timezone is unknown. -/
def receivedDate (env : Platform) (site : Site) (now : Instant) : Date :=
  env.localDate (if env.loadLocation site.timezone then site.timezone else "Local") now

/-- One transaction `Accept` sends. -/
inductive AcceptWrite where
  | rejection (key : QualityKey) (piiDetected : Nat)
  | issue (issue : QualityIssue)
  | admission (a : Admission) (readings : AcceptReadings)

/-- The statements of a rejection, each its own transaction. -/
def Turned.writes (env : Platform) (now : Instant) : Turned → List AcceptWrite
  | .refused _ => []
  | .contract siteId site environment event warnings =>
    [.rejection ⟨⟨siteId, receivedDate env site now, environment⟩, event.name⟩ 0,
      .issue ⟨siteId, environment, event.name, "CONTRACT_REJECTED", "error",
        "; ".intercalate warnings, .contract warnings event.contractVersion⟩]
  | .pii siteId site environment events kinds =>
    events.map (fun event =>
        .rejection ⟨⟨siteId, receivedDate env site now, environment⟩, event.name⟩ 1)
      ++ [.issue ⟨siteId, environment, "", "PII_REJECTED", "error",
          "Event rejected by the PII policy", .detected kinds⟩]

/-- What a call has to write once its decision is made. -/
def AcceptCall.writes (env : Platform) (config : Config) (call : AcceptCall)
    (readings : AcceptReadings) : List AcceptWrite :=
  match accept env config call readings.received with
  | .error turned => turned.writes env readings.dated
  | .ok admission => if env.storesJson admission.payload then [.admission admission readings] else []

/-- The counters one received event adds. -/
def receivedQuality (event : IncomingEvent) : Quality where
  received := 1
  warnings := if (propertyOf event.properties "_momento_contract_warnings").isSome then 1 else 0

/-- The received counters of the events, one statement each. -/
def countReceived (day : DayKey) (events : List IncomingEvent) (s : Store) : Store :=
  events.foldl (fun s event => s.addQuality ⟨day, event.name⟩ (receivedQuality event)) s

/-- **The transaction of an admission**: the received counters and the inbox row,
under the id the sequence gave.  The payload is read back as it was written. -/
def Admission.queue (env : Platform) (a : Admission) (readings : AcceptReadings) (db : Database) :
    Database :=
  if readings.inboxId ∈ db.inbox then db
  else
    { db with
      store := countReceived
        ⟨a.siteId, receivedDate env a.site readings.dated, a.payload.request.environment⟩
        a.payload.request.events db.store
      inbox := AList.insert readings.inboxId
        ⟨a.siteId, .ok a.payload.reload, 0, readings.queued, none, none⟩ db.inbox }

/-- The database after a transaction of `Accept` committed. -/
def AcceptWrite.run (env : Platform) (db : Database) : AcceptWrite → Database
  | .rejection key piiDetected =>
    { db with
      store := db.store.addQuality key { received := 1, rejected := 1, piiDetected := piiDetected } }
  | .issue row =>
    { db with store := { db.store with dataQualityIssues := row :: db.store.dataQualityIssues } }
  | .admission a readings => a.queue env readings db

/-! ## §8. What an admission says. -/

/-- **The rule of `accept`**: everything an admitted request went through. -/
theorem accept_ok {env : Platform} {config : Config} {call : AcceptCall} {now : Instant}
    {a : Admission} (h : accept env config call now = .ok a) :
    ∃ mode events privacy,
      admitToSite env config call.request.withEnvironment call.origin = .ok (a.siteId, a.site, mode)
      ∧ checkContracts config a.siteId mode call.request.withEnvironment.events = .ok events
      ∧ config.privacy = .ok privacy
      ∧ inspected env privacy a.siteId a.site
          { call.request.withEnvironment with events := events } call now = .ok a.payload := by
  unfold accept at h
  cases hsite : admitToSite env config call.request.withEnvironment call.origin with
  | error e => simp [hsite, bind, Except.bind] at h
  | ok x =>
    obtain ⟨siteId, site, mode⟩ := x
    simp only [hsite, bind, Except.bind] at h
    cases hcontracts : checkContracts config siteId mode call.request.withEnvironment.events with
    | error e =>
      rw [hcontracts] at h
      cases h
    | ok events =>
      rw [hcontracts] at h
      cases hprivacy : config.privacy with
      | error message =>
        rw [hprivacy] at h
        cases h
      | ok privacy =>
        simp only [hprivacy] at h
        cases hpayload : inspected env privacy siteId site
            { call.request.withEnvironment with events := events } call now with
        | error e =>
          rw [hpayload] at h
          cases h
        | ok payload =>
          rw [hpayload] at h
          obtain rfl := Except.ok.inj h
          exact ⟨mode, events, privacy, rfl, hcontracts, rfl, hpayload⟩

/-- The event after its contract was looked at, with the objections noted in warn mode. -/
def notedContract (config : Config) (siteId : Uuid) (mode : ContractMode) (event : IncomingEvent) :
    IncomingEvent :=
  let (event, warnings, strictest) := checkedContract config siteId mode event
  if warnings ≠ [] ∧ strictest = .warn then withWarnings "_momento_contract_warnings" warnings event
  else event

/-- Where no event is refused, each is noted alone. -/
theorem checkContracts_eq_map {config : Config} {siteId : Uuid} {mode : ContractMode} :
    ∀ {events checked : List IncomingEvent}, checkContracts config siteId mode events = .ok checked →
      checked = events.map (notedContract config siteId mode) := by
  intro events
  induction events with
  | nil =>
    intro checked h
    obtain rfl := Except.ok.inj h
    rfl
  | cons event rest ih =>
    intro checked h
    rw [checkContracts] at h
    simp only at h
    split at h
    · cases h
    cases hrest : checkContracts config siteId mode rest with
    | error e =>
      rw [hrest] at h
      cases h
    | ok more =>
      rw [hrest] at h
      obtain rfl := Except.ok.inj h
      rw [List.map_cons, ih hrest]
      rfl

theorem CollectRequest.withEnvironment_ne (req : CollectRequest) :
    req.withEnvironment.environment ≠ "" := by
  unfold CollectRequest.withEnvironment
  split
  · simp
  · assumption

/-- The environment of an inspected payload is the request's. -/
theorem inspected_environment {env : Platform} {privacy : Policy} {siteId : Uuid} {site : Site}
    {req : CollectRequest} {call : AcceptCall} {now : Instant} {payload : InboxPayload}
    (h : inspected env privacy siteId site req call now = .ok payload) :
    payload.request.environment = req.environment := by
  unfold inspected at h
  simp only at h
  split at h
  · cases h
  · obtain rfl := Except.ok.inj h
    rfl

/-- The environment of an admitted payload has a name. -/
theorem accept_environment {env : Platform} {config : Config} {call : AcceptCall} {now : Instant}
    {a : Admission} (h : accept env config call now = .ok a) :
    a.payload.request.environment ≠ "" := by
  obtain ⟨mode, events, privacy, -, -, -, hpayload⟩ := accept_ok h
  rw [inspected_environment hpayload]
  exact call.request.withEnvironment_ne

end Momento
