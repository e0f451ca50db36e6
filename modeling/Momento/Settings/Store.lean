/-
  Momento.Settings.Store

  **THE SETTINGS GROUPS.**  A group is one row with one JSON object.  A write names some
  of its fields: they are checked as they stand in the request, and merged into the
  object that is stored.

  `validateAdminSetting` is a list of checks for each group, a check reads one field;
  the one of `oidc` reads three.
-/
import Momento.Service.Roles
import Momento.Service.Keyring
import Momento.Service.Maintenance

namespace Momento.Settings

open Foundation Momento.Keys

/-- The value of a settings row. -/
abbrev Document := Properties

/-- The table `settings`. -/
abbrev Groups := Table String Document

/-- A parsed URL, as far as settings are checked by it. -/
structure ParsedUrl where
  scheme : String
  user : Bool
  host : String
  path : String
  rawQuery : String
  fragment : String
  deriving DecidableEq

/-- What the checks take from Go's library. -/
structure Library where
  /-- `url.Parse`. -/
  parseUrl : String → Option ParsedUrl
  /-- The empty text has no host. -/
  parseUrl_empty : ∀ u, parseUrl "" = some u → u.host = ""
  /-- `net.ParseCIDR` takes the text. -/
  parseCidr : String → Bool
  /-- `strconv.Quote`. -/
  quote : String → String
  /-- A text PostgreSQL casts to `int`. -/
  castsToInt : String → Bool

/-- `strings.Contains`. -/
def containsText (part : List Char) : List Char → Bool
  | [] => part.isEmpty
  | c :: text => part.isPrefixOf (c :: text) || containsText part text

/-! ## §1. Text of a member. -/

/-- The decimal notation of a stored number. -/
def decimalText (x : FiniteDouble) : String :=
  if x.value = 0 then "0"
  else
    let (digits, e) := decimalDigits (Binary64.shortest |x.value|)
    let body : List Char :=
      if e < 0 then '0' :: '.' :: List.replicate (e.natAbs - 1) '0' ++ digits
      else
        let whole := digits.take (e.natAbs + 1)
        let padding := List.replicate (e.natAbs + 1 - digits.length) '0'
        match digits.drop (e.natAbs + 1) with
        | [] => whole ++ padding
        | ds => whole ++ '.' :: ds
    String.ofList (if x.value < 0 then '-' :: body else body)

section
variable (lib : Library)

mutual

/-- The text of a `jsonb` value. -/
def jsonbText : Json → String
  | .null => "null"
  | .bool b => toString b
  | .num x => decimalText x
  | .str s => lib.quote s
  | .arr items => "[" ++ ", ".intercalate (itemTexts items) ++ "]"
  | .obj members => "\x7b" ++ ", ".intercalate (memberTexts members) ++ "\x7d"
  | .strs texts => "[" ++ ", ".intercalate (texts.map lib.quote) ++ "]"

/-- The items as texts. -/
def itemTexts : List Json → List String
  | [] => []
  | v :: vs => jsonbText v :: itemTexts vs

/-- The members as texts. -/
def memberTexts : List (String × Json) → List String
  | [] => []
  | (key, v) :: ms => (lib.quote key ++ ": " ++ jsonbText v) :: memberTexts ms

end

/-- `coalesce(value->>'name','')`. -/
def fieldText (value : Document) (name : String) : String :=
  match value.get name with
  | none => ""
  | some .null => ""
  | some (.str s) => s
  | some other => jsonbText lib other

/-! ## §2. `validateAdminSetting`. -/

/-- A check of one field. -/
structure FieldCheck where
  field : String
  test : Option Json → Except String Unit

/-- The check of a document. -/
def FieldCheck.run (check : FieldCheck) (value : Document) : Except String Unit := check.test (value.get check.field)

/-- The checks in their order, up to the first that fails. -/
def runChecks : List FieldCheck → Document → Except String Unit
  | [], _ => .ok ()
  | check :: rest, value =>
    match check.run value with
    | .error message => .error message
    | .ok () => runChecks rest value

/-- `number`. -/
def number (name : String) (min max : Nat) : FieldCheck where
  field := name
  test
    | none => .ok ()
    | some (.num x) =>
      if x.value < min ∨ (max : ℚ) < x.value then
        .error (name ++ " must be between " ++ toString min ++ " and " ++ toString max)
      else .ok ()
    | some _ => .error (name ++ " must be between " ++ toString min ++ " and " ++ toString max)

/-- An absolute HTTP(S) URL. -/
def isHttpUrl (raw : String) : Bool :=
  match lib.parseUrl raw with
  | none => false
  | some u => (u.scheme = "http" || u.scheme = "https") && u.host ≠ ""

/-- `public_url`. -/
def publicUrlCheck : FieldCheck where
  field := "public_url"
  test
    | some (.str raw) =>
      if raw ≠ "" ∧ !isHttpUrl lib raw then .error "public_url must be an absolute HTTP(S) URL" else .ok ()
    | _ => .ok ()

/-- `validMCPResource`. -/
def validMcpResource (raw : String) : Bool :=
  match lib.parseUrl raw with
  | none => false
  | some u =>
    u.host ≠ "" && !u.user && u.rawQuery = "" && u.fragment = "" && (u.scheme = "http" || u.scheme = "https")
      && u.path = "/mcp"

/-- `resource`. -/
def resourceCheck : FieldCheck where
  field := "resource"
  test
    | none => .ok ()
    | some (.str raw) =>
      if trimSpace raw ≠ "" ∧ !validMcpResource lib (trimSpace raw) then
        .error "resource must be an absolute HTTP(S) URL ending in /mcp, such as https://analytics.company.local/mcp"
      else .ok ()
    | some _ => .error "resource must be a string"

/-- `audience` and `scopes`. -/
def spaceSeparated (name : String) : FieldCheck where
  field := name
  test
    | none => .ok ()
    | some (.str _) => .ok ()
    | some _ => .error (name ++ " must be a space-separated string")

/-- `pii_detection_mode`. -/
def piiModeCheck : FieldCheck where
  field := "pii_detection_mode"
  test
    | some (.str mode) =>
      if mode ∈ ["detect", "warn", "mask", "reject"] then .ok ()
      else .error "pii_detection_mode must be detect, warn, mask, or reject"
    | none => .ok ()
    | some .null => .ok ()
    | some _ => .error "pii_detection_mode must be a string"

/-- The first complaint about an item. -/
def firstComplaint (complaint : Json → Option String) (items : List Json) : Except String Unit :=
  match items.findSome? complaint with
  | some message => .error message
  | none => .ok ()

/-- A field that is an array of strings, each with a test of its own. -/
def stringsField (name : String) (complaint : String → Option String) : FieldCheck where
  field := name
  test
    | some (.arr items) =>
      firstComplaint (fun
        | .str s => complaint s
        | _ => some (name ++ " must contain strings")) items
    | none => .ok ()
    | some .null => .ok ()
    | some (.strs _) => .ok ()
    | some _ => .error (name ++ " must be an array")

/-- `trusted_proxy_cidrs`. -/
def trustedProxyCheck : FieldCheck :=
  stringsField "trusted_proxy_cidrs" fun cidr =>
    if lib.parseCidr cidr then none else some ("invalid trusted proxy CIDR " ++ lib.quote cidr)

/-- `normalizeConnectOrigin`. -/
def normalizeConnectOrigin (value : String) : String :=
  let trimmed := trimSpace value
  if trimmed = "" then ""
  else if trimmed = "ws:" ∨ trimmed = "wss:" ∨ trimmed = "https:" then trimmed
  else
    let trimmed := if containsText "://".toList trimmed.toList then trimmed else "https://" ++ trimmed
    match lib.parseUrl trimmed with
    | none => ""
    | some u =>
      if u.host = "" then ""
      else if u.scheme ∈ ["http", "https", "ws", "wss"] then u.scheme ++ "://" ++ u.host
      else ""

/-- `additional_connect_origins`. -/
def connectOriginsCheck : FieldCheck :=
  stringsField "additional_connect_origins" fun origin =>
    if normalizeConnectOrigin lib origin = "" then
      some ("invalid connect origin " ++ lib.quote origin ++ "; use scheme://host[:port]")
    else none

/-- `engine`. -/
def engineCheck : FieldCheck where
  field := "engine"
  test
    | some (.str "postgres") => .ok ()
    | _ => .error "only the postgres storage engine is available in this release"

/-- A host an automation may call. -/
def hostComplaint : Json → Option String
  | .str host =>
    let host := trimSpace (trimPrefixText "*." host)
    if host = "" ∨ host.toList.any (· ∈ ['/', ':', '@']) then
      some "allowed_webhook_hosts contains an invalid host"
    else none
  | _ => some "allowed_webhook_hosts contains an invalid host"

/-- `allowed_webhook_hosts`. -/
def webhookHostsCheck : FieldCheck where
  field := "allowed_webhook_hosts"
  test
    | some (.arr items) => firstComplaint hostComplaint items
    | none => .ok ()
    | some .null => .ok ()
    | some _ => .error "allowed_webhook_hosts must be an array"

/-- The text of a member, the empty one where it is no string. -/
def stringOr (value : Document) (name : String) : String :=
  match value.get name with
  | some (.str s) => s
  | _ => ""

/-- `enabled, _ := value["enabled"].(bool)`. -/
def isEnabled (value : Document) : Bool :=
  match value.get "enabled" with
  | some (.bool b) => b
  | _ => false

/-- An enabled `oidc` group needs its issuer and its client. -/
def oidcCheck (value : Document) : Except String Unit :=
  if isEnabled value ∧ (!isHttpUrl lib (stringOr value "issuer_url") ∨ stringOr value "client_id" = "") then
    .error "enabled OIDC requires a valid issuer_url and client_id"
  else .ok ()

/-- The checks of a group, `oidc` apart. -/
def checksOf (key : String) : List FieldCheck :=
  match key with
  | "general" => [publicUrlCheck lib]
  | "mcp.oauth" => [resourceCheck lib, spaceSeparated "audience", spaceSeparated "scopes"]
  | "privacy" => [number "raw_event_retention_months" 1 120, number "debug_retention_days" 1 90, piiModeCheck]
  | "security" =>
    [number "collector_rate_limit_per_minute" 1 1000000, number "max_events_per_request" 1 1000,
      number "max_payload_bytes" 1024 10485760, trustedProxyCheck lib, connectOriginsCheck lib]
  | "storage" => [engineCheck]
  | "automation" => [number "delivery_timeout_seconds" 1 60, number "max_entity_ids" 0 1000, webhookHostsCheck]
  | _ => []

/-- `validateAdminSetting`. -/
def validateAdminSetting (key : String) (value : Document) : Except String Unit :=
  if key = "oidc" then oidcCheck lib value else runChecks (checksOf lib key) value

end

/-! ## §3. The pieces of `putSetting`. -/

/-- `allowedSetting`. -/
def allowedSetting (key : String) : Bool :=
  key ∈ ["general", "oidc", "privacy", "storage", "security", "automation", "mcp.oauth"]

/-- What the console shows for a secret. -/
def secretMask : String := "********"

/-- The request leaves the client secret as it was shown. -/
def isMasked (value : Document) : Bool :=
  match value.get "client_secret" with
  | some (.str s) => s = secretMask
  | _ => false

/-- The masked client secret stands for the stored one; with no row to read it stays. -/
def unmask (stored : Option Document) (value : Document) : Document :=
  match stored with
  | none => value
  | some old => Properties.set value "client_secret" ((Properties.get old "client_secret").getD .null)

/-- A client secret in clear text is sealed. -/
def sealClient (c : Cipher) (nonce : Except String String) (value : Document) : Except Refusal Document :=
  match value.get "client_secret" with
  | some (.str plain) =>
    if plain ≠ "" ∧ !isSealed plain ∧ c.enabled then
      match c.encrypt nonce plain with
      | .ok text => .ok (Properties.set value "client_secret" (.str text))
      | .error message => .error ⟨500, "SECRET_SEAL_FAILED", message⟩
    else .ok value
  | _ => .ok value

/-- The resource in the write counts, else the stored one. -/
def resourceOf (storedResource : String) (value : Document) : String :=
  match value.get "resource" with
  | some (.str raw) => raw
  | _ => storedResource

/-- SSO tokens need an issuer and a resource; the texts are those of the stored groups. -/
def checkMcp (issuer publicUrl storedResource : String) (value : Document) : Except Refusal Unit :=
  if trimSpace issuer = "" then
    .error ⟨400, "INVALID_SETTING", "MCP SSO tokens need the Keycloak issuer: set oidc.issuer_url first"⟩
  else if trimSpace (resourceOf storedResource value) = "" ∧ trimSpace publicUrl = "" then
    .error ⟨400, "INVALID_SETTING", "MCP SSO tokens need a resource identifier to check the token audience against: set general.public_url or mcp.oauth.resource first"⟩
  else .ok ()

/-- The fields a write names replace those stored. -/
def merge (stored : Option Document) (value : Document) : Document := Properties.concat (stored.getD []) value

/-- A field of a stored group, as text. -/
def storedText (lib : Library) (groups : Groups) (key name : String) : String :=
  ((groups.lookup key).map fun value => fieldText lib value name).getD ""

/-- `validateAdminSetting`, as `putSetting` answers it. -/
def validated (lib : Library) (key : String) (value : Document) : Except Refusal Unit :=
  match validateAdminSetting lib key value with
  | .error message => .error ⟨400, "INVALID_SETTING", message⟩
  | .ok () => .ok ()

/-! ## §4. `putSetting`. -/

/-- A request: the group, its body, and the nonce it may seal with. -/
structure PutSetting where
  key : String
  body : Except String Document
  nonce : Except String String

/-- The client secret as it will be stored; the row it is read from may not be
readable. -/
def PutSetting.withSecret (c : Cipher) (request : PutSetting) (stored : Option Document) (value : Document) :
    Except Refusal Document :=
  if request.key = "oidc" then
    if isMasked value then .ok (unmask stored value) else sealClient c request.nonce value
  else .ok value

/-- The fields as they will be stored, or why they are refused; `stored` is the row the
old client secret is read from. -/
def PutSetting.prepare (lib : Library) (c : Cipher) (request : PutSetting) (stored : Option Document) :
    Except Refusal Document :=
  if !allowedSetting request.key then .error ⟨400, "UNKNOWN_SETTING", "unsupported setting group"⟩
  else match request.body with
    | .error message => .error ⟨400, "INVALID_PAYLOAD", message⟩
    | .ok body =>
      match request.withSecret c stored body with
      | .error refusal => .error refusal
      | .ok value => (validated lib request.key value).map fun _ => value

/-- A write that switches SSO tokens on is checked against three groups. -/
def PutSetting.needsMcp (request : PutSetting) (value : Document) : Bool :=
  request.key = "mcp.oauth" && isEnabled value

/-- The check of `mcp.oauth` reads three groups. -/
def mcpChecked (lib : Library) (groups : Groups) (value : Document) : Except Refusal Unit :=
  checkMcp (storedText lib groups "oidc" "issuer_url") (storedText lib groups "general" "public_url")
    (storedText lib groups "mcp.oauth" "resource") value

/-- `putSetting`, one request after the other; `readable` says whether the old client
secret could be read. -/
def PutSetting.run (lib : Library) (c : Cipher) (request : PutSetting) (readable : Bool) (groups : Groups) :
    Except Refusal Groups :=
  match request.prepare lib c (if readable then groups.lookup "oidc" else none) with
  | .error refusal => .error refusal
  | .ok value =>
    match if request.needsMcp value then mcpChecked lib groups value else .ok () with
    | .error refusal => .error refusal
    | .ok () => .ok (AList.insert request.key (merge (groups.lookup request.key) value) groups)

/-- A request, and whether its old client secret can be read; refused, it changes
nothing. -/
def afterPut (lib : Library) (c : Cipher) (groups : Groups) (request : PutSetting × Bool) : Groups :=
  match request.1.run lib c request.2 groups with
  | .ok groups' => groups'
  | .error _ => groups

/-- A whole number. -/
def natural (n : Nat) (h : n < 2 ^ 53 := by decide) : Json := .num (Binary64.ofNat n h)

theorem zero_natural : 0 < 2 ^ 53 := by decide

/-- The rows the migrations leave. -/
def seededRows : List (String × Document) :=
  [("general", [("product_name", .str "Momento"), ("public_url", .str ""), ("timezone", .str "Asia/Seoul")]),
    ("oidc",
      [("claim_department", .str "department"), ("claim_email", .str "email"), ("claim_name", .str "name"),
        ("claim_organization", .str "organization"), ("client_id", .str ""), ("client_secret", .str ""),
        ("enabled", .bool false), ("issuer_url", .str ""),
        ("scopes", .arr [.str "openid", .str "profile", .str "email"])]),
    ("privacy",
      [("blocked_properties", .arr [.str "email", .str "phone", .str "resident_number"]),
        ("collect_user_agent", .bool true), ("collect_user_id", .bool true), ("debug_retention_days", natural 7),
        ("do_not_track", .bool true), ("ip_anonymization", .bool true),
        ("masked_parameters", .arr [.str "token", .str "password", .str "email"]),
        ("pii_detection_mode", .str "mask"), ("raw_event_retention_months", natural 13),
        ("strip_query_string", .bool true), ("visitor_profiles", .bool true)]),
    ("storage", [("clickhouse_dsn", .str ""), ("engine", .str "postgres")]),
    ("security",
      [("additional_connect_origins", .arr []), ("collector_rate_limit_per_minute", natural 6000),
        ("max_events_per_request", natural 100), ("max_payload_bytes", natural 262144),
        ("trusted_proxy_cidrs", .arr [])]),
    ("automation",
      [("allowed_webhook_hosts", .arr []), ("delivery_timeout_seconds", natural 10), ("enabled", .bool false),
        ("max_entity_ids", natural 0 zero_natural)]),
    ("mcp.oauth",
      [("audience", .str ""), ("enabled", .bool false), ("resource", .str ""), ("scopes", .str "analytics:read")])]

/-- The settings of a new installation. -/
def seeded : Groups := seededRows.foldr (fun row groups => AList.insert row.1 row.2 groups) ∅

/-! ## §5. What the pieces keep. -/

theorem runChecks_ok_iff {checks : List FieldCheck} {value : Document} :
    runChecks checks value = .ok () ↔ ∀ check ∈ checks, check.run value = .ok () := by
  induction checks with
  | nil => exact ⟨(fun _ _ h => nomatch h), fun _ => rfl⟩
  | cons check rest ih =>
    unfold runChecks
    cases hrun : check.run value with
    | error message =>
      constructor
      · intro h
        cases h
      · intro h
        have hok := h check List.mem_cons_self
        rw [hrun] at hok
        cases hok
    | ok u =>
      show runChecks rest value = .ok () ↔ _
      rw [ih, List.forall_mem_cons]
      exact ⟨fun h => ⟨hrun, h⟩, fun h => h.2⟩

theorem isHttpUrl_empty (lib : Library) : isHttpUrl lib "" = false := by
  unfold isHttpUrl
  cases hparse : lib.parseUrl "" with
  | none => rfl
  | some u =>
    have hhost := lib.parseUrl_empty u hparse
    simp [hhost]

theorem oidcCheck_ok_iff {lib : Library} {value : Document} : oidcCheck lib value = .ok () ↔
    (isEnabled value = true → isHttpUrl lib (stringOr value "issuer_url") = true ∧ stringOr value "client_id" ≠ "") := by
  unfold oidcCheck
  split
  next h =>
    obtain ⟨henabled, hbad⟩ := h
    constructor
    · intro hok
      cases hok
    · intro hgood
      obtain ⟨hurl, hclient⟩ := hgood henabled
      rcases hbad with hbad | hbad
      · rw [hurl] at hbad
        cases hbad
      · exact absurd hbad hclient
  next h =>
    refine ⟨fun _ henabled => ?_, fun _ => rfl⟩
    constructor
    · by_contra hurl
      exact h ⟨henabled, Or.inl (by simpa using hurl)⟩
    · exact fun hclient => h ⟨henabled, Or.inr hclient⟩

/-- A field of a merged group: the one that was written, else the one stored. -/
theorem get_merge (stored : Option Document) (value : Document) (name : String) :
    Properties.get (merge stored value) name
      = (Properties.get value name).or (stored.bind fun old => Properties.get old name) := by
  unfold merge
  rw [Properties.get_concat]
  cases stored with
  | none => rfl
  | some old => rfl

/-- The client secret alone is written otherwise than the request has it. -/
theorem get_withSecret {c : Cipher} {request : PutSetting} {stored : Option Document} {body value : Document}
    (h : request.withSecret c stored body = .ok value) {name : String} (hname : name ≠ "client_secret") :
    Properties.get value name = Properties.get body name := by
  unfold PutSetting.withSecret at h
  split at h
  · split at h
    · rw [← Except.ok.inj h]
      unfold unmask
      cases stored with
      | none => rfl
      | some old => exact Properties.get_set_of_ne _ hname _
    · unfold sealClient at h
      split at h
      · split at h
        · split at h
          · rw [← Except.ok.inj h]
            exact Properties.get_set_of_ne _ hname _
          · cases h
        · rw [← Except.ok.inj h]
      · rw [← Except.ok.inj h]
  · rw [← Except.ok.inj h]

/-- No field is added. -/
theorem isSome_withSecret {c : Cipher} {request : PutSetting} {stored : Option Document} {body value : Document}
    (h : request.withSecret c stored body = .ok value) (name : String) :
    (Properties.get value name).isSome = (Properties.get body name).isSome := by
  by_cases hname : name = "client_secret"
  · subst hname
    unfold PutSetting.withSecret at h
    split at h
    · split at h
      next hmasked =>
        have hsome : (Properties.get body "client_secret").isSome = true := by
          unfold isMasked at hmasked
          split at hmasked
          next heq =>
            rw [heq]
            rfl
          · cases hmasked
        rw [← Except.ok.inj h, hsome]
        unfold unmask
        cases stored with
        | none => exact hsome
        | some old =>
          show (Properties.get (Properties.set body "client_secret" _) _).isSome = true
          rw [Properties.get_set_self]
          rfl
      · unfold sealClient at h
        split at h
        next heq =>
          split at h
          · split at h
            · rw [← Except.ok.inj h, heq, Properties.get_set_self]
              rfl
            · cases h
          · rw [← Except.ok.inj h]
        · rw [← Except.ok.inj h]
    · rw [← Except.ok.inj h]
  · rw [get_withSecret h hname]

/-- What is prepared: the group is one of the seven, the fields are the body's, and they
pass the group's checks. -/
theorem prepare_ok {lib : Library} {c : Cipher} {request : PutSetting} {stored : Option Document} {value : Document}
    (h : request.prepare lib c stored = .ok value) :
    allowedSetting request.key = true ∧ ∃ body, request.body = .ok body
      ∧ request.withSecret c stored body = .ok value ∧ validateAdminSetting lib request.key value = .ok () := by
  unfold PutSetting.prepare at h
  split at h
  · cases h
  next hallowed =>
    refine ⟨by simpa using hallowed, ?_⟩
    split at h
    · cases h
    next body hbody =>
      split at h
      · cases h
      next value' hvalue =>
        unfold validated at h
        split at h
        · cases h
        next hvalid =>
          cases h
          exact ⟨body, hbody, hvalue, hvalid⟩

/-- **An accepted write**: what was prepared, checked and merged. -/
theorem run_ok {lib : Library} {c : Cipher} {request : PutSetting} {readable : Bool} {groups groups' : Groups}
    (h : request.run lib c readable groups = .ok groups') :
    ∃ value, request.prepare lib c (if readable then groups.lookup "oidc" else none) = .ok value
      ∧ (request.needsMcp value = true → mcpChecked lib groups value = .ok ())
      ∧ groups' = AList.insert request.key (merge (groups.lookup request.key) value) groups := by
  unfold PutSetting.run at h
  split at h
  · cases h
  next value hvalue =>
    split at h
    · cases h
    next hmcp =>
      refine ⟨value, hvalue, ?_, (Except.ok.inj h).symm⟩
      intro hneeds
      rw [if_pos hneeds] at hmcp
      exact hmcp

end Momento.Settings
