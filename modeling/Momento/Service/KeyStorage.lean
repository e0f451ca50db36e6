/-
  Momento.Service.KeyStorage

  **WHERE KEYS ARE STORED.**  A site has a tracking key and a server API key, a
  user has personal API keys.  Each is drawn at random, shown once, and stored as
  a hash, a prefix of fourteen characters, and, where an encryption key is
  configured, a sealed text.  This module has the operations that draw, replace
  and re-seal keys, beside the inbox's world, in which requests present them.

  Who was issued which key is remembered in `issued`, which no table holds.
-/
import Momento.Service.Inbox
import Momento.Service.Maintenance

namespace Momento.Keys

open Foundation

/-! ## §1. Sealing. -/

/-- A key of the ring: its fingerprint, and the cipher with its texts in base 64. -/
structure KeyEntry where
  id : String
  /-- Nonce, plaintext. -/
  sealText : String → String → String
  openText : String → Except String String

/-- The keyring of one process; the first key seals. -/
structure Cipher where
  keys : List KeyEntry

/-- `Prefix`. -/
def sealedMark : String := "enc:v1:"

/-- `Sealed`. -/
def isSealed (value : String) : Bool := sealedMark.toList.isPrefixOf value.toList

/-- The stored form. -/
def sealedText (entry : KeyEntry) (nonce plain : String) : String :=
  sealedMark ++ entry.id ++ ":" ++ entry.sealText nonce plain

namespace Cipher
variable (c : Cipher)

/-- `Enabled`. -/
def enabled : Bool := !c.keys.isEmpty

/-- `Encrypt`; the nonce is drawn, or drawing it fails. -/
def encrypt (nonce : Except String String) (plain : String) : Except String String :=
  if plain = "" then .ok ""
  else match c.keys with
    | [] => .error "secret encryption is disabled: set MOMENTO_ENCRYPTION_KEY"
    | entry :: _ => nonce.map fun nonce => sealedText entry nonce plain

/-- `Decrypt`; a text without the mark is returned unchanged. -/
def decrypt (stored : String) : Except String String :=
  if !isSealed stored then .ok stored
  else
    let rest := stored.toList.drop sealedMark.length
    let id := String.ofList (rest.takeWhile (· ≠ ':'))
    let body := String.ofList (rest.dropWhile (· ≠ ':')).tail
    if ':' ∉ rest ∨ id = "" ∨ body = "" then .error "sealed secret is malformed"
    else if !c.enabled then .error "secret encryption is disabled: set MOMENTO_ENCRYPTION_KEY"
    else match c.keys.find? (fun entry => entry.id = id) with
      | none => .error "stored secret was sealed with a different encryption key"
      | some entry => entry.openText body

/-- `NeedsReseal`. -/
def needsReseal (stored : String) : Bool :=
  match c.keys with
  | [] => false
  | entry :: _ =>
    stored ≠ "" && (!isSealed stored
      || !(sealedMark ++ entry.id ++ ":").toList.isPrefixOf stored.toList)

/-- `sealSecret`. -/
def sealSecret (nonce : Except String String) (value : String) : Option String :=
  if !c.enabled ∨ value = "" then none else (c.encrypt nonce value).toOption

/-- `resealColumn`, for one value. -/
def reseal (nonce : Except String String) (stored : String) : Option String :=
  if !c.needsReseal stored then none
  else (c.decrypt stored >>= c.encrypt nonce).toOption

end Cipher

/-! ## §2. Tokens. -/

/-- Random bytes in unpadded URL-safe base 64: `n` characters. -/
structure Drawn (n : Nat) where
  text : String
  sized : text.length = n

/-- A key and its hash. -/
structure Token where
  plain : String
  hash : String
  shortPrefix : String

/-- `NewToken`. -/
def newToken (env : Platform) (start drawn : String) : Token where
  plain := start ++ drawn
  hash := env.sha256Base64 (start ++ drawn)
  shortPrefix := String.ofList ((start ++ drawn).toList.take 14)

/-! ## §3. The world of keys. -/

/-- The two columns beside a key's hash. -/
structure KeyColumns where
  shortPrefix : String
  secret : Option String

/-- The key columns of a site. -/
structure SiteKeys where
  tracking : KeyColumns
  server : KeyColumns

/-- A row of `api_keys`. -/
structure ApiKey where
  userId : Nat
  name : String
  hash : String
  columns : KeyColumns
  revoked : Bool

/-- A row of `audit_logs`. -/
structure Audit where
  action : String
  resourceType : String
  resourceId : String
  detail : List (String × String)
  deriving DecidableEq

/-- The database, and who was told which key. -/
structure KeyWorld where
  world : World
  siteKeys : Table Uuid SiteKeys
  apiKeys : Table Nat ApiKey
  audits : List Audit
  /-- The keyring of the running process. -/
  cipher : Cipher
  issued : List String

/-- The database and the process before the first site. -/
def KeyWorld.initial (config : Config) : KeyWorld :=
  ⟨World.initial { config with sites := ∅ }, ∅, ∅, [], ⟨[]⟩, []⟩

/-- The body of `createSite`. -/
structure SiteInput where
  name : String
  allowedDomains : List String
  timezone : String
  engagementThresholdSeconds : Int
  /-- The default of the general settings. -/
  defaultTimezone : String

/-- The columns that keep a secret. -/
inductive SecretColumn where
  | tracking
  | server
  | apiKey
  deriving DecidableEq

/-- What can happen. -/
inductive KeyAction where
  | collect (call : AcceptCall) (header : String) (readings : AcceptReadings)
  | write (i : Nat) (commits : Bool)
  | claim (now : Instant)
  | finish (i : Nat) (rounds : Nat → Round) (commits : Bool)
  | createSite (id : Uuid) (siteKey : String) (input : SiteInput) (tracking : Drawn 32)
      (server : Drawn 43) (nonces : SecretColumn → Except String String)
  | rotateSiteKey (id : Uuid) (drawn : Drawn 32) (nonce : Except String String)
  | rotateServerKey (id : Uuid) (drawn : Drawn 43) (nonce : Except String String)
  | createMyKey (id userId : Nat) (name : String) (drawn : Drawn 43) (nonce : Except String String)
  | deleteMyKey (id userId : Nat)
  | rotateMyKey (old new userId : Nat) (drawn : Drawn 43) (nonce : Except String String)
  | reseal (column : SecretColumn) (nonces : Nat → Except String String) (commits : Nat → Bool)
  | rekeyed (counts : List (String × String))
  | restart (cipher : Cipher)

/-- `collect`: the header stands in for a missing key in the body. -/
def withHeader (call : AcceptCall) (header : String) : AcceptCall :=
  if call.request.trackingKey = "" then
    { call with request := { call.request with trackingKey := header } }
  else call

/-! ## §4. Sites. -/

/-- The settings a new site starts with, or why it is not made. -/
def newSite (env : Platform) (siteKey trackingHash serverHash : String) (input : SiteInput) :
    Option Site :=
  let timezone :=
    if input.timezone = "" then
      (if input.defaultTimezone = "" then "Asia/Seoul" else input.defaultTimezone)
    else input.timezone
  let engagement := if input.engagementThresholdSeconds = 0 then 10 else input.engagementThresholdSeconds
  if trimSpace input.name = "" ∨ !env.loadLocation timezone then none
  else if h : engagement < 1 ∨ 300 < engagement then none
  else
    some
      { siteKey := siteKey
        trackingKeyHash := trackingHash
        serverApiKeyHash := serverHash
        allowedDomains := normalizeDomains env input.allowedDomains
        active := true
        timezone := timezone
        engagementThresholdSeconds := engagement.toNat
        thresholdChecked := by omega }

/-- The three environments of a new site. -/
def newEnvironments (id : Uuid) : List (EnvironmentKey × SiteEnvironment) :=
  [(⟨id, "dev"⟩, ⟨.allow, 50000, true⟩), (⟨id, "stg"⟩, ⟨.warn, 25000, true⟩),
    (⟨id, "prd"⟩, ⟨.warn, 10000, true⟩)]

namespace Config

/-- `INSERT INTO sites`, then the environments that are not there. -/
def addSite (id : Uuid) (site : Site) (config : Config) : Config :=
  { config with
    sites := AList.insert id site config.sites
    siteEnvironments := (newEnvironments id).foldl
      (fun t e => if e.1 ∈ t then t else AList.insert e.1 e.2 t) config.siteEnvironments }

/-- A site's row is updated. -/
def modifySite (id : Uuid) (f : Site → Site) (config : Config) : Config :=
  { config with sites := config.sites.modifyRows fun k site => if k = id then f site else site }

end Config

namespace KeyWorld
variable (env : Platform) (w : KeyWorld)

/-- The configuration. -/
def config : Config := w.world.db.store.config

/-- The world with another configuration. -/
def withConfig (config : Config) : KeyWorld :=
  { w with world := { w.world with db := { w.world.db with store :=
      { w.world.db.store with config := config } } } }

/-- A row of `audit_logs`. -/
def audit (row : Audit) : KeyWorld := { w with audits := row :: w.audits }

/-- A key is told to its owner. -/
def issue (key : String) : KeyWorld := { w with issued := key :: w.issued }

/-- What is stored beside the hash of a new key. -/
def columnsOf (token : Token) (nonce : Except String String) : KeyColumns :=
  ⟨token.shortPrefix, w.cipher.sealSecret nonce token.plain⟩

/-- `createSite`. -/
def createSite (id : Uuid) (siteKey : String) (input : SiteInput) (tracking : Drawn 32)
    (server : Drawn 43) (nonces : SecretColumn → Except String String) : KeyWorld :=
  let t := newToken env "mom_track_" tracking.text
  let s := newToken env "mom_server_" server.text
  match newSite env siteKey t.hash s.hash input with
  | none => w
  | some site =>
    if id ∈ w.config.sites then w
    else
      let keys : SiteKeys := ⟨w.columnsOf t (nonces .tracking), w.columnsOf s (nonces .server)⟩
      let stored := { w with siteKeys := AList.insert id keys w.siteKeys }.withConfig
        (Config.addSite id site w.config)
      ((stored.issue t.plain).issue s.plain).audit
        ⟨"site.create", "site", toString id.bits.toNat, [("name", input.name)]⟩

/-- `UPDATE sites SET …_hash=$2, …_prefix=$3, …_secret=$4 WHERE id=$1`. -/
def updateKey (id : Uuid) (site : Site → Site) (keys : SiteKeys → SiteKeys) : KeyWorld :=
  { w with siteKeys := w.siteKeys.modifyRows fun k row => if k = id then keys row else row }.withConfig
    (Config.modifySite id site w.config)

/-- `rotateSiteKey`. -/
def rotateSiteKey (id : Uuid) (drawn : Drawn 32) (nonce : Except String String) : KeyWorld :=
  let t := newToken env "mom_track_" drawn.text
  if id ∈ w.config.sites then
    ((w.updateKey id (fun site => { site with trackingKeyHash := t.hash })
      fun row => { row with tracking := w.columnsOf t nonce }).issue t.plain).audit
        ⟨"site.key.rotate", "site", toString id.bits.toNat, []⟩
  else w

/-- `rotateServerKey`. -/
def rotateServerKey (id : Uuid) (drawn : Drawn 43) (nonce : Except String String) : KeyWorld :=
  let t := newToken env "mom_server_" drawn.text
  if id ∈ w.config.sites then
    ((w.updateKey id (fun site => { site with serverApiKeyHash := t.hash })
      fun row => { row with server := w.columnsOf t nonce }).issue t.plain).audit
        ⟨"site.server_key.rotate", "site", toString id.bits.toNat, []⟩
  else w

/-! ## §5. Personal keys. -/

/-- `UNIQUE(key_hash)` refuses the hash. -/
def hashTaken (hash : String) : Bool := w.apiKeys.entries.any fun e => e.2.hash = hash

/-- `INSERT INTO api_keys`. -/
def addApiKey (id userId : Nat) (name : String) (token : Token) (nonce : Except String String) :
    KeyWorld :=
  let row : ApiKey := ⟨userId, name, token.hash, w.columnsOf token nonce, false⟩
  { w with apiKeys := AList.insert id row w.apiKeys }.issue token.plain

/-- `createMyKey`. -/
def createMyKey (id userId : Nat) (name : String) (drawn : Drawn 43) (nonce : Except String String) :
    KeyWorld :=
  let name := if trimSpace name = "" then "Personal API key" else name
  let t := newToken env "mom_key_" drawn.text
  if id ∈ w.apiKeys ∨ w.hashTaken t.hash then w
  else (w.addApiKey id userId name t nonce).audit ⟨"api_key.create", "api_key", toString id,
    [("name", name)]⟩

/-- A key of the user that is in force. -/
def liveKey (id userId : Nat) : Option ApiKey :=
  (w.apiKeys.lookup id).filter fun row => row.userId = userId && !row.revoked

/-- An API key is revoked. -/
def revoke (id : Nat) : KeyWorld :=
  { w with apiKeys := w.apiKeys.modifyRows fun k row =>
      if k = id then { row with revoked := true } else row }

/-- `deleteMyKey`. -/
def deleteMyKey (id userId : Nat) : KeyWorld :=
  if (w.liveKey id userId).isSome then
    (w.revoke id).audit ⟨"api_key.revoke", "api_key", toString id, []⟩
  else w

/-- `rotateMyKey`. -/
def rotateMyKey (old new userId : Nat) (drawn : Drawn 43) (nonce : Except String String) :
    KeyWorld :=
  match w.liveKey old userId with
  | none => w
  | some row =>
    let t := newToken env "mom_key_" drawn.text
    if new ∈ w.apiKeys ∨ w.hashTaken t.hash then w
    else ((w.revoke old).addApiKey new userId row.name t nonce).audit
      ⟨"api_key.rotate", "api_key", toString new, [("replaces", toString old)]⟩

/-! ## §6. Re-encryption. -/

/-- The columns under the primary. -/
def resealed (nonce : Except String String) (columns : KeyColumns) : KeyColumns :=
  { columns with secret := columns.secret.map fun stored =>
      (w.cipher.reseal nonce stored).getD stored }

/-- `resealColumn`; the update of each row is a transaction of its own. -/
def reseal (column : SecretColumn) (nonces : Nat → Except String String) (commits : Nat → Bool) :
    KeyWorld :=
  let next (id : Nat) (columns : KeyColumns) : KeyColumns :=
    if commits id then w.resealed (nonces id) columns else columns
  match column with
  | .tracking => { w with siteKeys := w.siteKeys.modifyRows fun k row =>
    { row with tracking := next k.bits.toNat row.tracking } }
  | .server => { w with siteKeys := w.siteKeys.modifyRows fun k row =>
    { row with server := next k.bits.toNat row.server } }
  | .apiKey => { w with apiKeys := w.apiKeys.modifyRows fun k row =>
    { row with columns := next k row.columns } }

/-- **A step.** -/
def step : KeyAction → KeyWorld
  | .collect call header readings =>
    { w with world := w.world.step env (.call (withHeader call header) readings) }
  | .write i commits => { w with world := w.world.step env (.write i commits) }
  | .claim now => { w with world := w.world.step env (.claim now) }
  | .finish i rounds commits => { w with world := w.world.step env (.finish i rounds commits) }
  | .createSite id siteKey input tracking server nonces =>
    w.createSite env id siteKey input tracking server nonces
  | .rotateSiteKey id drawn nonce => w.rotateSiteKey env id drawn nonce
  | .rotateServerKey id drawn nonce => w.rotateServerKey env id drawn nonce
  | .createMyKey id userId name drawn nonce => w.createMyKey env id userId name drawn nonce
  | .deleteMyKey id userId => w.deleteMyKey id userId
  | .rotateMyKey old new userId drawn nonce => w.rotateMyKey env old new userId drawn nonce
  | .reseal column nonces commits => w.reseal column nonces commits
  | .rekeyed counts => w.audit ⟨"encryption.rekey", "setting", "encryption", counts⟩
  | .restart cipher => { w with cipher := cipher }

end KeyWorld

end Momento.Keys
