/-
  Momento.Service.KeySecrecy

  **KEYS ARE NEVER STORED READABLE.**  Two things are asked of every history.  A
  key's own columns show its hash, its prefix and a sealed text (`Concealed`).
  And what can be read beside them does not depend on what the keys are: two
  histories that differ in nothing but the keys leave the same readable tables.

  Key management and processing meet both.  `Accept` does not: the key travels in
  the request, the request is queued as it came, and the inbox row and its copy
  in the dead letters show the key to whoever can read them.  A history meets
  both when no request it admits has a key (`Unkeyed`).
-/
import Momento.Service.KeyIndependence
import Momento.Foundation.Runs

namespace Momento.Keys

open Foundation

/-! ## §1. What can be read. -/

/-- A personal key's row without the key's columns. -/
structure ApiKeyFacts where
  userId : Nat
  name : String
  revoked : Bool

/-- **The readable tables**: all there is but hashes, prefixes and sealed texts. -/
structure Readable where
  world : World
  apiKeys : Table Nat ApiKeyFacts
  audits : List Audit

/-- What of an API key is no key. -/
def factsOf (row : ApiKey) : ApiKeyFacts := ⟨row.userId, row.name, row.revoked⟩

namespace Readable

/-- A row of `audit_logs`. -/
def audit (r : Readable) (row : Audit) : Readable := { r with audits := row :: r.audits }

/-- Another configuration. -/
def withConfig (r : Readable) (config : Config) : Readable :=
  { r with world := { r.world with db := { r.world.db with store := { r.world.db.store with
      config := config } } } }

/-- `createSite`, as far as it is no key. -/
def createSite (r : Readable) (id : Uuid) (site : Site) (name : String) : Readable :=
  (r.withConfig (Config.addSite id site r.world.db.store.config)).audit
    ⟨"site.create", "site", toString id.bits.toNat, [("name", name)]⟩

/-- An API key in use. -/
def liveKey (r : Readable) (id userId : Nat) : Option ApiKeyFacts :=
  (r.apiKeys.lookup id).filter fun row => row.userId = userId && !row.revoked

/-- An API key is revoked. -/
def revoke (r : Readable) (id : Nat) : Readable :=
  { r with apiKeys := r.apiKeys.modifyRows fun k row =>
      if k = id then { row with revoked := true } else row }

/-- An API key is added. -/
def addApiKey (r : Readable) (id userId : Nat) (name : String) : Readable :=
  { r with apiKeys := AList.insert id ⟨userId, name, false⟩ r.apiKeys }

end Readable

namespace KeyWorld
variable (env : Platform) (w w' : KeyWorld)

/-- All that is no key. -/
def readable : Readable where
  world := blankWorld w.world
  apiKeys := w.apiKeys.filterMapRows fun _ row => some (factsOf row)
  audits := w.audits

/-- The request is turned away, or has no key. -/
def Unkeyed : KeyAction → Prop
  | .collect call header readings =>
    ∀ a, accept env w.config (withHeader call header) readings.received = .ok a →
      (withHeader call header).request.trackingKey = ""
  | _ => True

/-- **Two actions that differ in keys alone**, each in its world: the keys drawn,
the keys presented, the sealing. -/
inductive Alike : KeyAction → KeyAction → Prop
  | collect {call call' : AcceptCall} {header header' key : String} (readings : AcceptReadings)
      (hcall : withHeader call' header' = withKey (withHeader call header) key)
      (hpresent : key = "" ↔ (withHeader call header).request.trackingKey = "")
      (htaken : TakenAlike env w.config w'.config (withHeader call header) key) :
      Alike (.collect call header readings) (.collect call' header' readings)
  | write (i : Nat) (commits : Bool) : Alike (.write i commits) (.write i commits)
  | claim (now : Instant) : Alike (.claim now) (.claim now)
  | finish (i : Nat) (rounds : Nat → Round) (commits : Bool) :
      Alike (.finish i rounds commits) (.finish i rounds commits)
  | createSite (id : Uuid) (siteKey : String) (input : SiteInput) (tracking tracking' : Drawn 32)
      (server server' : Drawn 43) (nonces nonces' : SecretColumn → Except String String) :
      Alike (.createSite id siteKey input tracking server nonces)
        (.createSite id siteKey input tracking' server' nonces')
  | rotateSiteKey (id : Uuid) (drawn drawn' : Drawn 32) (nonce nonce' : Except String String) :
      Alike (.rotateSiteKey id drawn nonce) (.rotateSiteKey id drawn' nonce')
  | rotateServerKey (id : Uuid) (drawn drawn' : Drawn 43) (nonce nonce' : Except String String) :
      Alike (.rotateServerKey id drawn nonce) (.rotateServerKey id drawn' nonce')
  | createMyKey (id userId : Nat) (name : String) {drawn drawn' : Drawn 43}
      (nonce nonce' : Except String String)
      (hfree : w'.hashTaken (newToken env "mom_key_" drawn'.text).hash
        = w.hashTaken (newToken env "mom_key_" drawn.text).hash) :
      Alike (.createMyKey id userId name drawn nonce) (.createMyKey id userId name drawn' nonce')
  | deleteMyKey (id userId : Nat) : Alike (.deleteMyKey id userId) (.deleteMyKey id userId)
  | rotateMyKey (old new userId : Nat) {drawn drawn' : Drawn 43}
      (nonce nonce' : Except String String)
      (hfree : w'.hashTaken (newToken env "mom_key_" drawn'.text).hash
        = w.hashTaken (newToken env "mom_key_" drawn.text).hash) :
      Alike (.rotateMyKey old new userId drawn nonce) (.rotateMyKey old new userId drawn' nonce')
  | reseal (column : SecretColumn) (nonces nonces' : Nat → Except String String)
      (commits commits' : Nat → Bool) :
      Alike (.reseal column nonces commits) (.reseal column nonces' commits')
  | rekeyed (counts : List (String × String)) : Alike (.rekeyed counts) (.rekeyed counts)
  | restart (cipher cipher' : Cipher) : Alike (.restart cipher) (.restart cipher')

/-- **Two runs that differ in keys alone.** -/
def AlikeRun : KeyWorld → KeyWorld → List KeyAction → List KeyAction → Prop
  | _, _, [], [] => True
  | w, w', a :: as, b :: bs => w.Alike env w' a b ∧ AlikeRun (w.step env a) (w'.step env b) as bs
  | _, _, _, _ => False

/-- The steps in order. -/
def run (actions : List KeyAction) : KeyWorld := actions.foldl (KeyWorld.step env) w

/-! ## §2. Sites. -/

variable {env w w'}

theorem blankConfig_of_readable (h : w'.readable = w.readable) :
    blankConfig w'.config = blankConfig w.config :=
  congrArg (fun r => r.world.db.store.config) h

theorem mem_sites_of_readable (h : w'.readable = w.readable) (id : Uuid) :
    id ∈ w'.config.sites ↔ id ∈ w.config.sites := by
  have hlookup := congrArg (fun c => c.sites.lookup id) (blankConfig_of_readable h)
  simp only [lookup_blankConfig] at hlookup
  rw [← AList.lookup_isSome, ← AList.lookup_isSome, ← Option.isSome_map (f := blankSite), hlookup,
    Option.isSome_map]

/-- The rest of the world stays when the configuration stays, hashes apart. -/
theorem blankWorld_withConfig {config : Config} (h : blankConfig config = blankConfig w.config) :
    blankWorld (w.withConfig config).world = blankWorld w.world := by
  have hstore : blankStore { w.world.db.store with config := config } = blankStore w.world.db.store := by
    unfold blankStore
    dsimp only
    rw [h]
    rfl
  show ({ blankWorld w.world with
    db := { w.world.db with store := blankStore { w.world.db.store with config := config } } } : World) = _
  rw [hstore]
  rfl

/-- A change of a site's hashes alone. -/
theorem blankConfig_modifySite (id : Uuid) {f : Site → Site}
    (hf : ∀ site, blankSite (f site) = blankSite site) (config : Config) :
    blankConfig (Config.modifySite id f config) = blankConfig config := by
  have hsites : (config.sites.modifyRows fun k site => if k = id then f site else site).modifyRows
        (fun _ site => blankSite site)
      = config.sites.modifyRows fun _ site => blankSite site := by
    apply AList.ext
    show (config.sites.entries.map _).map _ = config.sites.entries.map _
    rw [List.map_map]
    refine List.map_congr_left fun e _ => ?_
    obtain ⟨k, site⟩ := e
    show (⟨k, blankSite (if k = id then f site else site)⟩ : Sigma fun _ : Uuid => Site)
      = ⟨k, blankSite site⟩
    split
    · rw [hf]
    · rfl
  unfold blankConfig Config.modifySite
  dsimp only
  rw [hsites]

theorem blankConfig_addSite {id : Uuid} (site : Site) {config : Config} (h : id ∉ config.sites) :
    blankConfig (Config.addSite id site config)
      = Config.addSite id (blankSite site) (blankConfig config) := by
  unfold blankConfig Config.addSite
  dsimp only
  rw [Table.modifyRows_insert_fresh _ _ h]

/-- A new site's settings do not depend on its hashes. -/
theorem blankSite_newSite (siteKey trackingHash serverHash : String) (input : SiteInput) :
    (newSite env siteKey trackingHash serverHash input).map blankSite = newSite env siteKey "" "" input := by
  unfold newSite
  dsimp only
  rw [apply_ite (Option.map blankSite), apply_dite (Option.map blankSite)]
  rfl

theorem readable_createSite (id : Uuid) (siteKey : String) (input : SiteInput)
    (tracking : Drawn 32) (server : Drawn 43) (nonces : SecretColumn → Except String String) :
    (w.createSite env id siteKey input tracking server nonces).readable
      = match newSite env siteKey "" "" input with
        | none => w.readable
        | some site =>
          if id ∈ w.config.sites then w.readable
          else w.readable.createSite id site input.name := by
  unfold createSite
  dsimp only
  rw [← blankSite_newSite siteKey (newToken env "mom_track_" tracking.text).hash
    (newToken env "mom_server_" server.text).hash]
  cases newSite env siteKey (newToken env "mom_track_" tracking.text).hash
      (newToken env "mom_server_" server.text).hash input with
  | none => rfl
  | some site =>
    dsimp only [Option.map_some]
    split
    · rfl
    next hfresh =>
      exact congrArg (fun config => (w.readable.withConfig config).audit _)
        (blankConfig_addSite site hfresh)

theorem readable_audit (row : Audit) : (w.audit row).readable = w.readable.audit row := rfl

/-- A site's new key is not seen, the audit of it is. -/
theorem readable_updateKey (id : Uuid) (f : Site → Site) (g : SiteKeys → SiteKeys) (key : String)
    (row : Audit) (hf : ∀ site, blankSite (f site) = blankSite site) :
    (((w.updateKey id f g).issue key).audit row).readable = w.readable.audit row := by
  have hworld : blankWorld (w.updateKey id f g).world = blankWorld w.world :=
    blankWorld_withConfig (blankConfig_modifySite id hf w.config)
  show Readable.audit ⟨blankWorld (w.updateKey id f g).world, _, _⟩ row = _
  rw [hworld]
  rfl

theorem readable_rotateSiteKey (id : Uuid) (drawn : Drawn 32) (nonce : Except String String) :
    (w.rotateSiteKey env id drawn nonce).readable
      = if id ∈ w.config.sites then
          w.readable.audit ⟨"site.key.rotate", "site", toString id.bits.toNat, []⟩
        else w.readable := by
  unfold rotateSiteKey
  dsimp only
  split
  · apply readable_updateKey
    exact fun _ => rfl
  · rfl

theorem readable_rotateServerKey (id : Uuid) (drawn : Drawn 43) (nonce : Except String String) :
    (w.rotateServerKey env id drawn nonce).readable
      = if id ∈ w.config.sites then
          w.readable.audit ⟨"site.server_key.rotate", "site", toString id.bits.toNat, []⟩
        else w.readable := by
  unfold rotateServerKey
  dsimp only
  split
  · apply readable_updateKey
    exact fun _ => rfl
  · rfl

/-! ## §3. Personal keys. -/

theorem lookup_readable (id : Nat) : w.readable.apiKeys.lookup id = (w.apiKeys.lookup id).map factsOf := by
  show (w.apiKeys.filterMapRows _).lookup id = _
  rw [Table.lookup_filterMapRows]
  cases w.apiKeys.lookup id with
  | none => rfl
  | some row => rfl

theorem mem_readable (id : Nat) : id ∈ w.readable.apiKeys ↔ id ∈ w.apiKeys := by
  rw [← AList.lookup_isSome, ← AList.lookup_isSome, lookup_readable, Option.isSome_map]

theorem liveKey_readable (id userId : Nat) :
    (w.liveKey id userId).map factsOf = w.readable.liveKey id userId := by
  unfold liveKey Readable.liveKey
  rw [lookup_readable]
  cases w.apiKeys.lookup id with
  | none => rfl
  | some row =>
    rw [Option.map_some, Option.filter_some, Option.filter_some]
    show Option.map factsOf (if _ then _ else _) = if _ then _ else _
    rw [apply_ite (Option.map factsOf)]
    rfl

theorem readable_revoke (id : Nat) : (w.revoke id).readable = w.readable.revoke id := by
  have hkeys : (w.revoke id).readable.apiKeys = (w.readable.revoke id).apiKeys := by
    apply AList.ext
    show (w.apiKeys.entries.map _).filterMap _ = (w.apiKeys.entries.filterMap _).map _
    rw [List.filterMap_map, List.map_filterMap]
    refine List.filterMap_congr fun e _ => ?_
    obtain ⟨k, row⟩ := e
    show some (⟨k, factsOf (if k = id then { row with revoked := true } else row)⟩ :
        Sigma fun _ : Nat => ApiKeyFacts)
      = some ⟨k, if k = id then { factsOf row with revoked := true } else factsOf row⟩
    rw [apply_ite factsOf]
    rfl
  exact congrArg (Readable.mk _ · _) hkeys

theorem readable_addApiKey {id : Nat} (userId : Nat) (name : String) (token : Token)
    (nonce : Except String String) (h : id ∉ w.apiKeys) :
    (w.addApiKey id userId name token nonce).readable = w.readable.addApiKey id userId name :=
  congrArg (Readable.mk _ · _) (Table.filterMapRows_insert_fresh rfl h)

theorem readable_createMyKey (id userId : Nat) (name : String) (drawn : Drawn 43)
    (nonce : Except String String) :
    (w.createMyKey env id userId name drawn nonce).readable
      = if id ∈ w.readable.apiKeys ∨ w.hashTaken (newToken env "mom_key_" drawn.text).hash then w.readable
        else (w.readable.addApiKey id userId
            (if trimSpace name = "" then "Personal API key" else name)).audit
          ⟨"api_key.create", "api_key", toString id,
            [("name", if trimSpace name = "" then "Personal API key" else name)]⟩ := by
  unfold createMyKey
  dsimp only
  simp only [mem_readable]
  split
  · rfl
  next hfree =>
    rw [readable_audit, readable_addApiKey userId _ _ nonce fun hid => hfree (.inl hid)]

theorem readable_deleteMyKey (id userId : Nat) :
    (w.deleteMyKey id userId).readable
      = if (w.readable.liveKey id userId).isSome then
          (w.readable.revoke id).audit ⟨"api_key.revoke", "api_key", toString id, []⟩
        else w.readable := by
  unfold deleteMyKey
  rw [← liveKey_readable, Option.isSome_map]
  split
  · rw [readable_audit, readable_revoke]
  · rfl

theorem mem_revoke (old new : Nat) : new ∈ (w.revoke old).apiKeys ↔ new ∈ w.apiKeys := by
  show new ∈ w.apiKeys.modifyRows _ ↔ _
  rw [← AList.lookup_isSome, ← AList.lookup_isSome, Table.lookup_modifyRows, Option.isSome_map]

theorem readable_rotateMyKey (old new userId : Nat) (drawn : Drawn 43)
    (nonce : Except String String) :
    (w.rotateMyKey env old new userId drawn nonce).readable
      = match w.readable.liveKey old userId with
        | none => w.readable
        | some row =>
          if new ∈ w.readable.apiKeys ∨ w.hashTaken (newToken env "mom_key_" drawn.text).hash then w.readable
          else ((w.readable.revoke old).addApiKey new userId row.name).audit
            ⟨"api_key.rotate", "api_key", toString new, [("replaces", toString old)]⟩ := by
  unfold rotateMyKey
  rw [← liveKey_readable]
  cases w.liveKey old userId with
  | none => rfl
  | some row =>
    dsimp only [Option.map_some]
    simp only [mem_readable]
    split
    · rfl
    next hfree =>
      have hnew : new ∉ (w.revoke old).apiKeys :=
        fun hid => hfree (.inl ((mem_revoke old new).mp hid))
      rw [readable_audit, readable_addApiKey userId _ _ nonce hnew, readable_revoke]
      rfl

/-! ## §4. A step. -/

theorem readable_reseal (column : SecretColumn) (nonces : Nat → Except String String)
    (commits : Nat → Bool) : (w.reseal column nonces commits).readable = w.readable := by
  cases column with
  | tracking => rfl
  | server => rfl
  | apiKey =>
    refine congrArg (Readable.mk _ · _) (AList.ext ?_)
    show (w.apiKeys.entries.map _).filterMap _ = w.apiKeys.entries.filterMap _
    rw [List.filterMap_map]
    rfl

/-- What the readable tables say of the inbox's world, both worlds say. -/
theorem blankWorld_of_readable (h : w'.readable = w.readable) :
    blankWorld w'.world = blankWorld w.world := congrArg Readable.world h

/-- A step of the inbox that commutes with forgetting the hashes. -/
theorem readable_world {next : World → World} (hnext : ∀ v, next (blankWorld v) = blankWorld (next v))
    (h : w'.readable = w.readable) :
    ({ w' with world := next w'.world } : KeyWorld).readable
      = ({ w with world := next w.world } : KeyWorld).readable := by
  show Readable.mk (blankWorld (next w'.world)) w'.readable.apiKeys w'.readable.audits
    = Readable.mk (blankWorld (next w.world)) w.readable.apiKeys w.readable.audits
  rw [← hnext, ← hnext, blankWorld_of_readable h, h]

theorem readable_collect {call call' : AcceptCall} {readings : AcceptReadings}
    (hwrites : (call'.writes env w'.config readings).map blankWrite
      = (call.writes env w.config readings).map blankWrite)
    (h : w'.readable = w.readable) :
    ({ w' with world := w'.world.step env (.call call' readings) } : KeyWorld).readable
      = ({ w with world := w.world.step env (.call call readings) } : KeyWorld).readable := by
  have hstep : ∀ (v : KeyWorld) (c : AcceptCall),
      blankWorld (v.world.step env (.call c readings))
        = { blankWorld v.world with
            calls := (blankWorld v.world).calls
              ++ [(c.writes env v.config readings).map blankWrite] } := by
    intro v c
    show ({ blankWorld v.world with
      calls := (v.world.calls ++ [c.writes env v.config readings]).map (List.map blankWrite) } : World) = _
    rw [List.map_append]
    rfl
  show Readable.mk (blankWorld (w'.world.step env (.call call' readings)))
      w'.readable.apiKeys w'.readable.audits
    = Readable.mk (blankWorld (w.world.step env (.call call readings)))
      w.readable.apiKeys w.readable.audits
  rw [hstep, hstep, hwrites, blankWorld_of_readable h, h]

/-- **One step**: actions that differ in keys alone leave the same readable tables. -/
theorem readable_step {a b : KeyAction} (h : w'.readable = w.readable) (hunkeyed : w.Unkeyed env a)
    (halike : w.Alike env w' a b) : (w'.step env b).readable = (w.step env a).readable := by
  cases halike with
  | @collect call call' header header' key readings hcall hpresent htaken =>
    show ({ w' with world := w'.world.step env (.call (withHeader call' header') readings) } :
      KeyWorld).readable = _
    rw [hcall]
    exact readable_collect
      (writes_alike (blankConfig_of_readable h) htaken hpresent hunkeyed) h
  | write i commits => exact readable_world (write_blank env · i commits) h
  | claim now => exact @readable_world _ _ (World.step env · (.claim now)) (fun _ => rfl) h
  | finish i rounds commits => exact readable_world (finish_blank env · i rounds commits) h
  | createSite id siteKey input tracking tracking' server server' nonces nonces' =>
    show (w'.createSite env id siteKey input tracking' server' nonces').readable
      = (w.createSite env id siteKey input tracking server nonces).readable
    rw [readable_createSite, readable_createSite, h]
    simp only [mem_sites_of_readable h]
  | rotateSiteKey id drawn drawn' nonce nonce' =>
    show (w'.rotateSiteKey env id drawn' nonce').readable
      = (w.rotateSiteKey env id drawn nonce).readable
    rw [readable_rotateSiteKey, readable_rotateSiteKey, h]
    simp only [mem_sites_of_readable h]
  | rotateServerKey id drawn drawn' nonce nonce' =>
    show (w'.rotateServerKey env id drawn' nonce').readable
      = (w.rotateServerKey env id drawn nonce).readable
    rw [readable_rotateServerKey, readable_rotateServerKey, h]
    simp only [mem_sites_of_readable h]
  | createMyKey id userId name nonce nonce' hfree =>
    show (w'.createMyKey env id userId name _ nonce').readable
      = (w.createMyKey env id userId name _ nonce).readable
    rw [readable_createMyKey, readable_createMyKey, h, hfree]
  | deleteMyKey id userId =>
    show (w'.deleteMyKey id userId).readable = (w.deleteMyKey id userId).readable
    rw [readable_deleteMyKey, readable_deleteMyKey, h]
  | rotateMyKey old new userId nonce nonce' hfree =>
    show (w'.rotateMyKey env old new userId _ nonce').readable
      = (w.rotateMyKey env old new userId _ nonce).readable
    rw [readable_rotateMyKey, readable_rotateMyKey, h, hfree]
  | reseal column nonces nonces' commits commits' =>
    show (w'.reseal column nonces' commits').readable = (w.reseal column nonces commits).readable
    rw [readable_reseal, readable_reseal, h]
  | rekeyed counts =>
    show (w'.audit _).readable = (w.audit _).readable
    rw [readable_audit, readable_audit, h]
  | restart cipher cipher' => exact h

/-- **Two runs that differ in keys alone leave the same readable tables.** -/
theorem readable_run (actions : List KeyAction) {actions' : List KeyAction}
    (h : w'.readable = w.readable) (hunkeyed : Along (KeyWorld.step env) (Unkeyed env) w actions)
    (halike : AlikeRun env w w' actions actions') :
    (w'.run env actions').readable = (w.run env actions).readable := by
  induction actions generalizing w w' actions' with
  | nil =>
    cases actions' with
    | nil => exact h
    | cons b bs => exact absurd halike id
  | cons a as ih =>
    cases actions' with
    | nil => exact absurd halike id
    | cons b bs =>
      show ((w'.step env b).run env bs).readable = ((w.step env a).run env as).readable
      exact ih (readable_step h hunkeyed.1 halike.1) hunkeyed.2 halike.2

end KeyWorld

/-! ## §5. The columns of a key. -/

/-- **The three columns of a key**: the hash of a key that was issued, a prefix that
is not all of it, and nothing else but a sealed text. -/
structure Concealed (env : Platform) (issued : List String) (hash : String) (columns : KeyColumns) :
    Prop where
  drawn : ∃ key ∈ issued, hash = env.sha256Base64 key
    ∧ columns.shortPrefix = String.ofList (key.toList.take 14) ∧ 14 < key.length
  secret : ∀ text ∈ columns.secret,
    text = "" ∨ ∃ entry nonce plain, text = sealedText entry nonce plain

section Columns
variable {env : Platform} {issued issued' : List String} {hash : String} {columns : KeyColumns}

theorem Concealed.mono (h : Concealed env issued hash columns) (hsub : issued ⊆ issued') :
    Concealed env issued' hash columns := by
  obtain ⟨key, hkey, hdrawn⟩ := h.drawn
  exact ⟨⟨key, hsub hkey, hdrawn⟩, h.secret⟩

/-- What `Encrypt` gives is empty or sealed. -/
theorem encrypt_sealed {c : Cipher} {nonce : Except String String} {plain text : String}
    (h : c.encrypt nonce plain = .ok text) :
    text = "" ∨ ∃ entry nonce plain, text = sealedText entry nonce plain := by
  unfold Cipher.encrypt at h
  split at h
  · exact .inl (Except.ok.inj h).symm
  split at h
  · cases h
  next entry rest hkeys =>
    cases nonce with
    | error message => cases h
    | ok nonce => exact .inr ⟨entry, nonce, plain, (Except.ok.inj h).symm⟩

theorem sealSecret_sealed {c : Cipher} {nonce : Except String String} {plain text : String}
    (h : c.sealSecret nonce plain = some text) :
    text = "" ∨ ∃ entry nonce plain, text = sealedText entry nonce plain := by
  unfold Cipher.sealSecret at h
  split at h
  · cases h
  cases hencrypt : c.encrypt nonce plain with
  | error message =>
    rw [hencrypt] at h
    cases h
  | ok sealedPlain =>
    rw [hencrypt] at h
    rw [← Option.some.inj h]
    exact encrypt_sealed hencrypt

theorem reseal_sealed {c : Cipher} {nonce : Except String String} {stored text : String}
    (h : c.reseal nonce stored = some text) :
    text = "" ∨ ∃ entry nonce plain, text = sealedText entry nonce plain := by
  unfold Cipher.reseal at h
  split at h
  · cases h
  cases hplain : c.decrypt stored with
  | error message =>
    rw [hplain] at h
    cases h
  | ok plain =>
    rw [hplain] at h
    cases hencrypt : c.encrypt nonce plain with
    | error message => simp [bind, Except.bind, hencrypt, Except.toOption] at h
    | ok sealedPlain =>
      simp only [bind, Except.bind, hencrypt, Except.toOption, Option.some.injEq] at h
      rw [← h]
      exact encrypt_sealed hencrypt

/-- A new key's columns conceal it. -/
theorem concealed_columnsOf (w : KeyWorld) (start drawn : String) (nonce : Except String String)
    (hlength : 14 < (start ++ drawn).length) (hissued : (newToken env start drawn).plain ∈ issued) :
    Concealed env issued (newToken env start drawn).hash
      (w.columnsOf (newToken env start drawn) nonce) where
  drawn := ⟨start ++ drawn, hissued, rfl, rfl, hlength⟩
  secret _ htext := sealSecret_sealed htext

/-- Re-sealing keeps columns concealed. -/
theorem Concealed.resealed (h : Concealed env issued hash columns) (w : KeyWorld)
    (nonce : Except String String) : Concealed env issued hash (w.resealed nonce columns) where
  drawn := h.drawn
  secret := by
    intro text htext
    obtain ⟨stored, hstored, rfl⟩ := Option.map_eq_some_iff.mp htext
    cases hreseal : w.cipher.reseal nonce stored with
    | none => exact h.secret stored hstored
    | some again => exact reseal_sealed hreseal

end Columns

/-- Both keys of a site are concealed. -/
def SiteConcealed (env : Platform) (issued : List String) (site : Site) (keys : SiteKeys) : Prop :=
  Concealed env issued site.trackingKeyHash keys.tracking
    ∧ Concealed env issued site.serverApiKeyHash keys.server

theorem SiteConcealed.mono {env : Platform} {issued issued' : List String} {site : Site}
    {keys : SiteKeys} (h : SiteConcealed env issued site keys) (hsub : issued ⊆ issued') :
    SiteConcealed env issued' site keys := ⟨h.1.mono hsub, h.2.mono hsub⟩

/-- **Every key's columns conceal it.** -/
structure KeyWorld.ColumnsConceal (env : Platform) (w : KeyWorld) : Prop where
  siteKeys : ∀ id row, w.siteKeys.lookup id = some row →
    ∃ site, w.config.sites.lookup id = some site ∧ SiteConcealed env w.issued site row
  sites : ∀ id ∈ w.config.sites, id ∈ w.siteKeys
  apiKeys : ∀ id row, w.apiKeys.lookup id = some row → Concealed env w.issued row.hash row.columns

namespace KeyWorld
variable {env : Platform} {w w' : KeyWorld}

/-- What touches no key's row. -/
theorem ColumnsConceal.of_eq (h : w.ColumnsConceal env) (hconfig : w'.config = w.config)
    (hsiteKeys : w'.siteKeys = w.siteKeys) (hapiKeys : w'.apiKeys = w.apiKeys)
    (hissued : w'.issued = w.issued) : w'.ColumnsConceal env where
  siteKeys := by
    rw [hconfig, hsiteKeys, hissued]
    exact h.siteKeys
  sites := by
    rw [hconfig, hsiteKeys]
    exact h.sites
  apiKeys := by
    rw [hapiKeys, hissued]
    exact h.apiKeys

theorem columnsConceal_initial (config : Config) : (KeyWorld.initial config).ColumnsConceal env where
  siteKeys _ _ h := by cases h
  sites _ h := absurd h (AList.notMem_empty _)
  apiKeys _ _ h := by cases h

/-- The hashes of a new site are those of its tokens. -/
theorem newSite_hashes {siteKey trackingHash serverHash : String} {input : SiteInput} {site : Site}
    (h : newSite env siteKey trackingHash serverHash input = some site) :
    site.trackingKeyHash = trackingHash ∧ site.serverApiKeyHash = serverHash := by
  unfold newSite at h
  obtain ⟨-, h⟩ := Option.ite_none_left_eq_some.mp h
  obtain ⟨_, h⟩ := Option.dite_none_left_eq_some.mp h
  rw [← Option.some.inj h]
  exact ⟨rfl, rfl⟩

/-- A drawn text behind its mark is longer than the prefix shown. -/
theorem drawn_long {n : Nat} (start : String) (drawn : Drawn n) (h : 14 < start.length + n) :
    14 < (start ++ drawn.text).length := by
  rw [String.length_append, drawn.sized]
  exact h

theorem columnsConceal_createSite (h : w.ColumnsConceal env) (id : Uuid) (siteKey : String)
    (input : SiteInput) (tracking : Drawn 32) (server : Drawn 43)
    (nonces : SecretColumn → Except String String) :
    (w.createSite env id siteKey input tracking server nonces).ColumnsConceal env := by
  unfold createSite
  dsimp only
  split
  next => exact h
  next site hsite =>
    split
    next => exact h
    next hfresh =>
      obtain ⟨htracking, hserver⟩ := newSite_hashes hsite
      have hsub : w.issued ⊆ (newToken env "mom_server_" server.text).plain
          :: (newToken env "mom_track_" tracking.text).plain :: w.issued :=
        fun _ hkey => List.mem_cons_of_mem _ (List.mem_cons_of_mem _ hkey)
      refine ⟨?_, ?_, fun other row hrow => (h.apiKeys other row hrow).mono hsub⟩
      · intro other row hrow
        by_cases hother : other = id
        · subst hother
          obtain rfl := Option.some.inj ((AList.lookup_insert _).symm.trans hrow)
          refine ⟨site, AList.lookup_insert _, ?_, ?_⟩
          · rw [htracking]
            exact concealed_columnsOf w _ _ _ (drawn_long _ _ (by decide))
              (List.mem_cons_of_mem _ List.mem_cons_self)
          · rw [hserver]
            exact concealed_columnsOf w _ _ _ (drawn_long _ _ (by decide)) List.mem_cons_self
        · obtain ⟨old, hold, hconcealed⟩ :=
            h.siteKeys other row ((AList.lookup_insert_ne hother).symm.trans hrow)
          exact ⟨old, (AList.lookup_insert_ne hother).trans hold, hconcealed.mono hsub⟩
      · intro other hmem
        rcases AList.mem_insert _ |>.mp hmem with rfl | hold
        · exact (AList.mem_insert _).mpr (.inl rfl)
        · exact (AList.mem_insert _).mpr (.inr (h.sites other hold))

/-- An update of one site's key and of what stands beside it. -/
theorem columnsConceal_updateKey (h : w.ColumnsConceal env) (id : Uuid) (f : Site → Site)
    (g : SiteKeys → SiteKeys) (key : String) (row : Audit)
    (hfg : ∀ site keys, SiteConcealed env (key :: w.issued) site keys →
      SiteConcealed env (key :: w.issued) (f site) (g keys)) :
    (((w.updateKey id f g).issue key).audit row).ColumnsConceal env := by
  have hsub : w.issued ⊆ key :: w.issued := List.subset_cons_self _ _
  refine ⟨?_, ?_, fun other row hrow => (h.apiKeys other row hrow).mono hsub⟩
  · intro other keys hkeys
    have hkeys : (w.siteKeys.modifyRows fun k row => if k = id then g row else row).lookup other
      = some keys := hkeys
    rw [Table.lookup_modifyRows] at hkeys
    obtain ⟨old, hold, rfl⟩ := Option.map_eq_some_iff.mp hkeys
    obtain ⟨site, hsite, hconcealed⟩ := h.siteKeys other old hold
    refine ⟨if other = id then f site else site, ?_, ?_⟩
    · show (w.config.sites.modifyRows fun k site => if k = id then f site else site).lookup other = _
      rw [Table.lookup_modifyRows, hsite]
      rfl
    · split
      · exact hfg site old (hconcealed.mono hsub)
      · exact hconcealed.mono hsub
  · intro other hmem
    have hmem : other ∈ w.config.sites.modifyRows fun k site => if k = id then f site else site := hmem
    show other ∈ w.siteKeys.modifyRows fun k row => if k = id then g row else row
    rw [← AList.lookup_isSome, Table.lookup_modifyRows, Option.isSome_map, AList.lookup_isSome] at hmem ⊢
    exact h.sites other hmem

theorem columnsConceal_rotateSiteKey (h : w.ColumnsConceal env) (id : Uuid) (drawn : Drawn 32)
    (nonce : Except String String) : (w.rotateSiteKey env id drawn nonce).ColumnsConceal env := by
  unfold rotateSiteKey
  dsimp only
  split
  · refine columnsConceal_updateKey h id _ _ _ _ fun site keys hkeys => ⟨?_, hkeys.2⟩
    exact concealed_columnsOf w _ _ nonce (drawn_long _ _ (by decide)) List.mem_cons_self
  · exact h

theorem columnsConceal_rotateServerKey (h : w.ColumnsConceal env) (id : Uuid) (drawn : Drawn 43)
    (nonce : Except String String) : (w.rotateServerKey env id drawn nonce).ColumnsConceal env := by
  unfold rotateServerKey
  dsimp only
  split
  · refine columnsConceal_updateKey h id _ _ _ _ fun site keys hkeys => ⟨hkeys.1, ?_⟩
    exact concealed_columnsOf w _ _ nonce (drawn_long _ _ (by decide)) List.mem_cons_self
  · exact h

theorem columnsConceal_revoke (h : w.ColumnsConceal env) (id : Nat) :
    (w.revoke id).ColumnsConceal env := by
  refine ⟨h.siteKeys, h.sites, ?_⟩
  intro other row hrow
  have hrow : (w.apiKeys.modifyRows fun k row => if k = id then { row with revoked := true } else row).lookup
    other = some row := hrow
  rw [Table.lookup_modifyRows] at hrow
  obtain ⟨old, hold, rfl⟩ := Option.map_eq_some_iff.mp hrow
  split
  · exact h.apiKeys other old hold
  · exact h.apiKeys other old hold

theorem columnsConceal_addApiKey (h : w.ColumnsConceal env) (id userId : Nat) (name : String)
    (drawn : Drawn 43) (nonce : Except String String) :
    (w.addApiKey id userId name (newToken env "mom_key_" drawn.text) nonce).ColumnsConceal env := by
  have hsub : w.issued ⊆ (newToken env "mom_key_" drawn.text).plain :: w.issued :=
    List.subset_cons_self _ _
  refine ⟨?_, h.sites, ?_⟩
  · intro other row hrow
    obtain ⟨site, hsite, hconcealed⟩ := h.siteKeys other row hrow
    exact ⟨site, hsite, hconcealed.mono hsub⟩
  · intro other row hrow
    by_cases hother : other = id
    · subst hother
      obtain rfl := Option.some.inj ((AList.lookup_insert _).symm.trans hrow)
      exact concealed_columnsOf w _ _ nonce (drawn_long _ _ (by decide)) List.mem_cons_self
    · exact (h.apiKeys other row ((AList.lookup_insert_ne hother).symm.trans hrow)).mono hsub

theorem columnsConceal_reseal (h : w.ColumnsConceal env) (column : SecretColumn)
    (nonces : Nat → Except String String) (commits : Nat → Bool) :
    (w.reseal column nonces commits).ColumnsConceal env := by
  have hnext : ∀ id hash columns, Concealed env w.issued hash columns →
      Concealed env w.issued hash
        (if commits id then w.resealed (nonces id) columns else columns) := by
    intro id hash columns hcolumns
    split
    · exact hcolumns.resealed w (nonces id)
    · exact hcolumns
  have hsites : ∀ g : Uuid → SiteKeys → SiteKeys,
      (∀ id site keys, SiteConcealed env w.issued site keys →
        SiteConcealed env w.issued site (g id keys)) →
      ({ w with siteKeys := w.siteKeys.modifyRows g } : KeyWorld).ColumnsConceal env := by
    intro g hg
    refine ⟨?_, ?_, h.apiKeys⟩
    · intro id keys hkeys
      have hkeys : (w.siteKeys.modifyRows g).lookup id = some keys := hkeys
      rw [Table.lookup_modifyRows] at hkeys
      obtain ⟨old, hold, rfl⟩ := Option.map_eq_some_iff.mp hkeys
      obtain ⟨site, hsite, hconcealed⟩ := h.siteKeys id old hold
      exact ⟨site, hsite, hg id site old hconcealed⟩
    · intro id hmem
      show id ∈ w.siteKeys.modifyRows g
      rw [← AList.lookup_isSome, Table.lookup_modifyRows, Option.isSome_map, AList.lookup_isSome]
      exact h.sites id hmem
  cases column with
  | tracking => exact hsites _ fun id site keys hkeys => ⟨hnext _ _ _ hkeys.1, hkeys.2⟩
  | server => exact hsites _ fun id site keys hkeys => ⟨hkeys.1, hnext _ _ _ hkeys.2⟩
  | apiKey =>
    refine ⟨h.siteKeys, h.sites, ?_⟩
    intro id row hrow
    have hrow : (w.apiKeys.modifyRows fun k row => { row with
        columns := if commits k then w.resealed (nonces k) row.columns else row.columns }).lookup id
      = some row := hrow
    rw [Table.lookup_modifyRows] at hrow
    obtain ⟨old, hold, rfl⟩ := Option.map_eq_some_iff.mp hrow
    exact hnext id _ _ (h.apiKeys id old hold)

/-- **One step.** -/
theorem columnsConceal_step (h : w.ColumnsConceal env) (a : KeyAction) :
    (w.step env a).ColumnsConceal env := by
  cases a with
  | collect call header readings => exact h.of_eq (World.step_config _ _ _) rfl rfl rfl
  | write i commits => exact h.of_eq (World.step_config _ _ _) rfl rfl rfl
  | claim now => exact h.of_eq (World.step_config _ _ _) rfl rfl rfl
  | finish i rounds commits => exact h.of_eq (World.step_config _ _ _) rfl rfl rfl
  | createSite id siteKey input tracking server nonces =>
    exact columnsConceal_createSite h id siteKey input tracking server nonces
  | rotateSiteKey id drawn nonce => exact columnsConceal_rotateSiteKey h id drawn nonce
  | rotateServerKey id drawn nonce => exact columnsConceal_rotateServerKey h id drawn nonce
  | createMyKey id userId name drawn nonce =>
    show (w.createMyKey env id userId name drawn nonce).ColumnsConceal env
    unfold createMyKey
    dsimp only
    split
    · exact h
    · exact (columnsConceal_addApiKey h id userId _ drawn nonce).of_eq rfl rfl rfl rfl
  | deleteMyKey id userId =>
    show (w.deleteMyKey id userId).ColumnsConceal env
    unfold deleteMyKey
    split
    · exact (columnsConceal_revoke h id).of_eq rfl rfl rfl rfl
    · exact h
  | rotateMyKey old new userId drawn nonce =>
    show (w.rotateMyKey env old new userId drawn nonce).ColumnsConceal env
    unfold rotateMyKey
    split
    · exact h
    dsimp only
    split
    · exact h
    · have hrevoked := columnsConceal_revoke h old
      exact (columnsConceal_addApiKey hrevoked new userId _ drawn nonce).of_eq rfl rfl rfl rfl
  | reseal column nonces commits => exact columnsConceal_reseal h column nonces commits
  | rekeyed counts => exact h.of_eq rfl rfl rfl rfl
  | restart cipher => exact h.of_eq rfl rfl rfl rfl

theorem columnsConceal_run (h : w.ColumnsConceal env) (actions : List KeyAction) :
    (w.run env actions).ColumnsConceal env := by
  induction actions generalizing w with
  | nil => exact h
  | cons a as ih => exact ih (columnsConceal_step h a)

end KeyWorld

/-! ## §6. Secrecy. -/

/-- **Keys are never stored readable**: after the run every key's columns conceal it,
and the readable tables are those of every run that differs in keys alone. -/
structure KeysUnreadable (env : Platform) (config : Config) (actions : List KeyAction) : Prop where
  columns : ((KeyWorld.initial config).run env actions).ColumnsConceal env
  rest : ∀ actions', KeyWorld.AlikeRun env (KeyWorld.initial config) (KeyWorld.initial config)
      actions actions' →
    ((KeyWorld.initial config).run env actions').readable
      = ((KeyWorld.initial config).run env actions).readable

/-- **Keys stay unreadable in every run that admits no request with a key.** -/
theorem keys_unreadable (env : Platform) (config : Config) (actions : List KeyAction)
    (hunkeyed : Along (KeyWorld.step env) (KeyWorld.Unkeyed env) (KeyWorld.initial config) actions) :
    KeysUnreadable env config actions where
  columns := KeyWorld.columnsConceal_run (KeyWorld.columnsConceal_initial config) actions
  rest _ halike := KeyWorld.readable_run actions rfl hunkeyed halike

/-- **What an admitted key does**: the inbox row shows it. -/
theorem queued_key_shown {env : Platform} {config : Config} {call : AcceptCall}
    {readings : AcceptReadings} {a : Admission}
    (h : accept env config call readings.received = .ok a) (db : Database)
    (hfresh : readings.inboxId ∉ db.inbox) :
    ∃ row payload, (a.queue env readings db).inbox.lookup readings.inboxId = some row
      ∧ row.payload = .ok payload ∧ payload.request.trackingKey = call.request.trackingKey := by
  refine ⟨⟨a.siteId, .ok a.payload.reload, 0, readings.queued, none, none⟩, a.payload.reload, ?_, rfl, ?_⟩
  · unfold Admission.queue
    rw [if_neg hfresh]
    exact AList.lookup_insert _
  · exact accept_trackingKey h

/-! ## §7. Two histories. -/

namespace Sample

open Momento.Sample

def tracking (c : Char) : Drawn 32 := ⟨String.ofList (List.replicate 32 c), by simp⟩

def server (c : Char) : Drawn 43 := ⟨String.ofList (List.replicate 43 c), by simp⟩

def serverKey (c : Char) : String := "mom_server_" ++ (server c).text

/-- The keys of the samples and their SHA-256. -/
def hashes : List (String × String) :=
  [("mom_track_" ++ (tracking 'A').text, "uDFXJo5cgUN1qMdDylIKc8Zu9U40_ukUcScEi08FfdA"),
    ("mom_track_" ++ (tracking 'B').text, "cNVAB5196l--yr5QTpHHxFzQgHvST-QDeNWG2E2dV1I"),
    (serverKey 'A', "T5iSajz5EpWXxTu-a4ZwFbg4gjB1wikfH-2CqB2ommM"),
    (serverKey 'B', "Eleq1Wpj4y383R_xIlLgpgLCg7eFTQFvZu934rFhjZs")]

def keyPlatform : Platform :=
  { platform with sha256Base64 := fun s => ((hashes.find? fun e => e.1 = s).map Prod.snd).getD "" }

def shop : SiteInput := ⟨"shop", [], "UTC", 0, ""⟩

def createShop (c : Char) : KeyAction :=
  .createSite siteId "site" shop (tracking c) (server c) fun _ => .error "not needed"

/-- A page view, presented with a key. -/
def visit (key origin : String) : AcceptCall where
  request := { siteId := "site", trackingKey := key, visitorId := "v1", sessionId := "s1"
               events := [{ id := eventId '1', name := "page_view", timestamp := newYear }] }
  origin := origin
  clientIp := ""
  userAgent := "Mozilla/5.0"

def visitReadings : AcceptReadings := ⟨newYear * 1000, newYear * 1000, newYear * 1000, 1⟩

/-- The shop's own server sends the event, with its key. -/
def serverHistory (c : Char) : List KeyAction :=
  [createShop c, .collect (visit (serverKey c) "") "" visitReadings, .write 0 true]

/-- A browser sends it, without a key; then the tracking key is replaced. -/
def browserHistory : List KeyAction :=
  [createShop 'A', .collect (visit "" "https://shop.example") "" visitReadings, .write 0 true,
    .claim (newYear * 1000), .finish 0 (fun _ => ⟨readings, [], []⟩) true,
    .rotateSiteKey siteId (tracking 'B') (.error "not needed")]

def after (actions : List KeyAction) : KeyWorld :=
  (KeyWorld.initial (config 100)).run keyPlatform actions

/-- The key a row of the inbox shows. -/
def shownKey (r : Readable) : Option String :=
  (r.world.db.inbox.lookup 1).bind fun row => row.payload.toOption.map (·.request.trackingKey)

/-- The site that takes the request, and the hash its key is compared with. -/
theorem taken_alike : TakenAlike keyPlatform (after [createShop 'A']).config
    (after [createShop 'B']).config (visit (serverKey 'A') "") (serverKey 'B') := by
  intro id site site' hsite hsite'
  have hash : (siteForCollect (after [createShop 'A']).config "site").map
      (fun x => x.2.serverApiKeyHash) = some (keyPlatform.sha256Base64 (serverKey 'A')) := by
    decide +kernel
  have hash' : (siteForCollect (after [createShop 'B']).config "site").map
      (fun x => x.2.serverApiKeyHash) = some (keyPlatform.sha256Base64 (serverKey 'B')) := by
    decide +kernel
  rw [show siteForCollect (after [createShop 'A']).config "site" = _ from hsite] at hash
  rw [show siteForCollect (after [createShop 'B']).config "site" = _ from hsite'] at hash'
  have hkey : ∀ (c : Char) (s : Site), s.serverApiKeyHash = keyPlatform.sha256Base64 (serverKey c) →
      serverKey c ≠ "" → checkKey keyPlatform s (serverKey c) "" = .ok () := by
    intro c s hs hne
    unfold checkKey
    rw [if_pos rfl, if_neg, if_neg]
    · rfl
    · simp
    · rw [hs]
      simp [hne]
  exact (hkey 'B' site' (Option.some.inj hash') (by decide)).trans
    (hkey 'A' site (Option.some.inj hash) (by decide)).symm

end Sample

/-- A browser without a key, and a key that is replaced. -/
theorem keys_unreadable_browser :
    KeysUnreadable Sample.keyPlatform (Momento.Sample.config 100) Sample.browserHistory
      ∧ Sample.shownKey (Sample.after Sample.browserHistory).readable = some "" :=
  ⟨keys_unreadable _ _ _ ⟨trivial, fun _ _ => rfl, trivial, trivial, trivial, trivial, trivial⟩,
    by decide +kernel⟩

/-- **A server that sends events with its key**: the inbox shows the key. -/
theorem serverKey_readable :
    ¬KeysUnreadable Sample.keyPlatform (Momento.Sample.config 100) (Sample.serverHistory 'A')
      ∧ Sample.serverKey 'A' ∈ (Sample.after (Sample.serverHistory 'A')).issued
      ∧ Sample.shownKey (Sample.after (Sample.serverHistory 'A')).readable
        = some (Sample.serverKey 'A') := by
  refine ⟨fun h => ?_, by decide +kernel, by decide +kernel⟩
  have halike : KeyWorld.AlikeRun Sample.keyPlatform (KeyWorld.initial (Momento.Sample.config 100))
      (KeyWorld.initial (Momento.Sample.config 100)) (Sample.serverHistory 'A')
      (Sample.serverHistory 'B') := by
    refine ⟨.createSite _ _ _ _ _ _ _ _ _, ?_, .write 0 true, trivial⟩
    exact .collect _ rfl (by decide) Sample.taken_alike
  have hsame := congrArg Sample.shownKey (h.rest _ halike)
  revert hsame
  decide +kernel

end Momento.Keys
