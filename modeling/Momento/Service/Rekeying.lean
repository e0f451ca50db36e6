/-
  Momento.Service.Rekeying

  **A KEY REPLACED WHILE KEYS ARE RE-SEALED.**  `rekeySecrets` reads a column,
  re-seals its values in memory, and writes them back one by one, each by the id of its
  row.  A rotation replaces hash and sealed text in one statement.  Where it comes
  between the read and the write-back, the text of the old key is written over the text
  of the new one, beside the hash of the new one.

  The property here is agreement: what a sealed column opens to has the hash beside it.
-/
import Momento.Foundation.Runs
import Momento.Service.Keyring
import Momento.Service.KeySecrecy

namespace Momento.Keys

open Foundation

/-! ## §1. Statements and requests. -/

/-- The two keys of a site. -/
inductive SiteColumn where
  | tracking
  | server
  deriving DecidableEq

namespace SiteColumn

/-- `tracking_key_hash`, `server_api_key_hash`. -/
def hash : SiteColumn → Site → String
  | .tracking, site => site.trackingKeyHash
  | .server, site => site.serverApiKeyHash

/-- A column's key. -/
def columns : SiteColumn → SiteKeys → KeyColumns
  | .tracking, row => row.tracking
  | .server, row => row.server

/-- `SET tracking_key_secret=$2`, `SET server_api_key_secret=$2`. -/
def setSecret (text : String) : SiteColumn → SiteKeys → SiteKeys
  | .tracking, row => { row with tracking := { row.tracking with secret := some text } }
  | .server, row => { row with server := { row.server with secret := some text } }

end SiteColumn

/-- A re-sealed value on its way back to its row. -/
structure WriteBack where
  id : Uuid
  value : String
  /-- What the hash column held when the row was read; no statement has it. -/
  hash : String

/-- One `rekeySecrets` request, as far as the sites go. -/
structure Rekey where
  column : SiteColumn
  pending : List WriteBack
  unread : List SiteColumn

/-- The tables, and the requests under way. -/
structure Rekeying where
  keys : KeyWorld
  requests : List Rekey

/-- What can happen. -/
inductive RekeyAction where
  | rotateSiteKey (id : Uuid) (drawn : Drawn 32) (nonce : Except String String)
  | rotateServerKey (id : Uuid) (drawn : Drawn 43) (nonce : Except String String)
  | rekeySecrets
  /-- The next column of request `j` is read. -/
  | read (j : Nat) (nonces : Uuid → Except String String)
  /-- Value `i` of request `j` is written back; the rows were read in any order. -/
  | update (j i : Nat) (commits : Bool)

namespace KeyWorld
variable (w : KeyWorld)

/-- The hash a site accepts. -/
def hashOf (column : SiteColumn) (id : Uuid) : Option String :=
  (w.config.sites.lookup id).map column.hash

/-- The secret a site stores. -/
def secretOf (column : SiteColumn) (id : Uuid) : Option String :=
  (w.siteKeys.lookup id).bind fun row => (column.columns row).secret

/-- `SELECT id,… FROM sites WHERE … IS NOT NULL`, and the loop over its rows. -/
def readColumn (column : SiteColumn) (nonces : Uuid → Except String String) : List WriteBack :=
  w.siteKeys.entries.filterMap fun e =>
    ((column.columns e.2).secret.bind fun stored => w.cipher.reseal (nonces e.1) stored).bind fun value =>
      (w.hashOf column e.1).map fun hash => ⟨e.1, value, hash⟩

/-- `UPDATE sites SET …_secret=$2 WHERE id=$1`. -/
def writeBack (column : SiteColumn) (item : WriteBack) : KeyWorld :=
  { w with siteKeys := w.siteKeys.modifyRows fun k row =>
      if k = item.id then column.setSecret item.value row else row }

/-- **Hash and sealed text agree.** -/
def Agree (env : Platform) : Prop :=
  ∀ column id hash stored plain, w.hashOf column id = some hash → w.secretOf column id = some stored →
    w.cipher.decrypt stored = .ok plain → hash = env.sha256Base64 plain

end KeyWorld

/-- The test of one key. -/
def KeyWorld.agreesAt (w : KeyWorld) (env : Platform) (column : SiteColumn) (id : Uuid) : Bool :=
  match w.hashOf column id, (w.secretOf column id).map w.cipher.decrypt with
  | some hash, some (.ok plain) => hash = env.sha256Base64 plain
  | _, _ => true

namespace Rekeying
variable (env : Platform) (s : Rekeying)

/-- The next column is read. -/
def readNext (j : Nat) (nonces : Uuid → Except String String) : Rekeying :=
  match s.requests[j]? with
  | some ⟨_, [], column :: unread⟩ =>
    { s with requests := s.requests.set j ⟨column, s.keys.readColumn column nonces, unread⟩ }
  | _ => s

/-- A secret is written back. -/
def update (j i : Nat) (commits : Bool) : Rekeying :=
  match s.requests[j]? with
  | none => s
  | some r =>
    match r.pending[i]? with
    | none => s
    | some item =>
      { keys := if commits then s.keys.writeBack r.column item else s.keys
        requests := s.requests.set j { r with pending := r.pending.eraseIdx i } }

/-- **A step.** -/
def step : RekeyAction → Rekeying
  | .rotateSiteKey id drawn nonce => { s with keys := s.keys.rotateSiteKey env id drawn nonce }
  | .rotateServerKey id drawn nonce => { s with keys := s.keys.rotateServerKey env id drawn nonce }
  | .rekeySecrets => { s with requests := s.requests ++ [⟨.tracking, [], [.tracking, .server]⟩] }
  | .read j nonces => s.readNext j nonces
  | .update j i commits => s.update j i commits

/-- **No rotation came between**: where a value is written back, the hash column still
holds what it held when the row was read. -/
def Current : RekeyAction → Prop
  | .update j i true => ∀ r item hash, s.requests[j]? = some r → r.pending[i]? = some item →
      s.keys.hashOf r.column item.id = some hash → hash = item.hash
  | _ => True

/-- The test of one write-back. -/
def currentAt (j i : Nat) : Bool :=
  match s.requests[j]? with
  | none => true
  | some r =>
    match r.pending[i]? with
    | none => true
    | some item => s.keys.hashOf r.column item.id = some item.hash

/-- The invariant: the columns agree, and so does each value on its way back with the
hash it was read beside. -/
structure Sound : Prop where
  lawful : ∀ entry ∈ s.keys.cipher.keys, entry.Lawful
  agree : s.keys.Agree env
  pending : ∀ r ∈ s.requests, ∀ item ∈ r.pending,
    ∃ plain, s.keys.cipher.decrypt item.value = .ok plain ∧ item.hash = env.sha256Base64 plain

end Rekeying

/-! ## §2. What each statement does to the columns. -/

/-- One key of one site is replaced. -/
structure Replaced (w w' : KeyWorld) (column : SiteColumn) (id : Uuid) (hash : String)
    (secret : Option String) : Prop where
  cipher : w'.cipher = w.cipher
  hashAt : ∀ h, w'.hashOf column id = some h → h = hash
  secretAt : ∀ stored, w'.secretOf column id = some stored → secret = some stored
  elsewhere : ∀ c k, c ≠ column ∨ k ≠ id →
    w'.hashOf c k = w.hashOf c k ∧ w'.secretOf c k = w.secretOf c k

theorem updateKey_replaced (w : KeyWorld) (id : Uuid) (column : SiteColumn) (hash : String)
    (columns : KeyColumns) (site : Site → Site) (keys : SiteKeys → SiteKeys)
    (hhash : ∀ r, column.hash (site r) = hash) (hcolumns : ∀ r, column.columns (keys r) = columns)
    (hother : ∀ c, c ≠ column → (∀ r, c.hash (site r) = c.hash r) ∧ ∀ r, c.columns (keys r) = c.columns r) :
    Replaced w (w.updateKey id site keys) column id hash columns.secret := by
  have hhashOf : ∀ c k, (w.updateKey id site keys).hashOf c k
      = (w.config.sites.lookup k).map fun r => c.hash (if k = id then site r else r) := by
    intro c k
    show ((w.config.sites.modifyRows _).lookup k).map _ = _
    rw [Table.lookup_modifyRows, Option.map_map]
    rfl
  have hsecretOf : ∀ c k, (w.updateKey id site keys).secretOf c k
      = (w.siteKeys.lookup k).bind fun r => (c.columns (if k = id then keys r else r)).secret := by
    intro c k
    show ((w.siteKeys.modifyRows _).lookup k).bind _ = _
    rw [Table.lookup_modifyRows, Option.bind_map]
    rfl
  refine ⟨rfl, ?_, ?_, ?_⟩
  · intro h hh
    rw [hhashOf] at hh
    obtain ⟨r, -, hr⟩ := Option.map_eq_some_iff.mp hh
    rw [if_pos rfl, hhash] at hr
    exact hr.symm
  · intro stored hstored
    rw [hsecretOf] at hstored
    obtain ⟨r, -, hr⟩ := Option.bind_eq_some_iff.mp hstored
    rw [if_pos rfl, hcolumns] at hr
    exact hr
  · intro c k hck
    rw [hhashOf, hsecretOf]
    unfold KeyWorld.hashOf KeyWorld.secretOf
    by_cases hk : k = id
    · have hc := hother c (hck.resolve_right fun h => h hk)
      constructor
      · simp only [if_pos hk, hc.1]
      · simp only [if_pos hk, hc.2]
    · constructor
      · simp only [if_neg hk]
      · simp only [if_neg hk]

theorem rotateSiteKey_replaced (env : Platform) (w : KeyWorld) (id : Uuid) (drawn : Drawn 32)
    (nonce : Except String String) :
    w.rotateSiteKey env id drawn nonce = w
      ∨ Replaced w (w.rotateSiteKey env id drawn nonce) .tracking id
          (env.sha256Base64 ("mom_track_" ++ drawn.text))
          (w.cipher.sealSecret nonce ("mom_track_" ++ drawn.text)) := by
  unfold KeyWorld.rotateSiteKey
  dsimp only
  split
  · right
    have h := updateKey_replaced w id .tracking (env.sha256Base64 ("mom_track_" ++ drawn.text))
      (w.columnsOf (newToken env "mom_track_" drawn.text) nonce)
      (fun site => { site with
        trackingKeyHash := (newToken env "mom_track_" drawn.text).hash })
      (fun row => { row with
        tracking := w.columnsOf (newToken env "mom_track_" drawn.text) nonce })
      (fun _ => rfl) (fun _ => rfl) (fun c hc => by
        cases c with
        | tracking => exact absurd rfl hc
        | server => exact ⟨fun _ => rfl, fun _ => rfl⟩)
    exact ⟨h.cipher, h.hashAt, h.secretAt, h.elsewhere⟩
  · exact Or.inl rfl

theorem rotateServerKey_replaced (env : Platform) (w : KeyWorld) (id : Uuid) (drawn : Drawn 43)
    (nonce : Except String String) :
    w.rotateServerKey env id drawn nonce = w
      ∨ Replaced w (w.rotateServerKey env id drawn nonce) .server id
          (env.sha256Base64 ("mom_server_" ++ drawn.text))
          (w.cipher.sealSecret nonce ("mom_server_" ++ drawn.text)) := by
  unfold KeyWorld.rotateServerKey
  dsimp only
  split
  · right
    have h := updateKey_replaced w id .server (env.sha256Base64 ("mom_server_" ++ drawn.text))
      (w.columnsOf (newToken env "mom_server_" drawn.text) nonce)
      (fun site => { site with
        serverApiKeyHash := (newToken env "mom_server_" drawn.text).hash })
      (fun row => { row with
        server := w.columnsOf (newToken env "mom_server_" drawn.text) nonce })
      (fun _ => rfl) (fun _ => rfl) (fun c hc => by
        cases c with
        | tracking => exact ⟨fun _ => rfl, fun _ => rfl⟩
        | server => exact absurd rfl hc)
    exact ⟨h.cipher, h.hashAt, h.secretAt, h.elsewhere⟩
  · exact Or.inl rfl

/-- A value that is written back replaces the sealed text alone. -/
theorem secretOf_writeBack (w : KeyWorld) (column c : SiteColumn) (item : WriteBack) (k : Uuid)
    {stored : String} (h : (w.writeBack column item).secretOf c k = some stored) :
    (c = column ∧ k = item.id ∧ stored = item.value) ∨ w.secretOf c k = some stored := by
  unfold KeyWorld.secretOf KeyWorld.writeBack at h
  rw [Table.lookup_modifyRows, Option.bind_map] at h
  obtain ⟨row, hrow, hsecret⟩ := Option.bind_eq_some_iff.mp h
  have hbefore : w.secretOf c k = (c.columns row).secret := by
    unfold KeyWorld.secretOf
    rw [hrow]
    rfl
  rw [Function.comp_apply] at hsecret
  by_cases hk : k = item.id
  · rw [if_pos hk] at hsecret
    by_cases hc : c = column
    · left
      refine ⟨hc, hk, ?_⟩
      rw [hc] at hsecret
      cases column with
      | tracking => exact (Option.some.inj hsecret).symm
      | server => exact (Option.some.inj hsecret).symm
    · right
      rw [hbefore, ← hsecret]
      cases c with
      | tracking =>
        cases column with
        | tracking => exact absurd rfl hc
        | server => rfl
      | server =>
        cases column with
        | tracking => rfl
        | server => exact absurd rfl hc
  · rw [if_neg hk] at hsecret
    exact Or.inr (hbefore.trans hsecret)

/-- Each value read is re-sealed from what a row held, beside that row's hash. -/
theorem mem_readColumn {w : KeyWorld} {column : SiteColumn} {nonces : Uuid → Except String String}
    {item : WriteBack} (h : item ∈ w.readColumn column nonces) :
    ∃ stored, w.secretOf column item.id = some stored
      ∧ w.cipher.reseal (nonces item.id) stored = some item.value
      ∧ w.hashOf column item.id = some item.hash := by
  unfold KeyWorld.readColumn at h
  obtain ⟨⟨id, row⟩, hmem, hitem⟩ := List.mem_filterMap.mp h
  obtain ⟨value, hvalue, hhash⟩ := Option.bind_eq_some_iff.mp hitem
  obtain ⟨stored, hstored, hreseal⟩ := Option.bind_eq_some_iff.mp hvalue
  obtain ⟨hash, hfound, rfl⟩ := Option.map_eq_some_iff.mp hhash
  refine ⟨stored, ?_, hreseal, hfound⟩
  unfold KeyWorld.secretOf
  have hrow : w.siteKeys.lookup id = some row := AList.mem_lookup_iff.mpr hmem
  show (w.siteKeys.lookup id).bind _ = _
  rw [hrow]
  exact hstored

/-! ## §3. Agreement, step by step. -/

/-- A key that is replaced agrees with its hash. -/
theorem Replaced.agree {env : Platform} {w w' : KeyWorld} {column : SiteColumn} {id : Uuid} {plain : String}
    {nonce : Except String String}
    (h : Replaced w w' column id (env.sha256Base64 plain) (w.cipher.sealSecret nonce plain))
    (hlawful : ∀ entry ∈ w.cipher.keys, entry.Lawful) (hagree : w.Agree env) : w'.Agree env := by
  intro c k hash stored opened hhash hstored hopened
  rw [h.cipher] at hopened
  by_cases hhere : c = column ∧ k = id
  · obtain ⟨rfl, rfl⟩ := hhere
    have hopens : w.cipher.decrypt stored = .ok plain :=
      sealSecret_opens ⟨w.cipher, hlawful⟩ (h.secretAt stored hstored)
    rw [h.hashAt hash hhash, Except.ok.inj (hopened.symm.trans hopens)]
  · have hwhere : c ≠ column ∨ k ≠ id := by
      by_cases hc : c = column
      · exact Or.inr fun hk => hhere ⟨hc, hk⟩
      · exact Or.inl hc
    obtain ⟨hsame, hsecret⟩ := h.elsewhere c k hwhere
    rw [hsame] at hhash
    rw [hsecret] at hstored
    exact hagree c k hash stored opened hhash hstored hopened

namespace Rekeying
variable {env : Platform} {s : Rekeying}

/-- A rotation leaves the requests and the keyring. -/
theorem Sound.rotate (h : s.Sound env) {w' : KeyWorld} {column : SiteColumn} {id : Uuid} {plain : String}
    {nonce : Except String String}
    (hstep : w' = s.keys ∨ Replaced s.keys w' column id (env.sha256Base64 plain)
      (s.keys.cipher.sealSecret nonce plain)) : Sound env { s with keys := w' } := by
  obtain rfl | hreplaced := hstep
  · exact h
  · refine ⟨?_, hreplaced.agree h.lawful h.agree, ?_⟩
    · show ∀ entry ∈ w'.cipher.keys, entry.Lawful
      rw [hreplaced.cipher]
      exact h.lawful
    · intro r hr item hitem
      show ∃ plain, w'.cipher.decrypt item.value = .ok plain ∧ _
      rw [hreplaced.cipher]
      exact h.pending r hr item hitem

/-- What is read opens to what the hash beside it is the hash of. -/
theorem Sound.readNext (h : s.Sound env) (j : Nat) (nonces : Uuid → Except String String) :
    (s.readNext j nonces).Sound env := by
  unfold Rekeying.readNext
  split
  · refine ⟨h.lawful, h.agree, ?_⟩
    intro r hr item hitem
    rcases List.mem_or_eq_of_mem_set hr with hr | rfl
    · exact h.pending r hr item hitem
    · obtain ⟨stored, hstored, hreseal, hhash⟩ := mem_readColumn hitem
      obtain ⟨plain, hopens, hvalue⟩ := reseal_opens ⟨s.keys.cipher, h.lawful⟩ hreseal
      exact ⟨plain, hvalue, h.agree _ _ _ _ _ hhash hstored hopens⟩
  · exact h

/-- A write-back beside the hash that was read keeps agreement. -/
theorem Sound.writeBack (h : s.Sound env) {r : Rekey} (hr : r ∈ s.requests) {item : WriteBack}
    (hitem : item ∈ r.pending)
    (hcurrent : ∀ hash, s.keys.hashOf r.column item.id = some hash → hash = item.hash) :
    (s.keys.writeBack r.column item).Agree env := by
  intro c k hash stored opened hhash hstored hopened
  have hbefore : s.keys.hashOf c k = some hash := hhash
  rcases secretOf_writeBack s.keys r.column c item k hstored with ⟨rfl, rfl, rfl⟩ | hkept
  · obtain ⟨plain, hplain, hitemhash⟩ := h.pending r hr item hitem
    rw [hcurrent hash hbefore, hitemhash]
    exact congrArg env.sha256Base64 (Except.ok.inj (hplain.symm.trans hopened))
  · exact h.agree c k hash stored opened hbefore hkept hopened

/-- A secret is written back. -/
theorem Sound.update (h : s.Sound env) (j i : Nat) (commits : Bool)
    (hcurrent : s.Current (.update j i commits)) : (s.update j i commits).Sound env := by
  unfold Rekeying.update
  split
  · exact h
  next r hr =>
    split
    · exact h
    next item hitem =>
      -- The rows that wait afterwards waited before.
      have hpending : ∀ r' ∈ s.requests.set j { r with pending := r.pending.eraseIdx i },
          ∀ item' ∈ r'.pending, ∃ plain, s.keys.cipher.decrypt item'.value = .ok plain
            ∧ item'.hash = env.sha256Base64 plain := by
        intro r' hr' item' hitem'
        rcases List.mem_or_eq_of_mem_set hr' with hr' | rfl
        · exact h.pending r' hr' item' hitem'
        · exact h.pending r (List.mem_of_getElem? hr) item' (List.mem_of_mem_eraseIdx hitem')
      cases commits with
      | false => exact ⟨h.lawful, h.agree, hpending⟩
      | true =>
        have hagree := h.writeBack (List.mem_of_getElem? hr) (List.mem_of_getElem? hitem)
          fun hash hhash => hcurrent r item hash hr hitem hhash
        exact ⟨h.lawful, hagree, hpending⟩

/-- **One statement.** -/
theorem Sound.step (h : s.Sound env) (a : RekeyAction) (hcurrent : s.Current a) : (s.step env a).Sound env := by
  cases a with
  | rotateSiteKey id drawn nonce => exact h.rotate (rotateSiteKey_replaced env s.keys id drawn nonce)
  | rotateServerKey id drawn nonce => exact h.rotate (rotateServerKey_replaced env s.keys id drawn nonce)
  | rekeySecrets =>
    refine ⟨h.lawful, h.agree, ?_⟩
    intro r hr item hitem
    rcases List.mem_append.mp hr with hr | hr
    · exact h.pending r hr item hitem
    · rw [List.mem_singleton.mp hr] at hitem
      cases hitem
  | read j nonces => exact h.readNext j nonces
  | update j i commits => exact h.update j i commits hcurrent

theorem current_of_currentAt {j i : Nat} (h : s.currentAt j i = true) : s.Current (.update j i true) := by
  intro r item hash hr hitem hhash
  unfold Rekeying.currentAt at h
  rw [hr] at h
  dsimp only at h
  rw [hitem] at h
  have hsame : s.keys.hashOf r.column item.id = some item.hash := of_decide_eq_true h
  rw [hhash] at hsame
  exact Option.some.inj hsame

/-- **A write-back after a rotation breaks agreement**: the condition leaves out no step
that keeps it. -/
theorem Sound.stale (h : s.Sound env) {j i : Nat} {r : Rekey} {item : WriteBack} {hash : String} {row : SiteKeys}
    (hr : s.requests[j]? = some r) (hitem : r.pending[i]? = some item)
    (hhash : s.keys.hashOf r.column item.id = some hash) (hrow : s.keys.siteKeys.lookup item.id = some row)
    (hrotated : hash ≠ item.hash) : ¬(s.update j i true).keys.Agree env := by
  intro hagree
  obtain ⟨plain, hplain, hitemhash⟩ :=
    h.pending r (List.mem_of_getElem? hr) item (List.mem_of_getElem? hitem)
  have hkeys : (s.update j i true).keys = s.keys.writeBack r.column item := by
    unfold Rekeying.update
    rw [hr]
    dsimp only
    rw [hitem]
    rfl
  have hsecret : (s.keys.writeBack r.column item).secretOf r.column item.id = some item.value := by
    unfold KeyWorld.secretOf KeyWorld.writeBack
    rw [Table.lookup_modifyRows, hrow]
    show (r.column.columns (if item.id = item.id then _ else _)).secret = _
    rw [if_pos rfl]
    cases r.column with
    | tracking => rfl
    | server => rfl
  rw [hkeys] at hagree
  have hsame := hagree r.column item.id hash item.value plain hhash hsecret hplain
  exact hrotated (hsame.trans hitemhash.symm)

end Rekeying

theorem KeyWorld.agree_iff_columns {env : Platform} {w : KeyWorld} :
    w.Agree env ↔ ∀ column, ∀ id ∈ w.siteKeys.keys, w.agreesAt env column id = true := by
  constructor
  · intro h column id _
    unfold KeyWorld.agreesAt
    cases hhash : w.hashOf column id with
    | none => rfl
    | some hash =>
      cases hstored : w.secretOf column id with
      | none => rfl
      | some stored =>
        rw [Option.map_some]
        cases hopened : w.cipher.decrypt stored with
        | error e => rfl
        | ok plain => exact decide_eq_true (h column id hash stored plain hhash hstored hopened)
  · intro h column id hash stored plain hhash hstored hopened
    have hrow : id ∈ w.siteKeys.keys := by
      obtain ⟨row, hrow, -⟩ := Option.bind_eq_some_iff.mp hstored
      exact AList.mem_keys.mp (AList.lookup_isSome.mp (hrow ▸ rfl))
    have htest := h column id hrow
    unfold KeyWorld.agreesAt at htest
    rw [hhash, hstored, Option.map_some, hopened] at htest
    exact of_decide_eq_true htest

/-! ## §4. Every run. -/

/-- The tables with no re-sealing under way. -/
def Rekeying.start (w : KeyWorld) : Rekeying := ⟨w, []⟩

/-- The steps in order. -/
def Rekeying.run (env : Platform) (s : Rekeying) (actions : List RekeyAction) : Rekeying :=
  actions.foldl (Rekeying.step env) s

/-- **SEALED TEXT AND HASH AGREE** after every run in which no key is replaced between
the read of its row and the write-back. -/
theorem secrets_agree (env : Platform) (w : KeyWorld) (hlawful : ∀ entry ∈ w.cipher.keys, entry.Lawful)
    (hagree : w.Agree env) (actions : List RekeyAction)
    (hcurrent : Along (Rekeying.step env) Rekeying.Current (Rekeying.start w) actions) :
    ((Rekeying.start w).run env actions).keys.Agree env := by
  have hstart : (Rekeying.start w).Sound env := ⟨hlawful, hagree, fun r hr => nomatch hr⟩
  have hstep : ∀ (s : Rekeying) a, s.Sound env → s.Current a → (s.step env a).Sound env :=
    fun s a hs ha => hs.step a ha
  exact (along_induction hstep actions hstart hcurrent).agree

namespace Sample

open Momento.Sample

/-- A site whose keys were sealed with the first passphrase; then the second one came. -/
def oldSeals : KeyWorld :=
  after [.restart ⟨[oldKey]⟩,
    .createSite siteId "site" shop (tracking 'A') (server 'A') fun
      | .tracking => .ok "first-nonce-"
      | _ => .ok "other-nonce-",
    .restart ring]

theorem oldSeals_agree : oldSeals.Agree keyPlatform := by
  refine KeyWorld.agree_iff_columns.mpr fun column => ?_
  cases column with
  | tracking => decide +kernel
  | server => decide +kernel

def rotated : RekeyAction := .rotateSiteKey siteId (tracking 'B') (.ok "third-nonce-")

def readTracking : RekeyAction := .read 0 fun _ => .ok "second-nonce"

end Sample

/-- A re-sealing, then a rotation. -/
theorem secrets_agree_rekeyed :
    ((Rekeying.start Sample.oldSeals).run Sample.keyPlatform
      [.rekeySecrets, Sample.readTracking, .update 0 0 true, Sample.rotated]).keys.Agree Sample.keyPlatform := by
  refine secrets_agree Sample.keyPlatform Sample.oldSeals Sample.ring_lawful Sample.oldSeals_agree _ ?_
  refine ⟨trivial, trivial, ?_, trivial, trivial⟩
  intro r item hash hr hitem hhash
  have htest : ((Rekeying.start Sample.oldSeals).run Sample.keyPlatform
      [.rekeySecrets, Sample.readTracking]).currentAt 0 0 = true := by
    decide +kernel
  exact Rekeying.current_of_currentAt htest r item hash hr hitem hhash

/-- **A rotation between the read and the write-back**: the column opens to the old key,
and the hash is the new one's. -/
theorem secrets_disagree :
    ¬∀ (env : Platform) (w : KeyWorld), (∀ entry ∈ w.cipher.keys, entry.Lawful) → w.Agree env →
      ∀ actions, ((Rekeying.start w).run env actions).keys.Agree env := by
  intro h
  have hagree := h Sample.keyPlatform Sample.oldSeals Sample.ring_lawful Sample.oldSeals_agree
    [.rekeySecrets, Sample.readTracking, Sample.rotated, .update 0 0 true]
  have hopens : (((Rekeying.start Sample.oldSeals).run Sample.keyPlatform
      [.rekeySecrets, Sample.readTracking, Sample.rotated, .update 0 0 true]).keys.agreesAt
        Sample.keyPlatform .tracking Momento.Sample.siteId) = false := by
    decide +kernel
  have htrue := KeyWorld.agree_iff_columns.mp hagree .tracking Momento.Sample.siteId (by decide +kernel)
  rw [hopens] at htrue
  cases htrue

end Momento.Keys
