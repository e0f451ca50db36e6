/-
  Momento.Service.Retirement

  **MAY THE PREVIOUS KEY GO?**  Secrets are stored in five places.  `encryptionStatus`
  counts those of three, `rekeySecrets` re-seals those of all five, and counts what it
  could not.  An operator drops the previous key where the first has nothing pending, or
  the second nothing failed.

  The headers of delivery channels and the client secret of `oidc` are not counted by
  the first; and the second takes an `oidc` row it could not read for one that has
  nothing to re-seal.
-/
import Momento.Service.Rekeying
import Momento.Service.Roles

namespace Momento.Keys

open Foundation

/-! ## §1. Where secrets are. -/

/-- Where secrets are stored. -/
inductive SecretPlace where
  /-- `sites.tracking_key_secret` -/
  | tracking
  /-- `sites.server_api_key_secret` -/
  | server
  /-- `api_keys.token_secret` -/
  | token
  /-- `delivery_channels.headers_secret` -/
  | headers
  /-- `client_secret` of the settings row `oidc` -/
  | clientSecret
  deriving DecidableEq

namespace SecretPlace

/-- The table. -/
def table : SecretPlace → String
  | .tracking => "sites"
  | .server => "sites"
  | .token => "api_keys"
  | .headers => "delivery_channels"
  | .clientSecret => "settings"

/-- The column. -/
def column : SecretPlace → String
  | .tracking => "tracking_key_secret"
  | .server => "server_api_key_secret"
  | .token => "token_secret"
  | .headers => "headers_secret"
  | .clientSecret => "value"

end SecretPlace

/-- The stored secrets. -/
structure SecretDb where
  keys : KeyWorld
  /-- `headers_secret` of each delivery channel. -/
  channels : Table Uuid (Option String)
  /-- The value of the settings row `oidc`. -/
  oidc : Option Json

/-- `value["client_secret"].(string)`, of an object. -/
def clientSecretOf : Option Json → Option String
  | some (.obj members) =>
    match Properties.get members "client_secret" with
    | some (.str text) => some text
    | _ => none
  | _ => none

namespace SecretDb
variable (db : SecretDb)

/-- A place's rows: the row's number, its secret. -/
def rows : SecretPlace → List (Nat × Option String)
  | .tracking => db.keys.siteKeys.entries.map fun e => (e.1.bits.toNat, e.2.tracking.secret)
  | .server => db.keys.siteKeys.entries.map fun e => (e.1.bits.toNat, e.2.server.secret)
  | .token => db.keys.apiKeys.entries.map fun e => (e.1, e.2.columns.secret)
  | .headers => db.channels.entries.map fun e => (e.1.bits.toNat, e.2)
  | .clientSecret => [(0, clientSecretOf db.oidc)]

/-- The secrets in force; a key that is revoked has none. -/
def secrets : SecretPlace → List (Option String)
  | .token => (db.keys.apiKeys.entries.filter fun e => !e.2.revoked).map fun e => e.2.columns.secret
  | place => (db.rows place).map Prod.snd

end SecretDb

/-! ## §2. `encryptionStatus`. -/

/-- The counts of one place. -/
structure SecretCounts where
  recoverable : Nat
  unrecoverable : Nat
  pending : Nat

/-- One row of `count`. -/
def Cipher.countRow (c : Cipher) (n : SecretCounts) (stored : Option String) : SecretCounts :=
  match stored with
  | none => { n with unrecoverable := n.unrecoverable + 1 }
  | some stored =>
    if stored = "" then { n with unrecoverable := n.unrecoverable + 1 }
    else match c.decrypt stored with
      | .error _ => { n with unrecoverable := n.unrecoverable + 1 }
      | .ok _ =>
        { n with
          recoverable := n.recoverable + 1
          pending := if c.needsReseal stored then n.pending + 1 else n.pending }

/-- What the status answers. -/
structure EncryptionStatus where
  enabled : Bool
  keyId : String
  previousKeyIds : List String
  counts : SecretCounts

/-- The columns `encryptionStatus` reads, a query each. -/
def countedPlaces : List SecretPlace := [.tracking, .server, .token]

namespace SecretDb
variable (db : SecretDb) (fails : SecretPlace → Option String)

/-- The columns are counted one after the other; a query may fail. -/
def countPlaces : List SecretPlace → SecretCounts → Except Refusal SecretCounts
  | [], n => .ok n
  | place :: rest, n =>
    match fails place with
    | some message => .error ⟨500, "QUERY_FAILED", message⟩
    | none => countPlaces rest ((db.secrets place).foldl db.keys.cipher.countRow n)

/-- `encryptionStatus`. -/
def encryptionStatus : Except Refusal EncryptionStatus :=
  (db.countPlaces fails countedPlaces ⟨0, 0, 0⟩).map fun counts =>
    { enabled := db.keys.cipher.enabled
      keyId := (db.keys.cipher.keys.head?.map KeyEntry.id).getD ""
      previousKeyIds := db.keys.cipher.keys.tail.map KeyEntry.id
      counts := counts }

end SecretDb

/-! ## §3. `rekeySecrets`. -/

/-- What became of a row. -/
inductive RowOutcome where
  | kept
  | failed
  | resealed (text : String)

/-- What the row holds afterwards. -/
def RowOutcome.after (stored : String) : RowOutcome → String
  | .resealed text => text
  | _ => stored

/-- One value of `resealColumn`, and its `UPDATE`. -/
def Cipher.resealRow (c : Cipher) (nonce : Except String String) (commits : Bool) (stored : String) : RowOutcome :=
  if !c.needsReseal stored then .kept
  else match c.decrypt stored >>= c.encrypt nonce with
    | .error _ => .failed
    | .ok text => if commits then .resealed text else .failed

/-- The counts of `rekeySecrets`. -/
structure Tally where
  resealed : Nat
  failed : Nat

/-- A row is counted. -/
def Tally.count (n : Tally) : RowOutcome → Tally
  | .kept => n
  | .failed => { n with failed := n.failed + 1 }
  | .resealed _ => { n with resealed := n.resealed + 1 }

/-- What a request meets: queries that fail, nonces, updates that fail. -/
structure RekeyReadings where
  fails : SecretPlace → Option String
  nonce : SecretPlace → Nat → Except String String
  commits : SecretPlace → Nat → Bool

namespace SecretDb
variable (db : SecretDb) (readings : RekeyReadings)

/-- A row's outcome. -/
def outcome (place : SecretPlace) (id : Nat) (stored : String) : RowOutcome :=
  db.keys.cipher.resealRow (readings.nonce place id) (readings.commits place id) stored

/-- A row is counted, where it has a secret. -/
def tallyRow (place : SecretPlace) (n : Tally) (row : Nat × Option String) : Tally :=
  match row.2 with
  | none => n
  | some stored => n.count (db.outcome readings place row.1 stored)

/-- The counts of `resealColumn`. -/
def tally (place : SecretPlace) (n : Tally) : Tally := (db.rows place).foldl (db.tallyRow readings place) n

/-- The updates of `resealColumn`. -/
def resealed (place : SecretPlace) : SecretDb :=
  match place with
  | .tracking => { db with keys := db.keys.reseal .tracking (readings.nonce place) (readings.commits place) }
  | .server => { db with keys := db.keys.reseal .server (readings.nonce place) (readings.commits place) }
  | .token => { db with keys := db.keys.reseal .apiKey (readings.nonce place) (readings.commits place) }
  | .headers =>
    { db with channels := db.channels.modifyRows fun k secret => secret.map fun stored =>
        (db.outcome readings place k.bits.toNat stored).after stored }
  | .clientSecret =>
    match db.oidc, clientSecretOf db.oidc with
    | some (.obj members), some stored =>
      { db with oidc := some (.obj (Properties.set members "client_secret"
          (.str ((db.outcome readings place 0 stored).after stored)))) }
    | _, _ => db

/-- The columns in the order of `rekeySecrets`, up to one that cannot be read. -/
def resealColumns : List SecretPlace → SecretDb → Tally → SecretDb × Tally × Option (SecretPlace × String)
  | [], db, n => (db, n, none)
  | place :: rest, db, n =>
    match readings.fails place with
    | some message => (db, n, some (place, message))
    | none => resealColumns rest (db.resealed readings place) (db.tally readings place n)

/-- `resealOIDCSecret`: a row that cannot be read has nothing to re-seal. -/
def resealOIDCSecret (n : Tally) : SecretDb × Tally :=
  match readings.fails .clientSecret with
  | some _ => (db, n)
  | none => (db.resealed readings .clientSecret, db.tally readings .clientSecret n)

/-- The row of `audit_logs`. -/
def audited (detail : List (String × String)) : SecretDb :=
  { db with keys := db.keys.audit ⟨"encryption.rekey", "setting", "encryption", detail⟩ }

/-- The columns `rekeySecrets` re-seals. -/
def resealedPlaces : List SecretPlace := [.tracking, .server, .token, .headers]

/-- `rekeySecrets`. -/
def rekeySecrets (role : String) : SecretDb × Except Refusal Tally :=
  if !roleAtLeast role "organization_admin" then
    (db, .error ⟨403, "FORBIDDEN", "organization administrator permission required"⟩)
  else if !db.keys.cipher.enabled then
    (db, .error ⟨400, "ENCRYPTION_DISABLED", "set MOMENTO_ENCRYPTION_KEY before rotating stored secrets"⟩)
  else
    match resealColumns readings resealedPlaces db ⟨0, 0⟩ with
    | (db, n, some (place, message)) =>
      let column := place.table ++ "." ++ place.column
      (db.audited [("resealed", toString n.resealed), ("failed", toString n.failed), ("incomplete", column)],
        .error ⟨500, "REKEY_INCOMPLETE", "resealed " ++ toString n.resealed ++ " and failed "
          ++ toString n.failed ++ " before " ++ column ++ " could not be read: " ++ message⟩)
    | (db, n, none) =>
      let (db, n) := db.resealOIDCSecret readings n
      (db.audited [("resealed", toString n.resealed), ("failed", toString n.failed)], .ok n)

end SecretDb

/-! ## §4. The status. -/

/-- What the ring opens at the place, the primary key opens alone. -/
def SecretDb.RetiresAt (db : SecretDb) (place : SecretPlace) : Prop :=
  ∀ stored, some stored ∈ db.secrets place → db.keys.cipher.Retires stored

/-- **The previous keys may go.** -/
def SecretDb.Safe (db : SecretDb) : Prop := ∀ place, db.RetiresAt place

/-- Sealed with a previous key, and it opens. -/
def SecretDb.HoldsPrevious (db : SecretDb) (place : SecretPlace) : Prop :=
  ∃ stored, some stored ∈ db.secrets place ∧ (∃ plain, db.keys.cipher.decrypt stored = .ok plain)
    ∧ db.keys.cipher.sealedByPrevious stored = true

theorem retiresAt_iff {db : SecretDb} (hlawful : ∀ entry ∈ db.keys.cipher.keys, entry.Lawful)
    (place : SecretPlace) : db.RetiresAt place ↔ ¬db.HoldsPrevious place := by
  constructor
  · rintro h ⟨stored, hmem, hprevious⟩
    exact (retires_iff ⟨db.keys.cipher, hlawful⟩ stored).mp (h stored hmem) hprevious
  · intro h stored hmem
    exact (retires_iff ⟨db.keys.cipher, hlawful⟩ stored).mpr fun hprevious => h ⟨stored, hmem, hprevious⟩

/-- Nothing is counted as pending: what opens is not to be re-sealed. -/
theorem countRow_pending {c : Cipher} {n : SecretCounts} {stored : Option String}
    (h : (c.countRow n stored).pending = 0) :
    n.pending = 0 ∧ ∀ text, stored = some text → (∃ plain, c.decrypt text = .ok plain) →
      c.needsReseal text = false := by
  unfold Cipher.countRow at h
  cases stored with
  | none => exact ⟨h, fun _ htext => nomatch htext⟩
  | some text =>
    dsimp only at h
    split at h
    next hempty =>
      refine ⟨h, fun other hother _ => ?_⟩
      rw [← Option.some.inj hother, hempty]
      unfold Cipher.needsReseal
      split
      · rfl
      · rfl
    · split at h
      next hfails =>
        refine ⟨h, ?_⟩
        rintro other hother ⟨plain, hplain⟩
        rw [← Option.some.inj hother, hfails] at hplain
        cases hplain
      · dsimp only at h
        by_cases hneeds : c.needsReseal text = true
        · rw [if_pos hneeds] at h
          omega
        · rw [if_neg hneeds] at h
          refine ⟨h, fun other hother _ => ?_⟩
          rw [← Option.some.inj hother]
          exact (Bool.not_eq_true _).mp hneeds

theorem foldl_countRow_pending {c : Cipher} {column : List (Option String)} {n : SecretCounts}
    (h : (column.foldl c.countRow n).pending = 0) :
    n.pending = 0 ∧ ∀ text, some text ∈ column → (∃ plain, c.decrypt text = .ok plain) →
      c.needsReseal text = false := by
  induction column generalizing n with
  | nil => exact ⟨h, fun _ hmem => nomatch hmem⟩
  | cons stored column ih =>
    obtain ⟨hfirst, hrest⟩ := ih h
    obtain ⟨hn, hstored⟩ := countRow_pending hfirst
    refine ⟨hn, fun text hmem => ?_⟩
    rcases List.mem_cons.mp hmem with heq | hmem
    · exact hstored text heq.symm
    · exact hrest text hmem

theorem countPlaces_pending {db : SecretDb} {fails : SecretPlace → Option String} {places : List SecretPlace}
    {n n' : SecretCounts} (h : db.countPlaces fails places n = .ok n') (hpending : n'.pending = 0) :
    n.pending = 0 ∧ ∀ place ∈ places, ∀ text, some text ∈ db.secrets place →
      (∃ plain, db.keys.cipher.decrypt text = .ok plain) → db.keys.cipher.needsReseal text = false := by
  induction places generalizing n with
  | nil =>
    rw [← Except.ok.inj h] at hpending
    exact ⟨hpending, fun _ hplace => nomatch hplace⟩
  | cons place places ih =>
    unfold SecretDb.countPlaces at h
    split at h
    · cases h
    obtain ⟨hfirst, hrest⟩ := ih h
    obtain ⟨hn, hplace⟩ := foldl_countRow_pending hfirst
    refine ⟨hn, fun other hother => ?_⟩
    rcases List.mem_cons.mp hother with rfl | hother
    · exact hplace
    · exact hrest other hother

/-- **Nothing pending**: the columns that are counted need the primary key alone. -/
theorem retiresAt_of_pending {db : SecretDb} (hlawful : ∀ entry ∈ db.keys.cipher.keys, entry.Lawful)
    {fails : SecretPlace → Option String} {status : EncryptionStatus}
    (h : db.encryptionStatus fails = .ok status) (hpending : status.counts.pending = 0) {place : SecretPlace}
    (hplace : place ∈ countedPlaces) : db.RetiresAt place := by
  unfold SecretDb.encryptionStatus at h
  cases hcounts : db.countPlaces fails countedPlaces ⟨0, 0, 0⟩ with
  | error e =>
    rw [hcounts] at h
    cases h
  | ok counts =>
    rw [hcounts] at h
    have hstatus : status.counts = counts := by
      rw [← Except.ok.inj h]
    rw [hstatus] at hpending
    intro stored hmem hopens
    have hneeds := (countPlaces_pending hcounts hpending).2 place hplace stored hmem hopens
    exact retires_of_not_needsReseal ⟨db.keys.cipher, hlawful⟩ hneeds hopens

/-! ## §5. Re-sealing a place. -/

theorem after_resealRow (c : Cipher) (nonce : Except String String) (commits : Bool) (stored : String) :
    (c.resealRow nonce commits stored).after stored
      = if commits then (c.reseal nonce stored).getD stored else stored := by
  unfold Cipher.resealRow Cipher.reseal
  cases c.needsReseal stored with
  | false =>
    show stored = if commits then stored else stored
    rw [ite_self]
  | true =>
    show RowOutcome.after stored (match c.decrypt stored >>= c.encrypt nonce with
      | .error _ => .failed
      | .ok text => if commits then .resealed text else .failed) = _
    cases c.decrypt stored >>= c.encrypt nonce with
    | error e =>
      show stored = if commits then stored else stored
      rw [ite_self]
    | ok text =>
      cases commits with
      | true => rfl
      | false => rfl

namespace SecretDb
variable {db db' : SecretDb} {readings : RekeyReadings}

@[simp] theorem cipher_resealed (place : SecretPlace) :
    (db.resealed readings place).keys.cipher = db.keys.cipher := by
  cases place with
  | clientSecret =>
    unfold SecretDb.resealed
    dsimp only
    split
    · rfl
    · rfl
  | _ => rfl

/-- **The rows of a place after its re-sealing.** -/
theorem rows_resealed (place : SecretPlace) : (db.resealed readings place).rows place
    = (db.rows place).map fun row =>
        (row.1, row.2.map fun stored => (db.outcome readings place row.1 stored).after stored) := by
  have hcolumn : ∀ (k : Nat) (columns : KeyColumns) (place : SecretPlace),
      (if readings.commits place k then db.keys.resealed (readings.nonce place k) columns else columns).secret
        = columns.secret.map fun stored => (db.outcome readings place k stored).after stored := by
    intro k columns place
    unfold SecretDb.outcome
    simp only [after_resealRow]
    cases readings.commits place k with
    | true => rfl
    | false =>
      show columns.secret = columns.secret.map id
      rw [Option.map_id]
      rfl
  cases place with
  | tracking =>
    show List.map _ (List.map _ _) = List.map _ (List.map _ _)
    rw [List.map_map, List.map_map]
    exact List.map_congr_left fun e _ => congrArg (Prod.mk _) (hcolumn e.1.bits.toNat e.2.tracking .tracking)
  | server =>
    show List.map _ (List.map _ _) = List.map _ (List.map _ _)
    rw [List.map_map, List.map_map]
    exact List.map_congr_left fun e _ => congrArg (Prod.mk _) (hcolumn e.1.bits.toNat e.2.server .server)
  | token =>
    show List.map _ (List.map _ _) = List.map _ (List.map _ _)
    rw [List.map_map, List.map_map]
    exact List.map_congr_left fun e _ => congrArg (Prod.mk _) (hcolumn e.1 e.2.columns .token)
  | headers =>
    show List.map _ (List.map _ _) = List.map _ (List.map _ _)
    rw [List.map_map, List.map_map]
    rfl
  | clientSecret =>
    show [(0, clientSecretOf (db.resealed readings .clientSecret).oidc)]
      = [(0, (clientSecretOf db.oidc).map _)]
    unfold SecretDb.resealed
    dsimp only
    split
    next members stored hoidc hstored =>
      rw [hstored]
      show [(0, clientSecretOf (some (.obj (Properties.set members "client_secret" _))))] = _
      unfold clientSecretOf
      dsimp only
      rw [Properties.get_set_self]
      rfl
    next hother =>
      cases hstored : clientSecretOf db.oidc with
      | none => rfl
      | some stored =>
        have hmembers : ∃ members, db.oidc = some (.obj members) := by
          unfold clientSecretOf at hstored
          split at hstored
          · next members hoidc => exact ⟨members, hoidc⟩
          · cases hstored
        obtain ⟨members, hoidc⟩ := hmembers
        exact absurd hstored (hother members stored hoidc)

/-- The other places keep their rows. -/
theorem rows_resealed_of_ne {place other : SecretPlace} (h : other ≠ place) :
    (db.resealed readings place).rows other = db.rows other := by
  cases place with
  | tracking =>
    cases other with
    | tracking => exact absurd rfl h
    | server => exact List.map_map ..
    | token => rfl
    | headers => rfl
    | clientSecret => rfl
  | server =>
    cases other with
    | tracking => exact List.map_map ..
    | server => exact absurd rfl h
    | token => rfl
    | headers => rfl
    | clientSecret => rfl
  | token =>
    cases other with
    | token => exact absurd rfl h
    | tracking => rfl
    | server => rfl
    | headers => rfl
    | clientSecret => rfl
  | headers =>
    cases other with
    | headers => exact absurd rfl h
    | tracking => rfl
    | server => rfl
    | token => rfl
    | clientSecret => rfl
  | clientSecret =>
    unfold SecretDb.resealed
    dsimp only
    split
    · cases other with
      | clientSecret => exact absurd rfl h
      | tracking => rfl
      | server => rfl
      | token => rfl
      | headers => rfl
    · rfl

theorem tallyRow_failed {place : SecretPlace} {n : Tally} {row : Nat × Option String}
    (h : (db.tallyRow readings place n row).failed = 0) :
    n.failed = 0 ∧ ∀ stored, row.2 = some stored → db.outcome readings place row.1 stored ≠ .failed := by
  unfold SecretDb.tallyRow at h
  cases hrow : row.2 with
  | none =>
    rw [hrow] at h
    exact ⟨h, fun _ hstored => nomatch hstored⟩
  | some stored =>
    rw [hrow] at h
    dsimp only at h
    cases houtcome : db.outcome readings place row.1 stored with
    | failed =>
      rw [houtcome] at h
      exact absurd h (Nat.succ_ne_zero _)
    | kept =>
      rw [houtcome] at h
      refine ⟨h, fun other hother => ?_⟩
      rw [← Option.some.inj hother, houtcome]
      exact RowOutcome.noConfusion
    | resealed text =>
      rw [houtcome] at h
      refine ⟨h, fun other hother => ?_⟩
      rw [← Option.some.inj hother, houtcome]
      exact RowOutcome.noConfusion

/-- No failure in a tally: none before it, none in its rows. -/
theorem tally_failed {place : SecretPlace} {n : Tally} (h : (db.tally readings place n).failed = 0) :
    n.failed = 0 ∧ ∀ id stored, (id, some stored) ∈ db.rows place →
      db.outcome readings place id stored ≠ .failed := by
  unfold SecretDb.tally at h
  generalize db.rows place = rows at h ⊢
  induction rows generalizing n with
  | nil => exact ⟨h, fun _ _ hmem => nomatch hmem⟩
  | cons row rows ih =>
    obtain ⟨hfirst, hrest⟩ := ih h
    obtain ⟨hn, hrow⟩ := tallyRow_failed hfirst
    refine ⟨hn, fun id stored hmem => ?_⟩
    rcases List.mem_cons.mp hmem with rfl | hmem
    · exact hrow stored rfl
    · exact hrest id stored hmem

/-- What the ring opens in the rows of a place, the primary key opens alone. -/
def RowsRetire (db : SecretDb) (place : SecretPlace) : Prop :=
  ∀ id stored, (id, some stored) ∈ db.rows place → db.keys.cipher.Retires stored

/-- **A place re-sealed without a failure** needs the primary key alone. -/
theorem rowsRetire_resealed (hlawful : ∀ entry ∈ db.keys.cipher.keys, entry.Lawful) {n : Tally}
    {place : SecretPlace} (h : (db.tally readings place n).failed = 0) :
    (db.resealed readings place).RowsRetire place := by
  intro id stored hrow
  rw [cipher_resealed]
  rw [rows_resealed] at hrow
  obtain ⟨⟨id', secret⟩, hmem, heq⟩ := List.mem_map.mp hrow
  obtain ⟨rfl, hsecret⟩ := Prod.mk.inj heq
  obtain ⟨old, rfl, rfl⟩ := Option.map_eq_some_iff.mp hsecret
  have hok := (tally_failed h).2 id' old hmem
  unfold SecretDb.outcome Cipher.resealRow at hok ⊢
  dsimp only at hok ⊢
  cases hneeds : db.keys.cipher.needsReseal old with
  | false => exact retires_of_not_needsReseal ⟨db.keys.cipher, hlawful⟩ hneeds
  | true =>
    rw [hneeds] at hok
    rw [if_neg (by simp)] at hok ⊢
    cases hplain : db.keys.cipher.decrypt old with
    | error e =>
      rw [hplain] at hok
      exact absurd rfl hok
    | ok plain =>
      rw [hplain] at hok
      rw [show Except.ok plain >>= db.keys.cipher.encrypt (readings.nonce place id')
        = db.keys.cipher.encrypt (readings.nonce place id') plain from rfl] at hok ⊢
      cases hsealed : db.keys.cipher.encrypt (readings.nonce place id') plain with
      | error e =>
        rw [hsealed] at hok
        exact absurd rfl hok
      | ok text =>
        rw [hsealed] at hok
        cases hcommits : readings.commits place id' with
        | false =>
          rw [hcommits] at hok
          exact absurd rfl hok
        | true => exact fun _ => ⟨plain, primary_decrypt_encrypt ⟨db.keys.cipher, hlawful⟩ hsealed⟩

/-! ## §6. Re-sealing them all. -/

/-- What the loop over the columns does, when it reaches its end without a failure. -/
theorem resealColumns_retire {places : List SecretPlace} (hnodup : places.Nodup)
    (hlawful : ∀ entry ∈ db.keys.cipher.keys, entry.Lawful) {n n' : Tally}
    (h : resealColumns readings places db n = (db', n', none)) (hfailed : n'.failed = 0) :
    n.failed = 0 ∧ db'.keys.cipher = db.keys.cipher ∧ (∀ place ∈ places, db'.RowsRetire place)
      ∧ ∀ place ∉ places, db'.rows place = db.rows place := by
  induction places generalizing db n with
  | nil =>
    unfold SecretDb.resealColumns at h
    cases h
    exact ⟨hfailed, rfl, (fun _ hplace => nomatch hplace), fun _ _ => rfl⟩
  | cons place places ih =>
    unfold SecretDb.resealColumns at h
    split at h
    · cases h
    obtain ⟨hnew, hnodup⟩ := List.nodup_cons.mp hnodup
    have hlawful' : ∀ entry ∈ (db.resealed readings place).keys.cipher.keys, entry.Lawful := by
      rw [cipher_resealed]
      exact hlawful
    obtain ⟨htally, hcipher, hretire, hrows⟩ := ih hnodup hlawful' h
    rw [cipher_resealed] at hcipher
    have hplace := rowsRetire_resealed hlawful htally
    refine ⟨(tally_failed htally).1, hcipher, ?_, ?_⟩
    · intro other hother
      rcases List.mem_cons.mp hother with rfl | hother
      · -- The columns that come later leave this one.
        intro id stored hrow
        have hback : (db.resealed readings other).keys.cipher = db.keys.cipher := cipher_resealed other
        rw [hrows other hnew] at hrow
        rw [hcipher, ← hback]
        exact hplace id stored hrow
      · exact hretire other hother
    · intro other hother
      obtain ⟨hne, hother⟩ := not_or.mp fun h => hother (List.mem_cons.mpr h)
      rw [hrows other hother, rows_resealed_of_ne hne]

/-- A secret in force stands in a row. -/
theorem mem_rows_of_mem_secrets {place : SecretPlace} {stored : String} (h : some stored ∈ db.secrets place) :
    ∃ id, (id, some stored) ∈ db.rows place := by
  cases place with
  | token =>
    obtain ⟨e, he, hsecret⟩ := List.mem_map.mp h
    exact ⟨e.1, List.mem_map.mpr ⟨e, List.mem_of_mem_filter he, by rw [hsecret]⟩⟩
  | tracking =>
    obtain ⟨row, hrow, hsecret⟩ := List.mem_map.mp h
    exact ⟨row.1, hsecret ▸ hrow⟩
  | server =>
    obtain ⟨row, hrow, hsecret⟩ := List.mem_map.mp h
    exact ⟨row.1, hsecret ▸ hrow⟩
  | headers =>
    obtain ⟨row, hrow, hsecret⟩ := List.mem_map.mp h
    exact ⟨row.1, hsecret ▸ hrow⟩
  | clientSecret =>
    obtain ⟨row, hrow, hsecret⟩ := List.mem_map.mp h
    exact ⟨row.1, hsecret ▸ hrow⟩

/-- What a request that completes without a failure leaves. -/
theorem rekeySecrets_retires (hlawful : ∀ entry ∈ db.keys.cipher.keys, entry.Lawful) {role : String} {n : Tally}
    (h : db.rekeySecrets readings role = (db', .ok n)) (hfailed : n.failed = 0) :
    db'.keys.cipher = db.keys.cipher ∧ (∀ place ∈ resealedPlaces, db'.RowsRetire place)
      ∧ if readings.fails .clientSecret = none then db'.RowsRetire .clientSecret
        else db'.rows .clientSecret = db.rows .clientSecret := by
  unfold SecretDb.rekeySecrets at h
  split at h
  · cases h
  split at h
  · cases h
  split at h
  · cases h
  next after m hcolumns =>
    unfold SecretDb.resealOIDCSecret at h
    cases hfails : readings.fails .clientSecret with
    | some message =>
      rw [hfails] at h
      cases h
      obtain ⟨-, hcipher, hretire, hrows⟩ := resealColumns_retire (by decide) hlawful hcolumns hfailed
      rw [if_neg (by simp)]
      exact ⟨hcipher, hretire, hrows .clientSecret (by decide)⟩
    | none =>
      rw [hfails] at h
      cases h
      have htally := (tally_failed hfailed).1
      obtain ⟨-, hcipher, hretire, -⟩ := resealColumns_retire (by decide) hlawful hcolumns htally
      have hlawful' : ∀ entry ∈ after.keys.cipher.keys, entry.Lawful := by
        rw [hcipher]
        exact hlawful
      rw [if_pos rfl]
      refine ⟨?_, ?_, rowsRetire_resealed hlawful' hfailed⟩
      · show (after.resealed readings .clientSecret).keys.cipher = _
        rw [cipher_resealed, hcipher]
      · intro place hplace id stored hrow
        have hne : place ≠ .clientSecret := by
          rintro rfl
          revert hplace
          decide
        have hbefore : (id, some stored) ∈ after.rows place := by
          rw [← rows_resealed_of_ne hne]
          exact hrow
        show (after.resealed readings .clientSecret).keys.cipher.Retires stored
        rw [cipher_resealed]
        exact hretire place hplace id stored hbefore

theorem RowsRetire.retiresAt {place : SecretPlace} (h : db.RowsRetire place) : db.RetiresAt place := by
  intro stored hmem
  obtain ⟨id, hrow⟩ := mem_rows_of_mem_secrets hmem
  exact h id stored hrow

end SecretDb

/-- **THE TWO SIGNALS, AND WHAT THEY LEAVE OUT.**  With nothing pending the previous keys
may go unless they seal the headers of a delivery channel or the client secret; after a
re-sealing without a failure, unless they seal a client secret that could not be read. -/
theorem previous_keys_retire (db : SecretDb) (hlawful : ∀ entry ∈ db.keys.cipher.keys, entry.Lawful) :
    (∀ fails status, db.encryptionStatus fails = .ok status → status.counts.pending = 0 →
      (db.Safe ↔ ¬db.HoldsPrevious .headers ∧ ¬db.HoldsPrevious .clientSecret))
    ∧ ∀ readings role db' tally, db.rekeySecrets readings role = (db', .ok tally) → tally.failed = 0 →
      (db'.Safe ↔ readings.fails .clientSecret = none ∨ ¬db.HoldsPrevious .clientSecret) := by
  constructor
  · intro fails status hstatus hpending
    constructor
    · intro h
      exact ⟨(retiresAt_iff hlawful _).mp (h .headers), (retiresAt_iff hlawful _).mp (h .clientSecret)⟩
    · rintro ⟨hheaders, hclient⟩ place
      cases place with
      | headers => exact (retiresAt_iff hlawful _).mpr hheaders
      | clientSecret => exact (retiresAt_iff hlawful _).mpr hclient
      | tracking => exact retiresAt_of_pending hlawful hstatus hpending (by decide)
      | server => exact retiresAt_of_pending hlawful hstatus hpending (by decide)
      | token => exact retiresAt_of_pending hlawful hstatus hpending (by decide)
  · intro readings role db' tally hrekey hfailed
    obtain ⟨hcipher, hretire, hclient⟩ := SecretDb.rekeySecrets_retires hlawful hrekey hfailed
    have hothers : ∀ place, place ≠ .clientSecret → db'.RetiresAt place := by
      intro place hne
      refine SecretDb.RowsRetire.retiresAt (hretire place ?_)
      cases place with
      | clientSecret => exact absurd rfl hne
      | _ => decide
    cases hfails : readings.fails .clientSecret with
    | none =>
      rw [if_pos hfails] at hclient
      refine ⟨fun _ => Or.inl rfl, fun _ place => ?_⟩
      by_cases hplace : place = .clientSecret
      · rw [hplace]
        exact hclient.retiresAt
      · exact hothers place hplace
    | some message =>
      rw [if_neg (by simp [hfails])] at hclient
      -- The row is the one that could not be read.
      have hsecrets : db'.secrets .clientSecret = db.secrets .clientSecret :=
        congrArg (List.map Prod.snd) hclient
      have hsame : db'.RetiresAt .clientSecret ↔ db.RetiresAt .clientSecret := by
        unfold SecretDb.RetiresAt
        rw [hsecrets, hcipher]
      rw [← retiresAt_iff hlawful]
      constructor
      · exact fun h => Or.inr (hsame.mp (h .clientSecret))
      · intro h place
        by_cases hplace : place = .clientSecret
        · rw [hplace]
          exact hsame.mpr (h.resolve_left fun hnone => nomatch hnone)
        · exact hothers place hplace

namespace Sample

open Momento.Sample

/-- A text sealed with the first passphrase. -/
def sealedOld (nonce plain : String) : String := sealedText oldKey nonce plain

/-- A site whose keys wait for their re-sealing. -/
def waiting : SecretDb := ⟨oldSeals, ∅, none⟩

/-- A delivery channel with sealed headers, and no site. -/
def channelOnly : SecretDb where
  keys := after [.restart ring]
  channels := AList.insert siteId
    (some (sealedOld "header-nonce" "\x7b\"Authorization\":\"Bearer token\"\x7d")) ∅
  oidc := none

/-- A sealed client secret, and no site. -/
def clientOnly : SecretDb where
  keys := after [.restart ring]
  channels := ∅
  oidc := some (.obj [("client_secret", .str (sealedOld "client-nonce" "client secret"))])

/-- The nonces of a re-sealing. -/
def nonceFor : SecretPlace → Nat → Except String String
  | .tracking, _ => .ok "second-nonce"
  | _, _ => .ok "fourth-nonce"

def readable : RekeyReadings := ⟨fun _ => none, nonceFor, fun _ _ => true⟩

/-- The site after the re-sealing, with a channel whose headers the primary key seals. -/
def resealed : SecretDb :=
  { (waiting.rekeySecrets readable "super_admin").1 with
    channels := AList.insert siteId (some (sealedText newKey "header-nonce" "\x7b\x7d")) ∅ }

/-- The settings cannot be read. -/
def settingsDown : RekeyReadings :=
  { readable with fails := fun place => if place = .clientSecret then some "timeout" else none }

end Sample

/-- Two keys are re-sealed, and the first passphrase may go; the status says so too, as
no header and no client secret needs it. -/
theorem previous_keys_retire_rekeyed :
    (∃ db' tally, Sample.waiting.rekeySecrets Sample.readable "super_admin" = (db', .ok tally)
        ∧ tally.resealed = 2 ∧ db'.Safe)
      ∧ ∃ status, Sample.resealed.encryptionStatus (fun _ => none) = .ok status ∧ status.counts.pending = 0
        ∧ Sample.resealed.Safe := by
  constructor
  · have htally : (Sample.waiting.rekeySecrets Sample.readable "super_admin").2.toOption.map
        (fun n => (n.resealed, n.failed)) = some (2, 0) := by
      decide +kernel
    rcases hrekey : Sample.waiting.rekeySecrets Sample.readable "super_admin" with ⟨db', answer⟩
    rw [hrekey] at htally
    cases answer with
    | error e => cases htally
    | ok tally =>
      have hcounts : (tally.resealed, tally.failed) = (2, 0) := Option.some.inj htally
      obtain ⟨hresealed, hfailed⟩ := Prod.mk.inj hcounts
      refine ⟨db', tally, rfl, hresealed, ?_⟩
      exact ((previous_keys_retire Sample.waiting Sample.ring_lawful).2 _ _ _ _ hrekey hfailed).mpr (Or.inl rfl)
  · have hpending : (Sample.resealed.encryptionStatus fun _ => none).toOption.map
        (fun status => status.counts.pending) = some 0 := by
      decide +kernel
    have hheaders : ∀ stored ∈ Sample.resealed.secrets .headers,
        stored.all (Sample.resealed.keys.cipher.sealedByPrevious ·) = false := by
      decide +kernel
    have hclient : ∀ stored ∈ Sample.resealed.secrets .clientSecret, stored = none := by decide +kernel
    cases hstatus : Sample.resealed.encryptionStatus fun _ => none with
    | error e =>
      rw [hstatus] at hpending
      cases hpending
    | ok status =>
      rw [hstatus] at hpending
      refine ⟨status, rfl, Option.some.inj hpending, ?_⟩
      refine ((previous_keys_retire Sample.resealed Sample.ring_lawful).1 _ status hstatus
        (Option.some.inj hpending)).mpr ⟨?_, ?_⟩
      · rintro ⟨stored, hmem, -, hprevious⟩
        have hprimary := hheaders _ hmem
        rw [Option.all_some, hprevious] at hprimary
        cases hprimary
      · rintro ⟨stored, hmem, -⟩
        cases hclient _ hmem

/-- **Neither signal is one**: nothing is pending, and a delivery channel's headers need
the previous key; nothing failed, and the client secret does. -/
theorem signals_unsafe :
    (¬∀ db : SecretDb, (∀ entry ∈ db.keys.cipher.keys, entry.Lawful) → ∀ fails status,
      db.encryptionStatus fails = .ok status → status.counts.pending = 0 → db.Safe)
    ∧ ¬∀ db : SecretDb, (∀ entry ∈ db.keys.cipher.keys, entry.Lawful) → ∀ readings role db' tally,
      db.rekeySecrets readings role = (db', .ok tally) → tally.failed = 0 → db'.Safe := by
  constructor
  · intro h
    have hpending : (Sample.channelOnly.encryptionStatus fun _ => none).toOption.map
        (fun status => status.counts.pending) = some 0 := by
      decide +kernel
    cases hstatus : Sample.channelOnly.encryptionStatus fun _ => none with
    | error e =>
      rw [hstatus] at hpending
      cases hpending
    | ok status =>
      rw [hstatus] at hpending
      have hsafe := h Sample.channelOnly Sample.ring_lawful _ status hstatus (Option.some.inj hpending)
      refine (retiresAt_iff Sample.ring_lawful .headers).mp (hsafe .headers) ?_
      refine ⟨Sample.sealedOld "header-nonce" "\x7b\"Authorization\":\"Bearer token\"\x7d", ?_, ?_, ?_⟩
      · decide +kernel
      · exact ⟨"\x7b\"Authorization\":\"Bearer token\"\x7d", by decide +kernel⟩
      · decide +kernel
  · intro h
    have htally : (Sample.clientOnly.rekeySecrets Sample.settingsDown "super_admin").2.toOption.map
        Tally.failed = some 0 := by
      decide +kernel
    have hleft : (Sample.clientOnly.rekeySecrets Sample.settingsDown "super_admin").1.secrets .clientSecret
        = [some (Sample.sealedOld "client-nonce" "client secret")] := by
      decide +kernel
    have hring : (Sample.clientOnly.rekeySecrets Sample.settingsDown "super_admin").1.keys.cipher
        = Sample.ring := rfl
    rcases hrekey : Sample.clientOnly.rekeySecrets Sample.settingsDown "super_admin" with ⟨db', answer⟩
    rw [hrekey] at htally hleft hring
    cases answer with
    | error e => cases htally
    | ok tally =>
      have hsafe := h Sample.clientOnly Sample.ring_lawful _ _ db' tally hrekey (Option.some.inj htally)
      have hlawful : ∀ entry ∈ db'.keys.cipher.keys, entry.Lawful := by
        rw [hring]
        exact Sample.ring_lawful
      refine (retiresAt_iff hlawful .clientSecret).mp (hsafe .clientSecret) ?_
      unfold SecretDb.HoldsPrevious
      rw [hleft, hring]
      refine ⟨Sample.sealedOld "client-nonce" "client secret", List.mem_singleton_self _, ?_, ?_⟩
      · exact ⟨"client secret", by decide +kernel⟩
      · decide +kernel

end Momento.Keys
