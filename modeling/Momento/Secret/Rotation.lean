/-
  Momento.Secret.Rotation

  **KEYRINGS THAT FOLLOW ONE ANOTHER.**  `New` makes a keyring of a primary key and
  the previous ones; a sealed text carries the fingerprint of the key that sealed it,
  and only a key with that fingerprint is tried.  Administrators replace the keyring,
  the service re-seals what it stores: here are both, over any history.

  AES-GCM and SHA-256 are parameters.  Base 64 is not: sealed texts are read back.
-/
import Momento.Foundation.BaseText
import Momento.Service.Keyring

namespace Momento.Secret

open Foundation.QueryString Foundation.BaseText Momento.Keys

/-! ## §1. Keys. -/

/-- `NonceSize`. -/
def nonceSize : Nat := 12

/-- Twelve bytes. -/
structure Nonce where
  bytes : Bytes
  sized : bytes.length = nonceSize

/-- What the package calls: SHA-256, and AES-256-GCM of texts: key, nonce, plaintext or
sealed bytes, additional data. -/
structure Crypto where
  sha256 : Bytes → Bytes
  gcmSeal : Bytes → Bytes → String → String → Bytes
  gcmOpen : Bytes → Bytes → Bytes → String → Option String

/-- The cipher opens what it seals; a digest has its size. -/
structure Crypto.Correct (crypto : Crypto) : Prop where
  sized : ∀ bytes, (crypto.sha256 bytes).length = 32
  opens : ∀ key nonce plain data, crypto.gcmOpen key nonce (crypto.gcmSeal key nonce plain data) data = some plain

/-- A `keyEntry`; its cipher is determined by the key. -/
structure KeyEntry where
  id : String
  raw : Bytes
  deriving DecidableEq

section Keys
variable (crypto : Crypto)

/-- `fingerprint`. -/
def fingerprint (raw : Bytes) : String :=
  hexText ((crypto.sha256 (ofText "momento-encryption-key-id:" ++ raw)).take 4)

/-- `decodeKey`: thirty-two bytes, in hexadecimal or one of four ways in base 64. -/
def decodeKey (value : String) : Option Bytes :=
  [hexBytes value.toList, decode64 .std true value.toList, decode64 .std false value.toList,
    decode64 .url true value.toList, decode64 .url false value.toList].findSome?
      fun decoded => decoded.filter fun raw => raw.length = 32

/-- `MinPassphraseLength`. -/
def minPassphraseLength : Nat := 16

/-- `newKeyEntry`. -/
def newKeyEntry (material : String) : Except String KeyEntry :=
  match decodeKey (trimSpace material) with
  | some raw => .ok ⟨fingerprint crypto raw, raw⟩
  | none =>
    let trimmed := ofText (trimSpace material)
    if trimmed.length < minPassphraseLength then
      .error ("must be a base64 or hex encoded 32 byte key, or a passphrase of at least "
        ++ toString minPassphraseLength ++ " characters")
    else .ok ⟨fingerprint crypto (crypto.sha256 trimmed), crypto.sha256 trimmed⟩

/-- The keyring; the first key seals. -/
structure Cipher where
  keys : List KeyEntry

/-- `nonEmpty`. -/
def nonEmpty (values : List String) : List String := values.filter fun value => trimSpace value ≠ ""

/-- `New`. -/
def new (primary : String) (previous : List String) : Except String Cipher :=
  if trimSpace primary = "" then
    if nonEmpty previous ≠ [] then .error "MOMENTO_ENCRYPTION_KEY_PREVIOUS requires MOMENTO_ENCRYPTION_KEY"
    else .ok ⟨[]⟩
  else
    match newKeyEntry crypto primary with
    | .error e => .error ("MOMENTO_ENCRYPTION_KEY: " ++ e)
    | .ok entry =>
      match (nonEmpty previous).mapM (newKeyEntry crypto) with
      | .error e => .error ("MOMENTO_ENCRYPTION_KEY_PREVIOUS: " ++ e)
      -- a previous key that is the primary one is left out
      | .ok olds => .ok ⟨entry :: olds.filter fun old => old.id ≠ entry.id⟩

end Keys

/-! ## §2. Sealing and opening. -/

section Sealing
variable (crypto : Crypto) (c : Cipher)

/-- What an entry seals: the mark, its fingerprint, and nonce and cipher text. -/
def sealedText (entry : KeyEntry) (nonce : Nonce) (plain : String) : String :=
  sealedMark ++ entry.id ++ ":"
    ++ String.ofList (encode64 .url (nonce.bytes ++ crypto.gcmSeal entry.raw nonce.bytes plain entry.id))

/-- `Encrypt`; the nonce is drawn, or drawing it fails. -/
def Cipher.encrypt (nonce : Except String Nonce) (plain : String) : Except String String :=
  if plain = "" then .ok ""
  else match c.keys with
    | [] => .error "secret encryption is disabled: set MOMENTO_ENCRYPTION_KEY"
    | entry :: _ => nonce.map fun nonce => sealedText crypto entry nonce plain

/-- One entry opens the bytes: the nonce and the cipher text. -/
def KeyEntry.openBytes (entry : KeyEntry) (raw : Bytes) : Except String String :=
  if raw.length < nonceSize then .error "sealed secret is malformed"
  else match crypto.gcmOpen entry.raw (raw.take nonceSize) (raw.drop nonceSize) entry.id with
    | none => .error "stored secret was sealed with a different encryption key"
    | some opened => .ok opened

/-- `Decrypt`. -/
def Cipher.decrypt (stored : String) : Except String String :=
  if !isSealed stored then .ok stored
  else
    let rest := stored.toList.drop sealedMark.length
    let id := String.ofList (rest.takeWhile (· ≠ ':'))
    let body := (rest.dropWhile (· ≠ ':')).tail
    if ':' ∉ rest ∨ id = "" ∨ body = [] then .error "sealed secret is malformed"
    else if c.keys = [] then .error "secret encryption is disabled: set MOMENTO_ENCRYPTION_KEY"
    else match decode64 .url false body with
      | none => .error "sealed secret is malformed"
      | some raw =>
        -- the key is the one the text names; no other is tried
        match c.keys.find? fun entry => entry.id = id with
        | none => .error "stored secret was sealed with a different encryption key"
        | some entry => entry.openBytes crypto raw

/-- `NeedsReseal`. -/
def Cipher.needsReseal (stored : String) : Bool :=
  match c.keys with
  | [] => false
  | entry :: _ =>
    stored ≠ "" && (!isSealed stored
      || !(sealedMark ++ entry.id ++ ":").toList.isPrefixOf stored.toList)

/-- `resealColumn`, for one value. -/
def Cipher.reseal (nonce : Except String Nonce) (stored : String) : Option String :=
  if !c.needsReseal stored then none
  else (c.decrypt crypto stored >>= c.encrypt crypto nonce).toOption

end Sealing

/-! ## §3. One sealed text. -/

section Opening
variable {crypto : Crypto} {c : Cipher}

theorem hexText_ne_empty {bytes : Bytes} (h : bytes ≠ []) : hexText bytes ≠ "" := by
  intro hempty
  have hchars := congrArg String.toList hempty
  unfold hexText at hchars
  rw [String.toList_ofList] at hchars
  cases bytes with
  | nil => exact h rfl
  | cons b rest => simp at hchars

/-- A fingerprint is eight hexadecimal digits. -/
theorem fingerprint_named (hcorrect : crypto.Correct) (raw : Bytes) :
    fingerprint crypto raw ≠ "" ∧ ':' ∉ (fingerprint crypto raw).toList := by
  constructor
  · apply hexText_ne_empty
    intro h
    have hlength := congrArg List.length h
    rw [List.length_take, hcorrect.sized] at hlength
    cases hlength
  · intro h
    have hmem := hexText_mem h
    revert hmem
    decide

/-- The entry a key has, however it was written. -/
def entryOf (crypto : Crypto) (raw : Bytes) : KeyEntry := ⟨fingerprint crypto raw, raw⟩

theorem newKeyEntry_eq {material : String} {entry : KeyEntry} (h : newKeyEntry crypto material = .ok entry) :
    entry = entryOf crypto entry.raw := by
  unfold newKeyEntry at h
  split at h
  · rw [← Except.ok.inj h]
    rfl
  · simp only at h
    split at h
    · cases h
    · rw [← Except.ok.inj h]
      rfl

/-- What stands after the mark: the name, a colon, the rest. -/
theorem drop_named (id rest : String) :
    (sealedMark ++ id ++ ":" ++ rest).toList.drop sealedMark.length = id.toList ++ ':' :: rest.toList := by
  have hsplit : sealedMark ++ id ++ ":" ++ rest = sealedMark ++ (id ++ ":" ++ rest) := by
    rw [String.append_assoc, String.append_assoc, String.append_assoc]
  rw [hsplit, toList_drop_mark]
  simp

theorem isSealed_named (id rest : String) : isSealed (sealedMark ++ id ++ ":" ++ rest) = true := by
  rw [String.append_assoc, String.append_assoc]
  exact isSealed_append _

/-- `Decrypt` of a text that names a key. -/
theorem decrypt_named {id : String} (hid : id ≠ "") (hplain : ':' ∉ id.toList) {body : List Char} (hbody : body ≠ [])
    (hkeys : c.keys ≠ []) :
    c.decrypt crypto (sealedMark ++ id ++ ":" ++ String.ofList body)
      = match decode64 .url false body with
        | none => .error "sealed secret is malformed"
        | some raw =>
          match c.keys.find? fun entry => entry.id = id with
          | none => .error "stored secret was sealed with a different encryption key"
          | some entry => entry.openBytes crypto raw := by
  unfold Cipher.decrypt
  rw [isSealed_named, drop_named, String.toList_ofList]
  dsimp only
  rw [takeWhile_named hplain, dropWhile_named hplain, String.ofList_toList, if_neg (by simp),
    if_neg (by simp [hid, hbody]), if_neg hkeys]

/-- **The ring opens what a key of it sealed**, the fingerprints of its keys being
those of different keys. -/
theorem decrypt_sealedText (hcorrect : crypto.Correct) (hentries : ∀ entry ∈ c.keys, entry = entryOf crypto entry.raw)
    {raw : Bytes} (hkept : ∃ entry ∈ c.keys, entry.raw = raw)
    (hdistinct : ∀ entry ∈ c.keys, fingerprint crypto entry.raw = fingerprint crypto raw → entry.raw = raw)
    (nonce : Nonce) (plain : String) :
    c.decrypt crypto (sealedText crypto (entryOf crypto raw) nonce plain) = .ok plain := by
  obtain ⟨entry, hentry, hraw⟩ := hkept
  obtain ⟨hid, hplain⟩ := fingerprint_named hcorrect raw
  have hkeys : c.keys ≠ [] := List.ne_nil_of_mem hentry
  have hbody : encode64 .url (nonce.bytes ++ crypto.gcmSeal raw nonce.bytes plain (fingerprint crypto raw)) ≠ [] := by
    refine encode64_ne_nil ?_
    intro hnil
    have hsized := nonce.sized
    rw [(List.append_eq_nil_iff.mp hnil).1] at hsized
    cases hsized
  have hsealed : sealedText crypto (entryOf crypto raw) nonce plain
      = sealedMark ++ fingerprint crypto raw ++ ":" ++ String.ofList
          (encode64 .url (nonce.bytes ++ crypto.gcmSeal raw nonce.bytes plain (fingerprint crypto raw))) := rfl
  rw [hsealed, decrypt_named hid hplain hbody hkeys, decode64_encode64]
  dsimp only
  -- the first key with that fingerprint is the key itself
  cases hfound : c.keys.find? fun entry => entry.id = fingerprint crypto raw with
  | none =>
    have hnone := List.find?_eq_none.mp hfound entry hentry
    rw [hentries entry hentry, hraw] at hnone
    exact absurd (decide_eq_true rfl) hnone
  | some found =>
    have hmem := List.mem_of_find?_eq_some hfound
    have hfoundId := List.find?_some hfound
    have hname : found.id = fingerprint crypto raw := of_decide_eq_true hfoundId
    have hsame : found.raw = raw := by
      refine hdistinct found hmem ?_
      rw [← hname]
      exact (congrArg KeyEntry.id (hentries found hmem)).symm
    have htake : (nonce.bytes ++ crypto.gcmSeal raw nonce.bytes plain (fingerprint crypto raw)).take nonceSize
        = nonce.bytes := List.take_left' nonce.sized
    have hdrop : (nonce.bytes ++ crypto.gcmSeal raw nonce.bytes plain (fingerprint crypto raw)).drop nonceSize
        = crypto.gcmSeal raw nonce.bytes plain (fingerprint crypto raw) := List.drop_left' nonce.sized
    have hlong : ¬(nonce.bytes ++ crypto.gcmSeal raw nonce.bytes plain (fingerprint crypto raw)).length < nonceSize := by
      rw [List.length_append, nonce.sized]
      omega
    show found.openBytes crypto _ = _
    unfold KeyEntry.openBytes
    rw [if_neg hlong, htake, hdrop, hsame, hname, hcorrect.opens]

/-- The mark of a key is on what it sealed. -/
theorem named_sealedText (entry : KeyEntry) (nonce : Nonce) (plain : String) :
    (sealedMark ++ entry.id ++ ":").toList.isPrefixOf (sealedText crypto entry nonce plain).toList = true := by
  rw [List.isPrefixOf_iff_prefix]
  exact ⟨_, String.toList_append.symm⟩

theorem isSealed_sealedText (entry : KeyEntry) (nonce : Nonce) (plain : String) :
    isSealed (sealedText crypto entry nonce plain) = true :=
  isSealed_named _ _

/-- **Which key a sealed text names**: the one that sealed it, and no other. -/
theorem named_iff {id : String} (hid : ':' ∉ id.toList) {entry : KeyEntry} (hentry : ':' ∉ entry.id.toList)
    (nonce : Nonce) (plain : String) :
    (sealedMark ++ id ++ ":").toList.isPrefixOf (sealedText crypto entry nonce plain).toList = true ↔ entry.id = id := by
  constructor
  · intro h
    obtain ⟨body, hbody⟩ := exists_body h
    unfold sealedText at hbody
    have hrest := congrArg (fun s => s.toList.drop sealedMark.length) hbody
    simp only [drop_named] at hrest
    have hnames := congrArg (List.takeWhile fun c => decide (c ≠ ':')) hrest
    rw [takeWhile_named hentry, takeWhile_named hid] at hnames
    exact String.toList_injective hnames
  · rintro rfl
    exact named_sealedText entry nonce plain

end Opening

/-! ## §4. The keyrings of the key storage. -/

/-- A drawn nonce by its characters. -/
def nonceOf (drawn : String) : Nonce where
  bytes := (drawn.toList.map (fun c : Char => Fin.ofNat 256 c.toNat) ++ List.replicate nonceSize 0).take nonceSize
  sized := by simp

/-- The entry as the keyring has it. -/
def KeyEntry.toKeys (crypto : Crypto) (entry : KeyEntry) : Keys.KeyEntry where
  id := entry.id
  sealText nonce plain :=
    String.ofList (encode64 .url ((nonceOf nonce).bytes
      ++ crypto.gcmSeal entry.raw (nonceOf nonce).bytes plain entry.id))
  openText body :=
    match decode64 .url false body.toList with
    | none => .error "sealed secret is malformed"
    | some raw => entry.openBytes crypto raw

/-- The cipher as a keyring. -/
def Cipher.toKeys (crypto : Crypto) (c : Cipher) : Keys.Cipher := ⟨c.keys.map (KeyEntry.toKeys crypto)⟩

section Refinement
variable {crypto : Crypto}

theorem openText_sealText (hcorrect : crypto.Correct) (entry : KeyEntry) (nonce plain : String) :
    (entry.toKeys crypto).openText ((entry.toKeys crypto).sealText nonce plain) = .ok plain := by
  have hsized := (nonceOf nonce).sized
  have htake : ((nonceOf nonce).bytes ++ crypto.gcmSeal entry.raw (nonceOf nonce).bytes plain entry.id).take nonceSize
      = (nonceOf nonce).bytes := List.take_left' hsized
  have hdrop : ((nonceOf nonce).bytes ++ crypto.gcmSeal entry.raw (nonceOf nonce).bytes plain entry.id).drop nonceSize
      = crypto.gcmSeal entry.raw (nonceOf nonce).bytes plain entry.id := List.drop_left' hsized
  have hlong : ¬((nonceOf nonce).bytes ++ crypto.gcmSeal entry.raw (nonceOf nonce).bytes plain entry.id).length
      < nonceSize := by
    rw [List.length_append, hsized]
    omega
  simp only [KeyEntry.toKeys, String.toList_ofList, decode64_encode64]
  unfold KeyEntry.openBytes
  rw [if_neg hlong, htake, hdrop, hcorrect.opens]

/-- **What `newKeyEntry` makes is a key as the key storage assumes it.** -/
theorem toKeys_lawful (hcorrect : crypto.Correct) (raw : Bytes) : ((entryOf crypto raw).toKeys crypto).Lawful where
  named := (fingerprint_named hcorrect raw).1
  plainName := (fingerprint_named hcorrect raw).2
  body := by
    intro nonce plain hempty
    have hchars := congrArg String.toList hempty
    simp only [KeyEntry.toKeys, String.toList_ofList] at hchars
    refine encode64_ne_nil ?_ hchars
    intro hnil
    have hsized := (nonceOf nonce).sized
    rw [(List.append_eq_nil_iff.mp hnil).1] at hsized
    cases hsized
  opens := openText_sealText hcorrect (entryOf crypto raw)

theorem encrypt_toKeys (c : Cipher) (nonce : Except String String) (plain : String) :
    (c.toKeys crypto).encrypt nonce plain = c.encrypt crypto (nonce.map nonceOf) plain := by
  unfold Keys.Cipher.encrypt Cipher.encrypt Cipher.toKeys
  cases hkeys : c.keys with
  | nil => rfl
  | cons entry rest =>
    cases nonce with
    | error e => rfl
    | ok nonce => rfl

theorem needsReseal_toKeys (c : Cipher) (stored : String) :
    (c.toKeys crypto).needsReseal stored = c.needsReseal stored := by
  unfold Keys.Cipher.needsReseal Cipher.needsReseal Cipher.toKeys
  cases c.keys with
  | nil => rfl
  | cons entry rest => rfl

/-- **Both open the same texts to the same secrets**; what is wrong with a text that
does not open they may say in another order. -/
theorem decrypt_toKeys (c : Cipher) (stored : String) :
    ((c.toKeys crypto).decrypt stored).toOption = (c.decrypt crypto stored).toOption := by
  unfold Keys.Cipher.decrypt Cipher.decrypt
  by_cases hsealed : isSealed stored = true
  · rw [hsealed]
    simp only [Bool.not_true, Bool.false_eq_true, if_false]
    generalize stored.toList.drop sealedMark.length = rest
    have hbody : String.ofList (rest.dropWhile fun c => decide (c ≠ ':')).tail = ""
        ↔ (rest.dropWhile fun c => decide (c ≠ ':')).tail = [] := by
      rw [← String.toList_inj, String.toList_ofList]
      rfl
    simp only [hbody]
    split
    · rfl
    have henabled : (c.toKeys crypto).enabled = true ↔ c.keys ≠ [] := by
      unfold Keys.Cipher.enabled Cipher.toKeys
      cases c.keys with
      | nil => simp
      | cons entry rest => simp
    by_cases hkeys : c.keys = []
    · have hdisabled : (!(c.toKeys crypto).enabled) = true := by
        rw [Bool.not_eq_true', ← Bool.not_eq_true, henabled]
        exact not_not.mpr hkeys
      rw [if_pos hkeys, if_pos hdisabled]
    · rw [if_neg hkeys, henabled.mpr hkeys]
      simp only [Bool.not_true, Bool.false_eq_true, if_false]
      unfold Cipher.toKeys
      rw [List.find?_map]
      -- decoded before the key is looked for, or after
      have hfind : (fun entry => decide (entry.id = String.ofList (rest.takeWhile fun c => decide (c ≠ ':'))))
          ∘ KeyEntry.toKeys crypto
          = fun entry : KeyEntry => decide (entry.id = String.ofList (rest.takeWhile fun c => decide (c ≠ ':'))) := rfl
      rw [hfind]
      cases c.keys.find? _ with
      | none =>
        simp only [Option.map_none]
        cases decode64 .url false _ with
        | none => rfl
        | some raw => rfl
      | some entry =>
        simp only [Option.map_some, KeyEntry.toKeys, String.toList_ofList]
  · rw [Bool.not_eq_true] at hsealed
    rw [hsealed]
    rfl

end Refinement

/-! ## §5. Histories. -/

/-- A stored secret, and what no table holds: its plaintext, and the key it was sealed
with last. -/
structure Stored where
  text : String
  plain : String
  sealedWith : Option Bytes
  deriving DecidableEq

/-- The cipher, and what it has stored. -/
structure Vault where
  cipher : Cipher
  values : List Stored

/-- What can happen. -/
inductive VaultAction
  /-- A restart under another keyring. -/
  | rotate (primary : String) (previous : List String)
  | store (plain : String) (nonce : Except String Nonce)
  /-- A text stored in the clear. -/
  | storeClear (text : String)
  | reseal (i : Nat) (nonce : Except String Nonce)

namespace Vault
variable (crypto : Crypto) (v : Vault)

/-- No key and no secret yet. -/
def start : Vault := ⟨⟨[]⟩, []⟩

/-- The key that seals. -/
def primaryKey : Option Bytes := v.cipher.keys.head?.map KeyEntry.raw

/-- **A step.** -/
def step : VaultAction → Vault
  | .rotate primary previous =>
    match new crypto primary previous with
    | .ok cipher => { v with cipher := cipher }
    | .error _ => v
  | .store plain nonce =>
    match v.cipher.encrypt crypto nonce plain with
    | .ok text => { v with values := v.values ++ [⟨text, plain, if plain = "" then none else v.primaryKey⟩] }
    | .error _ => v
  | .storeClear text =>
    if isSealed text then v else { v with values := v.values ++ [⟨text, text, none⟩] }
  | .reseal i nonce =>
    { v with values := v.values.modify i fun value =>
        match v.cipher.reseal crypto nonce value.text with
        | some text => { value with text := text, sealedWith := v.primaryKey }
        | none => value }

/-- The steps in order. -/
def run (actions : List VaultAction) : Vault := actions.foldl (step crypto) v

/-- The new keyring has every key still in use, as its primary or as a previous one. -/
def KeepsKeys : VaultAction → Prop
  | .rotate primary previous =>
    ∀ c, new crypto primary previous = .ok c → ∀ value ∈ v.values, ∀ raw, value.sealedWith = some raw →
      ∃ material ∈ primary :: nonEmpty previous, newKeyEntry crypto material = .ok (entryOf crypto raw)
  | _ => True

/-- Along a run, every new keyring has them. -/
def AllKeep : Vault → List VaultAction → Prop
  | _, [] => True
  | v, a :: actions => v.KeepsKeys crypto a ∧ AllKeep (v.step crypto a) actions

end Vault

/-- The keys of the keyrings of a history. -/
def keysOf (crypto : Crypto) (actions : List VaultAction) : List Bytes :=
  actions.flatMap fun
    | .rotate primary previous =>
      (primary :: nonEmpty previous).filterMap fun material =>
        ((newKeyEntry crypto material).toOption).map KeyEntry.raw
    | _ => []

section Histories
variable {crypto : Crypto}

theorem mapM_ok {α β ε : Type} {f : α → Except ε β} {xs : List α} {ys : List β} (h : xs.mapM f = .ok ys) :
    (∀ y ∈ ys, ∃ x ∈ xs, f x = .ok y) ∧ ∀ x ∈ xs, ∃ y ∈ ys, f x = .ok y := by
  induction xs generalizing ys with
  | nil =>
    obtain rfl := Except.ok.inj h
    exact ⟨nofun, nofun⟩
  | cons x rest ih =>
    rw [List.mapM_cons] at h
    cases hx : f x with
    | error e =>
      rw [hx] at h
      cases h
    | ok y =>
      cases hrest : rest.mapM f with
      | error e =>
        rw [hx, hrest] at h
        cases h
      | ok zs =>
        rw [hx, hrest] at h
        obtain rfl := Except.ok.inj h
        obtain ⟨hback, hforth⟩ := ih hrest
        constructor
        · intro z hz
          rcases List.mem_cons.mp hz with rfl | hz
          · exact ⟨x, List.mem_cons_self, hx⟩
          · obtain ⟨w, hw, hwz⟩ := hback z hz
            exact ⟨w, List.mem_cons_of_mem _ hw, hwz⟩
        · intro w hw
          rcases List.mem_cons.mp hw with rfl | hw
          · exact ⟨y, List.mem_cons_self, hx⟩
          · obtain ⟨z, hz, hwz⟩ := hforth w hw
            exact ⟨z, List.mem_cons_of_mem _ hz, hwz⟩

/-- A keyring has the keys its materials give, but for those with the fingerprint of
the primary one. -/
theorem new_spec {primary : String} {previous : List String} {c : Cipher}
    (h : new crypto primary previous = .ok c) (hprimary : trimSpace primary ≠ "") :
    ∃ entry rest, c.keys = entry :: rest ∧ newKeyEntry crypto primary = .ok entry
      ∧ (∀ old ∈ rest, ∃ material ∈ nonEmpty previous, newKeyEntry crypto material = .ok old)
      ∧ ∀ material ∈ nonEmpty previous, ∃ old, newKeyEntry crypto material = .ok old
          ∧ (old ∈ rest ∨ old.id = entry.id) := by
  unfold new at h
  rw [if_neg hprimary] at h
  cases hentry : newKeyEntry crypto primary with
  | error e =>
    rw [hentry] at h
    cases h
  | ok entry =>
    cases holds : (nonEmpty previous).mapM (newKeyEntry crypto) with
    | error e =>
      rw [hentry, holds] at h
      cases h
    | ok olds =>
      rw [hentry, holds] at h
      obtain rfl := Except.ok.inj h
      obtain ⟨hback, hforth⟩ := mapM_ok holds
      refine ⟨entry, _, rfl, rfl, ?_, ?_⟩
      · intro old hold
        exact hback old (List.mem_of_mem_filter hold)
      · intro material hmaterial
        obtain ⟨old, hold, hmade⟩ := hforth material hmaterial
        by_cases hsame : old.id = entry.id
        · exact ⟨old, hmade, .inr hsame⟩
        · exact ⟨old, hmade, .inl (List.mem_filter.mpr ⟨hold, decide_eq_true hsame⟩)⟩

theorem new_blank {primary : String} {previous : List String} {c : Cipher}
    (h : new crypto primary previous = .ok c) (hprimary : trimSpace primary = "") :
    c.keys = [] ∧ nonEmpty previous = [] := by
  unfold new at h
  rw [if_pos hprimary] at h
  split at h
  · cases h
  next hprevious =>
    obtain rfl := Except.ok.inj h
    exact ⟨rfl, not_not.mp hprevious⟩

/-! What holds along a history. -/

/-- What the vault knows of a value is so: in the clear, or sealed with that key, which
the ring has. -/
def ValueSound (crypto : Crypto) (c : Cipher) (value : Stored) : Prop :=
  match value.sealedWith with
  | none => value.text = value.plain ∧ isSealed value.text = false
  | some raw => value.plain ≠ "" ∧ (∃ nonce, value.text = sealedText crypto (entryOf crypto raw) nonce value.plain)
      ∧ ∃ entry ∈ c.keys, entry.raw = raw

/-- The ring is made of keys of the history, and every value is sound. -/
structure Vault.Sound (crypto : Crypto) (keys : List Bytes) (v : Vault) : Prop where
  entries : ∀ entry ∈ v.cipher.keys, entry = entryOf crypto entry.raw ∧ entry.raw ∈ keys
  values : ∀ value ∈ v.values, ValueSound crypto v.cipher value

/-- Distinct keys have distinct fingerprints. -/
def Distinct (crypto : Crypto) (keys : List Bytes) : Prop :=
  ∀ raw ∈ keys, ∀ raw' ∈ keys, fingerprint crypto raw = fingerprint crypto raw' → raw = raw'

variable {keys : List Bytes} {v : Vault}

/-- **Every sound value opens to its plaintext.** -/
theorem decrypt_of_sound (hcorrect : crypto.Correct) (hdistinct : Distinct crypto keys) (hv : v.Sound crypto keys)
    {value : Stored} (hvalue : ValueSound crypto v.cipher value) :
    v.cipher.decrypt crypto value.text = .ok value.plain := by
  unfold ValueSound at hvalue
  cases hsealed : value.sealedWith with
  | none =>
    rw [hsealed] at hvalue
    obtain ⟨htext, hclear⟩ := hvalue
    unfold Cipher.decrypt
    rw [hclear, htext]
    rfl
  | some raw =>
    rw [hsealed] at hvalue
    obtain ⟨-, ⟨nonce, htext⟩, entry, hentry, hraw⟩ := hvalue
    rw [htext]
    refine decrypt_sealedText hcorrect (fun e he => (hv.entries e he).1) ⟨entry, hentry, hraw⟩ ?_ nonce value.plain
    intro e he hsame
    exact hdistinct _ (hv.entries e he).2 _ (hraw ▸ (hv.entries entry hentry).2) hsame

/-- What the primary key seals is sound. -/
theorem encrypt_sound (hv : v.Sound crypto keys) {nonce : Except String Nonce} {plain text : String}
    (hplain : plain ≠ "") (h : v.cipher.encrypt crypto nonce plain = .ok text) :
    ValueSound crypto v.cipher ⟨text, plain, v.primaryKey⟩ := by
  unfold Cipher.encrypt at h
  rw [if_neg hplain] at h
  cases hkeys : v.cipher.keys with
  | nil =>
    rw [hkeys] at h
    cases h
  | cons entry rest =>
    rw [hkeys] at h
    cases nonce with
    | error e => cases h
    | ok nonce =>
      have hentry : entry ∈ v.cipher.keys := hkeys ▸ List.mem_cons_self
      have hprimary : v.primaryKey = some entry.raw := by
        unfold Vault.primaryKey
        rw [hkeys]
        rfl
      rw [hprimary]
      refine ⟨hplain, ⟨nonce, ?_⟩, entry, hentry, rfl⟩
      rw [← (hv.entries entry hentry).1]
      exact (Except.ok.inj h).symm

theorem newKeyEntry_blank {material : String} {entry : KeyEntry} (h : newKeyEntry crypto material = .ok entry) :
    trimSpace material ≠ "" := by
  intro hblank
  have hnone : decodeKey "" = none := by decide
  unfold newKeyEntry at h
  rw [hblank, hnone] at h
  have hshort : (ofText "").length < minPassphraseLength := by decide
  simp only at h
  rw [if_pos hshort] at h
  cases h

theorem mem_keysOf {actions : List VaultAction} {primary : String} {previous : List String} {material : String}
    {entry : KeyEntry} (haction : .rotate primary previous ∈ actions) (hmaterial : material ∈ primary :: nonEmpty previous)
    (h : newKeyEntry crypto material = .ok entry) : entry.raw ∈ keysOf crypto actions := by
  refine List.mem_flatMap.mpr ⟨_, haction, List.mem_filterMap.mpr ⟨material, hmaterial, ?_⟩⟩
  rw [h]
  rfl

/-- **A keyring that has every key in use** keeps every value sound. -/
theorem Vault.Sound.rotate (hdistinct : Distinct crypto keys) (hv : v.Sound crypto keys) {primary : String}
    {previous : List String} (hkeys : ∀ material ∈ primary :: nonEmpty previous, ∀ entry,
      newKeyEntry crypto material = .ok entry → entry.raw ∈ keys)
    (hkeeps : v.KeepsKeys crypto (.rotate primary previous)) :
    (v.step crypto (.rotate primary previous)).Sound crypto keys := by
  dsimp only [Vault.step]
  cases hnew : new crypto primary previous with
  | error e => exact hv
  | ok c =>
    dsimp only
    by_cases hprimary : trimSpace primary = ""
    · -- no key at all: then none was in use
      obtain ⟨hnone, hprevious⟩ := new_blank hnew hprimary
      refine ⟨fun entry hentry => ?_, fun value hvalue => ?_⟩
      · rw [hnone] at hentry
        cases hentry
      have hold := hv.values value hvalue
      unfold ValueSound at hold ⊢
      cases hsealed : value.sealedWith with
      | none =>
        rw [hsealed] at hold
        exact hold
      | some raw =>
        exfalso
        obtain ⟨material, hmaterial, hmade⟩ := hkeeps c hnew value hvalue raw hsealed
        rw [hprevious] at hmaterial
        obtain rfl := List.mem_singleton.mp hmaterial
        exact newKeyEntry_blank hmade hprimary
    · obtain ⟨entry, rest, hring, hentry, hrest, hprevious⟩ := new_spec hnew hprimary
      refine ⟨?_, fun value hvalue => ?_⟩
      · intro e he
        rw [hring] at he
        rcases List.mem_cons.mp he with rfl | he
        · exact ⟨newKeyEntry_eq hentry, hkeys primary List.mem_cons_self _ hentry⟩
        · obtain ⟨material, hmaterial, hmade⟩ := hrest e he
          exact ⟨newKeyEntry_eq hmade, hkeys material (List.mem_cons_of_mem _ hmaterial) _ hmade⟩
      · have hold := hv.values value hvalue
        unfold ValueSound at hold ⊢
        cases hsealed : value.sealedWith with
        | none =>
          rw [hsealed] at hold
          exact hold
        | some raw =>
          rw [hsealed] at hold
          refine ⟨hold.1, hold.2.1, ?_⟩
          obtain ⟨material, hmaterial, hmade⟩ := hkeeps c hnew value hvalue raw hsealed
          rw [hring]
          rcases List.mem_cons.mp hmaterial with rfl | hmaterial
          · rw [hmade] at hentry
            obtain rfl := Except.ok.inj hentry
            exact ⟨_, List.mem_cons_self, rfl⟩
          · obtain ⟨old, hold', hplace⟩ := hprevious material hmaterial
            rw [hmade] at hold'
            obtain rfl := Except.ok.inj hold'
            rcases hplace with hmem | hsame
            · exact ⟨_, List.mem_cons_of_mem _ hmem, rfl⟩
            · -- left out as the primary key, which it is
              have hraw : raw ∈ keys := hkeys material (List.mem_cons_of_mem _ hmaterial) _ hmade
              have hprim : entry.raw ∈ keys := hkeys primary List.mem_cons_self _ hentry
              rw [newKeyEntry_eq hentry] at hsame
              exact ⟨entry, List.mem_cons_self, (hdistinct raw hraw entry.raw hprim hsame).symm⟩

/-- A value that is re-sealed keeps its plaintext. -/
theorem reseal_sound (hcorrect : crypto.Correct) (hdistinct : Distinct crypto keys) (hv : v.Sound crypto keys)
    {value : Stored} (hvalue : ValueSound crypto v.cipher value) {nonce : Except String Nonce} {text : String}
    (h : v.cipher.reseal crypto nonce value.text = some text) :
    ValueSound crypto v.cipher ⟨text, value.plain, v.primaryKey⟩ := by
  have hopens := decrypt_of_sound hcorrect hdistinct hv hvalue
  unfold Cipher.reseal at h
  split at h
  · cases h
  next hneeds =>
    have hplain : value.plain ≠ "" := by
      intro hempty
      unfold ValueSound at hvalue
      cases hsealed : value.sealedWith with
      | none =>
        rw [hsealed] at hvalue
        rw [hvalue.1, hempty] at hneeds
        apply hneeds
        unfold Cipher.needsReseal
        cases v.cipher.keys with
        | nil => rfl
        | cons entry rest => rfl
      | some raw =>
        rw [hsealed] at hvalue
        exact hvalue.1 hempty
    rw [hopens] at h
    have hencrypt : (v.cipher.encrypt crypto nonce value.plain).toOption = some text := h
    cases hresult : v.cipher.encrypt crypto nonce value.plain with
    | error e =>
      rw [hresult] at hencrypt
      cases hencrypt
    | ok result =>
      rw [hresult] at hencrypt
      obtain rfl := Option.some.inj hencrypt
      exact encrypt_sound hv hplain hresult

theorem mem_modify {α : Type} {f : α → α} {l : List α} {i : Nat} {x : α} (h : x ∈ l.modify i f) :
    x ∈ l ∨ ∃ y ∈ l, x = f y := by
  obtain ⟨j, hj⟩ := List.mem_iff_getElem?.mp h
  rw [List.getElem?_modify] at hj
  obtain ⟨y, hy, hx⟩ := Option.map_eq_some_iff.mp hj
  have hmem := List.mem_iff_getElem?.mpr ⟨j, hy⟩
  split at hx
  · exact .inr ⟨y, hmem, hx.symm⟩
  · exact .inl (hx ▸ hmem)

/-- **One step of a history keeps every value sound.** -/
theorem Vault.Sound.step (hcorrect : crypto.Correct) (hdistinct : Distinct crypto keys) (hv : v.Sound crypto keys)
    (a : VaultAction) (hkeys : ∀ raw ∈ keysOf crypto [a], raw ∈ keys) (hkeeps : v.KeepsKeys crypto a) :
    (v.step crypto a).Sound crypto keys := by
  cases a with
  | rotate primary previous =>
    refine hv.rotate hdistinct (fun material hmaterial entry hmade => hkeys _ ?_) hkeeps
    exact mem_keysOf List.mem_cons_self hmaterial hmade
  | store plain nonce =>
    dsimp only [Vault.step]
    cases hsealed : v.cipher.encrypt crypto nonce plain with
    | error e => exact hv
    | ok text =>
      refine ⟨hv.entries, fun value hvalue => ?_⟩
      rcases List.mem_append.mp hvalue with hold | hnew
      · exact hv.values value hold
      · obtain rfl := List.mem_singleton.mp hnew
        by_cases hplain : plain = ""
        · subst hplain
          obtain rfl := Except.ok.inj hsealed
          have hclear : isSealed "" = false := by decide
          exact ⟨rfl, hclear⟩
        · rw [if_neg hplain]
          exact encrypt_sound hv hplain hsealed
  | storeClear text =>
    dsimp only [Vault.step]
    by_cases hsealed : isSealed text = true
    · rw [if_pos hsealed]
      exact hv
    · rw [if_neg hsealed]
      refine ⟨hv.entries, fun value hvalue => ?_⟩
      rcases List.mem_append.mp hvalue with hold | hnew
      · exact hv.values value hold
      · obtain rfl := List.mem_singleton.mp hnew
        exact ⟨rfl, Bool.not_eq_true _ ▸ hsealed⟩
  | reseal i nonce =>
    refine ⟨hv.entries, fun value hvalue => ?_⟩
    rcases mem_modify hvalue with hold | ⟨old, hold, rfl⟩
    · exact hv.values value hold
    · have hsound := hv.values old hold
      cases hresealed : v.cipher.reseal crypto nonce old.text with
      | none => exact hsound
      | some text => exact reseal_sound hcorrect hdistinct hv hsound hresealed

theorem keysOf_cons (a : VaultAction) (actions : List VaultAction) :
    keysOf crypto (a :: actions) = keysOf crypto [a] ++ keysOf crypto actions := by
  simp [keysOf]

/-- **A history that keeps the keys in use keeps every value sound.** -/
theorem Vault.Sound.run (hcorrect : crypto.Correct) (hdistinct : Distinct crypto keys) (actions : List VaultAction)
    {v : Vault} (hv : v.Sound crypto keys) (hkeys : ∀ raw ∈ keysOf crypto actions, raw ∈ keys)
    (hkeeps : v.AllKeep crypto actions) : (v.run crypto actions).Sound crypto keys := by
  induction actions generalizing v with
  | nil => exact hv
  | cons a rest ih =>
    rw [keysOf_cons] at hkeys
    refine ih ?_ (fun raw hraw => hkeys raw (List.mem_append_right _ hraw)) hkeeps.2
    exact hv.step hcorrect hdistinct a (fun raw hraw => hkeys raw (List.mem_append_left _ hraw)) hkeeps.1

/-- The entry sealed the text. -/
def SealedBy (crypto : Crypto) (entry : KeyEntry) (text : String) : Prop :=
  ∃ nonce plain, text = sealedText crypto entry nonce plain

/-- **What does not need re-sealing is what the primary key sealed.** -/
theorem needsReseal_iff (hcorrect : crypto.Correct) (hdistinct : Distinct crypto keys) (hv : v.Sound crypto keys)
    {value : Stored} (hvalue : ValueSound crypto v.cipher value) {entry : KeyEntry} {rest : List KeyEntry}
    (hring : v.cipher.keys = entry :: rest) (htext : value.text ≠ "") :
    v.cipher.needsReseal value.text = false ↔ SealedBy crypto entry value.text := by
  obtain ⟨hentry, hmem⟩ := hv.entries entry (hring ▸ List.mem_cons_self)
  have hcolon : ':' ∉ entry.id.toList := by
    rw [hentry]
    exact (fingerprint_named hcorrect _).2
  have hreseal : v.cipher.needsReseal value.text = false
      ↔ isSealed value.text = true ∧ (sealedMark ++ entry.id ++ ":").toList.isPrefixOf value.text.toList = true := by
    unfold Cipher.needsReseal
    rw [hring]
    simp [htext]
  rw [hreseal]
  constructor
  · rintro ⟨hsealed, hnamed⟩
    unfold ValueSound at hvalue
    cases hkey : value.sealedWith with
    | none =>
      rw [hkey] at hvalue
      rw [hvalue.2] at hsealed
      cases hsealed
    | some raw =>
      rw [hkey] at hvalue
      obtain ⟨-, ⟨nonce, hsealedText⟩, kept, hkept, hraw⟩ := hvalue
      have hcolon' : ':' ∉ (entryOf crypto raw).id.toList := (fingerprint_named hcorrect raw).2
      rw [hsealedText, named_iff hcolon hcolon'] at hnamed
      have hfingerprint : fingerprint crypto raw = fingerprint crypto entry.raw :=
        hnamed.trans (congrArg KeyEntry.id hentry)
      have hsame := hdistinct raw (hraw ▸ (hv.entries kept hkept).2) entry.raw hmem hfingerprint
      have hself : entryOf crypto raw = entry := by
        rw [hsame]
        exact hentry.symm
      rw [hself] at hsealedText
      exact ⟨nonce, value.plain, hsealedText⟩
  · rintro ⟨nonce, plain, hsealedText⟩
    rw [hsealedText]
    exact ⟨isSealed_sealedText entry nonce plain, named_sealedText entry nonce plain⟩

/-- **KEYRING ROTATION NEVER LOSES A SECRET.**  After any history whose keyrings each
keep the keys in use, every value ever stored opens to its plaintext; of those that are
not empty the ones sealed by the primary key, and no others, need no re-sealing; and a
text without the mark is returned as it is. -/
theorem secrets_survive (crypto : Crypto) (hcorrect : crypto.Correct) (actions : List VaultAction)
    (hdistinct : Distinct crypto (keysOf crypto actions)) (hkeeps : Vault.start.AllKeep crypto actions) :
    (∀ value ∈ (Vault.start.run crypto actions).values,
      (Vault.start.run crypto actions).cipher.decrypt crypto value.text = .ok value.plain
        ∧ ∀ entry rest, (Vault.start.run crypto actions).cipher.keys = entry :: rest → value.text ≠ "" →
            ((Vault.start.run crypto actions).cipher.needsReseal value.text = false
              ↔ SealedBy crypto entry value.text))
      ∧ ∀ text, isSealed text = false → (Vault.start.run crypto actions).cipher.decrypt crypto text = .ok text := by
  have hstart : Vault.start.Sound crypto (keysOf crypto actions) := ⟨nofun, nofun⟩
  have hsound := hstart.run hcorrect hdistinct actions (fun _ h => h) hkeeps
  constructor
  · intro value hvalue
    have hvalueSound := hsound.values value hvalue
    refine ⟨decrypt_of_sound hcorrect hdistinct hsound hvalueSound, ?_⟩
    intro entry rest hring htext
    exact needsReseal_iff hcorrect hdistinct hsound hvalueSound hring htext
  · intro text hclear
    unfold Cipher.decrypt
    rw [hclear]
    rfl

end Histories

/-! ## §6. Two passphrases. -/

namespace Sample

def firstKey : Bytes :=
  [154, 16, 177, 179, 29, 164, 137, 210, 30, 51, 116, 61, 62, 19, 189, 26, 192, 202, 35, 200, 53, 210, 213,
   160, 50, 57, 203, 63, 172, 99, 92, 90]

def secondKey : Bytes :=
  [205, 92, 20, 14, 199, 86, 202, 218, 108, 11, 192, 157, 88, 33, 22, 10, 53, 164, 117, 207, 182, 98, 13, 19,
   210, 154, 155, 221, 170, 126, 180, 62]

/-- SHA-256 of the passphrases and of the keys under their label. -/
def digests : List (Bytes × Bytes) :=
  [(ofText "the first passphrase", firstKey), (ofText "the second passphrase", secondKey),
    (ofText "momento-encryption-key-id:" ++ firstKey,
      [25, 76, 61, 68, 242, 205, 129, 186, 80, 52, 106, 145, 41, 120, 18, 84, 140, 165, 92, 215, 179, 10, 228,
       96, 159, 122, 224, 35, 128, 249, 108, 123]),
    (ofText "momento-encryption-key-id:" ++ secondKey,
      [93, 140, 178, 115, 32, 48, 16, 188, 136, 178, 241, 111, 50, 107, 58, 15, 32, 223, 252, 112, 105, 180,
       193, 135, 181, 18, 203, 74, 10, 206, 48, 113])]

/-- A text that AES-256-GCM sealed. -/
structure Known where
  key : Bytes
  nonce : Bytes
  plain : String
  data : String
  cipherText : Bytes
  deriving DecidableEq

def firstNonce : Nonce := ⟨ofText "first-nonce-", by decide⟩

def secondNonce : Nonce := ⟨ofText "second-nonce", by decide⟩

def known : List Known :=
  [⟨firstKey, firstNonce.bytes, "token", "194c3d44",
      [246, 5, 115, 26, 71, 141, 120, 89, 76, 138, 229, 92, 142, 72, 109, 138, 35, 25, 225, 54, 165]⟩,
    ⟨secondKey, secondNonce.bytes, "token", "5d8cb273",
      [216, 94, 106, 224, 174, 252, 110, 7, 227, 208, 180, 67, 155, 112, 214, 62, 255, 150, 223, 158, 13]⟩]

/-- Three bytes for a character: for texts whose cipher text is not known. -/
def pack (plain : List Char) : Bytes :=
  plain.flatMap fun c => [Fin.ofNat 256 (c.toNat / 65536), Fin.ofNat 256 (c.toNat / 256), Fin.ofNat 256 c.toNat]

def unpack : Bytes → Option (List Char)
  | [] => some []
  | a :: b :: c :: rest => (unpack rest).map (Char.ofNat ((a.val * 256 + b.val) * 256 + c.val) :: ·)
  | _ => none

theorem unpack_pack (plain : List Char) : unpack (pack plain) = some plain := by
  induction plain with
  | nil => rfl
  | cons c rest ih =>
    have hbound : c.toNat < 256 * 256 * 256 := by
      have hvalid : c.toNat < 1114112 := by
        rcases c.valid with h | ⟨-, h⟩
        · exact h.trans (by norm_num)
        · exact h
      omega
    have hcode : (c.toNat / 65536 % 256 * 256 + c.toNat / 256 % 256) * 256 + c.toNat % 256 = c.toNat := by
      omega
    show (unpack (pack rest)).map _ = _
    rw [ih, Option.map_some]
    show some (Char.ofNat ((c.toNat / 65536 % 256 * 256 + c.toNat / 256 % 256) * 256 + c.toNat % 256) :: rest) = _
    rw [hcode, Char.ofNat_toNat]

/-- SHA-256 and AES-256-GCM on what is known, and something that opens elsewhere. -/
def crypto : Crypto where
  sha256 bytes := (digests.lookup bytes).getD (List.replicate 32 0)
  gcmSeal key nonce plain data :=
    match known.find? fun e => e.key = key ∧ e.nonce = nonce ∧ e.plain = plain ∧ e.data = data with
    | some e => e.cipherText
    | none => 0 :: pack plain.toList
  gcmOpen key nonce cipherText data :=
    match known.find? fun e => e.key = key ∧ e.nonce = nonce ∧ e.cipherText = cipherText ∧ e.data = data with
    | some e => some e.plain
    | none => (unpack cipherText.tail).map String.ofList

theorem crypto_correct : crypto.Correct where
  sized := by
    intro bytes
    have hall : ∀ e ∈ digests, e.2.length = 32 := by decide
    show ((digests.lookup bytes).getD _).length = 32
    cases hfound : digests.lookup bytes with
    | none => rfl
    | some digest =>
      obtain ⟨before, after, hsplit, -⟩ := List.lookup_eq_some_iff.mp hfound
      exact hall _ (hsplit ▸ List.mem_append_right _ List.mem_cons_self)
  opens := by
    intro key nonce plain data
    have hfirst : ∀ e ∈ known, e.cipherText.head? ≠ some 0 := by decide
    have hone : ∀ e ∈ known, ∀ e' ∈ known, e'.cipherText = e.cipherText → e'.plain = e.plain := by decide
    dsimp only [crypto]
    cases hseal : known.find? fun e => e.key = key ∧ e.nonce = nonce ∧ e.plain = plain ∧ e.data = data with
    | some e =>
      have hsame := List.find?_some hseal
      obtain ⟨hkey, hnonce, hplain, hdata⟩ := of_decide_eq_true hsame
      have hmem := List.mem_of_find?_eq_some hseal
      dsimp only
      cases hopen : known.find? fun e' =>
          e'.key = key ∧ e'.nonce = nonce ∧ e'.cipherText = e.cipherText ∧ e'.data = data with
      | none =>
        have hnone := List.find?_eq_none.mp hopen e hmem
        exact absurd (decide_eq_true ⟨hkey, hnonce, rfl, hdata⟩) hnone
      | some e' =>
        have hfound := List.find?_some hopen
        obtain ⟨-, -, htext, -⟩ := of_decide_eq_true hfound
        dsimp only
        rw [hone e hmem e' (List.mem_of_find?_eq_some hopen) htext, hplain]
    | none =>
      dsimp only
      cases hopen : known.find? fun e' =>
          e'.key = key ∧ e'.nonce = nonce ∧ e'.cipherText = 0 :: pack plain.toList ∧ e'.data = data with
      | none =>
        dsimp only
        rw [List.tail_cons, unpack_pack, Option.map_some, String.ofList_toList]
      | some e' =>
        have hfound := List.find?_some hopen
        obtain ⟨-, -, htext, -⟩ := of_decide_eq_true hfound
        have hhead := hfirst e' (List.mem_of_find?_eq_some hopen)
        rw [htext] at hhead
        exact absurd rfl hhead

/-- A token sealed with the first key, a new primary key, the token sealed again. -/
def rotation : List VaultAction :=
  [.rotate "the first passphrase" [], .store "token" (.ok firstNonce),
    .rotate "the second passphrase" ["the first passphrase"], .reseal 0 (.ok secondNonce)]

theorem rotation_values : (Vault.start.run crypto rotation).values
    = [⟨"enc:v1:5d8cb273:c2Vjb25kLW5vbmNl2F5q4K78bgfj0LRDm3DWPv-W354N", "token", some secondKey⟩] := by
  decide +kernel

theorem newKeyEntry_first : newKeyEntry crypto "the first passphrase" = .ok (entryOf crypto firstKey) := by
  decide +kernel

/-- A token sealed again under a new primary key opens, and needs no third sealing. -/
theorem secrets_survive_rotation :
    (Vault.start.run crypto rotation).cipher.decrypt crypto
        "enc:v1:5d8cb273:c2Vjb25kLW5vbmNl2F5q4K78bgfj0LRDm3DWPv-W354N" = .ok "token" := by
  have hdistinct : Distinct crypto (keysOf crypto rotation) := by
    have hall : ∀ raw ∈ keysOf crypto rotation, ∀ raw' ∈ keysOf crypto rotation,
        fingerprint crypto raw = fingerprint crypto raw' → raw = raw' := by
      decide +kernel
    exact hall
  have hkeeps : Vault.start.AllKeep crypto rotation := by
    refine ⟨nofun, trivial, ?_, trivial, trivial⟩
    intro c hc value hvalue raw hraw
    have hvalues : ((Vault.start.step crypto (.rotate "the first passphrase" [])).step crypto
        (.store "token" (.ok firstNonce))).values.map Stored.sealedWith = [some firstKey] := by
      decide +kernel
    have hkey : value.sealedWith ∈ [some firstKey] := hvalues ▸ List.mem_map_of_mem hvalue
    rw [hraw, List.mem_singleton] at hkey
    obtain rfl := Option.some.inj hkey
    exact ⟨"the first passphrase", by decide, newKeyEntry_first⟩
  have hsurvive := (secrets_survive crypto crypto_correct rotation hdistinct hkeeps).1
  have hvalue := hsurvive ⟨_, "token", some secondKey⟩ (rotation_values ▸ List.mem_cons_self)
  exact hvalue.1

end Sample

end Momento.Secret
