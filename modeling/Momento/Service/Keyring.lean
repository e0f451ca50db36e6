/-
  Momento.Service.Keyring

  **WHAT A KEYRING OPENS.**  A sealed text names the key it was sealed with; the first
  key of the ring with that name opens it.  So what the primary key seals opens, what
  does not need re-sealing opens with the primary key alone, and what another key
  sealed does not.
-/
import Momento.Service.KeyStorage

namespace Momento.Keys

/-- A key as `newKeyEntry` makes it: a hexadecimal fingerprint, and an authenticated
cipher. -/
structure KeyEntry.Lawful (entry : KeyEntry) : Prop where
  named : entry.id ≠ ""
  plainName : ':' ∉ entry.id.toList
  body : ∀ nonce plain, entry.sealText nonce plain ≠ ""
  opens : ∀ nonce plain, entry.openText (entry.sealText nonce plain) = .ok plain

/-- **A keyring**: every key of it is one. -/
structure Keyring where
  cipher : Cipher
  lawful : ∀ entry ∈ cipher.keys, entry.Lawful

/-- The ring without the previous keys. -/
def Cipher.primary (c : Cipher) : Cipher := ⟨c.keys.take 1⟩

/-! ## §1. The name in a sealed text. -/

theorem isSealed_append (rest : String) : isSealed (sealedMark ++ rest) = true := by
  unfold isSealed
  rw [List.isPrefixOf_iff_prefix, String.toList_append]
  exact List.prefix_append _ _

theorem toList_drop_mark (rest : String) : (sealedMark ++ rest).toList.drop sealedMark.length = rest.toList := by
  rw [String.toList_append]
  exact List.drop_left

/-- A name without a colon is what stands before the first one, -/
theorem takeWhile_named {id : String} (h : ':' ∉ id.toList) (body : List Char) :
    (id.toList ++ ':' :: body).takeWhile (fun c => decide (c ≠ ':')) = id.toList := by
  have hall : ∀ c ∈ id.toList, decide (c ≠ ':') = true := by
    intro c hc
    exact decide_eq_true fun heq => h (heq ▸ hc)
  rw [List.takeWhile_append_of_pos hall]
  simp

/-- and the body what stands after it. -/
theorem dropWhile_named {id : String} (h : ':' ∉ id.toList) (body : List Char) :
    ((id.toList ++ ':' :: body).dropWhile (fun c => decide (c ≠ ':'))).tail = body := by
  have hall : ∀ c ∈ id.toList, decide (c ≠ ':') = true := by
    intro c hc
    exact decide_eq_true fun heq => h (heq ▸ hc)
  rw [List.dropWhile_append_of_pos hall]
  simp

/-- `Decrypt` of a text that names a key. -/
theorem decrypt_named (c : Cipher) {id : String} (hid : id ≠ "") (hplain : ':' ∉ id.toList) (body : String) :
    c.decrypt (sealedMark ++ id ++ ":" ++ body)
      = if body = "" then .error "sealed secret is malformed"
        else if !c.enabled then .error "secret encryption is disabled: set MOMENTO_ENCRYPTION_KEY"
        else match c.keys.find? (fun entry => entry.id = id) with
          | none => .error "stored secret was sealed with a different encryption key"
          | some entry => entry.openText body := by
  have hsplit : sealedMark ++ id ++ ":" ++ body = sealedMark ++ (id ++ ":" ++ body) := by
    rw [String.append_assoc, String.append_assoc, String.append_assoc]
  have hcolon : (id ++ ":" ++ body).toList = id.toList ++ ':' :: body.toList := by
    simp
  unfold Cipher.decrypt
  rw [hsplit, isSealed_append, toList_drop_mark, hcolon]
  dsimp only
  rw [takeWhile_named hplain, dropWhile_named hplain, String.ofList_toList, String.ofList_toList]
  have hcond : (':' ∉ id.toList ++ ':' :: body.toList ∨ id = "" ∨ body = "") ↔ body = "" := by
    simp [hid]
  rw [if_neg (by simp)]
  by_cases hbody : body = ""
  · exact (if_pos (hcond.mpr hbody)).trans (if_pos hbody).symm
  · exact (if_neg fun h => hbody (hcond.mp h)).trans (if_neg hbody).symm

/-- **What the primary key seals opens.** -/
theorem decrypt_sealedText {c : Cipher} {entry : KeyEntry} {rest : List KeyEntry} (hkeys : c.keys = entry :: rest)
    (h : entry.Lawful) (nonce plain : String) : c.decrypt (sealedText entry nonce plain) = .ok plain := by
  unfold sealedText
  rw [decrypt_named c h.named h.plainName, if_neg (h.body nonce plain), hkeys]
  simp [Cipher.enabled, hkeys, h.opens]

/-- What `Encrypt` gives opens to what it was given. -/
theorem decrypt_encrypt (ring : Keyring) {nonce : Except String String} {plain text : String}
    (h : ring.cipher.encrypt nonce plain = .ok text) : ring.cipher.decrypt text = .ok plain := by
  unfold Cipher.encrypt at h
  split at h
  next hempty =>
    rw [← Except.ok.inj h, hempty]
    rfl
  · split at h
    · cases h
    next entry rest hkeys =>
      cases nonce with
      | error e => cases h
      | ok nonce =>
        rw [← Except.ok.inj h]
        exact decrypt_sealedText hkeys (ring.lawful entry (hkeys ▸ List.mem_cons_self)) nonce plain

theorem sealSecret_opens (ring : Keyring) {nonce : Except String String} {plain text : String}
    (h : ring.cipher.sealSecret nonce plain = some text) : ring.cipher.decrypt text = .ok plain := by
  unfold Cipher.sealSecret at h
  split at h
  · cases h
  cases hsealed : ring.cipher.encrypt nonce plain with
  | error e =>
    rw [hsealed] at h
    cases h
  | ok sealed =>
    rw [hsealed] at h
    rw [← Option.some.inj h]
    exact decrypt_encrypt ring hsealed

/-- **A value is re-sealed to one that opens to the same.** -/
theorem reseal_opens (ring : Keyring) {nonce : Except String String} {stored text : String}
    (h : ring.cipher.reseal nonce stored = some text) :
    ∃ plain, ring.cipher.decrypt stored = .ok plain ∧ ring.cipher.decrypt text = .ok plain := by
  unfold Cipher.reseal at h
  split at h
  · cases h
  cases hplain : ring.cipher.decrypt stored with
  | error e =>
    rw [hplain] at h
    cases h
  | ok plain =>
    cases hsealed : ring.cipher.encrypt nonce plain with
    | error e =>
      rw [hplain] at h
      have hnone : (ring.cipher.encrypt nonce plain).toOption = some text := h
      rw [hsealed] at hnone
      cases hnone
    | ok sealed =>
      rw [hplain] at h
      have hsome : (ring.cipher.encrypt nonce plain).toOption = some text := h
      rw [hsealed] at hsome
      rw [← Option.some.inj hsome]
      exact ⟨plain, rfl, decrypt_encrypt ring hsealed⟩

/-! ## §3. Without the previous keys. -/

/-- Sealed with a key that is not the primary one. -/
def Cipher.sealedByPrevious (c : Cipher) (stored : String) : Bool := isSealed stored && c.needsReseal stored

/-- What the ring opens, the primary key opens alone. -/
def Cipher.Retires (c : Cipher) (stored : String) : Prop :=
  (∃ plain, c.decrypt stored = .ok plain) → ∃ plain, c.primary.decrypt stored = .ok plain

theorem primary_keys {c : Cipher} {entry : KeyEntry} {rest : List KeyEntry} (hkeys : c.keys = entry :: rest) :
    c.primary.keys = [entry] := by
  unfold Cipher.primary
  rw [hkeys]
  rfl

theorem primary_encrypt (c : Cipher) : c.primary.encrypt = c.encrypt := by
  funext nonce plain
  unfold Cipher.encrypt
  cases hkeys : c.keys with
  | nil =>
    have hnil : c.primary.keys = [] := by
      unfold Cipher.primary
      rw [hkeys]
      rfl
    rw [hnil]
  | cons entry rest => rw [primary_keys hkeys]

/-- The primary key alone is a keyring. -/
def Keyring.primary (ring : Keyring) : Keyring where
  cipher := ring.cipher.primary
  lawful entry h := ring.lawful entry (List.mem_of_mem_take h)

/-- What `Encrypt` gives, the primary key opens. -/
theorem primary_decrypt_encrypt (ring : Keyring) {nonce : Except String String} {plain text : String}
    (h : ring.cipher.encrypt nonce plain = .ok text) : ring.cipher.primary.decrypt text = .ok plain := by
  have hprimary : ring.cipher.primary.encrypt nonce plain = .ok text := by
    rw [primary_encrypt]
    exact h
  exact decrypt_encrypt ring.primary hprimary

/-- A sealed text with the mark of a key: what follows is its body. -/
theorem exists_body {id stored : String} (h : (sealedMark ++ id ++ ":").toList.isPrefixOf stored.toList = true) :
    ∃ body, stored = sealedMark ++ id ++ ":" ++ body := by
  obtain ⟨body, hbody⟩ := List.isPrefixOf_iff_prefix.mp h
  refine ⟨String.ofList body, String.toList_injective ?_⟩
  rw [String.toList_append, String.toList_ofList]
  exact hbody.symm

/-- What is not re-sealed opens with the primary key, if it opens. -/
theorem retires_of_not_needsReseal (ring : Keyring) {stored : String} (h : ring.cipher.needsReseal stored = false) :
    ring.cipher.Retires stored := by
  rintro ⟨plain, hopens⟩
  by_cases hsealed : isSealed stored = true
  · cases hkeys : ring.cipher.keys with
    | nil =>
      have hsame : ring.cipher.primary = ring.cipher := by
        unfold Cipher.primary
        rw [hkeys]
        exact congrArg Cipher.mk hkeys.symm
      rw [hsame]
      exact ⟨plain, hopens⟩
    | cons entry rest =>
      have hlawful := ring.lawful entry (hkeys ▸ List.mem_cons_self)
      unfold Cipher.needsReseal at h
      rw [hkeys] at h
      have hne : stored ≠ "" := by
        rintro rfl
        revert hsealed
        decide
      have hmark : (sealedMark ++ entry.id ++ ":").toList.isPrefixOf stored.toList = true := by
        simpa [hsealed, hne] using h
      obtain ⟨body, rfl⟩ := exists_body hmark
      have hprimary := primary_keys hkeys
      rw [decrypt_named _ hlawful.named hlawful.plainName, hkeys] at hopens
      rw [decrypt_named _ hlawful.named hlawful.plainName, hprimary]
      refine ⟨plain, ?_⟩
      simpa [Cipher.enabled, hkeys, hprimary] using hopens
  · refine ⟨stored, ?_⟩
    unfold Cipher.decrypt
    rw [Bool.not_eq_true] at hsealed
    rw [hsealed]
    rfl

/-- The text before the first colon, the colon, the rest. -/
theorem takeWhile_colon {text : List Char} (h : ':' ∈ text) :
    ∃ tail, (text.takeWhile fun c => decide (c ≠ ':')) ++ ':' :: tail = text := by
  induction text with
  | nil => cases h
  | cons c text ih =>
    by_cases hc : c = ':'
    · refine ⟨text, ?_⟩
      rw [List.takeWhile_cons_of_neg (by simp [hc]), hc]
      rfl
    · obtain ⟨tail, htail⟩ := ih ((List.mem_cons.mp h).resolve_left fun heq => hc heq.symm)
      refine ⟨tail, ?_⟩
      rw [List.takeWhile_cons_of_pos (by simp [hc]), List.cons_append, htail]

/-- A sealed text that opens names a key of the ring. -/
theorem named_of_decrypt {c : Cipher} {stored plain : String} (hsealed : isSealed stored = true)
    (h : c.decrypt stored = .ok plain) :
    ∃ entry ∈ c.keys, (sealedMark ++ entry.id ++ ":").toList.isPrefixOf stored.toList = true := by
  obtain ⟨rest, hrest⟩ := List.isPrefixOf_iff_prefix.mp hsealed
  have hdrop : stored.toList.drop sealedMark.length = rest := by
    rw [← hrest]
    exact List.drop_left
  unfold Cipher.decrypt at h
  rw [hsealed, hdrop] at h
  dsimp only at h
  rw [if_neg (by simp)] at h
  split at h
  · cases h
  next hparts =>
    split at h
    · cases h
    split at h
    · cases h
    next entry hentry =>
      have hfound := List.find?_some hentry
      have hid : entry.id = String.ofList (rest.takeWhile fun c => decide (c ≠ ':')) :=
        of_decide_eq_true hfound
      have hcolon : ':' ∈ rest := by
        by_contra hnot
        exact hparts (Or.inl hnot)
      obtain ⟨tail, htail⟩ := takeWhile_colon hcolon
      refine ⟨entry, List.mem_of_find?_eq_some hentry, ?_⟩
      rw [List.isPrefixOf_iff_prefix]
      refine ⟨tail, ?_⟩
      rw [String.toList_append, String.toList_append, hid, String.toList_ofList, ← hrest]
      rw [List.append_assoc, List.append_assoc]
      exact congrArg (sealedMark.toList ++ ·) htail

/-- What another key sealed, the primary key does not open. -/
theorem primary_decrypt_of_previous (ring : Keyring) {stored : String}
    (h : ring.cipher.sealedByPrevious stored = true) (plain : String) :
    ring.cipher.primary.decrypt stored ≠ .ok plain := by
  intro hopens
  obtain ⟨hsealed, hneeds⟩ := Bool.and_eq_true_iff.mp h
  cases hkeys : ring.cipher.keys with
  | nil =>
    unfold Cipher.needsReseal at hneeds
    rw [hkeys] at hneeds
    cases hneeds
  | cons entry rest =>
    unfold Cipher.needsReseal at hneeds
    rw [hkeys] at hneeds
    obtain ⟨named, hnamed, hmark⟩ := named_of_decrypt hsealed hopens
    rw [primary_keys hkeys] at hnamed
    rw [List.mem_singleton.mp hnamed] at hmark
    simp only [hmark, hsealed, Bool.not_true, Bool.or_self, Bool.and_false] at hneeds
    cases hneeds

/-- **WHAT MAY BE RETIRED**: a text that opens opens with the primary key alone exactly
where no other key sealed it. -/
theorem retires_iff (ring : Keyring) (stored : String) :
    ring.cipher.Retires stored ↔
      ¬((∃ plain, ring.cipher.decrypt stored = .ok plain) ∧ ring.cipher.sealedByPrevious stored = true) := by
  constructor
  · rintro h ⟨hopens, hprevious⟩
    obtain ⟨plain, hplain⟩ := h hopens
    exact primary_decrypt_of_previous ring hprevious plain hplain
  · intro h hopens
    by_cases hneeds : ring.cipher.needsReseal stored = true
    · have hclear : isSealed stored = false := by
        by_contra hsealed
        rw [Bool.not_eq_false] at hsealed
        exact h ⟨hopens, Bool.and_eq_true_iff.mpr ⟨hsealed, hneeds⟩⟩
      refine ⟨stored, ?_⟩
      unfold Cipher.decrypt
      rw [hclear]
      rfl
    · rw [Bool.not_eq_true] at hneeds
      exact retires_of_not_needsReseal ring hneeds hopens

/-! ## §4. A ring of two keys. -/

namespace Sample

/-- A key that seals the texts of a list as AES-256-GCM does: nonce, plaintext, sealed
text. -/
def entry (id : String) (known : List (String × String × String)) : KeyEntry where
  id := id
  sealText nonce plain :=
    match known.find? fun e => e.1 = nonce ∧ e.2.1 = plain with
    | some e => e.2.2
    | none => "." ++ plain
  openText body :=
    match known.find? fun e => e.2.2 = body with
    | some e => .ok e.2.1
    | none => .ok (String.ofList (body.toList.drop 1))

theorem entry_lawful {id : String} {known : List (String × String × String)} (hid : id ≠ "")
    (hplain : ':' ∉ id.toList) (hbody : ∀ e ∈ known, e.2.2 ≠ "" ∧ e.2.2.toList.head? ≠ some '.')
    (hinj : ∀ e ∈ known, ∀ e' ∈ known, e'.2.2 = e.2.2 → e'.2.1 = e.2.1) : (entry id known).Lawful := by
  refine ⟨hid, hplain, ?_, ?_⟩
  · intro nonce plain
    show (match known.find? _ with | some e => e.2.2 | none => "." ++ plain) ≠ ""
    split
    · next e he => exact (hbody e (List.mem_of_find?_eq_some he)).1
    · simp
  · intro nonce plain
    show (match known.find? _ with | some e => Except.ok e.2.1 | none => _) = _
    cases hseal : known.find? fun e => e.1 = nonce ∧ e.2.1 = plain with
    | some e =>
      have htext : (entry id known).sealText nonce plain = e.2.2 := by
        show (match known.find? _ with | some e => e.2.2 | none => "." ++ plain) = _
        rw [hseal]
      have hplain : e.2.1 = plain := by
        have h := List.find?_some hseal
        exact (of_decide_eq_true h).2
      rw [htext]
      cases hopen : known.find? fun e' => e'.2.2 = e.2.2 with
      | none =>
        have h := List.find?_eq_none.mp hopen e (List.mem_of_find?_eq_some hseal)
        exact absurd (decide_eq_true rfl) h
      | some e' =>
        have hfound := List.find?_some hopen
        have hsame : e'.2.2 = e.2.2 := of_decide_eq_true hfound
        show Except.ok e'.2.1 = _
        rw [hinj e (List.mem_of_find?_eq_some hseal) e' (List.mem_of_find?_eq_some hopen) hsame, hplain]
    | none =>
      have htext : (entry id known).sealText nonce plain = "." ++ plain := by
        show (match known.find? _ with | some e => e.2.2 | none => "." ++ plain) = _
        rw [hseal]
      rw [htext]
      cases hopen : known.find? fun e' => e'.2.2 = "." ++ plain with
      | none =>
        show Except.ok (String.ofList (("." ++ plain).toList.drop 1)) = _
        simp
      | some e' =>
        have hfound := List.find?_some hopen
        have hsame : e'.2.2 = "." ++ plain := of_decide_eq_true hfound
        have hhead := (hbody e' (List.mem_of_find?_eq_some hopen)).2
        rw [hsame] at hhead
        exact absurd (by simp) hhead

/-- The key of "the first passphrase". -/
def oldKey : KeyEntry := entry "194c3d44"
  [("first-nonce-", "mom_track_AAAAAAAAAAAAAAAAAAAAAAAAAAAAAAAA",
      "Zmlyc3Qtbm9uY2Ut7wV1IF3OSqLFQ5-LzX86YKKIogX1JITEJvcIo-0gXgdWLb_w7z85QT2Sp9cOZvXYUy8MZupov-4TwQ"),
    ("other-nonce-", "mom_server_AAAAAAAAAAAAAAAAAAAAAAAAAAAAAAAAAAAAAAAAAAA",
      "b3RoZXItbm9uY2UtEkCyOzW51IBnZB3U1Cu3HQlwu923VOJ-Q6mICOlABQIMmI-HVF95Yj7_Km8k0u9xrFZD4abPa3oExDFt5IqVH9tM9IhN6w"),
    ("header-nonce", "\x7b\"Authorization\":\"Bearer token\"\x7d",
      "aGVhZGVyLW5vbmNl67xtZY9Hvq-nUyQvV2CgHFOZ4ls-3-ufzBDDf6gAE5DvUjGcHbeutGvx15eE4j_l"),
    ("client-nonce", "client secret",
      "Y2xpZW50LW5vbmNl_MkkKrSonxPi_1Wy4GtDNzoUWcPVwE0YSShuLbI")]

/-- The key of "the second passphrase". -/
def newKey : KeyEntry := entry "5d8cb273"
  [("second-nonce", "mom_track_AAAAAAAAAAAAAAAAAAAAAAAAAAAAAAAA",
      "c2Vjb25kLW5vbmNlwV5s2rQFWEFt2Ja-GDJQmBKIn0fcR-qXsyIn3b800hYNogbGo2gRxV4xPwlyddxaYd30UFNuqdOlcA"),
    ("third-nonce-", "mom_track_BBBBBBBBBBBBBBBBBBBBBBBBBBBBBBBB",
      "dGhpcmQtbm9uY2Ut3M4_grP1wclIBhNDKuCUl2n3VefodPIvIihQuOA7YoaWak0L2k5G_fSO2En_weI4nGZdHMbPkpejhw"),
    ("fourth-nonce", "mom_server_AAAAAAAAAAAAAAAAAAAAAAAAAAAAAAAAAAAAAAAAAAA",
      "Zm91cnRoLW5vbmNl73dkFc4AFUlsD6IIOdVUyeC-thXri9unCAfLXhZV4TFIs1QVeN8ZuJs49K9eEBl5cIu8_5J5RrQ-5HQQDax6IZe0SqO0rw")]

theorem oldKey_lawful : oldKey.Lawful :=
  entry_lawful (by decide) (by decide) (by decide) (by decide)

theorem newKey_lawful : newKey.Lawful :=
  entry_lawful (by decide) (by decide) (by decide) (by decide)

/-- The second key seals, the first one still opens. -/
def ring : Cipher := ⟨[newKey, oldKey]⟩

theorem ring_lawful : ∀ entry ∈ ring.keys, entry.Lawful := by
  intro entry hentry
  rcases List.mem_cons.mp hentry with rfl | hentry
  · exact newKey_lawful
  · rw [List.mem_singleton.mp hentry]
    exact oldKey_lawful

end Sample

end Momento.Keys
