/-
  Momento.Settings.PartialWrites

  **WRITES OF DIFFERENT FIELDS, AT THE SAME TIME.**  `putSetting` reads a group, merges
  the fields of its request into it and writes the whole object; `resealOIDCSecret`
  reads the group `oidc`, re-seals its client secret and writes the whole object.  The
  statements of different requests come in any order.

  A write-back is without loss where the fields it does not name are still those that
  were read.
-/
import Momento.Foundation.Runs
import Momento.Settings.Store

namespace Momento.Settings

open Foundation Momento.Keys

/-! ## §1. Statements and requests. -/

/-- Where a `putSetting` request stands. -/
inductive Stage where
  | received
  /-- The fields are prepared; the three groups are to be read. -/
  | prepared (value : Document)
  /-- The group is to be read. -/
  | admitted (value : Document)
  /-- The object is to be written, made from the one that was read. -/
  | merged (value : Document) (base : Option Document)
  | written (value : Document)
  | refused (refusal : Refusal)

/-- The fields the request writes, once they are prepared. -/
def Stage.value : Stage → Option Document
  | .received => none
  | .prepared value => some value
  | .admitted value => some value
  | .merged value _ => some value
  | .written value => some value
  | .refused _ => none

/-- Where a `resealOIDCSecret` stands. -/
inductive ResealStage where
  | idle
  /-- The object that was read, and the re-sealed secret. -/
  | sealedText (base : Document) (text : String)
  | finished

/-- A `putSetting` under way. -/
structure Request where
  put : PutSetting
  stage : Stage

/-- The groups, and the requests on them. -/
structure Writing where
  groups : Groups
  requests : List Request
  reseals : List ResealStage

/-- What can happen. -/
inductive WriteAction where
  /-- The next statement of request `i`, which may fail. -/
  | put (i : Nat) (fails : Option String)
  | reseal (j : Nat) (nonce : Except String String) (fails : Option String)

section
variable (lib : Library) (c : Cipher) (groups : Groups)

/-- The next statement of a request. -/
def Request.advance (request : Request) (fails : Option String) : Stage × Groups :=
  match request.stage with
  | .received =>
    match request.put.prepare lib c (if fails.isNone then groups.lookup "oidc" else none) with
    | .error refusal => (.refused refusal, groups)
    | .ok value => (if request.put.needsMcp value then .prepared value else .admitted value, groups)
  | .prepared value =>
    match fails with
    | some message => (.refused ⟨500, "SETTING_READ_FAILED", message⟩, groups)
    | none =>
      match mcpChecked lib groups value with
      | .error refusal => (.refused refusal, groups)
      | .ok () => (.admitted value, groups)
  | .admitted value =>
    match fails with
    | some message => (.refused ⟨500, "SETTING_READ_FAILED", message⟩, groups)
    | none => (.merged value (groups.lookup request.put.key), groups)
  | .merged value base =>
    match fails with
    | some message => (.refused ⟨500, "SETTING_UPDATE_FAILED", message⟩, groups)
    | none => (.written value, AList.insert request.put.key (merge base value) groups)
  | .written value => (.written value, groups)
  | .refused refusal => (.refused refusal, groups)

/-- The next statement of `resealOIDCSecret`. -/
def ResealStage.advance (nonce : Except String String) (fails : Option String) :
    ResealStage → ResealStage × Groups
  | .idle =>
    match (if fails.isNone then groups.lookup "oidc" else none) with
    | none => (.finished, groups)
    | some base =>
      match c.reseal nonce (stringOr base "client_secret") with
      | none => (.finished, groups)
      | some text => (.sealedText base text, groups)
  | .sealedText base text =>
    match fails with
    | some _ => (.finished, groups)
    | none =>
      (.finished, groups.modifyRows fun key value =>
        if key = "oidc" then Properties.set base "client_secret" (.str text) else value)
  | .finished => (.finished, groups)

end

namespace Writing
variable (lib : Library) (c : Cipher) (s : Writing)

/-- **A step.** -/
def step : WriteAction → Writing
  | .put i fails =>
    match s.requests[i]? with
    | none => s
    | some request =>
      let (stage, groups) := request.advance lib c s.groups fails
      { s with groups := groups, requests := s.requests.set i { request with stage := stage } }
  | .reseal j nonce fails =>
    match s.reseals[j]? with
    | none => s
    | some r =>
      let (r, groups) := r.advance c s.groups nonce fails
      { s with groups := groups, reseals := s.reseals.set j r }

/-- The steps in order. -/
def run (actions : List WriteAction) : Writing := actions.foldl (step lib c) s

end Writing

/-- Requests that have not started. -/
def Writing.start (groups : Groups) (requests : List PutSetting) (reseals : Nat) : Writing where
  groups := groups
  requests := requests.map fun put => ⟨put, .received⟩
  reseals := List.replicate reseals .idle

/-! ## §2. What is lost and what is not. -/

/-- The same value; of a client secret, the same secret. -/
def SameValue (c : Cipher) (key name : String) (a b : Option Json) : Prop :=
  a = b ∨ key = "oidc" ∧ name = "client_secret" ∧ ∃ sa sb plain, a = some (.str sa) ∧ b = some (.str sb)
    ∧ c.decrypt sa = .ok plain ∧ c.decrypt sb = .ok plain

/-- The object of a group. -/
def document (groups : Groups) (key : String) : Document := (groups.lookup key).getD []

/-- The request's body names the field. -/
def PutSetting.Names (put : PutSetting) (name : String) : Prop :=
  ∃ body, put.body = .ok body ∧ (Properties.get body name).isSome = true

/-- Requests of one group name different fields. -/
def NamesDisjoint (requests : List PutSetting) : Prop :=
  ∀ (i j : Nat) (a b : PutSetting), requests[i]? = some a → requests[j]? = some b → i ≠ j → a.key = b.key →
    ∀ name, a.Names name → ¬b.Names name

/-- **No update is lost**: what a completed request wrote stands in the group. -/
def Writing.Kept (s : Writing) (c : Cipher) : Prop :=
  ∀ r ∈ s.requests, ∀ value, r.stage = .written value → ∀ name, (Properties.get value name).isSome = true →
    SameValue c r.put.key name (Properties.get value name) (Properties.get (document s.groups r.put.key) name)

/-- **What was read still stands**: a write-back finds the fields it does not name as it
read them. -/
def Writing.Fresh (c : Cipher) (s : Writing) : WriteAction → Prop
  | .put i none => ∀ r value base, s.requests[i]? = some r → r.stage = .merged value base →
      ∀ name, Properties.get value name = none →
        SameValue c r.put.key name (base.bind fun old => Properties.get old name)
          (Properties.get (document s.groups r.put.key) name)
  | .reseal j _ none => ∀ base text, s.reseals[j]? = some (.sealedText base text) →
      ∀ name, SameValue c "oidc" name (Properties.get base name) (Properties.get (document s.groups "oidc") name)
  | _ => True

theorem SameValue.refl (c : Cipher) (key name : String) (a : Option Json) : SameValue c key name a a := Or.inl rfl

theorem SameValue.symm {c : Cipher} {key name : String} {a b : Option Json} (h : SameValue c key name a b) :
    SameValue c key name b a := by
  rcases h with rfl | ⟨hkey, hname, sa, sb, plain, ha, hb, hsa, hsb⟩
  · exact Or.inl rfl
  · exact Or.inr ⟨hkey, hname, sb, sa, plain, hb, ha, hsb, hsa⟩

theorem SameValue.trans {c : Cipher} {key name : String} {a b d : Option Json} (h : SameValue c key name a b)
    (h' : SameValue c key name b d) : SameValue c key name a d := by
  rcases h with rfl | ⟨hkey, hname, sa, sb, plain, ha, hb, hsa, hsb⟩
  · exact h'
  · rcases h' with rfl | ⟨-, -, sb', sd, plain', hb', hd, hsb', hsd⟩
    · exact Or.inr ⟨hkey, hname, sa, sb, plain, ha, hb, hsa, hsb⟩
    · -- One text has one plaintext.
      obtain rfl : sb = sb' := by
        rw [hb] at hb'
        exact Json.str.inj (Option.some.inj hb')
      obtain rfl : plain = plain' := Except.ok.inj (hsb.symm.trans hsb')
      exact Or.inr ⟨hkey, hname, sa, sd, plain, ha, hd, hsa, hsd⟩

/-! ## §3. One statement. -/

/-- What a statement of a request does. -/
theorem advance_cases (lib : Library) (c : Cipher) (groups : Groups) (request : Request) (fails : Option String) :
    (∃ value base, request.stage = .merged value base ∧ fails = none
        ∧ request.advance lib c groups fails
          = (.written value, AList.insert request.put.key (merge base value) groups))
      ∨ (∃ value, request.stage = .written value ∧ request.advance lib c groups fails = (.written value, groups))
      ∨ ∃ stage, request.advance lib c groups fails = (stage, groups) ∧ (∀ value, stage ≠ .written value)
          ∧ ∀ value, stage.value = some value → request.stage.value = some value
            ∨ ∃ stored, request.put.prepare lib c stored = .ok value := by
  unfold Request.advance
  cases request.stage with
  | received =>
    right; right
    cases hprepare : request.put.prepare lib c (if fails.isNone then groups.lookup "oidc" else none) with
    | error refusal => exact ⟨_, rfl, (fun _ h => nomatch h), fun _ h => nomatch h⟩
    | ok value =>
      refine ⟨_, rfl, ?_, ?_⟩
      · intro other h
        split at h
        · cases h
        · cases h
      · intro other hother
        have hvalue : some value = some other := by
          rw [← hother]
          split
          · rfl
          · rfl
        rw [← Option.some.inj hvalue]
        exact Or.inr ⟨_, hprepare⟩
  | prepared value =>
    right; right
    cases fails with
    | some message => exact ⟨_, rfl, (fun _ h => nomatch h), fun _ h => nomatch h⟩
    | none =>
      dsimp only
      cases mcpChecked lib groups value with
      | error refusal => exact ⟨.refused refusal, rfl, (fun _ h => nomatch h), fun _ h => nomatch h⟩
      | ok u => exact ⟨.admitted value, rfl, (fun _ h => nomatch h), fun _ h => Or.inl h⟩
  | admitted value =>
    right; right
    cases fails with
    | some message => exact ⟨_, rfl, (fun _ h => nomatch h), fun _ h => nomatch h⟩
    | none => exact ⟨_, rfl, (fun _ h => nomatch h), fun _ h => Or.inl h⟩
  | merged value base =>
    cases fails with
    | none => exact Or.inl ⟨value, base, rfl, rfl, rfl⟩
    | some message =>
      right; right
      exact ⟨_, rfl, (fun _ h => nomatch h), fun _ h => nomatch h⟩
  | written value => exact Or.inr (Or.inl ⟨value, rfl, rfl⟩)
  | refused refusal =>
    right; right
    exact ⟨_, rfl, (fun _ h => nomatch h), fun _ h => nomatch h⟩

/-- What a statement of `resealOIDCSecret` does. -/
theorem reseal_advance_cases (c : Cipher) (groups : Groups) (nonce : Except String String) (fails : Option String)
    (r : ResealStage) :
    (∃ base text, r = .sealedText base text ∧ fails = none ∧ r.advance c groups nonce fails
        = (.finished, groups.modifyRows fun key value =>
            if key = "oidc" then Properties.set base "client_secret" (.str text) else value))
      ∨ ∃ r', r.advance c groups nonce fails = (r', groups)
          ∧ ∀ base text, r' = .sealedText base text → c.reseal nonce (stringOr base "client_secret") = some text := by
  unfold ResealStage.advance
  cases r with
  | idle =>
    right
    dsimp only
    cases (if fails.isNone then groups.lookup "oidc" else none : Option Document) with
    | none => exact ⟨_, rfl, fun _ _ h => nomatch h⟩
    | some base =>
      cases hreseal : c.reseal nonce (stringOr base "client_secret") with
      | none =>
        dsimp only
        rw [hreseal]
        exact ⟨_, rfl, fun _ _ h => nomatch h⟩
      | some text =>
        dsimp only
        rw [hreseal]
        refine ⟨_, rfl, fun base' text' h => ?_⟩
        cases h
        exact hreseal
  | sealedText base text =>
    cases fails with
    | none => exact Or.inl ⟨base, text, rfl, rfl, rfl⟩
    | some message => exact Or.inr ⟨_, rfl, fun _ _ h => nomatch h⟩
  | finished => exact Or.inr ⟨_, rfl, fun _ _ h => nomatch h⟩

/-! ## §4. The invariant. -/

/-- The fields a request writes are its own, and what a completed one wrote stands. -/
structure Writing.Sound (s : Writing) (c : Cipher) : Prop where
  disjoint : NamesDisjoint (s.requests.map Request.put)
  named : ∀ r ∈ s.requests, ∀ value, r.stage.value = some value → ∀ name,
    (Properties.get value name).isSome = true → r.put.Names name
  resealed : ∀ r ∈ s.reseals, ∀ base text, r = .sealedText base text →
    ∃ stored plain, Properties.get base "client_secret" = some (.str stored) ∧ c.decrypt stored = .ok plain
      ∧ c.decrypt text = .ok plain
  kept : s.Kept c

theorem names_of_prepare {lib : Library} {c : Cipher} {put : PutSetting} {stored : Option Document}
    {value : Document} (h : put.prepare lib c stored = .ok value) {name : String}
    (hname : (Properties.get value name).isSome = true) : put.Names name := by
  obtain ⟨-, body, hbody, hsecret, -⟩ := prepare_ok h
  exact ⟨body, hbody, (isSome_withSecret hsecret name).symm.trans hname⟩

/-- What is re-sealed is a client secret that opens. -/
theorem resealed_opens (ring : Keyring) {nonce : Except String String} {base : Document} {text : String}
    (h : ring.cipher.reseal nonce (stringOr base "client_secret") = some text) :
    ∃ stored plain, Properties.get base "client_secret" = some (.str stored)
      ∧ ring.cipher.decrypt stored = .ok plain ∧ ring.cipher.decrypt text = .ok plain := by
  obtain ⟨plain, hplain, htext⟩ := reseal_opens ring h
  unfold stringOr at h hplain
  split at hplain
  · next stored hstored => exact ⟨stored, plain, hstored, hplain, htext⟩
  next hother =>
    exfalso
    -- A secret that is no string is left alone.
    split at h
    · next stored hstored => exact hother stored hstored
    have hempty : ring.cipher.needsReseal "" = false := by
      unfold Cipher.needsReseal
      split
      · rfl
      · rfl
    unfold Cipher.reseal at h
    rw [hempty] at h
    cases h

theorem document_insert (groups : Groups) (key : String) (value : Document) :
    document (AList.insert key value groups) key = value := by
  unfold document
  rw [AList.lookup_insert]
  rfl

theorem document_insert_of_ne (groups : Groups) {key other : String} (h : other ≠ key) (value : Document) :
    document (AList.insert key value groups) other = document groups other := by
  unfold document
  rw [AList.lookup_insert_ne h]

/-- An entry is replaced by itself. -/
theorem set_of_getElem? {α : Type} {items : List α} {i : Nat} {item : α} (h : items[i]? = some item) :
    items.set i item = items := by
  obtain ⟨hlt, rfl⟩ := List.getElem?_eq_some_iff.mp h
  exact List.set_getElem_self hlt

/-- Where a request stands says nothing of what it asks. -/
theorem puts_set {requests : List Request} {i : Nat} {r : Request} (h : requests[i]? = some r) (stage : Stage) :
    (requests.set i { r with stage := stage }).map Request.put = requests.map Request.put := by
  rw [List.map_set]
  refine set_of_getElem? ?_
  rw [List.getElem?_map, h]
  rfl

namespace Writing
variable {ring : Keyring} {s : Writing}

theorem step_put {lib : Library} {c : Cipher} {i : Nat} {r : Request} (h : s.requests[i]? = some r)
    (fails : Option String) : s.step lib c (.put i fails)
      = ⟨(r.advance lib c s.groups fails).2,
          s.requests.set i { r with stage := (r.advance lib c s.groups fails).1 }, s.reseals⟩ := by
  unfold Writing.step
  dsimp only
  rw [h]

theorem step_reseal {lib : Library} {c : Cipher} {j : Nat} {r : ResealStage} (h : s.reseals[j]? = some r)
    (nonce : Except String String) (fails : Option String) : s.step lib c (.reseal j nonce fails)
      = ⟨(r.advance c s.groups nonce fails).2, s.requests,
          s.reseals.set j (r.advance c s.groups nonce fails).1⟩ := by
  unfold Writing.step
  dsimp only
  rw [h]

/-- **A write-back**: the fields of the request are written, the others are as they were. -/
theorem Kept.write (h : s.Sound ring.cipher) {i : Nat} {r : Request} (hr : s.requests[i]? = some r) {value : Document}
    {base : Option Document} (hstage : r.stage = .merged value base)
    (hfresh : ∀ name, Properties.get value name = none →
      SameValue ring.cipher r.put.key name (base.bind fun old => Properties.get old name)
        (Properties.get (document s.groups r.put.key) name)) :
    Kept ⟨AList.insert r.put.key (merge base value) s.groups, s.requests.set i { r with stage := .written value },
      s.reseals⟩ ring.cipher := by
  intro r' hr' value' hvalue' name hname
  obtain ⟨j, hj⟩ := List.mem_iff_getElem?.mp hr'
  have hlt : i < s.requests.length := List.getElem?_eq_some_iff.mp hr |>.1
  rw [List.getElem?_set] at hj
  by_cases hij : i = j
  · -- The request that writes.
    rw [if_pos hij, if_pos hlt] at hj
    obtain rfl := Option.some.inj hj
    obtain rfl : value = value' := Stage.written.inj hvalue'
    show SameValue _ _ _ _ (Properties.get (document (AList.insert r.put.key _ s.groups) r.put.key) name)
    rw [document_insert, get_merge]
    obtain ⟨v, hv⟩ := Option.isSome_iff_exists.mp hname
    rw [hv]
    exact SameValue.refl _ _ _ _
  · rw [if_neg hij] at hj
    have hkept := h.kept r' (List.mem_of_getElem? hj) value' hvalue' name hname
    by_cases hkey : r'.put.key = r.put.key
    · -- One that wrote before: the field is not named here, so it was read as it stood.
      have hnames : r'.put.Names name :=
        h.named r' (List.mem_of_getElem? hj) value' (by rw [hvalue']; rfl) name hname
      have hnone : Properties.get value name = none := by
        by_contra hsome
        have hown : r.put.Names name := h.named r (List.mem_of_getElem? hr) value (by rw [hstage]; rfl) name
          (Option.isSome_iff_ne_none.mpr hsome)
        refine h.disjoint i j r.put r'.put ?_ ?_ hij hkey.symm name hown hnames
        · rw [List.getElem?_map, hr]
          rfl
        · rw [List.getElem?_map, hj]
          rfl
      show SameValue _ _ _ _ (Properties.get (document (AList.insert r.put.key _ s.groups) r'.put.key) name)
      rw [hkey] at hkept ⊢
      rw [document_insert, get_merge, hnone]
      exact hkept.trans (hfresh name hnone).symm
    · show SameValue _ _ _ _ (Properties.get (document (AList.insert r.put.key _ s.groups) r'.put.key) name)
      rw [document_insert_of_ne _ hkey]
      exact hkept

/-- A statement that writes nothing, and completes no request. -/
theorem Sound.move (h : s.Sound ring.cipher) {i : Nat} {r : Request} (hr : s.requests[i]? = some r) {stage : Stage}
    (hnew : ∀ value, stage ≠ .written value)
    (hnamed : ∀ value, stage.value = some value → ∀ name, (Properties.get value name).isSome = true →
      r.put.Names name) :
    Sound ⟨s.groups, s.requests.set i { r with stage := stage }, s.reseals⟩ ring.cipher := by
  refine ⟨?_, ?_, h.resealed, ?_⟩
  · show NamesDisjoint ((s.requests.set i { r with stage := stage }).map Request.put)
    rw [puts_set hr]
    exact h.disjoint
  · intro r' hr' value hvalue
    rcases List.mem_or_eq_of_mem_set hr' with hr' | rfl
    · exact h.named r' hr' value hvalue
    · exact hnamed value hvalue
  · intro r' hr' value hvalue
    rcases List.mem_or_eq_of_mem_set hr' with hr' | rfl
    · exact h.kept r' hr' value hvalue
    · exact absurd hvalue (hnew value)

/-- A statement of a `putSetting`. -/
theorem Sound.put {lib : Library} (h : s.Sound ring.cipher) (i : Nat) (fails : Option String)
    (hfresh : s.Fresh ring.cipher (.put i fails)) : (s.step lib ring.cipher (.put i fails)).Sound ring.cipher := by
  cases hr : s.requests[i]? with
  | none =>
    unfold Writing.step
    dsimp only
    rw [hr]
    exact h
  | some r =>
    have hmem := List.mem_of_getElem? hr
    rw [step_put hr]
    obtain ⟨value, base, hstage, rfl, hstep⟩ | ⟨value, hstage, hstep⟩ | ⟨stage, hstep, hnew, hvalue⟩ :=
      advance_cases lib ring.cipher s.groups r fails
    · rw [hstep]
      have hput : ∀ value', (Stage.written value).value = some value' → r.stage.value = some value' := by
        intro value' hvalue'
        rw [hstage]
        exact hvalue'
      refine ⟨?_, ?_, h.resealed, Kept.write h hr hstage fun name hname => hfresh r value base hr hstage name hname⟩
      · show NamesDisjoint ((s.requests.set i { r with stage := .written value }).map Request.put)
        rw [puts_set hr]
        exact h.disjoint
      · intro r' hr' value' hvalue'
        rcases List.mem_or_eq_of_mem_set hr' with hr' | rfl
        · exact h.named r' hr' value' hvalue'
        · exact h.named r hmem value' (hput value' hvalue')
    · rw [hstep]
      have hsame : s.requests.set i { r with stage := .written value } = s.requests := by
        rw [← hstage]
        exact set_of_getElem? hr
      show Sound ⟨s.groups, s.requests.set i { r with stage := .written value }, s.reseals⟩ ring.cipher
      rw [hsame]
      exact h
    · rw [hstep]
      refine h.move hr hnew fun value' hvalue' name hname => ?_
      rcases hvalue value' hvalue' with hbefore | ⟨stored, hprepare⟩
      · exact h.named r hmem value' hbefore name hname
      · exact names_of_prepare hprepare hname

/-- **The re-sealed object**: the secret is the one that was read, the rest too. -/
theorem Kept.reseal (h : s.Sound ring.cipher) {base : Document} {text : String}
    (hmem : ResealStage.sealedText base text ∈ s.reseals)
    (hfresh : ∀ name, SameValue ring.cipher "oidc" name (Properties.get base name)
      (Properties.get (document s.groups "oidc") name)) (reseals : List ResealStage) :
    Kept ⟨s.groups.modifyRows fun key value =>
      if key = "oidc" then Properties.set base "client_secret" (.str text) else value, s.requests, reseals⟩
      ring.cipher := by
  intro r hr value hvalue name hname
  have hkept := h.kept r hr value hvalue name hname
  have hlookup : ∀ key, (s.groups.modifyRows fun key value =>
      if key = "oidc" then Properties.set base "client_secret" (.str text) else value).lookup key
      = (s.groups.lookup key).map fun value =>
          if key = "oidc" then Properties.set base "client_secret" (.str text) else value :=
    fun key => Table.lookup_modifyRows _ _ _
  unfold document at hkept ⊢
  rw [hlookup]
  by_cases hkey : r.put.key = "oidc"
  · cases hrow : s.groups.lookup r.put.key with
    | none =>
      rw [hrow] at hkept
      exact hkept
    | some doc =>
      rw [hrow] at hkept
      have hread := hfresh name
      unfold document at hread
      rw [← hkey, hrow] at hread
      -- What was written is what was read.
      have hbase := hkept.trans hread.symm
      show SameValue _ _ _ _ (Properties.get (if r.put.key = "oidc" then _ else doc) name)
      rw [if_pos hkey]
      by_cases hsecret : name = "client_secret"
      · obtain ⟨stored, plain, hstored, hopens, htext⟩ := h.resealed _ hmem base text rfl
        subst hsecret
        rw [Properties.get_set_self]
        rw [hstored] at hbase
        refine hbase.trans (Or.inr ⟨hkey, rfl, stored, text, plain, rfl, rfl, hopens, htext⟩)
      · rw [Properties.get_set_of_ne _ hsecret]
        exact hbase
  · cases hrow : s.groups.lookup r.put.key with
    | none =>
      rw [hrow] at hkept
      exact hkept
    | some doc =>
      rw [hrow] at hkept
      show SameValue _ _ _ _ (Properties.get (if r.put.key = "oidc" then _ else doc) name)
      rw [if_neg hkey]
      exact hkept

/-- A statement of `resealOIDCSecret`. -/
theorem Sound.reseal {lib : Library} (h : s.Sound ring.cipher) (j : Nat) (nonce : Except String String)
    (fails : Option String) (hfresh : s.Fresh ring.cipher (.reseal j nonce fails)) :
    (s.step lib ring.cipher (.reseal j nonce fails)).Sound ring.cipher := by
  cases hr : s.reseals[j]? with
  | none =>
    unfold Writing.step
    dsimp only
    rw [hr]
    exact h
  | some r =>
    have hmem := List.mem_of_getElem? hr
    rw [step_reseal hr]
    obtain ⟨base, text, rfl, rfl, hstep⟩ | ⟨r', hstep, hreseal⟩ :=
      reseal_advance_cases ring.cipher s.groups nonce fails r
    · rw [hstep]
      refine ⟨h.disjoint, h.named, ?_, Kept.reseal h hmem (fun name => hfresh base text hr name) _⟩
      intro r' hr' base' text' heq
      rcases List.mem_or_eq_of_mem_set hr' with hr' | rfl
      · exact h.resealed r' hr' base' text' heq
      · cases heq
    · rw [hstep]
      refine ⟨h.disjoint, h.named, ?_, h.kept⟩
      intro r'' hr'' base text heq
      rcases List.mem_or_eq_of_mem_set hr'' with hr'' | rfl
      · exact h.resealed r'' hr'' base text heq
      · exact resealed_opens ring (hreseal base text heq)

/-- **One step.** -/
theorem Sound.step {lib : Library} (h : s.Sound ring.cipher) (a : WriteAction) (hfresh : s.Fresh ring.cipher a) :
    (s.step lib ring.cipher a).Sound ring.cipher := by
  cases a with
  | put i fails => exact h.put i fails hfresh
  | reseal j nonce fails => exact h.reseal j nonce fails hfresh

theorem sound_start {groups : Groups} {requests : List PutSetting} (hdisjoint : NamesDisjoint requests)
    (reseals : Nat) : (Writing.start groups requests reseals).Sound ring.cipher := by
  have hreceived : ∀ r ∈ (Writing.start groups requests reseals).requests, r.stage = .received := by
    intro r hr
    obtain ⟨put, -, rfl⟩ := List.mem_map.mp hr
    rfl
  refine ⟨?_, ?_, ?_, ?_⟩
  · show NamesDisjoint ((requests.map fun put => Request.mk put .received).map Request.put)
    rw [List.map_map, show (Request.put ∘ fun put => Request.mk put .received) = id from rfl, List.map_id]
    exact hdisjoint
  · intro r hr value hvalue
    rw [hreceived r hr] at hvalue
    cases hvalue
  · intro r hr base text heq
    rw [List.eq_of_mem_replicate hr] at heq
    cases heq
  · intro r hr value hvalue
    rw [hreceived r hr] at hvalue
    cases hvalue

end Writing

/-! ## §5. Every run. -/

/-- **NO UPDATE IS LOST** in a run whose write-backs find the fields they do not name as
they read them. -/
theorem partial_writes_kept (lib : Library) (ring : Keyring) (groups : Groups) (requests : List PutSetting)
    (reseals : Nat) (hdisjoint : NamesDisjoint requests) (actions : List WriteAction)
    (hfresh : Along (Writing.step lib ring.cipher) (Writing.Fresh ring.cipher)
      (Writing.start groups requests reseals) actions) :
    ((Writing.start groups requests reseals).run lib ring.cipher actions).Kept ring.cipher := by
  have hstep : ∀ (s : Writing) a, s.Sound ring.cipher → s.Fresh ring.cipher a →
      (s.step lib ring.cipher a).Sound ring.cipher := fun s a hs ha => hs.step a ha
  exact (along_induction hstep actions (Writing.sound_start hdisjoint reseals) hfresh).kept

theorem namesDisjoint_pair {a b : PutSetting} (h : ∀ name, a.Names name → ¬b.Names name) : NamesDisjoint [a, b] := by
  intro i j x y hx hy hij _ name hname hother
  match i, j with
  | 0, 0 => exact hij rfl
  | 0, 1 =>
    cases hx
    cases hy
    exact h name hname hother
  | 1, 0 =>
    cases hx
    cases hy
    exact h name hother hname
  | 1, 1 => exact hij rfl
  | 0, j + 2 => cases hy
  | 1, j + 2 => cases hy
  | i + 2, _ => cases hx

namespace Sample

def nameWrite : PutSetting := ⟨"general", .ok [("product_name", .str "Shop")], .error "not needed"⟩

def zoneWrite : PutSetting := ⟨"general", .ok [("timezone", .str "UTC")], .error "not needed"⟩

theorem writes_disjoint : NamesDisjoint [nameWrite, zoneWrite] := by
  refine namesDisjoint_pair fun name hname hother => ?_
  obtain ⟨body, hbody, hsome⟩ := hname
  obtain ⟨body', hbody', hsome'⟩ := hother
  cases hbody
  cases hbody'
  by_cases h : name = "product_name"
  · subst h
    revert hsome'
    decide
  · have hnone : Properties.get [("product_name", .str "Shop")] name = none := by
      unfold Properties.get
      rw [List.lookup_cons, beq_false_of_ne h]
      rfl
    rw [hnone] at hsome
    cases hsome

/-- No URL and no network is looked at. -/
def library : Library := ⟨fun _ => none, (fun _ h => nomatch h), fun _ => false, id, fun _ => false⟩

def ring : Keyring := ⟨Momento.Keys.Sample.ring, Momento.Keys.Sample.ring_lawful⟩

def started : Writing := Writing.start seeded [nameWrite, zoneWrite] 0

end Sample

/-- One request after the other. -/
theorem partial_writes_kept_inTurn :
    (Sample.started.run Sample.library Sample.ring.cipher
      [.put 0 none, .put 0 none, .put 0 none, .put 1 none, .put 1 none, .put 1 none]).Kept
      Sample.ring.cipher := by
  refine partial_writes_kept Sample.library Sample.ring seeded [Sample.nameWrite, Sample.zoneWrite] 0
    Sample.writes_disjoint _ ⟨?_, ?_, ?_, ?_, ?_, ?_, trivial⟩
  all_goals
    intro r value base hr hstage name hnone
    cases hr
    cases hstage
  · exact SameValue.refl _ _ _ _
  · exact SameValue.refl _ _ _ _

/-- **Two writes of different fields**: both read the group before one of them writes
it, and the first one's field is lost. -/
theorem partial_write_lost :
    ¬∀ (lib : Library) (ring : Keyring) (groups : Groups) (requests : List PutSetting) (reseals : Nat),
      NamesDisjoint requests → ∀ actions,
        ((Writing.start groups requests reseals).run lib ring.cipher actions).Kept ring.cipher := by
  intro h
  have hkept := h Sample.library Sample.ring seeded [Sample.nameWrite, Sample.zoneWrite] 0
    Sample.writes_disjoint [.put 0 none, .put 0 none, .put 1 none, .put 1 none, .put 0 none, .put 1 none]
  have hsame := hkept ⟨Sample.nameWrite, .written [("product_name", .str "Shop")]⟩ List.mem_cons_self
    [("product_name", .str "Shop")] rfl "product_name" rfl
  have hstored : Properties.get (document ((Sample.started.run Sample.library Sample.ring.cipher
      [.put 0 none, .put 0 none, .put 1 none, .put 1 none, .put 0 none, .put 1 none]).groups) "general")
      "product_name" = some (.str "Momento") := rfl
  rcases hsame with hsame | ⟨hkey, -⟩
  · have hlost := hsame.trans hstored
    have hname : "Shop" = "Momento" := Json.str.inj (Option.some.inj hlost)
    revert hname
    decide
  · revert hkey
    decide

/-! ## §6. A request with no other beside it. -/

/-- **The statements of one request are `putSetting`.** -/
theorem alone_run (lib : Library) (c : Cipher) (put : PutSetting) (groups : Groups) :
    ((Writing.start groups [put] 0).run lib c [.put 0 none, .put 0 none, .put 0 none, .put 0 none]).groups
      = match put.run lib c true groups with
        | .ok groups' => groups'
        | .error _ => groups := by
  have hstep : ∀ (groups : Groups) (stage : Stage),
      Writing.step lib c ⟨groups, [⟨put, stage⟩], []⟩ (.put 0 none)
        = ⟨((Request.mk put stage).advance lib c groups none).2,
            [⟨put, ((Request.mk put stage).advance lib c groups none).1⟩], []⟩ := fun _ _ => rfl
  unfold PutSetting.run Writing.run Writing.start
  simp only [List.foldl_cons, List.foldl_nil, List.map_cons, List.map_nil, List.replicate_zero]
  rw [hstep]
  unfold Request.advance
  dsimp only
  rw [if_pos (show (none : Option String).isNone = true from rfl), if_pos trivial]
  cases put.prepare lib c (groups.lookup "oidc") with
  | error refusal => rfl
  | ok value =>
    dsimp only
    cases put.needsMcp value with
    | false => rfl
    | true =>
      rw [if_pos rfl, if_pos rfl, hstep]
      unfold Request.advance
      dsimp only
      cases mcpChecked lib groups value with
      | error refusal => rfl
      | ok u => rfl

end Momento.Settings
