/-
  Momento.Settings.Validity

  **VALID GROUPS, WRITTEN IN PARTS.**  A write is checked as it stands in its request,
  what is stored is merged from many.  A check of one field holds of the merged group
  with the parts; the conditions that join fields, or groups, do not: a later write may
  take away what an earlier one needed.
-/
import Momento.Foundation.Runs
import Momento.Settings.Store

namespace Momento.Settings

open Foundation Momento.Keys

/-! ## §1. What is demanded. -/

variable (lib : Library)

/-- SSO tokens have an issuer, and a resource or a public URL. -/
def McpReady (groups : Groups) : Prop :=
  trimSpace (storedText lib groups "oidc" "issuer_url") ≠ ""
    ∧ (trimSpace (storedText lib groups "mcp.oauth" "resource") ≠ ""
      ∨ trimSpace (storedText lib groups "general" "public_url") ≠ "")

/-- SSO tokens are switched on. -/
def mcpEnabled (groups : Groups) : Bool := ((groups.lookup "mcp.oauth").map isEnabled).getD false

/-- **Each stored group is one that could be written whole.** -/
structure ValidGroups (groups : Groups) : Prop where
  checked : ∀ key value, groups.lookup key = some value → validateAdminSetting lib key value = .ok ()
  mcp : mcpEnabled groups = true → McpReady lib groups

/-- The text a field has after the write. -/
def textAfter (groups : Groups) (key : String) (body : Document) (name : String) : String :=
  match Properties.get body name with
  | some _ => fieldText lib body name
  | none => storedText lib groups key name

/-- **What a write takes away is not needed.**  An `oidc` group that stays enabled keeps
its issuer and its client; SSO tokens that stay switched on keep an issuer, and a
resource or a public URL. -/
structure KeepsNeeded (groups : Groups) (key : String) (body : Document) : Prop where
  oidc : key = "oidc" → Properties.get body "enabled" = none →
    ((groups.lookup "oidc").map isEnabled).getD false = true →
    ((Properties.get body "issuer_url").isSome = true → isHttpUrl lib (stringOr body "issuer_url") = true)
      ∧ ((Properties.get body "client_id").isSome = true → stringOr body "client_id" ≠ "")
  issuer : key = "oidc" → mcpEnabled groups = true → (Properties.get body "issuer_url").isSome = true →
    trimSpace (fieldText lib body "issuer_url") ≠ ""
  publicUrl : key = "general" → mcpEnabled groups = true → (Properties.get body "public_url").isSome = true →
    trimSpace (fieldText lib body "public_url") ≠ ""
      ∨ trimSpace (storedText lib groups "mcp.oauth" "resource") ≠ ""
  resource : key = "mcp.oauth" → mcpEnabled groups = true → Properties.get body "enabled" = none →
    (Properties.get body "resource").isSome = true →
    trimSpace (fieldText lib body "resource") ≠ "" ∨ trimSpace (storedText lib groups "general" "public_url") ≠ ""

/-- The condition on a request that is accepted. -/
def Harmless (c : Cipher) (groups : Groups) (request : PutSetting × Bool) : Prop :=
  ∀ body, request.1.body = .ok body → (∃ groups', request.1.run lib c request.2 groups = .ok groups') →
    KeepsNeeded lib groups request.1.key body

variable {lib}

/-! ## §2. Fields of a merged group. -/

theorem fieldText_congr {a b : Document} {name : String} (h : Properties.get a name = Properties.get b name) :
    fieldText lib a name = fieldText lib b name := by
  unfold fieldText
  rw [h]

theorem stringOr_congr {a b : Document} {name : String} (h : Properties.get a name = Properties.get b name) :
    stringOr a name = stringOr b name := by
  unfold stringOr
  rw [h]

theorem isEnabled_congr {a b : Document} (h : Properties.get a "enabled" = Properties.get b "enabled") :
    isEnabled a = isEnabled b := by
  unfold isEnabled
  rw [h]

theorem get_merge_of_named {stored : Option Document} {value : Document} {name : String}
    (h : (Properties.get value name).isSome = true) :
    Properties.get (merge stored value) name = Properties.get value name := by
  rw [get_merge]
  obtain ⟨v, hv⟩ := Option.isSome_iff_exists.mp h
  rw [hv]
  rfl

theorem get_merge_of_unnamed {old value : Document} {name : String} (h : Properties.get value name = none) :
    Properties.get (merge (some old) value) name = Properties.get old name := by
  rw [get_merge, h]
  rfl

theorem get_merge_fresh {value : Document} {name : String} :
    Properties.get (merge none value) name = Properties.get value name := by
  rw [get_merge]
  exact Option.or_none

/-- **A check of one field** holds of the merged group. -/
theorem runChecks_merge {checks : List FieldCheck} {stored : Option Document} {value : Document}
    (hvalue : runChecks checks value = .ok ())
    (hstored : ∀ old, stored = some old → runChecks checks old = .ok ()) :
    runChecks checks (merge stored value) = .ok () := by
  rw [runChecks_ok_iff] at hvalue ⊢
  intro check hcheck
  unfold FieldCheck.run
  cases hnamed : Properties.get value check.field with
  | some v =>
    rw [get_merge_of_named (by rw [hnamed]; rfl)]
    exact hvalue check hcheck
  | none =>
    cases stored with
    | none =>
      rw [get_merge_fresh]
      exact hvalue check hcheck
    | some old =>
      rw [get_merge_of_unnamed hnamed]
      exact runChecks_ok_iff.mp (hstored old rfl) check hcheck

/-- **The check that joins three fields** holds of the merged group exactly where a write
that leaves `enabled` alone leaves an enabled group its issuer and its client. -/
theorem oidcCheck_merge_iff {stored : Option Document} {value : Document} (hvalue : oidcCheck lib value = .ok ())
    (hstored : ∀ old, stored = some old → oidcCheck lib old = .ok ()) :
    oidcCheck lib (merge stored value) = .ok () ↔
      (Properties.get value "enabled" = none → (stored.map isEnabled).getD false = true →
        ((Properties.get value "issuer_url").isSome = true → isHttpUrl lib (stringOr value "issuer_url") = true)
          ∧ ((Properties.get value "client_id").isSome = true → stringOr value "client_id" ≠ "")) := by
  rw [oidcCheck_ok_iff]
  cases henabled : Properties.get value "enabled" with
  | some v =>
    have hsame : isEnabled (merge stored value) = isEnabled value :=
      isEnabled_congr (get_merge_of_named (by rw [henabled]; rfl))
    constructor
    · intro _ hnone
      cases hnone
    · intro _ hon
      rw [hsame] at hon
      obtain ⟨hissuer, hclient⟩ := oidcCheck_ok_iff.mp hvalue hon
      -- Both are named, for neither is empty.
      have hissuerNamed : (Properties.get value "issuer_url").isSome = true := by
        by_contra hnone
        rw [Bool.not_eq_true, Option.isSome_eq_false_iff, Option.isNone_iff_eq_none] at hnone
        have hempty : stringOr value "issuer_url" = "" := by
          unfold stringOr
          rw [hnone]
        rw [hempty, isHttpUrl_empty] at hissuer
        cases hissuer
      have hclientNamed : (Properties.get value "client_id").isSome = true := by
        by_contra hnone
        rw [Bool.not_eq_true, Option.isSome_eq_false_iff, Option.isNone_iff_eq_none] at hnone
        refine hclient ?_
        unfold stringOr
        rw [hnone]
      rw [stringOr_congr (get_merge_of_named hissuerNamed), stringOr_congr (get_merge_of_named hclientNamed)]
      exact ⟨hissuer, hclient⟩
  | none =>
    cases stored with
    | none =>
      have hoff : isEnabled (merge none value) = false := by
        unfold isEnabled
        rw [get_merge_fresh, henabled]
      constructor
      · intro _ _ hon
        cases hon
      · intro _ hon
        rw [hoff] at hon
        cases hon
    | some old =>
      have hsame : isEnabled (merge (some old) value) = isEnabled old :=
        isEnabled_congr (get_merge_of_unnamed henabled)
      constructor
      · intro h _ hon
        obtain ⟨hissuer, hclient⟩ := h (hsame.trans hon)
        refine ⟨fun hnamed => ?_, fun hnamed => ?_⟩
        · rw [stringOr_congr (get_merge_of_named hnamed)] at hissuer
          exact hissuer
        · rw [stringOr_congr (get_merge_of_named hnamed)] at hclient
          exact hclient
      · intro h hon
        rw [hsame] at hon
        obtain ⟨hissuer, hclient⟩ := h rfl hon
        obtain ⟨holdIssuer, holdClient⟩ := oidcCheck_ok_iff.mp (hstored old rfl) hon
        constructor
        · cases hnamed : Properties.get value "issuer_url" with
          | some v =>
            rw [stringOr_congr (get_merge_of_named (by rw [hnamed]; rfl))]
            exact hissuer (by rw [hnamed]; rfl)
          | none =>
            rw [stringOr_congr (get_merge_of_unnamed hnamed)]
            exact holdIssuer
        · cases hnamed : Properties.get value "client_id" with
          | some v =>
            rw [stringOr_congr (get_merge_of_named (by rw [hnamed]; rfl))]
            exact hclient (by rw [hnamed]; rfl)
          | none =>
            rw [stringOr_congr (get_merge_of_unnamed hnamed)]
            exact holdClient

/-! ## §3. Texts after a write. -/

/-- The groups after a write of prepared fields. -/
def written (groups : Groups) (key : String) (value : Document) : Groups :=
  AList.insert key (merge (groups.lookup key) value) groups

theorem storedText_written_of_ne (groups : Groups) {key other : String} (h : other ≠ key) (value : Document)
    (name : String) : storedText lib (written groups key value) other name = storedText lib groups other name := by
  unfold storedText written
  rw [AList.lookup_insert_ne h]

theorem storedText_written (groups : Groups) (key : String) (value : Document) (name : String) :
    storedText lib (written groups key value) key name = textAfter lib groups key value name := by
  unfold storedText written textAfter
  rw [AList.lookup_insert]
  show fieldText lib (merge (groups.lookup key) value) name = _
  cases hnamed : Properties.get value name with
  | some v => exact fieldText_congr (get_merge_of_named (by rw [hnamed]; rfl))
  | none =>
    dsimp only
    unfold storedText
    cases hrow : groups.lookup key with
    | none =>
      unfold fieldText
      rw [get_merge_fresh, hnamed]
      rfl
    | some old => exact fieldText_congr (get_merge_of_unnamed hnamed)

theorem mcpEnabled_written_of_ne (groups : Groups) {key : String} (h : "mcp.oauth" ≠ key) (value : Document) :
    mcpEnabled (written groups key value) = mcpEnabled groups := by
  unfold mcpEnabled written
  rw [AList.lookup_insert_ne h]

theorem mcpEnabled_written (groups : Groups) (value : Document) :
    mcpEnabled (written groups "mcp.oauth" value) =
      if (Properties.get value "enabled").isSome then isEnabled value else mcpEnabled groups := by
  unfold mcpEnabled written
  rw [AList.lookup_insert]
  show isEnabled (merge (groups.lookup "mcp.oauth") value) = _
  cases hnamed : Properties.get value "enabled" with
  | some v =>
    rw [if_pos (show (some v).isSome = true from rfl)]
    exact isEnabled_congr (get_merge_of_named (by rw [hnamed]; rfl))
  | none =>
    rw [if_neg (by simp)]
    cases hrow : groups.lookup "mcp.oauth" with
    | none =>
      unfold isEnabled
      rw [get_merge_fresh, hnamed]
      rfl
    | some old => exact isEnabled_congr (get_merge_of_unnamed hnamed)

/-- A text after a write: blank where the write blanks it. -/
theorem textAfter_ne_iff (groups : Groups) (key : String) (body : Document) (name : String)
    (hbefore : trimSpace (storedText lib groups key name) ≠ "") :
    trimSpace (textAfter lib groups key body name) ≠ "" ↔
      ((Properties.get body name).isSome = true → trimSpace (fieldText lib body name) ≠ "") := by
  unfold textAfter
  cases hnamed : Properties.get body name with
  | some v => exact ⟨fun h _ => h, fun h => h rfl⟩
  | none =>
    constructor
    · intro _ h
      cases h
    · exact fun _ => hbefore

/-- What `mcpChecked` demands. -/
theorem mcpChecked_ok_iff {groups : Groups} {value : Document} (hresource : (resourceCheck lib).run value = .ok ()) :
    mcpChecked lib groups value = .ok () ↔
      trimSpace (storedText lib groups "oidc" "issuer_url") ≠ ""
        ∧ (trimSpace (textAfter lib groups "mcp.oauth" value "resource") ≠ ""
          ∨ trimSpace (storedText lib groups "general" "public_url") ≠ "") := by
  have htext : resourceOf (storedText lib groups "mcp.oauth" "resource") value
      = textAfter lib groups "mcp.oauth" value "resource" := by
    unfold resourceOf textAfter fieldText
    unfold FieldCheck.run resourceCheck at hresource
    dsimp only at hresource
    cases hnamed : Properties.get value "resource" with
    | none => rfl
    | some v =>
      rw [hnamed] at hresource
      cases v with
      | str raw => rfl
      | _ => cases hresource
  unfold mcpChecked checkMcp
  rw [htext]
  split
  next hblank =>
    constructor
    · intro h
      cases h
    · intro h
      exact absurd hblank h.1
  next hissuer =>
    split
    next hblank =>
      constructor
      · intro h
        cases h
      · rintro ⟨-, h | h⟩
        · exact absurd hblank.1 h
        · exact absurd hblank.2 h
    · next hnot => exact ⟨fun _ => ⟨hissuer, not_and_or.mp hnot⟩, fun _ => rfl⟩

/-! ## §4. One write. -/

/-- The single groups. -/
theorem checked_written_iff {groups : Groups} (hvalid : ValidGroups lib groups) {key : String} {value : Document}
    (hcheck : validateAdminSetting lib key value = .ok ()) :
    (∀ other v, (written groups key value).lookup other = some v → validateAdminSetting lib other v = .ok ()) ↔
      (key = "oidc" → Properties.get value "enabled" = none →
        ((groups.lookup "oidc").map isEnabled).getD false = true →
        ((Properties.get value "issuer_url").isSome = true → isHttpUrl lib (stringOr value "issuer_url") = true)
          ∧ ((Properties.get value "client_id").isSome = true → stringOr value "client_id" ≠ "")) := by
  have hothers : ∀ other v, other ≠ key → (written groups key value).lookup other = some v →
      validateAdminSetting lib other v = .ok () := by
    intro other v hne hrow
    unfold written at hrow
    rw [AList.lookup_insert_ne hne] at hrow
    exact hvalid.checked other v hrow
  have hself : (written groups key value).lookup key = some (merge (groups.lookup key) value) :=
    AList.lookup_insert _
  by_cases hoidc : key = "oidc"
  · subst hoidc
    have hiff : oidcCheck lib (merge (groups.lookup "oidc") value) = .ok () ↔ _ :=
      oidcCheck_merge_iff hcheck fun old hold => hvalid.checked "oidc" old hold
    constructor
    · intro h _
      exact hiff.mp (h "oidc" _ hself)
    · intro h other v hrow
      by_cases hne : other = "oidc"
      · subst hne
        rw [hself] at hrow
        obtain rfl := Option.some.inj hrow
        exact hiff.mpr (h rfl)
      · exact hothers other v hne hrow
  · refine ⟨fun _ h => absurd h hoidc, fun _ other v hrow => ?_⟩
    by_cases hne : other = key
    · subst hne
      rw [hself] at hrow
      obtain rfl := Option.some.inj hrow
      unfold validateAdminSetting at hcheck ⊢
      rw [if_neg hoidc] at hcheck ⊢
      refine runChecks_merge hcheck fun old hold => ?_
      have hok := hvalid.checked other old hold
      unfold validateAdminSetting at hok
      rw [if_neg hoidc] at hok
      exact hok
    · exact hothers other v hne hrow

/-- SSO tokens, where the group that is written is their own. -/
theorem mcp_written_iff {groups : Groups} (hvalid : ValidGroups lib groups) {value : Document}
    (hresource : (resourceCheck lib).run value = .ok ())
    (hmcp : isEnabled value = true → mcpChecked lib groups value = .ok ()) :
    (mcpEnabled (written groups "mcp.oauth" value) = true → McpReady lib (written groups "mcp.oauth" value)) ↔
      (mcpEnabled groups = true → Properties.get value "enabled" = none →
        (Properties.get value "resource").isSome = true →
        trimSpace (fieldText lib value "resource") ≠ "" ∨ trimSpace (storedText lib groups "general" "public_url") ≠ "") := by
  have hready : McpReady lib (written groups "mcp.oauth" value) ↔
      trimSpace (storedText lib groups "oidc" "issuer_url") ≠ ""
        ∧ (trimSpace (textAfter lib groups "mcp.oauth" value "resource") ≠ ""
          ∨ trimSpace (storedText lib groups "general" "public_url") ≠ "") := by
    unfold McpReady
    rw [storedText_written, storedText_written_of_ne _ (by decide), storedText_written_of_ne _ (by decide)]
  rw [hready, mcpEnabled_written]
  cases hnamed : Properties.get value "enabled" with
  | some v =>
    rw [if_pos (show (some v).isSome = true from rfl)]
    constructor
    · intro _ _ hnone
      cases hnone
    · exact fun _ hon => (mcpChecked_ok_iff hresource).mp (hmcp hon)
  | none =>
    rw [if_neg (by simp)]
    constructor
    · intro h hon _ hsome
      obtain ⟨-, htext⟩ := h hon
      unfold textAfter at htext
      obtain ⟨v, hv⟩ := Option.isSome_iff_exists.mp hsome
      rw [hv] at htext
      exact htext
    · intro h hon
      obtain ⟨hissuer, hresource⟩ := hvalid.mcp hon
      refine ⟨hissuer, ?_⟩
      unfold textAfter
      cases hres : Properties.get value "resource" with
      | none => exact hresource
      | some v => exact h hon rfl (by rw [hres]; rfl)

/-- SSO tokens, where another group is written. -/
theorem mcp_written_of_ne_iff {groups : Groups} (hvalid : ValidGroups lib groups) {key : String}
    (hkey : "mcp.oauth" ≠ key) (value : Document) :
    (mcpEnabled (written groups key value) = true → McpReady lib (written groups key value)) ↔
      (key = "oidc" → mcpEnabled groups = true → (Properties.get value "issuer_url").isSome = true →
        trimSpace (fieldText lib value "issuer_url") ≠ "")
      ∧ (key = "general" → mcpEnabled groups = true → (Properties.get value "public_url").isSome = true →
        trimSpace (fieldText lib value "public_url") ≠ ""
          ∨ trimSpace (storedText lib groups "mcp.oauth" "resource") ≠ "") := by
  rw [mcpEnabled_written_of_ne _ hkey]
  by_cases hon : mcpEnabled groups = true
  · obtain ⟨hissuer, hresource⟩ := hvalid.mcp hon
    unfold McpReady
    rw [storedText_written_of_ne _ hkey]
    by_cases hoidc : key = "oidc"
    · subst hoidc
      rw [storedText_written, storedText_written_of_ne _ (show "general" ≠ "oidc" by decide)]
      have htext := textAfter_ne_iff groups "oidc" value "issuer_url" hissuer
      constructor
      · intro h
        exact ⟨fun _ _ => htext.mp (h hon).1, fun h => absurd h (by decide)⟩
      · intro h _
        exact ⟨htext.mpr (h.1 rfl hon), hresource⟩
    · rw [storedText_written_of_ne _ (show "oidc" ≠ key from fun h => hoidc h.symm)]
      by_cases hgeneral : key = "general"
      · subst hgeneral
        rw [storedText_written]
        constructor
        · intro h
          refine ⟨fun h => absurd h (by decide), fun _ _ hsome => ?_⟩
          obtain ⟨-, hafter⟩ := h hon
          unfold textAfter at hafter
          obtain ⟨v, hv⟩ := Option.isSome_iff_exists.mp hsome
          rw [hv] at hafter
          exact hafter.symm
        · intro h _
          refine ⟨hissuer, ?_⟩
          unfold textAfter
          cases hnamed : Properties.get value "public_url" with
          | none => exact hresource
          | some v => exact (h.2 rfl hon (by rw [hnamed]; rfl)).symm
      · rw [storedText_written_of_ne _ (show "general" ≠ key from fun h => hgeneral h.symm)]
        exact ⟨fun _ => ⟨fun h => absurd h hoidc, fun h => absurd h hgeneral⟩, fun _ _ => ⟨hissuer, hresource⟩⟩
  · rw [Bool.not_eq_true] at hon
    rw [hon]
    exact ⟨fun _ => ⟨(fun _ h => nomatch h), fun _ h => nomatch h⟩, fun _ h => nomatch h⟩

/-- **One write**: the groups stay valid exactly where nothing is taken away that is
needed. -/
theorem validGroups_written_iff {groups : Groups} (hvalid : ValidGroups lib groups) {key : String} {value : Document}
    (hcheck : validateAdminSetting lib key value = .ok ())
    (hmcp : key = "mcp.oauth" → isEnabled value = true → mcpChecked lib groups value = .ok ()) :
    ValidGroups lib (written groups key value) ↔ KeepsNeeded lib groups key value := by
  have hchecked := checked_written_iff hvalid hcheck
  by_cases hkey : "mcp.oauth" = key
  · subst hkey
    have hresource : (resourceCheck lib).run value = .ok () := by
      have hall : runChecks (checksOf lib "mcp.oauth") value = .ok () := hcheck
      exact runChecks_ok_iff.mp hall _ List.mem_cons_self
    have hiff := mcp_written_iff hvalid hresource (hmcp rfl)
    constructor
    · intro h
      exact ⟨hchecked.mp h.checked, fun h => absurd h (by decide), fun h => absurd h (by decide),
        fun _ => hiff.mp h.mcp⟩
    · intro h
      exact ⟨hchecked.mpr h.oidc, hiff.mpr (h.resource rfl)⟩
  · have hiff := mcp_written_of_ne_iff hvalid hkey value
    constructor
    · intro h
      obtain ⟨hissuer, hpublic⟩ := hiff.mp h.mcp
      exact ⟨hchecked.mp h.checked, hissuer, hpublic, fun h => absurd h.symm hkey⟩
    · intro h
      exact ⟨hchecked.mpr h.oidc, hiff.mpr ⟨h.issuer, h.publicUrl⟩⟩

/-- The condition looks at five fields, which are written as the request has them. -/
theorem KeepsNeeded.congr {groups : Groups} {key : String} {body value : Document}
    (h : ∀ name, name ≠ "client_secret" → Properties.get value name = Properties.get body name)
    (hbody : KeepsNeeded lib groups key body) : KeepsNeeded lib groups key value := by
  have henabled := h "enabled" (by decide)
  have hissuer := h "issuer_url" (by decide)
  have hclient := h "client_id" (by decide)
  have hpublic := h "public_url" (by decide)
  have hresource := h "resource" (by decide)
  refine ⟨?_, ?_, ?_, ?_⟩
  · rw [henabled, hissuer, hclient, stringOr_congr hissuer, stringOr_congr hclient]
    exact hbody.oidc
  · rw [hissuer, fieldText_congr hissuer]
    exact hbody.issuer
  · rw [hpublic, fieldText_congr hpublic]
    exact hbody.publicUrl
  · rw [henabled, hresource, fieldText_congr hresource]
    exact hbody.resource

/-- **An accepted request** keeps the groups valid exactly where it keeps what is needed. -/
theorem validGroups_run_iff {c : Cipher} {groups groups' : Groups} (hvalid : ValidGroups lib groups)
    {request : PutSetting} {readable : Bool} {body : Document} (hbody : request.body = .ok body)
    (h : request.run lib c readable groups = .ok groups') :
    ValidGroups lib groups' ↔ KeepsNeeded lib groups request.key body := by
  obtain ⟨value, hprepare, hmcp, rfl⟩ := run_ok h
  obtain ⟨-, body', hbody', hsecret, hcheck⟩ := prepare_ok hprepare
  obtain rfl : body = body' := Except.ok.inj (hbody.symm.trans hbody')
  have hfields : ∀ name, name ≠ "client_secret" → Properties.get value name = Properties.get body name :=
    fun name hname => get_withSecret hsecret hname
  have hneeds : request.key = "mcp.oauth" → isEnabled value = true → mcpChecked lib groups value = .ok () := by
    intro hkey hon
    refine hmcp ?_
    unfold PutSetting.needsMcp
    rw [hon, hkey]
    rfl
  show ValidGroups lib (written groups request.key value) ↔ _
  rw [validGroups_written_iff hvalid hcheck hneeds]
  exact ⟨fun hkeeps => hkeeps.congr fun name hname => (hfields name hname).symm, fun hkeeps => hkeeps.congr hfields⟩

/-! ## §5. Every sequence of writes. -/

/-- **THE GROUPS STAY VALID** under every sequence of writes that take away nothing that
is needed. -/
theorem settings_stay_valid (lib : Library) (c : Cipher) (groups : Groups) (hvalid : ValidGroups lib groups)
    (requests : List (PutSetting × Bool))
    (hharmless : Along (afterPut lib c) (Harmless lib c) groups requests) :
    ValidGroups lib (requests.foldl (afterPut lib c) groups) := by
  refine along_induction ?_ requests hvalid hharmless
  intro groups request hgroups hrequest
  unfold afterPut
  cases hrun : request.1.run lib c request.2 groups with
  | error refusal => exact hgroups
  | ok groups' =>
    obtain ⟨value, hprepare, -, -⟩ := run_ok hrun
    obtain ⟨-, body, hbody, -, -⟩ := prepare_ok hprepare
    exact (validGroups_run_iff hgroups hbody hrun).mpr (hrequest body hbody ⟨groups', hrun⟩)

namespace Sample

/-- The identity provider is the only URL that is looked at. -/
def ssoLibrary : Library where
  parseUrl raw := if raw = "https://sso.example" then some ⟨"https", false, "sso.example", "", "", ""⟩ else none
  parseUrl_empty u h := by cases h
  parseCidr _ := false
  quote := id
  castsToInt _ := false

theorem seeded_valid : ValidGroups ssoLibrary seeded := by
  refine ⟨?_, fun hon => nomatch hon⟩
  have hall : ∀ e ∈ seeded.entries, validateAdminSetting ssoLibrary e.1 e.2 = .ok () := by decide +kernel
  exact fun key value hrow => hall ⟨key, value⟩ (AList.mem_lookup_iff.mp hrow)

def switchOn : PutSetting × Bool :=
  (⟨"oidc", .ok [("client_id", .str "momento"), ("enabled", .bool true), ("issuer_url", .str "https://sso.example")],
    .error "not needed"⟩, true)

/-- The client and the issuer alone; `enabled` is left as it is. -/
def renameClient : PutSetting × Bool :=
  (⟨"oidc", .ok [("client_id", .str "momento-2"), ("issuer_url", .str "https://sso.example")],
    .error "not needed"⟩, true)

def blankIssuer : PutSetting × Bool := (⟨"oidc", .ok [("issuer_url", .str "")], .error "not needed"⟩, true)

end Sample

/-- Sign-in is switched on, and then its client is changed by a write that does not name
`enabled`: sign-in stays on. -/
theorem settings_stay_valid_switchedOn :
    ValidGroups Sample.ssoLibrary
        ([Sample.switchOn, Sample.renameClient].foldl (afterPut Sample.ssoLibrary ⟨[]⟩) seeded)
      ∧ (([Sample.switchOn, Sample.renameClient].foldl (afterPut Sample.ssoLibrary ⟨[]⟩) seeded).lookup "oidc").map
          (fun value => (isEnabled value, stringOr value "client_id")) = some (true, "momento-2") := by
  refine ⟨?_, by decide +kernel⟩
  refine settings_stay_valid Sample.ssoLibrary ⟨[]⟩ seeded Sample.seeded_valid _ ⟨?_, ?_, trivial⟩
  · intro body hbody _
    cases hbody
    refine ⟨?_, ?_, ?_, ?_⟩
    · intro _ hnone
      cases hnone
    · intro _ hon
      cases hon
    · intro _ hon
      cases hon
    · intro _ hon
      cases hon
  · intro body hbody _
    cases hbody
    have hmcp : mcpEnabled (afterPut Sample.ssoLibrary ⟨[]⟩ seeded Sample.switchOn) = false := by decide +kernel
    refine ⟨?_, ?_, ?_, ?_⟩
    · -- the group is enabled: the new issuer and the new client are in order
      intro _ _ _
      exact ⟨fun _ => by decide +kernel, fun _ => by decide +kernel⟩
    · intro _ hon
      rw [hmcp] at hon
      cases hon
    · intro _ hon
      rw [hmcp] at hon
      cases hon
    · intro _ hon
      rw [hmcp] at hon
      cases hon

/-- **The issuer is blanked**: sign-in is switched on with its issuer, then a write that
names the issuer alone takes it away. -/
theorem settings_left_invalid :
    ¬∀ (lib : Library) (c : Cipher) (groups : Groups), ValidGroups lib groups →
      ∀ requests : List (PutSetting × Bool), ValidGroups lib (requests.foldl (afterPut lib c) groups) := by
  intro h
  have hvalid := h Sample.ssoLibrary ⟨[]⟩ seeded Sample.seeded_valid [Sample.switchOn, Sample.blankIssuer]
  obtain ⟨value, hrow⟩ : ∃ value, ([Sample.switchOn, Sample.blankIssuer].foldl
      (afterPut Sample.ssoLibrary ⟨[]⟩) seeded).lookup "oidc" = some value := ⟨_, rfl⟩
  have hcheck := hvalid.checked "oidc" value hrow
  have hon : isEnabled value = true := by
    cases hrow
    rfl
  have hblank : stringOr value "issuer_url" = "" := by
    cases hrow
    rfl
  have hurl := (oidcCheck_ok_iff.mp hcheck hon).1
  rw [hblank, isHttpUrl_empty] at hurl
  cases hurl

end Momento.Settings
