/-
  Momento.Settings.Readability

  **WHAT IS STORED, AND WHO READS IT.**  A consumer decodes a whole group into the
  fields of a Go struct: a member whose value does not fit its field fails the whole
  group.  Members are matched to fields whatever the case of their letters; the checks of
  `putSetting` know a field by its exact name, and not every field.
-/
import Momento.Foundation.Runs
import Momento.Settings.Store

namespace Momento.Settings

open Foundation Momento.Keys

/-! ## §1. Decoding a group. -/

/-- The types of the fields that settings are decoded into. -/
inductive FieldType where
  | flag
  | text
  | texts
  | count
  deriving DecidableEq

/-- A whole number. -/
def isWhole : Json → Bool
  | .num x => x.value.den = 1
  | _ => true

/-- A string or null. -/
def isText : Json → Bool
  | .str _ => true
  | .null => true
  | _ => false

/-- `json.Unmarshal` of a stored member into a field; `null` leaves the field alone.  A
number is stored as its shortest decimal, which for `-2 ^ 63` is out of range. -/
def FieldType.takes : FieldType → Json → Bool
  | _, .null => true
  | .flag, .bool _ => true
  | .text, .str _ => true
  | .texts, .arr items => items.all isText
  | .texts, .strs _ => true
  | .count, .num x => x.value.den = 1 && -(2 ^ 63) < x.value && x.value < 2 ^ 63
  | _, _ => false

/-- `foldName`, for names that are compared with ASCII ones. -/
def foldRune (c : Char) : Char :=
  if c = '\u212a' then 'k' else if c = '\u017f' then 's' else c.toLower

/-- A name, folded. -/
def foldName (name : String) : String := String.ofList (name.toList.map foldRune)

/-- The fields of a struct, under their `json` tags. -/
abbrev Fields := List (String × FieldType)

/-- The field a member is decoded into. -/
def fieldOf (fields : Fields) (name : String) : Option FieldType := fields.lookup (foldName name)

/-- The group decodes into the struct. -/
def decodes (fields : Fields) (value : Document) : Bool :=
  value.all fun m => ((fieldOf fields m.1).map fun field => field.takes m.2).getD true

/-- `privacy.Policy`. -/
def privacyFields : Fields :=
  [("ip_anonymization", .flag), ("collect_user_agent", .flag), ("strip_query_string", .flag),
    ("masked_parameters", .texts), ("collect_user_id", .flag), ("visitor_profiles", .flag), ("do_not_track", .flag),
    ("blocked_properties", .texts), ("pii_detection_mode", .text), ("raw_event_retention_months", .count),
    ("debug_retention_days", .count)]

/-- The struct of `reloadSecurity`. -/
def securityFields : Fields :=
  [("trusted_proxy_cidrs", .texts), ("collector_rate_limit_per_minute", .count), ("max_payload_bytes", .count),
    ("additional_connect_origins", .texts)]

/-- `automationConfig`. -/
def automationFields : Fields :=
  [("enabled", .flag), ("allowed_webhook_hosts", .texts), ("delivery_timeout_seconds", .count),
    ("max_entity_ids", .count)]

/-- `oidcSetting`. -/
def oidcFields : Fields :=
  [("enabled", .flag), ("issuer_url", .text), ("client_id", .text), ("client_secret", .text), ("scopes", .texts),
    ("claim_email", .text), ("claim_name", .text), ("claim_department", .text), ("claim_organization", .text)]

/-- What a group is decoded into. -/
def consumerOf (key : String) : Fields :=
  match key with
  | "privacy" => privacyFields
  | "security" => securityFields
  | "automation" => automationFields
  | "oidc" => oidcFields
  | _ => []

variable (lib : Library)

/-- `(value->>'max_events_per_request')::int` evaluates. -/
def castsEvents (value : Document) : Bool :=
  match value.get "max_events_per_request" with
  | none => true
  | some .null => true
  | some (.num x) => x.value.den = 1 && -(2 ^ 31) ≤ x.value && x.value < 2 ^ 31
  | some (.str s) => lib.castsToInt s
  | some _ => false

/-- **Every consumer can read its group.** -/
structure ReadableGroups (groups : Groups) : Prop where
  decoded : ∀ key value, groups.lookup key = some value → decodes (consumerOf key) value = true
  cast : ∀ value, groups.lookup "security" = some value → castsEvents lib value = true

/-- The fields `validateAdminSetting` looks at one by one. -/
def checkedFields (key : String) : List String :=
  if key = "oidc" then [] else (checksOf lib key).map FieldCheck.field

/-- **The body fills the gaps of the checks**: a member that no check names, and a
consumer reads, has the type it is read with; a number that is checked is whole. -/
structure FillsGaps (key : String) (body : Document) : Prop where
  unchecked : ∀ name v field, Properties.get body name = some v → fieldOf (consumerOf key) name = some field →
    name ∉ checkedFields lib key → field.takes v = true
  whole : ∀ name v, Properties.get body name = some v → name ∈ checkedFields lib key → isWhole v = true

/-- The condition on a request that is accepted. -/
def WellTyped (c : Cipher) (groups : Groups) (request : PutSetting × Bool) : Prop :=
  ∀ body, request.1.body = .ok body → (∃ groups', request.1.run lib c request.2 groups = .ok groups') →
    FillsGaps lib request.1.key body

variable {lib}

/-! ## §2. What the checks ensure. -/

/-- A number in its range. -/
theorem number_test {name : String} {min max : Nat} {v : Json} (h : (number name min max).test (some v) = .ok ()) :
    ∃ x : FiniteDouble, v = .num x ∧ (min : ℚ) ≤ x.value ∧ x.value ≤ max := by
  cases v with
  | num x =>
    refine ⟨x, rfl, ?_⟩
    unfold number at h
    dsimp only at h
    split at h
    · cases h
    next hin =>
      rw [not_or, not_lt, not_lt] at hin
      exact hin
  | _ => cases h

theorem number_takes {name : String} {min max : Nat} {v : Json} (h : (number name min max).test (some v) = .ok ())
    (hmax : max < 2 ^ 63) (hwhole : isWhole v = true) : FieldType.count.takes v = true := by
  obtain ⟨x, rfl, hmin, hle⟩ := number_test h
  have hlow : (-(2 ^ 63) : ℚ) < x.value := by
    have h0 : (0 : ℚ) ≤ min := Nat.cast_nonneg min
    linarith
  have hhigh : x.value < 2 ^ 63 := by
    have hcast : (max : ℚ) < 2 ^ 63 := by exact_mod_cast hmax
    linarith
  have hden : x.value.den = 1 := of_decide_eq_true hwhole
  unfold FieldType.takes
  simp only [hden, hlow, hhigh, decide_true, Bool.and_self]

theorem firstComplaint_ok {complaint : Json → Option String} {items : List Json}
    (h : firstComplaint complaint items = .ok ()) : ∀ item ∈ items, complaint item = none := by
  unfold firstComplaint at h
  split at h
  · cases h
  · next hnone => exact fun item hitem => List.findSome?_eq_none_iff.mp hnone item hitem

theorem stringsField_takes {name : String} {complaint : String → Option String} {v : Json}
    (h : (stringsField name complaint).test (some v) = .ok ()) : FieldType.texts.takes v = true := by
  cases v with
  | arr items =>
    have hnone := firstComplaint_ok h
    refine List.all_eq_true.mpr fun item hitem => ?_
    have hitem := hnone item hitem
    cases item with
    | str s => rfl
    | null => rfl
    | _ => cases hitem
  | null => rfl
  | strs texts => rfl
  | _ => cases h

theorem webhookHosts_takes {v : Json} (h : webhookHostsCheck.test (some v) = .ok ()) :
    FieldType.texts.takes v = true := by
  cases v with
  | arr items =>
    have hnone := firstComplaint_ok h
    refine List.all_eq_true.mpr fun item hitem => ?_
    have hitem := hnone item hitem
    cases item with
    | str s => rfl
    | null => rfl
    | _ => cases hitem
  | null => rfl
  | _ => cases h

theorem piiMode_takes {v : Json} (h : piiModeCheck.test (some v) = .ok ()) : FieldType.text.takes v = true := by
  cases v with
  | str s => rfl
  | null => rfl
  | _ => cases h

/-- **A field that is checked** decodes, where a number is whole. -/
theorem checked_takes {key : String} {check : FieldCheck} (hcheck : check ∈ checksOf lib key) {field : FieldType}
    (hfield : fieldOf (consumerOf key) check.field = some field) {v : Json} (hok : check.test (some v) = .ok ())
    (hwhole : isWhole v = true) : field.takes v = true := by
  unfold checksOf at hcheck
  split at hcheck
  · cases hfield
  · cases hfield
  · simp only [List.mem_cons, List.not_mem_nil, or_false] at hcheck
    obtain rfl | rfl | rfl := hcheck
    · obtain rfl : FieldType.count = field := Option.some.inj hfield
      exact number_takes hok (by decide) hwhole
    · obtain rfl : FieldType.count = field := Option.some.inj hfield
      exact number_takes hok (by decide) hwhole
    · obtain rfl : FieldType.text = field := Option.some.inj hfield
      exact piiMode_takes hok
  · simp only [List.mem_cons, List.not_mem_nil, or_false] at hcheck
    obtain rfl | rfl | rfl | rfl | rfl := hcheck
    · obtain rfl : FieldType.count = field := Option.some.inj hfield
      exact number_takes hok (by decide) hwhole
    · cases hfield
    · obtain rfl : FieldType.count = field := Option.some.inj hfield
      exact number_takes hok (by decide) hwhole
    · rw [show (trustedProxyCheck lib).field = "trusted_proxy_cidrs" from rfl] at hfield
      obtain rfl : FieldType.texts = field := Option.some.inj hfield
      exact stringsField_takes hok
    · rw [show (connectOriginsCheck lib).field = "additional_connect_origins" from rfl] at hfield
      obtain rfl : FieldType.texts = field := Option.some.inj hfield
      exact stringsField_takes hok
  · cases hfield
  · simp only [List.mem_cons, List.not_mem_nil, or_false] at hcheck
    obtain rfl | rfl | rfl := hcheck
    · obtain rfl : FieldType.count = field := Option.some.inj hfield
      exact number_takes hok (by decide) hwhole
    · obtain rfl : FieldType.count = field := Option.some.inj hfield
      exact number_takes hok (by decide) hwhole
    · obtain rfl : FieldType.texts = field := Option.some.inj hfield
      exact webhookHosts_takes hok
  · cases hcheck

/-! ## §3. The merged group. -/

/-- A member of a merged group: one the body names, or one that was stored. -/
theorem mem_merge {stored : Option Document} {value : Document} {m : String × Json} (h : m ∈ merge stored value) :
    Properties.get value m.1 = some m.2 ∨ ∃ old, stored = some old ∧ m ∈ old := by
  have hconcat : ∀ (p q : Properties), m ∈ Properties.concat p q → Properties.get q m.1 = some m.2 ∨ m ∈ p := by
    intro p q hm
    induction q with
    | nil => exact Or.inr hm
    | cons first q ih =>
      obtain ⟨key, v⟩ := first
      rcases Properties.mem_set.mp hm with rfl | ⟨hm, hne⟩
      · left
        show List.lookup key ((key, v) :: q) = some v
        rw [List.lookup_cons_self]
      · rcases ih hm with hget | hp
        · left
          show List.lookup m.1 ((key, v) :: q) = some m.2
          rw [List.lookup_cons, beq_false_of_ne hne]
          exact hget
        · exact Or.inr hp
  rcases hconcat _ _ h with hget | hp
  · exact Or.inl hget
  · cases stored with
    | none => cases hp
    | some old => exact Or.inr ⟨old, rfl, hp⟩

theorem mem_of_get {p : Document} {name : String} {v : Json} (h : Properties.get p name = some v) : (name, v) ∈ p := by
  unfold Properties.get at h
  induction p with
  | nil => cases h
  | cons m p ih =>
    obtain ⟨key, value⟩ := m
    rw [List.lookup_cons] at h
    by_cases hkey : name = key
    · rw [hkey, beq_self_eq_true] at h
      rw [hkey, Option.some.inj h]
      exact List.mem_cons_self
    · rw [beq_false_of_ne hkey] at h
      exact List.mem_cons_of_mem _ (ih h)

theorem takes_of_decodes {fields : Fields} {value : Document} (h : decodes fields value = true) {m : String × Json}
    (hm : m ∈ value) {field : FieldType} (hfield : fieldOf fields m.1 = some field) : field.takes m.2 = true := by
  have hmember := List.all_eq_true.mp h m hm
  rw [hfield] at hmember
  exact hmember

/-- The client secret as it is stored: the stored one, none, a text, or the body's. -/
theorem secret_withSecret {c : Cipher} {request : PutSetting} {stored : Option Document} {body value : Document}
    (h : request.withSecret c stored body = .ok value) {v : Json}
    (hv : Properties.get value "client_secret" = some v) :
    Properties.get body "client_secret" = some v ∨ v = .null ∨ (∃ text, v = .str text)
      ∨ ∃ old, stored = some old ∧ Properties.get old "client_secret" = some v := by
  unfold PutSetting.withSecret at h
  split at h
  · split at h
    · rw [← Except.ok.inj h] at hv
      cases stored with
      | none => exact Or.inl hv
      | some old =>
        unfold unmask at hv
        dsimp only at hv
        rw [Properties.get_set_self] at hv
        cases hold : Properties.get old "client_secret" with
        | none =>
          rw [hold] at hv
          exact Or.inr (Or.inl (Option.some.inj hv).symm)
        | some secret =>
          rw [hold] at hv
          obtain rfl : secret = v := Option.some.inj hv
          exact Or.inr (Or.inr (Or.inr ⟨old, rfl, hold⟩))
    · unfold sealClient at h
      split at h
      · split at h
        · split at h
          next text _ =>
            rw [← Except.ok.inj h, Properties.get_set_self] at hv
            exact Or.inr (Or.inr (Or.inl ⟨text, (Option.some.inj hv).symm⟩))
          · cases h
        · rw [← Except.ok.inj h] at hv
          exact Or.inl hv
      · rw [← Except.ok.inj h] at hv
        exact Or.inl hv
  · rw [← Except.ok.inj h] at hv
    exact Or.inl hv

/-- The client secret is a field of `oidc` alone. -/
theorem clientSecret_field {key : String} {field : FieldType}
    (h : fieldOf (consumerOf key) "client_secret" = some field) : key = "oidc" ∧ field = .text := by
  unfold consumerOf at h
  split at h
  · cases h
  · cases h
  · cases h
  · exact ⟨rfl, (Option.some.inj h).symm⟩
  · cases h

/-- A prepared member fits its field. -/
theorem takes_prepared {c : Cipher} {request : PutSetting} {groups : Groups} (hreadable : ReadableGroups lib groups)
    {stored : Option Document} (hstored : ∀ old, stored = some old → groups.lookup "oidc" = some old)
    {body value : Document} (hsecret : request.withSecret c stored body = .ok value)
    (hcheck : validateAdminSetting lib request.key value = .ok ()) (hfills : FillsGaps lib request.key body)
    {name : String} {v : Json} (hv : Properties.get value name = some v) {field : FieldType}
    (hfield : fieldOf (consumerOf request.key) name = some field) : field.takes v = true := by
  by_cases hchecked : name ∈ checkedFields lib request.key
  · -- A field with a check of its own; `oidc` has none.
    unfold checkedFields at hchecked
    by_cases hoidc : request.key = "oidc"
    · rw [if_pos hoidc] at hchecked
      cases hchecked
    · have hnames := hchecked
      rw [if_neg hoidc] at hnames
      obtain ⟨check, hmem, rfl⟩ := List.mem_map.mp hnames
      unfold validateAdminSetting at hcheck
      rw [if_neg hoidc] at hcheck
      have hok := runChecks_ok_iff.mp hcheck check hmem
      unfold FieldCheck.run at hok
      rw [hv] at hok
      have hbody : Properties.get body check.field = some v := by
        unfold PutSetting.withSecret at hsecret
        rw [if_neg hoidc] at hsecret
        rw [Except.ok.inj hsecret]
        exact hv
      exact checked_takes hmem hfield hok (hfills.whole _ v hbody hchecked)
  · by_cases hname : name = "client_secret"
    · subst hname
      rcases secret_withSecret hsecret hv with hbody | rfl | ⟨text, rfl⟩ | ⟨old, hold, hget⟩
      · exact hfills.unchecked _ v field hbody hfield hchecked
      · cases field with
        | _ => rfl
      · obtain ⟨-, rfl⟩ := clientSecret_field hfield
        rfl
      · obtain ⟨hkey, rfl⟩ := clientSecret_field hfield
        have hdecoded := hreadable.decoded "oidc" old (hstored old hold)
        rw [hkey] at hfield
        exact takes_of_decodes hdecoded (mem_of_get hget) hfield
    · rw [get_withSecret hsecret hname] at hv
      exact hfills.unchecked _ v field hv hfield hchecked

/-- The limit of a request, as it is stored by a write that is accepted. -/
theorem casts_merge {stored : Option Document} {value : Document}
    (hstored : ∀ old, stored = some old → castsEvents lib old = true)
    (hcheck : (number "max_events_per_request" 1 1000).run value = .ok ())
    (hwhole : ∀ v, Properties.get value "max_events_per_request" = some v → isWhole v = true) :
    castsEvents lib (merge stored value) = true := by
  unfold castsEvents
  rw [get_merge]
  cases hv : Properties.get value "max_events_per_request" with
  | some v =>
    unfold FieldCheck.run at hcheck
    rw [show (number "max_events_per_request" 1 1000).field = "max_events_per_request" from rfl, hv] at hcheck
    obtain ⟨x, rfl, hmin, hmax⟩ := number_test hcheck
    have hden : x.value.den = 1 := of_decide_eq_true (hwhole _ hv)
    have hlow : (-(2 ^ 31) : ℚ) ≤ x.value := by
      norm_num at hmin ⊢
      linarith
    have hhigh : x.value < 2 ^ 31 := by
      norm_num at hmax ⊢
      linarith
    show (decide (x.value.den = 1) && decide (-(2 ^ 31) ≤ x.value) && decide (x.value < 2 ^ 31)) = true
    simp only [hden, hlow, hhigh, decide_true, Bool.and_self]
  | none =>
    cases stored with
    | none => rfl
    | some old =>
      have hold := hstored old rfl
      unfold castsEvents at hold
      exact hold

/-- **An accepted write** that fills the gaps of the checks. -/
theorem readable_run {c : Cipher} {groups groups' : Groups} (hreadable : ReadableGroups lib groups)
    {request : PutSetting} {readable : Bool} {body : Document} (hbody : request.body = .ok body)
    (hfills : FillsGaps lib request.key body) (h : request.run lib c readable groups = .ok groups') :
    ReadableGroups lib groups' := by
  obtain ⟨value, hprepare, -, rfl⟩ := run_ok h
  obtain ⟨-, body', hbody', hsecret, hcheck⟩ := prepare_ok hprepare
  obtain rfl : body = body' := Except.ok.inj (hbody.symm.trans hbody')
  have hstored : ∀ old, (if readable then groups.lookup "oidc" else none) = some old →
      groups.lookup "oidc" = some old := by
    intro old hold
    cases readable with
    | true => exact hold
    | false => cases hold
  refine ⟨?_, ?_⟩
  · intro key doc hrow
    by_cases hkey : key = request.key
    · subst hkey
      rw [AList.lookup_insert] at hrow
      obtain rfl := Option.some.inj hrow
      refine List.all_eq_true.mpr fun m hm => ?_
      cases hfield : fieldOf (consumerOf request.key) m.1 with
      | none => rfl
      | some field =>
        show field.takes m.2 = true
        rcases mem_merge hm with hget | ⟨old, hold, hmem⟩
        · exact takes_prepared hreadable hstored hsecret hcheck hfills hget hfield
        · exact takes_of_decodes (hreadable.decoded request.key old hold) hmem hfield
    · rw [AList.lookup_insert_ne hkey] at hrow
      exact hreadable.decoded key doc hrow
  · intro doc hrow
    by_cases hkey : "security" = request.key
    · rw [← hkey, AList.lookup_insert] at hrow
      obtain rfl := Option.some.inj hrow
      have hfield : "max_events_per_request" ∈ checkedFields lib request.key := by
        rw [← hkey]
        exact List.mem_cons_of_mem _ List.mem_cons_self
      rw [← hkey] at hcheck
      have hall : runChecks (checksOf lib "security") value = .ok () := hcheck
      refine casts_merge (fun old hold => hreadable.cast old hold)
        (runChecks_ok_iff.mp hall _ (List.mem_cons_of_mem _ List.mem_cons_self)) fun v hv => ?_
      rw [get_withSecret hsecret (by decide)] at hv
      exact hfills.whole _ v hv hfield
    · rw [AList.lookup_insert_ne hkey] at hrow
      exact hreadable.cast doc hrow

/-- Every member has the type it is read with. -/
theorem fillsGaps_of_forall {lib : Library} {key : String} {body : Document}
    (h : ∀ e ∈ body, (fieldOf (consumerOf key) e.1).all (·.takes e.2) = true ∧ isWhole e.2 = true) :
    FillsGaps lib key body where
  unchecked name v field hv hfield _ := by
    have hall := (h (name, v) (mem_of_get hv)).1
    rw [hfield] at hall
    exact hall
  whole name v hv _ := (h (name, v) (mem_of_get hv)).2

/-! ## §4. Every sequence of writes. -/

/-- **THE GROUPS STAY READABLE** under every sequence of writes whose accepted bodies
fill the gaps of the checks. -/
theorem settings_stay_readable (lib : Library) (c : Cipher) (groups : Groups) (hreadable : ReadableGroups lib groups)
    (requests : List (PutSetting × Bool))
    (htyped : Along (afterPut lib c) (WellTyped lib c) groups requests) :
    ReadableGroups lib (requests.foldl (afterPut lib c) groups) := by
  refine along_induction ?_ requests hreadable htyped
  intro groups request hgroups hrequest
  unfold afterPut
  cases hrun : request.1.run lib c request.2 groups with
  | error refusal => exact hgroups
  | ok groups' =>
    obtain ⟨value, hprepare, -, -⟩ := run_ok hrun
    obtain ⟨-, body, hbody, -, -⟩ := prepare_ok hprepare
    exact readable_run hgroups hbody (hrequest body hbody ⟨groups', hrun⟩) hrun

namespace Sample

/-- No URL and no network is looked at. -/
theorem noUrl_empty (x : ParsedUrl) (h : none = some x) : x.host = "" := by
  cases h

def plainLibrary : Library where
  parseUrl _ := none
  parseUrl_empty := noUrl_empty
  parseCidr _ := false
  quote := id
  castsToInt _ := false

theorem seeded_readable : ReadableGroups plainLibrary seeded := by
  have hall : ∀ e ∈ seeded.entries, decodes (consumerOf e.1) e.2 = true := by decide +kernel
  refine ⟨fun key value hrow => hall ⟨key, value⟩ (AList.mem_lookup_iff.mp hrow), ?_⟩
  intro value hrow
  cases hrow
  decide +kernel

def rejectPii : PutSetting × Bool :=
  (⟨"privacy", .ok [("masked_parameters", .arr [.str "token"]), ("pii_detection_mode", .str "reject")],
    .error "not needed"⟩, true)

/-- A later write, of another field of the group. -/
def anonymizeIp : PutSetting × Bool :=
  (⟨"privacy", .ok [("ip_anonymization", .bool true)], .error "not needed"⟩, true)

def flagAsText : PutSetting × Bool :=
  (⟨"privacy", .ok [("ip_anonymization", .str "yes")], .error "not needed"⟩, true)

end Sample

/-- Two privacy writes whose fields have the types they are read with. -/
theorem settings_stay_readable_privacy :
    ReadableGroups Sample.plainLibrary
      ([Sample.rejectPii, Sample.anonymizeIp].foldl (afterPut Sample.plainLibrary ⟨[]⟩) seeded) := by
  refine settings_stay_readable Sample.plainLibrary ⟨[]⟩ seeded Sample.seeded_readable _ ⟨?_, ?_, trivial⟩
  · intro body hbody _
    cases hbody
    exact fillsGaps_of_forall (by decide +kernel)
  · intro body hbody _
    cases hbody
    exact fillsGaps_of_forall (by decide +kernel)

/-- **A flag written as a text**: the write is accepted, and the privacy policy cannot be
read any more. -/
theorem settings_left_unreadable :
    ¬∀ (lib : Library) (c : Cipher) (groups : Groups), ReadableGroups lib groups →
      ∀ requests : List (PutSetting × Bool), ReadableGroups lib (requests.foldl (afterPut lib c) groups) := by
  intro h
  have hreadable := h Sample.plainLibrary ⟨[]⟩ seeded Sample.seeded_readable [Sample.flagAsText]
  obtain ⟨value, hrow⟩ : ∃ value, ([Sample.flagAsText].foldl
      (afterPut Sample.plainLibrary ⟨[]⟩) seeded).lookup "privacy" = some value := ⟨_, rfl⟩
  have hdecodes := hreadable.decoded "privacy" value hrow
  have hfails : decodes privacyFields value = false := by
    cases hrow
    decide +kernel
  rw [show consumerOf "privacy" = privacyFields from rfl, hfails] at hdecodes
  cases hdecodes

end Momento.Settings
