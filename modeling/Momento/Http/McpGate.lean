/-
  Momento.Http.McpGate

  **THE GATE BEFORE /mcp.**  The keys and sessions of the API pass as they do there;
  where SSO tokens are switched on, a bearer of the shape of a JWT is checked as one
  instead.  Such a token is given an account that exists: one of its identity, or of its
  address.

      oidc_subject IS NULL       — first: `DESC` puts the unknown comparison on top
      oidc_subject = $1          — second
      oidc_subject <> $1         — last
-/
import Momento.Foundation.SortedRows
import Momento.Http.Credentials

namespace Momento.Credentials

open Foundation

/-! ## §1. Settings. -/

/-- `strings.Fields`. -/
def textFields (s : String) : List String :=
  ((s.toList.splitOnP isSpace).filter fun cs => cs ≠ []).map String.ofList

/-- `strings.TrimRight(s, "/")`. -/
def trimSlashes (s : String) : String := String.ofList ((s.toList.reverse.dropWhile fun c => c = '/').reverse)

/-- `strings.TrimSuffix(s, "/")`. -/
def trimSlash (s : String) : String := if s.toList.getLast? = some '/' then String.ofList s.toList.dropLast else s

/-- The fields of the groups `mcp.oauth`, `oidc` and `general` that the gate reads. -/
structure McpOAuthSetting where
  enabled : Bool := false
  resource : String := ""
  audience : String := ""
  scopes : String := "analytics:read"
  issuerUrl : String := ""
  claimEmail : String := ""
  publicUrl : String := ""

/-- The group `mcp_oauth`. -/
structure McpOAuthConfig where
  enabled : Bool := false
  issuer : String := ""
  emailClaim : String := ""
  resource : String := ""
  audiences : List String := []
  scopes : List String := []

/-- `mcpOAuthConfig`; a setting that cannot be read leaves everything off. -/
def mcpOAuthConfig : Option McpOAuthSetting → McpOAuthConfig
  | none => {}
  | some s =>
    let emailClaim := trimSpace s.claimEmail
    let scopes := textFields s.scopes
    let publicUrl := trimSlash (trimSpace s.publicUrl)
    { enabled := s.enabled
      issuer := trimSlashes (trimSpace s.issuerUrl)
      emailClaim := if emailClaim = "" then "email" else emailClaim
      resource :=
        if trimSpace s.resource = "" then (if publicUrl = "" then "" else publicUrl ++ "/mcp")
        else trimSpace s.resource
      audiences := textFields s.audience
      scopes := if scopes = [] then ["analytics:read"] else scopes }

/-- `active`. -/
def McpOAuthConfig.active (cfg : McpOAuthConfig) : Bool := cfg.enabled && cfg.issuer ≠ "" && cfg.resource ≠ ""

/-! ## §2. Tokens. -/

/-- `LooksLikeJWT`. -/
def looksLikeJwt (token : String) : Bool :=
  match token.toList.splitOn '.' with
  | [header, payload, signature] => header ≠ [] && payload ≠ [] && signature ≠ []
  | _ => false

/-- The claims `typ`, `azp` and `cnf`. -/
structure TokenClaims where
  typ : String
  azp : String
  cnf : Option Json

/-- A token whose signature, issuer and times the library found good. -/
structure VerifiedToken where
  subject : String
  audience : List String
  /-- None where the claims do not decode. -/
  known : Option TokenClaims
  claims : Option Properties

/-- What the issuer's keys say of a token. -/
inductive Verification where
  | unreadable
  | invalid
  | verified (t : VerifiedToken)

/-- `strings.EqualFold(strings.TrimSpace(typ), "ID")`. -/
def TokenClaims.isIdToken (c : TokenClaims) : Bool := (trimSpace c.typ).toList.map Char.toLower = ['i', 'd']

/-- A `cnf` other than `null`. -/
def TokenClaims.isBound (c : TokenClaims) : Bool :=
  match c.cnf with
  | none => false
  | some .null => false
  | some _ => true

/-- `audienceListed`. -/
def audienceListed (accepted audience : List String) (azp : String) : Bool :=
  if accepted = [] then false
  else if azp ≠ "" && accepted.contains azp then true
  else audience.any fun value => value ≠ "" && accepted.contains value

/-- The token is for this server. -/
def VerifiedToken.isFor (t : VerifiedToken) (c : TokenClaims) (cfg : McpOAuthConfig) : Bool :=
  t.audience.contains cfg.resource || audienceListed cfg.audiences t.audience (trimSpace c.azp)

/-- Who the token is of. -/
def VerifiedToken.identity (t : VerifiedToken) : String := trimSpace t.subject

/-- The address that the token names. -/
def VerifiedToken.email (t : VerifiedToken) (cfg : McpOAuthConfig) : String :=
  match t.claims with
  | none => ""
  | some claims => trimSpace (claimString claims cfg.emailClaim "email")

/-! ## §3. The account of a token. -/

/-- The rows of the query: `oidc_subject=$1 OR ($2<>'' AND email=lower($2))`, active. -/
def matchesToken (lower : String → String) (subject email : String) (a : SsoAccount) : Bool :=
  (a.oidcSubject = some subject || (email ≠ "" && a.email = lower email)) && a.active

/-- `oidc_subject=$1 DESC`. -/
def tokenRank (subject : String) (a : SsoAccount) : Nat :=
  match a.oidcSubject with
  | none => 0
  | some subject' => if subject' = subject then 1 else 2

/-- `ORDER BY` it. -/
def Precedes (subject : String) (e e' : Uuid × SsoAccount) : Prop := tokenRank subject e.2 ≤ tokenRank subject e'.2

instance (subject : String) : DecidableRel (Precedes subject) := fun _ _ => Nat.decLe _ _

/-- The account that the query answers. -/
def World.pickAccount (lower : String → String) (w : World) (subject email : String) : Option (Uuid × SsoAccount) :=
  firstBy (Precedes subject) (w.accounts.pairs.filter fun e => matchesToken lower subject email e.2)

section
variable (lower hash quote : String → String) (w : World) (cfg : McpOAuthConfig)

/-- `oauthPrincipal`; `fails` says that the query fails. -/
def oauthPrincipal (verification : Verification) (fails : Bool) : Except String Caller :=
  match verification with
  | .unreadable =>
    .error "the SSO issuer could not be read, so the access token cannot be checked; retry shortly or tell an administrator"
  | .invalid =>
    .error "the SSO access token is not valid (signature, issuer, expiry or not-before); sign in again from the client"
  | .verified t =>
    match t.known with
    | none => .error "the SSO access token's claims cannot be read"
    | some c =>
      if c.isIdToken then .error "an ID token is not an MCP credential; send the access token"
      else if c.isBound then .error "a sender-constrained token (cnf) cannot be verified by this server"
      else if t.identity = "" then .error "the SSO access token has no subject"
      else if !t.isFor c cfg then
        let azp := trimSpace c.azp
        let suggested := if azp = "" then "<the MCP client id>" else azp
        .error ("the SSO access token was not issued for this server (aud [" ++ " ".intercalate t.audience ++ "], azp "
          ++ quote azp ++ "); add " ++ quote suggested ++ " to the accepted audiences (mcp.oauth.audience) or give the "
          ++ "Keycloak client an Audience mapper for " ++ quote cfg.resource)
      else if fails then .error "the account lookup failed"
      else
        match w.pickAccount lower t.identity (t.email cfg) with
        | none =>
          .error "this SSO account is not registered in Momento or is inactive; sign in to the web console once first"
        | some (user, a) => .ok (a.caller user cfg.scopes "oauth")

/-- The bearer is checked as an SSO token. -/
def ssoBearer (authorization : String) : Bool :=
  cfg.active && !isKey (bearerToken authorization) && looksLikeJwt (bearerToken authorization)

/-- `requireMCPAuth`: who is let through, or the message of the 401. -/
def requireMcpAuth (verification : String → Verification) (fails : Bool) (authorization : String)
    (cookie : Option String) : Except String Caller :=
  if ssoBearer cfg authorization then
    oauthPrincipal lower quote w cfg (verification (bearerToken authorization)) fails
  else w.authenticate hash (requestToken authorization cookie)

end

/-! ## §4. Which account. -/

/-- **The account a token is given.**  One of its address that has no identity comes
before the one of its identity. -/
def GivenTo (lower : String → String) (w : World) (subject email : String) (user : Uuid) (a : SsoAccount) : Prop :=
  w.accounts.lookup user = some a ∧ matchesToken lower subject email a = true
    ∧ match a.oidcSubject with
      | none => True
      | some subject' =>
        (¬∃ other b, w.accounts.lookup other = some b ∧ matchesToken lower subject email b = true
          ∧ b.oidcSubject = none)
          ∧ (subject' ≠ subject → ¬∃ other b, w.accounts.lookup other = some b
            ∧ matchesToken lower subject email b = true ∧ b.oidcSubject = some subject)

section
variable {lower : String → String} {w : World} {subject email : String} {user other : Uuid} {a b : SsoAccount}

theorem tokenRank_none (h : a.oidcSubject = none) : tokenRank subject a = 0 := by
  unfold tokenRank
  rw [h]

theorem tokenRank_own (h : a.oidcSubject = some subject) : tokenRank subject a = 1 := by
  unfold tokenRank
  rw [h]
  exact if_pos rfl

theorem tokenRank_other {subject' : String} (h : a.oidcSubject = some subject') (hne : subject' ≠ subject) :
    tokenRank subject a = 2 := by
  unfold tokenRank
  rw [h]
  exact if_neg hne

/-- A row of the address. -/
theorem email_of_matches (h : matchesToken lower subject email a = true) (hne : a.oidcSubject ≠ some subject) :
    a.email = lower email := by
  unfold matchesToken at h
  obtain ⟨hmatch, -⟩ := Bool.and_eq_true_iff.mp h
  cases Bool.or_eq_true_iff.mp hmatch with
  | inl hsubject => exact absurd (of_decide_eq_true hsubject) hne
  | inr hemail => exact of_decide_eq_true (Bool.and_eq_true_iff.mp hemail).2

/-- Rows of one rank are one row. -/
theorem eq_of_tokenRank (hdirectory : Directory w.accounts) (ha : w.accounts.lookup user = some a)
    (hb : w.accounts.lookup other = some b) (hma : matchesToken lower subject email a = true)
    (hmb : matchesToken lower subject email b = true) (hrank : tokenRank subject a = tokenRank subject b) :
    user = other := by
  by_cases hown : a.oidcSubject = some subject
  · have hown' : b.oidcSubject = some subject := by
      rw [tokenRank_own hown] at hrank
      cases hs : b.oidcSubject with
      | none =>
        rw [tokenRank_none hs] at hrank
        cases hrank
      | some subject' =>
        by_cases hne : subject' = subject
        · rw [hne]
        · rw [tokenRank_other hs hne] at hrank
          cases hrank
    exact hdirectory.subjects user other a b subject ha hb hown hown'
  · have hown' : b.oidcSubject ≠ some subject := by
      intro hs
      rw [tokenRank_own hs] at hrank
      cases hs' : a.oidcSubject with
      | none =>
        rw [tokenRank_none hs'] at hrank
        cases hrank
      | some subject' =>
        have hne : subject' ≠ subject := by
          rintro rfl
          exact hown hs'
        rw [tokenRank_other hs' hne] at hrank
        cases hrank
    exact hdirectory.emails user other a b ha hb ((email_of_matches hma hown).trans (email_of_matches hmb hown').symm)

/-- The account that a token is given is before every other one that matches. -/
theorem GivenTo.le (h : GivenTo lower w subject email user a) (hb : w.accounts.lookup other = some b)
    (hmatch : matchesToken lower subject email b = true) : tokenRank subject a ≤ tokenRank subject b := by
  obtain ⟨-, -, hfirst⟩ := h
  cases hs : a.oidcSubject with
  | none =>
    rw [tokenRank_none hs]
    exact Nat.zero_le _
  | some subject' =>
    rw [hs] at hfirst
    obtain ⟨hnone, hown⟩ := hfirst
    cases hs' : b.oidcSubject with
    | none => exact absurd ⟨other, b, hb, hmatch, hs'⟩ hnone
    | some subject'' =>
      by_cases hne : subject' = subject
      · have hb' : tokenRank subject b ≠ 0 := by
          unfold tokenRank
          rw [hs']
          dsimp only
          split <;> decide
        rw [tokenRank_own (hs.trans (congrArg some hne))]
        exact Nat.one_le_iff_ne_zero.mpr hb'
      · by_cases hne' : subject'' = subject
        · exact absurd ⟨other, b, hb, hmatch, hs'.trans (congrArg some hne')⟩ (hown hne)
        · rw [tokenRank_other hs hne, tokenRank_other hs' hne']

/-- **Which account `ORDER BY oidc_subject=$1 DESC LIMIT 1` picks.** -/
theorem pickAccount_iff (hdirectory : Directory w.accounts) :
    w.pickAccount lower subject email = some (user, a) ↔ GivenTo lower w subject email user a := by
  have hrow : ∀ other b, (other, b) ∈ w.accounts.pairs.filter (fun e => matchesToken lower subject email e.2)
      ↔ w.accounts.lookup other = some b ∧ matchesToken lower subject email b = true := by
    intro other b
    rw [List.mem_filter, Table.mem_pairs]
  have hleast : ∀ other b, w.pickAccount lower subject email = some (other, b) →
      (w.accounts.lookup other = some b ∧ matchesToken lower subject email b = true)
        ∧ ∀ other' b', w.accounts.lookup other' = some b' → matchesToken lower subject email b' = true →
          tokenRank subject b ≤ tokenRank subject b' := by
    intro other b hpick
    refine ⟨(hrow other b).mp (firstBy_mem _ hpick), fun other' b' hb' hmatch => ?_⟩
    have htotal : ∀ e e', Precedes subject e e' ∨ Precedes subject e' e := fun _ _ => Nat.le_total _ _
    have htrans : ∀ e e' e'', Precedes subject e e' → Precedes subject e' e'' → Precedes subject e e'' :=
      fun _ _ _ => Nat.le_trans
    exact firstBy_le htotal htrans hpick (other', b') ((hrow other' b').mpr ⟨hb', hmatch⟩)
  constructor
  · intro hpick
    obtain ⟨⟨ha, hmatch⟩, hle⟩ := hleast user a hpick
    refine ⟨ha, hmatch, ?_⟩
    cases hs : a.oidcSubject with
    | none => trivial
    | some subject' =>
      refine ⟨?_, fun hne => ?_⟩
      · rintro ⟨other, b, hb, hmatch', hnone⟩
        have hrank := hle other b hb hmatch'
        rw [tokenRank_none hnone] at hrank
        by_cases hne : subject' = subject
        · rw [tokenRank_own (hs.trans (congrArg some hne))] at hrank
          omega
        · rw [tokenRank_other hs hne] at hrank
          omega
      · rintro ⟨other, b, hb, hmatch', hown⟩
        have hrank := hle other b hb hmatch'
        rw [tokenRank_own hown, tokenRank_other hs hne] at hrank
        omega
  · intro hgiven
    cases hpick : w.pickAccount lower subject email with
    | none =>
      have hmem := (hrow user a).mpr ⟨hgiven.1, hgiven.2.1⟩
      unfold World.pickAccount at hpick
      rw [(firstBy_eq_none _).mp hpick] at hmem
      cases hmem
    | some e =>
      obtain ⟨other, b⟩ := e
      obtain ⟨⟨hb, hmatch⟩, hle⟩ := hleast other b hpick
      have hrank := le_antisymm (hle user a hgiven.1 hgiven.2.1) (hgiven.le hb hmatch)
      obtain rfl := eq_of_tokenRank hdirectory hb hgiven.1 hmatch hgiven.2.1 hrank
      rw [hgiven.1] at hb
      rw [Option.some.inj hb]

end

/-! ## §5. The gate. -/

/-- The token may stand for an account. -/
structure Acceptable (cfg : McpOAuthConfig) (t : VerifiedToken) : Prop where
  known : ∃ c, t.known = some c ∧ c.isIdToken = false ∧ c.isBound = false ∧ t.isFor c cfg = true
  identity : t.identity ≠ ""

section
variable {lower hash quote : String → String} {w : World} {cfg : McpOAuthConfig} {p : Caller}

theorem oauthPrincipal_iff (hdirectory : Directory w.accounts) {verification : Verification} {fails : Bool} :
    oauthPrincipal lower quote w cfg verification fails = .ok p ↔ ∃ t user a, verification = .verified t
      ∧ Acceptable cfg t ∧ fails = false ∧ GivenTo lower w t.identity (t.email cfg) user a
      ∧ p = a.caller user cfg.scopes "oauth" := by
  constructor
  · intro h
    unfold oauthPrincipal at h
    split at h
    · cases h
    · cases h
    next t =>
      split at h
      · cases h
      next c hknown =>
        split at h
        · cases h
        next hid =>
          split at h
          · cases h
          next hbound =>
            split at h
            · cases h
            next hidentity =>
              split at h
              · cases h
              next hfor =>
                split at h
                · cases h
                next hfails =>
                  split at h
                  · cases h
                  next user a hpick =>
                    refine ⟨t, user, a, rfl, ⟨⟨c, hknown, ?_, ?_, ?_⟩, hidentity⟩, ?_,
                      (pickAccount_iff hdirectory).mp hpick, (Except.ok.inj h).symm⟩
                    · exact Bool.eq_false_of_not_eq_true hid
                    · exact Bool.eq_false_of_not_eq_true hbound
                    · simpa using hfor
                    · exact Bool.eq_false_of_not_eq_true hfails
  · rintro ⟨t, user, a, rfl, ⟨⟨c, hknown, hid, hbound, hfor⟩, hidentity⟩, rfl, hgiven, rfl⟩
    have hpick := (pickAccount_iff hdirectory).mpr hgiven
    unfold oauthPrincipal
    simp only [hknown, hid, hbound, hidentity, hfor, hpick, Bool.not_true, Bool.false_eq_true, if_false]

/-- An account of the caller's that is active, as it is now. -/
def Current (w : World) (p : Caller) : Prop :=
  ∃ a, w.accounts.lookup p.id = some a ∧ a.active = true ∧ a.role = p.role ∧ a.email = p.email

theorem current_of_authenticate {token : String} (h : w.authenticate hash token = .ok p) : Current w p := by
  by_cases hkey : isKey token = true
  · obtain ⟨k, a, -, -, ha, hactive, rfl⟩ := (authenticate_key hkey).mp h
    exact ⟨a, ha, hactive, rfl, rfl⟩
  · have htoken : token ≠ "" := by
      rintro rfl
      cases h
    obtain ⟨s, a, -, -, ha, hactive, rfl⟩ := (authenticate_session htoken (Bool.eq_false_of_not_eq_true hkey)).mp h
    exact ⟨a, ha, hactive, rfl, rfl⟩

/-- **Whom the gate admits.** -/
structure GateSound (lower hash quote : String → String) (w : World) (cfg : McpOAuthConfig) : Prop where
  /-- A token of SSO stands for the account it is given. -/
  sso : ∀ verification fails authorization cookie p, ssoBearer cfg authorization = true →
    (requireMcpAuth lower hash quote w cfg verification fails authorization cookie = .ok p ↔
      ∃ t user a, verification (bearerToken authorization) = .verified t ∧ Acceptable cfg t ∧ fails = false
        ∧ GivenTo lower w t.identity (t.email cfg) user a ∧ p = a.caller user cfg.scopes "oauth")
  /-- It is given one account at most. -/
  unique : ∀ subject email user user' a a', GivenTo lower w subject email user a →
    GivenTo lower w subject email user' a' → user = user'
  /-- Everything else is let through where the API lets it through. -/
  other : ∀ verification fails authorization cookie, ssoBearer cfg authorization = false →
    requireMcpAuth lower hash quote w cfg verification fails authorization cookie
      = w.authenticate hash (requestToken authorization cookie)
  /-- Who is admitted has an account that is active, and its role of now. -/
  current : ∀ verification fails authorization cookie p,
    requireMcpAuth lower hash quote w cfg verification fails authorization cookie = .ok p → Current w p
  /-- A token of SSO, as a key, opens nothing of the console. -/
  console : ∀ verification fails authorization cookie p,
    requireMcpAuth lower hash quote w cfg verification fails authorization cookie = .ok p → p.authType ≠ "session" →
      sessionOnly p = false ∧ admin p.principal = false ∧ orgAdmin p.principal = false

theorem gateSound_of_directory (hdirectory : Directory w.accounts) : GateSound lower hash quote w cfg where
  sso verification fails authorization cookie p hsso := by
    unfold requireMcpAuth
    rw [if_pos hsso]
    exact oauthPrincipal_iff hdirectory
  unique subject email user user' a a' h h' :=
    eq_of_tokenRank hdirectory h.1 h'.1 h.2.1 h'.2.1 (le_antisymm (h.le h'.1 h'.2.1) (h'.le h.1 h.2.1))
  other verification fails authorization cookie hsso := by
    unfold requireMcpAuth
    rw [hsso]
    rfl
  current verification fails authorization cookie p h := by
    unfold requireMcpAuth at h
    split at h
    · obtain ⟨t, user, a, -, -, -, hgiven, rfl⟩ := (oauthPrincipal_iff hdirectory).mp h
      exact ⟨a, hgiven.1, (Bool.and_eq_true_iff.mp hgiven.2.1).2, rfl, rfl⟩
    · exact current_of_authenticate h
  console verification fails authorization cookie p _ hprogram := by
    have hprogrammatic : p.principal.programmatic = true := decide_eq_true hprogram
    refine ⟨?_, ?_, ?_⟩
    · show (!p.programmatic) = false
      rw [show p.programmatic = true from hprogrammatic]
      rfl
    · unfold admin
      rw [hprogrammatic]
      rfl
    · unfold orgAdmin
      rw [hprogrammatic]
      rfl

end

/-- **The gate before /mcp, after any run.** -/
theorem mcpGate_sound (lower hash quote : String → String) (compare : String → String → Bool) (now : Instant)
    (actions : List Action) (setting : Option McpOAuthSetting) :
    GateSound lower hash quote (actions.foldl (World.step lower hash compare) (World.initial now))
      (mcpOAuthConfig setting) := by
  have hsound := run_inv lower hash compare now actions
  exact gateSound_of_directory hsound.directory

end Momento.Credentials
