/-
  Momento.Http.Credentials

  **WHO IS SIGNED IN.**  A person signs in with a password or through the identity
  provider, and is given a session; from a session personal keys are issued, renewed and
  revoked, and passwords changed.  A handler is several statements: what it read may
  have changed when it writes.  The statements of all requests come in any order, and a
  request may be abandoned, or lose the answer of a statement that took effect, at any
  of them.

      login, openSession         — `Login`, `CreateSession`
      oidcLogin, callback, signIn, openSession
                                 — `oidcLogin`, `oidcCallback`
      authenticate               — `requireAuth`
      createKey, deleteKey, rotateKey
                                 — `createMyKey`, `deleteMyKey`, `rotateMyKey`
      updateMe, writeMe          — `updateMe`
      createUser                 — `createUser`
      updateUser, writeUser, endSessions
                                 — `updateUser`
      logout, dropSessions, dropStates, bootstrap
-/
import Momento.Foundation.Since
import Momento.Model.Platform
import Momento.Service.UserAdministration

namespace Momento.Credentials

open Foundation

/-! ## §1. Tables. -/

/-- A row of `users`. -/
structure SsoAccount extends Users.Account where
  oidcSubject : Option String

/-- A row of `user_sessions`, but for its `token_hash`. -/
structure Session where
  userId : Uuid
  expiresAt : Instant

/-- A row of `api_keys`, but for its `key_hash`. -/
structure ApiKey where
  id : Uuid
  userId : Uuid
  name : String
  scopes : List String
  expiresAt : Option Instant
  /-- `revoked_at IS NOT NULL`. -/
  revoked : Bool

/-- A row of `oidc_states`, but for its `state_hash`. -/
structure OidcState where
  verifier : String
  expiresAt : Instant

/-- `Principal` of the package `auth`. -/
structure Caller where
  id : Uuid
  email : String
  displayName : String
  department : String
  organizationName : String
  role : String
  scopes : List String
  authType : String

/-- `Programmatic`. -/
def Caller.programmatic (p : Caller) : Bool := p.authType ≠ "session"

/-- What the gates and the administration of users read of it. -/
def Caller.principal (p : Caller) : Principal := ⟨p.id, p.role, p.programmatic⟩

/-- `sessionOnly`. -/
def sessionOnly (p : Caller) : Bool := !p.programmatic

/-- The account, as a request is made for it. -/
def SsoAccount.caller (a : SsoAccount) (id : Uuid) (scopes : List String) (authType : String) : Caller :=
  ⟨id, a.email, a.displayName, a.department, a.organizationName, a.role, scopes, authType⟩

/-- `expires_at IS NULL OR expires_at>now()`. -/
def ApiKey.unexpired (k : ApiKey) (now : Instant) : Bool := k.expiresAt.elim true fun t => decide (now < t)

/-- In microseconds. -/
def seconds (n : Int) : Int := n * 1000000

/-! ## §2. Tokens. -/

/-- `BearerToken` of the header `Authorization`. -/
def bearerToken (authorization : String) : String :=
  if (authorization.toList.take 7).map Char.toLower = "bearer ".toList then
    trimSpace (String.ofList (authorization.toList.drop 7))
  else ""

/-- What `Authenticate` looks at: the header, else the cookie. -/
def requestToken (authorization : String) (cookie : Option String) : String :=
  if bearerToken authorization ≠ "" then bearerToken authorization else cookie.getD ""

/-- `strings.HasPrefix(token, KeyPrefix)`. -/
def isKey (token : String) : Bool := "mom_key_".toList.isPrefixOf token.toList

/-! ## §3. The history. -/

/-- How a password came to be. -/
inductive How where
  | bootstrap
  /-- With its account. -/
  | created
  /-- By its owner. -/
  | changed
  /-- By an administrator. -/
  | reset

/-- What a statement did.  No table holds it. -/
inductive Event where
  /-- A password matched the hash that was read. -/
  | checked (user : Uuid) (hash password : String)
  | authorized (p : Caller)
  | made (stateHash : String) (s : OidcState)
  | used (stateHash : String) (s : OidcState)
  /-- The account of an identity; whether it is new. -/
  | linked (user : Uuid) (subject : String) (new : Bool)
  | opened (tokenHash : String) (s : Session)
  | ended (tokenHash : String)
  | swept (user : Uuid)
  /-- An administrator may replace the password. -/
  | resetting (p : Caller) (user : Uuid)
  | set (user : Uuid) (hash : String) (how : How)
  | issued (keyHash : String) (k : ApiKey)
  | rotated (id : Uuid) (keyHash : String) (k : ApiKey)
  | revoked (id user : Uuid)

/-- Who did it, and when. -/
structure Entry where
  x : Nat
  time : Instant
  event : Event

/-- What the log says of sessions. -/
def sessionEffect : Effect Entry String Session where
  issues e :=
    match e.event with
    | .opened tokenHash s => some (tokenHash, s)
    | _ => none
  withdraws e tokenHash s :=
    match e.event with
    | .ended tokenHash' => tokenHash = tokenHash'
    | .swept user => s.userId = user
    | _ => False

/-- What the log says of personal keys. -/
def keyEffect : Effect Entry String ApiKey where
  issues e :=
    match e.event with
    | .issued keyHash k => some (keyHash, k)
    | .rotated _ keyHash k => some (keyHash, k)
    | _ => none
  withdraws e _ k :=
    match e.event with
    | .revoked id user => k.id = id ∧ k.userId = user
    | .rotated id _ k' => k.id = id ∧ k.userId = k'.userId
    | _ => False

/-- What the log says of login states. -/
def stateEffect : Effect Entry String OidcState where
  issues e :=
    match e.event with
    | .made stateHash s => some (stateHash, s)
    | _ => none
  withdraws e stateHash _ :=
    match e.event with
    | .used stateHash' _ => stateHash = stateHash'
    | _ => False

/-- What the log says of passwords. -/
def passwordEffect : Effect Entry Uuid (Option String) where
  issues e :=
    match e.event with
    | .set user hash _ => some (user, some hash)
    | .linked user _ true => some (user, none)
    | _ => none
  withdraws _ _ _ := False

/-- The session was opened, and neither ended nor swept since. -/
def SessionOpen (log : List Entry) (tokenHash : String) (s : Session) : Prop := sessionEffect.Issued log tokenHash s

/-- The key was issued, and not revoked since. -/
def KeyOut (log : List Entry) (keyHash : String) (k : ApiKey) : Prop := keyEffect.Issued log keyHash k

/-- The state was made, and not used since. -/
def StateOut (log : List Entry) (stateHash : String) (s : OidcState) : Prop := stateEffect.Issued log stateHash s

/-- The account's password hash, none where it has none, as it was last set. -/
def PasswordSet (log : List Entry) (user : Uuid) (hash : Option String) : Prop := passwordEffect.Issued log user hash

/-- The last that request `x` did. -/
def LastOf (x : Nat) (q : Entry → List Entry → Prop) (log : List Entry) : Prop := Since (fun e => e.x ≠ x) q log

/-! ## §4. Requests. -/

/-- The claim names of `oidcSetting`. -/
structure ClaimNames where
  claimEmail : String
  claimName : String
  claimDepartment : String
  claimOrganization : String

/-- What the identity provider answered to the code and the verifier. -/
structure IdToken where
  subject : String
  claims : Properties
  names : ClaimNames

/-- What the claims say of a person. -/
structure Identity where
  email : String
  name : String
  department : String
  organization : String
  subject : String

/-- `claimString`. -/
def claimString (claims : Properties) (key fallback : String) : String :=
  match claims.get (if key = "" then fallback else key) with
  | some (.str v) => v
  | _ => ""

/-- The claims as `oidcCallback` reads them. -/
def identity (t : IdToken) : Except Refusal Identity :=
  let email := claimString t.claims t.names.claimEmail "email"
  let name := claimString t.claims t.names.claimName "name"
  if email = "" then .error ⟨401, "OIDC_EMAIL_MISSING", "configured email claim is empty"⟩
  else
    .ok ⟨email, if name = "" then email else name, claimString t.claims t.names.claimDepartment "department",
      claimString t.claims t.names.claimOrganization "organization", t.subject⟩

/-- The body of `updateMe`. -/
structure ProfileUpdate where
  displayName : String
  department : String
  organizationName : String
  currentPassword : String
  newPassword : String

/-- How a write ends. -/
inductive Written where
  | done
  | failed
  /-- It took effect, but its answer did not arrive. -/
  | lost
  deriving DecidableEq

/-- Where a request is. -/
inductive Place where
  | idle
  /-- `oidcCallback` took its state. -/
  | exchanging (verifier : String)
  /-- A session is to be opened. -/
  | signingIn (user : Uuid)
  /-- `requireAuth` let it through. -/
  | authorized (p : Caller)
  | changing (p : Caller) (body : ProfileUpdate) (newHash : Option String)
  | administering (id : Uuid) (body : Users.UserUpdate) (newHash : Option String)
  /-- The password is replaced; the sessions are to be ended. -/
  | ending (id : Uuid)

/-- The tables, where every request is, and what has happened. -/
structure World where
  now : Instant
  accounts : Table Uuid SsoAccount
  sessions : Table String Session
  keys : Table String ApiKey
  states : Table String OidcState
  place : Nat → Place
  log : List Entry

/-- The statements of the handlers, in any order. -/
inductive Action where
  | tick (elapsed : Nat)
  | bootstrap (x : Nat) (email passwordHash : String) (newId : Uuid)
  | login (x : Nat) (email password : String)
  | openSession (x : Nat) (random : String) (fails : Bool)
  | oidcLogin (x : Nat) (state verifier : String)
  | callback (x : Nat) (state : String)
  | signIn (x : Nat) (exchange : String → Except Refusal IdToken) (newId : Uuid) (written : Written)
  | authenticate (x : Nat) (authorization : String) (cookie : Option String)
  | logout (x : Nat) (cookie : String)
  | createKey (x : Nat) (name : String) (days : Int) (clock : Instant) (random : String) (newId : Uuid)
  | deleteKey (x : Nat) (id : Uuid)
  | rotateKey (x : Nat) (id : Uuid) (random : String) (newId : Uuid)
  | updateMe (x : Nat) (body : ProfileUpdate) (readings : Users.UserReadings)
  | writeMe (x : Nat)
  | createUser (x : Nat) (body : Except String Users.NewUser) (readings : Users.UserReadings)
  | updateUser (x : Nat) (id : Option Uuid) (body : Except String Users.UserUpdate) (readings : Users.UserReadings)
  | writeUser (x : Nat) (lost : Bool)
  | endSessions (x : Nat)
  | dropSessions
  | dropStates
  /-- A request is refused, a statement of it fails, or its process is gone. -/
  | abandon (x : Nat)

/-! ## §5. Statements. -/

/-- The first row a condition selects. -/
def findRow {κ ρ : Type} (p : ρ → Bool) (t : Table κ ρ) : Option (κ × ρ) :=
  (t.entries.find? fun e => p e.2).map fun e => (e.1, e.2)

namespace World

/-- Nobody has an account. -/
def initial (now : Instant) : World := ⟨now, ∅, ∅, ∅, ∅, fun _ => .idle, []⟩

variable (lower hash : String → String) (compare : String → String → Bool) (w : World)

/-- A request goes on. -/
def setPlace (x : Nat) (place : Place) : World := { w with place := Function.update w.place x place }

/-- Something has happened. -/
def note (x : Nat) (event : Event) : World := { w with log := ⟨x, w.now, event⟩ :: w.log }

/-- `SELECT … FROM users WHERE email=$1`. -/
def accountOf (email : String) : Option (Uuid × SsoAccount) := findRow (fun a => a.email = email) w.accounts

/-- `UNIQUE(oidc_subject)` refuses the subject to `user`. -/
def subjectTaken (subject : String) (user : Uuid) : Bool :=
  w.accounts.entries.any fun e => e.1 ≠ user && e.2.oidcSubject = some subject

/-- The tables as the administration of users sees them. -/
def userDb : Users.UserDb := ⟨w.accounts.filterMapRows fun _ a => some a.toAccount, ∅, ∅, []⟩

/-- `Authenticate`, on the token; what is hashed is the text. -/
def authenticate (token : String) : Except String Caller :=
  if token = "" then .error "authentication required"
  else if isKey token then
    match (w.keys.lookup (hash token)).filter fun k => !k.revoked && k.unexpired w.now with
    | none => .error "invalid API key"
    | some k =>
      match (w.accounts.lookup k.userId).filter fun a => a.active with
      | none => .error "invalid API key"
      | some a => .ok (a.caller k.userId k.scopes "api_key")
  else
    match (w.sessions.lookup (hash token)).filter fun s => decide (w.now < s.expiresAt) with
    | none => .error "invalid session"
    | some s =>
      match (w.accounts.lookup s.userId).filter fun a => a.active with
      | none => .error "invalid session"
      | some a => .ok (a.caller s.userId [] "session")

/-- `Login`, up to `CreateSession`: the account, and the hash that matched. -/
def login (email password : String) : Except Refusal (Uuid × String) :=
  match (w.accountOf (lower email)).filter fun e => e.2.active with
  | none => .error ⟨401, "INVALID_CREDENTIALS", "email or password is incorrect"⟩
  | some (user, a) =>
    match a.passwordHash.filter fun h => compare h password with
    | none => .error ⟨401, "INVALID_CREDENTIALS", "email or password is incorrect"⟩
    | some h => .ok (user, h)

/-- A new row of `users`, with a password. -/
def addAccount (x : Nat) (id : Uuid) (a : Users.Account) (h : String) (how : How) : World :=
  { w with accounts := w.accounts.insert id ⟨{ a with passwordHash := some h }, none⟩ }.note x (.set id h how)

/-- The `INSERT INTO users … ON CONFLICT(email) DO UPDATE` of `oidcCallback`: the account,
and whether it is new; none where a constraint refuses it. -/
def upsertAccount (i : Identity) (newId : Uuid) : Option (Uuid × Bool × SsoAccount) :=
  match w.accountOf (lower i.email) with
  | some (user, a) =>
    if w.subjectTaken i.subject user then none
    else
      some (user, false,
        { a with
          displayName := i.name
          department := i.department
          organizationName := i.organization
          oidcSubject := some i.subject })
  | none =>
    if newId ∈ w.accounts ∨ w.subjectTaken i.subject newId then none
    else
      some (newId, true,
        { email := lower i.email
          displayName := i.name
          department := i.department
          organizationName := i.organization
          role := "viewer"
          active := true
          passwordHash := none
          oidcSubject := some i.subject })

/-- The checks of `updateMe`: the hash that was read and the new one, where there is to be
a new one. -/
def checkProfile (p : Caller) (body : ProfileUpdate) (readings : Users.UserReadings) :
    Except Refusal (Option (String × String)) :=
  if trimSpace body.displayName = "" then .error ⟨400, "INVALID_NAME", "display name is required"⟩
  else if body.newPassword = "" then .ok none
  else if Users.passwordProblem body.newPassword ≠ "" then
    .error ⟨400, "WEAK_PASSWORD", "new " ++ Users.passwordProblem body.newPassword⟩
  else
    match ((w.accounts.lookup p.id).bind fun a => a.passwordHash).filter fun h =>
        readings.fails.isNone && compare h body.currentPassword with
    | none => .error ⟨403, "PASSWORD_MISMATCH", "current password is incorrect"⟩
    | some current =>
      match readings.hash with
      | .error message => .error ⟨500, "UPDATE_FAILED", message⟩
      | .ok new => .ok (some (current, new))

/-- `UPDATE users SET … WHERE id=$1`. -/
def writeAccount (x : Nat) (id : Uuid) (f : SsoAccount → SsoAccount) (newHash : Option String) (how : How) : World :=
  match w.accounts.lookup id with
  | none => w
  | some a =>
    let w := { w with accounts := w.accounts.insert id { f a with passwordHash := newHash.or a.passwordHash } }
    match newHash with
    | none => w
    | some h => w.note x (.set id h how)

/-- The row of a new key; `UNIQUE(key_hash)` and the primary key may refuse it. -/
def keyTaken (keyHash : String) (id : Uuid) : Bool :=
  (w.keys.lookup keyHash).isSome || w.keys.entries.any fun e => e.2.id = id

/-- The key `id` of `user` that `UPDATE api_keys SET revoked_at=now() …` revokes. -/
def ownKey (id user : Uuid) : Option (String × ApiKey) :=
  findRow (fun k => decide (k.id = id ∧ k.userId = user) && !k.revoked) w.keys

/-- `UPDATE … SET revoked_at`. -/
def revokeKey (id user : Uuid) : Table String ApiKey :=
  w.keys.modifyRows fun _ k => if k.id = id ∧ k.userId = user then { k with revoked := true } else k

/-- The expiry that `createMyKey` writes; `clock` is `time.Now()` of the process. -/
def keyExpiry (clock : Instant) (days : Int) : Option Instant :=
  if 0 < days ∧ days ≤ 3650 then some (clock + seconds (days * 86400)) else none

/-- **A step.** -/
def step (w : World) : Action → World
  | .tick elapsed => { w with now := w.now + elapsed }
  | .bootstrap x email h newId =>
    match w.place x with
    | .idle =>
      if (w.accountOf (lower email)).isSome ∨ newId ∈ w.accounts then w
      else
        (w.addAccount x newId ⟨lower email, email, "", "Momento", "super_admin", true, none⟩ h .bootstrap).setPlace x
          .idle
    | _ => w
  | .login x email password =>
    match w.place x, w.login lower compare email password with
    | .idle, .ok (user, h) => (w.note x (.checked user h password)).setPlace x (.signingIn user)
    | _, _ => w
  | .openSession x random fails =>
    match w.place x with
    | .signingIn user =>
      let tokenHash := hash ("mom_sess_" ++ random)
      if fails ∨ tokenHash ∈ w.sessions ∨ user ∉ w.accounts then w.setPlace x .idle
      else
        let s : Session := ⟨user, w.now + seconds 43200⟩
        ({ w with sessions := w.sessions.insert tokenHash s }.note x (.opened tokenHash s)).setPlace x .idle
    | _ => w
  | .oidcLogin x state verifier =>
    match w.place x with
    | .idle =>
      if hash state ∈ w.states then w
      else
        let s : OidcState := ⟨verifier, w.now + seconds 600⟩
        ({ w with states := w.states.insert (hash state) s }.note x (.made (hash state) s)).setPlace x .idle
    | _ => w
  | .callback x state =>
    match w.place x, (w.states.lookup (hash state)).filter fun s => decide (w.now < s.expiresAt) with
    | .idle, some s =>
      ({ w with states := w.states.erase (hash state) }.note x (.used (hash state) s)).setPlace x
        (.exchanging s.verifier)
    | _, _ => w
  | .signIn x exchange newId written =>
    match w.place x with
    | .exchanging verifier =>
      match (exchange verifier).bind identity with
      | .error _ => w.setPlace x .idle
      | .ok i =>
        match w.upsertAccount lower i newId with
        | none => w.setPlace x .idle
        | some (user, new, a) =>
          if written = Written.failed then w.setPlace x .idle
          else
            ({ w with accounts := w.accounts.insert user a }.note x (.linked user i.subject new)).setPlace x
              (if written = Written.lost then .idle else .signingIn user)
    | _ => w
  | .authenticate x authorization cookie =>
    match w.place x, w.authenticate hash (requestToken authorization cookie) with
    | .idle, .ok p => (w.note x (.authorized p)).setPlace x (.authorized p)
    | _, _ => w
  | .logout x cookie =>
    match w.place x with
    | .idle =>
      if cookie = "" then w
      else ({ w with sessions := w.sessions.erase (hash cookie) }.note x (.ended (hash cookie))).setPlace x .idle
    | _ => w
  | .createKey x name days clock random newId =>
    match w.place x with
    | .authorized p =>
      let keyHash := hash ("mom_key_" ++ random)
      if sessionOnly p = false ∨ w.keyTaken keyHash newId ∨ p.id ∉ w.accounts then w.setPlace x .idle
      else
        let k : ApiKey := ⟨newId, p.id, if trimSpace name = "" then "Personal API key" else name, ["analytics:read"],
          keyExpiry clock days, false⟩
        ({ w with keys := w.keys.insert keyHash k }.note x (.issued keyHash k)).setPlace x .idle
    | _ => w
  | .deleteKey x id =>
    match w.place x with
    | .authorized p =>
      if sessionOnly p = false ∨ (w.ownKey id p.id).isNone then w.setPlace x .idle
      else ({ w with keys := w.revokeKey id p.id }.note x (.revoked id p.id)).setPlace x .idle
    | _ => w
  | .rotateKey x id random newId =>
    match w.place x with
    | .authorized p =>
      -- one transaction; the row it revokes stays locked until it commits
      match w.ownKey id p.id with
      | none => w.setPlace x .idle
      | some (_, old) =>
        let keyHash := hash ("mom_key_" ++ random)
        if sessionOnly p = false ∨ w.keyTaken keyHash newId then w.setPlace x .idle
        else
          let k : ApiKey := { old with id := newId }
          ({ w with keys := (w.revokeKey id p.id).insert keyHash k }.note x (.rotated id keyHash k)).setPlace x .idle
    | _ => w
  | .updateMe x body readings =>
    match w.place x with
    | .authorized p =>
      if sessionOnly p = false then w.setPlace x .idle
      else
        match w.checkProfile compare p body readings with
        | .error _ => w.setPlace x .idle
        | .ok none => w.setPlace x (.changing p body none)
        | .ok (some (current, new)) =>
          (w.note x (.checked p.id current body.currentPassword)).setPlace x (.changing p body (some new))
    | _ => w
  | .writeMe x =>
    match w.place x with
    | .changing p body newHash =>
      (w.writeAccount x p.id (fun a =>
        { a with
          displayName := body.displayName
          department := body.department
          organizationName := body.organizationName }) newHash .changed).setPlace x .idle
    | _ => w
  | .createUser x body readings =>
    match w.place x with
    | .authorized p =>
      let db := (Users.createUser lower p.principal readings w.userDb body).2
      match (if readings.newId ∈ w.accounts then none else db.accounts.lookup readings.newId), readings.hash with
      | some a, .ok h => (w.addAccount x readings.newId a h .created).setPlace x .idle
      | _, _ => w.setPlace x .idle
    | _ => w
  | .updateUser x id body readings =>
    match w.place x with
    | .authorized p =>
      match Users.updateUser p.principal readings w.userDb id body with
      | .admitted id body none => w.setPlace x (.administering id body none)
      | .admitted id body (some new) =>
        (w.note x (.resetting p id)).setPlace x (.administering id body (some new))
      | _ => w.setPlace x .idle
    | _ => w
  | .writeUser x lost =>
    match w.place x with
    | .administering id body newHash =>
      (w.writeAccount x id (fun a =>
        { a with
          displayName := body.displayName
          department := body.department
          organizationName := body.organizationName
          role := body.role
          active := body.active.getD a.active }) newHash .reset).setPlace x
        (if lost ∨ newHash.isNone then .idle else .ending id)
    | _ => w
  | .endSessions x =>
    match w.place x with
    | .ending id =>
      ({ w with sessions := w.sessions.deleteRows fun _ s => s.userId = id }.note x (.swept id)).setPlace x .idle
    | _ => w
  | .dropSessions => { w with sessions := w.sessions.deleteRows fun _ s => s.expiresAt < w.now }
  | .dropStates => { w with states := w.states.deleteRows fun _ s => s.expiresAt < w.now }
  | .abandon x => w.setPlace x .idle

end World

/-! ## §6. What should hold. -/

/-- From a session of the console, as `user`. -/
def Event.atConsole (user : Uuid) : Event → Prop
  | .authorized p => p.id = user ∧ p.programmatic = false
  | _ => False

/-- It shows who signs in. -/
def Event.identifies (user : Uuid) : Event → Prop
  | .checked user' _ _ => user' = user
  | .linked user' _ _ => user' = user
  | _ => False

/-- What the caller showed was good at the time. -/
def Accepted (log : List Entry) (time : Instant) (p : Caller) : Prop :=
  (p.authType = "session" ∧ ∃ tokenHash s, SessionOpen log tokenHash s ∧ time < s.expiresAt ∧ s.userId = p.id)
    ∨ (p.authType = "api_key" ∧ ∃ keyHash k, KeyOut log keyHash k ∧ k.unexpired time = true ∧ k.userId = p.id
      ∧ k.scopes = p.scopes)

section
variable (compare : String → String → Bool)

/-- **What gives an entry its right**, in the entries before it. -/
def Justified (e : Entry) (older : List Entry) : Prop :=
  match e.event with
  | .checked user h password => PasswordSet older user (some h) ∧ compare h password = true
  | .authorized p => Accepted older e.time p
  | .made _ s => s.expiresAt = e.time + seconds 600
  | .used stateHash s => StateOut older stateHash s ∧ e.time < s.expiresAt
  | .linked user _ new =>
    LastOf e.x (fun e' _ => ∃ stateHash s, e'.event = .used stateHash s) older
      ∧ (new = true ↔ ∀ h, ¬PasswordSet older user h)
  | .opened _ s =>
    s.expiresAt = e.time + seconds 43200 ∧ LastOf e.x (fun e' _ => e'.event.identifies s.userId) older
  | .ended _ => True
  | .swept user => LastOf e.x (fun e' _ => ∃ h, e'.event = .set user h .reset) older
  | .resetting p user =>
    LastOf e.x (fun e' _ => e'.event = .authorized p) older ∧ orgAdmin p.principal = true ∧ user ≠ p.id
      ∧ ∃ h, PasswordSet older user h
  | .set user _ .bootstrap => ∀ h, ¬PasswordSet older user h
  | .set user _ .created =>
    (∀ h, ¬PasswordSet older user h)
      ∧ LastOf e.x (fun e' _ => ∃ p, e'.event = .authorized p ∧ orgAdmin p.principal = true) older
  | .set user _ .changed =>
    LastOf e.x (fun e' older' => (∃ h password, e'.event = .checked user h password)
      ∧ LastOf e.x (fun e'' _ => e''.event.atConsole user) older') older
  | .set user _ .reset => LastOf e.x (fun e' _ => ∃ p, e'.event = .resetting p user) older
  | .issued _ k => k.revoked = false ∧ LastOf e.x (fun e' _ => e'.event.atConsole k.userId) older
  | .rotated id _ k =>
    (∃ keyHash old, KeyOut older keyHash old ∧ old.id = id ∧ k = { old with id := k.id })
      ∧ LastOf e.x (fun e' _ => e'.event.atConsole k.userId) older
  | .revoked _ user => LastOf e.x (fun e' _ => e'.event.atConsole user) older

variable (hash : String → String)

/-- **What any order of requests leaves.** -/
structure World.Sound (w : World) : Prop where
  /-- A session is good until it is ended, for twelve hours, while its account is active. -/
  sessions : ∀ token p, token ≠ "" → isKey token = false →
    (w.authenticate hash token = .ok p ↔ ∃ s a, SessionOpen w.log (hash token) s ∧ w.now < s.expiresAt
      ∧ w.accounts.lookup s.userId = some a ∧ a.active = true ∧ p = a.caller s.userId [] "session")
  /-- A key is good until it is revoked or expires, while its account is active. -/
  keys : ∀ token p, isKey token = true →
    (w.authenticate hash token = .ok p ↔ ∃ k a, KeyOut w.log (hash token) k ∧ k.unexpired w.now = true
      ∧ w.accounts.lookup k.userId = some a ∧ a.active = true ∧ p = a.caller k.userId k.scopes "api_key")
  /-- An account has the password that was set last. -/
  passwords : ∀ user h, PasswordSet w.log user h ↔ (w.accounts.lookup user).map (fun a => a.passwordHash) = some h
  justified : Throughout (Justified compare) w.log
  /-- A state that was used is used again only where it was made again. -/
  once : ∀ newer e between e' older stateHash s s', w.log = newer ++ e :: (between ++ e' :: older) →
    e.event = .used stateHash s → e'.event = .used stateHash s' → ∃ e'' ∈ between, e''.event = .made stateHash s
  /-- An address, and an identity, is of one account. -/
  emails : ∀ user user' a a', w.accounts.lookup user = some a → w.accounts.lookup user' = some a' →
    a.email = a'.email → user = user'
  subjects : ∀ user user' a a' subject, w.accounts.lookup user = some a → w.accounts.lookup user' = some a' →
    a.oidcSubject = some subject → a'.oidcSubject = some subject → user = user'

end

/-! ## §7. The invariant. -/

/-- What a request did last. -/
def Place.Grounded (x : Nat) (log : List Entry) : Place → Prop
  | .idle => True
  | .exchanging _ => LastOf x (fun e _ => ∃ stateHash s, e.event = .used stateHash s) log
  | .signingIn user => LastOf x (fun e _ => e.event.identifies user) log
  | .authorized p => LastOf x (fun e _ => e.event = .authorized p) log
  | .changing p _ newHash =>
    newHash.isSome → LastOf x (fun e older => (∃ h password, e.event = .checked p.id h password)
      ∧ LastOf x (fun e' _ => e'.event.atConsole p.id) older) log
  | .administering id _ newHash => newHash.isSome → LastOf x (fun e _ => ∃ p, e.event = .resetting p id) log
  | .ending id => LastOf x (fun e _ => ∃ h, e.event = .set id h .reset) log

/-- One row for an address, and for an identity. -/
structure Directory (accounts : Table Uuid SsoAccount) : Prop where
  emails : ∀ user user' a a', accounts.lookup user = some a → accounts.lookup user' = some a' →
    a.email = a'.email → user = user'
  subjects : ∀ user user' a a' subject, accounts.lookup user = some a → accounts.lookup user' = some a' →
    a.oidcSubject = some subject → a'.oidcSubject = some subject → user = user'

/-- The keys that are not revoked. -/
def World.liveKey (w : World) (keyHash : String) : Option ApiKey := (w.keys.lookup keyHash).filter fun k => !k.revoked

/-- The password of an account, where there is one. -/
def World.passwordOf (w : World) (user : Uuid) : Option (Option String) :=
  (w.accounts.lookup user).map fun a => a.passwordHash

/-- **The invariant**: the tables are what the log says. -/
structure World.Inv (compare : String → String → Bool) (w : World) : Prop where
  sessions : sessionEffect.Tracks (fun s => w.now < s.expiresAt) w.sessions.lookup w.log
  keys : keyEffect.Tracks (fun _ => True) w.liveKey w.log
  states : stateEffect.Tracks (fun s => w.now < s.expiresAt) w.states.lookup w.log
  passwords : passwordEffect.Tracks (fun _ => True) w.passwordOf w.log
  justified : Throughout (Justified compare) w.log
  grounded : ∀ x, (w.place x).Grounded x w.log
  directory : Directory w.accounts

/-! ## §8. What a statement keeps. -/

section
variable {compare : String → String → Bool} {w w' : World} {x : Nat} {log : List Entry} {e : Entry}

theorem LastOf.other {q : Entry → List Entry → Prop} (h : LastOf x q log) (hx : e.x ≠ x) : LastOf x q (e :: log) :=
  Or.inr ⟨hx, h⟩

/-- What another request does leaves the grounds of this one. -/
theorem Place.Grounded.other {place : Place} (h : place.Grounded x log) (hx : e.x ≠ x) :
    place.Grounded x (e :: log) := by
  cases place with
  | idle => trivial
  | exchanging verifier => exact LastOf.other h hx
  | signingIn user => exact LastOf.other h hx
  | authorized p => exact LastOf.other h hx
  | changing p body newHash => exact fun hnew => LastOf.other (h hnew) hx
  | administering id body newHash => exact fun hnew => LastOf.other (h hnew) hx
  | ending id => exact LastOf.other h hx

theorem place_setPlace (w : World) (x : Nat) (place : Place) (y : Nat) :
    (w.setPlace x place).place y = if y = x then place else w.place y :=
  Function.update_apply w.place x place y

/-- **A statement without an entry.** -/
theorem World.Inv.still (h : w.Inv compare) (hlog : w'.log = w.log) (hnow : w.now ≤ w'.now)
    (hsessions : ∀ k s, w'.now < s.expiresAt → (w'.sessions.lookup k = some s ↔ w.sessions.lookup k = some s))
    (hkeys : w'.liveKey = w.liveKey)
    (hstates : ∀ k s, w'.now < s.expiresAt → (w'.states.lookup k = some s ↔ w.states.lookup k = some s))
    (hpasswords : w'.passwordOf = w.passwordOf) (hplaces : ∀ y, (w'.place y).Grounded y w.log)
    (hdirectory : Directory w'.accounts) : w'.Inv compare where
  sessions := by
    rw [hlog]
    exact h.sessions.mono (fun s hs => hnow.trans_lt hs) hsessions
  keys := by
    rw [hlog, hkeys]
    exact h.keys
  states := by
    rw [hlog]
    exact h.states.mono (fun s hs => hnow.trans_lt hs) hstates
  passwords := by
    rw [hlog, hpasswords]
    exact h.passwords
  justified := by
    rw [hlog]
    exact h.justified
  grounded y := by
    rw [hlog]
    exact hplaces y
  directory := hdirectory

/-- **A statement with an entry.** -/
theorem World.Inv.next (h : w.Inv compare) {entry : Entry} {place : Place} (hx : entry.x = x)
    (hlog : w'.log = entry :: w.log) (hnow : w'.now = w.now) (hplaces : w'.place = Function.update w.place x place)
    (hsessions : sessionEffect.Tracks (fun s => w.now < s.expiresAt) w'.sessions.lookup (entry :: w.log))
    (hkeys : keyEffect.Tracks (fun _ => True) w'.liveKey (entry :: w.log))
    (hstates : stateEffect.Tracks (fun s => w.now < s.expiresAt) w'.states.lookup (entry :: w.log))
    (hpasswords : passwordEffect.Tracks (fun _ => True) w'.passwordOf (entry :: w.log))
    (hjustified : Justified compare entry w.log) (hplace : place.Grounded x (entry :: w.log))
    (hdirectory : Directory w'.accounts) : w'.Inv compare where
  sessions := by
    rw [hlog, hnow]
    exact hsessions
  keys := by
    rw [hlog]
    exact hkeys
  states := by
    rw [hlog, hnow]
    exact hstates
  passwords := by
    rw [hlog]
    exact hpasswords
  justified := by
    rw [hlog]
    exact ⟨hjustified, h.justified⟩
  grounded y := by
    rw [hlog, hplaces, Function.update_apply]
    split
    next hy =>
      rw [hy]
      exact hplace
    next hy =>
      refine (h.grounded y).other ?_
      rw [hx]
      exact fun heq => hy heq.symm
  directory := hdirectory

theorem setPlace_inv (h : w.Inv compare) {place : Place} (hplace : place.Grounded x w.log) :
    (w.setPlace x place).Inv compare := by
  refine h.still rfl le_rfl (fun _ _ _ => Iff.rfl) rfl (fun _ _ _ => Iff.rfl) rfl (fun y => ?_) h.directory
  rw [place_setPlace]
  split
  next hy =>
    rw [hy]
    exact hplace
  · exact h.grounded y

/-- What a request that is at a place has behind it. -/
theorem grounded_of_place (h : w.Inv compare) {place : Place} (hplace : w.place x = place) : place.Grounded x w.log := by
  rw [← hplace]
  exact h.grounded x

theorem idle_inv (h : w.Inv compare) : (w.setPlace x .idle).Inv compare := setPlace_inv h trivial

/-- It says what was read. -/
def Event.reading : Event → Bool
  | .checked _ _ _ => true
  | .authorized _ => true
  | .resetting _ _ => true
  | _ => false

/-- A statement that reads. -/
theorem note_inv (h : w.Inv compare) {event : Event} {place : Place} (hreading : event.reading = true)
    (hjustified : Justified compare ⟨x, w.now, event⟩ w.log)
    (hplace : place.Grounded x (⟨x, w.now, event⟩ :: w.log)) : ((w.note x event).setPlace x place).Inv compare := by
  have hfree : sessionEffect.issues ⟨x, w.now, event⟩ = none ∧ keyEffect.issues ⟨x, w.now, event⟩ = none
      ∧ stateEffect.issues ⟨x, w.now, event⟩ = none ∧ passwordEffect.issues ⟨x, w.now, event⟩ = none
      ∧ (∀ k s, ¬sessionEffect.withdraws ⟨x, w.now, event⟩ k s) ∧ (∀ k r, ¬keyEffect.withdraws ⟨x, w.now, event⟩ k r)
      ∧ ∀ k s, ¬stateEffect.withdraws ⟨x, w.now, event⟩ k s := by
    cases event <;> first
      | exact ⟨rfl, rfl, rfl, rfl, fun _ _ h => h, fun _ _ h => h, fun _ _ h => h⟩
      | cases hreading
  obtain ⟨hsessions, hkeys, hstates, hpasswords, hkept, hkept', hkept''⟩ := hfree
  exact h.next rfl rfl rfl rfl (h.sessions.idle hsessions hkept) (h.keys.idle hkeys hkept')
    (h.states.idle hstates hkept'') (h.passwords.idle hpasswords fun _ _ h => h) hjustified hplace h.directory

/-! ### Reads. -/

theorem findRow_some {κ ρ : Type} [DecidableEq κ] {p : ρ → Bool} {t : Table κ ρ} {k : κ} {r : ρ}
    (h : findRow p t = some (k, r)) : t.lookup k = some r ∧ p r = true := by
  obtain ⟨e, he, heq⟩ := Option.map_eq_some_iff.mp h
  obtain ⟨rfl, rfl⟩ := Prod.mk.inj heq
  exact ⟨AList.mem_lookup_iff.mpr (List.mem_of_find?_eq_some he), (List.find?_some he : _)⟩

theorem findRow_none {κ ρ : Type} [DecidableEq κ] {p : ρ → Bool} {t : Table κ ρ} (h : findRow p t = none) {k : κ}
    {r : ρ} (hr : t.lookup k = some r) : p r = false := by
  have hnone := List.find?_eq_none.mp (Option.map_eq_none_iff.mp h) ⟨k, r⟩ (AList.mem_lookup_iff.mp hr)
  exact Bool.eq_false_of_not_eq_true hnone

theorem passwordSet_of_lookup (h : w.Inv compare) {user : Uuid} {a : SsoAccount} (ha : w.accounts.lookup user = some a) :
    PasswordSet w.log user a.passwordHash := by
  refine (h.passwords user a.passwordHash trivial).mp ?_
  unfold World.passwordOf
  rw [ha]
  rfl

/-- Of an account that is not there no password was set. -/
theorem not_passwordSet (h : w.Inv compare) {user : Uuid} (hnew : user ∉ w.accounts) (hash : Option String) :
    ¬PasswordSet w.log user hash := by
  intro hset
  have hlookup := (h.passwords user hash trivial).mpr hset
  unfold World.passwordOf at hlookup
  rw [AList.lookup_eq_none.mpr hnew] at hlookup
  cases hlookup

variable {lower hash : String → String}

theorem login_eq_ok {email password h : String} {user : Uuid}
    (hlogin : w.login lower compare email password = .ok (user, h)) :
    ∃ a, w.accounts.lookup user = some a ∧ a.active = true ∧ a.passwordHash = some h ∧ compare h password = true := by
  unfold World.login at hlogin
  split at hlogin
  · cases hlogin
  next user' a hfound =>
    obtain ⟨hfound, hactive⟩ := Option.filter_eq_some_iff.mp hfound
    split at hlogin
    · cases hlogin
    next h' hmatched =>
      obtain ⟨hhash, hcompare⟩ := Option.filter_eq_some_iff.mp hmatched
      obtain ⟨rfl, rfl⟩ := Prod.mk.inj (Except.ok.inj hlogin)
      exact ⟨a, (findRow_some hfound).1, hactive, hhash, hcompare⟩

/-- A session's token. -/
theorem authenticate_session {token : String} {p : Caller} (htoken : token ≠ "") (hkey : isKey token = false) :
    w.authenticate hash token = .ok p ↔ ∃ s a, w.sessions.lookup (hash token) = some s ∧ w.now < s.expiresAt
      ∧ w.accounts.lookup s.userId = some a ∧ a.active = true ∧ p = a.caller s.userId [] "session" := by
  unfold World.authenticate
  rw [if_neg htoken, hkey, if_neg Bool.false_ne_true]
  constructor
  · intro h
    split at h
    · cases h
    next s hs =>
      obtain ⟨hs, hlive⟩ := Option.filter_eq_some_iff.mp hs
      split at h
      · cases h
      next a ha =>
        obtain ⟨ha, hactive⟩ := Option.filter_eq_some_iff.mp ha
        exact ⟨s, a, hs, of_decide_eq_true hlive, ha, hactive, (Except.ok.inj h).symm⟩
  · rintro ⟨s, a, hs, hlive, ha, hactive, rfl⟩
    have hfound : (w.sessions.lookup (hash token)).filter (fun s => decide (w.now < s.expiresAt)) = some s :=
      Option.filter_eq_some_iff.mpr ⟨hs, decide_eq_true hlive⟩
    have howner : (w.accounts.lookup s.userId).filter (fun a => a.active) = some a :=
      Option.filter_eq_some_iff.mpr ⟨ha, hactive⟩
    rw [hfound]
    show (match (w.accounts.lookup s.userId).filter fun a => a.active with | none => _ | some a => _) = _
    rw [howner]

/-- A personal key. -/
theorem authenticate_key {token : String} {p : Caller} (hkey : isKey token = true) :
    w.authenticate hash token = .ok p ↔ ∃ k a, w.liveKey (hash token) = some k ∧ k.unexpired w.now = true
      ∧ w.accounts.lookup k.userId = some a ∧ a.active = true ∧ p = a.caller k.userId k.scopes "api_key" := by
  have htoken : token ≠ "" := by
    rintro rfl
    exact absurd hkey (by decide)
  unfold World.authenticate World.liveKey
  rw [if_neg htoken, if_pos hkey]
  constructor
  · intro h
    split at h
    · cases h
    next k hk =>
      obtain ⟨hk, hlive⟩ := Option.filter_eq_some_iff.mp hk
      obtain ⟨hnot, hunexpired⟩ := Bool.and_eq_true_iff.mp hlive
      split at h
      · cases h
      next a ha =>
        obtain ⟨ha, hactive⟩ := Option.filter_eq_some_iff.mp ha
        exact ⟨k, a, Option.filter_eq_some_iff.mpr ⟨hk, hnot⟩, hunexpired, ha, hactive,
          (Except.ok.inj h).symm⟩
  · rintro ⟨k, a, hk, hunexpired, ha, hactive, rfl⟩
    obtain ⟨hk, hnot⟩ := Option.filter_eq_some_iff.mp hk
    have hfound : (w.keys.lookup (hash token)).filter (fun k => !k.revoked && k.unexpired w.now) = some k :=
      Option.filter_eq_some_iff.mpr ⟨hk, Bool.and_eq_true_iff.mpr ⟨hnot, hunexpired⟩⟩
    have howner : (w.accounts.lookup k.userId).filter (fun a => a.active) = some a :=
      Option.filter_eq_some_iff.mpr ⟨ha, hactive⟩
    rw [hfound]
    show (match (w.accounts.lookup k.userId).filter fun a => a.active with | none => _ | some a => _) = _
    rw [howner]

/-- Who is let through showed something good. -/
theorem accepted_of_authenticate (h : w.Inv compare) {token : String} {p : Caller}
    (hp : w.authenticate hash token = .ok p) : Accepted w.log w.now p := by
  by_cases hkey : isKey token = true
  · obtain ⟨k, a, hk, hunexpired, -, -, rfl⟩ := (authenticate_key hkey).mp hp
    exact Or.inr ⟨rfl, hash token, k, (h.keys (hash token) k trivial).mp hk, hunexpired, rfl, rfl⟩
  · have htoken : token ≠ "" := by
      rintro rfl
      cases hp
    obtain ⟨s, a, hs, hlive, -, -, rfl⟩ := (authenticate_session htoken (Bool.eq_false_of_not_eq_true hkey)).mp hp
    exact Or.inl ⟨rfl, hash token, s, (h.sessions (hash token) s hlive).mp hs, hlive, rfl⟩

theorem login_inv (h : w.Inv compare) (x : Nat) (email password : String) :
    (w.step lower hash compare (.login x email password)).Inv compare := by
  dsimp only [World.step]
  split
  next user passwordHash hplace hlogin =>
    obtain ⟨a, ha, -, hhash, hcompare⟩ := login_eq_ok hlogin
    have hset := passwordSet_of_lookup h ha
    rw [hhash] at hset
    exact note_inv h rfl ⟨hset, hcompare⟩ (Or.inl rfl)
  · exact h

theorem authenticate_inv (h : w.Inv compare) (x : Nat) (authorization : String) (cookie : Option String) :
    (w.step lower hash compare (.authenticate x authorization cookie)).Inv compare := by
  dsimp only [World.step]
  split
  · next p hplace hp => exact note_inv h rfl (accepted_of_authenticate h hp) (Or.inl rfl)
  · exact h

theorem checkProfile_eq_ok {p : Caller} {body : ProfileUpdate} {readings : Users.UserReadings} {current new : String}
    (h : w.checkProfile compare p body readings = .ok (some (current, new))) :
    ∃ a, w.accounts.lookup p.id = some a ∧ a.passwordHash = some current
      ∧ compare current body.currentPassword = true := by
  unfold World.checkProfile at h
  split at h
  · cases h
  split at h
  · cases h
  split at h
  · cases h
  split at h
  · cases h
  next current' hcurrent =>
    obtain ⟨hfound, hcompare⟩ := Option.filter_eq_some_iff.mp hcurrent
    obtain ⟨a, ha, hhash⟩ := Option.bind_eq_some_iff.mp hfound
    split at h
    · cases h
    · obtain ⟨rfl, -⟩ := Prod.mk.inj (Option.some.inj (Except.ok.inj h))
      exact ⟨a, ha, hhash, (Bool.and_eq_true_iff.mp hcompare).2⟩

theorem atConsole_of_sessionOnly {p : Caller} (h : ¬sessionOnly p = false) : (Event.authorized p).atConsole p.id := by
  refine ⟨rfl, ?_⟩
  unfold sessionOnly at h
  simpa using h

/-- A session that was let in last is at the console. -/
theorem atConsole_of_last {p : Caller} {log : List Entry} (h : LastOf x (fun e _ => e.event = .authorized p) log)
    (hgate : ¬sessionOnly p = false) : LastOf x (fun e _ => e.event.atConsole p.id) log := by
  refine Since.imp h (fun _ hx => hx) fun e _ he => ?_
  rw [he]
  exact atConsole_of_sessionOnly hgate

theorem updateMe_inv (h : w.Inv compare) (x : Nat) (body : ProfileUpdate) (readings : Users.UserReadings) :
    (w.step lower hash compare (.updateMe x body readings)).Inv compare := by
  dsimp only [World.step]
  split
  next p hplace =>
    have hgrounded := grounded_of_place h hplace
    split
    · exact idle_inv h
    next hgate =>
      split
      · exact idle_inv h
      · exact setPlace_inv h fun hnew => nomatch hnew
      next current new hchecked =>
        obtain ⟨a, ha, hhash, hcompare⟩ := checkProfile_eq_ok hchecked
        have hset := passwordSet_of_lookup h ha
        rw [hhash] at hset
        exact note_inv h rfl ⟨hset, hcompare⟩ fun _ =>
          Or.inl ⟨⟨current, body.currentPassword, rfl⟩, atConsole_of_last hgrounded hgate⟩
  · exact h

theorem lookup_userDb (w : World) (user : Uuid) :
    w.userDb.accounts.lookup user = (w.accounts.lookup user).map fun a => a.toAccount := by
  show (w.accounts.filterMapRows _).lookup user = _
  rw [Table.lookup_filterMapRows, Option.map_eq_bind]
  rfl

/-- Who may replace a password. -/
theorem updateUser_eq_admitted {p : Principal} {readings : Users.UserReadings} {id : Option Uuid}
    {body : Except String Users.UserUpdate} {user : Uuid} {body' : Users.UserUpdate} {new : String} {db : Users.UserDb}
    (h : Users.updateUser p readings db id body = .admitted user body' (some new)) :
    orgAdmin p = true ∧ user ≠ p.id ∧ user ∈ db.accounts := by
  unfold Users.updateUser at h
  split at h
  · cases h
  next hgate =>
    refine ⟨by simpa using hgate, ?_⟩
    split at h
    · cases h
    · cases h
    split at h
    · cases h
    split at h
    · cases h
    split at h
    · cases h
    split at h
    · cases h
    · cases h
    next account _ hrow =>
      split at h
      · cases h
      split at h
      · cases h
      split at h
      · cases h
      next newHash hsettled =>
        obtain ⟨rfl, rfl, rfl⟩ := Users.Stage.admitted.inj h
        -- a password is settled for another account only
        unfold Users.settlePassword at hsettled
        split at hsettled
        · cases hsettled
        split at hsettled
        · cases hsettled
        · next hother => exact ⟨hother, AList.lookup_isSome.mp (by rw [hrow]; rfl)⟩

theorem updateUser_inv (h : w.Inv compare) (x : Nat) (id : Option Uuid) (body : Except String Users.UserUpdate)
    (readings : Users.UserReadings) : (w.step lower hash compare (.updateUser x id body readings)).Inv compare := by
  dsimp only [World.step]
  split
  next p hplace =>
    have hgrounded := grounded_of_place h hplace
    split
    · exact setPlace_inv h fun hnew => nomatch hnew
    next user body' new hadmitted =>
      obtain ⟨hgate, hother, hmem⟩ := updateUser_eq_admitted hadmitted
      have hrow : (w.userDb.accounts.lookup user).isSome := AList.lookup_isSome.mpr hmem
      rw [lookup_userDb, Option.isSome_map] at hrow
      obtain ⟨a, ha⟩ := Option.isSome_iff_exists.mp hrow
      exact note_inv h rfl ⟨hgrounded, hgate, hother, a.passwordHash, passwordSet_of_lookup h ha⟩
        fun _ => Or.inl ⟨p, rfl⟩
    · exact idle_inv h
  · exact h

/-! ### Sessions and states. -/

theorem lookup_insert_iff {κ ρ : Type} [DecidableEq κ] (t : Table κ ρ) {k k' : κ} {r r' : ρ} (hk : k' ≠ k) :
    (t.insert k r).lookup k' = some r' ↔ t.lookup k' = some r' ∧ ¬False := by
  rw [AList.lookup_insert_ne hk]
  exact (and_iff_left id).symm

theorem lookup_erase_iff {κ ρ : Type} [DecidableEq κ] (t : Table κ ρ) {k k' : κ} {r : ρ} :
    (t.erase k).lookup k' = some r ↔ t.lookup k' = some r ∧ ¬k' = k := by
  by_cases hk : k' = k
  · rw [hk, AList.lookup_erase]
    simp
  · rw [AList.lookup_erase_ne hk]
    exact (and_iff_left hk).symm

theorem openSession_inv (h : w.Inv compare) (x : Nat) (random : String) (fails : Bool) :
    (w.step lower hash compare (.openSession x random fails)).Inv compare := by
  dsimp only [World.step]
  split
  next user hplace =>
    have hgrounded := grounded_of_place h hplace
    split
    · exact idle_inv h
    refine h.next rfl rfl rfl rfl ?_ (h.keys.idle rfl fun _ _ h => h) (h.states.idle rfl fun _ _ h => h)
      (h.passwords.idle rfl fun _ _ h => h) ⟨rfl, hgrounded⟩ trivial h.directory
    exact h.sessions.issue rfl (fun k s hk _ => lookup_insert_iff w.sessions hk) (AList.lookup_insert w.sessions)
  · exact h

theorem logout_inv (h : w.Inv compare) (x : Nat) (cookie : String) :
    (w.step lower hash compare (.logout x cookie)).Inv compare := by
  dsimp only [World.step]
  split
  · split
    · exact h
    · refine h.next rfl rfl rfl rfl ?_ (h.keys.idle rfl fun _ _ h => h) (h.states.idle rfl fun _ _ h => h)
        (h.passwords.idle rfl fun _ _ h => h) trivial trivial h.directory
      exact h.sessions.withdraw rfl fun k s _ => lookup_erase_iff w.sessions
  · exact h

theorem endSessions_inv (h : w.Inv compare) (x : Nat) :
    (w.step lower hash compare (.endSessions x)).Inv compare := by
  dsimp only [World.step]
  split
  next user hplace =>
    have hgrounded := grounded_of_place h hplace
    refine h.next rfl rfl rfl rfl ?_ (h.keys.idle rfl fun _ _ h => h) (h.states.idle rfl fun _ _ h => h)
      (h.passwords.idle rfl fun _ _ h => h) hgrounded trivial h.directory
    refine h.sessions.withdraw rfl fun k s _ => ?_
    show (w.sessions.deleteRows _).lookup k = some s ↔ _ ∧ ¬s.userId = user
    rw [Table.lookup_deleteRows, Option.filter_eq_some_iff]
    simp
  · exact h

/-- Only rows that have expired go. -/
theorem lookup_dropExpired {ρ : Type} {expiresAt : ρ → Instant} {now : Instant} (t : Table String ρ) {k : String}
    {r : ρ} (hr : now < expiresAt r) :
    (t.deleteRows fun _ r => decide (expiresAt r < now)).lookup k = some r ↔ t.lookup k = some r := by
  rw [Table.lookup_deleteRows, Option.filter_eq_some_iff]
  refine and_iff_left ?_
  rw [Bool.not_eq_true', decide_eq_false_iff_not]
  exact not_lt_of_gt hr

/-- Expired sessions go. -/
theorem dropSessions_inv (h : w.Inv compare) : (w.step lower hash compare .dropSessions).Inv compare :=
  h.still rfl le_rfl (fun _ _ hs => lookup_dropExpired w.sessions hs) rfl (fun _ _ _ => Iff.rfl) rfl h.grounded
    h.directory

/-- Expired states go. -/
theorem dropStates_inv (h : w.Inv compare) : (w.step lower hash compare .dropStates).Inv compare :=
  h.still rfl le_rfl (fun _ _ _ => Iff.rfl) rfl (fun _ _ hs => lookup_dropExpired w.states hs) rfl h.grounded
    h.directory

/-- Time passes. -/
theorem tick_inv (h : w.Inv compare) (elapsed : Nat) : (w.step lower hash compare (.tick elapsed)).Inv compare :=
  h.still rfl (Int.le_add_of_nonneg_right (Int.natCast_nonneg elapsed)) (fun _ _ _ => Iff.rfl) rfl
    (fun _ _ _ => Iff.rfl) rfl h.grounded h.directory

theorem oidcLogin_inv (h : w.Inv compare) (x : Nat) (state verifier : String) :
    (w.step lower hash compare (.oidcLogin x state verifier)).Inv compare := by
  dsimp only [World.step]
  split
  · split
    · exact h
    · refine h.next rfl rfl rfl rfl (h.sessions.idle rfl fun _ _ h => h) (h.keys.idle rfl fun _ _ h => h) ?_
        (h.passwords.idle rfl fun _ _ h => h) rfl trivial h.directory
      exact h.states.issue rfl (fun k s hk _ => lookup_insert_iff w.states hk) (AList.lookup_insert w.states)
  · exact h

theorem callback_inv (h : w.Inv compare) (x : Nat) (state : String) :
    (w.step lower hash compare (.callback x state)).Inv compare := by
  dsimp only [World.step]
  split
  next s hplace hfound =>
    obtain ⟨hlookup, hlive⟩ := Option.filter_eq_some_iff.mp hfound
    have hlive : w.now < s.expiresAt := of_decide_eq_true hlive
    have hout : StateOut w.log (hash state) s := (h.states (hash state) s hlive).mp hlookup
    refine h.next rfl rfl rfl rfl (h.sessions.idle rfl fun _ _ h => h) (h.keys.idle rfl fun _ _ h => h) ?_
      (h.passwords.idle rfl fun _ _ h => h) ⟨hout, hlive⟩ (Or.inl ⟨hash state, s, rfl⟩) h.directory
    exact h.states.withdraw rfl fun k s' _ => lookup_erase_iff w.states
  · exact h

/-! ### Accounts. -/

theorem Directory.insert {accounts : Table Uuid SsoAccount} (h : Directory accounts) {user : Uuid} {a : SsoAccount}
    (hemail : ∀ other b, other ≠ user → accounts.lookup other = some b → b.email ≠ a.email)
    (hsubject : ∀ other b subject, other ≠ user → accounts.lookup other = some b → a.oidcSubject = some subject →
      b.oidcSubject ≠ some subject) : Directory (accounts.insert user a) := by
  have hrow : ∀ other b, (accounts.insert user a).lookup other = some b →
      other = user ∧ b = a ∨ other ≠ user ∧ accounts.lookup other = some b := by
    intro other b hb
    by_cases hother : other = user
    · rw [hother, AList.lookup_insert] at hb
      exact Or.inl ⟨hother, (Option.some.inj hb).symm⟩
    · rw [AList.lookup_insert_ne hother] at hb
      exact Or.inr ⟨hother, hb⟩
  constructor
  · intro u u' b b' hb hb' heq
    rcases hrow u b hb with ⟨rfl, rfl⟩ | ⟨hu, hrest⟩ <;> rcases hrow u' b' hb' with ⟨rfl, rfl⟩ | ⟨hu', hrest'⟩
    · rfl
    · exact absurd heq.symm (hemail u' b' hu' hrest')
    · exact absurd heq (hemail u b hu hrest)
    · exact h.emails u u' b b' hrest hrest' heq
  · intro u u' b b' subject hb hb' hs hs'
    rcases hrow u b hb with ⟨rfl, rfl⟩ | ⟨hu, hrest⟩ <;> rcases hrow u' b' hb' with ⟨rfl, rfl⟩ | ⟨hu', hrest'⟩
    · rfl
    · exact absurd hs' (hsubject u' b' subject hu' hrest' hs)
    · exact absurd hs (hsubject u b subject hu hrest hs')
    · exact h.subjects u u' b b' subject hrest hrest' hs hs'

/-- The passwords after an account was written. -/
theorem passwordOf_insert {user : Uuid} {a : SsoAccount} (haccounts : w'.accounts = w.accounts.insert user a)
    (other : Uuid) : w'.passwordOf other = if other = user then some a.passwordHash else w.passwordOf other := by
  unfold World.passwordOf
  rw [haccounts]
  split
  next hother =>
    rw [hother, AList.lookup_insert]
    rfl
  · next hother => rw [AList.lookup_insert_ne hother]

/-- An account is written with the password that the entry says. -/
theorem passwords_issue (h : w.Inv compare) {user : Uuid} {a : SsoAccount} {entry : Entry}
    (haccounts : w'.accounts = w.accounts.insert user a)
    (hissues : passwordEffect.issues entry = some (user, a.passwordHash)) :
    passwordEffect.Tracks (fun _ => True) w'.passwordOf (entry :: w.log) := by
  refine h.passwords.issue hissues (fun other r hother _ => ?_) ?_
  · rw [passwordOf_insert haccounts, if_neg hother]
    exact (and_iff_left id).symm
  · rw [passwordOf_insert haccounts, if_pos rfl]

/-- An account is written, its password is not. -/
theorem passwordOf_insert_same {user : Uuid} {a a' : SsoAccount} (ha : w.accounts.lookup user = some a)
    (hsame : a'.passwordHash = a.passwordHash) (haccounts : w'.accounts = w.accounts.insert user a') :
    w'.passwordOf = w.passwordOf := by
  funext other
  rw [passwordOf_insert haccounts]
  split
  next hother =>
    unfold World.passwordOf
    rw [hother, ha, hsame]
    rfl
  · rfl

/-- A new account, with a password. -/
theorem addAccount_inv (h : w.Inv compare) {user : Uuid} {a : Users.Account} {passwordHash : String} {how : How}
    (hemail : ∀ other b, w.accounts.lookup other = some b → b.email ≠ a.email)
    (hjustified : Justified compare ⟨x, w.now, .set user passwordHash how⟩ w.log) :
    ((w.addAccount x user a passwordHash how).setPlace x .idle).Inv compare := by
  refine h.next rfl rfl rfl rfl (h.sessions.idle rfl fun _ _ h => h) (h.keys.idle rfl fun _ _ h => h)
    (h.states.idle rfl fun _ _ h => h) (passwords_issue h rfl rfl) hjustified trivial ?_
  exact h.directory.insert (fun other b _ hb => hemail other b hb) fun other b subject _ _ hs => nomatch hs

theorem bootstrap_inv (h : w.Inv compare) (x : Nat) (email passwordHash : String) (newId : Uuid) :
    (w.step lower hash compare (.bootstrap x email passwordHash newId)).Inv compare := by
  dsimp only [World.step]
  split
  · split
    · exact h
    next hfree =>
      obtain ⟨hemail, hnew⟩ := not_or.mp hfree
      refine addAccount_inv h (fun other b hb heq => ?_) (not_passwordSet h hnew)
      have hfound := findRow_none (Option.not_isSome_iff_eq_none.mp hemail) hb
      exact absurd heq (of_decide_eq_false hfound)
  · exact h

/-- What `createUser` inserts. -/
theorem lookup_createUser {p : Principal} {readings : Users.UserReadings} {body : Except String Users.NewUser}
    {db : Users.UserDb} {a : Users.Account} (hnew : readings.newId ∉ db.accounts)
    (h : (Users.createUser lower p readings db body).2.accounts.lookup readings.newId = some a) :
    orgAdmin p = true ∧ db.emailTaken a.email = false := by
  have hnone : db.accounts.lookup readings.newId ≠ some a := by
    rw [AList.lookup_eq_none.mpr hnew]
    exact fun heq => nomatch heq
  unfold Users.createUser at h
  split at h
  · exact absurd h hnone
  next hgate =>
    refine ⟨by simpa using hgate, ?_⟩
    split at h
    · exact absurd h hnone
    split at h
    · exact absurd h hnone
    split at h
    · exact absurd h hnone
    split at h
    · exact absurd h hnone
    split at h
    · exact absurd h hnone
    · exact absurd h hnone
    split at h
    · exact absurd h hnone
    next hfree =>
      have hrow : (AList.insert readings.newId _ db.accounts).lookup readings.newId = some a := h
      rw [AList.lookup_insert] at hrow
      rw [← Option.some.inj hrow]
      exact Bool.eq_false_of_not_eq_true (not_or.mp hfree).2

theorem emailTaken_userDb {email : String} (h : w.userDb.emailTaken email = false) {user : Uuid} {a : SsoAccount}
    (ha : w.accounts.lookup user = some a) : a.email ≠ email := by
  have hrow : w.userDb.accounts.lookup user = some a.toAccount := by
    rw [lookup_userDb, ha]
    rfl
  have hnot := List.any_eq_false.mp h ⟨user, a.toAccount⟩ (AList.mem_lookup_iff.mp hrow)
  exact fun heq => hnot (decide_eq_true heq)

theorem createUser_inv (h : w.Inv compare) (x : Nat) (body : Except String Users.NewUser)
    (readings : Users.UserReadings) : (w.step lower hash compare (.createUser x body readings)).Inv compare := by
  dsimp only [World.step]
  split
  next p hplace =>
    have hgrounded := grounded_of_place h hplace
    split
    next a passwordHash hrow hhash =>
      split at hrow
      · cases hrow
      next hnew =>
        have hnew' : readings.newId ∉ w.userDb.accounts := by
          rw [← AList.lookup_eq_none, lookup_userDb, AList.lookup_eq_none.mpr hnew]
          rfl
        obtain ⟨hgate, hemail⟩ := lookup_createUser hnew' hrow
        refine addAccount_inv h (fun other b hb => emailTaken_userDb hemail hb)
          ⟨not_passwordSet h hnew, ?_⟩
        exact Since.imp hgrounded (fun _ hx => hx) fun e _ he => ⟨p, he, hgate⟩
    · exact idle_inv h
  · exact h

theorem subjectTaken_eq_false {subject : String} {user other : Uuid} {b : SsoAccount}
    (h : w.subjectTaken subject user = false) (hother : other ≠ user) (hb : w.accounts.lookup other = some b) :
    b.oidcSubject ≠ some subject := by
  have hnot := List.any_eq_false.mp h ⟨other, b⟩ (AList.mem_lookup_iff.mp hb)
  intro heq
  exact hnot (Bool.and_eq_true_iff.mpr ⟨decide_eq_true hother, decide_eq_true heq⟩)

/-- What the upsert writes. -/
theorem upsertAccount_eq_some {i : Identity} {newId user : Uuid} {new : Bool} {a : SsoAccount}
    (h : w.upsertAccount lower i newId = some (user, new, a)) :
    a.oidcSubject = some i.subject ∧ w.subjectTaken i.subject user = false
      ∧ (new = true ∧ user ∉ w.accounts ∧ a.passwordHash = none
          ∧ (∀ other b, w.accounts.lookup other = some b → b.email ≠ a.email)
        ∨ new = false ∧ ∃ old, w.accounts.lookup user = some old ∧ a.email = old.email
          ∧ a.passwordHash = old.passwordHash) := by
  unfold World.upsertAccount at h
  split at h
  next user' old hfound =>
    split at h
    · cases h
    next hsubject =>
      obtain ⟨rfl, hrest⟩ := Prod.mk.inj (Option.some.inj h)
      obtain ⟨rfl, rfl⟩ := Prod.mk.inj hrest
      exact ⟨rfl, Bool.eq_false_of_not_eq_true hsubject, Or.inr ⟨rfl, old, (findRow_some hfound).1, rfl, rfl⟩⟩
  next hnone =>
    split at h
    · cases h
    next hfree =>
      obtain ⟨hnew, hsubject⟩ := not_or.mp hfree
      obtain ⟨rfl, hrest⟩ := Prod.mk.inj (Option.some.inj h)
      obtain ⟨rfl, rfl⟩ := Prod.mk.inj hrest
      refine ⟨rfl, Bool.eq_false_of_not_eq_true hsubject, Or.inl ⟨rfl, hnew, rfl, fun other b hb heq => ?_⟩⟩
      have hother := findRow_none hnone hb
      exact absurd heq (of_decide_eq_false hother)

theorem signIn_inv (h : w.Inv compare) (x : Nat) (exchange : String → Except Refusal IdToken) (newId : Uuid)
    (written : Written) : (w.step lower hash compare (.signIn x exchange newId written)).Inv compare := by
  dsimp only [World.step]
  split
  next verifier hplace =>
    have hgrounded := grounded_of_place h hplace
    split
    · exact idle_inv h
    next i hidentity =>
      split
      · exact idle_inv h
      next user new a hupsert =>
        split
        · exact idle_inv h
        obtain ⟨hsubject, hfree, hrow⟩ := upsertAccount_eq_some hupsert
        have hplaced : (if written = Written.lost then Place.idle else Place.signingIn user).Grounded x
            (⟨x, w.now, .linked user i.subject new⟩ :: w.log) := by
          split
          · trivial
          · exact Or.inl rfl
        have hsubjects : ∀ other b subject, other ≠ user → w.accounts.lookup other = some b →
            a.oidcSubject = some subject → b.oidcSubject ≠ some subject := by
          intro other b subject hother hb hs
          rw [hsubject] at hs
          rw [← Option.some.inj hs]
          exact subjectTaken_eq_false hfree hother hb
        rcases hrow with ⟨rfl, hnew, hhash, hemail⟩ | ⟨rfl, old, hold, hemail, hhash⟩
        · refine h.next rfl rfl rfl rfl (h.sessions.idle rfl fun _ _ h => h) (h.keys.idle rfl fun _ _ h => h)
            (h.states.idle rfl fun _ _ h => h) (passwords_issue h rfl (by rw [hhash]; rfl))
            ⟨hgrounded, iff_of_true rfl (not_passwordSet h hnew)⟩ hplaced ?_
          exact h.directory.insert (fun other b _ hb => hemail other b hb) hsubjects
        · refine h.next rfl rfl rfl rfl (h.sessions.idle rfl fun _ _ h => h) (h.keys.idle rfl fun _ _ h => h)
            (h.states.idle rfl fun _ _ h => h) ?_ ⟨hgrounded, ?_⟩ hplaced ?_
          · have hidle := h.passwords.idle (e := ⟨x, w.now, .linked user i.subject false⟩) rfl fun _ _ h => h
            have hsame : World.passwordOf { w with accounts := w.accounts.insert user a } = w.passwordOf :=
              passwordOf_insert_same hold hhash rfl
            rw [← hsame] at hidle
            exact hidle
          · refine iff_of_false Bool.false_ne_true fun hnone => ?_
            exact hnone old.passwordHash (passwordSet_of_lookup h hold)
          · refine h.directory.insert (fun other b hother hb heq => ?_) hsubjects
            rw [hemail] at heq
            exact hother (h.directory.emails other user b old hb hold heq)
  · exact h

/-- An account is written by its id. -/
theorem writeAccount_inv (h : w.Inv compare) {user : Uuid} {f : SsoAccount → SsoAccount} {newHash : Option String}
    {how : How} {place : Place} (hemail : ∀ a, (f a).email = a.email)
    (hsubject : ∀ a, (f a).oidcSubject = a.oidcSubject)
    (hjustified : ∀ passwordHash, newHash = some passwordHash →
      Justified compare ⟨x, w.now, .set user passwordHash how⟩ w.log)
    (hplace : place ≠ .idle → ∃ passwordHash, newHash = some passwordHash ∧ user ∈ w.accounts
      ∧ place.Grounded x (⟨x, w.now, .set user passwordHash how⟩ :: w.log)) :
    ((w.writeAccount x user f newHash how).setPlace x place).Inv compare := by
  unfold World.writeAccount
  split
  next hnone =>
    refine setPlace_inv h ?_
    by_cases hidle : place = .idle
    · rw [hidle]
      trivial
    · obtain ⟨-, -, hmem, -⟩ := hplace hidle
      exact absurd hmem (AList.lookup_eq_none.mp hnone)
  next a ha =>
    have hdirectory : Directory (w.accounts.insert user { f a with passwordHash := newHash.or a.passwordHash }) := by
      refine h.directory.insert (fun other b hother hb heq => ?_) fun other b subject hother hb hs hs' => ?_
      · have heq : b.email = (f a).email := heq
        rw [hemail] at heq
        exact hother (h.directory.emails other user b a hb ha heq)
      · have hs : (f a).oidcSubject = some subject := hs
        rw [hsubject] at hs
        exact hother (h.directory.subjects other user b a subject hb ha hs' hs)
    cases newHash with
    | none =>
      have hidle : place = .idle := by
        by_contra hne
        obtain ⟨passwordHash, hnew, -⟩ := hplace hne
        cases hnew
      rw [hidle]
      have hkept : ({ f a with passwordHash := Option.or none a.passwordHash } : SsoAccount).passwordHash
          = a.passwordHash := rfl
      exact idle_inv (h.still rfl le_rfl (fun _ _ _ => Iff.rfl) rfl (fun _ _ _ => Iff.rfl)
        (passwordOf_insert_same ha hkept rfl) h.grounded hdirectory)
    | some passwordHash =>
      refine h.next rfl rfl rfl rfl (h.sessions.idle rfl fun _ _ h => h) (h.keys.idle rfl fun _ _ h => h)
        (h.states.idle rfl fun _ _ h => h) (passwords_issue h rfl rfl) (hjustified passwordHash rfl) ?_ hdirectory
      by_cases hidle : place = .idle
      · rw [hidle]
        trivial
      · obtain ⟨passwordHash', hnew, -, hgrounded⟩ := hplace hidle
        rw [Option.some.inj hnew]
        exact hgrounded

/-- The profile is saved. -/
theorem writeMe_inv (h : w.Inv compare) (x : Nat) : (w.step lower hash compare (.writeMe x)).Inv compare := by
  dsimp only [World.step]
  split
  next p body newHash hplace =>
    have hgrounded := grounded_of_place h hplace
    refine writeAccount_inv h (fun _ => rfl) (fun _ => rfl) (fun passwordHash hnew => ?_) fun hne => absurd rfl hne
    exact hgrounded (by rw [hnew]; rfl)
  · exact h

/-- The account whose password may be replaced is there. -/
theorem mem_of_resetting (h : w.Inv compare) {user : Uuid}
    (hlast : LastOf x (fun e _ => ∃ p, e.event = .resetting p user) w.log) : user ∈ w.accounts := by
  have hset : ∃ passwordHash, PasswordSet w.log user passwordHash := by
    refine Since.stays (C := fun log => ∃ passwordHash, PasswordSet log user passwordHash)
      (Since.and_throughout hlast h.justified) (fun e older he => ?_) fun e older =>
      Effect.exists_issued_cons fun _ => id
    obtain ⟨⟨p, hp⟩, hjustified⟩ := he
    unfold Justified at hjustified
    rw [hp] at hjustified
    exact hjustified.2.2.2
  obtain ⟨passwordHash, hset⟩ := hset
  have hlookup := (h.passwords user passwordHash trivial).mpr hset
  obtain ⟨a, ha, -⟩ := Option.map_eq_some_iff.mp hlookup
  exact AList.lookup_isSome.mp (by rw [ha]; rfl)

theorem writeUser_inv (h : w.Inv compare) (x : Nat) (lost : Bool) :
    (w.step lower hash compare (.writeUser x lost)).Inv compare := by
  dsimp only [World.step]
  split
  next user body newHash hplace =>
    have hgrounded := grounded_of_place h hplace
    refine writeAccount_inv h (fun _ => rfl) (fun _ => rfl)
      (fun passwordHash hnew => hgrounded (by rw [hnew]; rfl)) fun hne => ?_
    cases newHash with
    | none => exact absurd (if_pos (Or.inr rfl)) hne
    | some passwordHash =>
      refine ⟨passwordHash, rfl, mem_of_resetting h (hgrounded rfl), ?_⟩
      split
      · trivial
      · exact Or.inl ⟨passwordHash, rfl⟩
  · exact h

/-! ### Keys. -/

/-- The rows that are revoked, and those that are not. -/
theorem liveKey_revoke {id user : Uuid} {keyHash : String} {k : ApiKey} :
    ((w.revokeKey id user).lookup keyHash).filter (fun k => !k.revoked) = some k
      ↔ w.liveKey keyHash = some k ∧ ¬(k.id = id ∧ k.userId = user) := by
  unfold World.revokeKey World.liveKey
  rw [Table.lookup_modifyRows, Option.filter_eq_some_iff, Option.filter_eq_some_iff]
  constructor
  · rintro ⟨hrow, hlive⟩
    obtain ⟨old, hold, hwritten⟩ := Option.map_eq_some_iff.mp hrow
    split at hwritten
    · rw [← hwritten] at hlive
      cases hlive
    next hother =>
      rw [← hwritten]
      exact ⟨⟨hold, by rw [hwritten]; exact hlive⟩, hother⟩
  · rintro ⟨⟨hrow, hlive⟩, hother⟩
    rw [hrow]
    exact ⟨congrArg some (if_neg hother), hlive⟩

theorem createKey_inv (h : w.Inv compare) (x : Nat) (name : String) (days : Int) (clock : Instant) (random : String)
    (newId : Uuid) : (w.step lower hash compare (.createKey x name days clock random newId)).Inv compare := by
  dsimp only [World.step]
  split
  next p hplace =>
    have hgrounded := grounded_of_place h hplace
    split
    · exact idle_inv h
    next hfree =>
      have hconsole := atConsole_of_last hgrounded (not_or.mp hfree).1
      refine h.next rfl rfl rfl rfl (h.sessions.idle rfl fun _ _ h => h) ?_ (h.states.idle rfl fun _ _ h => h)
        (h.passwords.idle rfl fun _ _ h => h) ⟨rfl, hconsole⟩ trivial h.directory
      refine h.keys.issue rfl (fun keyHash k hk _ => ?_) ?_
      · show (AList.lookup keyHash (AList.insert _ _ w.keys)).filter _ = some k ↔ _
        rw [AList.lookup_insert_ne hk]
        exact (and_iff_left id).symm
      · show (AList.lookup _ (AList.insert _ _ w.keys)).filter _ = some _
        rw [AList.lookup_insert]
        rfl
  · exact h

theorem deleteKey_inv (h : w.Inv compare) (x : Nat) (id : Uuid) :
    (w.step lower hash compare (.deleteKey x id)).Inv compare := by
  dsimp only [World.step]
  split
  next p hplace =>
    have hgrounded := grounded_of_place h hplace
    split
    · exact idle_inv h
    next hfree =>
      have hconsole := atConsole_of_last hgrounded (not_or.mp hfree).1
      exact h.next rfl rfl rfl rfl (h.sessions.idle rfl fun _ _ h => h)
        (h.keys.withdraw rfl fun keyHash k _ => liveKey_revoke) (h.states.idle rfl fun _ _ h => h)
        (h.passwords.idle rfl fun _ _ h => h) hconsole trivial h.directory
  · exact h

theorem rotateKey_inv (h : w.Inv compare) (x : Nat) (id : Uuid) (random : String) (newId : Uuid) :
    (w.step lower hash compare (.rotateKey x id random newId)).Inv compare := by
  dsimp only [World.step]
  split
  next p hplace =>
    have hgrounded := grounded_of_place h hplace
    split
    · exact idle_inv h
    next oldHash old hfound =>
      obtain ⟨hrow, hown⟩ := findRow_some hfound
      obtain ⟨hids, hlive⟩ := Bool.and_eq_true_iff.mp hown
      obtain ⟨rfl, huser⟩ := of_decide_eq_true hids
      split
      · exact idle_inv h
      next hfree =>
        have hconsole := atConsole_of_last hgrounded (not_or.mp hfree).1
        rw [← huser] at hconsole
        have hout : KeyOut w.log oldHash old :=
          (h.keys oldHash old trivial).mp (Option.filter_eq_some_iff.mpr ⟨hrow, hlive⟩)
        refine h.next rfl rfl rfl rfl (h.sessions.idle rfl fun _ _ h => h) ?_
          (h.states.idle rfl fun _ _ h => h) (h.passwords.idle rfl fun _ _ h => h)
          ⟨⟨oldHash, old, hout, rfl, rfl⟩, hconsole⟩ trivial h.directory
        refine h.keys.issue rfl (fun keyHash k hk _ => ?_) ?_
        · show (AList.lookup keyHash (AList.insert _ _ (w.revokeKey old.id p.id))).filter _ = some k
            ↔ _ ∧ ¬(k.id = old.id ∧ k.userId = old.userId)
          rw [AList.lookup_insert_ne hk, huser]
          exact liveKey_revoke
        · show (AList.lookup _ (AList.insert _ _ (w.revokeKey old.id p.id))).filter _ = some _
          rw [AList.lookup_insert]
          exact Option.filter_some_pos hlive
  · exact h

/-! ## §9. Runs. -/

/-- **Every statement keeps the invariant.** -/
theorem step_inv (h : w.Inv compare) (action : Action) : (w.step lower hash compare action).Inv compare := by
  cases action with
  | tick elapsed => exact tick_inv h elapsed
  | bootstrap x email passwordHash newId => exact bootstrap_inv h x email passwordHash newId
  | login x email password => exact login_inv h x email password
  | openSession x random fails => exact openSession_inv h x random fails
  | oidcLogin x state verifier => exact oidcLogin_inv h x state verifier
  | callback x state => exact callback_inv h x state
  | signIn x exchange newId written => exact signIn_inv h x exchange newId written
  | authenticate x authorization cookie => exact authenticate_inv h x authorization cookie
  | logout x cookie => exact logout_inv h x cookie
  | createKey x name days clock random newId => exact createKey_inv h x name days clock random newId
  | deleteKey x id => exact deleteKey_inv h x id
  | rotateKey x id random newId => exact rotateKey_inv h x id random newId
  | updateMe x body readings => exact updateMe_inv h x body readings
  | writeMe x => exact writeMe_inv h x
  | createUser x body readings => exact createUser_inv h x body readings
  | updateUser x id body readings => exact updateUser_inv h x id body readings
  | writeUser x lost => exact writeUser_inv h x lost
  | endSessions x => exact endSessions_inv h x
  | dropSessions => exact dropSessions_inv h
  | dropStates => exact dropStates_inv h
  | abandon x => exact idle_inv h

theorem initial_inv (now : Instant) : (World.initial now).Inv compare where
  sessions := Effect.tracks_nil
  keys := Effect.tracks_nil
  states := Effect.tracks_nil
  passwords := Effect.tracks_nil
  justified := trivial
  grounded _ := trivial
  directory := ⟨fun _ _ _ _ h => (nomatch h), fun _ _ _ _ _ h => (nomatch h)⟩

theorem made_between {newer between older : List Entry} {e e' : Entry} {stateHash : String} {s s' : OidcState}
    (h : Throughout (Justified compare) (newer ++ e :: (between ++ e' :: older)))
    (he : e.event = .used stateHash s) (he' : e'.event = .used stateHash s') :
    ∃ e'' ∈ between, e''.event = .made stateHash s := by
  have hjustified := h.at
  unfold Justified at hjustified
  rw [he] at hjustified
  have hout : StateOut (between ++ e' :: older) stateHash s := hjustified.1
  have hused : ¬((∀ r, stateEffect.issues e' ≠ some (stateHash, r)) ∧ ¬stateEffect.withdraws e' stateHash s) := by
    unfold stateEffect
    simp only [he']
    exact fun hkept => hkept.2 trivial
  have hissues : stateEffect.issues e' ≠ some (stateHash, s) := by
    unfold stateEffect
    simp only [he']
    exact fun heq => nomatch heq
  obtain ⟨e'', hmem, -, hmade⟩ := Since.of_append hout hused hissues
  refine ⟨e'', hmem, ?_⟩
  unfold stateEffect at hmade
  cases hevent : e''.event with
  | made stateHash' s'' =>
    simp only [hevent] at hmade
    obtain ⟨rfl, rfl⟩ := Prod.mk.inj (Option.some.inj hmade)
    rfl
  | _ =>
    simp only [hevent] at hmade
    cases hmade

theorem sound_of_inv (h : w.Inv compare) : w.Sound compare hash where
  sessions token p htoken hkey := by
    rw [authenticate_session htoken hkey]
    constructor
    · rintro ⟨s, a, hs, hlive, hrest⟩
      exact ⟨s, a, (h.sessions (hash token) s hlive).mp hs, hlive, hrest⟩
    · rintro ⟨s, a, hs, hlive, hrest⟩
      exact ⟨s, a, (h.sessions (hash token) s hlive).mpr hs, hlive, hrest⟩
  keys token p hkey := by
    rw [authenticate_key hkey]
    constructor
    · rintro ⟨k, a, hk, hrest⟩
      exact ⟨k, a, (h.keys (hash token) k trivial).mp hk, hrest⟩
    · rintro ⟨k, a, hk, hrest⟩
      exact ⟨k, a, (h.keys (hash token) k trivial).mpr hk, hrest⟩
  passwords user passwordHash := (h.passwords user passwordHash trivial).symm
  justified := h.justified
  once newer e between e' older stateHash s s' hlog he he' := by
    have hjustified := h.justified
    rw [hlog] at hjustified
    exact made_between hjustified he he'
  emails := h.directory.emails
  subjects := h.directory.subjects

theorem run_inv (lower hash : String → String) (compare : String → String → Bool) (now : Instant)
    (actions : List Action) : (actions.foldl (World.step lower hash compare) (World.initial now)).Inv compare := by
  have hrun : ∀ (actions : List Action) (w : World), w.Inv compare →
      (actions.foldl (World.step lower hash compare) w).Inv compare := by
    intro actions
    induction actions with
    | nil => exact fun w h => h
    | cons action actions ih => exact fun w h => ih _ (step_inv h action)
  exact hrun actions _ (initial_inv now)

/-- **Who is signed in, in any order of requests.**  A token is accepted exactly where the
history says so; every entry of the history has its right from those before it. -/
theorem credentials_sound (lower hash : String → String) (compare : String → String → Bool) (now : Instant)
    (actions : List Action) :
    (actions.foldl (World.step lower hash compare) (World.initial now)).Sound compare hash :=
  sound_of_inv (run_inv lower hash compare now actions)

end

end Momento.Credentials
