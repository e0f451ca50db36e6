/-
  Momento.Service.UserAdministration

  **WHO MAY MAKE WHOM WHAT.**  An administrator creates accounts and changes those that
  exist.  `updateUser` reads the role of an account, compares it, and writes the account,
  its sessions and its memberships in statements of their own; the statements of
  different requests come in any order.

  The requests of callers whose rank is at most `r` make no account of a higher rank, so
  one that was not above `r` when it was read is not above it when it is written.
-/
import Momento.Foundation.Table
import Momento.Model.Event
import Momento.Service.Roles

namespace Momento.Users

open Foundation

/-! ## §1. Tables and requests. -/

/-- A row of `users`. -/
structure Account where
  email : String
  displayName : String
  department : String
  organizationName : String
  role : String
  active : Bool
  passwordHash : Option String

/-- `users` and their sessions. -/
structure UserDb where
  accounts : Table Uuid Account
  /-- `user_sessions`: the session, its user. -/
  sessions : Table Uuid Uuid
  /-- `user_workspace_roles`: the user and the workspace, the role. -/
  memberships : Table (Uuid × Uuid) String
  /-- `workspaces`, by their time of creation. -/
  workspaces : List Uuid

/-- The body of `createUser`. -/
structure NewUser where
  email : String
  displayName : String
  department : String
  organizationName : String
  role : String
  password : String

/-- The body of `updateUser`. -/
structure UserUpdate where
  displayName : String
  department : String
  organizationName : String
  role : String
  active : Option Bool
  password : String

/-- A request; its body may not decode, its path id may not parse. -/
inductive UserRequest where
  | createUser (body : Except String NewUser)
  | updateUser (id : Option Uuid) (body : Except String UserUpdate)

/-- What a request is answered. -/
inductive Answer where
  | refused (refusal : Refusal)
  | created (id : Uuid)
  | updated

/-- Where a request stands. -/
inductive Stage where
  | received
  /-- The account is there, its membership is to be written. -/
  | inserted (id : Uuid) (body : NewUser)
  /-- The account may be administered; it is to be written. -/
  | admitted (id : Uuid) (body : UserUpdate) (newHash : Option String)
  /-- The password is replaced; the sessions are to be ended. -/
  | ending (id : Uuid) (body : UserUpdate)
  /-- The memberships are to be written. -/
  | placing (id : Uuid) (body : UserUpdate)
  | answered (answer : Answer)

/-- A request under way. -/
structure Call where
  principal : Principal
  request : UserRequest
  stage : Stage

/-- The database, and the requests on it. -/
structure UserWorld where
  db : UserDb
  calls : List Call

/-- What a statement meets: a failure, the id a new row draws, the hash of a password. -/
structure UserReadings where
  fails : Option String
  newId : Uuid
  hash : Except String String

/-! ## §2. The guards. -/

/-- `validRole`. -/
def validRole (role : String) : Bool :=
  role ∈ ["super_admin", "organization_admin", "workspace_admin", "analyst", "viewer"]

/-- `PasswordProblem`. -/
def passwordProblem (password : String) : String :=
  if password.length < 12 then "password must be at least 12 characters"
  else if 72 < password.utf8ByteSize then "password must be at most 72 bytes"
  else ""

/-- A request is refused. -/
def refuse (status : Nat) (code message : String) : Stage := .answered (.refused ⟨status, code, message⟩)

namespace UserDb
variable (db : UserDb)

/-- `UNIQUE(email)` refuses the address. -/
def emailTaken (email : String) : Bool := db.accounts.entries.any fun e => e.2.email = email

/-- `INSERT INTO user_workspace_roles … ON CONFLICT DO UPDATE`, in the first workspace; a
user that is not there violates its reference. -/
def join (id : Uuid) (role : String) : UserDb :=
  match db.workspaces with
  | [] => db
  | workspace :: _ =>
    if id ∈ db.accounts then { db with memberships := AList.insert (id, workspace) role db.memberships } else db

/-- `DELETE FROM user_workspace_roles WHERE user_id=$1`. -/
def leave (id : Uuid) : UserDb := { db with memberships := db.memberships.deleteRows fun k _ => k.1 = id }

/-- `DELETE FROM user_sessions WHERE user_id=$1`. -/
def endSessions (id : Uuid) : UserDb := { db with sessions := db.sessions.deleteRows fun _ user => user = id }

/-- `UPDATE users SET … WHERE id=$1`. -/
def writeAccount (id : Uuid) (body : UserUpdate) (newHash : Option String) : UserDb :=
  { db with accounts := db.accounts.modifyRows fun k a =>
      if k = id then
        { a with
          displayName := body.displayName
          department := body.department
          organizationName := body.organizationName
          role := body.role
          active := body.active.getD a.active
          passwordHash := newHash.or a.passwordHash }
      else a }

end UserDb

/-! ## §3. The two handlers, statement by statement. -/

section
variable (lower : String → String) (p : Principal) (readings : UserReadings) (db : UserDb)

/-- `createUser`, up to its `INSERT INTO users`; `lower` is PostgreSQL's. -/
def createUser (body : Except String NewUser) : Stage × UserDb :=
  if !orgAdmin p then (refuse 403 "FORBIDDEN" "organization administrator permission required", db)
  else match body with
    | .error message => (refuse 400 "INVALID_PAYLOAD" message, db)
    | .ok body =>
      if !validRole body.role then
        (refuse 400 "INVALID_USER" "valid role and password of at least 12 characters are required", db)
      else if passwordProblem body.password ≠ "" then
        (refuse 400 "INVALID_USER" (passwordProblem body.password), db)
      else if roleAbove body.role p.role then
        (refuse 403 "ROLE_ABOVE_CALLER" "you cannot create an account with more authority than your own", db)
      else match readings.hash, readings.fails with
        | .error message, _ => (refuse 500 "USER_CREATE_FAILED" message, db)
        | .ok _, some message => (refuse 409 "USER_CREATE_FAILED" message, db)
        | .ok hash, none =>
          if readings.newId ∈ db.accounts ∨ db.emailTaken (lower body.email) then
            (refuse 409 "USER_CREATE_FAILED" "ERROR: duplicate key value violates unique constraint (SQLSTATE 23505)",
              db)
          else
            let account : Account := ⟨lower body.email, body.displayName, body.department, body.organizationName,
              body.role, true, some hash⟩
            (if isInstanceWide body.role then .answered (.created readings.newId)
              else .inserted readings.newId body,
              { db with accounts := AList.insert readings.newId account db.accounts })

/-- The new hash of `updateUser`, or why there is none. -/
def settlePassword (id : Uuid) (body : UserUpdate) : Except Refusal (Option String) :=
  if body.password = "" then .ok none
  else if id = p.id then
    .error ⟨400, "SELF_PASSWORD", "change your own password from your profile, where the current one is asked for"⟩
  else if passwordProblem body.password ≠ "" then .error ⟨400, "WEAK_PASSWORD", passwordProblem body.password⟩
  else match readings.hash with
    | .error message => .error ⟨500, "USER_UPDATE_FAILED", message⟩
    | .ok hash => .ok (some hash)

/-- `updateUser`, up to the `UPDATE`: the account's role is read. -/
def updateUser (id : Option Uuid) (body : Except String UserUpdate) : Stage :=
  if !orgAdmin p then refuse 403 "FORBIDDEN" "organization administrator permission required"
  else match id, body with
    | none, _ => refuse 400 "INVALID_ID" "invalid user id"
    | some _, .error message => refuse 400 "INVALID_PAYLOAD" message
    | some id, .ok body =>
      if !validRole body.role then refuse 400 "INVALID_ROLE" "role is invalid"
      else if id = p.id ∧ body.active = some false then
        refuse 400 "SELF_DISABLE" "you cannot disable your own account"
      else if roleAbove body.role p.role then
        refuse 403 "ROLE_ABOVE_CALLER" "you cannot grant more authority than your own"
      else match readings.fails, db.accounts.lookup id with
        | some message, _ => refuse 500 "QUERY_FAILED" message
        | none, none => refuse 404 "USER_NOT_FOUND" "user not found"
        | none, some account =>
          if roleAbove account.role p.role then
            refuse 403 "ROLE_ABOVE_CALLER" "you cannot administer an account with more authority than your own"
          else if id = p.id ∧ account.role ≠ body.role then
            refuse 400 "SELF_ROLE" "you cannot change your own role"
          else match settlePassword p readings id body with
            | .error refusal => .answered (.refused refusal)
            | .ok newHash => .admitted id body newHash

/-- The next statement of a request. -/
def Call.advance (call : Call) : Stage × UserDb :=
  match call.stage with
  | .received =>
    match call.request with
    | .createUser body => createUser lower call.principal readings db body
    | .updateUser id body => (updateUser call.principal readings db id body, db)
  | .inserted id body =>
    (.answered (.created id), if readings.fails.isNone then db.join id body.role else db)
  | .admitted id body newHash =>
    match readings.fails with
    | some message => (refuse 500 "USER_UPDATE_FAILED" message, db)
    | none => (if newHash.isSome then .ending id body else .placing id body, db.writeAccount id body newHash)
  | .ending id body => (.placing id body, if readings.fails.isNone then db.endSessions id else db)
  | .placing id body =>
    (.answered .updated,
      if readings.fails.isNone then (if isInstanceWide body.role then db.leave id else db.join id body.role) else db)
  | .answered answer => (.answered answer, db)

end

/-- The next statement of request `i`. -/
structure UserAction where
  i : Nat
  readings : UserReadings

namespace UserWorld
variable (lower : String → String) (w : UserWorld)

/-- **A step.** -/
def step (a : UserAction) : UserWorld :=
  match w.calls[a.i]? with
  | none => w
  | some call =>
    let (stage, db) := call.advance lower a.readings w.db
    ⟨db, w.calls.set a.i { call with stage := stage }⟩

/-- The steps in order. -/
def run (actions : List UserAction) : UserWorld := actions.foldl (step lower) w

/-- Requests that have not started. -/
def start (db : UserDb) (requests : List (Principal × UserRequest)) : UserWorld :=
  ⟨db, requests.map fun r => ⟨r.1, r.2, .received⟩⟩

end UserWorld

/-! ## §4. What one statement may do. -/

/-- The account, its sessions and its memberships are as they were. -/
structure Unaltered (db db' : UserDb) (id : Uuid) : Prop where
  account : db'.accounts.lookup id = db.accounts.lookup id
  sessions : ∀ session, db'.sessions.lookup session = some id ↔ db.sessions.lookup session = some id
  memberships : ∀ workspace, db'.memberships.lookup (id, workspace) = db.memberships.lookup (id, workspace)

/-- The account, if there is one, has at most the rank `r`. -/
def AtMost (r : Nat) (db : UserDb) (id : Uuid) : Prop :=
  ∀ a, db.accounts.lookup id = some a → roleRank a.role ≤ r

/-- **A write within bounds**: what is above `r` was, and is left alone. -/
structure Bounded (r : Nat) (db db' : UserDb) : Prop where
  gained : ∀ id a, db'.accounts.lookup id = some a → r < roleRank a.role → db.accounts.lookup id = some a
  kept : ∀ id a, db.accounts.lookup id = some a → r < roleRank a.role → Unaltered db db' id

section
variable {r : Nat} {db db' : UserDb}

theorem Bounded.refl (r : Nat) (db : UserDb) : Bounded r db db :=
  ⟨fun _ _ h _ => h, fun _ _ _ _ => ⟨rfl, fun _ => Iff.rfl, fun _ => rfl⟩⟩

theorem Bounded.atMost (h : Bounded r db db') {id : Uuid} (hid : AtMost r db id) : AtMost r db' id := by
  intro a ha
  by_contra habove
  rw [not_le] at habove
  have hbefore := hid a (h.gained id a ha habove)
  omega

/-- An account above the bound is another one than the target. -/
theorem ne_of_atMost {target id : Uuid} {a : Account} (htarget : AtMost r db target)
    (ha : db.accounts.lookup id = some a) (habove : r < roleRank a.role) : id ≠ target := by
  rintro rfl
  have := htarget a ha
  omega

theorem bounded_insert {id : Uuid} {account : Account} (hnew : id ∉ db.accounts) (hrank : roleRank account.role ≤ r) :
    Bounded r db { db with accounts := AList.insert id account db.accounts } := by
  constructor
  · intro other a ha habove
    by_cases hid : other = id
    · rw [hid, AList.lookup_insert] at ha
      obtain rfl := Option.some.inj ha
      omega
    · rw [AList.lookup_insert_ne hid] at ha
      exact ha
  · intro other a ha habove
    have hid : other ≠ id := by
      rintro rfl
      rw [AList.lookup_eq_none.mpr hnew] at ha
      cases ha
    exact ⟨AList.lookup_insert_ne hid, fun _ => Iff.rfl, fun _ => rfl⟩

theorem bounded_writeAccount {id : Uuid} (hid : AtMost r db id) {body : UserUpdate} (hrank : roleRank body.role ≤ r)
    (newHash : Option String) : Bounded r db (db.writeAccount id body newHash) := by
  have hlookup : ∀ other, other ≠ id →
      (db.writeAccount id body newHash).accounts.lookup other = db.accounts.lookup other := by
    intro other hne
    show (db.accounts.modifyRows _).lookup other = _
    rw [Table.lookup_modifyRows]
    cases db.accounts.lookup other with
    | none => rfl
    | some a =>
      show some (if other = id then _ else a) = some a
      rw [if_neg hne]
  constructor
  · intro other a ha habove
    by_cases hother : other = id
    · -- The account that is written has the role that was granted.
      have hrow : (db.accounts.modifyRows _).lookup other = some a := ha
      rw [Table.lookup_modifyRows] at hrow
      obtain ⟨old, -, hwritten⟩ := Option.map_eq_some_iff.mp hrow
      rw [if_pos hother] at hwritten
      have hrole : a.role = body.role := by rw [← hwritten]
      rw [hrole] at habove
      omega
    · rw [hlookup other hother] at ha
      exact ha
  · intro other a ha habove
    exact ⟨hlookup other (ne_of_atMost hid ha habove), fun _ => Iff.rfl, fun _ => rfl⟩

theorem bounded_endSessions {id : Uuid} (hid : AtMost r db id) : Bounded r db (db.endSessions id) := by
  refine ⟨fun _ _ h _ => h, fun other a ha habove => ⟨rfl, fun session => ?_, fun _ => rfl⟩⟩
  have hne := ne_of_atMost hid ha habove
  show (db.sessions.deleteRows _).lookup session = some other ↔ _
  rw [Table.lookup_deleteRows]
  constructor
  · intro h
    exact (Option.filter_eq_some_iff.mp h).1
  · intro h
    rw [h]
    simp [hne]

theorem bounded_leave {id : Uuid} (hid : AtMost r db id) : Bounded r db (db.leave id) := by
  refine ⟨fun _ _ h _ => h, fun other a ha habove => ⟨rfl, fun _ => Iff.rfl, fun workspace => ?_⟩⟩
  have hne := ne_of_atMost hid ha habove
  show (db.memberships.deleteRows _).lookup (other, workspace) = _
  rw [Table.lookup_deleteRows]
  cases db.memberships.lookup (other, workspace) with
  | none => rfl
  | some role => simp [hne]

theorem bounded_join {id : Uuid} (hid : AtMost r db id) (role : String) : Bounded r db (db.join id role) := by
  unfold UserDb.join
  split
  · exact Bounded.refl r db
  next workspace rest hworkspaces =>
    split
    · refine ⟨fun _ _ h _ => h, fun other a ha habove => ⟨rfl, fun _ => Iff.rfl, fun place => ?_⟩⟩
      have hne : (other, place) ≠ (id, workspace) := by
        intro h
        exact ne_of_atMost hid ha habove (Prod.mk.inj h).1
      exact AList.lookup_insert_ne hne
    · exact Bounded.refl r db

end

/-! ## §5. The requests. -/

/-- The account a request has still to write. -/
def Stage.target : Stage → Option Uuid
  | .inserted id _ => some id
  | .admitted id _ _ => some id
  | .ending id _ => some id
  | .placing id _ => some id
  | _ => none

/-- The role an `UPDATE` has still to write. -/
def Stage.grants : Stage → Option String
  | .admitted _ body _ => some body.role
  | _ => none

theorem not_roleAbove {role callerRole : String} (h : ¬roleAbove role callerRole = true) :
    roleRank role ≤ roleRank callerRole := by
  unfold roleAbove at h
  simpa using h

/-- What one statement of a request leaves: a write within the bounds of its caller, and
a next one that is within them too. -/
structure Sensible (r : Nat) (db : UserDb) (result : Stage × UserDb) : Prop where
  bounded : Bounded r db result.2
  target : ∀ id, result.1.target = some id → AtMost r result.2 id
  grants : ∀ role, result.1.grants = some role → roleRank role ≤ r

theorem Sensible.answered {r : Nat} {db db' : UserDb} (h : Bounded r db db') (answer : Answer) :
    Sensible r db (.answered answer, db') := ⟨h, (fun _ h => nomatch h), fun _ h => nomatch h⟩

section
variable {lower : String → String} {p : Principal} {readings : UserReadings} {db : UserDb} {r : Nat}

theorem createUser_sensible (hp : roleRank p.role ≤ r) (body : Except String NewUser) :
    Sensible r db (createUser lower p readings db body) := by
  have hrefuse := fun answer => Sensible.answered (Bounded.refl r db) answer
  unfold createUser
  split
  · exact hrefuse _
  cases body with
  | error message => exact hrefuse _
  | ok body =>
    dsimp only
    split
    · exact hrefuse _
    split
    · exact hrefuse _
    split
    · exact hrefuse _
    next hrole =>
      have hrank := not_roleAbove hrole
      split
      · exact hrefuse _
      · exact hrefuse _
      next hash _ _ =>
        split
        · exact hrefuse _
        next hfree =>
          rw [not_or] at hfree
          have hbounded : ∀ account : Account, account.role = body.role →
              Bounded r db { db with accounts := AList.insert readings.newId account db.accounts } :=
            fun account h => bounded_insert hfree.1 (h ▸ le_trans hrank hp)
          refine ⟨hbounded _ rfl, ?_, ?_⟩
          · intro id hid
            have hsame : id = readings.newId := by
              revert hid
              dsimp only
              split
              · intro hid
                cases hid
              · intro hid
                exact (Option.some.inj hid).symm
            intro a ha
            have hrow : (AList.insert readings.newId _ db.accounts).lookup id = some a := ha
            rw [hsame, AList.lookup_insert] at hrow
            rw [← Option.some.inj hrow]
            exact le_trans hrank hp
          · intro role hgrants
            revert hgrants
            dsimp only
            split
            · intro hgrants
              cases hgrants
            · intro hgrants
              cases hgrants

theorem updateUser_sensible (hp : roleRank p.role ≤ r) (id : Option Uuid) (body : Except String UserUpdate) :
    Sensible r db (updateUser p readings db id body, db) := by
  have hrefuse := fun answer => Sensible.answered (Bounded.refl r db) answer
  unfold updateUser
  split
  · exact hrefuse _
  cases id with
  | none => exact hrefuse _
  | some id =>
    cases body with
    | error message => exact hrefuse _
    | ok body =>
      dsimp only
      split
      · exact hrefuse _
      split
      · exact hrefuse _
      split
      · exact hrefuse _
      next hrole =>
        split
        · exact hrefuse _
        · exact hrefuse _
        next account _ hrow =>
          split
          · exact hrefuse _
          next hcurrent =>
            split
            · exact hrefuse _
            split
            · exact hrefuse _
            refine ⟨Bounded.refl r db, ?_, ?_⟩
            · -- The account that was read is within the caller's bounds.
              intro target htarget a ha
              obtain rfl := Option.some.inj htarget
              have hsame : db.accounts.lookup id = some a := ha
              rw [hrow] at hsame
              rw [← Option.some.inj hsame]
              exact le_trans (not_roleAbove hcurrent) hp
            · intro role hgrants
              rw [← Option.some.inj hgrants]
              exact le_trans (not_roleAbove hrole) hp

/-- **One statement of one request.** -/
theorem advance_sensible {call : Call} (hp : roleRank call.principal.role ≤ r)
    (htarget : ∀ id, call.stage.target = some id → AtMost r db id)
    (hgrants : ∀ role, call.stage.grants = some role → roleRank role ≤ r) :
    Sensible r db (call.advance lower readings db) := by
  unfold Call.advance
  cases hstage : call.stage with
  | received =>
    cases call.request with
    | createUser body => exact createUser_sensible hp body
    | updateUser id body => exact updateUser_sensible hp id body
  | inserted id body =>
    rw [hstage] at htarget
    refine Sensible.answered ?_ _
    split
    · exact bounded_join (htarget id rfl) body.role
    · exact Bounded.refl r db
  | admitted id body newHash =>
    rw [hstage] at htarget hgrants
    dsimp only
    split
    · exact Sensible.answered (Bounded.refl r db) _
    have hbounded := bounded_writeAccount (htarget id rfl) (hgrants body.role rfl) newHash
    refine ⟨hbounded, ?_, ?_⟩
    · intro target hnext
      have hsame : target = id := by
        revert hnext
        dsimp only
        split
        · exact fun h => (Option.some.inj h).symm
        · exact fun h => (Option.some.inj h).symm
      rw [hsame]
      exact hbounded.atMost (htarget id rfl)
    · intro role hnext
      revert hnext
      dsimp only
      split
      · exact fun h => nomatch h
      · exact fun h => nomatch h
  | ending id body =>
    rw [hstage] at htarget
    have hbounded : Bounded r db (if readings.fails.isNone then db.endSessions id else db) := by
      split
      · exact bounded_endSessions (htarget id rfl)
      · exact Bounded.refl r db
    refine ⟨hbounded, ?_, fun _ h => nomatch h⟩
    intro target hnext
    obtain rfl := Option.some.inj hnext
    exact hbounded.atMost (htarget id rfl)
  | placing id body =>
    rw [hstage] at htarget
    refine Sensible.answered ?_ _
    split
    · split
      · exact bounded_leave (htarget id rfl)
      · exact bounded_join (htarget id rfl) body.role
    · exact Bounded.refl r db
  | answered answer => exact Sensible.answered (Bounded.refl r db) answer

end

/-! ## §6. Any order of statements. -/

/-- Callers of rank at most `r`, each with a next statement within bounds. -/
structure Sound (r : Nat) (w : UserWorld) : Prop where
  callers : ∀ call ∈ w.calls, roleRank call.principal.role ≤ r
  targets : ∀ call ∈ w.calls, ∀ id, call.stage.target = some id → AtMost r w.db id
  grants : ∀ call ∈ w.calls, ∀ role, call.stage.grants = some role → roleRank role ≤ r

section
variable {lower : String → String} {r : Nat} {w : UserWorld}

theorem sound_start {db : UserDb} {requests : List (Principal × UserRequest)}
    (h : ∀ q ∈ requests, roleRank q.1.role ≤ r) : Sound r (UserWorld.start db requests) := by
  have hreceived : ∀ call ∈ (UserWorld.start db requests).calls,
      roleRank call.principal.role ≤ r ∧ call.stage = .received := by
    intro call hcall
    obtain ⟨q, hq, rfl⟩ := List.mem_map.mp hcall
    exact ⟨h q hq, rfl⟩
  refine ⟨fun call hcall => (hreceived call hcall).1, ?_, ?_⟩
  · intro call hcall id hid
    rw [(hreceived call hcall).2] at hid
    cases hid
  · intro call hcall role hrole
    rw [(hreceived call hcall).2] at hrole
    cases hrole

/-- **One statement keeps the requests within bounds and writes within them.**  What the
other requests have read stays true of the accounts they are about. -/
theorem step_sound (h : Sound r w) (a : UserAction) :
    Sound r (w.step lower a) ∧ Bounded r w.db (w.step lower a).db := by
  unfold UserWorld.step
  split
  · exact ⟨h, Bounded.refl r w.db⟩
  next call hcall =>
    have hmem : call ∈ w.calls := List.mem_of_getElem? hcall
    have hnext : Sensible r w.db (call.advance lower a.readings w.db) :=
      advance_sensible (h.callers call hmem) (h.targets call hmem) (h.grants call hmem)
    refine ⟨⟨?_, ?_, ?_⟩, hnext.bounded⟩
    · intro other hother
      rcases List.mem_or_eq_of_mem_set hother with hold | rfl
      · exact h.callers other hold
      · exact h.callers call hmem
    · intro other hother id hid
      rcases List.mem_or_eq_of_mem_set hother with hold | rfl
      · exact hnext.bounded.atMost (h.targets other hold id hid)
      · exact hnext.target id hid
    · intro other hother role hrole
      rcases List.mem_or_eq_of_mem_set hother with hold | rfl
      · exact h.grants other hold role hrole
      · exact hnext.grants role hrole

/-- Accounts above the bound at the end were there, as they are, at the start. -/
theorem run_sound (h : Sound r w) (actions : List UserAction) :
    Sound r (w.run lower actions) ∧
      ∀ id a, (w.run lower actions).db.accounts.lookup id = some a → r < roleRank a.role →
        w.db.accounts.lookup id = some a := by
  induction actions generalizing w with
  | nil => exact ⟨h, fun _ _ ha _ => ha⟩
  | cons action actions ih =>
    have hstep : Sound r (w.step lower action) ∧ Bounded r w.db (w.step lower action).db := step_sound h action
    obtain ⟨hrest, hgained⟩ := ih hstep.1
    refine ⟨hrest, ?_⟩
    intro id a ha habove
    exact hstep.2.gained id a (hgained id a ha habove) habove

end

/-- **No escalation.**  Requests of callers whose rank is at most `r`, their statements in
any order: an account above `r` had its role, and all else, from the start, and no
statement alters one. -/
theorem no_escalation (lower : String → String) (r : Nat) (db : UserDb)
    (requests : List (Principal × UserRequest)) (h : ∀ q ∈ requests, roleRank q.1.role ≤ r)
    (actions : List UserAction) :
    (∀ id a, ((UserWorld.start db requests).run lower actions).db.accounts.lookup id = some a →
      r < roleRank a.role → db.accounts.lookup id = some a) ∧
    ∀ action id a, ((UserWorld.start db requests).run lower actions).db.accounts.lookup id = some a →
      r < roleRank a.role →
      Unaltered ((UserWorld.start db requests).run lower actions).db
        (((UserWorld.start db requests).run lower actions).step lower action).db id := by
  have hstart : Sound r (UserWorld.start db requests) := sound_start h
  obtain ⟨hsound, hgained⟩ : Sound r ((UserWorld.start db requests).run lower actions) ∧ _ := run_sound hstart actions
  refine ⟨hgained, ?_⟩
  intro action id a ha habove
  exact (step_sound hsound action).2.kept id a ha habove

namespace Sample

def root : Uuid := ⟨1⟩

def ana : Uuid := ⟨2⟩

def account (email role : String) : Account := ⟨email, email, "", "", role, true, some "old hash"⟩

/-- A super administrator and an analyst. -/
def users : UserDb where
  accounts := AList.insert root (account "root@example.com" "super_admin")
    (AList.insert ana (account "ana@example.com" "analyst") ∅)
  sessions := ∅
  memberships := ∅
  workspaces := [⟨3⟩]

def admin : Principal := ⟨⟨4⟩, "organization_admin", false⟩

def raise (role password : String) : UserUpdate := ⟨"Ana", "", "", role, none, password⟩

/-- The analyst is made an administrator and has their password replaced; so, they ask,
has the super administrator. -/
def requests : List (Principal × UserRequest) :=
  [(admin, .updateUser (some ana) (.ok (raise "organization_admin" ""))),
    (admin, .updateUser (some ana) (.ok (raise "viewer" "a new long password"))),
    (admin, .updateUser (some root) (.ok (raise "viewer" "a new long password")))]

def statement (i : Nat) : UserAction := ⟨i, ⟨none, ⟨5⟩, .ok "new hash"⟩⟩

def actions : List UserAction := [statement 0, statement 1, statement 2, statement 1, statement 0, statement 2]

end Sample

/-- Two requests about one account and one about an account above their callers. -/
theorem no_escalation_sample :
    (((UserWorld.start Sample.users Sample.requests).run id Sample.actions).db.accounts.lookup Sample.ana).map
        (·.role) = some "organization_admin" ∧
      ((UserWorld.start Sample.users Sample.requests).run id Sample.actions).db.accounts.lookup Sample.root
        = Sample.users.accounts.lookup Sample.root ∧
      Unaltered ((UserWorld.start Sample.users Sample.requests).run id Sample.actions).db
        (((UserWorld.start Sample.users Sample.requests).run id Sample.actions).step id (Sample.statement 2)).db
        Sample.root := by
  have hbounds := no_escalation id 4 Sample.users Sample.requests (by decide) Sample.actions
  have hroot : ((UserWorld.start Sample.users Sample.requests).run id Sample.actions).db.accounts.lookup Sample.root
      = some (Sample.account "root@example.com" "super_admin") := by
    rfl
  refine ⟨rfl, ?_, ?_⟩
  · rw [hroot]
    exact (hbounds.1 Sample.root _ hroot (by decide)).symm
  · exact hbounds.2 (Sample.statement 2) Sample.root _ hroot (by decide)

end Momento.Users
