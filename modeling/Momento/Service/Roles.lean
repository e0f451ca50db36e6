/-
  Momento.Service.Roles

  **RANKS.**  A role is a text; five of them have a rank, any other one has rank zero.
  What a caller may do begins with the rank of its role.
-/
import Momento.Model.Event

namespace Momento

/-- `roleRank`. -/
def roleRank (role : String) : Nat :=
  match role with
  | "viewer" => 1
  | "analyst" => 2
  | "workspace_admin" => 3
  | "organization_admin" => 4
  | "super_admin" => 5
  | _ => 0

/-- `RoleAtLeast`. -/
def roleAtLeast (actual required : String) : Bool := roleRank required ≤ roleRank actual

/-- `RoleAbove`. -/
def roleAbove (role callerRole : String) : Bool := roleRank callerRole < roleRank role

/-- An answer that is not a success: status, code and message. -/
structure Refusal where
  status : Nat
  code : String
  message : String
  deriving DecidableEq

/-- The caller, as the session was read. -/
structure Principal where
  id : Uuid
  role : String
  /-- No browser session. -/
  programmatic : Bool

/-- `orgAdmin`. -/
def orgAdmin (p : Principal) : Bool := !p.programmatic && roleAtLeast p.role "organization_admin"

/-- `admin`. -/
def admin (p : Principal) : Bool := !p.programmatic && roleAtLeast p.role "workspace_admin"

/-- Roles of the whole deployment, which need no membership. -/
def isInstanceWide (role : String) : Bool := role = "super_admin" || role = "organization_admin"

end Momento
