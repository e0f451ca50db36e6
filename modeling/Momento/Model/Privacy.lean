/-
  Momento.Model.Privacy

  **THE PRIVACY POLICY AND ITS FILTERS**: blocked properties, masked query
  parameters, address truncation.  The policy's other fields (retention, profile
  and Do-Not-Track switches) steer nothing modelled here and are left out.
-/
import Momento.Model.Platform

namespace Momento

/-! ## §1. The policy. -/

/-- The group `privacy`. -/
structure Policy where
  ipAnonymization : Bool
  collectUserAgent : Bool
  stripQueryString : Bool
  maskedParameters : List String
  collectUserId : Bool
  blockedProperties : List String
  piiDetectionMode : String
  deriving DecidableEq

/-- `privacy.Default`. -/
def Policy.default : Policy where
  ipAnonymization := true
  collectUserAgent := true
  stripQueryString := false
  maskedParameters := ["token", "password", "email"]
  collectUserId := true
  blockedProperties := ["email", "phone", "resident_number"]
  piiDetectionMode := "mask"

section
variable (env : Platform)

/-! ## §2. Blocked properties. -/

/-- The form a configured name and a property name are compared in. -/
def matchForm (name : String) : String := env.toLower (trimSpace name)

/-- `matchSet`: the names as they are compared, without empty ones. -/
def matchSet (names : List String) : List String :=
  (names.map (matchForm env)).filter (· ≠ "")

mutual

/-- `filterNested`. -/
def filterNested (blocked : List String) : Json → Json
  | .obj members => .obj (filterMembers blocked members)
  | .arr items => .arr (filterItems blocked items)
  | .null => .null
  | .bool b => .bool b
  | .num x => .num x
  | .str s => .str s
  | .strs texts => .strs texts

/-- Each item filtered. -/
def filterItems (blocked : List String) : List Json → List Json
  | [] => []
  | v :: vs => filterNested blocked v :: filterItems blocked vs

/-- The members that are not blocked, filtered. -/
def filterMembers (blocked : List String) : List (String × Json) → List (String × Json)
  | [] => []
  | (key, v) :: ms =>
    if matchForm env key ∈ blocked then filterMembers blocked ms
    else (key, filterNested blocked v) :: filterMembers blocked ms

end

/-- `filteredProperties`. -/
def filteredProperties (properties : Option Properties) (blocked : List String) : Properties :=
  filterMembers env (matchSet env blocked) (properties.getD [])

/-- What the filter leaves of a document's member. -/
theorem get_filterMembers (blocked : List String) (p : Properties) (key : String) :
    Properties.get (filterMembers env blocked p) key
      = if matchForm env key ∈ blocked then none
        else (p.get key).map (filterNested env blocked) := by
  unfold Properties.get
  induction p with
  | nil => simp [filterMembers]
  | cons m p ih =>
    obtain ⟨k, v⟩ := m
    by_cases hkey : key = k
    · subst hkey
      by_cases hblocked : matchForm env key ∈ blocked
      · rw [filterMembers, if_pos hblocked, ih, if_pos hblocked, if_pos hblocked]
      · simp [filterMembers, hblocked]
    · by_cases hk : matchForm env k ∈ blocked
      · rw [filterMembers, if_pos hk, ih, List.lookup_cons, beq_false_of_ne hkey]
      · rw [filterMembers, if_neg hk, List.lookup_cons, List.lookup_cons, beq_false_of_ne hkey, ih]

mutual

/-- `countBlockedProperties`: what is below a blocked key is not looked at. -/
def countBlockedProperties (blocked : List String) : List (String × Json) → Nat
  | [] => 0
  | (key, v) :: ms =>
    (if matchForm env key ∈ blocked then 1 else countBlockedValue blocked v)
      + countBlockedProperties blocked ms

/-- Of a value. -/
def countBlockedValue (blocked : List String) : Json → Nat
  | .obj members => countBlockedProperties blocked members
  | .arr items => countBlockedObjects blocked items
  | .null => 0
  | .bool _ => 0
  | .num _ => 0
  | .str _ => 0
  | .strs _ => 0

/-- The objects directly inside an array; what lies in arrays of arrays is not
counted. -/
def countBlockedObjects (blocked : List String) : List Json → Nat
  | [] => 0
  | .obj members :: vs => countBlockedProperties blocked members + countBlockedObjects blocked vs
  | _ :: vs => countBlockedObjects blocked vs

end

/-- `countPrivacyBlocked`: of everything that a request carries. -/
def countPrivacyBlocked (request : CollectRequest) (blocked : List String) : Nat :=
  let count (p : Option Properties) := countBlockedProperties env (matchSet env blocked) (p.getD [])
  count request.userProperties + count request.sessionProperties
    + (request.events.map fun e =>
        count e.properties + count e.sessionProperties + (e.items.map (count ∘ some)).sum).sum

/-! ## §3. URLs and addresses. -/

/-- **`sanitizeURL`.** -/
def sanitizeUrl (raw : String) (privacy : Policy) : String :=
  if raw = "" then ""
  else match env.parseUrl raw with
    | none => raw
    | some u =>
      let u := { u with fragment := "" }
      if privacy.stripQueryString then env.urlString { u with rawQuery := "" }
      else
        let masked := matchSet env privacy.maskedParameters
        let query := (env.parseQuery u.rawQuery).map fun (key, values) =>
          if matchForm env key ∈ masked then (key, ["[MASKED]"]) else (key, values)
        env.urlString { u with rawQuery := env.encodeQuery query }

end

/-- Drop the last byte of an IPv4 address, the last eight of an IPv6 one. -/
def anonymizeIp (ip : IpAddress) : IpAddress where
  family := ip.family
  bits := match ip.family with
    | .v4 => ip.bits - ip.bits % 2 ^ 8
    | .v6 => ip.bits - ip.bits % 2 ^ 64
  inRange := by
    have hle : ∀ k, ip.bits - ip.bits % k < 2 ^ ip.family.width :=
      fun k => lt_of_le_of_lt (Nat.sub_le _ _) ip.inRange
    split
    · exact hle _
    · exact hle _

end Momento
