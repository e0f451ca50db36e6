/-
  Momento.Model.Event

  **THE COLLECTION REQUEST AND THE INBOX PAYLOAD**, field for field, and what a
  trip through the inbox does to one: `json:",omitempty"` drops an empty map or
  list, which then reads back as `nil`.
-/
import Momento.Model.Json

namespace Momento

/-- A 128-bit identifier. -/
structure Uuid where
  bits : BitVec 128
  deriving DecidableEq

/-! ## §1. The request. -/

/-- Where an event happened. -/
structure PageContext where
  url : String := ""
  title : String := ""
  referrer : String := ""
  deriving DecidableEq

/-- What it happened on. -/
structure DeviceContext where
  type : String := ""
  browser : String := ""
  os : String := ""
  language : String := ""
  screen : String := ""
  deriving DecidableEq

/-- Where the visit came from. -/
structure TrafficContext where
  source : String := ""
  medium : String := ""
  campaign : String := ""
  term : String := ""
  content : String := ""
  deriving DecidableEq

/-- The three of them. -/
structure EventContext where
  page : PageContext := {}
  device : DeviceContext := {}
  traffic : TrafficContext := {}
  deriving DecidableEq

/-- One event as it comes in; `none` is a map or a pointer that is `nil`. -/
structure IncomingEvent where
  id : String := ""
  name : String
  timestamp : Int
  properties : Option Properties := none
  sessionProperties : Option Properties := none
  items : List Properties := []
  context : Option EventContext := none
  contractVersion : Int := 0

/-- The body of `/collect`. -/
structure CollectRequest where
  siteId : String
  environment : String := ""
  trackingKey : String := ""
  visitorId : String
  sessionId : String
  userId : String := ""
  userProperties : Option Properties := none
  sessionProperties : Option Properties := none
  context : EventContext := {}
  events : List IncomingEvent

/-- What `Accept` writes to the inbox and `processOne` reads back. -/
structure InboxPayload where
  request : CollectRequest
  clientIp : String := ""
  origin : String := ""
  userAgent : String := ""
  receivedUnix : Int := 0
  privacyBlocked : Nat := 0
  piiDetected : Nat := 0
  userIdRefused : Bool := false

/-- Reading a `nil` map: no key is there. -/
def propertyOf (p : Option Properties) (key : String) : Option Json := (p.getD []).get key

/-! ## §2. Through the inbox. -/

/-- A `map[string]any` with `omitempty`. -/
def reloadMap : Option Properties → Option Properties
  | none => none
  | some [] => none
  | some p => some (Json.reloadMembers p)

/-- The event, read back from the inbox. -/
def IncomingEvent.reload (e : IncomingEvent) : IncomingEvent :=
  { e with
    properties := reloadMap e.properties
    sessionProperties := reloadMap e.sessionProperties
    items := e.items.map Json.reloadMembers }

/-- The payload `json.Unmarshal` reads where `payload.JSON()` wrote this one. -/
def InboxPayload.reload (p : InboxPayload) : InboxPayload :=
  { p with
    request := { p.request with
      userProperties := reloadMap p.request.userProperties
      sessionProperties := reloadMap p.request.sessionProperties
      events := p.request.events.map IncomingEvent.reload } }

end Momento
