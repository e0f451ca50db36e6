/-
  Momento.Reports.AnalyticsEvents

  **THE VIEW `analytics_events`.**  Every raw event with the person it belongs to:
  the user the visitor is linked to, else the event's own user, else the visitor.
  The reports read events through it.
-/
import Momento.Model.Database

namespace Momento.Reports

open Foundation

/-- A row of the view.  Columns worked out from the same row alone, and the user
properties looked up for it, are not carried: only conditions read them, and a
condition is a function of the row, which its id tells from every other. -/
structure AnalyticsEvent extends RawEvent where
  canonicalUserId : Option String
  entityId : String

/-- `CASE WHEN … IS NOT NULL THEN 'u:' || … ELSE 'v:' || … END`. -/
def entityId (userId : Option String) (visitorId : String) : String :=
  match userId with
  | some userId => "u:" ++ userId
  | none => "v:" ++ visitorId

/-- `coalesce(i.user_id, own)`, `i` the visitor's row of `visitor_identities`. -/
def canonicalUser (identities : Table VisitorKey VisitorIdentity) (siteId : Uuid) (visitorId : String)
    (own : Option String) : Option String :=
  match identities.lookup ⟨siteId, visitorId⟩ with
  | some identity => some identity.userId
  | none => own

/-- A row of `analytics_events`. -/
def analyticsEvent (identities : Table VisitorKey VisitorIdentity) (e : RawEvent) : AnalyticsEvent :=
  let user := canonicalUser identities e.siteId e.visitorId e.userId
  { e with canonicalUserId := user, entityId := entityId user e.visitorId }

/-- `analytics_events`. -/
def analyticsEvents (s : Store) : List AnalyticsEvent :=
  s.rawEvents.rows.map (analyticsEvent s.visitorIdentities)

end Momento.Reports
