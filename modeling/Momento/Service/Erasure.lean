/-
  Momento.Service.Erasure

  **WHAT AN ERASURE SELECTS.**  A privacy request names a visitor, a user or a
  period; a user stands for the visitors linked to him as well.  The selected raw
  events are deleted and the derived tables are rebuilt from those that remain,
  in one transaction.
-/
import Momento.Service.Rebuild

namespace Momento

open Foundation

/-- `privacyRequestWhere`, less the site. -/
inductive Selection where
  | visitor (visitorId : String)
  | userId (userId : String) (linkedVisitors : List String)
  | period (start stop : Instant)

/-- The rows of `raw_events` that go. -/
def Selection.selects : Selection → RawEvent → Bool
  | .visitor visitorId, r => r.visitorId = visitorId
  | .userId user linked, r => r.userId = some user ∨ r.visitorId ∈ linked
  | .period start stop, r => start ≤ r.eventTimestamp ∧ r.eventTimestamp < stop

namespace Store

/-- `SELECT visitor_id FROM visitor_identities WHERE site_id=$1 AND user_id=$2`. -/
def linkedVisitors (siteId : Uuid) (userId : String) (s : Store) : List String :=
  (s.visitorIdentities.entries.filter fun e => e.1.siteId = siteId ∧ e.2.userId = userId).map
    fun e => e.1.visitorId

/-- `DELETE FROM raw_events WHERE …`. -/
def deleteSelected (siteId : Uuid) (selection : Selection) (s : Store) : Store :=
  { s with rawEvents := s.rawEvents.keepRows fun r =>
      !(r.siteId = siteId && selection.selects r) }

/-- The deletion and the rebuild. -/
def eraseEvents (env : Platform) (siteId : Uuid) (selection : Selection) (s : Store) :
    Except DbError Store :=
  (s.deleteSelected siteId selection).rebuildSiteDerivedData env siteId

end Store

end Momento
