/-
  Momento.Service.Selected

  **NOTHING OF IT IS LEFT.**  An erasure selects a visitor, a user with the visitors
  linked to him, a period or a property.  What it means that no row of a site carries
  the selected data any more is said here once, table by table (`AbsentFrom`), and two
  things are proved of it:

      an event       — that carries none of the data is stored, and none is there still
      the rebuild    — where the raw events carry none, no derived row does after it

  A row carries a period's data by its times; a daily row, which has no time of its own
  or only that of its visitor, by its day.
-/
import Momento.Foundation.EveryRow
import Momento.Service.Rebuild
import Momento.Service.Runs

namespace Momento

open Foundation

/-! ## §1. What is selected. -/

/-- The data that has to go. -/
structure Selected where
  visitor : String → Prop
  user : String → Prop
  instant : Instant → Prop
  /-- A member of an event's properties. -/
  property : String → Prop
  /-- An event that stands in a queued payload. -/
  queued : IncomingEvent → Prop
  /-- A queued document that does not decode. -/
  unreadable : String → Prop

namespace Selected

section
variable (sel : Selected)

/-- The user is not selected, if there is one. -/
def NoUser (user : Option String) : Prop := ∀ u, user = some u → ¬sel.user u

/-- A row of this visitor, under this user, between these times. -/
structure Lacks (visitorId : String) (user : Option String) (first last : Instant) : Prop where
  visitor : ¬sel.visitor visitorId
  user : sel.NoUser user
  first : ¬sel.instant first
  last : ¬sel.instant last

/-- Every instant of the day is selected, and it has one. -/
def Covers (env : Platform) (timezone : String) (date : Date) : Prop :=
  (∃ t, env.localDate timezone t = date) ∧ ∀ t, env.localDate timezone t = date → sel.instant t

/-- The numbers of the derived tables that are read from a property of that name. -/
def Counted : Prop := sel.property "value" ∨ sel.property "revenue" ∨ sel.property "active_seconds"

/-! ## §2. The rows. -/

/-- A raw event. -/
structure AbsentRow (r : RawEvent) : Prop where
  person : sel.Lacks r.visitorId r.userId r.eventTimestamp r.eventTimestamp
  property : ∀ name, sel.property name → r.properties.get name = none

variable (siteId : Uuid)

/-- A row of `visitors` is not selected. -/
def VisitorRow (k : VisitorKey) (v : Visitor) : Prop :=
  k.siteId = siteId → sel.Lacks k.visitorId v.userId v.firstSeen v.lastSeen

/-- A row of `visitor_identities` is not selected. -/
def IdentityRow (k : VisitorKey) (i : VisitorIdentity) : Prop :=
  k.siteId = siteId → sel.Lacks k.visitorId (some i.userId) i.firstSeen i.lastSeen ∧ ¬sel.instant i.linkedAt

/-- A row of `identified_users` is not selected. -/
def IdentifiedUserRow (k : UserKey) (u : IdentifiedUser) : Prop :=
  k.siteId = siteId → ¬sel.user k.userId ∧ ¬sel.instant u.firstSeen ∧ ¬sel.instant u.lastSeen

/-- A row of `visitor_sessions` is not selected. -/
def VisitorSessionRow (k : VisitorSessionKey) (v : VisitorSession) : Prop :=
  k.siteId = siteId → sel.Lacks k.visitorId v.userId v.firstSeen v.lastSeen

/-- A row of `sessions` is not selected. -/
def SessionRow (k : SessionKey) (r : Session) : Prop :=
  k.siteId = siteId → sel.Lacks r.visitorId r.userId r.startedAt r.lastEventAt
    ∧ (sel.property "active_seconds" → r.activeEngagementMs = 0)

variable (env : Platform) (timezone : String)

/-- A row of `daily_metrics` is not selected. -/
def MetricsRow (k : DayKey) (m : DailyMetrics) : Prop :=
  k.siteId = siteId → ¬sel.Covers env timezone k.eventDate
    ∧ (sel.property "value" ∨ sel.property "revenue" → m.revenue = .fin 0)

/-- A row of `daily_site_visitors` is not selected. -/
def DailyVisitorRow (k : DayVisitorKey) (v : DailyVisitor) : Prop :=
  k.day.siteId = siteId → ¬sel.Covers env timezone k.day.eventDate
    ∧ sel.Lacks k.visitorId v.userId v.firstSeen v.lastSeen

/-- A row of `daily_site_sessions` is not selected. -/
def DailySessionRow (k : DaySessionKey) (v : DailySession) : Prop :=
  k.day.siteId = siteId → ¬sel.Covers env timezone k.day.eventDate
    ∧ sel.Lacks v.visitorId v.userId v.firstSeen v.lastSeen

end

/-- **No row of the site carries the selected data.** -/
structure AbsentFrom (sel : Selected) (env : Platform) (siteId : Uuid) (s : Store) : Prop where
  rawEvents : ∀ r ∈ s.rawEvents.rows, r.siteId = siteId → sel.AbsentRow r
  visitors : Table.Every (sel.VisitorRow siteId) s.visitors
  visitorIdentities : Table.Every (sel.IdentityRow siteId) s.visitorIdentities
  identifiedUsers : Table.Every (sel.IdentifiedUserRow siteId) s.identifiedUsers
  visitorSessions : Table.Every (sel.VisitorSessionRow siteId) s.visitorSessions
  sessions : Table.Every (sel.SessionRow siteId) s.sessions
  dailySiteMetrics : ∀ site, s.config.sites.lookup siteId = some site →
    Table.Every (sel.MetricsRow siteId env site.timezone) s.dailySiteMetrics
  dailySiteVisitors : ∀ site, s.config.sites.lookup siteId = some site →
    Table.Every (sel.DailyVisitorRow siteId env site.timezone) s.dailySiteVisitors
  dailySiteSessions : ∀ site, s.config.sites.lookup siteId = some site →
    Table.Every (sel.DailySessionRow siteId env site.timezone) s.dailySiteSessions

/-! ## §3. Values that are not selected. -/

section Values
variable {sel : Selected}

theorem noUser_none : sel.NoUser none := by
  intro u h
  cases h

theorem NoUser.or {a b : Option String} (ha : sel.NoUser a) (hb : sel.NoUser b) : sel.NoUser (a.or b) := by
  cases a with
  | none => exact hb
  | some u => exact ha

theorem noUser_nullIfEmpty {u : String} (h : u ≠ "" → ¬sel.user u) : sel.NoUser (nullIfEmpty u) := by
  intro v hv
  unfold nullIfEmpty at hv
  split at hv
  · cases hv
  rename_i hne
  obtain rfl := Option.some.inj hv
  exact h hne

theorem NoUser.of_nullIfEmpty {u : String} (h : sel.NoUser (nullIfEmpty u)) (hne : u ≠ "") : ¬sel.user u :=
  h u (by unfold nullIfEmpty; rw [if_neg hne])

theorem not_instant_min {a b : Instant} (ha : ¬sel.instant a) (hb : ¬sel.instant b) : ¬sel.instant (min a b) := by
  rcases min_choice a b with h | h
  · rwa [h]
  · rwa [h]

theorem not_instant_max {a b : Instant} (ha : ¬sel.instant a) (hb : ¬sel.instant b) : ¬sel.instant (max a b) := by
  rcases max_choice a b with h | h
  · rwa [h]
  · rwa [h]

/-- A row that takes in one more event of the visitor. -/
theorem Lacks.extend {visitorId : String} {user user' : Option String} {first last t : Instant}
    (h : sel.Lacks visitorId user first last) (huser : sel.NoUser user') (ht : ¬sel.instant t) :
    sel.Lacks visitorId user' (min first t) (max last t) where
  visitor := h.visitor
  user := huser
  first := not_instant_min h.first ht
  last := not_instant_max h.last ht

theorem Lacks.withUser {visitorId : String} {user user' : Option String} {first last : Instant}
    (h : sel.Lacks visitorId user first last) (huser : sel.NoUser user') : sel.Lacks visitorId user' first last :=
  { h with user := huser }

theorem not_covers {env : Platform} {timezone : String} {t : Instant} (h : ¬sel.instant t) :
    ¬sel.Covers env timezone (env.localDate timezone t) :=
  fun hcovers => h (hcovers.2 t rfl)

end Values

/-! ## §4. The statements of an event. -/

/-- What the event of one visitor brings: none of the selected data, if it is the site's. -/
def Spares (sel : Selected) (siteId : Uuid) (key : VisitorKey) (userId : String) (t : Instant) : Prop :=
  key.siteId = siteId → sel.Lacks key.visitorId (nullIfEmpty userId) t t

section Statements
variable {sel : Selected} {env : Platform} {siteId : Uuid} {s : Store} {key : VisitorKey} {userId : String}
  {t : Instant}

/-- The store's other tables may change. -/
theorem AbsentFrom.quality (h : sel.AbsentFrom env siteId s) (quality : Table QualityKey Quality)
    (jobs : List AggregateJob) (values : List DimensionValue) :
    sel.AbsentFrom env siteId
      { s with dataQualityDaily := quality, aggregateJobs := jobs, dimensionValues := values } :=
  ⟨h.rawEvents, h.visitors, h.visitorIdentities, h.identifiedUsers, h.visitorSessions, h.sessions,
    h.dailySiteMetrics, h.dailySiteVisitors, h.dailySiteSessions⟩

theorem AbsentFrom.insertRaw (h : sel.AbsentFrom env siteId s) (row : RawEvent)
    (hnew : ¬s.rawEvents.Holds row.siteId row.eventId) (hrow : row.siteId = siteId → sel.AbsentRow row) :
    sel.AbsentFrom env siteId { s with rawEvents := s.rawEvents.insert row hnew } := by
  refine { h with rawEvents := ?_ }
  intro r hr hsite
  rcases List.mem_cons.mp hr with rfl | hold
  · exact ⟨(hrow hsite).person, (hrow hsite).property⟩
  · exact h.rawEvents r hold hsite

/-- The user a visitor of the site is linked to is not a selected one. -/
theorem AbsentFrom.linkedUser (h : sel.AbsentFrom env siteId s) (hsite : key.siteId = siteId) :
    sel.NoUser (s.linkedUser key) := by
  intro u hu
  obtain ⟨i, hi, rfl⟩ := Option.map_eq_some_iff.mp hu
  exact (h.visitorIdentities key i hi hsite).1.user _ rfl

/-- The time a visitor is known since. -/
theorem AbsentFrom.knownSince (h : sel.AbsentFrom env siteId s) (hsite : key.siteId = siteId)
    (ht : ¬sel.instant t) : ¬sel.instant ((s.visitors.lookup key).elim t Visitor.firstSeen) := by
  cases hv : s.visitors.lookup key with
  | none => exact ht
  | some v => exact (h.visitors key v hv hsite).first

theorem AbsentFrom.linkIdentity (h : sel.AbsentFrom env siteId s) (hnamed : userId ≠ "")
    (hkey : sel.Spares siteId key userId t) : sel.AbsentFrom env siteId (s.linkIdentity key userId t) := by
  refine { h with visitorIdentities := h.visitorIdentities.upsert ?_ ?_ }
  · intro hsite
    have hnew := hkey hsite
    have huser : sel.NoUser (some userId) := by
      intro u hu
      obtain rfl := Option.some.inj hu
      exact hnew.user.of_nullIfEmpty hnamed
    exact ⟨⟨hnew.visitor, huser, h.knownSince hsite hnew.first, hnew.last⟩, hnew.first⟩
  · intro i hi hsite
    have hnew := hkey hsite
    obtain ⟨hold, hlinked⟩ := hi hsite
    refine ⟨⟨hold.visitor, ?_, not_instant_min hold.first (h.knownSince hsite hnew.first),
      not_instant_max hold.last hnew.last⟩, ?_⟩
    · -- The later of the two links says who the user is.
      intro u hu
      obtain rfl := Option.some.inj hu
      split
      · exact hnew.user.of_nullIfEmpty hnamed
      · exact hold.user i.userId rfl
    · show ¬sel.instant (if t < i.lastSeen then i.linkedAt else if i.userId = userId then min i.linkedAt t else t)
      split
      · exact hlinked
      split
      · exact not_instant_min hlinked hnew.first
      · exact hnew.first

theorem AbsentFrom.exposeInVisitors (h : sel.AbsentFrom env siteId s) :
    sel.AbsentFrom env siteId (s.exposeInVisitors key) := by
  refine { h with visitors := h.visitors.modifyRows ?_ }
  intro k v hv hsite
  split
  · rename_i hk
    exact (hv hsite).withUser ((h.linkedUser (hk ▸ hsite)).or (hv hsite).user)
  · exact hv hsite

theorem AbsentFrom.exposeInVisitorSessions (h : sel.AbsentFrom env siteId s) :
    sel.AbsentFrom env siteId (s.exposeInVisitorSessions key) := by
  refine { h with visitorSessions := h.visitorSessions.modifyRows ?_ }
  intro k v hv hsite
  split
  · rename_i hk
    exact (hv hsite).withUser ((h.linkedUser (hk.1.symm.trans hsite)).or (hv hsite).user)
  · exact hv hsite

theorem AbsentFrom.exposeInDailyVisitors (h : sel.AbsentFrom env siteId s) :
    sel.AbsentFrom env siteId (s.exposeInDailyVisitors key) := by
  refine { h with dailySiteVisitors := fun site hconfig => (h.dailySiteVisitors site hconfig).modifyRows ?_ }
  intro k v hv hsite
  split
  · rename_i hk
    exact ⟨(hv hsite).1, (hv hsite).2.withUser ((h.linkedUser (hk.1.symm.trans hsite)).or (hv hsite).2.user)⟩
  · exact hv hsite

theorem AbsentFrom.exposeInDailySessions (h : sel.AbsentFrom env siteId s) :
    sel.AbsentFrom env siteId (s.exposeInDailySessions key) := by
  refine { h with dailySiteSessions := fun site hconfig => (h.dailySiteSessions site hconfig).modifyRows ?_ }
  intro k v hv hsite
  split
  · rename_i hk
    exact ⟨(hv hsite).1, (hv hsite).2.withUser ((h.linkedUser (hk.1.symm.trans hsite)).or (hv hsite).2.user)⟩
  · exact hv hsite

theorem AbsentFrom.removeUnlinkedUsers (h : sel.AbsentFrom env siteId s) (site : Uuid) :
    sel.AbsentFrom env siteId (s.removeUnlinkedUsers site) :=
  { h with identifiedUsers := h.identifiedUsers.deleteRows }

/-- **`updateVisitorIdentity`.** -/
theorem AbsentFrom.identify (h : sel.AbsentFrom env siteId s) (hkey : sel.Spares siteId key userId t) :
    sel.AbsentFrom env siteId (s.identify key userId t) := by
  unfold Store.identify
  split
  · rename_i hnamed
    exact (((((h.linkIdentity hnamed hkey).exposeInVisitors).exposeInVisitorSessions).exposeInDailyVisitors).exposeInDailySessions).removeUnlinkedUsers
      key.siteId
  · exact h

/-- **`updateVisitor`.** -/
theorem AbsentFrom.countVisitor (h : sel.AbsentFrom env siteId s) (hkey : sel.Spares siteId key userId t)
    (userProperties : Properties) (conversion : Bool) :
    sel.AbsentFrom env siteId (s.countVisitor key userId userProperties t conversion) := by
  refine { h with visitors := h.visitors.upsert ?_ ?_ }
  · intro hsite
    exact (hkey hsite).withUser ((h.linkedUser hsite).or (hkey hsite).user)
  · intro v hv hsite
    have hlinked := h.linkedUser hsite
    exact (hv hsite).extend (hlinked.or ((hlinked.or (hkey hsite).user).or (hv hsite).user)) (hkey hsite).first

/-- The user the visitor's row shows. -/
theorem AbsentFrom.canonicalUser (h : sel.AbsentFrom env siteId s) (hsite : key.siteId = siteId) :
    sel.NoUser (nullIfEmpty (s.canonicalUser key)) := by
  refine noUser_nullIfEmpty fun hne => ?_
  unfold Store.canonicalUser at hne ⊢
  cases hv : s.visitors.lookup key with
  | none =>
    rw [hv] at hne
    exact absurd rfl hne
  | some v =>
    rw [hv] at hne
    cases huser : v.userId with
    | none =>
      rw [Option.bind_some, huser] at hne
      exact absurd rfl hne
    | some u =>
      rw [Option.bind_some, huser]
      exact (h.visitors key v hv hsite).user u huser

theorem AbsentFrom.touchIdentity (h : sel.AbsentFrom env siteId s) (ht : key.siteId = siteId → ¬sel.instant t) :
    sel.AbsentFrom env siteId (s.touchIdentity key t) := by
  refine { h with visitorIdentities := h.visitorIdentities.modifyRows ?_ }
  intro k i hi hsite
  split
  · rename_i hk
    obtain ⟨hold, hlinked⟩ := hi hsite
    exact ⟨{ hold with last := not_instant_max hold.last (ht (hk ▸ hsite)) }, hlinked⟩
  · exact hi hsite

theorem AbsentFrom.countIdentifiedUser (h : sel.AbsentFrom env siteId s) (hnamed : userId ≠ "")
    (hkey : sel.Spares siteId key userId t) (userProperties : Properties) :
    sel.AbsentFrom env siteId (s.countIdentifiedUser key userId userProperties t) := by
  refine { h with identifiedUsers := h.identifiedUsers.upsert ?_ ?_ }
  · intro hsite
    exact ⟨(hkey hsite).user.of_nullIfEmpty hnamed, h.knownSince hsite (hkey hsite).first, (hkey hsite).last⟩
  · intro u hu hsite
    obtain ⟨huser, hfirst, hlast⟩ := hu hsite
    exact ⟨huser, not_instant_min hfirst (h.knownSince hsite (hkey hsite).first),
      not_instant_max hlast (hkey hsite).last⟩

/-- **The statements a known user adds.** -/
theorem AbsentFrom.touchLinked (h : sel.AbsentFrom env siteId s) (hkey : sel.Spares siteId key userId t)
    (userProperties : Properties) : sel.AbsentFrom env siteId (s.touchLinked key userId userProperties t) := by
  unfold Store.touchLinked
  split
  · rename_i hnamed
    exact (h.touchIdentity fun hsite => (hkey hsite).first).countIdentifiedUser hnamed hkey userProperties
  · exact h

/-- **`updateSession`.** -/
theorem AbsentFrom.touchSession (h : sel.AbsentFrom env siteId s) (hcounted : ¬sel.Counted) {session : SessionKey}
    {touch : SessionTouch}
    (htouch : sel.Spares siteId ⟨session.siteId, touch.visitorId⟩ touch.userId touch.eventTime) :
    sel.AbsentFrom env siteId (s.touchSession session touch) := by
  have hactive : ∀ n : Int, sel.property "active_seconds" → n = 0 := fun _ hp => absurd (.inr (.inr hp)) hcounted
  refine { h with sessions := h.sessions.upsert ?_ ?_ }
  · intro hsite
    exact ⟨htouch hsite, hactive _⟩
  · intro r hr hsite
    have hnew := htouch hsite
    exact ⟨{ (hr hsite).1.extend (hnew.user.or (hr hsite).1.user) hnew.first with visitor := hnew.visitor },
      hactive _⟩

/-- **`updateVisitorSession`.** -/
theorem AbsentFrom.countVisitorSession (h : sel.AbsentFrom env siteId s) {visit : VisitorSessionKey}
    (hkey : sel.Spares siteId ⟨visit.siteId, visit.visitorId⟩ userId t) :
    sel.AbsentFrom env siteId (s.countVisitorSession visit userId t) := by
  refine { h with visitorSessions := h.visitorSessions.upsert hkey ?_ }
  intro v hv hsite
  exact (hv hsite).extend ((hkey hsite).user.or (hv hsite).user) (hkey hsite).first

/-- **`updateDailyAggregates`.** -/
theorem AbsentFrom.countDay (h : sel.AbsentFrom env siteId s) (hcounted : ¬sel.Counted) {c : JobContext}
    {event : IncomingEvent} (henv : c.env = env)
    (hzone : ∀ site, c.siteId = siteId → s.config.sites.lookup siteId = some site → site.timezone = c.timezone)
    (hkey : sel.Spares siteId (visitorKeyOf c) userId t) (conversion : Bool) (revenue : Numeric) :
    sel.AbsentFrom env siteId (s.countDay c event t userId conversion revenue) := by
  have hday : ∀ site, c.siteId = siteId → s.config.sites.lookup siteId = some site →
      ¬sel.Covers env site.timezone (dayOf c t).eventDate := by
    intro site hsite hconfig
    rw [hzone site hsite hconfig, ← henv]
    exact not_covers (hkey hsite).first
  have hrevenue : ∀ x : Numeric, sel.property "value" ∨ sel.property "revenue" → x = .fin 0 := by
    rintro x (hp | hp)
    · exact absurd (.inl hp) hcounted
    · exact absurd (.inr (.inl hp)) hcounted
  refine { h with
    dailySiteMetrics := fun site hconfig => (h.dailySiteMetrics site hconfig).upsert ?_ ?_
    dailySiteVisitors := fun site hconfig => (h.dailySiteVisitors site hconfig).upsert ?_ ?_
    dailySiteSessions := fun site hconfig => (h.dailySiteSessions site hconfig).upsert ?_ ?_ }
  · exact fun hsite => ⟨hday site hsite hconfig, hrevenue _⟩
  · exact fun m hm hsite => ⟨hday site hsite hconfig, hrevenue _⟩
  · exact fun hsite => ⟨hday site hsite hconfig, hkey hsite⟩
  · intro v hv hsite
    exact ⟨hday site hsite hconfig, (hv hsite).2.extend ((hkey hsite).user.or (hv hsite).2.user) (hkey hsite).first⟩
  · exact fun hsite => ⟨hday site hsite hconfig, hkey hsite⟩
  · intro v hv hsite
    have hnew := hkey hsite
    exact ⟨hday site hsite hconfig,
      { (hv hsite).2.extend (hnew.user.or (hv hsite).2.user) hnew.first with visitor := hnew.visitor }⟩

end Statements

/-! ## §5. One event. -/

/-- The event carries none of the selected data, if it is one of the site's. -/
structure Passes (sel : Selected) (siteId : Uuid) (a : Arrival) : Prop where
  person : sel.Spares siteId a.visitorKey a.context.userId a.eventTime
  property : a.context.siteId = siteId → ∀ name, sel.property name →
    (storedProperties a.context a.event).get name = none

section Event
variable {sel : Selected} {env : Platform} {siteId : Uuid} {s : Store} {a : Arrival}

/-- **An event that carries none of the data leaves none.** -/
theorem AbsentFrom.derive (h : sel.AbsentFrom env siteId s) (hcounted : ¬sel.Counted) (ha : sel.Passes siteId a)
    (henv : a.context.env = env) (hset : siteSettings a.context.siteId a.context.request.environment s
      = .ok (a.context.timezone, a.context.cardinalityLimit)) : sel.AbsentFrom env siteId (a.derive s) := by
  have hbefore : sel.AbsentFrom env siteId
      (s.beforeVisitor a.context a.event a.eventTime a.unreported) := by
    obtain ⟨jobs, values, hshape⟩ := Store.beforeVisitor_shape a.context a.event a.eventTime a.unreported s
    rw [hshape]
    exact (h.quality _ jobs values).identify ha.person
  have hafter : sel.AbsentFrom env siteId
      (s.afterVisitor a.context a.event a.eventTime a.conversion a.unreported) :=
    hbefore.countVisitor ha.person a.context.userProperties a.conversion
  -- From here on the visitor goes by the user its row shows.
  have hshown : sel.Spares siteId a.visitorKey (a.canonical s) a.eventTime :=
    fun hsite => (ha.person hsite).withUser (hafter.canonicalUser hsite)
  have hconfig : ∀ site, a.context.siteId = siteId → s.config.sites.lookup siteId = some site →
      site.timezone = a.context.timezone := by
    intro site hsite hlookup
    unfold siteSettings at hset
    rw [hsite, hlookup] at hset
    cases henvironment : s.config.siteEnvironments.lookup ⟨siteId, a.context.request.environment⟩ with
    | none =>
      rw [henvironment] at hset
      cases hset
    | some e =>
      rw [henvironment] at hset
      exact (Prod.mk.inj (Except.ok.inj hset)).1
  rw [Arrival.derive_eq]
  have hsession : sel.AbsentFrom env siteId (a.beforeSession s) := hafter.touchLinked hshown a.context.userProperties
  have hvisit : sel.AbsentFrom env siteId (((a.beforeSession s).touchSession a.sessionKey (a.touch s)).countVisitorSession
      ⟨a.context.siteId, a.context.request.visitorId, a.context.request.sessionId⟩ (a.canonical s) a.eventTime) :=
    (hsession.touchSession hcounted hshown).countVisitorSession hshown
  refine hvisit.countDay hcounted henv ?_ hshown a.conversion _
  intro site hsite hlookup
  refine hconfig site hsite ?_
  rw [← a.beforeSession_config s]
  exact hlookup

theorem AbsentFrom.store (h : sel.AbsentFrom env siteId s) (hcounted : ¬sel.Counted) (ha : sel.Passes siteId a)
    (hnew : ¬a.Known s) (harrives : Arrives env a s) : sel.AbsentFrom env siteId (a.store s hnew) := by
  have hraw : sel.AbsentFrom env siteId { s with rawEvents := s.rawEvents.insert a.row hnew } :=
    h.insertRaw a.row hnew fun hsite => ⟨ha.person hsite, ha.property hsite⟩
  exact AbsentFrom.derive hraw hcounted ha harrives.env_eq harrives.settings

end Event

/-! ## §6. The rebuild. -/

section Rebuilt
variable {sel : Selected} {env : Platform} {siteId : Uuid} {s : Store}

/-- What a group of events that carry none of the data aggregates to. -/
theorem lacks_group {rows : List RawEvent} {visitorId : String} (hrows : rows ≠ [])
    (h : ∀ r ∈ rows, sel.AbsentRow r) (hvisitor : ¬sel.visitor visitorId) :
    sel.Lacks visitorId (lastTouch RawEvent.userId rows) ((firstTime rows).getD 0) ((lastTime rows).getD 0) where
  visitor := hvisitor
  user := by
    intro u hu
    obtain ⟨r, hr, huser⟩ := latest_mem hu
    exact (h r hr).person.user u huser
  first := by
    obtain ⟨r, hr, htime⟩ := minTime_getD_mem RawEvent.eventTimestamp 0 hrows
    rw [htime]
    exact (h r hr).person.first
  last := by
    obtain ⟨r, hr, htime⟩ := maxTime_getD_mem RawEvent.eventTimestamp 0 hrows
    rw [htime]
    exact (h r hr).person.last

/-- A group of the site's events. -/
structure AbsentGroup (sel : Selected) (siteId : Uuid) (r : RawEvent) (rows : List RawEvent) : Prop where
  site : r.siteId = siteId
  nonempty : rows ≠ []
  absent : ∀ r' ∈ rows, sel.AbsentRow r'

/-- A table grouped from the site's events, where every group of them gives such a row. -/
theorem every_grouped {κ ρ : Type} [DecidableEq κ] {P : κ → ρ → Prop} {key : RawEvent → κ}
    {agg : κ → List RawEvent → ρ} {rows : List RawEvent} (hraw : ∀ r ∈ rows, r.siteId = siteId → sel.AbsentRow r)
    (hrow : ∀ r group, sel.AbsentGroup siteId r group → (∀ r' ∈ group, key r' = key r) → sel.AbsentRow r →
      P (key r) (agg (key r) group)) :
    Table.Every P (Table.groupRows key agg (siteRows siteId rows)) := by
  have habsent : ∀ r ∈ siteRows siteId rows, r.siteId = siteId ∧ sel.AbsentRow r := by
    intro r hr
    obtain ⟨hmem, hsite⟩ := List.mem_filter.mp hr
    exact ⟨of_decide_eq_true hsite, hraw r hmem (of_decide_eq_true hsite)⟩
  refine Table.every_groupRows ?_
  intro r hr
  have hgroup : sel.AbsentGroup siteId r (Table.groupOf key (siteRows siteId rows) (key r)) :=
    { site := (habsent r hr).1
      nonempty := List.ne_nil_of_mem (Table.mem_groupOf_self hr)
      absent := fun r' hr' => (habsent r' (Table.mem_groupOf hr').1).2 }
  exact hrow r _ hgroup (fun r' hr' => (Table.mem_groupOf hr').2) (habsent r hr).2

/-- The rows of other sites, which say nothing. -/
theorem every_replaced {κ ρ : Type} [DecidableEq κ] {site : κ → Uuid} {Q : κ → ρ → Prop} {new t : Table κ ρ}
    (hnew : Table.Every (fun k r => site k = siteId → Q k r) new) :
    Table.Every (fun k r => site k = siteId → Q k r) (Table.replaceRows (fun k => site k = siteId) new t) :=
  hnew.replaceRows fun _ _ hcovers _ hsite => absurd hsite (of_decide_eq_false hcovers)

section Tables
variable (hraw : ∀ r ∈ s.rawEvents.rows, r.siteId = siteId → sel.AbsentRow r)

include hraw

theorem every_rebuildVisitors : Table.Every (sel.VisitorRow siteId) (rebuildVisitors siteId s) := by
  refine every_grouped hraw ?_
  intro r rows hrows _ hr _
  exact lacks_group hrows.nonempty hrows.absent hr.person.visitor

theorem every_rebuildIdentities : Table.Every (sel.IdentityRow siteId) (rebuildIdentities siteId s) := by
  have hgrouped : Table.Every (fun k row => ∀ i, row = some i → sel.IdentityRow siteId k i)
      (Table.groupRows RawEvent.visitorKey (fun _ rows => rebuildIdentityRow rows)
        (siteRows siteId s.rawEvents.rows)) := by
    refine every_grouped hraw ?_
    intro r rows hrows _ hr i hi _
    obtain ⟨u, hu, rfl⟩ := Option.map_eq_some_iff.mp hi
    have hlacks := lacks_group hrows.nonempty hrows.absent hr.person.visitor
    refine ⟨hlacks.withUser ?_, ?_⟩
    · intro v hv
      obtain rfl := Option.some.inj hv
      exact hlacks.user u hu
    · -- Some event of the group names the user, so the first that does has a time.
      obtain ⟨named, hnamed, huser⟩ := latest_mem hu
      have hne : rows.filter (fun r => r.userId = some u) ≠ [] :=
        List.ne_nil_of_mem (List.mem_filter.mpr ⟨hnamed, decide_eq_true huser⟩)
      obtain ⟨first, hfirst, htime⟩ := minTime_getD_mem RawEvent.eventTimestamp 0 hne
      show ¬sel.instant ((firstTime _).getD 0)
      rw [htime]
      exact (hrows.absent first (List.mem_of_mem_filter hfirst)).person.first
  exact hgrouped.filterMapRows fun k row i hrow hi => hrow i hi

theorem every_rebuildVisitorSessions :
    Table.Every (sel.VisitorSessionRow siteId) (rebuildVisitorSessions siteId s) := by
  refine every_grouped hraw ?_
  intro r rows hrows _ hr _
  exact lacks_group hrows.nonempty hrows.absent hr.person.visitor

theorem every_rebuildSessions (hcounted : ¬sel.Counted) :
    Table.Every (sel.SessionRow siteId) (rebuildSessions siteId s) := by
  refine every_grouped hraw ?_
  intro r rows hrows _ hr _
  refine ⟨lacks_group hrows.nonempty hrows.absent ?_, fun hp => absurd (.inr (.inr hp)) hcounted⟩
  show ¬sel.visitor ((firstTouch (fun r => some r.visitorId) rows).getD "")
  obtain ⟨first, hfirst, hvisitor⟩ := earliest_getD_mem RawEvent.visitorId "" hrows.nonempty
  rw [hvisitor]
  exact (hrows.absent first hfirst).person.visitor

end Tables

/-- The users named by visitors of the site. -/
theorem every_rebuildIdentifiedUsers (hidentities : Table.Every (sel.IdentityRow siteId) s.visitorIdentities)
    (hvisitors : Table.Every (sel.VisitorRow siteId) s.visitors) :
    Table.Every (sel.IdentifiedUserRow siteId) (rebuildIdentifiedUsers siteId s) := by
  have hrows : ∀ r ∈ identifiedVisitors siteId s,
      ¬sel.user r.1.userId ∧ ¬sel.instant r.1.firstSeen ∧ ¬sel.instant r.2.lastSeen := by
    intro r hr
    obtain ⟨⟨k, i⟩, hentry, hjoin⟩ := List.mem_filterMap.mp hr
    split at hjoin
    · rename_i hsite
      obtain ⟨v, hv, rfl⟩ := Option.map_eq_some_iff.mp hjoin
      have hi := hidentities k i (AList.mem_lookup_iff.mpr hentry) hsite
      exact ⟨hi.1.user _ rfl, hi.1.first, (hvisitors k v hv hsite).last⟩
    · cases hjoin
  refine Table.every_groupRows ?_
  intro r hr _
  have hne : Table.groupOf (fun r : VisitorIdentity × Visitor => (⟨siteId, r.1.userId⟩ : UserKey))
      (identifiedVisitors siteId s) ⟨siteId, r.1.userId⟩ ≠ [] :=
    List.ne_nil_of_mem (Table.mem_groupOf_self hr)
  obtain ⟨first, hfirst, hmin⟩ := minTime_getD_mem (fun r : VisitorIdentity × Visitor => r.1.firstSeen) 0 hne
  obtain ⟨last, hlast, hmax⟩ := maxTime_getD_mem (fun r : VisitorIdentity × Visitor => r.2.lastSeen) 0 hne
  refine ⟨(hrows r hr).1, ?_, ?_⟩
  · show ¬sel.instant ((minTime _ _).getD 0)
    rw [hmin]
    exact (hrows first (Table.mem_groupOf hfirst).1).2.1
  · show ¬sel.instant ((maxTime _ _).getD 0)
    rw [hmax]
    exact (hrows last (Table.mem_groupOf hlast).1).2.2

section Daily
variable (hraw : ∀ r ∈ s.rawEvents.rows, r.siteId = siteId → sel.AbsentRow r) {site : Site}
  (hconfig : s.config.sites.lookup siteId = some site)

/-- The day of an event that is not selected. -/
theorem not_covers_dayKey {timezone : String} {r : RawEvent} (hr : sel.AbsentRow r) :
    ¬sel.Covers env timezone (r.dayKey env timezone).eventDate :=
  not_covers hr.person.first

include hraw hconfig

theorem every_rebuildDailyMetrics (hcounted : ¬sel.Counted) {metrics : Table DayKey DailyMetrics}
    (hmetrics : (rebuildDailyMetrics env siteId s).collect = .ok metrics) :
    Table.Every (sel.MetricsRow siteId env site.timezone) metrics := by
  have hgrouped : Table.Every (fun k row => ∀ m, row = .ok m → sel.MetricsRow siteId env site.timezone k m)
      (rebuildDailyMetrics env siteId s) := by
    unfold rebuildDailyMetrics
    rw [hconfig]
    refine every_grouped hraw ?_
    intro r rows _ _ hr m _ _
    refine ⟨not_covers_dayKey hr, ?_⟩
    rintro (hp | hp)
    · exact absurd (.inl hp) hcounted
    · exact absurd (.inr (.inl hp)) hcounted
  intro k m hm
  exact hgrouped.collect hmetrics k m hm m rfl

theorem every_rebuildDailyVisitors (hidentities : Table.Every (sel.IdentityRow siteId) s.visitorIdentities) :
    Table.Every (sel.DailyVisitorRow siteId env site.timezone) (rebuildDailyVisitors env siteId s) := by
  unfold rebuildDailyVisitors
  rw [hconfig]
  refine every_grouped hraw ?_
  intro r rows hrows hkey hr hsite
  have hlacks := lacks_group hrows.nonempty hrows.absent hr.person.visitor
  refine ⟨not_covers_dayKey hr, hlacks.withUser (NoUser.or ?_ hlacks.user)⟩
  intro u hu
  obtain ⟨head, hhead, huser⟩ := Option.bind_eq_some_iff.mp hu
  have hmem := List.mem_of_mem_head? hhead
  obtain ⟨i, hi, rfl⟩ := Option.map_eq_some_iff.mp huser
  have hsame : head.siteId = siteId := (congrArg (fun k : DayVisitorKey => k.day.siteId) (hkey head hmem)).trans hsite
  exact (hidentities head.visitorKey i hi hsame).1.user _ rfl

theorem every_rebuildDailySessions (hidentities : Table.Every (sel.IdentityRow siteId) s.visitorIdentities) :
    Table.Every (sel.DailySessionRow siteId env site.timezone) (rebuildDailySessions env siteId s) := by
  unfold rebuildDailySessions
  rw [hconfig]
  refine every_grouped hraw ?_
  intro r rows hrows hkey hr hsite
  obtain ⟨first, hfirst, hvisitor⟩ := earliest_getD_mem RawEvent.visitorId "" hrows.nonempty
  have hlacks := lacks_group hrows.nonempty hrows.absent (hrows.absent first hfirst).person.visitor
  refine ⟨not_covers_dayKey hr, ?_⟩
  show sel.Lacks ((firstTouch (fun r => some r.visitorId) rows).getD "") ((lastTouch (joinedUser s) rows).or _) _ _
  rw [hvisitor]
  refine hlacks.withUser (NoUser.or ?_ hlacks.user)
  intro u hu
  obtain ⟨last, hlast, huser⟩ := latest_mem hu
  obtain ⟨i, hi, rfl⟩ := Option.map_eq_some_iff.mp huser
  have hsame : last.siteId = siteId :=
    (congrArg (fun k : DaySessionKey => k.day.siteId) (hkey last hlast)).trans hsite
  exact (hidentities last.visitorKey i hi hsame).1.user _ rfl

end Daily

/-- **The rebuild leaves none**, where the raw events carry none. -/
theorem absentFrom_rebuilt {s' : Store} (hraw : ∀ r ∈ s.rawEvents.rows, r.siteId = siteId → sel.AbsentRow r)
    (hcounted : ¬sel.Counted) (h : s.rebuildSiteDerivedData env siteId = .ok s') : sel.AbsentFrom env siteId s' := by
  have hvisitors : Table.Every (sel.VisitorRow siteId) (s.refill siteId).visitors :=
    every_replaced (every_rebuildVisitors hraw)
  have hidentities : Table.Every (sel.IdentityRow siteId) (s.refill siteId).visitorIdentities :=
    every_replaced (every_rebuildIdentities hraw)
  have husers : Table.Every (sel.IdentifiedUserRow siteId) (s.refill siteId).identifiedUsers := by
    refine every_replaced (every_rebuildIdentifiedUsers ?_ ?_)
    · exact hidentities
    · exact hvisitors
  have hdays : ∀ site, s.config.sites.lookup siteId = some site →
      Table.Every (sel.DailyVisitorRow siteId env site.timezone) (rebuildDailyVisitors env siteId (s.refill siteId))
      ∧ Table.Every (sel.DailySessionRow siteId env site.timezone)
          (rebuildDailySessions env siteId (s.refill siteId)) := by
    intro site hconfig
    have hraw' : ∀ r ∈ (s.refill siteId).rawEvents.rows, r.siteId = siteId → sel.AbsentRow r := hraw
    exact ⟨every_rebuildDailyVisitors hraw' hconfig hidentities,
      every_rebuildDailySessions hraw' hconfig hidentities⟩
  obtain ⟨metrics, hmetrics, rfl⟩ := replaced_of_daily (s := s.refill siteId) h
  exact
    { rawEvents := hraw
      visitors := hvisitors
      visitorIdentities := hidentities
      identifiedUsers := husers
      visitorSessions := every_replaced (every_rebuildVisitorSessions hraw)
      sessions := every_replaced (every_rebuildSessions hraw hcounted)
      dailySiteMetrics := fun site hconfig =>
        every_replaced (every_rebuildDailyMetrics hraw hconfig hcounted hmetrics)
      dailySiteVisitors := fun site hconfig => every_replaced (hdays site hconfig).1
      dailySiteSessions := fun site hconfig => every_replaced (hdays site hconfig).2 }

end Rebuilt

end Selected

end Momento
