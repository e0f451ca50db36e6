/-
  Momento.Service.RetentionClosure

  **WHAT A RETENTION PASS LEAVES STANDING.**  A pass deletes raw events and sessions by
  age, the index of visitors and sessions by an age of its own, and then the people of
  whom nothing is left.  It runs after any course of jobs, rebuilds, erasures and
  earlier passes, finished or broken off; each statement reads the clock and the
  policies for itself.

      people     — an event and a session have their visitor in every store that is
                   reached; the people left over go after what described them
      the index  — a row is not seen after its session, so it expires with the session
                   where it is cut no earlier.  What sessions were cut by and the
                   index was not, is owed (`Course.owed`)
-/
import Momento.Foundation.Calendar
import Momento.Service.DataDeletion
import Momento.Service.IdentityLinks
import Momento.Service.RollupRetention

namespace Momento.Retention

open Foundation Momento.Rollup

/-! ## §1. A pass. -/

/-- The table a statement of `deleteExpired` names. -/
def table : RetentionBatch → String
  | .rawEvents _ => "raw_events"
  | .sessions _ => "sessions"
  | .visitorSessions _ => "visitor_sessions"
  | .visitorIdentities _ => "visitor_identities"
  | .visitors _ => "visitors"
  | .identifiedUsers _ => "identified_users"
  | .dailySiteMetrics _ => "daily_site_metrics"
  | .dailySiteVisitors _ => "daily_site_visitors"
  | .dailySiteSessions _ => "daily_site_sessions"
  | .dimensionValues _ => "data_quality_dimension_values"

/-- The rows of the batch's table. -/
def rowCount (s : Store) : RetentionBatch → Nat
  | .rawEvents _ => s.rawEvents.rows.length
  | .sessions _ => s.sessions.entries.length
  | .visitorSessions _ => s.visitorSessions.entries.length
  | .visitorIdentities _ => s.visitorIdentities.entries.length
  | .visitors _ => s.visitors.entries.length
  | .identifiedUsers _ => s.identifiedUsers.entries.length
  | .dailySiteMetrics _ => s.dailySiteMetrics.entries.length
  | .dailySiteVisitors _ => s.dailySiteVisitors.entries.length
  | .dailySiteSessions _ => s.dailySiteSessions.entries.length
  | .dimensionValues _ => s.dimensionValues.length

/-- `tag.RowsAffected()`. -/
def removed (readings : RetentionReadings) (batch : RetentionBatch) (s : Store) : Nat :=
  rowCount s batch - rowCount (s.drop readings batch) batch

/-- A history, and by site the instant its sessions were cut at while rows of
`visitor_sessions` from before are still there. -/
structure Course where
  history : History
  owed : Uuid → Option Instant

/-- No row, and nothing owed. -/
def Course.initial (config : Config) : Course := ⟨History.initial config, fun _ => none⟩

/-- What is owed after an action that left `s`. -/
def owedAfter (s : Store) (owed : Uuid → Option Instant) : Rollup.Action → Uuid → Option Instant
  | .sweep readings (.sessions _), siteId =>
    some ((owed siteId).elim (readings.sessionCutoff siteId) (max (readings.sessionCutoff siteId)))
  | .sweep _ (.visitorSessions _), siteId =>
    (owed siteId).filter fun cutoff =>
      s.visitorSessions.entries.any fun e => e.1.siteId = siteId && e.2.lastSeen < cutoff
  | _, siteId => owed siteId

/-- **A step.** -/
def Course.step (env : Platform) (c : Course) (a : Rollup.Action) : Course :=
  ⟨c.history.step env a, owedAfter (c.history.step env a).store c.owed a⟩

/-- **`cleanupOnce` to its end**: table after table, `deleteExpired` runs batches until
a statement removes nothing. -/
inductive Passes (env : Platform) : Course → List RetentionBatch → List Rollup.Action → Prop
  | done (c : Course) : Passes env c [] []
  | batch {c : Course} {t : RetentionBatch} {tables : List RetentionBatch} {actions : List Rollup.Action}
      (readings : RetentionReadings) (b : RetentionBatch) (hb : table b = table t)
      (rest : Passes env (c.step env (.sweep readings b)) (t :: tables) actions) :
      Passes env c (t :: tables) (.sweep readings b :: actions)
  | next {c : Course} {t : RetentionBatch} {tables : List RetentionBatch} {actions : List Rollup.Action}
      (readings : RetentionReadings) (hnone : removed readings t c.history.store = 0)
      (rest : Passes env (c.step env (.sweep readings t)) tables actions) :
      Passes env c (t :: tables) (.sweep readings t :: actions)

/-- **The index is cut no earlier than it owes.** -/
def InOrder (c : Course) : Rollup.Action → Prop
  | .sweep readings (.visitorSessions _) =>
    ∀ siteId, ∀ cutoff ∈ c.owed siteId, cutoff ≤ readings.sessionCutoff siteId
  | _ => True

/-! ## §2. Closure. -/

/-- A raw event or a session of the visitor is there. -/
def Describes (s : Store) (k : VisitorKey) : Prop :=
  (∃ r ∈ s.rawEvents.rows, r.visitorKey = k)
    ∨ ∃ k' row, s.sessions.lookup k' = some row ∧ k'.siteId = k.siteId ∧ row.visitorId = k.visitorId

/-- **Nothing about people refers to nothing.** -/
structure PeopleClosed (s : Store) : Prop where
  visitors : ∀ k ∈ s.visitors, Describes s k
  identities : ∀ k ∈ s.visitorIdentities, Describes s k
  users : ∀ k ∈ s.identifiedUsers, ∃ k' i, s.visitorIdentities.lookup k' = some i
    ∧ k'.siteId = k.siteId ∧ i.userId = k.userId
  rawEvents : ∀ r ∈ s.rawEvents.rows, r.visitorKey ∈ s.visitors
  sessions : ∀ k row, s.sessions.lookup k = some row → ⟨k.siteId, row.visitorId⟩ ∈ s.visitors

/-- **Nothing refers to nothing.** -/
structure Closed (s : Store) : Prop extends PeopleClosed s where
  index : ∀ k ∈ s.visitorSessions, ∃ k' ∈ s.sessions, k'.siteId = k.siteId ∧ k'.sessionId = k.sessionId

/-! ## §3. What ties the tables together. -/

/-- A session of that id was active at `t` or later. -/
def Reaches (s : Store) (siteId : Uuid) (sessionId : String) (t : Instant) : Prop :=
  ∃ k row, s.sessions.lookup k = some row ∧ k.siteId = siteId ∧ k.sessionId = sessionId
    ∧ t ≤ row.lastEventAt

/-- **The invariant of every course.** -/
structure Traced (owed : Uuid → Option Instant) (s : Store) : Prop where
  rawEvents : ∀ r ∈ s.rawEvents.rows, r.visitorKey ∈ s.visitors
  sessions : ∀ k row, s.sessions.lookup k = some row → ⟨k.siteId, row.visitorId⟩ ∈ s.visitors
  index : ∀ k row, s.visitorSessions.lookup k = some row →
    Reaches s k.siteId k.sessionId row.lastSeen ∨ ∃ cutoff ∈ owed k.siteId, row.lastSeen < cutoff

/-- What a session and a row of the index are to the invariant. -/
def sessionFacts (row : Session) : String × Instant := (row.visitorId, row.lastEventAt)

variable {owed : Uuid → Option Instant} {s s' : Store}

/-- Statements that take raw events and leave visitors, sessions and the index as far as
the invariant reads them. -/
theorem Traced.frame (hs : Traced owed s) (hrows : ∀ r ∈ s'.rawEvents.rows, r ∈ s.rawEvents.rows)
    (hvisitors : ∀ k ∈ s.visitors, k ∈ s'.visitors)
    (hsessions : ∀ k, (s'.sessions.lookup k).map sessionFacts = (s.sessions.lookup k).map sessionFacts)
    (hindex : ∀ k, (s'.visitorSessions.lookup k).map VisitorSession.lastSeen
      = (s.visitorSessions.lookup k).map VisitorSession.lastSeen) : Traced owed s' where
  rawEvents r hr := hvisitors _ (hs.rawEvents r (hrows r hr))
  sessions k row hrow := by
    have hfacts := hsessions k
    rw [hrow, Option.map_some] at hfacts
    obtain ⟨row', hrow', hsame⟩ := Option.map_eq_some_iff.mp hfacts.symm
    have hvisitor : row'.visitorId = row.visitorId := congrArg Prod.fst hsame
    rw [← hvisitor]
    exact hvisitors _ (hs.sessions k row' hrow')
  index k row hrow := by
    have hseen := hindex k
    rw [hrow, Option.map_some] at hseen
    obtain ⟨row', hrow', hsame⟩ := Option.map_eq_some_iff.mp hseen.symm
    have hlast : row'.lastSeen = row.lastSeen := hsame
    obtain hreached | howed := hs.index k row' hrow'
    · obtain ⟨k₁, session, hsession, hsite, hid, hle⟩ := hreached
      -- the session is there still, with the times it had
      have hfacts := hsessions k₁
      rw [hsession, Option.map_some] at hfacts
      obtain ⟨session', hsession', hsame'⟩ := Option.map_eq_some_iff.mp hfacts
      have hactive : session'.lastEventAt = session.lastEventAt := congrArg Prod.snd hsame'
      exact Or.inl ⟨k₁, session', hsession', hsite, hid, by rw [hactive, ← hlast]; exact hle⟩
    · rw [hlast] at howed
      exact Or.inr howed

theorem Traced.initial (config : Config) (owed : Uuid → Option Instant) :
    Traced owed (Store.initial config) where
  rawEvents r hr := absurd hr List.not_mem_nil
  sessions k row hrow := by cases hrow
  index k row hrow := by cases hrow

/-! ## §4. A job. -/

section Job
variable (a : Arrival) (s : Store)

theorem store_mem_visitors (h : ¬a.Known s) (k : VisitorKey) :
    k ∈ (a.store s h).visitors ↔ k = a.visitorKey ∨ k ∈ s.visitors := by
  rw [← AList.lookup_isSome, ← AList.lookup_isSome, a.store_visitors, a.derive_visitors]
  by_cases hk : k = a.visitorKey
  · simp [hk]
  · simp [hk]

/-- The row of the index an event touches. -/
def indexKey : VisitorSessionKey :=
  ⟨a.context.siteId, a.context.request.visitorId, a.context.request.sessionId⟩

/-- Showing the linked user leaves the times. -/
theorem identify_lastSeen (key : VisitorKey) (userId : String) (eventTime : Instant)
    (k : VisitorSessionKey) :
    ((s.identify key userId eventTime).visitorSessions.lookup k).map VisitorSession.lastSeen
      = (s.visitorSessions.lookup k).map VisitorSession.lastSeen := by
  unfold Store.identify
  split
  · show (((((s.linkIdentity key userId eventTime).exposeInVisitors key).exposeInVisitorSessions
      key).visitorSessions).lookup k).map VisitorSession.lastSeen = _
    unfold Store.exposeInVisitorSessions
    rw [Table.lookup_modifyRows, Option.map_map]
    show (s.visitorSessions.lookup k).map _ = _
    congr 1
    funext v
    simp only [Function.comp_apply]
    split
    · rfl
    · rfl
  · rfl

theorem beforeSession_lastSeen (k : VisitorSessionKey) :
    ((a.beforeSession s).visitorSessions.lookup k).map VisitorSession.lastSeen
      = (s.visitorSessions.lookup k).map VisitorSession.lastSeen := by
  obtain ⟨jobs, values, hshape⟩ := Store.beforeVisitor_shape a.context a.event a.eventTime
    a.unreported s
  have hlinked : ∀ (t : Store), (t.touchLinked a.visitorKey (a.canonical s)
      a.context.userProperties a.eventTime).visitorSessions = t.visitorSessions := by
    intro t
    unfold Store.touchLinked
    split
    · rfl
    · rfl
  unfold Arrival.beforeSession
  rw [hlinked]
  show ((s.beforeVisitor a.context a.event a.eventTime a.unreported).visitorSessions.lookup k).map
    VisitorSession.lastSeen = _
  rw [hshape, identify_lastSeen]
  rfl

/-- **What an event does to the index**: its own row is seen at its time. -/
theorem store_lastSeen (h : ¬a.Known s) (k : VisitorSessionKey) :
    ((a.store s h).visitorSessions.lookup k).map VisitorSession.lastSeen
      = if k = indexKey a then
          some (((s.visitorSessions.lookup k).map VisitorSession.lastSeen).elim a.eventTime
            (max · a.eventTime))
        else (s.visitorSessions.lookup k).map VisitorSession.lastSeen := by
  have hbefore := beforeSession_lastSeen a { s with rawEvents := s.rawEvents.insert a.row h } k
  unfold Arrival.store
  rw [a.derive_eq]
  show (((a.beforeSession { s with rawEvents := s.rawEvents.insert a.row h }).visitorSessions.upsert
    (indexKey a) _ _).lookup k).map VisitorSession.lastSeen = _
  by_cases hk : k = indexKey a
  · subst hk
    rw [if_pos rfl, Table.lookup_upsert_self, ← hbefore]
    cases (a.beforeSession { s with rawEvents := s.rawEvents.insert a.row h }).visitorSessions.lookup
      (indexKey a) with
    | none => rfl
    | some v => rfl
  · rw [if_neg hk, Table.lookup_upsert_of_ne hk, hbefore]

/-- **One stored event keeps the ties**: it brings its visitor, and reaches its session
at the time its row of the index is seen. -/
theorem traced_store (h : ¬a.Known s) (hs : Traced owed s) : Traced owed (a.store s h) where
  rawEvents r hr := by
    rw [store_mem_visitors]
    rw [a.store_rows] at hr
    cases List.mem_cons.mp hr with
    | inl hnew =>
      left
      rw [hnew]
      rfl
    | inr hold => exact Or.inr (hs.rawEvents r hold)
  sessions k row hrow := by
    rw [store_mem_visitors]
    rw [a.store_sessions] at hrow
    by_cases hk : k = a.sessionKey
    · rw [if_pos hk] at hrow
      -- the session is the event's visitor's now
      have hvisitor : row.visitorId = a.context.request.visitorId := by
        rw [← Option.some.inj hrow]
        cases s.sessions.lookup k with
        | none => rfl
        | some old => rfl
      left
      rw [hvisitor, hk]
      rfl
    · rw [if_neg hk] at hrow
      exact Or.inr (hs.sessions k row hrow)
  index k row hrow := by
    have hseen := store_lastSeen a s h k
    rw [hrow, Option.map_some] at hseen
    have hreaches : ∀ {siteId : Uuid} {sessionId : String} {t : Instant},
        Reaches s siteId sessionId t → Reaches (a.store s h) siteId sessionId t := by
      rintro siteId sessionId t ⟨k₁, session, hsession, hsite, hid, hle⟩
      by_cases hk₁ : k₁ = a.sessionKey
      · -- the session the event is of only gets later
        refine ⟨k₁, (a.touch s).update (s.config.threshold a.context.siteId) session, ?_, hsite, hid, ?_⟩
        · rw [a.store_sessions, if_pos hk₁, hsession]
          rfl
        · exact le_trans hle (le_max_left _ _)
      · exact ⟨k₁, session, by rw [a.store_sessions, if_neg hk₁, hsession], hsite, hid, hle⟩
    have hown : Reaches (a.store s h) a.context.siteId a.context.request.sessionId a.eventTime := by
      refine ⟨a.sessionKey, _, by rw [a.store_sessions, if_pos rfl], rfl, rfl, ?_⟩
      cases s.sessions.lookup a.sessionKey with
      | none => exact le_refl a.eventTime
      | some old => exact le_max_right old.lastEventAt a.eventTime
    by_cases hk : k = indexKey a
    · rw [if_pos hk] at hseen
      cases hold : s.visitorSessions.lookup k with
      | none =>
        rw [hold] at hseen
        have hlast : row.lastSeen = a.eventTime := Option.some.inj hseen
        left
        rw [hlast, hk]
        exact hown
      | some old =>
        rw [hold] at hseen
        have hlast : row.lastSeen = max old.lastSeen a.eventTime := Option.some.inj hseen
        by_cases hlate : old.lastSeen ≤ a.eventTime
        · left
          rw [hlast, max_eq_right hlate, hk]
          exact hown
        · -- a late event leaves the row as it was seen
          have hmax : max old.lastSeen a.eventTime = old.lastSeen :=
            max_eq_left (le_of_lt (not_le.mp hlate))
          rw [hlast, hmax]
          exact (hs.index k old hold).imp hreaches fun h => h
    · rw [if_neg hk] at hseen
      obtain ⟨old, hold, hsame⟩ := Option.map_eq_some_iff.mp hseen.symm
      rw [← hsame]
      exact (hs.index k old hold).imp hreaches fun h => h

end Job

theorem traced_job (env : Platform) (j : Job) (hs : Traced owed s) : Traced owed (afterJob env s j) := by
  have hmeet : j.Succeeds env s → j.Meets env (fun _ _ => True) s :=
    fun _ _ _ _ _ _ => eventsMeet_of_forall _ fun _ _ => trivial
  refine afterJob_induction (I := Traced owed) ?_ ?_ hmeet hs
  · intro a s hnew _ hs _
    exact traced_store a s hnew hs
  · -- a duplicate touches the quality counters only
    intro s key hs
    exact ⟨hs.rawEvents, hs.sessions, hs.index⟩

/-! ## §5. A batch of a pass. -/

theorem describesVisitor_iff (s : Store) (k : VisitorKey) : s.describesVisitor k = true ↔ Describes s k := by
  unfold Store.describesVisitor Describes
  rw [Bool.or_eq_true, List.any_eq_true, List.any_eq_true]
  constructor
  · intro h
    cases h with
    | inl h =>
      obtain ⟨r, hr, hk⟩ := h
      exact Or.inl ⟨r, hr, of_decide_eq_true hk⟩
    | inr h =>
      obtain ⟨e, he, hk⟩ := h
      have hboth := of_decide_eq_true hk
      exact Or.inr ⟨e.1, e.2, AList.mem_lookup_iff.mpr he, hboth.1, hboth.2⟩
  · intro h
    cases h with
    | inl h =>
      obtain ⟨r, hr, hk⟩ := h
      exact Or.inl ⟨r, hr, decide_eq_true hk⟩
    | inr h =>
      obtain ⟨k', row, hrow, hsite, hvisitor⟩ := h
      exact Or.inr ⟨⟨k', row⟩, AList.mem_lookup_iff.mp hrow, decide_eq_true ⟨hsite, hvisitor⟩⟩

theorem namesUser_iff (s : Store) (k : UserKey) : s.namesUser k = true ↔
    ∃ k' i, s.visitorIdentities.lookup k' = some i ∧ k'.siteId = k.siteId ∧ i.userId = k.userId := by
  unfold Store.namesUser
  rw [List.any_eq_true]
  constructor
  · rintro ⟨e, he, hk⟩
    have hboth := of_decide_eq_true hk
    exact ⟨e.1, e.2, AList.mem_lookup_iff.mpr he, hboth.1, hboth.2⟩
  · rintro ⟨k', i, hi, hsite, huser⟩
    exact ⟨⟨k', i⟩, AList.mem_lookup_iff.mp hi, decide_eq_true ⟨hsite, huser⟩⟩

/-- The rows a deletion leaves. -/
theorem lookup_deleteRows_iff {κ ρ : Type} [DecidableEq κ] {drop : κ → ρ → Bool} {t : Table κ ρ} {k : κ}
    {row : ρ} : (t.deleteRows drop).lookup k = some row ↔ t.lookup k = some row ∧ drop k row = false := by
  rw [Table.lookup_deleteRows, Option.filter_eq_some_iff, Bool.not_eq_true']

theorem mem_deleteRows_iff {κ ρ : Type} [DecidableEq κ] {drop : κ → ρ → Bool} {t : Table κ ρ} {k : κ} :
    k ∈ t.deleteRows drop ↔ ∃ row, t.lookup k = some row ∧ drop k row = false := by
  rw [← AList.lookup_isSome, Option.isSome_iff_exists]
  exact exists_congr fun row => lookup_deleteRows_iff

theorem mem_of_lookup {κ ρ : Type} [DecidableEq κ] {t : Table κ ρ} {k : κ} {row : ρ}
    (h : t.lookup k = some row) : k ∈ t := by
  rw [← AList.lookup_isSome, h]
  rfl

/-- A visitor of whom something is left is not deleted. -/
theorem mem_visitors_drop {readings : RetentionReadings} {picked : VisitorKey → Bool} {k : VisitorKey}
    (hk : k ∈ s.visitors) (hdescribed : Describes s k) :
    k ∈ (s.drop readings (.visitors picked)).visitors := by
  obtain ⟨row, hrow⟩ := Option.isSome_iff_exists.mp (AList.lookup_isSome.mpr hk)
  show k ∈ s.visitors.deleteRows fun k _ => !s.describesVisitor k && picked k
  rw [mem_deleteRows_iff]
  exact ⟨row, hrow, by rw [(describesVisitor_iff s k).mpr hdescribed]; rfl⟩

/-- **One batch keeps the ties**: what a session leaves of the index is owed. -/
theorem traced_sweep (readings : RetentionReadings) (b : RetentionBatch) (hs : Traced owed s) :
    Traced (owedAfter (s.drop readings b) owed (.sweep readings b)) (s.drop readings b) := by
  cases b with
  | rawEvents picked =>
    refine hs.frame ?_ (fun k hk => hk) (fun _ => rfl) (fun _ => rfl)
    intro r hr
    exact List.mem_of_mem_filter hr
  | sessions picked =>
    refine { rawEvents := hs.rawEvents, sessions := ?_, index := ?_ }
    · intro k row hrow
      exact hs.sessions k row (lookup_deleteRows_iff.mp hrow).1
    · intro k row hrow
      have howed : ∃ cutoff, owedAfter (s.drop readings (.sessions picked)) owed
          (.sweep readings (.sessions picked)) k.siteId = some cutoff
            ∧ readings.sessionCutoff k.siteId ≤ cutoff ∧ ∀ old ∈ owed k.siteId, old ≤ cutoff := by
        cases hold : owed k.siteId with
        | none =>
          refine ⟨_, by rw [owedAfter, hold]; rfl, le_refl _, ?_⟩
          intro old h
          cases h
        | some old =>
          refine ⟨_, by rw [owedAfter, hold]; rfl, le_max_left _ _, ?_⟩
          intro old' h
          cases h
          exact le_max_right _ _
      obtain ⟨cutoff, hcutoff, hnew, hbefore⟩ := howed
      obtain hreached | ⟨old, hold, hlt⟩ := hs.index k row hrow
      · obtain ⟨k₁, session, hsession, hsite, hid, hle⟩ := hreached
        cases hdrop : (session.lastEventAt < readings.sessionCutoff k₁.siteId && picked k₁ : Bool) with
        | false =>
          exact Or.inl ⟨k₁, session, lookup_deleteRows_iff.mpr ⟨hsession, hdrop⟩, hsite, hid, hle⟩
        | true =>
          -- the session is gone, and the row was seen before the cut
          have hcut : session.lastEventAt < readings.sessionCutoff k₁.siteId :=
            of_decide_eq_true (Bool.and_eq_true_iff.mp hdrop).1
          rw [hsite] at hcut
          exact Or.inr ⟨cutoff, hcutoff, lt_of_le_of_lt hle (lt_of_lt_of_le hcut hnew)⟩
      · exact Or.inr ⟨cutoff, hcutoff, lt_of_lt_of_le hlt (hbefore old hold)⟩
  | visitorSessions picked =>
    refine { rawEvents := hs.rawEvents, sessions := hs.sessions, index := ?_ }
    intro k row hrow
    refine (hs.index k row (lookup_deleteRows_iff.mp hrow).1).imp (fun h => h) ?_
    rintro ⟨cutoff, hcutoff, hlt⟩
    -- the row itself shows that the site still owes the cut
    have hany : ((s.drop readings (.visitorSessions picked)).visitorSessions.entries.any fun e =>
        e.1.siteId = k.siteId && e.2.lastSeen < cutoff) = true := by
      rw [List.any_eq_true]
      exact ⟨⟨k, row⟩, AList.mem_lookup_iff.mp hrow, by simp [hlt]⟩
    refine ⟨cutoff, ?_, hlt⟩
    show (owed k.siteId).filter _ = some cutoff
    rw [Option.filter_eq_some_iff]
    exact ⟨hcutoff, hany⟩
  | visitors picked =>
    refine { rawEvents := ?_, sessions := ?_, index := hs.index }
    · intro r hr
      exact mem_visitors_drop (hs.rawEvents r hr) (Or.inl ⟨r, hr, rfl⟩)
    · intro k row hrow
      exact mem_visitors_drop (hs.sessions k row hrow) (Or.inr ⟨k, row, hrow, rfl, rfl⟩)
  | _ => exact ⟨hs.rawEvents, hs.sessions, hs.index⟩

/-! ## §6. Rebuilds. -/

section Rebuild
variable {env : Platform} {siteId : Uuid}

theorem traced_replaceDaily (covers : DayKey → Bool) (metrics : Table DayKey DailyMetrics)
    (visitors : Table DayVisitorKey DailyVisitor) (sessions : Table DaySessionKey DailySession)
    (hs : Traced owed s) : Traced owed (s.replaceDaily covers metrics visitors sessions) :=
  ⟨hs.rawEvents, hs.sessions, hs.index⟩

/-- **A refilled table** has a row for every group of the site's events. -/
theorem lookup_refilled {κ ρ : Type} [DecidableEq κ] {key : RawEvent → κ} (site : κ → Uuid)
    (hkey : ∀ r, site (key r) = r.siteId) (agg : κ → List RawEvent → ρ) (rows : List RawEvent)
    (t : Table κ ρ) (k : κ) :
    (Table.replaceRows (fun k => decide (site k = siteId))
        (Table.groupRows key agg (siteRows siteId rows)) t).lookup k
      = if site k = siteId then
          if Table.groupOf key rows k = [] then none else some (agg k (Table.groupOf key rows k))
        else t.lookup k := by
  rw [Table.lookup_replaceRows t fun k hk =>
    lookup_groupRows_siteRows site hkey agg rows (of_decide_eq_false hk)]
  by_cases hk : site k = siteId
  · subst hk
    rw [if_pos (decide_eq_true rfl), if_pos rfl, Table.lookup_groupRows,
      groupOf_siteRows fun r hr => (hkey r).symm.trans (congrArg site hr)]
  · rw [if_neg (by simp [hk]), if_neg hk]

theorem refill_visitors (k : VisitorKey) :
    (s.refill siteId).visitors.lookup k
      = if k.siteId = siteId then
          if s.visitorGroup k = [] then none else some (rebuildVisitorRow (s.visitorGroup k))
        else s.visitors.lookup k :=
  lookup_refilled VisitorKey.siteId (fun _ => rfl) _ _ s.visitors k

theorem refill_sessions (k : SessionKey) :
    (s.refill siteId).sessions.lookup k
      = if k.siteId = siteId then
          if s.sessionGroup k = [] then none
          else some (rebuildSessionRow (s.config.threshold siteId) (s.sessionGroup k))
        else s.sessions.lookup k :=
  lookup_refilled SessionKey.siteId (fun _ => rfl) _ _ s.sessions k

theorem refill_index (k : VisitorSessionKey) :
    (s.refill siteId).visitorSessions.lookup k
      = if k.siteId = siteId then
          if Table.groupOf RawEvent.visitorSessionKey s.rawEvents.rows k = [] then none
          else some (rebuildVisitorSessionRow
            (Table.groupOf RawEvent.visitorSessionKey s.rawEvents.rows k))
        else s.visitorSessions.lookup k :=
  lookup_refilled VisitorSessionKey.siteId (fun _ => rfl) _ _ s.visitorSessions k

/-- An event of the site has its visitor's row after the refill. -/
theorem mem_refill_visitors {r : RawEvent} (hr : r ∈ s.rawEvents.rows) (hsite : r.siteId = siteId) :
    r.visitorKey ∈ (s.refill siteId).visitors := by
  have hgroup : s.visitorGroup r.visitorKey ≠ [] :=
    List.ne_nil_of_mem (List.mem_filter.mpr ⟨hr, decide_eq_true rfl⟩)
  rw [← AList.lookup_isSome, refill_visitors, if_pos (show r.visitorKey.siteId = siteId from hsite),
    if_neg hgroup]
  rfl

/-- An event of the site has its session after the refill, active at its time or
later. -/
theorem reaches_refill {r : RawEvent} (hr : r ∈ s.rawEvents.rows) (hsite : r.siteId = siteId) :
    Reaches (s.refill siteId) r.siteId r.sessionId r.eventTimestamp := by
  have hmem : r ∈ s.sessionGroup r.sessionKey := List.mem_filter.mpr ⟨hr, decide_eq_true rfl⟩
  have hgroup : s.sessionGroup r.sessionKey ≠ [] := List.ne_nil_of_mem hmem
  have hrow := @refill_sessions s siteId r.sessionKey
  rw [if_pos (show r.sessionKey.siteId = siteId from hsite), if_neg hgroup] at hrow
  refine ⟨r.sessionKey, _, hrow, rfl, rfl, ?_⟩
  show r.eventTimestamp ≤ (lastTime (s.sessionGroup r.sessionKey)).getD 0
  cases hlast : lastTime (s.sessionGroup r.sessionKey) with
  | none => exact absurd (maxTime_eq_none_iff.mp hlast) hgroup
  | some last => exact le_maxTime hlast r hmem

/-- The visitor a rebuilt session is of comes from one of its events. -/
theorem rebuilt_visitor {rows : List RawEvent} (h : rows ≠ []) (threshold : Nat) :
    ∃ r ∈ rows, (rebuildSessionRow threshold rows).visitorId = r.visitorId := by
  show ∃ r ∈ rows, (firstTouch (fun r => some r.visitorId) rows).getD "" = r.visitorId
  cases hfirst : firstRow rows (fun r => some r.visitorId) with
  | none =>
    -- every row has a visitor
    obtain ⟨r, hr⟩ := List.exists_mem_of_ne_nil rows h
    have hempty := (firstBy_eq_none _).mp hfirst
    have hmem : r ∈ rows.filter fun r : RawEvent => (some r.visitorId).isSome :=
      List.mem_filter.mpr ⟨hr, rfl⟩
    rw [hempty] at hmem
    exact absurd hmem List.not_mem_nil
  | some r =>
    refine ⟨r, (earliestRow_carries hfirst).1, ?_⟩
    rw [firstTouch, earliest_of_row hfirst]
    rfl

/-- **The refill ties the tables of its site anew** and leaves those of the others. -/
theorem traced_refill (siteId : Uuid) (hs : Traced owed s) : Traced owed (s.refill siteId) where
  rawEvents r hr := by
    by_cases hsite : r.siteId = siteId
    · exact mem_refill_visitors hr hsite
    · have hold := hs.rawEvents r hr
      rw [← AList.lookup_isSome] at hold ⊢
      rw [refill_visitors, if_neg (show ¬r.visitorKey.siteId = siteId from hsite)]
      exact hold
  sessions k row hrow := by
    rw [refill_sessions] at hrow
    by_cases hsite : k.siteId = siteId
    · rw [if_pos hsite] at hrow
      by_cases hgroup : s.sessionGroup k = []
      · rw [if_pos hgroup] at hrow
        cases hrow
      · rw [if_neg hgroup] at hrow
        obtain ⟨r, hr, hvisitor⟩ := rebuilt_visitor hgroup (s.config.threshold siteId)
        have hmem := List.mem_filter.mp hr
        have hkey : r.sessionKey = k := of_decide_eq_true hmem.2
        have hrsite : r.siteId = k.siteId := congrArg SessionKey.siteId hkey
        rw [← Option.some.inj hrow, hvisitor, ← hrsite]
        exact mem_refill_visitors hmem.1 (hrsite.trans hsite)
    · rw [if_neg hsite] at hrow
      have hold := hs.sessions k row hrow
      rw [← AList.lookup_isSome] at hold ⊢
      rw [refill_visitors, if_neg hsite]
      exact hold
  index k row hrow := by
    rw [refill_index] at hrow
    by_cases hsite : k.siteId = siteId
    · rw [if_pos hsite] at hrow
      by_cases hgroup : Table.groupOf RawEvent.visitorSessionKey s.rawEvents.rows k = []
      · rw [if_pos hgroup] at hrow
        cases hrow
      · rw [if_neg hgroup] at hrow
        -- the event the row is last seen at has a session
        cases hlast : lastTime (Table.groupOf RawEvent.visitorSessionKey s.rawEvents.rows k) with
        | none => exact absurd (maxTime_eq_none_iff.mp hlast) hgroup
        | some last =>
          obtain ⟨r, hr, htime⟩ := maxTime_mem hlast
          have hmem := List.mem_filter.mp hr
          have hkey : r.visitorSessionKey = k := of_decide_eq_true hmem.2
          have hseen : row.lastSeen = r.eventTimestamp := by
            rw [← Option.some.inj hrow]
            show (lastTime _).getD 0 = _
            rw [hlast, Option.getD_some, ← htime]
          left
          rw [hseen, ← hkey]
          exact reaches_refill hmem.1 ((congrArg VisitorSessionKey.siteId hkey).trans hsite)
    · rw [if_neg hsite] at hrow
      refine (hs.index k row hrow).imp ?_ fun h => h
      rintro ⟨k₁, session, hsession, hsite₁, hid, hle⟩
      have hother : ¬k₁.siteId = siteId := by rwa [hsite₁]
      exact ⟨k₁, session, by rw [refill_sessions, if_neg hother, hsession], hsite₁, hid, hle⟩

theorem traced_rebuild (hs : Traced owed s) (h : s.rebuildSiteDerivedData env siteId = .ok s') :
    Traced owed s' := by
  obtain ⟨metrics, -, rfl⟩ := replaced_of_daily (s := s.refill siteId) h
  exact traced_replaceDaily _ _ _ _ (traced_refill siteId hs)

end Rebuild

/-! ## §7. Courses. -/

section Steps
variable {env : Platform}

/-- The queue of rebuilds is none of the tables. -/
theorem traced_queue (s : Store) (jobs : List AggregateJob) (hs : Traced owed s) :
    Traced owed { s with aggregateJobs := jobs } :=
  ⟨hs.rawEvents, hs.sessions, hs.index⟩

/-- A new threshold changes the flag of a session only. -/
theorem traced_recomputed (siteId : Uuid) (site : Site) (threshold : Nat) (hs : Traced owed s) :
    Traced owed { s.withSite siteId site with sessions := recomputeEngaged siteId threshold s.sessions } := by
  refine hs.frame (fun r hr => hr) (fun k hk => hk) ?_ (fun _ => rfl)
  intro k
  show ((recomputeEngaged siteId threshold s.sessions).lookup k).map sessionFacts = _
  unfold recomputeEngaged
  rw [Table.lookup_modifyRows, Option.map_map]
  congr 1
  funext row
  simp only [Function.comp_apply]
  split
  · rfl
  · rfl

theorem traced_updateSite {siteId : Uuid} {update : SiteUpdate} (hs : Traced owed s)
    (h : s.updateSite env siteId update = .ok s') : Traced owed s' := by
  obtain ⟨previous, site, -, -, ⟨-, hrebuild⟩ | ⟨-, rfl⟩⟩ := Store.ok_updateSite h
  · obtain ⟨metrics, -, rfl⟩ := replaced_of_daily hrebuild
    exact traced_replaceDaily _ _ _ _ (traced_recomputed siteId _ _ hs)
  · exact traced_recomputed siteId _ _ hs

theorem traced_erase {siteId : Uuid} {selection : Selection} (hs : Traced owed s)
    (h : s.eraseEvents env siteId selection = .ok s') : Traced owed s' := by
  have hdeleted : Traced owed (s.deleteSelected siteId selection) :=
    hs.frame (fun r hr => List.mem_of_mem_filter hr) (fun k hk => hk) (fun _ => rfl) (fun _ => rfl)
  exact traced_rebuild hdeleted h

/-- **One step keeps the ties**, whatever it is. -/
theorem traced_step {c : Course} (a : Rollup.Action) (hs : Traced c.owed c.history.store) :
    Traced (c.step env a).owed (c.step env a).history.store := by
  have hstep : (∀ readings batch, a = .sweep readings batch → Traced c.owed (c.history.store.drop readings batch)) →
      Traced c.owed (c.history.step env a).store := fun hsweep =>
    Rollup.History.step_keeps traced_queue (fun j _ => traced_job env j) hsweep (fun _ _ _ => traced_rebuild)
      (fun _ s' _ _ _ _ hs h => by
        obtain ⟨metrics, -, rfl⟩ := replaced_of_range h
        exact traced_replaceDaily _ _ _ _ hs)
      (fun _ _ _ _ => traced_updateSite) (fun _ _ _ _ => traced_erase) hs
  cases a with
  | sweep readings b => exact traced_sweep readings b hs
  | _ => exact hstep fun _ _ h => by cases h

theorem traced_run (actions : List Rollup.Action) {c : Course} (hs : Traced c.owed c.history.store) :
    Traced (actions.foldl (Course.step env) c).owed (actions.foldl (Course.step env) c).history.store :=
  along_induction (I := fun c : Course => Traced c.owed c.history.store) (C := fun _ _ => True)
    (fun _ a hs _ => traced_step a hs) actions hs (along_of_forall actions fun _ _ _ => trivial)

/-- A course is a history with its debts: the runs are those of histories. -/
theorem history_run (actions : List Rollup.Action) (c : Course) :
    (actions.foldl (Course.step env) c).history = actions.foldl (History.step env) c.history := by
  induction actions generalizing c with
  | nil => rfl
  | cons a as ih => exact ih (c.step env a)

end Steps

/-! ## §8. What a table's turn leaves. -/

section Turns
variable {env : Platform}

/-- What every batch of the tables to come keeps, the rest of the pass keeps. -/
theorem Passes.keeps {P : Course → Prop} {c : Course} {tables : List RetentionBatch} {actions : List Rollup.Action}
    (hpass : Passes env c tables actions)
    (hkeep : ∀ c readings b, table b ∈ tables.map table → P c → P (c.step env (.sweep readings b)))
    (hc : P c) : P (actions.foldl (Course.step env) c) := by
  induction hpass with
  | done c => exact hc
  | batch readings b hb rest ih =>
    refine ih hkeep (hkeep _ readings b ?_ hc)
    rw [hb]
    exact List.mem_cons_self
  | next readings hnone rest ih =>
    refine ih (fun c readings b hb => hkeep c readings b (List.mem_cons_of_mem _ hb)) ?_
    exact hkeep _ readings _ List.mem_cons_self hc

/-- **What a table's last statement establishes, and no later table undoes, holds at
the end of the pass.** -/
theorem Passes.establishes {C : Course → Rollup.Action → Prop} {P : Course → Prop} {c : Course}
    {t : RetentionBatch} {tables later : List RetentionBatch} {actions : List Rollup.Action}
    (hpass : Passes env c tables actions) (hC : Along (Course.step env) C c actions)
    (hset : ∀ c readings, C c (.sweep readings t) → P (c.step env (.sweep readings t)))
    (hkeep : ∀ c readings b, table b ∈ later.map table → P c → P (c.step env (.sweep readings b))) :
    ∀ {earlier : List RetentionBatch}, tables = earlier ++ t :: later →
      P (actions.foldl (Course.step env) c) := by
  induction hpass with
  | done c =>
    intro earlier h
    exact absurd h.symm (by simp)
  | batch readings b hb rest ih => exact fun h => ih hC.2 h
  | next readings hnone rest ih =>
    intro earlier h
    cases earlier with
    | nil =>
      -- the turn of `t` ends here
      obtain ⟨rfl, rfl⟩ := List.cons.inj h
      exact rest.keeps hkeep (hset _ readings hC.1)
    | cons first earlier =>
      obtain ⟨rfl, rfl⟩ := List.cons.inj h
      exact ih hC.2 rfl

end Turns

/-! ## §9. Closure. -/

section Closure
variable {env : Platform} {c : Course} {actions : List Rollup.Action}

/-- Every row that names a visitor names one something is left of. -/
def IdentitiesDescribed (c : Course) : Prop :=
  ∀ k ∈ c.history.store.visitorIdentities, Describes c.history.store k

/-- Each visitor has a session or a raw row. -/
def VisitorsDescribed (c : Course) : Prop :=
  ∀ k ∈ c.history.store.visitors, Describes c.history.store k

/-- Each user is linked to a visitor. -/
def UsersNamed (c : Course) : Prop :=
  ∀ k ∈ c.history.store.identifiedUsers, ∃ k' i, c.history.store.visitorIdentities.lookup k' = some i
    ∧ k'.siteId = k.siteId ∧ i.userId = k.userId

/-- A row the clean-up of people leaves is one it had to leave. -/
theorem kept_of_mem {κ ρ : Type} [DecidableEq κ] {needed : κ → Bool} {t : Table κ ρ} {k : κ}
    (h : k ∈ t.deleteRows fun k _ => !needed k && true) : needed k = true := by
  obtain ⟨row, -, hkept⟩ := mem_deleteRows_iff.mp h
  simpa using hkept

theorem identitiesDescribed_of_passes (hpass : Passes env c cleanupBatches actions) :
    IdentitiesDescribed (actions.foldl (Course.step env) c) := by
  refine hpass.establishes (C := fun _ _ => True) (along_of_forall _ fun _ _ _ => trivial) ?_ ?_
    (show cleanupBatches = [.rawEvents fun _ => true, .sessions fun _ => true,
      .visitorSessions fun _ => true] ++ _ :: _ from rfl)
  · intro c readings _ k hk
    exact (describesVisitor_iff c.history.store k).mp (kept_of_mem hk)
  · intro c readings b hb hc
    cases b with
    | rawEvents picked => simp [table] at hb
    | sessions picked => simp [table] at hb
    | visitorIdentities picked => simp [table] at hb
    | _ => exact hc

theorem visitorsDescribed_of_passes (hpass : Passes env c cleanupBatches actions) :
    VisitorsDescribed (actions.foldl (Course.step env) c) := by
  refine hpass.establishes (C := fun _ _ => True) (along_of_forall _ fun _ _ _ => trivial) ?_ ?_
    (show cleanupBatches = [.rawEvents fun _ => true, .sessions fun _ => true,
      .visitorSessions fun _ => true, .visitorIdentities fun _ => true] ++ _ :: _ from rfl)
  · intro c readings _ k hk
    exact (describesVisitor_iff c.history.store k).mp (kept_of_mem hk)
  · intro c readings b hb hc
    cases b with
    | rawEvents picked => simp [table] at hb
    | sessions picked => simp [table] at hb
    | visitors picked => simp [table] at hb
    | _ => exact hc

theorem usersNamed_of_passes (hpass : Passes env c cleanupBatches actions) :
    UsersNamed (actions.foldl (Course.step env) c) := by
  refine hpass.establishes (C := fun _ _ => True) (along_of_forall _ fun _ _ _ => trivial) ?_ ?_
    (show cleanupBatches = [.rawEvents fun _ => true, .sessions fun _ => true,
      .visitorSessions fun _ => true, .visitorIdentities fun _ => true,
      .visitors fun _ => true] ++ _ :: _ from rfl)
  · intro c readings _ k hk
    exact (namesUser_iff c.history.store k).mp (kept_of_mem hk)
  · intro c readings b hb hc
    cases b with
    | visitorIdentities picked => simp [table] at hb
    | identifiedUsers picked => simp [table] at hb
    | _ => exact hc

/-- **The index owes nothing** after a pass that cuts it in order. -/
theorem paid_of_passes (hpass : Passes env c cleanupBatches actions)
    (horder : Along (Course.step env) InOrder c actions) :
    ∀ siteId, (actions.foldl (Course.step env) c).owed siteId = none := by
  refine hpass.establishes (P := fun c => ∀ siteId, c.owed siteId = none) horder ?_ ?_
    (show cleanupBatches = [.rawEvents fun _ => true, .sessions fun _ => true] ++ _ :: _ from rfl)
  · intro c readings hcuts siteId
    show (c.owed siteId).filter _ = none
    cases howed : c.owed siteId with
    | none => rfl
    | some cutoff =>
      rw [Option.filter_some, if_neg]
      intro hany
      obtain ⟨e, he, hlate⟩ := List.any_eq_true.mp hany
      rw [Bool.and_eq_true, decide_eq_true_eq, decide_eq_true_eq] at hlate
      -- the row is left, so it was seen at the cut of the index or later
      have hrow := AList.mem_lookup_iff.mpr he
      have hleft := (lookup_deleteRows_iff.mp hrow).2
      have hcut : cutoff ≤ readings.sessionCutoff e.1.siteId := by
        rw [hlate.1]
        exact hcuts siteId cutoff howed
      rw [Bool.and_true, decide_eq_false_iff_not] at hleft
      exact hleft (lt_of_lt_of_le hlate.2 hcut)
  · intro c readings b hb hc
    cases b with
    | sessions picked => simp [table] at hb
    | visitorSessions picked => simp [table] at hb
    | _ => exact hc

end Closure

/-- **People are closed after every finished pass**, in whatever order its statements
read the clock. -/
theorem people_closed (env : Platform) (config : Config) (actions pass : List Rollup.Action)
    (hpass : Passes env (actions.foldl (Course.step env) (Course.initial config)) cleanupBatches pass) :
    PeopleClosed ((actions ++ pass).foldl (Course.step env) (Course.initial config)).history.store := by
  have htraced := @traced_run env (actions ++ pass) (Course.initial config)
    (Traced.initial config _)
  rw [List.foldl_append] at htraced ⊢
  exact ⟨visitorsDescribed_of_passes hpass, identitiesDescribed_of_passes hpass,
    usersNamed_of_passes hpass, htraced.rawEvents, htraced.sessions⟩

/-- **A finished pass leaves nothing that refers to nothing**, after any course of
jobs, rebuilds, erasures and passes, where it cuts the index of visitors and sessions
no earlier than sessions were cut while rows from before were left in it. -/
theorem cleanup_closed (env : Platform) (config : Config) (actions pass : List Rollup.Action)
    (hpass : Passes env (actions.foldl (Course.step env) (Course.initial config)) cleanupBatches pass)
    (horder : Along (Course.step env) InOrder
      (actions.foldl (Course.step env) (Course.initial config)) pass) :
    Closed ((actions ++ pass).foldl (Course.step env) (Course.initial config)).history.store := by
  have htraced := @traced_run env (actions ++ pass) (Course.initial config)
    (Traced.initial config _)
  have hpaid := paid_of_passes hpass horder
  refine { people_closed env config actions pass hpass with index := ?_ }
  rw [List.foldl_append] at htraced ⊢
  intro k hk
  obtain ⟨row, hrow⟩ := Option.isSome_iff_exists.mp (AList.lookup_isSome.mpr hk)
  obtain ⟨k', session, hsession, hsite, hid, -⟩ | ⟨cutoff, hcutoff, -⟩ := htraced.index k row hrow
  · exact ⟨k', mem_of_lookup hsession, hsite, hid⟩
  · rw [hpaid] at hcutoff
    cases hcutoff

/-! ## §10. The turn of a month. -/

open Calendar in
/-- A date less months: the day of the month, or the last one of a shorter month. -/
def minusMonths (date : Date) (months : Nat) : Date :=
  let k := monthOf date - months
  monthStart k + min (dayOfMonth date) (monthStart (k + 1) - monthStart k) - 1

/-- A day, in microseconds. -/
def dayLength : Int := 86400000000

/-- What a statement at `now` reads on a server in UTC, of a site that keeps its
sessions for a month. -/
def clock (now : Instant) : RetentionReadings where
  rawEventMonths := 13
  debugDays := 7
  policies := AList.singleton Sample.siteId ⟨13, 1, none, by decide, by decide, by simp⟩
  monthsAgo months := minusMonths (now / dayLength) months * dayLength + now % dayLength
  dateMonthsAgo months := minusMonths (now / dayLength) months
  dateDaysAgo days := now / dayLength - days

/-- A page view at noon on November 30th. -/
def noonVisit : Job :=
  Sample.job { Sample.payload "v1" "" [{
      id := Sample.eventId '1', name := "page_view", timestamp := Sample.newYear - 32 * 86400000 + 43200000 }] with
    receivedUnix := Sample.newYear - 32 * 86400000 + 43200000 }

/-- A second before midnight on December 30th, and a second after. -/
def evening : Instant := (Sample.newYear - 86400000 - 1000) * 1000
def night : Instant := (Sample.newYear - 86400000 + 1000) * 1000

-- both days have no counterpart in November but its last: the later statement cuts a day earlier
example : (clock night).sessionCutoff Sample.siteId < (clock evening).sessionCutoff Sample.siteId := by
  decide +kernel

/-- The visit is stored, and nothing else has happened. -/
def visited : Course := [Rollup.Action.job noonVisit].foldl (Course.step Sample.platform)
  (Course.initial (Sample.config 100))

/-- A pass that deletes the session at `first`, and comes to the other tables at
`second`. -/
def sweepsAt (first second : Instant) (index : List Rollup.Action) : List Rollup.Action :=
  [.sweep (clock first) (.rawEvents fun _ => true), .sweep (clock first) (.sessions fun _ => true),
    .sweep (clock first) (.sessions fun _ => true)]
  ++ index
  ++ [.sweep (clock second) (.visitorSessions fun _ => true),
    .sweep (clock second) (.visitorIdentities fun _ => true),
    .sweep (clock second) (.visitors fun _ => true), .sweep (clock second) (.identifiedUsers fun _ => true),
    .sweep (clock second) (.dailySiteMetrics fun _ => true),
    .sweep (clock second) (.dailySiteVisitors fun _ => true),
    .sweep (clock second) (.dailySiteSessions fun _ => true),
    .sweep (clock second) (.dimensionValues fun _ => true),
    .sweep (clock second) (.dimensionValues fun _ => true)]

/-- The pass goes on after midnight. -/
def nightPass : List Rollup.Action := sweepsAt evening night []

theorem passes_nightPass : Passes Sample.platform visited cleanupBatches nightPass :=
  .next _ (by decide +kernel) <| .batch _ _ rfl <| .next _ (by decide +kernel) <|
    .next _ (by decide +kernel) <| .next _ (by decide +kernel) <| .next _ (by decide +kernel) <|
    .next _ (by decide +kernel) <| .next _ (by decide +kernel) <| .next _ (by decide +kernel) <|
    .next _ (by decide +kernel) <| .batch _ _ rfl <| .next _ (by decide +kernel) <| .done _

/-- **A pass over the turn of the day leaves a visit without its session.** -/
theorem nightPass_not_closed :
    ¬∀ (env : Platform) (config : Config) (actions pass : List Rollup.Action),
      Passes env (actions.foldl (Course.step env) (Course.initial config)) cleanupBatches pass →
        Closed ((actions ++ pass).foldl (Course.step env) (Course.initial config)).history.store := by
  intro hall
  have hclosed := hall Sample.platform (Sample.config 100) [.job noonVisit] nightPass passes_nightPass
  have hrow : (((([Rollup.Action.job noonVisit] ++ nightPass).foldl (Course.step Sample.platform)
      (Course.initial (Sample.config 100))).history.store.visitorSessions.lookup
        ⟨Sample.siteId, "v1", "s1"⟩).isSome) = true := by decide +kernel
  have hnone : ((([Rollup.Action.job noonVisit] ++ nightPass).foldl (Course.step Sample.platform)
      (Course.initial (Sample.config 100))).history.store.sessions.keys) = [] := by decide +kernel
  obtain ⟨k, hk, -⟩ := hclosed.index _ (AList.lookup_isSome.mp hrow)
  have hmem : k ∈ (([Rollup.Action.job noonVisit] ++ nightPass).foldl (Course.step Sample.platform)
      (Course.initial (Sample.config 100))).history.store.sessions.keys := hk
  rw [hnone] at hmem
  exact absurd hmem List.not_mem_nil

/-- A statement of the index leaves no debt it did not find. -/
theorem inOrder_again {env : Platform} {c : Course} {readings : RetentionReadings}
    {picked later : VisitorSessionKey → Bool} (h : InOrder c (.sweep readings (.visitorSessions picked))) :
    InOrder (c.step env (.sweep readings (.visitorSessions picked)))
      (.sweep readings (.visitorSessions later)) := by
  intro siteId cutoff hcutoff
  exact h siteId cutoff (Option.filter_eq_some_iff.mp hcutoff).1

/-- The same pass before midnight: the index goes with the session. -/
def eveningPass : List Rollup.Action :=
  sweepsAt evening evening [.sweep (clock evening) (.visitorSessions fun _ => true)]

theorem cleanup_closed_evening :
    Closed (([Rollup.Action.job noonVisit] ++ eveningPass).foldl (Course.step Sample.platform)
      (Course.initial (Sample.config 100))).history.store := by
  have hpass : Passes Sample.platform visited cleanupBatches eveningPass :=
    .next _ (by decide +kernel) <| .batch _ _ rfl <| .next _ (by decide +kernel) <|
      .batch _ _ rfl <| .next _ (by decide +kernel) <| .next _ (by decide +kernel) <|
      .next _ (by decide +kernel) <| .next _ (by decide +kernel) <| .next _ (by decide +kernel) <|
      .next _ (by decide +kernel) <| .next _ (by decide +kernel) <| .batch _ _ rfl <|
      .next _ (by decide +kernel) <| .done _
  -- sessions and index are cut at one instant
  have hfirst : ∀ siteId, ∀ cutoff ∈ (some (max ((clock evening).sessionCutoff siteId)
      ((clock evening).sessionCutoff siteId)) : Option Instant),
        cutoff ≤ (clock evening).sessionCutoff siteId := by
    intro siteId cutoff h
    rw [← Option.some.inj h, max_self]
  exact cleanup_closed Sample.platform (Sample.config 100) [.job noonVisit] eveningPass hpass
    ⟨trivial, trivial, trivial, hfirst, inOrder_again hfirst, trivial, trivial, trivial, trivial,
      trivial, trivial, trivial, trivial, trivial⟩

end Momento.Retention
