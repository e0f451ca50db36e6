/-
  Momento.Service.RollupRetention

  **DO THE ROLLUPS OUTLIVE THE RAW EVENTS?**  Raw events expire on a policy of
  their own, and the daily metrics are meant to stay.  A history is a run of
  worker jobs, retention batches, queued rebuilds, changes of a site's settings
  and erasures of one person; beside the store it remembers the rows the
  retention passes have taken (`expired`), which no table does.

  A day is accounted for when its three counters are those of the events it was
  given: the raw ones it still has and the expired ones.  Every step keeps that
  but a rebuild of a day whose events have expired, which counts those that are
  left.
-/
import Momento.Foundation.Runs
import Momento.Service.DailyMetrics
import Momento.Service.Erasure
import Momento.Service.Maintenance

namespace Momento.Rollup

open Foundation

/-! ## §1. Histories. -/

/-- The store, and what it has forgotten. -/
structure History where
  store : Store
  /-- The rows retention has deleted, less those of the people erased since. -/
  expired : List RawEvent

/-- An empty store. -/
def History.initial (config : Config) : History := ⟨Store.initial config, []⟩

/-- Whose data a privacy request erases. -/
inductive Person where
  | visitor (visitorId : String)
  | user (userId : String)

/-- The rows of a person. -/
def Person.selection (siteId : Uuid) (s : Store) : Person → Selection
  | .visitor visitorId => .visitor visitorId
  | .user userId => .userId userId (s.linkedVisitors siteId userId)

/-- What can happen. -/
inductive Action where
  | job (job : Job)
  | sweep (readings : RetentionReadings) (batch : RetentionBatch)
  | request (siteId : Uuid) (environment jobType reason : String) (first last : Option Date)
  | runNext (i : Nat) (fault : Option DbError)
  | interrupt (i : Nat)
  | recover (stale : AggregateJob → Bool)
  | updateSite (siteId : Uuid) (update : SiteUpdate)
  | erase (siteId : Uuid) (person : Person)

/-- The raw events a batch takes. -/
def sweeps (readings : RetentionReadings) : RetentionBatch → RawEvent → Bool
  | .rawEvents picked, row => readings.rawEventExpired row && picked row
  | _, _ => false

namespace History
variable (env : Platform) (h : History)

/-- **A step.** -/
def step : Action → History
  | .job j => { h with store := afterJob env h.store j }
  | .sweep readings batch =>
    ⟨h.store.drop readings batch, h.store.rawEvents.rows.filter (sweeps readings batch) ++ h.expired⟩
  | .request siteId environment jobType reason first last =>
    match createAggregateJob siteId environment jobType reason first last with
    | .ok job =>
      { h with store := { h.store with aggregateJobs := job :: h.store.aggregateJobs } }
    | .error _ => h
  | .runNext i fault => { h with store := h.store.runNext env i fault }
  | .interrupt i => { h with store := h.store.interruptJob i }
  | .recover stale => { h with store := h.store.recoverJobs stale }
  | .updateSite siteId update =>
    match h.store.updateSite env siteId update with
    | .ok s => { h with store := s }
    | .error _ => h
  | .erase siteId person =>
    let selection := person.selection siteId h.store
    match h.store.eraseEvents env siteId selection with
    | .ok s => ⟨s, h.expired.filter fun r => !(r.siteId = siteId && selection.selects r)⟩
    | .error _ => h

/-- The expired events of a local date and environment. -/
def expiredEvents (k : DayKey) : List RawEvent :=
  (h.store.config.sites.lookup k.siteId).elim [] fun site =>
    Table.groupOf (RawEvent.dayKey env site.timezone) h.expired k

/-- The events accepted for a day and not erased. -/
def dayEvents (k : DayKey) : List RawEvent := h.store.dayGroup env k ++ h.expiredEvents env k

end History

/-- Events, page views and conversions of a group. -/
def countersOf (rows : List RawEvent) : Nat × Nat × Nat :=
  (rows.length, rows.countP (fun r => r.eventName = "page_view"), rows.countP RawEvent.isConversion)

/-- The counters of a row; no row counts nothing. -/
def countersAt (row : Option DailyMetrics) : Nat × Nat × Nat :=
  row.elim (0, 0, 0) fun m => (m.events, m.pageViews, m.conversions)

/-- **Every day's metrics account for every event accepted for it and not
erased.** -/
def History.Accounted (env : Platform) (h : History) : Prop :=
  ∀ k, countersAt (h.store.dailySiteMetrics.lookup k) = countersOf (h.dayEvents env k)

/-- No aggregation policy removes a date's metrics. -/
def KeepsRollups (h : History) : Action → Prop
  | .sweep readings (.dailySiteMetrics picked) =>
    ∀ k, (readings.rollupExpired k && picked k) = true → h.store.dailySiteMetrics.lookup k = none
  | _ => True

/-- The days a queued job rebuilds. -/
def covers (job : AggregateJob) : DayKey → Bool :=
  if job.jobType = "full_rebuild" then coversSite job.siteId
  else match job.dateFrom, job.dateTo with
    | some first, some last => coversRange job.siteId job.environment first last
    | _, _ => fun _ => false

/-- **A rebuild leaves the days of expired events alone**: a queued one, that of a
changed time zone, and that of an erasure, which may pass over the person's own. -/
def SparesExpired (env : Platform) (h : History) : Action → Prop
  | .runNext i _ =>
    ∀ job, h.store.aggregateJobs[i]? = some job → ∀ k, covers job k = true → h.expiredEvents env k = []
  | .updateSite siteId update =>
    ∀ site, h.store.config.sites.lookup siteId = some site → site.timezone ≠ update.timezone →
      ∀ r ∈ h.expired, r.siteId ≠ siteId
  | .erase siteId person =>
    ∀ r ∈ h.expired, r.siteId = siteId → (person.selection siteId h.store).selects r = true
  | _ => True

/-! ## §2. Counting. -/

theorem countersOf_nil : countersOf [] = (0, 0, 0) := rfl

theorem countersOf_cons (r : RawEvent) (rows : List RawEvent) :
    countersOf (r :: rows)
      = ((countersOf rows).1 + 1,
          (countersOf rows).2.1 + (decide (r.eventName = "page_view")).toNat,
          (countersOf rows).2.2 + r.isConversion.toNat) := by
  unfold countersOf
  rw [List.length_cons, Table.countP_cons_toNat, Table.countP_cons_toNat]

theorem countersOf_perm {rows rows' : List RawEvent} (h : rows.Perm rows') :
    countersOf rows = countersOf rows' := by
  unfold countersOf
  rw [h.length_eq, h.countP_eq, h.countP_eq]

/-- What a rebuild writes for a group counts the group. -/
theorem counters_of_rebuilt {rows : List RawEvent} {row : Option DailyMetrics}
    (h : (if rows = [] then none else some (rebuildMetricsRow rows)) = row.map Except.ok) :
    countersAt row = countersOf rows := by
  by_cases hnil : rows = []
  · rw [if_pos hnil] at h
    rw [Option.map_eq_none_iff.mp h.symm, hnil]
    rfl
  · rw [if_neg hnil] at h
    obtain ⟨m, rfl, hm⟩ := Option.map_eq_some_iff.mp h.symm
    unfold rebuildMetricsRow at hm
    cases hamounts : rows.mapM revenueAmountSql with
    | error e =>
      rw [hamounts] at hm
      cases hm
    | ok amounts =>
      rw [hamounts] at hm
      simp only [bind, Except.bind] at hm
      cases hstore : storeNumeric24_6 (.fin amounts.sum) with
      | error e =>
        rw [hstore] at hm
        cases hm
      | ok revenue =>
        rw [hstore] at hm
        obtain rfl := Except.ok.inj hm
        rfl

/-! ## §3. Ingestion and retention. -/

section Steps
variable {env : Platform} {h h' : History}

/-- The reporting time zone of a site. -/
def zoneOf (s : Store) (siteId : Uuid) : Option String :=
  (s.config.sites.lookup siteId).map Site.timezone

theorem dayEvents_eq (env : Platform) (h : History) (k : DayKey) :
    h.dayEvents env k = (zoneOf h.store k.siteId).elim [] fun timezone =>
      Table.groupOf (RawEvent.dayKey env timezone) (h.store.rawEvents.rows ++ h.expired) k := by
  unfold History.dayEvents Store.dayGroup History.expiredEvents zoneOf
  cases h.store.config.sites.lookup k.siteId with
  | none => rfl
  | some site => exact (List.filter_append ..).symm

/-- The same events of a day under the same time zone count alike. -/
theorem countersOf_dayEvents {k : DayKey}
    (hzone : zoneOf h'.store k.siteId = zoneOf h.store k.siteId)
    (hrows : (h'.store.rawEvents.rows ++ h'.expired).Perm (h.store.rawEvents.rows ++ h.expired)) :
    countersOf (h'.dayEvents env k) = countersOf (h.dayEvents env k) := by
  apply countersOf_perm
  rw [dayEvents_eq, dayEvents_eq, hzone]
  cases zoneOf h.store k.siteId with
  | none => exact .refl _
  | some timezone => exact hrows.filter _

/-- The same events and the same metrics stay accounted for. -/
theorem Accounted.frame (hs : h.Accounted env)
    (hzone : ∀ siteId, zoneOf h'.store siteId = zoneOf h.store siteId)
    (hmetrics : ∀ k, h'.store.dailySiteMetrics.lookup k = h.store.dailySiteMetrics.lookup k)
    (hrows : (h'.store.rawEvents.rows ++ h'.expired).Perm (h.store.rawEvents.rows ++ h.expired)) :
    h'.Accounted env := by
  intro k
  rw [hmetrics, hs k]
  exact (countersOf_dayEvents (hzone k.siteId) hrows).symm

/-- **One stored event is counted in its own day.** -/
theorem accounted_store {expired : List RawEvent} (a : Arrival) {s : Store}
    (harrives : Arrives env a s) (hnew : ¬a.Known s) (hs : History.Accounted env ⟨s, expired⟩) :
    History.Accounted env ⟨a.store s hnew, expired⟩ := by
  intro k
  have hold := hs k
  have hconfig : (a.store s hnew).config = s.config := a.derive_config _
  have hexpired : History.expiredEvents env ⟨a.store s hnew, expired⟩ k
      = History.expiredEvents env ⟨s, expired⟩ k := by
    unfold History.expiredEvents
    rw [hconfig]
  unfold History.dayEvents at hold ⊢
  rw [hexpired, a.store_dayGroup harrives hnew k]
  unfold Arrival.store
  rw [a.derive_dailySiteMetrics]
  unfold Store.countMetrics
  dsimp only at hold ⊢
  by_cases hk : k = a.day
  · rw [if_pos hk, List.cons_append, countersOf_cons, ← hold, hk, Table.lookup_upsert_self]
    cases s.dailySiteMetrics.lookup a.day with
    | none =>
      show (1, (decide (a.event.name = "page_view")).toNat, a.conversion.toNat)
        = (0 + 1, 0 + (decide (a.event.name = "page_view")).toNat, 0 + a.conversion.toNat)
      simp only [Nat.zero_add]
    | some m => rfl
  · rw [if_neg hk, Table.lookup_upsert_of_ne hk]
    exact hold

theorem accounted_job (j : Job) (hs : h.Accounted env) :
    ({ h with store := afterJob env h.store j } : History).Accounted env := by
  have hmeet : j.Succeeds env h.store → j.Meets env (fun _ _ => True) h.store :=
    fun _ _ _ _ _ _ => eventsMeet_of_forall _ fun _ _ => trivial
  refine afterJob_induction (I := fun s => History.Accounted env ⟨s, h.expired⟩) ?_ ?_ hmeet hs
  · intro a s hnew harrives hs _
    exact accounted_store a harrives hnew hs
  · -- a duplicate touches the quality counters only
    intro s key hs
    exact hs

/-- What a batch leaves of the raw events and of the metrics. -/
theorem drop_spec (readings : RetentionReadings) (batch : RetentionBatch) (s : Store) :
    (s.drop readings batch).config = s.config
      ∧ (s.drop readings batch).rawEvents.rows
        = s.rawEvents.rows.filter (fun r => !sweeps readings batch r) := by
  cases batch with
  | rawEvents picked => exact ⟨rfl, rfl⟩
  | _ => exact ⟨rfl, (List.filter_eq_self.mpr fun _ _ => rfl).symm⟩

theorem drop_metrics {readings : RetentionReadings} {batch : RetentionBatch}
    (hkeeps : KeepsRollups h (.sweep readings batch)) (k : DayKey) :
    (h.store.drop readings batch).dailySiteMetrics.lookup k = h.store.dailySiteMetrics.lookup k := by
  cases batch with
  | dailySiteMetrics picked =>
    show (h.store.dailySiteMetrics.deleteRows _).lookup k = _
    rw [Table.lookup_deleteRows]
    cases hdrop : readings.rollupExpired k && picked k with
    | true =>
      rw [hkeeps k hdrop]
      rfl
    | false =>
      cases h.store.dailySiteMetrics.lookup k with
      | none => rfl
      | some m => rfl
  | _ => rfl

/-- **Expiry moves events, it forgets none**: the rows a batch takes go over to the
expired ones. -/
theorem accounted_sweep {readings : RetentionReadings} {batch : RetentionBatch}
    (hs : h.Accounted env) (hkeeps : KeepsRollups h (.sweep readings batch)) :
    (h.step env (.sweep readings batch)).Accounted env := by
  obtain ⟨hconfig, hrows⟩ := drop_spec readings batch h.store
  have hzone : ∀ siteId, zoneOf (h.store.drop readings batch) siteId = zoneOf h.store siteId := by
    intro siteId
    unfold zoneOf
    rw [hconfig]
  refine Accounted.frame hs hzone (drop_metrics hkeeps) ?_
  show ((h.store.drop readings batch).rawEvents.rows
    ++ (h.store.rawEvents.rows.filter (sweeps readings batch) ++ h.expired)).Perm _
  rw [hrows, ← List.append_assoc]
  refine List.Perm.append_right _ ?_
  exact List.perm_append_comm.trans (List.filter_append_perm _ _)

end Steps

/-! ## §4. Rebuilds. -/

section Rebuilds
variable {env : Platform} {s s' : Store} {expired : List RawEvent}

/-- **A rebuild counts what is left of the days it covers**: they are accounted for
exactly when none of their events has expired. -/
theorem accounted_rebuilt_iff {days : DayKey → Bool}
    {rebuilt : Table DayKey (Except DbError DailyMetrics)} (hrebuilt : RebuiltBy days rebuilt s s')
    (hgroups : ∀ k, days k = true → rebuilt.lookup k
      = if s.dayGroup env k = [] then none else some (rebuildMetricsRow (s.dayGroup env k)))
    (hothers : ∀ k, days k = false → countersAt (s.dailySiteMetrics.lookup k)
      = countersOf (History.dayEvents env ⟨s, expired⟩ k)) :
    History.Accounted env ⟨s', expired⟩
      ↔ ∀ k, days k = true → History.expiredEvents env ⟨s, expired⟩ k = [] := by
  have hevents : ∀ k, History.dayEvents env ⟨s', expired⟩ k
      = s.dayGroup env k ++ History.expiredEvents env ⟨s, expired⟩ k := by
    intro k
    show _ = History.dayEvents env ⟨s, expired⟩ k
    rw [dayEvents_eq, dayEvents_eq]
    unfold zoneOf
    dsimp only
    rw [hrebuilt.config, hrebuilt.rawEvents]
  have hcounted : ∀ k, days k = true →
      countersAt (s'.dailySiteMetrics.lookup k) = countersOf (s.dayGroup env k) := fun k hk =>
    counters_of_rebuilt ((hgroups k hk).symm.trans (hrebuilt.covered k hk))
  constructor
  · intro hafter k hk
    have hlength := congrArg Prod.fst ((hcounted k hk).symm.trans (hafter k))
    rw [hevents] at hlength
    have hsum : (s.dayGroup env k).length = (s.dayGroup env k).length
        + (History.expiredEvents env ⟨s, expired⟩ k).length :=
      hlength.trans List.length_append
    exact List.length_eq_zero_iff.mp (by omega)
  · intro hspares k
    rw [hevents]
    cases hk : days k with
    | true =>
      rw [hspares k hk, List.append_nil]
      exact hcounted k hk
    | false =>
      show countersAt (s'.dailySiteMetrics.lookup k) = _
      rw [hrebuilt.others k hk]
      exact hothers k hk

theorem rebuilt_site (siteId : Uuid) (k : DayKey) (hk : coversSite siteId k = true) :
    (rebuildDailyMetrics env siteId s).lookup k
      = if s.dayGroup env k = [] then none else some (rebuildMetricsRow (s.dayGroup env k)) := by
  obtain rfl := of_decide_eq_true hk
  exact lookup_rebuildDailyMetrics env s k

theorem rebuilt_range {siteId : Uuid} {environment : String} {first last : Date} (k : DayKey)
    (hk : coversRange siteId environment first last k = true) :
    (rebuildRangeDailyMetrics env siteId environment first last s).lookup k
      = if s.dayGroup env k = [] then none else some (rebuildMetricsRow (s.dayGroup env k)) := by
  obtain ⟨rfl, rfl, hfirst, hlast⟩ := of_decide_eq_true hk
  rw [lookup_rebuildRangeDailyMetrics env s k hfirst hlast]
  exact lookup_rebuildDailyMetrics env s k

/-- What a queued job that goes through rebuilds. -/
theorem execute_spec {job : AggregateJob} (h : job.execute env s = .ok s') :
    ∃ rebuilt, RebuiltBy (covers job) rebuilt s s'
      ∧ ∀ k, covers job k = true → rebuilt.lookup k
        = if s.dayGroup env k = [] then none else some (rebuildMetricsRow (s.dayGroup env k)) := by
  unfold AggregateJob.execute at h
  unfold covers
  by_cases hfull : job.jobType = "full_rebuild"
  · rw [if_pos hfull] at h ⊢
    exact ⟨_, rebuiltBy_siteDerivedData h, rebuilt_site job.siteId⟩
  · rw [if_neg hfull] at h ⊢
    split at h
    · cases hfirst : job.dateFrom with
      | none =>
        rw [hfirst] at h
        cases h
      | some first =>
        cases hlast : job.dateTo with
        | none =>
          rw [hfirst, hlast] at h
          cases h
        | some last =>
          rw [hfirst, hlast] at h
          exact ⟨_, rebuiltBy_environmentDateRange h, rebuilt_range⟩
    · cases h

end Rebuilds

/-! ## §5. The steps that rebuild. -/

section Steps
variable {env : Platform} {h : History}

/-- The queue of rebuilds is no day's. -/
theorem accounted_queue {expired : List RawEvent} (s : Store) (jobs : List AggregateJob)
    (hs : History.Accounted env ⟨s, expired⟩) : History.Accounted env ⟨{ s with aggregateJobs := jobs }, expired⟩ :=
  Accounted.frame hs (fun _ => rfl) (fun _ => rfl) (.refl _)

theorem accounted_runNext {i : Nat} {fault : Option DbError} (hs : h.Accounted env)
    (hspares : SparesExpired env h (.runNext i fault)) :
    (h.step env (.runNext i fault)).Accounted env := by
  refine Store.runNext_keeps (I := fun s => History.Accounted env ⟨s, h.expired⟩) accounted_queue hs ?_
  rintro job _ done hjob ⟨jobs, rfl⟩ hdone
  -- the claim changes the queue only, so the rebuild reads the same tables
  obtain ⟨rebuilt, hrebuilt, hgroups⟩ := execute_spec hdone
  exact (@accounted_rebuilt_iff _ _ _ h.expired _ _ hrebuilt hgroups fun k _ => hs k).mpr (hspares job hjob)

/-- No expired event of a site, none of its days. -/
theorem expiredEvents_eq_nil {s : Store} {expired : List RawEvent} {siteId : Uuid}
    (hnone : ∀ r ∈ expired, r.siteId ≠ siteId) (k : DayKey) (hk : coversSite siteId k = true) :
    History.expiredEvents env ⟨s, expired⟩ k = [] := by
  obtain rfl := of_decide_eq_true hk
  unfold History.expiredEvents
  dsimp only
  cases s.config.sites.lookup k.siteId with
  | none => rfl
  | some site =>
    refine (Table.groupOf_eq_nil_iff _ _ _).mpr fun hmem => ?_
    obtain ⟨r, hr, hday⟩ := List.mem_map.mp hmem
    exact hnone r hr (congrArg DayKey.siteId hday)

theorem zoneOf_withSite (siteId : Uuid) (site : Site) (s : Store) (id : Uuid) :
    zoneOf (s.withSite siteId site) id
      = if id = siteId then (s.config.sites.lookup id).map fun _ => site.timezone else zoneOf s id := by
  unfold zoneOf Store.withSite
  rw [Table.lookup_modifyRows, Option.map_map]
  by_cases hid : id = siteId
  · rw [if_pos hid]
    simp only [Function.comp_def, hid, if_true]
  · rw [if_neg hid]
    simp only [Function.comp_def, hid, if_false]

/-- Settings that leave the time zone leave every site its own. -/
theorem zoneOf_withSite_of_eq {s : Store} {siteId : Uuid} {previous site : Site}
    (hsite : s.config.sites.lookup siteId = some previous) (hsame : previous.timezone = site.timezone) (id : Uuid) :
    zoneOf (s.withSite siteId site) id = zoneOf s id := by
  rw [zoneOf_withSite]
  by_cases hid : id = siteId
  · rw [if_pos hid]
    unfold zoneOf
    rw [hid, hsite]
    exact congrArg some hsame.symm
  · rw [if_neg hid]

theorem accounted_updateSite {siteId : Uuid} {update : SiteUpdate} (hs : h.Accounted env)
    (hspares : SparesExpired env h (.updateSite siteId update)) :
    (h.step env (.updateSite siteId update)).Accounted env := by
  show History.Accounted env (match h.store.updateSite env siteId update with
    | .ok s => { h with store := s }
    | .error _ => h)
  cases hupdate : h.store.updateSite env siteId update with
  | error e => exact hs
  | ok s =>
    obtain ⟨previous, site, hsite, hzone, ⟨hchanged, hrebuild⟩ | ⟨hsame, rfl⟩⟩ := Store.ok_updateSite hupdate
    · refine (accounted_rebuilt_iff (rebuiltBy_siteDailyAggregates hrebuild)
        (rebuilt_site siteId) fun k hk => ?_).mpr
          (expiredEvents_eq_nil (hspares previous hsite hchanged))
      refine (hs k).trans (countersOf_dayEvents ?_ (.refl _))
      refine Eq.symm ((zoneOf_withSite siteId _ h.store k.siteId).trans ?_)
      rw [if_neg (of_decide_eq_false hk)]
    · exact Accounted.frame hs (zoneOf_withSite_of_eq hsite (hsame.trans hzone.symm)) (fun _ => rfl) (.refl _)

theorem accounted_erase {siteId : Uuid} {person : Person} (hs : h.Accounted env)
    (hspares : SparesExpired env h (.erase siteId person)) :
    (h.step env (.erase siteId person)).Accounted env := by
  obtain ⟨selection, hselection⟩ : ∃ selection, selection = person.selection siteId h.store :=
    ⟨_, rfl⟩
  show History.Accounted env (match h.store.eraseEvents env siteId (person.selection siteId h.store) with
    | .ok s => ⟨s, h.expired.filter fun r =>
      !(r.siteId = siteId && (person.selection siteId h.store).selects r)⟩
    | .error _ => h)
  have hspares' : ∀ r ∈ h.expired, r.siteId = siteId → selection.selects r = true := by
    rw [hselection]
    exact hspares
  rw [← hselection]
  cases herase : h.store.eraseEvents env siteId selection with
  | error e => exact hs
  | ok s =>
    refine (accounted_rebuilt_iff (rebuiltBy_siteDerivedData herase) (rebuilt_site siteId)
      fun k hk => ?_).mpr (expiredEvents_eq_nil ?_)
    · -- the other sites lose no row
      have hkeep : ∀ timezone r, RawEvent.dayKey env timezone r = k →
          (!(decide (r.siteId = siteId) && selection.selects r)) = true := by
        intro timezone r hday
        have hne : r.siteId ≠ siteId := by
          intro heq
          exact of_decide_eq_false hk ((congrArg DayKey.siteId hday).symm.trans heq)
        simp [hne]
      refine (hs k).trans (congrArg countersOf ?_)
      rw [dayEvents_eq, dayEvents_eq]
      show (zoneOf h.store k.siteId).elim [] _ = (zoneOf h.store k.siteId).elim [] _
      cases zoneOf h.store k.siteId with
      | none => rfl
      | some timezone =>
        simp only [Option.elim_some]
        show _ = Table.groupOf _ (List.filter _ _ ++ List.filter _ _) k
        rw [← List.filter_append, Table.groupOf_filter (hkeep timezone)]
    · intro r hr hsite
      obtain ⟨hmem, hkept⟩ := List.mem_filter.mp hr
      simp [hsite, hspares' r hmem hsite] at hkept

end Steps

/-! ## §6. Runs. -/

/-- **One step keeps the accounts**, unless it rebuilds a day whose events have
expired. -/
theorem accounted_step {env : Platform} {h : History} {a : Action} (hs : h.Accounted env)
    (hkeeps : KeepsRollups h a) (hspares : SparesExpired env h a) :
    (h.step env a).Accounted env := by
  cases a with
  | job j => exact accounted_job j hs
  | sweep readings batch => exact accounted_sweep hs hkeeps
  | request siteId environment jobType reason first last =>
    show History.Accounted env (match createAggregateJob siteId environment jobType reason first last with
      | .ok job =>
        { h with store := { h.store with aggregateJobs := job :: h.store.aggregateJobs } }
      | .error _ => h)
    cases createAggregateJob siteId environment jobType reason first last with
    | error e => exact hs
    | ok job => exact accounted_queue _ _ hs
  | runNext i fault => exact accounted_runNext hs hspares
  | interrupt i =>
    exact Store.interruptJob_keeps (I := fun s => History.Accounted env ⟨s, h.expired⟩) accounted_queue hs
  | recover stale => exact accounted_queue _ _ hs
  | updateSite siteId update => exact accounted_updateSite hs hspares
  | erase siteId person => exact accounted_erase hs hspares

/-- **What every history keeps**: a property of the store that does not speak of the
queue, and that jobs, passes, rebuilds, settings and erasures keep. -/
theorem History.step_keeps {env : Platform} {I : Store → Prop} {h : History} {a : Action}
    (hqueue : ∀ s jobs, I s → I { s with aggregateJobs := jobs }) (hjob : ∀ j s, I s → I (afterJob env s j))
    (hsweep : ∀ readings batch, a = .sweep readings batch → I (h.store.drop readings batch))
    (hderived : ∀ s s' siteId, I s → s.rebuildSiteDerivedData env siteId = .ok s' → I s')
    (hrange : ∀ s s' siteId environment first last, I s →
      s.rebuildEnvironmentDateRange env siteId environment first last = .ok s' → I s')
    (hupdate : ∀ s s' siteId update, I s → s.updateSite env siteId update = .ok s' → I s')
    (herase : ∀ s s' siteId selection, I s → s.eraseEvents env siteId selection = .ok s' → I s')
    (hs : I h.store) : I (h.step env a).store := by
  cases a with
  | job j => exact hjob j _ hs
  | sweep readings batch => exact hsweep readings batch rfl
  | request siteId environment jobType reason first last =>
    unfold History.step
    dsimp only
    cases createAggregateJob siteId environment jobType reason first last with
    | error e => exact hs
    | ok job => exact hqueue _ _ hs
  | runNext i fault =>
    refine Store.runNext_keeps hqueue hs ?_
    rintro job _ done - ⟨jobs, rfl⟩ hdone
    exact Store.ok_execute (hderived _ _ _ (hqueue _ jobs hs)) (fun first last => hrange _ _ _ _ _ _ (hqueue _ jobs hs))
      hdone
  | interrupt i => exact Store.interruptJob_keeps hqueue hs
  | recover stale => exact hqueue _ _ hs
  | updateSite siteId update =>
    unfold History.step
    dsimp only
    cases hupdated : h.store.updateSite env siteId update with
    | error e => exact hs
    | ok s => exact hupdate _ _ _ _ hs hupdated
  | erase siteId person =>
    unfold History.step
    dsimp only
    cases herased : h.store.eraseEvents env siteId (person.selection siteId h.store) with
    | error e => exact hs
    | ok s => exact herase _ _ _ _ hs herased

theorem accounted_initial (env : Platform) (config : Config) :
    (History.initial config).Accounted env := by
  intro k
  rw [dayEvents_eq]
  cases zoneOf (History.initial config).store k.siteId with
  | none => rfl
  | some timezone => rfl

/-- **The rollups outlive the raw events in every run whose rebuilds leave the days
of expired events alone**, no aggregation policy having removed a date. -/
theorem rollups_accounted (env : Platform) (config : Config) (actions : List Action)
    (hkeeps : Along (History.step env) KeepsRollups (History.initial config) actions)
    (hspares : Along (History.step env) (SparesExpired env) (History.initial config) actions) :
    (actions.foldl (History.step env) (History.initial config)).Accounted env := by
  refine along_induction (I := History.Accounted env) ?_ actions (accounted_initial env config)
    (along_and actions hkeeps hspares)
  intro h a hs hboth
  exact accounted_step hs hboth.1 hboth.2

/-! ## §7. A late visit. -/

/-- A page view of two months ago, delivered today. -/
def lateVisit : Job :=
  Sample.job { Sample.payload "v1" "" [{
      id := Sample.eventId '1', name := "page_view", timestamp := Sample.newYear - 60 * 86400000 }] with
    receivedUnix := Sample.newYear }

/-- One month of raw events, and no policy for the rollups. -/
def oneMonth : RetentionReadings where
  rawEventMonths := 1
  debugDays := 7
  policies := ∅
  monthsAgo months := (Sample.newYear - 31 * 86400000 * months) * 1000
  dateMonthsAgo months := 20454 - 31 * months
  dateDaysAgo days := 20454 - days

/-- The visit is delivered and its event expires in the next pass; then one queued
rebuild runs. -/
def lateVisitRun (queued : List Action) : List Action :=
  .job lateVisit :: cleanupBatches.map (.sweep oneMonth) ++ queued ++ [.runNext 0 none]

theorem keepsRollups_oneMonth (h : History) (batch : RetentionBatch) :
    KeepsRollups h (.sweep oneMonth batch) := by
  cases batch with
  | dailySiteMetrics picked => exact fun _ hk => by cases hk
  | _ => trivial

theorem keepsRollups_lateVisitRun {queued : List Action}
    (hqueued : ∀ h, ∀ a ∈ queued, KeepsRollups h a) (h : History) :
    Along (History.step Sample.platform) KeepsRollups h (lateVisitRun queued) := by
  refine along_of_forall _ fun h a ha => ?_
  unfold lateVisitRun at ha
  rcases List.mem_append.mp ha with ha | ha
  · rcases List.mem_append.mp ha with ha | ha
    · rcases List.mem_cons.mp ha with rfl | ha
      · exact trivial
      · obtain ⟨batch, -, rfl⟩ := List.mem_map.mp ha
        exact keepsRollups_oneMonth h batch
    · exact hqueued h a ha
  · rw [List.mem_singleton.mp ha]
    exact trivial

/-- A job covers days of its own site. -/
theorem siteId_of_covers {job : AggregateJob} {k : DayKey} (h : covers job k = true) :
    k.siteId = job.siteId := by
  unfold covers at h
  by_cases hfull : job.jobType = "full_rebuild"
  · rw [if_pos hfull] at h
    exact of_decide_eq_true h
  · rw [if_neg hfull] at h
    cases hfirst : job.dateFrom with
    | none =>
      rw [hfirst] at h
      cases h
    | some first =>
      cases hlast : job.dateTo with
      | none =>
        rw [hfirst, hlast] at h
        cases h
      | some last =>
        rw [hfirst, hlast] at h
        exact (of_decide_eq_true h).1

/-- A job that covers the day of no expired event spares them. -/
theorem spares_of_otherDays {env : Platform} {h : History} {i : Nat} {job : AggregateJob}
    {timezone : String} (hjob : h.store.aggregateJobs[i]? = some job)
    (hzone : zoneOf h.store job.siteId = some timezone)
    (hdays : ∀ k ∈ h.expired.map (RawEvent.dayKey env timezone), covers job k = false)
    (fault : Option DbError) : SparesExpired env h (.runNext i fault) := by
  intro job' hjob' k hk
  obtain rfl := Option.some.inj (hjob.symm.trans hjob')
  have hsite := siteId_of_covers hk
  obtain ⟨site, hlookup, rfl⟩ := Option.map_eq_some_iff.mp hzone
  unfold History.expiredEvents
  rw [hsite, hlookup, Option.elim_some]
  refine (Table.groupOf_eq_nil_iff _ _ _).mpr fun hmem => ?_
  rw [hdays k hmem] at hk
  cases hk

/-- A rebuild of New Year's Day leaves the day of the expired visit alone. -/
def newYearRebuild : List Action :=
  [.request Sample.siteId "prd" "date_range" "backfill" (some 20454) (some 20454)]

theorem rollups_accounted_otherDay :
    ((lateVisitRun newYearRebuild).foldl (History.step Sample.platform)
      (History.initial (Sample.config 100))).Accounted Sample.platform := by
  refine rollups_accounted Sample.platform (Sample.config 100) (lateVisitRun newYearRebuild)
    (keepsRollups_lateVisitRun ?_ _) ?_
  · intro h a ha
    rw [List.mem_singleton.mp ha]
    exact trivial
  unfold lateVisitRun cleanupBatches newYearRebuild
  refine ⟨trivial, trivial, trivial, trivial, trivial, trivial, trivial, trivial, trivial, trivial,
    trivial, trivial, ?_, trivial⟩
  refine @spares_of_otherDays _ _ 0
    ⟨Sample.siteId, "prd", "date_range", some 20454, some 20454, .pending, "backfill", 0⟩
    "UTC" ?_ ?_ ?_ none
  · decide +kernel
  · decide +kernel
  · decide +kernel

/-- **The visit's own late-event job loses it**: it was queued when the visit came
in, and rebuilds the day from the raw events that are left. -/
theorem lateVisit_not_accounted :
    ¬∀ (env : Platform) (config : Config) (actions : List Action),
      Along (History.step env) KeepsRollups (History.initial config) actions →
        (actions.foldl (History.step env) (History.initial config)).Accounted env := by
  intro hall
  have hday := hall Sample.platform (Sample.config 100) (lateVisitRun [])
    (keepsRollups_lateVisitRun (by simp) _) ⟨Sample.siteId, 20394, "prd"⟩
  revert hday
  decide +kernel

end Momento.Rollup
