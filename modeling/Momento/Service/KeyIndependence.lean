/-
  Momento.Service.KeyIndependence

  **WHAT DOES NOT DEPEND ON THE KEYS.**  The worker's passes and the transactions
  of `Accept` commute with forgetting the key hashes (`blankWorld`), so what they
  do cannot depend on the keys.  `Accept` decides alike on two keys that are
  taken alike; what it then queues is alike where the request has no key, for the
  key is queued with the request (`accept_trackingKey`).
-/
import Momento.Service.KeyStorage

namespace Momento.Keys

open Foundation

/-! ## §1. Forgetting the hashes. -/

/-- A site without its key hashes. -/
def blankSite (site : Site) : Site := { site with trackingKeyHash := "", serverApiKeyHash := "" }

/-- Without the keys' hashes. -/
def blankConfig (config : Config) : Config :=
  { config with sites := config.sites.modifyRows fun _ site => blankSite site }

/-- Without the keys' hashes. -/
def blankStore (s : Store) : Store := { s with config := blankConfig s.config }

/-- Without the keys' hashes. -/
def blankDatabase (db : Database) : Database := { db with store := blankStore db.store }

/-- A transaction still to be sent holds the site it was decided for. -/
def blankWrite : AcceptWrite → AcceptWrite
  | .admission a readings => .admission { a with site := blankSite a.site } readings
  | write => write

/-- Without the keys' hashes. -/
def blankWorld (w : World) : World :=
  { w with db := blankDatabase w.db, calls := w.calls.map (List.map blankWrite) }

/-! ## §2. Processing sees no key. -/

theorem lookup_blankConfig (config : Config) (siteId : Uuid) :
    (blankConfig config).sites.lookup siteId = (config.sites.lookup siteId).map blankSite :=
  Table.lookup_modifyRows _ _ _

theorem threshold_blankConfig (config : Config) (siteId : Uuid) :
    (blankConfig config).threshold siteId = config.threshold siteId := by
  unfold Config.threshold
  rw [lookup_blankConfig]
  cases config.sites.lookup siteId with
  | none => rfl
  | some site => rfl

theorem siteSettings_blankStore (siteId : Uuid) (environment : String) (s : Store) :
    siteSettings siteId environment (blankStore s) = siteSettings siteId environment s := by
  unfold siteSettings
  have hsites := lookup_blankConfig s.config siteId
  have henvironments : (blankStore s).config.siteEnvironments = s.config.siteEnvironments := rfl
  rw [henvironments, show (blankStore s).config.sites = (blankConfig s.config).sites from rfl, hsites]
  cases s.config.sites.lookup siteId with
  | none => rfl
  | some site =>
    cases s.config.siteEnvironments.lookup ⟨siteId, environment⟩ with
    | none => rfl
    | some e => rfl

theorem queueLateEventJob_blankStore (day : DayKey) (s : Store) :
    (blankStore s).queueLateEventJob day = blankStore (s.queueLateEventJob day) := by
  unfold Store.queueLateEventJob
  dsimp only
  rw [apply_ite blankStore]
  rfl

theorem addDimensionValue_blankStore (v : DimensionValue) (s : Store) :
    (blankStore s).addDimensionValue v = blankStore (s.addDimensionValue v) := by
  unfold Store.addDimensionValue
  rw [apply_ite blankStore]
  rfl

section Processing
variable (c : JobContext)

/-- A body that neither reads nor writes a key hash. -/
abbrev SeesNoKey {α : Type} (body : Body α) : Prop := Tx.Blind blankStore body

theorem seesNoKey_recordAcceptedQuality (event : IncomingEvent) (eventTime : Instant)
    (unreported : Bool) : SeesNoKey (recordAcceptedQuality c event eventTime unreported) := by
  unfold recordAcceptedQuality
  refine Tx.blind_bind (Tx.blind_update fun _ => rfl) fun _ => ?_
  split
  · exact Tx.blind_update (queueLateEventJob_blankStore _)
  · exact Tx.blind_pure _

theorem seesNoKey_recordDimension (event : IncomingEvent) (eventTime : Instant)
    (d : String × String) : SeesNoKey (recordDimension c event eventTime d) := by
  unfold recordDimension
  split
  · exact Tx.blind_pure _
  refine Tx.blind_bind (Tx.blind_exec fun s => ?_) fun isNew => ?_
  · rw [addDimensionValue_blankStore]
    rfl
  · split
    · refine Tx.blind_bind (Tx.blind_select fun _ => rfl) fun count => ?_
      split
      · refine Tx.blind_bind (Tx.blind_attempt fun _ => rfl) fun _ => ?_
        refine Tx.blind_bind ?_ fun _ => Tx.blind_pure _
        exact Tx.blind_attempt fun _ => rfl
      · exact Tx.blind_pure _
    · exact Tx.blind_pure _

theorem seesNoKey_recordDimensions (event : IncomingEvent) (eventTime : Instant)
    (ds : List (String × String)) : SeesNoKey (recordDimensions c event eventTime ds) := by
  induction ds with
  | nil => exact Tx.blind_pure _
  | cons d ds ih => exact Tx.blind_bind (seesNoKey_recordDimension c event eventTime d) fun _ => ih

theorem seesNoKey_updateVisitorIdentity (key : VisitorKey) (userId : String) (eventTime : Instant) :
    SeesNoKey (updateVisitorIdentity key userId eventTime) := by
  unfold updateVisitorIdentity
  iterate 5 refine Tx.blind_bind (Tx.blind_update fun _ => rfl) fun _ => ?_
  exact Tx.blind_update fun _ => rfl

theorem seesNoKey_updateSession (key : SessionKey) (t : SessionTouch) :
    SeesNoKey (updateSession key t) := by
  refine Tx.blind_exec fun s => ?_
  have htouch : (blankStore s).touchSession key t = blankStore (s.touchSession key t) := by
    simp only [Store.touchSession, blankStore, threshold_blankConfig]
  rw [htouch, apply_ite (Except.map (Prod.map id blankStore))]
  rfl

theorem seesNoKey_updateDailyAggregates (event : IncomingEvent) (eventTime : Instant)
    (canonicalUser : String) (conversion : Bool) :
    SeesNoKey (updateDailyAggregates c event eventTime canonicalUser conversion) := by
  unfold updateDailyAggregates
  refine Tx.blind_bind (Tx.blind_exec fun s => ?_) fun _ => ?_
  · cases hexcluded : excludedRevenue (eventRevenue event) with
    | error e => rfl
    | ok excluded =>
      show (do
        let revenue ← s.revenueAfter (dayOf c eventTime) excluded
        return ((), (blankStore s).countMetrics (dayOf c eventTime)
          (event.name = "page_view") conversion revenue)) = _
      have hsame : (blankStore s).revenueAfter (dayOf c eventTime) excluded
          = s.revenueAfter (dayOf c eventTime) excluded := rfl
      cases hrevenue : s.revenueAfter (dayOf c eventTime) excluded with
      | error e => simp only [bind, Except.bind, hrevenue, Except.map]
      | ok revenue =>
        simp only [bind, Except.bind, hrevenue]
        rfl
  · exact Tx.blind_bind (Tx.blind_update fun _ => rfl) fun _ => Tx.blind_update fun _ => rfl

theorem seesNoKey_updateDerived (event : IncomingEvent) (eventTime : Instant)
    (conversion unreported : Bool) :
    SeesNoKey (updateDerived c event eventTime conversion unreported) := by
  have htail : ∀ canonical : String, SeesNoKey (do
      updateSession (sessionKeyOf c) (sessionTouch c event eventTime canonical conversion)
      updateVisitorSession ⟨c.siteId, c.request.visitorId, c.request.sessionId⟩ canonical eventTime
      updateDailyAggregates c event eventTime canonical conversion : Body Unit) := by
    intro canonical
    refine Tx.blind_bind (seesNoKey_updateSession _ _) fun _ => ?_
    exact Tx.blind_bind (Tx.blind_update fun _ => rfl) fun _ =>
      seesNoKey_updateDailyAggregates c _ _ _ _
  have hlinked : ∀ canonical : String, SeesNoKey (do
      if canonical ≠ "" then
        Tx.update (Store.touchIdentity (visitorKeyOf c) eventTime)
        updateIdentifiedUser (visitorKeyOf c) canonical c.userProperties eventTime
      updateSession (sessionKeyOf c) (sessionTouch c event eventTime canonical conversion)
      updateVisitorSession ⟨c.siteId, c.request.visitorId, c.request.sessionId⟩ canonical eventTime
      updateDailyAggregates c event eventTime canonical conversion : Body Unit) := by
    intro canonical
    dsimp only
    split
    · refine Tx.blind_bind (Tx.blind_update fun _ => rfl) fun _ => ?_
      exact Tx.blind_bind (Tx.blind_update fun _ => rfl) fun _ => htail canonical
    · exact htail canonical
  have hvisitor : SeesNoKey (do
      let canonical ← updateVisitor (visitorKeyOf c) c.userId c.userProperties eventTime conversion
      if canonical ≠ "" then
        Tx.update (Store.touchIdentity (visitorKeyOf c) eventTime)
        updateIdentifiedUser (visitorKeyOf c) canonical c.userProperties eventTime
      updateSession (sessionKeyOf c) (sessionTouch c event eventTime canonical conversion)
      updateVisitorSession ⟨c.siteId, c.request.visitorId, c.request.sessionId⟩ canonical eventTime
      updateDailyAggregates c event eventTime canonical conversion : Body Unit) :=
    Tx.blind_bind (Tx.blind_exec fun _ => rfl) hlinked
  unfold updateDerived
  refine Tx.blind_bind (seesNoKey_recordAcceptedQuality c _ _ _) fun _ => ?_
  refine Tx.blind_bind (seesNoKey_recordDimensions c _ _ _) fun _ => ?_
  dsimp only
  split
  · exact Tx.blind_bind (seesNoKey_updateVisitorIdentity _ _ _) fun _ => hvisitor
  · exact hvisitor

theorem seesNoKey_insertRawEvent (env : Platform) (row : RawEvent) :
    SeesNoKey (insertRawEvent env row) := by
  refine Tx.blind_exec fun s => ?_
  by_cases hversion : 2147483647 < row.contractVersion
  · simp only [if_pos hversion]
    rfl
  · simp only [if_neg hversion]
    by_cases hheld : s.rawEvents.Holds row.siteId row.eventId
    · rw [dif_pos hheld, dif_pos (show (blankStore s).rawEvents.Holds row.siteId row.eventId from hheld)]
      rfl
    · rw [dif_neg hheld,
        dif_neg (show ¬(blankStore s).rawEvents.Holds row.siteId row.eventId from hheld)]
      split <;> rfl

theorem seesNoKey_processEvent (unreported : Bool) (event : IncomingEvent)
    (readings : EventReadings) : SeesNoKey (processEvent c unreported event readings) := by
  unfold processEvent
  split
  · exact Tx.blind_fail _
  have hinsert : ∀ row eventTime conversion, SeesNoKey (do
      let inserted ← insertRawEvent c.env row
      if inserted then
        updateDerived c event eventTime conversion unreported
        return false
      else
        let _ ← recordDuplicate c event eventTime
        return unreported : Body Bool) := by
    intro row eventTime conversion
    refine Tx.blind_bind (seesNoKey_insertRawEvent _ _) fun inserted => ?_
    split
    · exact Tx.blind_bind (seesNoKey_updateDerived c _ _ _ _) fun _ => Tx.blind_pure _
    · exact Tx.blind_bind (Tx.blind_attempt fun _ => rfl) fun _ => Tx.blind_pure _
  dsimp only
  split
  · exact Tx.blind_bind (Tx.blind_pure _) fun _ => hinsert _ _ _
  · refine Tx.blind_bind (Tx.blind_attempt fun _ => rfl) fun _ =>
      Tx.blind_bind (Tx.blind_pure _) fun _ => hinsert _ _ _

theorem seesNoKey_processEvents (unreported : Bool) (events : List (IncomingEvent × EventReadings)) :
    SeesNoKey (processEvents c unreported events) := by
  induction events generalizing unreported with
  | nil => exact Tx.blind_pure _
  | cons e rest ih => exact Tx.blind_bind (seesNoKey_processEvent c _ _ _) ih

/-- **Processing an inbox row sees no key hash.** -/
theorem seesNoKey_processOne (env : Platform) (policy : Policy) (siteId : Uuid)
    (payload : Except String InboxPayload) (readings : Nat → EventReadings) :
    SeesNoKey (processOne env policy siteId payload readings) := by
  unfold processOne
  split
  · exact Tx.blind_fail _
  unfold processPayload
  refine Tx.blind_bind (Tx.blind_exec fun s => ?_) fun settings => ?_
  · rw [siteSettings_blankStore]
    cases siteSettings siteId _ s with
    | error e => rfl
    | ok x => rfl
  · dsimp only
    split
    · exact Tx.blind_fail _
    split
    · exact Tx.blind_bind (Tx.blind_pure _) fun _ => seesNoKey_processEvents _ _ _
    · refine Tx.blind_bind (Tx.blind_attempt fun _ => rfl) fun _ =>
        Tx.blind_bind (Tx.blind_pure _) fun _ => seesNoKey_processEvents _ _ _

end Processing

/-! ## §3. Nor does a pass of the worker. -/

theorem ending_blankStore (env : Platform) (j : Job) (s : Store) :
    j.ending env (blankStore s) = (j.ending env s).map (Option.map blankStore) := by
  have hrun : (j.body env).run ⟨some (blankStore s), j.faults⟩
      = Tx.changed blankStore ((j.body env).run ⟨some s, j.faults⟩) :=
    seesNoKey_processOne env j.policy j.siteId j.payload j.readings (some s) j.faults
  unfold Job.ending
  rw [hrun]
  rcases (j.body env).run ⟨some s, j.faults⟩ with ⟨e | u, t⟩
  · rfl
  · rfl

section Pass
variable {env : Platform} {policy : Policy} {now : Instant}

/-- What a round leaves, without the keys. -/
def blankRound (r : (Database × Verdict) × List (Option DbError)) :
    (Database × Verdict) × List (Option DbError) := ((blankDatabase r.1.1, r.1.2), r.2)

/-- A statement of the pass whose error ends it. -/
theorem answered_bind {k k' : Unit → Pass (Database × Verdict)}
    (h : ∀ fs, k () fs = (k' () fs).map blankRound) (fs : List (Option DbError)) :
    (answered >>= k) fs = ((answered >>= k') fs).map blankRound := by
  cases fs with
  | nil => exact h []
  | cons x fs =>
    cases x with
    | none => exact h fs
    | some e => rfl

theorem processJob_blank (job : ClaimedJob) (round : Round) (db : Database)
    (fs : List (Option DbError)) :
    processJob env policy now job round (blankDatabase db) fs
      = (processJob env policy now job round db fs).map blankRound := by
  unfold processJob
  refine answered_bind (fun fs => ?_) fs
  rw [show (blankDatabase db).store = blankStore db.store from rfl, ending_blankStore]
  cases (job.toJob policy round).ending env db.store with
  | error e =>
    refine answered_bind (fun fs => answered_bind (fun fs => ?_) fs) fs
    split
    · exact answered_bind (fun fs => answered_bind (fun fs => rfl) fs) fs
    · exact answered_bind (fun fs => rfl) fs
  | ok t =>
    cases t with
    | none => rfl
    | some store => exact answered_bind (fun fs => answered_bind (fun fs => rfl) fs) fs

theorem processJobs_blank (jobs : List (ClaimedJob × Round)) (db : Database) :
    processJobs env policy now jobs (blankDatabase db)
      = (processJobs env policy now jobs db).map (Prod.map blankDatabase id) := by
  induction jobs generalizing db with
  | nil => rfl
  | cons p rest ih =>
    obtain ⟨job, round⟩ := p
    unfold processJobs
    have hone : (processJob env policy now job round (blankDatabase db)).run round.faults
        = ((processJob env policy now job round db).run round.faults).map blankRound :=
      processJob_blank job round db round.faults
    rw [hone]
    cases (processJob env policy now job round db).run round.faults with
    | error e => rfl
    | ok r =>
      obtain ⟨⟨db₁, verdict⟩, gs⟩ := r
      show (processJobs env policy now rest (blankDatabase db₁) >>= _)
        = Except.map _ (processJobs env policy now rest db₁ >>= _)
      rw [ih]
      cases processJobs env policy now rest db₁ with
      | error e => rfl
      | ok r => rfl

theorem processBatch_blank (jobs : List (ClaimedJob × Round)) (db : Database) :
    processBatch env now jobs (blankDatabase db)
      = (processBatch env now jobs db).map (Prod.map blankDatabase id) := by
  unfold processBatch
  rw [show (blankDatabase db).store.config.privacy = db.store.config.privacy from rfl]
  cases db.store.config.privacy with
  | error message => rfl
  | ok policy => exact processJobs_blank jobs db

end Pass

/-! ## §4. Nor the inbox. -/

section Inbox
variable (env : Platform) (w : World)

theorem countReceived_blank (day : DayKey) (events : List IncomingEvent) (s : Store) :
    countReceived day events (blankStore s) = blankStore (countReceived day events s) := by
  unfold countReceived
  induction events generalizing s with
  | nil => rfl
  | cons event rest ih => exact ih (s.addQuality ⟨day, event.name⟩ (receivedQuality event))

theorem run_blankWrite (write : AcceptWrite) (db : Database) :
    (blankWrite write).run env (blankDatabase db) = blankDatabase (write.run env db) := by
  cases write with
  | rejection key n => rfl
  | issue row => rfl
  | admission a readings =>
    show Admission.queue env { a with site := blankSite a.site } readings (blankDatabase db)
      = blankDatabase (a.queue env readings db)
    unfold Admission.queue
    rw [apply_ite blankDatabase]
    have hcount : ∀ day events, countReceived day events (blankDatabase db).store
        = blankStore (countReceived day events db.store) :=
      fun day events => countReceived_blank day events db.store
    simp only [hcount]
    rfl

theorem write_blank (i : Nat) (commits : Bool) :
    (blankWorld w).write env i commits = blankWorld (w.write env i commits) := by
  have hcall : (blankWorld w).calls[i]? = (w.calls[i]?).map (List.map blankWrite) :=
    List.getElem?_map
  unfold World.write
  rw [hcall]
  cases w.calls[i]? with
  | none => rfl
  | some writes =>
    cases writes with
    | nil => rfl
    | cons next rest =>
      show ({ blankWorld w with
          db := if commits then (blankWrite next).run env (blankDatabase w.db)
            else blankDatabase w.db
          calls := (w.calls.map (List.map blankWrite)).set i (rest.map blankWrite) } : World)
        = _
      rw [run_blankWrite, ← List.map_set, ← apply_ite blankDatabase]
      rfl

theorem finish_blank (i : Nat) (rounds : Nat → Round) (commits : Bool) :
    (blankWorld w).finish env i rounds commits = blankWorld (w.finish env i rounds commits) := by
  unfold World.finish
  rw [show (blankWorld w).claims = w.claims from rfl]
  cases w.claims[i]? with
  | none => rfl
  | some c =>
    dsimp only
    rw [show (blankWorld w).db = blankDatabase w.db from rfl, processBatch_blank]
    cases processBatch env c.now (c.rounds rounds) w.db with
    | error e => rfl
    | ok r =>
      cases commits with
      | false => rfl
      | true => rfl

end Inbox

/-! ## §5. `Accept` on two keys. -/

/-- The request, with another key. -/
def keyed (req : CollectRequest) (key : String) : CollectRequest := { req with trackingKey := key }

/-- The call under another key. -/
def withKey (call : AcceptCall) (key : String) : AcceptCall :=
  { call with request := keyed call.request key }

/-- The key is taken alike by both configurations: accepted by both, or refused by
both for one reason. -/
def TakenAlike (env : Platform) (config config' : Config) (call : AcceptCall) (key : String) : Prop :=
  ∀ id site site', siteForCollect config call.request.siteId = some (id, site) →
    siteForCollect config' call.request.siteId = some (id, site') →
    checkKey env site' key call.origin = checkKey env site call.request.trackingKey call.origin

/-- The answer without the hashes. -/
def bareTurned : Turned → Turned
  | .refused message => .refused message
  | .contract siteId site environment event warnings =>
    .contract siteId (blankSite site) environment event warnings
  | .pii siteId site environment events kinds => .pii siteId (blankSite site) environment events kinds

/-- The admission without the hashes. -/
def bareAdmission (a : Admission) : Admission :=
  { a with
    site := blankSite a.site
    payload := { a.payload with request := keyed a.payload.request "" } }

/-- A decision without the keys. -/
def bareDecision : Except Turned Admission → Except Turned Admission
  | .ok a => .ok (bareAdmission a)
  | .error turned => .error (bareTurned turned)

section Accept
variable {env : Platform} {config config' : Config} {call : AcceptCall} {key : String} {now : Instant}

theorem siteForCollect_blank (config : Config) (siteKey : String) :
    siteForCollect (blankConfig config) siteKey
      = (siteForCollect config siteKey).map fun x => (x.1, blankSite x.2) := by
  unfold siteForCollect
  show ((config.sites.entries.map _).find? _).map _ = ((config.sites.entries.find? _).map _).map _
  rw [List.find?_map, Option.map_map, Option.map_map]
  rfl

/-- Configurations alike but for the keys differ in their sites alone. -/
theorem eq_withSites (h : blankConfig config' = blankConfig config) :
    config' = { config with sites := config'.sites } := by
  obtain ⟨sites', environments', definitions', versions', ranges', max', privacy'⟩ := config'
  injection h with hsites henvironments hdefinitions hversions hranges hmax hprivacy
  subst henvironments hdefinitions hversions hranges hmax hprivacy
  rfl

theorem checkContracts_sites (sites' : Table Uuid Site) (siteId : Uuid) (mode : ContractMode)
    (events : List IncomingEvent) :
    checkContracts { config with sites := sites' } siteId mode events
      = checkContracts config siteId mode events := by
  induction events with
  | nil => rfl
  | cons event rest ih =>
    unfold checkContracts
    rw [ih]
    rfl

theorem withEnvironment_withKey (req : CollectRequest) (key : String) :
    (keyed req key).withEnvironment = keyed req.withEnvironment key := by
  unfold CollectRequest.withEnvironment keyed
  split <;> rfl

theorem withEnvironment_siteId (req : CollectRequest) : req.withEnvironment.siteId = req.siteId := by
  unfold CollectRequest.withEnvironment
  split <;> rfl

theorem withEnvironment_trackingKey (req : CollectRequest) :
    req.withEnvironment.trackingKey = req.trackingKey := by
  unfold CollectRequest.withEnvironment
  split <;> rfl

/-- The site both configurations find, or neither. -/
theorem siteForCollect_alike (h : blankConfig config' = blankConfig config) (siteKey : String) :
    (siteForCollect config siteKey = none ∧ siteForCollect config' siteKey = none)
      ∨ ∃ id site site', siteForCollect config siteKey = some (id, site)
        ∧ siteForCollect config' siteKey = some (id, site') ∧ blankSite site' = blankSite site := by
  have hsame := siteForCollect_blank config' siteKey
  rw [h, siteForCollect_blank] at hsame
  cases hfound : siteForCollect config siteKey with
  | none =>
    rw [hfound] at hsame
    exact .inl ⟨rfl, Option.map_eq_none_iff.mp hsame.symm⟩
  | some x =>
    obtain ⟨id, site⟩ := x
    rw [hfound] at hsame
    obtain ⟨⟨id', site'⟩, hfound', heq⟩ := Option.map_eq_some_iff.mp hsame.symm
    obtain ⟨rfl, hsite⟩ := Prod.mk.inj heq
    exact .inr ⟨id', site, site', rfl, hfound', hsite⟩

/-- The checks up to the contract mode take both requests to one place. -/
theorem admitToSite_alike (h : blankConfig config' = blankConfig config)
    (htaken : TakenAlike env config config' call key) :
    (∃ turned, admitToSite env config call.request.withEnvironment call.origin = .error turned
        ∧ admitToSite env config' (keyed call.request.withEnvironment key) call.origin
          = .error turned)
      ∨ ∃ id site site' mode,
        admitToSite env config call.request.withEnvironment call.origin = .ok (id, site, mode)
        ∧ admitToSite env config' (keyed call.request.withEnvironment key) call.origin
          = .ok (id, site', mode)
        ∧ blankSite site' = blankSite site := by
  have hconfig := eq_withSites h
  have hmax : config'.maxEvents = config.maxEvents := by rw [hconfig]; rfl
  have hmode : ∀ id, contractModeOf config' id call.request.withEnvironment.environment
      = contractModeOf config id call.request.withEnvironment.environment := by
    intro id
    rw [hconfig]
    rfl
  have hshape : checkShape env (keyed call.request.withEnvironment key)
      = checkShape env call.request.withEnvironment := rfl
  unfold admitToSite
  rw [hshape]
  cases checkShape env call.request.withEnvironment with
  | error turned => exact .inl ⟨turned, rfl, rfl⟩
  | ok u =>
    simp only [bind, Except.bind, keyed, withEnvironment_siteId, withEnvironment_trackingKey, hmax,
      hmode]
    rcases siteForCollect_alike h call.request.siteId with
      ⟨hnone, hnone'⟩ | ⟨id, site, site', hsome, hsome', hsite⟩
    · rw [hnone, hnone']
      exact .inl ⟨_, rfl, rfl⟩
    · rw [hsome, hsome']
      dsimp only
      rw [htaken id site site' hsome hsome']
      cases checkKey env site call.request.trackingKey call.origin with
      | error turned => exact .inl ⟨turned, rfl, rfl⟩
      | ok u =>
        dsimp only
        split
        · exact .inl ⟨_, rfl, rfl⟩
        cases contractModeOf config id call.request.withEnvironment.environment with
        | none => exact .inl ⟨_, rfl, rfl⟩
        | some mode => exact .inr ⟨id, site, site', mode, rfl, rfl, hsite⟩

theorem inspected_withKey (privacy : Policy) (siteId : Uuid) {site site' : Site}
    (hsite : blankSite site' = blankSite site) (req : CollectRequest) :
    (bareDecision ((inspected env privacy siteId site' (keyed req key)
        (withKey call key) now).map (Admission.mk siteId site')))
      = bareDecision ((inspected env privacy siteId site req call now).map
          (Admission.mk siteId site)) := by
  have hprotect : protectPii env (keyed req key) privacy.piiDetectionMode
      = (keyed (protectPii env req privacy.piiDetectionMode).1 key,
          (protectPii env req privacy.piiDetectionMode).2) := rfl
  unfold inspected
  rw [hprotect]
  dsimp only
  split
  · show Except.error (Turned.pii siteId (blankSite site') _ _ _) = _
    rw [hsite]
    rfl
  · show Except.ok (Admission.mk siteId (blankSite site') _) = _
    rw [hsite]
    rfl

/-- **`Accept` decides alike on two keys taken alike.** -/
theorem accept_alike (h : blankConfig config' = blankConfig config)
    (htaken : TakenAlike env config config' call key) :
    bareDecision (accept env config' (withKey call key) now)
      = bareDecision (accept env config call now) := by
  have hprivacy : config'.privacy = config.privacy := by rw [eq_withSites h]
  have hcontracts : ∀ id mode events, checkContracts config' id mode events
      = checkContracts config id mode events := by
    intro id mode events
    rw [eq_withSites h]
    exact checkContracts_sites config'.sites id mode events
  have hreq : (withKey call key).request.withEnvironment
      = keyed call.request.withEnvironment key :=
    withEnvironment_withKey call.request key
  have horigin : (withKey call key).origin = call.origin := rfl
  unfold accept
  rw [hreq, horigin]
  dsimp only
  rcases admitToSite_alike h htaken with
    ⟨turned, hturned, hturned'⟩ | ⟨id, site, site', mode, hadmitted, hadmitted', hsite⟩
  · rw [hturned, hturned']
    rfl
  · rw [hadmitted, hadmitted']
    have hevents : (keyed call.request.withEnvironment key).events
      = call.request.withEnvironment.events := rfl
    simp only [bind, Except.bind, hcontracts, hprivacy, hevents]
    cases checkContracts config id mode call.request.withEnvironment.events with
    | error objection =>
      obtain ⟨event, warnings⟩ := objection
      show Except.error (Turned.contract id (blankSite site') _ event warnings) = _
      rw [hsite]
      rfl
    | ok events =>
      dsimp only
      cases config.privacy with
      | error message => rfl
      | ok privacy =>
        have hboth := @inspected_withKey env call key now privacy id _ _ hsite
          { call.request.withEnvironment with events := events }
        have hmap : ∀ (x : Except Turned InboxPayload) (s : Site),
            (x >>= fun payload => Except.ok ⟨id, s, payload⟩) = x.map (Admission.mk id s) := by
          intro x s
          cases x <;> rfl
        exact (congrArg bareDecision (hmap _ site')).trans
          (hboth.trans (congrArg bareDecision (hmap _ site).symm))

/-- **The key is queued with the request.** -/
theorem accept_trackingKey {a : Admission} (h : accept env config call now = .ok a) :
    a.payload.request.trackingKey = call.request.trackingKey := by
  obtain ⟨mode, events, privacy, -, -, -, hpayload⟩ := accept_ok h
  unfold inspected at hpayload
  dsimp only at hpayload
  split at hpayload
  · cases hpayload
  · rw [← Except.ok.inj hpayload]
    exact withEnvironment_trackingKey call.request

theorem writes_bareTurned (turned : Turned) :
    (bareTurned turned).writes env now = turned.writes env now := by
  cases turned with
  | refused => rfl
  | contract => rfl
  | pii => rfl

theorem blankWrite_turned (turned : Turned) :
    (turned.writes env now).map blankWrite = turned.writes env now := by
  cases turned with
  | refused => rfl
  | contract => rfl
  | pii siteId site environment events kinds =>
    unfold Turned.writes
    rw [List.map_append, List.map_map]
    rfl

theorem bareAdmission_of_keyless {a : Admission} (h : a.payload.request.trackingKey = "") :
    bareAdmission a = { a with site := blankSite a.site } := by
  have hreq : keyed a.payload.request "" = a.payload.request := by
    rw [← h]
    rfl
  unfold bareAdmission
  rw [hreq]

/-- **A call sends alike transactions** when its key is taken alike and, if it is
admitted, there is none. -/
theorem writes_alike {readings : AcceptReadings} (h : blankConfig config' = blankConfig config)
    (htaken : TakenAlike env config config' call key)
    (hpresent : key = "" ↔ call.request.trackingKey = "")
    (hkeyless : ∀ a, accept env config call readings.received = .ok a →
      call.request.trackingKey = "") :
    ((withKey call key).writes env config' readings).map blankWrite
      = (call.writes env config readings).map blankWrite := by
  have hbare : bareDecision (accept env config' (withKey call key) readings.received)
      = bareDecision (accept env config call readings.received) := accept_alike h htaken
  unfold AcceptCall.writes
  cases hleft : accept env config call readings.received with
  | error turned =>
    rw [hleft] at hbare
    cases hright : accept env config' (withKey call key) readings.received with
    | ok a =>
      rw [hright] at hbare
      cases hbare
    | error turned' =>
      rw [hright] at hbare
      have hturned : bareTurned turned' = bareTurned turned := Except.error.inj hbare
      show (turned'.writes env readings.dated).map blankWrite
        = (turned.writes env readings.dated).map blankWrite
      rw [blankWrite_turned, blankWrite_turned, ← writes_bareTurned, hturned, writes_bareTurned]
  | ok a =>
    rw [hleft] at hbare
    cases hright : accept env config' (withKey call key) readings.received with
    | error turned' =>
      rw [hright] at hbare
      cases hbare
    | ok a' =>
      rw [hright] at hbare
      -- neither request shows a key, so bare payloads are the payloads
      have hnone := hkeyless a hleft
      have hkey : a.payload.request.trackingKey = "" :=
        (accept_trackingKey hleft).trans hnone
      have hkey' : a'.payload.request.trackingKey = "" :=
        (accept_trackingKey hright).trans (hpresent.mpr hnone)
      have hboth : bareAdmission a' = bareAdmission a := Except.ok.inj hbare
      rw [bareAdmission_of_keyless hkey, bareAdmission_of_keyless hkey'] at hboth
      have hpayload : a'.payload = a.payload := (Admission.mk.inj hboth).2.2
      dsimp only
      rw [hpayload]
      split
      · show [AcceptWrite.admission { a' with site := blankSite a'.site } readings]
          = [AcceptWrite.admission { a with site := blankSite a.site } readings]
        rw [hboth]
      · rfl

end Accept

end Momento.Keys
