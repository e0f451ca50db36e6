/-
  Momento.Service.Maintenance

  **WHAT ELSE WRITES THE DERIVED TABLES.**  The hourly retention pass
  (`cleanupOnce`) deletes expired rows in committed batches, one table after the
  other; the maintenance loop (`runNext`) takes one queued rebuild at a time and
  writes down how it ended; `updateSite` rebuilds the daily tables when the
  reporting time zone changes.
-/
import Momento.Service.Rebuild
import Momento.Service.Accept

namespace Momento

open Foundation

/-! ## §1. The retention pass. -/

/-- A row of `retention_policies`, with its checks. -/
structure RetentionPolicy where
  rawEventMonths : Nat
  sessionMonths : Nat
  /-- Null keeps the rollups. -/
  aggregationMonths : Option Nat
  rawEventChecked : 1 ≤ rawEventMonths ∧ rawEventMonths ≤ 120
  sessionChecked : 1 ≤ sessionMonths ∧ sessionMonths ≤ 120
  aggregationChecked : ∀ months ∈ aggregationMonths, 1 ≤ months ∧ months ≤ 1200

/-- What a pass reads: the loaded privacy policy's two numbers, the sites' own
policies, and the server's calendar. -/
structure RetentionReadings where
  rawEventMonths : Int
  debugDays : Int
  policies : Table Uuid RetentionPolicy
  /-- `now() - make_interval(months => n)`. -/
  monthsAgo : Nat → Instant
  /-- `(current_date - make_interval(months => n))::date`. -/
  dateMonthsAgo : Nat → Date
  /-- `current_date - make_interval(days => n)`. -/
  dateDaysAgo : Nat → Date

namespace RetentionReadings
variable (r : RetentionReadings)

/-- `months`, brought between 1 and 120. -/
def months : Nat := (max 1 (min 120 r.rawEventMonths)).toNat

/-- `debugDays`, brought between 1 and 90. -/
def days : Nat := (max 1 (min 90 r.debugDays)).toNat

/-- `event_timestamp < now() - make_interval(months => coalesce(p.raw_event_months, $1))`. -/
def rawEventExpired (row : RawEvent) : Bool :=
  row.eventTimestamp
    < r.monthsAgo ((r.policies.lookup row.siteId).elim r.months RetentionPolicy.rawEventMonths)

/-- `coalesce(p.session_months, 25)`, as a time. -/
def sessionCutoff (siteId : Uuid) : Instant :=
  r.monthsAgo ((r.policies.lookup siteId).elim 25 RetentionPolicy.sessionMonths)

/-- Only a site that set a number loses rollups. -/
def rollupExpired (day : DayKey) : Bool :=
  ((r.policies.lookup day.siteId).bind RetentionPolicy.aggregationMonths).any
    fun months => day.eventDate < r.dateMonthsAgo months

end RetentionReadings

/-- One committed batch: the table, and the rows its inner `SELECT … LIMIT`
picked among the expired ones. -/
inductive RetentionBatch where
  | rawEvents (picked : RawEvent → Bool)
  | sessions (picked : SessionKey → Bool)
  | visitorSessions (picked : VisitorSessionKey → Bool)
  | visitorIdentities (picked : VisitorKey → Bool)
  | visitors (picked : VisitorKey → Bool)
  | identifiedUsers (picked : UserKey → Bool)
  | dailySiteMetrics (picked : DayKey → Bool)
  | dailySiteVisitors (picked : DayVisitorKey → Bool)
  | dailySiteSessions (picked : DaySessionKey → Bool)
  | dimensionValues (picked : DimensionValue → Bool)

namespace Store

/-- A visitor some raw event or session is still of. -/
def describesVisitor (s : Store) (key : VisitorKey) : Bool :=
  s.rawEvents.rows.any (fun r => r.visitorKey = key)
    || s.sessions.entries.any (fun e => e.1.siteId = key.siteId ∧ e.2.visitorId = key.visitorId)

/-- A user some identity still names. -/
def namesUser (s : Store) (key : UserKey) : Bool :=
  s.visitorIdentities.entries.any (fun e => e.1.siteId = key.siteId ∧ e.2.userId = key.userId)

/-- `deleteExpired`, one batch of it. -/
def drop (r : RetentionReadings) (s : Store) : RetentionBatch → Store
  | .rawEvents picked =>
    { s with rawEvents := s.rawEvents.keepRows fun row => !(r.rawEventExpired row && picked row) }
  | .sessions picked =>
    { s with sessions := s.sessions.deleteRows fun k row =>
        row.lastEventAt < r.sessionCutoff k.siteId && picked k }
  | .visitorSessions picked =>
    { s with visitorSessions := s.visitorSessions.deleteRows fun k row =>
        row.lastSeen < r.sessionCutoff k.siteId && picked k }
  | .visitorIdentities picked =>
    { s with visitorIdentities := s.visitorIdentities.deleteRows fun k _ =>
        !s.describesVisitor k && picked k }
  | .visitors picked =>
    { s with visitors := s.visitors.deleteRows fun k _ => !s.describesVisitor k && picked k }
  | .identifiedUsers picked =>
    { s with identifiedUsers := s.identifiedUsers.deleteRows fun k _ => !s.namesUser k && picked k }
  | .dailySiteMetrics picked =>
    { s with dailySiteMetrics := s.dailySiteMetrics.deleteRows fun k _ =>
        r.rollupExpired k && picked k }
  | .dailySiteVisitors picked =>
    { s with dailySiteVisitors := s.dailySiteVisitors.deleteRows fun k _ =>
        r.rollupExpired k.day && picked k }
  | .dailySiteSessions picked =>
    { s with dailySiteSessions := s.dailySiteSessions.deleteRows fun k _ =>
        r.rollupExpired k.day && picked k }
  | .dimensionValues picked =>
    { s with dimensionValues := s.dimensionValues.filter fun v =>
        !(v.day.eventDate < r.dateDaysAgo r.days && picked v) }

end Store

/-- `cleanupOnce`, uninterrupted: every table in its turn, all that has expired. -/
def cleanupBatches : List RetentionBatch :=
  [.rawEvents fun _ => true, .sessions fun _ => true, .visitorSessions fun _ => true,
    .visitorIdentities fun _ => true, .visitors fun _ => true, .identifiedUsers fun _ => true,
    .dailySiteMetrics fun _ => true, .dailySiteVisitors fun _ => true,
    .dailySiteSessions fun _ => true, .dimensionValues fun _ => true]

/-! ## §2. Aggregate jobs. -/

/-- `createAggregateJob`: what is queued, or why nothing is. -/
def createAggregateJob (siteId : Uuid) (environment jobType reason : String) (first last : Option Date) :
    Except String AggregateJob :=
  let environment := if isEnvironmentName environment then environment else "prd"
  if jobType = "full_rebuild" then
    .ok ⟨siteId, environment, jobType, none, none, .pending, reason, 0⟩
  else if jobType = "date_range" then
    match first, last with
    | some first, some last =>
      if last < first ∨ 366 < last - first then .error "a valid range of at most 367 days is required"
      else .ok ⟨siteId, environment, jobType, some first, some last, .pending, reason, 0⟩
    | _, _ => .error "a valid range of at most 367 days is required"
  else .error "job_type must be date_range or full_rebuild"

/-- `Maintenance.execute`. -/
def AggregateJob.execute (env : Platform) (job : AggregateJob) (s : Store) : Except DbError Store :=
  if job.jobType = "full_rebuild" then s.rebuildSiteDerivedData env job.siteId
  else if job.jobType = "late_event" ∨ job.jobType = "date_range" then
    match job.dateFrom, job.dateTo with
    | some first, some last =>
      s.rebuildEnvironmentDateRange env job.siteId job.environment first last
    | _, _ => .error (.program ("date range is required for " ++ job.jobType))
  else .error (.program ("unsupported aggregate job type " ++ env.quote job.jobType))

/-- `retryableRebuildError`. -/
def retryableRebuildError : DbError → Bool
  | .deadlockDetected => true
  | .serializationFailure => true
  | _ => false

/-- `maxRebuildAttempts`. -/
def maxRebuildAttempts : Nat := 10

namespace Store

/-- A job's row is updated. -/
def setJob (i : Nat) (job : AggregateJob) (s : Store) : Store :=
  { s with aggregateJobs := s.aggregateJobs.set i job }

/-- `Maintenance.runNext` on the pending job `i`; `fault` is what the server
answers instead of letting the rebuild commit.  The oldest job nobody else holds
is taken; any may be. -/
def runNext (env : Platform) (i : Nat) (fault : Option DbError) (s : Store) : Store :=
  match s.aggregateJobs[i]? with
  | none => s
  | some job =>
    if job.status ≠ .pending then s
    else
      let job := { job with status := .running, attempts := job.attempts + 1 }
      let running := s.setJob i job
      match fault.elim (job.execute env running) Except.error with
      | .ok done => done.setJob i { job with status := .success }
      | .error e =>
        if retryableRebuildError e ∧ job.attempts < maxRebuildAttempts then
          running.setJob i { job with status := .pending }
        else running.setJob i { job with status := .failed }

/-- The loop is killed while the job runs: nothing is written but the claim. -/
def interruptJob (i : Nat) (s : Store) : Store :=
  match s.aggregateJobs[i]? with
  | some job =>
    if job.status = .pending then
      s.setJob i { job with status := .running, attempts := job.attempts + 1 }
    else s
  | none => s

/-- `Maintenance.Run`, as it starts: the jobs that ran too long are pending again. -/
def recoverJobs (stale : AggregateJob → Bool) (s : Store) : Store :=
  { s with aggregateJobs := s.aggregateJobs.map fun job =>
      if job.status = .running ∧ stale job then { job with status := .pending } else job }

/-! ## §3. A site's settings. -/

end Store

/-- What `updateSite` takes. -/
structure SiteUpdate where
  allowedDomains : List String
  sessionTimeoutMinutes : Int
  timezone : String
  engagementThresholdSeconds : Int
  active : Option Bool

/-- `strings.TrimPrefix`. -/
def trimPrefixText (start s : String) : String :=
  if start.toList.isPrefixOf s.toList then String.ofList (s.toList.drop start.length) else s

/-- An entry of `allowed_domains`. -/
def normalizeDomain (env : Platform) (v : String) : String :=
  let v := trimPrefixText "http://" (trimPrefixText "https://" (env.toLower (trimSpace v)))
  String.ofList (v.toList.takeWhile (· ≠ '/'))

/-- `normalizeDomains`: no empty one, no repeated one. -/
def normalizeDomains (env : Platform) (domains : List String) : List String :=
  (domains.map (normalizeDomain env)).foldl
    (fun out v => if v ≠ "" ∧ v ∉ out then out ++ [v] else out) []

namespace Store
variable (env : Platform) (siteId : Uuid)

/-- The site row after the update; the threshold stays within its check. -/
def withSite (site : Site) (s : Store) : Store :=
  { s with config := { s.config with
      sites := s.config.sites.modifyRows fun k old => if k = siteId then site else old } }

theorem threshold_checked (update : SiteUpdate)
    (h : ¬(update.engagementThresholdSeconds < 1 ∨ 300 < update.engagementThresholdSeconds)) :
    1 ≤ update.engagementThresholdSeconds.toNat ∧ update.engagementThresholdSeconds.toNat ≤ 300 := by
  omega

/-- `updateSite`, from its checks to its commit. -/
def updateSite (update : SiteUpdate) (s : Store) : Except DbError Store :=
  if update.sessionTimeoutMinutes < 1 ∨ 1440 < update.sessionTimeoutMinutes then
    .error (.program "session timeout must be between 1 and 1440 minutes")
  else if !env.loadLocation update.timezone then
    .error (.program "timezone must be a valid IANA timezone")
  else if h : update.engagementThresholdSeconds < 1 ∨ 300 < update.engagementThresholdSeconds then
    .error (.program "engagement threshold must be between 1 and 300 seconds")
  else
    match s.config.sites.lookup siteId with
    | none => .error (.program "site not found")
    | some previous =>
      let site : Site :=
        { previous with
          allowedDomains := normalizeDomains env update.allowedDomains
          timezone := update.timezone
          engagementThresholdSeconds := update.engagementThresholdSeconds.toNat
          active := update.active.getD previous.active
          thresholdChecked := threshold_checked update h }
      let updated := s.withSite siteId site
      let recomputed :=
        { updated with
          sessions := recomputeEngaged siteId site.engagementThresholdSeconds updated.sessions }
      if previous.timezone ≠ update.timezone then recomputed.rebuildSiteDailyAggregates env siteId
      else .ok recomputed

/-! ## §4. What a step is made of. -/

variable {env siteId} {s s' : Store}

/-- **A change of the settings that goes through**: the row is written, and the daily
tables are rebuilt where the time zone is another one. -/
theorem ok_updateSite {update : SiteUpdate} (h : s.updateSite env siteId update = .ok s') :
    ∃ previous site, s.config.sites.lookup siteId = some previous ∧ site.timezone = update.timezone
      ∧ ((previous.timezone ≠ update.timezone
          ∧ { s.withSite siteId site with
              sessions := recomputeEngaged siteId site.engagementThresholdSeconds s.sessions
            }.rebuildSiteDailyAggregates env siteId = .ok s')
        ∨ previous.timezone = update.timezone
          ∧ s' = { s.withSite siteId site with
              sessions := recomputeEngaged siteId site.engagementThresholdSeconds s.sessions }) := by
  unfold Store.updateSite at h
  split at h
  · cases h
  split at h
  · cases h
  split at h
  · cases h
  cases hsite : s.config.sites.lookup siteId with
  | none =>
    rw [hsite] at h
    cases h
  | some previous =>
    rw [hsite] at h
    dsimp only at h
    split at h
    next hchanged => exact ⟨previous, _, rfl, rfl, Or.inl ⟨hchanged, h⟩⟩
    next hsame => exact ⟨previous, _, rfl, rfl, Or.inr ⟨not_not.mp hsame, (Except.ok.inj h).symm⟩⟩

/-- A queued job that goes through is one of the two rebuilds. -/
theorem ok_execute {I : Store → Prop} {job : AggregateJob}
    (hderived : s.rebuildSiteDerivedData env job.siteId = .ok s' → I s')
    (hrange : ∀ first last, s.rebuildEnvironmentDateRange env job.siteId job.environment first last = .ok s' → I s')
    (h : job.execute env s = .ok s') : I s' := by
  unfold AggregateJob.execute at h
  split at h
  · exact hderived h
  split at h
  · split at h
    · exact hrange _ _ h
    · cases h
  · cases h

variable {I : Store → Prop} {i : Nat}

/-- **What a queued job keeps**, of what does not speak of the queue. -/
theorem runNext_keeps (hqueue : ∀ s jobs, I s → I { s with aggregateJobs := jobs }) (hs : I s)
    {fault : Option DbError} (hexecute : ∀ job s₁ s', s.aggregateJobs[i]? = some job →
      (∃ jobs, s₁ = { s with aggregateJobs := jobs }) → job.execute env s₁ = .ok s' → I s') :
    I (s.runNext env i fault) := by
  unfold Store.runNext
  cases hjob : s.aggregateJobs[i]? with
  | none => exact hs
  | some job =>
    dsimp only
    split
    · exact hs
    split
    next done hdone =>
      cases fault with
      | some e => cases hdone
      | none => exact hqueue _ _ (hexecute job _ done hjob ⟨_, rfl⟩ hdone)
    next => split <;> exact hqueue _ _ (hqueue _ _ hs)

theorem interruptJob_keeps (hqueue : ∀ s jobs, I s → I { s with aggregateJobs := jobs }) (hs : I s) :
    I (s.interruptJob i) := by
  unfold Store.interruptJob
  split
  · split
    · exact hqueue _ _ hs
    · exact hs
  · exact hs

end Store

end Momento
