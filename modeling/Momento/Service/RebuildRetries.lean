/-
  Momento.Service.RebuildRetries

  **REBUILDS THAT LOST A RACE.**  The maintenance loops take aggregate jobs from
  their queue while workers write the rows the jobs rebuild.  What a step does:

      claim       — one transaction: the job is running, with one attempt more
      statement   — one row of one statement of any transaction (`Interleaving`)
      raise       — the server answers a rebuild with an error, and rolls it back
      record      — a statement of its own, after the rollback or the commit
      interrupt   — the process is gone, with nothing recorded
      recover     — a loop starts: jobs that ran too long are pending again
-/
import Momento.Service.RebuildInterleaving
import Momento.Service.Maintenance
import Momento.Service.Runs
import Momento.Foundation.Runs

namespace Momento.RebuildRetries

open Foundation Interleaving

/-! ## §1. Attempts. -/

/-- How an attempt stands: inside `execute`, or back from it.  `raced` tells the
errors that only the transactions beside the rebuild are the reason of. -/
inductive Phase where
  | executing
  | committed
  | failed (error : DbError) (raced : Bool)
  deriving DecidableEq

/-- `runNext`, once it has claimed a job. -/
structure Attempt where
  job : Nat
  /-- `job.Attempts`, this one included. -/
  number : Nat
  /-- How many transactions had committed when it began.  No table holds it. -/
  since : Nat
  phase : Phase
  deriving DecidableEq

/-- What `runNext` writes down once `execute` has returned. -/
def Attempt.recorded (attempt : Attempt) : Option JobStatus :=
  match attempt.phase with
  | .executing => none
  | .committed => some .success
  | .failed error _ =>
    if retryableRebuildError error ∧ attempt.number < maxRebuildAttempts then some .pending
    else some .failed

/-- An attempt that has been recorded: its transaction, and the status it wrote. -/
structure Ending where
  transaction : Nat
  attempt : Attempt
  status : JobStatus
  deriving DecidableEq

/-- The rebuild that `Maintenance.execute` runs for a job. -/
def rebuildOf (env : Platform) (job : AggregateJob) : Except DbError Rebuild :=
  if job.jobType = "full_rebuild" then .ok (.siteDerivedData job.siteId)
  else if job.jobType = "late_event" ∨ job.jobType = "date_range" then
    match job.dateFrom, job.dateTo with
    | some first, some last => .ok (.environmentDateRange job.siteId job.environment first last)
    | _, _ => .error (.program ("date range is required for " ++ job.jobType))
  else .error (.program ("unsupported aggregate job type " ++ env.quote job.jobType))

/-- A job without a rebuild fails before its first statement. -/
theorem execute_of_rebuildOf_error {env : Platform} {job : AggregateJob} {error : DbError}
    (h : rebuildOf env job = .error error) (s : Store) : job.execute env s = .error error := by
  unfold rebuildOf at h
  unfold AggregateJob.execute
  by_cases hfull : job.jobType = "full_rebuild"
  · rw [if_pos hfull] at h
    cases h
  · rw [if_neg hfull] at h ⊢
    by_cases hrange : job.jobType = "late_event" ∨ job.jobType = "date_range"
    · rw [if_pos hrange] at h ⊢
      -- without both dates the two answer alike
      cases hfirst : job.dateFrom with
      | none =>
        rw [hfirst] at h
        exact congrArg Except.error (Except.error.inj h)
      | some first =>
        cases hlast : job.dateTo with
        | none =>
          rw [hfirst, hlast] at h
          exact congrArg Except.error (Except.error.inj h)
        | some last =>
          rw [hfirst, hlast] at h
          cases h
    · rw [if_neg hrange] at h ⊢
      exact congrArg Except.error (Except.error.inj h)

/-! ## §2. The loops, the jobs and the database. -/

/-- `κ` and `ρ` are the keys and rows of the other derived tables. -/
structure State (κ ρ : Type) [DecidableEq κ] where
  world : Interleaving.World κ ρ
  /-- `aggregate_jobs`. -/
  jobs : Table Nat AggregateJob
  /-- The attempts under way, by the transactions of their rebuilds. -/
  attempts : Table Nat Attempt
  /-- The recorded ones, newest first.  No table holds it. -/
  endings : List Ending

/-- What can happen. -/
inductive Action (κ ρ : Type) where
  | enqueue (j : Nat) (job : AggregateJob)
  | claim (j x : Nat)
  | statement (action : Interleaving.Action κ ρ)
  | insertDerived (x : Nat) (k : κ) (row : ρ) (constraint : String)
  | raise (x : Nat) (error : DbError)
  | record (x : Nat)
  | interrupt (x : Nat)
  | recover (stale : Nat → Bool)

/-- Whose statement it is. -/
def transactionOf {κ ρ : Type} : Interleaving.Action κ ρ → Nat
  | .beginWorker x | .beginRebuild x _ | .readZone x _ | .insertRaw x _ | .countEvent x _ | .derived x _ _
  | .release x | .rollback x | .nextStatement x | .deleteRow x _ | .insertRow x _
  | .statementDone x | .commit x | .abort x => x

/-- A row was written under the key. -/
def wrote {κ ρ : Type} [DecidableEq κ] (writes : Writes κ ρ) (k : κ) : Bool := (writes.lookup k).join.isSome

namespace State
variable {κ ρ : Type} [DecidableEq κ]

/-- Some sites, and nothing stored or queued yet. -/
def initial (sites : Table Uuid (Held String)) : State κ ρ := ⟨.initial sites, ∅, ∅, []⟩

variable (env : Platform) (s : State κ ρ)

/-- The number was no transaction's yet. -/
def Fresh (x : Nat) : Prop :=
  x ∉ s.world.programs ∧ x ∉ s.attempts ∧ ∀ c ∈ s.world.log, c.transaction ≠ x

instance (x : Nat) : Decidable (s.Fresh x) :=
  inferInstanceAs (Decidable (_ ∧ _ ∧ ∀ c ∈ s.world.log, c.transaction ≠ x))

/-- The transactions that committed after the first `since` ones. -/
def committedAfter (since : Nat) : List (Commit κ ρ) := s.world.log.take (s.world.log.length - since)

/-- A row of `daily_site_metrics` was committed under the key since the attempt began. -/
def metricsOvertaken (attempt : Attempt) (k : DayKey) : Bool :=
  (s.committedAfter attempt.since).any fun c => wrote c.metrics k

/-- One of another derived table was. -/
def derivedOvertaken (attempt : Attempt) (k : κ) : Bool :=
  (s.committedAfter attempt.since).any fun c => wrote c.derived k

/-- The running `INSERT` has come to a row whose key is taken. -/
def metricsKeyTaken (x : Nat) (k : DayKey) : Bool :=
  match s.world.programs.lookup x with
  | some (.rebuild _ _ (.inserting left)) =>
    (left.lookup k).isSome && s.world.metrics.free x k && (s.world.metrics.seen x k).isSome
  | _ => false

/-- A key is taken by a row committed since. -/
def derivedKeyTaken (x : Nat) (k : κ) : Bool :=
  s.world.derived.free x k && (s.world.derived.seen x k).isSome

/-- What `execute` returns after the statement, if it returns. -/
def verdict (attempt : Attempt) : Interleaving.Action κ ρ → Option Phase
  | .nextStatement x =>
    match s.world.programs.lookup x with
    | some (.rebuild kind (.insertMetrics :: _) .idle) =>
      match (kind.select env (s.world.zonesSeen x) (rowsOf (s.world.raw.snapshot x))).collect with
      | .error error => some (.failed error false)
      | .ok _ => none
    | _ => none
  | .insertRow x k =>
    if s.metricsKeyTaken x k then
      some (.failed (.uniqueViolation "daily_site_metrics_pkey") (s.metricsOvertaken attempt k))
    else none
  | .commit x =>
    match s.world.programs.lookup x with
    | some (.rebuild _ [] .idle) => some .committed
    | _ => none
  | _ => none

/-- A transaction begins under a number of its own; a rebuild of a job ends as its
attempt does. -/
def Permitted : Interleaving.Action κ ρ → Prop
  | .beginWorker x | .beginRebuild x _ => s.Fresh x
  | .abort x => x ∉ s.attempts
  | _ => True

instance (action : Interleaving.Action κ ρ) : Decidable (s.Permitted action) :=
  match action with
  | .beginWorker x | .beginRebuild x _ => inferInstanceAs (Decidable (s.Fresh x))
  | .abort x => inferInstanceAs (Decidable (x ∉ s.attempts))
  | .readZone _ _ | .insertRaw _ _ | .countEvent _ _ | .derived _ _ _ | .release _ | .rollback _
  | .nextStatement _ | .deleteRow _ _ | .insertRow _ _ | .statementDone _ | .commit _ => instDecidableTrue

/-- An attempt moves on. -/
def conclude (x : Nat) (attempt : Attempt) (phase : Phase) : State κ ρ :=
  { s with attempts := AList.insert x { attempt with phase := phase } s.attempts }

/-- `UPDATE aggregate_jobs SET status=… WHERE id=…`. -/
def setStatus (j : Nat) (status : JobStatus) : Table Nat AggregateJob :=
  s.jobs.modifyRows fun i job => if i = j then { job with status := status } else job

/-- The claim commits before the rebuild's transaction begins. -/
def claim (j x : Nat) : State κ ρ :=
  match s.jobs.lookup j with
  | none => s
  | some job =>
    if job.status = .pending ∧ s.Fresh x then
      let claimed :=
        { s with jobs := AList.insert j { job with status := .running, attempts := job.attempts + 1 } s.jobs }
      let attempt : Attempt := ⟨j, job.attempts + 1, s.world.log.length, .executing⟩
      match rebuildOf env job with
      | .ok kind =>
        { claimed with world := s.world.withProgram x (.rebuild kind kind.statements .idle) }.conclude x
          attempt .executing
      | .error error => claimed.conclude x attempt (.failed error false)
    else s

/-- A statement of a transaction. -/
def statement (action : Interleaving.Action κ ρ) : State κ ρ :=
  if s.Permitted action then
    let after := { s with world := s.world.step env action }
    match s.attempts.lookup (transactionOf action) with
    | none => after
    | some attempt =>
      if attempt.phase = .executing then
        (s.verdict env attempt action).elim after (after.conclude (transactionOf action) attempt)
      else after
  else s

/-- One row of an `INSERT` into another derived table. -/
def insertDerived (x : Nat) (k : κ) (row : ρ) (constraint : String) : State κ ρ :=
  match s.attempts.lookup x with
  | none => s
  | some attempt =>
    if attempt.phase = .executing then
      if s.derivedKeyTaken x k then
        { s with world := s.world.abort x }.conclude x attempt
          (.failed (.uniqueViolation constraint) (s.derivedOvertaken attempt k))
      else match s.world.derived.insertRow x k row with
        | none => s
        | some derived => { s with world := { s.world with derived := derived } }
    else s

/-- A unique key is only violated by a row that is inserted. -/
def isUniqueViolation : DbError → Bool
  | .uniqueViolation _ => true
  | _ => false

/-- Deadlocks and failed serialisation checks take another transaction. -/
def raise (x : Nat) (error : DbError) : State κ ρ :=
  match s.attempts.lookup x with
  | none => s
  | some attempt =>
    if attempt.phase = .executing ∧ isUniqueViolation error = false then
      { s with world := s.world.abort x }.conclude x attempt
        (.failed error (decide (error = DbError.deadlockDetected ∨ error = DbError.serializationFailure)))
    else s

/-- The outcome of an attempt is noted. -/
def record (x : Nat) : State κ ρ :=
  match s.attempts.lookup x with
  | none => s
  | some attempt =>
    match attempt.recorded with
    | none => s
    | some status =>
      { s with
        jobs := s.setStatus attempt.job status
        attempts := s.attempts.erase x
        endings := ⟨x, attempt, status⟩ :: s.endings }

/-- **A step.** -/
def step : Action κ ρ → State κ ρ
  | .enqueue j job =>
    if j ∈ s.jobs then s
    else { s with jobs := AList.insert j { job with status := .pending, attempts := 0 } s.jobs }
  | .claim j x => s.claim env j x
  | .statement action => s.statement env action
  | .insertDerived x k row constraint => s.insertDerived x k row constraint
  | .raise x error => s.raise x error
  | .record x => s.record x
  | .interrupt x =>
    if x ∈ s.attempts then { s with world := s.world.abort x, attempts := s.attempts.erase x } else s
  | .recover stale =>
    { s with jobs := s.jobs.modifyRows fun j job =>
        if job.status = .running ∧ stale j then { job with status := .pending } else job }

end State

/-! ## §3. What is claimed, and where it holds. -/

section Claims
variable {κ ρ : Type} [DecidableEq κ]

/-- **Lost races are retried.** -/
structure Retried (s : State κ ρ) : Prop where
  putBack : ∀ e ∈ s.endings, ∀ error, e.attempt.phase = .failed error true →
    e.attempt.number < maxRebuildAttempts → e.status = .pending
  /-- Success is written where the rebuild's transaction has committed, … -/
  committed : ∀ e ∈ s.endings, e.status = .success → ∃ c ∈ s.world.log, c.transaction = e.transaction
  /-- … and nothing else makes a job successful. -/
  recorded : ∀ j job, s.jobs.lookup j = some job → job.status = .success →
    ∃ e ∈ s.endings, e.attempt.job = j ∧ e.status = .success
  bounded : ∀ j job, s.jobs.lookup j = some job → job.attempts ≤ maxRebuildAttempts

/-- The condition on a step.  No row of a rebuild that may still be retried comes to
a key whose row was committed since the rebuild began; and what goes back to the
queue has attempts left. -/
def Unhindered (s : State κ ρ) : Action κ ρ → Prop
  | .statement (.insertRow x k) => ∀ attempt ∈ s.attempts.lookup x,
    attempt.number < maxRebuildAttempts → s.metricsKeyTaken x k → s.metricsOvertaken attempt k = false
  | .insertDerived x k _ _ => ∀ attempt ∈ s.attempts.lookup x,
    attempt.number < maxRebuildAttempts → s.derivedKeyTaken x k → s.derivedOvertaken attempt k = false
  | .record x => ∀ attempt ∈ s.attempts.lookup x, attempt.recorded = some .pending →
    ∀ job ∈ s.jobs.lookup attempt.job, job.attempts < maxRebuildAttempts
  | .recover stale => ∀ e ∈ s.jobs.entries, e.2.status = .running → stale e.1 →
    e.2.attempts < maxRebuildAttempts
  | _ => True

instance (s : State κ ρ) (action : Action κ ρ) : Decidable (Unhindered s action) := by
  unfold Unhindered
  split <;> infer_instance

end Claims

/-! ## §4. What a step does. -/

section Steps
variable {κ ρ : Type} [DecidableEq κ] {env : Platform} {s s' : State κ ρ}

theorem log_subset_step (w : Interleaving.World κ ρ) (action : Interleaving.Action κ ρ) :
    w.log ⊆ (w.step env action).log := by
  rcases committed_step env w action with hsame | ⟨x, -, hcommit⟩
  · rw [hsame.log]
    exact List.Subset.refl _
  · rw [hcommit]
    exact List.subset_cons_self _ _

/-- **Everything a step of the loops, the workers or the server can do** to the jobs
and their attempts. -/
inductive Effect (s s' : State κ ρ) : Prop
  | none (hjobs : s'.jobs = s.jobs)
      (hattempts : ∀ x attempt, s'.attempts.lookup x = some attempt → s.attempts.lookup x = some attempt)
      (hendings : s'.endings = s.endings) (hlog : s.world.log ⊆ s'.world.log)
  | enqueued (j : Nat) (job : AggregateJob)
      (hjobs : s'.jobs = AList.insert j { job with status := .pending, attempts := 0 } s.jobs)
      (hattempts : s'.attempts = s.attempts) (hendings : s'.endings = s.endings)
      (hlog : s'.world.log = s.world.log)
  | claimed (j x : Nat) (job : AggregateJob) (attempt : Attempt)
      (hjob : s.jobs.lookup j = some job) (hpending : job.status = .pending)
      (hjobs : s'.jobs = AList.insert j { job with status := .running, attempts := job.attempts + 1 } s.jobs)
      (hattempts : s'.attempts = AList.insert x attempt s.attempts)
      (hphase : attempt.phase = .executing ∨ ∃ error, attempt.phase = .failed error false)
      (hendings : s'.endings = s.endings) (hlog : s'.world.log = s.world.log)
  | concluded (x : Nat) (attempt : Attempt) (phase : Phase)
      (hjobs : s'.jobs = s.jobs)
      (hattempts : s'.attempts = AList.insert x { attempt with phase := phase } s.attempts)
      (hcommitted : phase = .committed → ∃ c ∈ s'.world.log, c.transaction = x)
      (hraced : ∀ error, phase = .failed error true → attempt.number < maxRebuildAttempts →
        retryableRebuildError error = true)
      (hendings : s'.endings = s.endings) (hlog : s.world.log ⊆ s'.world.log)
  | recorded (x : Nat) (attempt : Attempt) (status : JobStatus)
      (hattempt : s.attempts.lookup x = some attempt) (hstatus : attempt.recorded = some status)
      (hjobs : s'.jobs = s.setStatus attempt.job status)
      (hattempts : s'.attempts = s.attempts.erase x)
      (hroom : status = .pending → ∀ job, s.jobs.lookup attempt.job = some job → job.attempts < maxRebuildAttempts)
      (hendings : s'.endings = ⟨x, attempt, status⟩ :: s.endings) (hlog : s'.world.log = s.world.log)
  | recovered (stale : Nat → Bool)
      (hjobs : s'.jobs = s.jobs.modifyRows fun j job =>
        if job.status = .running ∧ stale j then { job with status := .pending } else job)
      (hroom : ∀ j job, s.jobs.lookup j = some job → job.status = .running → stale j = true →
        job.attempts < maxRebuildAttempts)
      (hattempts : s'.attempts = s.attempts) (hendings : s'.endings = s.endings)
      (hlog : s'.world.log = s.world.log)

theorem Effect.refl (s : State κ ρ) : Effect s s := .none rfl (fun _ _ h => h) rfl (List.Subset.refl _)

theorem effect_claim (s : State κ ρ) (j x : Nat) : Effect s (s.claim env j x) := by
  unfold State.claim
  split
  · exact .refl s
  next job hjob =>
    split
    next hclaim =>
      dsimp only
      split
      · exact .claimed j x job _ hjob hclaim.1 rfl rfl (.inl rfl) rfl rfl
      next error _ => exact .claimed j x job _ hjob hclaim.1 rfl rfl (.inr ⟨error, rfl⟩) rfl rfl
    · exact .refl s

/-- What `execute` returns of a statement: an error of a race only where the key was
lost, and a commit only with the commit. -/
theorem verdict_spec {attempt : Attempt} {action : Interleaving.Action κ ρ} {phase : Phase}
    (h : s.verdict env attempt action = some phase) :
    (phase = .committed → ∃ c ∈ (s.world.step env action).log, c.transaction = transactionOf action)
      ∧ ∀ error, phase = .failed error true → ∃ x k, action = .insertRow x k
        ∧ s.metricsKeyTaken x k = true ∧ s.metricsOvertaken attempt k = true := by
  unfold State.verdict at h
  split at h
  next x =>
    split at h
    · split at h
      · cases h
        exact ⟨(fun hphase => nomatch hphase), fun _ hphase => nomatch hphase⟩
      · cases h
    · cases h
  next x k =>
    split at h
    next htaken =>
      cases h
      refine ⟨(fun hphase => nomatch hphase), fun error hphase => ?_⟩
      injection hphase with _ hovertaken
      exact ⟨x, k, rfl, htaken, hovertaken⟩
    · cases h
  next x =>
    split at h
    next kind hprogram =>
      cases h
      refine ⟨fun _ => ?_, fun _ hphase => nomatch hphase⟩
      have hstep : s.world.step env (.commit x) = s.world.commit x := by
        unfold Interleaving.World.step
        dsimp only
        rw [hprogram]
      rw [hstep]
      exact ⟨_, List.mem_cons_self, rfl⟩
    · cases h
  · cases h

theorem effect_statement {action : Interleaving.Action κ ρ} (h : Unhindered s (.statement action)) :
    Effect s (s.statement env action) := by
  unfold State.statement
  split
  · dsimp only
    have hlog : s.world.log ⊆ (s.world.step env action).log := log_subset_step s.world action
    split
    · exact .none rfl (fun _ _ h => h) rfl hlog
    next attempt hattempt =>
      split
      · cases hverdict : s.verdict env attempt action with
        | none => exact .none rfl (fun _ _ h => h) rfl hlog
        | some phase =>
          obtain ⟨hcommitted, hraced⟩ := verdict_spec hverdict
          refine .concluded (transactionOf action) attempt phase rfl rfl hcommitted ?_ rfl hlog
          intro error hphase hnumber
          -- such an error takes a row that the condition rules out
          obtain ⟨x, k, rfl, htaken, hovertaken⟩ := hraced error hphase
          rw [h attempt hattempt hnumber htaken] at hovertaken
          cases hovertaken
      · exact .none rfl (fun _ _ h => h) rfl hlog
  · exact .refl s

theorem effect_insertDerived {x : Nat} {k : κ} {row : ρ} {constraint : String}
    (h : Unhindered s (.insertDerived x k row constraint)) :
    Effect s (s.insertDerived x k row constraint) := by
  unfold State.insertDerived
  split
  · exact .refl s
  next attempt hattempt =>
    split
    · split
      next htaken =>
        refine .concluded x attempt _ rfl rfl (fun hphase => nomatch hphase) ?_ rfl (List.Subset.refl _)
        intro error hphase hnumber
        injection hphase with _ hovertaken
        rw [h attempt hattempt hnumber htaken] at hovertaken
        cases hovertaken
      · split
        · exact .refl s
        · exact .none rfl (fun _ _ h => h) rfl (List.Subset.refl _)
    · exact .refl s

theorem effect_raise (s : State κ ρ) (x : Nat) (error : DbError) : Effect s (s.raise x error) := by
  unfold State.raise
  split
  · exact .refl s
  next attempt hattempt =>
    split
    · refine .concluded x attempt _ rfl rfl (fun hphase => nomatch hphase) ?_ rfl (List.Subset.refl _)
      intro error' hphase _
      injection hphase with herror hraced
      subst herror
      -- the two errors that another transaction takes are the two that are retried
      rcases of_decide_eq_true hraced with rfl | rfl
      · rfl
      · rfl
    · exact .refl s

theorem effect_record {x : Nat} (h : Unhindered s (.record x)) : Effect s (s.record x) := by
  unfold State.record
  split
  · exact .refl s
  next attempt hattempt =>
    split
    · exact .refl s
    next status hstatus =>
      refine .recorded x attempt status hattempt hstatus rfl rfl ?_ rfl rfl
      intro hpending job hjob
      rw [hpending] at hstatus
      exact h attempt hattempt hstatus job hjob

/-- What a step does to the books. -/
theorem effect_step {action : Action κ ρ} (h : Unhindered s action) :
    Effect s (s.step env action) := by
  cases action with
  | enqueue j job =>
    show Effect s (if j ∈ s.jobs then s else _)
    split
    · exact .refl s
    · exact .enqueued j job rfl rfl rfl rfl
  | claim j x => exact effect_claim s j x
  | statement action => exact effect_statement h
  | insertDerived x k row constraint => exact effect_insertDerived h
  | raise x error => exact effect_raise s x error
  | record x => exact effect_record h
  | interrupt x =>
    show Effect s (if x ∈ s.attempts then _ else s)
    split
    · refine .none rfl ?_ rfl (List.Subset.refl _)
      intro y attempt hlookup
      by_cases hyx : y = x
      · rw [hyx, AList.lookup_erase] at hlookup
        cases hlookup
      · rwa [AList.lookup_erase_ne hyx] at hlookup
    · exact .refl s
  | recover stale =>
    refine .recovered stale rfl ?_ rfl rfl rfl
    intro j job hjob hrunning hstale
    exact h ⟨j, job⟩ (AList.mem_lookup_iff.mp hjob) hrunning hstale

end Steps

/-! ## §5. The invariant. -/

section Invariant
variable {κ ρ : Type} [DecidableEq κ] {env : Platform} {s s' : State κ ρ}

/-- What is true of the attempts under way, besides what is claimed. -/
structure Sound (s : State κ ρ) : Prop where
  retried : Retried s
  /-- A pending job has an attempt left. -/
  room : ∀ j job, s.jobs.lookup j = some job → job.status = .pending → job.attempts < maxRebuildAttempts
  retryable : ∀ x attempt, s.attempts.lookup x = some attempt → ∀ error, attempt.phase = .failed error true →
    attempt.number < maxRebuildAttempts → retryableRebuildError error = true
  landed : ∀ x attempt, s.attempts.lookup x = some attempt → attempt.phase = .committed →
    ∃ c ∈ s.world.log, c.transaction = x

theorem sound_initial (sites : Table Uuid (Held String)) : Sound (State.initial sites : State κ ρ) where
  retried :=
    { putBack := fun _ he => nomatch he
      committed := fun _ he => nomatch he
      recorded := fun _ _ hjob => nomatch hjob
      bounded := fun _ _ hjob => nomatch hjob }
  room _ _ hjob := nomatch hjob
  retryable _ _ hattempt := nomatch hattempt
  landed _ _ hattempt := nomatch hattempt

/-- A step that leaves the jobs and the endings, and takes no commit back. -/
theorem Retried.of_kept (h : Retried s) (hjobs : s'.jobs = s.jobs) (hendings : s'.endings = s.endings)
    (hlog : s.world.log ⊆ s'.world.log) : Retried s' where
  putBack := by
    rw [hendings]
    exact h.putBack
  committed := by
    rw [hendings]
    intro e he hstatus
    obtain ⟨c, hc, htransaction⟩ := h.committed e he hstatus
    exact ⟨c, hlog hc, htransaction⟩
  recorded := by
    rw [hjobs, hendings]
    exact h.recorded
  bounded := by
    rw [hjobs]
    exact h.bounded

/-- One job's row is another, and no status becomes `success`. -/
theorem Retried.of_insert {j : Nat} {job : AggregateJob} (h : Retried s)
    (hjobs : s'.jobs = AList.insert j job s.jobs) (hstatus : job.status ≠ .success)
    (hattempts : job.attempts ≤ maxRebuildAttempts) (hendings : s'.endings = s.endings)
    (hlog : s'.world.log = s.world.log) : Retried s' where
  putBack := by
    rw [hendings]
    exact h.putBack
  committed := by
    rw [hendings, hlog]
    exact h.committed
  recorded := by
    rw [hjobs, hendings]
    intro i found hfound hsuccess
    by_cases hij : i = j
    · rw [hij, AList.lookup_insert] at hfound
      cases hfound
      exact absurd hsuccess hstatus
    · rw [AList.lookup_insert_ne hij] at hfound
      exact h.recorded i found hfound hsuccess
  bounded := by
    rw [hjobs]
    intro i found hfound
    by_cases hij : i = j
    · rw [hij, AList.lookup_insert] at hfound
      cases hfound
      exact hattempts
    · rw [AList.lookup_insert_ne hij] at hfound
      exact h.bounded i found hfound

/-- What `runNext` writes is `pending` for an error that is retried, and `success`
only after a commit. -/
theorem recorded_spec {attempt : Attempt} {status : JobStatus} (h : attempt.recorded = some status) :
    (∀ error raced, attempt.phase = .failed error raced → retryableRebuildError error = true →
        attempt.number < maxRebuildAttempts → status = .pending)
      ∧ (status = .success → attempt.phase = .committed) := by
  unfold Attempt.recorded at h
  cases hphase : attempt.phase with
  | executing =>
    rw [hphase] at h
    cases h
  | committed =>
    refine ⟨?_, fun _ => rfl⟩
    intro error raced hfailed
    cases hfailed
  | failed error raced =>
    rw [hphase] at h
    dsimp only at h
    split at h
    next hretry =>
      cases h
      exact ⟨fun _ _ _ _ _ => rfl, fun hsuccess => nomatch hsuccess⟩
    next hretry =>
      cases h
      refine ⟨?_, fun hsuccess => nomatch hsuccess⟩
      intro error' raced' hfailed hretryable hnumber
      cases hfailed
      exact absurd ⟨hretryable, hnumber⟩ hretry

theorem lookup_setStatus (s : State κ ρ) (j : Nat) (status : JobStatus) (i : Nat) :
    (s.setStatus j status).lookup i
      = (s.jobs.lookup i).map fun job => if i = j then { job with status := status } else job :=
  Table.lookup_modifyRows _ _ _

/-- **One step.** -/
theorem Sound.effect (h : Sound s) (heffect : Effect s s') : Sound s' := by
  cases heffect with
  | none hjobs hattempts hendings hlog =>
    refine ⟨h.retried.of_kept hjobs hendings hlog, ?_, ?_, ?_⟩
    · rw [hjobs]
      exact h.room
    · intro x attempt hattempt
      exact h.retryable x attempt (hattempts x attempt hattempt)
    · intro x attempt hattempt hphase
      obtain ⟨c, hc, htransaction⟩ := h.landed x attempt (hattempts x attempt hattempt) hphase
      exact ⟨c, hlog hc, htransaction⟩
  | enqueued j job hjobs hattempts hendings hlog =>
    have hzero : 0 < maxRebuildAttempts := by decide
    refine ⟨h.retried.of_insert hjobs (fun hstatus => nomatch hstatus) hzero.le hendings hlog, ?_, ?_, ?_⟩
    · rw [hjobs]
      intro i found hfound hpending
      by_cases hij : i = j
      · rw [hij, AList.lookup_insert] at hfound
        cases hfound
        exact hzero
      · rw [AList.lookup_insert_ne hij] at hfound
        exact h.room i found hfound hpending
    · rw [hattempts]
      exact h.retryable
    · rw [hattempts, hlog]
      exact h.landed
  | claimed j x job attempt hjob hpending hjobs hattempts hphase hendings hlog =>
    have hroom : job.attempts < maxRebuildAttempts := h.room j job hjob hpending
    refine ⟨h.retried.of_insert hjobs (fun hstatus => nomatch hstatus) hroom hendings hlog, ?_, ?_, ?_⟩
    · rw [hjobs]
      intro i found hfound hstatus
      by_cases hij : i = j
      · rw [hij, AList.lookup_insert] at hfound
        cases hfound
        cases hstatus
      · rw [AList.lookup_insert_ne hij] at hfound
        exact h.room i found hfound hstatus
    · rw [hattempts]
      intro y found hfound error hfailed
      by_cases hyx : y = x
      · -- a new attempt is executing, or has failed without a race
        rw [hyx, AList.lookup_insert] at hfound
        cases hfound
        rw [hfailed] at hphase
        rcases hphase with hexecuting | ⟨error', herror⟩
        · cases hexecuting
        · cases herror
      · rw [AList.lookup_insert_ne hyx] at hfound
        exact h.retryable y found hfound error hfailed
    · rw [hattempts, hlog]
      intro y found hfound hcommitted
      by_cases hyx : y = x
      · rw [hyx, AList.lookup_insert] at hfound
        cases hfound
        rw [hcommitted] at hphase
        rcases hphase with hexecuting | ⟨error', herror⟩
        · cases hexecuting
        · cases herror
      · rw [AList.lookup_insert_ne hyx] at hfound
        exact h.landed y found hfound hcommitted
  | concluded x attempt phase hjobs hattempts hcommitted hraced hendings hlog =>
    refine ⟨h.retried.of_kept hjobs hendings hlog, ?_, ?_, ?_⟩
    · rw [hjobs]
      exact h.room
    · rw [hattempts]
      intro y found hfound error hfailed hnumber
      by_cases hyx : y = x
      · rw [hyx, AList.lookup_insert] at hfound
        cases hfound
        exact hraced error hfailed hnumber
      · rw [AList.lookup_insert_ne hyx] at hfound
        exact h.retryable y found hfound error hfailed hnumber
    · rw [hattempts]
      intro y found hfound hphase
      by_cases hyx : y = x
      · rw [hyx, AList.lookup_insert] at hfound
        cases hfound
        rw [hyx]
        exact hcommitted hphase
      · rw [AList.lookup_insert_ne hyx] at hfound
        obtain ⟨c, hc, htransaction⟩ := h.landed y found hfound hphase
        exact ⟨c, hlog hc, htransaction⟩
  | recorded x attempt status hattempt hstatus hjobs hattempts hroom hendings hlog =>
    obtain ⟨hback, hsuccess⟩ := recorded_spec hstatus
    have hkept : ∀ y found, s'.attempts.lookup y = some found → s.attempts.lookup y = some found := by
      rw [hattempts]
      intro y found hfound
      by_cases hyx : y = x
      · rw [hyx, AList.lookup_erase] at hfound
        cases hfound
      · rwa [AList.lookup_erase_ne hyx] at hfound
    refine ⟨⟨?_, ?_, ?_, ?_⟩, ?_, ?_, ?_⟩
    · rw [hendings]
      intro e he error hfailed hnumber
      rcases List.mem_cons.mp he with rfl | hold
      · exact hback error true hfailed (h.retryable x attempt hattempt error hfailed hnumber) hnumber
      · exact h.retried.putBack e hold error hfailed hnumber
    · rw [hendings, hlog]
      intro e he hsucceeded
      rcases List.mem_cons.mp he with rfl | hold
      · exact h.landed x attempt hattempt (hsuccess hsucceeded)
      · exact h.retried.committed e hold hsucceeded
    · rw [hjobs, hendings]
      intro j job hjob hsucceeded
      rw [lookup_setStatus] at hjob
      obtain ⟨before, hbefore, rfl⟩ := Option.map_eq_some_iff.mp hjob
      split at hsucceeded
      next hj => exact ⟨_, List.mem_cons_self, hj.symm, hsucceeded⟩
      next hj =>
        obtain ⟨e, he, hej, hes⟩ := h.retried.recorded j before hbefore hsucceeded
        exact ⟨e, List.mem_cons_of_mem _ he, hej, hes⟩
    · rw [hjobs]
      intro j job hjob
      rw [lookup_setStatus] at hjob
      obtain ⟨before, hbefore, rfl⟩ := Option.map_eq_some_iff.mp hjob
      have hbounded := h.retried.bounded j before hbefore
      split
      · exact hbounded
      · exact hbounded
    · rw [hjobs]
      intro j job hjob hpending
      rw [lookup_setStatus] at hjob
      obtain ⟨before, hbefore, rfl⟩ := Option.map_eq_some_iff.mp hjob
      by_cases hj : j = attempt.job
      · rw [if_pos hj] at hpending ⊢
        rw [hj] at hbefore
        exact hroom hpending before hbefore
      · rw [if_neg hj] at hpending ⊢
        exact h.room j before hbefore hpending
    · intro y found hfound
      exact h.retryable y found (hkept y found hfound)
    · rw [hlog]
      intro y found hfound
      exact h.landed y found (hkept y found hfound)
  | recovered stale hjobs hroom hattempts hendings hlog =>
    have hlookup : ∀ j job, s'.jobs.lookup j = some job → ∃ before, s.jobs.lookup j = some before
        ∧ job = if before.status = .running ∧ stale j then { before with status := .pending } else before := by
      rw [hjobs]
      intro j job hjob
      rw [Table.lookup_modifyRows] at hjob
      obtain ⟨before, hbefore, rfl⟩ := Option.map_eq_some_iff.mp hjob
      exact ⟨before, hbefore, rfl⟩
    refine ⟨⟨?_, ?_, ?_, ?_⟩, ?_, ?_, ?_⟩
    · rw [hendings]
      exact h.retried.putBack
    · rw [hendings, hlog]
      exact h.retried.committed
    · rw [hendings]
      intro j job hjob hsucceeded
      obtain ⟨before, hbefore, rfl⟩ := hlookup j job hjob
      split at hsucceeded
      · cases hsucceeded
      · exact h.retried.recorded j before hbefore hsucceeded
    · intro j job hjob
      obtain ⟨before, hbefore, rfl⟩ := hlookup j job hjob
      have hbounded := h.retried.bounded j before hbefore
      split
      · exact hbounded
      · exact hbounded
    · intro j job hjob hpending
      obtain ⟨before, hbefore, rfl⟩ := hlookup j job hjob
      by_cases hstale : before.status = .running ∧ stale j
      · rw [if_pos hstale]
        exact hroom j before hbefore hstale.1 hstale.2
      · rw [if_neg hstale] at hpending ⊢
        exact h.room j before hbefore hpending
    · rw [hattempts]
      exact h.retryable
    · rw [hattempts, hlog]
      exact h.landed

end Invariant

/-! ## §6. Whole runs. -/

/-- **A rebuild that merely lost a race is retried.**  Along every run whose steps
meet the condition: an attempt that failed only because of the transactions beside
it puts its job back while fewer than ten attempts were made; a job is recorded as
successful by an attempt whose rebuild has committed; and ten attempts are the most. -/
theorem lost_races_are_retried {κ ρ : Type} [DecidableEq κ] (env : Platform) (sites : Table Uuid (Held String))
    (actions : List (Action κ ρ))
    (h : Along (State.step env) Unhindered (State.initial sites) actions) (n : Nat) :
    Retried ((actions.take n).foldl (State.step env) (State.initial sites)) := by
  have hstep : ∀ (s : State κ ρ) (a : Action κ ρ), Sound s → Unhindered s a → Sound (s.step env a) :=
    fun s a hs ha => hs.effect (effect_step ha)
  exact (along_induction hstep (actions.take n) (sound_initial sites) (along_take n h)).retried

namespace RetrySample

def event : RawEvent := ZoneSample.event 1 0

def day : DayKey := ⟨Sample.siteId, 0, "prd"⟩

def lateEvent : AggregateJob :=
  ⟨Sample.siteId, "prd", "late_event", some 0, some 0, .pending, "late event", 0⟩

/-- A worker's batch of that one event. -/
def batch (x : Nat) : List (Action Nat Nat) :=
  [.statement (.beginWorker x), .statement (.readZone x Sample.siteId), .statement (.insertRaw x event),
    .statement (.countEvent x zeroFloat), .statement (.release x), .statement (.commit x)]

/-- An attempt up to the end of its `DELETE FROM daily_site_metrics`, which has `n`
rows to delete. -/
def upToDelete (x n : Nat) : List (Action Nat Nat) :=
  [.claim 0 x, .statement (.nextStatement x), .statement (.nextStatement x), .statement (.nextStatement x)]
    ++ List.replicate n (.statement (.deleteRow x 0)) ++ [.statement (.statementDone x)]

/-- The batch commits after the `DELETE` and before the `INSERT`. -/
def overtaken : List (Action Nat Nat) :=
  [.enqueue 0 lateEvent] ++ upToDelete 1 0 ++ batch 2
    ++ [.statement (.nextStatement 1), .statement (.insertRow 1 day), .record 1]

/-- The batch commits first; the first attempt loses a deadlock, the second gets through. -/
def deadlocked : List (Action Nat Nat) :=
  [.enqueue 0 lateEvent] ++ batch 1 ++ upToDelete 2 1 ++ [.raise 2 .deadlockDetected, .record 2]
    ++ upToDelete 3 1
    ++ [.statement (.nextStatement 3), .statement (.insertRow 3 day), .statement (.statementDone 3),
      .statement (.nextStatement 3), .statement (.nextStatement 3), .statement (.commit 3), .record 3]

/-- A loop is killed in each of its attempts, and every new loop takes the job up again. -/
def interrupted : List (Action Nat Nat) :=
  .enqueue 0 lateEvent :: (List.replicate 11 [.claim 0 1, .interrupt 1, .recover fun _ => true]).flatten

end RetrySample

open RetrySample in
theorem lost_races_are_retried_deadlock :
    Along (State.step Sample.platform) Unhindered (State.initial ZoneSample.sites : State Nat Nat) deadlocked
      ∧ Retried (deadlocked.foldl (State.step Sample.platform) (State.initial ZoneSample.sites))
      ∧ ((deadlocked.foldl (State.step Sample.platform)
          (State.initial ZoneSample.sites : State Nat Nat)).endings.map Ending.status) = [.success, .pending] := by
  have halong : Along (State.step Sample.platform) Unhindered
      (State.initial ZoneSample.sites : State Nat Nat) deadlocked := by
    decide +kernel
  refine ⟨halong, ?_, by decide +kernel⟩
  have hretried := lost_races_are_retried Sample.platform ZoneSample.sites deadlocked halong deadlocked.length
  rwa [List.take_length] at hretried

/-- **A lost race that is not retried.**  The worker inserted the day's row first: the
rebuild's `INSERT` raises `unique_violation`, and its first attempt is its last. -/
theorem lost_race_fails_the_job :
    ¬Retried (RetrySample.overtaken.foldl (State.step Sample.platform)
      (State.initial ZoneSample.sites : State Nat Nat)) := by
  intro h
  have hending : (RetrySample.overtaken.foldl (State.step Sample.platform)
      (State.initial ZoneSample.sites : State Nat Nat)).endings
      = [⟨1, ⟨0, 1, 0, .failed (.uniqueViolation "daily_site_metrics_pkey") true⟩, .failed⟩] := by
    decide +kernel
  have hput := h.putBack
  rw [hending] at hput
  have hpending := hput _ List.mem_cons_self _ rfl (by decide)
  cases hpending

/-- The recovery does not look at the attempts: an eleventh is made. -/
theorem recovery_passes_ten :
    ¬Retried (RetrySample.interrupted.foldl (State.step Sample.platform)
      (State.initial ZoneSample.sites : State Nat Nat)) := by
  intro h
  have hjob : (RetrySample.interrupted.foldl (State.step Sample.platform)
      (State.initial ZoneSample.sites : State Nat Nat)).jobs.lookup 0 = some { RetrySample.lateEvent with attempts := 11 } := by
    decide +kernel
  have hbounded := h.bounded 0 _ hjob
  exact absurd hbounded (by decide)

end Momento.RebuildRetries
