/-
  Momento.Service.Batch

  **ONE PASS OF `processBatch`.**  The jobs it claimed run one after the other in
  one transaction, each inside a savepoint:

      processOne fails   — back to the savepoint; then the attempt is booked, or
                           after the tenth the job is copied to the dead letters
      processOne passes  — the savepoint is released and the row is finished

  There is a third ending the source does not name: `processOne` drops some
  statements' errors, so it can return without error from a transaction that is
  aborted (`Job.ending = .ok none`).  Releasing the savepoint then fails, and the
  whole pass is rolled back.
-/
import Momento.Service.Runs

namespace Momento

open Foundation

/-! ## §1. How a job ends. -/

/-- The end of `processOne` inside its savepoint: an error, or no error and the
store of the transaction; `none` when the transaction is aborted. -/
def Job.ending (env : Platform) (j : Job) (s : Store) : Except DbError (Option Store) :=
  match (j.body env).run ⟨some s, j.faults⟩ with
  | (.error e, _) => .error e
  | (.ok _, t) => .ok t.db

theorem Job.succeeds_iff {env : Platform} {j : Job} {s : Store} :
    j.Succeeds env s ↔ ∃ s', j.ending env s = .ok (some s') := by
  unfold Job.Succeeds Job.ending
  rcases (j.body env).run ⟨some s, j.faults⟩ with ⟨e | u, ⟨db, fs⟩⟩
  · simp
  · simp

theorem afterJob_of_ending {env : Platform} {j : Job} {s s' : Store}
    (h : j.ending env s = .ok (some s')) : afterJob env s j = s' := by
  unfold Job.ending at h
  unfold afterJob
  rcases hrun : (j.body env).run ⟨some s, j.faults⟩ with ⟨e | u, ⟨db, fs⟩⟩
  · rw [hrun] at h
    cases h
  · rw [hrun] at h
    have hdb : db = some s' := Except.ok.inj h
    rw [hdb]

/-! ## §2. Claims. -/

/-- A row of the inbox as the claim read it. -/
structure ClaimedJob where
  id : Nat
  siteId : Uuid
  payload : Except String InboxPayload
  attempts : Nat

/-- What the environment decides while one job is processed: clock and random
source, and what happens to the statements — those of `processOne` (`bodyFaults`)
and those of the pass around it (`faults`). -/
structure Round where
  readings : Nat → EventReadings
  bodyFaults : List (Option DbError) := []
  faults : List (Option DbError) := []

/-- The job `processOne` is called for. -/
def ClaimedJob.toJob (job : ClaimedJob) (policy : Policy) (round : Round) : Job where
  siteId := job.siteId
  payload := job.payload
  policy := policy
  readings := round.readings
  faults := round.bodyFaults

/-- `SELECT … WHERE processed_at IS NULL AND available_at <= now() ORDER BY id
LIMIT 100 FOR UPDATE SKIP LOCKED`. -/
def Database.claimable (locked : List Nat) (now : Instant) (db : Database) : List ClaimedJob :=
  (((db.inbox.entries.filter fun e =>
      e.2.processedAt.isNone && e.2.availableAt ≤ now && e.1 ∉ locked).map fun e =>
        (⟨e.1, e.2.siteId, e.2.payload, e.2.attempts⟩ : ClaimedJob)).insertionSort
      fun a b => a.id ≤ b.id).take 100

/-! ## §3. The bookkeeping of a job. -/

namespace Database

/-- A row of `event_inbox` is updated. -/
def updateInbox (id : Nat) (f : InboxRow → InboxRow) (db : Database) : Database :=
  { db with inbox := db.inbox.modifyRows fun k row => if k = id then f row else row }

/-- `SET processed_at = now(), last_error = NULL`. -/
def finishJob (id : Nat) (now : Instant) (db : Database) : Database :=
  db.updateInbox id fun row => { row with processedAt := some now, lastError := none }

/-- `least(interval '5 minutes', interval '1 second' * power(2, least(attempts, 8)))`. -/
def retryDelay (attempts : Nat) : Int := min 300000000 (1000000 * 2 ^ min attempts 8)

/-- The job waits for another attempt. -/
def scheduleRetry (id : Nat) (error : String) (now : Instant) (db : Database) : Database :=
  db.updateInbox id fun row =>
    { row with
      attempts := row.attempts + 1
      lastError := some error
      availableAt := now + retryDelay row.attempts }

/-- The job is given up. -/
def deadLetter (job : ClaimedJob) (error : String) (now : Instant) (db : Database) : Database :=
  { db with deadLetters := ⟨job.id, job.siteId, job.payload, error⟩ :: db.deadLetters }.updateInbox
    job.id fun row =>
      { row with attempts := row.attempts + 1, lastError := some error, processedAt := some now }

end Database

/-! ## §4. The pass. -/

/-- What a round came to. -/
inductive Verdict where
  | done
  | failed (error : String)
  deriving DecidableEq

/-- Statements whose error ends the pass. -/
abbrev Pass := StateT (List (Option DbError)) (Except DbError)

/-- The answer to one such statement. -/
def answered : Pass Unit := fun
  | [] => .ok ((), [])
  | none :: faults => .ok ((), faults)
  | some e :: _ => .error e

/-- One round of the loop over the jobs. -/
def processJob (env : Platform) (policy : Policy) (now : Instant) (job : ClaimedJob)
    (round : Round) (db : Database) : Pass (Database × Verdict) := do
  answered -- SAVEPOINT
  match (job.toJob policy round).ending env db.store with
  | .error processErr =>
    answered -- ROLLBACK TO SAVEPOINT
    answered -- the dead letter, or the retry
    if 9 ≤ job.attempts then
      answered -- the inbox row of the dead letter
      answered -- RELEASE SAVEPOINT
      return (db.deadLetter job processErr.message now, .failed processErr.message)
    else
      answered -- RELEASE SAVEPOINT
      return (db.scheduleRetry job.id processErr.message now, .failed processErr.message)
  | .ok none => throw .inFailedTransaction -- RELEASE SAVEPOINT
  | .ok (some store) =>
    answered -- RELEASE SAVEPOINT
    answered -- the inbox row
    return ({ db with store := store }.finishJob job.id now, .done)

/-- The jobs of a batch in turn. -/
def processJobs (env : Platform) (policy : Policy) (now : Instant) :
    List (ClaimedJob × Round) → Database → Except DbError (Database × List (Nat × Verdict))
  | [], db => .ok (db, [])
  | (job, round) :: rest, db => do
    let ((db, verdict), _) ← (processJob env policy now job round db).run round.faults
    let (db, verdicts) ← processJobs env policy now rest db
    return (db, (job.id, verdict) :: verdicts)

/-- **`processBatch`** on the jobs its claim took: the database its transaction
leaves, unless it ends in an error and is rolled back. -/
def processBatch (env : Platform) (now : Instant) (jobs : List (ClaimedJob × Round))
    (db : Database) : Except DbError (Database × List (Nat × Verdict)) := do
  match db.store.config.privacy with
  | .error message => throw (.program message)
  | .ok policy => processJobs env policy now jobs db

/-! ## §5. What a round leaves. -/

/-- **The three ways a round ends** when the pass goes on after it. -/
inductive RoundEnds (env : Platform) (policy : Policy) (now : Instant) (job : ClaimedJob)
    (round : Round) (db : Database) : Database → Verdict → Prop
  | done {store : Store} :
      (job.toJob policy round).ending env db.store = .ok (some store) →
      RoundEnds env policy now job round db ({ db with store := store }.finishJob job.id now) .done
  | retry {e : DbError} :
      (job.toJob policy round).ending env db.store = .error e → job.attempts < 9 →
      RoundEnds env policy now job round db (db.scheduleRetry job.id e.message now)
        (.failed e.message)
  | dead {e : DbError} :
      (job.toJob policy round).ending env db.store = .error e → 9 ≤ job.attempts →
      RoundEnds env policy now job round db (db.deadLetter job e.message now) (.failed e.message)

theorem pass_bind_ok {α β : Type} {x : Pass α} {k : α → Pass β}
    {fs fs' : List (Option DbError)} {b : β} :
    (x >>= k) fs = .ok (b, fs') ↔ ∃ a gs, x fs = .ok (a, gs) ∧ k a gs = .ok (b, fs') := by
  show (x fs >>= fun p => k p.1 p.2) = _ ↔ _
  cases h : x fs with
  | error e => simp [bind, Except.bind]
  | ok p =>
    obtain ⟨a, gs⟩ := p
    simp [bind, Except.bind]

theorem pass_pure_ok {α : Type} {a b : α} {fs fs' : List (Option DbError)} :
    (pure a : Pass α) fs = .ok (b, fs') ↔ b = a ∧ fs' = fs := by
  show Except.ok (a, fs) = _ ↔ _
  rw [Except.ok.injEq, Prod.mk.injEq]
  exact ⟨fun h => ⟨h.1.symm, h.2.symm⟩, fun h => ⟨h.1.symm, h.2.symm⟩⟩

section Round
variable {env : Platform} {policy : Policy} {now : Instant} {job : ClaimedJob} {round : Round}
  {db : Database}

/-- **The rule of a round.** -/
theorem processJob_ends {db' : Database} {verdict : Verdict} {fs fs' : List (Option DbError)}
    (h : (processJob env policy now job round db).run fs = .ok ((db', verdict), fs')) :
    RoundEnds env policy now job round db db' verdict := by
  unfold processJob at h
  simp only [StateT.run] at h
  obtain ⟨-, gs, -, h⟩ := pass_bind_ok.mp h
  cases hend : (job.toJob policy round).ending env db.store with
  | error e =>
    simp only [hend] at h
    obtain ⟨-, gs, -, h⟩ := pass_bind_ok.mp h
    obtain ⟨-, gs, -, h⟩ := pass_bind_ok.mp h
    by_cases hten : 9 ≤ job.attempts
    · rw [if_pos hten] at h
      obtain ⟨-, gs, -, h⟩ := pass_bind_ok.mp h
      obtain ⟨-, gs, -, h⟩ := pass_bind_ok.mp h
      obtain ⟨h, -⟩ := pass_pure_ok.mp h
      obtain ⟨rfl, rfl⟩ := Prod.mk.inj h
      exact .dead hend hten
    · rw [if_neg hten] at h
      obtain ⟨-, gs, -, h⟩ := pass_bind_ok.mp h
      obtain ⟨h, -⟩ := pass_pure_ok.mp h
      obtain ⟨rfl, rfl⟩ := Prod.mk.inj h
      exact .retry hend (Nat.lt_of_not_le hten)
  | ok t =>
    cases t with
    | none =>
      simp only [hend] at h
      cases h
    | some store =>
      simp only [hend] at h
      obtain ⟨-, gs, -, h⟩ := pass_bind_ok.mp h
      obtain ⟨-, gs, -, h⟩ := pass_bind_ok.mp h
      obtain ⟨h, -⟩ := pass_pure_ok.mp h
      obtain ⟨rfl, rfl⟩ := Prod.mk.inj h
      exact .done hend

theorem processJobs_cons_ok {rest : List (ClaimedJob × Round)} {db' : Database}
    {verdicts : List (Nat × Verdict)}
    (h : processJobs env policy now ((job, round) :: rest) db = .ok (db', verdicts)) :
    ∃ db₁ verdict more fs, (processJob env policy now job round db).run round.faults
        = .ok ((db₁, verdict), fs)
      ∧ processJobs env policy now rest db₁ = .ok (db', more)
      ∧ verdicts = (job.id, verdict) :: more := by
  unfold processJobs at h
  cases hone : (processJob env policy now job round db).run round.faults with
  | error e =>
    rw [hone] at h
    cases h
  | ok r =>
    obtain ⟨⟨db₁, verdict⟩, fs⟩ := r
    rw [hone] at h
    cases hrest : processJobs env policy now rest db₁ with
    | error e => simp [bind, Except.bind, hrest] at h
    | ok r =>
      obtain ⟨db₂, more⟩ := r
      simp only [bind, Except.bind, hrest, pure, Except.pure, Except.ok.injEq,
        Prod.mk.injEq] at h
      obtain ⟨rfl, rfl⟩ := h
      exact ⟨db₁, verdict, more, fs, rfl, hrest, rfl⟩

/-- **A failed attempt leaves nothing in the store.** -/
theorem RoundEnds.store_of_failed {db' : Database} {error : String}
    (h : RoundEnds env policy now job round db db' (.failed error)) : db'.store = db.store := by
  cases h with
  | retry => rfl
  | dead => rfl

/-- A round leaves the store its job leaves when it runs alone. -/
theorem RoundEnds.store_eq {db' : Database} {verdict : Verdict}
    (h : RoundEnds env policy now job round db db' verdict) :
    db'.store = afterJob env db.store (job.toJob policy round) := by
  have hfail : ∀ e, (job.toJob policy round).ending env db.store = .error e →
      afterJob env db.store (job.toJob policy round) = db.store := by
    intro e hend
    refine afterJob_of_not_succeeds fun hok => ?_
    obtain ⟨s', hs'⟩ := Job.succeeds_iff.mp hok
    rw [hs'] at hend
    cases hend
  cases h with
  | done hend => exact (afterJob_of_ending hend).symm
  | retry hend => exact (hfail _ hend).symm
  | dead hend => exact (hfail _ hend).symm

/-- The rows of the other jobs are left alone. -/
theorem RoundEnds.lookup_of_ne {db' : Database} {verdict : Verdict}
    (h : RoundEnds env policy now job round db db' verdict) {id : Nat} (hne : id ≠ job.id) :
    db'.inbox.lookup id = db.inbox.lookup id := by
  have hupdate : ∀ (d : Database) f, (d.updateInbox job.id f).inbox.lookup id = d.inbox.lookup id := by
    intro d f
    unfold Database.updateInbox
    rw [Table.lookup_modifyRows]
    simp [hne]
  cases h with
  | done => exact hupdate _ _
  | retry => exact hupdate _ _
  | dead => exact hupdate _ _

/-- Nothing changes the configuration. -/
theorem afterJob_config (env : Platform) (s : Store) (j : Job) :
    (afterJob env s j).config = s.config :=
  afterJob_induction (I := fun t => t.config = s.config)
    (fun a _ _ (_ : Arrives env _ _) hinv (_ : True) => (a.derive_config _).trans hinv) (fun _ _ hinv => hinv)
    (fun _ _ _ _ _ _ => eventsMeet_of_forall _ fun _ _ => trivial) rfl

end Round

/-! ## §6. Jobs that meet no fault. -/

theorem honest_recordAcceptedQuality (c : JobContext) (event : IncomingEvent) (eventTime : Instant)
    (unreported : Bool) : (recordAcceptedQuality c event eventTime unreported).Honest := by
  unfold recordAcceptedQuality
  refine Tx.honest_bind (.inl (Tx.honest_exec _)) fun _ => ?_
  split
  · exact Tx.honest_exec _
  · exact Tx.honest_pure _

theorem honest_updateVisitorIdentity (key : VisitorKey) (userId : String) (eventTime : Instant) :
    (updateVisitorIdentity key userId eventTime).Honest := by
  unfold updateVisitorIdentity
  iterate 5 refine Tx.honest_bind (.inl (Tx.honest_exec _)) fun _ => ?_
  exact Tx.honest_exec _

theorem honest_updateDailyAggregates (c : JobContext) (event : IncomingEvent) (eventTime : Instant)
    (canonical : String) (conversion : Bool) :
    (updateDailyAggregates c event eventTime canonical conversion).Honest := by
  unfold updateDailyAggregates
  iterate 2 refine Tx.honest_bind (.inl (Tx.honest_exec _)) fun _ => ?_
  exact Tx.honest_exec _

/-- Everything after `recordCardinality`: the first statements report what it may
have dropped. -/
theorem honest_updateDerived (c : JobContext) (event : IncomingEvent) (eventTime : Instant)
    (conversion unreported : Bool) :
    (updateDerived c event eventTime conversion unreported).Honest := by
  have htail : ∀ canonical : String, (do
      updateSession (sessionKeyOf c) (sessionTouch c event eventTime canonical conversion)
      updateVisitorSession ⟨c.siteId, c.request.visitorId, c.request.sessionId⟩ canonical eventTime
      updateDailyAggregates c event eventTime canonical conversion : Body Unit).Honest := by
    intro canonical
    iterate 2 refine Tx.honest_bind (.inl (Tx.honest_exec _)) fun _ => ?_
    exact honest_updateDailyAggregates _ _ _ _ _
  unfold updateDerived
  refine Tx.honest_bind (.inl (honest_recordAcceptedQuality _ _ _ _)) fun _ => ?_
  refine Tx.honest_bind (.inr fun _ => ?_) fun _ => ?_
  · dsimp only
    split
    · exact Tx.strict_bind_right _ fun _ => Tx.strict_bind_left _ (Tx.strict_exec _)
    · exact Tx.strict_bind_left _ (Tx.strict_exec _)
  · have hvisitor : ∀ k : String → Body Unit, (∀ canonical, (k canonical).Honest) →
        (updateVisitor (visitorKeyOf c) c.userId c.userProperties eventTime conversion
          >>= k).Honest := fun k hk => Tx.honest_bind (.inl (Tx.honest_exec _)) hk
    have hlinked : ∀ canonical : String, (do
        if canonical ≠ "" then
          Tx.update (Store.touchIdentity (visitorKeyOf c) eventTime)
          updateIdentifiedUser (visitorKeyOf c) canonical c.userProperties eventTime
        updateSession (sessionKeyOf c) (sessionTouch c event eventTime canonical conversion)
        updateVisitorSession ⟨c.siteId, c.request.visitorId, c.request.sessionId⟩ canonical
          eventTime
        updateDailyAggregates c event eventTime canonical conversion : Body Unit).Honest := by
      intro canonical
      dsimp only
      split
      · iterate 2 refine Tx.honest_bind (.inl (Tx.honest_exec _)) fun _ => ?_
        exact htail canonical
      · exact htail canonical
    dsimp only
    split
    · exact Tx.honest_bind (.inl (honest_updateVisitorIdentity _ _ _)) fun _ => hvisitor _ hlinked
    · exact hvisitor _ hlinked

theorem honest_processEvent (c : JobContext) (unreported : Bool) (event : IncomingEvent)
    (readings : EventReadings) : (processEvent c unreported event readings).Honest := by
  unfold processEvent
  split
  · exact Tx.honest_fail _
  have hinsert : ∀ row eventTime conversion, (do
      let inserted ← insertRawEvent c.env row
      if inserted then
        updateDerived c event eventTime conversion unreported
        return false
      else
        let _ ← recordDuplicate c event eventTime
        return unreported : Body Bool).Honest := by
    intro row eventTime conversion
    refine Tx.honest_bind (.inl (Tx.honest_exec _)) fun inserted => ?_
    split
    · exact Tx.honest_bind (.inl (honest_updateDerived _ _ _ _ _)) fun _ => Tx.honest_pure _
    · exact Tx.honest_bind (.inl (Tx.honest_attempt _)) fun _ => Tx.honest_pure _
  dsimp only
  split
  · exact Tx.honest_bind (.inl (Tx.honest_pure _)) fun _ => hinsert _ _ _
  refine Tx.honest_bind (.inl ?_) fun _ =>
    Tx.honest_bind (.inl (Tx.honest_pure _)) fun _ => hinsert _ _ _
  exact Tx.honest_attempt _

theorem honest_processEvents (c : JobContext) (unreported : Bool)
    (events : List (IncomingEvent × EventReadings)) :
    (processEvents c unreported events).Honest := by
  induction events generalizing unreported with
  | nil => exact Tx.honest_pure _
  | cons e rest ih => exact Tx.honest_bind (.inl (honest_processEvent _ _ _ _)) ih

theorem honest_processOne (env : Platform) (policy : Policy) (siteId : Uuid)
    (payload : Except String InboxPayload) (readings : Nat → EventReadings) :
    (processOne env policy siteId payload readings).Honest := by
  unfold processOne
  split
  · exact Tx.honest_fail _
  unfold processPayload
  refine Tx.honest_bind (.inl (Tx.honest_exec _)) fun settings => ?_
  dsimp only
  split
  · exact Tx.honest_fail _
  split
  · exact Tx.honest_bind (.inl (Tx.honest_pure _)) fun _ => honest_processEvents _ _ _
  refine Tx.honest_bind (.inl ?_) fun _ =>
    Tx.honest_bind (.inl (Tx.honest_pure _)) fun _ => honest_processEvents _ _ _
  exact Tx.honest_attempt _

/-- **A job that meets no fault does not end unnoticed in an aborted transaction.** -/
theorem Job.ending_ne_none {env : Platform} {j : Job} {s : Store} (h : j.faults = []) :
    j.ending env s ≠ .ok none := by
  unfold Job.ending
  rw [h]
  rcases hrun : (j.body env).run ⟨some s, []⟩ with ⟨e | u, t⟩
  · simp
  · intro hnone
    exact honest_processOne env j.policy j.siteId j.payload j.readings s u t hrun
      (Except.ok.inj hnone)

end Momento
