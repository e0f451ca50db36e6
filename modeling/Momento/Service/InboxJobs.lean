/-
  Momento.Service.InboxJobs

  **THE STATE MACHINE OF AN INBOX ROW.**  A row is pending with at most nine
  failed attempts, or processed, or dead-lettered after exactly ten; each row has
  one way out, taken once.  A failed attempt leaves nothing in the store.

  A failing job also leaves the other jobs of its pass alone, except in one case:
  `processOne` drops the error of the statement that counts a duplicate.  When
  that statement fails as the last one of its job, `processOne` returns no error,
  the savepoint cannot be released, and the pass is rolled back with everything
  the other jobs did.
-/
import Momento.Service.Inbox

namespace Momento

open Foundation

/-! ## §1. The phases of a row. -/

/-- The failed attempts at a row. -/
def failedAttempts (log : List (Nat × Verdict)) (id : Nat) : Nat :=
  log.countP fun a => a.1 = id && a.2 ≠ .done

/-- The successful attempts at a row. -/
def doneAttempts (log : List (Nat × Verdict)) (id : Nat) : Nat :=
  log.countP fun a => a.1 = id && a.2 = .done

/-- The dead letters of a row. -/
def Database.deadLettersOf (db : Database) (id : Nat) : Nat :=
  db.deadLetters.countP fun d => d.inboxId = id

/-- **Where a row stands**, by its columns, its attempts and its dead letters. -/
inductive Phase (row : InboxRow) (failed done dead : Nat) : Prop where
  | pending : row.processedAt = none → failed ≤ 9 → done = 0 → dead = 0 → Phase row failed done dead
  | processed : row.processedAt ≠ none → row.lastError = none → failed ≤ 9 → done = 1 → dead = 0 →
      Phase row failed done dead
  | deadLettered : row.processedAt ≠ none → row.lastError ≠ none → failed = 10 → done = 0 →
      dead = 1 → Phase row failed done dead

/-- Every row stands where its history says. -/
structure JobsSound (db : Database) (log : List (Nat × Verdict)) : Prop where
  row : ∀ id row, db.inbox.lookup id = some row →
    row.attempts = failedAttempts log id
      ∧ Phase row (failedAttempts log id) (doneAttempts log id) (db.deadLettersOf id)
  absent : ∀ id, db.inbox.lookup id = none →
    failedAttempts log id = 0 ∧ doneAttempts log id = 0 ∧ db.deadLettersOf id = 0

section Counts
variable (log : List (Nat × Verdict)) (id k : Nat)

theorem failedAttempts_cons (verdict : Verdict) :
    failedAttempts ((k, verdict) :: log) id
      = failedAttempts log id + if k = id ∧ verdict ≠ .done then 1 else 0 := by
  simp [failedAttempts, List.countP_cons]

theorem doneAttempts_cons (verdict : Verdict) :
    doneAttempts ((k, verdict) :: log) id
      = doneAttempts log id + if k = id ∧ verdict = .done then 1 else 0 := by
  simp [doneAttempts, List.countP_cons]

end Counts

/-- No job. -/
theorem JobsSound.initial (config : Config) : JobsSound (Database.initial config) [] where
  row _ _ h := by cases h
  absent _ _ := ⟨rfl, rfl, rfl⟩

/-- A transaction of `Accept` keeps every row where it stands. -/
theorem JobsSound.write {env : Platform} {db : Database} {log : List (Nat × Verdict)}
    (h : JobsSound db log) (write : AcceptWrite) : JobsSound (write.run env db) log := by
  cases write with
  | rejection => exact ⟨h.row, h.absent⟩
  | issue => exact ⟨h.row, h.absent⟩
  | admission a readings =>
    show JobsSound (a.queue env readings db) log
    unfold Admission.queue
    by_cases hused : readings.inboxId ∈ db.inbox
    · rw [if_pos hused]
      exact h
    rw [if_neg hused]
    constructor
    · intro id row hrow
      by_cases hid : id = readings.inboxId
      · subst hid
        obtain ⟨hfailed, hdone, hdead⟩ := h.absent _ (AList.lookup_eq_none.mpr hused)
        have hnew := (AList.lookup_insert db.inbox).symm.trans hrow
        obtain rfl := Option.some.inj hnew
        exact ⟨hfailed.symm, .pending rfl (hfailed ▸ Nat.zero_le 9) hdone hdead⟩
      · exact h.row id row ((AList.lookup_insert_ne hid).symm.trans hrow)
    · intro id hnone
      have hid : id ≠ readings.inboxId := by
        rintro rfl
        exact absurd ((AList.lookup_insert db.inbox).symm.trans hnone) (by simp)
      exact h.absent id ((AList.lookup_insert_ne hid).symm.trans hnone)

/-- **A round moves its own row one step and no other.** -/
theorem JobsSound.round {env : Platform} {policy : Policy} {now : Instant} {job : ClaimedJob}
    {round : Round} {db db' : Database} {log : List (Nat × Verdict)} {verdict : Verdict}
    {row : InboxRow} (h : JobsSound db log) (hclaimed : job.Claimed db row)
    (hends : RoundEnds env policy now job round db db' verdict) :
    JobsSound db' ((job.id, verdict) :: log) := by
  obtain ⟨hattempts, hphase⟩ := h.row job.id row hclaimed.lookup
  -- an unprocessed row can only be pending
  obtain ⟨hnine, hdone, hdead⟩ : failedAttempts log job.id ≤ 9 ∧ doneAttempts log job.id = 0
      ∧ db.deadLettersOf job.id = 0 := by
    cases hphase with
    | pending _ hnine hdone hdead => exact ⟨hnine, hdone, hdead⟩
    | processed hprocessed => exact absurd hclaimed.pending hprocessed
    | deadLettered hprocessed => exact absurd hclaimed.pending hprocessed
  have hcount : row.attempts = job.attempts := hclaimed.attempts
  have hlookup : ∀ f : InboxRow → InboxRow,
      (db.inbox.modifyRows fun k row => if k = job.id then f row else row).lookup job.id
        = some (f row) := by
    intro f
    rw [Table.lookup_modifyRows, hclaimed.lookup]
    simp
  have hother : ∀ id, id ≠ job.id → ∀ v, failedAttempts ((job.id, v) :: log) id
      = failedAttempts log id ∧ doneAttempts ((job.id, v) :: log) id = doneAttempts log id := by
    intro id hne v
    rw [failedAttempts_cons, doneAttempts_cons]
    simp [Ne.symm hne]
  have hletters : ∀ id, id ≠ job.id → db'.deadLettersOf id = db.deadLettersOf id := by
    intro id hne
    cases hends with
    | done => rfl
    | retry => rfl
    | dead =>
      show List.countP _ (_ :: db.deadLetters) = _
      rw [List.countP_cons]
      simp [Ne.symm hne, Database.deadLettersOf]
  constructor
  · intro id row' hrow'
    by_cases hid : id = job.id
    · subst hid
      rw [failedAttempts_cons, doneAttempts_cons]
      cases hends with
      | done _ =>
        obtain rfl := Option.some.inj ((hlookup _).symm.trans hrow')
        simp only [ne_eq, not_true_eq_false, and_false, if_false, add_zero, and_self, if_true]
        refine ⟨hattempts, .processed (by simp) rfl hnine ?_ hdead⟩
        rw [hdone]
      | retry _ hlt =>
        obtain rfl := Option.some.inj ((hlookup _).symm.trans hrow')
        simp only [ne_eq, reduceCtorEq, not_false_eq_true, and_self, if_true, and_false, if_false,
          add_zero]
        refine ⟨by rw [hattempts], .pending hclaimed.pending ?_ hdone hdead⟩
        omega
      | dead _ hge =>
        obtain rfl := Option.some.inj ((hlookup _).symm.trans hrow')
        simp only [ne_eq, reduceCtorEq, not_false_eq_true, and_self, if_true, and_false, if_false,
          add_zero]
        refine ⟨by rw [hattempts], .deadLettered (by simp) (by simp) ?_ hdone ?_⟩
        · omega
        · show List.countP _ (_ :: db.deadLetters) = 1
          rw [List.countP_cons]
          have hnone : List.countP (fun d => decide (d.inboxId = job.id)) db.deadLetters = 0 :=
            hdead
          rw [hnone]
          simp
    · rw [(hother id hid _).1, (hother id hid _).2, hletters id hid]
      exact h.row id row' ((hends.lookup_of_ne hid).symm.trans hrow')
  · intro id hnone
    have hid : id ≠ job.id := by
      rintro rfl
      have hsome : db'.inbox.lookup job.id ≠ none := by
        cases hends with
        | done => exact fun hn => by cases (hlookup _).symm.trans hn
        | retry => exact fun hn => by cases (hlookup _).symm.trans hn
        | dead => exact fun hn => by cases (hlookup _).symm.trans hn
      exact hsome hnone
    rw [(hother id hid _).1, (hother id hid _).2, hletters id hid]
    exact h.absent id ((hends.lookup_of_ne hid).symm.trans hnone)

/-! ## §2. Outcomes. -/

/-- The row was processed without error. -/
def Database.Processed (db : Database) (id : Nat) : Prop :=
  ∃ row, db.inbox.lookup id = some row ∧ row.processedAt ≠ none ∧ row.lastError = none

/-- The row is among the dead letters. -/
def Database.DeadLettered (db : Database) (id : Nat) : Prop :=
  ∃ letter ∈ db.deadLetters, letter.inboxId = id

/-- **One outcome at most**, and dead letters only after ten failures. -/
structure OneOutcome (w : World) (id : Nat) : Prop where
  exclusive : ¬(w.db.Processed id ∧ w.db.DeadLettered id)
  once : w.db.deadLettersOf id ≤ 1
  afterTen : w.db.DeadLettered id → failedAttempts w.attempts id = 10

theorem deadLettered_iff (db : Database) (id : Nat) : db.DeadLettered id ↔ 0 < db.deadLettersOf id := by
  unfold Database.DeadLettered Database.deadLettersOf
  rw [List.countP_pos_iff]
  simp

section Outcome
variable {db : Database} {log : List (Nat × Verdict)} (h : JobsSound db log) (id : Nat)

include h

/-- Processed once, or not at all. -/
theorem JobsSound.processed_iff : db.Processed id ↔ doneAttempts log id = 1 := by
  constructor
  · rintro ⟨row, hrow, hprocessed, herror⟩
    obtain ⟨-, hphase⟩ := h.row id row hrow
    cases hphase with
    | pending hpending => exact absurd hpending hprocessed
    | processed _ _ _ hdone => exact hdone
    | deadLettered _ hlast => exact absurd herror hlast
  · intro hdone
    cases hrow : db.inbox.lookup id with
    | none =>
      obtain ⟨-, hzero, -⟩ := h.absent id hrow
      omega
    | some row =>
      obtain ⟨-, hphase⟩ := h.row id row hrow
      cases hphase with
      | pending _ _ hzero => omega
      | processed hprocessed herror => exact ⟨row, hrow, hprocessed, herror⟩
      | deadLettered _ _ _ hzero => omega

/-- One outcome at most. -/
theorem JobsSound.counts : db.deadLettersOf id ≤ 1 ∧ doneAttempts log id + db.deadLettersOf id ≤ 1
    ∧ (0 < db.deadLettersOf id → failedAttempts log id = 10) := by
  cases hrow : db.inbox.lookup id with
  | none =>
    obtain ⟨-, hdone, hdead⟩ := h.absent id hrow
    omega
  | some row =>
    obtain ⟨-, hphase⟩ := h.row id row hrow
    cases hphase with
    | pending => omega
    | processed => omega
    | deadLettered => omega

end Outcome

theorem JobsSound.oneOutcome {w : World} (h : JobsSound w.db w.attempts) (id : Nat) :
    OneOutcome w id := by
  obtain ⟨honce, hsum, hten⟩ := h.counts id
  constructor
  · rintro ⟨hprocessed, hdead⟩
    rw [h.processed_iff] at hprocessed
    rw [deadLettered_iff] at hdead
    omega
  · exact honce
  · intro hdead
    exact hten ((deadLettered_iff _ _).mp hdead)

/-! ## §3. A pass as a whole. -/

/-- The database once the pass is over, whatever it came to. -/
def passed (env : Platform) (now : Instant) (jobs : List (ClaimedJob × Round)) (db : Database) :
    Database :=
  match processBatch env now jobs db with
  | .ok (db', _) => db'
  | .error _ => db

section Pass
variable (env : Platform) (policy : Policy)

/-- The jobs that succeed, each in the store the ones before it leave. -/
def succeeding : List (ClaimedJob × Round) → Store → List Job
  | [], _ => []
  | (job, round) :: rest, s =>
    match (job.toJob policy round).ending env s with
    | .ok (some s') => job.toJob policy round :: succeeding rest s'
    | _ => succeeding rest s

/-- **What is left is what the succeeding jobs leave**, were they alone. -/
theorem processJobs_store (now : Instant) (jobs : List (ClaimedJob × Round)) {db db' : Database}
    {verdicts : List (Nat × Verdict)}
    (h : processJobs env policy now jobs db = .ok (db', verdicts)) :
    db'.store = afterJobs env db.store (succeeding env policy jobs db.store) := by
  induction jobs generalizing db verdicts with
  | nil =>
    obtain ⟨rfl, -⟩ := Prod.mk.inj (Except.ok.inj h)
    rfl
  | cons p rest ih =>
    obtain ⟨job, round⟩ := p
    obtain ⟨db₁, verdict, more, fs, hone, hrest, -⟩ := processJobs_cons_ok h
    have hends := processJob_ends hone
    have hstore := ih hrest
    unfold succeeding
    cases hends with
    | done hend =>
      rw [hend]
      show _ = afterJobs env (afterJob env db.store (job.toJob policy round)) _
      rw [afterJob_of_ending hend]
      exact hstore
    | retry hend =>
      rw [hend]
      exact hstore
    | dead hend =>
      rw [hend]
      exact hstore

/-- **A failed attempt leaves nothing**: after a pass the store is as before, or
as the succeeding jobs alone leave it. -/
def FailuresLeaveNothing (now : Instant) (jobs : List (ClaimedJob × Round)) (db : Database) : Prop :=
  (passed env now jobs db).store = db.store
    ∨ ∃ policy, db.store.config.privacy = .ok policy
      ∧ (passed env now jobs db).store = afterJobs env db.store (succeeding env policy jobs db.store)

theorem failuresLeaveNothing (now : Instant) (jobs : List (ClaimedJob × Round)) (db : Database) :
    FailuresLeaveNothing env now jobs db := by
  unfold FailuresLeaveNothing passed processBatch
  cases hpolicy : db.store.config.privacy with
  | error message => exact .inl rfl
  | ok policy =>
    simp only
    cases hjobs : processJobs env policy now jobs db with
    | error e => exact .inl rfl
    | ok r => exact .inr ⟨policy, rfl, processJobs_store env policy now jobs hjobs⟩

/-! ## §4. Isolation. -/

/-- The two databases differ at most in what is booked for one inbox row. -/
structure SameBut (id : Nat) (d d' : Database) : Prop where
  store : d.store = d'.store
  inbox : ∀ k, k ≠ id → d.inbox.lookup k = d'.inbox.lookup k
  deadLetters : d.deadLetters.filter (·.inboxId ≠ id) = d'.deadLetters.filter (·.inboxId ≠ id)

/-- **A failing job leaves the others alone**: without it the pass would leave the
same store, the same rows and the same dead letters, its own apart. -/
def Isolates (now : Instant) (jobs : List (ClaimedJob × Round)) (db : Database) : Prop :=
  ∀ policy before job round after, jobs = before ++ (job, round) :: after →
    db.store.config.privacy = .ok policy →
    ¬(job.toJob policy round).Succeeds env
        (afterJobs env db.store (before.map fun p => p.1.toJob policy p.2)) →
    SameBut job.id (passed env now jobs db) (passed env now (before ++ after) db)

/-- **What isolation needs of a pass**: the savepoint and bookkeeping statements
are answered, and no job returns without error from an aborted transaction. -/
def PassSound : List (ClaimedJob × Round) → Store → Prop
  | [], _ => True
  | (job, round) :: rest, s =>
    (∀ fault ∈ round.faults, fault = none)
      ∧ (job.toJob policy round).ending env s ≠ .ok none
      ∧ PassSound rest (afterJob env s (job.toJob policy round))

/-- Where a round goes in a sound pass. -/
def endRound (now : Instant) (job : ClaimedJob) (round : Round) (db : Database) : Database :=
  match (job.toJob policy round).ending env db.store with
  | .error e =>
    if 9 ≤ job.attempts then db.deadLetter job e.message now
    else db.scheduleRetry job.id e.message now
  | .ok none => db
  | .ok (some store) => { db with store := store }.finishJob job.id now

theorem RoundEnds.eq_endRound {now : Instant} {job : ClaimedJob} {round : Round} {db db' : Database}
    {verdict : Verdict} (h : RoundEnds env policy now job round db db' verdict) :
    db' = endRound env policy now job round db := by
  unfold endRound
  cases h with
  | done hend => rw [hend]
  | retry hend hlt => simp only [hend, if_neg (Nat.not_le.mpr hlt)]
  | dead hend hge => simp only [hend, if_pos hge]

variable {env policy}

theorem answered_bind {β : Type} {k : Unit → Pass β} {fs : List (Option DbError)}
    (h : ∀ fault ∈ fs, fault = none) : (answered >>= k) fs = k () fs.tail := by
  cases fs with
  | nil => rfl
  | cons fault fs =>
    obtain rfl := h fault List.mem_cons_self
    rfl

/-- A round whose own statements are answered goes through. -/
theorem processJob_of_answered (now : Instant) {job : ClaimedJob} {round : Round} {db : Database}
    (hfaults : ∀ fault ∈ round.faults, fault = none)
    (hending : (job.toJob policy round).ending env db.store ≠ .ok none) :
    ∃ db' verdict fs,
      (processJob env policy now job round db).run round.faults = .ok ((db', verdict), fs) := by
  have htail : ∀ {fs : List (Option DbError)}, (∀ fault ∈ fs, fault = none) →
      ∀ fault ∈ fs.tail, fault = none := fun h fault hmem => h fault (List.mem_of_mem_tail hmem)
  have h₁ := htail hfaults
  have h₂ := htail h₁
  have h₃ := htail h₂
  have h₄ := htail h₃
  unfold processJob
  simp only [StateT.run]
  rw [answered_bind hfaults]
  cases hend : (job.toJob policy round).ending env db.store with
  | error e =>
    simp only
    rw [answered_bind h₁, answered_bind h₂]
    by_cases hten : 9 ≤ job.attempts
    · rw [if_pos hten, answered_bind h₃, answered_bind h₄]
      exact ⟨_, _, _, rfl⟩
    · rw [if_neg hten, answered_bind h₃]
      exact ⟨_, _, _, rfl⟩
  | ok t =>
    cases t with
    | none => exact absurd hend hending
    | some store =>
      simp only
      rw [answered_bind h₁, answered_bind h₂]
      exact ⟨_, _, _, rfl⟩

theorem endRound_store (now : Instant) {job : ClaimedJob} {round : Round} {db : Database}
    (hfaults : ∀ fault ∈ round.faults, fault = none)
    (hending : (job.toJob policy round).ending env db.store ≠ .ok none) :
    (endRound env policy now job round db).store
      = afterJob env db.store (job.toJob policy round) := by
  obtain ⟨db', verdict, fs, hrun⟩ := processJob_of_answered now hfaults hending
  have hends := processJob_ends hrun
  rw [← hends.eq_endRound]
  exact hends.store_eq

/-- **A sound pass goes through to its end.** -/
theorem processJobs_of_sound (now : Instant) (jobs : List (ClaimedJob × Round)) {db : Database}
    (h : PassSound env policy jobs db.store) :
    ∃ verdicts, processJobs env policy now jobs db
      = .ok (jobs.foldl (fun db p => endRound env policy now p.1 p.2 db) db, verdicts) := by
  induction jobs generalizing db with
  | nil => exact ⟨[], rfl⟩
  | cons p rest ih =>
    obtain ⟨job, round⟩ := p
    obtain ⟨hfaults, hending, hrest⟩ := h
    obtain ⟨db', verdict, fs, hrun⟩ := processJob_of_answered now hfaults hending
    have hdb' := (processJob_ends hrun).eq_endRound
    rw [← endRound_store now hfaults hending, ← hdb'] at hrest
    obtain ⟨more, hmore⟩ := ih hrest
    refine ⟨(job.id, verdict) :: more, ?_⟩
    rw [List.foldl_cons, ← hdb']
    unfold processJobs
    rw [hrun]
    simp only [bind, Except.bind, hmore, pure, Except.pure]

/-- A round keeps two databases alike. -/
theorem sameBut_endRound {id : Nat} {d d' : Database} (h : SameBut id d d') (now : Instant)
    (job : ClaimedJob) (round : Round) :
    SameBut id (endRound env policy now job round d) (endRound env policy now job round d') := by
  have hupdate : ∀ {e e' : Database} (f : InboxRow → InboxRow), SameBut id e e' →
      SameBut id (e.updateInbox job.id f) (e'.updateInbox job.id f) := by
    intro e e' f he
    refine ⟨he.store, fun k hk => ?_, he.deadLetters⟩
    unfold Database.updateInbox
    rw [Table.lookup_modifyRows, Table.lookup_modifyRows, he.inbox k hk]
  unfold endRound
  rw [← h.store]
  cases (job.toJob policy round).ending env d.store with
  | error e =>
    simp only
    split
    · refine hupdate _ ⟨h.store, h.inbox, ?_⟩
      show List.filter _ (_ :: d.deadLetters) = List.filter _ (_ :: d'.deadLetters)
      rw [List.filter_cons, List.filter_cons, h.deadLetters]
    · exact hupdate _ h
  | ok t =>
    cases t with
    | none => exact h
    | some store => exact hupdate _ ⟨rfl, h.inbox, h.deadLetters⟩

theorem sameBut_foldl_endRound {id : Nat} (now : Instant) (jobs : List (ClaimedJob × Round))
    {d d' : Database} (h : SameBut id d d') :
    SameBut id (jobs.foldl (fun db p => endRound env policy now p.1 p.2 db) d)
      (jobs.foldl (fun db p => endRound env policy now p.1 p.2 db) d') := by
  induction jobs generalizing d d' with
  | nil => exact h
  | cons p rest ih => exact ih (sameBut_endRound h now p.1 p.2)

/-- The round of a failing job touches its own row and nothing else. -/
theorem sameBut_endRound_of_not_succeeds {now : Instant} {job : ClaimedJob} {round : Round}
    {db : Database} (h : ¬(job.toJob policy round).Succeeds env db.store) :
    SameBut job.id (endRound env policy now job round db) db := by
  have hupdate : ∀ (e : Database) (f : InboxRow → InboxRow), SameBut job.id (e.updateInbox job.id f) e := by
    intro e f
    refine ⟨rfl, fun k hk => ?_, rfl⟩
    unfold Database.updateInbox
    rw [Table.lookup_modifyRows]
    simp [hk]
  unfold endRound
  cases hend : (job.toJob policy round).ending env db.store with
  | error e =>
    simp only
    split
    · refine ⟨rfl, (hupdate db _).inbox, ?_⟩
      show List.filter _ (_ :: db.deadLetters) = _
      rw [List.filter_cons]
      simp
    · exact hupdate _ _
  | ok t =>
    cases t with
    | none => exact ⟨rfl, fun _ _ => rfl, rfl⟩
    | some store => exact absurd (Job.succeeds_iff.mpr ⟨store, hend⟩) h

theorem passSound_append (before after : List (ClaimedJob × Round)) {s : Store} :
    PassSound env policy (before ++ after) s
      ↔ PassSound env policy before s
        ∧ PassSound env policy after (afterJobs env s (before.map fun p => p.1.toJob policy p.2)) := by
  induction before generalizing s with
  | nil => simp [PassSound, afterJobs]
  | cons p rest ih =>
    simp only [List.cons_append, PassSound, ih, and_assoc]
    rfl

/-- In a sound pass the stores are those of the jobs run one by one. -/
theorem foldl_endRound_store (now : Instant) (jobs : List (ClaimedJob × Round)) {db : Database}
    (h : PassSound env policy jobs db.store) :
    (jobs.foldl (fun db p => endRound env policy now p.1 p.2 db) db).store
      = afterJobs env db.store (jobs.map fun p => p.1.toJob policy p.2) := by
  induction jobs generalizing db with
  | nil => rfl
  | cons p rest ih =>
    obtain ⟨hfaults, hending, hrest⟩ := h
    have hstore := endRound_store now hfaults hending
    rw [List.foldl_cons, ih (hstore ▸ hrest), hstore]
    rfl

/-- **A sound pass isolates its jobs.** -/
theorem isolates_of_sound {now : Instant} {jobs : List (ClaimedJob × Round)} {db : Database}
    (h : ∀ policy, db.store.config.privacy = .ok policy → PassSound env policy jobs db.store) :
    Isolates env now jobs db := by
  intro policy before job round after hjobs hpolicy hfails
  have hsound := h policy hpolicy
  have hpassed : ∀ js, PassSound env policy js db.store →
      passed env now js db = js.foldl (fun db p => endRound env policy now p.1 p.2 db) db := by
    intro js hjs
    obtain ⟨verdicts, hrun⟩ := processJobs_of_sound now js hjs
    unfold passed processBatch
    rw [hpolicy]
    simp only [hrun]
  subst hjobs
  obtain ⟨hbefore, hfaults, hending, hafter⟩ := (passSound_append _ _).mp hsound
  rw [afterJob_of_not_succeeds hfails] at hafter
  rw [hpassed _ hsound, hpassed _ ((passSound_append _ _).mpr ⟨hbefore, hafter⟩),
    List.foldl_append, List.foldl_append, List.foldl_cons]
  rw [← foldl_endRound_store now before hbefore] at hfails
  exact sameBut_foldl_endRound now after (sameBut_endRound_of_not_succeeds hfails)

end Pass

/-- A pass that meets no fault is sound. -/
theorem passSound_of_faultless {env : Platform} {policy : Policy}
    (jobs : List (ClaimedJob × Round)) (h : ∀ p ∈ jobs, p.2.faults = [] ∧ p.2.bodyFaults = [])
    {s : Store} : PassSound env policy jobs s := by
  induction jobs generalizing s with
  | nil => trivial
  | cons p rest ih =>
    obtain ⟨hfaults, hbody⟩ := h p List.mem_cons_self
    refine ⟨?_, Job.ending_ne_none hbody, ih fun q hq => h q (List.mem_cons_of_mem _ hq)⟩
    rw [hfaults]
    exact fun _ hmem => absurd hmem List.not_mem_nil

/-! ## §5. Runs. -/

/-- Attempts and dead letters are only ever added. -/
structure Grown (w w' : World) : Prop where
  attempts : w.attempts <:+ w'.attempts
  deadLetters : w.db.deadLetters <:+ w'.db.deadLetters

theorem RoundEnds.deadLetters_suffix {env : Platform} {policy : Policy} {now : Instant}
    {job : ClaimedJob} {round : Round} {db db' : Database} {verdict : Verdict}
    (h : RoundEnds env policy now job round db db' verdict) : db.deadLetters <:+ db'.deadLetters := by
  cases h with
  | done => exact List.suffix_refl _
  | retry => exact List.suffix_refl _
  | dead => exact List.suffix_cons _ _

theorem AcceptWrite.deadLetters_run (env : Platform) (db : Database) (write : AcceptWrite) :
    (write.run env db).deadLetters = db.deadLetters := by
  cases write with
  | rejection => rfl
  | issue => rfl
  | admission a readings =>
    show (a.queue env readings db).deadLetters = _
    unfold Admission.queue
    split <;> rfl

/-- What a run reached, and how it goes on. -/
theorem World.run_jobsSound (env : Platform) (config : Config) (actions more : List Action) :
    JobsSound ((World.initial config).run env actions).db
        ((World.initial config).run env actions).attempts
      ∧ JobsSound (((World.initial config).run env actions).run env more).db
        (((World.initial config).run env actions).run env more).attempts
      ∧ Grown ((World.initial config).run env actions)
        (((World.initial config).run env actions).run env more) := by
  have hsound : ∀ (w : World) (next : List Action), AllSent env w.calls → LocksHold w.db w.claims →
      JobsSound w.db w.attempts → AllSent env (w.run env next).calls
        ∧ LocksHold (w.run env next).db (w.run env next).claims
        ∧ JobsSound (w.run env next).db (w.run env next).attempts :=
    fun w next => World.run_sound (fun _ _ write _ h => h.write write)
      (fun _ _ _ _ _ _ _ _ _ hclaimed h hends => h.round hclaimed hends) next
  obtain ⟨hsent, hlocks, hjobs⟩ := hsound (World.initial config) actions
    (fun _ h => absurd h List.not_mem_nil) ⟨fun _ h => absurd h List.not_mem_nil, List.nodup_nil⟩
    (JobsSound.initial config)
  refine ⟨hjobs, (hsound _ more hsent hlocks hjobs).2.2, ?_⟩
  have hgrown := World.run_sound (w := (World.initial config).run env actions)
    (I := fun db log => ((World.initial config).run env actions).attempts <:+ log
      ∧ ((World.initial config).run env actions).db.deadLetters <:+ db.deadLetters)
    (fun db log write _ h => ⟨h.1, (write.deadLetters_run env db).symm ▸ h.2⟩)
    (fun db log policy now job round db' verdict row _ h hends =>
      ⟨h.1.trans (List.suffix_cons _ _), h.2.trans hends.deadLetters_suffix⟩)
    more hsent hlocks ⟨List.suffix_refl _, List.suffix_refl _⟩
  exact ⟨hgrown.2.2.1, hgrown.2.2.2⟩

/-- A row keeps its outcome. -/
theorem Grown.outcome_stays {w w' : World} (h : Grown w w') (hjobs : JobsSound w.db w.attempts)
    (hjobs' : JobsSound w'.db w'.attempts) (id : Nat) :
    (w.db.Processed id → w'.db.Processed id) ∧ (w.db.DeadLettered id → w'.db.DeadLettered id) := by
  constructor
  · intro hprocessed
    rw [hjobs.processed_iff] at hprocessed
    rw [hjobs'.processed_iff]
    have hmono : doneAttempts w.attempts id ≤ doneAttempts w'.attempts id :=
      h.attempts.sublist.countP_le
    have hone := (hjobs'.counts id).2.1
    omega
  · rintro ⟨letter, hmem, hid⟩
    exact ⟨letter, h.deadLetters.subset hmem, hid⟩

/-- **THE INBOX STATE MACHINE.**  In every world a run reaches, and however it
goes on: every row has at most one outcome, keeps it, and is dead-lettered once
at most and after exactly ten failed attempts; whatever pass ends next, its
failed attempts leave nothing; and if the pass is sound, they leave the other
jobs alone. -/
theorem inboxJobs_settle (env : Platform) (config : Config) (actions more : List Action) :
    let w := (World.initial config).run env actions
    (∀ id, OneOutcome w id
        ∧ (w.db.Processed id → (w.run env more).db.Processed id)
        ∧ (w.db.DeadLettered id → (w.run env more).db.DeadLettered id))
      ∧ ∀ c ∈ w.claims, ∀ rounds : Nat → Round,
        FailuresLeaveNothing env c.now (c.rounds rounds) w.db
        ∧ ((∀ policy, w.db.store.config.privacy = .ok policy →
              PassSound env policy (c.rounds rounds) w.db.store) →
            Isolates env c.now (c.rounds rounds) w.db) := by
  intro w
  obtain ⟨hjobs, hjobs', hgrown⟩ := World.run_jobsSound env config actions more
  refine ⟨fun id => ⟨hjobs.oneOutcome id, hgrown.outcome_stays hjobs hjobs' id⟩, ?_⟩
  intro c _ rounds
  exact ⟨failuresLeaveNothing env c.now _ w.db, isolates_of_sound⟩

/-! ## §6. A dropped error. -/

namespace Sample

/-- A request of the site's own server. -/
def call (events : List IncomingEvent) : AcceptCall where
  request := { siteId := "site", trackingKey := "sk", visitorId := "v1", sessionId := "s1"
               events := events }
  origin := ""
  clientIp := ""
  userAgent := "Mozilla/5.0"

def pageView (c : Char) : IncomingEvent := { id := eventId c, name := "page_view", timestamp := newYear }

def acceptReadings (inboxId : Nat) : AcceptReadings :=
  ⟨newYear * 1000, newYear * 1000, newYear * 1000, inboxId⟩

/-- One event is processed; then it comes in again, and another one with it. -/
def redelivery : List Action :=
  [.call (call [pageView '1']) (acceptReadings 1), .write 0 true, .claim (newYear * 1000),
    .finish 0 (fun _ => ⟨readings, [], []⟩) true,
    .call (call [pageView '1']) (acceptReadings 2), .write 1 true,
    .call (call [pageView '2']) (acceptReadings 3), .write 2 true, .claim (newYear * 1000)]

def deadlock : DbError := .fault "ERROR: deadlock detected (SQLSTATE 40P01)"

/-- The statement that counts the duplicate is the deadlock's victim. -/
def deadlockRounds (id : Nat) : Round :=
  ⟨readings, if id = 2 then [none, none, none, some deadlock] else [], []⟩

def redelivered : World := (World.initial (config 100)).run platform redelivery

/-- Whether the row `id` is processed. -/
def isProcessed (id : Nat) (db : Database) : Bool :=
  (db.inbox.lookup id).elim false fun row => row.processedAt.isSome

/-- Of the two jobs of the pass, the first one ends without error in an aborted
transaction, and the second one is processed only when it is alone. -/
def undone (now : Instant) (db : Database) : List (ClaimedJob × Round) → Bool
  | [p, q] =>
    p.1.id ≠ 3
      && (match (p.1.toJob Policy.default p.2).ending platform db.store with
        | .ok none => true
        | _ => false)
      && !isProcessed 3 (passed platform now [p, q] db)
      && isProcessed 3 (passed platform now [q] db)
  | _ => false

end Sample

theorem Sample.not_isolates {now : Instant} {db : Database} {jobs : List (ClaimedJob × Round)}
    (hpolicy : db.store.config.privacy = .ok Policy.default) (h : undone now db jobs = true) :
    ¬Isolates platform now jobs db := by
  intro hisolates
  match jobs, h with
  | [p, q], h =>
    simp only [undone, Bool.and_eq_true, decide_eq_true_eq, Bool.not_eq_true'] at h
    obtain ⟨⟨⟨hid, hending⟩, hboth⟩, halone⟩ := h
    have hfails : ¬(p.1.toJob Policy.default p.2).Succeeds platform db.store := by
      rw [Job.succeeds_iff]
      rintro ⟨s', hs'⟩
      rw [hs'] at hending
      cases hending
    have hsame := (hisolates Policy.default [] p.1 p.2 [q] rfl hpolicy hfails).inbox 3 (Ne.symm hid)
    unfold isProcessed at hboth halone
    rw [hsame] at hboth
    exact absurd (hboth.symm.trans halone) (by simp)

/-- **One dropped error undoes a whole pass**: the second row is a duplicate whose
counter is lost in a deadlock, and the third row stays unprocessed for it. -/
theorem droppedError_not_isolated :
    ∃ c ∈ Sample.redelivered.claims,
      ¬Isolates Sample.platform c.now (c.rounds Sample.deadlockRounds) Sample.redelivered.db := by
  have hundone : (Sample.redelivered.claims.any fun c => Sample.undone c.now Sample.redelivered.db
      (c.rounds Sample.deadlockRounds)) = true := by decide +kernel
  have hpolicy : (match Sample.redelivered.db.store.config.privacy with
      | .ok policy => decide (policy = Policy.default)
      | .error _ => false) = true := by decide +kernel
  obtain ⟨c, hc, hjobs⟩ := List.any_eq_true.mp hundone
  refine ⟨c, hc, Sample.not_isolates ?_ hjobs⟩
  cases hload : Sample.redelivered.db.store.config.privacy with
  | error message =>
    rw [hload] at hpolicy
    cases hpolicy
  | ok policy =>
    rw [hload] at hpolicy
    rw [of_decide_eq_true hpolicy]

end Momento
