/-
  Momento.Service.Inbox

  **THE INBOX AND ITS WORKERS.**  Any number of `Accept` calls and of workers act
  on one database.  A step of the world is one thing that happens between
  transactions:

      call     — a request is decided; its transactions are still to come
      write    — the next transaction of a call commits, or is lost
      claim    — a worker opens a pass: up to a hundred rows are locked
      finish   — a pass ends: committed, or rolled back by itself or by a crash

  A locked row is invisible to other claims (`SKIP LOCKED`) and, being locked,
  stays as it was read.  That is the invariant (`LocksHold`) behind
  `World.run_induction`: what one transaction of `Accept` and one round of a pass
  preserve holds of every database a run reaches.
-/
import Momento.Service.Accept
import Momento.Service.Batch

namespace Momento

open Foundation

/-! ## §1. The world. -/

/-- An open pass: when its transaction began, and the rows it locked. -/
structure Claim where
  now : Instant
  jobs : List ClaimedJob

/-- The database, and what is under way. -/
structure World where
  db : Database
  /-- For every call, the transactions it has still to send. -/
  calls : List (List AcceptWrite)
  claims : List Claim
  /-- The committed attempts, newest first.  No table holds it. -/
  attempts : List (Nat × Verdict)

/-- What can happen. -/
inductive Action where
  | call (call : AcceptCall) (readings : AcceptReadings)
  | write (i : Nat) (commits : Bool)
  | claim (now : Instant)
  | finish (i : Nat) (rounds : Nat → Round) (commits : Bool)

/-- An empty database. -/
def World.initial (config : Config) : World := ⟨Database.initial config, [], [], []⟩

/-- The rows some open pass holds. -/
def lockedIds (claims : List Claim) : List Nat := claims.flatMap fun c => c.jobs.map ClaimedJob.id

/-- The jobs of a pass, each with what happens in its round. -/
def Claim.rounds (c : Claim) (rounds : Nat → Round) : List (ClaimedJob × Round) :=
  c.jobs.map fun job => (job, rounds job.id)

namespace World

/-- The next transaction of a call. -/
def write (env : Platform) (i : Nat) (commits : Bool) (w : World) : World :=
  match w.calls[i]? with
  | some (next :: rest) =>
    { w with db := if commits then next.run env w.db else w.db, calls := w.calls.set i rest }
  | _ => w

/-- A claimed batch is processed. -/
def finish (env : Platform) (i : Nat) (rounds : Nat → Round) (commits : Bool) (w : World) : World :=
  match w.claims[i]? with
  | none => w
  | some c =>
    match processBatch env c.now (c.rounds rounds) w.db, commits with
    | .ok (db, verdicts), true =>
      { w with db := db, claims := w.claims.eraseIdx i, attempts := verdicts.reverse ++ w.attempts }
    | _, _ => { w with claims := w.claims.eraseIdx i }

/-- **A step.** -/
def step (env : Platform) (w : World) : Action → World
  | .call c readings => { w with calls := w.calls ++ [c.writes env w.db.store.config readings] }
  | .write i commits => w.write env i commits
  | .claim now =>
    { w with claims := w.claims ++ [⟨now, w.db.claimable (lockedIds w.claims) now⟩] }
  | .finish i rounds commits => w.finish env i rounds commits

/-- The steps in order. -/
def run (env : Platform) (w : World) (actions : List Action) : World := actions.foldl (step env) w

end World

/-! ## §2. Locks. -/

/-- The row is as the claim read it, and not processed. -/
structure ClaimedJob.Claimed (job : ClaimedJob) (db : Database) (row : InboxRow) : Prop where
  lookup : db.inbox.lookup job.id = some row
  pending : row.processedAt = none
  siteId : row.siteId = job.siteId
  payload : row.payload = job.payload
  attempts : row.attempts = job.attempts

/-- Every locked row is as its claim read it, and locked once. -/
structure LocksHold (db : Database) (claims : List Claim) : Prop where
  claimed : ∀ c ∈ claims, ∀ job ∈ c.jobs, ∃ row, job.Claimed db row
  distinct : (lockedIds claims).Nodup

/-- The rows of a claim stay claimed when they are not touched. -/
theorem ClaimedJob.Claimed.of_lookup {job : ClaimedJob} {db db' : Database} {row : InboxRow}
    (h : job.Claimed db row) (hlookup : db'.inbox.lookup job.id = db.inbox.lookup job.id) :
    job.Claimed db' row :=
  { h with lookup := hlookup.trans h.lookup }

section Claimable
variable (locked : List Nat) (now : Instant) (db : Database)

/-- The candidates of a claim, in the table's order. -/
theorem mem_claimable {job : ClaimedJob} (h : job ∈ db.claimable locked now) :
    ∃ row, (⟨job.id, row⟩ : Sigma fun _ : Nat => InboxRow) ∈ db.inbox.entries
      ∧ row.processedAt = none ∧ row.availableAt ≤ now ∧ job.id ∉ locked
      ∧ job = ⟨job.id, row.siteId, row.payload, row.attempts⟩ := by
  have hmem := List.mem_of_mem_take h
  rw [List.mem_insertionSort] at hmem
  obtain ⟨⟨id, row⟩, hentry, rfl⟩ := List.mem_map.mp hmem
  obtain ⟨hentry, hkeep⟩ := List.mem_filter.mp hentry
  simp only [Bool.and_eq_true, Option.isNone_iff_eq_none, decide_eq_true_eq] at hkeep
  exact ⟨row, hentry, hkeep.1.1, hkeep.1.2, hkeep.2, rfl⟩

theorem claimed_of_mem_claimable {job : ClaimedJob} (h : job ∈ db.claimable locked now) :
    ∃ row, job.Claimed db row := by
  obtain ⟨row, hentry, hpending, -, -, hjob⟩ := mem_claimable locked now db h
  refine ⟨row, ⟨AList.mem_lookup_iff.mpr hentry, hpending, ?_, ?_, ?_⟩⟩
  · rw [hjob]
  · rw [hjob]
  · rw [hjob]

theorem nodup_claimable : ((db.claimable locked now).map ClaimedJob.id).Nodup := by
  have hkeys : (db.inbox.entries.map Sigma.fst).Nodup := db.inbox.nodupKeys
  refine List.Nodup.sublist ((List.take_sublist _ _).map _) ?_
  refine ((List.perm_insertionSort _ _).map ClaimedJob.id).nodup_iff.mpr ?_
  rw [List.map_map]
  exact hkeys.sublist (List.filter_sublist.map _)

theorem disjoint_claimable {id : Nat} (h : id ∈ (db.claimable locked now).map ClaimedJob.id) :
    id ∉ locked := by
  obtain ⟨job, hjob, rfl⟩ := List.mem_map.mp h
  obtain ⟨-, -, -, -, hfree, -⟩ := mem_claimable locked now db hjob
  exact hfree

end Claimable

/-- A new claim takes rows nobody holds. -/
theorem LocksHold.claim {db : Database} {claims : List Claim} (h : LocksHold db claims)
    (now : Instant) :
    LocksHold db (claims ++ [⟨now, db.claimable (lockedIds claims) now⟩]) where
  claimed c hc job hjob := by
    rcases List.mem_append.mp hc with hold | hnew
    · exact h.claimed c hold job hjob
    · rw [List.mem_singleton] at hnew
      subst hnew
      exact claimed_of_mem_claimable _ _ _ hjob
  distinct := by
    have hids : lockedIds (claims ++ [⟨now, db.claimable (lockedIds claims) now⟩])
        = lockedIds claims ++ (db.claimable (lockedIds claims) now).map ClaimedJob.id := by
      simp [lockedIds]
    rw [hids]
    refine List.Nodup.append h.distinct (nodup_claimable _ _ _) ?_
    intro id hold hnew
    exact disjoint_claimable _ _ _ hnew hold

/-- Untouched rows keep their locks. -/
theorem LocksHold.of_lookup {db db' : Database} {claims : List Claim} (h : LocksHold db claims)
    (hlookup : ∀ id ∈ lockedIds claims, db'.inbox.lookup id = db.inbox.lookup id) :
    LocksHold db' claims where
  claimed c hc job hjob := by
    obtain ⟨row, hrow⟩ := h.claimed c hc job hjob
    refine ⟨row, hrow.of_lookup (hlookup job.id ?_)⟩
    exact List.mem_flatMap.mpr ⟨c, hc, List.mem_map.mpr ⟨job, hjob, rfl⟩⟩
  distinct := h.distinct

/-- The ids of a claim and those of the other claims. -/
theorem lockedIds_perm_eraseIdx {claims : List Claim} {i : Nat} {c : Claim}
    (h : claims[i]? = some c) :
    (lockedIds claims).Perm (c.jobs.map ClaimedJob.id ++ lockedIds (claims.eraseIdx i)) := by
  obtain ⟨hi, hc⟩ := List.getElem?_eq_some_iff.mp h
  have hperm : claims.Perm (c :: claims.eraseIdx i) := by
    rw [← hc]
    exact (List.getElem_cons_eraseIdx_perm hi).symm
  have hflat := hperm.flatMap_right (fun c => c.jobs.map ClaimedJob.id)
  rw [List.flatMap_cons] at hflat
  exact hflat

/-- A pass that is over gives its rows back. -/
theorem LocksHold.eraseIdx {db : Database} {claims : List Claim} (h : LocksHold db claims)
    (i : Nat) : LocksHold db (claims.eraseIdx i) where
  claimed c hc := h.claimed c (List.mem_of_mem_eraseIdx hc)
  distinct := h.distinct.sublist ((List.eraseIdx_sublist claims i).flatMap _)

/-! ## §3. The transactions of `Accept`. -/

/-- A transaction of `Accept` leaves the rows of the inbox alone. -/
theorem AcceptWrite.lookup_run (env : Platform) (db : Database) (write : AcceptWrite) {id : Nat}
    {row : InboxRow} (h : db.inbox.lookup id = some row) :
    (write.run env db).inbox.lookup id = some row := by
  cases write with
  | rejection => exact h
  | issue => exact h
  | admission a readings =>
    show (a.queue env readings db).inbox.lookup id = some row
    unfold Admission.queue
    by_cases hused : readings.inboxId ∈ db.inbox
    · rw [if_pos hused]
      exact h
    · rw [if_neg hused]
      have hne : id ≠ readings.inboxId := by
        rintro rfl
        exact hused (AList.lookup_isSome.mp (by rw [h]; rfl))
      exact (AList.lookup_insert_ne hne).trans h

/-! ## §4. What a step does. -/

/-- The transaction comes from a call of `Accept`. -/
def AcceptWrite.Sent (env : Platform) (write : AcceptWrite) : Prop :=
  ∃ (config : Config) (call : AcceptCall) (readings : AcceptReadings),
    write ∈ call.writes env config readings

/-- All that is still to be sent comes from calls. -/
def AllSent (env : Platform) (calls : List (List AcceptWrite)) : Prop :=
  ∀ writes ∈ calls, ∀ write ∈ writes, write.Sent env

theorem World.write_spec (env : Platform) (i : Nat) (commits : Bool) (w : World) :
    (w.write env i commits).claims = w.claims ∧ (w.write env i commits).attempts = w.attempts
      ∧ (AllSent env w.calls → AllSent env (w.write env i commits).calls
          ∧ ((w.write env i commits).db = w.db ∨ ∃ next : AcceptWrite, next.Sent env
              ∧ (w.write env i commits).db = next.run env w.db)) := by
  unfold World.write
  split
  next next rest hcall =>
    refine ⟨rfl, rfl, fun hsent => ⟨?_, ?_⟩⟩
    · intro writes hwrites
      rcases List.mem_or_eq_of_mem_set hwrites with hold | rfl
      · exact hsent writes hold
      · exact fun write hwrite =>
          hsent _ (List.mem_of_getElem? hcall) write (List.mem_cons_of_mem _ hwrite)
    · cases commits with
      | false => exact .inl rfl
      | true => exact .inr ⟨next, hsent _ (List.mem_of_getElem? hcall) next List.mem_cons_self, rfl⟩
  next => exact ⟨rfl, rfl, fun hsent => ⟨hsent, .inl rfl⟩⟩

theorem World.finish_spec (env : Platform) (i : Nat) (rounds : Nat → Round) (commits : Bool)
    (w : World) :
    (w.finish env i rounds commits).claims = w.claims.eraseIdx i
      ∧ (w.finish env i rounds commits).calls = w.calls
      ∧ (((w.finish env i rounds commits).db = w.db
            ∧ (w.finish env i rounds commits).attempts = w.attempts)
        ∨ ∃ c policy verdicts, w.claims[i]? = some c
            ∧ processJobs env policy c.now (c.rounds rounds) w.db
              = .ok ((w.finish env i rounds commits).db, verdicts)
            ∧ (w.finish env i rounds commits).attempts = verdicts.reverse ++ w.attempts) := by
  unfold World.finish
  split
  next hnone =>
    refine ⟨?_, rfl, .inl ⟨rfl, rfl⟩⟩
    rw [List.eraseIdx_of_length_le (List.getElem?_eq_none_iff.mp hnone)]
  next c hc =>
    split
    next db verdicts hbatch =>
      refine ⟨rfl, rfl, .inr ?_⟩
      unfold processBatch at hbatch
      cases hpolicy : w.db.store.config.privacy with
      | error message =>
        rw [hpolicy] at hbatch
        cases hbatch
      | ok policy =>
        rw [hpolicy] at hbatch
        exact ⟨c, policy, verdicts, hc, hbatch, rfl⟩
    next => exact ⟨rfl, rfl, .inl ⟨rfl, rfl⟩⟩

/-! ## §5. The induction. -/

/-- The induction over the jobs of a pass, where each job and its round meet a condition. -/
theorem processJobs_induction_on {env : Platform} {I : Database → List (Nat × Verdict) → Prop}
    {Good : ClaimedJob → Round → Prop}
    (hround : ∀ db log policy now job round db' verdict row, Good job round → job.Claimed db row → I db log →
      RoundEnds env policy now job round db db' verdict → I db' ((job.id, verdict) :: log))
    {policy : Policy} {now : Instant} (jobs : List (ClaimedJob × Round)) {db db' : Database}
    {log verdicts : List (Nat × Verdict)} (hclaimed : ∀ p ∈ jobs, ∃ row, p.1.Claimed db row)
    (hdistinct : (jobs.map fun p => p.1.id).Nodup) (hgood : ∀ p ∈ jobs, Good p.1 p.2) (hinv : I db log)
    (h : processJobs env policy now jobs db = .ok (db', verdicts)) :
    I db' (verdicts.reverse ++ log)
      ∧ ∀ id, id ∉ jobs.map (fun p => p.1.id) → db'.inbox.lookup id = db.inbox.lookup id := by
  induction jobs generalizing db log verdicts with
  | nil =>
    obtain ⟨rfl, rfl⟩ := Prod.mk.inj (Except.ok.inj h)
    exact ⟨hinv, fun _ _ => rfl⟩
  | cons p rest ih =>
    obtain ⟨job, round⟩ := p
    obtain ⟨db₁, verdict, more, fs, hone, hrest, rfl⟩ := processJobs_cons_ok h
    have hends := processJob_ends hone
    obtain ⟨hnot, hdistinct⟩ := List.nodup_cons.mp hdistinct
    obtain ⟨row, hrow⟩ := hclaimed (job, round) List.mem_cons_self
    have hinv₁ := hround _ _ _ _ _ _ _ _ row (hgood (job, round) List.mem_cons_self) hrow hinv hends
    have hclaimed₁ : ∀ p ∈ rest, ∃ row, p.1.Claimed db₁ row := by
      intro p hp
      obtain ⟨row, hrow⟩ := hclaimed p (List.mem_cons_of_mem _ hp)
      have hne : p.1.id ≠ job.id := by
        intro heq
        exact hnot (List.mem_map.mpr ⟨p, hp, heq⟩)
      exact ⟨row, hrow.of_lookup (hends.lookup_of_ne hne)⟩
    obtain ⟨hinv₂, hkeep⟩ := ih hclaimed₁ hdistinct (fun p hp => hgood p (List.mem_cons_of_mem _ hp)) hinv₁ hrest
    refine ⟨?_, ?_⟩
    · rw [List.reverse_cons, List.append_assoc]
      exact hinv₂
    · intro id hid
      rw [List.map_cons, List.mem_cons, not_or] at hid
      rw [hkeep id hid.2, hends.lookup_of_ne hid.1]

section Induction
variable {env : Platform} {I : Database → List (Nat × Verdict) → Prop}
  (hwrite : ∀ db log (write : AcceptWrite), write.Sent env → I db log →
    I (write.run env db) log)
  (hround : ∀ db log policy now job round db' verdict row, job.Claimed db row → I db log →
    RoundEnds env policy now job round db db' verdict → I db' ((job.id, verdict) :: log))

include hround in
theorem processJobs_induction {policy : Policy} {now : Instant}
    (jobs : List (ClaimedJob × Round)) {db db' : Database} {log verdicts : List (Nat × Verdict)}
    (hclaimed : ∀ p ∈ jobs, ∃ row, p.1.Claimed db row)
    (hdistinct : (jobs.map fun p => p.1.id).Nodup) (hinv : I db log)
    (h : processJobs env policy now jobs db = .ok (db', verdicts)) :
    I db' (verdicts.reverse ++ log)
      ∧ ∀ id, id ∉ jobs.map (fun p => p.1.id) → db'.inbox.lookup id = db.inbox.lookup id :=
  by
  have hround' : ∀ db log policy now job round db' verdict row, True → job.Claimed db row → I db log →
      RoundEnds env policy now job round db db' verdict → I db' ((job.id, verdict) :: log) :=
    fun db log policy now job round db' verdict row _ => hround db log policy now job round db' verdict row
  exact processJobs_induction_on hround' jobs hclaimed hdistinct (fun _ _ => trivial) hinv h

include hwrite hround

/-- What writes, claims and rounds keep, a step keeps. -/
theorem World.step_induction {w : World} (action : Action) (hsent : AllSent env w.calls)
    (hlocks : LocksHold w.db w.claims) (hinv : I w.db w.attempts) :
    AllSent env (w.step env action).calls
      ∧ LocksHold (w.step env action).db (w.step env action).claims
      ∧ I (w.step env action).db (w.step env action).attempts := by
  cases action with
  | call c readings =>
    refine ⟨fun writes hwrites => ?_, hlocks, hinv⟩
    rcases List.mem_append.mp hwrites with hold | hnew
    · exact hsent writes hold
    · rw [List.mem_singleton] at hnew
      subst hnew
      exact fun write hwrite => ⟨_, c, readings, hwrite⟩
  | claim now => exact ⟨hsent, hlocks.claim now, hinv⟩
  | write i commits =>
    show AllSent env (w.write env i commits).calls
      ∧ LocksHold (w.write env i commits).db (w.write env i commits).claims
      ∧ I (w.write env i commits).db (w.write env i commits).attempts
    obtain ⟨hclaims, hattempts, hcalls⟩ := w.write_spec env i commits
    obtain ⟨hsent', hdb⟩ := hcalls hsent
    rw [hclaims, hattempts]
    refine ⟨hsent', ?_⟩
    rcases hdb with hdb | ⟨next, hnext, hdb⟩
    · rw [hdb]
      exact ⟨hlocks, hinv⟩
    · rw [hdb]
      refine ⟨hlocks.of_lookup fun id hid => ?_, hwrite _ _ next hnext hinv⟩
      obtain ⟨c, hc, hid⟩ := List.mem_flatMap.mp hid
      obtain ⟨job, hjob, rfl⟩ := List.mem_map.mp hid
      obtain ⟨row, hrow⟩ := hlocks.claimed c hc job hjob
      rw [hrow.lookup]
      exact next.lookup_run env w.db hrow.lookup
  | finish i rounds commits =>
    show AllSent env (w.finish env i rounds commits).calls
      ∧ LocksHold (w.finish env i rounds commits).db (w.finish env i rounds commits).claims
      ∧ I (w.finish env i rounds commits).db (w.finish env i rounds commits).attempts
    obtain ⟨hclaims, hcalls, hbatch⟩ := w.finish_spec env i rounds commits
    rw [hclaims, hcalls]
    refine ⟨hsent, ?_⟩
    rcases hbatch with ⟨hdb, hattempts⟩ | ⟨c, policy, verdicts, hc, hbatch, hattempts⟩
    · rw [hdb, hattempts]
      exact ⟨hlocks.eraseIdx i, hinv⟩
    · rw [hattempts]
      have hids : (c.rounds rounds).map (fun p => p.1.id) = c.jobs.map ClaimedJob.id := by
        simp [Claim.rounds, Function.comp_def]
      obtain ⟨hown, -, hothers⟩ := List.nodup_append.mp
        ((lockedIds_perm_eraseIdx hc).nodup_iff.mp hlocks.distinct)
      have hclaimed : ∀ p ∈ c.rounds rounds, ∃ row, p.1.Claimed w.db row := by
        intro p hp
        obtain ⟨job, hjob, rfl⟩ := List.mem_map.mp hp
        exact hlocks.claimed c (List.mem_of_getElem? hc) job hjob
      obtain ⟨hinv', hkeep⟩ := processJobs_induction hround (c.rounds rounds) hclaimed
        (hids ▸ hown) hinv hbatch
      refine ⟨(hlocks.eraseIdx i).of_lookup fun id hid => hkeep id ?_, hinv'⟩
      rw [hids]
      exact fun hmem => hothers id hmem id hid rfl

/-- The world stays sound: `AllSent`, `LocksHold`, and the invariant. -/
theorem World.run_sound {w : World} (actions : List Action) (hsent : AllSent env w.calls)
    (hlocks : LocksHold w.db w.claims) (hinv : I w.db w.attempts) :
    AllSent env (w.run env actions).calls
      ∧ LocksHold (w.run env actions).db (w.run env actions).claims
      ∧ I (w.run env actions).db (w.run env actions).attempts := by
  induction actions generalizing w with
  | nil => exact ⟨hsent, hlocks, hinv⟩
  | cons action actions ih =>
    obtain ⟨hsent', hlocks', hinv'⟩ := World.step_induction hwrite hround action hsent hlocks hinv
    exact ih hsent' hlocks' hinv'

/-- **The induction over the world**: what one transaction of `Accept` and one
round of a pass preserve holds of every database a run reaches. -/
theorem World.run_induction (config : Config) (actions : List Action)
    (hinv : I (Database.initial config) []) :
    I ((World.initial config).run env actions).db ((World.initial config).run env actions).attempts :=
  (World.run_sound hwrite hround actions (w := World.initial config)
    (fun _ h => absurd h List.not_mem_nil) ⟨fun _ h => absurd h List.not_mem_nil, List.nodup_nil⟩
    hinv).2.2

end Induction

/-- The locks hold in every world a run reaches. -/
theorem World.run_locks (env : Platform) (config : Config) (actions : List Action) :
    LocksHold ((World.initial config).run env actions).db
      ((World.initial config).run env actions).claims :=
  (World.run_sound (I := fun _ _ => True) (fun _ _ _ _ _ => trivial)
    (fun _ _ _ _ _ _ _ _ _ _ _ _ => trivial) actions (w := World.initial config)
    (fun _ h => absurd h List.not_mem_nil) ⟨fun _ h => absurd h List.not_mem_nil, List.nodup_nil⟩
    trivial).2.1

/-! ## §6. The configuration. -/

/-- A round changes no configuration. -/
theorem processJobs_config {env : Platform} {policy : Policy} {now : Instant} (jobs : List (ClaimedJob × Round))
    {db db' : Database} {verdicts : List (Nat × Verdict)}
    (h : processJobs env policy now jobs db = .ok (db', verdicts)) :
    db'.store.config = db.store.config := by
  induction jobs generalizing db verdicts with
  | nil =>
    obtain ⟨rfl, -⟩ := Prod.mk.inj (Except.ok.inj h)
    rfl
  | cons p rest ih =>
    obtain ⟨job, round⟩ := p
    obtain ⟨db₁, verdict, more, fs, hone, hrest, -⟩ := processJobs_cons_ok h
    rw [ih hrest, (processJob_ends hone).store_eq, afterJob_config]

theorem countReceived_config (day : DayKey) (events : List IncomingEvent) (s : Store) :
    (countReceived day events s).config = s.config := by
  unfold countReceived
  induction events generalizing s with
  | nil => rfl
  | cons event rest ih => exact ih (s.addQuality ⟨day, event.name⟩ (receivedQuality event))

theorem AcceptWrite.run_config (env : Platform) (write : AcceptWrite) (db : Database) :
    (write.run env db).store.config = db.store.config := by
  cases write with
  | rejection => rfl
  | issue => rfl
  | admission a readings =>
    show (a.queue env readings db).store.config = db.store.config
    unfold Admission.queue
    split
    · rfl
    · exact countReceived_config _ _ _

/-- **The inbox changes no configuration.** -/
theorem World.step_config (env : Platform) (v : World) (action : Action) :
    (v.step env action).db.store.config = v.db.store.config := by
  cases action with
  | call => rfl
  | claim => rfl
  | write i commits =>
    show (v.write env i commits).db.store.config = _
    unfold World.write
    split
    · split
      · exact AcceptWrite.run_config _ _ _
      · rfl
    · rfl
  | finish i rounds commits =>
    obtain ⟨-, -, hsame | ⟨c, policy, verdicts, -, hbatch, -⟩⟩ := v.finish_spec env i rounds commits
    · exact congrArg (·.store.config) hsame.1
    · exact processJobs_config _ hbatch

end Momento
