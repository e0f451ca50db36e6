/-
  Momento.Service.Conservation

  **NO EVENT IS LOST ON THE WAY INTO THE TABLES.**  The quality counters are
  written in four places: with a rejection, with the inbox row, with a stored
  event, with a duplicate.  Summed over all dates they balance, at every point
  between transactions:

      received = accepted + duplicates + rejected
                   + the events of unprocessed inbox rows
                   + the events of dead letters
      accepted = the rows of raw_events

  The balance holds for every choice of sites, environments and event names
  (`Scope`), so for each of them and for the total.
-/
import Momento.Service.Inbox

namespace Momento

open Foundation

/-! ## §1. What is counted. -/

/-- Some sites, environments and event names. -/
abbrev Scope := Uuid → String → String → Bool

/-- A counter that an upsert adds to. -/
structure Counter where
  of : Quality → Nat
  add : ∀ q r, of (q.add r) = of q + of r

namespace Counter

def received : Counter := ⟨Quality.received, fun _ _ => rfl⟩
def accepted : Counter := ⟨Quality.accepted, fun _ _ => rfl⟩
def duplicates : Counter := ⟨Quality.duplicates, fun _ _ => rfl⟩
def rejected : Counter := ⟨Quality.rejected, fun _ _ => rfl⟩

end Counter

section Counts
variable (scope : Scope)

/-- What one row of `data_quality_daily` adds to a counter's sum. -/
def bookedIn (c : Counter) (key : QualityKey) (q : Quality) : Int :=
  if scope key.day.siteId key.day.environment key.eventName then c.of q else 0

/-- A counter, summed over all dates. -/
def Store.booked (c : Counter) (s : Store) : Int :=
  Table.sumRows (bookedIn scope c) s.dataQualityDaily

/-- The row is of the scope. -/
def RawEvent.inScope (r : RawEvent) : Bool := scope r.siteId r.environment r.eventName

/-- The rows of `raw_events`. -/
def Store.storedEvents (s : Store) : Int := (s.rawEvents.rows.countP (RawEvent.inScope scope) : Nat)

/-- The events of a stored payload. -/
def heldEvents (siteId : Uuid) : Except String InboxPayload → Int
  | .error _ => 0
  | .ok p =>
    (p.request.events.countP fun e => scope siteId p.withEnvironment.request.environment e.name : Nat)

/-- What one inbox row still holds. -/
def pendingIn (row : InboxRow) : Int :=
  if row.processedAt = none then heldEvents scope row.siteId row.payload else 0

/-- The events of unprocessed inbox rows. -/
def Database.pendingEvents (db : Database) : Int :=
  Table.sumRows (fun _ row => pendingIn scope row) db.inbox

/-- The events of dead letters. -/
def Database.deadEvents (db : Database) : Int :=
  (db.deadLetters.map fun d => heldEvents scope d.siteId d.payload).sum

/-- **The balance.** -/
structure Balanced (db : Database) : Prop where
  received : db.store.booked scope .received
    = db.store.booked scope .accepted + db.store.booked scope .duplicates
      + db.store.booked scope .rejected + db.pendingEvents scope + db.deadEvents scope
  accepted : db.store.booked scope .accepted = db.store.storedEvents scope

/-! ## §2. The counters' upsert. -/

/-- **What an upsert books.** -/
theorem booked_addQuality (c : Counter) (key : QualityKey) (q : Quality) (s : Store) :
    (s.addQuality key q).booked scope c = s.booked scope c + bookedIn scope c key q := by
  unfold Store.booked Store.addQuality
  rw [Table.sumRows_upsert, add_right_inj]
  unfold Table.rowPart
  cases s.dataQualityDaily.lookup key with
  | none => exact sub_zero _
  | some old =>
    simp only [Option.elim_some, bookedIn, c.add]
    split
    · push_cast
      ring
    · ring

theorem booked_congr (c : Counter) {s t : Store} (h : t.dataQualityDaily = s.dataQualityDaily) :
    t.booked scope c = s.booked scope c := by
  unfold Store.booked
  rw [h]

theorem bookedIn_zero (c : Counter) (key : QualityKey) {q : Quality} (h : c.of q = 0) :
    bookedIn scope c key q = 0 := by
  unfold bookedIn
  rw [h]
  exact ite_self _

theorem bookedIn_one (c : Counter) (key : QualityKey) {q : Quality} (h : c.of q = 1) :
    bookedIn scope c key q
      = if scope key.day.siteId key.day.environment key.eventName then 1 else 0 := by
  unfold bookedIn
  rw [h]
  rfl

/-! ## §3. Jobs. -/

/-- Between the two stores `n` events were settled: each stored or a duplicate. -/
structure Settles (n : Int) (s t : Store) : Prop where
  received : t.booked scope .received = s.booked scope .received
  rejected : t.booked scope .rejected = s.booked scope .rejected
  settled : t.booked scope .accepted + t.booked scope .duplicates
    = s.booked scope .accepted + s.booked scope .duplicates + n
  stored : t.booked scope .accepted - t.storedEvents scope
    = s.booked scope .accepted - s.storedEvents scope

theorem Settles.refl (s : Store) : Settles scope 0 s s :=
  ⟨rfl, rfl, (add_zero _).symm, rfl⟩

variable {scope}

theorem Settles.trans {m n : Int} {s t u : Store} (h : Settles scope m s t)
    (h' : Settles scope n t u) : Settles scope (m + n) s u where
  received := h'.received.trans h.received
  rejected := h'.rejected.trans h.rejected
  settled := by rw [h'.settled, h.settled, add_assoc]
  stored := h'.stored.trans h.stored

variable (scope)

/-- What a stored event is counted as. -/
theorem booked_store (c : Counter) (a : Arrival) (s : Store) (h : ¬a.Known s) :
    (a.store s h).booked scope c
      = s.booked scope c + bookedIn scope c ⟨a.day, a.event.name⟩
          (acceptedQuality a.context a.event a.eventTime a.unreported) := by
  have hquality := booked_addQuality scope c ⟨a.day, a.event.name⟩
    (acceptedQuality a.context a.event a.eventTime a.unreported) s
  rw [← hquality]
  exact booked_congr scope c (a.derive_dataQualityDaily _)

theorem storedEvents_store (a : Arrival) (s : Store) (h : ¬a.Known s) :
    (a.store s h).storedEvents scope
      = s.storedEvents scope
        + if scope a.context.siteId a.context.request.environment a.event.name then 1 else 0 := by
  unfold Store.storedEvents
  have hrows : (a.store s h).rawEvents.rows
      = { a.row with id := s.rawEvents.nextId } :: s.rawEvents.rows :=
    congrArg RawEvents.rows (a.derive_rawEvents _)
  rw [hrows, List.countP_cons]
  push_cast
  rfl

/-- **One event is settled once.** -/
theorem settles_apply (a : Arrival) (s : Store) :
    Settles scope
      (if scope a.context.siteId a.context.request.environment a.event.name then 1 else 0)
      s (a.apply s) := by
  by_cases hknown : a.Known s
  · rw [Arrival.apply_known hknown]
    have hduplicate : bookedIn scope .duplicates ⟨a.day, a.event.name⟩ { duplicates := 1 } = _ :=
      bookedIn_one scope .duplicates _ rfl
    constructor
    · rw [booked_addQuality, bookedIn_zero _ _ _ rfl, add_zero]
    · rw [booked_addQuality, bookedIn_zero _ _ _ rfl, add_zero]
    · rw [booked_addQuality, booked_addQuality, bookedIn_zero _ _ _ rfl, add_zero, hduplicate,
        add_assoc]
      rfl
    · rw [booked_addQuality, bookedIn_zero _ _ _ rfl, add_zero]
      rfl
  · rw [Arrival.apply_new hknown]
    have haccepted : bookedIn scope .accepted ⟨a.day, a.event.name⟩
        (acceptedQuality a.context a.event a.eventTime a.unreported)
        = if scope a.context.siteId a.context.request.environment a.event.name then 1 else 0 :=
      bookedIn_one scope .accepted _ rfl
    constructor
    · rw [booked_store, bookedIn_zero _ _ _ rfl, add_zero]
    · rw [booked_store, bookedIn_zero _ _ _ rfl, add_zero]
    · rw [booked_store, booked_store, haccepted, bookedIn_zero _ .duplicates _ rfl]
      ring
    · rw [booked_store, storedEvents_store, haccepted]
      ring

theorem settles_applyEvents {c : JobContext} (events : List (IncomingEvent × EventReadings))
    {unreported : Bool} {s : Store} (hfits : EventsFit c unreported events s) :
    Settles scope
      (events.countP fun e => scope c.siteId c.request.environment e.1.name : Nat)
      s (applyEvents c unreported events s) := by
  induction events generalizing unreported s with
  | nil => exact Settles.refl scope s
  | cons e rest ih =>
    obtain ⟨event, readings⟩ := e
    obtain ⟨eventId, hid, -, hrest⟩ := hfits
    have hone := settles_apply scope (arrivalOf c unreported event readings eventId s) s
    have hall := hone.trans (ih hrest)
    have hcount : ((((event, readings) :: rest).countP
          fun e => scope c.siteId c.request.environment e.1.name : Nat) : Int)
        = (if scope c.siteId c.request.environment event.name then 1 else 0)
          + (rest.countP fun e => scope c.siteId c.request.environment e.1.name : Nat) := by
      rw [List.countP_cons]
      push_cast
      rw [add_comm]
    rw [hcount, applyEvents, hid]
    exact hall

/-- The readings change nothing about which events there are. -/
theorem timed_map_fst (events : List IncomingEvent) (readings : Nat → EventReadings) :
    (timed events readings).map Prod.fst = events := by
  unfold timed
  refine List.ext_getElem (by simp) fun i _ _ => by simp

/-- A job that succeeds settles the events of its payload. -/
theorem settles_afterJob {env : Platform} {j : Job} {s : Store} (h : j.Succeeds env s) :
    Settles scope (heldEvents scope j.siteId j.payload) s (afterJob env s j) := by
  obtain ⟨p, hp, ⟨timezone, limit, hset, -, hevents⟩, hafter⟩ := afterJob_of_succeeds h
  have hjob := settles_applyEvents scope _ hevents
  have hcount : ∀ q : IncomingEvent → Bool,
      (timed p.withEnvironment.request.events j.readings).countP (fun e => q e.1)
        = p.withEnvironment.request.events.countP q := by
    intro q
    have hmap := List.countP_map (p := q) (f := Prod.fst)
      (l := timed p.withEnvironment.request.events j.readings)
    rw [timed_map_fst] at hmap
    exact hmap.symm
  have hevents' : p.withEnvironment.request.events = p.request.events := by
    unfold InboxPayload.withEnvironment
    split <;> rfl
  have happly : applyJob env j.policy j.siteId p.withEnvironment j.readings s
      = applyEvents (jobContext env j.policy j.siteId p.withEnvironment timezone limit s) true
          (timed p.withEnvironment.request.events j.readings) s := by
    unfold applyJob
    rw [hset]
  rw [hafter, hp, happly]
  have hheld : heldEvents scope j.siteId (.ok p)
      = ((timed p.withEnvironment.request.events j.readings).countP fun e =>
          scope j.siteId p.withEnvironment.request.environment e.1.name : Nat) := by
    rw [hcount fun e => scope j.siteId p.withEnvironment.request.environment e.name, hevents']
    rfl
  rw [hheld]
  exact hjob

/-! ## §4. Rounds. -/

/-- What one change of an inbox row does to the pending events. -/
theorem pendingEvents_updateInbox {db : Database} {job : ClaimedJob} {row : InboxRow}
    (h : job.Claimed db row) (f : InboxRow → InboxRow) :
    (db.updateInbox job.id f).pendingEvents scope
      = db.pendingEvents scope + (pendingIn scope (f row) - heldEvents scope job.siteId job.payload) := by
  have hold : pendingIn scope row = heldEvents scope job.siteId job.payload := by
    unfold pendingIn
    rw [if_pos h.pending, h.siteId, h.payload]
  have hsum := Table.sumRows_modifyRow (fun _ row => pendingIn scope row) job.id f db.inbox
  rw [h.lookup, Option.elim_some, hold] at hsum
  exact hsum

/-- **A round keeps the balance.** -/
theorem Balanced.round {env : Platform} {policy : Policy} {now : Instant} {job : ClaimedJob}
    {round : Round} {db db' : Database} {verdict : Verdict} {row : InboxRow}
    (h : Balanced scope db) (hclaimed : job.Claimed db row)
    (hends : RoundEnds env policy now job round db db' verdict) : Balanced scope db' := by
  cases hends with
  | done hend =>
    rename_i store
    have hsettles : Settles scope (heldEvents scope job.siteId job.payload) db.store store := by
      have hok := Job.succeeds_iff.mpr ⟨store, hend⟩
      have hafter := settles_afterJob scope hok
      rw [afterJob_of_ending hend] at hafter
      exact hafter
    have hpending : (Database.finishJob job.id now { db with store := store }).pendingEvents scope
        = db.pendingEvents scope + (0 - heldEvents scope job.siteId job.payload) :=
      pendingEvents_updateInbox scope
        (hclaimed.of_lookup
          (show ({ db with store := store } : Database).inbox.lookup job.id = _ from rfl)) _
    have hdead : (Database.finishJob job.id now { db with store := store }).deadEvents scope
        = db.deadEvents scope := rfl
    have hstore : (Database.finishJob job.id now { db with store := store }).store = store := rfl
    constructor
    · rw [hstore, hpending, hdead, hsettles.received, h.received, hsettles.rejected]
      linarith [hsettles.settled]
    · rw [hstore]
      linarith [hsettles.stored, h.accepted]
  | retry _ _ =>
    rename_i e _ _
    have hrow : ∀ attempts error availableAt, pendingIn scope
        { row with attempts := attempts, lastError := error, availableAt := availableAt }
        = heldEvents scope job.siteId job.payload := by
      intro attempts error availableAt
      unfold pendingIn
      rw [if_pos hclaimed.pending, hclaimed.siteId, hclaimed.payload]
    have hpending : (Database.scheduleRetry job.id e.message now db).pendingEvents scope
        = db.pendingEvents scope :=
      (pendingEvents_updateInbox scope hclaimed _).trans (by rw [hrow, sub_self, add_zero])
    exact ⟨h.received.trans (by rw [hpending]; rfl), h.accepted⟩
  | dead _ _ =>
    rename_i e _ _
    have hpending : (Database.deadLetter job e.message now db).pendingEvents scope
        = db.pendingEvents scope + (0 - heldEvents scope job.siteId job.payload) :=
      pendingEvents_updateInbox scope
        (hclaimed.of_lookup (show ({ db with deadLetters :=
          ⟨job.id, job.siteId, job.payload, e.message⟩ :: db.deadLetters }
            : Database).inbox.lookup job.id = _ from rfl)) _
    have hdead : (Database.deadLetter job e.message now db).deadEvents scope
        = heldEvents scope job.siteId job.payload + db.deadEvents scope := rfl
    have hstore : (Database.deadLetter job e.message now db).store = db.store := rfl
    constructor
    · rw [hstore, hpending, hdead, h.received]
      ring
    · exact h.accepted

/-! ## §5. The transactions of `Accept`. -/

/-- The received counters of a request, one for each event. -/
theorem booked_countReceived (c : Counter) (day : DayKey) (events : List IncomingEvent) (s : Store) :
    (countReceived day events s).booked scope c
      = s.booked scope c + (events.map fun e => bookedIn scope c ⟨day, e.name⟩ (receivedQuality e)).sum := by
  unfold countReceived
  induction events generalizing s with
  | nil => simp
  | cons e rest ih =>
    rw [List.foldl_cons, ih, booked_addQuality, List.map_cons, List.sum_cons, add_assoc]

theorem countReceived_rawEvents (day : DayKey) (events : List IncomingEvent) (s : Store) :
    (countReceived day events s).rawEvents = s.rawEvents := by
  unfold countReceived
  induction events generalizing s with
  | nil => rfl
  | cons e rest ih => rw [List.foldl_cons, ih]; rfl

theorem booked_countReceived_zero (c : Counter) (h : ∀ e, c.of (receivedQuality e) = 0)
    (day : DayKey) (events : List IncomingEvent) (s : Store) :
    (countReceived day events s).booked scope c = s.booked scope c := by
  have hzero : (events.map fun e => bookedIn scope c ⟨day, e.name⟩ (receivedQuality e))
      = events.map fun _ => 0 :=
    List.map_congr_left fun e _ => bookedIn_zero scope c _ (h e)
  rw [booked_countReceived, hzero]
  simp

/-- The events of a payload through the inbox. -/
theorem heldEvents_reload (siteId : Uuid) (p : InboxPayload) (h : p.request.environment ≠ "") :
    heldEvents scope siteId (.ok p.reload)
      = (p.request.events.map fun e =>
          if scope siteId p.request.environment e.name then (1 : Int) else 0).sum := by
  have henvironment : p.reload.withEnvironment.request.environment = p.request.environment := by
    have hreload : p.reload.request.environment = p.request.environment := rfl
    unfold InboxPayload.withEnvironment
    rw [hreload, if_neg h, hreload]
  unfold heldEvents
  simp only [henvironment]
  show (((p.request.events.map IncomingEvent.reload).countP
    fun e => scope siteId p.request.environment e.name : Nat) : Int) = _
  rw [List.countP_map]
  induction p.request.events with
  | nil => rfl
  | cons e rest ih =>
    rw [List.countP_cons, List.map_cons, List.sum_cons, ← ih]
    push_cast
    rw [add_comm]
    rfl

/-- **A transaction of `Accept` keeps the balance.** -/
theorem Balanced.write {env : Platform} {db : Database} {write : AcceptWrite}
    (h : Balanced scope db) (hsent : write.Sent env) : Balanced scope (write.run env db) := by
  cases write with
  | issue => exact ⟨h.received, h.accepted⟩
  | rejection key piiDetected =>
    have hstep : ∀ c : Counter, ((AcceptWrite.rejection key piiDetected).run env db).store.booked
        scope c = db.store.booked scope c
          + bookedIn scope c key { received := 1, rejected := 1, piiDetected := piiDetected } :=
      fun c => booked_addQuality scope c key _ db.store
    have hreceived : bookedIn scope .received key
          { received := 1, rejected := 1, piiDetected := piiDetected }
        = bookedIn scope .rejected key
          { received := 1, rejected := 1, piiDetected := piiDetected } := rfl
    constructor
    · rw [hstep, hstep, hstep, hstep, bookedIn_zero _ .accepted _ rfl,
        bookedIn_zero _ .duplicates _ rfl, hreceived, h.received]
      show _ = _ + db.pendingEvents scope + db.deadEvents scope
      ring
    · rw [hstep, bookedIn_zero _ .accepted _ rfl, add_zero]
      exact h.accepted
  | admission a readings =>
    obtain ⟨config, call, readings', hmem⟩ := hsent
    show Balanced scope (a.queue env readings db)
    unfold Admission.queue
    by_cases hused : readings.inboxId ∈ db.inbox
    · rw [if_pos hused]
      exact h
    rw [if_neg hused]
    have henvironment : a.payload.request.environment ≠ "" := by
      unfold AcceptCall.writes at hmem
      cases haccept : accept env config call readings'.received with
      | error turned =>
        rw [haccept] at hmem
        cases turned <;> simp [Turned.writes] at hmem
      | ok admission =>
        rw [haccept] at hmem
        by_cases hjson : env.storesJson admission.payload
        · simp only [hjson, if_true, List.mem_singleton, AcceptWrite.admission.injEq] at hmem
          rw [hmem.1]
          exact accept_environment haccept
        · simp [hjson] at hmem
    have hheld := heldEvents_reload scope a.siteId a.payload henvironment
    have hpending : Table.sumRows (fun _ row => pendingIn scope row)
        (AList.insert readings.inboxId
          ⟨a.siteId, .ok a.payload.reload, 0, readings.queued, none, none⟩ db.inbox)
        = heldEvents scope a.siteId (.ok a.payload.reload) + db.pendingEvents scope :=
      Table.sumRows_insert_fresh _ _ hused
    constructor
    · show _ = _ + Table.sumRows (fun _ row => pendingIn scope row) (AList.insert _ _ db.inbox)
        + db.deadEvents scope
      rw [hpending, hheld, booked_countReceived,
        booked_countReceived_zero scope .accepted fun _ => rfl,
        booked_countReceived_zero scope .duplicates fun _ => rfl,
        booked_countReceived_zero scope .rejected fun _ => rfl, h.received]
      have hevents : (a.payload.request.events.map fun e => bookedIn scope .received
            ⟨⟨a.siteId, receivedDate env a.site readings.dated, a.payload.request.environment⟩,
              e.name⟩ (receivedQuality e))
          = a.payload.request.events.map fun e =>
              if scope a.siteId a.payload.request.environment e.name then (1 : Int) else 0 :=
        List.map_congr_left fun e _ => bookedIn_one scope .received _ rfl
      rw [hevents]
      ring
    · show (countReceived _ _ db.store).booked scope .accepted
        = (countReceived _ _ db.store).storedEvents scope
      rw [booked_countReceived_zero scope .accepted fun _ => rfl, h.accepted]
      unfold Store.storedEvents
      rw [countReceived_rawEvents]

theorem Balanced.initial (config : Config) : Balanced scope (Database.initial config) :=
  ⟨rfl, rfl⟩

end Counts

/-! ## §6. Runs. -/

/-- **CONSERVATION.**  At every point of every run of `Accept` calls and worker
passes, for any sites, environments and event names, received is accepted plus
duplicates plus rejected plus what still waits plus what was given up, and
accepted is the number of stored events. -/
theorem ingestion_conserved (env : Platform) (config : Config) (actions : List Action)
    (scope : Scope) : Balanced scope ((World.initial config).run env actions).db :=
  World.run_induction (I := fun db _ => Balanced scope db)
    (fun _ _ _ hsent h => h.write scope hsent)
    (fun _ _ _ _ _ _ _ _ _ hclaimed h hends => h.round scope hclaimed hends)
    config actions (Balanced.initial scope config)

end Momento
