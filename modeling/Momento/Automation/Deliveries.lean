/-
  Momento.Automation.Deliveries

  **SCHEDULED REPORTS ARE DELIVERED.**  Each process looks for a report that is due: it
  locks one that nobody else has locked, puts off its next run by the interval,
  commits, and only then builds the payload and posts it.  Anyone may also run a report
  by hand, and save, remove or switch off reports, channels and sites meanwhile.

      config       — whether automation is switched on is read, before anything else
      begin, select, update, commit
                   — the transaction that claims a report
      lost         — the commit took effect, but its answer did not arrive
      rollback     — a statement failed, or there was no report
      request, mark — `RunByID`
      post, record, finish
                   — `execute`
      crash        — the process is gone

  The statements of any number of processes interleave in any order.
-/
import Momento.Foundation.Table
import Momento.Foundation.Timetable
import Momento.Model.Json
import Momento.Model.Event
import Momento.Model.Platform

namespace Momento.Deliveries

open Foundation Foundation.Timetable

/-! ## §1. Tables. -/

/-- A row of `delivery_channels`. -/
structure DeliveryChannel where
  siteId : Uuid
  active : Bool

/-- A row of `scheduled_reports`. -/
structure ScheduledReport where
  siteId : Uuid
  channelId : Uuid
  name : String
  reportKind : String
  intervalMinutes : Int
  nextRunAt : Instant
  enabled : Bool
  lastRunAt : Option Instant
  lastStatus : Option String
  lastError : Option String

/-- `make_interval(mins => n)`. -/
def minutes (n : Int) : Int := n * 60000000

/-- When it is due next, and how often. -/
def ScheduledReport.slot (r : ScheduledReport) : Slot := ⟨r.nextRunAt, minutes r.intervalMinutes⟩

/-- What the claim reads of a report. -/
structure ScheduledDelivery where
  reportId : Uuid
  siteId : Uuid
  channelId : Uuid
  intervalMinute : Int

/-- What a claim of the row reads. -/
def ScheduledReport.delivery (id : Uuid) (r : ScheduledReport) : ScheduledDelivery :=
  ⟨id, r.siteId, r.channelId, r.intervalMinutes⟩

/-- A call of `execute`, with the time of its claim; none where it was asked for by hand. -/
structure Start where
  number : Nat
  reportId : Uuid
  claimed : Option Instant
  deriving DecidableEq

/-- How `execute` ends; an error is the text that `truncateAutomationError` leaves. -/
inductive Outcome where
  | success (status : Nat)
  /-- `ErrSkipDelivery`. -/
  | skipped
  | failed (status : Nat) (error : String)

namespace Outcome

/-- The status that is stored. -/
def state : Outcome → String
  | .success _ => "success"
  | .skipped => "skipped"
  | .failed _ _ => "failed"

/-- `nullableStatus`. -/
def responseStatus : Outcome → Option Nat
  | .success status => some status
  | .skipped => none
  | .failed status _ => if status = 0 then none else some status

/-- `error`, an empty one being none. -/
def error : Outcome → Option String
  | .failed _ error => if error = "" then none else some error
  | _ => none

/-- What `execute` can come to without a POST. -/
def withoutPost : Outcome → Bool
  | .success _ => false
  | .skipped => true
  | .failed status _ => status = 0

/-- What it can come to after one. -/
def afterPost : Outcome → Bool
  | .success status => 200 ≤ status && status < 300
  | .skipped => false
  | .failed status _ => status < 200 || 300 ≤ status

end Outcome

/-- A row of `delivery_runs`. -/
structure DeliveryRun where
  start : Start
  siteId : Uuid
  reportId : Option Uuid
  channelId : Option Uuid
  status : String
  responseStatus : Option Nat
  error : Option String

/-! ## §2. Saving a report. -/

/-- The body of `saveScheduledReport`. -/
structure ScheduleInput where
  channelId : Uuid
  name : String
  reportKind : String
  /-- `definition["environment"]`, where it is a string. -/
  environment : Option String
  intervalMinutes : Int
  nextRunAt : Option Instant
  enabled : Option Bool

/-- The kinds a report may be of. -/
def validReportKind (value : String) : Bool :=
  value ∈ ["overview", "adoption", "experience", "ai", "segment", "insights", "visitor_insight", "anomaly"]

/-- `environmentNamePattern`. -/
def isEnvironmentName (value : String) : Bool :=
  match value.toList with
  | [] => false
  | c :: rest =>
    ('a' ≤ c && c ≤ 'z') && rest.length ≤ 31
      && rest.all fun c => ('a' ≤ c && c ≤ 'z') || ('0' ≤ c && c ≤ '9') || c = '_' || c = '-'

/-- The checks of the handler, on what was sent. -/
def ScheduleInput.valid (i : ScheduleInput) : Bool :=
  trimSpace i.name ≠ "" && validReportKind i.reportKind && 5 ≤ i.intervalMinutes && i.intervalMinutes ≤ 525600
    && i.environment.elim true fun environment => environment = "" || isEnvironmentName environment

/-- What is saved; `clock` is `time.Now()` of the process. -/
def ScheduleInput.save (i : ScheduleInput) (clock : Instant) (r : ScheduledReport) : ScheduledReport :=
  { r with
    channelId := i.channelId
    name := i.name
    reportKind := i.reportKind
    intervalMinutes := i.intervalMinutes
    nextRunAt := i.nextRunAt.getD clock
    enabled := i.enabled.getD true }

/-! ## §3. Processes. -/

/-- Where a goroutine is. -/
inductive Place where
  | idle
  /-- `config` said that automation is switched on. -/
  | configured
  | began (now : Instant)
  | selected (now : Instant) (d : ScheduledDelivery)
  | updated (now : Instant) (d : ScheduledDelivery)
  /-- `RunByID` read the report. -/
  | requested (d : ScheduledDelivery)
  | executing (s : Start) (d : ScheduledDelivery)
  | posted (s : Start) (d : ScheduledDelivery)
  | recorded (s : Start) (d : ScheduledDelivery) (outcome : Outcome)

namespace Place

/-- The claim under way. -/
def claiming : Place → Option (Instant × ScheduledDelivery)
  | .selected now d => some (now, d)
  | .updated now d => some (now, d)
  | _ => none

/-- The call of `execute` under way. -/
def start : Place → Option Start
  | .executing s _ => some s
  | .posted s _ => some s
  | .recorded s _ _ => some s
  | _ => none

/-- It may still post. -/
def unposted : Place → Option Start
  | .executing s _ => some s
  | _ => none

/-- It may still record its run. -/
def unrecorded : Place → Option Start
  | .executing s _ => some s
  | .posted s _ => some s
  | _ => none

end Place

/-- The tables, where every process is, and what has come of it. -/
structure World where
  now : Instant
  /-- `enabled` of the setting `automation`. -/
  automation : Bool
  /-- Which sites there are, and whether they are active. -/
  sites : Table Uuid Bool
  channels : Table Uuid DeliveryChannel
  reports : Table Uuid ScheduledReport
  runs : List DeliveryRun
  /-- Who has a row of `scheduled_reports` locked. -/
  holder : Uuid → Option Nat
  place : Nat → Place
  /-- The calls of `execute`, those of them that posted, and what became of the reports'
  next runs, each in order.  No table holds them. -/
  starts : List Start
  posts : List Start
  trace : List (Entry Uuid)

/-- The statements of the processes and of the console, in any order. -/
inductive Action where
  | tick (elapsed : Nat)
  | settings (enabled : Bool)
  | saveSite (id : Uuid) (active : Bool)
  | deleteSite (id : Uuid)
  | saveChannel (id siteId : Uuid) (active : Bool)
  | deleteChannel (id siteId : Uuid)
  | insertReport (id siteId : Uuid) (input : ScheduleInput) (clock : Instant)
  | updateReport (id siteId : Uuid) (input : ScheduleInput) (clock : Instant)
  | deleteReport (id siteId : Uuid)
  | config (x : Nat)
  | begin (x : Nat)
  | select (x : Nat) (picked : Option Uuid)
  | update (x : Nat)
  | commit (x : Nat)
  | lost (x : Nat)
  | rollback (x : Nat)
  | request (x : Nat) (id : Uuid)
  | mark (x : Nat) (writes : Bool)
  | post (x : Nat)
  | record (x : Nat) (outcome : Outcome) (writes : Bool)
  | finish (x : Nat) (writes : Bool)
  | crash (x : Nat)

/-! ## §4. Steps. -/

namespace World

/-- Nothing is stored and nobody is at work. -/
def initial (now : Instant) : World :=
  ⟨now, false, ∅, ∅, ∅, [], fun _ => none, fun _ => .idle, [], [], []⟩

variable (w : World)

/-- What the table says of a report's next run. -/
def slot (id : Uuid) : Option Slot := (w.reports.lookup id).map ScheduledReport.slot

/-- A process goes on. -/
def setPlace (x : Nat) (place : Place) : World := { w with place := Function.update w.place x place }

/-- The locks go with the transaction. -/
def free (x : Nat) : World := { w with holder := fun id => if w.holder id = some x then none else w.holder id }

/-- The join of `runNext` and `RunByID`. -/
def deliverable (r : ScheduledReport) : Bool :=
  (w.channels.lookup r.channelId).elim false (fun c => c.siteId = r.siteId && c.active)
    && (w.sites.lookup r.siteId).getD false

/-- The rows that `runNext` looks for; `now()` is the time of `BEGIN`. -/
def due (now : Instant) (id : Uuid) (r : ScheduledReport) : Bool :=
  r.enabled && r.nextRunAt ≤ now && w.deliverable r && w.holder id = none

/-- Nothing is due before it. -/
def earliest (now : Instant) (r : ScheduledReport) : Bool :=
  w.reports.entries.all fun e => !w.due now e.1 e.2 || r.nextRunAt ≤ e.2.nextRunAt

/-- `ON DELETE CASCADE` of reports; a locked one is waited for. -/
def dropReports (picked : Uuid → ScheduledReport → Bool) : World :=
  { w with
    reports := Table.deleteRows picked w.reports
    runs := w.runs.map fun run =>
      { run with reportId := run.reportId.filter fun id => (w.reports.lookup id).elim true fun r => !picked id r }
    trace := w.trace ++ [.remove fun id => (w.reports.lookup id).elim false (picked id)] }

/-- No row to be deleted is locked. -/
def unlocked (picked : Uuid → ScheduledReport → Bool) : Bool :=
  w.reports.entries.all fun e => !picked e.1 e.2 || w.holder e.1 = none

/-- `ON DELETE CASCADE` of channels. -/
def dropChannels (picked : Uuid → DeliveryChannel → Bool) : World :=
  { w with
    channels := Table.deleteRows picked w.channels
    runs := w.runs.map fun run =>
      { run with channelId := run.channelId.filter fun id => (w.channels.lookup id).elim true fun c => !picked id c } }

/-- A report is saved. -/
def writeReport (id : Uuid) (r : ScheduledReport) : World :=
  { w with reports := w.reports.insert id r, trace := w.trace ++ [.set id r.slot] }

/-- The update of `runNext` takes effect. -/
def claim (now : Instant) (d : ScheduledDelivery) : World :=
  { w with
    reports := Table.modifyRows (fun id r =>
      if id = d.reportId then
        { r with
          nextRunAt := now + minutes d.intervalMinute, lastRunAt := some now, lastStatus := some "running"
          lastError := none }
      else r) w.reports
    trace := w.trace ++ [.claim d.reportId now] }

/-- What a row says of its last run. -/
def note (id : Uuid) (f : ScheduledReport → ScheduledReport) : World :=
  { w with reports := Table.modifyRows (fun id' r => if id' = id then f r else r) w.reports }

/-- The next call of `execute`. -/
def nextStart (d : ScheduledDelivery) (claimed : Option Instant) : Start := ⟨w.starts.length, d.reportId, claimed⟩

/-- `execute` begins. -/
def startRun (x : Nat) (d : ScheduledDelivery) (claimed : Option Instant) : World :=
  { w with starts := w.starts ++ [w.nextStart d claimed] }.setPlace x (.executing (w.nextStart d claimed) d)

/-- The row of `delivery_runs`, where what it refers to is still there. -/
def insertRun (s : Start) (d : ScheduledDelivery) (outcome : Outcome) : World :=
  if (w.reports.lookup d.reportId).isSome && (w.channels.lookup d.channelId).isSome
      && (w.sites.lookup d.siteId).isSome then
    { w with
      runs := w.runs ++ [⟨s, d.siteId, some d.reportId, some d.channelId, outcome.state, outcome.responseStatus,
        outcome.error⟩] }
  else w

/-- **A step.** -/
def step (w : World) : Action → World
  | .tick elapsed => { w with now := w.now + elapsed }
  | .settings enabled => { w with automation := enabled }
  | .saveSite id active => { w with sites := w.sites.insert id active }
  | .deleteSite id =>
    if w.unlocked (fun _ r => r.siteId = id) then
      let w := (w.dropReports fun _ r => r.siteId = id).dropChannels fun _ c => c.siteId = id
      { w with sites := w.sites.erase id, runs := w.runs.filter fun run => run.siteId ≠ id }
    else w
  | .saveChannel id siteId active =>
    match w.channels.lookup id with
    | some c => if c.siteId = siteId then { w with channels := w.channels.insert id ⟨siteId, active⟩ } else w
    | none => if siteId ∈ w.sites then { w with channels := w.channels.insert id ⟨siteId, active⟩ } else w
  | .deleteChannel id siteId =>
    match w.channels.lookup id with
    | some c =>
      if c.siteId = siteId ∧ w.unlocked (fun _ r => r.channelId = id) = true then
        (w.dropReports fun _ r => r.channelId = id).dropChannels fun id' _ => id' = id
      else w
    | none => w
  | .insertReport id siteId input clock =>
    -- the channel was looked for in a statement before; now only the reference counts
    if input.valid ∧ id ∉ w.reports ∧ siteId ∈ w.sites ∧ input.channelId ∈ w.channels then
      w.writeReport id (input.save clock
        ⟨siteId, input.channelId, input.name, input.reportKind, input.intervalMinutes, clock, true, none, none, none⟩)
    else w
  | .updateReport id siteId input clock =>
    match w.reports.lookup id with
    | some r =>
      if input.valid ∧ r.siteId = siteId ∧ input.channelId ∈ w.channels ∧ w.holder id = none then
        w.writeReport id (input.save clock r)
      else w
    | none => w
  | .deleteReport id siteId =>
    if w.unlocked (fun id' r => id' = id && r.siteId = siteId) then
      w.dropReports fun id' r => id' = id && r.siteId = siteId
    else w
  | .config x =>
    match w.place x with
    | .idle => if w.automation then w.setPlace x .configured else w
    | _ => w
  | .begin x =>
    match w.place x with
    | .configured => w.setPlace x (.began w.now)
    | _ => w
  | .select x (some id) =>
    match w.place x, w.reports.lookup id with
    | .began now, some r =>
      if w.due now id r ∧ w.earliest now r = true then
        { w with holder := Function.update w.holder id (some x) }.setPlace x (.selected now (r.delivery id))
      else w
    | _, _ => w
  | .select x none =>
    match w.place x with
    | .began now => if w.reports.entries.all fun e => !w.due now e.1 e.2 then w.setPlace x .idle else w
    | _ => w
  | .update x =>
    match w.place x with
    | .selected now d => w.setPlace x (.updated now d)
    | _ => w
  | .commit x =>
    match w.place x with
    | .updated now d => ((w.claim now d).free x).startRun x d (some now)
    | _ => w
  | .lost x =>
    match w.place x with
    | .updated now d => ((w.claim now d).free x).setPlace x .idle
    | _ => w
  | .rollback x =>
    match w.place x with
    | .configured => w.setPlace x .idle
    | .began _ => w.setPlace x .idle
    | .selected _ _ => (w.free x).setPlace x .idle
    | .updated _ _ => (w.free x).setPlace x .idle
    | _ => w
  | .request x id =>
    match w.place x, w.reports.lookup id with
    | .configured, some r => if w.deliverable r then w.setPlace x (.requested (r.delivery id)) else w
    | _, _ => w
  | .mark x writes =>
    match w.place x with
    | .requested d =>
      if writes = false then w.startRun x d none
      else if w.holder d.reportId = none then
        (w.note d.reportId fun r =>
          { r with lastRunAt := some w.now, lastStatus := some "running", lastError := none }).startRun x d none
      else w
    | _ => w
  | .post x =>
    match w.place x with
    | .executing s d => { w with posts := w.posts ++ [s] }.setPlace x (.posted s d)
    | _ => w
  | .record x outcome writes =>
    match w.place x with
    | .executing s d =>
      if outcome.withoutPost then
        (if writes then w.insertRun s d outcome else w).setPlace x (.recorded s d outcome)
      else w
    | .posted s d =>
      if outcome.afterPost then
        (if writes then w.insertRun s d outcome else w).setPlace x (.recorded s d outcome)
      else w
    | _ => w
  | .finish x writes =>
    match w.place x with
    | .recorded _ d outcome =>
      if writes = false then w.setPlace x .idle
      else if w.holder d.reportId = none then
        (w.note d.reportId fun r =>
          { r with lastStatus := some outcome.state, lastError := outcome.error }).setPlace x .idle
      else w
    | _ => w
  | .crash x => (w.free x).setPlace x .idle

end World

/-! ## §5. What should hold. -/

/-- The claims of a report whose report was then executed. -/
def executedAt (id : Uuid) (starts : List Start) : List Int :=
  starts.filterMap fun s => if s.reportId = id then s.claimed else none

/-- **What any number of processes do with the reports.** -/
structure World.Sound (w : World) : Prop where
  /-- Nobody claims a report that somebody else is claiming. -/
  exclusive : ∀ x y now now' d d', (w.place x).claiming = some (now, d) → (w.place y).claiming = some (now', d') →
    d.reportId = d'.reportId → x = y
  /-- The tables say what was made of the next runs, in order. -/
  slots : ∀ id, w.slot id = w.trace.foldl Timetable.step (fun _ => none) id
  /-- Since a report was saved last, its claims are an interval apart. -/
  spaced : ∀ id before after slot, w.trace = before ++ after →
    before.foldl Timetable.step (fun _ => none) id = some slot → (∀ e ∈ after, e.resets id = false) →
      List.IsChain (fun a b => a + slot.every ≤ b) ((slot.next - slot.every) :: claims id after)
        ∧ w.slot id = some { slot with next := ((claims id after).getLast?).elim slot.next (· + slot.every) }
  /-- So many fit into a window. -/
  window : ∀ id before after slot first last, w.trace = before ++ after →
    before.foldl Timetable.step (fun _ => none) id = some slot → (∀ e ∈ after, e.resets id = false) → first ≤ last →
      (((claims id after).filter fun t => decide (first ≤ t ∧ t ≤ last)).length : Int)
        ≤ (last - first) / slot.every + 1
  /-- What is executed was claimed, or asked for by hand. -/
  executed : ∀ id, (executedAt id w.starts).Sublist (claims id w.trace)
  /-- Each time it is executed, it is posted and recorded once at most. -/
  starts : w.starts.Nodup
  posts : w.posts.Nodup ∧ w.posts ⊆ w.starts
  runs : (w.runs.map DeliveryRun.start).Nodup ∧ w.runs.map DeliveryRun.start ⊆ w.starts

/-! ## §6. The invariant. -/

/-- What is set is at least five minutes. -/
def Lasts : Entry Uuid → Prop
  | .set _ slot => minutes 5 ≤ slot.every
  | _ => True

/-- The claims under way, and those that took effect. -/
structure World.Claims (w : World) : Prop where
  legal : Along Timetable.step InTime (fun _ => none) w.trace
  slots : w.slot = w.trace.foldl Timetable.step fun _ => none
  lasts : ∀ e ∈ w.trace, Lasts e
  held : ∀ x now d, (w.place x).claiming = some (now, d) → w.holder d.reportId = some x
    ∧ ∃ slot, w.slot d.reportId = some slot ∧ slot.next ≤ now ∧ slot.every = minutes d.intervalMinute

/-- The runs under way, and what came of them. -/
structure World.Runs (w : World) : Prop where
  executed : ∀ id, (executedAt id w.starts).Sublist (claims id w.trace)
  numbers : ∀ s ∈ w.starts, s.number < w.starts.length
  nodup : w.starts.Nodup
  own : ∀ x s, (w.place x).start = some s → s ∈ w.starts
  alone : ∀ x y s, (w.place x).start = some s → (w.place y).start = some s → x = y
  postsNodup : w.posts.Nodup
  posts : w.posts ⊆ w.starts
  unposted : ∀ x s, (w.place x).unposted = some s → s ∉ w.posts
  runsNodup : (w.runs.map DeliveryRun.start).Nodup
  runs : w.runs.map DeliveryRun.start ⊆ w.starts
  unrecorded : ∀ x s, (w.place x).unrecorded = some s → s ∉ w.runs.map DeliveryRun.start

/-- A place after another, as far as its run goes. -/
structure Place.Onward (p q : Place) : Prop where
  start : ∀ s, q.start = some s → p.start = some s
  unposted : ∀ s, q.unposted = some s → p.unposted = some s
  unrecorded : ∀ s, q.unrecorded = some s → p.unrecorded = some s

theorem Place.Onward.refl (p : Place) : p.Onward p := ⟨fun _ h => h, fun _ h => h, fun _ h => h⟩

/-- Who executes nothing. -/
theorem Place.Onward.of_none {p q : Place} (hstart : q.start = none) (hunposted : q.unposted = none)
    (hunrecorded : q.unrecorded = none) : p.Onward q := by
  refine ⟨?_, ?_, ?_⟩
  · intro s hs
    rw [hstart] at hs
    cases hs
  · intro s hs
    rw [hunposted] at hs
    cases hs
  · intro s hs
    rw [hunrecorded] at hs
    cases hs

/-! ## §7. Every step. -/

section
variable {w w' : World} {x : Nat} {place : Place}

theorem place_setPlace (w : World) (x : Nat) (place : Place) (y : Nat) :
    (w.setPlace x place).place y = if y = x then place else w.place y :=
  Function.update_apply w.place x place y

theorem onward_setPlace (h : (w.place x).Onward place) (y : Nat) :
    (w.place y).Onward ((w.setPlace x place).place y) := by
  rw [place_setPlace]
  by_cases hy : y = x
  · rw [if_pos hy, hy]
    exact h
  · rw [if_neg hy]
    exact .refl _

/-- **A step that makes nothing of the next runs.** -/
theorem World.Claims.stays (h : w.Claims) (htrace : w'.trace = w.trace) (hslots : w'.slot = w.slot)
    (hheld : ∀ x now d, (w'.place x).claiming = some (now, d) → (w.place x).claiming = some (now, d)
      ∧ w'.holder d.reportId = w.holder d.reportId) : w'.Claims where
  legal := by
    rw [htrace]
    exact h.legal
  slots := by
    rw [htrace, hslots]
    exact h.slots
  lasts := by
    rw [htrace]
    exact h.lasts
  held x now d hx := by
    obtain ⟨hplace, hholder⟩ := hheld x now d hx
    rw [hholder, hslots]
    exact h.held x now d hplace

/-- **A step that makes something of a next run**, and leaves those that are being claimed. -/
theorem World.Claims.next (h : w.Claims) {e : Entry Uuid} (htrace : w'.trace = w.trace ++ [e])
    (hslots : w'.slot = Timetable.step w.slot e) (hlegal : InTime w.slot e) (hlasts : Lasts e)
    (hheld : ∀ x now d, (w'.place x).claiming = some (now, d) → (w.place x).claiming = some (now, d)
      ∧ w'.holder d.reportId = w.holder d.reportId ∧ w'.slot d.reportId = w.slot d.reportId) : w'.Claims where
  legal := by
    rw [htrace, along_append]
    refine ⟨h.legal, ?_, trivial⟩
    rw [← h.slots]
    exact hlegal
  slots := by
    rw [htrace, List.foldl_append, ← h.slots]
    exact hslots
  lasts e' he' := by
    rw [htrace] at he'
    cases List.mem_append.mp he' with
    | inl hbefore => exact h.lasts e' hbefore
    | inr hlast =>
      rw [List.mem_singleton.mp hlast]
      exact hlasts
  held x now d hx := by
    obtain ⟨hplace, hholder, hslot⟩ := hheld x now d hx
    rw [hholder, hslot]
    exact h.held x now d hplace

/-- **A step that starts nothing.** -/
theorem World.Runs.stays (h : w.Runs) (hstarts : w'.starts = w.starts) (hposts : w'.posts = w.posts)
    (hruns : (w'.runs.map DeliveryRun.start).Sublist (w.runs.map DeliveryRun.start))
    (htrace : ∀ id, (claims id w.trace).Sublist (claims id w'.trace))
    (hplace : ∀ x, (w.place x).Onward (w'.place x)) : w'.Runs where
  executed id := by
    rw [hstarts]
    exact (h.executed id).trans (htrace id)
  numbers := by
    rw [hstarts]
    exact h.numbers
  nodup := by
    rw [hstarts]
    exact h.nodup
  own x s hs := by
    rw [hstarts]
    exact h.own x s ((hplace x).start s hs)
  alone x y s hx hy := h.alone x y s ((hplace x).start s hx) ((hplace y).start s hy)
  postsNodup := by
    rw [hposts]
    exact h.postsNodup
  posts := by
    rw [hposts, hstarts]
    exact h.posts
  unposted x s hs := by
    rw [hposts]
    exact h.unposted x s ((hplace x).unposted s hs)
  runsNodup := h.runsNodup.sublist hruns
  runs := by
    rw [hstarts]
    exact List.Subset.trans hruns.subset h.runs
  unrecorded x s hs hmem := h.unrecorded x s ((hplace x).unrecorded s hs) (hruns.subset hmem)

theorem claims_sublist {trace more : List (Entry Uuid)} (id : Uuid) :
    (claims id trace).Sublist (claims id (trace ++ more)) := by
  unfold claims
  rw [List.filterMap_append]
  exact List.sublist_append_left _ _

/-! ### Claims. -/

/-- Who has the lock, has it. -/
theorem World.Claims.alone (h : w.Claims) {y : Nat} {now now' : Instant} {d d' : ScheduledDelivery}
    (hx : (w.place x).claiming = some (now, d)) (hy : (w.place y).claiming = some (now', d'))
    (hsame : d.reportId = d'.reportId) : x = y := by
  have hholder := (h.held x now d hx).1
  rw [hsame, (h.held y now' d' hy).1] at hholder
  exact (Option.some.inj hholder).symm

theorem holder_free_of_ne {y : Nat} (hy : y ≠ x) {id : Uuid} (h : w.holder id = some y) :
    (w.free x).holder id = w.holder id := by
  show (if w.holder id = some x then none else w.holder id) = w.holder id
  rw [if_neg]
  rw [h]
  exact fun heq => hy (Option.some.inj heq)

/-- Others keep their locks when a transaction ends. -/
theorem World.Claims.held_free (h : w.Claims) (hplace : place.claiming = none) (y : Nat) (now : Instant)
    (d : ScheduledDelivery) (hy : (((w.free x).setPlace x place).place y).claiming = some (now, d)) :
    (w.place y).claiming = some (now, d) ∧ ((w.free x).setPlace x place).holder d.reportId = w.holder d.reportId := by
  rw [place_setPlace] at hy
  by_cases hyx : y = x
  · rw [if_pos hyx, hplace] at hy
    cases hy
  · rw [if_neg hyx] at hy
    exact ⟨hy, holder_free_of_ne hyx (h.held y now d hy).1⟩

/-- **The transaction ends**, and nothing came of it. -/
theorem World.Claims.free (h : w.Claims) (hplace : place.claiming = none) :
    ((w.free x).setPlace x place).Claims :=
  h.stays rfl rfl (h.held_free hplace)

/-- What an update of one report leaves of the next runs. -/
theorem slot_modifyRows (w : World) (id : Uuid) (f : ScheduledReport → ScheduledReport) (k : Uuid) :
    ((Table.modifyRows (fun id' r => if id' = id then f r else r) w.reports).lookup k).map ScheduledReport.slot
      = if k = id then (w.reports.lookup k).map (fun r => (f r).slot) else w.slot k := by
  rw [Table.lookup_modifyRows, Option.map_map]
  by_cases hk : k = id
  · rw [if_pos hk]
    congr 1
    funext r
    exact congrArg ScheduledReport.slot (if_pos hk)
  · rw [if_neg hk]
    unfold World.slot
    congr 1
    funext r
    exact congrArg ScheduledReport.slot (if_neg hk)

theorem slot_note {id : Uuid} {f : ScheduledReport → ScheduledReport} (hf : ∀ r, (f r).slot = r.slot) :
    (w.note id f).slot = w.slot := by
  funext k
  refine (slot_modifyRows w id f k).trans ?_
  by_cases hk : k = id
  · rw [if_pos hk]
    unfold World.slot
    congr 1
    funext r
    exact hf r
  · exact if_neg hk

theorem slot_claim {now : Instant} {d : ScheduledDelivery} (h : w.Claims)
    (hx : (w.place x).claiming = some (now, d)) :
    (w.claim now d).slot = Timetable.step w.slot (.claim d.reportId now) := by
  obtain ⟨-, slot, hslot, -, hevery⟩ := h.held x now d hx
  funext id
  refine (slot_modifyRows w d.reportId _ id).trans ?_
  by_cases hid : id = d.reportId
  · subst hid
    refine Eq.trans ?_ (Function.update_self d.reportId _ w.slot).symm
    obtain ⟨r, hr, hrow⟩ := Option.map_eq_some_iff.mp hslot
    rw [if_pos rfl, hr, hslot]
    -- what the claim read is what the row says
    have hinterval : minutes r.intervalMinutes = minutes d.intervalMinute := (congrArg Slot.every hrow).trans hevery
    rw [Option.map_some, Option.map_some, hevery]
    exact congrArg (fun every => some (Slot.mk (now + minutes d.intervalMinute) every)) hinterval
  · rw [if_neg hid]
    exact (Function.update_of_ne hid _ w.slot).symm

/-- **The claim takes effect.** -/
theorem World.Claims.claim {now : Instant} {d : ScheduledDelivery} (h : w.Claims)
    (hx : (w.place x).claiming = some (now, d)) (htrace : w'.trace = w.trace ++ [.claim d.reportId now])
    (hslots : w'.slot = (w.claim now d).slot) (hholder : w'.holder = (w.free x).holder)
    (hplace : (w'.place x).claiming = none) (hothers : ∀ y, y ≠ x → w'.place y = w.place y) : w'.Claims := by
  obtain ⟨hown, slot, hslot, hdue, hevery⟩ := h.held x now d hx
  refine h.next htrace (hslots.trans (slot_claim h hx)) ⟨slot, hslot, hdue⟩ trivial ?_
  intro y now' d' hy
  have hyx : y ≠ x := by
    intro heq
    rw [heq, hplace] at hy
    cases hy
  rw [hothers y hyx] at hy
  have hne : d'.reportId ≠ d.reportId := fun hsame => hyx (h.alone hy hx hsame)
  refine ⟨hy, ?_, ?_⟩
  · rw [hholder]
    exact holder_free_of_ne hyx (h.held y now' d' hy).1
  · rw [hslots, slot_claim h hx]
    exact Function.update_of_ne hne _ w.slot

/-- **A report is locked**, where it is due and nobody has it. -/
theorem World.Claims.select {now : Instant} {id : Uuid} {r : ScheduledReport} (h : w.Claims)
    (hr : w.reports.lookup id = some r) (hdue : w.due now id r = true) :
    ({ w with holder := Function.update w.holder id (some x) }.setPlace x (.selected now (r.delivery id))).Claims := by
  have hnobody : w.holder id = none := of_decide_eq_true (Bool.and_eq_true_iff.mp hdue).2
  have hnext : r.nextRunAt ≤ now := by
    unfold World.due at hdue
    simp only [Bool.and_eq_true, decide_eq_true_eq] at hdue
    exact hdue.1.1.2
  refine ⟨h.legal, h.slots, h.lasts, ?_⟩
  intro y now' d hy
  rw [place_setPlace] at hy
  by_cases hyx : y = x
  · rw [if_pos hyx] at hy
    obtain ⟨rfl, rfl⟩ := Prod.mk.inj (Option.some.inj hy)
    refine ⟨?_, r.slot, ?_, hnext, rfl⟩
    · rw [hyx]
      exact Function.update_self id _ w.holder
    · show (w.reports.lookup id).map _ = _
      rw [hr]
      rfl
  · rw [if_neg hyx] at hy
    obtain ⟨hholder, hslot⟩ := h.held y now' d hy
    refine ⟨?_, hslot⟩
    have hne : d.reportId ≠ id := by
      intro heq
      rw [heq, hnobody] at hholder
      cases hholder
    exact (Function.update_of_ne hne _ w.holder).trans hholder

/-- **A report is saved**, where nobody is claiming it. -/
theorem World.Claims.writeReport {id : Uuid} {r : ScheduledReport} (h : w.Claims)
    (hfree : ∀ y, w.holder id = some y → w.slot id = none) (hlasts : 5 ≤ r.intervalMinutes) :
    (w.writeReport id r).Claims := by
  have hslots : (w.writeReport id r).slot = Timetable.step w.slot (.set id r.slot) := by
    funext id'
    show ((w.reports.insert id r).lookup id').map _ = Function.update w.slot id (some r.slot) id'
    by_cases hid : id' = id
    · subst hid
      rw [AList.lookup_insert, Function.update_self]
      rfl
    · rw [AList.lookup_insert_ne hid, Function.update_of_ne hid]
      rfl
  refine h.next rfl hslots trivial ?_ ?_
  · show 5 * 60000000 ≤ r.intervalMinutes * 60000000
    exact Int.mul_le_mul_of_nonneg_right hlasts (by decide)
  · intro y now d hy
    obtain ⟨hholder, slot, hslot, -⟩ := h.held y now d hy
    have hne : d.reportId ≠ id := by
      intro heq
      rw [heq] at hholder hslot
      rw [hfree y hholder] at hslot
      cases hslot
    refine ⟨hy, rfl, ?_⟩
    rw [hslots]
    exact Function.update_of_ne hne _ w.slot

/-- **Reports are removed**, where nobody is claiming them. -/
theorem World.Claims.dropReports {picked : Uuid → ScheduledReport → Bool} (h : w.Claims)
    (hunlocked : w.unlocked picked = true) : (w.dropReports picked).Claims := by
  have hslots : (w.dropReports picked).slot
      = Timetable.step w.slot (.remove fun id => (w.reports.lookup id).elim false (picked id)) := by
    funext id
    show ((Table.deleteRows picked w.reports).lookup id).map _
      = if (w.reports.lookup id).elim false (picked id) = true then none else (w.reports.lookup id).map _
    rw [Table.lookup_deleteRows]
    cases w.reports.lookup id with
    | none => rfl
    | some r =>
      cases hpicked : picked id r with
      | true => simp [hpicked]
      | false => simp [hpicked]
  refine h.next rfl hslots trivial trivial ?_
  intro y now d hy
  obtain ⟨hholder, slot, hslot, -⟩ := h.held y now d hy
  refine ⟨hy, rfl, ?_⟩
  obtain ⟨r, hr, -⟩ := Option.map_eq_some_iff.mp hslot
  have hrow := List.all_eq_true.mp hunlocked ⟨d.reportId, r⟩ (AList.mem_lookup_iff.mp hr)
  have hkept : picked d.reportId r = false := by
    rw [hholder] at hrow
    simpa using hrow
  rw [hslots]
  show (if (w.reports.lookup d.reportId).elim false (picked d.reportId) = true then none else _) = _
  rw [hr]
  simp [hkept]

/-! ### Runs. -/

theorem World.Runs.not_mem_nextStart (h : w.Runs) {d : ScheduledDelivery} {claimed : Option Instant} :
    w.nextStart d claimed ∉ w.starts :=
  fun hmem => Nat.lt_irrefl _ (h.numbers _ hmem)

/-- **A run starts.** -/
theorem World.Runs.start (h : w.Runs) {d : ScheduledDelivery} {claimed : Option Instant}
    (hstarts : w'.starts = w.starts ++ [w.nextStart d claimed]) (hposts : w'.posts = w.posts)
    (hruns : w'.runs = w.runs)
    (htrace : ∀ id, (executedAt id (w.starts ++ [w.nextStart d claimed])).Sublist (claims id w'.trace))
    (hx : w'.place x = .executing (w.nextStart d claimed) d) (hothers : ∀ y, y ≠ x → w'.place y = w.place y) :
    w'.Runs where
  executed id := by
    rw [hstarts]
    exact htrace id
  numbers s hs := by
    rw [hstarts] at hs ⊢
    rw [List.length_append]
    cases List.mem_append.mp hs with
    | inl hold => exact Nat.lt_succ_of_lt (h.numbers s hold)
    | inr hnew =>
      rw [List.mem_singleton.mp hnew]
      exact Nat.lt_succ_self _
  nodup := by
    rw [hstarts]
    exact List.nodup_append.mpr ⟨h.nodup, List.nodup_singleton _, fun s hs t ht heq =>
      h.not_mem_nextStart (List.mem_singleton.mp ht ▸ heq ▸ hs)⟩
  own y s hs := by
    rw [hstarts]
    by_cases hy : y = x
    · rw [hy, hx] at hs
      rw [← Option.some.inj hs]
      exact List.mem_append_right _ List.mem_cons_self
    · rw [hothers y hy] at hs
      exact List.mem_append_left _ (h.own y s hs)
  alone y z s hy hz := by
    by_cases hyx : y = x
    · by_cases hzx : z = x
      · rw [hyx, hzx]
      · rw [hyx, hx] at hy
        rw [hothers z hzx, ← Option.some.inj hy] at hz
        exact absurd (h.own z _ hz) h.not_mem_nextStart
    · by_cases hzx : z = x
      · rw [hzx, hx] at hz
        rw [hothers y hyx, ← Option.some.inj hz] at hy
        exact absurd (h.own y _ hy) h.not_mem_nextStart
      · rw [hothers y hyx] at hy
        rw [hothers z hzx] at hz
        exact h.alone y z s hy hz
  postsNodup := by
    rw [hposts]
    exact h.postsNodup
  posts := by
    rw [hposts, hstarts]
    exact fun s hs => List.mem_append_left _ (h.posts hs)
  unposted y s hs := by
    rw [hposts]
    by_cases hy : y = x
    · rw [hy, hx] at hs
      rw [← Option.some.inj hs]
      exact fun hmem => h.not_mem_nextStart (h.posts hmem)
    · rw [hothers y hy] at hs
      exact h.unposted y s hs
  runsNodup := by
    rw [hruns]
    exact h.runsNodup
  runs := by
    rw [hruns, hstarts]
    exact fun s hs => List.mem_append_left _ (h.runs hs)
  unrecorded y s hs := by
    rw [hruns]
    by_cases hy : y = x
    · rw [hy, hx] at hs
      rw [← Option.some.inj hs]
      exact fun hmem => h.not_mem_nextStart (h.runs hmem)
    · rw [hothers y hy] at hs
      exact h.unrecorded y s hs

theorem executedAt_append (id : Uuid) (starts : List Start) (s : Start) :
    executedAt id (starts ++ [s]) = executedAt id starts ++ (if s.reportId = id then s.claimed else none).toList := by
  unfold executedAt
  rw [List.filterMap_append, List.filterMap_cons]
  cases if s.reportId = id then s.claimed else none with
  | none => rfl
  | some t => rfl

theorem claims_append_claim (id k : Uuid) (trace : List (Entry Uuid)) (now : Instant) :
    claims id (trace ++ [.claim k now]) = claims id trace ++ (if k = id then some now else none).toList := by
  unfold claims
  rw [List.filterMap_append, List.filterMap_cons]
  show _ ++ _ = _
  by_cases hk : k = id
  · subst hk
    rw [Entry.claims_self, if_pos rfl]
    rfl
  · rw [Entry.claims_of_ne hk, if_neg hk]
    rfl

/-- What starts others does not stand in its own way. -/
theorem unposted_start {p : Place} {s : Start} (h : p.unposted = some s) : p.start = some s := by
  cases p with
  | executing s' d => exact h
  | _ => cases h

theorem unrecorded_start {p : Place} {s : Start} (h : p.unrecorded = some s) : p.start = some s := by
  cases p with
  | executing s' d => exact h
  | posted s' d => exact h
  | _ => cases h

/-- **A run posts**, once. -/
theorem World.Runs.post {s : Start} {d : ScheduledDelivery} (h : w.Runs) (hx : w.place x = .executing s d) :
    ({ w with posts := w.posts ++ [s] }.setPlace x (.posted s d)).Runs := by
  have honward : (w.place x).Onward (.posted s d) := by
    rw [hx]
    exact ⟨fun t ht => ht, nofun, fun t ht => ht⟩
  have hstart : (w.place x).start = some s := by
    rw [hx]
    rfl
  have hmoved : (w.setPlace x (.posted s d)).Runs := h.stays rfl rfl (List.Sublist.refl _)
    (fun _ => List.Sublist.refl _) (onward_setPlace honward)
  refine { hmoved with postsNodup := ?_, posts := ?_, unposted := ?_ }
  · refine List.nodup_append.mpr ⟨h.postsNodup, List.nodup_singleton _, ?_⟩
    intro t ht u hu heq
    rw [List.mem_singleton.mp hu] at heq
    rw [heq] at ht
    exact h.unposted x s (by rw [hx]; rfl) ht
  · intro t ht
    cases List.mem_append.mp ht with
    | inl hold => exact h.posts hold
    | inr hnew =>
      rw [List.mem_singleton.mp hnew]
      exact h.own x s hstart
  · intro y t ht hmem
    have hy : (w.place y).unposted = some t := (onward_setPlace honward y).unposted t ht
    cases List.mem_append.mp hmem with
    | inl hold => exact h.unposted y t hy hold
    | inr hnew =>
      -- it is at its own place only, and that one has posted
      rw [List.mem_singleton.mp hnew] at hy
      have hself : y = x := h.alone y x s (unposted_start hy) hstart
      change ((w.setPlace x (.posted s d)).place y).unposted = some t at ht
      rw [place_setPlace, if_pos hself] at ht
      cases ht

/-- **A run is recorded**, once. -/
theorem World.Runs.record {s : Start} {d : ScheduledDelivery} {outcome : Outcome} {run : DeliveryRun} (h : w.Runs)
    (hrun : run.start = s) (hx : (w.place x).unrecorded = some s) :
    ({ w with runs := w.runs ++ [run] }.setPlace x (.recorded s d outcome)).Runs := by
  have hstart := unrecorded_start hx
  have honward : (w.place x).Onward (.recorded s d outcome) :=
    ⟨fun t ht => (show some s = some t from ht) ▸ hstart, nofun, nofun⟩
  have hmoved : (w.setPlace x (.recorded s d outcome)).Runs := h.stays rfl rfl (List.Sublist.refl _)
    (fun _ => List.Sublist.refl _) (onward_setPlace honward)
  have hruns : (w.runs ++ [run]).map DeliveryRun.start = w.runs.map DeliveryRun.start ++ [s] := by
    rw [List.map_append, ← hrun]
    rfl
  refine { hmoved with runsNodup := ?_, runs := ?_, unrecorded := ?_ }
  · show ((w.runs ++ [run]).map DeliveryRun.start).Nodup
    rw [hruns]
    refine List.nodup_append.mpr ⟨h.runsNodup, List.nodup_singleton _, ?_⟩
    intro t ht u hu heq
    rw [List.mem_singleton.mp hu] at heq
    rw [heq] at ht
    exact h.unrecorded x s hx ht
  · show (w.runs ++ [run]).map DeliveryRun.start ⊆ w.starts
    rw [hruns]
    intro t ht
    cases List.mem_append.mp ht with
    | inl hold => exact h.runs hold
    | inr hnew =>
      rw [List.mem_singleton.mp hnew]
      exact h.own x s hstart
  · intro y t ht
    show t ∉ (w.runs ++ [run]).map DeliveryRun.start
    rw [hruns]
    intro hmem
    have hy : (w.place y).unrecorded = some t := (onward_setPlace honward y).unrecorded t ht
    cases List.mem_append.mp hmem with
    | inl hold => exact h.unrecorded y t hy hold
    | inr hnew =>
      rw [List.mem_singleton.mp hnew] at hy
      have hself : y = x := h.alone y x s (unrecorded_start hy) hstart
      change ((w.setPlace x (.recorded s d outcome)).place y).unrecorded = some t at ht
      rw [place_setPlace, if_pos hself] at ht
      cases ht

/-! ### All statements. -/

/-- **The invariant.** -/
structure World.Inv (w : World) : Prop where
  schedule : w.Claims
  execution : w.Runs

/-- No report, no claim. -/
theorem World.Inv.initial (now : Instant) : (World.initial now).Inv where
  schedule := ⟨trivial, rfl, nofun, nofun⟩
  execution := ⟨fun _ => List.Sublist.refl _, nofun, List.nodup_nil, nofun, nofun, List.nodup_nil, List.nil_subset _, nofun,
    List.nodup_nil, List.nil_subset _, nofun⟩

/-- **What nobody's claims and runs are about.** -/
theorem World.Inv.frame (h : w.Inv) (htrace : w'.trace = w.trace) (hslots : w'.slot = w.slot)
    (hholder : w'.holder = w.holder) (hstarts : w'.starts = w.starts) (hposts : w'.posts = w.posts)
    (hruns : (w'.runs.map DeliveryRun.start).Sublist (w.runs.map DeliveryRun.start))
    (hclaiming : ∀ y c, (w'.place y).claiming = some c → (w.place y).claiming = some c)
    (hplace : ∀ y, (w.place y).Onward (w'.place y)) : w'.Inv where
  schedule := h.schedule.stays htrace hslots fun y now d hy => ⟨hclaiming y _ hy, by rw [hholder]⟩
  execution := h.execution.stays hstarts hposts hruns (fun id => by rw [htrace]) hplace

theorem claiming_setPlace (h : ∀ c, place.claiming = some c → (w.place x).claiming = some c) (y : Nat)
    (c : Instant × ScheduledDelivery) (hy : ((w.setPlace x place).place y).claiming = some c) :
    (w.place y).claiming = some c := by
  rw [place_setPlace] at hy
  by_cases hyx : y = x
  · rw [if_pos hyx] at hy
    rw [hyx]
    exact h c hy
  · rw [if_neg hyx] at hy
    exact hy

theorem claiming_of_none {c : Instant × ScheduledDelivery} {y : Nat}
    (hy : ((w.setPlace x place).place y).claiming = some c) (hnone : place.claiming = none) :
    (w.place y).claiming = some c := by
  refine claiming_setPlace (fun c hc => ?_) y c hy
  rw [hnone] at hc
  cases hc

/-- A process goes on. -/
theorem World.Inv.goes (h : w.Inv) (hclaiming : ∀ c, place.claiming = some c → (w.place x).claiming = some c)
    (honward : (w.place x).Onward place) : (w.setPlace x place).Inv :=
  h.frame rfl rfl rfl rfl rfl (List.Sublist.refl _) (claiming_setPlace hclaiming) (onward_setPlace honward)

/-- **A transaction ends, or the process is gone.** -/
theorem World.Inv.ends (h : w.Inv) : ((w.free x).setPlace x .idle).Inv where
  schedule := h.schedule.free rfl
  execution := h.execution.stays rfl rfl (List.Sublist.refl _) (fun _ => List.Sublist.refl _)
    (onward_setPlace (w := w.free x) (.of_none rfl rfl rfl))

/-- A report is read. -/
theorem World.Inv.select {now : Instant} {id : Uuid} {r : ScheduledReport} (h : w.Inv)
    (hr : w.reports.lookup id = some r) (hdue : w.due now id r = true) :
    ({ w with holder := Function.update w.holder id (some x) }.setPlace x (.selected now (r.delivery id))).Inv where
  schedule := h.schedule.select hr hdue
  execution := h.execution.stays rfl rfl (List.Sublist.refl _) (fun _ => List.Sublist.refl _)
    (onward_setPlace (w := { w with holder := Function.update w.holder id (some x) }) (.of_none rfl rfl rfl))

/-- A report is saved. -/
theorem World.Inv.writeReport {id : Uuid} {r : ScheduledReport} (h : w.Inv)
    (hfree : ∀ y, w.holder id = some y → w.slot id = none) (hlasts : 5 ≤ r.intervalMinutes) :
    (w.writeReport id r).Inv where
  schedule := h.schedule.writeReport hfree hlasts
  execution := h.execution.stays rfl rfl (List.Sublist.refl _) (fun id => claims_sublist id) fun _ => .refl _

/-- Reports go. -/
theorem World.Inv.dropReports {picked : Uuid → ScheduledReport → Bool} (h : w.Inv)
    (hunlocked : w.unlocked picked = true) : (w.dropReports picked).Inv where
  schedule := h.schedule.dropReports hunlocked
  execution := by
    refine h.execution.stays rfl rfl ?_ (fun id => claims_sublist id) fun _ => .refl _
    show ((w.runs.map _).map DeliveryRun.start).Sublist _
    rw [List.map_map]
    exact List.Sublist.refl _

/-- Channels go, with their reports. -/
theorem World.Inv.dropChannels (h : w.Inv) (picked : Uuid → DeliveryChannel → Bool) : (w.dropChannels picked).Inv := by
  refine h.frame rfl rfl rfl rfl rfl ?_ (fun _ _ hy => hy) fun _ => .refl _
  show ((w.runs.map _).map DeliveryRun.start).Sublist _
  rw [List.map_map]
  exact List.Sublist.refl _

/-- **A claim takes effect**, and its run starts. -/
theorem World.Inv.commit {now : Instant} {d : ScheduledDelivery} (h : w.Inv) (hx : w.place x = .updated now d) :
    (((w.claim now d).free x).startRun x d (some now)).Inv where
  schedule := by
    refine h.schedule.claim (x := x) (by rw [hx]; rfl) rfl rfl rfl ?_ fun y hy => Function.update_of_ne hy _ w.place
    show (Function.update w.place x _ x).claiming = none
    rw [Function.update_self]
    rfl
  execution := by
    refine h.execution.start (x := x) (d := d) rfl rfl rfl (fun id => ?_) (Function.update_self x _ w.place)
      fun y hy => Function.update_of_ne hy _ w.place
    show (executedAt id (w.starts ++ [w.nextStart d (some now)])).Sublist (claims id (w.trace ++ [.claim d.reportId now]))
    rw [executedAt_append, claims_append_claim]
    exact (h.execution.executed id).append (List.Sublist.refl _)

/-- A claim takes effect, and the process is gone. -/
theorem World.Inv.lost {now : Instant} {d : ScheduledDelivery} (h : w.Inv) (hx : w.place x = .updated now d) :
    (((w.claim now d).free x).setPlace x .idle).Inv where
  schedule := by
    refine h.schedule.claim (x := x) (by rw [hx]; rfl) rfl rfl rfl ?_ fun y hy => Function.update_of_ne hy _ w.place
    show (Function.update w.place x _ x).claiming = none
    rw [Function.update_self]
    rfl
  execution := h.execution.stays rfl rfl (List.Sublist.refl _) (fun id => claims_sublist id)
    (onward_setPlace (w := (w.claim now d).free x) (.of_none rfl rfl rfl))

/-- **A run is asked for by hand.** -/
theorem World.Inv.startRun {d : ScheduledDelivery} (h : w.Inv) : (w.startRun x d none).Inv where
  schedule := by
    refine h.schedule.stays rfl rfl fun y now d' hy => ⟨?_, rfl⟩
    exact claiming_of_none (w := { w with starts := w.starts ++ [w.nextStart d none] }) hy rfl
  execution := by
    refine h.execution.start (x := x) (d := d) rfl rfl rfl (fun id => ?_) (Function.update_self x _ w.place)
      fun y hy => Function.update_of_ne hy _ w.place
    show (executedAt id (w.starts ++ [w.nextStart d none])).Sublist (claims id w.trace)
    rw [executedAt_append]
    have hnone : (if (w.nextStart d none).reportId = id then (w.nextStart d none).claimed else none).toList = [] := by
      split
      · rfl
      · rfl
    rw [hnone, List.append_nil]
    exact h.execution.executed id

/-- A report's other columns. -/
theorem World.Inv.note {id : Uuid} {f : ScheduledReport → ScheduledReport} (h : w.Inv)
    (hf : ∀ r, (f r).slot = r.slot) : (w.note id f).Inv :=
  h.frame rfl (slot_note hf) rfl rfl rfl (List.Sublist.refl _) (fun _ _ hy => hy) fun _ => .refl _

/-- The payload is posted. -/
theorem World.Inv.post {s : Start} {d : ScheduledDelivery} (h : w.Inv) (hx : w.place x = .executing s d) :
    ({ w with posts := w.posts ++ [s] }.setPlace x (.posted s d)).Inv where
  schedule := by
    refine h.schedule.stays rfl rfl fun y now d' hy => ⟨?_, rfl⟩
    exact claiming_of_none (w := { w with posts := w.posts ++ [s] }) hy rfl
  execution := h.execution.post hx

/-- The outcome is recorded. -/
theorem World.Inv.record {s : Start} {d : ScheduledDelivery} {outcome : Outcome} (h : w.Inv)
    (hx : (w.place x).unrecorded = some s) (writes : Bool) :
    ((if writes then w.insertRun s d outcome else w).setPlace x (.recorded s d outcome)).Inv := by
  have hgoes : (w.setPlace x (.recorded s d outcome)).Inv := by
    refine h.goes (fun c hc => ?_) ⟨fun t ht => ?_, nofun, nofun⟩
    · cases hc
    rw [← show some s = some t from ht]
    exact unrecorded_start hx
  unfold World.insertRun
  split
  · split
    · refine ⟨?_, h.execution.record rfl hx⟩
      refine h.schedule.stays rfl rfl fun y now d' hy => ⟨?_, rfl⟩
      exact claiming_of_none (w := { w with runs := _ }) hy rfl
    · exact hgoes
  · exact hgoes

/-- Nobody is at a place of the transaction, where somebody is elsewhere. -/
theorem World.Inv.rests (h : w.Inv) (hnone : place.claiming = none) (hstart : place.start = none)
    (hunposted : place.unposted = none) (hunrecorded : place.unrecorded = none) : (w.setPlace x place).Inv := by
  refine h.goes (fun c hc => ?_) (.of_none hstart hunposted hunrecorded)
  rw [hnone] at hc
  cases hc

theorem ScheduleInput.interval_of_valid {i : ScheduleInput} (h : i.valid = true) : 5 ≤ i.intervalMinutes := by
  unfold ScheduleInput.valid at h
  simp only [Bool.and_eq_true, decide_eq_true_eq] at h
  exact h.1.1.2

/-- **Every statement keeps the invariant.** -/
theorem step_inv (h : w.Inv) (a : Action) : (w.step a).Inv := by
  cases a with
  | tick elapsed =>
    exact h.frame rfl rfl rfl rfl rfl (List.Sublist.refl _) (fun _ _ hy => hy) fun _ => .refl _
  | settings enabled =>
    exact h.frame rfl rfl rfl rfl rfl (List.Sublist.refl _) (fun _ _ hy => hy) fun _ => .refl _
  | saveSite id active =>
    exact h.frame rfl rfl rfl rfl rfl (List.Sublist.refl _) (fun _ _ hy => hy) fun _ => .refl _
  | deleteSite id =>
    dsimp only [World.step]
    split
    next hunlocked =>
      refine ((h.dropReports hunlocked).dropChannels fun _ c => c.siteId = id).frame rfl rfl rfl rfl rfl ?_
        (fun _ _ hy => hy) fun _ => .refl _
      exact List.filter_sublist.map _
    next => exact h
  | saveChannel id siteId active =>
    have hframe : ∀ channels, ({ w with channels := channels } : World).Inv := fun channels =>
      h.frame rfl rfl rfl rfl rfl (List.Sublist.refl _) (fun _ _ hy => hy) fun _ => .refl _
    dsimp only [World.step]
    split
    · split
      · exact hframe _
      · exact h
    · split
      · exact hframe _
      · exact h
  | deleteChannel id siteId =>
    dsimp only [World.step]
    split
    · split
      next hguard => exact (h.dropReports hguard.2).dropChannels _
      next => exact h
    · exact h
  | insertReport id siteId input clock =>
    dsimp only [World.step]
    split
    next hguard =>
      refine h.writeReport (fun _ _ => ?_) (ScheduleInput.interval_of_valid hguard.1)
      unfold World.slot
      rw [AList.lookup_eq_none.mpr hguard.2.1]
      rfl
    next => exact h
  | updateReport id siteId input clock =>
    dsimp only [World.step]
    split
    · split
      next hguard =>
        refine h.writeReport (fun y hy => ?_) (ScheduleInput.interval_of_valid hguard.1)
        rw [hguard.2.2.2] at hy
        cases hy
      next => exact h
    · exact h
  | deleteReport id siteId =>
    dsimp only [World.step]
    split
    next hunlocked => exact h.dropReports hunlocked
    next => exact h
  | config x =>
    dsimp only [World.step]
    split
    · split
      · exact h.rests rfl rfl rfl rfl
      · exact h
    · exact h
  | begin x =>
    dsimp only [World.step]
    split
    · exact h.rests rfl rfl rfl rfl
    · exact h
  | select x picked =>
    cases picked with
    | none =>
      dsimp only [World.step]
      split
      · split
        · exact h.rests rfl rfl rfl rfl
        · exact h
      · exact h
    | some id =>
      dsimp only [World.step]
      split
      next hr =>
        split
        next hguard => exact h.select hr hguard.1
        next => exact h
      next => exact h
  | update x =>
    dsimp only [World.step]
    split
    next now d hx =>
      refine h.goes (fun c hc => ?_) (.of_none rfl rfl rfl)
      rw [hx]
      exact hc
    next => exact h
  | commit x =>
    dsimp only [World.step]
    split
    next hx => exact h.commit hx
    next => exact h
  | lost x =>
    dsimp only [World.step]
    split
    next hx => exact h.lost hx
    next => exact h
  | rollback x =>
    dsimp only [World.step]
    split
    · exact h.rests rfl rfl rfl rfl
    · exact h.rests rfl rfl rfl rfl
    · exact h.ends
    · exact h.ends
    · exact h
  | request x id =>
    dsimp only [World.step]
    split
    · split
      · exact h.rests rfl rfl rfl rfl
      · exact h
    · exact h
  | mark x writes =>
    dsimp only [World.step]
    split
    · split
      · exact h.startRun
      · split
        · refine World.Inv.startRun (World.Inv.note h ?_)
          intro r
          rfl
        · exact h
    · exact h
  | post x =>
    dsimp only [World.step]
    split
    next hx => exact h.post hx
    next => exact h
  | record x outcome writes =>
    dsimp only [World.step]
    split
    next hx =>
      split
      · exact h.record (by rw [hx]; rfl) writes
      · exact h
    next hx =>
      split
      · exact h.record (by rw [hx]; rfl) writes
      · exact h
    next => exact h
  | finish x writes =>
    dsimp only [World.step]
    split
    · split
      · exact h.rests rfl rfl rfl rfl
      · split
        · refine World.Inv.rests (World.Inv.note h ?_) rfl rfl rfl rfl
          intro r
          rfl
        · exact h
    · exact h
  | crash x => exact h.ends

/-! ## §8. Runs. -/

theorem lasts_foldl {trace : List (Entry Uuid)} {slots : Uuid → Option Slot} {id : Uuid} {slot : Slot}
    (hlasts : ∀ e ∈ trace, Lasts e) (hslots : ∀ id slot, slots id = some slot → minutes 5 ≤ slot.every)
    (h : trace.foldl Timetable.step slots id = some slot) : minutes 5 ≤ slot.every := by
  induction trace generalizing slots with
  | nil => exact hslots id slot h
  | cons e trace ih =>
    refine ih (fun e' he' => hlasts e' (List.mem_cons_of_mem _ he')) (fun id' slot' hslot' => ?_) h
    cases e with
    | set k s =>
      by_cases hk : id' = k
      · rw [hk] at hslot'
        rw [← Option.some.inj ((Function.update_self k _ slots).symm.trans hslot')]
        exact hlasts _ List.mem_cons_self
      · exact hslots id' slot' ((Function.update_of_ne hk _ slots).symm.trans hslot')
    | claim k time =>
      by_cases hk : id' = k
      · rw [hk] at hslot'
        obtain ⟨s, hs, heq⟩ := Option.map_eq_some_iff.mp ((Function.update_self k _ slots).symm.trans hslot')
        rw [← heq]
        exact hslots k s hs
      · exact hslots id' slot' ((Function.update_of_ne hk _ slots).symm.trans hslot')
    | remove picked =>
      change (if picked id' = true then none else slots id') = some slot' at hslot'
      split at hslot'
      · cases hslot'
      · exact hslots id' slot' hslot'

/-- Claims keep the report's interval. -/
theorem World.Inv.spaced (h : w.Inv) {id : Uuid} {before after : List (Entry Uuid)} {slot : Slot}
    (htrace : w.trace = before ++ after) (hslot : before.foldl Timetable.step (fun _ => none) id = some slot)
    (hset : ∀ e ∈ after, e.resets id = false) :
    List.IsChain (fun a b => a + slot.every ≤ b) ((slot.next - slot.every) :: Timetable.claims id after)
      ∧ w.slot id
        = some { slot with next := ((Timetable.claims id after).getLast?).elim slot.next (· + slot.every) } := by
  have hlegal := h.schedule.legal
  rw [htrace, along_append] at hlegal
  obtain ⟨hchain, hlast⟩ := claims_spaced hslot hset hlegal.2
  refine ⟨hchain, ?_⟩
  rw [h.schedule.slots, htrace, List.foldl_append]
  exact hlast

/-- **Reports are claimed by one process at a time, an interval apart, and posted once**,
in whatever order the statements of any number of processes run. -/
theorem deliveries_sound (now : Instant) (actions : List Action) :
    (actions.foldl World.step (World.initial now)).Sound := by
  have h : (actions.foldl World.step (World.initial now)).Inv :=
    along_induction (C := fun _ _ => True) (I := World.Inv) (fun _ a h _ => step_inv h a) actions (World.Inv.initial now)
      (along_of_forall actions fun _ _ _ => trivial)
  refine
    { exclusive := fun x y now now' d d' hx hy hsame => h.schedule.alone hx hy hsame
      slots := fun id => congrFun h.schedule.slots id
      spaced := fun id before after slot htrace hslot hset => h.spaced htrace hslot hset
      window := ?_
      executed := h.execution.executed
      starts := h.execution.nodup
      posts := ⟨h.execution.postsNodup, h.execution.posts⟩
      runs := ⟨h.execution.runsNodup, h.execution.runs⟩ }
  intro id before after slot first last htrace hslot hset hle
  have hevery : minutes 5 ≤ slot.every := by
    refine lasts_foldl (fun e he => h.schedule.lasts e ?_) (fun _ _ hnone => ?_) hslot
    · rw [htrace]
      exact List.mem_append_left _ he
    · cases hnone
  exact length_window_le (lt_of_lt_of_le (by decide) hevery) hle (h.spaced htrace hslot hset).1

/-- Two processes look for the same report: one of them has it. -/
def raceRun : List Action :=
  [.settings true, .saveSite ⟨1⟩ true, .saveChannel ⟨2⟩ ⟨1⟩ true,
    .insertReport ⟨3⟩ ⟨1⟩ ⟨⟨2⟩, "weekly", "overview", none, 60, none, none⟩ 0,
    .config 0, .config 1, .begin 0, .begin 1, .select 0 (some ⟨3⟩), .select 1 (some ⟨3⟩), .update 0, .update 1, .commit 0, .commit 1,
    .post 0, .record 0 (.success 200) true, .finish 0 true]

example : let w := raceRun.foldl World.step (World.initial 7)
    claims ⟨3⟩ w.trace = [7] ∧ w.posts.length = 1 ∧ w.slot ⟨3⟩ = some ⟨7 + minutes 60, minutes 60⟩ := by
  decide +kernel

end

end Momento.Deliveries
