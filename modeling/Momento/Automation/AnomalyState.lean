/-
  Momento.Automation.AnomalyState

  **THE ANOMALY SCHEDULE, STATEMENT BY STATEMENT.**  A schedule of kind `anomaly`
  evaluates a report, reads what is already known of each metric, writes one alert row
  per transition — each its own statement, in no transaction — and posts the
  transitions that are to be announced.

  Several evaluations may be under way at once: two schedules of one site, or one
  started by hand.  They interleave between any two statements, and each may end in an
  error at any of them.  The numbers and texts of a transition (`robust_z`, label,
  evidence, action) are copied from the report to the payload, and steer nothing.
-/
import Momento.Foundation.Runs
import Momento.Foundation.Table
import Momento.Model.Platform

namespace Momento.Automation

open Foundation

/-! ## §1. What is known and what was found. -/

/-- What an anomaly is announced as. -/
inductive Severity
  | critical
  | warning
  | positive
  deriving DecidableEq

/-- What `AnomalyStates` reads of a detection. -/
structure Anomaly where
  metric : String
  severity : Severity
  deriving DecidableEq

/-- `AnomalyReport`: every watched metric is judged once. -/
structure AnomalyReport where
  evaluatedDate : Date
  detected : List Anomaly
  judgedOnce : (detected.map Anomaly.metric).Nodup

/-- The key of `anomaly_alerts`. -/
structure AlertKey where
  siteId : Uuid
  environment : String
  metric : String
  deriving DecidableEq

/-- A row of `anomaly_alerts`. -/
structure AlertRow where
  severity : Severity
  firstDetectedOn : Date
  lastDetectedOn : Date
  notifiedOn : Option Date
  resolvedOn : Option Date
  deriving DecidableEq

/-- `anomaly_alerts`. -/
abbrev Alerts := Table AlertKey AlertRow

/-- The days from the first detection to the last, both counted. -/
def AlertRow.daysOpen (row : AlertRow) : Int := row.lastDetectedOn - row.firstDetectedOn + 1

/-- What a detection is to what was known. -/
inductive TransitionState
  | new
  | ongoing
  | recovered
  deriving DecidableEq

def TransitionState.text : TransitionState → String
  | .new => "new"
  | .ongoing => "ongoing"
  | .recovered => "recovered"

/-- What is to be written, and whether to announce it. -/
structure AnomalyTransition where
  metric : String
  state : TransitionState
  severity : Severity
  daysOpen : Int
  notifiable : Bool
  deriving DecidableEq

/-- What a schedule's definition says. -/
structure Schedule where
  siteId : Uuid
  environment : String
  /-- The texts among `notify_on`. -/
  notifyOn : List String
  alwaysSend : Bool

/-- `NotifiableStates()` where the definition names none. -/
def Schedule.notifiableStates (s : Schedule) : List String :=
  if s.notifyOn = [] then ["new", "recovered"] else s.notifyOn

/-- The alert of a metric in the schedule's site and environment. -/
def Schedule.key (s : Schedule) (metric : String) : AlertKey := ⟨s.siteId, s.environment, metric⟩

/-! ## §2. The transitions. -/

/-- The order in which Go walks a map: any. -/
structure MapOrder where
  arrange : List (String × AlertRow) → List (String × AlertRow)
  perm : ∀ rows, (arrange rows).Perm rows

section
variable (s : Schedule) (report : AnomalyReport)

/-- The transition is announced: its state is to be, and its metric was not announced
on that day or later. -/
def isNotifiable (known : Option AlertRow) (state : TransitionState) : Bool :=
  decide (state.text ∈ s.notifiableStates)
    && (state = .recovered
      || !(known.bind AlertRow.notifiedOn).elim false fun day => decide (report.evaluatedDate ≤ day))

/-- The transition of a metric that deviates to the bad side. -/
def detectedTransition (known : Option AlertRow) (anomaly : Anomaly) : AnomalyTransition :=
  match known with
  | some row =>
    if row.resolvedOn = none then
      { metric := anomaly.metric, state := .ongoing, severity := anomaly.severity
        daysOpen := if row.lastDetectedOn < report.evaluatedDate then row.daysOpen + 1 else row.daysOpen
        notifiable := isNotifiable s report known .ongoing }
    else
      { metric := anomaly.metric, state := .new, severity := anomaly.severity, daysOpen := 1
        notifiable := isNotifiable s report known .new }
  | none =>
    { metric := anomaly.metric, state := .new, severity := anomaly.severity, daysOpen := 1
      notifiable := isNotifiable s report known .new }

/-- The transition of an open metric that was not detected any more. -/
def recoveredTransition (metric : String) (row : AlertRow) : AnomalyTransition where
  metric := metric
  state := .recovered
  severity := row.severity
  daysOpen := row.daysOpen
  notifiable := isNotifiable s report (some row) .recovered

/-- The rows of the schedule's site and environment, by metric. -/
def anomalyStates (alerts : Alerts) : List (String × AlertRow) :=
  alerts.entries.filterMap fun e =>
    if e.1.siteId = s.siteId ∧ e.1.environment = s.environment then some (e.1.metric, e.2) else none

/-- `AnnotateStates`, each transition with the `Notifiable` it ends up with. -/
def annotateStates (order : MapOrder) (alerts : Alerts) : List AnomalyTransition :=
  (report.detected.filterMap fun anomaly =>
      if anomaly.severity = .positive then none
      else some (detectedTransition s report (alerts.lookup (s.key anomaly.metric)) anomaly))
    ++ (order.arrange (anomalyStates s alerts)).filterMap fun known =>
        if known.1 ∈ report.detected.map Anomaly.metric ∨ known.2.resolvedOn ≠ none then none
        else some (recoveredTransition s report known.1 known.2)

/-- The statement `ApplyAnomalyState` sends for a transition. -/
def applyTransition (t : AnomalyTransition) (alerts : Alerts) : Alerts :=
  let notifiedOn := if t.notifiable then some report.evaluatedDate else none
  match t.state with
  | .recovered =>
    alerts.modifyRows fun key row =>
      if key = s.key t.metric ∧ row.resolvedOn = none then
        { row with resolvedOn := some report.evaluatedDate }
      else row
  | _ =>
    alerts.upsert (s.key t.metric)
      { severity := t.severity, firstDetectedOn := report.evaluatedDate
        lastDetectedOn := report.evaluatedDate, notifiedOn := notifiedOn, resolvedOn := none }
      fun row =>
        { severity := t.severity
          firstDetectedOn := if row.resolvedOn = none then row.firstDetectedOn else report.evaluatedDate
          lastDetectedOn := report.evaluatedDate
          notifiedOn := notifiedOn.or row.notifiedOn
          resolvedOn := none }

end

/-! ## §3. Evaluations under way. -/

/-- How far an evaluation is: its report is there, or it is writing, with the
transitions it still has to write and those it will announce. -/
inductive Progress
  | detected
  | applying (left announce : List AnomalyTransition)

/-- An evaluation under way. -/
structure Evaluation where
  schedule : Schedule
  report : AnomalyReport
  progress : Progress

/-- A payload that was posted, as far as the alert state is concerned. -/
structure Announcement where
  siteId : Uuid
  environment : String
  evaluatedDate : Date
  announced : List AnomalyTransition

/-- What it has to announce so far. -/
def Evaluation.announced (e : Evaluation) : List AnomalyTransition :=
  match e.progress with
  | .detected => []
  | .applying _ announce => announce

/-- The payload it would deliver now. -/
def Evaluation.announcement (e : Evaluation) : Announcement :=
  ⟨e.schedule.siteId, e.schedule.environment, e.report.evaluatedDate, e.announced⟩

/-- What comes of a payload: `validateDeliveryEndpoint`, `deliveryHeaders`, and
`postDelivery` may each end it. -/
inductive DeliveryOutcome
  | endpointRefused
  | headersUnreadable
  | unreachable
  | answered (status : Nat)
  deriving DecidableEq

/-- The endpoint took it. -/
def DeliveryOutcome.successful : DeliveryOutcome → Bool
  | .answered status => 200 ≤ status && status < 300
  | _ => false

/-- The alerts, the evaluations under way and what has arrived. -/
structure World where
  alerts : Alerts
  underWay : List Evaluation
  /-- The payloads that were delivered.  No table holds them. -/
  delivered : List Announcement

def World.initial : World := ⟨∅, [], []⟩

/-- The statements of evaluations, in any order. -/
inductive Action
  | start (schedule : Schedule) (report : AnomalyReport)
  /-- `AnomalyStates`. -/
  | read (i : Nat) (order : MapOrder)
  /-- The `i`-th evaluation's next statement. -/
  | write (i : Nat)
  /-- The `i`-th evaluation ends in an error, wherever it is. -/
  | fail (i : Nat)
  | deliver (i : Nat) (outcome : DeliveryOutcome)

namespace World

/-- The evaluation goes on. -/
def setProgress (i : Nat) (e : Evaluation) (progress : Progress) (w : World) : World :=
  { w with underWay := w.underWay.set i { e with progress := progress } }

/-- `AnomalyStates`: what is known is read, and the transitions follow. -/
def read (i : Nat) (order : MapOrder) (w : World) : World :=
  match w.underWay[i]? with
  | some ⟨schedule, report, .detected⟩ =>
    w.setProgress i ⟨schedule, report, .detected⟩
      (.applying (annotateStates schedule report order w.alerts) [])
  | _ => w

/-- One transition is written. -/
def write (i : Nat) (w : World) : World :=
  match w.underWay[i]? with
  | some ⟨schedule, report, .applying (t :: left) announce⟩ =>
    { w with alerts := applyTransition schedule report t w.alerts }.setProgress i
      ⟨schedule, report, .applying (t :: left) announce⟩
      (.applying left (if t.notifiable then announce ++ [t] else announce))
  | _ => w

/-- The evaluation is over. -/
def fail (i : Nat) (w : World) : World := { w with underWay := w.underWay.eraseIdx i }

/-- `ErrSkipDelivery`, or the payload and what comes of it. -/
def deliver (i : Nat) (outcome : DeliveryOutcome) (w : World) : World :=
  match w.underWay[i]? with
  | some ⟨schedule, report, .applying [] announce⟩ =>
    if (announce = [] ∧ ¬schedule.alwaysSend) ∨ !outcome.successful then w.fail i
    else
      { w.fail i with
        delivered := w.delivered ++
          [Evaluation.announcement ⟨schedule, report, .applying [] announce⟩] }
  | _ => w

end World

/-- **A step.** -/
def step (w : World) : Action → World
  | .start schedule report => { w with underWay := w.underWay ++ [⟨schedule, report, .detected⟩] }
  | .read i order => w.read i order
  | .write i => w.write i
  | .fail i => w.fail i
  | .deliver i outcome => w.deliver i outcome

/-- The steps in order. -/
def run (w : World) (actions : List Action) : World := actions.foldl step w

/-! ## §4. One metric at a time. -/

section
variable (s : Schedule) (report : AnomalyReport)

/-- The row of a transition's metric after its statement. -/
def rowAfter (t : AnomalyTransition) (known : Option AlertRow) : Option AlertRow :=
  let notifiedOn := if t.notifiable then some report.evaluatedDate else none
  match t.state with
  | .recovered =>
    known.map fun row =>
      if row.resolvedOn = none then { row with resolvedOn := some report.evaluatedDate } else row
  | _ =>
    some
      { severity := t.severity
        firstDetectedOn := known.elim report.evaluatedDate fun row =>
          if row.resolvedOn = none then row.firstDetectedOn else report.evaluatedDate
        lastDetectedOn := report.evaluatedDate
        notifiedOn := notifiedOn.or (known.bind AlertRow.notifiedOn)
        resolvedOn := none }

theorem lookup_applyTransition_self (t : AnomalyTransition) (alerts : Alerts) :
    (applyTransition s report t alerts).lookup (s.key t.metric)
      = rowAfter report t (alerts.lookup (s.key t.metric)) := by
  unfold applyTransition rowAfter
  cases t.state with
  | recovered =>
    simp only
    rw [Table.lookup_modifyRows]
    simp
  | new =>
    simp only [Table.lookup_upsert_self]
    cases alerts.lookup (s.key t.metric) with
    | none => simp
    | some row => by_cases hopen : row.resolvedOn = none <;> simp [hopen]
  | ongoing =>
    simp only [Table.lookup_upsert_self]
    cases alerts.lookup (s.key t.metric) with
    | none => simp
    | some row => by_cases hopen : row.resolvedOn = none <;> simp [hopen]

theorem lookup_applyTransition_of_ne {t : AnomalyTransition} {key : AlertKey}
    (h : key ≠ s.key t.metric) (alerts : Alerts) :
    (applyTransition s report t alerts).lookup key = alerts.lookup key := by
  unfold applyTransition
  cases t.state with
  | new => exact Table.lookup_upsert_of_ne h _ _ _
  | ongoing => exact Table.lookup_upsert_of_ne h _ _ _
  | recovered =>
    rw [Table.lookup_modifyRows]
    simp [h]

/-- Writing a transition twice is writing it once. -/
theorem rowAfter_rowAfter (t : AnomalyTransition) (known : Option AlertRow) :
    rowAfter report t (rowAfter report t known) = rowAfter report t known := by
  unfold rowAfter
  cases t.state with
  | recovered =>
    cases known with
    | none => rfl
    | some row => by_cases hopen : row.resolvedOn = none <;> simp [hopen]
  | new => cases t.notifiable <;> simp
  | ongoing => cases t.notifiable <;> simp

/-- A detection leaves an open row, announced today or when it was. -/
theorem rowAfter_detected {t : AnomalyTransition} (h : t.state ≠ .recovered) (known : Option AlertRow) :
    ∃ row, rowAfter report t known = some row ∧ row.resolvedOn = none
      ∧ row.notifiedOn = if t.notifiable then some report.evaluatedDate
          else known.bind AlertRow.notifiedOn := by
  unfold rowAfter
  cases hstate : t.state with
  | recovered => exact absurd hstate h
  | new => exact ⟨_, rfl, rfl, by cases t.notifiable <;> simp⟩
  | ongoing => exact ⟨_, rfl, rfl, by cases t.notifiable <;> simp⟩

/-- The statements of a list of transitions, in order. -/
def applyAll (transitions : List AnomalyTransition) (alerts : Alerts) : Alerts :=
  transitions.foldl (fun alerts t => applyTransition s report t alerts) alerts

/-- A metric no transition is about keeps its row. -/
theorem lookup_applyAll_of_untouched {metric : String} (transitions : List AnomalyTransition)
    (h : ∀ t ∈ transitions, t.metric ≠ metric) (alerts : Alerts) :
    (applyAll s report transitions alerts).lookup (s.key metric) = alerts.lookup (s.key metric) := by
  induction transitions generalizing alerts with
  | nil => rfl
  | cons t rest ih =>
    have hne : s.key metric ≠ s.key t.metric := by
      intro hkey
      exact h t List.mem_cons_self (AlertKey.mk.inj hkey).2.2.symm
    have hrest := ih (fun t' ht' => h t' (List.mem_cons_of_mem _ ht')) (applyTransition s report t alerts)
    exact hrest.trans (lookup_applyTransition_of_ne s report hne alerts)

/-- A metric one transition is about has the row it leaves. -/
theorem lookup_applyAll_of_mem {t : AnomalyTransition} (transitions : List AnomalyTransition)
    (ht : t ∈ transitions) (h : ∀ t' ∈ transitions, t'.metric = t.metric → t' = t) (alerts : Alerts) :
    (applyAll s report transitions alerts).lookup (s.key t.metric)
      = rowAfter report t (alerts.lookup (s.key t.metric)) := by
  -- on the list; what comes after `t` is about other metrics, or is `t` again
  induction transitions generalizing alerts with
  | nil => exact absurd ht List.not_mem_nil
  | cons x rest ih =>
    have hrest : ∀ t' ∈ rest, t'.metric = t.metric → t' = t :=
      fun t' ht' => h t' (List.mem_cons_of_mem _ ht')
    have hhead : (applyTransition s report x alerts).lookup (s.key t.metric)
        = if x.metric = t.metric then rowAfter report t (alerts.lookup (s.key t.metric))
          else alerts.lookup (s.key t.metric) := by
      by_cases hmetric : x.metric = t.metric
      · rw [if_pos hmetric, h x List.mem_cons_self hmetric]
        exact lookup_applyTransition_self s report t alerts
      · rw [if_neg hmetric]
        refine lookup_applyTransition_of_ne s report (fun hkey => ?_) alerts
        exact hmetric (AlertKey.mk.inj hkey).2.2.symm
    show (applyAll s report rest (applyTransition s report x alerts)).lookup (s.key t.metric) = _
    by_cases hmem : t ∈ rest
    · rw [ih hmem hrest, hhead]
      split
      · exact rowAfter_rowAfter report t _
      · rfl
    · obtain rfl : t = x := (List.mem_cons.mp ht).resolve_right hmem
      have huntouched : ∀ t' ∈ rest, t'.metric ≠ t.metric :=
        fun t' ht' hmetric => hmem (hrest t' ht' hmetric ▸ ht')
      rw [lookup_applyAll_of_untouched s report rest huntouched, hhead, if_pos rfl]

/-- The transition of a metric, from its own row. -/
def transitionOf (alerts : Alerts) (metric : String) : Option AnomalyTransition :=
  match report.detected.find? fun a => a.metric = metric with
  | some anomaly =>
    if anomaly.severity = .positive then none
    else some (detectedTransition s report (alerts.lookup (s.key metric)) anomaly)
  | none =>
    ((alerts.lookup (s.key metric)).filter fun row => row.resolvedOn = none).map
      (recoveredTransition s report metric)

@[simp] theorem detectedTransition_metric (known : Option AlertRow) (anomaly : Anomaly) :
    (detectedTransition s report known anomaly).metric = anomaly.metric := by
  unfold detectedTransition
  cases known with
  | none => rfl
  | some row => dsimp only; split <;> rfl

theorem mem_anomalyStates {alerts : Alerts} {metric : String} {row : AlertRow} :
    (metric, row) ∈ anomalyStates s alerts ↔ alerts.lookup (s.key metric) = some row := by
  unfold anomalyStates
  rw [List.mem_filterMap]
  constructor
  · rintro ⟨⟨key, r⟩, hmem, hsome⟩
    split at hsome
    next hhere =>
      obtain ⟨rfl, rfl⟩ := Prod.mk.inj (Option.some.inj hsome)
      have hkey : s.key key.metric = key := by
        obtain ⟨siteId, environment, metric⟩ := key
        simp only at hhere
        rw [hhere.1, hhere.2]
        rfl
      rw [hkey]
      exact AList.mem_lookup_iff.mpr hmem
    · cases hsome
  · intro hlookup
    exact ⟨⟨s.key metric, row⟩, AList.mem_lookup_iff.mp hlookup, if_pos ⟨rfl, rfl⟩⟩

/-- **`AnnotateStates`, metric by metric**, whatever the order of the map. -/
theorem mem_annotateStates {order : MapOrder} {alerts : Alerts} {t : AnomalyTransition} :
    t ∈ annotateStates s report order alerts ↔ transitionOf s report alerts t.metric = some t := by
  have hfind : ∀ a ∈ report.detected,
      report.detected.find? (fun b => b.metric = a.metric) = some a := by
    intro a ha
    have hsome : (report.detected.find? fun b => b.metric = a.metric).isSome :=
      List.find?_isSome.mpr ⟨a, ha, decide_eq_true rfl⟩
    obtain ⟨b, hb⟩ := Option.isSome_iff_exists.mp hsome
    have hmetric : b.metric = a.metric := by simpa using List.find?_some hb
    rw [hb, List.inj_on_of_nodup_map report.judgedOnce (List.mem_of_find?_eq_some hb) ha hmetric]
  unfold annotateStates
  rw [List.mem_append, List.mem_filterMap, List.mem_filterMap]
  constructor
  · rintro (⟨a, ha, hsome⟩ | ⟨⟨metric, row⟩, hmem, hsome⟩)
    · split at hsome
      · cases hsome
      next hbad =>
        obtain rfl := Option.some.inj hsome
        rw [transitionOf, detectedTransition_metric, hfind a ha]
        exact if_neg hbad
    · split at hsome
      · cases hsome
      next hgone =>
        rw [not_or, not_not] at hgone
        obtain rfl := Option.some.inj hsome
        have hlookup := (mem_anomalyStates s).mp ((order.perm _).mem_iff.mp hmem)
        have hnone : report.detected.find? (fun a => a.metric = metric) = none := by
          refine List.find?_eq_none.mpr fun a ha hmetric => hgone.1 ?_
          exact List.mem_map.mpr ⟨a, ha, of_decide_eq_true hmetric⟩
        have hopen : row.resolvedOn = none := hgone.2
        show transitionOf s report alerts metric = _
        rw [transitionOf, hnone, hlookup]
        simp [hopen]
  · intro h
    unfold transitionOf at h
    cases hfound : report.detected.find? fun a => a.metric = t.metric with
    | some a =>
      rw [hfound] at h
      left
      have hmetric : a.metric = t.metric := by simpa using List.find?_some hfound
      refine ⟨a, List.mem_of_find?_eq_some hfound, ?_⟩
      rw [hmetric]
      exact h
    | none =>
      rw [hfound] at h
      right
      obtain ⟨row, hrow, ht⟩ := Option.map_eq_some_iff.mp h
      obtain ⟨hlookup, hopen⟩ := Option.filter_eq_some_iff.mp hrow
      refine ⟨(t.metric, row), (order.perm _).mem_iff.mpr ((mem_anomalyStates s).mpr hlookup), ?_⟩
      rw [if_neg, ht]
      rw [not_or, not_not]
      refine ⟨fun hmem => ?_, of_decide_eq_true hopen⟩
      obtain ⟨a, ha, hmetric⟩ := List.mem_map.mp hmem
      exact List.find?_eq_none.mp hfound a ha (decide_eq_true hmetric)

end

end Momento.Automation
