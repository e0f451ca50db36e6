/-
  Momento.Automation.Alternation

  **ANNOUNCEMENTS PAIR UP.**  The watched metrics of a day are judged, the alert rows
  are compared with the verdicts, and what changed is announced.  Under the default
  states to announce, a metric's announcements should read new, recovered, new, …, and
  a recovery should come from a day that was judged and found not bad.

  An open row *is* the last announcement being a new one.  Two things break that: an
  open metric that could not be judged is announced as recovered, and a metric found
  bad again on a day it was already announced on is reopened in silence.
-/
import Momento.Automation.Announcements
import Mathlib.Data.List.Sort
import Mathlib.Algebra.Order.Ring.Rat

namespace Momento.Automation

open Foundation

/-! ## §1. The verdicts of one day. -/

/-- One day of one metric. -/
structure AnomalyPoint (ν : Type) where
  date : Date
  value : ν

/-- What a metric is judged by. -/
structure AnomalyMetric where
  key : String
  badWhenHigher : Bool
  deriving DecidableEq

/-- `Severity` of an anomaly: `unknown`, `insufficient_history`, `normal`, or one that
is worth showing. -/
inductive Verdict
  | unknown
  | insufficientHistory
  | normal
  | found (severity : Severity)
  deriving DecidableEq

/-- The metric had a point and enough history. -/
def Verdict.judged : Verdict → Bool
  | .unknown | .insufficientHistory => false
  | .normal | .found _ => true

/-- It tells of something bad. -/
def Verdict.bad : Verdict → Bool
  | .found severity => severity ≠ .positive
  | _ => false

def minimumBaselineSamples : Nat := 3
def weekdayLookbackWeeks : Int := 8
def fallbackLookbackDays : Int := 28

/-- `WatchedMetrics()`. -/
def watchedMetrics : List AnomalyMetric :=
  [⟨"users", false⟩, ⟨"sessions", false⟩, ⟨"events", false⟩, ⟨"conversions", false⟩, ⟨"errors", true⟩]

section
variable {ν : Type}

/-- Comparable history: the same weekday first, recent days when that is too thin. -/
def baselineFor (series : List (AnomalyPoint ν)) (target : Date) : List (AnomalyPoint ν) :=
  let before := series.filter fun point => point.date < target
  let sameWeekday := before.filter fun point =>
    (target - point.date) % 7 = 0 ∧ target - point.date ≤ weekdayLookbackWeeks * 7
  let recent := before.filter fun point => target - point.date ≤ fallbackLookbackDays
  if minimumBaselineSamples ≤ sameWeekday.length then sameWeekday else recent

/-- What the robust z-score of a value says: nothing, or a severity.  The flag is
`BadWhenHigher`. -/
abbrev RobustZ (ν : Type) := Bool → ν → List ν → Option Severity

/-- `DetectAnomaly`. -/
def detectAnomaly (judge : RobustZ ν) (metric : AnomalyMetric) (series : List (AnomalyPoint ν))
    (target : Date) : Verdict :=
  match series.find? fun point => point.date = target with
  | none => .unknown
  | some point =>
    let baseline := baselineFor series target
    if baseline.length < minimumBaselineSamples then .insufficientHistory
    else
      match judge metric.badWhenHigher point.value (baseline.map AnomalyPoint.value) with
      | none => .normal
      | some severity => .found severity

/-- The order the detected anomalies are sorted in. -/
structure Ranking where
  arrange : List Anomaly → List Anomaly
  perm : ∀ detected, (arrange detected).Perm detected

/-- One evaluation: a schedule of the default states, the daily series of its site and
environment, and the statement of `ApplyAnomalyState` that failed, if one did. -/
structure Evaluate (ν : Type) where
  schedule : Schedule
  defaults : schedule.notifiableStates = ["new", "recovered"]
  series : String → List (AnomalyPoint ν)
  evaluated : Date
  ranking : Ranking
  order : MapOrder
  failedAfter : Option Nat

variable (judge : RobustZ ν)

namespace Evaluate
variable (e : Evaluate ν)

/-- The verdict on a metric; none where it is not watched. -/
def verdict (metric : String) : Option Verdict :=
  (watchedMetrics.find? fun m => m.key = metric).map fun m =>
    detectAnomaly judge m (e.series m.key) e.evaluated

/-- `report.Checked`, as far as it is `report.Detected`. -/
def found : List Anomaly :=
  watchedMetrics.filterMap fun m =>
    match detectAnomaly judge m (e.series m.key) e.evaluated with
    | .found severity => some ⟨m.key, severity⟩
    | _ => none

theorem found_judgedOnce : ((e.found judge).map Anomaly.metric).Nodup := by
  -- the found metrics are watched ones, in their order
  have hsub : ((e.found judge).map Anomaly.metric).Sublist (watchedMetrics.map AnomalyMetric.key) := by
    refine Table.filterMap_sublist (fun m a ha => ?_) watchedMetrics
    split at ha
    · rw [← Option.some.inj ha]
    · cases ha
  exact hsub.nodup (by decide)

/-- `DetectSiteAnomalies`. -/
def detectSiteAnomalies : AnomalyReport where
  evaluatedDate := e.evaluated
  detected := e.ranking.arrange (e.found judge)
  judgedOnce := ((e.ranking.perm _).map _).nodup_iff.mpr (e.found_judgedOnce judge)

end Evaluate

/-! ## §2. Evaluations, one after the other. -/

/-- A transition that was announced, with the verdict of its metric that day. -/
structure Heard where
  key : AlertKey
  state : TransitionState
  verdict : Option Verdict
  deriving DecidableEq

/-- The alert rows, and everything that was announced so far. -/
structure Told where
  alerts : Alerts
  heard : List Heard

/-- Nothing has been said. -/
def Told.nothing : Told := ⟨∅, []⟩

/-- `ApplyAnomalyState`: a statement that fails leaves what was written before it, and
nothing is announced. -/
def evaluate (w : Told) (e : Evaluate ν) : Told :=
  let report := e.detectSiteAnomalies judge
  let transitions := annotateStates e.schedule report e.order w.alerts
  match e.failedAfter with
  | some k => { w with alerts := applyAll e.schedule report (transitions.take k) w.alerts }
  | none =>
    { alerts := applyAll e.schedule report transitions w.alerts
      heard := w.heard ++ (transitions.filter AnomalyTransition.notifiable).map fun t =>
        ⟨e.schedule.key t.metric, t.state, e.verdict judge t.metric⟩ }

end

/-- What was announced of one metric, in order. -/
def statesOf (key : AlertKey) (heard : List Heard) : List TransitionState :=
  heard.filterMap fun h => if h.key = key then some h.state else none

theorem statesOf_cons (key : AlertKey) (h : Heard) (heard : List Heard) :
    statesOf key (h :: heard) = if h.key = key then h.state :: statesOf key heard else statesOf key heard := by
  unfold statesOf
  rw [List.filterMap_cons]
  by_cases hkey : h.key = key
  · rw [if_pos hkey, if_pos hkey]
  · rw [if_neg hkey, if_neg hkey]

/-- One after the other. -/
theorem statesOf_append (key : AlertKey) (heard heard' : List Heard) :
    statesOf key (heard ++ heard') = statesOf key heard ++ statesOf key heard' :=
  List.filterMap_append

/-- new, recovered, new, recovered, … -/
def Alternates (states : List TransitionState) : Prop :=
  ∀ i (h : i < states.length), states[i] = if i % 2 = 0 then .new else .recovered

/-- A recovery was judged, and found not bad. -/
def Heard.Grounded (h : Heard) : Prop :=
  h.state = .recovered → ∃ verdict, h.verdict = some verdict ∧ verdict.judged ∧ ¬verdict.bad

/-- The property. -/
def PairedUp (w : Told) : Prop :=
  (∀ key, Alternates (statesOf key w.heard)) ∧ ∀ h ∈ w.heard, h.Grounded

/-! ## §3. The condition on an evaluation. -/

/-- The alert is known, and not resolved. -/
def Open (known : Option AlertRow) : Prop := ∃ row, known = some row ∧ row.resolvedOn = none

section
variable {ν : Type} (judge : RobustZ ν)

/-- Every open metric was judged, and no resolved one is found bad on a day it was
already announced on; an evaluation that failed had written open metrics only, still
found bad. -/
def TellsAll (w : Told) (e : Evaluate ν) : Prop :=
  match e.failedAfter with
  | none =>
    ∀ metric row, w.alerts.lookup (e.schedule.key metric) = some row →
      if row.resolvedOn = none then ∃ verdict, e.verdict judge metric = some verdict ∧ verdict.judged
      else ∀ verdict day, e.verdict judge metric = some verdict → verdict.bad →
        row.notifiedOn = some day → day < e.evaluated
  | some k =>
    ∀ t ∈ (annotateStates e.schedule (e.detectSiteAnomalies judge) e.order w.alerts).take k,
      Open (w.alerts.lookup (e.schedule.key t.metric))
        ∧ ∃ verdict, e.verdict judge t.metric = some verdict ∧ verdict.bad

/-! ## §4. One metric of one evaluation. -/

namespace Evaluate
variable (e : Evaluate ν)

theorem mem_found {a : Anomaly} :
    a ∈ e.found judge ↔ e.verdict judge a.metric = some (.found a.severity) := by
  have hkeys : ∀ m ∈ watchedMetrics, watchedMetrics.find? (fun m' => m'.key = m.key) = some m := by
    decide
  unfold found verdict
  rw [List.mem_filterMap]
  constructor
  · rintro ⟨m, hm, hfound⟩
    split at hfound
    next severity hverdict =>
      obtain rfl := Option.some.inj hfound
      show (watchedMetrics.find? fun m' => m'.key = m.key).map _ = _
      rw [hkeys m hm, Option.map_some, hverdict]
    · cases hfound
  · intro hverdict
    obtain ⟨m, hfind, hdetect⟩ := Option.map_eq_some_iff.mp hverdict
    have hkey : m.key = a.metric := by simpa using List.find?_some hfind
    exact ⟨m, List.mem_of_find?_eq_some hfind, by rw [hdetect, hkey]⟩

theorem mem_detected {a : Anomaly} :
    a ∈ (e.detectSiteAnomalies judge).detected ↔ e.verdict judge a.metric = some (.found a.severity) :=
  (e.ranking.perm _).mem_iff.trans (e.mem_found judge)

/-- The transition of a metric found bad. -/
theorem transitionOf_bad {alerts : Alerts} {metric : String} {severity : Severity}
    (h : e.verdict judge metric = some (.found severity)) (hbad : severity ≠ .positive) :
    transitionOf e.schedule (e.detectSiteAnomalies judge) alerts metric
      = some (detectedTransition e.schedule (e.detectSiteAnomalies judge)
          (alerts.lookup (e.schedule.key metric)) ⟨metric, severity⟩) := by
  have hmem : (⟨metric, severity⟩ : Anomaly) ∈ (e.detectSiteAnomalies judge).detected :=
    (e.mem_detected judge).mpr h
  have htransition : detectedTransition e.schedule (e.detectSiteAnomalies judge)
        (alerts.lookup (e.schedule.key metric)) ⟨metric, severity⟩
      ∈ annotateStates e.schedule (e.detectSiteAnomalies judge) e.order alerts :=
    List.mem_append_left _ (List.mem_filterMap.mpr ⟨_, hmem, if_neg hbad⟩)
  have hown := (mem_annotateStates e.schedule (e.detectSiteAnomalies judge)).mp htransition
  rw [detectedTransition_metric] at hown
  exact hown

/-- The transition of a metric that was not found. -/
theorem transitionOf_unfound {alerts : Alerts} {metric : String}
    (h : ∀ severity, e.verdict judge metric ≠ some (.found severity)) :
    transitionOf e.schedule (e.detectSiteAnomalies judge) alerts metric
      = ((alerts.lookup (e.schedule.key metric)).filter fun row => row.resolvedOn = none).map
          (recoveredTransition e.schedule (e.detectSiteAnomalies judge) metric) := by
  have hnone : (e.detectSiteAnomalies judge).detected.find? (fun a => a.metric = metric) = none := by
    refine List.find?_eq_none.mpr fun a ha hmetric => ?_
    obtain rfl := of_decide_eq_true hmetric
    exact h a.severity ((e.mem_detected judge).mp ha)
  rw [transitionOf, hnone]

/-- A metric found to deviate to the good side is passed over. -/
theorem transitionOf_positive {alerts : Alerts} {metric : String}
    (h : e.verdict judge metric = some (.found .positive)) :
    transitionOf e.schedule (e.detectSiteAnomalies judge) alerts metric = none := by
  unfold transitionOf
  cases hfind : (e.detectSiteAnomalies judge).detected.find? fun a => a.metric = metric with
  | none =>
    have hmem := (e.mem_detected judge (a := ⟨metric, .positive⟩)).mpr h
    exact absurd (decide_eq_true rfl) (List.find?_eq_none.mp hfind _ hmem)
  | some a =>
    have hmetric : a.metric = metric := by simpa using List.find?_some hfind
    have hverdict := (e.mem_detected judge).mp (List.mem_of_find?_eq_some hfind)
    rw [hmetric, h] at hverdict
    exact if_pos (Verdict.found.inj (Option.some.inj hverdict)).symm

theorem notifiable_iff {known : Option AlertRow} {state : TransitionState} :
    isNotifiable e.schedule (e.detectSiteAnomalies judge) known state = true
      ↔ state = .recovered ∨ state = .new ∧ ¬NotifiedSince (e.detectSiteAnomalies judge) known := by
  rw [isNotifiable_iff, e.defaults]
  cases state <;> simp [TransitionState.text]

end Evaluate

/-- The row a transition leaves, if there is one. -/
def rowLeft (report : AnomalyReport) (t : Option AnomalyTransition) (known : Option AlertRow) :
    Option AlertRow :=
  t.elim known fun t => rowAfter report t known

/-- What a transition says, where it is announced. -/
def saidOf (t : Option AnomalyTransition) : Option TransitionState :=
  (t.filter AnomalyTransition.notifiable).map AnomalyTransition.state

/-- What is said of a metric tells how its row changed. -/
def Tells (before after : Prop) : Option TransitionState → Prop
  | none => before ↔ after
  | some .new => ¬before ∧ after
  | some .recovered => before ∧ ¬after
  | some .ongoing => False

namespace Evaluate
variable (e : Evaluate ν)

/-- **One metric of an evaluation**, none of whose resolved rows is found bad on a day it
was already announced on. -/
theorem tells (alerts : Alerts) (metric : String)
    (h : ∀ row, alerts.lookup (e.schedule.key metric) = some row → row.resolvedOn ≠ none →
      ∀ verdict day, e.verdict judge metric = some verdict → verdict.bad →
        row.notifiedOn = some day → day < e.evaluated) :
    let report := e.detectSiteAnomalies judge
    let known := alerts.lookup (e.schedule.key metric)
    let t := transitionOf e.schedule report alerts metric
    Tells (Open known) (Open (rowLeft report t known)) (saidOf t) := by
  intro report known t
  by_cases hfound : ∃ severity, e.verdict judge metric = some (.found severity)
  · obtain ⟨severity, hverdict⟩ := hfound
    by_cases hgood : severity = .positive
    · subst hgood
      have ht : t = none := e.transitionOf_positive judge hverdict
      rw [ht]
      exact Iff.rfl
    · -- found bad: a row that is open stays so in silence, any other is opened aloud
      have ht : t = some (detectedTransition e.schedule report known ⟨metric, severity⟩) :=
        e.transitionOf_bad judge hverdict hgood
      obtain ⟨hstate, hnotifiable⟩ := detectedTransition_notifiable e.schedule report known ⟨metric, severity⟩
      obtain ⟨row', hrow', hopen', -⟩ := rowAfter_detected report hstate known
      have hafter : Open (rowLeft report t known) := by
        rw [ht]
        exact ⟨row', hrow', hopen'⟩
      by_cases hopen : Open known
      · obtain ⟨row, hrow, hresolved⟩ := hopen
        have hongoing := (detectedTransition_open e.schedule report hresolved ⟨metric, severity⟩).1
        rw [← hrow] at hongoing
        have hquiet : saidOf t = none := by
          have hnot : ¬(detectedTransition e.schedule report known ⟨metric, severity⟩).notifiable := by
            rw [hnotifiable, hongoing, e.notifiable_iff judge]
            simp
          rw [ht, saidOf, Option.filter_some_neg (Bool.eq_false_iff.mpr hnot)]
          rfl
        rw [hquiet]
        exact iff_of_true ⟨row, hrow, hresolved⟩ hafter
      · have hnew : (detectedTransition e.schedule report known ⟨metric, severity⟩).state = .new := by
          unfold detectedTransition
          cases hrow : known with
          | none => rfl
          | some row =>
            dsimp only
            rw [if_neg fun hresolved => hopen ⟨row, hrow, hresolved⟩]
        have hunsaid : ¬NotifiedSince report known := by
          rintro ⟨day, hday, hle⟩
          obtain ⟨row, hrow, hnotified⟩ := Option.bind_eq_some_iff.mp hday
          have hbefore := h row hrow (fun hresolved => hopen ⟨row, hrow, hresolved⟩) _ day hverdict
            (by simpa [Verdict.bad] using hgood) hnotified
          exact absurd hbefore (not_lt.mpr hle)
        have hloud : (detectedTransition e.schedule report known ⟨metric, severity⟩).notifiable := by
          rw [hnotifiable, hnew, e.notifiable_iff judge]
          exact .inr ⟨rfl, hunsaid⟩
        have hsaid : saidOf t = some .new := by
          rw [ht, saidOf, Option.filter_some_pos hloud, Option.map_some, hnew]
        rw [hsaid]
        exact ⟨hopen, hafter⟩
  · -- not found: an open row recovers, which is announced
    rw [not_exists] at hfound
    have ht : t = (known.filter fun row => row.resolvedOn = none).map
        (recoveredTransition e.schedule report metric) := e.transitionOf_unfound judge hfound
    by_cases hopen : Open known
    · obtain ⟨row, hrow, hresolved⟩ := hopen
      rw [hrow, Option.filter_some_pos (by simpa using hresolved), Option.map_some] at ht
      have hloud : (recoveredTransition e.schedule report metric row).notifiable := by
        show isNotifiable e.schedule report (some row) .recovered = true
        rw [e.notifiable_iff judge]
        exact .inl rfl
      have hsaid : saidOf t = some .recovered := by
        rw [ht, saidOf, Option.filter_some_pos hloud]
        rfl
      rw [hsaid]
      refine ⟨⟨row, hrow, hresolved⟩, ?_⟩
      rw [ht, hrow]
      simp [rowLeft, rowAfter, recoveredTransition, hresolved, Open]
    · have hnone : t = none := by
        rw [ht]
        cases hrow : known with
        | none => rfl
        | some row =>
          rw [Option.filter_some_neg (by simpa using fun hresolved => hopen ⟨row, hrow, hresolved⟩)]
          rfl
      rw [hnone]
      exact Iff.rfl

/-- A recovery is of an open metric, not found. -/
theorem transitionOf_recovered {alerts : Alerts} {metric : String} {t : AnomalyTransition}
    (h : transitionOf e.schedule (e.detectSiteAnomalies judge) alerts metric = some t)
    (hstate : t.state = .recovered) :
    Open (alerts.lookup (e.schedule.key metric))
      ∧ ∀ severity, e.verdict judge metric ≠ some (.found severity) := by
  by_cases hfound : ∃ severity, e.verdict judge metric = some (.found severity)
  · obtain ⟨severity, hverdict⟩ := hfound
    by_cases hgood : severity = .positive
    · subst hgood
      rw [e.transitionOf_positive judge hverdict] at h
      cases h
    · rw [e.transitionOf_bad judge hverdict hgood] at h
      obtain rfl := Option.some.inj h
      exact absurd hstate (detectedTransition_notifiable e.schedule _ _ _).1
  · rw [not_exists] at hfound
    rw [e.transitionOf_unfound judge hfound] at h
    obtain ⟨row, hrow, -⟩ := Option.map_eq_some_iff.mp h
    obtain ⟨hlookup, hopen⟩ := Option.filter_eq_some_iff.mp hrow
    exact ⟨⟨row, hlookup, of_decide_eq_true hopen⟩, hfound⟩

end Evaluate

end

/-! ## §5. All metrics of one evaluation. -/

/-- A metric has one transition. -/
theorem nodup_annotateStates (s : Schedule) (report : AnomalyReport) (order : MapOrder) (alerts : Alerts) :
    ((annotateStates s report order alerts).map AnomalyTransition.metric).Nodup := by
  have hdetected : ((report.detected.filterMap fun a =>
      if a.severity = .positive then none
      else some (detectedTransition s report (alerts.lookup (s.key a.metric)) a)).map
        AnomalyTransition.metric).Sublist (report.detected.map Anomaly.metric) := by
    refine Table.filterMap_sublist (fun a t ht => ?_) report.detected
    split at ht
    · cases ht
    · rw [← Option.some.inj ht, detectedTransition_metric]
  have hknown : ((order.arrange (anomalyStates s alerts)).map Prod.fst).Nodup := by
    refine ((order.perm _).map _).nodup_iff.mpr ?_
    -- keys of one site and environment differ in the metric
    have hsub : ((anomalyStates s alerts).map fun known => s.key known.1).Sublist
        (alerts.entries.map Sigma.fst) := by
      refine Table.filterMap_sublist (fun e known hsome => ?_) alerts.entries
      split at hsome
      next hhere =>
        obtain ⟨⟨siteId, environment, metric⟩, row⟩ := e
        rw [← Option.some.inj hsome]
        simp only at hhere
        rw [hhere.1, hhere.2]
        rfl
      · cases hsome
    have hkeys := hsub.nodup alerts.nodupKeys
    rw [← Function.comp_def s.key Prod.fst, ← List.map_map] at hkeys
    exact List.Nodup.of_map _ hkeys
  have hrecovered : (((order.arrange (anomalyStates s alerts)).filterMap fun known =>
      if known.1 ∈ report.detected.map Anomaly.metric ∨ known.2.resolvedOn ≠ none then none
      else some (recoveredTransition s report known.1 known.2)).map
        AnomalyTransition.metric).Sublist ((order.arrange (anomalyStates s alerts)).map Prod.fst) := by
    refine Table.filterMap_sublist (fun known t ht => ?_) _
    split at ht
    · cases ht
    · rw [← Option.some.inj ht]
      rfl
  unfold annotateStates
  rw [List.map_append]
  refine List.nodup_append.mpr ⟨hdetected.nodup report.judgedOnce, hrecovered.nodup hknown, ?_⟩
  -- what recovered was not detected
  rintro metric hmem metric' hmem' rfl
  obtain ⟨t, ht, hmetric⟩ := List.mem_map.mp hmem'
  obtain ⟨known, -, hsome⟩ := List.mem_filterMap.mp ht
  split at hsome
  · cases hsome
  next hgone =>
    rw [not_or] at hgone
    have hsame : known.1 = metric := by
      rw [← hmetric, ← Option.some.inj hsome]
      rfl
    exact hgone.1 (hsame ▸ hdetected.subset hmem)

/-- What is announced of a metric is what its transition says. -/
theorem statesOf_announced (s : Schedule) (metric : String) (verdict : String → Option Verdict)
    {transitions : List AnomalyTransition} (h : (transitions.map AnomalyTransition.metric).Nodup) :
    statesOf (s.key metric) ((transitions.filter AnomalyTransition.notifiable).map fun t =>
        ⟨s.key t.metric, t.state, verdict t.metric⟩)
      = (saidOf (transitions.find? fun t => t.metric = metric)).toList := by
  induction transitions with
  | nil => rfl
  | cons t rest ih =>
    rw [List.map_cons, List.nodup_cons] at h
    have ih := ih h.2
    have hkey : s.key t.metric = s.key metric ↔ t.metric = metric := by
      simp [Schedule.key]
    by_cases hmetric : t.metric = metric
    · have hrest : rest.find? (fun t => t.metric = metric) = none := by
        refine List.find?_eq_none.mpr fun t' ht' h' => h.1 ?_
        rw [hmetric, ← of_decide_eq_true h']
        exact List.mem_map_of_mem ht'
      rw [hrest] at ih
      rw [List.find?_cons_of_pos (by simpa using hmetric)]
      by_cases hloud : t.notifiable = true
      · rw [List.filter_cons_of_pos hloud, List.map_cons, statesOf_cons, if_pos (hkey.mpr hmetric), ih,
          saidOf, saidOf, Option.filter_some_pos hloud]
        rfl
      · rw [List.filter_cons_of_neg hloud, saidOf, Option.filter_some_neg (Bool.eq_false_iff.mpr hloud)]
        exact ih
    · rw [List.find?_cons_of_neg (by simpa using hmetric)]
      by_cases hloud : t.notifiable = true
      · rw [List.filter_cons_of_pos hloud, List.map_cons, statesOf_cons, if_neg (mt hkey.mp hmetric)]
        exact ih
      · rw [List.filter_cons_of_neg hloud]
        exact ih

theorem find?_annotateStates (s : Schedule) (report : AnomalyReport) (order : MapOrder) (alerts : Alerts)
    (metric : String) :
    (annotateStates s report order alerts).find? (fun t => t.metric = metric)
      = transitionOf s report alerts metric := by
  cases hfind : (annotateStates s report order alerts).find? fun t => t.metric = metric with
  | some t =>
    have hmetric : t.metric = metric := by simpa using List.find?_some hfind
    have hmem := (mem_annotateStates s report).mp (List.mem_of_find?_eq_some hfind)
    rw [hmetric] at hmem
    exact hmem.symm
  | none =>
    cases ht : transitionOf s report alerts metric with
    | none => rfl
    | some t =>
      have hmetric := transitionOf_metric s report ht
      rw [← hmetric] at ht
      have hmem : t ∈ annotateStates s report order alerts := (mem_annotateStates s report).mpr ht
      exact absurd (decide_eq_true hmetric) (List.find?_eq_none.mp hfind t hmem)

/-- The row a metric is left with. -/
theorem lookup_applyAll (s : Schedule) (report : AnomalyReport) (order : MapOrder) (alerts : Alerts)
    (metric : String) :
    (applyAll s report (annotateStates s report order alerts) alerts).lookup (s.key metric)
      = rowLeft report (transitionOf s report alerts metric) (alerts.lookup (s.key metric)) := by
  cases ht : transitionOf s report alerts metric with
  | none =>
    refine lookup_applyAll_of_untouched s report _ (fun t hmem hmetric => ?_) alerts
    have hsome := (mem_annotateStates s report).mp hmem
    rw [hmetric, ht] at hsome
    cases hsome
  | some t =>
    obtain rfl := transitionOf_metric s report ht
    refine lookup_applyAll_of_mem s report _ ((mem_annotateStates s report).mpr ht)
      (fun t' hmem hmetric => ?_) alerts
    have hsome := (mem_annotateStates s report).mp hmem
    rw [hmetric, ht] at hsome
    exact (Option.some.inj hsome).symm

theorem lookup_applyAll_elsewhere (s : Schedule) (report : AnomalyReport) {key : AlertKey}
    (h : ∀ metric, key ≠ s.key metric) (transitions : List AnomalyTransition) (alerts : Alerts) :
    (applyAll s report transitions alerts).lookup key = alerts.lookup key := by
  induction transitions generalizing alerts with
  | nil => rfl
  | cons t rest ih =>
    exact (ih _).trans (lookup_applyTransition_of_ne s report (h t.metric) alerts)

/-! ## §6. Runs. -/

/-- One after the other. -/
theorem Alternates.append {states : List TransitionState} {before after : Prop}
    {said : Option TransitionState} (h : Alternates states) (hopen : before ↔ states.length % 2 = 1)
    (htells : Tells before after said) :
    Alternates (states ++ said.toList) ∧ (after ↔ (states ++ said.toList).length % 2 = 1) := by
  have hlast : ∀ state, (state = if states.length % 2 = 0 then .new else .recovered) →
      Alternates (states ++ [state]) := by
    intro state hstate i hi
    rw [List.length_append, List.length_singleton] at hi
    rcases Nat.lt_succ_iff_lt_or_eq.mp hi with hlt | rfl
    · rw [List.getElem_append_left hlt]
      exact h i hlt
    · rw [List.getElem_append_right (Nat.le_refl _)]
      simpa using hstate
  cases said with
  | none =>
    rw [Option.toList_none, List.append_nil]
    exact ⟨h, htells.symm.trans hopen⟩
  | some state =>
    rw [Option.toList_some, List.length_append, List.length_singleton]
    cases state with
    | new =>
      obtain ⟨hclosed, hafter⟩ := htells
      have heven : states.length % 2 = 0 := by
        have := mt hopen.mpr hclosed
        omega
      exact ⟨hlast _ (if_pos heven).symm, iff_of_true hafter (by omega)⟩
    | recovered =>
      obtain ⟨hbefore, hclosed⟩ := htells
      have hodd := hopen.mp hbefore
      exact ⟨hlast _ (if_neg (by omega)).symm, iff_of_false hclosed (by omega)⟩
    | ongoing => exact htells.elim

section
variable {ν : Type} {judge : RobustZ ν}

/-- An open row is a metric whose last announcement was a new one. -/
structure Paired (w : Told) : Prop where
  alternates : ∀ key, Alternates (statesOf key w.heard)
  openRows : ∀ key, Open (w.alerts.lookup key) ↔ (statesOf key w.heard).length % 2 = 1
  grounded : ∀ h ∈ w.heard, h.Grounded

/-- Nothing is said yet. -/
theorem paired_nothing : Paired Told.nothing where
  alternates _ i h := absurd h (Nat.not_lt_zero i)
  openRows key := iff_of_false (fun ⟨_, hrow, _⟩ => nomatch hrow) (by simp [Told.nothing, statesOf])
  grounded _ h := absurd h List.not_mem_nil

/-- Keys of the evaluation's site and environment, and others. -/
theorem Evaluate.key_cases (e : Evaluate ν) (key : AlertKey) :
    (∃ metric, key = e.schedule.key metric) ∨ ∀ metric, key ≠ e.schedule.key metric := by
  by_cases h : ∃ metric, key = e.schedule.key metric
  · exact .inl h
  · exact .inr (not_exists.mp h)

/-- An evaluation that comes through. -/
theorem paired_completed {w : Told} {e : Evaluate ν} (h : Paired w) (hdone : e.failedAfter = none)
    (htold : TellsAll judge w e) : Paired (evaluate judge w e) := by
  unfold TellsAll at htold
  rw [hdone] at htold
  simp only at htold
  unfold evaluate
  rw [hdone]
  have hkey : ∀ key, ∃ after said,
      Tells (Open (w.alerts.lookup key)) after said
        ∧ (Open ((applyAll e.schedule (e.detectSiteAnomalies judge)
            (annotateStates e.schedule (e.detectSiteAnomalies judge) e.order w.alerts)
            w.alerts).lookup key) ↔ after)
        ∧ statesOf key (((annotateStates e.schedule (e.detectSiteAnomalies judge) e.order w.alerts).filter
              AnomalyTransition.notifiable).map fun t =>
                ⟨e.schedule.key t.metric, t.state, e.verdict judge t.metric⟩) = said.toList := by
    intro key
    rcases e.key_cases key with ⟨metric, rfl⟩ | helsewhere
    · refine ⟨_, _, e.tells judge w.alerts metric ?_, ?_, ?_⟩
      · intro row hrow hresolved
        have := htold metric row hrow
        rw [if_neg hresolved] at this
        exact this
      · rw [lookup_applyAll]
      · rw [statesOf_announced _ _ _ (nodup_annotateStates _ _ _ _), find?_annotateStates]
    · refine ⟨_, none, Iff.rfl, by rw [lookup_applyAll_elsewhere _ _ helsewhere], ?_⟩
      refine List.filterMap_eq_nil_iff.mpr fun heard hheard => ?_
      obtain ⟨t, -, rfl⟩ := List.mem_map.mp hheard
      exact if_neg fun heq => helsewhere t.metric heq.symm
  refine ⟨fun key => ?_, fun key => ?_, fun heard hheard => ?_⟩
  · obtain ⟨after, said, htells, -, hsaid⟩ := hkey key
    rw [statesOf_append, hsaid]
    exact ((h.alternates key).append (h.openRows key) htells).1
  · obtain ⟨after, said, htells, hafter, hsaid⟩ := hkey key
    rw [statesOf_append, hsaid]
    exact hafter.trans ((h.alternates key).append (h.openRows key) htells).2
  · rcases List.mem_append.mp hheard with hold | hnew
    · exact h.grounded heard hold
    · -- a recovery is of an open metric, so it was judged; and it was not found
      obtain ⟨t, ht, rfl⟩ := List.mem_map.mp hnew
      intro hstate
      have htransition := (mem_annotateStates _ _).mp (List.mem_of_mem_filter ht)
      obtain ⟨⟨row, hrow, hopen⟩, hunfound⟩ := e.transitionOf_recovered judge htransition hstate
      have hjudged := htold t.metric row hrow
      rw [if_pos hopen] at hjudged
      obtain ⟨verdict, hverdict, hjudged⟩ := hjudged
      refine ⟨verdict, hverdict, hjudged, ?_⟩
      cases verdict with
      | found severity => exact absurd hverdict (hunfound severity)
      | unknown => simp [Verdict.bad]
      | insufficientHistory => simp [Verdict.bad]
      | normal => simp [Verdict.bad]

/-- One that fails. -/
theorem paired_failed {w : Told} {e : Evaluate ν} {k : Nat} (h : Paired w) (hfailed : e.failedAfter = some k)
    (htold : TellsAll judge w e) : Paired (evaluate judge w e) := by
  unfold TellsAll at htold
  rw [hfailed] at htold
  simp only at htold
  unfold evaluate
  rw [hfailed]
  refine ⟨h.alternates, fun key => ?_, h.grounded⟩
  refine Iff.trans ?_ (h.openRows key)
  show Open ((applyAll e.schedule (e.detectSiteAnomalies judge) _ w.alerts).lookup key) ↔ _
  rcases e.key_cases key with ⟨metric, rfl⟩ | helsewhere
  · by_cases hwritten : ∃ t ∈ (annotateStates e.schedule (e.detectSiteAnomalies judge) e.order
        w.alerts).take k, t.metric = metric
    · -- a metric that was written was open, and a detection leaves it open
      obtain ⟨t, ht, rfl⟩ := hwritten
      have hown := (mem_annotateStates _ _).mp (List.mem_of_mem_take ht)
      rw [lookup_applyAll_of_mem _ _ _ ht fun t' ht' hmetric => by
        have ht' := (mem_annotateStates _ _).mp (List.mem_of_mem_take ht')
        rw [hmetric, hown] at ht'
        exact (Option.some.inj ht').symm]
      obtain ⟨hopen, verdict, hverdict, hbad⟩ := htold t ht
      refine iff_of_true ?_ hopen
      have hdetected : t.state ≠ .recovered := by
        intro hstate
        have hunfound := (e.transitionOf_recovered judge hown hstate).2
        cases verdict with
        | found severity => exact hunfound severity hverdict
        | unknown => simp [Verdict.bad] at hbad
        | insufficientHistory => simp [Verdict.bad] at hbad
        | normal => simp [Verdict.bad] at hbad
      obtain ⟨row, hrow, hstill, -⟩ := rowAfter_detected (e.detectSiteAnomalies judge) hdetected
        (w.alerts.lookup (e.schedule.key t.metric))
      exact ⟨row, hrow, hstill⟩
    · rw [lookup_applyAll_of_untouched _ _ _ fun t ht hmetric => hwritten ⟨t, ht, hmetric⟩]
  · rw [lookup_applyAll_elsewhere _ _ helsewhere]

/-- **One evaluation.** -/
theorem paired_evaluate {w : Told} {e : Evaluate ν} (h : Paired w) (htold : TellsAll judge w e) :
    Paired (evaluate judge w e) := by
  cases hfailed : e.failedAfter with
  | none => exact paired_completed h hfailed htold
  | some k => exact paired_failed h hfailed htold

/-- **ANNOUNCEMENTS PAIR UP**, in a run every evaluation of which tells all. -/
theorem announcements_pair_up (judge : RobustZ ν) (evaluations : List (Evaluate ν))
    (h : Along (evaluate judge) (TellsAll judge) Told.nothing evaluations) :
    PairedUp (evaluations.foldl (evaluate judge) Told.nothing) := by
  have hrun := along_induction (fun _ _ hw htold => paired_evaluate hw htold) evaluations paired_nothing h
  exact ⟨hrun.alternates, hrun.grounded⟩

end

/-! ## §7. Three days. -/

namespace Sample

/-- The value in the middle. -/
def median (values : List ℚ) : ℚ :=
  let sorted := values.insertionSort (· ≤ ·)
  let middle := sorted.length / 2
  if sorted.length % 2 = 1 then sorted.getD middle 0
  else (sorted.getD (middle - 1) 0 + sorted.getD middle 0) / 2

/-- The robust z-score, without rounding. -/
def exactly : RobustZ ℚ := fun badWhenHigher value baseline =>
  let center := median baseline
  let spread := max (median (baseline.map fun v => |v - center|) * (7413 / 5000)) (max 1 (center / 10))
  let z := (value - center) / spread
  let bad := (badWhenHigher && decide (0 < z)) || (!badWhenHigher && decide (z < 0))
  if 7 / 2 ≤ |z| ∧ bad then some .critical
  else if 5 / 2 ≤ |z| ∧ bad then some .warning
  else if 5 / 2 ≤ |z| then some .positive
  else none

theorem perm_id (rows : List (String × AlertRow)) : (id rows).Perm rows := .refl rows

/-- The users of the days 19997 to 20000, and the day that is judged. -/
def evaluation (users : Option ℚ) (evaluated : Date) : Evaluate ℚ where
  schedule := ⟨⟨1⟩, "prd", [], false⟩
  defaults := rfl
  series metric :=
    if metric = "users" then
      [⟨19997, 900⟩, ⟨19998, 880⟩, ⟨19999, 910⟩] ++ (users.map fun v => ⟨evaluated, v⟩).toList
    else []
  evaluated := evaluated
  ranking := ⟨id, fun _ => List.Perm.refl _⟩
  order := ⟨id, perm_id⟩
  failedAfter := none

def key : AlertKey := ⟨⟨1⟩, "prd", "users"⟩

end Sample

/-- A drop, and the day after it a usual number of users. -/
theorem announcements_pair_up_recovery :
    PairedUp ([Sample.evaluation (some 100) 20000, Sample.evaluation (some 890) 20001].foldl
      (evaluate Sample.exactly) Told.nothing) := by
  refine announcements_pair_up Sample.exactly _ ⟨(fun _ _ hrow => nomatch hrow), fun metric row hrow => ?_, trivial⟩
  have hrows : ∀ entry ∈ (evaluate Sample.exactly Told.nothing
      (Sample.evaluation (some 100) 20000)).alerts.entries, entry.2.resolvedOn = none
        ∧ (Sample.evaluation (some 890) 20001).verdict Sample.exactly entry.1.metric = some .normal := by
    decide +kernel
  obtain ⟨hopen, hverdict⟩ := hrows _ (AList.mem_lookup_iff.mp hrow)
  rw [if_pos hopen]
  exact ⟨.normal, hverdict, rfl⟩

/-- **A day without data** is announced as a recovery; and a day judged three times
gives a second recovery for one drop. -/
theorem announcements_unpaired :
    (¬∀ evaluations : List (Evaluate ℚ), ∀ h ∈ (evaluations.foldl (evaluate Sample.exactly) Told.nothing).heard,
        h.Grounded)
      ∧ ¬∀ evaluations : List (Evaluate ℚ), ∀ key,
        Alternates (statesOf key (evaluations.foldl (evaluate Sample.exactly) Told.nothing).heard) := by
  constructor
  · intro h
    have hmem : (⟨Sample.key, .recovered, some .unknown⟩ : Heard) ∈
        ([Sample.evaluation (some 100) 20000, Sample.evaluation none 20001].foldl
          (evaluate Sample.exactly) Told.nothing).heard := by decide +kernel
    obtain ⟨verdict, hverdict, hjudged, -⟩ := h _ _ hmem rfl
    rw [← Option.some.inj hverdict] at hjudged
    cases hjudged
  · intro h
    have hstates : statesOf Sample.key
        ([Sample.evaluation (some 100) 20000, Sample.evaluation (some 890) 20000,
          Sample.evaluation (some 100) 20000, Sample.evaluation (some 890) 20001].foldl
            (evaluate Sample.exactly) Told.nothing).heard = [.new, .recovered, .recovered] := by
      decide +kernel
    have halternates := h [Sample.evaluation (some 100) 20000, Sample.evaluation (some 890) 20000,
      Sample.evaluation (some 100) 20000, Sample.evaluation (some 890) 20001] Sample.key
    rw [hstates] at halternates
    have hlast := halternates 2 (by decide)
    cases hlast

end Momento.Automation
