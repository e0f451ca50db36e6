/-
  Momento.Automation.Announcements

  **WHAT THE ALERT ROWS SAY WAS ANNOUNCED.**  An alert row carries the day its episode
  was announced and the day it was resolved.  The row is written while the payload is
  still being put together, and the payload is posted afterwards: an evaluation that
  ends in between leaves rows that say more than anybody was told, and the next one
  finds nothing new in them.

  What a row says has always been said by a delivered payload, or an evaluation under
  way still has it to announce — unless an evaluation that ends in an error had something
  to announce, or records a recovery it does not announce.
-/
import Momento.Automation.AnomalyState

namespace Momento.Automation

open Foundation

/-! ## §1. The property. -/

/-- What can be said of an episode. -/
inductive Saying
  | notified
  | resolved
  deriving DecidableEq

/-- The day a row notes for what was said. -/
def AlertRow.dayOf (row : AlertRow) : Saying → Option Date
  | .notified => row.notifiedOn
  | .resolved => row.resolvedOn

/-- A transition of this state says so. -/
def AnomalyTransition.Tells (t : AnomalyTransition) : Saying → Prop
  | .notified => t.state ≠ .recovered
  | .resolved => t.state = .recovered

/-- The payload says it of the metric on that day. -/
def Announcement.Says (p : Announcement) (key : AlertKey) (day : Date) (saying : Saying) : Prop :=
  p.siteId = key.siteId ∧ p.environment = key.environment ∧ p.evaluatedDate = day
    ∧ ∃ t ∈ p.announced, t.metric = key.metric ∧ t.Tells saying

/-- One of the payloads says it. -/
def Said (payloads : List Announcement) (key : AlertKey) (day : Date) (saying : Saying) : Prop :=
  ∃ p ∈ payloads, p.Says key day saying

/-- What the rows say is said by the payloads. -/
def SaidBy (payloads : List Announcement) (alerts : Alerts) : Prop :=
  ∀ key row day saying, alerts.lookup key = some row → row.dayOf saying = some day →
    Said payloads key day saying

/-- The property, row by row: every day a row carries was announced in a payload that was
delivered, or an evaluation of that site, environment and day is still under way with the
transition among those it has to announce. -/
def Announced (w : World) : Prop :=
  ∀ key row day saying, w.alerts.lookup key = some row → row.dayOf saying = some day →
    Said w.delivered key day saying
      ∨ ∃ e ∈ w.underWay, e.announcement.Says key day saying

namespace World

/-- An evaluation that comes to its delivery is under way no longer, and what it had to
announce is delivered if the endpoint answers so. -/
def Settles (w : World) (i : Nat) (outcome : DeliveryOutcome) : Prop :=
  ∀ e announce, w.underWay[i]? = some e → e.progress = .applying [] announce →
    (step w (.deliver i outcome)).underWay = w.underWay.eraseIdx i
      ∧ (announce ≠ [] → outcome.successful →
          e.announcement ∈ (step w (.deliver i outcome)).delivered)

/-- The payloads that were delivered, and those the evaluations under way are at. -/
def promised (w : World) : List Announcement := w.delivered ++ w.underWay.map Evaluation.announcement

/-- What the `i`-th evaluation has to announce, where the row still says so, is also
announced by another one. -/
def Spares (w : World) (i : Nat) : Prop :=
  ∀ e, w.underWay[i]? = some e → ∀ t ∈ e.announced, ∀ row saying,
    w.alerts.lookup (e.schedule.key t.metric) = some row → t.Tells saying →
      row.dayOf saying = some e.report.evaluatedDate →
      Said (w.fail i).promised (e.schedule.key t.metric) e.report.evaluatedDate saying

/-- An evaluation that is not delivered has nothing to announce that nobody else does,
and one that records a recovery announces it, or another one does. -/
def NothingUnsaid (w : World) : Action → Prop
  | .write i => ∀ schedule report t left announce,
      w.underWay[i]? = some ⟨schedule, report, .applying (t :: left) announce⟩ →
      t.state = .recovered → ¬t.notifiable →
      ∀ row, w.alerts.lookup (schedule.key t.metric) = some row → row.resolvedOn = none →
        Said w.promised (schedule.key t.metric) report.evaluatedDate .resolved
  | .fail i => w.Spares i
  | .deliver i outcome => ∀ schedule report announce,
      w.underWay[i]? = some ⟨schedule, report, .applying [] announce⟩ →
      outcome.successful ∨ w.Spares i
  | _ => True

end World

/-! ## §2. One step. -/

/-- Everything the one payloads say, the others say. -/
def Covers (payloads payloads' : List Announcement) : Prop :=
  ∀ key day saying, Said payloads key day saying → Said payloads' key day saying

theorem Covers.of_subset {payloads payloads' : List Announcement} (h : payloads ⊆ payloads') :
    Covers payloads payloads' :=
  fun _ _ _ ⟨p, hp, hsays⟩ => ⟨p, h hp, hsays⟩

theorem SaidBy.covers {payloads payloads' : List Announcement} {alerts : Alerts}
    (h : SaidBy payloads alerts) (hcovers : Covers payloads payloads') : SaidBy payloads' alerts :=
  fun key row day saying hrow hday => hcovers key day saying (h key row day saying hrow hday)

namespace World

/-- An evaluation that gets on promises what it promised, and the transitions it adds. -/
theorem promised_setProgress {w : World} {i : Nat} {e : Evaluation} {progress : Progress}
    (hi : w.underWay[i]? = some e)
    (hmore : e.announced ⊆ Evaluation.announced { e with progress := progress }) :
    Covers w.promised (w.setProgress i e progress).promised
      ∧ Evaluation.announcement { e with progress := progress } ∈ (w.setProgress i e progress).promised := by
  obtain ⟨hlt, -⟩ := List.getElem?_eq_some_iff.mp hi
  have hmem : Evaluation.announcement { e with progress := progress }
      ∈ (w.setProgress i e progress).promised := by
    refine List.mem_append_right _ (List.mem_map_of_mem ?_)
    exact List.mem_set hlt _
  refine ⟨?_, hmem⟩
  rintro key day saying ⟨p, hp, hsays⟩
  rcases List.mem_append.mp hp with hdelivered | hunderWay
  · exact ⟨p, List.mem_append_left _ hdelivered, hsays⟩
  · obtain ⟨e', he', rfl⟩ := List.mem_map.mp hunderWay
    obtain ⟨j, hj⟩ := List.mem_iff_getElem?.mp he'
    by_cases hij : i = j
    · -- the evaluation itself: it promises no less
      subst hij
      obtain rfl := Option.some.inj (hi.symm.trans hj)
      obtain ⟨hsite, henvironment, hday, t, ht, htells⟩ := hsays
      exact ⟨_, hmem, hsite, henvironment, hday, t, hmore ht, htells⟩
    · refine ⟨e'.announcement, List.mem_append_right _ (List.mem_map_of_mem ?_), hsays⟩
      refine List.mem_iff_getElem?.mpr ⟨j, ?_⟩
      show (w.underWay.set i _)[j]? = some e'
      rw [List.getElem?_set_ne hij]
      exact hj

/-- The rows of a world an evaluation leaves say no more than is promised, if it
spares what it had to announce. -/
theorem saidBy_fail {w : World} {i : Nat} (h : SaidBy w.promised w.alerts) (hspares : w.Spares i) :
    SaidBy (w.fail i).promised w.alerts := by
  cases hi : w.underWay[i]? with
  | none =>
    have hsame : w.underWay.eraseIdx i = w.underWay :=
      List.eraseIdx_of_length_le (List.getElem?_eq_none_iff.mp hi)
    have hpromised : (w.fail i).promised = w.promised := by
      show w.delivered ++ (w.underWay.eraseIdx i).map _ = _
      rw [hsame]
      rfl
    rw [hpromised]
    exact h
  | some e =>
    obtain ⟨before, after, huw, herased, -⟩ := Table.split_of_getElem? hi
    have hleft : (w.fail i).promised = w.delivered ++ (before ++ after).map Evaluation.announcement := by
      show w.delivered ++ (w.underWay.eraseIdx i).map _ = _
      rw [herased]
    intro key row day saying hrow hday
    obtain ⟨p, hp, hsays⟩ := h key row day saying hrow hday
    rw [promised, huw, List.map_append, List.map_cons] at hp
    by_cases hown : p = e.announcement
    · -- said by the evaluation that ends
      subst hown
      obtain ⟨hsite, henvironment, rfl, t, ht, hmetric, htells⟩ := hsays
      have hkey : e.schedule.key t.metric = key := by
        obtain ⟨siteId, environment, metric⟩ := key
        simp only at hsite henvironment hmetric
        rw [← hsite, ← henvironment, hmetric]
        rfl
      have hsaid := hspares e hi t ht row saying (hkey ▸ hrow) htells hday
      rwa [hkey] at hsaid
    · refine ⟨p, ?_, hsays⟩
      rw [hleft, List.map_append]
      simp only [List.mem_append, List.mem_cons] at hp ⊢
      tauto

/-- What the statement of a transition leaves in its row is promised with it. -/
theorem saidBy_write {w : World} {i : Nat} {s : Schedule} {report : AnomalyReport}
    {t : AnomalyTransition} {left announce : List AnomalyTransition}
    (hi : w.underWay[i]? = some ⟨s, report, .applying (t :: left) announce⟩)
    (h : SaidBy w.promised w.alerts) (hunsaid : NothingUnsaid w (.write i)) :
    SaidBy (w.write i).promised (w.write i).alerts := by
  have hwrite : w.write i
      = { w with alerts := applyTransition s report t w.alerts }.setProgress i
          ⟨s, report, .applying (t :: left) announce⟩
          (.applying left (if t.notifiable then announce ++ [t] else announce)) := by
    unfold write
    rw [hi]
  have hmore : Evaluation.announced ⟨s, report, .applying (t :: left) announce⟩
      ⊆ Evaluation.announced ⟨s, report, .applying left
          (if t.notifiable then announce ++ [t] else announce)⟩ := by
    show announce ⊆ if t.notifiable then announce ++ [t] else announce
    split
    · exact List.subset_append_left _ _
    · exact List.Subset.refl _
  obtain ⟨hcovers, hmine⟩ := promised_setProgress
    (w := { w with alerts := applyTransition s report t w.alerts }) hi hmore
  rw [← hwrite] at hcovers hmine
  have halerts : (w.write i).alerts = applyTransition s report t w.alerts := by
    rw [hwrite]
    rfl
  -- an announced transition is now among the evaluation's
  have hannounced : t.notifiable → ∀ saying, t.Tells saying →
      Said (w.write i).promised (s.key t.metric) report.evaluatedDate saying := by
    intro hnotifiable saying htells
    refine ⟨_, hmine, rfl, rfl, rfl, t, ?_, rfl, htells⟩
    show t ∈ if t.notifiable then announce ++ [t] else announce
    rw [if_pos hnotifiable]
    exact List.mem_append_right _ (List.mem_singleton_self t)
  intro key row day saying hrow hday
  rw [halerts] at hrow
  by_cases hkey : key = s.key t.metric
  · subst hkey
    rw [lookup_applyTransition_self] at hrow
    by_cases hstate : t.state = .recovered
    · unfold rowAfter at hrow
      rw [hstate] at hrow
      obtain ⟨old, hold, rfl⟩ := Option.map_eq_some_iff.mp hrow
      split at hday
      next hopen =>
        cases saying with
        | notified => exact hcovers _ _ _ (h _ old day .notified hold hday)
        | resolved =>
          obtain rfl := Option.some.inj hday
          by_cases hnotifiable : t.notifiable = true
          · exact hannounced hnotifiable .resolved hstate
          · exact hcovers _ _ _ (hunsaid s report t left announce hi hstate hnotifiable old hold hopen)
      · exact hcovers _ _ _ (h _ old day saying hold hday)
    · obtain ⟨new, hnew, hopen, hnotified⟩ := rowAfter_detected report hstate
        (w.alerts.lookup (s.key t.metric))
      rw [hnew] at hrow
      obtain rfl := Option.some.inj hrow
      cases saying with
      | resolved =>
        rw [AlertRow.dayOf, hopen] at hday
        cases hday
      | notified =>
        rw [AlertRow.dayOf, hnotified] at hday
        split at hday
        next hnotifiable =>
          obtain rfl := Option.some.inj hday
          exact hannounced hnotifiable .notified hstate
        · obtain ⟨old, hold, holdDay⟩ := Option.bind_eq_some_iff.mp hday
          exact hcovers _ _ _ (h _ old day .notified hold holdDay)
  · rw [lookup_applyTransition_of_ne s report hkey] at hrow
    exact hcovers _ _ _ (h key row day saying hrow hday)

/-- A delivery ends the evaluation, whatever comes of it. -/
theorem settles (w : World) (i : Nat) (outcome : DeliveryOutcome) : w.Settles i outcome := by
  rintro ⟨schedule, report, progress⟩ announce hi rfl
  have hdeliver : step w (.deliver i outcome)
      = if (announce = [] ∧ ¬schedule.alwaysSend) ∨ !outcome.successful then w.fail i
        else
          { w.fail i with
            delivered := w.delivered ++
              [Evaluation.announcement ⟨schedule, report, .applying [] announce⟩] } := by
    show w.deliver i outcome = _
    unfold World.deliver
    rw [hi]
  rw [hdeliver]
  constructor
  · split <;> rfl
  · intro hsomething hsuccessful
    have hposted : ¬((announce = [] ∧ ¬schedule.alwaysSend) ∨ !outcome.successful) := by
      rintro (⟨hnil, -⟩ | hfailed)
      · exact hsomething hnil
      · rw [hsuccessful] at hfailed
        cases hfailed
    rw [if_neg hposted]
    exact List.mem_append_right _ (List.mem_singleton_self _)

/-- What is promised was delivered, or an evaluation under way has it to announce. -/
theorem announced_iff (w : World) : Announced w ↔ SaidBy w.promised w.alerts := by
  unfold Announced SaidBy Said promised
  simp only [List.mem_append, List.mem_map, or_and_right, exists_or]
  constructor
  · intro h key row day saying hrow hday
    rcases h key row day saying hrow hday with hdelivered | ⟨e, he, hsays⟩
    · exact .inl hdelivered
    · exact .inr ⟨e.announcement, ⟨e, he, rfl⟩, hsays⟩
  · intro h key row day saying hrow hday
    rcases h key row day saying hrow hday with hdelivered | ⟨p, ⟨e, he, rfl⟩, hsays⟩
    · exact .inl hdelivered
    · exact .inr ⟨e, he, hsays⟩

/-- **One step** keeps every row's sayings promised. -/
theorem saidBy_step {w : World} {a : Action} (h : SaidBy w.promised w.alerts)
    (hunsaid : NothingUnsaid w a) : SaidBy (step w a).promised (step w a).alerts := by
  cases a with
  | start schedule report =>
    refine h.covers (Covers.of_subset ?_)
    show w.delivered ++ w.underWay.map Evaluation.announcement
      ⊆ w.delivered ++ (w.underWay ++ [(⟨schedule, report, .detected⟩ : Evaluation)]).map Evaluation.announcement
    rw [List.map_append, ← List.append_assoc]
    exact List.subset_append_left _ _
  | read i order =>
    show SaidBy (w.read i order).promised (w.read i order).alerts
    unfold World.read
    split
    next schedule report hi =>
      refine SaidBy.covers h (promised_setProgress hi ?_).1
      exact List.nil_subset _
    · exact h
  | write i =>
    show SaidBy (w.write i).promised (w.write i).alerts
    cases hi : w.underWay[i]? with
    | none =>
      have hsame : w.write i = w := by rw [World.write, hi]
      rw [hsame]
      exact h
    | some e =>
      obtain ⟨schedule, report, progress⟩ := e
      rcases progress with _ | ⟨_ | ⟨t, left⟩, announce⟩
      · have hsame : w.write i = w := by rw [World.write, hi]
        rw [hsame]
        exact h
      · have hsame : w.write i = w := by rw [World.write, hi]
        rw [hsame]
        exact h
      · exact saidBy_write hi h hunsaid
  | fail i => exact saidBy_fail h hunsaid
  | deliver i outcome =>
    show SaidBy (w.deliver i outcome).promised (w.deliver i outcome).alerts
    unfold World.deliver
    split
    next schedule report announce hi =>
      have hspares := hunsaid schedule report announce hi
      split
      next hfails =>
        refine saidBy_fail h ?_
        rcases hfails with ⟨hnil, -⟩ | hfailed
        · -- nothing to deliver, nothing to announce
          intro e he t ht
          obtain rfl := Option.some.inj (hi.symm.trans he)
          rw [Evaluation.announced, hnil] at ht
          exact absurd ht List.not_mem_nil
        · exact hspares.resolve_left (by simpa using hfailed)
      · -- what was promised by the evaluation is now delivered
        obtain ⟨before, after, huw, herased, -⟩ := Table.split_of_getElem? hi
        refine SaidBy.covers h (Covers.of_subset ?_)
        show w.delivered ++ w.underWay.map Evaluation.announcement
          ⊆ (w.delivered ++ [_]) ++ (w.underWay.eraseIdx i).map Evaluation.announcement
        rw [herased, huw]
        intro p hp
        simp only [List.map_append, List.map_cons, List.mem_append, List.mem_cons] at hp ⊢
        tauto
    · exact h

end World

/-! ## §3. The next run. -/

section
variable (s : Schedule) (report : AnomalyReport)

/-- After a run that wrote its first `k` transitions and failed, the next run over the
same report announces the transitions it was to announce. -/
def AnnouncedAgain (order order' : MapOrder) (alerts : Alerts) (k : Nat) : Prop :=
  ∀ t : AnomalyTransition,
    t ∈ annotateStates s report order'
        (applyAll s report ((annotateStates s report order alerts).take k) alerts) ∧ t.notifiable
      ↔ t ∈ annotateStates s report order alerts ∧ t.notifiable

/-- The metric was announced on the evaluated day or later. -/
def NotifiedSince (known : Option AlertRow) : Prop :=
  ∃ day, known.bind AlertRow.notifiedOn = some day ∧ report.evaluatedDate ≤ day

/-- A transition whose row can be written without the next run announcing anything else:
it is not to be announced, and neither is, the day it begins, the episode it opens. -/
def Unheard (alerts : Alerts) (t : AnomalyTransition) : Prop :=
  ¬t.notifiable ∧ (t.state = .new → "ongoing" ∈ s.notifiableStates →
    NotifiedSince report (alerts.lookup (s.key t.metric)))

theorem isNotifiable_iff {known : Option AlertRow} {state : TransitionState} :
    isNotifiable s report known state = true
      ↔ state.text ∈ s.notifiableStates ∧ (state = .recovered ∨ ¬NotifiedSince report known) := by
  unfold isNotifiable NotifiedSince
  cases known.bind AlertRow.notifiedOn with
  | none => simp
  | some day => simp

/-- The transition of a detected metric whose row is open. -/
theorem detectedTransition_open {row : AlertRow} (hopen : row.resolvedOn = none) (anomaly : Anomaly) :
    (detectedTransition s report (some row) anomaly).state = .ongoing
      ∧ (detectedTransition s report (some row) anomaly).notifiable
        = isNotifiable s report (some row) .ongoing := by
  rw [detectedTransition, if_pos hopen]
  exact ⟨rfl, rfl⟩

theorem detectedTransition_notifiable (known : Option AlertRow) (anomaly : Anomaly) :
    (detectedTransition s report known anomaly).state ≠ .recovered
      ∧ (detectedTransition s report known anomaly).notifiable
        = isNotifiable s report known (detectedTransition s report known anomaly).state := by
  unfold detectedTransition
  cases known with
  | none => exact ⟨nofun, rfl⟩
  | some row => dsimp only; split <;> exact ⟨nofun, rfl⟩

theorem transitionOf_metric {alerts : Alerts} {metric : String} {t : AnomalyTransition}
    (h : transitionOf s report alerts metric = some t) : t.metric = metric := by
  unfold transitionOf at h
  cases hfind : report.detected.find? fun a => a.metric = metric with
  | none =>
    rw [hfind] at h
    obtain ⟨row, -, rfl⟩ := Option.map_eq_some_iff.mp h
    rfl
  | some anomaly =>
    rw [hfind] at h
    simp only at h
    split at h
    · cases h
    obtain rfl := Option.some.inj h
    rw [detectedTransition_metric]
    simpa using List.find?_some hfind

/-- An open episode that is to be announced and was not yet is. -/
theorem transitionOf_ongoing {alerts : Alerts} {metric : String} {t : AnomalyTransition}
    (h : transitionOf s report alerts metric = some t) (hstate : t.state = .ongoing)
    (hongoing : "ongoing" ∈ s.notifiableStates)
    (hsince : ¬NotifiedSince report (alerts.lookup (s.key metric))) : t.notifiable := by
  unfold transitionOf at h
  cases hfind : report.detected.find? fun a => a.metric = metric with
  | none =>
    rw [hfind] at h
    obtain ⟨row, -, rfl⟩ := Option.map_eq_some_iff.mp h
    cases hstate
  | some anomaly =>
    rw [hfind] at h
    simp only at h
    split at h
    · cases h
    obtain rfl := Option.some.inj h
    rw [(detectedTransition_notifiable s report _ anomaly).2, hstate, isNotifiable_iff]
    exact ⟨hongoing, .inr hsince⟩

/-- **A metric whose transition was written**: a recovery leaves it no transition, a
detection leaves it open, announced today or when it was. -/
theorem transitionOf_written {alerts alerts' : Alerts} {t : AnomalyTransition}
    (ht : transitionOf s report alerts t.metric = some t)
    (hrow : alerts'.lookup (s.key t.metric) = rowAfter report t (alerts.lookup (s.key t.metric))) :
    if t.state = .recovered then transitionOf s report alerts' t.metric = none
    else ∃ t', transitionOf s report alerts' t.metric = some t' ∧ t'.state = .ongoing
      ∧ (t'.notifiable ↔ ¬t.notifiable ∧ "ongoing" ∈ s.notifiableStates
          ∧ ¬NotifiedSince report (alerts.lookup (s.key t.metric))) := by
  unfold transitionOf at ht ⊢
  cases hfind : report.detected.find? fun a => a.metric = t.metric with
  | none =>
    rw [hfind] at ht
    obtain ⟨row, hopen, hrecovered⟩ := Option.map_eq_some_iff.mp ht
    obtain ⟨hlookup, hopen⟩ := Option.filter_eq_some_iff.mp hopen
    have hstate : t.state = .recovered := by rw [← hrecovered]; rfl
    have hclosed : row.resolvedOn = none := of_decide_eq_true hopen
    rw [if_pos hstate, hrow, hlookup, rowAfter, hstate]
    simp [hclosed]
  | some anomaly =>
    rw [hfind] at ht
    simp only at ht ⊢
    by_cases hpositive : anomaly.severity = .positive
    · rw [if_pos hpositive] at ht
      cases ht
    · rw [if_neg hpositive] at ht
      have hdetected := Option.some.inj ht
      obtain ⟨hstate, -⟩ := detectedTransition_notifiable s report
        (alerts.lookup (s.key t.metric)) anomaly
      rw [hdetected] at hstate
      obtain ⟨row, hafter, hopen, hnotified⟩ := rowAfter_detected report hstate
        (alerts.lookup (s.key t.metric))
      obtain ⟨hongoing, hnotifiable⟩ := detectedTransition_open s report hopen anomaly
      rw [if_neg hstate]
      simp only [if_neg hpositive, hrow, hafter]
      refine ⟨_, rfl, hongoing, ?_⟩
      rw [hnotifiable, isNotifiable_iff]
      by_cases hheard : t.notifiable = true
      · -- announced today: once is enough
        have hsince : NotifiedSince report (some row) :=
          ⟨report.evaluatedDate, by rw [Option.bind_some, hnotified, if_pos hheard], le_rfl⟩
        simp [hheard, hsince]
      · have hsince : NotifiedSince report (some row)
            ↔ NotifiedSince report (alerts.lookup (s.key t.metric)) := by
          unfold NotifiedSince
          rw [Option.bind_some, hnotified, if_neg hheard]
        rw [hsince]
        simp [hheard, TransitionState.text]

/-- **The next run announces the same** if and only if the run that failed had written
unheard transitions only. -/
theorem announcedAgain_iff (order order' : MapOrder) (alerts : Alerts) (k : Nat) :
    AnnouncedAgain s report order order' alerts k
      ↔ ∀ t ∈ (annotateStates s report order alerts).take k, Unheard s report alerts t := by
  let written := (annotateStates s report order alerts).take k
  let after := applyAll s report written alerts
  have hmem : ∀ {t}, t ∈ written → transitionOf s report alerts t.metric = some t := fun ht =>
    (mem_annotateStates s report).mp (List.mem_of_mem_take ht)
  -- a metric has one transition, so the row of a written one is the row it leaves
  have hrow : ∀ {t}, t ∈ written →
      after.lookup (s.key t.metric) = rowAfter report t (alerts.lookup (s.key t.metric)) := by
    intro t ht
    refine lookup_applyAll_of_mem s report written ht (fun t' ht' hmetric => ?_) alerts
    have ht' := hmem ht'
    rw [hmetric, hmem ht] at ht'
    exact (Option.some.inj ht').symm
  unfold AnnouncedAgain
  simp only [mem_annotateStates]
  constructor
  · intro hall t ht
    have hwritten := transitionOf_written s report (hmem ht) (hrow ht)
    have hquiet : ¬t.notifiable := by
      intro hheard
      obtain ⟨hagain, -⟩ := (hall t).mpr ⟨hmem ht, hheard⟩
      split at hwritten
      · rw [hagain] at hwritten
        cases hwritten
      · obtain ⟨t', ht', -, hnotifiable⟩ := hwritten
        obtain rfl := Option.some.inj (hagain.symm.trans ht')
        exact (hnotifiable.mp hheard).1 hheard
    refine ⟨hquiet, fun hnew hongoing => ?_⟩
    by_contra hsince
    rw [if_neg (by rw [hnew]; nofun)] at hwritten
    obtain ⟨t', ht', hstate, hnotifiable⟩ := hwritten
    have hmetric := transitionOf_metric s report ht'
    rw [← hmetric] at ht'
    obtain ⟨hbefore, -⟩ := (hall t').mp ⟨ht', hnotifiable.mpr ⟨hquiet, hongoing, hsince⟩⟩
    rw [hmetric, hmem ht] at hbefore
    rw [← Option.some.inj hbefore, hnew] at hstate
    cases hstate
  · intro hunheard t
    by_cases hwritten : ∃ t₀ ∈ written, t₀.metric = t.metric
    · -- neither run announces the metric
      obtain ⟨t₀, ht₀, hmetric⟩ := hwritten
      obtain ⟨hquiet, hnew⟩ := hunheard t₀ ht₀
      have hbefore := hmem ht₀
      have hafter := transitionOf_written s report hbefore (hrow ht₀)
      rw [hmetric] at hbefore hafter
      constructor
      · rintro ⟨ht, hheard⟩
        exfalso
        split at hafter
        · rw [ht] at hafter
          cases hafter
        next hstate =>
          obtain ⟨t', ht', -, hnotifiable⟩ := hafter
          obtain rfl := Option.some.inj (ht.symm.trans ht')
          obtain ⟨-, hongoing, hsince⟩ := hnotifiable.mp hheard
          cases hkind : t₀.state with
          | recovered => exact hstate hkind
          | new => exact hsince (hmetric ▸ hnew hkind hongoing)
          | ongoing => exact hquiet (transitionOf_ongoing s report hbefore hkind hongoing hsince)
      · rintro ⟨ht, hheard⟩
        rw [hbefore] at ht
        obtain rfl := Option.some.inj ht
        exact absurd hheard hquiet
    · push Not at hwritten
      have huntouched := lookup_applyAll_of_untouched s report written hwritten alerts
      have hsame : transitionOf s report after t.metric = transitionOf s report alerts t.metric := by
        unfold transitionOf
        rw [huntouched]
      rw [hsame]

end

/-! ## §4. Runs. -/

/-- **WHAT THE ROWS SAY WAS ANNOUNCED** or is about to be, in every state of a run no
evaluation of which leaves something unsaid; an evaluation that comes to its delivery is
not about to say anything afterwards; and a run that fails leaves the next one the same
announcements if and only if it had written none of them, nor an episode the next one
would announce as ongoing. -/
theorem anomalies_announced (actions : List Action) (w : World) (i : Nat)
    (outcome : DeliveryOutcome) (s : Schedule) (report : AnomalyReport)
    (order order' : MapOrder) (alerts : Alerts) (k : Nat) :
    (Along step World.NothingUnsaid World.initial actions → Announced (run World.initial actions))
      ∧ w.Settles i outcome
      ∧ (AnnouncedAgain s report order order' alerts k
          ↔ ∀ t ∈ (annotateStates s report order alerts).take k, Unheard s report alerts t) := by
  refine ⟨fun hunsaid => ?_, w.settles i outcome, announcedAgain_iff s report order order' alerts k⟩
  have hstart : SaidBy World.initial.promised World.initial.alerts := by
    intro key row day saying hrow
    cases hrow
  rw [World.announced_iff]
  exact along_induction (I := fun w => SaidBy w.promised w.alerts)
    (fun _ _ h hC => World.saidBy_step h hC) actions hstart hunsaid

namespace Sample

def schedule : Schedule := ⟨⟨1⟩, "prd", [], false⟩

/-- The users of day 20000 fell. -/
def drop : AnomalyReport := ⟨20000, [⟨"users", .critical⟩], by decide⟩

def asRead : MapOrder := ⟨id, fun _ => List.Perm.refl _⟩

/-- One evaluation, and what came of its payload. -/
def evaluated (outcome : DeliveryOutcome) : List Action :=
  [.start schedule drop, .read 0 asRead, .write 0, .deliver 0 outcome]

/-- What is applied next is no recovery. -/
def noneRecovered (e : Evaluation) : Bool :=
  match e.progress with
  | .applying (t :: _) _ => t.state ≠ .recovered
  | _ => true

end Sample

/-- An evaluation whose payload is answered with 204: the row is written, and what it says
was delivered. -/
theorem anomalies_announced_delivered :
    Announced (run World.initial (Sample.evaluated (.answered 204)))
      ∧ ((run World.initial (Sample.evaluated (.answered 204))).alerts.lookup
          (Sample.schedule.key "users")).bind AlertRow.notifiedOn = some 20000
      ∧ (run World.initial (Sample.evaluated (.answered 204))).underWay.length = 0 := by
  refine ⟨(anomalies_announced _ World.initial 0 .unreachable Sample.schedule Sample.drop
    Sample.asRead Sample.asRead ∅ 0).1 ⟨trivial, trivial, ?_, fun _ _ _ _ => .inl rfl, trivial⟩,
    by decide +kernel, by decide +kernel⟩
  intro schedule report t left announce hi hrecovered
  have hnew : ((run World.initial [.start Sample.schedule Sample.drop, .read 0 Sample.asRead]).underWay[0]?.all
      Sample.noneRecovered) = true := by decide +kernel
  have hhere : (run World.initial [.start Sample.schedule Sample.drop,
      .read 0 Sample.asRead]).underWay[0]? = some ⟨schedule, report, .applying (t :: left) announce⟩ := hi
  rw [hhere] at hnew
  exact absurd hrecovered (of_decide_eq_true hnew)

/-- **A payload that was refused**: the row says the drop was announced on day 20000. -/
theorem refusedPayload_not_announced : ¬∀ actions, Announced (run World.initial actions) := by
  intro h
  have hsaid := h (Sample.evaluated (.answered 500))
  have hnotified : ((run World.initial (Sample.evaluated (.answered 500))).alerts.lookup
      (Sample.schedule.key "users")).bind AlertRow.notifiedOn = some 20000 := by decide +kernel
  obtain ⟨row, hrow, hday⟩ := Option.bind_eq_some_iff.mp hnotified
  have hnobody : (run World.initial (Sample.evaluated (.answered 500))).delivered.length = 0 := by
    decide +kernel
  have hnothing : (run World.initial (Sample.evaluated (.answered 500))).underWay.length = 0 := by
    decide +kernel
  rcases hsaid _ row 20000 .notified hrow hday with ⟨p, hp, -⟩ | ⟨e, he, -⟩
  · rw [List.length_eq_zero_iff.mp hnobody] at hp
    exact absurd hp List.not_mem_nil
  · rw [List.length_eq_zero_iff.mp hnothing] at he
    exact absurd he List.not_mem_nil

end Momento.Automation
