/-
  Momento.Sdk.LossCounter

  **WHEN THE LOSS COUNTER IS EXACT.**  The counter, with what its reports have
  carried away, should equal the number of tracked events nothing can deliver any
  more.  It is bumped where the stored copy of the queue is trimmed or does not fit,
  and there the events are still in the page's memory; and it is not bumped where
  events are lost.  So it is exact in every state of a run if and only if no save
  trims or fails and no page end and no late failure loses an event: both sides stay
  zero.
-/
import Momento.Sdk.Custody

namespace Momento.Sdk

open Foundation

/-! ## §1. The law. -/

/-- The total of the `events_dropped` values tracked so far. -/
def Log.reported (log : Log) : Nat := (log.tracked.map (·.event.content.eventsDropped)).sum

/-- What can still be delivered, or was: a flush under way holds its whole batch. -/
def World.deliverableIds (w : World) : List Id :=
  w.env.outside ++ w.env.storage.persistedIds ++ w.insideIds

/-- The distinct tracked events that can no longer be delivered. -/
def World.undeliverable (w : World) : List Id :=
  w.env.log.trackedIds.dedup.filter fun id => id ∉ w.deliverableIds

/-- Reported and counted are the events lost. -/
def CounterExact (w : World) : Prop :=
  w.env.log.reported + w.env.storage.dropped.getD 0 = w.undeliverable.length

instance (w : World) : Decidable (CounterExact w) :=
  inferInstanceAs (Decidable (_ = _))

/-- A save of the queue counts nothing: it trims nothing, and the queue is written, or
the counter finds no room. -/
def SaveKeeps (queue : List QueuedEvent) (room : Room) : Prop :=
  (room.trimmed → queue.length ≤ offlineLimit) ∧ (room.queue ∨ room.counter = false ∨ queue = [])

/-- No save counts, and no page end and no late failure loses an event. -/
def Lossless (w : World) : Action → Prop
  | .respond i outcome room => ∀ p, w.page = some p → ∀ f, p.waiting i outcome = some f → outcome ≠ .ok →
      SaveKeeps (f.batch ++ p.queue) room
  | a => LossFree w a

/-! ## §2. What a save adds to the counter. -/

namespace Tab
variable {σ : Setting}

theorem recordDropped_dropped {t : Tab} (hpersistent : t.page.isPersistent σ) (room : Bool)
    (events : List QueuedEvent) :
    (t.recordDropped σ room events).storage.dropped.getD 0
      = t.storage.dropped.getD 0 + if room then events.length else 0 := by
  unfold recordDropped
  split
  next h =>
    rcases h with hzero | hnot | hfull
    · rw [hzero, ite_self, Nat.add_zero]
    · exact absurd hpersistent hnot
    · rw [hfull]
      rfl
  next h =>
    have hroom : room = true := Bool.eq_true_of_not_eq_false fun hfull => h (.inr (.inr hfull))
    rw [if_pos hroom]
    rfl

/-- **Every save**: the trimmed events, and the whole queue if it is not written, each
where the counter finds room. -/
theorem saveOffline_dropped {t : Tab} (hpersistent : t.page.isPersistent σ) (room : Room) :
    (t.saveOffline σ room).storage.dropped.getD 0
      = t.storage.dropped.getD 0 + (if room.trimmed then t.page.queue.length - offlineLimit else 0)
        + if room.queue then 0 else if room.counter then t.page.queue.length else 0 := by
  have htrimmed := recordDropped_dropped hpersistent room.trimmed (trimmedOffline t.page.queue)
  have hlength : (trimmedOffline t.page.queue).length = t.page.queue.length - offlineLimit := by
    rw [trimmedOffline, List.length_take]
    omega
  have hpage := (saved_recordDropped (σ := σ) room.trimmed (trimmedOffline t.page.queue) t).page
  rw [hlength] at htrimmed
  unfold saveOffline
  generalize t.recordDropped σ room.trimmed (trimmedOffline t.page.queue) = counted at htrimmed hpage ⊢
  rw [if_pos hpersistent]
  cases hqueue : room.queue with
  | true =>
    simp only [if_true, Nat.add_zero]
    exact htrimmed
  | false =>
    have hpersistent' : counted.page.isPersistent σ := by
      rw [hpage]
      exact hpersistent
    show (counted.recordDropped σ room.counter counted.page.queue).storage.dropped.getD 0 = _
    rw [recordDropped_dropped hpersistent', htrimmed, hpage]
    rfl

theorem saveKeeps_iff (queue : List QueuedEvent) (room : Room) :
    SaveKeeps queue room
      ↔ (if room.trimmed then queue.length - offlineLimit else 0)
        + (if room.queue then 0 else if room.counter then queue.length else 0) = 0 := by
  have hlength : queue.length = 0 ↔ queue = [] := List.length_eq_zero_iff
  unfold SaveKeeps
  rw [Nat.add_eq_zero_iff]
  refine and_congr ?_ ?_
  · cases room.trimmed with
    | true => simp; omega
    | false => simp
  · cases room.queue with
    | true => simp
    | false =>
      cases room.counter with
      | true => simp
      | false => simp

end Tab

/-! ## §3. Nothing counted. -/

/-- Nothing was ever counted or reported. -/
structure Env.Quiet (env : Env) : Prop where
  counted : env.log.counted = []
  reported : env.log.reported = 0
  dropped : env.storage.dropped.getD 0 = 0

theorem Env.Quiet.of_eq {env env' : Env} (h : env.Quiet) (hcounted : env'.log.counted = env.log.counted)
    (htracked : env'.log.tracked = env.log.tracked)
    (hdropped : env'.storage.dropped = env.storage.dropped) : env'.Quiet where
  counted := hcounted.trans h.counted
  reported := by
    rw [Log.reported, htracked]
    exact h.reported
  dropped := by
    rw [hdropped]
    exact h.dropped

namespace Tab

theorem quiet_push {t : Tab} (content : Content) (now : Clock) (hzero : content.eventsDropped = 0)
    (h : t.Quiet) : (t.push content now).Quiet where
  counted := h.counted
  reported := by
    have hsum : (t.push content now).log.reported = t.log.reported + content.eventsDropped := by
      simp [Log.reported, Tab.push]
    rw [hsum, hzero, h.reported]
  dropped := h.dropped

theorem recordDropped_counted {t : Tab} {room : Bool} {events : List QueuedEvent}
    (h : room = false ∨ events = []) : t.recordDropped σ room events = t := by
  refine if_pos ?_
  rcases h with hfull | hnil
  · exact .inr (.inr hfull)
  · exact .inl (List.length_eq_zero_iff.mpr hnil)

theorem quiet_saveOffline {t : Tab} {room : Room} (h : SaveKeeps t.page.queue room)
    (ht : t.Quiet) (hpersistent : t.page.isPersistent σ) : (t.saveOffline σ room).Quiet where
  counted := by
    have htrimmed : room.trimmed = false ∨ trimmedOffline t.page.queue = [] := by
      cases hroom : room.trimmed with
      | false => exact .inl rfl
      | true =>
        right
        rw [trimmedOffline, Nat.sub_eq_zero_of_le (h.1 hroom), List.take_zero]
    rw [saveOffline, if_pos hpersistent, recordDropped_counted htrimmed]
    cases hqueue : room.queue with
    | true => exact ht.counted
    | false =>
      have hcounter : room.counter = false ∨ t.page.queue = [] :=
        h.2.resolve_left (by rw [hqueue]; exact Bool.false_ne_true)
      show (t.recordDropped σ room.counter t.page.queue).log.counted = []
      rw [recordDropped_counted hcounter]
      exact ht.counted
  reported := by
    rw [Log.reported, (saved_saveOffline room t).tracked]
    exact ht.reported
  dropped := by
    rw [saveOffline_dropped hpersistent, Nat.add_assoc, (saveKeeps_iff _ _).mp h, ht.dropped]

/-- What a step that may save leaves of the counter. -/
structure Saves (keeps : Prop) (t' : Tab) : Prop where
  quiet : keeps → t'.Quiet
  counts : ¬keeps → 0 < t'.storage.dropped.getD 0

theorem saves_requeue (batch : List QueuedEvent) (room : Room) {t : Tab} (ht : t.Quiet)
    (hpersistent : t.page.isPersistent σ) :
    Saves (SaveKeeps (batch ++ t.page.queue) room) (t.requeue σ batch room) where
  quiet := fun h => quiet_saveOffline (t := t.setQueue (batch ++ t.page.queue)) h
    (ht.of_eq rfl rfl rfl) hpersistent
  counts := by
    intro h
    rw [saveKeeps_iff] at h
    have hadded := saveOffline_dropped (t := t.setQueue (batch ++ t.page.queue)) hpersistent room
    rw [Nat.add_assoc] at hadded
    show 0 < ((t.setQueue (batch ++ t.page.queue)).saveOffline σ room).storage.dropped.getD 0
    rw [hadded]
    exact Nat.lt_of_lt_of_le (Nat.pos_of_ne_zero h) (Nat.le_add_left _ _)

theorem saves_of_quiet {keeps : Prop} {t' : Tab} (hkeeps : keeps) (h : t'.Quiet) :
    Saves keeps t' :=
  ⟨fun _ => h, fun hnot => absurd hkeeps hnot⟩

theorem saves_answered {i : Nat} {room : Room} {outcome : Outcome} {t t' : Tab}
    (hcase : AnsweredCase σ i room t outcome t') (h : t.Quiet) (hconsenting : t.Consenting) :
    Saves (∀ f, t.page.waiting i outcome = some f → outcome ≠ .ok →
      SaveKeeps (f.batch ++ t.page.queue) room) t' := by
  have hone : ∀ {f : Flush} {t' : Tab}, t.page.waiting i outcome = some f →
      Saves (SaveKeeps (f.batch ++ t.page.queue) room) t' → outcome ≠ .ok →
      Saves (∀ f, t.page.waiting i outcome = some f → outcome ≠ .ok →
        SaveKeeps (f.batch ++ t.page.queue) room) t' := by
    intro f t' hi hsaves hnot
    refine ⟨fun hk => hsaves.quiet (hk f hi hnot), fun hk => hsaves.counts fun hkeeps => hk ?_⟩
    intro f' hi' _
    rw [hi, Option.some.injEq] at hi'
    exact hi' ▸ hkeeps
  cases hcase with
  | nobody hi => exact saves_of_quiet (fun f hf => by rw [hi] at hf; cases hf) h
  | done before after f hi hf hrest =>
    refine saves_of_quiet (fun _ _ hnot => absurd rfl hnot) ?_
    have hframe := frame_rescheduled ((t.accept f.request).setFlushes (before ++ after))
    exact h.of_eq (by rw [hframe.log]; rfl) (by rw [hframe.log]; rfl) (by rw [hframe.dropped]; rfl)
  | next => exact saves_of_quiet (fun _ _ hnot => absurd rfl hnot) (h.of_eq rfl rfl rfl)
  | lost before after f hi hf =>
    have hquiet : ((t.accept f.request).setFlushes (before ++ after)).Quiet := h.of_eq rfl rfl rfl
    have hsaves := saves_requeue f.batch room hquiet (σ := σ) hconsenting.isPersistent
    exact hone hi hsaves (by decide)
  | failed before after f hi hf =>
    have hquiet : (t.setFlushes (before ++ after)).Quiet := h.of_eq rfl rfl rfl
    have hsaves := saves_requeue f.batch room hquiet (σ := σ) hconsenting.isPersistent
    exact hone hi hsaves (by decide)

theorem quiet_stable : Stable σ fun t => t.Quiet where
  frame := fun hf h => h.of_eq (by rw [hf.log]) (by rw [hf.log]) hf.dropped
  push := fun content now hzero h => quiet_push content now hzero h
  sent := by
    intro useBeacon t t' hcase h
    cases hcase with
    | idle => exact h
    | sent => exact h.of_eq rfl rfl rfl

theorem dropped_migrate (storage : Storage) :
    (migrateLegacyStorage σ storage).dropped = storage.dropped := by
  unfold migrateLegacyStorage
  split <;> rfl

/-- A page load with nothing to report reports nothing. -/
theorem quiet_init {env : Env} {options : MomentoOptions} (now : Clock) (h : env.Quiet) :
    (Tab.init σ options now env).Quiet := by
  have hopened : (opened σ options env).Quiet := h.of_eq rfl rfl (dropped_migrate _)
  have hloaded := quiet_stable.loadIdentity (σ := σ) now hopened
  have hrestored : (((opened σ options env).loadIdentity σ now).restoreOffline σ).Quiet := by
    unfold restoreOffline
    split
    · cases ((opened σ options env).loadIdentity σ now).storage.own.offline with
      | none => exact hloaded
      | some stored => cases stored <;> exact hloaded.of_eq rfl rfl rfl
    · exact hloaded
  have hreported : ((((opened σ options env).loadIdentity σ now).restoreOffline σ).reportDropped σ
      now).Quiet := by
    unfold reportDropped
    split
    · dsimp only
      rw [if_neg (by rw [hrestored.dropped]; decide)]
      exact ⟨hrestored.counted, hrestored.reported, rfl⟩
    · exact hrestored
  unfold Tab.init
  dsimp only
  split
  · exact quiet_stable.track _ _ now hreported
  · exact hreported

end Tab

/-! ## §4. Runs. -/

/-- Nothing was counted, and every tracked event is in one of its places. -/
def World.Clean (w : World) : Prop := w.Custody ∧ w.env.Quiet

theorem undeliverable_eq_nil {w : World} :
    w.undeliverable = [] ↔ ∀ id ∈ w.env.log.trackedIds, id ∈ w.deliverableIds := by
  simp [World.undeliverable, List.filter_eq_nil_iff]

theorem mem_deliverableIds {w : World} {id : Id} :
    id ∈ w.deliverableIds
      ↔ id ∈ w.env.outside ∨ id ∈ w.env.storage.persistedIds ∨ id ∈ w.insideIds := by
  simp only [World.deliverableIds, List.mem_append, or_assoc]

/-- With nothing counted, the counter is exact if and only if nothing is lost. -/
theorem exact_iff_of_quiet {w : World} (h : w.env.Quiet) :
    CounterExact w ↔ ∀ id ∈ w.env.log.trackedIds, id ∈ w.deliverableIds := by
  rw [CounterExact, h.reported, h.dropped, ← undeliverable_eq_nil]
  exact ⟨fun hlength => List.length_eq_zero_iff.mp hlength.symm, fun hnil => by rw [hnil]; rfl⟩

/-- With nothing lost, the counter is exact if and only if it stands at zero. -/
theorem exact_iff_of_kept {t : Tab} (h : t.Kept []) :
    CounterExact (World.ofTab t) ↔ t.log.reported + t.storage.dropped.getD 0 = 0 := by
  have hnil : (World.ofTab t).undeliverable = [] := by
    rw [undeliverable_eq_nil]
    intro id hid
    rw [mem_deliverableIds]
    rcases h.held id hid with hm | ho | hnone
    · exact .inr (.inr hm)
    · exact .inl ho
    · exact absurd hnone List.not_mem_nil
  rw [CounterExact, hnil]
  rfl

theorem World.Clean.ofPage {w : World} (h : w.Clean) {p : Page} (hp : w.page = some p) :
    Tab.Keeping [] ⟨w.env, p⟩ := by
  obtain ⟨lost, hkeeping⟩ := World.Holds.ofPage h.1 hp
  have hlost : lost = [] := by
    have hsubset := hkeeping.counted
    rw [show (⟨w.env, p⟩ : Tab).log.counted = [] from h.2.counted] at hsubset
    exact List.subset_nil.mp hsubset
  exact hlost ▸ hkeeping

theorem World.Clean.exact {w : World} (h : w.Clean) : CounterExact w := by
  rw [exact_iff_of_quiet h.2]
  intro id hid
  rw [mem_deliverableIds]
  cases hp : w.page with
  | none =>
    rcases (World.Holds.ofEnv h.1 hp).1 id hid with ho | hpersisted | hc
    · exact .inl ho
    · exact .inr (.inl hpersisted)
    · rw [h.2.counted] at hc
      exact absurd hc List.not_mem_nil
  | some p =>
    rw [World.insideIds, hp]
    rcases (h.ofPage hp).kept.held id hid with hm | ho | hnone
    · exact .inr (.inr hm)
    · exact .inl ho
    · exact absurd hnone List.not_mem_nil

/-- A call on the page is exact if and only if what it saves it keeps. -/
theorem exact_onPage {w : World} {f : Tab → Tab} (keeps : Page → Prop) (hw : w.Clean)
    (hkept : ∀ p, Tab.Keeping [] ⟨w.env, p⟩ → (f ⟨w.env, p⟩).Kept [])
    (hsaves : ∀ p, Tab.Keeping [] ⟨w.env, p⟩ → Tab.Saves (keeps p) (f ⟨w.env, p⟩)) :
    (CounterExact (w.onPage f) ↔ ∀ p, w.page = some p → keeps p)
      ∧ ((∀ p, w.page = some p → keeps p) → (w.onPage f).env.Quiet) := by
  cases hp : w.page with
  | none =>
    have hsame : w.onPage f = w := by rw [World.onPage, hp]
    rw [hsame]
    exact ⟨iff_of_true hw.exact (fun p hp => by cases hp), fun _ => hw.2⟩
  | some p =>
    have hstep : w.onPage f = World.ofTab (f ⟨w.env, p⟩) := by rw [World.onPage, hp]
    have hpage := hw.ofPage hp
    rw [hstep]
    constructor
    · rw [exact_iff_of_kept (hkept p hpage)]
      constructor
      · rintro hzero p' hp'
        cases hp'
        by_contra hnot
        have := (hsaves p hpage).counts hnot
        omega
      · intro hkeeps
        have hquiet := (hsaves p hpage).quiet (hkeeps p rfl)
        rw [hquiet.reported, hquiet.dropped]
    · exact fun hkeeps => (hsaves p hpage).quiet (hkeeps p rfl)

theorem lossFree_of_lossless {w : World} {a : Action} (h : Lossless w a) : LossFree w a := by
  cases a with
  | close => exact h
  | orphan i outcome => exact h
  | _ => trivial

/-- A call that never saves. -/
theorem exact_quiet {w : World} {f : Tab → Tab} (hw : w.Clean)
    (hkept : ∀ p, Tab.Keeping [] ⟨w.env, p⟩ → (f ⟨w.env, p⟩).Kept [])
    (hquiet : ∀ p, Tab.Keeping [] ⟨w.env, p⟩ → (f ⟨w.env, p⟩).Quiet) :
    CounterExact (w.onPage f) ∧ (w.onPage f).env.Quiet := by
  obtain ⟨hexact, hrest⟩ := exact_onPage (fun _ => True) hw hkept fun p hp =>
    Tab.saves_of_quiet trivial (hquiet p hp)
  exact ⟨hexact.mpr fun _ _ => trivial, hrest fun _ _ => trivial⟩

theorem quiet_close {w : World} (hw : w.env.Quiet) : w.close.env.Quiet := by
  unfold World.close
  cases w.page with
  | none => exact hw
  | some p =>
    dsimp only
    split
    · exact hw.of_eq rfl rfl rfl
    · exact hw

theorem quiet_orphan {w : World} (hw : w.env.Quiet) (i : Nat) (outcome : Tab.Outcome) :
    (w.orphan i outcome).env.Quiet := by
  unfold World.orphan
  cases w.env.net.orphans[i]? with
  | none => exact hw
  | some payload => exact hw.of_eq rfl rfl rfl

/-- A page's end that is exact loses nothing. -/
theorem lossFree_of_exact_close {w : World} (hw : w.Clean) (hexact : CounterExact w.close) :
    LossFree w .close := by
  intro p hp hends e he htracked
  have hclosed : w.close = ⟨World.closed w.env p, none⟩ := by
    simp only [World.close, hp, if_pos hends]
  rw [exact_iff_of_quiet (quiet_close hw.2), hclosed] at hexact
  rcases mem_deliverableIds.mp (hexact e.id htracked) with ho | hpersisted | hinside
  · exact .inl ho
  · exact .inr (.inl hpersisted)
  · exact .inr (.inl hinside)

/-- A late failure that is exact loses nothing. -/
theorem lossFree_of_exact_orphan {w : World} (hw : w.Clean) {i : Nat} {outcome : Tab.Outcome}
    (hexact : CounterExact (w.orphan i outcome)) : LossFree w (.orphan i outcome) := by
  cases outcome with
  | ok => trivial
  | unanswered => trivial
  | failed =>
    intro payload hi id hid htracked
    have hsettled : w.orphan i .failed = { w with env := World.settled w.env i payload .failed } := by
      simp only [World.orphan, hi]
    rw [exact_iff_of_quiet (quiet_orphan hw.2 i .failed), hsettled] at hexact
    rcases mem_deliverableIds.mp (hexact id htracked) with ho | hpersisted | hinside
    · exact .inl ho
    · cases hp : w.page with
      | none => exact .inr (.inl (by rwa [World.insideIds, hp]))
      | some p =>
        rcases (hw.ofPage hp).mirrored id hpersisted with hm | ha
        · exact .inr (.inl (by rwa [World.insideIds, hp]))
        · refine .inl (Env.mem_outside.mpr (.inl ?_))
          show id ∈ List.flatMap Payload.ids (_ ++ [])
          rwa [List.append_nil]
    · exact .inr (.inl hinside)

/-- **The counter is exact after a step if and only if the step is lossless**, and a
lossless step leaves nothing counted. -/
theorem exact_step {w : World} {a : Action} (hw : w.Clean) (hconsented : a.Consented) :
    (CounterExact (step σ w a) ↔ Lossless w a) ∧ (Lossless w a → (step σ w a).Clean) := by
  have hcustody : Lossless w a → (step σ w a).Custody := fun h =>
    custody_step hw.1 hconsented (lossFree_of_lossless h)
  have hstable : Tab.Stable σ (Tab.Keeping []) := Tab.Keeping.stable
  have hnever : ∀ {f : Tab → Tab}, step σ w a = w.onPage f → Lossless w a →
      (∀ p, Tab.Keeping [] ⟨w.env, p⟩ → (f ⟨w.env, p⟩).Kept []) →
      (∀ p, Tab.Keeping [] ⟨w.env, p⟩ → (f ⟨w.env, p⟩).Quiet) →
      (CounterExact (step σ w a) ↔ Lossless w a) ∧ (Lossless w a → (step σ w a).Clean) := by
    intro f hstep hlossless hkept hquiet
    obtain ⟨hexact, hrest⟩ := exact_quiet hw hkept hquiet
    rw [← hstep] at hexact hrest
    exact ⟨iff_of_true hexact hlossless, fun h => ⟨hcustody h, hrest⟩⟩
  have hcallback : ∀ {f : Tab → Tab}, step σ w a = w.callback f → Lossless w a →
      (∀ p, Tab.Keeping [] ⟨w.env, p⟩ → (f ⟨w.env, p⟩).Kept []) →
      (∀ p, Tab.Keeping [] ⟨w.env, p⟩ → (f ⟨w.env, p⟩).Quiet) →
      (CounterExact (step σ w a) ↔ Lossless w a) ∧ (Lossless w a → (step σ w a).Clean) := by
    intro f hstep hlossless hkept hquiet
    refine hnever hstep hlossless (fun p h => ?_) fun p h => ?_
    · dsimp only
      split
      · exact h.kept
      · exact hkept p h
    · dsimp only
      split
      · exact hw.2
      · exact hquiet p h
  cases a with
  | load options now =>
    have hclean : (step σ w (.load options now)).Clean := by
      refine ⟨hcustody trivial, ?_⟩
      show (w.load σ options now).env.Quiet
      unfold World.load
      cases w.page with
      | none => exact Tab.quiet_init now hw.2
      | some p => exact hw.2
    exact ⟨iff_of_true hclean.exact trivial, fun _ => hclean⟩
  | track name properties now =>
    exact hnever rfl trivial (fun p h => (hstable.track name properties now h).kept)
      fun p h => Tab.quiet_stable.track name properties now hw.2
  | timer =>
    exact hcallback rfl trivial (fun p h => (hstable.timerFired h).kept)
      fun p h => Tab.quiet_stable.timerFired hw.2
  | flush useBeacon =>
    exact hnever rfl trivial (fun p h => (hstable.flush useBeacon h).kept)
      fun p h => Tab.quiet_stable.flush useBeacon hw.2
  | hide =>
    exact hcallback rfl trivial (fun p h => h.hide.kept)
      fun p h => Tab.quiet_stable.hide (fun ht => ht.of_eq rfl rfl rfl) hw.2
  | «show» =>
    exact hcallback rfl trivial (fun p h => (h.setHidden false).kept) fun p h => hw.2.of_eq rfl rfl rfl
  | respond i outcome room =>
    obtain ⟨hexact, hrest⟩ := exact_onPage _ hw
      (fun p h => (h.answered (Tab.answered_case i outcome room _)).kept)
      fun p h => Tab.saves_answered (Tab.answered_case i outcome room _) hw.2 h.consenting
    exact ⟨hexact, fun h => ⟨hcustody h, hrest h⟩⟩
  | identify userId properties =>
    refine hnever rfl trivial (fun p h => (h.identify userId properties).kept) fun p h => ?_
    unfold Tab.identify
    split
    · exact hw.2
    · exact hw.2.of_eq rfl rfl rfl
  | setSessionProperties properties =>
    have hframe := fun p => Tab.frame_setSessionProperties (σ := σ) properties ⟨w.env, p⟩
    exact hnever rfl trivial (fun p h => (h.frame (hframe p)).kept)
      fun p h => Tab.quiet_stable.frame (σ := σ) (hframe p) hw.2
  | grant now =>
    refine hnever rfl trivial (fun p h => (h.grant now).kept) fun p h => ?_
    exact Tab.quiet_stable.grant now (fun ht => ht.of_eq rfl rfl rfl)
      (fun ht => ht.of_eq rfl rfl rfl) hw.2
  | deny now => exact absurd hconsented id
  | revoke now => exact absurd hconsented id
  | close =>
    exact ⟨⟨lossFree_of_exact_close hw, fun h => World.Clean.exact ⟨hcustody h, quiet_close hw.2⟩⟩,
      fun h => ⟨hcustody h, quiet_close hw.2⟩⟩
  | orphan i outcome =>
    exact ⟨⟨lossFree_of_exact_orphan hw,
        fun h => World.Clean.exact ⟨hcustody h, quiet_orphan hw.2 i outcome⟩⟩,
      fun h => ⟨hcustody h, quiet_orphan hw.2 i outcome⟩⟩

/-- **The loss counter is exact in every state of a run if and only if every step is
lossless**: then nothing is ever counted, reported or lost. -/
theorem lossCounter_exact_iff (σ : Setting) (storage : Storage) (nextId : Id)
    (hgranted : storage.own.consent = some .granted) (hzero : storage.dropped.getD 0 = 0)
    (actions : List Action) (hconsented : ∀ a ∈ actions, a.Consented) :
    Throughout σ (fun w a => CounterExact (step σ w a)) (World.start storage nextId) actions
      ↔ Throughout σ (Lossless) (World.start storage nextId) actions := by
  have hstart : (World.start storage nextId).Clean :=
    ⟨⟨fun id hid => absurd hid List.not_mem_nil, hgranted⟩, rfl, rfl, hzero⟩
  generalize World.start storage nextId = w at hstart
  induction actions generalizing w with
  | nil => exact Iff.rfl
  | cons a actions ih =>
    obtain ⟨hexact, hclean⟩ := exact_step (σ := σ) hstart (hconsented a (by simp))
    have hrest := fun h => ih (fun b hb => hconsented b (by simp [hb])) _ (hclean h)
    constructor
    · rintro ⟨hhead, htail⟩
      exact ⟨hexact.mp hhead, (hrest (hexact.mp hhead)).mp htail⟩
    · rintro ⟨hhead, htail⟩
      exact ⟨hexact.mpr hhead, (hrest hhead).mpr htail⟩

/-- A request for 202 events fails; the two oldest are counted and still in the queue. -/
def trimmedAlive : List Action :=
  .load { batchSize := 1000 } 10000000 :: List.replicate 200 (.track "click" [] 10000001)
    ++ [.timer, .respond 0 .failed {}]

/-- Events that cannot be sent and are saved: the counter stays exact, and no step of
this is one that counts. -/
theorem lossCounter_exact_loads :
    Throughout plainSetting (fun w a => CounterExact (step plainSetting w a))
        (World.start grantedStorage 0) [.load {} 10000000, .timer, .respond 0 .failed {}]
      ∧ Throughout plainSetting Lossless (World.start grantedStorage 0)
        [.load {} 10000000, .timer, .respond 0 .failed {}] := by
  have hexact : Throughout plainSetting (fun w a => CounterExact (step plainSetting w a))
      (World.start grantedStorage 0) [.load {} 10000000, .timer, .respond 0 .failed {}] :=
    ⟨by decide +kernel, by decide +kernel, by decide +kernel, trivial⟩
  exact ⟨hexact, (lossCounter_exact_iff plainSetting grantedStorage 0 rfl rfl _
    (by simp [Action.Consented, MomentoOptions.Stores])).mp hexact⟩

theorem trimmedAlive_not_exact :
    ¬∀ (σ : Setting) (storage : Storage) (nextId : Id), storage.own.consent = some .granted →
      storage.dropped.getD 0 = 0 → ∀ actions : List Action, (∀ a ∈ actions, a.Consented) →
        CounterExact (run σ (World.start storage nextId) actions) := by
  intro h
  have hconsented : ∀ a ∈ trimmedAlive, a.Consented := by
    intro a ha
    rcases List.mem_cons.mp ha with rfl | ha
    · exact .inl rfl
    · rcases List.mem_append.mp ha with hclick | hlast
      · rw [List.eq_of_mem_replicate hclick]
        trivial
      · rcases List.mem_cons.mp hlast with rfl | hlast
        · trivial
        · rw [List.mem_singleton.mp hlast]
          trivial
  have hexact := h plainSetting grantedStorage 0 rfl rfl trimmedAlive hconsented
  revert hexact
  decide +kernel

end Momento.Sdk
