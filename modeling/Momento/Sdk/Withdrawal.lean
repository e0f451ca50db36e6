/-
  Momento.Sdk.Withdrawal

  **WHAT A WITHDRAWAL OF CONSENT STOPS.**  `deny` and `revoke` empty the queue and
  remove the stored one.  They do not reach the flushes under way: when the answer
  to one of them arrives, the next of its groups is sent all the same, and a failure
  puts the whole batch back into the queue.  A page load copies the queue of an
  older version, which a withdrawal never removes, into the place of the stored one.

  Ids are given out in order, so the events tracked before the last withdrawal are
  the ones with an id below `withdrawnAt`.
-/
import Momento.Sdk.Custody

namespace Momento.Sdk

open Foundation

/-! ## §1. The property. -/

/-- The events were tracked after the last withdrawal. -/
def Log.Later (log : Log) (events : List QueuedEvent) : Prop :=
  ∀ e ∈ events, log.withdrawnAt ≤ e.id

instance (log : Log) (events : List QueuedEvent) : Decidable (log.Later events) :=
  inferInstanceAs (Decidable (∀ e ∈ events, _))

/-- No request that was started carries an event withdrawn by then. -/
def Log.SentLater (log : Log) : Prop := ∀ h ∈ log.handed, ∀ id ∈ h.1.ids, h.2 ≤ id

/-- No withdrawn event was handed to a later request, and none is in the page's queue
or in the persisted one. -/
def WithdrawalRespected (w : World) : Prop :=
  w.env.log.SentLater ∧ w.env.log.Later w.env.storage.own.storedQueue
    ∧ ∀ p, w.page = some p → w.env.log.Later p.queue

/-- No answer reaches a flush in such a way that it goes on with a withdrawn event: its
next group holds none, and a batch that goes back holds none.  No page load copies a
withdrawn event from the queue an older version left. -/
def StopsEarlier (σ : Setting) (w : World) : Action → Prop
  | .respond i outcome _ => ∀ p, w.page = some p → ∀ f, p.flushes[i]? = some f →
      w.env.log.Later (if outcome = .ok then f.rest.headD [] else f.batch)
  | .load _ _ => w.page = none →
      w.env.log.Later (Tab.migrateLegacyStorage σ w.env.storage).own.storedQueue
  | _ => True

/-! ## §2. The page. -/

namespace Tab
variable {σ : Setting}

/-- What the methods keep: the property, and that ids are given out in order. -/
structure Forgotten (t : Tab) : Prop where
  sent : t.log.SentLater
  stored : t.log.Later t.storage.own.storedQueue
  queue : t.log.Later t.page.queue
  bound : t.log.withdrawnAt ≤ t.nextId

theorem Forgotten.frame {t t' : Tab} (hf : t.Frame t') (h : t.Forgotten) : t'.Forgotten where
  sent := by
    rw [hf.log]
    exact h.sent
  stored := by
    rw [hf.log, StorageKeys.storedQueue, hf.offline]
    exact h.stored
  queue := by
    rw [hf.log, hf.queue]
    exact h.queue
  bound := by
    rw [hf.log]
    exact h.bound.trans hf.nextId

theorem Forgotten.push {t : Tab} (content : Content) (now : Clock) (h : t.Forgotten) :
    (t.push content now).Forgotten where
  sent := h.sent
  stored := h.stored
  queue := by
    intro e he
    rcases List.mem_append.mp he with hold | hnew
    · exact h.queue e hold
    · rw [List.mem_singleton.mp hnew]
      exact h.bound
  bound := h.bound.trans (Nat.le_succ _)

/-- A payload of later events may be sent. -/
theorem sentLater_append {log : Log} {t : Tab} {events : List QueuedEvent} (h : log.SentLater)
    (hevents : log.Later events) :
    ∀ p ∈ log.handed ++ [(t.payloadOf σ events, log.withdrawnAt)], ∀ id ∈ p.1.ids, p.2 ≤ id := by
  intro p hp id hid
  rcases List.mem_append.mp hp with hold | hnew
  · exact h p hold id hid
  · rw [List.mem_singleton.mp hnew] at hid ⊢
    rw [payloadOf_ids, List.mem_map] at hid
    obtain ⟨e, he, rfl⟩ := hid
    exact hevents e he

/-- A save stores events of the queue only. -/
theorem Forgotten.saved {t t' : Tab} (hs : t.Saved t') (h : t.Forgotten) : t'.Forgotten where
  sent := by
    rw [Log.SentLater, hs.handed]
    exact h.sent
  stored := by
    rw [Log.Later, hs.withdrawnAt]
    rcases hs.offline with ⟨hsame, -⟩ | ⟨hkept, -⟩
    · rw [StorageKeys.storedQueue, hsame]
      exact h.stored
    · rw [StorageKeys.storedQueue, hkept]
      exact fun e he => h.queue e (keptOffline_subset _ he)
  queue := by
    rw [Log.Later, hs.withdrawnAt, hs.page]
    exact h.queue
  bound := by
    rw [hs.withdrawnAt, hs.nextId]
    exact h.bound

theorem Forgotten.requeue {batch : List QueuedEvent} (room : Room) {t : Tab} (h : t.Forgotten)
    (hbatch : t.log.Later batch) : (t.requeue σ batch room).Forgotten := by
  refine Forgotten.saved (saved_requeue batch room t) ⟨h.sent, h.stored, ?_, h.bound⟩
  exact List.forall_mem_append.mpr ⟨hbatch, h.queue⟩

theorem Forgotten.flush {useBeacon : Bool} {t t' : Tab} (hcase : FlushCase σ useBeacon t t')
    (h : t.Forgotten) : t'.Forgotten := by
  have hbatch : t.log.Later t.batch := fun e he => h.queue e (List.mem_of_mem_take he)
  have hgroup : ∀ group ∈ t.groupBySession t.batch, t.log.Later group := by
    intro group hg e he
    exact hbatch e ((groupBySession_perm t _).mem_iff.mp (List.mem_flatten_of_mem hg he))
  cases hcase with
  | idle => exact h
  | sent group rest htrack hgroups =>
    refine ⟨sentLater_append h.sent (hgroup group ?_), h.stored,
      fun e he => h.queue e (List.mem_of_mem_drop he), h.bound⟩
    rw [hgroups]
    exact List.mem_cons_self

theorem Forgotten.stable : Stable σ Forgotten where
  frame := Forgotten.frame
  push := fun content now _ h => h.push content now
  sent := fun hcase h => h.flush hcase

/-- An answer that goes on with later events only. -/
theorem Forgotten.answered {i : Nat} {room : Room} {outcome : Outcome} {t t' : Tab}
    (hcase : AnsweredCase σ i room t outcome t')
    (hlater : ∀ f, t.page.flushes[i]? = some f →
      t.log.Later (if outcome = .ok then f.rest.headD [] else f.batch))
    (h : t.Forgotten) : t'.Forgotten := by
  cases hcase with
  | nobody => exact h
  | done => exact Forgotten.frame (frame_rescheduled _) ⟨h.sent, h.stored, h.queue, h.bound⟩
  | next before after f hi hf group rest hrest =>
    have hgroup := hlater f (flush_of_waiting hi)
    rw [if_pos rfl, hrest] at hgroup
    exact ⟨sentLater_append h.sent hgroup, h.stored, h.queue, h.bound⟩
  | lost before after f hi hf =>
    refine Forgotten.requeue room ⟨h.sent, h.stored, h.queue, h.bound⟩ ?_
    exact hlater f (flush_of_waiting hi)
  | failed before after f hi hf =>
    refine Forgotten.requeue room ⟨h.sent, h.stored, h.queue, h.bound⟩ ?_
    exact hlater f (flush_of_waiting hi)

/-- **A withdrawal leaves nothing behind but the flushes under way.** -/
theorem forgotten_clearTrackingState {t : Tab} (now : Clock) (h : t.log.SentLater) :
    (t.clearTrackingState now).Forgotten where
  sent := h
  stored := fun _ he => absurd he List.not_mem_nil
  queue := fun _ he => absurd he List.not_mem_nil
  bound := Nat.le_add_right _ _

theorem Forgotten.restoreOffline {t : Tab} (h : t.Forgotten) : (t.restoreOffline σ).Forgotten := by
  unfold Tab.restoreOffline
  split
  · cases hoffline : t.storage.own.offline with
    | none => exact h
    | some stored =>
      cases stored with
      | events saved =>
        have hsaved : t.log.Later saved := by
          have hstored := h.stored
          rwa [StorageKeys.storedQueue, hoffline] at hstored
        refine ⟨h.sent, fun _ he => absurd he List.not_mem_nil, ?_, h.bound⟩
        exact List.forall_mem_append.mpr
          ⟨h.queue, fun e he => hsaved e (keptOffline_subset _ he)⟩
      | other => exact ⟨h.sent, fun _ he => absurd he List.not_mem_nil, h.queue, h.bound⟩
      | corrupt => exact h
  · exact h

theorem Forgotten.init {env : Env} {options : MomentoOptions} (now : Clock)
    (hsent : env.log.SentLater) (hbound : env.log.withdrawnAt ≤ env.nextId)
    (hmigrated : env.log.Later (migrateLegacyStorage σ env.storage).own.storedQueue) :
    (Tab.init σ options now env).Forgotten :=
  Forgotten.stable.init now Forgotten.restoreOffline
    (fun ht => ⟨ht.sent, ht.stored, ht.queue, ht.bound⟩) (fun _ _ ht => ht.push _ now)
    ⟨hsent, hmigrated, fun _ he => absurd he List.not_mem_nil, hbound⟩

end Tab

/-! ## §3. Runs. -/

/-- The property between two pages. -/
structure Env.Forgotten (env : Env) : Prop where
  sent : env.log.SentLater
  stored : env.log.Later env.storage.own.storedQueue
  bound : env.log.withdrawnAt ≤ env.nextId

/-- **One step.** -/
theorem forgotten_step {w : World} {a : Action} (hw : w.Holds Tab.Forgotten Env.Forgotten)
    (hstops : StopsEarlier σ w a) : (step σ w a).Holds Tab.Forgotten Env.Forgotten := by
  have hstable : Tab.Stable σ Tab.Forgotten := Tab.Forgotten.stable
  cases a with
  | load options now => exact hw.load fun hp h => .init now h.sent h.bound (hstops hp)
  | track name properties now => exact hw.onPage fun p _ h => hstable.track name properties now h
  | timer => exact hw.callback fun p _ h => hstable.timerFired h
  | flush useBeacon => exact hw.onPage fun p _ h => hstable.flush useBeacon h
  | hide => exact hw.callback fun p _ h => hstable.hide (fun ht => ⟨ht.sent, ht.stored, ht.queue, ht.bound⟩) h
  | «show» => exact hw.callback fun p _ h => ⟨h.sent, h.stored, h.queue, h.bound⟩
  | respond i outcome room =>
    exact hw.onPage fun p hp h => h.answered (Tab.answered_case i outcome room _) (hstops p hp)
  | identify userId properties =>
    refine hw.onPage fun p _ h => ?_
    unfold Tab.identify
    split
    · exact h
    · exact ⟨h.sent, h.stored, h.queue, h.bound⟩
  | setSessionProperties properties =>
    exact hw.onPage fun p _ h => h.frame (Tab.frame_setSessionProperties properties _)
  | grant now =>
    refine hw.onPage fun p _ h => hstable.grant now (fun ht => ?_) (fun ht => ?_) h
    · exact ⟨ht.sent, ht.stored, ht.queue, ht.bound⟩
    · exact ⟨ht.sent, ht.stored, ht.queue, ht.bound⟩
  | deny now => exact hw.onPage fun p _ h => Tab.forgotten_clearTrackingState now h.sent
  | revoke now =>
    exact hw.onPage fun p _ h => hstable.loadIdentity now (Tab.forgotten_clearTrackingState now h.sent)
  | close => exact World.Holds.close hw fun p _ _ h => ⟨h.sent, h.stored, h.bound⟩
  | orphan i outcome =>
    refine World.Holds.orphan hw fun payload hi => ?_
    cases hp : w.page with
    | none =>
      have henv := World.Holds.ofEnv hw hp
      exact ⟨henv.sent, henv.stored, henv.bound⟩
    | some p =>
      have hpage := World.Holds.ofPage hw hp
      exact ⟨hpage.sent, hpage.stored, hpage.queue, hpage.bound⟩

/-- **A withdrawal stops every earlier event in a run no answer and no page load of which
brings one back.** -/
theorem withdrawalRespected (σ : Setting) (storage : Storage) (nextId : Id) (actions : List Action)
    (hstops : Throughout σ (StopsEarlier σ) (World.start storage nextId) actions) :
    WithdrawalRespected (run σ (World.start storage nextId) actions) := by
  have hstart : (World.start storage nextId).Holds Tab.Forgotten Env.Forgotten :=
    ⟨fun _ hh => absurd hh List.not_mem_nil, fun _ _ => Nat.zero_le _, Nat.zero_le _⟩
  have hrun := run_induction (fun _ _ hw hC => forgotten_step hw hC) actions hstart hstops
  cases hp : (run σ (World.start storage nextId) actions).page with
  | none =>
    have henv := World.Holds.ofEnv hrun hp
    exact ⟨henv.sent, henv.stored, fun p hp' => by rw [hp] at hp'; cases hp'⟩
  | some p =>
    have hpage := World.Holds.ofPage hrun hp
    refine ⟨hpage.sent, hpage.stored, fun p' hp' => ?_⟩
    rw [hp] at hp'
    cases hp'
    exact hpage.queue

/-- A withdrawal after everything was delivered, a grant, and a flush that fails. -/
def revokedAfterDelivery : List Action :=
  [.load {} 10000000, .timer, .respond 0 .ok {}, .revoke 10000002, .grant 10000003,
    .track "click" [] 10000004, .timer, .respond 0 .failed {}]

theorem withdrawalRespected_revokedAfterDelivery :
    WithdrawalRespected (run plainSetting (World.start {} 0) revokedAfterDelivery) := by
  have hanswered : ∀ (w : World) (i : Nat) (outcome : Tab.Outcome) (room : Room),
      (w.page.all fun p => p.flushes[i]?.all fun f =>
        decide (w.env.log.Later (if outcome = .ok then f.rest.headD [] else f.batch))) = true →
      StopsEarlier plainSetting w (.respond i outcome room) := by
    intro w i outcome room hall p hp f hf
    rw [hp, Option.all_some, hf, Option.all_some] at hall
    exact of_decide_eq_true hall
  refine withdrawalRespected plainSetting {} 0 _ ?_
  exact ⟨fun _ => by decide, trivial, hanswered _ _ _ _ (by decide +kernel), trivial, trivial, trivial,
    trivial, hanswered _ _ _ _ (by decide +kernel), trivial⟩

/-- A withdrawal while the page's first request is under way; the request fails. -/
def revokedInFlight : List Action :=
  [.load {} 10000000, .timer, .revoke 10000002, .respond 0 .failed {}]

/-- The withdrawn events are in the persisted queue. -/
theorem revokedInFlight_not_respected :
    ¬∀ (σ : Setting) (storage : Storage) (nextId : Id) (actions : List Action),
      WithdrawalRespected (run σ (World.start storage nextId) actions) := by
  intro h
  have hstored := (h plainSetting {} 0 revokedInFlight).2.1
  revert hstored
  decide +kernel

end Momento.Sdk
