/-
  Momento.Sdk.NoSilentLoss

  **WHEN THE TRACKER LOSES NO EVENT SILENTLY.**  An event is lost silently when its
  page has ended, no request is under way, and the event was neither accepted nor
  persisted nor counted.

  The page's own steps lose none (`custody_step`).  The end of a page can: a hidden
  page sends one batch by beacon and saves nothing when the browser takes it, so
  what stands behind that batch in the queue is gone with the page; so is what is
  tracked after that, and what a request that failed too late carried.

  What a save covers is told from what it is given, the queue and the room it finds
  (`Ledger`), and not from what it wrote.
-/
import Momento.Sdk.Custody

namespace Momento.Sdk

open Foundation

/-- No page, no request under way: every tracked event was accepted, is persisted or
was counted. -/
def NothingLostSilently (w : World) : Prop :=
  w.page = none → w.env.net.orphans = [] →
    ∀ id ∈ w.env.log.trackedIds, id ∈ w.env.net.acceptedIds ∨ id ∈ w.env.storage.persistedIds
      ∨ id ∈ w.env.log.counted

/-! ## §1. What the saves of a run cover. -/

/-- The events the last save since the page began could store, and those the saves of
the run could count. -/
structure Ledger where
  saved : List Id := []
  counted : List Id := []

namespace Ledger

/-- A save is given a queue: the newest events are stored and the others counted; a
queue there is no room for is counted as a whole. -/
def save (room : Room) (queue : List Id) (l : Ledger) : Ledger where
  saved := if room.queue then queue.drop (queue.length - offlineLimit) else l.saved
  counted := l.counted ++ (if room.trimmed then queue.take (queue.length - offlineLimit) else [])
    ++ (if room.queue then [] else if room.counter then queue else [])

/-- A page load takes the stored queue over, and an answer that is no success puts its
batch before the queue, which is saved. -/
def next (w : World) (l : Ledger) : Action → Ledger
  | .load _ _ => if w.page.isNone then { l with saved := [] } else l
  | .respond i outcome room =>
    match w.page with
    | none => l
    | some p =>
      match p.waiting i outcome with
      | none => l
      | some f => if outcome = .ok then l else l.save room ((f.batch ++ p.queue).map QueuedEvent.id)
  | _ => l

/-- The page may end: each tracked event in its queue or in an unsent group was accepted,
is in a request under way, or was covered. -/
def MayEnd (l : Ledger) (env : Env) (p : Page) : Prop :=
  ∀ e ∈ p.unsent, e.id ∈ env.log.trackedIds →
    e.id ∈ (World.closed env p).outside ∨ e.id ∈ l.saved ∨ e.id ∈ l.counted

instance (l : Ledger) (env : Env) (p : Page) : Decidable (l.MayEnd env p) :=
  inferInstanceAs (Decidable (∀ e ∈ p.unsent, _))

/-- Where an event is when it is not outside the pages. -/
def inside (l : Ledger) (w : World) : List Id :=
  match w.page with
  | some p => p.memory
  | none => l.saved

/-- A request that outlived its page may fail: each of its tracked events was accepted or
covered, is in another such request, or is back in a page's memory. -/
def MayFail (l : Ledger) (w : World) (i : Nat) (payload : Payload) : Prop :=
  ∀ id ∈ payload.ids, id ∈ w.env.log.trackedIds →
    id ∈ (World.settled w.env i payload .failed).outside ∨ id ∈ l.inside w ∨ id ∈ l.counted

/-- The step takes no event from beyond the ledger. -/
def Spares (l : Ledger) (w : World) : Action → Prop
  | .close => ∀ p, w.page = some p → World.CanEnd p → l.MayEnd w.env p
  | .orphan i .failed => ∀ payload, w.env.net.orphans[i]? = some payload → l.MayFail w i payload
  | _ => True

/-- So does every step of the run. -/
def SparesAll (σ : Setting) : Ledger → World → List Action → Prop
  | _, _, [] => True
  | l, w, a :: actions => l.Spares w a ∧ SparesAll σ (l.next w a) (step σ w a) actions

/-! ## §2. The ledger is kept. -/

/-- What is covered is stored or counted. -/
structure Kept (l : Ledger) (env : Env) : Prop where
  saved : l.saved ⊆ env.storage.persistedIds
  counted : l.counted ⊆ env.log.counted

variable {l : Ledger} {σ : Setting}

theorem Kept.of_eq {env env' : Env} (h : l.Kept env)
    (hoffline : env'.storage.own.offline = env.storage.own.offline)
    (hcounted : env'.log.counted = env.log.counted) : l.Kept env' where
  saved := by
    rw [Storage.persistedIds, Storage.restorable, StorageKeys.storedQueue, hoffline]
    exact h.saved
  counted := by
    rw [hcounted]
    exact h.counted

theorem kept_stable : Tab.Stable σ fun t => l.Kept t.toEnv where
  frame := fun hf h => h.of_eq hf.offline (by rw [hf.log])
  push := fun _ _ _ h => h.of_eq rfl rfl
  sent := by
    intro useBeacon t t' hcase h
    cases hcase with
    | idle => exact h
    | sent => exact h.of_eq rfl rfl

theorem counted_recordDropped {t : Tab} (hpersistent : t.page.isPersistent σ) (room : Bool)
    (events : List QueuedEvent) :
    (t.recordDropped σ room events).log.counted
      = t.log.counted ++ if room then events.map QueuedEvent.id else [] := by
  unfold Tab.recordDropped
  split
  next h =>
    rcases h with hzero | hnot | hfull
    · rw [List.length_eq_zero_iff.mp hzero, List.map_nil, ite_self, List.append_nil]
    · exact absurd hpersistent hnot
    · rw [hfull]
      exact (List.append_nil _).symm
  next h =>
    have hroom : room = true := Bool.eq_true_of_not_eq_false fun hfull => h (.inr (.inr hfull))
    rw [if_pos hroom]

/-- The newest events are the newest of themselves. -/
theorem keptOffline_keptOffline (queue : List QueuedEvent) :
    keptOffline (keptOffline queue) = keptOffline queue := by
  have hlength : (keptOffline queue).length - offlineLimit = 0 := by
    rw [keptOffline, List.length_drop]
    omega
  conv_lhs => rw [keptOffline, hlength, List.drop_zero]

/-- The events a save counts. -/
theorem counted_saveOffline {t : Tab} (hpersistent : t.page.isPersistent σ) (room : Room) :
    (t.saveOffline σ room).log.counted
      = t.log.counted ++ (if room.trimmed then (trimmedOffline t.page.queue).map QueuedEvent.id else [])
        ++ if room.queue then [] else if room.counter then t.page.queue.map QueuedEvent.id else [] := by
  have htrimmed := counted_recordDropped hpersistent room.trimmed (trimmedOffline t.page.queue)
  have hpage := (Tab.saved_recordDropped (σ := σ) room.trimmed (trimmedOffline t.page.queue) t).page
  unfold Tab.saveOffline
  rw [if_pos hpersistent]
  dsimp only
  generalize t.recordDropped σ room.trimmed (trimmedOffline t.page.queue) = counted at htrimmed hpage ⊢
  rw [← htrimmed]
  cases room.queue with
  | true => exact (List.append_nil _).symm
  | false =>
    have hpersistent' : counted.page.isPersistent σ := by
      rw [hpage]
      exact hpersistent
    show (counted.recordDropped σ room.counter counted.page.queue).log.counted = _
    rw [counted_recordDropped hpersistent', hpage]
    rfl

/-- The queue a save leaves stored. -/
theorem offline_saveOffline {t : Tab} (hpersistent : t.page.isPersistent σ) (room : Room) :
    (t.saveOffline σ room).storage.own.offline
      = if room.queue then some (.events (keptOffline t.page.queue)) else t.storage.own.offline := by
  have hoffline := Tab.recordDropped_offline (σ := σ) room.trimmed (trimmedOffline t.page.queue) t
  unfold Tab.saveOffline
  rw [if_pos hpersistent]
  dsimp only
  generalize t.recordDropped σ room.trimmed (trimmedOffline t.page.queue) = counted at hoffline ⊢
  cases room.queue with
  | true => rfl
  | false =>
    show (counted.recordDropped σ room.counter counted.page.queue).storage.own.offline = _
    rw [Tab.recordDropped_offline, hoffline]
    rfl

/-- **A save covers what the ledger says of it.** -/
theorem Kept.saveOffline {t : Tab} (hpersistent : t.page.isPersistent σ) (room : Room) (h : l.Kept t.toEnv) :
    (l.save room (t.page.queue.map QueuedEvent.id)).Kept (t.saveOffline σ room).toEnv where
  saved := by
    unfold save Storage.persistedIds Storage.restorable StorageKeys.storedQueue
    rw [offline_saveOffline hpersistent]
    cases room.queue with
    | true =>
      have hnewest : (keptOffline (keptOffline t.page.queue)).map QueuedEvent.id
          = (t.page.queue.map QueuedEvent.id).drop ((t.page.queue.map QueuedEvent.id).length - offlineLimit) := by
        rw [keptOffline_keptOffline, keptOffline, List.map_drop, List.length_map]
      simp only [if_true, hnewest]
      exact List.Subset.refl _
    | false => exact h.saved
  counted := by
    unfold save
    rw [counted_saveOffline hpersistent, trimmedOffline, List.map_take, List.length_map, List.append_assoc,
      List.append_assoc]
    exact List.append_subset.mpr ⟨List.subset_append_of_subset_left _ h.counted, List.subset_append_right _ _⟩

theorem Kept.requeue {t : Tab} (hpersistent : t.page.isPersistent σ) (batch : List QueuedEvent) (room : Room)
    (h : l.Kept t.toEnv) :
    (l.save room ((batch ++ t.page.queue).map QueuedEvent.id)).Kept (t.requeue σ batch room).toEnv :=
  Kept.saveOffline (t := t.setQueue (batch ++ t.page.queue)) hpersistent room (h.of_eq rfl rfl)

/-- What an answer leaves covered. -/
theorem Kept.answered {i : Nat} {room : Room} {outcome : Tab.Outcome} {t t' : Tab}
    (hcase : Tab.AnsweredCase σ i room t outcome t') (hconsenting : t.Consenting) (h : l.Kept t.toEnv) :
    (l.next (World.ofTab t) (.respond i outcome room)).Kept t'.toEnv := by
  unfold next World.ofTab
  dsimp only
  cases hcase with
  | nobody hi =>
    rw [hi]
    exact h
  | done before after f hi hf hrest =>
    rw [hi]
    have hframe := Tab.frame_rescheduled ((t.accept f.request).setFlushes (before ++ after))
    exact h.of_eq (by rw [hframe.offline]; rfl) (by rw [hframe.log]; rfl)
  | next before after f hi hf group rest hrest =>
    rw [hi]
    exact h.of_eq rfl rfl
  | lost before after f hi hf =>
    rw [hi]
    exact Kept.requeue (t := (t.accept f.request).setFlushes (before ++ after))
      (hconsenting.of_eq rfl rfl rfl).isPersistent f.batch room (h.of_eq rfl rfl)
  | failed before after f hi hf =>
    rw [hi]
    exact Kept.requeue (t := t.setFlushes (before ++ after))
      (hconsenting.of_eq rfl rfl rfl).isPersistent f.batch room (h.of_eq rfl rfl)

/-- A call on the page that stores no queue and counts nothing. -/
theorem kept_onPage {w : World} {f : Tab → Tab} (h : l.Kept w.env)
    (hf : ∀ p, w.page = some p → l.Kept (f ⟨w.env, p⟩).toEnv) : l.Kept (w.onPage f).env := by
  unfold World.onPage
  cases hp : w.page with
  | none => exact h
  | some p => exact hf p hp

/-- **The storage and the counter hold what the ledger says**, step by step. -/
theorem ledger_step {w : World} {a : Action} (hw : w.Custody) (hconsented : a.Consented)
    (h : l.Kept w.env) : (l.next w a).Kept (step σ w a).env := by
  have hstable : Tab.Stable σ fun t => l.Kept t.toEnv := kept_stable
  have hcallback : ∀ {f : Tab → Tab}, (∀ p, w.page = some p → l.Kept (f ⟨w.env, p⟩).toEnv) →
      l.Kept (w.callback f).env := by
    intro f hf
    refine kept_onPage h fun p hp => ?_
    split
    · exact h
    · exact hf p hp
  cases a with
  | load options now =>
    show (if w.page.isNone then { l with saved := [] } else l : Ledger).Kept (w.load σ options now).env
    unfold World.load
    cases hp : w.page with
    | none =>
      -- the stored queue is in the page's memory now
      have henv := World.Holds.ofEnv hw hp
      have hkeeping := Tab.keeping_init (σ := σ) now henv.1 henv.2 hconsented
      exact ⟨List.nil_subset _, List.Subset.trans h.counted hkeeping.counted⟩
    | some p => exact h
  | track name properties now => exact kept_onPage h fun p _ => hstable.track name properties now h
  | timer => exact hcallback fun p _ => hstable.timerFired h
  | flush useBeacon => exact kept_onPage h fun p _ => hstable.flush useBeacon h
  | hide => exact hcallback fun p _ => hstable.hide (fun ht => ht.of_eq rfl rfl) h
  | «show» => exact hcallback fun p _ => h.of_eq rfl rfl
  | respond i outcome room =>
    show (l.next w (.respond i outcome room)).Kept (w.onPage fun t => t.answered σ i outcome room).env
    cases hp : w.page with
    | none =>
      unfold World.onPage next
      simp only [hp]
      exact h
    | some p =>
      obtain ⟨lost, hkeeping⟩ := World.Holds.ofPage hw hp
      have hanswered := Kept.answered (Tab.answered_case (σ := σ) i outcome room ⟨w.env, p⟩) hkeeping.consenting h
      unfold World.onPage next
      simp only [hp]
      exact hanswered
  | identify userId properties =>
    refine kept_onPage h fun p _ => ?_
    unfold Tab.identify
    split
    · exact h
    · exact h.of_eq rfl rfl
  | setSessionProperties properties =>
    exact kept_onPage h fun p _ => hstable.frame (Tab.frame_setSessionProperties properties _) h
  | grant now =>
    exact kept_onPage h fun p _ =>
      hstable.grant now (fun ht => ht.of_eq rfl rfl) (fun ht => ht.of_eq rfl rfl) h
  | deny now => exact absurd hconsented id
  | revoke now => exact absurd hconsented id
  | close =>
    show l.Kept w.close.env
    unfold World.close
    cases w.page with
    | none => exact h
    | some p =>
      dsimp only
      split
      · exact h.of_eq rfl rfl
      · exact h
  | orphan i outcome =>
    show l.Kept (w.orphan i outcome).env
    unfold World.orphan
    cases w.env.net.orphans[i]? with
    | none => exact h
    | some payload => exact h.of_eq rfl rfl

/-- A step that spares what the ledger does not cover loses nothing. -/
theorem lossFree_of_spares {w : World} {a : Action} (h : l.Kept w.env) (hspares : l.Spares w a) :
    LossFree w a := by
  have hcovered : ∀ {id : Id} {P : Prop}, P ∨ id ∈ l.saved ∨ id ∈ l.counted →
      P ∨ id ∈ w.env.storage.persistedIds ∨ id ∈ w.env.log.counted :=
    fun hid => hid.imp_right (Or.imp (fun hs => h.saved hs) fun hc => h.counted hc)
  cases a with
  | close => exact fun p hp hends e he htracked => hcovered (hspares p hp hends e he htracked)
  | orphan i outcome =>
    cases outcome with
    | failed =>
      intro payload hi id hid htracked
      have hplaces := hspares payload hi id hid htracked
      unfold inside at hplaces
      unfold World.insideIds
      cases hp : w.page with
      | none =>
        rw [hp] at hplaces
        exact hcovered hplaces
      | some p =>
        rw [hp] at hplaces
        exact hplaces.imp_right (Or.imp_right fun hc => h.counted hc)
    | ok => trivial
    | unanswered => trivial
  | _ => trivial

end Ledger

/-! ## §3. Runs. -/

/-- **No event is lost silently in a run no page end and no late failure of which reaches
beyond what the saves covered**: whatever is tracked, sent, refused, saved, trimmed,
restored and reported in any order, over any number of pages. -/
theorem nothingLostSilently (σ : Setting) (storage : Storage) (nextId : Id)
    (hgranted : storage.own.consent = some .granted) (actions : List Action)
    (hconsented : ∀ a ∈ actions, a.Consented)
    (hspares : Ledger.SparesAll σ {} (World.start storage nextId) actions) :
    NothingLostSilently (run σ (World.start storage nextId) actions) := by
  have hstart : (World.start storage nextId).Custody :=
    ⟨fun id hid => absurd hid List.not_mem_nil, hgranted⟩
  have hledger : Ledger.Kept {} (World.start storage nextId).env := ⟨List.nil_subset _, List.nil_subset _⟩
  have hcustody : (run σ (World.start storage nextId) actions).Custody := by
    generalize World.start storage nextId = w at hstart hledger hspares
    generalize ({} : Ledger) = l at hledger hspares
    -- the custody and the ledger go along the run together
    induction actions generalizing w l with
    | nil => exact hstart
    | cons a actions ih =>
      have ha := hconsented a List.mem_cons_self
      exact ih (fun b hb => hconsented b (List.mem_cons_of_mem _ hb)) _
        (custody_step hstart ha (Ledger.lossFree_of_spares hledger hspares.1)) _
        (Ledger.ledger_step hstart ha hledger) hspares.2
  intro hpage horphans id hid
  rcases (World.Holds.ofEnv hcustody hpage).1 id hid with houtside | hinside
  · refine (Env.mem_outside.mp houtside).imp_right fun horphan => ?_
    rw [Network.orphanIds, horphans] at horphan
    exact absurd horphan List.not_mem_nil
  · exact .inr hinside

/-- A request fails, the hidden page's beacon is refused, and the next page sends all. -/
def refusedThenDelivered : List Action :=
  [.load {} 10000000, .timer, .respond 0 .failed {}, .hide, .respond 0 .failed {}, .close,
    .load {} 10000001, .timer, .respond 0 .ok {}, .hide, .close]

theorem nothingLostSilently_refusedThenDelivered :
    NothingLostSilently (run plainSetting (World.start grantedStorage 0) refusedThenDelivered)
      ∧ (run plainSetting (World.start grantedStorage 0) refusedThenDelivered).page.isNone = true
      ∧ (run plainSetting (World.start grantedStorage 0) refusedThenDelivered).env.net.orphans.isEmpty = true := by
  have hends : ∀ (l : Ledger) (w : World),
      w.page.all (fun p => decide (l.MayEnd w.env p)) = true → l.Spares w .close := by
    intro l w hall p hp _
    rw [hp] at hall
    exact of_decide_eq_true hall
  refine ⟨nothingLostSilently plainSetting grantedStorage 0 rfl _
    (by simp [refusedThenDelivered, Action.Consented, MomentoOptions.Stores]) ?_, by decide +kernel, by decide +kernel⟩
  exact ⟨trivial, trivial, trivial, trivial, trivial, hends _ _ (by decide +kernel), trivial, trivial, trivial,
    trivial, hends _ _ (by decide +kernel), trivial⟩

/-- A load, a click after the session has expired, and the page's end; the browser
takes the beacon, and the collector answers every request. -/
def clickBehindBatch : List Action :=
  [.load { batchSize := 1 } 10000000, .track "click" [] 20000000, .hide, .respond 2 .ok {}, .close,
    .orphan 0 .ok, .orphan 0 .ok]

/-- The click stands behind the batch the hidden page sends, and is gone. -/
theorem clickBehindBatch_lost :
    ¬∀ (σ : Setting) (storage : Storage) (nextId : Id), storage.own.consent = some .granted →
      ∀ actions : List Action, (∀ a ∈ actions, a.Consented) →
        NothingLostSilently (run σ (World.start storage nextId) actions) := by
  intro h
  have hlost := h plainSetting grantedStorage 0 rfl clickBehindBatch
    (by simp [clickBehindBatch, Action.Consented, MomentoOptions.Stores])
    (Option.isNone_iff_eq_none.mp (by decide +kernel))
    (List.isEmpty_iff.mp (by decide +kernel)) 7 (by decide +kernel)
  revert hlost
  decide +kernel

end Momento.Sdk
