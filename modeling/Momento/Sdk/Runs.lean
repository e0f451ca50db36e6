/-
  Momento.Sdk.Runs

  **ONE TAB OVER TIME.**  The tab is a page or none, and what outlives pages.  An
  action is a call of the page's code, a callback of the browser, an answer of the
  collector, or a page's beginning or end; an action that is not possible changes
  nothing.

  While a beacon is answered only calls of the page's code come in between, and no
  callback of the browser.  A page ends only while it is hidden.  The requests it waits for are not stopped
  (`keepalive`), but nobody hears their answers any more: they go on as orphans.

  The rules at the end say what a property has to survive so that a whole method
  preserves it.
-/
import Momento.Sdk.Tracker

namespace Momento.Sdk

open Foundation

/-! ## §1. The tab and its actions. -/

/-- The browser, and the page that is open. -/
structure World where
  env : Env
  page : Option Page

/-- What can happen. -/
inductive Action where
  | load (options : MomentoOptions) (now : Clock)
  | track (name : String) (properties : Properties) (now : Clock)
  | timer
  | flush (useBeacon : Bool)
  | hide
  | show
  | respond (i : Nat) (outcome : Tab.Outcome) (room : Room)
  | identify (userId : String) (properties : Properties)
  | setSessionProperties (properties : Properties)
  | grant (now : Clock)
  | deny (now : Clock)
  | revoke (now : Clock)
  | close
  | orphan (i : Nat) (outcome : Tab.Outcome)

section Step
variable (σ : Setting)

namespace Tab

/-- The timer's callback. -/
def timerFired (t : Tab) : Tab :=
  if t.page.timer then
    Tab.flush σ false { t with page := { t.page with timer := false } }
  else t

/-- `visibilitychange`. -/
def setHidden (hidden : Bool) (t : Tab) : Tab := { t with page := { t.page with hidden := hidden } }

/-- The page is hidden; auto tracking has installed the `visibilitychange` listener. -/
def hide (t : Tab) : Tab :=
  if t.page.hidden then t
  else if t.page.options.autoTrack then (t.setHidden true).flush σ true
  else t.setHidden true

end Tab

namespace World

/-- The world of an open page. -/
def ofTab (t : Tab) : World := ⟨t.toEnv, some t.page⟩

/-- A call on the page, if there is one. -/
def onPage (f : Tab → Tab) (w : World) : World :=
  match w.page with
  | none => w
  | some p => ofTab (f ⟨w.env, p⟩)

/-- A beacon is being answered. -/
def beaconing (p : Page) : Bool := p.flushes.any Flush.beacon

/-- A callback of the browser on the page. -/
def callback (f : Tab → Tab) (w : World) : World :=
  w.onPage fun t => if beaconing t.page then t else f t

/-- A page is opened. -/
def load (options : MomentoOptions) (now : Clock) (w : World) : World :=
  match w.page with
  | none => ofTab (Tab.init σ options now w.env)
  | some _ => w

/-- The page can end: it is hidden, and its listener's flush has heard the browser. -/
def CanEnd (p : Page) : Prop := p.hidden ∧ ¬beaconing p

instance (p : Page) : Decidable (CanEnd p) := inferInstanceAs (Decidable (_ ∧ _))

/-- What is left of a page that ends. -/
def closed (env : Env) (p : Page) : Env :=
  { env with net := { env.net with orphans := env.net.orphans ++ p.flushes.map Flush.request } }

/-- The page is closed. -/
def close (w : World) : World :=
  match w.page with
  | none => w
  | some p => if CanEnd p then ⟨closed w.env p, none⟩ else w

/-- The `i`-th request that outlived its page is settled. -/
def settled (env : Env) (i : Nat) (payload : Payload) (outcome : Tab.Outcome) : Env :=
  { env with
    net := {
      orphans := env.net.orphans.eraseIdx i
      accepted := env.net.accepted ++ if outcome = .failed then [] else [payload] } }

/-- A request of a closed page is settled. -/
def orphan (i : Nat) (outcome : Tab.Outcome) (w : World) : World :=
  match w.env.net.orphans[i]? with
  | none => w
  | some payload => { w with env := settled w.env i payload outcome }

end World

/-- **A step.** -/
def step (w : World) : Action → World
  | .load options now => w.load σ options now
  | .track name properties now => w.onPage fun t => t.track σ name properties now
  | .timer => w.callback fun t => t.timerFired σ
  | .flush useBeacon => w.onPage fun t => t.flush σ useBeacon
  | .hide => w.callback fun t => t.hide σ
  | .show => w.callback fun t => t.setHidden false
  | .respond i outcome room => w.onPage fun t => t.answered σ i outcome room
  | .identify userId properties => w.onPage fun t => t.identify σ userId properties
  | .setSessionProperties properties => w.onPage fun t => t.setSessionProperties σ properties
  | .grant now => w.onPage fun t => t.grant σ now
  | .deny now => w.onPage fun t => t.deny now
  | .revoke now => w.onPage fun t => t.revoke σ now
  | .close => w.close
  | .orphan i outcome => w.orphan i outcome

/-- The steps in order. -/
def run (w : World) (actions : List Action) : World := actions.foldl (step σ) w

/-- Every action of the run is taken in a state that meets the condition. -/
def Throughout (C : World → Action → Prop) : World → List Action → Prop
  | _, [] => True
  | w, a :: as => C w a ∧ Throughout C (step σ w a) as

/-- **What every step preserves, every run preserves.** -/
theorem run_induction {σ : Setting} {C : World → Action → Prop} {I : World → Prop}
    (hstep : ∀ w a, I w → C w a → I (step σ w a)) :
    ∀ {w : World} (actions : List Action), I w → Throughout σ C w actions →
      I (run σ w actions) := by
  intro w actions
  induction actions generalizing w with
  | nil => exact fun hI _ => hI
  | cons a as ih => exact fun hI hC => ih (hstep w a hI hC.1) hC.2

/-- A tab no page of which has been loaded yet. -/
def World.start (storage : Storage) (nextId : Id) : World :=
  ⟨{ storage := storage, nextId := nextId }, none⟩

end Step

/-- A browser with beacons, a site without a name. -/
def plainSetting : Setting where
  siteId := ""
  environment := "prd"
  doNotTrack := false
  sendBeacon := true
  looksLikeAPerson := fun userId => userId.toList.contains '@'

def grantedStorage : Storage := { own := { consent := some .granted } }

/-! ## §2. What a flush can do. -/

namespace Tab
variable {σ : Setting}

/-- The batch `flush` takes. -/
def batch (t : Tab) : List QueuedEvent := t.page.queue.take t.page.batchSize

/-- The tab when `flush` has taken its batch. -/
def unbatched (t : Tab) : Tab := t.setQueue (t.page.queue.drop t.page.batchSize)

/-- What `flush` can do: nothing, or send the first group of its batch. -/
inductive FlushCase (σ : Setting) (useBeacon : Bool) (t : Tab) : Tab → Prop
  | idle (hidle : t.page.queue = [] ∨ ¬t.page.canTrack σ) : FlushCase σ useBeacon t t
  | sent (group : List QueuedEvent) (rest : List (List QueuedEvent))
      (htrack : t.page.canTrack σ)
      (hgroups : t.groupBySession t.batch = group :: rest) :
      FlushCase σ useBeacon t
        ((t.unbatched.hand (t.payloadOf σ group)).setFlushes
          (t.page.flushes ++ [⟨t.batch, t.payloadOf σ group, rest, useBeacon && σ.sendBeacon⟩]))

theorem batchSize_pos (p : Page) : 0 < p.batchSize := by
  unfold Page.batchSize
  split
  · decide
  · omega

theorem groupBySession_batch_ne_nil {t : Tab} (hqueue : t.page.queue ≠ []) :
    t.groupBySession t.batch ≠ [] := by
  refine Table.groupsInOrder_ne_nil _ fun hnil => ?_
  rcases List.take_eq_nil_iff.mp hnil with hzero | hempty
  · exact (batchSize_pos t.page).ne' hzero
  · exact hqueue hempty

theorem flush_case (useBeacon : Bool) (t : Tab) : FlushCase σ useBeacon t (t.flush σ useBeacon) := by
  by_cases hidle : t.page.queue.isEmpty ∨ ¬t.page.canTrack σ
  · rw [flush, if_pos hidle]
    exact .idle (hidle.imp_left List.isEmpty_iff.mp)
  · have htrack : t.page.canTrack σ := by
      by_contra h
      exact hidle (.inr h)
    have hqueue : t.page.queue ≠ [] := fun h => hidle (.inl (by rw [h]; rfl))
    rw [flush, if_neg hidle]
    dsimp only
    rw [show t.setQueue (t.page.queue.drop t.page.batchSize) = t.unbatched from rfl,
      show t.page.queue.take t.page.batchSize = t.batch from rfl,
      show t.unbatched.groupBySession t.batch = t.groupBySession t.batch from rfl]
    cases hgroups : t.groupBySession t.batch with
    | nil => exact absurd hgroups (groupBySession_batch_ne_nil hqueue)
    | cons group rest => exact .sent group rest htrack hgroups

/-- What an answer can do: the `i`-th flush `f`, between `before` and `after`, waited
for it. -/
inductive AnsweredCase (σ : Setting) (i : Nat) (room : Room) (t : Tab) : Outcome → Tab → Prop
  | nobody {outcome : Outcome} (hi : t.page.waiting i outcome = none) : AnsweredCase σ i room t outcome t
  | done (before after : List Flush) (f : Flush) (hi : t.page.waiting i .ok = some f)
      (hf : t.page.flushes = before ++ f :: after) (hrest : f.rest = []) :
      AnsweredCase σ i room t .ok ((t.accept f.request).setFlushes (before ++ after)).rescheduled
  | next (before after : List Flush) (f : Flush) (hi : t.page.waiting i .ok = some f)
      (hf : t.page.flushes = before ++ f :: after)
      (group : List QueuedEvent) (rest : List (List QueuedEvent)) (hrest : f.rest = group :: rest) :
      AnsweredCase σ i room t .ok
        (((t.accept f.request).hand (t.payloadOf σ group)).setFlushes
          (before ++ ⟨f.batch, t.payloadOf σ group, rest, f.beacon⟩ :: after))
  | lost (before after : List Flush) (f : Flush) (hi : t.page.waiting i .unanswered = some f)
      (hf : t.page.flushes = before ++ f :: after) :
      AnsweredCase σ i room t .unanswered
        (((t.accept f.request).setFlushes (before ++ after)).requeue σ f.batch room)
  | failed (before after : List Flush) (f : Flush) (hi : t.page.waiting i .failed = some f)
      (hf : t.page.flushes = before ++ f :: after) :
      AnsweredCase σ i room t .failed ((t.setFlushes (before ++ after)).requeue σ f.batch room)

/-- The flush that waits is the `i`-th. -/
theorem flush_of_waiting {p : Page} {i : Nat} {outcome : Outcome} {f : Flush}
    (h : p.waiting i outcome = some f) : p.flushes[i]? = some f := (Option.filter_eq_some_iff.mp h).1

theorem answered_case (i : Nat) (outcome : Outcome) (room : Room) (t : Tab) :
    AnsweredCase σ i room t outcome (t.answered σ i outcome room) := by
  cases hf : t.page.waiting i outcome with
  | none =>
    rw [answered, hf]
    exact .nobody hf
  | some f =>
    obtain ⟨before, after, hsplit, herase, hset⟩ := Table.split_of_getElem? (flush_of_waiting hf)
    rw [answered, hf]
    cases outcome with
    | ok =>
      cases hrest : f.rest with
      | nil =>
        simp only [hrest]
        rw [show (t.settle f.request .ok).page.flushes = t.page.flushes from rfl, herase]
        exact .done before after f hf hsplit hrest
      | cons group rest =>
        simp only [hrest]
        rw [show (t.settle f.request .ok).page.flushes = t.page.flushes from rfl, hset]
        exact .next before after f hf hsplit group rest hrest
    | unanswered =>
      simp only
      rw [show (t.settle f.request .unanswered).page.flushes = t.page.flushes from rfl, herase]
      exact .lost before after f hf hsplit
    | failed =>
      simp only
      rw [show (t.settle f.request .failed).page.flushes = t.page.flushes from rfl, herase]
      exact .failed before after f hf hsplit

/-! ## §3. What a save leaves alone. -/

@[simp] theorem payloadOf_ids (events : List QueuedEvent) (t : Tab) :
    (t.payloadOf σ events).ids = events.map QueuedEvent.id := by
  simp only [Payload.ids, payloadOf, List.map_map]
  rfl

theorem recordDropped_offline (room : Bool) (events : List QueuedEvent) (t : Tab) :
    (t.recordDropped σ room events).storage.own.offline = t.storage.own.offline := by
  unfold recordDropped
  split <;> rfl

theorem recordDropped_saved (room : Bool) (events : List QueuedEvent) (t : Tab) :
    (t.recordDropped σ room events).log.saved = t.log.saved := by
  unfold recordDropped
  split <;> rfl

/-- What `saveOffline` writes: the offline queue, the loss counter and the log of both. -/
structure Saved (t t' : Tab) : Prop where
  page : t'.page = t.page
  net : t'.net = t.net
  nextId : t'.nextId = t.nextId
  tracked : t'.log.tracked = t.log.tracked
  handed : t'.log.handed = t.log.handed
  withdrawnAt : t'.log.withdrawnAt = t.log.withdrawnAt
  standing : t'.log.standing = t.log.standing
  counted : t.log.counted ⊆ t'.log.counted
  visitor : t'.storage.own.visitor = t.storage.own.visitor
  consent : t'.storage.own.consent = t.storage.own.consent
  legacy : t'.storage.legacy = t.storage.legacy
  /-- The stored queue is the old one, or the newest events of the page's. -/
  offline : t'.storage.own.offline = t.storage.own.offline ∧ t'.log.saved = t.log.saved
    ∨ t'.storage.own.offline = some (.events (keptOffline t.page.queue))
      ∧ t'.log.saved = t.log.saved ++ [keptOffline t.page.queue]

theorem saved_recordDropped (room : Bool) (events : List QueuedEvent) (t : Tab) :
    t.Saved (t.recordDropped σ room events) := by
  unfold recordDropped
  split
  · constructor <;> first | rfl | exact .inl ⟨rfl, rfl⟩ | exact List.Subset.refl _
  · constructor <;>
      first | rfl | exact .inl ⟨rfl, rfl⟩ | exact List.subset_append_left _ _

theorem Saved.trans {a b c : Tab} (h : a.Saved b) (h' : b.Saved c)
    (hoffline : c.storage.own.offline = b.storage.own.offline) (hsaved : c.log.saved = b.log.saved) :
    a.Saved c where
  page := h'.page.trans h.page
  net := h'.net.trans h.net
  nextId := h'.nextId.trans h.nextId
  tracked := h'.tracked.trans h.tracked
  handed := h'.handed.trans h.handed
  withdrawnAt := h'.withdrawnAt.trans h.withdrawnAt
  standing := h'.standing.trans h.standing
  counted := List.Subset.trans h.counted h'.counted
  visitor := h'.visitor.trans h.visitor
  consent := h'.consent.trans h.consent
  legacy := h'.legacy.trans h.legacy
  offline := by
    rw [hoffline, hsaved]
    exact h.offline

/-- Every save. -/
theorem saved_saveOffline (room : Room) (t : Tab) : t.Saved (t.saveOffline σ room) := by
  have htrimmed := saved_recordDropped (σ := σ) room.trimmed (trimmedOffline t.page.queue) t
  have hsaved := recordDropped_saved (σ := σ) room.trimmed (trimmedOffline t.page.queue) t
  unfold saveOffline
  generalize t.recordDropped σ room.trimmed (trimmedOffline t.page.queue) = counted at htrimmed hsaved ⊢
  split
  · dsimp only
    split
    · exact
        { htrimmed with
          offline := .inr ⟨rfl, by rw [← hsaved]⟩ }
    · exact htrimmed.trans (saved_recordDropped _ _ _) (recordDropped_offline _ _ _)
        (recordDropped_saved _ _ _)
  · constructor <;> first | rfl | exact .inl ⟨rfl, rfl⟩ | exact List.Subset.refl _

theorem saved_requeue (batch : List QueuedEvent) (room : Room) (t : Tab) :
    (t.setQueue (batch ++ t.page.queue)).Saved (t.requeue σ batch room) :=
  saved_saveOffline room _

/-! ## §4. Steps that move no event. -/

/-- Only the page's visitor, session and timer differ, and what is stored of the
visitor and the session; ids may have been given out. -/
structure Frame (t t' : Tab) : Prop where
  queue : t'.page.queue = t.page.queue
  flushes : t'.page.flushes = t.page.flushes
  options : t'.page.options = t.page.options
  consentState : t'.page.consentState = t.page.consentState
  userId : t'.page.userId = t.page.userId
  hidden : t'.page.hidden = t.page.hidden
  offline : t'.storage.own.offline = t.storage.own.offline
  consent : t'.storage.own.consent = t.storage.own.consent
  legacy : t'.storage.legacy = t.storage.legacy
  dropped : t'.storage.dropped = t.storage.dropped
  visitor : t'.storage.own.visitor = t.storage.own.visitor
    ∨ ∃ v, t'.storage.own.visitor = some v ∧ t.nextId ≤ v
  net : t'.net = t.net
  log : t'.log = t.log
  nextId : t.nextId ≤ t'.nextId

theorem Frame.trans {a b c : Tab} (h : a.Frame b) (h' : b.Frame c) : a.Frame c where
  queue := h'.queue.trans h.queue
  flushes := h'.flushes.trans h.flushes
  options := h'.options.trans h.options
  consentState := h'.consentState.trans h.consentState
  userId := h'.userId.trans h.userId
  hidden := h'.hidden.trans h.hidden
  offline := h'.offline.trans h.offline
  consent := h'.consent.trans h.consent
  legacy := h'.legacy.trans h.legacy
  dropped := h'.dropped.trans h.dropped
  visitor := by
    rcases h'.visitor with heq | ⟨v, hv, hfresh⟩
    · rw [heq]
      exact h.visitor
    · exact .inr ⟨v, hv, h.nextId.trans hfresh⟩
  net := h'.net.trans h.net
  log := h'.log.trans h.log
  nextId := h.nextId.trans h'.nextId

theorem Frame.canTrack {t t' : Tab} (h : t.Frame t') : t'.page.canTrack σ = t.page.canTrack σ := by
  simp only [Page.canTrack, h.options, h.consentState]

theorem Frame.isPersistent {t t' : Tab} (h : t.Frame t') :
    t'.page.isPersistent σ = t.page.isPersistent σ := by
  simp only [Page.isPersistent, h.options, h.consentState]

theorem frame_renewSession (now : Clock) (t : Tab) : t.Frame (t.renewSession now) := by
  constructor <;> first | rfl | exact .inl rfl | exact Nat.le_succ _

theorem frame_touch (now : Clock) (t : Tab) : t.Frame (t.touch now) := by
  constructor <;> first | rfl | exact .inl rfl

theorem frame_scheduleFlush (t : Tab) : t.Frame t.scheduleFlush := by
  constructor <;> first | rfl | exact .inl rfl

theorem frame_rescheduled (t : Tab) : t.Frame t.rescheduled := by
  unfold rescheduled
  split
  · constructor <;> first | rfl | exact .inl rfl
  · exact frame_scheduleFlush t

theorem frame_persistSession (t : Tab) : t.Frame (t.persistSession σ) := by
  unfold persistSession
  split <;> constructor <;> first | rfl | exact .inl rfl

theorem frame_setSessionProperties (properties : Properties) (t : Tab) :
    t.Frame (t.setSessionProperties σ properties) := by
  refine Frame.trans ?_ (frame_persistSession _)
  constructor <;> first | rfl | exact .inl rfl

theorem frame_loadVisitor (t : Tab) : t.Frame (t.loadVisitor σ) := by
  unfold loadVisitor
  split
  · cases hv : t.storage.own.visitor with
    | some v => constructor <;> first | rfl | exact .inl rfl
    | none =>
      constructor <;> first | rfl | exact .inr ⟨t.nextId, rfl, le_rfl⟩ | exact Nat.le_succ _
  · constructor <;> first | rfl | exact .inl rfl | exact Nat.le_succ _

theorem frame_loadSession (t : Tab) : t.Frame (t.loadSession σ) := by
  constructor <;> first | rfl | exact .inl rfl | exact Nat.le_succ _

/-! ## §5. Rules for whole methods. -/

/-- What a property survives: the steps that move no event, a tracked event, and a
flush that sends its first group. -/
structure Stable (σ : Setting) (P : Tab → Prop) : Prop where
  frame : ∀ {t t' : Tab}, t.Frame t' → P t → P t'
  push : ∀ {t : Tab} (content : Content) (now : Clock), content.eventsDropped = 0 → P t →
    P (t.push content now)
  sent : ∀ {useBeacon : Bool} {t t' : Tab}, FlushCase σ useBeacon t t' → P t → P t'

namespace Stable
variable {P : Tab → Prop}

theorem and {Q : Tab → Prop} (h : Stable σ P) (h' : Stable σ Q) : Stable σ fun t => P t ∧ Q t where
  frame := fun hf hPQ => ⟨h.frame hf hPQ.1, h'.frame hf hPQ.2⟩
  push := fun content now hzero hPQ =>
    ⟨h.push content now hzero hPQ.1, h'.push content now hzero hPQ.2⟩
  sent := fun hcase hPQ => ⟨h.sent hcase hPQ.1, h'.sent hcase hPQ.2⟩

theorem flush (h : Stable σ P) (useBeacon : Bool) {t : Tab} (hP : P t) : P (t.flush σ useBeacon) :=
  h.sent (flush_case useBeacon t) hP

/-- The page is hidden, and the listener flushes. -/
theorem hide (h : Stable σ P) (hhidden : ∀ {t : Tab}, P t → P (t.setHidden true)) {t : Tab} (hP : P t) :
    P (t.hide σ) := by
  unfold Tab.hide
  split
  · exact hP
  split
  · exact h.flush true (hhidden hP)
  · exact hhidden hP

theorem timerFired (h : Stable σ P) {t : Tab} (hP : P t) : P (t.timerFired σ) := by
  unfold Tab.timerFired
  split
  · refine h.flush _ (h.frame ?_ hP)
    constructor <;> first | rfl | exact .inl rfl
  · exact hP

theorem ensureSession (h : Stable σ P) (now : Clock) {t : Tab} (hP : P t) :
    P (t.ensureSession σ now) := by
  have hrenewed : P (t.renewSession now) := h.frame (frame_renewSession now t) hP
  unfold Tab.ensureSession
  split
  · dsimp only
    split
    · exact h.push _ now rfl hrenewed
    · exact hrenewed
  · exact hP

theorem trackContent (h : Stable σ P) {content : Properties → Content} {now : Clock}
    (hpush : ∀ {t : Tab} (release : Properties), P t → P (t.push (content release) now))
    {t : Tab} (hP : P t) : P (t.trackContent σ content now) := by
  unfold Tab.trackContent
  split
  · have hpushed := hpush (t.ensureSession σ now).page.options.releaseContext
      (h.ensureSession now hP)
    have hstored := h.frame ((frame_touch now _).trans (frame_persistSession (σ := σ) _)) hpushed
    dsimp only
    split
    · exact h.flush _ hstored
    · exact h.frame (frame_scheduleFlush _) hstored
  · exact hP

theorem track (h : Stable σ P) (name : String) (properties : Properties) (now : Clock) {t : Tab}
    (hP : P t) : P (t.track σ name properties now) :=
  h.trackContent (fun _ => h.push _ now rfl) hP

theorem loadIdentity (h : Stable σ P) (now : Clock) {t : Tab} (hP : P t) :
    P (t.loadIdentity σ now) :=
  h.ensureSession now (h.frame ((frame_loadVisitor t).trans (frame_loadSession _)) hP)

/-- Consent is granted. -/
theorem grant (h : Stable σ P) (now : Clock)
    (hconsent : ∀ {t : Tab}, P t → P (t.setConsent .granted (some .granted)))
    (hstanding : ∀ {t : Tab}, P t → P { t with log := { t.log with standing := false } })
    {t : Tab} (hP : P t) : P (t.grant σ now) := by
  have hloaded := hstanding (h.loadIdentity now (hconsent hP))
  unfold Tab.grant
  dsimp only
  split
  · exact h.track _ _ now hloaded
  · exact hloaded

/-- The count is sent. -/
theorem reportDropped (h : Stable σ P) (now : Clock)
    (hcleared : ∀ {t : Tab}, P t → P { t with storage := { t.storage with dropped := none } })
    (hpush : ∀ {t : Tab} (n : Nat) (release : Properties), P t →
      P (t.push (.collectionDropped n release) now))
    {t : Tab} (hP : P t) : P (t.reportDropped σ now) := by
  unfold Tab.reportDropped
  split
  · dsimp only
    split
    · exact h.trackContent (fun release ht => hpush _ release ht) (hcleared hP)
    · exact hcleared hP
  · exact hP

/-- A page is loaded. -/
theorem init (h : Stable σ P) {options : MomentoOptions} {env : Env} (now : Clock)
    (hrestored : P ((opened σ options env).loadIdentity σ now) →
      P (((opened σ options env).loadIdentity σ now).restoreOffline σ))
    (hcleared : ∀ {t : Tab}, P t → P { t with storage := { t.storage with dropped := none } })
    (hpush : ∀ {t : Tab} (n : Nat) (release : Properties), P t →
      P (t.push (.collectionDropped n release) now))
    (hP : P (opened σ options env)) : P (Tab.init σ options now env) := by
  have hreported := h.reportDropped now hcleared hpush (hrestored (h.loadIdentity now hP))
  unfold Tab.init
  dsimp only
  split
  · exact h.track _ _ now hreported
  · exact hreported

end Stable

/-- No method but a save, a load and a withdrawal touches the offline queue. -/
theorem offline_stable (offline : Option StoredQueue) :
    Stable σ fun t => t.storage.own.offline = offline where
  frame := fun hf h => hf.offline.trans h
  push := fun _ _ _ h => h
  sent := by
    intro useBeacon t t' hcase h
    cases hcase with
    | idle => exact h
    | sent => exact h

theorem persistent_stable (persistent : Bool) :
    Stable σ fun t => t.page.isPersistent σ = persistent where
  frame := fun hf h => hf.isPersistent.trans h
  push := fun _ _ _ h => h
  sent := by
    intro useBeacon t t' hcase h
    cases hcase with
    | idle => exact h
    | sent => exact h

/-- What the own keys hold after the migration. -/
theorem own_migrate (storage : Storage) :
    ((migrateLegacyStorage σ storage).own.consent = storage.own.consent
        ∨ σ.environment = "prd" ∧ storage.own.consent = none
          ∧ (migrateLegacyStorage σ storage).own.consent = storage.legacy.consent)
      ∧ ((migrateLegacyStorage σ storage).own.visitor = storage.own.visitor
        ∨ (migrateLegacyStorage σ storage).own.visitor = storage.legacy.visitor)
      ∧ ((migrateLegacyStorage σ storage).own.offline = storage.own.offline
        ∨ (migrateLegacyStorage σ storage).own.offline = storage.legacy.offline) := by
  unfold migrateLegacyStorage
  split
  next hprd =>
    refine ⟨?_, ?_, ?_⟩
    · cases hconsent : storage.own.consent with
      | none => exact .inr ⟨hprd, rfl, rfl⟩
      | some c => exact .inl rfl
    · cases hvisitor : storage.own.visitor with
      | none => exact .inr rfl
      | some v => exact .inl rfl
    · cases hoffline : storage.own.offline with
      | none => exact .inr rfl
      | some saved => exact .inl rfl
  · exact ⟨.inl rfl, .inl rfl, .inl rfl⟩

theorem legacy_migrate (storage : Storage) :
    (migrateLegacyStorage σ storage).legacy = storage.legacy := by
  unfold migrateLegacyStorage
  split <;> rfl

end Tab

/-! ## §6. Rules for the tab over time. -/

namespace World

/-- `T` of the page, or `N` while there is none. -/
def Holds (T : Tab → Prop) (N : Env → Prop) (w : World) : Prop :=
  match w.page with
  | some p => T ⟨w.env, p⟩
  | none => N w.env

variable {T : Tab → Prop} {N : Env → Prop} {w : World}

theorem Holds.ofPage {p : Page} (h : w.Holds T N) (hp : w.page = some p) : T ⟨w.env, p⟩ := by
  simpa only [Holds, hp] using h

theorem Holds.ofEnv (h : w.Holds T N) (hp : w.page = none) : N w.env := by
  simpa only [Holds, hp] using h

/-- A step of the open page. -/
theorem Holds.onPage {f : Tab → Tab} (h : w.Holds T N)
    (hf : ∀ p, w.page = some p → T ⟨w.env, p⟩ → T (f ⟨w.env, p⟩)) : (w.onPage f).Holds T N := by
  unfold World.onPage
  cases hp : w.page with
  | none => exact h
  | some p => exact hf p hp (h.ofPage hp)

/-- A callback of a page. -/
theorem Holds.callback {f : Tab → Tab} (h : w.Holds T N)
    (hf : ∀ p, w.page = some p → T ⟨w.env, p⟩ → T (f ⟨w.env, p⟩)) : (w.callback f).Holds T N := by
  refine h.onPage fun p hp hT => ?_
  split
  · exact hT
  · exact hf p hp hT

/-- A page is opened. -/
theorem Holds.load {σ : Setting} {options : MomentoOptions} {now : Clock} (h : w.Holds T N)
    (hinit : w.page = none → N w.env → T (Tab.init σ options now w.env)) :
    (w.load σ options now).Holds T N := by
  unfold World.load
  cases hp : w.page with
  | none => exact hinit hp (h.ofEnv hp)
  | some p => exact h

/-- The page is closed. -/
theorem Holds.close (h : w.Holds T N)
    (hclose : ∀ p, w.page = some p → CanEnd p → T ⟨w.env, p⟩ → N (closed w.env p)) :
    w.close.Holds T N := by
  unfold World.close
  cases hp : w.page with
  | none => exact h
  | some p =>
    dsimp only
    split
    · next hends => exact hclose p hp hends (h.ofPage hp)
    · exact h

/-- A request without a page is settled. -/
theorem Holds.orphan {i : Nat} {outcome : Tab.Outcome} (h : w.Holds T N)
    (hsettled : ∀ payload, w.env.net.orphans[i]? = some payload →
      Holds T N { w with env := settled w.env i payload outcome }) :
    (w.orphan i outcome).Holds T N := by
  unfold World.orphan
  cases hi : w.env.net.orphans[i]? with
  | none => exact h
  | some payload => exact hsettled payload hi

end World

end Momento.Sdk
