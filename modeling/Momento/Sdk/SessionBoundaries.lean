/-
  Momento.Sdk.SessionBoundaries

  **WHERE ONE SESSION ENDS AND THE NEXT BEGINS.**  A tab that may track and store
  throughout.  The session is in the page and in storage, and the two differ
  between a load that renews it and the next event; the clock is read again and
  again inside one call (`Readings`).

      load                 — `loadIdentity` reads the stored session and renews it
      track                — renews it, stamps the event, stores it
      setSessionProperties — stores it, and does not look at the clock

  Main result: `sessions_bounded` — events passed to `track` are of one session
  exactly when no more than the timeout lies between them, and every session they
  are of began with its one `session_start`; as long as the clock is past the
  timeout at all, and does not pass it between two readings of one call.
-/
import Momento.Foundation.Runs
import Momento.Sdk.Custody

namespace Momento.Sdk

open Foundation

/-! ## §1. The clock inside a call. -/

/-- The readings of `Date.now()` in one call of `track`. -/
structure Readings where
  /-- In the condition of `ensureSession`. -/
  checked : Clock
  /-- For the session that begins. -/
  renewed : Clock
  /-- For the event. -/
  stamped : Clock
  ordered : checked ≤ renewed ∧ renewed ≤ stamped

/-- The readings in one call of `init`: in `loadIdentity`, in `reportDropped` and for
the page view. -/
structure LoadReadings where
  identity : Readings
  dropped : Readings
  pageView : Readings
  ordered : identity.renewed ≤ dropped.checked ∧ dropped.stamped ≤ pageView.checked

section Methods
variable (σ : Setting)

namespace Tab

/-- `ensureSession`. -/
def ensureSessionAt (r : Readings) (t : Tab) : Tab :=
  if t.page.timeout < r.checked - t.page.lastEventAt then
    let t := t.renewSession r.renewed
    if t.page.canTrack σ then t.push (.sessionStart t.page.options.releaseContext) r.renewed else t
  else t

/-- `track`, after its event is in the queue. -/
def tracked (content : Properties → Content) (now : Clock) (t : Tab) : Tab :=
  ((t.push (content t.page.options.releaseContext) now).touch now).persistSession σ

/-- `track`, reading by reading. -/
def trackContentAt (content : Properties → Content) (r : Readings) (t : Tab) : Tab :=
  if t.page.canTrack σ then
    let t := (t.ensureSessionAt σ r).tracked σ content r.stamped
    if t.page.batchSize ≤ t.page.queue.length then t.flush σ false else t.scheduleFlush
  else t

/-- `track`. -/
def trackAt (name : String) (properties : Properties) (r : Readings) (t : Tab) : Tab :=
  t.trackContentAt σ (fun release => .tracked name (properties.concat release)) r

/-- `reportDropped`. -/
def reportDroppedAt (r : Readings) (t : Tab) : Tab :=
  if t.page.isPersistent σ then
    let dropped := t.storage.dropped.getD 0
    let t := { t with storage := { t.storage with dropped := none } }
    if 0 < dropped then t.trackContentAt σ (.collectionDropped dropped) r else t
  else t

/-- `init` up to `restoreOffline`. -/
def restoredAt (options : MomentoOptions) (r : Readings) (env : Env) : Tab :=
  ((((opened σ options env).loadVisitor σ).loadSession σ).ensureSessionAt σ r).restoreOffline σ

/-- `init`. -/
def initAt (options : MomentoOptions) (r : LoadReadings) (env : Env) : Tab :=
  let t := (restoredAt σ options r.identity env).reportDroppedAt σ r.dropped
  if t.page.options.autoTrack then t.trackAt σ "page_view" [] r.pageView else t

end Tab

/-- A clock that stands still during a call. -/
def Readings.still (now : Clock) : Readings := ⟨now, now, now, le_rfl, le_rfl⟩

/-- A load with one reading. -/
def LoadReadings.still (now : Clock) : LoadReadings :=
  ⟨.still now, .still now, .still now, le_rfl, le_rfl⟩

theorem trackAt_still (name : String) (properties : Properties) (now : Clock) (t : Tab) :
    t.trackAt σ name properties (.still now) = t.track σ name properties now := rfl

theorem initAt_still (options : MomentoOptions) (now : Clock) (env : Env) :
    Tab.initAt σ options (.still now) env = Tab.init σ options now env := rfl

end Methods

/-! ## §2. Runs. -/

/-- The tab, and the last reading of the clock. -/
structure Sitting where
  world : World
  now : Clock

/-- What can happen. -/
inductive SittingAction where
  | load (options : MomentoOptions) (readings : LoadReadings)
  | track (name : String) (properties : Properties) (readings : Readings)
  | other (action : Action)

/-- Neither an event nor a decision about tracking. -/
def Action.Quiet : Action → Prop
  | .load _ _ | .track _ _ _ | .grant _ | .deny _ | .revoke _ => False
  | _ => True

instance (action : Action) : Decidable action.Quiet := by
  cases action <;> unfold Action.Quiet <;> infer_instance

namespace Sitting
variable (σ : Setting) (s : Sitting)

/-- **A step.** -/
def step : SittingAction → Sitting
  | .load options r =>
    match s.world.page with
    | none => ⟨.ofTab (Tab.initAt σ options r s.world.env), r.pageView.stamped⟩
    | some _ => s
  | .track name properties r => ⟨s.world.onPage fun t => t.trackAt σ name properties r, r.stamped⟩
  | .other action => ⟨Momento.Sdk.step σ s.world action, s.now⟩

end Sitting

/-! ## §3. What is claimed, and where it holds. -/

/-- A `session_start`. -/
def Tracked.isStart (r : Tracked) : Bool :=
  match r.event.content with
  | .sessionStart _ => true
  | _ => false

/-- The events passed to `track`, of all that were queued. -/
def passed (l : List Tracked) : List Tracked := l.filter fun r => !r.isStart

/-- The events of a session begin with its `session_start`, and have no other. -/
def Begins (l : List Tracked) (session : Option Id) : Prop :=
  ∃ start rest, l.filter (fun r => r.event.sessionId = session) = start :: rest
    ∧ start.isStart = true ∧ ∀ r ∈ rest, r.isStart = false

/-- **The boundaries of the sessions** in what was queued, in its order. -/
structure SessionBounded (timeout : Int) (l : List Tracked) : Prop where
  split : (passed l).IsChain fun r r' =>
    r.event.sessionId = r'.event.sessionId ↔ r'.event.timestamp - r.event.timestamp ≤ timeout
  begun : ∀ r ∈ passed l, Begins l r.event.sessionId

/-- The call's clock is past the timeout, and passes it since the last event before it
is first looked at or not at all. -/
def Tab.OnTime (timeout : Int) (r : Readings) (t : Tab) : Prop :=
  timeout < r.checked ∧ ∀ e ∈ (passed t.log.tracked).getLast?,
    r.checked - e.event.timestamp ≤ timeout → r.stamped - e.event.timestamp ≤ timeout

section Conditions
variable (σ : Setting) (timeout : Int) (s : Sitting)

/-- The clock does not go back; every page tracks, stores and has the one timeout. -/
def Admitted : SittingAction → Prop
  | .load options r =>
    s.now ≤ r.identity.checked
      ∧ (Tab.opened σ options s.world.env).page.canTrack σ = true
      ∧ (Tab.opened σ options s.world.env).page.isPersistent σ = true
      ∧ (Tab.opened σ options s.world.env).page.timeout = timeout
  | .track _ _ r => s.now ≤ r.checked
  | .other action => action.Quiet

/-- Every call of `track` is on time. -/
def Punctual : SittingAction → Prop
  | .load options r =>
    s.world.page.isNone →
      (0 < (Tab.restoredAt σ options r.identity s.world.env).storage.dropped.getD 0 →
        (Tab.restoredAt σ options r.identity s.world.env).OnTime timeout r.dropped)
      ∧ (((Tab.restoredAt σ options r.identity s.world.env).reportDroppedAt σ r.dropped).page.options.autoTrack →
        ((Tab.restoredAt σ options r.identity s.world.env).reportDroppedAt σ r.dropped).OnTime timeout r.pageView)
  | .track _ _ r => ∀ p ∈ s.world.page, Tab.OnTime timeout r ⟨s.world.env, p⟩
  | .other _ => True

instance (r : Readings) (t : Tab) : Decidable (t.OnTime timeout r) :=
  inferInstanceAs (Decidable (_ ∧ ∀ e ∈ (passed t.log.tracked).getLast?, _))

instance (action : SittingAction) : Decidable (Admitted σ timeout s action) := by
  cases action <;> unfold Admitted <;> infer_instance

instance (action : SittingAction) : Decidable (Punctual σ timeout s action) := by
  cases action <;> unfold Punctual <;> infer_instance

end Conditions

/-! ## §4. One more event in the queue. -/

section Lists
variable {l : List Tracked} {r : Tracked} {timeout : Int} {session : Option Id}

theorem passed_append_start (hr : r.isStart = true) : passed (l ++ [r]) = passed l := by
  simp [passed, hr]

theorem passed_append_passed (hr : r.isStart = false) : passed (l ++ [r]) = passed l ++ [r] := by
  simp [passed, hr]

/-- A session without events begins with its `session_start`. -/
theorem begins_append_start (hfresh : ∀ e ∈ l, e.event.sessionId ≠ session)
    (hr : r.event.sessionId = session) (hstart : r.isStart = true) : Begins (l ++ [r]) session := by
  refine ⟨r, [], ?_, hstart, fun _ he => nomatch he⟩
  have hnone : l.filter (fun e => e.event.sessionId = session) = [] := by
    apply List.filter_eq_nil_iff.mpr
    intro e he
    simpa using hfresh e he
  rw [List.filter_append, hnone]
  simp [hr]

/-- Later events of other sessions, and later ones passed to `track`, leave its beginning. -/
theorem Begins.append (h : Begins l session) (hr : r.event.sessionId = session → r.isStart = false) :
    Begins (l ++ [r]) session := by
  obtain ⟨start, rest, hfilter, hstart, hrest⟩ := h
  by_cases hsession : r.event.sessionId = session
  · refine ⟨start, rest ++ [r], ?_, hstart, ?_⟩
    · rw [List.filter_append, hfilter]
      simp [hsession]
    · intro e he
      rcases List.mem_append.mp he with hold | hnew
      · exact hrest e hold
      · rw [List.mem_singleton.mp hnew]
        exact hr hsession
  · refine ⟨start, rest, ?_, hstart, hrest⟩
    rw [List.filter_append, hfilter]
    simp [hsession]

theorem sessionBounded_nil : SessionBounded timeout [] where
  split := List.isChain_nil
  begun _ hr := nomatch hr

/-- A session that no event is of begins. -/
theorem SessionBounded.append_start (h : SessionBounded timeout l)
    (hfresh : ∀ e ∈ l, e.event.sessionId ≠ r.event.sessionId) (hr : r.isStart = true) :
    SessionBounded timeout (l ++ [r]) where
  split := by
    rw [passed_append_start hr]
    exact h.split
  begun := by
    rw [passed_append_start hr]
    intro e he
    refine (h.begun e he).append fun hsession => ?_
    exact absurd hsession.symm (hfresh e (List.mem_of_mem_filter he))

/-- An event is passed to `track`, of a session that has begun. -/
theorem SessionBounded.append_passed (h : SessionBounded timeout l) (hr : r.isStart = false)
    (hbegun : Begins l r.event.sessionId)
    (hlast : ∀ e ∈ (passed l).getLast?,
      (e.event.sessionId = r.event.sessionId ↔ r.event.timestamp - e.event.timestamp ≤ timeout)) :
    SessionBounded timeout (l ++ [r]) where
  split := by
    rw [passed_append_passed hr]
    refine List.IsChain.append h.split (List.isChain_singleton r) ?_
    intro e he e' he'
    rw [List.head?_singleton, Option.mem_some_iff] at he'
    subst he'
    exact hlast e he
  begun := by
    rw [passed_append_passed hr]
    intro e he
    rcases List.mem_append.mp he with hold | hnew
    · exact (h.begun e hold).append fun _ => hr
    · rw [List.mem_singleton.mp hnew]
      exact hbegun.append fun _ => hr

/-- What a session and the time of its last event tell about the queue.  Nothing was
passed to `track` yet; or the session has begun, and the last event is of it, or lies
more than the timeout before its renewal. -/
def Fits (timeout : Int) (now : Clock) (l : List Tracked) (session : Id) (last : Clock) : Prop :=
  (last = 0 ∧ passed l = [] ∧ ∀ e ∈ l, e.event.sessionId ≠ some session)
    ∨ (Begins l (some session) ∧ last ≤ now ∧ ∀ e ∈ (passed l).getLast?,
      e.event.sessionId = some session ∧ e.event.timestamp = last
        ∨ e.event.sessionId ≠ some session ∧ timeout < last - e.event.timestamp)

theorem Fits.later {now now' : Clock} {i : Id} {last : Clock} (h : Fits timeout now l i last)
    (hnow : now ≤ now') : Fits timeout now' l i last := by
  rcases h with hnone | ⟨hbegun, hlast, hevents⟩
  · exact .inl hnone
  · exact .inr ⟨hbegun, hlast.trans hnow, hevents⟩

/-- Another session begins. -/
theorem Fits.append_start {now : Clock} {i : Id} {last : Clock} (h : Fits timeout now l i last)
    (hr : r.isStart = true) (hother : r.event.sessionId ≠ some i) :
    Fits timeout now (l ++ [r]) i last := by
  unfold Fits
  rw [passed_append_start hr]
  rcases h with ⟨hzero, hpassed, hnone⟩ | ⟨hbegun, hlast, hevents⟩
  · refine .inl ⟨hzero, hpassed, ?_⟩
    intro e he
    rcases List.mem_append.mp he with hold | hnew
    · exact hnone e hold
    · rw [List.mem_singleton.mp hnew]
      exact hother
  · exact .inr ⟨hbegun.append fun hsession => absurd hsession hother, hlast, hevents⟩

/-- The last event is of the session, and at its time. -/
theorem fits_passed {i : Id} (hr : r.isStart = false) (hsession : r.event.sessionId = some i)
    (hbegun : Begins l (some i)) : Fits timeout r.event.timestamp (l ++ [r]) i r.event.timestamp := by
  refine .inr ⟨hbegun.append fun _ => hr, le_rfl, ?_⟩
  intro e he
  rw [passed_append_passed hr, List.getLast?_append, List.getLast?_singleton, Option.some_or,
    Option.mem_some_iff] at he
  subst he
  exact .inl ⟨hsession, rfl⟩

end Lists

/-! ## §5. The invariant. -/

/-- The stored session, and the page's. -/
structure Env.Bounded (timeout : Int) (now : Clock) (env : Env) : Prop where
  bounded : SessionBounded timeout env.log.tracked
  older : ∀ e ∈ env.log.tracked, ∀ i, e.event.sessionId = some i → i < env.nextId
  unstored : env.storage.own.session = none → passed env.log.tracked = []
  stored : ∀ s, env.storage.own.session = some s →
    ∃ i, s.id = some i ∧ i < env.nextId ∧ Fits timeout now env.log.tracked i s.last
  legacy : env.storage.legacy.session = none

namespace Tab

/-- **The invariant of a page.** -/
structure Bounded (σ : Setting) (timeout : Int) (now : Clock) (t : Tab) : Prop extends
    t.toEnv.Bounded timeout now where
  current : Fits timeout now t.log.tracked t.page.sessionId t.page.lastEventAt
  given : t.page.sessionId < t.nextId
  tracks : t.page.canTrack σ = true
  persists : t.page.isPersistent σ = true
  timed : t.page.timeout = timeout

/-- Nothing of the session has changed. -/
structure SameSession (t t' : Tab) : Prop where
  nextId : t'.nextId = t.nextId
  tracked : t'.log.tracked = t.log.tracked
  session : t'.storage.own.session = t.storage.own.session
  legacy : t'.storage.legacy = t.storage.legacy
  sessionId : t'.page.sessionId = t.page.sessionId
  lastEventAt : t'.page.lastEventAt = t.page.lastEventAt
  options : t'.page.options = t.page.options
  consentState : t'.page.consentState = t.page.consentState

section Same
variable {σ : Setting} {t t' t'' : Tab}

theorem SameSession.refl (t : Tab) : t.SameSession t := ⟨rfl, rfl, rfl, rfl, rfl, rfl, rfl, rfl⟩

theorem SameSession.trans (h : t.SameSession t') (h' : t'.SameSession t'') : t.SameSession t'' where
  nextId := h'.nextId.trans h.nextId
  tracked := h'.tracked.trans h.tracked
  session := h'.session.trans h.session
  legacy := h'.legacy.trans h.legacy
  sessionId := h'.sessionId.trans h.sessionId
  lastEventAt := h'.lastEventAt.trans h.lastEventAt
  options := h'.options.trans h.options
  consentState := h'.consentState.trans h.consentState

theorem same_recordDropped (room : Bool) (events : List QueuedEvent) (t : Tab) :
    t.SameSession (t.recordDropped σ room events) := by
  unfold recordDropped
  split
  · exact .refl t
  · exact ⟨rfl, rfl, rfl, rfl, rfl, rfl, rfl, rfl⟩

theorem same_saveOffline (room : Room) (t : Tab) : t.SameSession (t.saveOffline σ room) := by
  have htrimmed := same_recordDropped (σ := σ) room.trimmed (trimmedOffline t.page.queue) t
  unfold saveOffline
  generalize t.recordDropped σ room.trimmed (trimmedOffline t.page.queue) = counted at htrimmed ⊢
  split
  · dsimp only
    split
    · exact htrimmed.trans ⟨rfl, rfl, rfl, rfl, rfl, rfl, rfl, rfl⟩
    · exact htrimmed.trans (same_recordDropped _ _ _)
  · exact .refl t

theorem same_setQueue (queue : List QueuedEvent) (t : Tab) : t.SameSession (t.setQueue queue) :=
  ⟨rfl, rfl, rfl, rfl, rfl, rfl, rfl, rfl⟩

theorem same_setFlushes (flushes : List Flush) (t : Tab) : t.SameSession (t.setFlushes flushes) :=
  ⟨rfl, rfl, rfl, rfl, rfl, rfl, rfl, rfl⟩

theorem same_accept (payload : Payload) (t : Tab) : t.SameSession (t.accept payload) :=
  ⟨rfl, rfl, rfl, rfl, rfl, rfl, rfl, rfl⟩

theorem same_hand (payload : Payload) (t : Tab) : t.SameSession (t.hand payload) :=
  ⟨rfl, rfl, rfl, rfl, rfl, rfl, rfl, rfl⟩

theorem same_setHidden (hidden : Bool) (t : Tab) : t.SameSession (t.setHidden hidden) :=
  ⟨rfl, rfl, rfl, rfl, rfl, rfl, rfl, rfl⟩

theorem same_rescheduled (t : Tab) : t.SameSession t.rescheduled := by
  unfold rescheduled
  split
  · exact .refl t
  · exact ⟨rfl, rfl, rfl, rfl, rfl, rfl, rfl, rfl⟩

theorem same_requeue (batch : List QueuedEvent) (room : Room) (t : Tab) :
    t.SameSession (t.requeue σ batch room) := (same_setQueue _ t).trans (same_saveOffline room _)

theorem same_flush (useBeacon : Bool) (t : Tab) : t.SameSession (t.flush σ useBeacon) := by
  have hunbatched : t.SameSession t.unbatched := same_setQueue _ t
  generalize ht' : t.flush σ useBeacon = t'
  have hcase : FlushCase σ useBeacon t t' := ht' ▸ flush_case useBeacon t
  cases hcase with
  | idle hidle => exact .refl t
  | sent group rest htrack hgroups =>
    exact hunbatched.trans ((same_hand _ _).trans (same_setFlushes _ _))

theorem same_timerFired (t : Tab) : t.SameSession (t.timerFired σ) := by
  unfold timerFired
  split
  · have hcleared : t.SameSession { t with page := { t.page with timer := false } } :=
      ⟨rfl, rfl, rfl, rfl, rfl, rfl, rfl, rfl⟩
    exact hcleared.trans (same_flush _ _)
  · exact .refl t

theorem same_hide (t : Tab) : t.SameSession (t.hide σ) := by
  unfold hide
  split
  · exact .refl t
  split
  · exact (same_setHidden true t).trans (same_flush _ _)
  · exact same_setHidden true t

theorem same_answered (i : Nat) (outcome : Outcome) (room : Room) (t : Tab) :
    t.SameSession (t.answered σ i outcome room) := by
  generalize ht' : t.answered σ i outcome room = t'
  have hcase : AnsweredCase σ i room t outcome t' := ht' ▸ answered_case i outcome room t
  cases hcase with
  | nobody hi => exact .refl t
  | done before after f hi hf hrest =>
    exact (same_accept _ t).trans ((same_setFlushes _ _).trans (same_rescheduled _))
  | next before after f hi hf group rest hrest =>
    exact (same_accept _ t).trans ((same_hand _ _).trans (same_setFlushes _ _))
  | lost before after f hi hf =>
    exact (same_accept _ t).trans ((same_setFlushes _ _).trans (same_requeue _ _ _))
  | failed before after f hi hf => exact (same_setFlushes _ t).trans (same_requeue _ _ _)

theorem same_identify (userId : String) (properties : Properties) (t : Tab) :
    t.SameSession (t.identify σ userId properties) := by
  unfold identify
  split
  · exact .refl t
  · exact ⟨rfl, rfl, rfl, rfl, rfl, rfl, rfl, rfl⟩

theorem same_restoreOffline (t : Tab) : t.SameSession (t.restoreOffline σ) := by
  unfold restoreOffline
  split
  · dsimp only
    split
    · exact .refl t
    · exact ⟨rfl, rfl, rfl, rfl, rfl, rfl, rfl, rfl⟩
    · exact ⟨rfl, rfl, rfl, rfl, rfl, rfl, rfl, rfl⟩
    · exact .refl t
  · exact .refl t

variable {timeout : Int} {now : Clock}

theorem Bounded.same (h : t.Bounded σ timeout now) (hs : t.SameSession t') : t'.Bounded σ timeout now where
  bounded := by
    rw [hs.tracked]
    exact h.bounded
  older := by
    rw [hs.tracked, hs.nextId]
    exact h.older
  unstored := by
    rw [hs.tracked, hs.session]
    exact h.unstored
  stored := by
    rw [hs.tracked, hs.session, hs.nextId]
    exact h.stored
  legacy := by
    rw [hs.legacy]
    exact h.legacy
  current := by
    rw [hs.tracked, hs.sessionId, hs.lastEventAt]
    exact h.current
  given := by
    rw [hs.sessionId, hs.nextId]
    exact h.given
  tracks := by
    have htracks := h.tracks
    unfold Page.canTrack at htracks ⊢
    rwa [hs.options, hs.consentState]
  persists := by
    have hpersists := h.persists
    unfold Page.isPersistent at hpersists ⊢
    rwa [hs.options, hs.consentState]
  timed := by
    have htimed := h.timed
    unfold Page.timeout at htimed ⊢
    rwa [hs.options]

end Same

/-! ## §6. What the methods do to the session. -/

section Sessions
variable {σ : Setting} {timeout : Int} {now : Clock} {t : Tab}

theorem Bounded.later {now' : Clock} (h : t.Bounded σ timeout now) (hnow : now ≤ now') :
    t.Bounded σ timeout now' :=
  { h with
    stored := by
      intro s hs
      obtain ⟨i, hi, hgiven, hfits⟩ := h.stored s hs
      exact ⟨i, hi, hgiven, hfits.later hnow⟩
    current := h.current.later hnow }

/-- A session begins: its id is new, and no event was passed to `track` in between. -/
theorem Bounded.renewed (h : t.Bounded σ timeout now) (r : Readings) (hnow : now ≤ r.checked)
    (hgap : timeout < r.checked - t.page.lastEventAt) (release : Properties) :
    ((t.renewSession r.renewed).push (.sessionStart release) r.renewed).Bounded σ timeout r.renewed
      ∧ Begins ((t.renewSession r.renewed).push (.sessionStart release) r.renewed).log.tracked (some t.nextId) := by
  have hrenewed : r.checked ≤ r.renewed := r.ordered.1
  have hother : ∀ e ∈ t.log.tracked, e.event.sessionId ≠ some t.nextId := by
    intro e he hsession
    exact absurd (h.older e he _ hsession) (Nat.lt_irrefl _)
  have hbegins : Begins ((t.renewSession r.renewed).push (.sessionStart release) r.renewed).log.tracked
      (some t.nextId) := begins_append_start hother rfl rfl
  refine ⟨⟨⟨?_, ?_, ?_, ?_, h.legacy⟩, ?_, ?_, h.tracks, h.persists, h.timed⟩, hbegins⟩
  · exact h.bounded.append_start hother rfl
  · intro e he i hsession
    rcases List.mem_append.mp he with hold | hnew
    · exact Nat.lt_add_right 2 (h.older e hold i hsession)
    · rw [List.mem_singleton.mp hnew] at hsession
      cases hsession
      exact Nat.lt_add_of_pos_right Nat.two_pos
  · intro hnone
    show passed (t.log.tracked ++ [_]) = []
    rw [passed_append_start rfl]
    exact h.unstored hnone
  · intro s hs
    obtain ⟨i, hi, hgiven, hfits⟩ := h.stored s hs
    refine ⟨i, hi, Nat.lt_add_right 2 hgiven, (hfits.append_start rfl ?_).later (hnow.trans hrenewed)⟩
    intro hsame
    injection hsame with hsame
    exact absurd hsame hgiven.ne'
  · refine .inr ⟨hbegins, le_rfl, ?_⟩
    intro e he
    change e ∈ (passed (t.log.tracked ++ [_])).getLast? at he
    rw [passed_append_start rfl] at he
    have hmem : e ∈ t.log.tracked := List.mem_of_mem_filter (List.mem_of_getLast? he)
    refine .inr ⟨hother e hmem, ?_⟩
    show timeout < r.renewed - e.event.timestamp
    rcases h.current with ⟨-, hpassed, -⟩ | ⟨-, hlast, hevents⟩
    · rw [hpassed] at he
      cases he
    · rcases hevents e he with ⟨-, htime⟩ | ⟨-, hbefore⟩
      · rw [htime]
        exact lt_of_lt_of_le hgap (Int.sub_le_sub_right hrenewed _)
      · exact lt_of_lt_of_le hbefore (Int.sub_le_sub_right ((hlast.trans hnow).trans hrenewed) _)
  · exact Nat.lt_add_of_pos_right Nat.two_pos

/-- **`ensureSession`**: where the clock is past the timeout, the page's session has
begun; an event before it of the same session is not too old. -/
theorem Bounded.ensureSessionAt (h : t.Bounded σ timeout now) (r : Readings) (hnow : now ≤ r.checked) :
    (t.ensureSessionAt σ r).Bounded σ timeout r.renewed
      ∧ (timeout < r.checked →
        Begins (t.ensureSessionAt σ r).log.tracked (some (t.ensureSessionAt σ r).page.sessionId))
      ∧ passed (t.ensureSessionAt σ r).log.tracked = passed t.log.tracked
      ∧ ∀ e ∈ (passed t.log.tracked).getLast?,
        e.event.sessionId = some (t.ensureSessionAt σ r).page.sessionId →
          r.checked - e.event.timestamp ≤ timeout := by
  unfold Tab.ensureSessionAt
  rw [h.timed]
  split
  next hgap =>
    dsimp only
    rw [if_pos (show (t.renewSession r.renewed).page.canTrack σ = true from h.tracks)]
    obtain ⟨hbounded, hbegins⟩ := h.renewed r hnow hgap t.page.options.releaseContext
    refine ⟨hbounded, fun _ => hbegins, passed_append_start rfl, ?_⟩
    intro e he hsession
    have hmem : e ∈ t.log.tracked := List.mem_of_mem_filter (List.mem_of_getLast? he)
    exact absurd (h.older e hmem _ hsession) (Nat.lt_irrefl _)
  next hgap =>
    refine ⟨h.later (hnow.trans r.ordered.1), ?_, rfl, ?_⟩
    · intro hclock
      rcases h.current with ⟨hzero, -, -⟩ | ⟨hbegins, -, -⟩
      · rw [hzero] at hgap
        omega
      · exact hbegins
    · intro e he hsession
      rcases h.current with ⟨-, hpassed, -⟩ | ⟨-, -, hevents⟩
      · rw [hpassed] at he
        cases he
      · rcases hevents e he with ⟨-, htime⟩ | ⟨hother, -⟩
        · rw [htime]
          exact not_lt.mp hgap
        · exact absurd hsession hother

/-- An event is passed to `track`, and its session stored. -/
theorem Bounded.tracked (h : t.Bounded σ timeout now) {content : Properties → Content} {stamped : Clock}
    (hcontent : ∀ release, (∀ p, content release ≠ .sessionStart p)) (hnow : now ≤ stamped)
    (hbegins : Begins t.log.tracked (some t.page.sessionId))
    (hgap : ∀ e ∈ (passed t.log.tracked).getLast?, e.event.sessionId = some t.page.sessionId →
      stamped - e.event.timestamp ≤ timeout) :
    (t.tracked σ content stamped).Bounded σ timeout stamped := by
  let pushed : Tab := (t.push (content t.page.options.releaseContext) stamped).touch stamped
  have hstored : t.tracked σ content stamped = { pushed with
      storage := { pushed.storage with
        own := { pushed.storage.own with
          session := some ⟨some t.page.sessionId, stamped, some t.page.sessionProperties⟩ } } } := by
    show (if pushed.page.isPersistent σ then _ else pushed) = _
    rw [if_pos (show pushed.page.isPersistent σ = true from h.persists)]
    rfl
  obtain ⟨entry, hentry, hstart, hsession, htime⟩ :
      ∃ e : Tracked, pushed.log.tracked = t.log.tracked ++ [e] ∧ e.isStart = false
        ∧ e.event.sessionId = some t.page.sessionId ∧ e.event.timestamp = stamped := by
    refine ⟨_, rfl, ?_, rfl, rfl⟩
    unfold Tracked.isStart
    show (match content t.page.options.releaseContext with | .sessionStart _ => true | _ => false) = false
    split
    next p hp => exact absurd hp (hcontent _ p)
    · rfl
  have hfits : Fits timeout stamped (t.log.tracked ++ [entry]) t.page.sessionId stamped := by
    rw [← htime]
    exact fits_passed hstart hsession hbegins
  rw [hstored]
  refine ⟨⟨?_, ?_, fun hnone => ?_, ?_, h.legacy⟩, ?_, ?_, h.tracks, h.persists, h.timed⟩
  · show SessionBounded timeout pushed.log.tracked
    rw [hentry]
    refine h.bounded.append_passed hstart ?_ ?_
    · rw [hsession]
      exact hbegins
    · intro e he
      rw [hsession, htime]
      constructor
      · exact hgap e he
      · intro hclose
        rcases h.current with ⟨-, hpassed, -⟩ | ⟨-, hlast, hevents⟩
        · rw [hpassed] at he
          cases he
        · rcases hevents e he with ⟨hsame, -⟩ | ⟨-, hbefore⟩
          · exact hsame
          · have hlong := lt_of_lt_of_le hbefore (Int.sub_le_sub_right (hlast.trans hnow) e.event.timestamp)
            exact absurd hclose (not_le.mpr hlong)
  · show ∀ e ∈ pushed.log.tracked, ∀ i, e.event.sessionId = some i → i < t.nextId + 1
    rw [hentry]
    intro e he i hi
    rcases List.mem_append.mp he with hold | hnew
    · exact Nat.lt_add_right 1 (h.older e hold i hi)
    · rw [List.mem_singleton.mp hnew, hsession] at hi
      cases hi
      exact Nat.lt_add_right 1 h.given
  · cases hnone
  · intro s hs
    cases hs
    refine ⟨t.page.sessionId, rfl, Nat.lt_add_right 1 h.given, ?_⟩
    show Fits timeout stamped pushed.log.tracked t.page.sessionId stamped
    rw [hentry]
    exact hfits
  · show Fits timeout stamped pushed.log.tracked t.page.sessionId stamped
    rw [hentry]
    exact hfits
  · exact Nat.lt_add_right 1 h.given

/-- **`track`**, on time. -/
theorem Bounded.trackContentAt (h : t.Bounded σ timeout now) {content : Properties → Content} {r : Readings}
    (hcontent : ∀ release, (∀ p, content release ≠ .sessionStart p)) (hnow : now ≤ r.checked)
    (htime : t.OnTime timeout r) : (t.trackContentAt σ content r).Bounded σ timeout r.stamped := by
  unfold Tab.trackContentAt
  rw [if_pos h.tracks]
  obtain ⟨hensured, hbegins, hpassed, hgap⟩ := h.ensureSessionAt r hnow
  have htracked : ((t.ensureSessionAt σ r).tracked σ content r.stamped).Bounded σ timeout r.stamped := by
    refine hensured.tracked hcontent r.ordered.2 (hbegins htime.1) ?_
    rw [hpassed]
    intro e he hsession
    exact htime.2 e he (hgap e he hsession)
  dsimp only
  split
  · exact htracked.same (same_flush _ _)
  · exact htracked.same ⟨rfl, rfl, rfl, rfl, rfl, rfl, rfl, rfl⟩

theorem Bounded.trackAt (h : t.Bounded σ timeout now) {name : String} {properties : Properties} {r : Readings}
    (hnow : now ≤ r.checked) (htime : t.OnTime timeout r) :
    (t.trackAt σ name properties r).Bounded σ timeout r.stamped :=
  h.trackContentAt (fun _ _ hcontent => nomatch hcontent) hnow htime

theorem Bounded.reportDroppedAt (h : t.Bounded σ timeout now) {r : Readings} (hnow : now ≤ r.checked)
    (htime : 0 < t.storage.dropped.getD 0 → t.OnTime timeout r) :
    (t.reportDroppedAt σ r).Bounded σ timeout r.stamped := by
  have hlater : now ≤ r.stamped := hnow.trans (r.ordered.1.trans r.ordered.2)
  unfold Tab.reportDroppedAt
  rw [if_pos h.persists]
  have hcleared : t.SameSession { t with storage := { t.storage with dropped := none } } :=
    ⟨rfl, rfl, rfl, rfl, rfl, rfl, rfl, rfl⟩
  dsimp only
  split
  next hdropped =>
    exact (h.same hcleared).trackContentAt (fun _ _ hcontent => nomatch hcontent) hnow (htime hdropped)
  · exact (h.same hcleared).later hlater

theorem Bounded.setSessionProperties (h : t.Bounded σ timeout now) (properties : Properties) :
    (t.setSessionProperties σ properties).Bounded σ timeout now := by
  unfold Tab.setSessionProperties Tab.persistSession
  rw [if_pos (show Page.isPersistent σ { t.page with
    sessionProperties := t.page.sessionProperties.concat properties } = true from h.persists)]
  refine ⟨⟨h.bounded, h.older, fun hnone => ?_, ?_, h.legacy⟩, h.current, h.given, h.tracks, h.persists, h.timed⟩
  · cases hnone
  · intro s hs
    cases hs
    exact ⟨t.page.sessionId, rfl, h.given, h.current⟩

/-! ## §7. A page load. -/

theorem session_loadVisitor (t : Tab) : (t.loadVisitor σ).storage.own.session = t.storage.own.session := by
  unfold loadVisitor
  split
  · split <;> rfl
  · rfl

theorem session_migrate {storage : Storage} (hlegacy : storage.legacy.session = none) :
    (migrateLegacyStorage σ storage).own.session = storage.own.session := by
  unfold migrateLegacyStorage
  split
  · show storage.own.session.or storage.legacy.session = _
    rw [hlegacy, Option.or_none]
  · rfl

/-- The session `loadIdentity` finds: the stored one, or a new one that no event is of. -/
theorem bounded_loaded {env : Env} {options : MomentoOptions} (h : env.Bounded timeout now)
    (htracks : (opened σ options env).page.canTrack σ = true)
    (hpersists : (opened σ options env).page.isPersistent σ = true)
    (htimed : (opened σ options env).page.timeout = timeout) :
    (((opened σ options env).loadVisitor σ).loadSession σ).Bounded σ timeout now := by
  have hvisitor := frame_loadVisitor (σ := σ) (opened σ options env)
  have hsession : ((opened σ options env).loadVisitor σ).storage.own.session = env.storage.own.session :=
    (session_loadVisitor _).trans (session_migrate h.legacy)
  have hlegacy : ((opened σ options env).loadVisitor σ).storage.legacy = env.storage.legacy :=
    hvisitor.legacy.trans (legacy_migrate env.storage)
  have hlog : ((opened σ options env).loadVisitor σ).log = env.log := hvisitor.log
  have hnext : env.nextId ≤ ((opened σ options env).loadVisitor σ).nextId := hvisitor.nextId
  have hstores : ((opened σ options env).loadVisitor σ).page.isPersistent σ = true :=
    hvisitor.isPersistent.trans hpersists
  have hcan : ((opened σ options env).loadVisitor σ).page.canTrack σ = true := hvisitor.canTrack.trans htracks
  have hlimit : ((opened σ options env).loadVisitor σ).page.timeout = timeout := by
    unfold Page.timeout at htimed ⊢
    rw [hvisitor.options]
    exact htimed
  generalize (opened σ options env).loadVisitor σ = t at hsession hlegacy hlog hnext hstores hcan hlimit
  unfold loadSession
  rw [if_pos hstores]
  refine ⟨⟨?_, ?_, ?_, ?_, ?_⟩, ?_, ?_, hcan, hstores, hlimit⟩
  · show SessionBounded timeout t.log.tracked
    rw [hlog]
    exact h.bounded
  · show ∀ e ∈ t.log.tracked, ∀ i, e.event.sessionId = some i → i < t.nextId + 1
    rw [hlog]
    intro e he i hi
    exact Nat.lt_add_right 1 ((h.older e he i hi).trans_le hnext)
  · show t.storage.own.session = none → passed t.log.tracked = []
    rw [hsession, hlog]
    exact h.unstored
  · show ∀ s, t.storage.own.session = some s →
      ∃ i, s.id = some i ∧ i < t.nextId + 1 ∧ Fits timeout now t.log.tracked i s.last
    rw [hsession, hlog]
    intro s hs
    obtain ⟨i, hi, hgiven, hfits⟩ := h.stored s hs
    exact ⟨i, hi, Nat.lt_add_right 1 (hgiven.trans_le hnext), hfits⟩
  · show t.storage.legacy.session = none
    rw [hlegacy]
    exact h.legacy
  · show Fits timeout now t.log.tracked ((t.storage.own.session.getD ⟨none, 0, none⟩).id.getD t.nextId)
      (t.storage.own.session.getD ⟨none, 0, none⟩).last
    rw [hsession, hlog]
    cases hs : env.storage.own.session with
    | none =>
      refine .inl ⟨rfl, h.unstored hs, ?_⟩
      intro e he hi
      exact absurd ((h.older e he t.nextId hi).trans_le hnext) (Nat.lt_irrefl _)
    | some s =>
      obtain ⟨i, hi, -, hfits⟩ := h.stored s hs
      rw [Option.getD_some, hi]
      exact hfits
  · show (t.storage.own.session.getD ⟨none, 0, none⟩).id.getD t.nextId < t.nextId + 1
    rw [hsession]
    cases hs : env.storage.own.session with
    | none => exact Nat.lt_succ_self _
    | some s =>
      obtain ⟨i, hi, hgiven, -⟩ := h.stored s hs
      rw [Option.getD_some, hi]
      exact Nat.lt_add_right 1 (hgiven.trans_le hnext)

theorem bounded_restoredAt {env : Env} {options : MomentoOptions} {r : Readings} (h : env.Bounded timeout now)
    (hnow : now ≤ r.checked) (htracks : (opened σ options env).page.canTrack σ = true)
    (hpersists : (opened σ options env).page.isPersistent σ = true)
    (htimed : (opened σ options env).page.timeout = timeout) :
    (restoredAt σ options r env).Bounded σ timeout r.renewed :=
  ((bounded_loaded h htracks hpersists htimed).ensureSessionAt r hnow).1.same (same_restoreOffline _)

end Sessions

end Tab

/-! ## §8. Runs. -/

section Runs
variable {σ : Setting} {timeout : Int} {s : Sitting}

/-- The invariant of a sitting. -/
def Sitting.Bounded (σ : Setting) (timeout : Int) (s : Sitting) : Prop :=
  s.world.Holds (Tab.Bounded σ timeout s.now) (Env.Bounded timeout s.now)

theorem Env.Bounded.later {now now' : Clock} {env : Env} (h : env.Bounded timeout now) (hnow : now ≤ now') :
    env.Bounded timeout now' :=
  { h with
    stored := by
      intro s hs
      obtain ⟨i, hi, hgiven, hfits⟩ := h.stored s hs
      exact ⟨i, hi, hgiven, hfits.later hnow⟩ }

theorem bounded_load {options : MomentoOptions} {r : LoadReadings} (h : s.Bounded σ timeout)
    (hadmitted : Admitted σ timeout s (.load options r)) (hpunctual : Punctual σ timeout s (.load options r)) :
    (s.step σ (.load options r)).Bounded σ timeout := by
  unfold Sitting.step
  cases hpage : s.world.page with
  | some p => exact h
  | none =>
    obtain ⟨hnow, htracks, hpersists, htimed⟩ := hadmitted
    obtain ⟨hdropped, hview⟩ := hpunctual (by rw [hpage]; rfl)
    have hrestored := Tab.bounded_restoredAt (h.ofEnv hpage) hnow htracks hpersists htimed
    have hreported := hrestored.reportDroppedAt r.ordered.1 hdropped
    show (Tab.initAt σ options r s.world.env).Bounded σ timeout r.pageView.stamped
    unfold Tab.initAt
    dsimp only
    split
    next hauto => exact hreported.trackAt r.ordered.2 (hview hauto)
    · exact hreported.later (r.ordered.2.trans (r.pageView.ordered.1.trans r.pageView.ordered.2))

theorem bounded_track {name : String} {properties : Properties} {r : Readings} (h : s.Bounded σ timeout)
    (hnow : s.now ≤ r.checked) (hpunctual : Punctual σ timeout s (.track name properties r)) :
    (s.step σ (.track name properties r)).Bounded σ timeout := by
  have hlater : s.now ≤ r.stamped := hnow.trans (r.ordered.1.trans r.ordered.2)
  unfold Sitting.step World.onPage
  cases hpage : s.world.page with
  | none =>
    unfold Sitting.Bounded World.Holds
    rw [hpage]
    exact (h.ofEnv hpage).later hlater
  | some p => exact (h.ofPage hpage).trackAt hnow (hpunctual p hpage)

/-- A call on the page that leaves the session leaves the invariant. -/
theorem bounded_onPage {f : Tab → Tab} (h : s.Bounded σ timeout) (hf : ∀ t, Tab.SameSession t (f t)) :
    (s.world.onPage f).Holds (Tab.Bounded σ timeout s.now) (Env.Bounded timeout s.now) :=
  h.onPage fun _ _ ht => ht.same (hf _)

theorem bounded_callback {f : Tab → Tab} (h : s.Bounded σ timeout) (hf : ∀ t, Tab.SameSession t (f t)) :
    (s.world.callback f).Holds (Tab.Bounded σ timeout s.now) (Env.Bounded timeout s.now) :=
  h.callback fun _ _ ht => ht.same (hf _)

theorem bounded_other {action : Action} (h : s.Bounded σ timeout) (hquiet : action.Quiet) :
    (s.step σ (.other action)).Bounded σ timeout := by
  show (Momento.Sdk.step σ s.world action).Holds (Tab.Bounded σ timeout s.now) (Env.Bounded timeout s.now)
  cases action with
  | load options now => exact absurd hquiet id
  | track name properties now => exact absurd hquiet id
  | timer => exact bounded_callback h Tab.same_timerFired
  | flush useBeacon => exact bounded_onPage h (Tab.same_flush useBeacon)
  | hide => exact bounded_callback h Tab.same_hide
  | «show» => exact bounded_callback h (Tab.same_setHidden false)
  | respond i outcome room => exact bounded_onPage h (Tab.same_answered i outcome room)
  | identify userId properties => exact bounded_onPage h (Tab.same_identify userId properties)
  | setSessionProperties properties =>
    exact World.Holds.onPage h fun _ _ ht => ht.setSessionProperties properties
  | grant now => exact absurd hquiet id
  | deny now => exact absurd hquiet id
  | revoke now => exact absurd hquiet id
  | close =>
    refine World.Holds.close h fun p _ _ ht => ?_
    exact ⟨ht.bounded, ht.older, ht.unstored, ht.stored, ht.legacy⟩
  | orphan i outcome =>
    refine World.Holds.orphan h fun payload _ => ?_
    unfold World.Holds
    cases hpage : s.world.page with
    | none =>
      have henv := h.ofEnv hpage
      exact ⟨henv.bounded, henv.older, henv.unstored, henv.stored, henv.legacy⟩
    | some p =>
      have htab := h.ofPage hpage
      exact ⟨⟨htab.bounded, htab.older, htab.unstored, htab.stored, htab.legacy⟩, htab.current, htab.given,
        htab.tracks, htab.persists, htab.timed⟩

/-- **One step.** -/
theorem bounded_step {action : SittingAction} (h : s.Bounded σ timeout)
    (hadmitted : Admitted σ timeout s action) (hpunctual : Punctual σ timeout s action) :
    (s.step σ action).Bounded σ timeout := by
  cases action with
  | load options r => exact bounded_load h hadmitted hpunctual
  | track name properties r => exact bounded_track h hadmitted hpunctual
  | other action => exact bounded_other h hadmitted

/-- What was queued is bounded, page or no page. -/
theorem Sitting.Bounded.sessions (h : s.Bounded σ timeout) : SessionBounded timeout s.world.env.log.tracked := by
  cases hpage : s.world.page with
  | none => exact (h.ofEnv hpage).bounded
  | some p => exact (h.ofPage hpage).bounded

end Runs

/-- A tab in which nothing of a session is stored yet. -/
def Sitting.start (storage : Storage) (nextId : Id) (now : Clock) : Sitting := ⟨.start storage nextId, now⟩

/-- **Sessions have their boundaries.**  In every state of every run of a tab that may
track and store, whose clock does not go back: two consecutive events passed to
`track` are of one session exactly when at most the timeout lies between them, and
the events of every session they are of begin with its one `session_start` — where
every call of `track` is on time. -/
theorem sessions_bounded (σ : Setting) (timeout : Int) (storage : Storage) (nextId : Id) (now : Clock)
    (hown : storage.own.session = none) (hlegacy : storage.legacy.session = none)
    (actions : List SittingAction)
    (hadmitted : Along (Sitting.step σ) (Admitted σ timeout) (Sitting.start storage nextId now) actions)
    (hpunctual : Along (Sitting.step σ) (Punctual σ timeout) (Sitting.start storage nextId now) actions)
    (n : Nat) :
    SessionBounded timeout
      ((actions.take n).foldl (Sitting.step σ) (Sitting.start storage nextId now)).world.env.log.tracked := by
  have hstart : (Sitting.start storage nextId now).Bounded σ timeout := by
    refine ⟨sessionBounded_nil, (fun _ he => nomatch he), fun _ => rfl, fun s hs => ?_, hlegacy⟩
    change storage.own.session = some s at hs
    rw [hown] at hs
    cases hs
  have hstep : ∀ (s : Sitting) (a : SittingAction), s.Bounded σ timeout →
      Admitted σ timeout s a ∧ Punctual σ timeout s a → (s.step σ a).Bounded σ timeout :=
    fun s a hs ha => bounded_step hs ha.1 ha.2
  have hboth := along_take n (along_and actions hadmitted hpunctual)
  exact (along_induction hstep (actions.take n) hstart hboth).sessions

namespace SessionSample

/-- So many minutes into a day of 2023. -/
def minute (n : Int) : Clock := 1700000000000 + n * 60000

/-- The last reading is a millisecond after the others. -/
def ticking (now : Clock) : Readings := ⟨now, now, now + 1, le_rfl, Int.le_add_one le_rfl⟩

def options : MomentoOptions := {}

/-- Two events of one session; an hour later the page is loaded again, its properties are
set, and another event follows. -/
def visits : List SittingAction :=
  [.load options (.still (minute 0)), .track "click" [] (.still (minute 30)), .other .hide,
    .other (.respond 0 .ok {}), .other .close, .load options (.still (minute 61)), .other (.setSessionProperties []),
    .track "click" [] (.still (minute 70))]

/-- A timeout of fifty-seven years, so that sessions do not expire. -/
def unexpiring : List SittingAction :=
  [.load { sessionTimeoutMinutes := 30000000 } (.still (minute 0))]

/-- The clock ticks while `track` runs, half an hour after the page view. -/
def ticked : List SittingAction :=
  [.load options (.still (minute 0)), .track "click" [] (ticking (minute 30))]

end SessionSample

open SessionSample in
theorem sessions_bounded_visits :
    SessionBounded 1800000 (visits.foldl (Sitting.step plainSetting) (.start {} 0 0)).world.env.log.tracked
      ∧ (passed (visits.foldl (Sitting.step plainSetting) (.start {} 0 0)).world.env.log.tracked).map
        (fun e => e.event.sessionId) = [some 2, some 2, some 7, some 7] := by
  refine ⟨?_, by decide +kernel⟩
  have h := sessions_bounded plainSetting 1800000 {} 0 0 rfl rfl visits (by decide +kernel) (by decide +kernel)
    visits.length
  rwa [List.take_length] at h

/-- **A session without `session_start`.**  No session is stored, and the page's last event
is taken to be at the epoch: with a timeout that is longer, no session begins. -/
theorem unexpiring_not_bounded :
    Along (Sitting.step plainSetting) (Admitted plainSetting 1800000000000) (.start {} 0 0)
        SessionSample.unexpiring
      ∧ ¬SessionBounded 1800000000000 (SessionSample.unexpiring.foldl (Sitting.step plainSetting)
          (.start {} 0 0)).world.env.log.tracked := by
  refine ⟨by decide +kernel, fun h => ?_⟩
  have hnone : ∀ e ∈ (SessionSample.unexpiring.foldl (Sitting.step plainSetting)
      (.start {} 0 0)).world.env.log.tracked, e.isStart = false := by
    decide +kernel
  have hevent : (passed (SessionSample.unexpiring.foldl (Sitting.step plainSetting)
      (.start {} 0 0)).world.env.log.tracked).head?.isSome := by
    decide +kernel
  obtain ⟨e, he⟩ := Option.isSome_iff_exists.mp hevent
  obtain ⟨start, rest, hfilter, hstart, -⟩ := h.begun e (List.mem_of_head? he)
  have hmem := List.mem_of_mem_filter (hfilter ▸ List.mem_cons_self)
  rw [hnone start hmem] at hstart
  cases hstart

/-- The condition of `ensureSession` and the event's timestamp read the clock one after
the other: a session with more than its timeout between two events. -/
theorem ticked_not_bounded :
    Along (Sitting.step plainSetting) (Admitted plainSetting 1800000) (.start {} 0 0) SessionSample.ticked
      ∧ ¬SessionBounded 1800000 (SessionSample.ticked.foldl (Sitting.step plainSetting)
          (.start {} 0 0)).world.env.log.tracked := by
  refine ⟨by decide +kernel, fun h => ?_⟩
  have hsplit := List.isChain_iff_getElem.mp h.split 0 (by decide +kernel)
  revert hsplit
  decide +kernel

end Momento.Sdk
