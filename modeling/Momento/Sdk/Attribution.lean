/-
  Momento.Sdk.Attribution

  **UNDER WHOM AN EVENT IS DELIVERED.**  Session, visitor and the event's own session
  properties are stamped on the event when it is tracked, and a payload carries the
  session and visitor of its group: they are delivered as they were.  The user id is
  not stamped.  A payload carries the page's user id of the moment it is built, so an
  event tracked under one user and still waiting when another is identified, or when
  the page is loaded anew, is delivered under the other one.
-/
import Momento.Sdk.Custody

namespace Momento.Sdk

open Foundation

/-! ## §1. The property. -/

/-- `this.userId || undefined`. -/
def sentUserId (userId : String) : Option String := if userId = "" then none else some userId

/-- The payload carries the event under what it was tracked under. -/
def Tracked.DeliveredBy (r : Tracked) (payload : Payload) (wire : WireEvent) : Prop :=
  payload.sessionId = r.sessionId ∧ payload.visitorId = r.visitorId
    ∧ payload.userId = sentUserId r.userId ∧ wire.sessionProperties = r.sessionProperties

/-- The property: every event that was delivered was delivered under the session, the
visitor, the user and the session properties it was tracked under. -/
def Attributed (w : World) : Prop :=
  ∀ payload ∈ w.env.net.accepted, ∀ wire ∈ payload.events, ∀ r ∈ w.env.log.tracked,
    r.event.id = wire.id → r.DeliveredBy payload wire

/-- Those of the events that were tracked were tracked under this user. -/
def Log.Under (log : Log) (userId : String) (events : List QueuedEvent) : Prop :=
  ∀ e ∈ events, ∀ r ∈ log.tracked, r.event.id = e.id → r.userId = userId

/-- The first event of a group records its session and its visitor. -/
def Recorded (group : List QueuedEvent) : Prop :=
  ∀ e ∈ group.head?, e.sessionId.isSome ∧ e.visitorId.isSome

instance (log : Log) (userId : String) (events : List QueuedEvent) :
    Decidable (log.Under userId events) :=
  inferInstanceAs (Decidable (∀ e ∈ events, ∀ r ∈ log.tracked, r.event.id = e.id → r.userId = userId))

instance (group : List QueuedEvent) : Decidable (Recorded group) :=
  inferInstanceAs (Decidable (∀ e ∈ group.head?, e.sessionId.isSome ∧ e.visitorId.isSome))

/-- Another user is identified, and a page is loaded, only while no event tracked under
another user waits in the queue, in a group not yet sent or in the queue the load
restores; a batch goes back only while its user is still the page's; and no group that
is sent late is led by an event of an older version. -/
def SameUser (σ : Setting) (w : World) : Action → Prop
  | .identify userId _ => ∀ p, w.page = some p → userId ≠ "" → ¬σ.looksLikeAPerson userId →
      w.env.log.Under userId p.unsent
  | .respond i outcome _ => ∀ p, w.page = some p → ∀ f, p.flushes[i]? = some f →
      if outcome = .ok then Recorded (f.rest.headD []) else w.env.log.Under p.userId f.batch
  | .load options _ => w.page = none → (Tab.opened σ options w.env).page.isPersistent σ →
      w.env.log.Under "" (Tab.migrateLegacyStorage σ w.env.storage).restorable
  | _ => True

/-! ## §2. What is known of an event and of a payload. -/

/-- The ids of the stored events were given out before. -/
def Storage.Before (storage : Storage) (n : Id) : Prop :=
  (∀ e ∈ storage.own.storedQueue, e.id < n) ∧ ∀ e ∈ storage.legacy.storedQueue, e.id < n

namespace Env

/-- Who has an event's id is that event. -/
def Known (env : Env) (e : QueuedEvent) : Prop :=
  e.id < env.nextId ∧ ∀ r ∈ env.log.tracked, r.event.id = e.id → r.event = e

/-- A known event, and tracked under this user if it was tracked. -/
def Mine (env : Env) (userId : String) (e : QueuedEvent) : Prop :=
  env.Known e ∧ ∀ r ∈ env.log.tracked, r.event.id = e.id → r.userId = userId

/-- Each event is attributed as its track had it. -/
def Right (env : Env) (payload : Payload) : Prop :=
  ∀ wire ∈ payload.events, wire.id < env.nextId
    ∧ ∀ r ∈ env.log.tracked, r.event.id = wire.id → r.DeliveredBy payload wire

/-- The events of a group have one session and one visitor, where they record them. -/
def Alike (group : List QueuedEvent) : Prop :=
  ∃ visitorId sessionId, ∀ e ∈ group, ∀ e' ∈ group,
    (e.visitorId.getD visitorId, e.sessionId.getD sessionId)
      = (e'.visitorId.getD visitorId, e'.sessionId.getD sessionId)

/-- A flush under way attributes as it should. -/
structure RightFlush (env : Env) (userId : String) (f : Flush) : Prop where
  batch : ∀ e ∈ f.batch, env.Known e
  rest : ∀ group ∈ f.rest, Alike group ∧ ∀ e ∈ group, env.Mine userId e
  request : env.Right f.request

/-- Ids may have been given out, and events with such ids tracked. -/
structure Grows (env env' : Env) : Prop where
  nextId : env.nextId ≤ env'.nextId
  tracked : ∀ r ∈ env'.log.tracked, r ∈ env.log.tracked ∨ env.nextId ≤ r.event.id

theorem Grows.of_eq {env env' : Env} (hnext : env.nextId ≤ env'.nextId)
    (htracked : env'.log.tracked = env.log.tracked) : env.Grows env' :=
  ⟨hnext, fun _ hr => .inl (htracked ▸ hr)⟩

/-- An event with an old id was tracked before. -/
theorem Grows.old {env env' : Env} (hg : env.Grows env') {r : Tracked} (hr : r ∈ env'.log.tracked)
    {id : Id} (hid : id < env.nextId) (heq : r.event.id = id) : r ∈ env.log.tracked := by
  rcases hg.tracked r hr with hold | hnew
  · exact hold
  · rw [heq] at hnew
    exact absurd hid (Nat.not_lt.mpr hnew)

theorem Known.grow {env env' : Env} (hg : env.Grows env') {e : QueuedEvent} (h : env.Known e) :
    env'.Known e :=
  ⟨h.1.trans_le hg.nextId, fun r hr heq => h.2 r (hg.old hr h.1 heq) heq⟩

theorem Mine.grow {env env' : Env} (hg : env.Grows env') {userId : String} {e : QueuedEvent}
    (h : env.Mine userId e) : env'.Mine userId e :=
  ⟨h.1.grow hg, fun r hr heq => h.2 r (hg.old hr h.1.1 heq) heq⟩

theorem Right.grow {env env' : Env} (hg : env.Grows env') {payload : Payload}
    (h : env.Right payload) : env'.Right payload := by
  intro wire hwire
  obtain ⟨hid, hr⟩ := h wire hwire
  exact ⟨hid.trans_le hg.nextId, fun r hmem heq => hr r (hg.old hmem hid heq) heq⟩

theorem RightFlush.grow {env env' : Env} (hg : env.Grows env') {userId : String} {f : Flush}
    (h : env.RightFlush userId f) : env'.RightFlush userId f where
  batch := fun e he => (h.batch e he).grow hg
  rest := fun group hgroup =>
    ⟨(h.rest group hgroup).1, fun e he => ((h.rest group hgroup).2 e he).grow hg⟩
  request := h.request.grow hg

end Env

/-! ## §3. The page. -/

/-- What an environment keeps, whatever its page does. -/
structure Env.Attributing (env : Env) : Prop where
  fresh : ∀ r ∈ env.log.tracked, r.event.id < env.nextId
  stamped : ∀ r ∈ env.log.tracked, r.event.sessionId = some r.sessionId
    ∧ r.event.visitorId = some r.visitorId ∧ r.event.sessionProperties = r.sessionProperties
  stored : ∀ e ∈ env.storage.own.storedQueue, env.Known e
  legacy : ∀ e ∈ env.storage.legacy.storedQueue, env.Known e
  orphans : ∀ payload ∈ env.net.orphans, env.Right payload
  accepted : ∀ payload ∈ env.net.accepted, env.Right payload

namespace Tab
variable {σ : Setting}

/-- **The invariant of a page.** -/
structure Attributing (t : Tab) : Prop where
  env : t.toEnv.Attributing
  queue : ∀ e ∈ t.page.queue, t.toEnv.Mine t.page.userId e
  flushes : ∀ f ∈ t.page.flushes, t.toEnv.RightFlush t.page.userId f

/-- A group led by the page's own key, or by an event that records its own, is sent under
what its events were tracked under. -/
theorem right_payloadOf {t : Tab} {group : List QueuedEvent}
    (hstamped : ∀ r ∈ t.log.tracked, r.event.sessionId = some r.sessionId
      ∧ r.event.visitorId = some r.visitorId ∧ r.event.sessionProperties = r.sessionProperties)
    (hmine : ∀ e ∈ group, t.toEnv.Mine t.page.userId e)
    (hkey : ∀ e ∈ group, ∀ head ∈ group.head?, t.groupKey head = t.groupKey e
      ∨ ¬∃ r ∈ t.log.tracked, r.event = e) :
    t.toEnv.Right (t.payloadOf σ group) := by
  intro wire hwire
  obtain ⟨e, he, rfl⟩ := List.mem_map.mp hwire
  obtain ⟨⟨hid, hknown⟩, huser⟩ := hmine e he
  refine ⟨hid, fun r hr heq => ?_⟩
  have hsame : r.event = e := hknown r hr heq
  obtain ⟨hsession, hvisitor, hproperties⟩ := hstamped r hr
  rw [hsame] at hsession hvisitor hproperties
  have hhead : ∃ head, group.head? = some head := by
    cases group with
    | nil => exact absurd he List.not_mem_nil
    | cons head rest => exact ⟨head, rfl⟩
  obtain ⟨head, hhead⟩ := hhead
  have hkeys : t.groupKey head = (r.visitorId, r.sessionId) := by
    rcases hkey e he head hhead with hk | hnot
    · rw [hk, groupKey, hsession, hvisitor]
      rfl
    · exact absurd ⟨r, hr, hsame⟩ hnot
  rw [groupKey, Prod.mk.injEq] at hkeys
  refine ⟨?_, ?_, ?_, hproperties⟩
  · simp only [payloadOf, hhead, Option.bind_some]
    exact hkeys.2
  · simp only [payloadOf, hhead, Option.bind_some]
    exact hkeys.1
  · rw [huser r hr heq]
    rfl

/-- The environment changes neither the log of tracked events nor what it stores. -/
theorem attributing_env {env env' : Env} (h : env.Attributing) (hg : env.Grows env')
    (htracked : env'.log.tracked = env.log.tracked)
    (hstored : ∀ e ∈ env'.storage.own.storedQueue, env'.Known e)
    (hlegacy : env'.storage.legacy = env.storage.legacy)
    (horphans : ∀ payload ∈ env'.net.orphans, payload ∈ env.net.orphans ∨ env'.Right payload)
    (haccepted : ∀ payload ∈ env'.net.accepted, payload ∈ env.net.accepted ∨ env'.Right payload) :
    env'.Attributing where
  fresh := by
    rw [htracked]
    exact fun r hr => (h.fresh r hr).trans_le hg.nextId
  stamped := by
    rw [htracked]
    exact h.stamped
  stored := hstored
  legacy := by
    rw [hlegacy]
    exact fun e he => (h.legacy e he).grow hg
  orphans := fun payload hp =>
    (horphans payload hp).elim (fun hold => (h.orphans payload hold).grow hg) id
  accepted := fun payload hp =>
    (haccepted payload hp).elim (fun hold => (h.accepted payload hold).grow hg) id

/-- Steps that track, send and store nothing. -/
theorem Attributing.of_eq {t t' : Tab} (h : t.Attributing) (hnext : t.nextId ≤ t'.nextId)
    (htracked : t'.log.tracked = t.log.tracked)
    (hoffline : t'.storage.own.offline = t.storage.own.offline)
    (hlegacy : t'.storage.legacy = t.storage.legacy) (hnet : t'.net = t.net)
    (hqueue : t'.page.queue ⊆ t.page.queue) (hflushes : t'.page.flushes ⊆ t.page.flushes)
    (huser : t'.page.userId = t.page.userId) : t'.Attributing := by
  have hg : t.toEnv.Grows t'.toEnv := .of_eq hnext htracked
  refine ⟨attributing_env h.env hg htracked ?_ hlegacy ?_ ?_, ?_, ?_⟩
  · rw [StorageKeys.storedQueue, hoffline]
    exact fun e he => (h.env.stored e he).grow hg
  · rw [hnet]
    exact fun payload hp => .inl hp
  · rw [hnet]
    exact fun payload hp => .inl hp
  · rw [huser]
    exact fun e he => (h.queue e (hqueue he)).grow hg
  · rw [huser]
    exact fun f hf => (h.flushes f (hflushes hf)).grow hg

theorem Attributing.frame {t t' : Tab} (hf : t.Frame t') (h : t.Attributing) : t'.Attributing :=
  h.of_eq hf.nextId (by rw [hf.log]) hf.offline hf.legacy hf.net (by rw [hf.queue]; exact List.Subset.refl _)
    (by rw [hf.flushes]; exact List.Subset.refl _) hf.userId

theorem grows_push (content : Content) (now : Clock) (t : Tab) :
    t.toEnv.Grows (t.push content now).toEnv where
  nextId := Nat.le_succ _
  tracked := by
    intro r hr
    rcases List.mem_append.mp hr with hold | hnew
    · exact .inl hold
    · rw [List.mem_singleton.mp hnew]
      exact .inr le_rfl

/-- An event is tracked under what the page stamps it with. -/
theorem Attributing.push {t : Tab} (content : Content) (now : Clock) (h : t.Attributing) :
    (t.push content now).Attributing := by
  have hg := grows_push content now t
  refine ⟨⟨?_, ?_, ?_, ?_, ?_, ?_⟩, ?_, ?_⟩
  · intro r hr
    rcases List.mem_append.mp hr with hold | hnew
    · exact (h.env.fresh r hold).trans_le hg.nextId
    · rw [List.mem_singleton.mp hnew]
      exact Nat.lt_succ_self _
  · intro r hr
    rcases List.mem_append.mp hr with hold | hnew
    · exact h.env.stamped r hold
    · rw [List.mem_singleton.mp hnew]
      exact ⟨rfl, rfl, rfl⟩
  · exact fun e he => (h.env.stored e he).grow hg
  · exact fun e he => (h.env.legacy e he).grow hg
  · exact fun payload hp => (h.env.orphans payload hp).grow hg
  · exact fun payload hp => (h.env.accepted payload hp).grow hg
  · intro e he
    rcases List.mem_append.mp he with hold | hnew
    · exact (h.queue e hold).grow hg
    · rw [List.mem_singleton.mp hnew]
      refine ⟨⟨Nat.lt_succ_self _, fun r hr heq => ?_⟩, fun r hr heq => ?_⟩
      · rcases List.mem_append.mp hr with hold | hnew
        · exact absurd heq (h.env.fresh r hold).ne
        · rw [List.mem_singleton.mp hnew]
      · rcases List.mem_append.mp hr with hold | hnew
        · exact absurd heq (h.env.fresh r hold).ne
        · rw [List.mem_singleton.mp hnew]
          rfl
  · exact fun f hf => (h.flushes f hf).grow hg

/-- The events of a save are the queue's. -/
theorem Attributing.saved {t t' : Tab} (hs : t.Saved t') (h : t.Attributing) : t'.Attributing := by
  have hg : t.toEnv.Grows t'.toEnv := .of_eq hs.nextId.ge hs.tracked
  refine ⟨attributing_env h.env hg hs.tracked ?_ hs.legacy ?_ ?_, ?_, ?_⟩
  · rcases hs.offline with ⟨hsame, -⟩ | ⟨hkept, -⟩
    · rw [StorageKeys.storedQueue, hsame]
      exact fun e he => (h.env.stored e he).grow hg
    · rw [StorageKeys.storedQueue, hkept]
      exact fun e he => (h.queue e (keptOffline_subset _ he)).1.grow hg
  · rw [hs.net]
    exact fun payload hp => .inl hp
  · rw [hs.net]
    exact fun payload hp => .inl hp
  · rw [hs.page]
    exact fun e he => (h.queue e he).grow hg
  · rw [hs.page]
    exact fun f hf => (h.flushes f hf).grow hg

theorem Attributing.requeue {t : Tab} {batch : List QueuedEvent} (room : Room) (h : t.Attributing)
    (hbatch : ∀ e ∈ batch, t.toEnv.Mine t.page.userId e) :
    (t.requeue σ batch room).Attributing := by
  refine Attributing.saved (saved_requeue batch room t) ⟨h.env, ?_, h.flushes⟩
  exact List.forall_mem_append.mpr ⟨hbatch, h.queue⟩

theorem Attributing.flush {useBeacon : Bool} {t t' : Tab} (hcase : FlushCase σ useBeacon t t')
    (h : t.Attributing) : t'.Attributing := by
  have hbatch : ∀ e ∈ t.batch, t.toEnv.Mine t.page.userId e := fun e he =>
    h.queue e (List.mem_of_mem_take he)
  have hmine : ∀ group ∈ t.groupBySession t.batch, ∀ e ∈ group, t.toEnv.Mine t.page.userId e := by
    intro group hgroup e he
    exact hbatch e ((groupBySession_perm t _).mem_iff.mp (List.mem_flatten_of_mem hgroup he))
  have hkeys : ∀ group ∈ t.groupBySession t.batch, ∀ e ∈ group, ∀ e' ∈ group,
      t.groupKey e = t.groupKey e' := fun group hgroup =>
    (Table.groupsInOrder_spec t.groupKey t.batch group hgroup).2
  have hright : ∀ group ∈ t.groupBySession t.batch, t.toEnv.Right (t.payloadOf σ group) := by
    intro group hgroup
    refine right_payloadOf h.env.stamped (hmine group hgroup) fun e he head hhead => .inl ?_
    exact hkeys group hgroup head (List.mem_of_mem_head? hhead) e he
  have hunbatched : t.unbatched.Attributing :=
    h.of_eq le_rfl rfl rfl rfl rfl (List.drop_subset _ _) (List.Subset.refl _) rfl
  cases hcase with
  | idle => exact h
  | sent group rest htrack hgroups =>
    have hg : t.toEnv.Grows (t.unbatched.hand (t.payloadOf σ group)).toEnv := .of_eq le_rfl rfl
    have hhanded : (t.unbatched.hand (t.payloadOf σ group)).Attributing :=
      hunbatched.of_eq le_rfl rfl rfl rfl rfl (List.Subset.refl _) (List.Subset.refl _) rfl
    refine ⟨hhanded.env, hhanded.queue, fun f hf => ?_⟩
    rcases List.mem_append.mp hf with hold | hnew
    · exact (h.flushes f hold).grow hg
    · rw [List.mem_singleton.mp hnew]
      refine Env.RightFlush.grow hg ⟨fun e he => (hbatch e he).1, fun g hmem => ?_, hright group ?_⟩
      · have hgroup : g ∈ t.groupBySession t.batch := by
          rw [hgroups]
          exact List.mem_cons_of_mem _ hmem
        exact ⟨⟨t.page.visitorId, t.page.sessionId, hkeys g hgroup⟩, hmine g hgroup⟩
      · rw [hgroups]
        exact List.mem_cons_self

theorem Attributing.stable : Stable σ Attributing where
  frame := Attributing.frame
  push := fun content now _ h => h.push content now
  sent := fun hcase h => h.flush hcase

theorem Attributing.accept {t : Tab} {payload : Payload} (h : t.Attributing)
    (hright : t.toEnv.Right payload) : (t.accept payload).Attributing := by
  have hg : t.toEnv.Grows (t.accept payload).toEnv := .of_eq le_rfl rfl
  refine ⟨attributing_env h.env hg rfl (fun e he => (h.env.stored e he).grow hg) rfl
    (fun _ hp => .inl hp) ?_,
    fun e he => (h.queue e he).grow hg, fun f hf => (h.flushes f hf).grow hg⟩
  intro p hp
  refine (List.mem_append.mp hp).imp_right fun hnew => ?_
  rw [List.mem_singleton.mp hnew]
  exact hright.grow hg

/-- A late group led by an event that records its session and visitor is sent right. -/
theorem right_late {t : Tab} {group : List QueuedEvent} (h : t.Attributing)
    (halike : Env.Alike group) (hmine : ∀ e ∈ group, t.toEnv.Mine t.page.userId e)
    (hrecorded : Recorded group) : t.toEnv.Right (t.payloadOf σ group) := by
  refine right_payloadOf h.env.stamped hmine fun e he head hhead => ?_
  by_cases htracked : ∃ r ∈ t.log.tracked, r.event = e
  · left
    obtain ⟨r, hr, rfl⟩ := htracked
    obtain ⟨hsession, hvisitor⟩ := hrecorded head hhead
    obtain ⟨visitorId, sessionId, hsame⟩ := halike
    have hpair := hsame head (List.mem_of_mem_head? hhead) r.event he
    obtain ⟨hrs, hrv, -⟩ := h.env.stamped r hr
    obtain ⟨s, hs⟩ := Option.isSome_iff_exists.mp hsession
    obtain ⟨v, hv⟩ := Option.isSome_iff_exists.mp hvisitor
    rw [hrs, hrv, hs, hv] at hpair
    rw [groupKey, groupKey, hrs, hrv, hs, hv]
    exact hpair
  · exact .inr htracked

theorem Attributing.answered {i : Nat} {room : Room} {outcome : Outcome} {t t' : Tab}
    (hcase : AnsweredCase σ i room t outcome t')
    (hsame : ∀ f, t.page.flushes[i]? = some f →
      if outcome = .ok then Recorded (f.rest.headD []) else t.log.Under t.page.userId f.batch)
    (h : t.Attributing) : t'.Attributing := by
  have hflush : ∀ {before after : List Flush} {f : Flush}, t.page.flushes = before ++ f :: after →
      t.toEnv.RightFlush t.page.userId f ∧ before ++ after ⊆ t.page.flushes := by
    intro before after f hf
    rw [hf]
    refine ⟨h.flushes f (by rw [hf]; simp), fun f' hf' => ?_⟩
    rcases List.mem_append.mp hf' with hb | ha
    · exact List.mem_append_left _ hb
    · exact List.mem_append_right _ (List.mem_cons_of_mem _ ha)
  have hback : ∀ {f : Flush}, t.toEnv.RightFlush t.page.userId f →
      t.log.Under t.page.userId f.batch → ∀ e ∈ f.batch, t.toEnv.Mine t.page.userId e :=
    fun hright hunder e he => ⟨hright.batch e he, hunder e he⟩
  cases hcase with
  | nobody => exact h
  | done before after f hi hf hrest =>
    refine Attributing.frame (frame_rescheduled _) ?_
    exact (h.accept (hflush hf).1.request).of_eq le_rfl rfl rfl rfl rfl (List.Subset.refl _)
      (hflush hf).2 rfl
  | next before after f hi hf group rest hrest =>
    have hfi := hsame f (flush_of_waiting hi)
    rw [if_pos rfl, hrest] at hfi
    have hright := (hflush hf).1
    have hgroup := hright.rest group (by rw [hrest]; exact List.mem_cons_self)
    have hsent := right_late h hgroup.1 hgroup.2 hfi (σ := σ)
    have haccepted := h.accept hright.request
    have hg : t.toEnv.Grows ((t.accept f.request).hand (t.payloadOf σ group)).toEnv :=
      .of_eq le_rfl rfl
    have hhanded : ((t.accept f.request).hand (t.payloadOf σ group)).Attributing :=
      haccepted.of_eq le_rfl rfl rfl rfl rfl (List.Subset.refl _) (List.Subset.refl _) rfl
    refine ⟨hhanded.env, hhanded.queue, fun f' hf' => ?_⟩
    rcases List.mem_append.mp hf' with hb | hcons
    · exact (h.flushes f' ((hflush hf).2 (List.mem_append_left _ hb))).grow hg
    · rcases List.mem_cons.mp hcons with rfl | ha
      · refine Env.RightFlush.grow hg ⟨hright.batch, fun g hmem => hright.rest g ?_, hsent⟩
        rw [hrest]
        exact List.mem_cons_of_mem _ hmem
      · exact (h.flushes f' ((hflush hf).2 (List.mem_append_right _ ha))).grow hg
  | lost before after f hi hf =>
    have hright := (hflush hf).1
    refine Attributing.requeue room ((h.accept hright.request).of_eq le_rfl rfl rfl rfl rfl
      (List.Subset.refl _) (hflush hf).2 rfl) fun e he => ?_
    exact (hback hright (hsame f (flush_of_waiting hi)) e he).grow (.of_eq le_rfl rfl)
  | failed before after f hi hf =>
    have hright := (hflush hf).1
    refine Attributing.requeue room (h.of_eq le_rfl rfl rfl rfl rfl
      (List.Subset.refl _) (hflush hf).2 rfl) fun e he => ?_
    exact (hback hright (hsame f (flush_of_waiting hi)) e he).grow (.of_eq le_rfl rfl)

/-- Another user is identified while nothing of the one before waits. -/
theorem Attributing.identify (userId : String) (properties : Properties) {t : Tab}
    (hsame : userId ≠ "" → ¬σ.looksLikeAPerson userId → t.log.Under userId t.page.unsent)
    (h : t.Attributing) : (t.identify σ userId properties).Attributing := by
  unfold Tab.identify
  split
  · exact h
  next hnot =>
    rw [not_or] at hnot
    have hunder := hsame hnot.1 hnot.2
    refine ⟨h.env, fun e he => ⟨(h.queue e he).1, hunder e (List.mem_append_left _ he)⟩, fun f hf => ?_⟩
    refine ⟨(h.flushes f hf).batch, fun group hgroup => ?_, (h.flushes f hf).request⟩
    obtain ⟨halike, hmine⟩ := (h.flushes f hf).rest group hgroup
    refine ⟨halike, fun e he => ⟨(hmine e he).1, hunder e (List.mem_append_right _ ?_)⟩⟩
    exact List.mem_flatMap.mpr ⟨f, hf, List.mem_flatten_of_mem hgroup he⟩

theorem Attributing.clearTrackingState (now : Clock) {t : Tab} (h : t.Attributing) :
    (t.clearTrackingState now).Attributing := by
  have hg : t.toEnv.Grows (t.clearTrackingState now).toEnv := .of_eq (Nat.le_add_right _ _) rfl
  refine ⟨attributing_env h.env hg rfl (fun _ he => absurd he List.not_mem_nil) rfl
    (fun _ hp => .inl hp) fun _ hp => .inl hp, fun _ he => absurd he List.not_mem_nil, ?_⟩
  exact fun f hf => (h.flushes f hf).grow hg

theorem mine_stable (events : List QueuedEvent) :
    Stable σ fun t => ∀ e ∈ events, t.toEnv.Mine t.page.userId e where
  frame := by
    intro t t' hf h
    rw [hf.userId]
    exact fun e he => (h e he).grow (.of_eq hf.nextId (by rw [hf.log]))
  push := fun content now _ h e he => (h e he).grow (grows_push content now _)
  sent := by
    intro useBeacon t t' hcase h
    cases hcase with
    | idle => exact h
    | sent => exact fun e he => (h e he).grow (.of_eq le_rfl rfl)

theorem attributing_opened {env : Env} (options : MomentoOptions) (h : env.Attributing) :
    (opened σ options env).Attributing := by
  have hg : env.Grows (opened σ options env).toEnv := .of_eq le_rfl rfl
  refine ⟨attributing_env h hg rfl (fun e he => ?_) (legacy_migrate _)
    (fun _ hp => .inl hp) fun _ hp => .inl hp,
    fun _ he => absurd he List.not_mem_nil, fun _ hf => absurd hf List.not_mem_nil⟩
  change e ∈ (migrateLegacyStorage σ env.storage).own.storedQueue at he
  rw [StorageKeys.storedQueue] at he
  rcases (own_migrate (σ := σ) env.storage).2.2 with hsame | hlegacy
  · rw [hsame] at he
    exact (h.stored e he).grow hg
  · rw [hlegacy] at he
    exact (h.legacy e he).grow hg

theorem Attributing.restoreOffline {t : Tab} (h : t.Attributing)
    (hmine : t.page.isPersistent σ → ∀ e ∈ t.storage.restorable, t.toEnv.Mine t.page.userId e) :
    (t.restoreOffline σ).Attributing := by
  have hcleared : ∀ {queue : List QueuedEvent}, (∀ e ∈ queue, t.toEnv.Mine t.page.userId e) →
      ∀ t' : Tab, t' = { t with
        storage := { t.storage with own := { t.storage.own with offline := none } }
        page := { t.page with queue := queue } } → t'.Attributing := by
    rintro queue hqueue t' rfl
    have hg : t.toEnv.Grows { t.toEnv with
        storage := { t.storage with own := { t.storage.own with offline := none } } } := .of_eq le_rfl rfl
    exact ⟨attributing_env h.env hg rfl (fun _ he => absurd he List.not_mem_nil) rfl
      (fun _ hp => .inl hp) fun _ hp => .inl hp, fun e he => (hqueue e he).grow hg, fun f hf => (h.flushes f hf).grow hg⟩
  unfold Tab.restoreOffline
  split
  next hpersistent =>
    cases hoffline : t.storage.own.offline with
    | none => exact h
    | some stored =>
      cases stored with
      | events saved =>
        refine hcleared (List.forall_mem_append.mpr ⟨h.queue, fun e he => ?_⟩) _ rfl
        refine hmine hpersistent e ?_
        rwa [Storage.restorable, StorageKeys.storedQueue, hoffline]
      | other => exact hcleared h.queue _ rfl
      | corrupt => exact h
  · exact h

/-- A page load restores what is known and was tracked under no user. -/
theorem Attributing.init {env : Env} {options : MomentoOptions} (now : Clock) (h : env.Attributing)
    (hsame : (opened σ options env).page.isPersistent σ →
      env.log.Under "" (migrateLegacyStorage σ env.storage).restorable) :
    (Tab.init σ options now env).Attributing := by
  have hopened := attributing_opened (σ := σ) options h
  refine Attributing.stable.init now (fun hloaded => hloaded.restoreOffline fun hpersistent => ?_)
    (fun ht => ht.of_eq le_rfl rfl rfl rfl rfl (List.Subset.refl _) (List.Subset.refl _) rfl)
    (fun _ _ ht => ht.push _ now) hopened
  have hpage := (persistent_stable (σ := σ) ((opened σ options env).page.isPersistent σ)).loadIdentity
    (t := opened σ options env) now rfl
  have hoffline := (offline_stable (σ := σ) (opened σ options env).storage.own.offline).loadIdentity
    (t := opened σ options env) now rfl
  rw [hpage] at hpersistent
  have hmine : ∀ e ∈ (opened σ options env).storage.restorable,
      (opened σ options env).toEnv.Mine (opened σ options env).page.userId e := by
    intro e he
    refine ⟨hopened.env.stored e (keptOffline_subset _ he), hsame hpersistent e he⟩
  have hloaded := (mine_stable (σ := σ) _).loadIdentity now hmine
  rw [Storage.restorable, StorageKeys.storedQueue] at hloaded ⊢
  rw [hoffline]
  exact hloaded

end Tab

/-! ## §4. Runs. -/

/-- **One step.** -/
theorem attributing_step {w : World} {a : Action} (hw : w.Holds Tab.Attributing Env.Attributing)
    (hsame : SameUser σ w a) : (step σ w a).Holds Tab.Attributing Env.Attributing := by
  have hstable : Tab.Stable σ Tab.Attributing := Tab.Attributing.stable
  have hpage : ∀ {t t' : Tab}, t.Attributing → t'.toEnv = t.toEnv → t'.page.queue = t.page.queue →
      t'.page.flushes = t.page.flushes → t'.page.userId = t.page.userId → t'.Attributing := by
    intro t t' h henv hqueue hflushes huser
    exact ⟨henv ▸ h.env, by rw [hqueue, huser, henv]; exact h.queue,
      by rw [hflushes, huser, henv]; exact h.flushes⟩
  cases a with
  | load options now => exact hw.load fun hp h => .init now h (hsame hp)
  | track name properties now => exact hw.onPage fun p _ h => hstable.track name properties now h
  | timer => exact hw.callback fun p _ h => hstable.timerFired h
  | flush useBeacon => exact hw.onPage fun p _ h => hstable.flush useBeacon h
  | hide => exact hw.callback fun p _ h => hstable.hide (fun ht => hpage ht rfl rfl rfl rfl) h
  | «show» => exact hw.callback fun p _ h => hpage h rfl rfl rfl rfl
  | respond i outcome room =>
    exact hw.onPage fun p hp h => h.answered (Tab.answered_case i outcome room _) (hsame p hp)
  | identify userId properties =>
    exact hw.onPage fun p hp h => h.identify userId properties (hsame p hp)
  | setSessionProperties properties =>
    exact hw.onPage fun p _ h => h.frame (Tab.frame_setSessionProperties properties _)
  | grant now =>
    refine hw.onPage fun p _ h => hstable.grant now (fun ht => ?_) (fun ht => ?_) h
    · exact ht.of_eq le_rfl rfl rfl rfl rfl (List.Subset.refl _) (List.Subset.refl _) rfl
    · exact ht.of_eq le_rfl rfl rfl rfl rfl (List.Subset.refl _) (List.Subset.refl _) rfl
  | deny now =>
    refine hw.onPage fun p _ h => Tab.Attributing.clearTrackingState now ?_
    exact h.of_eq le_rfl rfl rfl rfl rfl (List.Subset.refl _) (List.Subset.refl _) rfl
  | revoke now =>
    refine hw.onPage fun p _ h => hstable.loadIdentity now (Tab.Attributing.clearTrackingState now ?_)
    exact h.of_eq le_rfl rfl rfl rfl rfl (List.Subset.refl _) (List.Subset.refl _) rfl
  | close =>
    refine World.Holds.close hw fun p _ _ h => ?_
    refine Tab.attributing_env h.env (.of_eq le_rfl rfl) rfl h.env.stored rfl ?_ fun _ hp => .inl hp
    intro payload hpayload
    refine (List.mem_append.mp hpayload).imp_right fun hflying => ?_
    obtain ⟨f, hf, rfl⟩ := List.mem_map.mp hflying
    exact (h.flushes f hf).request
  | orphan i outcome =>
    refine World.Holds.orphan hw fun payload hi => ?_
    have hsettled : ∀ {env : Env}, env.Attributing → env.net.orphans[i]? = some payload →
        (World.settled env i payload outcome).Attributing := by
      intro env h hi
      refine Tab.attributing_env h (.of_eq le_rfl rfl) rfl h.stored rfl
        (fun _ hp => .inl (List.mem_of_mem_eraseIdx hp)) fun p hp => ?_
      refine (List.mem_append.mp hp).imp_right fun hnew => ?_
      split at hnew
      · exact absurd hnew List.not_mem_nil
      · rw [List.mem_singleton.mp hnew]
        exact h.orphans payload (List.mem_of_getElem? hi)
    cases hp : w.page with
    | none => exact hsettled (World.Holds.ofEnv hw hp) hi
    | some p =>
      have h := World.Holds.ofPage hw hp
      have hg : w.env.Grows (World.settled w.env i payload outcome) := .of_eq le_rfl rfl
      exact ⟨hsettled h.env hi, h.queue, fun f hf => (h.flushes f hf).grow hg⟩

/-- **Delivered as it was tracked, in a run that never changes the user while an event
waits.** -/
theorem attributed (σ : Setting) (storage : Storage) (nextId : Id) (hbefore : storage.Before nextId)
    (actions : List Action)
    (hsame : Throughout σ (SameUser σ) (World.start storage nextId) actions) :
    Attributed (run σ (World.start storage nextId) actions) := by
  have hknown : ∀ e : QueuedEvent, e.id < nextId → (World.start storage nextId).env.Known e :=
    fun e he => ⟨he, fun _ hr => absurd hr List.not_mem_nil⟩
  have hstart : (World.start storage nextId).Holds Tab.Attributing Env.Attributing :=
    { fresh := fun _ hr => absurd hr List.not_mem_nil
      stamped := fun _ hr => absurd hr List.not_mem_nil
      stored := fun e he => hknown e (hbefore.1 e he)
      legacy := fun e he => hknown e (hbefore.2 e he)
      orphans := fun _ hp => absurd hp List.not_mem_nil
      accepted := fun _ hp => absurd hp List.not_mem_nil }
  have hrun := run_induction (fun _ _ hw hC => attributing_step hw hC) actions hstart hsame
  have henv : (run σ (World.start storage nextId) actions).env.Attributing := by
    cases hp : (run σ (World.start storage nextId) actions).page with
    | none => exact World.Holds.ofEnv hrun hp
    | some p => exact (World.Holds.ofPage hrun hp).env
  exact fun payload hpayload wire hwire r hr heq => (henv.accepted payload hpayload wire hwire).2 r hr heq

/-- An event under a user, a request that fails, and the delivery of its second try. -/
def identifiedFirst : List Action :=
  [.load {} 10000000, .timer, .respond 0 .ok {}, .identify "A" [], .track "click" [] 10000001,
    .timer, .respond 0 .failed {}, .timer, .respond 0 .ok {}]

theorem attributed_identifiedFirst :
    Attributed (run plainSetting (World.start grantedStorage 0) identifiedFirst) := by
  have hanswered : ∀ (w : World) (i : Nat) (outcome : Tab.Outcome) (room : Room),
      (w.page.all fun p => p.flushes[i]?.all fun f =>
        decide (if outcome = .ok then Recorded (f.rest.headD []) else w.env.log.Under p.userId f.batch))
        = true →
      SameUser plainSetting w (.respond i outcome room) := by
    intro w i outcome room hall p hp f hf
    rw [hp, Option.all_some, hf, Option.all_some] at hall
    exact of_decide_eq_true hall
  have hidentified : ∀ (w : World) (userId : String) (properties : Properties),
      (w.page.all fun p => decide (w.env.log.Under userId p.unsent)) = true →
      SameUser plainSetting w (.identify userId properties) := by
    intro w userId properties hall p hp _ _
    rw [hp, Option.all_some] at hall
    exact of_decide_eq_true hall
  refine attributed plainSetting grantedStorage 0 ⟨by decide, by decide⟩ _ ?_
  exact ⟨fun _ _ => by decide, trivial, hanswered _ _ _ _ (by decide +kernel),
    hidentified _ _ _ (by decide +kernel), trivial, trivial, hanswered _ _ _ _ (by decide +kernel),
    trivial, hanswered _ _ _ _ (by decide +kernel), trivial⟩

/-- A user is identified and clicks; another is identified before the click is sent. -/
def identifiedTwice : List Action :=
  [.load {} 10000000, .identify "A" [], .track "click" [] 10000001, .identify "B" [], .timer,
    .respond 0 .ok {}]

/-- The click is delivered under the other user. -/
theorem identifiedTwice_not_attributed :
    ¬∀ (σ : Setting) (storage : Storage) (nextId : Id), storage.Before nextId →
      ∀ actions : List Action, Attributed (run σ (World.start storage nextId) actions) := by
  intro h
  have hattributed := h plainSetting grantedStorage 0 ⟨by decide, by decide⟩ identifiedTwice
  have huser : ∀ payload ∈ (run plainSetting (World.start grantedStorage 0) identifiedTwice).env.net.accepted,
      ∀ wire ∈ payload.events,
      ∀ r ∈ (run plainSetting (World.start grantedStorage 0) identifiedTwice).env.log.tracked,
      r.event.id = wire.id → payload.userId = sentUserId r.userId :=
    fun payload hp wire hwire r hr heq => (hattributed payload hp wire hwire r hr heq).2.2.1
  revert huser
  decide +kernel

end Momento.Sdk
