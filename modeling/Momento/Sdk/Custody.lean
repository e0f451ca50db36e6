/-
  Momento.Sdk.Custody

  **WHERE A TRACKED EVENT CAN BE.**  While consent is granted and the page can
  store, an event that was tracked stands in the page's queue or in the batch of a
  flush under way, or it was accepted, or a request that outlived its page carries
  it; or it was counted as dropped before the page began.  Nothing a page does
  between its beginning and its end moves an event out of these places; between two
  pages the offline queue takes the page's part.

  Two steps can lose one: a page ends with events it holds in memory only, and a
  request that outlived its page fails.
-/
import Momento.Sdk.Runs

namespace Momento.Sdk

open Foundation

/-! ## §1. The places. -/

/-- The events a page holds. -/
def Page.memory (p : Page) : List Id :=
  p.queue.map QueuedEvent.id ++ p.flushes.flatMap fun f => f.batch.map QueuedEvent.id

/-- The events accepted. -/
def Network.acceptedIds (net : Network) : List Id := net.accepted.flatMap Payload.ids

/-- The events on requests nobody waits for. -/
def Network.orphanIds (net : Network) : List Id := net.orphans.flatMap Payload.ids

/-- The persisted offline queue. -/
def StorageKeys.storedQueue (keys : StorageKeys) : List QueuedEvent :=
  match keys.offline with
  | some (.events saved) => saved
  | _ => []

/-- What a page load finds in the offline queue. -/
def Storage.restorable (storage : Storage) : List QueuedEvent := keptOffline storage.own.storedQueue

@[simp] theorem keptOffline_nil : keptOffline [] = [] := rfl

/-- The ids in the persisted offline queue. -/
def Storage.persistedIds (storage : Storage) : List Id := storage.restorable.map QueuedEvent.id

/-- The events that have left. -/
def Env.outside (env : Env) : List Id := env.net.acceptedIds ++ env.net.orphanIds

/-- What a flush under way still holds of its batch is in its request or not yet
sent; the rest was accepted. -/
def Flush.Accounted (acceptedIds : List Id) (f : Flush) : Prop :=
  ∀ e ∈ f.batch, e.id ∈ acceptedIds ∨ e.id ∈ f.request.ids ∨ e ∈ f.rest.flatten

theorem Flush.Accounted.mono {ids ids' : List Id} {f : Flush} (h : f.Accounted ids)
    (hsub : ids ⊆ ids') : f.Accounted ids' :=
  fun e he => (h e he).imp_left fun ha => hsub ha

theorem Env.mem_outside {env : Env} {id : Id} :
    id ∈ env.outside ↔ id ∈ env.net.acceptedIds ∨ id ∈ env.net.orphanIds :=
  List.mem_append

theorem Page.mem_memory {p : Page} {id : Id} :
    id ∈ p.memory ↔ (∃ e ∈ p.queue, e.id = id) ∨ ∃ f ∈ p.flushes, ∃ e ∈ f.batch, e.id = id := by
  simp only [Page.memory, List.mem_append, List.mem_map, List.mem_flatMap]

/-- A flush's batch beside the memory without that flush. -/
theorem Page.mem_memory_split {p : Page} {before after : List Flush} {f : Flush} {id : Id}
    (hf : p.flushes = before ++ f :: after) :
    id ∈ p.memory ↔ (∃ e ∈ f.batch, e.id = id)
      ∨ id ∈ { p with flushes := before ++ after }.memory := by
  rw [mem_memory, mem_memory, hf]
  simp only [List.mem_append, List.mem_cons]
  constructor
  · rintro (hq | ⟨f', hb | rfl | ha, he⟩)
    · exact .inr (.inl hq)
    · exact .inr (.inr ⟨f', .inl hb, he⟩)
    · exact .inl he
    · exact .inr (.inr ⟨f', .inr ha, he⟩)
  · rintro (he | hq | ⟨f', hb | ha, he⟩)
    · exact .inr ⟨f, .inr (.inl rfl), he⟩
    · exact .inl hq
    · exact .inr ⟨f', .inl hb, he⟩
    · exact .inr ⟨f', .inr (.inr ha), he⟩

namespace Tab
variable {σ : Setting}

/-- Every tracked event is in memory, outside the page or among `elsewhere`, and every
flush under way accounts for its batch. -/
structure Kept (elsewhere : List Id) (t : Tab) : Prop where
  held : ∀ id ∈ t.log.trackedIds, id ∈ t.page.memory ∨ id ∈ t.outside ∨ id ∈ elsewhere
  sent : ∀ f ∈ t.page.flushes, f.Accounted t.net.acceptedIds

/-- What the page has persisted it holds in memory as well, unless it was accepted. -/
def Mirrored (t : Tab) : Prop :=
  ∀ id ∈ t.storage.persistedIds, id ∈ t.page.memory ∨ id ∈ t.net.acceptedIds

/-! ## §2. What the methods preserve. -/

/-- A step that tracks nothing and takes no event out of its place but by acceptance. -/
structure Retains (t t' : Tab) : Prop where
  tracked : t'.log.tracked = t.log.tracked
  memory : ∀ id ∈ t.page.memory, id ∈ t'.page.memory ∨ id ∈ t'.net.acceptedIds
  accepted : t.net.acceptedIds ⊆ t'.net.acceptedIds
  orphans : t'.net.orphans = t.net.orphans
  sent : ∀ f ∈ t'.page.flushes, f.Accounted t'.net.acceptedIds
  offline : t'.storage.own.offline = t.storage.own.offline
    ∨ t'.storage.own.offline = some (.events (keptOffline t'.page.queue))

variable {elsewhere : List Id}

theorem Kept.of_retains {t t' : Tab} (h : t.Kept elsewhere) (hr : t.Retains t') :
    t'.Kept elsewhere where
  held := by
    intro id hid
    rw [Log.trackedIds, hr.tracked] at hid
    rw [Env.mem_outside, Network.orphanIds, hr.orphans]
    rcases h.held id hid with hm | ho | he
    · exact (hr.memory id hm).imp_right fun ha => .inl (.inl ha)
    · exact .inr (.inl ((Env.mem_outside.mp ho).imp_left fun ha => hr.accepted ha))
    · exact .inr (.inr he)
  sent := hr.sent

theorem keptOffline_subset (queue : List QueuedEvent) : keptOffline queue ⊆ queue :=
  (List.drop_sublist _ _).subset

theorem Mirrored.of_retains {t t' : Tab} (h : t.Mirrored) (hr : t.Retains t') : t'.Mirrored := by
  intro id hid
  rcases hr.offline with hsame | hsaved
  · rw [Storage.persistedIds, Storage.restorable, StorageKeys.storedQueue, hsame] at hid
    rcases h id hid with hm | ha
    · exact hr.memory id hm
    · exact .inr (hr.accepted ha)
  · rw [Storage.persistedIds, Storage.restorable, StorageKeys.storedQueue, hsaved, List.mem_map] at hid
    obtain ⟨e, he, hid⟩ := hid
    exact .inl (Page.mem_memory.mpr (.inl ⟨e, keptOffline_subset _ (keptOffline_subset _ he), hid⟩))

/-- Only what the places do not show differs. -/
theorem Retains.of_eq {t t' : Tab} (hsent : ∀ f ∈ t.page.flushes, f.Accounted t.net.acceptedIds)
    (htracked : t'.log.tracked = t.log.tracked) (hqueue : t'.page.queue = t.page.queue)
    (hflushes : t'.page.flushes = t.page.flushes) (hnet : t'.net = t.net)
    (hoffline : t'.storage.own.offline = t.storage.own.offline) : t.Retains t' where
  tracked := htracked
  memory := by
    intro id hid
    rw [Page.memory, hqueue, hflushes]
    exact .inl hid
  accepted := by
    rw [hnet]
    exact List.Subset.refl _
  orphans := by rw [hnet]
  sent := by
    rw [hflushes, hnet]
    exact hsent
  offline := .inl hoffline

theorem Retains.frame {t t' : Tab} (hsent : ∀ f ∈ t.page.flushes, f.Accounted t.net.acceptedIds)
    (hf : t.Frame t') : t.Retains t' :=
  .of_eq hsent (by rw [hf.log]) hf.queue hf.flushes hf.net hf.offline

theorem Retains.trans_frame {t t' t'' : Tab} (h : t.Retains t') (hf : t'.Frame t'') :
    t.Retains t'' where
  tracked := by rw [hf.log, h.tracked]
  memory := by
    have hmemory : t''.page.memory = t'.page.memory := by
      rw [Page.memory, Page.memory, hf.queue, hf.flushes]
    rw [hmemory, hf.net]
    exact h.memory
  accepted := by
    rw [hf.net]
    exact h.accepted
  orphans := by rw [hf.net, h.orphans]
  sent := by
    rw [hf.flushes, hf.net]
    exact h.sent
  offline := by
    rw [hf.offline, hf.queue]
    exact h.offline

theorem Kept.frame {t t' : Tab} (hf : t.Frame t') (h : t.Kept elsewhere) : t'.Kept elsewhere :=
  h.of_retains (.frame h.sent hf)

/-- An event just tracked is in the queue. -/
theorem mem_memory_push {t : Tab} (content : Content) (now : Clock) {id : Id} :
    id ∈ (t.push content now).page.memory ↔ id ∈ t.page.memory ∨ id = t.nextId := by
  simp only [Page.mem_memory, Tab.push, List.mem_append, List.mem_singleton]
  constructor
  · rintro (⟨e, he | rfl, hid⟩ | hf)
    · exact .inl (.inl ⟨e, he, hid⟩)
    · exact .inr hid.symm
    · exact .inl (.inr hf)
  · rintro ((⟨e, he, hid⟩ | hf) | rfl)
    · exact .inl ⟨e, .inl he, hid⟩
    · exact .inr hf
    · exact .inl ⟨_, .inr rfl, rfl⟩

theorem trackedIds_push {t : Tab} (content : Content) (now : Clock) :
    (t.push content now).log.trackedIds = t.log.trackedIds ++ [t.nextId] := by
  simp [Log.trackedIds, Tab.push]

theorem Kept.push {t : Tab} (content : Content) (now : Clock) (h : t.Kept elsewhere) :
    (t.push content now).Kept elsewhere where
  held := by
    intro id hid
    rw [trackedIds_push, List.mem_append, List.mem_singleton] at hid
    rw [mem_memory_push]
    rcases hid with hold | hnew
    · exact (h.held id hold).imp_left .inl
    · exact .inl (.inr hnew)
  sent := h.sent

theorem Mirrored.push {t : Tab} (content : Content) (now : Clock) (h : t.Mirrored) :
    (t.push content now).Mirrored := by
  intro id hid
  rw [mem_memory_push]
  exact (h id hid).imp_left .inl

theorem groupBySession_perm (t : Tab) (events : List QueuedEvent) :
    (t.groupBySession events).flatten.Perm events := Table.groupsInOrder_perm _ _

theorem batch_append_unbatched (t : Tab) : t.batch ++ t.unbatched.page.queue = t.page.queue :=
  List.take_append_drop _ _

/-- A flush that has just sent its first group. -/
theorem accounted_of_groups {t : Tab} {ids : List Id} {events group : List QueuedEvent}
    {rest : List (List QueuedEvent)} {beacon : Bool}
    (h : ∀ e ∈ events, e.id ∈ ids ∨ e ∈ (group :: rest).flatten) :
    Flush.Accounted ids ⟨events, t.payloadOf σ group, rest, beacon⟩ := by
  intro e he
  refine (h e he).imp_right fun hg => ?_
  rw [List.flatten_cons, List.mem_append] at hg
  refine hg.imp_left fun hgroup => ?_
  rw [payloadOf_ids]
  exact List.mem_map_of_mem hgroup

theorem acceptedIds_accept (payload : Payload) (t : Tab) :
    (t.accept payload).net.acceptedIds = t.net.acceptedIds ++ payload.ids := by
  simp [Network.acceptedIds, accept]

theorem accepted_subset_accept (payload : Payload) (t : Tab) :
    t.net.acceptedIds ⊆ (t.accept payload).net.acceptedIds := by
  rw [acceptedIds_accept]
  exact List.subset_append_left _ _

/-- A batch that goes back is in the queue again, whatever the save does. -/
theorem Retains.requeue {batch : List QueuedEvent} (room : Room) {t₀ t : Tab}
    (htracked : t.log.tracked = t₀.log.tracked)
    (hmemory : ∀ id ∈ t₀.page.memory, (∃ e ∈ batch, e.id = id) ∨ id ∈ t.page.memory)
    (haccepted : t₀.net.acceptedIds ⊆ t.net.acceptedIds)
    (horphans : t.net.orphans = t₀.net.orphans)
    (hsent : ∀ f ∈ t.page.flushes, f.Accounted t.net.acceptedIds)
    (hoffline : t.storage.own.offline = t₀.storage.own.offline) :
    t₀.Retains (t.requeue σ batch room) := by
  have hsaved := saved_requeue (σ := σ) batch room t
  refine ⟨hsaved.tracked.trans htracked, fun id hid => .inl ?_, ?_, ?_, ?_, ?_⟩
  · rw [hsaved.page, Page.mem_memory]
    rcases hmemory id hid with ⟨e, he, hid⟩ | hm
    · exact .inl ⟨e, List.mem_append_left _ he, hid⟩
    · refine (Page.mem_memory.mp hm).imp_left fun ⟨e, he, hid⟩ => ?_
      exact ⟨e, List.mem_append_right _ he, hid⟩
  · rw [hsaved.net]
    exact haccepted
  · rw [hsaved.net]
    exact horphans
  · rw [hsaved.page, hsaved.net]
    exact hsent
  · rw [hsaved.page]
    exact hsaved.offline.imp (fun h => h.1.trans hoffline) And.left

/-- **A flush keeps what it takes.** -/
theorem retains_flush {useBeacon : Bool} {t t' : Tab} (hcase : FlushCase σ useBeacon t t')
    (hsent : ∀ f ∈ t.page.flushes, f.Accounted t.net.acceptedIds) : t.Retains t' := by
  have hqueue : ∀ {id : Id}, id ∈ t.page.memory →
      (∃ e ∈ t.batch, e.id = id) ∨ id ∈ t.unbatched.page.memory := by
    intro id hid
    rw [Page.mem_memory, ← batch_append_unbatched t] at hid
    rw [Page.mem_memory]
    rcases hid with ⟨e, he, hid⟩ | hf
    · rcases List.mem_append.mp he with hb | hq
      · exact .inl ⟨e, hb, hid⟩
      · exact .inr (.inl ⟨e, hq, hid⟩)
    · exact .inr (.inr hf)
  cases hcase with
  | idle => exact .of_eq hsent rfl rfl rfl rfl rfl
  | sent group rest htrack hgroups =>
    refine ⟨rfl, fun id hid => .inl ?_, List.Subset.refl _, rfl, ?_, .inl rfl⟩
    · refine (Page.mem_memory_split (show _ = t.page.flushes ++ _ :: [] from rfl)).mpr ?_
      rw [List.append_nil]
      exact hqueue hid
    · intro f hf
      rcases List.mem_append.mp hf with hold | hnew
      · exact hsent f hold
      · rw [List.mem_singleton.mp hnew]
        refine accounted_of_groups fun e he => .inr ?_
        rw [← hgroups]
        exact (groupBySession_perm t _).mem_iff.mpr he

/-- **An answer accounts for the whole batch of the flush it reaches.** -/
theorem retains_answered {i : Nat} {room : Room} {outcome : Outcome} {t t' : Tab}
    (hcase : AnsweredCase σ i room t outcome t')
    (hsent : ∀ f ∈ t.page.flushes, f.Accounted t.net.acceptedIds) : t.Retains t' := by
  have hsplit : ∀ {before after : List Flush} {f : Flush}, t.page.flushes = before ++ f :: after →
      f.Accounted t.net.acceptedIds ∧ ∀ f' ∈ before ++ after, f'.Accounted t.net.acceptedIds := by
    intro before after f hf
    have hall := hsent
    rw [hf, List.forall_mem_append, List.forall_mem_cons] at hall
    exact ⟨hall.2.1, List.forall_mem_append.mpr ⟨hall.1, hall.2.2⟩⟩
  have haccepted := fun payload => accepted_subset_accept payload t
  cases hcase with
  | nobody => exact .of_eq hsent rfl rfl rfl rfl rfl
  | done before after f hi hf hrest =>
    refine Retains.trans_frame ?_ (frame_rescheduled _)
    refine ⟨rfl, ?_, haccepted _, rfl,
      fun f' hf' => ((hsplit hf).2 f' hf').mono (haccepted _), .inl rfl⟩
    intro id hid
    rcases (Page.mem_memory_split hf).mp hid with ⟨e, he, rfl⟩ | hm
    · have hbatch := (hsplit hf).1 e he
      rw [hrest, List.flatten_nil] at hbatch
      have hid : e.id ∈ (t.accept f.request).net.acceptedIds := by
        rw [acceptedIds_accept]
        exact List.mem_append.mpr (hbatch.imp_right (Or.resolve_right · List.not_mem_nil))
      exact .inr hid
    · exact .inl hm
  | next before after f hi hf group rest hrest =>
    refine ⟨rfl, fun id hid => .inl ?_, haccepted _, rfl, ?_, .inl rfl⟩
    · refine (Page.mem_memory_split (show _ = before ++ _ :: after from rfl)).mpr ?_
      exact (Page.mem_memory_split hf).mp hid
    · have hnew : Flush.Accounted (t.accept f.request).net.acceptedIds
          ⟨f.batch, t.payloadOf σ group, rest, f.beacon⟩ := by
        refine accounted_of_groups fun e he => ?_
        rw [acceptedIds_accept, List.mem_append, ← hrest, or_assoc]
        exact (hsplit hf).1 e he
      have hothers := (hsplit hf).2
      rw [List.forall_mem_append] at hothers
      show ∀ f' ∈ before ++ _ :: after, Flush.Accounted _ f'
      rw [List.forall_mem_append, List.forall_mem_cons]
      exact ⟨fun f' hf' => (hothers.1 f' hf').mono (haccepted _), hnew,
        fun f' hf' => (hothers.2 f' hf').mono (haccepted _)⟩
  | lost before after f hi hf =>
    refine Retains.requeue room rfl ?_ (haccepted _) rfl ?_ rfl
    · exact fun id hid => (Page.mem_memory_split hf).mp hid
    · exact fun f' hf' => ((hsplit hf).2 f' hf').mono (haccepted _)
  | failed before after f hi hf =>
    refine Retains.requeue room rfl ?_ (List.Subset.refl _) rfl (hsplit hf).2 rfl
    exact fun id hid => (Page.mem_memory_split hf).mp hid

theorem Kept.stable : Stable σ (Kept elsewhere) where
  frame := Kept.frame
  push := fun content now _ h => h.push content now
  sent := fun hcase h => h.of_retains (retains_flush hcase h.sent)

/-! ## §3. With consent. -/

end Tab

/-- The modes that store while consent is granted. -/
def MomentoOptions.Stores (options : MomentoOptions) : Prop :=
  options.mode = .full ∨ options.mode = .consentRequired ∨ options.mode = .cookieConsent

/-- Consent stays granted, and pages may store. -/
def Action.Consented : Action → Prop
  | .load options _ => options.Stores
  | .deny _ => False
  | .revoke _ => False
  | _ => True

namespace Tab

/-- Consent is granted, and the page may store. -/
structure Consenting (t : Tab) : Prop where
  mode : t.page.options.Stores
  page : t.page.consentState = .granted
  stored : t.storage.own.consent = some .granted

theorem Consenting.isPersistent {t : Tab} (h : t.Consenting) : t.page.isPersistent σ := by
  have hmode := h.mode
  unfold Page.isPersistent
  rw [h.page]
  rcases hmode with hm | hm | hm <;> simp [hm]

theorem Consenting.of_eq {t t' : Tab} (h : t.Consenting) (hoptions : t'.page.options = t.page.options)
    (hpage : t'.page.consentState = t.page.consentState)
    (hstored : t'.storage.own.consent = t.storage.own.consent) : t'.Consenting where
  mode := hoptions ▸ h.mode
  page := hpage.trans h.page
  stored := hstored.trans h.stored

theorem Consenting.requeue {t : Tab} (h : t.Consenting) (batch : List QueuedEvent) (room : Room) :
    (t.requeue σ batch room).Consenting := by
  have hsaved := saved_requeue (σ := σ) batch room t
  exact h.of_eq (by rw [hsaved.page]; rfl) (by rw [hsaved.page]; rfl) hsaved.consent

theorem Consenting.frame {t t' : Tab} (hf : t.Frame t') (h : t.Consenting) : t'.Consenting :=
  h.of_eq hf.options hf.consentState hf.consent

theorem Consenting.flush {useBeacon : Bool} {t t' : Tab} (hcase : FlushCase σ useBeacon t t')
    (h : t.Consenting) : t'.Consenting := by
  cases hcase with
  | idle => exact h
  | sent => exact h.of_eq rfl rfl rfl

theorem Consenting.answered {i : Nat} {room : Room} {outcome : Outcome} {t t' : Tab}
    (hcase : AnsweredCase σ i room t outcome t') (h : t.Consenting) : t'.Consenting := by
  cases hcase with
  | nobody => exact h
  | done => exact Consenting.frame (frame_rescheduled _) (h.of_eq rfl rfl rfl)
  | next => exact h.of_eq rfl rfl rfl
  | lost before after f hi hf =>
    refine Consenting.requeue ?_ f.batch room
    exact h.of_eq rfl rfl rfl
  | failed before after f hi hf =>
    refine Consenting.requeue ?_ f.batch room
    exact h.of_eq rfl rfl rfl

theorem Consenting.stable : Stable σ Consenting where
  frame := Consenting.frame
  push := fun _ _ _ h => h.of_eq rfl rfl rfl
  sent := fun hcase h => h.flush hcase

/-! ## §4. A page load. -/

/-- What `restoreOffline` leaves: the stored events are in the queue. -/
theorem restoreOffline_spec {t : Tab} (hpersistent : t.page.isPersistent σ) :
    (t.restoreOffline σ).page = { t.page with queue := t.page.queue ++ t.storage.restorable }
      ∧ (t.restoreOffline σ).net = t.net ∧ (t.restoreOffline σ).log = t.log
      ∧ (t.restoreOffline σ).storage.restorable = [] := by
  unfold Tab.restoreOffline
  rw [if_pos hpersistent]
  cases hoffline : t.storage.own.offline with
  | none => simp [Storage.restorable, StorageKeys.storedQueue, hoffline]
  | some stored => cases stored <;> simp [Storage.restorable, StorageKeys.storedQueue, hoffline]

theorem Kept.restoreOffline {t : Tab} (hpersistent : t.page.isPersistent σ)
    (h : t.Kept (t.storage.persistedIds ++ elsewhere)) : (t.restoreOffline σ).Kept elsewhere := by
  obtain ⟨hpage, hnet, hlog, -⟩ := restoreOffline_spec hpersistent
  refine ⟨fun id hid => ?_, ?_⟩
  · rw [hlog] at hid
    rw [hpage, Page.mem_memory, Env.mem_outside, hnet, ← Env.mem_outside]
    rcases h.held id hid with hm | ho | helse
    · refine .inl ((Page.mem_memory.mp hm).imp_left fun ⟨e, he, hid⟩ => ?_)
      exact ⟨e, List.mem_append_left _ he, hid⟩
    · exact .inr (.inl ho)
    · rcases List.mem_append.mp helse with hp | helse
      · obtain ⟨e, he, hid⟩ := List.mem_map.mp hp
        exact .inl (.inl ⟨e, List.mem_append_right _ he, hid⟩)
      · exact .inr (.inr helse)
  · rw [hpage, hnet]
    exact h.sent

theorem Consenting.restoreOffline {t : Tab} (h : t.Consenting) : (t.restoreOffline σ).Consenting := by
  unfold Tab.restoreOffline
  split
  · cases t.storage.own.offline with
    | none => exact h
    | some stored => cases stored <;> exact h.of_eq rfl rfl rfl
  · exact h

end Tab

/-- Every tracked event is outside the pages, persisted or counted. -/
def Env.Kept (env : Env) : Prop :=
  ∀ id ∈ env.log.trackedIds,
    id ∈ env.outside ∨ id ∈ env.storage.persistedIds ∨ id ∈ env.log.counted

/-- A migrated queue only fills a place that is empty. -/
theorem persistedIds_migrate {storage : Storage} {id : Id} (h : id ∈ storage.persistedIds) :
    id ∈ (Tab.migrateLegacyStorage σ storage).persistedIds := by
  have hoffline : (Tab.migrateLegacyStorage σ storage).own.offline = storage.own.offline := by
    unfold Tab.migrateLegacyStorage
    split
    · cases hown : storage.own.offline with
      | none => simp [Storage.persistedIds, Storage.restorable, StorageKeys.storedQueue, hown] at h
      | some saved => rfl
    · rfl
  rwa [Storage.persistedIds, Storage.restorable, StorageKeys.storedQueue, hoffline]

namespace Tab

/-- What a page keeps: the events of `lost` were counted before it began, every other
tracked event has a place, and consent stands. -/
structure Keeping (lost : List Id) (t : Tab) : Prop where
  kept : t.Kept lost
  mirrored : t.Mirrored
  counted : lost ⊆ t.log.counted
  consenting : t.Consenting

variable {lost : List Id}

theorem counted_requeue {room : Room} {batch : List QueuedEvent} {t : Tab}
    (h : lost ⊆ t.log.counted) : lost ⊆ (t.requeue σ batch room).log.counted :=
  List.Subset.trans h (saved_requeue (σ := σ) batch room t).counted

theorem counted_flush {useBeacon : Bool} {t t' : Tab} (hcase : FlushCase σ useBeacon t t')
    (h : lost ⊆ t.log.counted) : lost ⊆ t'.log.counted := by
  cases hcase with
  | idle => exact h
  | sent => exact h

theorem counted_answered {i : Nat} {room : Room} {outcome : Outcome} {t t' : Tab}
    (hcase : AnsweredCase σ i room t outcome t') (h : lost ⊆ t.log.counted) :
    lost ⊆ t'.log.counted := by
  cases hcase with
  | nobody => exact h
  | done =>
    rw [(frame_rescheduled _).log]
    exact h
  | next => exact h
  | lost => exact counted_requeue h
  | failed => exact counted_requeue h

theorem counted_stable : Stable σ fun t => lost ⊆ t.log.counted where
  frame := fun hf h => by rw [hf.log]; exact h
  push := fun _ _ _ h => h
  sent := fun hcase h => counted_flush hcase h

theorem Keeping.flush {useBeacon : Bool} {t t' : Tab} (hcase : FlushCase σ useBeacon t t')
    (h : t.Keeping lost) : t'.Keeping lost :=
  have hretains := retains_flush hcase h.kept.sent
  ⟨h.kept.of_retains hretains, h.mirrored.of_retains hretains, counted_flush hcase h.counted,
    h.consenting.flush hcase⟩

theorem Keeping.answered {i : Nat} {room : Room} {outcome : Outcome} {t t' : Tab}
    (hcase : AnsweredCase σ i room t outcome t') (h : t.Keeping lost) : t'.Keeping lost :=
  have hretains := retains_answered hcase h.kept.sent
  ⟨h.kept.of_retains hretains, h.mirrored.of_retains hretains, counted_answered hcase h.counted,
    h.consenting.answered hcase⟩

/-- Steps that touch neither the events nor the network nor the log of both. -/
theorem Keeping.of_eq {t t' : Tab} (h : t.Keeping lost) (hqueue : t'.page.queue = t.page.queue)
    (hflushes : t'.page.flushes = t.page.flushes) (hnet : t'.net = t.net)
    (hoffline : t'.storage.own.offline = t.storage.own.offline)
    (htracked : t'.log.tracked = t.log.tracked) (hcounted : t'.log.counted = t.log.counted)
    (hconsenting : t'.Consenting) : t'.Keeping lost :=
  have hretains := Retains.of_eq h.kept.sent htracked hqueue hflushes hnet hoffline
  ⟨h.kept.of_retains hretains, h.mirrored.of_retains hretains, hcounted ▸ h.counted, hconsenting⟩

theorem Keeping.frame {t t' : Tab} (hf : t.Frame t') (h : t.Keeping lost) : t'.Keeping lost :=
  h.of_eq hf.queue hf.flushes hf.net hf.offline (by rw [hf.log]) (by rw [hf.log])
    (h.consenting.frame hf)

theorem Keeping.push {t : Tab} (content : Content) (now : Clock) (h : t.Keeping lost) :
    (t.push content now).Keeping lost :=
  ⟨h.kept.push content now, h.mirrored.push content now, h.counted, h.consenting.of_eq rfl rfl rfl⟩

theorem Keeping.stable : Stable σ (Keeping lost) where
  frame := Keeping.frame
  push := fun content now _ h => h.push content now
  sent := fun hcase h => h.flush hcase

theorem Keeping.reportDropped (now : Clock) {t : Tab} (h : t.Keeping lost) :
    (t.reportDropped σ now).Keeping lost :=
  Keeping.stable.reportDropped now
    (fun ht => ht.of_eq rfl rfl rfl rfl rfl rfl (ht.consenting.of_eq rfl rfl rfl))
    (fun _ _ ht => ht.push _ now) h

theorem Keeping.setHidden (hidden : Bool) {t : Tab} (h : t.Keeping lost) :
    (t.setHidden hidden).Keeping lost :=
  h.of_eq rfl rfl rfl rfl rfl rfl (h.consenting.of_eq rfl rfl rfl)

theorem Keeping.hide {t : Tab} (h : t.Keeping lost) : (t.hide σ).Keeping lost :=
  Keeping.stable.hide (Keeping.setHidden true) h

theorem Keeping.identify (userId : String) (properties : Properties) {t : Tab} (h : t.Keeping lost) :
    (t.identify σ userId properties).Keeping lost := by
  unfold Tab.identify
  split
  · exact h
  · exact h.of_eq rfl rfl rfl rfl rfl rfl (h.consenting.of_eq rfl rfl rfl)

theorem Keeping.grant (now : Clock) {t : Tab} (h : t.Keeping lost) :
    (t.grant σ now).Keeping lost := by
  refine Keeping.stable.grant now (fun ht => ?_) (fun ht => ?_) h
  · exact ht.of_eq rfl rfl rfl rfl rfl rfl ⟨ht.consenting.mode, rfl, rfl⟩
  · exact ht.of_eq rfl rfl rfl rfl rfl rfl (ht.consenting.of_eq rfl rfl rfl)

/-- **A page load takes over the offline queue.** -/
theorem keeping_init {env : Env} {options : MomentoOptions} (now : Clock) (h : env.Kept)
    (hconsent : env.storage.own.consent = some .granted) (hmode : options.Stores) :
    (Tab.init σ options now env).Keeping env.log.counted := by
  have hstored : (migrateLegacyStorage σ env.storage).own.consent = some .granted := by
    unfold migrateLegacyStorage
    split
    · show env.storage.own.consent.or _ = _
      rw [hconsent]
      rfl
    · exact hconsent
  have hopened : (opened σ options env).Kept
      ((opened σ options env).storage.persistedIds ++ env.log.counted) := by
    refine ⟨fun id hid => .inr ?_, fun f hf => absurd hf List.not_mem_nil⟩
    rw [List.mem_append]
    exact (h id hid).imp_right (Or.imp_left persistedIds_migrate)
  have hconsenting : (opened σ options env).Consenting := by
    refine ⟨hmode, ?_, hstored⟩
    show readConsentState (migrateLegacyStorage σ env.storage) = _
    rw [readConsentState, hstored]
  generalize hloaded : (opened σ options env).loadIdentity σ now = loaded
  have hidentity : loaded.Kept (loaded.storage.persistedIds ++ env.log.counted)
      ∧ env.log.counted ⊆ loaded.log.counted ∧ loaded.Consenting := by
    have hoffline := (offline_stable (σ := σ) (opened σ options env).storage.own.offline).loadIdentity
      now rfl
    have hpersisted : loaded.storage.persistedIds = (opened σ options env).storage.persistedIds := by
      rw [hloaded] at hoffline
      simp only [Storage.persistedIds, Storage.restorable, StorageKeys.storedQueue, hoffline]
    rw [hpersisted, ← hloaded]
    exact (Kept.stable.and (counted_stable.and Consenting.stable)).loadIdentity now
      ⟨hopened, List.Subset.refl _, hconsenting⟩
  have hrestored : (loaded.restoreOffline σ).Keeping env.log.counted := by
    obtain ⟨-, -, hlog, hempty⟩ := restoreOffline_spec (hidentity.2.2.isPersistent (σ := σ))
    refine ⟨hidentity.1.restoreOffline hidentity.2.2.isPersistent, fun id hid => ?_, ?_,
      hidentity.2.2.restoreOffline⟩
    · rw [Storage.persistedIds, hempty] at hid
      exact absurd hid List.not_mem_nil
    · rw [hlog]
      exact hidentity.2.1
  have hreported := hrestored.reportDropped (σ := σ) now
  unfold Tab.init
  rw [hloaded]
  dsimp only
  split
  · exact Keeping.stable.track _ _ now hreported
  · exact hreported

end Tab

/-! ## §5. The two steps that can lose an event. -/

/-- What the page holds in memory only: its queue and the groups not yet sent. -/
def Page.unsent (p : Page) : List QueuedEvent :=
  p.queue ++ p.flushes.flatMap fun f => f.rest.flatten

/-- The page may end: each tracked event it holds in memory only has a copy in the
offline queue, was counted or accepted, or is in a request under way. -/
def MayEnd (env : Env) (p : Page) : Prop :=
  ∀ e ∈ p.unsent, e.id ∈ env.log.trackedIds →
    e.id ∈ (World.closed env p).outside ∨ e.id ∈ env.storage.persistedIds ∨ e.id ∈ env.log.counted

instance (env : Env) (p : Page) : Decidable (MayEnd env p) :=
  inferInstanceAs (Decidable (∀ e ∈ p.unsent, _))

/-- Where an event is when it is not outside the pages. -/
def World.insideIds (w : World) : List Id :=
  match w.page with
  | some p => p.memory
  | none => w.env.storage.persistedIds

/-- The `i`-th request that outlived its page may fail: each of its tracked events was
accepted or counted, is in another such request, or is back in the page's memory or,
while there is no page, in the offline queue. -/
def MayFail (w : World) (i : Nat) (payload : Payload) : Prop :=
  ∀ id ∈ payload.ids, id ∈ w.env.log.trackedIds →
    id ∈ (World.settled w.env i payload .failed).outside ∨ id ∈ w.insideIds ∨ id ∈ w.env.log.counted

/-- Neither of the two steps loses an event. -/
def LossFree (w : World) : Action → Prop
  | .close => ∀ p, w.page = some p → World.CanEnd p → MayEnd w.env p
  | .orphan i .failed => ∀ payload, w.env.net.orphans[i]? = some payload → MayFail w i payload
  | _ => True

/-- Consent stands, and every tracked event is in one of its places. -/
def World.Custody : World → Prop :=
  World.Holds (fun t => ∃ lost, t.Keeping lost)
    (fun env => env.Kept ∧ env.storage.own.consent = some .granted)

theorem outside_closed {env : Env} {p : Page} {id : Id} :
    id ∈ (World.closed env p).outside ↔ id ∈ env.outside ∨ ∃ f ∈ p.flushes, id ∈ f.request.ids := by
  rw [Env.mem_outside, Env.mem_outside]
  show id ∈ env.net.acceptedIds
    ∨ id ∈ (env.net.orphans ++ p.flushes.map Flush.request).flatMap Payload.ids ↔ _
  rw [List.flatMap_append, List.flatMap_map]
  simp only [Network.orphanIds, List.mem_append, List.mem_flatMap, or_assoc]

/-- The page's end keeps the events outside and in requests, and what `hend` says of the rest. -/
theorem kept_closed {lost : List Id} {env : Env} {p : Page} (h : Tab.Keeping lost ⟨env, p⟩)
    (hend : MayEnd env p) : (World.closed env p).Kept := by
  intro id hid
  rcases h.kept.held id hid with hm | ho | hl
  · rcases Page.mem_memory.mp hm with ⟨e, he, rfl⟩ | ⟨f, hf, e, he, rfl⟩
    · exact hend e (List.mem_append_left _ he) hid
    · rcases h.kept.sent f hf e he with ha | hreq | hr
      · exact .inl (outside_closed.mpr (.inl (Env.mem_outside.mpr (.inl ha))))
      · exact .inl (outside_closed.mpr (.inr ⟨f, hf, hreq⟩))
      · exact hend e (List.mem_append_right _ (List.mem_flatMap.mpr ⟨f, hf, hr⟩)) hid
  · exact .inl (outside_closed.mpr (.inl ho))
  · exact .inr (.inr (h.counted hl))

/-- What settling a request moves. -/
theorem outside_settled {env : Env} {i : Nat} {payload : Payload} {id : Id} (outcome : Tab.Outcome)
    (hi : env.net.orphans[i]? = some payload) (hid : id ∈ env.outside) :
    id ∈ (World.settled env i payload outcome).outside ∨ outcome = .failed ∧ id ∈ payload.ids := by
  obtain ⟨before, after, hsplit, herase, -⟩ := Table.split_of_getElem? hi
  have haccepted : (World.settled env i payload outcome).net.acceptedIds
      = env.net.acceptedIds ++ if outcome = .failed then [] else payload.ids := by
    simp only [World.settled, Network.acceptedIds, List.flatMap_append]
    split <;> simp
  have horphans : (World.settled env i payload outcome).net.orphanIds
      = (before ++ after).flatMap Payload.ids := by
    simp only [World.settled, Network.orphanIds, herase]
  rw [Env.mem_outside, haccepted, horphans]
  rcases Env.mem_outside.mp hid with ha | ho
  · exact .inl (.inl (List.mem_append_left _ ha))
  · rw [Network.orphanIds, hsplit, List.flatMap_append, List.flatMap_cons] at ho
    rw [List.flatMap_append]
    simp only [List.mem_append] at ho ⊢
    by_cases hfailed : outcome = .failed
    · tauto
    · simp only [hfailed, if_false]
      tauto

/-- **A step that loses nothing keeps the custody.** -/
theorem custody_step {w : World} {a : Action} (hw : w.Custody) (hconsented : a.Consented)
    (hfree : LossFree w a) : (step σ w a).Custody := by
  have hstable : ∀ {lost : List Id}, Tab.Stable σ (Tab.Keeping lost) := Tab.Keeping.stable
  cases a with
  | load options now =>
    exact hw.load fun _ h => ⟨_, Tab.keeping_init now h.1 h.2 hconsented⟩
  | track name properties now =>
    exact hw.onPage fun p _ ⟨lost, h⟩ => ⟨lost, hstable.track name properties now h⟩
  | timer => exact hw.callback fun p _ ⟨lost, h⟩ => ⟨lost, hstable.timerFired h⟩
  | flush useBeacon => exact hw.onPage fun p _ ⟨lost, h⟩ => ⟨lost, hstable.flush useBeacon h⟩
  | hide => exact hw.callback fun p _ ⟨lost, h⟩ => ⟨lost, h.hide⟩
  | «show» => exact hw.callback fun p _ ⟨lost, h⟩ => ⟨lost, h.setHidden false⟩
  | respond i outcome room =>
    exact hw.onPage fun p _ ⟨lost, h⟩ => ⟨lost, h.answered (Tab.answered_case i outcome room _)⟩
  | identify userId properties =>
    exact hw.onPage fun p _ ⟨lost, h⟩ => ⟨lost, h.identify userId properties⟩
  | setSessionProperties properties =>
    exact hw.onPage fun p _ ⟨lost, h⟩ =>
      ⟨lost, hstable.frame (Tab.frame_setSessionProperties properties _) h⟩
  | grant now => exact hw.onPage fun p _ ⟨lost, h⟩ => ⟨lost, h.grant now⟩
  | deny now => exact absurd hconsented id
  | revoke now => exact absurd hconsented id
  | close =>
    exact World.Holds.close hw fun p hp hend ⟨lost, h⟩ =>
      ⟨kept_closed h (hfree p hp hend), h.consenting.stored⟩
  | orphan i outcome =>
    refine World.Holds.orphan hw fun payload hi => ?_
    have houtside : ∀ {id : Id}, id ∈ w.env.log.trackedIds → id ∈ w.env.outside →
        id ∈ (World.settled w.env i payload outcome).outside ∨ id ∈ w.insideIds
          ∨ id ∈ w.env.log.counted := by
      intro id htracked hid
      rcases outside_settled outcome hi hid with ho | ⟨rfl, hpayload⟩
      · exact .inl ho
      · exact hfree payload hi id hpayload htracked
    cases hp : w.page with
    | none =>
      have henv := World.Holds.ofEnv hw hp
      rw [World.insideIds, hp] at houtside
      refine ⟨fun id hid => ?_, henv.2⟩
      exact (henv.1 id hid).elim (houtside hid) .inr
    | some p =>
      obtain ⟨lost, h⟩ := World.Holds.ofPage hw hp
      rw [World.insideIds, hp] at houtside
      have haccepted : w.env.net.acceptedIds
          ⊆ (World.settled w.env i payload outcome).net.acceptedIds := by
        show w.env.net.acceptedIds ⊆ List.flatMap Payload.ids (_ ++ _)
        rw [List.flatMap_append]
        exact List.subset_append_left _ _
      refine ⟨w.env.log.counted, ⟨fun id hid => ?_, ?_⟩, ?_, List.Subset.refl _,
        h.consenting.of_eq rfl rfl rfl⟩
      · rcases h.kept.held id hid with hm | ho | hl
        · exact .inl hm
        · rcases houtside hid ho with ho' | hm | hc
          · exact .inr (.inl ho')
          · exact .inl hm
          · exact .inr (.inr hc)
        · exact .inr (.inr (h.counted hl))
      · exact fun f hf => (h.kept.sent f hf).mono haccepted
      · exact fun id hid => (h.mirrored id hid).imp_right fun ha => haccepted ha

end Momento.Sdk
