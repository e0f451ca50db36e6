/-
  Momento.Sdk.RefusedEvent

  **ONE EVENT THE COLLECTOR WILL NEVER ACCEPT.**  The collector refuses a whole
  request for it, with the same answer every time, and `flush` takes a refusal for
  a network that failed: the whole batch goes back to the front of the queue.

  Here flushes are heard out one after the other.  Each is a round of
  `Foundation.Batches`, so what is ever accepted of a queue is what stands ahead of
  the refused event: the batches before its own, and of its own the groups before
  the first with a refused event.
-/
import Momento.Foundation.Batches
import Momento.Sdk.Runs

namespace Momento.Sdk

open Foundation

/-! ## §1. Flushes, heard out. -/

/-- The answer of a collector that refuses exactly the payloads with such an event. -/
def collected (refused : WireEvent → Bool) (p : Payload) : Tab.Outcome :=
  if p.events.any refused then .failed else .ok

section
variable (σ : Setting) (refused : WireEvent → Bool)

namespace Tab

/-- The `i`-th flush hears the answers to its requests, up to `n` of them. -/
def heardOut (i : Nat) (room : Room) : Nat → Tab → Tab
  | 0, t => t
  | n + 1, t =>
    match t.page.flushes[i]? with
    | none => t
    | some f => heardOut i room n (t.answered σ i (collected refused f.request) room)

/-- `flush()`, and all answers to it: a batch has no more groups than events. -/
def flushed (room : Room) (t : Tab) : Tab :=
  (t.flush σ false).heardOut σ refused t.page.flushes.length room t.page.queue.length

/-- One flush after the other. -/
def flushes (room : Nat → Room) : Nat → Tab → Tab
  | 0, t => t
  | n + 1, t => flushes (fun i => room (i + 1)) n (t.flushed σ refused (room 0))

/-- The payloads accepted since. -/
def acceptedSince (t t' : Tab) : List Payload := t'.net.accepted.drop t.net.accepted.length

/-- Every other event of the queue was accepted. -/
def OthersAccepted (t t' : Tab) : Prop :=
  ∀ e ∈ t.page.queue, refused e.wire = false → ∃ p ∈ t.acceptedSince t', e.wire ∈ p.events

/-- **Every other event stands ahead of the refused ones**: in a batch before the
first with a refused event, or in that batch, in a group before the first with one;
and the page may track. -/
def OthersAhead (t : Tab) : Prop :=
  ∀ e ∈ t.page.queue, refused e.wire = false → t.page.canTrack σ = true
    ∧ e.wire ∈ (Batches.ahead t.page.batchSize t.groupBySession (fun e => refused e.wire) t.page.queue).map
        QueuedEvent.wire

end Tab

end

/-! ## §2. What the answers leave alone. -/

namespace Tab
variable {σ : Setting} {refused : WireEvent → Bool}

/-- The page is as it was, but for the queue and the timer, and it has accepted
payloads more. -/
structure Heard (t t' : Tab) (queue : List QueuedEvent) (payloads : List Payload) : Prop where
  options : t'.page.options = t.page.options
  consentState : t'.page.consentState = t.page.consentState
  visitorId : t'.page.visitorId = t.page.visitorId
  sessionId : t'.page.sessionId = t.page.sessionId
  queue : t'.page.queue = queue
  accepted : t'.net.accepted = t.net.accepted ++ payloads

theorem Heard.trans {t t' t'' : Tab} {queue queue' : List QueuedEvent} {sent sent' : List Payload}
    (h : t.Heard t' queue sent) (h' : t'.Heard t'' queue' sent') : t.Heard t'' queue' (sent ++ sent') where
  options := h'.options.trans h.options
  consentState := h'.consentState.trans h.consentState
  visitorId := h'.visitorId.trans h.visitorId
  sessionId := h'.sessionId.trans h.sessionId
  queue := h'.queue
  accepted := by rw [h'.accepted, h.accepted, List.append_assoc]

theorem Heard.canTrack {t t' : Tab} {queue : List QueuedEvent} {sent : List Payload} (h : t.Heard t' queue sent) :
    t'.page.canTrack σ = t.page.canTrack σ := by
  unfold Page.canTrack
  rw [h.options, h.consentState]

theorem Heard.batchSize {t t' : Tab} {queue : List QueuedEvent} {sent : List Payload} (h : t.Heard t' queue sent) :
    t'.page.batchSize = t.page.batchSize := by
  unfold Page.batchSize
  rw [h.options]

/-- A queue's groups are those of the page's visitor and session. -/
theorem Heard.groupBySession {t t' : Tab} {queue : List QueuedEvent} {sent : List Payload} (h : t.Heard t' queue sent) :
    t'.groupBySession = t.groupBySession := by
  have hkey : t'.groupKey = t.groupKey := by
    funext e
    unfold groupKey
    rw [h.visitorId, h.sessionId]
  unfold Tab.groupBySession
  rw [hkey]

theorem page_rescheduled (t : Tab) : t.rescheduled.page.queue = t.page.queue
    ∧ t.rescheduled.page.options = t.page.options ∧ t.rescheduled.page.consentState = t.page.consentState
    ∧ t.rescheduled.page.visitorId = t.page.visitorId ∧ t.rescheduled.page.sessionId = t.page.sessionId
    ∧ t.rescheduled.page.flushes = t.page.flushes ∧ t.rescheduled.net = t.net := by
  unfold rescheduled
  split
  · exact ⟨rfl, rfl, rfl, rfl, rfl, rfl, rfl⟩
  · exact ⟨rfl, rfl, rfl, rfl, rfl, rfl, rfl⟩

theorem heardOut_of_none {i : Nat} {room : Room} (n : Nat) {t : Tab} (h : t.page.flushes[i]? = none) :
    t.heardOut σ refused i room n = t := by
  cases n with
  | zero => rfl
  | succ n =>
    unfold heardOut
    rw [h]

/-- An event the collector refuses, as the queue holds it. -/
abbrev refuses (refused : WireEvent → Bool) (e : QueuedEvent) : Bool := refused e.wire

section
variable {F : List Flush} {batch group : List QueuedEvent} {rest : List (List QueuedEvent)} {request : Payload} {t : Tab}

theorem last_flush (h : t.page.flushes = F ++ [⟨batch, request, rest, false⟩]) :
    t.page.flushes[F.length]? = some ⟨batch, request, rest, false⟩ ∧ t.page.flushes.eraseIdx F.length = F
      ∧ ∀ f, t.page.flushes.set F.length f = F ++ [f] := by
  rw [h]
  refine ⟨?_, ?_, fun f => ?_⟩
  · rw [List.getElem?_append_right (Nat.le_refl _), Nat.sub_self]
    rfl
  · rw [List.eraseIdx_append_of_length_le (Nat.le_refl _), Nat.sub_self]
    exact List.append_nil F
  · rw [List.set_append_right _ _ (Nat.le_refl _), Nat.sub_self]
    rfl

/-- It waits for any answer. -/
theorem last_waiting (h : t.page.flushes = F ++ [⟨batch, request, rest, false⟩]) (outcome : Outcome) :
    t.page.waiting F.length outcome = some ⟨batch, request, rest, false⟩ := by
  unfold Page.waiting
  rw [(last_flush h).1]
  rfl

theorem answered_failed (room : Room) (h : t.page.flushes = F ++ [⟨batch, request, rest, false⟩]) :
    t.answered σ F.length .failed room = (t.setFlushes F).requeue σ batch room := by
  obtain ⟨-, herase, -⟩ := last_flush h
  simp only [answered, last_waiting h, settle, herase]

theorem answered_done (room : Room) (h : t.page.flushes = F ++ [⟨batch, request, [], false⟩]) :
    t.answered σ F.length .ok room = ((t.accept request).setFlushes F).rescheduled := by
  obtain ⟨-, herase, -⟩ := last_flush h
  simp only [answered, last_waiting h, settle]
  rw [show (t.accept request).page.flushes = t.page.flushes from rfl, herase]

theorem answered_next (room : Room) (h : t.page.flushes = F ++ [⟨batch, request, group :: rest, false⟩]) :
    t.answered σ F.length .ok room = ((t.accept request).hand (t.payloadOf σ group)).setFlushes
      (F ++ [⟨batch, t.payloadOf σ group, rest, false⟩]) := by
  obtain ⟨-, -, hset⟩ := last_flush h
  simp only [answered, last_waiting h, settle]
  rw [show (t.accept request).page.flushes = t.page.flushes from rfl, hset]
  rfl

end

/-- A flush that is over hears nothing more. -/
theorem heardOut_over {F : List Flush} {room : Room} (n : Nat) {t : Tab} (h : t.page.flushes = F) :
    t.heardOut σ refused F.length room n = t :=
  heardOut_of_none n (by rw [h]; exact List.getElem?_eq_none (Nat.le_refl _))

/-- The batch goes back. -/
theorem heard_requeue (batch : List QueuedEvent) (room : Room) (F : List Flush) (t : Tab) :
    t.Heard ((t.setFlushes F).requeue σ batch room) (batch ++ t.page.queue) []
      ∧ ((t.setFlushes F).requeue σ batch room).page.flushes = F := by
  have hsaved := saved_requeue (σ := σ) batch room (t.setFlushes F)
  have hpage := hsaved.page
  refine ⟨⟨?_, ?_, ?_, ?_, ?_, ?_⟩, ?_⟩
  all_goals first
    | rw [hpage]; rfl
    | rw [hsaved.net]; exact (List.append_nil _).symm

theorem heard_done (request : Payload) (F : List Flush) (t : Tab) :
    t.Heard ((t.accept request).setFlushes F).rescheduled t.page.queue [request]
      ∧ ((t.accept request).setFlushes F).rescheduled.page.flushes = F := by
  obtain ⟨hqueue, hoptions, hconsent, hvisitor, hsession, hflushes, hnet⟩ :=
    page_rescheduled ((t.accept request).setFlushes F)
  refine ⟨⟨hoptions, hconsent, hvisitor, hsession, hqueue, ?_⟩, hflushes⟩
  rw [hnet]
  rfl

/-- The answer to a group's request. -/
theorem heardOut_succ {F : List Flush} {batch group : List QueuedEvent} {rest : List (List QueuedEvent)}
    {request : Payload} {room : Room} (n : Nat) {t : Tab} (hflushes : t.page.flushes = F ++ [⟨batch, request, rest, false⟩])
    (hevents : request.events = group.map QueuedEvent.wire) :
    t.heardOut σ refused F.length room (n + 1)
      = (t.answered σ F.length (if group.any (refuses refused) then .failed else .ok) room).heardOut σ refused
          F.length room n := by
  have hanswer : request.events.any refused = group.any (refuses refused) := by
    rw [hevents, List.any_map]
    rfl
  rw [heardOut, (last_flush hflushes).1]
  simp only [collected, hanswer]

variable (refused) in
/-- **A flush heard out**, from the request of a group on: the clean groups are
accepted, and the first other puts the batch back. -/
theorem heardOut_spec (room : Room) (F : List Flush) (batch : List QueuedEvent) (rest : List (List QueuedEvent)) :
    ∀ (n : Nat) (t : Tab) (request : Payload) (group : List QueuedEvent),
      t.page.flushes = F ++ [⟨batch, request, rest, false⟩] → request.events = group.map QueuedEvent.wire → rest.length < n →
      ∃ sent, t.Heard (t.heardOut σ refused F.length room n)
          (if (group :: rest).any (·.any (refuses refused)) then batch ++ t.page.queue else t.page.queue) sent
        ∧ sent.flatMap Payload.events
          = (((group :: rest).takeWhile fun g => !g.any (refuses refused)).flatten).map QueuedEvent.wire := by
  -- on the groups left: a refusal ends it, else the next group's request is out
  induction rest with
  | nil =>
    intro n t request group hflushes hevents hn
    obtain ⟨n, rfl⟩ := Nat.exists_eq_succ_of_ne_zero (Nat.pos_iff_ne_zero.mp hn)
    rw [heardOut_succ n hflushes hevents, List.any_cons]
    cases hrefused : group.any (refuses refused) with
    | true =>
      obtain ⟨hheard, hover⟩ := heard_requeue (σ := σ) batch room F t
      rw [if_pos rfl, answered_failed room hflushes, heardOut_over n hover]
      refine ⟨[], hheard, ?_⟩
      rw [List.takeWhile_cons_of_neg (by rw [hrefused]; decide)]
      rfl
    | false =>
      obtain ⟨hheard, hover⟩ := heard_done request F t
      rw [if_neg Bool.false_ne_true, answered_done room hflushes, heardOut_over n hover]
      refine ⟨[request], hheard, ?_⟩
      rw [List.takeWhile_cons_of_pos (by rw [hrefused]; decide)]
      simp [hevents]
  | cons next rest ih =>
    intro n t request group hflushes hevents hn
    obtain ⟨n, rfl⟩ := Nat.exists_eq_succ_of_ne_zero (Nat.ne_zero_of_lt hn)
    rw [heardOut_succ n hflushes hevents, List.any_cons]
    cases hrefused : group.any (refuses refused) with
    | true =>
      obtain ⟨hheard, hover⟩ := heard_requeue (σ := σ) batch room F t
      rw [if_pos rfl, answered_failed room hflushes, heardOut_over n hover]
      refine ⟨[], hheard, ?_⟩
      rw [List.takeWhile_cons_of_neg (by rw [hrefused]; decide)]
      rfl
    | false =>
      rw [if_neg Bool.false_ne_true, answered_next room hflushes]
      obtain ⟨sent, hheard, hsent⟩ := ih n
        (((t.accept request).hand (t.payloadOf σ next)).setFlushes (F ++ [⟨batch, t.payloadOf σ next, rest, false⟩]))
        (t.payloadOf σ next) next rfl rfl (Nat.lt_of_succ_lt_succ hn)
      refine ⟨request :: sent, ⟨hheard.options, hheard.consentState, hheard.visitorId, hheard.sessionId,
        hheard.queue, ?_⟩, ?_⟩
      · rw [hheard.accepted]
        exact List.append_assoc _ _ _
      · rw [List.takeWhile_cons_of_pos (by rw [hrefused]; decide), List.flatMap_cons, hsent, hevents,
          List.flatten_cons, List.map_append]

/-! ## §3. A flush is a round. -/

theorem length_le_flatten {α : Type} {groups : List (List α)} (h : ∀ g ∈ groups, g ≠ []) :
    groups.length ≤ groups.flatten.length := by
  induction groups with
  | nil => exact Nat.le_refl _
  | cons g groups ih =>
    have hg : 0 < g.length := List.length_pos_iff.mpr (h g List.mem_cons_self)
    have hrest := ih fun g' hg' => h g' (List.mem_cons_of_mem g hg')
    rw [List.length_cons, List.flatten_cons, List.length_append]
    omega

variable (refused) in
/-- **A flush of a page that may track is a round.** -/
theorem flushed_spec (room : Room) {t : Tab} (htrack : t.page.canTrack σ = true) :
    ∃ sent, t.Heard (t.flushed σ refused room)
        (Batches.round t.page.batchSize (refuses refused) t.page.queue) sent
      ∧ sent.flatMap Payload.events
        = (Batches.through t.groupBySession (refuses refused) (t.page.queue.take t.page.batchSize)).map
            QueuedEvent.wire := by
  have hcase := flush_case (σ := σ) false t
  unfold flushed
  generalize t.flush σ false = t' at hcase
  cases hcase with
  | idle hidle =>
    have hqueue : t.page.queue = [] := hidle.resolve_right fun h => h htrack
    rw [heardOut_over _ rfl, hqueue, List.take_nil]
    refine ⟨[], ⟨rfl, rfl, rfl, rfl, ?_, (List.append_nil _).symm⟩, rfl⟩
    rw [hqueue, Batches.round_nil]
  | sent group rest _ hgroups =>
    rw [Bool.false_and]
    have hperm := Table.groupsInOrder_perm t.groupKey t.batch
    have hnonempty := fun g hg => (Table.groupsInOrder_spec t.groupKey t.batch g hg).1
    rw [show Table.groupsInOrder t.groupKey t.batch = group :: rest from hgroups] at hperm hnonempty
    -- there are answers enough: a group has an event
    have hlength : rest.length < t.page.queue.length := by
      have hgroupsLength := length_le_flatten hnonempty
      have hbatch : t.batch.length ≤ t.page.queue.length := List.length_take_le' _ _
      rw [hperm.length_eq, List.length_cons] at hgroupsLength
      omega
    obtain ⟨sent, hheard, hsent⟩ := heardOut_spec refused room t.page.flushes t.batch rest t.page.queue.length
      ((t.unbatched.hand (t.payloadOf σ group)).setFlushes
        (t.page.flushes ++ [⟨t.batch, t.payloadOf σ group, rest, false⟩])) (t.payloadOf σ group) group rfl rfl hlength
    refine ⟨sent, ⟨hheard.options, hheard.consentState, hheard.visitorId, hheard.sessionId, ?_, hheard.accepted⟩, ?_⟩
    · rw [hheard.queue]
      have hany : (group :: rest).any (·.any (refuses refused)) = t.batch.any (refuses refused) := by
        rw [← List.any_flatten]
        exact hperm.any_eq
      unfold Batches.round
      rw [hany, show t.page.queue.take t.page.batchSize = t.batch from rfl]
      split
      · exact List.take_append_drop _ _
      · rfl
    · rw [hsent]
      unfold Batches.through Batches.cleanGroups
      rw [show t.groupBySession (t.page.queue.take t.page.batchSize) = group :: rest from hgroups]

/-- A page that may not track sends nothing. -/
theorem flushed_untracked (room : Room) {t : Tab} (htrack : t.page.canTrack σ = false) :
    t.flushed σ refused room = t := by
  unfold flushed flush
  rw [if_pos (.inr (by rw [htrack]; exact Bool.false_ne_true))]
  exact heardOut_over _ rfl

/-! ## §4. Flush after flush. -/

variable (refused) in
/-- **What `n` flushes have accepted** is what as many rounds send. -/
theorem flushes_spec (n : Nat) :
    ∀ (room : Nat → Room) (t : Tab), t.page.canTrack σ = true →
      ∃ sent queue, t.Heard (t.flushes σ refused room n) queue sent
        ∧ sent.flatMap Payload.events
          = (Batches.sent t.page.batchSize t.groupBySession (refuses refused) n t.page.queue).map QueuedEvent.wire := by
  induction n with
  | zero =>
    intro room t _
    exact ⟨[], t.page.queue, ⟨rfl, rfl, rfl, rfl, rfl, (List.append_nil _).symm⟩, rfl⟩
  | succ n ih =>
    intro room t htrack
    obtain ⟨sent, hheard, hsent⟩ := flushed_spec refused (room 0) htrack
    obtain ⟨later, queue, hrest, hlater⟩ := ih (fun i => room (i + 1)) _ (hheard.canTrack.trans htrack)
    refine ⟨sent ++ later, queue, hheard.trans hrest, ?_⟩
    -- the next round's batches and groups are those of the same page
    rw [hheard.batchSize, hheard.groupBySession, hheard.queue] at hlater
    rw [List.flatMap_append, hsent, hlater, ← List.map_append]
    rfl

theorem flushes_untracked (n : Nat) :
    ∀ (room : Nat → Room) (t : Tab), t.page.canTrack σ = false → t.flushes σ refused room n = t := by
  induction n with
  | zero => exact fun _ _ _ => rfl
  | succ n ih =>
    intro room t htrack
    unfold flushes
    rw [flushed_untracked _ htrack]
    exact ih _ t htrack

/-- What `n` flushes have accepted, event by event. -/
theorem accepted_iff (room : Nat → Room) (n : Nat) {t : Tab} (htrack : t.page.canTrack σ = true) (w : WireEvent) :
    (∃ p ∈ t.acceptedSince (t.flushes σ refused room n), w ∈ p.events)
      ↔ w ∈ (Batches.sent t.page.batchSize t.groupBySession (refuses refused) n t.page.queue).map QueuedEvent.wire := by
  obtain ⟨sent, queue, hheard, hsent⟩ := flushes_spec refused n room t htrack
  rw [← hsent, List.mem_flatMap]
  unfold acceptedSince
  rw [hheard.accepted, List.drop_left]

theorem flatten_groups_perm (t : Tab) (l : List QueuedEvent) : (t.groupBySession l).flatten.Perm l :=
  Table.groupsInOrder_perm t.groupKey l

/-- However many flushes there are, what stands behind stays there. -/
theorem othersAhead_of_accepted (room : Nat → Room) (n : Nat) {t : Tab}
    (h : t.OthersAccepted refused (t.flushes σ refused room n)) : t.OthersAhead σ refused := by
  intro e he hother
  have haccepted := h e he hother
  cases htrack : t.page.canTrack σ with
  | false =>
    rw [flushes_untracked n room t htrack] at haccepted
    unfold acceptedSince at haccepted
    rw [List.drop_length] at haccepted
    obtain ⟨p, hp, -⟩ := haccepted
    cases hp
  | true =>
    refine ⟨rfl, ?_⟩
    rw [accepted_iff room n htrack] at haccepted
    obtain ⟨e', he', hwire⟩ := List.mem_map.mp haccepted
    exact List.mem_map.mpr
      ⟨e', Batches.sent_subset_ahead (batchSize_pos t.page) t.flatten_groups_perm n _ he', hwire⟩

/-- As many flushes as events are enough for what stands ahead. -/
theorem accepted_of_othersAhead (room : Nat → Room) {t : Tab} (h : t.OthersAhead σ refused) :
    t.OthersAccepted refused (t.flushes σ refused room t.page.queue.length) := by
  intro e he hother
  obtain ⟨htrack, hahead⟩ := h e he hother
  rw [accepted_iff room _ htrack]
  obtain ⟨e', he', hwire⟩ := List.mem_map.mp hahead
  exact List.mem_map.mpr
    ⟨e', Batches.ahead_subset_sent (batchSize_pos t.page) t.flatten_groups_perm _ _ (Nat.le_refl _) he', hwire⟩

end Tab

/-- **ONE REFUSED EVENT BLOCKS WHAT STANDS BEHIND IT.**  Every other event is accepted
after a number of flushes bounded by the queue's length, and after any number at
all, exactly where each stands ahead of the refused ones. -/
theorem refusedEvent_blocks (σ : Setting) (refused : WireEvent → Bool) (room : Nat → Room) (t : Tab) :
    ((∃ n ≤ t.page.queue.length, t.OthersAccepted refused (t.flushes σ refused room n)) ↔ t.OthersAhead σ refused)
      ∧ ((∃ n, t.OthersAccepted refused (t.flushes σ refused room n)) ↔ t.OthersAhead σ refused) := by
  constructor
  · constructor
    · rintro ⟨n, -, h⟩
      exact Tab.othersAhead_of_accepted room n h
    · exact fun h => ⟨_, Nat.le_refl _, Tab.accepted_of_othersAhead room h⟩
  · constructor
    · rintro ⟨n, h⟩
      exact Tab.othersAhead_of_accepted room n h
    · exact fun h => ⟨_, Tab.accepted_of_othersAhead room h⟩

namespace RefusedSample

def event (id : Id) (name : String) : QueuedEvent := ⟨id, .tracked name [], 0, [], some 0, some 0⟩

/-- Two events of one session, the first unknown under the contract. -/
def tab : Tab :=
  { storage := {}, page := { Tab.freshPage {} with queue := [event 0 "chekout", event 1 "page_view"] } }

/-- The collector knows no such name. -/
def refused (w : WireEvent) : Bool :=
  match w.content with
  | .tracked name _ => name == "chekout"
  | _ => false

end RefusedSample

/-- A page view behind a refused event is never accepted. -/
theorem pageView_blocked :
    ¬∃ n, RefusedSample.tab.OthersAccepted RefusedSample.refused
      (RefusedSample.tab.flushes plainSetting RefusedSample.refused (fun _ => {}) n) := by
  rintro ⟨n, h⟩
  have hnone : (Batches.ahead RefusedSample.tab.page.batchSize RefusedSample.tab.groupBySession
      (fun e => RefusedSample.refused e.wire) RefusedSample.tab.page.queue).isEmpty = true := by
    decide +kernel
  obtain ⟨-, hahead⟩ := Tab.othersAhead_of_accepted _ n h (RefusedSample.event 1 "page_view")
    (List.mem_cons_of_mem _ List.mem_cons_self) (by decide)
  rw [List.isEmpty_iff.mp hnone] at hahead
  cases hahead

end Momento.Sdk
