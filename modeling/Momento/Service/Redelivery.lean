/-
  Momento.Service.Redelivery

  **DELIVERING AN EVENT AGAIN CHANGES NOTHING.**  The tracker sends a whole group
  again after any failure, so an event can come in many times, under another user
  or session, and in another payload.  Only the first occurrence that is STORED
  counts: of the payloads that are processed, drop every event whose id came
  before (`dropRepeats`), and all tables but the quality counters end the same.

  A payload that fails leaves nothing, so an event that first occurs in one is
  stored by a later payload: the failed payload has to go first
  (`firstInFailedPayload_stored`).
-/
import Momento.Service.InboxJobs

namespace Momento

open Foundation

/-! ## §1. Stores that differ in the quality counters. -/

/-- The stores differ at most in `data_quality_daily`. -/
def SameTables (s t : Store) : Prop := ∃ quality, t = { s with dataQualityDaily := quality }

theorem SameTables.refl (s : Store) : SameTables s s := ⟨s.dataQualityDaily, rfl⟩

theorem SameTables.trans {s t u : Store} (h : SameTables s t) (h' : SameTables t u) :
    SameTables s u := by
  obtain ⟨q, rfl⟩ := h
  obtain ⟨q', rfl⟩ := h'
  exact ⟨q', rfl⟩

theorem SameTables.symm {s t : Store} (h : SameTables s t) : SameTables t s := by
  obtain ⟨q, rfl⟩ := h
  exact ⟨s.dataQualityDaily, rfl⟩

/-- The statement neither reads the counters nor writes another table by them. -/
def QualityBlind (f : Store → Store) : Prop :=
  ∀ s quality, SameTables (f s) (f { s with dataQualityDaily := quality })

theorem QualityBlind.same {f : Store → Store} (hf : QualityBlind f) {s t : Store}
    (h : SameTables s t) : SameTables (f s) (f t) := by
  obtain ⟨q, rfl⟩ := h
  exact hf s q

theorem QualityBlind.comp {f g : Store → Store} (hg : QualityBlind g) (hf : QualityBlind f) :
    QualityBlind fun s => g (f s) := fun s quality => hg.same (hf s quality)

section Statements
variable (c : JobContext) (event : IncomingEvent) (eventTime : Instant)

theorem blind_queueLateEventJob (day : DayKey) : QualityBlind (Store.queueLateEventJob day) := by
  intro s quality
  unfold Store.queueLateEventJob
  by_cases htaken : (s.aggregateJobs.any fun j => decide (j.siteId = day.siteId
      ∧ j.environment = day.environment ∧ j.dateFrom = day.eventDate ∧ j.jobType = "late_event"
      ∧ (j.status = .pending ∨ j.status = .running))) = true
  · simp only [htaken, if_true]
    exact ⟨quality, rfl⟩
  · simp only [htaken, if_false, Bool.false_eq_true]
    exact ⟨quality, rfl⟩

theorem blind_acceptQuality (unreported : Bool) :
    QualityBlind (Store.acceptQuality c event eventTime unreported) := by
  intro s quality
  have hquality : SameTables (s.addQuality ⟨dayOf c eventTime, event.name⟩
        (acceptedQuality c event eventTime unreported))
      (Store.addQuality ⟨dayOf c eventTime, event.name⟩
        (acceptedQuality c event eventTime unreported) { s with dataQualityDaily := quality }) :=
    ⟨_, rfl⟩
  unfold Store.acceptQuality
  split
  · exact (blind_queueLateEventJob _).same hquality
  · exact hquality

theorem blind_addDimensions (ds : List (String × String)) :
    QualityBlind (Store.addDimensions c eventTime ds) := by
  have hone : ∀ d : String × String, QualityBlind fun s =>
      if d.2 = "" then s else s.addDimensionValue (dimensionValueOf c eventTime d) := by
    intro d s quality
    by_cases hempty : d.2 = ""
    · simp only [hempty, if_true]
      exact ⟨quality, rfl⟩
    · by_cases hold : dimensionValueOf c eventTime d ∈ s.dimensionValues
      · simp only [hempty, if_false, Store.addDimensionValue, hold, if_true]
        exact ⟨quality, rfl⟩
      · simp only [hempty, if_false, Store.addDimensionValue, hold]
        exact ⟨quality, rfl⟩
  induction ds with
  | nil => exact fun s quality => ⟨quality, rfl⟩
  | cons d ds ih =>
    intro s quality
    exact ih.same (hone d s quality)

theorem blind_identify (key : VisitorKey) (userId : String) :
    QualityBlind (Store.identify key userId eventTime) := by
  intro s quality
  unfold Store.identify
  split
  · exact ⟨quality, rfl⟩
  · exact ⟨quality, rfl⟩

theorem blind_touchLinked (key : VisitorKey) (canonical : String) (userProperties : Properties) :
    QualityBlind (Store.touchLinked key canonical userProperties eventTime) := by
  intro s quality
  unfold Store.touchLinked
  split
  · exact ⟨quality, rfl⟩
  · exact ⟨quality, rfl⟩

theorem blind_afterVisitor (conversion unreported : Bool) :
    QualityBlind (Store.afterVisitor c event eventTime conversion unreported) := by
  have hcount : QualityBlind (Store.countVisitor (visitorKeyOf c) c.userId c.userProperties
      eventTime conversion) := fun s quality => ⟨quality, rfl⟩
  exact hcount.comp ((blind_identify eventTime _ _).comp
    ((blind_addDimensions c eventTime _).comp (blind_acceptQuality c event eventTime unreported)))

end Statements

/-! ## §2. One event. -/

namespace Arrival

variable (a : Arrival) {s t : Store}

theorem canonical_same (h : SameTables s t) : a.canonical t = a.canonical s := by
  obtain ⟨q, hq⟩ := (blind_afterVisitor a.context a.event a.eventTime a.conversion
    a.unreported).same h
  unfold canonical Store.canonicalAfter Store.canonicalUser
  rw [hq]

theorem derive_same (h : SameTables s t) : SameTables (a.derive s) (a.derive t) := by
  have hbefore : SameTables (a.beforeSession s) (a.beforeSession t) := by
    unfold beforeSession
    rw [a.canonical_same h]
    exact (blind_touchLinked _ _ _ _).same ((blind_afterVisitor _ _ _ _ _).same h)
  have hrevenue : t.nextRevenue a.day a.event = s.nextRevenue a.day a.event := by
    obtain ⟨q, rfl⟩ := h
    rfl
  have htouch : a.touch t = a.touch s := by
    unfold touch
    rw [a.canonical_same h]
  obtain ⟨q, hq⟩ := hbefore
  rw [derive_eq, derive_eq, hrevenue, hq]
  unfold finish
  rw [htouch, a.canonical_same h]
  exact ⟨q, rfl⟩

theorem known_same (h : SameTables s t) : a.Known t ↔ a.Known s := by
  obtain ⟨q, rfl⟩ := h
  exact Iff.rfl

theorem fits_same (h : SameTables s t) : a.Fits t ↔ a.Fits s := by
  obtain ⟨q, rfl⟩ := h
  unfold Fits DerivedFits
  rw [DimensionsFit_congr (s := s) (t := { s with dataQualityDaily := q }) _ _ _ rfl]
  exact Iff.rfl

theorem stillUnreported_same (h : SameTables s t) : a.stillUnreported t = a.stillUnreported s := by
  obtain ⟨q, rfl⟩ := h
  rfl

theorem apply_same (h : SameTables s t) : SameTables (a.apply s) (a.apply t) := by
  by_cases hknown : a.Known s
  · rw [apply_known hknown, apply_known ((a.known_same h).mpr hknown)]
    obtain ⟨q, rfl⟩ := h
    exact ⟨_, rfl⟩
  · rw [apply_new hknown, apply_new (mt (a.known_same h).mp hknown)]
    obtain ⟨q, rfl⟩ := h
    exact a.derive_same ⟨q, rfl⟩

/-- **A duplicate is only counted.** -/
theorem apply_known_same (h : a.Known s) : SameTables s (a.apply s) := by
  rw [apply_known h]
  exact ⟨_, rfl⟩

end Arrival

/-- After an event its id is taken. -/
theorem Arrival.holds_apply (a : Arrival) (s : Store) :
    (a.apply s).rawEvents.Holds a.context.siteId a.eventId := by
  by_cases hknown : a.Known s
  · rw [Arrival.apply_known hknown]
    exact hknown
  · rw [Arrival.apply_new hknown]
    unfold Arrival.store
    rw [Arrival.derive_rawEvents]
    exact List.mem_cons_self

/-- A taken id stays taken. -/
theorem Arrival.holds_mono (a : Arrival) {s : Store} {siteId eventId : Uuid}
    (h : s.rawEvents.Holds siteId eventId) : (a.apply s).rawEvents.Holds siteId eventId := by
  by_cases hknown : a.Known s
  · rw [Arrival.apply_known hknown]
    exact h
  · rw [Arrival.apply_new hknown]
    unfold Arrival.store
    rw [Arrival.derive_rawEvents]
    exact List.mem_cons_of_mem _ h

/-! ## §3. Dropping repeats. -/

/-- The payload with other events. -/
def InboxPayload.withEvents (p : InboxPayload) (events : List IncomingEvent) : InboxPayload :=
  { p with request := { p.request with events := events } }

/-- The events whose id did not come before, and the ids that came. -/
def dropSeen (env : Platform) (siteId : Uuid) :
    List (Uuid × Uuid) → List (IncomingEvent × EventReadings) →
      List (IncomingEvent × EventReadings) × List (Uuid × Uuid)
  | seen, [] => ([], seen)
  | seen, (event, readings) :: rest =>
    match env.parseUuid event.id with
    | none =>
      let (kept, seen) := dropSeen env siteId seen rest
      ((event, readings) :: kept, seen)
    | some id =>
      if (siteId, id) ∈ seen then dropSeen env siteId seen rest
      else
        let (kept, seen) := dropSeen env siteId ((siteId, id) :: seen) rest
        ((event, readings) :: kept, seen)

/-- The job with these of its events, each with its own clock, and no faults. -/
def Job.keepEvents (j : Job) (p : InboxPayload) (kept : List (IncomingEvent × EventReadings)) :
    Job :=
  { j with
    payload := .ok (p.withEvents (kept.map Prod.fst))
    readings := fun i => (kept[i]?).elim (j.readings i) Prod.snd
    faults := [] }

/-- The sequence without every occurrence of an event id after the first one. -/
def dropRepeats (env : Platform) : List (Uuid × Uuid) → List Job → List Job
  | _, [] => []
  | seen, j :: js =>
    match j.payload with
    | .error _ => j :: dropRepeats env seen js
    | .ok p =>
      let (kept, seen) := dropSeen env j.siteId seen (timed p.request.events j.readings)
      j.keepEvents p kept :: dropRepeats env seen js

/-- The jobs that are processed, each in the store the ones before it leave. -/
def processedJobs (env : Platform) : Store → List Job → List Job
  | _, [] => []
  | s, j :: js =>
    match j.ending env s with
    | .ok (some s') => j :: processedJobs env s' js
    | _ => processedJobs env s js

/-! ## §4. The other events of a payload.

What a job does with an event does not depend on the events around it. -/

/-- The job with other events. -/
def JobContext.withEvents (c : JobContext) (events : List IncomingEvent) : JobContext :=
  { c with payload := c.payload.withEvents events }

section WithEvents
variable (c : JobContext) (l : List IncomingEvent)

theorem dimensionsFit_withEvents (eventTime : Instant) (ds : List (String × String)) (s : Store) :
    s.DimensionsFit (c.withEvents l) eventTime ds ↔ s.DimensionsFit c eventTime ds := by
  induction ds generalizing s with
  | nil => exact Iff.rfl
  | cons d ds ih =>
    unfold Store.DimensionsFit
    exact and_congr Iff.rfl (ih _)

theorem fits_withEvents (unreported : Bool) (event : IncomingEvent) (readings : EventReadings)
    (eventId : Uuid) (s t : Store) :
    (arrivalOf (c.withEvents l) unreported event readings eventId s).Fits t
      ↔ (arrivalOf c unreported event readings eventId s).Fits t := by
  unfold Arrival.Fits Arrival.DerivedFits
  exact and_congr Iff.rfl (or_congr Iff.rfl (and_congr Iff.rfl
    (and_congr (dimensionsFit_withEvents c l _ _ t) Iff.rfl)))

theorem eventsFit_withEvents (events : List (IncomingEvent × EventReadings)) (unreported : Bool)
    (s : Store) : EventsFit (c.withEvents l) unreported events s ↔ EventsFit c unreported events s := by
  induction events generalizing unreported s with
  | nil => exact Iff.rfl
  | cons e rest ih =>
    obtain ⟨event, readings⟩ := e
    unfold EventsFit
    exact exists_congr fun eventId =>
      and_congr Iff.rfl (and_congr (fits_withEvents c l _ _ _ _ _ _) (ih _ _))

theorem applyEvents_withEvents (events : List (IncomingEvent × EventReadings)) (unreported : Bool)
    (s : Store) :
    applyEvents (c.withEvents l) unreported events s = applyEvents c unreported events s := by
  induction events generalizing unreported s with
  | nil => rfl
  | cons e rest ih =>
    obtain ⟨event, readings⟩ := e
    unfold applyEvents
    have hid : eventIdOf (c.withEvents l) event readings = eventIdOf c event readings := rfl
    rw [hid]
    cases eventIdOf c event readings with
    | error e => rfl
    | ok eventId => exact ih _ _

end WithEvents

theorem withEnvironment_withEvents (p : InboxPayload) (l : List IncomingEvent) :
    (p.withEvents l).withEnvironment = p.withEnvironment.withEvents l := by
  unfold InboxPayload.withEnvironment
  have henvironment : (p.withEvents l).request.environment = p.request.environment := rfl
  rw [henvironment]
  split
  · rfl
  · rfl

theorem withEnvironment_events (p : InboxPayload) :
    p.withEnvironment.request.events = p.request.events := by
  unfold InboxPayload.withEnvironment
  split
  · rfl
  · rfl

/-- The kept events come with their own readings. -/
theorem timed_keepEvents (j : Job) (p : InboxPayload) (kept : List (IncomingEvent × EventReadings)) :
    timed (kept.map Prod.fst) (j.keepEvents p kept).readings = kept := by
  unfold timed Job.keepEvents
  refine List.ext_getElem (by simp) fun i h _ => ?_
  have hi : i < kept.length := by simpa using h
  simp [List.getElem?_eq_getElem hi]

/-! ## §5. One job. -/

theorem arrivalOf_same (c : JobContext) (unreported : Bool) (event : IncomingEvent)
    (readings : EventReadings) (eventId : Uuid) {s t : Store} (h : SameTables s t) :
    arrivalOf c unreported event readings eventId t
      = arrivalOf c unreported event readings eventId s := by
  obtain ⟨q, rfl⟩ := h
  rfl

/-- **The events of a job**: without the repeats they fit and lead to the same
tables. -/
theorem events_dropSeen (c : JobContext) (events : List (IncomingEvent × EventReadings))
    {seen : List (Uuid × Uuid)} {unreported : Bool} {s t : Store} (hsame : SameTables s t)
    (hseen : ∀ k ∈ seen, s.rawEvents.Holds k.1 k.2) (hfits : EventsFit c unreported events s) :
    EventsFit c unreported (dropSeen c.env c.siteId seen events).1 t
      ∧ SameTables (applyEvents c unreported events s)
          (applyEvents c unreported (dropSeen c.env c.siteId seen events).1 t)
      ∧ ∀ k ∈ (dropSeen c.env c.siteId seen events).2,
          (applyEvents c unreported events s).rawEvents.Holds k.1 k.2 := by
  induction events generalizing seen unreported s t with
  | nil => exact ⟨trivial, hsame, hseen⟩
  | cons e rest ih =>
    obtain ⟨event, readings⟩ := e
    obtain ⟨eventId, hid, hfit, hrest⟩ := hfits
    obtain ⟨a, ha⟩ : ∃ a, a = arrivalOf c unreported event readings eventId s := ⟨_, rfl⟩
    have ha' : arrivalOf c unreported event readings eventId t = a :=
      (arrivalOf_same c unreported event readings eventId hsame).trans ha.symm
    have hsite : a.context.siteId = c.siteId := by rw [ha]; rfl
    have hunreported : a.unreported = unreported := by rw [ha]; rfl
    have hkey : a.eventId = eventId := by rw [ha]; rfl
    rw [← ha] at hfit hrest
    have hstep : applyEvents c unreported ((event, readings) :: rest) s
        = applyEvents c (a.stillUnreported s) rest (a.apply s) := by
      rw [applyEvents, hid, ha]
    have hmono : ∀ k ∈ seen, (a.apply s).rawEvents.Holds k.1 k.2 :=
      fun k hk => a.holds_mono (hseen k hk)
    -- an event that is kept is met by both stores alike
    have hkeep : ∀ {kept : List (IncomingEvent × EventReadings)},
        EventsFit c (a.stillUnreported s) kept (a.apply t) →
        EventsFit c unreported ((event, readings) :: kept) t
          ∧ applyEvents c unreported ((event, readings) :: kept) t
            = applyEvents c (a.stillUnreported s) kept (a.apply t) := by
      intro kept hkept
      refine ⟨⟨eventId, hid, ?_⟩, ?_⟩
      · rw [ha', a.stillUnreported_same hsame]
        exact ⟨(a.fits_same hsame).mpr hfit, hkept⟩
      · rw [applyEvents, hid]
        simp only [ha']
        rw [a.stillUnreported_same hsame]
    rw [hstep]
    cases hparse : c.env.parseUuid event.id with
    | none =>
      simp only [dropSeen, hparse]
      obtain ⟨hkept, htables, hholds⟩ := ih (a.apply_same hsame) hmono hrest
      obtain ⟨hfits', happly⟩ := hkeep hkept
      exact ⟨hfits', happly ▸ htables, hholds⟩
    | some id =>
      have hideq : id = eventId := by
        unfold eventIdOf at hid
        rw [hparse] at hid
        exact Except.ok.inj hid
      by_cases hmem : (c.siteId, id) ∈ seen
      · simp only [dropSeen, hparse, hmem, if_true]
        have hknown : a.Known s := by
          unfold Arrival.Known
          rw [hsite, hkey, ← hideq]
          exact hseen _ hmem
        rw [Arrival.stillUnreported_known hknown, hunreported] at hrest ⊢
        exact ih ((a.apply_known_same hknown).symm.trans hsame) hmono hrest
      · simp only [dropSeen, hparse, hmem, if_false]
        have hmono' : ∀ k ∈ (c.siteId, id) :: seen, (a.apply s).rawEvents.Holds k.1 k.2 := by
          intro k hk
          rcases List.mem_cons.mp hk with rfl | hk
          · have hholds := a.holds_apply s
            rw [hsite, hkey, ← hideq] at hholds
            exact hholds
          · exact hmono k hk
        obtain ⟨hkept, htables, hholds⟩ := ih (a.apply_same hsame) hmono' hrest
        obtain ⟨hfits', happly⟩ := hkeep hkept
        exact ⟨hfits', happly ▸ htables, hholds⟩

/-- **A processed job**, without the repeats, is processed and leads to the same
tables. -/
theorem job_dropSeen {env : Platform} {j : Job} {p : InboxPayload} {seen : List (Uuid × Uuid)}
    {s t : Store} (hp : j.payload = .ok p) (hsame : SameTables s t)
    (hseen : ∀ k ∈ seen, s.rawEvents.Holds k.1 k.2) (hok : j.Succeeds env s) :
    SameTables (afterJob env s j) (afterJob env t
        (j.keepEvents p (dropSeen env j.siteId seen (timed p.request.events j.readings)).1))
      ∧ ∀ k ∈ (dropSeen env j.siteId seen (timed p.request.events j.readings)).2,
          (afterJob env s j).rawEvents.Holds k.1 k.2 := by
  obtain ⟨p', hp', ⟨timezone, limit, hset, hzone, hevents⟩, hafter⟩ := afterJob_of_succeeds hok
  rw [hp] at hp'
  obtain rfl := Except.ok.inj hp'
  have happly : applyJob env j.policy j.siteId p.withEnvironment j.readings s
      = applyEvents (jobContext env j.policy j.siteId p.withEnvironment timezone limit s) true
          (timed p.request.events j.readings) s := by
    unfold applyJob
    rw [hset, withEnvironment_events]
  rw [withEnvironment_events] at hevents
  obtain ⟨hkept, htables, hholds⟩ := events_dropSeen _ _ hsame hseen hevents
  rw [hafter, happly]
  refine ⟨?_, hholds⟩
  obtain ⟨kept, hkeptdef⟩ : ∃ kept, kept
    = (dropSeen env j.siteId seen (timed p.request.events j.readings)).1 := ⟨_, rfl⟩
  change EventsFit _ _ (dropSeen env j.siteId seen (timed p.request.events j.readings)).1 t at hkept
  change SameTables _ (applyEvents _ _
    (dropSeen env j.siteId seen (timed p.request.events j.readings)).1 t) at htables
  rw [← hkeptdef] at hkept htables ⊢
  -- the shorter payload, as the job body sees it
  have hcontext : jobContext env j.policy j.siteId (p.withEvents (kept.map Prod.fst)).withEnvironment
        timezone limit t
      = (jobContext env j.policy j.siteId p.withEnvironment timezone limit s).withEvents
          (kept.map Prod.fst) := by
    obtain ⟨q, rfl⟩ := hsame
    rw [withEnvironment_withEvents]
    rfl
  have hset' : siteSettings j.siteId
        (p.withEvents (kept.map Prod.fst)).withEnvironment.request.environment t
      = .ok (timezone, limit) := by
    obtain ⟨q, rfl⟩ := hsame
    rw [withEnvironment_withEvents]
    exact hset
  have htimed : timed (p.withEvents (kept.map Prod.fst)).withEnvironment.request.events
      (j.keepEvents p kept).readings = kept := by
    rw [withEnvironment_events]
    exact timed_keepEvents j p kept
  have hcommits : ((j.keepEvents p kept).body env).Commits t ()
      (applyJob env j.policy j.siteId (p.withEvents (kept.map Prod.fst)).withEnvironment
        (j.keepEvents p kept).readings t) := by
    refine commits_processOne.mpr ⟨_, rfl, ⟨timezone, limit, hset', hzone, ?_⟩, rfl⟩
    show EventsFit (jobContext env j.policy j.siteId
      (p.withEvents (kept.map Prod.fst)).withEnvironment timezone limit t) true _ t
    rw [hcontext, htimed]
    exact (eventsFit_withEvents _ _ _ _ _).mpr hkept
  have hshorter : afterJob env t (j.keepEvents p kept)
      = applyEvents (jobContext env j.policy j.siteId p.withEnvironment timezone limit s) true kept
          t := by
    unfold afterJob
    have hrun : ((j.keepEvents p kept).body env).run ⟨some t, (j.keepEvents p kept).faults⟩ = _ :=
      hcommits
    rw [hrun]
    unfold applyJob
    rw [hset']
    simp only [htimed]
    rw [hcontext, applyEvents_withEvents]
  rw [hshorter]
  exact htables

/-! ## §6. Runs. -/

theorem jobs_dropRepeats (env : Platform) (jobs : List Job) {seen : List (Uuid × Uuid)}
    {s t : Store} (hsame : SameTables s t) (hseen : ∀ k ∈ seen, s.rawEvents.Holds k.1 k.2) :
    SameTables (afterJobs env s jobs)
      (afterJobs env t (dropRepeats env seen (processedJobs env s jobs))) := by
  induction jobs generalizing seen s t with
  | nil => exact hsame
  | cons j js ih =>
    show SameTables (afterJobs env (afterJob env s j) js) _
    by_cases hok : j.Succeeds env s
    · obtain ⟨s', hending⟩ := Job.succeeds_iff.mp hok
      obtain ⟨p, hp, -, -⟩ := afterJob_of_succeeds hok
      have hafter := afterJob_of_ending hending
      obtain ⟨htables, hholds⟩ := job_dropSeen hp hsame hseen hok
      unfold processedJobs
      simp only [hending]
      unfold dropRepeats
      simp only [hp]
      rw [hafter] at htables hholds ⊢
      exact ih htables hholds
    · have hskip : processedJobs env s (j :: js) = processedJobs env s js := by
        rw [processedJobs]
        split
        next s' hending => exact absurd (Job.succeeds_iff.mpr ⟨s', hending⟩) hok
        next => rfl
      rw [afterJob_of_not_succeeds hok, hskip]
      exact ih hsame hseen

/-- **REDELIVERY IS IDEMPOTENT.**  For every sequence of jobs, with any clocks and
faults: of the jobs that were processed, drop every occurrence of an event id of a
site after the first one, and the same tables result, quality counters apart. -/
theorem redelivery_idempotent (env : Platform) (config : Config) (jobs : List Job) :
    SameTables (afterJobs env (Store.initial config) jobs)
      (afterJobs env (Store.initial config)
        (dropRepeats env [] (processedJobs env (Store.initial config) jobs))) :=
  jobs_dropRepeats env jobs (SameTables.refl _) fun _ h => absurd h List.not_mem_nil

namespace Sample

/-- A version no `integer` column takes. -/
def hugeVersion (c : Char) : IncomingEvent := { pageView c with contractVersion := 2147483648 }

/-- An event in a payload that fails, and once more in one that does not. -/
def failedFirst : List Job :=
  [job (payload "v1" "" [pageView '1', hugeVersion '2']), job (payload "v1" "" [pageView '1'])]

end Sample

/-- **An event that first occurs in a failed payload is stored by a later one**, so
dropping its second occurrence loses it. -/
theorem firstInFailedPayload_stored :
    ¬SameTables (afterJobs Sample.platform (Store.initial (Sample.config 100)) Sample.failedFirst)
      (afterJobs Sample.platform (Store.initial (Sample.config 100))
        (dropRepeats Sample.platform [] Sample.failedFirst)) := by
  rintro ⟨quality, h⟩
  have hrows := congrArg (fun s => s.rawEvents.rows.length) h
  have hone : (afterJobs Sample.platform (Store.initial (Sample.config 100))
      Sample.failedFirst).rawEvents.rows.length = 1 := by decide +kernel
  have hnone : (afterJobs Sample.platform (Store.initial (Sample.config 100))
      (dropRepeats Sample.platform [] Sample.failedFirst)).rawEvents.rows.length = 0 := by
    decide +kernel
  simp only [hone, hnone] at hrows
  cases hrows

end Momento
