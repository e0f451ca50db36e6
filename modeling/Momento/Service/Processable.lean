/-
  Momento.Service.Processable

  **WHEN WHAT `Accept` ADMITS CAN BE PROCESSED.**  Admission settles the site, its
  environment and the privacy policy; on a server without faults the job then
  fails in exactly these cases (`admitted_processable_iff`):

      timezone     — the site's zone is unknown
      version      — a contract version above the `integer` column's range,
                     of a duplicate too
      index        — a release version too large for its index tuple
      limit        — a new dimension value right after the environment's limit:
                     the statement that reports it cannot be prepared
      engagement   — the session's total leaves the `bigint` range
      revenue      — an infinite amount, or one the column's precision excludes

  `Accept` checks none of them, and one admitted event is enough
  (`admitted_hugeVersion_fails`).
-/
import Momento.Service.Redelivery

namespace Momento

open Foundation

/-! ## §1. What admission guarantees. -/

/-- The site of an admission, and its environment, are there. -/
theorem admitToSite_ok {env : Platform} {config : Config} {req : CollectRequest} {origin : String}
    {siteId : Uuid} {site : Site} {mode : ContractMode}
    (h : admitToSite env config req origin = .ok (siteId, site, mode)) :
    config.sites.lookup siteId = some site
      ∧ ∃ e, config.siteEnvironments.lookup ⟨siteId, req.environment⟩ = some e
        ∧ e.active = true ∧ e.contractMode = mode := by
  unfold admitToSite at h
  cases hshape : checkShape env req with
  | error turned => simp [hshape, bind, Except.bind] at h
  | ok _ =>
    simp only [hshape, bind, Except.bind] at h
    cases hsite : siteForCollect config req.siteId with
    | none =>
      rw [hsite] at h
      cases h
    | some found =>
      obtain ⟨id, row⟩ := found
      simp only [hsite] at h
      cases hkey : checkKey env row req.trackingKey origin with
      | error turned => simp [hkey] at h
      | ok _ =>
        simp only [hkey] at h
        split at h
        · cases h
        cases hmode : contractModeOf config id req.environment with
        | none =>
          rw [hmode] at h
          cases h
        | some m =>
          simp only [hmode, pure, Except.pure, Except.ok.injEq, Prod.mk.injEq] at h
          obtain ⟨rfl, rfl, rfl⟩ := h
          refine ⟨?_, ?_⟩
          · obtain ⟨entry, hentry, heq⟩ := Option.map_eq_some_iff.mp hsite
            obtain ⟨rfl, rfl⟩ := Prod.mk.inj heq
            exact AList.mem_lookup_iff.mpr (List.mem_of_find?_eq_some hentry)
          · obtain ⟨e, he, hactive⟩ := Option.bind_eq_some_iff.mp hmode
            by_cases ha : e.active = true
            · rw [if_pos ha] at hactive
              exact ⟨e, he, ha, Option.some.inj hactive⟩
            · rw [if_neg ha] at hactive
              cases hactive

/-! ## §2. What an event needs. -/

/-- The day's revenue takes the event's amount: an amount the column excludes, or
a sum it excludes, ends the job.  A NaN is taken, and makes the sum one. -/
def Store.RevenueFits (day : DayKey) (event : IncomingEvent) (s : Store) : Prop :=
  match eventRevenue event with
  | .nan => True
  | .inf _ => False
  | .fin x =>
    |roundToScale 6 (Binary64.shortest x.value)| < 10 ^ 18
      ∧ ∀ m q, s.dailySiteMetrics.lookup day = some m → m.revenue = .fin q →
        |roundToScale 6 (q + roundToScale 6 (Binary64.shortest x.value))| < 10 ^ 18

theorem nextRevenue_ok_iff (day : DayKey) (event : IncomingEvent) (s : Store) :
    (∃ revenue, s.nextRevenue day event = .ok revenue) ↔ s.RevenueFits day event := by
  unfold Store.nextRevenue Store.RevenueFits excludedRevenue
  cases hamount : eventRevenue event with
  | nan =>
    simp only [numericOf, storeNumeric24_6, bind, Except.bind, Store.revenueAfter, iff_true]
    cases s.dailySiteMetrics.lookup day with
    | none => exact ⟨_, rfl⟩
    | some m =>
      have hsum : m.revenue + Numeric.nan = .nan := by cases m.revenue <;> rfl
      simp only [hsum]
      exact ⟨_, rfl⟩
  | inf negative => simp [numericOf, bind, Except.bind]
  | fin x =>
    simp only [numericOf, storeNumeric24_6]
    by_cases hone : |roundToScale 6 (Binary64.shortest x.value)| < 10 ^ 18
    · rw [if_pos hone]
      simp only [bind, Except.bind, Store.revenueAfter, hone, true_and]
      cases hlookup : s.dailySiteMetrics.lookup day with
      | none => simp
      | some m =>
        cases hold : m.revenue with
        | nan =>
          have hsum : Numeric.nan + Numeric.fin (roundToScale 6 (Binary64.shortest x.value))
              = .nan := rfl
          simp only [hold, hsum, storeNumeric24_6, Option.some.injEq]
          refine iff_of_true ⟨_, rfl⟩ ?_
          rintro m' q rfl hq
          rw [hold] at hq
          cases hq
        | fin q =>
          simp only [hold, Numeric.fin_add, storeNumeric24_6, Option.some.injEq]
          constructor
          · rintro ⟨revenue, h⟩ m' q' rfl hq
            rw [hold] at hq
            obtain rfl := Numeric.fin.inj hq
            by_contra hbig
            rw [if_neg hbig] at h
            cases h
          · intro h
            exact ⟨_, if_pos (h m q rfl hold)⟩
    · rw [if_neg hone]
      simp [bind, Except.bind, hone]

/-- **What can go wrong with one event**, and must not. -/
structure Arrival.Passes (a : Arrival) (s : Store) : Prop where
  version : a.row.contractVersion ≤ 2147483647
  release : ¬a.Known s → releaseFits a.context.env a.row = true
  limit : ¬a.Known s → s.DimensionsFit a.context a.eventTime (dimensionsOf a.context a.event)
  engagement : ¬a.Known s → s.engagementFits a.sessionKey
    (sessionTouch a.context a.event a.eventTime "" a.conversion) = true
  revenue : ¬a.Known s → s.RevenueFits a.day a.event

theorem Arrival.fits_iff_passes (a : Arrival) (s : Store) : a.Fits s ↔ a.Passes s := by
  unfold Arrival.Fits Arrival.DerivedFits
  rw [nextRevenue_ok_iff]
  constructor
  · rintro ⟨hversion, hknown | ⟨hrelease, hlimit, hengagement, hrevenue⟩⟩
    · exact ⟨hversion, fun hnew => absurd hknown hnew, fun hnew => absurd hknown hnew,
        fun hnew => absurd hknown hnew, fun hnew => absurd hknown hnew⟩
    · exact ⟨hversion, fun _ => hrelease, fun _ => hlimit, fun _ => hengagement, fun _ => hrevenue⟩
  · intro h
    refine ⟨h.version, ?_⟩
    by_cases hknown : a.Known s
    · exact .inl hknown
    · exact .inr ⟨h.release hknown, h.limit hknown, h.engagement hknown, h.revenue hknown⟩

/-- Every event passes in the store the ones before it leave; an event without a
valid id gets one from the random source. -/
def EventsPass (c : JobContext) : Bool → List (IncomingEvent × EventReadings) → Store → Prop
  | _, [], _ => True
  | unreported, (event, readings) :: rest, s =>
    ∃ eventId, eventIdOf c event readings = .ok eventId
      ∧ (arrivalOf c unreported event readings eventId s).Passes s
      ∧ EventsPass c ((arrivalOf c unreported event readings eventId s).stillUnreported s) rest
          ((arrivalOf c unreported event readings eventId s).apply s)

theorem eventsFit_iff_pass (c : JobContext) (events : List (IncomingEvent × EventReadings))
    (unreported : Bool) (s : Store) :
    EventsFit c unreported events s ↔ EventsPass c unreported events s := by
  induction events generalizing unreported s with
  | nil => exact Iff.rfl
  | cons e rest ih =>
    obtain ⟨event, readings⟩ := e
    unfold EventsFit EventsPass
    exact exists_congr fun eventId =>
      and_congr Iff.rfl (and_congr (Arrival.fits_iff_passes _ s) (ih _ _))

/-! ## §3. The exact condition. -/

/-- The limit of the payload's environment. -/
def Admission.limit (a : Admission) (config : Config) : Nat :=
  (config.siteEnvironments.lookup ⟨a.siteId, a.payload.request.environment⟩).elim 0
    SiteEnvironment.cardinalityLimit

/-- **What processing an admitted payload needs**: the zone is known, and every
event passes. -/
def Admission.Processable (env : Platform) (policy : Policy) (a : Admission)
    (readings : Nat → EventReadings) (s : Store) : Prop :=
  env.loadLocation a.site.timezone = true
    ∧ EventsPass
        (jobContext env policy a.siteId a.payload.reload a.site.timezone (a.limit s.config) s) true
        (timed a.payload.reload.request.events readings) s

/-- The settings a job of an admitted payload reads. -/
theorem siteSettings_of_accept {env : Platform} {call : AcceptCall} {now : Instant} {a : Admission}
    {s : Store} (h : accept env s.config call now = .ok a) :
    siteSettings a.siteId a.payload.request.environment s
      = .ok (a.site.timezone, a.limit s.config) := by
  obtain ⟨mode, events, privacy, hsite, -, -, hpayload⟩ := accept_ok h
  obtain ⟨hlookup, e, henvironment, -, -⟩ := admitToSite_ok hsite
  unfold siteSettings Admission.limit
  rw [inspected_environment hpayload, hlookup]
  simp only [henvironment, Option.elim_some]

/-- **ACCEPTED IS NOT YET PROCESSABLE.**  A payload that `Accept` admitted is
processed, with the configuration unchanged and without faults, if and only if the
site's zone is known and every event passes. -/
theorem admitted_processable_iff {env : Platform} {call : AcceptCall} {now : Instant}
    {a : Admission} {s : Store} (haccept : accept env s.config call now = .ok a) (policy : Policy)
    (readings : Nat → EventReadings) :
    (∃ s', (processOne env policy a.siteId (.ok a.payload.reload) readings).Commits s () s')
      ↔ a.Processable env policy readings s := by
  have hset := siteSettings_of_accept haccept
  have hname : a.payload.reload.withEnvironment = a.payload.reload := by
    unfold InboxPayload.withEnvironment
    rw [if_neg]
    exact accept_environment haccept
  have hreload : a.payload.reload.request.environment = a.payload.request.environment := rfl
  unfold Admission.Processable
  rw [← eventsFit_iff_pass]
  constructor
  · rintro ⟨s', h⟩
    obtain ⟨p, hp, ⟨timezone, limit, hset', hzone, hevents⟩, -⟩ := commits_processOne.mp h
    obtain rfl := Except.ok.inj hp
    rw [hname] at hset' hevents
    rw [hreload, hset] at hset'
    obtain ⟨rfl, rfl⟩ := Prod.mk.inj (Except.ok.inj hset')
    exact ⟨hzone, hevents⟩
  · rintro ⟨hzone, hevents⟩
    refine ⟨_, commits_processOne.mpr
      ⟨_, rfl, ⟨a.site.timezone, a.limit s.config, ?_, hzone, ?_⟩, rfl⟩⟩
    · rw [hname, hreload]
      exact hset
    · rw [hname]
      exact hevents

theorem admitted_processable_iff_pageView :
    ∃ a, accept Sample.platform (Sample.config 100) (Sample.call [Sample.pageView '1'])
          (Sample.newYear * 1000) = .ok a
      ∧ ((∃ s', (processOne Sample.platform Policy.default a.siteId (.ok a.payload.reload)
            Sample.readings).Commits (Store.initial (Sample.config 100)) () s')
          ↔ a.Processable Sample.platform Policy.default Sample.readings
              (Store.initial (Sample.config 100))) := by
  have hok : (accept Sample.platform (Sample.config 100) (Sample.call [Sample.pageView '1'])
      (Sample.newYear * 1000)).isOk = true := by decide +kernel
  cases haccept : accept Sample.platform (Sample.config 100) (Sample.call [Sample.pageView '1'])
      (Sample.newYear * 1000) with
  | error turned =>
    rw [haccept] at hok
    cases hok
  | ok a =>
    exact ⟨a, rfl, admitted_processable_iff (s := Store.initial (Sample.config 100)) haccept
      Policy.default Sample.readings⟩

/-! ## §4. Admitted, and not processed. -/

namespace Sample

/-- What comes of a request on an empty store: whether it is admitted, and
whether its payload is then processed without fault. -/
def fate (limit : Nat) (events : List IncomingEvent) : Option Bool :=
  match accept platform (config limit) (call events) (newYear * 1000) with
  | .error _ => none
  | .ok a =>
    match (processOne platform Policy.default a.siteId (.ok a.payload.reload) readings).run
        ⟨some (Store.initial (config limit)), []⟩ with
    | (.ok _, ⟨some _, _⟩) => some true
    | _ => some false

/-- A purchase worth `amount`, as a text. -/
def purchase (c : Char) (amount : String) : IncomingEvent :=
  { id := eventId c, name := "purchase", timestamp := newYear, properties := some [("value", .str amount)] }

end Sample

theorem Sample.not_commits_of_fate {limit : Nat} {events : List IncomingEvent}
    (h : fate limit events = some false) :
    ∃ a, accept platform (config limit) (call events) (newYear * 1000) = .ok a
      ∧ ¬∃ s', (processOne platform Policy.default a.siteId (.ok a.payload.reload) readings).Commits
          (Store.initial (config limit)) () s' := by
  unfold fate at h
  cases haccept : accept platform (config limit) (call events) (newYear * 1000) with
  | error turned =>
    rw [haccept] at h
    cases h
  | ok a =>
    refine ⟨a, rfl, ?_⟩
    rintro ⟨s', hcommits⟩
    rw [haccept] at h
    simp only [show (processOne platform Policy.default a.siteId (.ok a.payload.reload) readings).run
      ⟨some (Store.initial (config limit)), []⟩ = (.ok (), ⟨some s', []⟩) from hcommits] at h
    cases h

/-- **An admitted event that cannot be stored**: a contract version above the
column's range. -/
theorem admitted_hugeVersion_fails :
    ∃ a, accept Sample.platform (Sample.config 100) (Sample.call [Sample.hugeVersion '1'])
          (Sample.newYear * 1000) = .ok a
      ∧ ¬∃ s', (processOne Sample.platform Policy.default a.siteId (.ok a.payload.reload)
          Sample.readings).Commits (Store.initial (Sample.config 100)) () s' :=
  Sample.not_commits_of_fate (by decide +kernel)

-- a revenue of 10^18, and the second value of a dimension whose limit is one
example : Sample.fate 100 [Sample.purchase '1' "1000000000000000000"] = some false := by
  decide +kernel
example : Sample.fate 1 [Sample.pageView '1', Sample.purchase '2' "1"] = some false := by
  decide +kernel
example : Sample.fate 100 [Sample.pageView '1', Sample.purchase '2' "1"] = some true := by
  decide +kernel

end Momento
