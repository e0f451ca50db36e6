/-
  Momento.Service.Runs

  **RUNS OF JOBS.**  A run is any list of jobs, each with its own payload, clock,
  policy and server faults; a job that fails, for whatever reason, leaves the
  store as it was.  What holds of every store a run can reach is proved by one
  induction (`afterJobs_induction`): it is enough to look at one event that is
  stored and at one duplicate that is counted.

  A condition `Good` on stored events is carried along a run by `JobsMeet`.
-/
import Momento.Service.Stored

namespace Momento

open Foundation

/-! ## §1. Jobs. -/

structure Job where
  siteId : Uuid
  payload : Except String InboxPayload
  policy : Policy
  readings : Nat → EventReadings
  faults : List (Option DbError) := []

/-- `processOne` for the job. -/
def Job.body (env : Platform) (j : Job) : Body Unit :=
  processOne env j.policy j.siteId j.payload j.readings

/-- The store after a job that had the savepoint to itself. -/
def afterJob (env : Platform) (s : Store) (j : Job) : Store :=
  match (j.body env).run ⟨some s, j.faults⟩ with
  | (.ok _, ⟨some s', _⟩) => s'
  | _ => s

def afterJobs (env : Platform) (s : Store) (jobs : List Job) : Store :=
  jobs.foldl (afterJob env) s

/-- The job ends without error in a healthy transaction. -/
def Job.Succeeds (env : Platform) (j : Job) (s : Store) : Prop :=
  ∃ s' fs, (j.body env).run ⟨some s, j.faults⟩ = (.ok (), ⟨some s', fs⟩)

theorem afterJob_of_succeeds {env : Platform} {s : Store} {j : Job} (h : j.Succeeds env s) :
    ∃ p, j.payload = .ok p
      ∧ JobFits env j.policy j.siteId p.withEnvironment j.readings s
      ∧ afterJob env s j = applyJob env j.policy j.siteId p.withEnvironment j.readings s := by
  obtain ⟨s', fs, hrun⟩ := h
  have hcommits := commits_processOne.mp ((j.body env).faultless s j.faults () s' fs hrun)
  obtain ⟨p, hp, hfits, hs'⟩ := hcommits
  refine ⟨p, hp, hfits, ?_⟩
  unfold afterJob
  rw [hrun]
  exact hs'

/-- **A job succeeds or leaves nothing.** -/
theorem afterJob_of_not_succeeds {env : Platform} {s : Store} {j : Job} (h : ¬j.Succeeds env s) :
    afterJob env s j = s := by
  unfold afterJob
  split
  next u s' fs hrun => exact absurd ⟨s', fs, hrun⟩ h
  next => rfl

/-! ## §2. Conditions on the stored events of a run. -/

/-- Facts every stored event brings along. -/
structure Arrives (env : Platform) (a : Arrival) (s : Store) : Prop where
  env_eq : a.context.env = env
  settings : siteSettings a.context.siteId a.context.request.environment s
    = .ok (a.context.timezone, a.context.cardinalityLimit)
  conversion : a.conversion = conversionOf a.context a.event s
  new : ¬a.Known s
  fits : a.Fits s

/-- The stored events of a job meet `Good`, each in the store it met. -/
def EventsMeet (Good : Arrival → Store → Prop) (c : JobContext) :
    Bool → List (IncomingEvent × EventReadings) → Store → Prop
  | _, [], _ => True
  | unreported, (event, readings) :: rest, s =>
    ∀ eventId, eventIdOf c event readings = .ok eventId →
      (¬(arrivalOf c unreported event readings eventId s).Known s →
          Good (arrivalOf c unreported event readings eventId s) s)
      ∧ EventsMeet Good c ((arrivalOf c unreported event readings eventId s).stillUnreported s) rest
          ((arrivalOf c unreported event readings eventId s).apply s)

/-- The stored events of a job meet `Good`. -/
def Job.Meets (env : Platform) (Good : Arrival → Store → Prop) (j : Job) (s : Store) : Prop :=
  ∀ p timezone limit, j.payload = .ok p →
    siteSettings j.siteId p.withEnvironment.request.environment s = .ok (timezone, limit) →
    EventsMeet Good (jobContext env j.policy j.siteId p.withEnvironment timezone limit s) true
      (timed p.withEnvironment.request.events j.readings) s

/-- The stored events of the successful jobs of a run meet `Good`. -/
def JobsMeet (env : Platform) (Good : Arrival → Store → Prop) : Store → List Job → Prop
  | _, [] => True
  | s, j :: js => (j.Succeeds env s → j.Meets env Good s) ∧ JobsMeet env Good (afterJob env s j) js

/-- A condition each of the events meets, whatever state it comes into. -/
theorem eventsMeet_of_mem {Good : Arrival → Store → Prop} {c : JobContext}
    (events : List (IncomingEvent × EventReadings))
    (h : ∀ e ∈ events, ∀ unreported eventId s, Good (arrivalOf c unreported e.1 e.2 eventId s) s)
    {unreported : Bool} {s : Store} : EventsMeet Good c unreported events s := by
  induction events generalizing unreported s with
  | nil => trivial
  | cons e rest ih =>
    intro eventId _
    refine ⟨fun _ => h e List.mem_cons_self unreported eventId s, ih fun e' he' => h e' (List.mem_cons_of_mem e he')⟩

/-- A condition on events that any state meets. -/
theorem eventsMeet_of_forall {Good : Arrival → Store → Prop} {c : JobContext}
    (events : List (IncomingEvent × EventReadings)) (h : ∀ a s, Good a s) {unreported : Bool}
    {s : Store} : EventsMeet Good c unreported events s :=
  eventsMeet_of_mem events fun _ _ _ _ _ => h _ _

/-! ## §3. The induction. -/

/-- Nothing changes the configuration. -/
@[simp] theorem Arrival.apply_config (a : Arrival) (s : Store) : (a.apply s).config = s.config := by
  unfold Arrival.apply
  split
  · rfl
  · exact a.derive_config _

theorem siteSettings_congr {s t : Store} (h : t.config = s.config) (siteId : Uuid)
    (environment : String) : siteSettings siteId environment t = siteSettings siteId environment s := by
  unfold siteSettings
  rw [h]

section Induction
variable {env : Platform} {Good : Arrival → Store → Prop} {I : Store → Prop}
  (hnew : ∀ a s, ∀ h : ¬a.Known s, Arrives env a s → I s → Good a s → I (a.store s h))
  (hknown : ∀ s key, I s → I (s.addQuality key { duplicates := 1 }))

include hnew hknown

theorem applyEvents_induction {c : JobContext} (henv : c.env = env)
    (events : List (IncomingEvent × EventReadings)) {unreported : Bool} {s : Store}
    (hset : siteSettings c.siteId c.request.environment s = .ok (c.timezone, c.cardinalityLimit))
    (hfits : EventsFit c unreported events s) (hmeet : EventsMeet Good c unreported events s)
    (hinv : I s) : I (applyEvents c unreported events s) := by
  induction events generalizing unreported s with
  | nil => exact hinv
  | cons e rest ih =>
    obtain ⟨event, readings⟩ := e
    obtain ⟨eventId, hid, hfit, hrest⟩ := hfits
    obtain ⟨hgood, hmeet'⟩ := hmeet eventId hid
    obtain ⟨a, ha⟩ : ∃ a, a = arrivalOf c unreported event readings eventId s := ⟨_, rfl⟩
    have hstep : applyEvents c unreported ((event, readings) :: rest) s
        = applyEvents c (a.stillUnreported s) rest (a.apply s) := by
      rw [applyEvents, hid, ha]
    rw [hstep]
    rw [← ha] at hfit hrest hgood hmeet'
    have hset' : siteSettings c.siteId c.request.environment (a.apply s)
        = .ok (c.timezone, c.cardinalityLimit) := by
      rw [siteSettings_congr (a.apply_config s)]
      exact hset
    refine ih hset' hrest hmeet' ?_
    by_cases hk : a.Known s
    · rw [Arrival.apply_known hk]
      exact hknown s _ hinv
    · rw [Arrival.apply_new hk]
      have harrives : Arrives env a s :=
        { env_eq := by rw [ha]; exact henv
          settings := by rw [ha]; exact hset
          conversion := by rw [ha]; rfl
          new := hk
          fits := hfit }
      exact hnew a s hk harrives hinv (hgood hk)

theorem afterJob_induction {j : Job} {s : Store} (hmeet : j.Succeeds env s → j.Meets env Good s)
    (hinv : I s) : I (afterJob env s j) := by
  by_cases hok : j.Succeeds env s
  · obtain ⟨p, hp, ⟨timezone, limit, hset, -, hevents⟩, hafter⟩ := afterJob_of_succeeds hok
    rw [hafter]
    unfold applyJob
    rw [hset]
    exact applyEvents_induction hnew hknown rfl _ hset hevents
      (hmeet hok p timezone limit hp hset) hinv
  · rw [afterJob_of_not_succeeds hok]
    exact hinv

/-- **The induction over runs**: what one stored event and one counted duplicate
preserve holds of every store a run reaches. -/
theorem afterJobs_induction (jobs : List Job) {s : Store} (hmeet : JobsMeet env Good s jobs)
    (hinv : I s) : I (afterJobs env s jobs) := by
  induction jobs generalizing s with
  | nil => exact hinv
  | cons j js ih => exact ih hmeet.2 (afterJob_induction hnew hknown hmeet.1 hinv)

end Induction

/-! ## §4. Two conditions along one run. -/

section Congr
variable {env : Platform} {Good Good' : Arrival → Store → Prop} {I : Store → Prop}
  (hiff : ∀ a s, Arrives env a s → I s → (Good a s ↔ Good' a s))
  (hnew : ∀ a s, ∀ h : ¬a.Known s, Arrives env a s → I s → Good a s → I (a.store s h))
  (hknown : ∀ s key, I s → I (s.addQuality key { duplicates := 1 }))

include hiff hnew hknown

theorem eventsMeet_congr {c : JobContext} (henv : c.env = env)
    (events : List (IncomingEvent × EventReadings)) {unreported : Bool} {s : Store}
    (hset : siteSettings c.siteId c.request.environment s = .ok (c.timezone, c.cardinalityLimit))
    (hfits : EventsFit c unreported events s) (hinv : I s) :
    EventsMeet Good c unreported events s ↔ EventsMeet Good' c unreported events s := by
  induction events generalizing unreported s with
  | nil => exact Iff.rfl
  | cons e rest ih =>
    obtain ⟨event, readings⟩ := e
    obtain ⟨eventId, hid, hfit, hrest⟩ := hfits
    unfold EventsMeet
    simp only [hid, Except.ok.injEq, forall_eq']
    obtain ⟨a, ha⟩ : ∃ a, a = arrivalOf c unreported event readings eventId s := ⟨_, rfl⟩
    rw [← ha] at hfit hrest ⊢
    have hset' : siteSettings c.siteId c.request.environment (a.apply s)
        = .ok (c.timezone, c.cardinalityLimit) := by
      rw [siteSettings_congr (a.apply_config s)]
      exact hset
    by_cases hk : a.Known s
    · have hinv' : I (a.apply s) := by
        rw [Arrival.apply_known hk]
        exact hknown s _ hinv
      rw [ih hset' hrest hinv']
      simp [hk]
    · have harrives : Arrives env a s :=
        { env_eq := by rw [ha]; exact henv
          settings := by rw [ha]; exact hset
          conversion := by rw [ha]; rfl
          new := hk
          fits := hfit }
      simp only [hk, not_false_eq_true, forall_const, hiff a s harrives hinv]
      refine and_congr_right fun hgood => ih hset' hrest ?_
      rw [Arrival.apply_new hk]
      exact hnew a s hk harrives hinv ((hiff a s harrives hinv).mpr hgood)

theorem meets_congr {j : Job} {s : Store} (hok : j.Succeeds env s) (hinv : I s) :
    j.Meets env Good s ↔ j.Meets env Good' s := by
  obtain ⟨p, hp, ⟨timezone, limit, hset, -, hevents⟩, -⟩ := afterJob_of_succeeds hok
  have hone : ∀ G, j.Meets env G s
      ↔ EventsMeet G (jobContext env j.policy j.siteId p.withEnvironment timezone limit s) true
          (timed p.withEnvironment.request.events j.readings) s := by
    intro G
    constructor
    · intro h
      exact h p timezone limit hp hset
    · intro h p' timezone' limit' hp' hset'
      rw [hp] at hp'
      obtain rfl := Except.ok.inj hp'
      rw [hset] at hset'
      obtain ⟨rfl, rfl⟩ := Prod.mk.inj (Except.ok.inj hset')
      exact h
  rw [hone, hone]
  exact eventsMeet_congr hiff hnew hknown rfl _ hset hevents hinv

/-- **Equivalent conditions on every stored event are equivalent along a run**,
as long as the invariant lasts. -/
theorem jobsMeet_congr (jobs : List Job) {s : Store} (hinv : I s) :
    JobsMeet env Good s jobs ↔ JobsMeet env Good' s jobs := by
  induction jobs generalizing s with
  | nil => exact Iff.rfl
  | cons j js ih =>
    have hjob : (j.Succeeds env s → j.Meets env Good s)
        ↔ (j.Succeeds env s → j.Meets env Good' s) :=
      forall_congr' fun hok => meets_congr hiff hnew hknown hok hinv
    unfold JobsMeet
    rw [← hjob]
    exact and_congr_right fun hmeet => ih (afterJob_induction hnew hknown hmeet hinv)

end Congr

/-! ## §5. A small installation, to run the model on. -/

namespace Sample

/-- The value of a canonical 36-character UUID. -/
def parseUuid (s : String) : Option Uuid :=
  let digits := s.toList.filter (· ≠ '-')
  if s.length = 36 ∧ digits.length = 32 then
    (digits.foldl (fun acc c => acc.bind fun n => (hexDigit? c).map (n * 16 + ·)) (some 0)).map
      fun n => ⟨BitVec.ofNat 128 n⟩
  else none

/-- A platform that behaves like the real ones on plain ASCII names, simple URLs,
ordinary browsers and UTC; the hashes only need to be injective. -/
def platform : Platform where
  parseUuid := parseUuid
  toLower := String.toLower
  toUpper := String.toUpper
  quote s := "\"" ++ s ++ "\""
  parseUrl s := some ⟨s, "", "", ""⟩
  urlString u := u.rest
  parseQuery _ := []
  encodeQuery _ := ""
  parseIp _ := none
  ipString _ := ""
  splitMatches _ s := ([], s)
  sha256Hex s := s
  sha256Base64 s := s
  loadLocation zone := zone = "UTC"
  localDate _ t := t / (24 * 3600 * 1000000)
  fiveYearsBefore t := t - 1826 * 24 * 3600 * 1000000
  storesJson _ := true
  releaseIndexFits _ _ := true
  int64OfNaN := -(2 ^ 63)
  int64OfNaN_range := by norm_num

def siteId : Uuid := ⟨1⟩

def site : Site where
  siteKey := "site"
  trackingKeyHash := "tk"
  serverApiKeyHash := "sk"
  allowedDomains := []
  active := true
  timezone := "UTC"
  engagementThresholdSeconds := 10
  thresholdChecked := by omega

/-- One site with the production environment, limit `limit`. -/
def config (limit : Nat) : Config where
  sites := AList.singleton siteId site
  siteEnvironments := AList.singleton ⟨siteId, "prd"⟩ ⟨.warn, limit, true⟩
  eventDefinitions := ∅
  contractVersions := []
  networkRanges := []
  maxEventsPerRequest := none
  privacy := .ok Policy.default

/-- 2026-01-01T00:00:00Z, in milliseconds. -/
def newYear : Int := 1767225600000

/-- The day after, on every clock. -/
def readings : Nat → EventReadings := fun _ =>
  ⟨.error "not needed", newYear * 1000, newYear * 1000, newYear * 1000⟩

/-- The canonical UUID that ends in the digit `c`. -/
def eventId (c : Char) : String :=
  String.ofList ("00000000-0000-0000-0000-00000000000".toList ++ [c])

/-- A payload of the visitor `visitor` in session `s1`. -/
def payload (visitor user : String) (events : List IncomingEvent) : InboxPayload where
  request := { siteId := "site", visitorId := visitor, sessionId := "s1", userId := user
               events := events }
  userAgent := "Mozilla/5.0"

def job (p : InboxPayload) : Job := ⟨siteId, .ok p, Policy.default, readings, []⟩

end Sample

end Momento
