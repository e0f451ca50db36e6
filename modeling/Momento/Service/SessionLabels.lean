/-
  Momento.Service.SessionLabels

  **THE LABELS OF A SESSION, KEPT AND REBUILT.**  `updateSession` keeps a
  session's labels event by event; `rebuildSessionsSQL` reads them off the raw
  events in time order.  Event by event the two stay equal EXACTLY when the event
  keeps every label (`LabelsKept`):

      visitor_id           — it is first in time, or of the visitor who is
      user_id              — the visitor's linked user is the session's last user
      landing_page         — it is no earlier page view inside the session's span
      exit_page            — it is no later page view before the session's end
      source … device_type — it is not earlier than the row the value came from
      session_properties   — it sets no key that an earlier row set last

  In time order all of these hold except the first two; out of order each of them
  can fail.
-/
import Momento.Service.Sessions

namespace Momento

open Foundation

/-! ## §1. Labels. -/

/-- The descriptive columns of a session; two property objects are equal when
every key has the same value. -/
structure SessionLabels where
  visitorId : String
  userId : Option String
  landingPage : Option String
  exitPage : Option String
  source : Option String
  medium : Option String
  campaign : Option String
  deviceType : Option String
  sessionProperties : String → Option Json

/-- A row's labels. -/
def Session.labels (r : Session) : SessionLabels where
  visitorId := r.visitorId
  userId := r.userId
  landingPage := r.landingPage
  exitPage := r.exitPage
  source := r.source
  medium := r.medium
  campaign := r.campaign
  deviceType := r.deviceType
  sessionProperties := r.sessionProperties.get

/-- The labels the upserts left. -/
def Store.sessionLabels (s : Store) (k : SessionKey) : Option SessionLabels :=
  (s.sessions.lookup k).map Session.labels

/-- The labels a rebuild of the session's site would leave. -/
def Store.rebuiltLabels (s : Store) (k : SessionKey) : Option SessionLabels :=
  ((rebuildSessions k.siteId s).lookup k).map Session.labels

/-- Every session's labels are the rebuilt ones. -/
def LabelsAgree (s : Store) : Prop := ∀ k, s.sessionLabels k = s.rebuiltLabels k

/-! ## §2. When an event keeps the labels of its session. -/

section Kept
variable (g : List RawEvent) (e : RawEvent)

/-- The condition on `visitor_id`. -/
def VisitorKept : Prop :=
  ∀ b, firstRow g (fun r => some r.visitorId) = some b →
    e.eventTimestamp < b.eventTimestamp ∨ b.visitorId = e.visitorId

/-- `linked` is the user the visitor is linked to once the event is in. -/
def UserKept (linked : Option String) : Prop :=
  ∀ u, linked = some u →
    (e.userId = some u ∧ ∀ b, lastRow g RawEvent.userId = some b →
        b.eventTimestamp ≤ e.eventTimestamp)
      ∨ ∃ b, lastRow g RawEvent.userId = some b ∧ b.userId = some u
          ∧ (e.userId = none ∨ e.eventTimestamp < b.eventTimestamp)

/-- The condition on `landing_page`. -/
def LandingKept : Prop :=
  ∀ start, firstTime g = some start → ∀ v b, e.page = some v →
    firstRow g RawEvent.page = some b → start ≤ e.eventTimestamp →
    e.eventTimestamp < b.eventTimestamp → b.page = some v

/-- The condition on `exit_page`. -/
def ExitKept : Prop :=
  ∀ last, lastTime g = some last → ∀ v, e.page = some v → e.eventTimestamp < last →
    ∃ b, lastRow g RawEvent.page = some b
      ∧ (b.eventTimestamp ≤ e.eventTimestamp → b.page = some v)

/-- The condition on a first-touch column. -/
def FirstTouchKept (col : RawEvent → Option String) : Prop :=
  ∀ v b, col e = some v → firstRow g col = some b → e.eventTimestamp < b.eventTimestamp →
    col b = some v

/-- The condition on `properties`. -/
def PropertiesKept : Prop :=
  ∀ last, lastTime g = some last → ∀ key v b, e.sessionProperties.get key = some v →
    e.eventTimestamp < last → lastRow g (fun r => r.sessionProperties.get key) = some b →
    b.eventTimestamp ≤ e.eventTimestamp → b.sessionProperties.get key = some v

end Kept

section Known
variable {g : List RawEvent} {e : RawEvent}

/-- With the session's start known. -/
theorem landingKept_iff {start : Instant} (hstart : firstTime g = some start) :
    LandingKept g e
      ↔ ∀ v b, e.page = some v → firstRow g RawEvent.page = some b → start ≤ e.eventTimestamp →
          e.eventTimestamp < b.eventTimestamp → b.page = some v := by
  unfold LandingKept
  rw [hstart]
  simp

/-- With the session's end known. -/
theorem exitKept_iff {last : Instant} (hlast : lastTime g = some last) :
    ExitKept g e
      ↔ ∀ v, e.page = some v → e.eventTimestamp < last →
          ∃ b, lastRow g RawEvent.page = some b
            ∧ (b.eventTimestamp ≤ e.eventTimestamp → b.page = some v) := by
  unfold ExitKept
  rw [hlast]
  simp

theorem propertiesKept_iff {last : Instant} (hlast : lastTime g = some last) :
    PropertiesKept g e
      ↔ ∀ key v b, e.sessionProperties.get key = some v → e.eventTimestamp < last →
          lastRow g (fun r => r.sessionProperties.get key) = some b →
          b.eventTimestamp ≤ e.eventTimestamp → b.sessionProperties.get key = some v := by
  unfold PropertiesKept
  rw [hlast]
  simp

end Known

/-- **The event keeps every label of its session.** -/
structure LabelsKept (a : Arrival) (s : Store) : Prop where
  visitor : VisitorKept (s.sessionGroup a.sessionKey) (a.newRow s)
  user : UserKept (s.sessionGroup a.sessionKey) (a.newRow s) (a.linkedAfter s)
  landing : LandingKept (s.sessionGroup a.sessionKey) (a.newRow s)
  exit : ExitKept (s.sessionGroup a.sessionKey) (a.newRow s)
  source : FirstTouchKept (s.sessionGroup a.sessionKey) (a.newRow s) RawEvent.source
  medium : FirstTouchKept (s.sessionGroup a.sessionKey) (a.newRow s) RawEvent.medium
  campaign : FirstTouchKept (s.sessionGroup a.sessionKey) (a.newRow s) RawEvent.campaign
  deviceType : FirstTouchKept (s.sessionGroup a.sessionKey) (a.newRow s) RawEvent.deviceType
  properties : PropertiesKept (s.sessionGroup a.sessionKey) (a.newRow s)

/-! ## §3. The rebuilt labels of a group. -/

/-- `jsonb_object_agg` of the last values answers the last value of every key. -/
theorem get_latestProperties (g : List RawEvent) (key : String) :
    (latestProperties g).get key = lastTouch (fun r => r.sessionProperties.get key) g := by
  have hlookup : ∀ keys : List String,
      List.lookup key (keys.filterMap fun k =>
        (lastTouch (fun r => r.sessionProperties.get k) g).map (k, ·))
      = if key ∈ keys then lastTouch (fun r => r.sessionProperties.get key) g else none := by
    intro keys
    induction keys with
    | nil => rfl
    | cons k keys ih =>
      by_cases hk : key = k
      · subst hk
        cases hv : lastTouch (fun r => r.sessionProperties.get key) g with
        | none => simp [hv, ih]
        | some v => simp [hv]
      · cases hv : lastTouch (fun r => r.sessionProperties.get k) g with
        | none => simp [hv, ih, hk]
        | some v => simp [hv, List.lookup_cons, beq_false_of_ne hk, ih, hk]
  unfold latestProperties Properties.get
  refine (hlookup _).trans ?_
  by_cases hmem : key ∈ (((g.flatMap (·.sessionProperties)).map Prod.fst).dedup.insertionSort (· ≤ ·))
  · rw [if_pos hmem]
    rfl
  · rw [if_neg hmem]
    -- no row carries the key, so there is no last one
    symm
    rw [latest_eq_none_iff]
    cases hrow : lastRow g (fun r => r.sessionProperties.get key) with
    | none => exact hrow
    | some b =>
      exfalso
      apply hmem
      obtain ⟨hb, hcarries⟩ := latestRow_carries hrow
      obtain ⟨v, hv⟩ := Option.isSome_iff_exists.mp hcarries
      rw [List.mem_insertionSort, List.mem_dedup, List.mem_map]
      obtain ⟨l₁, l₂, hsplit, -⟩ := List.lookup_eq_some_iff.mp hv
      refine ⟨(key, v), List.mem_flatMap.mpr ⟨b, hb, ?_⟩, rfl⟩
      rw [hsplit]
      simp

/-- The labels of a rebuilt row. -/
theorem labels_rebuildSessionRow (threshold : Nat) (g : List RawEvent) :
    (rebuildSessionRow threshold g).labels
      = { visitorId := (firstTouch (fun r => some r.visitorId) g).getD ""
          userId := lastTouch RawEvent.userId g
          landingPage := firstTouch RawEvent.page g
          exitPage := lastTouch RawEvent.page g
          source := firstTouch RawEvent.source g
          medium := firstTouch RawEvent.medium g
          campaign := firstTouch RawEvent.campaign g
          deviceType := firstTouch RawEvent.deviceType g
          sessionProperties := fun key => lastTouch (fun r => r.sessionProperties.get key) g } := by
  have hprops : (latestProperties g).get
      = fun key => lastTouch (fun r => r.sessionProperties.get key) g :=
    funext (get_latestProperties g)
  unfold Session.labels rebuildSessionRow
  rw [hprops]

/-! ## §4. One event. -/

section Step
variable (a : Arrival) {s : Store}

/-- The labels of the row a session starts with. -/
theorem labels_insert (hs : IdentityShown s) (threshold : Nat) :
    ((a.touch s).insert threshold).labels
      = { visitorId := (a.newRow s).visitorId
          userId := a.linkedAfter s
          landingPage := (a.newRow s).page
          exitPage := (a.newRow s).page
          source := (a.newRow s).source
          medium := (a.newRow s).medium
          campaign := (a.newRow s).campaign
          deviceType := (a.newRow s).deviceType
          sessionProperties := (a.newRow s).sessionProperties.get } := by
  have huser : nullIfEmpty (a.canonical s) = a.linkedAfter s := by
    rw [a.canonical_eq_linked hs]
    cases h : a.linkedAfter s with
    | none => rfl
    | some u => simp [nullIfEmpty, a.linkedAfter_named hs h]
  show SessionLabels.mk _ (nullIfEmpty (a.canonical s)) _ _ _ _ _ _ _ = _
  rw [huser]
  rfl

/-- The labels of the row another event leaves. -/
theorem labels_update (hs : IdentityShown s) (threshold : Nat) (r : Session) :
    ((a.touch s).update threshold r).labels
      = { visitorId := (a.newRow s).visitorId
          userId := (a.linkedAfter s).or r.userId
          landingPage :=
            if a.eventTime < r.startedAt ∧ (a.newRow s).page ≠ none then (a.newRow s).page
            else r.landingPage.or (a.newRow s).page
          exitPage :=
            if r.lastEventAt ≤ a.eventTime ∧ (a.newRow s).page ≠ none then (a.newRow s).page
            else r.exitPage
          source := r.source.or (a.newRow s).source
          medium := r.medium.or (a.newRow s).medium
          campaign := r.campaign.or (a.newRow s).campaign
          deviceType := r.deviceType.or (a.newRow s).deviceType
          sessionProperties := fun key =>
            if r.lastEventAt ≤ a.eventTime then
              ((a.newRow s).sessionProperties.get key).or (r.sessionProperties.get key)
            else (r.sessionProperties.get key).or ((a.newRow s).sessionProperties.get key) } := by
  have huser : (((a.touch s).insert threshold).labels).userId = a.linkedAfter s := by
    rw [labels_insert a hs]
  have hprops : (((a.touch s).update threshold r).labels).sessionProperties
      = fun key =>
        if r.lastEventAt ≤ a.eventTime then
          ((a.newRow s).sessionProperties.get key).or (r.sessionProperties.get key)
        else (r.sessionProperties.get key).or ((a.newRow s).sessionProperties.get key) := by
    funext key
    show Properties.get (if r.lastEventAt ≤ a.eventTime then _ else _) key = _
    split
    · exact Properties.get_concat _ _ _
    · exact Properties.get_concat _ _ _
  rw [← huser, ← hprops]
  rfl

/-- Columns with a first touch rule: nothing to compare with in a new session. -/
theorem firstTouchKept_nil (e : RawEvent) (col : RawEvent → Option String) :
    FirstTouchKept [] e col := by
  intro v b _ hb
  simp [firstRow, earliestRow] at hb

/-- The linked user is named when the event names one. -/
theorem linkedAfter_none (h : a.linkedAfter s = none) : (a.newRow s).userId = none := by
  have huser : a.context.userId = "" := by
    by_contra hne
    rw [a.linkedAfter_of_identified hne] at h
    simp at h
  show nullIfEmpty a.context.userId = none
  simp [nullIfEmpty, huser]

/-- The user column after the event is the last user in time exactly when the
event keeps it. -/
theorem user_eq_iff (g : List RawEvent) (hid : ∀ r ∈ g, r.id < (a.newRow s).id) :
    (a.linkedAfter s).or (lastTouch RawEvent.userId g)
        = lastTouch RawEvent.userId (a.newRow s :: g)
      ↔ UserKept g (a.newRow s) (a.linkedAfter s) := by
  unfold UserKept
  cases h : a.linkedAfter s with
  | none =>
    have hnone : lastTouch RawEvent.userId (a.newRow s :: g) = lastTouch RawEvent.userId g :=
      latest_cons_none (linkedAfter_none a h)
    simp [hnone]
  | some u =>
    have hassign : some u = lastTouch RawEvent.userId (a.newRow s :: g) ↔ _ :=
      assign_eq_latest_iff hid
    simp only [Option.some_or, hassign, Option.some.injEq, forall_eq']

/-- The visitor written last is the first one in time exactly when the event
keeps it. -/
theorem visitor_eq_iff (g : List RawEvent) (hid : ∀ r ∈ g, r.id < (a.newRow s).id) :
    (a.newRow s).visitorId = (firstTouch (fun r => some r.visitorId) (a.newRow s :: g)).getD ""
      ↔ VisitorKept g (a.newRow s) := by
  have hcons : earliest RawEvent.eventTimestamp RawEvent.id (fun r => some r.visitorId)
      (a.newRow s :: g) = _ := earliest_cons_some hid (rfl : some (a.newRow s).visitorId = _)
  unfold VisitorKept firstTouch firstRow
  rw [hcons]
  cases earliestRow RawEvent.eventTimestamp RawEvent.id (fun r => some r.visitorId) g with
  | none => simp
  | some b =>
    by_cases hlt : (a.newRow s).eventTimestamp < b.eventTimestamp
    · simp [hlt]
    · simp [hlt, eq_comm]

/-- The rebuilt labels after the event. -/
theorem rebuiltLabels_store (h : ¬a.Known s) (k : SessionKey) :
    (a.store s h).rebuiltLabels k
      = if k = a.sessionKey then
          some (rebuildSessionRow (s.config.threshold k.siteId)
            (a.newRow s :: s.sessionGroup k)).labels
        else s.rebuiltLabels k := by
  have hconfig : (a.store s h).config = s.config := a.derive_config _
  unfold Store.rebuiltLabels
  rw [lookup_rebuildSessions, lookup_rebuildSessions, a.store_sessionGroup, hconfig]
  by_cases hk : k = a.sessionKey
  · rw [if_pos hk, if_pos hk, if_neg (List.cons_ne_nil _ _)]
    rfl
  · rw [if_neg hk, if_neg hk]

/-- The kept labels after the event. -/
theorem sessionLabels_store (h : ¬a.Known s) (k : SessionKey) :
    (a.store s h).sessionLabels k
      = if k = a.sessionKey then
          some ((s.sessions.lookup k).elim
            ((a.touch s).insert (s.config.threshold a.context.siteId)).labels
            (fun r => ((a.touch s).update (s.config.threshold a.context.siteId) r).labels))
        else s.sessionLabels k := by
  unfold Store.sessionLabels
  rw [a.store_sessions]
  by_cases hk : k = a.sessionKey
  · rw [if_pos hk, if_pos hk]
    cases s.sessions.lookup k with
    | none => rfl
    | some r => rfl
  · rw [if_neg hk, if_neg hk]

/-- A new session starts with the labels of its only event, save that the user is
the linked one. -/
theorem labels_new_iff (hs : IdentityShown s) (threshold threshold' : Nat)
    (hnil : s.sessionGroup a.sessionKey = []) :
    ((a.touch s).insert threshold).labels = (rebuildSessionRow threshold' [a.newRow s]).labels
      ↔ LabelsKept a s := by
  have huser := user_eq_iff a (s := s) [] (by simp)
  rw [labels_insert a hs, labels_rebuildSessionRow]
  simp only [earliest_singleton, latest_singleton, Option.getD_some, SessionLabels.mk.injEq,
    true_and, and_true]
  simp only [latest_nil, latest_singleton, Option.or_none] at huser
  rw [huser]
  constructor
  · intro hkept
    exact
      { visitor := by rw [hnil]; intro b hb; simp [firstRow, earliestRow] at hb
        user := by rw [hnil]; exact hkept
        landing := by rw [hnil]; intro start hstart; simp [firstTime, minTime] at hstart
        exit := by rw [hnil]; intro last hlast; simp [lastTime, maxTime] at hlast
        source := by rw [hnil]; exact firstTouchKept_nil _ _
        medium := by rw [hnil]; exact firstTouchKept_nil _ _
        campaign := by rw [hnil]; exact firstTouchKept_nil _ _
        deviceType := by rw [hnil]; exact firstTouchKept_nil _ _
        properties := by rw [hnil]; intro last hlast; simp [lastTime, maxTime] at hlast }
  · intro hkept
    have hu := hkept.user
    rw [hnil] at hu
    exact hu

/-- A session that has the rebuilt labels has them again exactly when the event
keeps them. -/
theorem labels_old_iff (hs : IdentityShown s) (threshold threshold' threshold'' : Nat) (r : Session)
    (hstart : firstTime (s.sessionGroup a.sessionKey) = some r.startedAt)
    (hlast : lastTime (s.sessionGroup a.sessionKey) = some r.lastEventAt)
    (hold : r.labels = (rebuildSessionRow threshold' (s.sessionGroup a.sessionKey)).labels) :
    ((a.touch s).update threshold r).labels
        = (rebuildSessionRow threshold'' (a.newRow s :: s.sessionGroup a.sessionKey)).labels
      ↔ LabelsKept a s := by
  obtain ⟨g, hg⟩ : ∃ g, g = s.sessionGroup a.sessionKey := ⟨_, rfl⟩
  rw [← hg] at hstart hlast hold ⊢
  have hid : ∀ r ∈ g, r.id < (a.newRow s).id := by
    intro r hr
    rw [hg] at hr
    exact a.lt_newRow_id s (mem_rows_of_mem_group hr)
  rw [labels_rebuildSessionRow, Session.labels, SessionLabels.mk.injEq] at hold
  obtain ⟨-, huser, hlanding, hexit, hsource, hmedium, hcampaign, hdevice, hprops⟩ := hold
  -- column by column, the old value being the old aggregate
  have hlandingIff := (guardedFirst_eq_earliest_iff RawEvent.page hid hstart).trans
    (landingKept_iff hstart).symm
  have hexitIff := (guardedLast_eq_latest_iff RawEvent.page hid hlast).trans
    (exitKept_iff hlast).symm
  have hfirst : ∀ col : RawEvent → Option String,
      (firstTouch col g).or (col (a.newRow s)) = firstTouch col (a.newRow s :: g)
        ↔ FirstTouchKept g (a.newRow s) col := fun col => coalesce_eq_earliest_iff hid
  have hpropsIff : ((fun key =>
        if r.lastEventAt ≤ a.eventTime then
          ((a.newRow s).sessionProperties.get key).or (r.sessionProperties.get key)
        else (r.sessionProperties.get key).or ((a.newRow s).sessionProperties.get key))
        = fun key => lastTouch (fun r => r.sessionProperties.get key) (a.newRow s :: g))
      ↔ PropertiesKept g (a.newRow s) := by
    rw [funext_iff, propertiesKept_iff hlast]
    refine forall_congr' fun key => ?_
    rw [congrFun hprops key]
    exact mergedLast_eq_latest_iff (fun r : RawEvent => r.sessionProperties.get key) hid hlast
  rw [labels_update a hs, labels_rebuildSessionRow, SessionLabels.mk.injEq, huser, hlanding, hexit,
    hsource, hmedium, hcampaign, hdevice, visitor_eq_iff a g hid, user_eq_iff a g hid, hfirst, hfirst,
    hfirst, hfirst, hpropsIff]
  subst hg
  constructor
  · rintro ⟨h₁, h₂, h₃, h₄, h₅, h₆, h₇, h₈, h₉⟩
    exact ⟨h₁, h₂, hlandingIff.mp h₃, hexitIff.mp h₄, h₅, h₆, h₇, h₈, h₉⟩
  · intro hkept
    exact ⟨hkept.visitor, hkept.user, hlandingIff.mpr hkept.landing, hexitIff.mpr hkept.exit,
      hkept.source, hkept.medium, hkept.campaign, hkept.deviceType, hkept.properties⟩

/-- **One event keeps the labels equal to the rebuilt ones exactly when it keeps
every label of its session.** -/
theorem labelsAgree_store_iff (h : ¬a.Known s) (hs : IdentityShown s) (ht : SessionTimes s)
    (hagree : LabelsAgree s) : LabelsAgree (a.store s h) ↔ LabelsKept a s := by
  have hself : LabelsAgree (a.store s h)
      ↔ (a.store s h).sessionLabels a.sessionKey = (a.store s h).rebuiltLabels a.sessionKey := by
    constructor
    · intro hall
      exact hall a.sessionKey
    · intro hk k
      by_cases heq : k = a.sessionKey
      · rw [heq]
        exact hk
      · rw [sessionLabels_store, rebuiltLabels_store, if_neg heq, if_neg heq]
        exact hagree k
  rw [hself, sessionLabels_store, rebuiltLabels_store, if_pos rfl, if_pos rfl]
  have hstart := ht.started a.sessionKey
  have hlast := ht.lastEvent a.sessionKey
  cases hrow : s.sessions.lookup a.sessionKey with
  | none =>
    have hnil := (ht.lookup_eq_none a.sessionKey).mp hrow
    rw [hnil, Option.some.injEq]
    exact labels_new_iff a hs _ _ hnil
  | some r =>
    rw [hrow] at hstart hlast
    have hold := hagree a.sessionKey
    unfold Store.sessionLabels Store.rebuiltLabels at hold
    have hne : s.sessionGroup a.sessionKey ≠ [] := by
      intro hnil
      rw [(ht.lookup_eq_none a.sessionKey).mpr hnil] at hrow
      simp at hrow
    rw [hrow, lookup_rebuildSessions, if_neg hne] at hold
    rw [Option.some.injEq]
    exact labels_old_iff a hs _ _ _ r hstart.symm hlast.symm (Option.some.inj hold)

end Step

/-! ## §5. Runs. -/

/-- What a run carries along while the labels agree. -/
structure LabelsInvariant (s : Store) : Prop where
  identity : IdentityShown s
  times : SessionTimes s
  agree : LabelsAgree s

theorem LabelsInvariant.initial (config : Config) : LabelsInvariant (Store.initial config) where
  identity := .initial config
  times := .initial config
  agree _ := rfl

theorem LabelsInvariant.addQuality {s : Store} (hs : LabelsInvariant s) (key : QualityKey)
    (q : Quality) : LabelsInvariant (s.addQuality key q) where
  identity := ⟨hs.identity.named, hs.identity.shown⟩
  times := ⟨hs.times.started, hs.times.lastEvent⟩
  agree := hs.agree

theorem LabelsInvariant.store {a : Arrival} {s : Store} (h : ¬a.Known s) (hs : LabelsInvariant s)
    (hkept : LabelsKept a s) : LabelsInvariant (a.store s h) where
  identity := a.store_identityShown h hs.identity
  times := a.store_sessionTimes h hs.times
  agree := (labelsAgree_store_iff a h hs.identity hs.times hs.agree).mpr hkept

/-- **The labels of every session agree with the rebuild after every stored event
of a run exactly when every stored event keeps the labels of its session**; and
then they agree at the run's end. -/
theorem sessionLabels_rebuilt (env : Platform) (config : Config) (jobs : List Job) :
    (JobsMeet env (fun a s => ∀ h : ¬a.Known s, LabelsAgree (a.store s h)) (Store.initial config) jobs
        ↔ JobsMeet env LabelsKept (Store.initial config) jobs)
      ∧ (JobsMeet env LabelsKept (Store.initial config) jobs →
          LabelsAgree (afterJobs env (Store.initial config) jobs)) := by
  have hnew : ∀ a s, ∀ h : ¬a.Known s, Arrives env a s → LabelsInvariant s → LabelsKept a s →
      LabelsInvariant (a.store s h) := fun a s h _ hs hkept => hs.store h hkept
  have hknown : ∀ s key, LabelsInvariant s → LabelsInvariant (s.addQuality key { duplicates := 1 }) :=
    fun s key hs => hs.addQuality key _
  constructor
  · symm
    refine jobsMeet_congr ?_ hnew hknown jobs (.initial config)
    intro a s harrives hs
    have hiff := labelsAgree_store_iff a harrives.new hs.identity hs.times hs.agree
    rw [← hiff]
    exact ⟨fun h _ => h, fun h => h harrives.new⟩
  · intro hmeet
    exact (afterJobs_induction hnew hknown jobs hmeet (.initial config)).agree

/-- Two page views of one session, the earlier one processed last. -/
def Sample.lateSource : List Job :=
  [Sample.job (Sample.payload "v1" "" [{
      id := Sample.eventId '1', name := "page_view", timestamp := Sample.newYear - 1000
      context := some { traffic := { source := "mail" } } }]),
   Sample.job (Sample.payload "v1" "" [{
      id := Sample.eventId '2', name := "page_view", timestamp := Sample.newYear - 2000
      context := some { traffic := { source := "search" } } }])]

/-- The upserts keep the source of the event processed first, the rebuild takes
the earlier event's. -/
theorem lateSource_not_rebuilt :
    ¬LabelsAgree (afterJobs Sample.platform (Store.initial (Sample.config 100))
      Sample.lateSource) := by
  intro hagree
  have hlabels := congrArg (Option.map SessionLabels.source)
    (hagree ⟨Sample.siteId, "prd", "s1"⟩)
  revert hlabels
  unfold Store.sessionLabels Store.rebuiltLabels
  rw [Option.map_map, Option.map_map]
  decide +kernel

end Momento
