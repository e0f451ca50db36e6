/-
  Momento.Service.SessionCounters

  **THE COUNTERS OF A SESSION, KEPT AND REBUILT.**  Events, page views,
  conversions, heartbeats, interactions and the time span are counted alike on
  both paths whatever the order.  The active time is not: Go reads
  `active_seconds` with `ParseFloat` and drops what is below a millisecond event
  by event, SQL reads a plain decimal and rounds the sum once.

  The two agree as long as every heartbeat's `active_seconds` is read alike
  (`EngagementKept`); then the engagement flag, computed in three places from the
  counters, is the same in all three.
-/
import Momento.Service.Sessions

namespace Momento

open Foundation

/-! ## §1. Counters. -/

/-- The counters of a session. -/
structure SessionCounters where
  startedAt : Instant
  lastEventAt : Instant
  eventCount : Nat
  pageViews : Nat
  conversionCount : Nat
  heartbeatCount : Nat
  interactionCount : Nat
  activeEngagementMs : Int
  engaged : Bool
  deriving DecidableEq

/-- A row's counters. -/
def Session.counters (r : Session) : SessionCounters where
  startedAt := r.startedAt
  lastEventAt := r.lastEventAt
  eventCount := r.eventCount
  pageViews := r.pageViews
  conversionCount := r.conversionCount
  heartbeatCount := r.heartbeatCount
  interactionCount := r.interactionCount
  activeEngagementMs := r.activeEngagementMs
  engaged := r.engaged

/-- Every session's counters are the rebuilt ones, and `updateSite` would set no
flag differently for the threshold in force. -/
def CountersAgree (s : Store) : Prop :=
  ∀ k, (s.sessions.lookup k).map Session.counters
        = ((rebuildSessions k.siteId s).lookup k).map Session.counters
    ∧ ((recomputeEngaged k.siteId (s.config.threshold k.siteId) s.sessions).lookup k).map
        Session.counters
      = (s.sessions.lookup k).map Session.counters

/-! ## §2. When a heartbeat is read alike. -/

/-- The double is worth `k` whole milliseconds: it is an hour at most, and a
thousand times it, rounded, is at least `k` and below `k + 1`. -/
def WorthMilliseconds (k : ℕ) : Binary64 → Prop
  | .fin x => 0 ≤ x.value ∧ x.value ≤ 3600 ∧ (k : ℚ) ≤ Binary64.nearest (x.value * 1000)
      ∧ Binary64.nearest (x.value * 1000) < k + 1
  | _ => False

instance (k : ℕ) : ∀ f, Decidable (WorthMilliseconds k f)
  | .fin _ => inferInstanceAs (Decidable (_ ∧ _ ∧ _ ∧ _))
  | .nan => instDecidableFalse
  | .inf _ => instDecidableFalse

/-- The double is an hour or more. -/
def WorthAnHour : Binary64 → Prop
  | .nan => False
  | .inf negative => negative = false
  | .fin x => 3600 ≤ x.value

/-- The double is worth nothing: negative, or less than a millisecond. -/
def WorthNothing (f : Binary64) : Prop :=
  f = .inf true ∨ (∃ x, f = .fin x ∧ x.value < 0) ∨ WorthMilliseconds 0 f

/-- **`active_seconds` is read alike**: as no plain decimal and as nothing in Go;
or as a plain decimal of an hour or more and as a double of an hour or more; or
as a plain decimal of `k` whole milliseconds whose double is worth `k` too. -/
def ReadAlike (incoming stored : Option Json) : Prop :=
  match numericText stored with
  | none => WorthNothing (secondsReading incoming)
  | some d => CastFits stored
    ∧ ((3600 ≤ d ∧ WorthAnHour (secondsReading incoming))
      ∨ ∃ k : ℕ, d < 3600 ∧ d * 1000 = k ∧ WorthMilliseconds k (secondsReading incoming))

/-- **The event's heartbeat, if it is one, is read alike.** -/
def EngagementKept (a : Arrival) (_ : Store) : Prop :=
  a.event.name = "user_engagement" →
    ReadAlike (propertyOf a.event.properties "active_seconds")
      ((storedProperties a.context a.event).get "active_seconds")

/-- An hour of the cap, as a double. -/
theorem nearest_cap : Binary64.nearest (3600 * 1000) = 3600000 := by
  have h := Binary64.nearestPos_natCast (m := 3600000) (by norm_num)
  push_cast at h
  unfold Binary64.nearest
  norm_num
  exact h

theorem millisecondsOf_worth (n : Int) {k : ℕ} {f : Binary64} (h : WorthMilliseconds k f) :
    millisecondsOf n f = k := by
  cases f with
  | nan => exact h.elim
  | inf negative => exact h.elim
  | fin x =>
    obtain ⟨h0, h1, hlow, hhigh⟩ := h
    have hfloor : ⌊Binary64.nearest (x.value * 1000)⌋ = (k : ℤ) := by
      rw [Int.floor_eq_iff]
      exact ⟨by exact_mod_cast hlow, by exact_mod_cast hhigh⟩
    simp only [millisecondsOf, h0.not_gt, if_false, h1.not_gt, hfloor]

theorem millisecondsOf_hour (n : Int) {f : Binary64} (h : WorthAnHour f) :
    millisecondsOf n f = 3600000 := by
  cases f with
  | nan => exact h.elim
  | inf negative =>
    have hpos : negative = false := h
    simp [millisecondsOf, hpos]
  | fin x =>
    have hx : 3600 ≤ x.value := h
    have hcap : (if 3600 < x.value then 3600 else x.value) = 3600 := by
      rcases hx.eq_or_lt with heq | hlt
      · simp [← heq]
      · exact if_pos hlt
    have hneg : ¬x.value < 0 := by linarith
    have hfloor : ⌊(3600000 : ℚ)⌋ = 3600000 := by norm_num
    simp only [millisecondsOf, hneg, if_false, hcap, nearest_cap, hfloor]

theorem millisecondsOf_nothing (n : Int) {f : Binary64} (h : WorthNothing f) :
    millisecondsOf n f = 0 := by
  rcases h with rfl | ⟨x, rfl, hx⟩ | h
  · rfl
  · simp [millisecondsOf, hx]
  · simpa using millisecondsOf_worth n h

/-- **A heartbeat that is read alike is worth the same in Go and in SQL.** -/
theorem millisecondsOf_readAlike (n : Int) {incoming stored : Option Json}
    (h : ReadAlike incoming stored) :
    (numericText stored).elim 0 (fun d => min (d * 1000) 3600000)
      = (millisecondsOf n (secondsReading incoming) : ℚ) := by
  unfold ReadAlike at h
  cases hd : numericText stored with
  | none =>
    rw [hd] at h
    rw [millisecondsOf_nothing n h]
    rfl
  | some d =>
    rw [hd] at h
    rcases h.2 with ⟨hcap, hour⟩ | ⟨k, hlt, hk, hworth⟩
    · rw [millisecondsOf_hour n hour]
      show min (d * 1000) 3600000 = ((3600000 : ℤ) : ℚ)
      rw [min_eq_right (by linarith)]
      norm_num
    · rw [millisecondsOf_worth n hworth]
      show min (d * 1000) 3600000 = ((k : ℤ) : ℚ)
      rw [min_eq_left (by linarith), hk]
      rfl

/-- **The active time the upsert adds is the rebuild's summand.** -/
theorem activeMs_eq {a : Arrival} {s : Store} (hkept : EngagementKept a s) :
    activeMillisecondsSql (a.newRow s) = (activeEngagementMilliseconds a.context.env a.event : ℚ) := by
  unfold activeMillisecondsSql activeEngagementMilliseconds
  by_cases hname : a.event.name = "user_engagement"
  · rw [if_pos (show (a.newRow s).eventName = "user_engagement" from hname),
      if_neg (not_not.mpr hname)]
    exact millisecondsOf_readAlike _ (hkept hname)
  · rw [if_neg (show ¬(a.newRow s).eventName = "user_engagement" from hname), if_pos hname]
    rfl

/-! ## §3. One event. -/

/-- The counters a session's group gives, the active time as the exact sum. -/
structure CountersOf (threshold : Nat) (g : List RawEvent) (r : Session) : Prop where
  eventCount : r.eventCount = g.length
  pageViews : r.pageViews = g.countP (fun e => e.eventName = "page_view")
  conversionCount : r.conversionCount = g.countP RawEvent.isConversion
  heartbeatCount : r.heartbeatCount = g.countP (fun e => e.eventName = "user_engagement")
  interactionCount : r.interactionCount = g.countP (fun e => isInteractionEvent e.eventName)
  activeEngagementMs : (r.activeEngagementMs : ℚ) = (g.map activeMillisecondsSql).sum
  engaged : r.engaged = engagedFlag threshold r.startedAt r.lastEventAt r.conversionCount
    r.pageViews r.activeEngagementMs

/-- **The counter invariant.** -/
def CountersKept (s : Store) : Prop :=
  ∀ k r, s.sessions.lookup k = some r →
    CountersOf (s.config.threshold k.siteId) (s.sessionGroup k) r

section Step
variable (a : Arrival) {s : Store}

/-- The row a session starts with: no span, so the span's clause of the flag is
left out there and costs nothing, the threshold being positive. -/
theorem countersOf_insert {threshold : Nat} (hthreshold : 0 < threshold)
    (hkept : EngagementKept a s) :
    CountersOf threshold [a.newRow s] ((a.touch s).insert threshold) where
  eventCount := rfl
  pageViews := ((Table.countP_cons_toNat _ _ _).trans (Nat.zero_add _)).symm
  conversionCount := ((Table.countP_cons_toNat _ _ _).trans (Nat.zero_add _)).symm
  heartbeatCount := ((Table.countP_cons_toNat _ _ _).trans (Nat.zero_add _)).symm
  interactionCount := ((Table.countP_cons_toNat _ _ _).trans (Nat.zero_add _)).symm
  activeEngagementMs := by
    rw [List.map_cons, List.map_nil, List.sum_cons, List.sum_nil, add_zero, activeMs_eq hkept]
    rfl
  engaged := by
    have hspan : ¬(threshold : Int) * 1000000 ≤ a.eventTime - a.eventTime := by omega
    show decide (_ ∨ _ ∨ _) = decide (_ ∨ _ ∨ _ ∨ _)
    exact decide_eq_decide.mpr ⟨.inr, fun h => h.resolve_left hspan⟩

/-- The row another event leaves. -/
theorem countersOf_update {threshold : Nat} {g : List RawEvent} {r : Session}
    (hkept : EngagementKept a s) (hold : CountersOf threshold g r) :
    CountersOf threshold (a.newRow s :: g) ((a.touch s).update threshold r) where
  eventCount := by
    show r.eventCount + 1 = _
    rw [hold.eventCount, List.length_cons]
  pageViews := by
    rw [Table.countP_cons_toNat, ← hold.pageViews]
    rfl
  conversionCount := by
    rw [Table.countP_cons_toNat, ← hold.conversionCount]
    rfl
  heartbeatCount := by
    rw [Table.countP_cons_toNat, ← hold.heartbeatCount]
    rfl
  interactionCount := by
    rw [Table.countP_cons_toNat, ← hold.interactionCount]
    rfl
  activeEngagementMs := by
    show ((r.activeEngagementMs + activeEngagementMilliseconds a.context.env a.event : ℤ) : ℚ) = _
    rw [List.map_cons, List.sum_cons, activeMs_eq hkept, ← hold.activeEngagementMs]
    push_cast
    ring
  engaged := rfl

/-- **One event keeps the counters**, its heartbeat being read alike. -/
theorem store_countersKept (h : ¬a.Known s) {env : Platform} (harrives : Arrives env a s)
    (ht : SessionTimes s) (hs : CountersKept s) (hkept : EngagementKept a s) :
    CountersKept (a.store s h) := by
  have hconfig : (a.store s h).config = s.config := a.derive_config _
  have hthreshold : 0 < s.config.threshold a.context.siteId := by
    have hset := harrives.settings
    unfold siteSettings at hset
    unfold Config.threshold
    cases hsite : s.config.sites.lookup a.context.siteId with
    | none => simp [hsite] at hset
    | some site => exact site.thresholdChecked.1
  intro k r hr
  rw [hconfig, a.store_sessionGroup]
  rw [a.store_sessions] at hr
  by_cases hk : k = a.sessionKey
  · subst hk
    rw [if_pos rfl] at hr ⊢
    obtain rfl := Option.some.inj hr
    cases hrow : s.sessions.lookup a.sessionKey with
    | none =>
      rw [(ht.lookup_eq_none _).mp hrow]
      exact countersOf_insert a hthreshold hkept
    | some r => exact countersOf_update a hkept (hs _ r hrow)
  · rw [if_neg hk] at hr ⊢
    exact hs k r hr

end Step

/-! ## §4. Runs. -/

/-- The rebuilt counters of a group whose exact sum is known. -/
theorem counters_rebuildSessionRow {threshold : Nat} {g : List RawEvent} {r : Session}
    (hr : CountersOf threshold g r) (hstart : firstTime g = some r.startedAt)
    (hlast : lastTime g = some r.lastEventAt) :
    (rebuildSessionRow threshold g).counters = r.counters := by
  have hsum : activeEngagementSum g = r.activeEngagementMs := by
    unfold activeEngagementSum
    rw [← hr.activeEngagementMs, roundHalfAway_intCast]
  unfold rebuildSessionRow Session.counters
  rw [hstart, hlast, hsum, hr.engaged, hr.eventCount, hr.pageViews, hr.conversionCount,
    hr.heartbeatCount, hr.interactionCount]
  rfl

theorem countersAgree_of_kept {s : Store} (ht : SessionTimes s) (hs : CountersKept s) :
    CountersAgree s := by
  intro k
  have hstart := ht.started k
  have hlast := ht.lastEvent k
  constructor
  · rw [lookup_rebuildSessions]
    cases hrow : s.sessions.lookup k with
    | none => rw [if_pos ((ht.lookup_eq_none k).mp hrow)]
    | some r =>
      have hne : s.sessionGroup k ≠ [] := by
        intro hnil
        rw [(ht.lookup_eq_none k).mpr hnil] at hrow
        simp at hrow
      rw [hrow] at hstart hlast
      rw [if_neg hne]
      exact congrArg some
        (counters_rebuildSessionRow (hs k r hrow) hstart.symm hlast.symm).symm
  · unfold recomputeEngaged
    rw [Table.lookup_modifyRows]
    cases hrow : s.sessions.lookup k with
    | none => rfl
    | some r =>
      have hflag := (hs k r hrow).engaged
      simp only [Option.map_some, if_true, Session.counters, Option.some.injEq,
        SessionCounters.mk.injEq, true_and]
      exact hflag.symm

/-- What a run carries along. -/
structure CountersInvariant (s : Store) : Prop where
  times : SessionTimes s
  kept : CountersKept s

/-- **Session counters agree with their rebuild in every store a run reaches whose
heartbeats are all read alike**; and whatever an event's `active_seconds` is, NaN
excepted, it is worth between nothing and an hour. -/
theorem sessionCounters_rebuilt (env : Platform) (config : Config) (jobs : List Job) :
    (JobsMeet env EngagementKept (Store.initial config) jobs →
        CountersAgree (afterJobs env (Store.initial config) jobs))
      ∧ ∀ event : IncomingEvent,
          secondsReading (propertyOf event.properties "active_seconds") ≠ .nan →
            0 ≤ activeEngagementMilliseconds env event
              ∧ activeEngagementMilliseconds env event ≤ 3600000 := by
  constructor
  · intro hmeet
    have hinv : CountersInvariant (afterJobs env (Store.initial config) jobs) := by
      refine afterJobs_induction ?_ ?_ jobs hmeet ?_
      · intro a s h harrives hs hkept
        exact ⟨a.store_sessionTimes h hs.times, store_countersKept a h harrives hs.times hs.kept hkept⟩
      · intro s key hs
        exact ⟨⟨hs.times.started, hs.times.lastEvent⟩, hs.kept⟩
      · exact ⟨.initial config, fun k r hr => by simp [Store.initial] at hr⟩
    exact countersAgree_of_kept hinv.times hinv.kept
  · intro event hnan
    unfold activeEngagementMilliseconds
    split
    · exact ⟨le_rfl, by norm_num⟩
    · exact millisecondsOf_bounds _ hnan

/-- One heartbeat with the given `active_seconds`. -/
def Sample.heartbeat (seconds : String) : List Job :=
  [Sample.job (Sample.payload "v1" "" [{
      id := Sample.eventId '1', name := "user_engagement", timestamp := Sample.newYear - 1000
      properties := some [("active_seconds", .str seconds)] }])]

/-- A second and a half is read alike. -/
theorem sessionCounters_rebuilt_heartbeat :
    CountersAgree (afterJobs Sample.platform (Store.initial (Sample.config 100))
      (Sample.heartbeat "1.5")) := by
  refine (sessionCounters_rebuilt Sample.platform (Sample.config 100) (Sample.heartbeat "1.5")).1
    ⟨fun _ p timezone limit hp _ => ?_, trivial⟩
  obtain rfl := Except.ok.inj hp
  intro eventId _
  refine ⟨fun _ _ => ?_, trivial⟩
  have hallowed : matchForm Sample.platform "active_seconds"
      ∉ matchSet Sample.platform Policy.default.blockedProperties := by decide +kernel
  have hstored : filteredProperties Sample.platform (some [("active_seconds", .str "1.5")])
      Policy.default.blockedProperties = [("active_seconds", .str "1.5")] := by
    simp [filteredProperties, filterMembers, hallowed, filterNested]
  have hreading : ReadAlike (some (.str "1.5")) (some (.str "1.5")) := by
    have hdecimal : numericText (some (.str "1.5")) = some (3 / 2) := by decide +kernel
    have hworth : WorthMilliseconds 1500 (secondsReading (some (.str "1.5"))) := by decide +kernel
    have hfits : withinNumeric "1.5".toList = true := by decide +kernel
    unfold ReadAlike
    rw [hdecimal]
    exact ⟨hfits, .inr ⟨1500, by norm_num, by norm_num, hworth⟩⟩
  show ReadAlike (some (.str "1.5")) ((filteredProperties Sample.platform
    (some [("active_seconds", .str "1.5")]) Policy.default.blockedProperties).get "active_seconds")
  rw [hstored]
  exact hreading

/-- A thousand seconds written with an exponent count in Go only. -/
theorem exponentHeartbeat_not_rebuilt :
    ¬CountersAgree (afterJobs Sample.platform (Store.initial (Sample.config 100))
      (Sample.heartbeat "1e3")) := by
  intro hagree
  have hcounters := congrArg (Option.map SessionCounters.activeEngagementMs)
    (hagree ⟨Sample.siteId, "prd", "s1"⟩).1
  revert hcounters
  decide +kernel

end Momento
