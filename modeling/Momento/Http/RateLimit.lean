/-
  Momento.Http.RateLimit

  **THE RATE LIMITER COUNTS WHAT IT SEES.**  A bucket is opened for a key when the key
  is first used in a minute; it counts every call, admitted or not.  When there are
  more than 100000 buckets, those older than the last minute are thrown away.

  A ledger that throws nothing away comes to the same verdicts: a bucket of an earlier
  minute counts for nothing in this one, so it makes no difference whether it is
  still there.
-/
import Momento.Foundation.FixedWindow
import Momento.Foundation.Table

namespace Momento.Http

open Foundation FixedWindow

/-! ## §1. The limiter. -/

/-- `rateBucket`. -/
structure RateBucket where
  minute : Int
  count : Nat

/-- `RateLimiter`. -/
structure RateLimiter where
  limit : Int
  buckets : Table String RateBucket

/-- `NewRateLimiter`. -/
def newRateLimiter (limit : Int) : RateLimiter := ⟨limit, ∅⟩

/-- `Unix() / 60`, which cuts towards zero. -/
def minuteOf (unix : Int) : Int := unix.tdiv 60

namespace RateLimiter

variable (l : RateLimiter)

/-- `SetLimit`. -/
def setLimit (limit : Int) : RateLimiter := { l with limit := if limit < 1 then 1 else limit }

/-- `l.buckets[key]`; an absent one is the zero value. -/
def bucket (key : String) : RateBucket := (l.buckets.lookup key).getD ⟨0, 0⟩

/-- `Allow`, at this time of the clock. -/
def allow (key : String) (unix : Int) : RateLimiter × Bool :=
  let minute := minuteOf unix
  let b := l.bucket key
  let b := if b.minute ≠ minute then ⟨minute, 0⟩ else b
  let b := { b with count := b.count + 1 }
  let buckets := l.buckets.insert key b
  let buckets :=
    if 100000 < buckets.entries.length then Table.deleteRows (fun _ v => v.minute < minute - 1) buckets else buckets
  ({ l with buckets := buckets }, decide (b.count ≤ l.limit))

end RateLimiter

/-! ## §2. Runs. -/

/-- A call of one of its methods. -/
inductive Call
  | allow (key : String) (unix : Int)
  | setLimit (limit : Int)

namespace Call

/-- The time the call reads. -/
def now : Call → Option Int
  | allow _ unix => some unix
  | setLimit _ => none

/-- The call uses this key, or none. -/
def concerns (key : String) : Call → Bool
  | allow k _ => k = key
  | setLimit _ => true

/-- The call uses this key in this minute. -/
def uses (key : String) (minute : Int) : Call → Bool
  | allow k unix => k = key && minuteOf unix = minute
  | setLimit _ => false

end Call

/-- The clock does not go back. -/
def Nondecreasing (calls : List Call) : Prop := (calls.filterMap Call.now).Pairwise (· ≤ ·)

instance (calls : List Call) : Decidable (Nondecreasing calls) :=
  inferInstanceAs (Decidable (List.Pairwise _ _))

namespace RateLimiter

/-- A call. -/
def step (l : RateLimiter) : Call → RateLimiter
  | .allow key unix => (l.allow key unix).1
  | .setLimit limit => l.setLimit limit

/-- The calls in order. -/
def run (l : RateLimiter) (calls : List Call) : RateLimiter := calls.foldl step l

/-- What `Allow` answered, call by call, and the limit that was in force. -/
def verdicts : RateLimiter → List Call → List (Verdict String Int)
  | _, [] => []
  | l, .allow key unix :: calls =>
    ⟨key, minuteOf unix, l.limit, (l.allow key unix).2⟩ :: verdicts (l.step (.allow key unix)) calls
  | l, .setLimit limit :: calls => verdicts (l.step (.setLimit limit)) calls

/-- The calls of a key that its bucket counts for a minute. -/
def held (l : RateLimiter) (key : String) (minute : Int) : Nat :=
  if (l.bucket key).minute = minute then (l.bucket key).count else 0

end RateLimiter

/-- The property: within a minute no more calls of a key are allowed than the largest
limit that was in force says; what becomes of the calls of a key depends on them and
the limits alone; and after each call every key's calls of this minute are counted. -/
structure Sound (limit : Int) (calls : List Call) : Prop where
  bounded : ∀ (key : String) (minute : Int) (largest : Nat),
    (∀ v ∈ (newRateLimiter limit).verdicts calls, v.key = key → v.window = minute → v.limit ≤ largest) →
      ((newRateLimiter limit).verdicts calls).countP (Ledger.admits key minute) ≤ largest
  independent : ∀ key : String, ((newRateLimiter limit).verdicts calls).filter (fun v => v.key = key)
    = (newRateLimiter limit).verdicts (calls.filter (Call.concerns key))
  kept : ∀ (before : List Call) (key : String) (unix : Int) (after : List Call),
    calls = before ++ Call.allow key unix :: after →
      ∀ k : String, ((newRateLimiter limit).run (before ++ [Call.allow key unix])).held k (minuteOf unix)
        = (before ++ [Call.allow key unix]).countP (Call.uses k (minuteOf unix))

/-! ## §3. One call. -/

namespace RateLimiter

variable (l : RateLimiter)

theorem minuteOf_mono {s t : Int} (h : s ≤ t) : minuteOf s ≤ minuteOf t := Int.tdiv_le_tdiv (by decide) h

/-- The bucket that `Allow` counts the call in. -/
theorem opened_count (key : String) (minute : Int) :
    (if (l.bucket key).minute ≠ minute then (⟨minute, 0⟩ : RateBucket) else l.bucket key)
      = ⟨minute, l.held key minute⟩ := by
  by_cases h : (l.bucket key).minute = minute
  · rw [if_neg (not_not_intro h), held, if_pos h, ← h]
  · rw [if_pos h, held, if_neg h]

/-- The table after a call, before anything is evicted. -/
def counted (key : String) (minute : Int) : Table String RateBucket :=
  l.buckets.insert key ⟨minute, l.held key minute + 1⟩

theorem allow_eq (key : String) (unix : Int) :
    l.allow key unix =
      (⟨l.limit, if 100000 < (l.counted key (minuteOf unix)).entries.length then
          Table.deleteRows (fun _ v => v.minute < minuteOf unix - 1) (l.counted key (minuteOf unix))
        else l.counted key (minuteOf unix)⟩,
      decide ((l.held key (minuteOf unix) + 1 : Nat) ≤ l.limit)) := by
  unfold allow
  simp only [opened_count]
  rfl

/-- Whether a bucket has the minute that is asked for does not change when older ones
are evicted. -/
theorem held_evicted (buckets : Table String RateBucket) (limit : Int) (k : String) {minute m : Int} (h : minute ≤ m) :
    (⟨limit, Table.deleteRows (fun _ v => v.minute < minute - 1) buckets⟩ : RateLimiter).held k m
      = (⟨limit, buckets⟩ : RateLimiter).held k m := by
  unfold held bucket
  simp only [Table.lookup_deleteRows]
  cases hb : buckets.lookup k with
  | none => rfl
  | some b =>
    by_cases hold : b.minute < minute - 1
    · -- An evicted bucket is of another minute, like the zero one it leaves.
      have hminute : b.minute ≠ m := by omega
      have hgone : (some b).filter (fun v => !decide (v.minute < minute - 1)) = none := by
        simp [Option.filter, hold]
      simp only [hgone, Option.getD_none, Option.getD_some, if_neg hminute]
      split <;> rfl
    · have hstays : (some b).filter (fun v => !decide (v.minute < minute - 1)) = some b := by
        simp [Option.filter, hold]
      simp only [hstays]

theorem held_counted (key : String) (minute : Int) (k : String) (m : Int) (limit : Int) :
    (⟨limit, l.counted key minute⟩ : RateLimiter).held k m
      = if k = key then (if minute = m then l.held key minute + 1 else 0) else l.held k m := by
  unfold held bucket counted
  by_cases hk : k = key
  · rw [if_pos hk, hk, AList.lookup_insert]
    rfl
  · rw [if_neg hk, AList.lookup_insert_ne hk]

/-- **What a call does to the counts**, from its minute on. -/
theorem held_allow (key : String) (unix : Int) (k : String) {m : Int} (h : minuteOf unix ≤ m) :
    (l.step (.allow key unix)).held k m
      = if k = key then (if minuteOf unix = m then l.held key (minuteOf unix) + 1 else 0) else l.held k m := by
  rw [step, allow_eq]
  by_cases hfull : 100000 < (l.counted key (minuteOf unix)).entries.length
  · rw [if_pos hfull, held_evicted _ _ _ h, held_counted]
  · rw [if_neg hfull, held_counted]

end RateLimiter

/-! ## §4. The ledger. -/

/-- What a call is to a ledger. -/
def Call.action : Call → FixedWindow.Action String Int
  | .allow key unix => .request key (minuteOf unix)
  | .setLimit limit => .limit (if limit < 1 then 1 else limit)

/-- The limiter has the ledger's counts, from this minute on; the ledger has nothing of
later ones. -/
structure Follows (l : RateLimiter) (g : Ledger String Int) (minute : Int) : Prop where
  limit : l.limit = g.limit
  held : ∀ k m, minute ≤ m → l.held k m = g.count k m
  later : ∀ k m, minute < m → g.count k m = 0

namespace Follows

variable {l : RateLimiter} {g : Ledger String Int} {minute : Int}

theorem initial (limit minute : Int) : Follows (newRateLimiter limit) ⟨limit, []⟩ minute where
  limit := rfl
  held := by
    intro k m _
    -- No bucket is the zero one, which counts nothing for any minute.
    show (if (0 : Int) = m then 0 else 0) = 0
    exact ite_self 0
  later := fun _ _ _ => rfl

theorem setLimit (h : Follows l g minute) (limit : Int) :
    Follows (l.step (.setLimit limit)) (g.step (Call.action (.setLimit limit))) minute where
  limit := rfl
  held := h.held
  later := h.later

theorem allow (h : Follows l g minute) (key : String) {unix : Int} (hnow : minute ≤ minuteOf unix) :
    Follows (l.step (.allow key unix)) (g.step (Call.action (.allow key unix))) (minuteOf unix) where
  limit := by
    rw [RateLimiter.step, RateLimiter.allow_eq]
    exact h.limit
  held := by
    intro k m hm
    rw [RateLimiter.held_allow l key unix k hm, Call.action, Ledger.count_request]
    by_cases hk : k = key
    · by_cases hsame : minuteOf unix = m
      · rw [if_pos hk, if_pos hsame, h.held key _ hnow, if_pos (by rw [hk, hsame]), hk, hsame]
      · -- The bucket has another minute; nothing was requested in this one yet.
        have hlater : g.count k m = 0 := h.later k m (by omega)
        rw [if_pos hk, if_neg hsame, if_neg (by simp [hsame]), hlater]
    · rw [if_neg hk, if_neg (by simp [Ne.symm hk]), h.held k m (by omega), Nat.add_zero]
  later := by
    intro k m hm
    rw [Call.action, Ledger.count_request, h.later k m (by omega), if_neg]
    intro hsame
    have hminute : minuteOf unix = m := (Prod.mk.inj hsame).2
    omega

/-- What a call is answered. -/
theorem verdict (h : Follows l g minute) (key : String) {unix : Int} (hnow : minute ≤ minuteOf unix) :
    (⟨key, minuteOf unix, l.limit, (l.allow key unix).2⟩ : Verdict String Int) = g.verdict key (minuteOf unix) := by
  rw [RateLimiter.allow_eq, Ledger.verdict, h.limit, h.held key _ hnow]

end Follows

theorem Nondecreasing.tail {c : Call} {calls : List Call} (h : Nondecreasing (c :: calls)) : Nondecreasing calls := by
  unfold Nondecreasing at h
  cases c with
  | allow key unix => exact (List.pairwise_cons.mp h).2
  | setLimit limit => exact h

/-- No call is made before this minute. -/
def From (minute : Int) (calls : List Call) : Prop := ∀ unix ∈ calls.filterMap Call.now, minute ≤ minuteOf unix

theorem Nondecreasing.from_head {key : String} {unix : Int} {calls : List Call}
    (h : Nondecreasing (.allow key unix :: calls)) : From (minuteOf unix) calls :=
  fun _ hlater => RateLimiter.minuteOf_mono ((List.pairwise_cons.mp h).1 _ hlater)

/-- The minute of the first call there is. -/
theorem exists_from {calls : List Call} (h : Nondecreasing calls) : ∃ minute, From minute calls := by
  induction calls with
  | nil => exact ⟨0, fun _ hnone => absurd hnone List.not_mem_nil⟩
  | cons c calls ih =>
    cases c with
    | setLimit limit => exact ih h
    | allow key unix =>
      refine ⟨minuteOf unix, ?_⟩
      intro t ht
      obtain rfl | hlater := List.mem_cons.mp ht
      · exact le_refl _
      · exact h.from_head t hlater

/-- **Call by call, the limiter answers what the ledger says**, and it follows it to the
end: from the minute of the last call on. -/
theorem follows_run (calls : List Call) : ∀ {l : RateLimiter} {g : Ledger String Int} {minute : Int},
    Follows l g minute → Nondecreasing calls → From minute calls →
      l.verdicts calls = g.verdicts (calls.map Call.action)
        ∧ ∃ last, Follows (l.run calls) (g.run (calls.map Call.action)) last
            ∧ (last = minute ∨ ∃ unix ∈ calls.filterMap Call.now, last = minuteOf unix) := by
  induction calls with
  | nil =>
    intro l g minute h _ _
    exact ⟨rfl, minute, h, .inl rfl⟩
  | cons c calls ih =>
    intro l g minute h hclock hfrom
    cases c with
    | setLimit limit => exact ih (h.setLimit limit) hclock.tail hfrom
    | allow key unix =>
      have hnow : minute ≤ minuteOf unix := hfrom unix List.mem_cons_self
      obtain ⟨hverdicts, last, hlast, hcalled⟩ := ih (h.allow key hnow) hclock.tail hclock.from_head
      refine ⟨?_, last, hlast, .inr ?_⟩
      · show _ :: _ = g.verdict key (minuteOf unix) :: (g.step (Call.action (.allow key unix))).verdicts _
        rw [h.verdict key hnow, hverdicts]
      · obtain hfirst | ⟨t, ht, hlater⟩ := hcalled
        · exact ⟨unix, List.mem_cons_self, hfirst⟩
        · exact ⟨t, List.mem_cons_of_mem _ ht, hlater⟩

/-- The limiter's verdicts are the ledger's. -/
theorem verdicts_eq (limit : Int) {calls : List Call} (h : Nondecreasing calls) :
    (newRateLimiter limit).verdicts calls = (⟨limit, []⟩ : Ledger String Int).verdicts (calls.map Call.action) := by
  obtain ⟨minute, hfrom⟩ := exists_from h
  exact (follows_run calls (Follows.initial limit minute) h hfrom).1

/-- What the ledger counts are the calls. -/
theorem count_run (key : String) (minute : Int) (calls : List Call) : ∀ g : Ledger String Int,
    (g.run (calls.map Call.action)).count key minute = g.count key minute + calls.countP (Call.uses key minute) := by
  induction calls with
  | nil => intro g; rfl
  | cons c calls ih =>
    intro g
    show ((g.step c.action).run (calls.map Call.action)).count key minute = _
    rw [ih, List.countP_cons]
    cases c with
    | setLimit limit => rfl
    | allow k unix =>
      rw [Call.action, Ledger.count_request]
      have huses : Call.uses key minute (.allow k unix) = true ↔ (k, minuteOf unix) = (key, minute) := by
        rw [Call.uses, Bool.and_eq_true, decide_eq_true_eq, decide_eq_true_eq, Prod.mk.injEq]
      by_cases hsame : (k, minuteOf unix) = (key, minute)
      · rw [if_pos hsame, if_pos (huses.mpr hsame)]
        omega
      · rw [if_neg hsame, if_neg (mt huses.mp hsame)]
        omega

/-! ## §5. The three together. -/

theorem action_concerns (key : String) (c : Call) : Ledger.concerns key c.action = c.concerns key := by
  cases c <;> rfl

theorem Nondecreasing.filter {calls : List Call} (h : Nondecreasing calls) (p : Call → Bool) :
    Nondecreasing (calls.filter p) := List.Pairwise.sublist (List.filter_sublist.filterMap _) h

/-- **The rate limiter is sound.** -/
theorem rateLimiter_sound (limit : Int) (calls : List Call) (h : Nondecreasing calls) : Sound limit calls where
  bounded := by
    intro key minute largest hlargest
    rw [verdicts_eq limit h] at hlargest ⊢
    exact Ledger.admitted_le _ key minute _ hlargest
  independent := by
    intro key
    have hfilter : (calls.map Call.action).filter (Ledger.concerns key)
        = (calls.filter (Call.concerns key)).map Call.action := by
      rw [List.filter_map]
      exact congrArg _ (List.filter_congr fun c _ => action_concerns key c)
    rw [verdicts_eq limit h, verdicts_eq limit (h.filter _), Ledger.verdicts_only, hfilter]
    rfl
  kept := by
    intro before key unix after hsplit k
    obtain ⟨minute, hfrom⟩ := exists_from h
    obtain ⟨hbefore, -, horder⟩ : Nondecreasing before ∧ Nondecreasing (.allow key unix :: after)
        ∧ ∀ t ∈ before.filterMap Call.now, t ≤ unix := by
      rw [hsplit, Nondecreasing, List.filterMap_append] at h
      obtain ⟨hb, ha, hba⟩ := List.pairwise_append.mp h
      exact ⟨hb, ha, fun t ht => hba t ht unix List.mem_cons_self⟩
    have hnow : ∀ t ∈ before.filterMap Call.now ++ [unix], minute ≤ minuteOf t := by
      intro t ht
      refine hfrom t ?_
      rw [hsplit, List.filterMap_append]
      obtain hold | hlast := List.mem_append.mp ht
      · exact List.mem_append_left _ hold
      · exact List.mem_append_right _ (List.mem_singleton.mp hlast ▸ List.mem_cons_self)
    -- Up to the call the limiter follows the ledger from a minute that has begun.
    obtain ⟨-, last, hfollows, hcalled⟩ := follows_run before (Follows.initial limit minute) hbefore
      fun t ht => hnow t (List.mem_append_left _ ht)
    have hbegun : last ≤ minuteOf unix := by
      obtain rfl | ⟨t, ht, rfl⟩ := hcalled
      · exact hnow unix (List.mem_append_right _ List.mem_cons_self)
      · exact RateLimiter.minuteOf_mono (horder t ht)
    have hafter := (hfollows.allow key hbegun).held k (minuteOf unix) (le_refl _)
    have hrun : (newRateLimiter limit).run (before ++ [Call.allow key unix])
        = ((newRateLimiter limit).run before).step (.allow key unix) := List.foldl_concat ..
    have hledger : ((⟨limit, []⟩ : Ledger String Int).run (before.map Call.action)).step (Call.action (.allow key unix))
        = (⟨limit, []⟩ : Ledger String Int).run ((before ++ [Call.allow key unix]).map Call.action) := by
      rw [List.map_append]
      exact (List.foldl_concat ..).symm
    rw [hrun, hafter, hledger, count_run]
    exact Nat.zero_add _

/-- Two clients, and a limit that changes within the minute. -/
theorem rateLimiter_sound_twoClients :
    Sound 2 [.allow "client" 60, .allow "other" 61, .setLimit 1, .allow "client" 119, .allow "client" 120] :=
  rateLimiter_sound 2 _ (by decide)

end Momento.Http
