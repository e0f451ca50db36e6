/-
  Momento.Reports.ChannelCounts

  **CONVERSIONS AND PEOPLE OF A CHANNEL.**  The database counts distinct conversions and
  distinct people for every source, medium and site; the report adds these up by channel.
  What it adds up are the distinct pairs of a group and a conversion, or of a group and a
  person: one that two groups of a channel share is counted once for each.
-/
import Momento.Foundation.DistinctCount
import Momento.Reports.Attribution

namespace Momento.Reports

open Foundation

/-! ## §1. Distinct counts. -/

/-- The channel a visit counts in. -/
def PathRow.channel (toLower : String → String) (p : PathRow) : String :=
  classifyChannel toLower p.source p.medium

section
variable {K : Type} [Field K] [LinearOrder K] (toLower : String → String) (half : HalfPower K)
  (rows : List PathRow) (weighting : Weighting)

/-- The conversions with a visit in the channel. -/
def channelConversions (channel : String) : Nat :=
  distinct (fun p : PathRow => p.eventId) (rows.filter fun p => p.channel toLower = channel)

/-- The people with a credited visit in the channel. -/
def channelUsers (channel : String) : Nat :=
  distinct (fun p : PathRow => p.entityId)
    (rows.filter fun p => 0 < weightOf half rows weighting p ∧ p.channel toLower = channel)

/-- **A channel's counts are distinct**, and so no more than all. -/
structure CountsDistinct (c : AttributionChannel K) : Prop where
  touched : c.touchedConversions = channelConversions toLower rows c.channel
  credited : c.creditedUsers = channelUsers toLower half rows weighting c.channel
  attributed : c.touchedConversions ≤ (pathSummary rows).1
  share : c.touchSharePercent ≤ 100

/-- **No two groups of a channel share** a conversion, or a person they credit. -/
structure GroupsApart : Prop where
  touched : ∀ p ∈ rows, ∀ p' ∈ rows, p.eventId = p'.eventId → p.channel toLower = p'.channel toLower →
    p.creditKey = p'.creditKey
  credited : ∀ p ∈ rows, ∀ p' ∈ rows, 0 < weightOf half rows weighting p → 0 < weightOf half rows weighting p' →
    p.entityId = p'.entityId → p.channel toLower = p'.channel toLower → p.creditKey = p'.creditKey

end

/-! ## §2. The loop. -/

section Loop
variable {K : Type} [Field K] {toLower : String → String} {siteId : Uuid}

/-- The channel a group counts in. -/
def CreditKey.channel (toLower : String → String) (key : CreditKey) : String :=
  classifyChannel toLower key.source key.medium

/-- The two counts of a channel; one that is not there counts nothing. -/
def countsOf (c : Option (AttributionChannel K)) : Nat × Nat :=
  c.elim (0, 0) fun c => (c.touchedConversions, c.creditedUsers)

/-- **One turn adds a group's counts to its channel.** -/
theorem countsOf_credit (acc : Credited K) (key : CreditKey) (row : CreditRow K) (channel : String) :
    countsOf ((credit toLower siteId acc key row).channels.lookup channel)
      = countsOf (acc.channels.lookup channel)
        + if key.channel toLower = channel then (row.touchedConvs, row.creditedUsers) else 0 := by
  show countsOf ((acc.channels.upsert (key.channel toLower) _ _).lookup channel) = _
  by_cases hchannel : key.channel toLower = channel
  · subst hchannel
    rw [if_pos rfl, Table.lookup_upsert_self]
    cases acc.channels.lookup (key.channel toLower) with
    | none => rfl
    | some c => rfl
  · rw [if_neg hchannel, Table.lookup_upsert_of_ne (Ne.symm hchannel), add_zero]

/-- A channel's entry names the channel. -/
theorem named_credit {acc : Credited K} (h : acc.channels.Every fun channel c => c.channel = channel)
    (key : CreditKey) (row : CreditRow K) :
    (credit toLower siteId acc key row).channels.Every fun channel c => c.channel = channel := by
  show (acc.channels.upsert (key.channel toLower) _ _).Every _
  exact h.upsert rfl fun c hc => hc

/-- The groups of a channel. -/
def groupsOf (toLower : String → String) (channel : String) (entries : List (Sigma fun _ : CreditKey => CreditRow K)) :
    List (Sigma fun _ : CreditKey => CreditRow K) :=
  entries.filter fun e => e.1.channel toLower = channel

theorem creditAll_counts (rows : Table CreditKey (CreditRow K)) (channel : String) :
    countsOf ((creditAll toLower siteId rows).channels.lookup channel)
        = ((groupsOf toLower channel rows.entries).map fun e => (e.2.touchedConvs, e.2.creditedUsers)).sum := by
  have hloop : ∀ (entries : List (Sigma fun _ : CreditKey => CreditRow K)) (acc : Credited K),
      countsOf ((entries.foldl (fun acc e => credit toLower siteId acc e.1 e.2) acc).channels.lookup channel)
        = countsOf (acc.channels.lookup channel)
          + ((groupsOf toLower channel entries).map fun e => (e.2.touchedConvs, e.2.creditedUsers)).sum := by
    intro entries
    induction entries with
    | nil => intro acc; simp [groupsOf]
    | cons e entries ih =>
      intro acc
      rw [List.foldl_cons, ih, countsOf_credit]
      unfold groupsOf
      by_cases hchannel : e.1.channel toLower = channel
      · simp [hchannel, add_assoc]
      · simp [hchannel]
  refine (hloop rows.entries ⟨∅, ∅, 0, 0⟩).trans ?_
  show (0, 0) + _ = _
  exact zero_add _

theorem creditAll_named (rows : Table CreditKey (CreditRow K)) :
    (creditAll toLower siteId rows).channels.Every fun channel c => c.channel = channel := by
  have hloop : ∀ (entries : List (Sigma fun _ : CreditKey => CreditRow K)) (acc : Credited K),
      (acc.channels.Every fun channel c => c.channel = channel) →
      (entries.foldl (fun acc e => credit toLower siteId acc e.1 e.2) acc).channels.Every
        fun channel c => c.channel = channel := by
    intro entries
    induction entries with
    | nil => exact fun acc h => h
    | cons e entries ih => exact fun acc h => ih _ (named_credit h e.1 e.2)
  exact hloop rows.entries ⟨∅, ∅, 0, 0⟩ Table.every_empty

/-- Every group has the entry of its channel. -/
theorem creditAll_isSome {rows : Table CreditKey (CreditRow K)} {e : Sigma fun _ : CreditKey => CreditRow K}
    (he : e ∈ rows.entries) :
    ((creditAll toLower siteId rows).channels.lookup (e.1.channel toLower)).isSome = true := by
  have hkept : ∀ (acc : Credited K) (e' : Sigma fun _ : CreditKey => CreditRow K) (channel : String),
      e'.1.channel toLower = channel ∨ (acc.channels.lookup channel).isSome = true →
      ((credit toLower siteId acc e'.1 e'.2).channels.lookup channel).isSome = true := by
    intro acc e' channel h
    show ((acc.channels.upsert (e'.1.channel toLower) _ _).lookup channel).isSome = true
    by_cases hchannel : channel = e'.1.channel toLower
    · rw [hchannel, Table.lookup_upsert_self]
      rfl
    · rw [Table.lookup_upsert_of_ne hchannel]
      exact h.resolve_left (Ne.symm hchannel)
  have hloop : ∀ (entries : List (Sigma fun _ : CreditKey => CreditRow K)) (acc : Credited K),
      e ∈ entries ∨ (acc.channels.lookup (e.1.channel toLower)).isSome = true →
      ((entries.foldl (fun acc e => credit toLower siteId acc e.1 e.2) acc).channels.lookup
        (e.1.channel toLower)).isSome = true := by
    intro entries
    induction entries with
    | nil => exact fun acc h => h.resolve_left List.not_mem_nil
    | cons e' entries ih =>
      intro acc h
      rw [List.foldl_cons]
      apply ih
      cases h with
      | inl hmem =>
        cases List.mem_cons.mp hmem with
        | inl heq =>
          right
          exact hkept acc e' _ (Or.inl (by rw [heq]))
        | inr hmem => exact Or.inl hmem
      | inr hsome => exact Or.inr (hkept acc e' _ (Or.inr hsome))
  exact hloop rows.entries ⟨∅, ∅, 0, 0⟩ (Or.inl he)

end Loop

/-! ## §3. What the loop has of a channel. -/

section Counts
variable {K : Type} [Field K] [LinearOrder K] {toLower : String → String} {half : HalfPower K}
  {rows : List PathRow} {weighting : Weighting}

/-- The rows of a channel that pass a test, in groups: their distinct values sum to the
distinct pairs of group and value. -/
theorem sum_distinct_channel {α : Type} [DecidableEq α] (f : PathRow → α) (keep : PathRow → Prop)
    [DecidablePred keep] (channel : String) :
    (((rows.map PathRow.creditKey).dedup.filter fun k => k.channel toLower = channel).map fun k =>
        distinct f ((Table.groupOf PathRow.creditKey rows k).filter fun p => keep p)).sum
      = distinct (fun p => (p.creditKey, f p))
          (rows.filter fun p => keep p ∧ p.channel toLower = channel) := by
  have hnodup : ((rows.map PathRow.creditKey).dedup.filter fun k =>
      decide (k.channel toLower = channel)).Nodup := (List.nodup_dedup _).filter _
  have hkeys : ∀ p ∈ rows.filter (fun p => keep p ∧ p.channel toLower = channel),
      p.creditKey ∈ (rows.map PathRow.creditKey).dedup.filter fun k => decide (k.channel toLower = channel) := by
    intro p hp
    obtain ⟨hmem, hkept⟩ := List.mem_filter.mp hp
    refine List.mem_filter.mpr ⟨List.mem_dedup.mpr (List.mem_map_of_mem hmem), ?_⟩
    exact decide_eq_true (of_decide_eq_true hkept).2
  rw [← sum_distinct_groups hnodup hkeys]
  congr 1
  refine List.map_congr_left fun k hk => ?_
  have hchannel : k.channel toLower = channel := of_decide_eq_true (List.mem_filter.mp hk).2
  congr 1
  -- a group has one channel
  unfold Table.groupOf
  rw [List.filter_filter, List.filter_filter]
  refine List.filter_congr fun p _ => ?_
  by_cases hkey : p.creditKey = k
  · have hp : p.channel toLower = channel := by
      rw [← hchannel, ← hkey]
      rfl
    simp [hkey, hp]
  · simp [hkey]

/-- **What the loop has of a channel**: the distinct pairs of a group and a conversion,
and of a group and a person it credits. -/
theorem countsOf_creditRows (siteId : Uuid) (channel : String) :
    countsOf ((creditAll toLower siteId (creditRows half rows weighting)).channels.lookup channel)
      = (distinct (fun p => (p.creditKey, p.eventId)) (rows.filter fun p => p.channel toLower = channel),
        distinct (fun p => (p.creditKey, p.entityId))
          (rows.filter fun p => 0 < weightOf half rows weighting p ∧ p.channel toLower = channel)) := by
  have hpairs : ∀ l : List (Nat × Nat), l.sum = ((l.map Prod.fst).sum, (l.map Prod.snd).sum) := by
    intro l
    induction l with
    | nil => rfl
    | cons x l ih =>
      rw [List.sum_cons, ih]
      rfl
  have hentries : groupsOf toLower channel (creditRows half rows weighting).entries
      = ((rows.map PathRow.creditKey).dedup.filter fun k => k.channel toLower = channel).map fun k =>
          ⟨k, { creditedConversions := ((Table.groupOf PathRow.creditKey rows k).map
                  (weightOf half rows weighting)).sum
                creditedEvents := distinct (fun p => p.eventId)
                  ((Table.groupOf PathRow.creditKey rows k).filter fun p => 0 < weightOf half rows weighting p)
                creditedUsers := distinct (fun p => p.entityId)
                  ((Table.groupOf PathRow.creditKey rows k).filter fun p => 0 < weightOf half rows weighting p)
                touchedConvs := distinct (fun p => p.eventId) (Table.groupOf PathRow.creditKey rows k) }⟩ := by
    unfold groupsOf
    show List.filter _ (List.map _ _) = _
    rw [List.filter_map]
    rfl
  rw [creditAll_counts, hpairs, hentries]
  simp only [List.map_map, Function.comp_def]
  rw [sum_distinct_channel (fun p => p.entityId) (fun p => 0 < weightOf half rows weighting p) channel]
  have htouched := @sum_distinct_channel toLower rows _ _ (fun p => p.eventId) (fun _ => True) _ channel
  simp only [decide_true, List.filter_true, true_and] at htouched
  rw [htouched]

/-- The entry of a channel counts the distinct pairs. -/
theorem countsOf_entry {siteId : Uuid} {channel : String} {c : AttributionChannel K}
    (hc : (creditAll toLower siteId (creditRows half rows weighting)).channels.lookup channel = some c) :
    c.touchedConversions
        = distinct (fun p => (p.creditKey, p.eventId)) (rows.filter fun p => p.channel toLower = channel)
      ∧ c.creditedUsers = distinct (fun p => (p.creditKey, p.entityId))
          (rows.filter fun p => 0 < weightOf half rows weighting p ∧ p.channel toLower = channel) := by
  have hcounts := @countsOf_creditRows K _ _ toLower half rows weighting siteId channel
  rw [hc] at hcounts
  exact Prod.ext_iff.mp hcounts

/-- A row's channel has an entry. -/
theorem exists_entry {p : PathRow} (siteId : Uuid) (hp : p ∈ rows) :
    ∃ c, (creditAll toLower siteId (creditRows half rows weighting)).channels.lookup (p.channel toLower) = some c := by
  have hkeys : (creditRows half rows weighting).keys = (rows.map PathRow.creditKey).dedup := by
    show List.map Sigma.fst (List.map _ _) = _
    rw [List.map_map]
    exact List.map_id _
  have hmem : p.creditKey ∈ (creditRows half rows weighting).keys := by
    rw [hkeys]
    exact List.mem_dedup.mpr (List.mem_map_of_mem hp)
  obtain ⟨e, he, hkey⟩ := List.mem_map.mp hmem
  have hchannel : p.channel toLower = e.1.channel toLower := by
    rw [hkey]
    rfl
  rw [hchannel]
  exact Option.isSome_iff_exists.mp (creditAll_isSome he)

end Counts

/-! ## §4. Where the counts are distinct. -/

section
variable {K : Type} [Field K] [LinearOrder K] [FloorRing K] (toLower : String → String) (half : HalfPower K)
  (rows : List PathRow) (weighting : Weighting)

/-- **The channels count distinct conversions and people where no two groups of one
share any**, and nowhere else. -/
theorem channels_distinct_iff (siteId : Uuid) :
    (∀ e ∈ (creditAll toLower siteId (creditRows half rows weighting)).channels.entries,
        CountsDistinct toLower half rows weighting
          (finishChannel (creditAll toLower siteId (creditRows half rows weighting)).attributed
            (pathSummary rows).1 e.2))
      ↔ GroupsApart toLower half rows weighting := by
  constructor
  · intro h
    have hentry : ∀ p ∈ rows, ∃ c,
        (creditAll toLower siteId (creditRows half rows weighting)).channels.lookup (p.channel toLower) = some c
          ∧ c.touchedConversions = channelConversions toLower rows (p.channel toLower)
          ∧ c.creditedUsers = channelUsers toLower half rows weighting (p.channel toLower) := by
      intro p hp
      obtain ⟨c, hc⟩ := @exists_entry K _ _ toLower half rows weighting p siteId hp
      have hname : c.channel = p.channel toLower := creditAll_named _ _ _ hc
      have hdistinct := h ⟨_, c⟩ (AList.mem_lookup_iff.mp hc)
      refine ⟨c, hc, ?_, ?_⟩
      · rw [← hname]
        exact hdistinct.touched
      · rw [← hname]
        exact hdistinct.credited
    constructor
    · intro p hp p' hp' hevent hchannel
      obtain ⟨c, hc, htouched, -⟩ := hentry p hp
      rw [(countsOf_entry hc).1] at htouched
      exact distinct_pair_eq_iff.mp htouched p (List.mem_filter.mpr ⟨hp, decide_eq_true rfl⟩)
        p' (List.mem_filter.mpr ⟨hp', decide_eq_true hchannel.symm⟩) hevent
    · intro p hp p' hp' hpos hpos' hentity hchannel
      obtain ⟨c, hc, -, hcredited⟩ := hentry p hp
      rw [(countsOf_entry hc).2] at hcredited
      exact distinct_pair_eq_iff.mp hcredited p (List.mem_filter.mpr ⟨hp, decide_eq_true ⟨hpos, rfl⟩⟩)
        p' (List.mem_filter.mpr ⟨hp', decide_eq_true ⟨hpos', hchannel.symm⟩⟩) hentity
  · intro h e he
    have hc := AList.mem_lookup_iff.mpr he
    have hname : e.2.channel = e.1 := creditAll_named _ _ _ hc
    obtain ⟨htouched, hcredited⟩ := countsOf_entry hc
    have hdistinct : e.2.touchedConversions = channelConversions toLower rows e.1 := by
      rw [htouched]
      refine distinct_pair_eq_iff.mpr fun p hp p' hp' hevent => ?_
      obtain ⟨hmem, hchannel⟩ := List.mem_filter.mp hp
      obtain ⟨hmem', hchannel'⟩ := List.mem_filter.mp hp'
      exact h.touched p hmem p' hmem' hevent
        ((of_decide_eq_true hchannel).trans (of_decide_eq_true hchannel').symm)
    have hall : e.2.touchedConversions ≤ (pathSummary rows).1 := by
      rw [hdistinct, pathSummary_fst]
      exact distinct_le_of_subset fun p hp => (List.mem_filter.mp hp).1
    constructor
    · show e.2.touchedConversions = channelConversions toLower rows e.2.channel
      rw [hname]
      exact hdistinct
    · show e.2.creditedUsers = channelUsers toLower half rows weighting e.2.channel
      rw [hname, hcredited]
      refine distinct_pair_eq_iff.mpr fun p hp p' hp' hentity => ?_
      obtain ⟨hmem, hkept⟩ := List.mem_filter.mp hp
      obtain ⟨hmem', hkept'⟩ := List.mem_filter.mp hp'
      obtain ⟨hpos, hchannel⟩ := of_decide_eq_true hkept
      obtain ⟨hpos', hchannel'⟩ := of_decide_eq_true hkept'
      exact h.credited p hmem p' hmem' hpos hpos' hentity (hchannel.trans hchannel'.symm)
    · exact hall
    · exact exactPercent_le hall

end

/-! ## §5. The report. -/

section
variable {K : Type} [Field K] [LinearOrder K] [FloorRing K]

/-- No conversions, no paths. -/
theorem path_eq_nil {server : Server} {query : AttributionQuery} {s : Store} (h : conversions query s = [])
    (lookback : Nat) (touchSites : List Uuid) : path server (joined server query lookback touchSites s) = [] := by
  unfold path joined
  rw [h]
  rfl

/-- **What a report says of a channel** that a visit counts in. -/
theorem attribution_channel (env : Platform) (server : Server) (labels : Uuid → String × String)
    (half : HalfPower K) (query : AttributionQuery) (s : Store) {weighting : Weighting}
    (hmodel : attributionWeight query.model (clampHalfLife query.halfLifeDays) = some weighting)
    {paths : List PathRow}
    (hpaths : paths = path server
      (joined server query.withDefaults query.withDefaults.lookbackDays.toNat query.withDefaults.touchSites s))
    {p : PathRow} (hp : p ∈ paths) :
    ∃ report : AttributionReport K, attribution env server labels half query s = .ok report
      ∧ ∃ c ∈ report.channels, c.channel = p.channel env.toLower
        ∧ c.touchedConversions = distinct (fun p => (p.creditKey, p.eventId))
            (paths.filter fun p' => p'.channel env.toLower = p.channel env.toLower)
        ∧ c.touchSharePercent = exactPercent c.touchedConversions (pathSummary paths).1 := by
  have hsome : ¬ (conversions query.withDefaults s).length = 0 := by
    intro hnone
    rw [hpaths, path_eq_nil (List.length_eq_zero_iff.mp hnone)] at hp
    exact List.not_mem_nil hp
  obtain ⟨c, hc⟩ := @exists_entry K _ _ env.toLower half paths weighting p
    query.withDefaults.siteId hp
  have hname : c.channel = p.channel env.toLower := creditAll_named _ _ _ hc
  simp only [attribution]
  rw [show attributionWeight query.withDefaults.model query.withDefaults.halfLifeDays = some weighting
    from hmodel]
  dsimp only
  rw [if_neg hsome, ← hpaths]
  refine ⟨_, rfl, _, List.mem_mergeSort.mpr (List.mem_map.mpr ⟨⟨_, c⟩, AList.mem_lookup_iff.mp hc, rfl⟩), ?_⟩
  exact ⟨hname, (countsOf_entry hc).1, rfl⟩

/-- **Where a report's counts are distinct.**  The channels of an answered report count
distinct conversions and distinct people, so no more than all and at most every one of
them, exactly where no conversion has visits of two groups of one channel on its path,
and nobody is credited in two. -/
theorem attribution_counts_iff (env : Platform) (server : Server) (labels : Uuid → String × String)
    (half : HalfPower K) (query : AttributionQuery) (s : Store) {weighting : Weighting}
    (hmodel : attributionWeight query.model (clampHalfLife query.halfLifeDays) = some weighting) :
    let q := query.withDefaults
    let paths := path server (joined server q q.lookbackDays.toNat q.touchSites s)
    ∃ report : AttributionReport K, attribution env server labels half query s = .ok report
      ∧ ((∀ c ∈ report.channels, CountsDistinct env.toLower half paths weighting c)
        ↔ GroupsApart env.toLower half paths weighting) := by
  intro q paths
  simp only [attribution]
  rw [show attributionWeight query.withDefaults.model query.withDefaults.halfLifeDays = some weighting
    from hmodel]
  dsimp only
  by_cases hnone : (conversions q s).length = 0
  · -- answered before the loop, with no channel
    rw [if_pos hnone]
    have hpaths : paths = [] := path_eq_nil (List.length_eq_zero_iff.mp hnone) _ _
    refine ⟨_, rfl, ?_, ?_⟩
    · intro _
      rw [hpaths]
      constructor
      · intro p hp
        exact absurd hp List.not_mem_nil
      · intro p hp
        exact absurd hp List.not_mem_nil
    · intro _ c hc
      exact absurd hc List.not_mem_nil
  · rw [if_neg hnone]
    refine ⟨_, rfl, Iff.trans ?_ (channels_distinct_iff env.toLower half paths weighting q.siteId)⟩
    constructor
    · intro h e he
      exact h _ (List.mem_mergeSort.mpr (List.mem_map.mpr ⟨e, he, rfl⟩))
    · intro h c hc
      obtain ⟨e, he, heq⟩ := List.mem_map.mp (List.mem_mergeSort.mp hc)
      rw [← heq]
      exact h e he

end

namespace AttributionSample

/-- A second visit of the same person, from another search page, in the same hour. -/
def twoSearches : Store :=
  { visited with
    sessions := visited.sessions.insert ⟨Sample.siteId, "prd", "t"⟩ (laterVisit 60000000 "naver" "organic") }

end AttributionSample

open AttributionSample in
/-- A conversion with three visits of two groups, each in a channel of its own: both
channels count one conversion and one person. -/
theorem attribution_counts_iff_visited :
    ((path server (joined server query.withDefaults 30 [Sample.siteId] severalVisits)).map
        (PathRow.channel Sample.platform.toLower)).dedup.length = 2
      ∧ ∃ report : AttributionReport ℝ,
        attribution Sample.platform server (fun _ => ("site", "Site")) realHalfPower query severalVisits = .ok report
          ∧ ∀ c ∈ report.channels, CountsDistinct Sample.platform.toLower realHalfPower
            (path server (joined server query.withDefaults 30 [Sample.siteId] severalVisits)) (.timeDecay 7) c := by
  refine ⟨by decide +kernel, ?_⟩
  obtain ⟨report, hreport, hiff⟩ :=
    attribution_counts_iff Sample.platform server (fun _ => ("site", "Site")) realHalfPower query severalVisits
      (show attributionWeight query.model (clampHalfLife query.halfLifeDays) = some (.timeDecay 7) from rfl)
  have happart : ∀ p ∈ path server (joined server query.withDefaults 30 [Sample.siteId] severalVisits),
      ∀ p' ∈ path server (joined server query.withDefaults 30 [Sample.siteId] severalVisits),
        p.channel Sample.platform.toLower = p'.channel Sample.platform.toLower → p.creditKey = p'.creditKey := by
    decide +kernel
  refine ⟨report, hreport, hiff.mpr ⟨?_, ?_⟩⟩
  · intro p hp p' hp' _ hchannel
    exact happart p hp p' hp' hchannel
  · intro p hp p' hp' _ _ _ hchannel
    exact happart p hp p' hp' hchannel

open AttributionSample in
/-- **One conversion is counted twice.**  A person comes from one search page, then from
another, and converts: the search channel has touched two conversions of one, two hundred
percent of them, and two people of one. -/
theorem twoSearches_counted_twice :
    ∃ report : AttributionReport ℝ,
      attribution Sample.platform server (fun _ => ("site", "Site")) realHalfPower query twoSearches = .ok report
        ∧ ∃ c ∈ report.channels, c.channel = "Organic Search" ∧ c.touchedConversions = 2
          ∧ c.touchSharePercent = 200
          ∧ channelConversions Sample.platform.toLower
              (path server (joined server query.withDefaults 30 [Sample.siteId] twoSearches)) c.channel = 1 := by
  obtain ⟨p, hp, hchannel⟩ : ∃ p ∈ path server (joined server query.withDefaults 30 [Sample.siteId] twoSearches),
      p.channel Sample.platform.toLower = "Organic Search" := by decide +kernel
  obtain ⟨report, hreport, c, hc, hname, htouched, hshare⟩ :=
    attribution_channel Sample.platform server (fun _ => ("site", "Site")) realHalfPower query twoSearches
      (show attributionWeight query.model (clampHalfLife query.halfLifeDays) = some (.timeDecay 7) from rfl)
      (show path server (joined server query.withDefaults 30 [Sample.siteId] twoSearches) = _ from rfl) hp
  rw [hchannel] at hname htouched
  have htwo : c.touchedConversions = 2 := by
    rw [htouched]
    decide +kernel
  refine ⟨report, hreport, c, hc, hname, htwo, ?_, ?_⟩
  · have hone : (pathSummary (path server (joined server query.withDefaults 30 [Sample.siteId] twoSearches))).1 = 1 := by
      decide +kernel
    rw [hshare, htwo, hone]
    norm_num [exactPercent]
  · rw [hname]
    decide +kernel

end Momento.Reports
