/-
  Momento.Service.RebuildBooks

  **WHAT A WORKER AND A REBUILD KEEP TRUE**, each on its own, between two of its
  steps (`Sound`).  Of a worker, that it has counted what it has stored; of a
  rebuild, that it has emptied the days it holds and then refills them.

      Booked      — counted + about to be counted = stored, on every day
      Refilled    — in place + still to be put in place = the day's stored events
      Beside      — a rebuild that leaves the zones alone holds days that have rows
      ZoneChange  — the lock on the site, then every row of it deleted, then every
                    day of it filled by the new zone
-/
import Momento.Service.Interleaving
import Momento.Service.RollupRetention

namespace Momento.Interleaving

open Foundation
open Momento.Rollup (countersOf countersAt countersOf_nil countersOf_cons counters_of_rebuilt)

/-! ## §1. Counting the rows of a table under writes. -/

/-- `sites`: the zones. -/
abbrev SiteTable : Type := Table Uuid (Held String)

/-- `raw_events`. -/
abbrev RawTable : Type := Table (Uuid × Uuid) (Held RawEvent)

/-- `daily_metrics`. -/
abbrev MetricsTable : Type := Table DayKey (Held DailyMetrics)

/-- What a row of metrics counts, and no row. -/
def metricsAt (v : Option (Held DailyMetrics)) : Nat × Nat × Nat := countersAt (v.map Held.row)

section Counting
variable (env : Platform) (zones : Zones)

theorem countersOf_append (rows rows' : List RawEvent) :
    countersOf (rows ++ rows') = countersOf rows + countersOf rows' := by
  unfold countersOf
  rw [List.length_append, List.countP_append, List.countP_append]
  rfl

theorem dayRows_append (rows rows' : List RawEvent) (k : DayKey) :
    dayRows env zones (rows ++ rows') k = dayRows env zones rows k ++ dayRows env zones rows' k := by
  unfold dayRows
  cases zones k.siteId with
  | none => rfl
  | some timezone => exact List.filter_append ..

theorem dayRows_nil (k : DayKey) : dayRows env zones [] k = [] := by
  unfold dayRows
  cases zones k.siteId with
  | none => rfl
  | some timezone => rfl

/-- No rows count nothing. -/
theorem counters_dayRows_nil (k : DayKey) : countersOf (dayRows env zones [] k) = 0 := by
  rw [dayRows_nil]
  rfl

/-- Only the zone of the day's own site matters. -/
theorem dayRows_congr {zones zones' : Zones} {k : DayKey} (h : zones' k.siteId = zones k.siteId)
    (rows : List RawEvent) : dayRows env zones' rows k = dayRows env zones rows k := by
  unfold dayRows
  rw [h]

/-- Events of other sites are not of the day. -/
theorem dayRows_of_other_sites {rows : List RawEvent} {k : DayKey} (h : ∀ r ∈ rows, r.siteId ≠ k.siteId) :
    dayRows env zones rows k = [] := by
  unfold dayRows
  cases zones k.siteId with
  | none => rfl
  | some timezone =>
    refine (Table.groupOf_eq_nil_iff _ _ _).mpr fun hmem => ?_
    obtain ⟨r, hr, hday⟩ := List.mem_map.mp hmem
    exact h r hr (congrArg DayKey.siteId hday)

/-- Any restriction that the rows of a day meet selects them all. -/
theorem lookup_groupRows_filter {keep : RawEvent → Bool} {timezone : String} {k : DayKey}
    (rows : List RawEvent) (hkeep : ∀ r, RawEvent.dayKey env timezone r = k → keep r = true) :
    (Table.groupRows (RawEvent.dayKey env timezone) (fun _ rows => rebuildMetricsRow rows)
        (rows.filter keep)).lookup k
      = if Table.groupOf (RawEvent.dayKey env timezone) rows k = [] then none
        else some (rebuildMetricsRow (Table.groupOf (RawEvent.dayKey env timezone) rows k)) := by
  rw [Table.lookup_groupRows, Table.groupOf_filter hkeep]

theorem siteRows_keeps {timezone : String} {k : DayKey} (r : RawEvent)
    (hr : RawEvent.dayKey env timezone r = k) : decide (r.siteId = k.siteId) = true :=
  decide_eq_true (congrArg DayKey.siteId hr)

/-- A rebuild covers days of its own site. -/
theorem siteId_of_covers {kind : Rebuild} {k : DayKey} (h : kind.covers k = true) : k.siteId = kind.siteId := by
  cases kind with
  | environmentDateRange siteId environment first last => exact (of_decide_eq_true h).1
  | siteDailyAggregates siteId timezone => exact of_decide_eq_true h
  | siteDerivedData siteId => exact of_decide_eq_true h

/-- What a rebuild of a whole site selects for a day of the site. -/
theorem lookup_siteSelect (rows : List RawEvent) (k : DayKey) :
    ((zones k.siteId).elim ∅ fun timezone =>
        Table.groupRows (RawEvent.dayKey env timezone) (fun _ rows => rebuildMetricsRow rows)
          (siteRows k.siteId rows)).lookup k
      = if dayRows env zones rows k = [] then none
        else some (rebuildMetricsRow (dayRows env zones rows k)) := by
  unfold dayRows
  cases zones k.siteId with
  | none => rfl
  | some timezone => exact lookup_groupRows_filter env rows (siteRows_keeps env)

/-- What a rebuild selects for a day it covers. -/
theorem lookup_select (kind : Rebuild) (rows : List RawEvent) {k : DayKey} (h : kind.covers k = true) :
    (kind.select env zones rows).lookup k
      = if dayRows env zones rows k = [] then none
        else some (rebuildMetricsRow (dayRows env zones rows k)) := by
  cases kind with
  | environmentDateRange siteId environment first last =>
    obtain ⟨rfl, rfl, hfirst, hlast⟩ := of_decide_eq_true h
    unfold dayRows
    dsimp only [Rebuild.select]
    cases zones k.siteId with
    | none => rfl
    | some timezone =>
      have hrange : ∀ r, RawEvent.dayKey env timezone r = k →
          decide (r.environment = k.environment
            ∧ first ≤ (r.dayKey env timezone).eventDate
            ∧ (r.dayKey env timezone).eventDate ≤ last) = true := by
        intro r hr
        have henvironment : r.environment = k.environment := congrArg DayKey.environment hr
        rw [hr]
        exact decide_eq_true ⟨henvironment, hfirst, hlast⟩
      show (Table.groupRows _ _ ((siteRows k.siteId rows).filter _)).lookup k = _
      rw [lookup_groupRows_filter env (siteRows k.siteId rows) hrange]
      unfold siteRows
      rw [Table.groupOf_filter (siteRows_keeps env)]
      rfl
  | siteDailyAggregates siteId timezone =>
    obtain rfl := of_decide_eq_true h
    exact lookup_siteSelect env zones rows k
  | siteDerivedData siteId =>
    obtain rfl := of_decide_eq_true h
    exact lookup_siteSelect env zones rows k

/-- And it selects no other day. -/
theorem lookup_select_of_not_covered (kind : Rebuild) (rows : List RawEvent) {k : DayKey}
    (h : kind.covers k = false) : (kind.select env zones rows).lookup k = none := by
  have hgroup : ∀ (timezone : String) (rows : List RawEvent),
      (∀ r ∈ rows, kind.covers (RawEvent.dayKey env timezone r) = true) →
      (Table.groupRows (RawEvent.dayKey env timezone) (fun _ rows => rebuildMetricsRow rows) rows).lookup k
        = none := by
    intro timezone rows hrows
    rw [Table.lookup_groupRows, if_pos]
    refine (Table.groupOf_eq_nil_iff _ _ _).mpr fun hmem => ?_
    obtain ⟨r, hr, rfl⟩ := List.mem_map.mp hmem
    rw [hrows r hr] at h
    cases h
  cases kind with
  | environmentDateRange siteId environment first last =>
    dsimp only [Rebuild.select]
    cases zones siteId with
    | none => rfl
    | some timezone =>
      refine hgroup _ _ fun r hr => ?_
      obtain ⟨hsite, hrange⟩ := List.mem_filter.mp hr
      obtain ⟨henvironment, hfirst, hlast⟩ := of_decide_eq_true hrange
      have hsite : r.siteId = siteId := of_decide_eq_true (List.mem_filter.mp hsite).2
      exact decide_eq_true ⟨hsite, henvironment, hfirst, hlast⟩
  | siteDailyAggregates siteId newTimezone =>
    dsimp only [Rebuild.select]
    cases zones siteId with
    | none => rfl
    | some timezone => exact hgroup _ _ fun r hr => (List.mem_filter.mp hr).2
  | siteDerivedData siteId =>
    dsimp only [Rebuild.select]
    cases zones siteId with
    | none => rfl
    | some timezone => exact hgroup _ _ fun r hr => (List.mem_filter.mp hr).2

/-- **The spec of the rows a rebuild inserts**: they count the rows of the days it
covers, and are on no other day. -/
theorem select_spec {kind : Rebuild} {rows : List RawEvent} {table : Table DayKey DailyMetrics}
    (h : (kind.select env zones rows).collect = .ok table) :
    (∀ k, kind.covers k = true → countersAt (table.lookup k) = countersOf (dayRows env zones rows k))
      ∧ ∀ k ∈ table, kind.covers k = true := by
  have hlookup := Table.lookup_collect h
  refine ⟨fun k hk => ?_, fun k hk => ?_⟩
  · apply counters_of_rebuilt
    rw [← hlookup, lookup_select env zones kind rows hk]
  · obtain ⟨row, hrow⟩ := Option.isSome_iff_exists.mp (AList.lookup_isSome.mpr hk)
    by_contra hnot
    have hsome := hlookup k
    rw [hrow, lookup_select_of_not_covered env zones kind rows (Bool.eq_false_iff.mpr hnot)] at hsome
    cases hsome

/-- The counters of the rows that the writes leave on a day. -/
def written (w : Writes (Uuid × Uuid) RawEvent) (k : DayKey) : Nat × Nat × Nat :=
  countersOf (dayRows env zones (rowsOf (inserted w)) k)

/-- The counters of the stored events of a day. -/
def stored (t : RawTable) (k : DayKey) : Nat × Nat × Nat :=
  countersOf (dayRows env zones (rowsOf t) k)

theorem stored_congr {zones zones' : Zones} {k : DayKey} (h : zones' k.siteId = zones k.siteId)
    (t : RawTable) : stored env zones' t k = stored env zones t k :=
  congrArg countersOf (dayRows_congr env h _)

theorem written_congr {zones zones' : Zones} {k : DayKey} (h : zones' k.siteId = zones k.siteId)
    (w : Writes (Uuid × Uuid) RawEvent) : written env zones' w k = written env zones w k :=
  congrArg countersOf (dayRows_congr env h _)

theorem rowsOf_overlay {w : Writes (Uuid × Uuid) RawEvent} {t : RawTable} (h : ∀ k ∈ w, k ∉ t) :
    rowsOf (overlay w t) = rowsOf (inserted w) ++ rowsOf t := by
  unfold rowsOf
  rw [entries_overlay_fresh h, List.map_append]

/-- New rows add what they count. -/
theorem stored_overlay {w : Writes (Uuid × Uuid) RawEvent} {t : RawTable} (h : ∀ k ∈ w, k ∉ t)
    (k : DayKey) : stored env zones (overlay w t) k = written env zones w k + stored env zones t k := by
  unfold stored written
  rw [rowsOf_overlay h, dayRows_append, countersOf_append]

/-- Writes of no row leave the table as it is. -/
theorem rowsOf_overlay_empty (t : RawTable) : rowsOf (overlay ∅ t) = rowsOf t :=
  rowsOf_overlay fun k hk => absurd hk (AList.notMem_empty k)

theorem written_empty (k : DayKey) : written env zones ∅ k = 0 := by
  unfold written
  rw [show rowsOf (inserted (∅ : Writes (Uuid × Uuid) RawEvent)) = [] from rfl, dayRows_nil]
  rfl

/-- One row more under a new key. -/
theorem written_insert {w : Writes (Uuid × Uuid) RawEvent} {key : Uuid × Uuid} (birth : Nat)
    (row : RawEvent) (h : key ∉ w) (k : DayKey) :
    written env zones (AList.insert key (some ⟨birth, row⟩) w) k
      = countersOf (dayRows env zones [row] k) + written env zones w k := by
  have hinserted : inserted (AList.insert key (some ⟨birth, row⟩) w)
      = AList.insert key ⟨birth, row⟩ (inserted w) := Table.filterMapRows_insert_fresh rfl h
  have hfresh : key ∉ inserted w := by
    rw [← AList.lookup_isSome, lookup_inserted, AList.lookup_eq_none.mpr h]
    exact Bool.false_ne_true
  have hrows : rowsOf (inserted (AList.insert key (some ⟨birth, row⟩) w))
      = [row] ++ rowsOf (inserted w) := by
    unfold rowsOf
    rw [hinserted, AList.entries_insert_of_notMem hfresh]
    rfl
  unfold written
  rw [hrows, dayRows_append, countersOf_append]

/-- Writes that only insert, each event under its own key. -/
def Keyed (w : Writes (Uuid × Uuid) RawEvent) : Prop :=
  ∀ key v, w.lookup key = some v → ∃ held, v = some held ∧ held.row.uniqueKey = key

theorem keyed_empty : Keyed ∅ := by
  intro key v h
  cases h

theorem Keyed.insert {w : Writes (Uuid × Uuid) RawEvent} (h : Keyed w) (birth : Nat) (row : RawEvent) :
    Keyed (AList.insert row.uniqueKey (some ⟨birth, row⟩) w) := by
  intro key v hv
  by_cases hkey : key = row.uniqueKey
  · subst hkey
    rw [AList.lookup_insert] at hv
    exact ⟨⟨birth, row⟩, (Option.some.inj hv).symm, rfl⟩
  · rw [AList.lookup_insert_ne hkey] at hv
    exact h key v hv

/-- On the days of a site of which nothing was stored nothing is written. -/
theorem Keyed.written_eq_zero {w : Writes (Uuid × Uuid) RawEvent} (h : Keyed w) {k : DayKey}
    (hsite : ∀ key ∈ w, key.1 ≠ k.siteId) : written env zones w k = 0 := by
  unfold written
  rw [dayRows_of_other_sites]
  · exact countersOf_nil
  · intro r hr
    obtain ⟨e, he, rfl⟩ := List.mem_map.mp hr
    have hlookup : (inserted w).lookup e.1 = some e.2 := AList.mem_lookup_iff.mpr he
    rw [lookup_inserted] at hlookup
    have hv : w.lookup e.1 = some (some e.2) := Option.join_eq_some_iff.mp hlookup
    obtain ⟨held, hheld, hkey⟩ := h e.1 _ hv
    obtain rfl := Option.some.inj hheld
    have hmem : e.1 ∈ w := AList.lookup_isSome.mp (by rw [hv]; rfl)
    intro hr
    exact hsite e.1 hmem (by rw [← hkey]; exact hr)

end Counting

/-! ## §2. The invariant. -/

/-- The committed rows of `sites`, `raw_events` and `daily_site_metrics`. -/
structure Committed where
  sites : SiteTable
  raw : RawTable
  metrics : MetricsTable

/-- What a transaction has written in them. -/
structure Own where
  sites : Work Uuid String
  raw : Work (Uuid × Uuid) RawEvent
  metrics : Work DayKey DailyMetrics

/-- The zones of a table of sites. -/
def zonesOf (t : SiteTable) : Zones := fun siteId => (t.lookup siteId).map Held.row

/-- The zones that a transaction with these writes sees. -/
def zonesUnder (w : Writes Uuid String) (t : SiteTable) : Zones :=
  fun siteId => ((w.lookup siteId).getD (t.lookup siteId)).map Held.row

/-- The row a transaction with these writes sees. -/
def seenUnder (w : Writes DayKey DailyMetrics) (t : MetricsTable) (k : DayKey) :
    Option (Held DailyMetrics) := (w.lookup k).getD (t.lookup k)

/-- A transaction that has written nothing. -/
def Own.none : Own := ⟨Work.none, Work.none, Work.none⟩

/-- The rows that a running statement has left to insert. -/
def Doing.left : Doing → Table DayKey DailyMetrics
  | .inserting left => left
  | _ => ∅

/-- Every delete of the metrics comes before the insert, and nothing of the metrics
after it. -/
def InOrder : List Statement → Prop
  | [] => True
  | .setTimezone :: rest | .derived :: rest => InOrder rest
  | .deleteMetrics :: rest => .insertMetrics ∈ rest ∧ InOrder rest
  | .insertMetrics :: rest => ∀ statement ∈ rest, statement = .derived

section Invariant
variable (env : Platform)

/-- **A worker's books**: on every day what it has counted is what it has stored, less
the events it is about to count; and it has counted on days of sites it has stored
events of, and of no others. -/
structure Booked (zones : Zones) (committed : MetricsTable) (metrics : Writes DayKey DailyMetrics)
    (raw : Writes (Uuid × Uuid) RawEvent) (uncounted : List RawEvent) : Prop where
  counts : ∀ k, metricsAt (seenUnder metrics committed k) + countersOf (dayRows env zones uncounted k)
    = metricsAt (committed.lookup k) + written env zones raw k
  keyed : Keyed raw
  backed : ∀ k ∈ metrics, ∃ key ∈ raw, key.1 = k.siteId
  stored : ∀ row ∈ uncounted, row.uniqueKey ∈ raw

/-- A worker at work, and at its savepoint. -/
structure WorkerSound (c : Committed) (o : Own) (uncounted : Option RawEvent) : Prop where
  leavesSites : o.sites.all = ∅
  fresh : ∀ key ∈ o.raw.all, key ∉ c.raw
  booked : Booked env (zonesOf c.sites) c.metrics o.metrics.all o.raw.all uncounted.toList
  saved : Booked env (zonesOf c.sites) c.metrics o.metrics.outer o.raw.outer []

/-- What a rebuild has in place on a day, with what it has still to put there (`left`),
counts the stored events of the day. -/
def Refilled (c : Committed) (o : Own) (left : Table DayKey DailyMetrics) (k : DayKey) : Prop :=
  metricsAt (seenUnder o.metrics.all c.metrics k) + countersAt (left.lookup k)
    = stored env (zonesUnder o.sites.all c.sites) c.raw k

/-- A rebuild before its insert has emptied the days it holds; from there on it
refills them. -/
structure RebuildSound (c : Committed) (o : Own) (kind : Rebuild) (todo : List Statement)
    (doing : Doing) : Prop where
  storesNothing : o.raw.all = ∅
  covered : ∀ k ∈ o.metrics.all, kind.covers k = true
  scanned : ∀ left, doing = .deleting left → ∀ e ∈ left, kind.covers e.1 = true
  selected : ∀ k ∈ doing.left, kind.covers k = true
  inOrder : InOrder todo
  emptied : .insertMetrics ∈ todo →
    doing.left = ∅ ∧ ∀ k ∈ o.metrics.all, seenUnder o.metrics.all c.metrics k = none
  refilling : .insertMetrics ∉ todo → (∀ left, doing ≠ .deleting left)
    ∧ ∀ k ∈ o.metrics.all, Refilled env c o doing.left k

/-- A rebuild that leaves the zones alone holds days that have rows. -/
structure Beside (c : Committed) (o : Own) : Prop where
  leavesSites : o.sites.all = ∅
  present : ∀ k ∈ o.metrics.all, k ∈ c.metrics

/-- The rebuild of a zone change.  It starts with the lock on its site. -/
structure ZoneChange (c : Committed) (o : Own) (siteId : Uuid) (timezone : String)
    (todo : List Statement) (doing : Doing) : Prop where
  waiting : .setTimezone ∈ todo → todo = [.setTimezone, .derived] ++ Rebuild.dailyStatements
    ∧ doing = .idle ∧ o.sites.all = ∅ ∧ o.metrics.all = ∅
  locked : .setTimezone ∉ todo → ∃ birth, o.sites.all = AList.insert siteId (some ⟨birth, timezone⟩) ∅
  /-- Where the site has the zone already, nothing is rebuilt. -/
  unmoved : .setTimezone ∉ todo → zonesOf c.sites siteId = some timezone →
    o.metrics.all = ∅ ∧ doing = .idle ∧ ∀ statement ∈ todo, statement = .derived
  /-- Else every row of the site is deleted, … -/
  cleared : zonesOf c.sites siteId ≠ some timezone → .deleteMetrics ∉ todo →
    ∀ k held, k.siteId = siteId → c.metrics.lookup k = some held →
      k ∈ o.metrics.all ∨ ∃ left, doing = .deleting left ∧ (k, held.birth) ∈ left
  /-- … and every day of the site is filled. -/
  filled : zonesOf c.sites siteId ≠ some timezone → .insertMetrics ∉ todo →
    ∀ k, k.siteId = siteId → Refilled env c o doing.left k

/-- What a rebuild has to do with the zones. -/
def ZoneSound (c : Committed) (o : Own) (kind : Rebuild) (todo : List Statement) (doing : Doing) : Prop :=
  match kind.newZone with
  | none => Beside c o
  | some timezone => ZoneChange env c o kind.siteId timezone todo doing

theorem zoneSound_of_none {c : Committed} {o : Own} {kind : Rebuild} {todo : List Statement} {doing : Doing}
    (h : kind.newZone = none) : ZoneSound env c o kind todo doing ↔ Beside c o := by
  unfold ZoneSound
  rw [h]

theorem zoneSound_of_some {c : Committed} {o : Own} {kind : Rebuild} {todo : List Statement} {doing : Doing}
    {timezone : String} (h : kind.newZone = some timezone) :
    ZoneSound env c o kind todo doing ↔ ZoneChange env c o kind.siteId timezone todo doing := by
  unfold ZoneSound
  rw [h]

/-- **What a step keeps of either**: of a rebuild beside the zones, and of a change of one. -/
theorem ZoneSound.goes {env : Platform} {c c' : Committed} {o o' : Own} {kind : Rebuild} {todo todo' : List Statement}
    {doing doing' : Doing} (h : ZoneSound env c o kind todo doing) (hbeside : Beside c o → Beside c' o')
    (hchange : ∀ timezone, kind.newZone = some timezone →
      ZoneChange env c o kind.siteId timezone todo doing → ZoneChange env c' o' kind.siteId timezone todo' doing') :
    ZoneSound env c' o' kind todo' doing' := by
  cases hnew : kind.newZone with
  | none => exact (zoneSound_of_none env hnew).mpr (hbeside ((zoneSound_of_none env hnew).mp h))
  | some timezone =>
    exact (zoneSound_of_some env hnew).mpr (hchange timezone hnew ((zoneSound_of_some env hnew).mp h))

/-- What is true of a transaction between two steps. -/
def Sound (c : Committed) (o : Own) : Program → Prop
  | .worker _ uncounted => WorkerSound env c o uncounted
  | .rebuild kind todo doing => RebuildSound env c o kind todo doing ∧ ZoneSound env c o kind todo doing

end Invariant

/-! ## §3. One transaction's step. -/

section Seen
variable {committed : MetricsTable} {metrics : Writes DayKey DailyMetrics}

theorem seenUnder_of_not_mem {k : DayKey} (h : k ∉ metrics) :
    seenUnder metrics committed k = committed.lookup k := by
  unfold seenUnder
  rw [AList.lookup_eq_none.mpr h]
  rfl

/-- What a transaction sees under a key it holds is its own. -/
theorem seenUnder_of_mem {committed' : MetricsTable} {k : DayKey} (h : k ∈ metrics) :
    seenUnder metrics committed' k = seenUnder metrics committed k := by
  obtain ⟨v, hv⟩ := Option.isSome_iff_exists.mp (AList.lookup_isSome.mpr h)
  unfold seenUnder
  rw [hv]
  rfl

theorem seenUnder_insert_self (k : DayKey) (v : Option (Held DailyMetrics)) :
    seenUnder (AList.insert k v metrics) committed k = v := by
  unfold seenUnder
  rw [AList.lookup_insert]
  rfl

theorem seenUnder_insert_of_ne {k k' : DayKey} (h : k' ≠ k) (v : Option (Held DailyMetrics)) :
    seenUnder (AList.insert k v metrics) committed k' = seenUnder metrics committed k' := by
  unfold seenUnder
  rw [AList.lookup_insert_ne h]

theorem zonesUnder_empty (t : SiteTable) : zonesUnder ∅ t = zonesOf t := rfl

theorem zonesUnder_insert_self (siteId : Uuid) (held : Held String) (w : Writes Uuid String) (t : SiteTable) :
    zonesUnder (AList.insert siteId (some held) w) t siteId = some held.row := by
  unfold zonesUnder
  rw [AList.lookup_insert]
  rfl

end Seen

section Workers
variable {env : Platform} {zones : Zones} {committed : MetricsTable} {c : Committed} {o : Own}
  {metrics : Writes DayKey DailyMetrics} {raw : Writes (Uuid × Uuid) RawEvent} {uncounted : List RawEvent}

/-- Nothing written, nothing counted. -/
theorem booked_empty : Booked env zones committed ∅ ∅ [] where
  counts k := by
    rw [dayRows_nil, written_empty]
    rfl
  keyed := keyed_empty
  backed k hk := absurd hk (AList.notMem_empty k)
  stored row hrow := absurd hrow List.not_mem_nil

/-- A worker begins. -/
theorem workerSound_begin : WorkerSound env c Own.none none where
  leavesSites := Work.all_none
  fresh key hkey := by
    have hkey : key ∈ (Work.none : Work (Uuid × Uuid) RawEvent).all := hkey
    rw [Work.all_none] at hkey
    exact absurd hkey (AList.notMem_empty key)
  booked := by
    show Booked env _ _ (Work.none : Work DayKey DailyMetrics).all (Work.none : Work _ RawEvent).all []
    rw [Work.all_none, Work.all_none]
    exact booked_empty
  saved := booked_empty

/-- A key that is not seen by a transaction that deletes nothing is new. -/
theorem not_mem_of_seen_none {r : Relation (Uuid × Uuid) RawEvent} {x : Nat} {key : Uuid × Uuid}
    (h : Keyed (r.workOf x).all) (hseen : r.seen x key = none) :
    key ∉ (r.workOf x).all ∧ key ∉ r.committed := by
  unfold Relation.seen at hseen
  cases hwritten : (r.workOf x).all.lookup key with
  | none =>
    rw [hwritten] at hseen
    exact ⟨AList.lookup_eq_none.mp hwritten, AList.lookup_eq_none.mp hseen⟩
  | some v =>
    obtain ⟨held, rfl, -⟩ := h key v hwritten
    rw [hwritten] at hseen
    cases hseen

/-- The event is stored, and has still to be counted. -/
theorem WorkerSound.insertRaw (h : WorkerSound env c o none) {row : RawEvent} (birth : Nat)
    (hown : row.uniqueKey ∉ o.raw.all) (hnew : row.uniqueKey ∉ c.raw) :
    WorkerSound env c { o with raw := o.raw.put row.uniqueKey (some ⟨birth, row⟩) } (some row) where
  leavesSites := h.leavesSites
  fresh key hkey := by
    rw [Work.all_put, AList.mem_insert] at hkey
    rcases hkey with rfl | hold
    · exact hnew
    · exact h.fresh key hold
  booked := by
    rw [Work.all_put]
    refine ⟨fun k => ?_, h.booked.keyed.insert birth row, fun k hk => ?_, fun r hr => ?_⟩
    · have hbefore := h.booked.counts k
      rw [Option.toList_none, counters_dayRows_nil, add_zero] at hbefore
      rw [written_insert env _ birth row hown]
      show metricsAt (seenUnder o.metrics.all c.metrics k) + countersOf (dayRows env _ [row] k) = _
      rw [hbefore]
      abel
    · obtain ⟨key, hkey, hsite⟩ := h.booked.backed k hk
      exact ⟨key, (AList.mem_insert _).mpr (.inr hkey), hsite⟩
    · obtain rfl := List.mem_singleton.mp hr
      exact (AList.mem_insert _).mpr (.inl rfl)
  saved := h.saved

/-- The upsert counts one row more. -/
theorem countedRow_counts {row : RawEvent} {excluded : Numeric} {old : Option DailyMetrics}
    {counted : DailyMetrics} (h : countedRow row excluded old = .ok counted) :
    countersAt (some counted) = countersAt old + countersOf [row] := by
  rw [countersOf_cons, countersOf_nil]
  unfold countedRow at h
  cases old with
  | none =>
    obtain rfl := Except.ok.inj h
    show _ = (0, 0, 0) + _
    rw [show ((0, 0, 0) : Nat × Nat × Nat) = 0 from rfl, zero_add]
    simp only [countersAt, Option.elim_some]
    simp
  | some m =>
    dsimp only at h
    cases hrevenue : storeNumeric24_6 (m.revenue + excluded) with
    | error e =>
      rw [hrevenue] at h
      cases h
    | ok revenue =>
      rw [hrevenue] at h
      obtain rfl := Except.ok.inj h
      simp [countersAt]

/-- One row, on its own day. -/
theorem dayRows_singleton {row : RawEvent} {day : DayKey}
    (hday : (zones row.siteId).map (row.dayKey env ·) = some day) (k : DayKey) :
    dayRows env zones [row] k = if k = day then [row] else [] := by
  obtain ⟨timezone, hzone, rfl⟩ := Option.map_eq_some_iff.mp hday
  unfold dayRows
  by_cases hk : k = row.dayKey env timezone
  · subst hk
    rw [if_pos rfl]
    show (zones row.siteId).elim [] _ = _
    rw [hzone]
    show Table.groupOf _ [row] _ = [row]
    rw [Table.groupOf_cons, if_pos rfl]
    rfl
  · rw [if_neg hk]
    cases hother : zones k.siteId with
    | none => rfl
    | some timezone' =>
      show Table.groupOf _ [row] k = []
      rw [Table.groupOf_cons, if_neg]
      · rfl
      · intro hday
        have hid : row.siteId = k.siteId := congrArg DayKey.siteId hday
        rw [hid, hother] at hzone
        rw [Option.some.inj hzone] at hday
        exact hk hday.symm

/-- The event is counted, on the day it has now. -/
theorem WorkerSound.countEvent {row : RawEvent} {day : DayKey} {excluded : Numeric} {counted : DailyMetrics}
    (h : WorkerSound env c o (some row))
    (hday : (zonesOf c.sites row.siteId).map (row.dayKey env ·) = some day)
    (hcounted : countedRow row excluded ((seenUnder o.metrics.all c.metrics day).map Held.row) = .ok counted)
    (birth : Nat) :
    WorkerSound env c { o with metrics := o.metrics.put day (some ⟨birth, counted⟩) } none where
  leavesSites := h.leavesSites
  fresh := h.fresh
  booked := by
    rw [Work.all_put]
    refine ⟨fun k => ?_, h.booked.keyed, fun k hk => ?_, fun r hr => absurd hr List.not_mem_nil⟩
    · have hbefore := h.booked.counts k
      rw [show (some row).toList = [row] from rfl, dayRows_singleton hday] at hbefore
      rw [← hbefore, Option.toList_none, counters_dayRows_nil, add_zero]
      by_cases hk : k = day
      · subst hk
        rw [seenUnder_insert_self, if_pos rfl]
        exact countedRow_counts hcounted
      · rw [seenUnder_insert_of_ne hk, if_neg hk]
        exact (add_zero _).symm
    · rcases (AList.mem_insert _).mp hk with rfl | hold
      · refine ⟨row.uniqueKey, h.booked.stored row (List.mem_singleton.mpr rfl), ?_⟩
        obtain ⟨timezone, -, rfl⟩ := Option.map_eq_some_iff.mp hday
        rfl
      · exact h.booked.backed k hold
  saved := h.saved

/-- The savepoint is released. -/
theorem WorkerSound.release (h : WorkerSound env c o none) :
    WorkerSound env c { o with raw := o.raw.release, metrics := o.metrics.release } none where
  leavesSites := h.leavesSites
  fresh key hkey := by
    rw [Work.all_release] at hkey
    exact h.fresh key hkey
  booked := by
    rw [Work.all_release, Work.all_release]
    exact h.booked
  saved := h.booked

/-- The savepoint is rolled back. -/
theorem WorkerSound.rollback {uncounted : Option RawEvent} (h : WorkerSound env c o uncounted) :
    WorkerSound env c { o with raw := o.raw.rollback, metrics := o.metrics.rollback } none where
  leavesSites := h.leavesSites
  fresh key hkey := by
    rw [Work.all_rollback] at hkey
    exact h.fresh key (Work.mem_all_of_outer hkey)
  booked := by
    rw [Work.all_rollback, Work.all_rollback]
    exact h.saved
  saved := h.saved

end Workers

section Rebuilds
variable {env : Platform} {c : Committed} {o : Own} {kind : Rebuild} {todo rest : List Statement}
  {doing : Doing} {siteId : Uuid} {timezone : String}

/-- What is not the element taken out stays. -/
theorem mem_eraseIdx_of_ne {α : Type} {l : List α} {i : Nat} {a b : α} (hi : l[i]? = some a) (hb : b ∈ l)
    (hne : b ≠ a) : b ∈ l.eraseIdx i := by
  obtain ⟨j, hj⟩ := List.mem_iff_getElem?.mp hb
  refine List.mem_eraseIdx_iff_getElem?.mpr ⟨j, ?_, hj⟩
  rintro rfl
  exact hne (Option.some.inj (hj.symm.trans hi))

/-- The rebuild of a zone change covers every day of its site. -/
theorem covers_of_newZone {k : DayKey} (h : kind.newZone = some timezone) (hsite : k.siteId = kind.siteId) :
    kind.covers k = true := by
  cases kind with
  | environmentDateRange => cases h
  | siteDailyAggregates siteId timezone => exact decide_eq_true hsite
  | siteDerivedData => cases h

theorem inOrder_dailyStatements : InOrder Rebuild.dailyStatements := by
  refine ⟨by decide, ?_⟩
  show ∀ statement ∈ [Statement.derived, .derived], statement = .derived
  decide

/-- The statements of a rebuild are in order, and there is one insert to come. -/
theorem inOrder_statements (kind : Rebuild) :
    InOrder kind.statements ∧ .insertMetrics ∈ kind.statements := by
  have hdaily : Statement.insertMetrics ∈ Rebuild.dailyStatements := by decide
  have hmem : ∀ before, Statement.insertMetrics ∈ before ++ Rebuild.dailyStatements :=
    fun before => List.mem_append_right before hdaily
  cases kind with
  | environmentDateRange => exact ⟨inOrder_dailyStatements, hdaily⟩
  | siteDailyAggregates => exact ⟨inOrder_dailyStatements, hmem _⟩
  | siteDerivedData => exact ⟨⟨hmem _, inOrder_dailyStatements⟩, hmem _⟩

/-- Statements on other tables are in order. -/
theorem inOrder_of_derived (h : ∀ statement ∈ rest, statement = .derived) : InOrder rest := by
  induction rest with
  | nil => trivial
  | cons statement rest ih =>
    obtain rfl := h statement List.mem_cons_self
    exact ih fun s hs => h s (List.mem_cons_of_mem _ hs)

/-- Where the insert is over, so is every delete. -/
theorem deleteMetrics_not_mem (h : InOrder todo) (hnot : .insertMetrics ∉ todo) : .deleteMetrics ∉ todo := by
  induction todo with
  | nil => exact List.not_mem_nil
  | cons statement rest ih =>
    have hrest : .insertMetrics ∉ rest := fun hmem => hnot (List.mem_cons_of_mem _ hmem)
    cases statement with
    | setTimezone =>
      rintro (_ | ⟨_, hmem⟩)
      exact ih h hrest hmem
    | derived =>
      rintro (_ | ⟨_, hmem⟩)
      exact ih h hrest hmem
    | deleteMetrics => exact absurd h.1 hrest
    | insertMetrics => exact absurd List.mem_cons_self hnot

/-- A rebuild begins. -/
theorem rebuildSound_begin (kind : Rebuild) : RebuildSound env c Own.none kind kind.statements .idle where
  storesNothing := Work.all_none
  covered k hk := by
    have hk : k ∈ (Work.none : Work DayKey DailyMetrics).all := hk
    rw [Work.all_none] at hk
    exact absurd hk (AList.notMem_empty k)
  scanned _ h := by cases h
  selected k hk := absurd hk (AList.notMem_empty k)
  inOrder := (inOrder_statements kind).1
  emptied _ := by
    refine ⟨rfl, fun k hk => ?_⟩
    have hk : k ∈ (Work.none : Work DayKey DailyMetrics).all := hk
    rw [Work.all_none] at hk
    exact absurd hk (AList.notMem_empty k)
  refilling h := absurd (inOrder_statements kind).2 h

/-- While rows are being deleted, the insert is still to come. -/
theorem RebuildSound.insert_to_come {left : List (DayKey × Nat)}
    (h : RebuildSound env c o kind todo (.deleting left)) : .insertMetrics ∈ todo := by
  by_contra hnot
  exact (h.refilling hnot).1 left rfl

/-- While rows are being inserted, the statement is not to come. -/
theorem RebuildSound.insert_under_way {left : Table DayKey DailyMetrics} {k : DayKey} {row : DailyMetrics}
    (h : RebuildSound env c o kind todo (.inserting left)) (hrow : left.lookup k = some row) :
    .insertMetrics ∉ todo := by
  intro hmem
  have hleft : left = ∅ := (h.emptied hmem).1
  rw [hleft] at hrow
  cases hrow

/-- A statement on another table is nothing to the metrics. -/
theorem RebuildSound.nextDerived (h : RebuildSound env c o kind (.derived :: rest) .idle) :
    RebuildSound env c o kind rest .idle where
  storesNothing := h.storesNothing
  covered := h.covered
  scanned _ h := by cases h
  selected := h.selected
  inOrder := h.inOrder
  emptied hmem := h.emptied (List.mem_cons_of_mem _ hmem)
  refilling hnot := h.refilling fun hmem => by
    rcases List.mem_cons.mp hmem with heq | hmem
    · cases heq
    · exact hnot hmem

/-- A delete starts with the rows of its snapshot. -/
theorem RebuildSound.nextDelete (h : RebuildSound env c o kind (.deleteMetrics :: rest) .idle)
    {left : List (DayKey × Nat)} (hleft : ∀ e ∈ left, kind.covers e.1 = true) :
    RebuildSound env c o kind rest (.deleting left) where
  storesNothing := h.storesNothing
  covered := h.covered
  scanned left' hdoing := by
    obtain rfl := Doing.deleting.inj hdoing
    exact hleft
  selected := h.selected
  inOrder := h.inOrder.2
  emptied _ := ⟨rfl, (h.emptied (List.mem_cons_of_mem _ h.inOrder.1)).2⟩
  refilling hnot := absurd h.inOrder.1 hnot

/-- A covered row is deleted. -/
theorem RebuildSound.deleteRow {left left' : List (DayKey × Nat)}
    (h : RebuildSound env c o kind todo (.deleting left)) (hsub : ∀ e ∈ left', e ∈ left) {k : DayKey}
    (hk : kind.covers k = true) :
    RebuildSound env c { o with metrics := o.metrics.put k none } kind todo (.deleting left') where
  storesNothing := h.storesNothing
  covered k' hk' := by
    rw [Work.all_put, AList.mem_insert] at hk'
    rcases hk' with rfl | hold
    · exact hk
    · exact h.covered k' hold
  scanned left'' hdoing e he := by
    obtain rfl := Doing.deleting.inj hdoing
    exact h.scanned left rfl e (hsub e he)
  selected := h.selected
  inOrder := h.inOrder
  emptied hmem := by
    refine ⟨rfl, fun k' hk' => ?_⟩
    rw [Work.all_put] at hk' ⊢
    by_cases hkk : k' = k
    · subst hkk
      exact seenUnder_insert_self k' none
    · rw [seenUnder_insert_of_ne hkk]
      exact (h.emptied hmem).2 k' (((AList.mem_insert _).mp hk').resolve_left hkk)
  refilling hnot := absurd h.insert_to_come hnot

/-- A row of the snapshot that is gone is passed over. -/
theorem RebuildSound.skipRow {left left' : List (DayKey × Nat)}
    (h : RebuildSound env c o kind todo (.deleting left)) (hsub : ∀ e ∈ left', e ∈ left) :
    RebuildSound env c o kind todo (.deleting left') where
  storesNothing := h.storesNothing
  covered := h.covered
  scanned left'' hdoing e he := by
    obtain rfl := Doing.deleting.inj hdoing
    exact h.scanned left rfl e (hsub e he)
  selected := h.selected
  inOrder := h.inOrder
  emptied hmem := ⟨rfl, (h.emptied hmem).2⟩
  refilling hnot := absurd h.insert_to_come hnot

/-- The rows that a rebuild's insert selects count the stored events of the days it
covers. -/
theorem RebuildSound.select_counts (h : RebuildSound env c o kind todo doing)
    {left : Table DayKey DailyMetrics}
    (hselect : (kind.select env (zonesUnder o.sites.all c.sites)
      (rowsOf (overlay o.raw.all c.raw))).collect = .ok left) {k : DayKey} (hk : kind.covers k = true) :
    countersAt (left.lookup k) = stored env (zonesUnder o.sites.all c.sites) c.raw k := by
  rw [h.storesNothing, rowsOf_overlay_empty] at hselect
  exact (select_spec env _ hselect).1 k hk

/-- **The insert starts**: the rows it selects count the events of the days it has
emptied, which nobody else can add to. -/
theorem RebuildSound.nextInsert (h : RebuildSound env c o kind (.insertMetrics :: rest) .idle)
    {left : Table DayKey DailyMetrics}
    (hselect : (kind.select env (zonesUnder o.sites.all c.sites)
      (rowsOf (overlay o.raw.all c.raw))).collect = .ok left) :
    RebuildSound env c o kind rest (.inserting left) where
  storesNothing := h.storesNothing
  covered := h.covered
  scanned _ hdoing := by cases hdoing
  selected := (select_spec env _ hselect).2
  inOrder := inOrder_of_derived h.inOrder
  emptied hmem := by cases h.inOrder _ hmem
  refilling _ := by
    refine ⟨(fun _ hdoing => nomatch hdoing), fun k hk => ?_⟩
    show metricsAt (seenUnder o.metrics.all c.metrics k) + countersAt (left.lookup k) = _
    rw [(h.emptied List.mem_cons_self).2 k hk, h.select_counts hselect (h.covered k hk)]
    exact zero_add _

/-- One row of the insert is in place. -/
theorem Refilled.insertRow {left : Table DayKey DailyMetrics} {k k' : DayKey} {row : DailyMetrics}
    (hrow : left.lookup k = some row) (hseen : seenUnder o.metrics.all c.metrics k = none) (birth : Nat)
    (h : Refilled env c o left k') :
    Refilled env c { o with metrics := o.metrics.put k (some ⟨birth, row⟩) } (left.erase k) k' := by
  unfold Refilled at h ⊢
  rw [Work.all_put]
  by_cases hkk : k' = k
  · subst hkk
    rw [hseen, hrow] at h
    rw [seenUnder_insert_self, AList.lookup_erase, ← h]
    exact add_comm _ _
  · rw [seenUnder_insert_of_ne hkk, AList.lookup_erase_ne hkk]
    exact h

/-- **A row is put on a day** that the rebuild refills. -/
theorem RebuildSound.insertRow {left : Table DayKey DailyMetrics}
    (h : RebuildSound env c o kind todo (.inserting left)) {k : DayKey} {row : DailyMetrics}
    (hrow : left.lookup k = some row) (hseen : seenUnder o.metrics.all c.metrics k = none)
    (hday : Refilled env c o left k) (birth : Nat) :
    RebuildSound env c { o with metrics := o.metrics.put k (some ⟨birth, row⟩) } kind todo
      (.inserting (left.erase k)) where
  storesNothing := h.storesNothing
  covered k' hk' := by
    rw [Work.all_put, AList.mem_insert] at hk'
    rcases hk' with rfl | hold
    · exact h.selected k' (AList.lookup_isSome.mp (by rw [show (Doing.inserting left).left = left from rfl, hrow]; rfl))
    · exact h.covered k' hold
  scanned _ hdoing := by cases hdoing
  selected k' hk' := by
    have hk' : k' ∈ left.erase k := hk'
    exact h.selected k' ((AList.mem_erase.mp hk').2)
  inOrder := h.inOrder
  emptied hmem := absurd hmem (h.insert_under_way hrow)
  refilling hnot := by
    refine ⟨(fun _ hdoing => nomatch hdoing), fun k' hk' => ?_⟩
    have hk' : k' ∈ (o.metrics.put k (some ⟨birth, row⟩)).all := hk'
    rw [Work.all_put, AList.mem_insert] at hk'
    refine Refilled.insertRow hrow hseen birth ?_
    rcases hk' with rfl | hold
    · exact hday
    · exact (h.refilling hnot).2 k' hold

/-- A statement with nothing left is done. -/
theorem RebuildSound.done (h : RebuildSound env c o kind todo doing) (hleft : doing.left = ∅) :
    RebuildSound env c o kind todo .idle where
  storesNothing := h.storesNothing
  covered := h.covered
  scanned _ hdoing := by cases hdoing
  selected k hk := absurd hk (AList.notMem_empty k)
  inOrder := h.inOrder
  emptied hmem := ⟨rfl, (h.emptied hmem).2⟩
  refilling hnot := by
    obtain ⟨-, hrefilled⟩ := h.refilling hnot
    rw [hleft] at hrefilled
    exact ⟨(fun _ hdoing => nomatch hdoing), hrefilled⟩

/-- The site is locked; nothing of the metrics has been touched yet. -/
theorem RebuildSound.setTimezone (h : RebuildSound env c o kind todo doing) (hnone : o.metrics.all = ∅)
    (siteWork : Work Uuid String) (horder : InOrder rest) :
    RebuildSound env c { o with sites := siteWork } kind rest .idle where
  storesNothing := h.storesNothing
  covered := h.covered
  scanned _ hdoing := by cases hdoing
  selected k hk := absurd hk (AList.notMem_empty k)
  inOrder := horder
  emptied _ := by
    refine ⟨rfl, fun k hk => ?_⟩
    have hk : k ∈ o.metrics.all := hk
    rw [hnone] at hk
    exact absurd hk (AList.notMem_empty k)
  refilling _ := by
    refine ⟨(fun _ hdoing => nomatch hdoing), fun k hk => ?_⟩
    have hk : k ∈ o.metrics.all := hk
    rw [hnone] at hk
    exact absurd hk (AList.notMem_empty k)

/-! ### The zones. -/

/-- A transaction begins. -/
theorem beside_begin : Beside c Own.none where
  leavesSites := Work.all_none
  present k hk := by
    have hk : k ∈ (Work.none : Work DayKey DailyMetrics).all := hk
    rw [Work.all_none] at hk
    exact absurd hk (AList.notMem_empty k)

/-- A key that is there already is written. -/
theorem Beside.put (h : Beside c o) {k : DayKey} (hk : k ∈ o.metrics.all ∨ k ∈ c.metrics)
    (v : Option (Held DailyMetrics)) : Beside c { o with metrics := o.metrics.put k v } where
  leavesSites := h.leavesSites
  present k' hk' := by
    have hk' : k' ∈ (o.metrics.put k v).all := hk'
    rw [Work.all_put, AList.mem_insert] at hk'
    rcases hk' with rfl | hold
    · exact hk.elim (h.present k') id
    · exact h.present k' hold

/-- A zone change begins. -/
theorem zoneChange_begin :
    ZoneChange env c Own.none siteId timezone ([.setTimezone, .derived] ++ Rebuild.dailyStatements) .idle where
  waiting _ := ⟨rfl, rfl, Work.all_none, Work.all_none⟩
  locked h := absurd List.mem_cons_self h
  unmoved h := absurd List.mem_cons_self h
  cleared _ h := absurd (by decide) h
  filled _ h := absurd (by decide) h

/-- The lock is there, and the zone is another one, or the one it was. -/
theorem ZoneChange.setTimezone (h : ZoneChange env c o siteId timezone (.setTimezone :: rest) .idle)
    {previous : Held String} (hprevious : c.sites.lookup siteId = some previous) :
    ZoneChange env c { o with sites := o.sites.put siteId (some { previous with row := timezone }) } siteId
      timezone (if previous.row = timezone then [.derived] else rest) .idle := by
  obtain ⟨hrest, -, hsites, hmetrics⟩ := h.waiting List.mem_cons_self
  obtain rfl : rest = .derived :: Rebuild.dailyStatements := (List.cons.inj hrest).2
  have hzone : zonesOf c.sites siteId = some previous.row := by
    unfold zonesOf
    rw [hprevious]
    rfl
  have hlocked : (o.sites.put siteId (some { previous with row := timezone })).all
      = AList.insert siteId (some ⟨previous.birth, timezone⟩) ∅ := by
    rw [Work.all_put, hsites]
  by_cases hsame : previous.row = timezone
  · rw [if_pos hsame]
    refine ⟨fun hmem => absurd hmem (by decide), fun _ => ⟨_, hlocked⟩, fun _ _ => ⟨hmetrics, rfl, by simp⟩, ?_, ?_⟩
    · intro hmoved
      exact absurd (hzone.trans (congrArg some hsame)) hmoved
    · intro hmoved
      exact absurd (hzone.trans (congrArg some hsame)) hmoved
  · rw [if_neg hsame]
    refine ⟨fun hmem => absurd hmem (by decide), fun _ => ⟨_, hlocked⟩, fun _ hzone' => ?_,
      fun _ hnot => absurd (by decide) hnot, fun _ hnot => absurd (by decide) hnot⟩
    exact absurd (Option.some.inj (hzone.symm.trans hzone')) hsame

theorem ZoneChange.nextDerived (h : ZoneChange env c o siteId timezone (.derived :: rest) .idle) :
    ZoneChange env c o siteId timezone rest .idle where
  waiting hmem := by
    have hstart := (h.waiting (List.mem_cons_of_mem _ hmem)).1
    cases hstart
  locked hnot := h.locked fun hmem => by
    rcases List.mem_cons.mp hmem with heq | hmem
    · cases heq
    · exact hnot hmem
  unmoved hnot hzone := by
    obtain ⟨hmetrics, hidle, htodo⟩ := h.unmoved (fun hmem => by
      rcases List.mem_cons.mp hmem with heq | hmem
      · cases heq
      · exact hnot hmem) hzone
    exact ⟨hmetrics, hidle, fun s hs => htodo s (List.mem_cons_of_mem _ hs)⟩
  cleared hmoved hnot := h.cleared hmoved fun hmem => by
    rcases List.mem_cons.mp hmem with heq | hmem
    · cases heq
    · exact hnot hmem
  filled hmoved hnot := h.filled hmoved fun hmem => by
    rcases List.mem_cons.mp hmem with heq | hmem
    · cases heq
    · exact hnot hmem

/-- A zone change that deletes or inserts has its lock, and has changed the zone. -/
theorem ZoneChange.moved_of_todo {statement : Statement} (h : ZoneChange env c o siteId timezone todo doing)
    (hmem : statement ∈ todo) (hne : statement ≠ .derived) (hlocked : .setTimezone ∉ todo) :
    zonesOf c.sites siteId ≠ some timezone :=
  fun hzone => hne ((h.unmoved hlocked hzone).2.2 statement hmem)

/-- And one in the middle of such a statement. -/
theorem ZoneChange.moved_of_doing (h : ZoneChange env c o siteId timezone todo doing) (hdoing : doing ≠ .idle) :
    .setTimezone ∉ todo ∧ zonesOf c.sites siteId ≠ some timezone := by
  have hlocked : .setTimezone ∉ todo := fun hmem => hdoing (h.waiting hmem).2.1
  exact ⟨hlocked, fun hzone => hdoing (h.unmoved hlocked hzone).2.1⟩

theorem not_mem_setTimezone {statement : Statement}
    (h : ZoneChange env c o siteId timezone (statement :: rest) .idle) (hne : statement ≠ .setTimezone) :
    .setTimezone ∉ statement :: rest := by
  intro hmem
  have hstart := (h.waiting hmem).1
  exact hne (List.cons.inj hstart).1

/-- The delete starts with every row of the site. -/
theorem ZoneChange.nextDelete (h : ZoneChange env c o siteId timezone (.deleteMetrics :: rest) .idle)
    (horder : .insertMetrics ∈ rest) {left : List (DayKey × Nat)}
    (hleft : ∀ k held, k.siteId = siteId → c.metrics.lookup k = some held → k ∉ o.metrics.all →
      (k, held.birth) ∈ left) :
    ZoneChange env c o siteId timezone rest (.deleting left) := by
  have hlocked := not_mem_setTimezone h (fun heq => by cases heq)
  have hmoved := h.moved_of_todo List.mem_cons_self (fun heq => by cases heq) hlocked
  refine ⟨fun hmem => absurd (List.mem_cons_of_mem _ hmem) hlocked, fun _ => h.locked hlocked,
    fun _ hzone => absurd hzone hmoved, fun _ _ k held hsite hheld => ?_, fun _ hnot => absurd horder hnot⟩
  by_cases hk : k ∈ o.metrics.all
  · exact .inl hk
  · exact .inr ⟨left, rfl, hleft k held hsite hheld hk⟩

/-- The newest version of the row is deleted. -/
theorem ZoneChange.deleteRow {left : List (DayKey × Nat)} {i : Nat} {k : DayKey} {birth : Nat}
    (h : ZoneChange env c o siteId timezone todo (.deleting left)) (hto : .insertMetrics ∈ todo)
    (hi : left[i]? = some (k, birth)) :
    ZoneChange env c { o with metrics := o.metrics.put k none } siteId timezone todo
      (.deleting (left.eraseIdx i)) := by
  obtain ⟨hlocked, hmoved⟩ := h.moved_of_doing (fun heq => by cases heq)
  refine ⟨fun hmem => absurd hmem hlocked, fun _ => h.locked hlocked, fun _ hzone => absurd hzone hmoved,
    fun _ hdeleted k' held hsite hheld => ?_, fun _ hnot => absurd hto hnot⟩
  rw [Work.all_put, AList.mem_insert]
  by_cases hk : k' = k
  · exact .inl (.inl hk)
  · rcases h.cleared hmoved hdeleted k' held hsite hheld with hold | ⟨left', hleft', hmem⟩
    · exact .inl (.inr hold)
    · obtain rfl := Doing.deleting.inj hleft'
      refine .inr ⟨_, rfl, ?_⟩
      exact mem_eraseIdx_of_ne hi hmem fun heq => hk (congrArg Prod.fst heq)

/-- A row that is gone: the site's rows can only be gone by the change's own hand. -/
theorem ZoneChange.skipRow {left : List (DayKey × Nat)} {i : Nat} {k : DayKey} {birth : Nat}
    (h : ZoneChange env c o siteId timezone todo (.deleting left)) (hto : .insertMetrics ∈ todo)
    (hi : left[i]? = some (k, birth))
    (hgone : (seenUnder o.metrics.all c.metrics k).map Held.birth ≠ some birth) :
    ZoneChange env c o siteId timezone todo (.deleting (left.eraseIdx i)) := by
  obtain ⟨hlocked, hmoved⟩ := h.moved_of_doing (fun heq => by cases heq)
  refine ⟨fun hmem => absurd hmem hlocked, fun _ => h.locked hlocked, fun _ hzone => absurd hzone hmoved,
    fun _ hdeleted k' held hsite hheld => ?_, fun _ hnot => absurd hto hnot⟩
  by_cases hk : k' ∈ o.metrics.all
  · exact .inl hk
  · rcases h.cleared hmoved hdeleted k' held hsite hheld with hold | ⟨left', hleft', hmem⟩
    · exact .inl hold
    · obtain rfl := Doing.deleting.inj hleft'
      refine .inr ⟨_, rfl, mem_eraseIdx_of_ne hi hmem fun heq => hgone ?_⟩
      obtain ⟨rfl, rfl⟩ := Prod.mk.inj heq
      rw [seenUnder_of_not_mem hk, hheld]
      rfl

/-- Nothing is left to delete. -/
theorem ZoneChange.deleteDone (h : ZoneChange env c o siteId timezone todo (.deleting []))
    (hto : .insertMetrics ∈ todo) : ZoneChange env c o siteId timezone todo .idle := by
  obtain ⟨hlocked, hmoved⟩ := h.moved_of_doing (fun heq => by cases heq)
  refine ⟨fun hmem => absurd hmem hlocked, fun _ => h.locked hlocked, fun _ hzone => absurd hzone hmoved,
    fun _ hdeleted k held hsite hheld => ?_, fun _ hnot => absurd hto hnot⟩
  rcases h.cleared hmoved hdeleted k held hsite hheld with hold | ⟨left, hleft, hmem⟩
  · exact .inl hold
  · obtain rfl := Doing.deleting.inj hleft
    exact absurd hmem List.not_mem_nil

/-- The rows to insert are those of every day of the site, of which no row is left. -/
theorem ZoneChange.nextInsert (h : ZoneChange env c o siteId timezone (.insertMetrics :: rest) .idle)
    (hrest : ∀ statement ∈ rest, statement = .derived) {left : Table DayKey DailyMetrics}
    (hnone : ∀ k ∈ o.metrics.all, seenUnder o.metrics.all c.metrics k = none)
    (hleft : ∀ k, k.siteId = siteId →
      countersAt (left.lookup k) = stored env (zonesUnder o.sites.all c.sites) c.raw k) :
    ZoneChange env c o siteId timezone rest (.inserting left) := by
  have hlocked := not_mem_setTimezone h (fun heq => by cases heq)
  have hmoved := h.moved_of_todo List.mem_cons_self (fun heq => by cases heq) hlocked
  have hdeleted : .deleteMetrics ∉ .insertMetrics :: rest := by
    rintro (_ | ⟨_, hmem⟩)
    cases hrest _ hmem
  have hcleared : ∀ k held, k.siteId = siteId → c.metrics.lookup k = some held → k ∈ o.metrics.all := by
    intro k held hsite hheld
    rcases h.cleared hmoved hdeleted k held hsite hheld with hold | ⟨left, hleft, -⟩
    · exact hold
    · cases hleft
  refine ⟨fun hmem => absurd (List.mem_cons_of_mem _ hmem) hlocked, fun _ => h.locked hlocked,
    fun _ hzone => absurd hzone hmoved, fun _ _ k held hsite hheld => .inl (hcleared k held hsite hheld),
    fun _ _ k hsite => ?_⟩
  have hseen : seenUnder o.metrics.all c.metrics k = none := by
    by_cases hk : k ∈ o.metrics.all
    · exact hnone k hk
    · rw [seenUnder_of_not_mem hk]
      cases hheld : c.metrics.lookup k with
      | none => rfl
      | some held => exact absurd (hcleared k held hsite hheld) hk
  show metricsAt (seenUnder o.metrics.all c.metrics k) + countersAt (left.lookup k) = _
  rw [hseen, hleft k hsite]
  exact zero_add _

/-- One row of the insert. -/
theorem ZoneChange.insertRow {left : Table DayKey DailyMetrics}
    (h : ZoneChange env c o siteId timezone todo (.inserting left)) {k : DayKey} {row : DailyMetrics}
    (hrow : left.lookup k = some row) (hseen : seenUnder o.metrics.all c.metrics k = none) (birth : Nat) :
    ZoneChange env c { o with metrics := o.metrics.put k (some ⟨birth, row⟩) } siteId timezone todo
      (.inserting (left.erase k)) := by
  obtain ⟨hlocked, hmoved⟩ := h.moved_of_doing (fun heq => by cases heq)
  refine ⟨fun hmem => absurd hmem hlocked, fun _ => h.locked hlocked, fun _ hzone => absurd hzone hmoved,
    fun _ hdeleted k' held hsite hheld => ?_, fun _ hnot k' hsite => ?_⟩
  · rcases h.cleared hmoved hdeleted k' held hsite hheld with hold | ⟨left', hleft', -⟩
    · refine .inl ?_
      rw [Work.all_put, AList.mem_insert]
      exact .inr hold
    · cases hleft'
  · exact Refilled.insertRow hrow hseen birth (h.filled hmoved hnot k' hsite)

/-- Nothing is left to insert. -/
theorem ZoneChange.insertDone {left : Table DayKey DailyMetrics}
    (h : ZoneChange env c o siteId timezone todo (.inserting left)) (hleft : left = ∅) :
    ZoneChange env c o siteId timezone todo .idle := by
  obtain ⟨hlocked, hmoved⟩ := h.moved_of_doing (fun heq => by cases heq)
  refine ⟨fun hmem => absurd hmem hlocked, fun _ => h.locked hlocked, fun _ hzone => absurd hzone hmoved,
    fun _ hdeleted k held hsite hheld => ?_, fun _ hnot k hsite => ?_⟩
  · rcases h.cleared hmoved hdeleted k held hsite hheld with hold | ⟨left', hleft', -⟩
    · exact .inl hold
    · cases hleft'
  · have hfilled := h.filled hmoved hnot k hsite
    rw [show (Doing.inserting left).left = left from rfl, hleft] at hfilled
    exact hfilled

end Rebuilds

end Momento.Interleaving
