/-
  Momento.Service.RebuildInterleaving

  **REBUILDS AND INGESTION INTERLEAVE SAFELY**, as long as no zone changes between
  a statement that reads it and one that relies on it.

  What holds it together is the row of `daily_site_metrics`.  A worker that has
  counted an event of a day holds the day's row, so no rebuild can have deleted it
  and still be running; a rebuild that has deleted the row holds it, so no worker
  can commit an event of the day before the rebuild is over.  A day that has no
  row yet is held by nobody; there a rebuild that meets the events of a worker it
  did not wait for meets their row as well, and fails.

  A zone change moves the events of a site to other days.  It holds the site, so
  nobody who has stored something of the site is under way, and it deletes every
  row of the site, so nobody who has deleted one is either.
-/
import Momento.Service.RebuildBooks
import Momento.Foundation.Runs

namespace Momento.Interleaving

open Foundation
open Momento.Rollup (countersOf countersAt countersOf_nil)

/-! ## §1. Somebody else commits. -/

/-- A program that may commit: everything it stored is counted, and everything it
deleted is replaced. -/
inductive Committable : Program → Prop
  | worker : Committable (.worker none none)
  | rebuild (kind : Rebuild) : Committable (.rebuild kind [] .idle)

/-- What a transaction has written is committed. -/
structure Landed (c c' : Committed) (o : Own) : Prop where
  sites : ∀ siteId, c'.sites.lookup siteId = (o.sites.all.lookup siteId).getD (c.sites.lookup siteId)
  raw : c'.raw = overlay o.raw.all c.raw
  metrics : ∀ k, c'.metrics.lookup k = seenUnder o.metrics.all c.metrics k

/-- The sites that a transaction with these writes holds `FOR KEY SHARE`. -/
def Own.Shares (o : Own) (inserting : Bool) (siteId : Uuid) : Prop :=
  (∃ key ∈ o.raw.all.keys, key.1 = siteId)
    ∨ inserting = false ∧ ∃ k ∈ (inserted o.metrics.all).keys, k.siteId = siteId

section Commits
variable {env : Platform} {c c' : Committed} {o other : Own} {p q : Program} {kind : Rebuild}
  {todo : List Statement} {doing : Doing} {siteId : Uuid} {timezone : String} {k : DayKey}

theorem Landed.zones (h : Landed c c' o) : zonesOf c'.sites = zonesUnder o.sites.all c.sites := by
  funext siteId
  unfold zonesOf
  rw [h.sites]
  rfl

theorem zonesUnder_of_not_mem {w : Writes Uuid String} {t : SiteTable} (h : siteId ∉ w) :
    zonesUnder w t siteId = zonesOf t siteId := by
  unfold zonesUnder
  rw [AList.lookup_eq_none.mpr h]
  rfl

/-- What a transaction stores is new, … -/
theorem Sound.fresh (h : Sound env c o p) : ∀ key ∈ o.raw.all, key ∉ c.raw := by
  cases p with
  | worker zone uncounted => exact WorkerSound.fresh h
  | rebuild kind todo doing =>
    intro key hkey
    rw [h.1.storesNothing] at hkey
    exact absurd hkey (AList.notMem_empty key)

/-- … under its own key, … -/
theorem Sound.keyed (h : Sound env c o p) : Keyed o.raw.all := by
  cases p with
  | worker zone uncounted => exact (WorkerSound.booked h).keyed
  | rebuild kind todo doing =>
    rw [h.1.storesNothing]
    exact keyed_empty

/-- … and, once it is counted, on days whose rows are held. -/
theorem Sound.written_of_not_mem (h : Sound env c o p) (hp : Committable p) (hk : k ∉ o.metrics.all) :
    written env (zonesOf c.sites) o.raw.all k = 0 := by
  cases hp with
  | worker =>
    have hbook := (WorkerSound.booked h).counts k
    rw [seenUnder_of_not_mem hk, Option.toList_none, counters_dayRows_nil] at hbook
    exact (add_left_cancel hbook).symm
  | rebuild kind =>
    rw [h.1.storesNothing]
    exact written_empty env _ k

/-- A zone change that commits has changed the zone of one site. -/
theorem ZoneChange.zones (h : ZoneChange env c o siteId timezone todo doing) (hlocked : .setTimezone ∉ todo) :
    zonesUnder o.sites.all c.sites siteId = some timezone
      ∧ ∀ siteId', siteId' ≠ siteId → siteId' ∉ o.sites.all := by
  obtain ⟨birth, hsites⟩ := h.locked hlocked
  rw [hsites]
  refine ⟨zonesUnder_insert_self _ _ _ _, fun siteId' hne hmem => ?_⟩
  rcases (AList.mem_insert _).mp hmem with heq | hmem
  · exact hne heq
  · exact absurd hmem (AList.notMem_empty siteId')

/-- **A commit changes the zone of no site of which a row is left.** -/
theorem Sound.zones_of_row (h : Sound env c o p) (hp : Committable p) (hk : k ∈ c.metrics)
    (hnot : k ∉ o.metrics.all) : zonesUnder o.sites.all c.sites k.siteId = zonesOf c.sites k.siteId := by
  cases hp with
  | worker => rw [WorkerSound.leavesSites h, zonesUnder_empty]
  | rebuild kind =>
    obtain ⟨hrebuild, hzone⟩ := h
    cases hnew : kind.newZone with
    | none =>
      rw [((zoneSound_of_none env hnew).mp hzone).leavesSites, zonesUnder_empty]
    | some timezone =>
      have hchange := (zoneSound_of_some env hnew).mp hzone
      obtain ⟨hself, hothers⟩ := hchange.zones List.not_mem_nil
      by_cases hsite : k.siteId = kind.siteId
      · by_cases hmoved : zonesOf c.sites kind.siteId = some timezone
        · rw [hsite, hself, hmoved]
        · -- then every row of the site is gone
          obtain ⟨held, hheld⟩ := Option.isSome_iff_exists.mp (AList.lookup_isSome.mpr hk)
          rcases hchange.cleared hmoved List.not_mem_nil k held hsite hheld with hold | ⟨left, hleft, -⟩
          · exact absurd hold hnot
          · cases hleft
      · exact zonesUnder_of_not_mem (hothers _ hsite)

/-- **What a committing transaction sees of a day counts the events there will be**, by
the zones there will be. -/
theorem Sound.counts_of_committable (h : Sound env c o p) (hp : Committable p)
    (haccounted : ∀ k, metricsAt (c.metrics.lookup k) = stored env (zonesOf c.sites) c.raw k) (k : DayKey) :
    metricsAt (seenUnder o.metrics.all c.metrics k)
      = written env (zonesUnder o.sites.all c.sites) o.raw.all k
        + stored env (zonesUnder o.sites.all c.sites) c.raw k := by
  cases hp with
  | worker =>
    have hbook := (WorkerSound.booked h).counts k
    rw [Option.toList_none, counters_dayRows_nil, add_zero, haccounted k] at hbook
    rw [WorkerSound.leavesSites h, zonesUnder_empty, hbook]
    exact add_comm _ _
  | rebuild kind =>
    obtain ⟨hrebuild, hzone⟩ := h
    rw [hrebuild.storesNothing, written_empty, zero_add]
    have hrefilled := (hrebuild.refilling List.not_mem_nil).2
    have hrest : k ∉ o.metrics.all → zonesUnder o.sites.all c.sites k.siteId = zonesOf c.sites k.siteId →
        metricsAt (seenUnder o.metrics.all c.metrics k)
          = stored env (zonesUnder o.sites.all c.sites) c.raw k := by
      intro hk hzone
      rw [seenUnder_of_not_mem hk, stored_congr env hzone]
      exact haccounted k
    by_cases hk : k ∈ o.metrics.all
    · exact hrefilled k hk
    · cases hnew : kind.newZone with
      | none =>
        refine hrest hk ?_
        rw [((zoneSound_of_none env hnew).mp hzone).leavesSites, zonesUnder_empty]
      | some timezone =>
        have hchange := (zoneSound_of_some env hnew).mp hzone
        obtain ⟨hself, hothers⟩ := hchange.zones List.not_mem_nil
        by_cases hsite : k.siteId = kind.siteId
        · by_cases hmoved : zonesOf c.sites kind.siteId = some timezone
          · exact hrest hk (by rw [hsite, hself, hmoved])
          · exact hchange.filled hmoved List.not_mem_nil k hsite
        · exact hrest hk (zonesUnder_of_not_mem (hothers _ hsite))

/-- Books are kept when the rows held stay, and no zone of a site in them changes. -/
theorem Booked.of_commit {zones zones' : Zones} {committed committed' : MetricsTable}
    {metrics : Writes DayKey DailyMetrics} {raw : Writes (Uuid × Uuid) RawEvent} {uncounted : List RawEvent}
    (h : Booked env zones committed metrics raw uncounted)
    (hkept : ∀ k ∈ metrics, committed'.lookup k = committed.lookup k)
    (hzones : ∀ siteId, zones' siteId = zones siteId ∨ ∀ key ∈ raw, key.1 ≠ siteId) :
    Booked env zones' committed' metrics raw uncounted := by
  refine ⟨fun k => ?_, h.keyed, h.backed, h.stored⟩
  rcases hzones k.siteId with hzone | hsite
  · have hbefore := h.counts k
    rw [dayRows_congr env hzone, written_congr env hzone]
    by_cases hk : k ∈ metrics
    · rw [seenUnder_of_mem hk, hkept k hk]
      exact hbefore
    · rw [seenUnder_of_not_mem hk] at hbefore ⊢
      rw [add_left_cancel hbefore]
  · -- nothing of the site is in the books
    have hk : k ∉ metrics := by
      intro hk
      obtain ⟨key, hkey, hid⟩ := h.backed k hk
      exact hsite key hkey hid
    have huncounted : dayRows env zones' uncounted k = [] :=
      dayRows_of_other_sites env _ fun r hr => hsite r.uniqueKey (h.stored r hr)
    rw [seenUnder_of_not_mem hk, h.keyed.written_eq_zero env _ hsite, huncounted]
    rfl

/-- Another transaction commits. -/
theorem WorkerSound.of_commit {uncounted : Option RawEvent} (h : WorkerSound env c other uncounted)
    (hlanded : Landed c c' o) (hraw : ∀ key ∈ other.raw.all, key ∉ o.raw.all)
    (hmetrics : ∀ k ∈ other.metrics.all, k ∉ o.metrics.all)
    (hapart : ∀ siteId ∈ o.sites.all, ∀ key ∈ other.raw.all, key.1 ≠ siteId) :
    WorkerSound env c' other uncounted := by
  have hkept : ∀ k ∈ other.metrics.all, c'.metrics.lookup k = c.metrics.lookup k := by
    intro k hk
    rw [hlanded.metrics, seenUnder_of_not_mem (hmetrics k hk)]
  have hzones : ∀ siteId, zonesOf c'.sites siteId = zonesOf c.sites siteId
      ∨ ∀ key ∈ other.raw.all, key.1 ≠ siteId := by
    intro siteId
    by_cases hheld : siteId ∈ o.sites.all
    · exact .inr (hapart siteId hheld)
    · refine .inl ?_
      rw [hlanded.zones]
      exact zonesUnder_of_not_mem hheld
  refine ⟨h.leavesSites, fun key hkey => ?_, h.booked.of_commit hkept hzones,
    h.saved.of_commit (fun k hk => hkept k (Work.mem_all_of_outer hk)) fun siteId => ?_⟩
  · rw [← AList.lookup_eq_none, hlanded.raw, lookup_overlay, AList.lookup_eq_none.mpr (hraw key hkey)]
    exact AList.lookup_eq_none.mpr (h.fresh key hkey)
  · exact (hzones siteId).imp_right fun hsite key hkey => hsite key (Work.mem_all_of_outer hkey)

theorem Refilled.of_commit {left : Table DayKey DailyMetrics} (h : Refilled env c o left k)
    (hseen : seenUnder o.metrics.all c'.metrics k = seenUnder o.metrics.all c.metrics k)
    (hzone : zonesUnder o.sites.all c'.sites k.siteId = zonesUnder o.sites.all c.sites k.siteId)
    (hstored : stored env (zonesUnder o.sites.all c.sites) c'.raw k
      = stored env (zonesUnder o.sites.all c.sites) c.raw k) : Refilled env c' o left k := by
  unfold Refilled at h ⊢
  rw [hseen, stored_congr env hzone, hstored]
  exact h

/-- A rebuild keeps its books when the events of the days it holds stay, and stay there. -/
theorem RebuildSound.of_commit (h : RebuildSound env c o kind todo doing)
    (hzone : ∀ k ∈ o.metrics.all,
      zonesUnder o.sites.all c'.sites k.siteId = zonesUnder o.sites.all c.sites k.siteId)
    (hstored : ∀ k ∈ o.metrics.all, stored env (zonesUnder o.sites.all c.sites) c'.raw k
      = stored env (zonesUnder o.sites.all c.sites) c.raw k) :
    RebuildSound env c' o kind todo doing := by
  refine ⟨h.storesNothing, h.covered, h.scanned, h.selected, h.inOrder, fun hmem => ?_, fun hnot => ?_⟩
  · obtain ⟨hleft, hemptied⟩ := h.emptied hmem
    refine ⟨hleft, fun k hk => ?_⟩
    rw [seenUnder_of_mem hk]
    exact hemptied k hk
  · obtain ⟨hdoing, hrefilled⟩ := h.refilling hnot
    exact ⟨hdoing, fun k hk => (hrefilled k hk).of_commit (seenUnder_of_mem hk) (hzone k hk) (hstored k hk)⟩

/-- A zone change keeps its site to itself. -/
theorem ZoneChange.of_commit (h : ZoneChange env c o siteId timezone todo doing)
    (hdoing : .insertMetrics ∉ todo → .deleteMetrics ∉ todo ∧ ∀ left, doing ≠ .deleting left)
    (hkept : .setTimezone ∉ todo → zonesOf c'.sites siteId = zonesOf c.sites siteId
      ∧ ∀ k, k.siteId = siteId →
        (∀ held, c'.metrics.lookup k = some held → c.metrics.lookup k = some held)
          ∧ stored env (zonesUnder o.sites.all c.sites) c'.raw k
            = stored env (zonesUnder o.sites.all c.sites) c.raw k) :
    ZoneChange env c' o siteId timezone todo doing := by
  have hlocked : .deleteMetrics ∉ todo → .setTimezone ∉ todo := by
    intro hnot hmem
    rw [(h.waiting hmem).1] at hnot
    exact hnot (by decide)
  refine ⟨h.waiting, h.locked, fun hnot hzone => ?_, fun hmoved hnot k held hsite hheld => ?_,
    fun hmoved hnot k hsite => ?_⟩
  · exact h.unmoved hnot ((hkept hnot).1.symm.trans hzone)
  · obtain ⟨hzone, hdays⟩ := hkept (hlocked hnot)
    rw [hzone] at hmoved
    exact h.cleared hmoved hnot k held hsite ((hdays k hsite).1 held hheld)
  · obtain ⟨hdeleted, hidle⟩ := hdoing hnot
    obtain ⟨hzone, hdays⟩ := hkept (hlocked hdeleted)
    rw [hzone] at hmoved
    refine (h.filled hmoved hnot k hsite).of_commit ?_ ?_ (hdays k hsite).2
    · by_cases hk : k ∈ o.metrics.all
      · exact seenUnder_of_mem hk
      · -- no row of the site is left, and none has come
        rw [seenUnder_of_not_mem hk, seenUnder_of_not_mem hk]
        have hnone : c.metrics.lookup k = none := by
          cases hheld : c.metrics.lookup k with
          | none => rfl
          | some held =>
            rcases h.cleared hmoved hdeleted k held hsite hheld with hold | ⟨left, hleft, -⟩
            · exact absurd hold hk
            · exact absurd hleft (hidle left)
        rw [hnone]
        cases hheld : c'.metrics.lookup k with
        | none => rfl
        | some held =>
          rw [(hdays k hsite).1 held hheld] at hnone
          cases hnone
    · rw [hsite]
      obtain ⟨birth, hsites⟩ := h.locked (hlocked hdeleted)
      rw [hsites, zonesUnder_insert_self, zonesUnder_insert_self]

/-- **A transaction stays sound when another one commits.** -/
theorem Sound.of_commit (h : Sound env c other q) (hlanded : Landed c c' o) (hx : Sound env c o p)
    (hp : Committable p) (hsites : ∀ siteId ∈ other.sites.all, siteId ∉ o.sites.all)
    (hraw : ∀ key ∈ other.raw.all, key ∉ o.raw.all)
    (hmetrics : ∀ k ∈ other.metrics.all, k ∉ o.metrics.all)
    (hheld : ∀ siteId ∈ o.sites.all, ¬other.Shares q.inserting siteId)
    (hshared : ∀ siteId ∈ other.sites.all, ¬o.Shares p.inserting siteId) : Sound env c' other q := by
  -- what `x` has written on a day adds nothing where nothing of it is on the day
  have hstored : ∀ zones k, written env zones o.raw.all k = 0 → stored env zones c'.raw k = stored env zones c.raw k := by
    intro zones k hzero
    rw [hlanded.raw, stored_overlay env zones hx.fresh, hzero, zero_add]
  cases q with
  | worker zone uncounted =>
    refine WorkerSound.of_commit h hlanded hraw hmetrics fun siteId hsite key hkey heq => ?_
    exact hheld siteId hsite (.inl ⟨key, AList.mem_keys.mp hkey, heq⟩)
  | rebuild kind todo doing =>
    obtain ⟨hrebuild, hzone⟩ := h
    cases hnew : kind.newZone with
    | none =>
      have hbeside := (zoneSound_of_none env hnew).mp hzone
      refine ⟨hrebuild.of_commit (fun k hk => ?_) fun k hk => ?_,
        (zoneSound_of_none env hnew).mpr ⟨hbeside.leavesSites, fun k hk => ?_⟩⟩
      · rw [hbeside.leavesSites, zonesUnder_empty, zonesUnder_empty, hlanded.zones]
        exact hx.zones_of_row hp (hbeside.present k hk) (hmetrics k hk)
      · rw [hbeside.leavesSites, zonesUnder_empty]
        exact hstored _ k (hx.written_of_not_mem hp (hmetrics k hk))
      · rw [← AList.lookup_isSome, hlanded.metrics, seenUnder_of_not_mem (hmetrics k hk)]
        exact AList.lookup_isSome.mpr (hbeside.present k hk)
    | some timezone =>
      have hchange := (zoneSound_of_some env hnew).mp hzone
      -- where the lock is held, `x` has nothing of the site
      have hkept : .setTimezone ∉ todo → zonesOf c'.sites kind.siteId = zonesOf c.sites kind.siteId
          ∧ ∀ k, k.siteId = kind.siteId →
            (∀ held, c'.metrics.lookup k = some held → c.metrics.lookup k = some held)
              ∧ stored env (zonesUnder other.sites.all c.sites) c'.raw k
                = stored env (zonesUnder other.sites.all c.sites) c.raw k := by
        intro hlocked
        obtain ⟨birth, hlock⟩ := hchange.locked hlocked
        have hmem : kind.siteId ∈ other.sites.all := by
          rw [hlock]
          exact (AList.mem_insert _).mpr (.inl rfl)
        have hnothing := hshared _ hmem
        refine ⟨?_, fun k hsite => ⟨fun held hk => ?_, hstored _ k (hx.keyed.written_eq_zero env _ ?_)⟩⟩
        · rw [hlanded.zones]
          exact zonesUnder_of_not_mem (hsites _ hmem)
        · rw [hlanded.metrics] at hk
          by_cases hown : k ∈ o.metrics.all
          · refine absurd (.inr ⟨by cases hp <;> rfl, k, ?_, hsite⟩) hnothing
            refine AList.mem_keys.mp (mem_inserted_iff.mpr ⟨held, ?_⟩)
            obtain ⟨v, hv⟩ := Option.isSome_iff_exists.mp (AList.lookup_isSome.mpr hown)
            unfold seenUnder at hk
            rw [hv] at hk ⊢
            exact congrArg some hk
          · rwa [seenUnder_of_not_mem hown] at hk
        · intro key hkey heq
          exact hnothing (.inl ⟨key, AList.mem_keys.mp hkey, heq.trans hsite⟩)
      have hdays : ∀ k ∈ other.metrics.all, .setTimezone ∉ todo ∧ k.siteId = kind.siteId := by
        intro k hk
        refine ⟨fun hmem => ?_, siteId_of_covers (hrebuild.covered k hk)⟩
        rw [(hchange.waiting hmem).2.2.2] at hk
        exact absurd hk (AList.notMem_empty k)
      refine ⟨hrebuild.of_commit (fun k hk => ?_) fun k hk => ?_,
        (zoneSound_of_some env hnew).mpr (hchange.of_commit (fun hnot => ?_) hkept)⟩
      · obtain ⟨hlocked, hsite⟩ := hdays k hk
        obtain ⟨birth, hlock⟩ := hchange.locked hlocked
        rw [hsite, hlock, zonesUnder_insert_self, zonesUnder_insert_self]
      · obtain ⟨hlocked, hsite⟩ := hdays k hk
        exact ((hkept hlocked).2 k hsite).2
      · exact ⟨deleteMetrics_not_mem hrebuild.inOrder hnot, (hrebuild.refilling hnot).1⟩

end Commits

/-! ## §2. The invariant. -/

section World
variable {env : Platform} {κ ρ : Type} [DecidableEq κ] {w w' : World κ ρ}

/-- What is committed of the three tables. -/
def World.committed (w : World κ ρ) : Committed := ⟨w.sites.committed, w.raw.committed, w.metrics.committed⟩

/-- What a transaction has written in them. -/
def World.own (w : World κ ρ) (x : Nat) : Own := ⟨w.sites.workOf x, w.raw.workOf x, w.metrics.workOf x⟩

/-- **The invariant.** -/
structure Consistent (env : Platform) (w : World κ ρ) : Prop where
  accounted : ∀ k, metricsAt (w.metrics.committed.lookup k) = stored env w.zones w.raw.committed k
  sound : ∀ x p, w.programs.lookup x = some p → Sound env w.committed (w.own x) p
  released : ∀ x, w.programs.lookup x = none → w.own x = Own.none
  /-- `FOR UPDATE` and `FOR KEY SHARE` exclude each other. -/
  apart : ∀ x y siteId, w.sites.Holds x siteId → y ≠ x → ¬w.Shares y siteId

/-- Nothing is stored. -/
theorem consistent_initial (sites : Table Uuid (Held String)) :
    Consistent env (World.initial sites : World κ ρ) where
  accounted k := by
    show (0, 0, 0) = countersOf (dayRows env _ [] k)
    rw [dayRows_nil]
    rfl
  sound x p h := by cases h
  released x _ := rfl
  apart x y siteId h := by
    have h : siteId ∈ (Work.none : Work Uuid String).all := h
    rw [Work.all_none] at h
    exact absurd h (AList.notMem_empty siteId)

/-- A step of one transaction that commits nothing. -/
structure Alone (x : Nat) (w w' : World κ ρ) : Prop where
  sites : Relation.Private x w.sites w'.sites
  raw : Relation.Private x w.raw w'.raw
  metrics : Relation.Private x w.metrics w'.metrics
  programs : ∀ y, y ≠ x → w'.programs.lookup y = w.programs.lookup y

namespace Alone
variable {x : Nat} (h : Alone x w w')
include h

theorem committed : w'.committed = w.committed := by
  unfold World.committed
  rw [h.sites.committed, h.raw.committed, h.metrics.committed]

theorem zones : w'.zones = w.zones := by
  unfold World.zones
  rw [h.sites.committed]

theorem own {y : Nat} (hy : y ≠ x) : w'.own y = w.own y := by
  unfold World.own
  rw [h.sites.others y hy, h.raw.others y hy, h.metrics.others y hy]

theorem shares {y : Nat} (hy : y ≠ x) (siteId : Uuid) : w'.Shares y siteId ↔ w.Shares y siteId := by
  show (w'.own y).Shares (w'.inserting y) siteId ↔ (w.own y).Shares (w.inserting y) siteId
  unfold World.inserting
  rw [h.own hy, h.programs y hy]

theorem holds {y : Nat} (hy : y ≠ x) (siteId : Uuid) : w'.sites.Holds y siteId ↔ w.sites.Holds y siteId := by
  unfold Relation.Holds
  rw [h.sites.others y hy]

end Alone

theorem Consistent.of_alone (h : Consistent env w) {x : Nat} (halone : Alone x w w')
    (hself : ∀ p, w'.programs.lookup x = some p → Sound env w.committed (w'.own x) p)
    (hover : w'.programs.lookup x = none → w'.own x = Own.none)
    (hlock : ∀ siteId, w'.sites.Holds x siteId →
      w.sites.Holds x siteId ∨ ∀ y, y ≠ x → ¬w.Shares y siteId)
    (hshare : ∀ siteId, w'.Shares x siteId →
      w.Shares x siteId ∨ ∀ y, y ≠ x → ¬w.sites.Holds y siteId) : Consistent env w' where
  accounted := by
    rw [halone.metrics.committed, halone.raw.committed, halone.zones]
    exact h.accounted
  sound y p hp := by
    rw [halone.committed]
    by_cases hy : y = x
    · subst hy
      exact hself p hp
    · rw [halone.own hy]
      exact h.sound y p ((halone.programs y hy).symm.trans hp)
  released y hy := by
    by_cases hyx : y = x
    · subst hyx
      exact hover hy
    · rw [halone.own hyx]
      exact h.released y ((halone.programs y hyx).symm.trans hy)
  apart y z siteId hy hzy hz := by
    by_cases hyx : y = x
    · subst hyx
      rw [halone.shares hzy] at hz
      rcases hlock siteId hy with hheld | hfree
      · exact h.apart y z siteId hheld hzy hz
      · exact hfree z hzy hz
    · rw [halone.holds hyx] at hy
      by_cases hzx : z = x
      · subst hzx
        rcases hshare siteId hz with hshared | hfree
        · exact h.apart y z siteId hy hzy hshared
        · exact hfree y hyx hy
      · rw [halone.shares hzx] at hz
        exact h.apart y z siteId hy hzy hz

/-- The transaction goes on with a new program; it locks no site and shares no other. -/
theorem Consistent.of_program (h : Consistent env w) (x : Nat) (p : Program)
    (hsites : w'.sites = w.sites) (hraw : Relation.Private x w.raw w'.raw)
    (hmetrics : Relation.Private x w.metrics w'.metrics)
    (hprograms : w'.programs = AList.insert x p w.programs)
    (hself : Sound env w.committed (w'.own x) p)
    (hshare : ∀ siteId, (w'.own x).Shares p.inserting siteId →
      w.Shares x siteId ∨ ∀ y, y ≠ x → ¬w.sites.Holds y siteId) : Consistent env w' := by
  have hinserting : w'.inserting x = p.inserting := by
    unfold World.inserting
    rw [hprograms, AList.lookup_insert]
  have halone : Alone x w w' := by
    refine ⟨?_, hraw, hmetrics, fun y hy => ?_⟩
    · rw [hsites]
      exact .refl x _
    · rw [hprograms, AList.lookup_insert_ne hy]
  refine h.of_alone halone (fun q hq => ?_) (fun hnone => ?_) (fun siteId hheld => ?_) fun siteId hshares => ?_
  · rw [hprograms, AList.lookup_insert] at hq
    rw [← Option.some.inj hq]
    exact hself
  · rw [hprograms, AList.lookup_insert] at hnone
    cases hnone
  · rw [hsites] at hheld
    exact .inl hheld
  · refine hshare siteId ?_
    rw [← hinserting]
    exact hshares

theorem inserting_of_program {x : Nat} {p : Program} (h : w.programs.lookup x = some p) :
    w.inserting x = p.inserting := by
  unfold World.inserting
  rw [h]

/-- The same, where nothing is written: only the program is another one. -/
theorem Consistent.withProgram (h : Consistent env w) {x : Nat} {p q : Program}
    (hprogram : w.programs.lookup x = some p) (hself : Sound env w.committed (w.own x) q)
    (hinserting : q.inserting = false → p.inserting = false) : Consistent env (w.withProgram x q) := by
  refine h.of_program x q rfl (.refl x _) (.refl x _) rfl hself fun siteId hshares => .inl ?_
  rcases hshares with hraw | ⟨hidle, hputs⟩
  · exact .inl hraw
  · exact .inr ⟨(inserting_of_program hprogram).trans (hinserting hidle), hputs⟩

theorem not_shares_none {inserting : Bool} {siteId : Uuid} : ¬Own.none.Shares inserting siteId := by
  rintro (⟨key, hkey, -⟩ | ⟨-, k, hk, -⟩)
  · have hkey : key ∈ (Work.none : Work (Uuid × Uuid) RawEvent).all.keys := hkey
    rw [Work.all_none] at hkey
    exact absurd hkey List.not_mem_nil
  · have hk : k ∈ (inserted (Work.none : Work DayKey DailyMetrics).all).keys := hk
    rw [Work.all_none] at hk
    exact absurd hk List.not_mem_nil

/-- A transaction begins. -/
theorem Consistent.begin (h : Consistent env w) {x : Nat} (hfresh : x ∉ w.programs) {p : Program}
    (hself : Sound env w.committed Own.none p) : Consistent env (w.withProgram x p) := by
  have hown : w.own x = Own.none := h.released x (AList.lookup_eq_none.mpr hfresh)
  refine h.of_program x p rfl (.refl x _) (.refl x _) rfl ?_ fun siteId hshares => ?_
  · show Sound env w.committed (w.own x) p
    rw [hown]
    exact hself
  · have hshares : (w.own x).Shares p.inserting siteId := hshares
    rw [hown] at hshares
    exact absurd hshares not_shares_none

/-- A transaction is rolled back. -/
theorem Consistent.abort (h : Consistent env w) (x : Nat) : Consistent env (w.abort x) := by
  obtain ⟨hsites, hsitesWork⟩ := w.sites.discard_spec x
  obtain ⟨hraw, hrawWork⟩ := w.raw.discard_spec x
  obtain ⟨hmetrics, hwork⟩ := w.metrics.discard_spec x
  have hown : (w.abort x).own x = Own.none := by
    unfold World.own
    rw [show (w.abort x).sites = w.sites.discard x from rfl, show (w.abort x).raw = w.raw.discard x from rfl,
      show (w.abort x).metrics = w.metrics.discard x from rfl, hsitesWork, hrawWork, hwork]
    rfl
  refine h.of_alone ⟨hsites, hraw, hmetrics, fun y hy => AList.lookup_erase_ne hy⟩ (fun p hp => ?_)
    (fun _ => hown) (fun siteId hheld => ?_) fun siteId hshares => ?_
  · rw [show (w.abort x).programs.lookup x = none from AList.lookup_erase _ _] at hp
    cases hp
  · have hheld : siteId ∈ ((w.abort x).own x).sites.all := hheld
    rw [hown] at hheld
    have hheld : siteId ∈ (Work.none : Work Uuid String).all := hheld
    rw [Work.all_none] at hheld
    exact absurd hheld (AList.notMem_empty siteId)
  · have hshares : ((w.abort x).own x).Shares _ siteId := hshares
    rw [hown] at hshares
    exact absurd hshares not_shares_none

/-- A transaction commits. -/
theorem Consistent.commit (h : Consistent env w) {x : Nat} {p : Program}
    (hprogram : w.programs.lookup x = some p) (hp : Committable p) :
    Consistent env (w.commit x) := by
  have hsound := h.sound x p hprogram
  obtain ⟨hsites, hsitesWork, hsitesOthers⟩ := w.sites.commit_spec x
  obtain ⟨hraw, hrawWork, hrawOthers⟩ := w.raw.commit_spec x
  obtain ⟨hmetrics, hwork, hothers⟩ := w.metrics.commit_spec x
  have hlanded : Landed w.committed (w.commit x).committed (w.own x) := ⟨hsites, rfl, hmetrics⟩
  have hzones : (w.commit x).zones = zonesUnder (w.own x).sites.all w.committed.sites := hlanded.zones
  have hown : ∀ y, y ≠ x → (w.commit x).own y = w.own y := by
    intro y hy
    show (⟨(w.sites.commit x).workOf y, (w.raw.commit x).workOf y, (w.metrics.commit x).workOf y⟩ : Own) = _
    rw [hsitesOthers y hy, hrawOthers y hy, hothers y hy]
    rfl
  have hself : (w.commit x).own x = Own.none := by
    show (⟨(w.sites.commit x).workOf x, (w.raw.commit x).workOf x, (w.metrics.commit x).workOf x⟩ : Own) = _
    rw [hsitesWork, hrawWork, hwork]
    rfl
  have hprograms : ∀ y, y ≠ x → (w.commit x).programs.lookup y = w.programs.lookup y :=
    fun y hy => AList.lookup_erase_ne hy
  have hshares : ∀ y, y ≠ x → ∀ siteId, (w.commit x).Shares y siteId → w.Shares y siteId := by
    intro y hy siteId hs
    have hs : ((w.commit x).own y).Shares ((w.commit x).inserting y) siteId := hs
    unfold World.inserting at hs
    rw [hown y hy, hprograms y hy] at hs
    exact hs
  refine ⟨fun k => ?_, fun y q hq => ?_, fun y hy => ?_, fun y z siteId hy hzy hz => ?_⟩
  · rw [hzones, show (w.commit x).metrics.committed.lookup k = _ from hmetrics k,
      show (w.commit x).raw.committed = overlay (w.own x).raw.all w.committed.raw from hlanded.raw,
      stored_overlay env _ hsound.fresh]
    exact hsound.counts_of_committable hp h.accounted k
  · have hy : y ≠ x := by
      rintro rfl
      rw [show (w.commit y).programs.lookup y = none from AList.lookup_erase _ _] at hq
      cases hq
    have hq : w.programs.lookup y = some q := (hprograms y hy).symm.trans hq
    rw [hown y hy]
    refine Sound.of_commit (h.sound y q hq) hlanded hsound hp (fun siteId hs hx => ?_) (fun key hk hx => ?_)
      (fun k hk hx => ?_) (fun siteId hs hx => ?_) fun siteId hs hx => ?_
    · exact hy (Relation.eq_of_holds hs hx)
    · exact hy (Relation.eq_of_holds hk hx)
    · exact hy (Relation.eq_of_holds hk hx)
    · rw [← inserting_of_program hq] at hx
      exact h.apart x y siteId hs hy hx
    · rw [← inserting_of_program hprogram] at hx
      exact h.apart y x siteId hs (Ne.symm hy) hx
  · by_cases hyx : y = x
    · rw [hyx]
      exact hself
    · rw [hown y hyx]
      exact h.released y ((hprograms y hyx).symm.trans hy)
  · have hyx : y ≠ x := by
      rintro rfl
      have hy : siteId ∈ ((w.commit y).own y).sites.all := hy
      rw [hself] at hy
      have hy : siteId ∈ (Work.none : Work Uuid String).all := hy
      rw [Work.all_none] at hy
      exact absurd hy (AList.notMem_empty siteId)
    have hzx : z ≠ x := by
      rintro rfl
      have hz : ((w.commit z).own z).Shares _ siteId := hz
      rw [hself] at hz
      exact not_shares_none hz
    refine h.apart y z siteId ?_ hzy (hshares z hzx siteId hz)
    have hy : siteId ∈ ((w.commit x).own y).sites.all := hy
    rw [hown y hyx] at hy
    exact hy

/-! ## §3. Every step. -/

/-- A worker reads the zone. -/
theorem Consistent.readZone (h : Consistent env w) (x : Nat) (siteId : Uuid) :
    Consistent env (w.readZone x siteId) := by
  unfold World.readZone
  split
  next timezone hprogram hzone =>
    have hsound : WorkerSound env w.committed (w.own x) none := h.sound x _ hprogram
    exact h.withProgram hprogram hsound id
  next => exact h

/-- A raw row is inserted. -/
theorem Consistent.insertRaw (h : Consistent env w) (x : Nat) (row : RawEvent) :
    Consistent env (w.insertRaw x row) := by
  unfold World.insertRaw
  split
  next zone hprogram =>
    have hsound : WorkerSound env w.committed (w.own x) none := h.sound x _ hprogram
    split
    next hsite =>
      split
      next => exact h
      next hseen =>
        split
        next => exact h
        next raw hraw =>
          obtain ⟨-, hprivate, hwork⟩ := Relation.insertRow_spec hraw
          obtain ⟨hown, hnew⟩ := not_mem_of_seen_none hsound.booked.keyed hseen
          refine h.of_program x _ rfl hprivate (.refl x _) rfl ?_ fun siteId hshares => ?_
          · show WorkerSound env w.committed ⟨w.sites.workOf x, raw.workOf x, w.metrics.workOf x⟩ (some row)
            rw [hwork]
            exact hsound.insertRaw _ hown hnew
          · -- the site of the new event is free
            rcases hshares with ⟨key, hkey, hid⟩ | hputs
            · have hkey : key ∈ (raw.workOf x).all := AList.mem_keys.mpr hkey
              rw [hwork, Work.all_put, AList.mem_insert] at hkey
              rcases hkey with rfl | hold
              · refine .inr fun y hy => ?_
                rw [← hid]
                exact Relation.not_holds_of_free hsite.2 hy
              · exact .inl (.inl ⟨key, AList.mem_keys.mp hold, hid⟩)
            · exact .inl (.inr ⟨inserting_of_program hprogram, hputs.2⟩)
    next => exact h
  next => exact h

/-- A worker counts its event. -/
theorem Consistent.countEvent (h : Consistent env w) (x : Nat) (amount : Binary64)
    (hdated : w.Dated env (.countEvent x amount)) : Consistent env (w.countEvent env x amount) := by
  unfold World.countEvent
  dsimp only [World.Dated] at hdated
  split
  next zone row hprogram =>
    have hsound : WorkerSound env w.committed (w.own x) (some row) := h.sound x _ hprogram
    rw [hprogram] at hdated
    dsimp only at hdated ⊢
    split
    next => exact h
    next counted hcounted =>
      split
      next => exact h
      next metrics hmetrics =>
        obtain ⟨-, hprivate, birth, hwork⟩ := Relation.upsertRow_spec hmetrics
        refine h.of_program x _ rfl (.refl x _) hprivate rfl ?_ fun siteId hshares => .inl ?_
        · show WorkerSound env w.committed ⟨w.sites.workOf x, w.raw.workOf x, metrics.workOf x⟩ none
          rw [hwork]
          cases hexcluded : excludedRevenue amount with
          | error e =>
            rw [hexcluded] at hcounted
            cases hcounted
          | ok excluded =>
            rw [hexcluded] at hcounted
            exact hsound.countEvent hdated hcounted birth
        · -- the site is the stored event's
          rcases hshares with hraw | ⟨-, k, hk, hid⟩
          · exact .inl hraw
          · have hk : k ∈ (metrics.workOf x).all := mem_of_mem_inserted (AList.mem_keys.mpr hk)
            rw [hwork, Work.all_put, AList.mem_insert] at hk
            have hbacked : ∃ key ∈ (w.own x).raw.all, key.1 = siteId := by
              rcases hk with rfl | hold
              · exact ⟨row.uniqueKey, hsound.booked.stored row (List.mem_singleton.mpr rfl), hid⟩
              · obtain ⟨key, hkey, hsite⟩ := hsound.booked.backed k hold
                exact ⟨key, hkey, hsite.trans hid⟩
            obtain ⟨key, hkey, hsite⟩ := hbacked
            exact .inl ⟨key, AList.mem_keys.mp hkey, hsite⟩
  next => exact h

/-- The zone changes. -/
theorem Consistent.setTimezone (h : Consistent env w) {x : Nat} {siteId : Uuid} {timezone : String}
    {rest : List Statement}
    (hprogram : w.programs.lookup x
      = some (.rebuild (.siteDailyAggregates siteId timezone) (.setTimezone :: rest) .idle)) :
    Consistent env (w.setTimezone x siteId timezone rest) := by
  obtain ⟨hrebuild, hzone⟩ := h.sound x _ hprogram
  have hchange : ZoneChange env w.committed (w.own x) siteId timezone (.setTimezone :: rest) .idle := hzone
  obtain ⟨-, -, hnoSites, hnoMetrics⟩ := hchange.waiting List.mem_cons_self
  unfold World.setTimezone
  split
  · exact h
  next hunshared =>
    split
    · exact h
    next hfree =>
      split
      next => exact h.abort x
      next previous hseen =>
        split
        next => exact h
        next sites hsites =>
          obtain ⟨-, hprivate, hwork⟩ := Relation.write_spec hsites
          have hprevious : w.committed.sites.lookup siteId = some previous := by
            have hseen : ((w.own x).sites.all.lookup siteId).getD (w.committed.sites.lookup siteId)
                = some previous := hseen
            rw [hnoSites] at hseen
            exact hseen
          have horder : InOrder (if previous.row = timezone then [.derived] else rest) := by
            split
            · trivial
            · exact hrebuild.inOrder
          have halone : Alone x w ({ w with sites := sites }.withProgram x
              (.rebuild (.siteDailyAggregates siteId timezone)
                (if previous.row = timezone then [.derived] else rest) .idle)) :=
            ⟨hprivate, .refl x _, .refl x _, fun y hy => AList.lookup_insert_ne hy⟩
          have hown : (⟨sites.workOf x, w.raw.workOf x, w.metrics.workOf x⟩ : Own)
              = { w.own x with sites := (w.own x).sites.put siteId (some { previous with row := timezone }) } := by
            rw [hwork]
            rfl
          refine h.of_alone halone (fun p hp => ?_) (fun hnone => ?_) (fun siteId' hheld => ?_)
            fun siteId' hshares => .inl ?_
          · have hp := (AList.lookup_insert _).symm.trans hp
            obtain rfl := Option.some.inj hp
            show Sound env w.committed ⟨sites.workOf x, w.raw.workOf x, w.metrics.workOf x⟩ _
            rw [hown]
            exact ⟨hrebuild.setTimezone hnoMetrics _ horder, hchange.setTimezone hprevious⟩
          · rw [show World.programs _ = AList.insert x _ w.programs from rfl, AList.lookup_insert] at hnone
            cases hnone
          · -- nobody has stored anything of the site and is still under way
            have hheld : siteId' ∈ (sites.workOf x).all := hheld
            rw [hwork, Work.all_put, AList.mem_insert] at hheld
            rcases hheld with rfl | hold
            · refine .inr fun y hy hshares => hunshared ⟨y, ?_, hy, hshares⟩
              by_contra hnot
              have hover := h.released y (AList.lookup_eq_none.mpr fun hmem => hnot (AList.mem_keys.mp hmem))
              have hshares : (w.own y).Shares (w.inserting y) siteId' := hshares
              rw [hover] at hshares
              exact not_shares_none hshares
            · exact .inl hold
          · rcases hshares with hraw | ⟨-, hputs⟩
            · exact .inl hraw
            · exact .inr ⟨inserting_of_program hprogram, hputs⟩

/-- A rebuild's next statement. -/
theorem Consistent.nextStatement (h : Consistent env w) (x : Nat) :
    Consistent env (w.nextStatement env x) := by
  unfold World.nextStatement
  split
  next siteId timezone rest hprogram => exact h.setTimezone hprogram
  next kind rest hprogram =>
    obtain ⟨hrebuild, hzone⟩ := h.sound x _ hprogram
    exact h.withProgram hprogram ⟨hrebuild.nextDerived, hzone.goes id fun _ _ hchange => hchange.nextDerived⟩ id
  next kind rest hprogram =>
    obtain ⟨hrebuild, hzone⟩ := h.sound x _ hprogram
    have hcovered : ∀ e ∈ ((w.metrics.snapshot x).entries.filter fun e => kind.covers e.1).map
        fun e => (e.1, e.2.birth), kind.covers e.1 = true := by
      intro e he
      obtain ⟨held, hheld, rfl⟩ := List.mem_map.mp he
      exact (List.mem_filter.mp hheld).2
    refine h.withProgram hprogram ⟨hrebuild.nextDelete hcovered, hzone.goes id fun timezone hnew hchange => ?_⟩ id
    refine hchange.nextDelete hrebuild.inOrder.1 fun k held hsite hheld hk => ?_
    have hseen : (w.metrics.snapshot x).lookup k = some held :=
      (lookup_overlay _ _ k).trans ((seenUnder_of_not_mem hk).trans hheld)
    refine List.mem_map.mpr ⟨⟨k, held⟩, List.mem_filter.mpr ⟨AList.mem_lookup_iff.mp hseen, ?_⟩, rfl⟩
    exact covers_of_newZone hnew hsite
  next kind rest hprogram =>
    obtain ⟨hrebuild, hzone⟩ := h.sound x _ hprogram
    split
    next => exact h.abort x
    next rows hrows =>
      refine h.withProgram hprogram ⟨hrebuild.nextInsert hrows, hzone.goes id fun timezone hnew hchange => ?_⟩
        fun hidle => by cases hidle
      exact hchange.nextInsert hrebuild.inOrder (hrebuild.emptied List.mem_cons_self).2
        fun k hsite => hrebuild.select_counts hrows (covers_of_newZone hnew hsite)
  next => exact h

/-- A rebuild deletes a row. -/
theorem Consistent.deleteRow (h : Consistent env w) (x i : Nat) : Consistent env (w.deleteRow x i) := by
  unfold World.deleteRow
  split
  next kind todo left hprogram =>
    obtain ⟨hrebuild, hzone⟩ := h.sound x _ hprogram
    have hto := hrebuild.insert_to_come
    have hsub : ∀ e ∈ left.eraseIdx i, e ∈ left := fun e he => List.mem_of_mem_eraseIdx he
    split
    next => exact h
    next k birth hleft =>
      have hcovered := hrebuild.scanned left rfl _ (List.mem_of_getElem? hleft)
      split
      · exact h
      dsimp only
      split
      next hthere =>
        split
        next => exact h
        next metrics hmetrics =>
          obtain ⟨-, hprivate, hwork⟩ := Relation.write_spec hmetrics
          have hown : (⟨w.sites.workOf x, w.raw.workOf x, metrics.workOf x⟩ : Own)
              = { w.own x with metrics := (w.own x).metrics.put k none } := by
            rw [hwork]
            rfl
          refine h.of_program x _ rfl (.refl x _) hprivate rfl ?_ fun siteId hshares => .inl ?_
          · show Sound env w.committed ⟨w.sites.workOf x, w.raw.workOf x, metrics.workOf x⟩ _
            rw [hown]
            refine ⟨hrebuild.deleteRow hsub hcovered, hzone.goes (fun hbeside => hbeside.put ?_ none)
              fun _ _ hchange => hchange.deleteRow hto hleft⟩
            -- the row was seen, so it is there
            by_cases hk : k ∈ (w.own x).metrics.all
            · exact .inl hk
            · refine .inr (AList.lookup_isSome.mp ?_)
              have hseen : ((seenUnder (w.own x).metrics.all w.committed.metrics k).map Held.birth) = some birth :=
                hthere
              rw [seenUnder_of_not_mem hk] at hseen
              obtain ⟨held, hheld, -⟩ := Option.map_eq_some_iff.mp hseen
              rw [hheld]
              rfl
          · rcases hshares with hraw | ⟨-, k', hk', hid⟩
            · exact .inl hraw
            · refine .inr ⟨?_, k', ?_, hid⟩
              · exact inserting_of_program hprogram
              · obtain ⟨held, hheld⟩ := mem_inserted_iff.mp (AList.mem_keys.mpr hk')
                have hheld : (metrics.workOf x).all.lookup k' = some (some held) := hheld
                rw [hwork, Work.all_put] at hheld
                refine AList.mem_keys.mp (mem_inserted_iff.mpr ⟨held, ?_⟩)
                by_cases hkk : k' = k
                · rw [hkk, AList.lookup_insert] at hheld
                  cases hheld
                · rwa [AList.lookup_insert_ne hkk] at hheld
      next hgone =>
        exact h.withProgram hprogram ⟨hrebuild.skipRow hsub,
          hzone.goes id fun _ _ hchange => hchange.skipRow hto hleft hgone⟩ id
  next => exact h

/-- A rebuild inserts a row. -/
theorem Consistent.insertRow (h : Consistent env w) (x : Nat) (k : DayKey)
    (hdated : w.Dated env (.insertRow x k)) : Consistent env (w.insertRow x k) := by
  unfold World.insertRow
  dsimp only [World.Dated] at hdated
  split
  next kind todo left hprogram =>
    obtain ⟨hrebuild, hzone⟩ := h.sound x _ hprogram
    rw [hprogram] at hdated
    dsimp only at hdated
    split
    next => exact h
    next row hrow =>
      have hlater := hrebuild.insert_under_way hrow
      split
      · exact h
      split
      next => exact h.abort x
      next hseen =>
        split
        next => exact h
        next metrics hmetrics =>
          obtain ⟨-, hprivate, hwork⟩ := Relation.insertRow_spec hmetrics
          have hown : (⟨w.sites.workOf x, w.raw.workOf x, metrics.workOf x⟩ : Own) = { w.own x with
              metrics := (w.own x).metrics.put k (some ⟨w.metrics.births + 1, row⟩) } := by
            rw [hwork]
            rfl
          have hmem : k ∈ left := AList.lookup_isSome.mp (by rw [hrow]; rfl)
          refine h.of_program x _ rfl (.refl x _) hprivate rfl ?_ fun siteId hshares => .inl ?_
          · show Sound env w.committed ⟨w.sites.workOf x, w.raw.workOf x, metrics.workOf x⟩ _
            rw [hown]
            cases hnew : kind.newZone with
            | none =>
              have hbeside := (zoneSound_of_none env hnew).mp hzone
              -- a day with stored events has a row, which would have been met
              have hheld : k ∈ (w.own x).metrics.all := by
                by_contra hnot
                have hrows := (hdated hnew hmem).resolve_left hnot
                have hnone : w.metrics.committed.lookup k = none := (seenUnder_of_not_mem hnot).symm.trans hseen
                have hzero := h.accounted k
                rw [hnone] at hzero
                have hlength : (w.storedEvents env k).length = 0 := (congrArg Prod.fst hzero).symm
                exact hrows (List.length_eq_zero_iff.mp hlength)
              exact ⟨hrebuild.insertRow hrow hseen ((hrebuild.refilling hlater).2 k hheld) _,
                (zoneSound_of_none env hnew).mpr (hbeside.put (.inl hheld) _)⟩
            | some timezone =>
              have hchange := (zoneSound_of_some env hnew).mp hzone
              have hmoved := (hchange.moved_of_doing (fun heq => by cases heq)).2
              have hsite := siteId_of_covers (hrebuild.selected k hmem)
              exact ⟨hrebuild.insertRow hrow hseen (hchange.filled hmoved hlater k hsite) _,
                (zoneSound_of_some env hnew).mpr (hchange.insertRow hrow hseen _)⟩
          · rcases hshares with hraw | ⟨hidle, -⟩
            · exact .inl hraw
            · cases hidle
  next => exact h

/-- A statement is done. -/
theorem Consistent.statementDone (h : Consistent env w) (x : Nat) :
    Consistent env (w.statementDone x) := by
  unfold World.statementDone
  split
  next kind todo hprogram =>
    obtain ⟨hrebuild, hzone⟩ := h.sound x _ hprogram
    exact h.withProgram hprogram ⟨hrebuild.done rfl,
      hzone.goes id fun _ _ hchange => hchange.deleteDone hrebuild.insert_to_come⟩ id
  next kind todo left hprogram =>
    obtain ⟨hrebuild, hzone⟩ := h.sound x _ hprogram
    split
    next hdone =>
      have hempty : left = ∅ := AList.ext hdone.1
      refine h.of_program x _ rfl (.refl x _) (.refl x _) rfl
        ⟨hrebuild.done hempty, hzone.goes id fun _ _ hchange => hchange.insertDone hempty⟩ fun siteId hshares => ?_
      -- the rows are of its own site, which is free
      rcases hshares with hraw | ⟨-, k, hk, hid⟩
      · exact .inl (.inl hraw)
      · refine .inr fun y hy => ?_
        have hmem : k ∈ (w.own x).metrics.all := mem_of_mem_inserted (AList.mem_keys.mpr hk)
        have hsite := siteId_of_covers (hrebuild.covered k hmem)
        rw [← hid, hsite]
        exact Relation.not_holds_of_free (hdone.2 ⟨k, hk, hsite⟩) hy
    next => exact h
  next => exact h

/-- **The invariant is kept by every step of every transaction.** -/
theorem Consistent.step (h : Consistent env w) (action : Action κ ρ) (hdated : w.Dated env action) :
    Consistent env (w.step env action) := by
  cases action with
  | beginWorker x =>
    show Consistent env (if x ∈ w.programs then w else _)
    split
    · exact h
    next hfresh => exact h.begin hfresh workerSound_begin
  | beginRebuild x kind =>
    show Consistent env (if x ∈ w.programs then w else _)
    split
    · exact h
    next hfresh =>
      refine h.begin hfresh ⟨rebuildSound_begin kind, ?_⟩
      cases kind with
      | environmentDateRange => exact beside_begin
      | siteDailyAggregates => exact zoneChange_begin
      | siteDerivedData => exact beside_begin
  | readZone x siteId => exact h.readZone x siteId
  | insertRaw x row => exact h.insertRaw x row
  | countEvent x amount => exact h.countEvent x amount hdated
  | derived x k f =>
    show Consistent env (if x ∈ w.programs then _ else w)
    split
    · split
      · exact h
      · exact ⟨h.accounted, h.sound, h.released, h.apart⟩
    · exact h
  | release x =>
    unfold World.step
    dsimp only
    split
    next zone hprogram =>
      have hsound : WorkerSound env w.committed (w.own x) none := h.sound x _ hprogram
      obtain ⟨hraw, hrawWork⟩ := w.raw.release_spec x
      obtain ⟨hmetrics, hwork⟩ := w.metrics.release_spec x
      refine h.of_program x _ rfl hraw hmetrics rfl ?_ fun siteId hshares => .inl ?_
      · show WorkerSound env w.committed
          ⟨w.sites.workOf x, (w.raw.release x).workOf x, (w.metrics.release x).workOf x⟩ none
        rw [hrawWork, hwork]
        exact hsound.release
      · have hshares : Own.Shares
            ⟨w.sites.workOf x, (w.raw.release x).workOf x, (w.metrics.release x).workOf x⟩ false siteId := hshares
        unfold Own.Shares at hshares
        rw [hrawWork, hwork, Work.all_release, Work.all_release] at hshares
        exact hshares.imp_right fun hputs => ⟨inserting_of_program hprogram, hputs.2⟩
    next => exact h
  | rollback x =>
    unfold World.step
    dsimp only
    split
    next zone uncounted hprogram =>
      have hsound : WorkerSound env w.committed (w.own x) uncounted := h.sound x _ hprogram
      obtain ⟨hraw, hrawWork⟩ := w.raw.rollback_spec x
      obtain ⟨hmetrics, hwork⟩ := w.metrics.rollback_spec x
      refine h.of_program x _ rfl hraw hmetrics rfl ?_ fun siteId hshares => .inl (.inl ?_)
      · show WorkerSound env w.committed
          ⟨w.sites.workOf x, (w.raw.rollback x).workOf x, (w.metrics.rollback x).workOf x⟩ none
        rw [hrawWork, hwork]
        exact hsound.rollback
      · -- what is left of the metrics is of sites whose events are left
        have hshares : Own.Shares
            ⟨w.sites.workOf x, (w.raw.rollback x).workOf x, (w.metrics.rollback x).workOf x⟩ false siteId := hshares
        unfold Own.Shares at hshares
        rw [hrawWork, hwork, Work.all_rollback, Work.all_rollback] at hshares
        rcases hshares with ⟨key, hkey, hid⟩ | ⟨-, k, hk, hid⟩
        · exact ⟨key, AList.mem_keys.mp (Work.mem_all_of_outer (AList.mem_keys.mpr hkey)), hid⟩
        · obtain ⟨key, hkey, hsite⟩ := hsound.saved.backed k (mem_of_mem_inserted (AList.mem_keys.mpr hk))
          exact ⟨key, AList.mem_keys.mp (Work.mem_all_of_outer hkey), hsite.trans hid⟩
    next => exact h
  | nextStatement x => exact h.nextStatement x
  | deleteRow x i => exact h.deleteRow x i
  | insertRow x k => exact h.insertRow x k hdated
  | statementDone x => exact h.statementDone x
  | commit x =>
    unfold World.step
    dsimp only
    split
    next hprogram => exact h.commit hprogram .worker
    next kind hprogram => exact h.commit hprogram (.rebuild kind)
    next => exact h
  | abort x =>
    show Consistent env (if x ∈ w.programs then w.abort x else w)
    split
    · exact h.abort x
    · exact h

/-! ## §4. What only a commit does. -/

/-- Nothing that is committed has changed. -/
structure SameCommitted (w w' : World κ ρ) : Prop where
  sites : w'.sites.committed = w.sites.committed
  raw : w'.raw.committed = w.raw.committed
  metrics : w'.metrics.committed = w.metrics.committed
  derived : w'.derived.committed = w.derived.committed
  log : w'.log = w.log

theorem SameCommitted.refl (w : World κ ρ) : SameCommitted w w := ⟨rfl, rfl, rfl, rfl, rfl⟩

theorem sameCommitted_readZone (x : Nat) (siteId : Uuid) : SameCommitted w (w.readZone x siteId) := by
  unfold World.readZone
  split
  · exact ⟨rfl, rfl, rfl, rfl, rfl⟩
  · exact .refl w

theorem sameCommitted_insertRaw (x : Nat) (row : RawEvent) : SameCommitted w (w.insertRaw x row) := by
  unfold World.insertRaw
  split
  · split
    · split
      · exact .refl w
      · split
        · exact .refl w
        next raw hraw => exact ⟨rfl, (Relation.insertRow_spec hraw).2.1.committed, rfl, rfl, rfl⟩
    · exact .refl w
  · exact .refl w

theorem sameCommitted_countEvent (x : Nat) (amount : Binary64) :
    SameCommitted w (w.countEvent env x amount) := by
  unfold World.countEvent
  split
  · dsimp only
    split
    · exact .refl w
    split
    · exact .refl w
    next metrics hmetrics => exact ⟨rfl, rfl, (Relation.upsertRow_spec hmetrics).2.1.committed, rfl, rfl⟩
  · exact .refl w

theorem sameCommitted_setTimezone (x : Nat) (siteId : Uuid) (timezone : String) (rest : List Statement) :
    SameCommitted w (w.setTimezone x siteId timezone rest) := by
  unfold World.setTimezone
  split
  · exact .refl w
  split
  · exact .refl w
  split
  · exact ⟨rfl, rfl, rfl, rfl, rfl⟩
  split
  · exact .refl w
  next sites hsites => exact ⟨(Relation.write_spec hsites).2.1.committed, rfl, rfl, rfl, rfl⟩

theorem sameCommitted_nextStatement (x : Nat) : SameCommitted w (w.nextStatement env x) := by
  unfold World.nextStatement
  split
  · exact sameCommitted_setTimezone _ _ _ _
  · exact ⟨rfl, rfl, rfl, rfl, rfl⟩
  · exact ⟨rfl, rfl, rfl, rfl, rfl⟩
  · split
    · exact ⟨rfl, rfl, rfl, rfl, rfl⟩
    · exact ⟨rfl, rfl, rfl, rfl, rfl⟩
  · exact .refl w

theorem sameCommitted_deleteRow (x i : Nat) : SameCommitted w (w.deleteRow x i) := by
  unfold World.deleteRow
  split
  · split
    · exact .refl w
    · split
      · exact .refl w
      · dsimp only
        split
        · split
          · exact .refl w
          next metrics hmetrics => exact ⟨rfl, rfl, (Relation.write_spec hmetrics).2.1.committed, rfl, rfl⟩
        · exact ⟨rfl, rfl, rfl, rfl, rfl⟩
  · exact .refl w

theorem sameCommitted_insertRow (x : Nat) (k : DayKey) : SameCommitted w (w.insertRow x k) := by
  unfold World.insertRow
  split
  · split
    · exact .refl w
    · split
      · exact .refl w
      · split
        · exact ⟨rfl, rfl, rfl, rfl, rfl⟩
        · split
          · exact .refl w
          next metrics hmetrics =>
            exact ⟨rfl, rfl, (Relation.insertRow_spec hmetrics).2.1.committed, rfl, rfl⟩
  · exact .refl w

theorem sameCommitted_statementDone (x : Nat) : SameCommitted w (w.statementDone x) := by
  unfold World.statementDone
  split
  · exact ⟨rfl, rfl, rfl, rfl, rfl⟩
  · split
    · exact ⟨rfl, rfl, rfl, rfl, rfl⟩
    · exact .refl w
  · exact .refl w

/-- **Only a commit changes what is committed.** -/
theorem committed_step (env : Platform) (w : World κ ρ) (action : Action κ ρ) :
    SameCommitted w (w.step env action)
      ∨ ∃ x, action = .commit x ∧ w.step env action = w.commit x := by
  cases action with
  | beginWorker x =>
    refine .inl ?_
    show SameCommitted w (if x ∈ w.programs then w else _)
    split <;> exact ⟨rfl, rfl, rfl, rfl, rfl⟩
  | beginRebuild x kind =>
    refine .inl ?_
    show SameCommitted w (if x ∈ w.programs then w else _)
    split <;> exact ⟨rfl, rfl, rfl, rfl, rfl⟩
  | readZone x siteId => exact .inl (sameCommitted_readZone x siteId)
  | insertRaw x row => exact .inl (sameCommitted_insertRaw x row)
  | countEvent x amount => exact .inl (sameCommitted_countEvent x amount)
  | derived x k f =>
    refine .inl ?_
    show SameCommitted w (if x ∈ w.programs then _ else w)
    split
    · split
      · exact .refl w
      next derived hderived => exact ⟨rfl, rfl, rfl, (Relation.write_spec hderived).2.1.committed, rfl⟩
    · exact .refl w
  | release x =>
    refine .inl ?_
    unfold World.step
    dsimp only
    split <;> exact ⟨rfl, rfl, rfl, rfl, rfl⟩
  | rollback x =>
    refine .inl ?_
    unfold World.step
    dsimp only
    split <;> exact ⟨rfl, rfl, rfl, rfl, rfl⟩
  | nextStatement x => exact .inl (sameCommitted_nextStatement x)
  | deleteRow x i => exact .inl (sameCommitted_deleteRow x i)
  | insertRow x k => exact .inl (sameCommitted_insertRow x k)
  | statementDone x => exact .inl (sameCommitted_statementDone x)
  | commit x =>
    unfold World.step
    dsimp only
    split
    · exact .inr ⟨x, rfl, rfl⟩
    · exact .inr ⟨x, rfl, rfl⟩
    · exact .inl (.refl w)
  | abort x =>
    refine .inl ?_
    show SameCommitted w (if x ∈ w.programs then w.abort x else w)
    split <;> exact ⟨rfl, rfl, rfl, rfl, rfl⟩

/-- A commit is one more transaction replayed. -/
theorem replayed_step {sites : Table Uuid (Held String)} (h : w.Replayed sites) (action : Action κ ρ) :
    (w.step env action).Replayed sites := by
  rcases committed_step env w action with hsame | ⟨x, -, hcommit⟩
  · refine ⟨?_, ?_, ?_, ?_⟩
    · rw [hsame.sites, hsame.log]
      exact h.sites
    · rw [hsame.raw, hsame.log]
      exact h.raw
    · rw [hsame.metrics, hsame.log]
      exact h.metrics
    · rw [hsame.derived, hsame.log]
      exact h.derived
  · rw [hcommit]
    refine ⟨?_, ?_, ?_, ?_⟩
    · exact congrArg (overlay (w.sites.workOf x).all) h.sites
    · exact congrArg (overlay (w.raw.workOf x).all) h.raw
    · exact congrArg (overlay (w.metrics.workOf x).all) h.metrics
    · exact congrArg (overlay (w.derived.workOf x).all) h.derived

/-- **The whole run.** -/
theorem replayed_run {sites : Table Uuid (Held String)} (h : w.Replayed sites) (actions : List (Action κ ρ)) :
    (w.run env actions).Replayed sites := by
  induction actions generalizing w with
  | nil => exact h
  | cons action actions ih => exact ih (replayed_step h action)

end World

/-- **Rebuilds and ingestion interleave safely.**  Along every run whose steps meet
`Dated`, in every state: each day's metrics count every stored event of the day once;
what is committed is what the committed transactions wrote; and a rebuild that ends
otherwise than by its commit leaves it all as it is. -/
theorem rebuilds_interleave {κ ρ : Type} [DecidableEq κ] (env : Platform)
    (sites : Table Uuid (Held String)) (actions : List (Action κ ρ))
    (h : Along (World.step env) (World.Dated env) (World.initial sites) actions) (n : Nat) :
    let w := (World.initial sites : World κ ρ).run env (actions.take n)
    (∀ k, countersAt ((w.metrics.committed.lookup k).map Held.row) = countersOf (w.storedEvents env k))
      ∧ w.Replayed sites
      ∧ ∀ x kind todo doing action, w.programs.lookup x = some (.rebuild kind todo doing) →
        (w.step env action).programs.lookup x = none → action ≠ .commit x →
        SameCommitted w (w.step env action) := by
  intro w
  have hstep : ∀ (w : World κ ρ) (a : Action κ ρ), Consistent env w → w.Dated env a →
      Consistent env (w.step env a) := fun w a hw ha => hw.step a ha
  have hconsistent : Consistent env w :=
    along_induction hstep (actions.take n) (consistent_initial sites) (along_take n h)
  refine ⟨hconsistent.accounted, replayed_run ⟨rfl, rfl, rfl, rfl⟩ _, ?_⟩
  intro x kind todo doing action hprogram hover hne
  rcases committed_step env w action with hsame | ⟨y, rfl, hcommit⟩
  · exact hsame
  · -- the commit of another transaction ends no rebuild but its own
    have hxy : x ≠ y := fun hxy => hne (by rw [hxy])
    rw [hcommit] at hover
    have hkept : (w.commit y).programs.lookup x = w.programs.lookup x := AList.lookup_erase_ne hxy
    rw [hkept, hprogram] at hover
    cases hover

namespace ZoneSample

/-- Seoul is nine hours ahead of UTC. -/
def platform : Platform :=
  { Sample.platform with
    localDate := fun zone t =>
      (if zone = "Asia/Seoul" then t + 9 * 3600 * 1000000 else t) / (24 * 3600 * 1000000) }

def sites : Table Uuid (Held String) := AList.singleton Sample.siteId ⟨0, "UTC"⟩

/-- A page view, so many hours after the start of day 0 in UTC. -/
def event (id : Nat) (hours : Int) : RawEvent where
  id := id
  eventId := ⟨BitVec.ofNat 128 id⟩
  siteId := Sample.siteId
  eventName := "page_view"
  eventTimestamp := hours * 3600 * 1000000
  visitorId := "v"
  sessionId := "s"

def day (date : Date) : DayKey := ⟨Sample.siteId, date, "prd"⟩

/-- A worker reads the zone. -/
def reads (x : Nat) : List (Action Nat Nat) := [.beginWorker x, .readZone x Sample.siteId]

/-- It stores one event, counts it and commits. -/
def stores (x id : Nat) (hours : Int) : List (Action Nat Nat) :=
  [.insertRaw x (event id hours), .countEvent x zeroFloat, .release x, .commit x]

/-- `updateSite` takes the site to Seoul; `n` days have rows, and these come to have. -/
def movesToSeoul (x n : Nat) (days : List Date) : List (Action Nat Nat) :=
  .beginRebuild x (.siteDailyAggregates Sample.siteId "Asia/Seoul")
    :: List.replicate 5 (.nextStatement x) ++ List.replicate n (.deleteRow x 0)
    ++ [.statementDone x, .nextStatement x] ++ days.map (fun date => .insertRow x (day date))
    ++ [.statementDone x, .nextStatement x, .nextStatement x, .commit x]

/-- An event of 20:00 is moved to the next day.  Worker 4 has read the zone before the
change, and counts an event of 02:00 after it, which is of the same day in both zones. -/
def moved : List (Action Nat Nat) :=
  reads 1 ++ stores 1 1 20 ++ reads 4 ++ movesToSeoul 2 1 [1] ++ reads 3 ++ stores 3 2 21 ++ stores 4 3 2

/-- The world when all of them have committed. -/
def afterMove : World Nat Nat := (World.initial sites).run platform moved

/-- The worker reads the zone, `updateSite` runs, and the worker goes on. -/
def staleZone : List (Action Nat Nat) := reads 1 ++ movesToSeoul 2 0 [] ++ stores 1 1 20

def afterStaleZone : World Nat Nat := (World.initial sites).run platform staleZone

end ZoneSample

open ZoneSample in
theorem rebuilds_interleave_moved :
    Along (World.step platform) (World.Dated platform) (World.initial sites) moved
      ∧ (∀ k, countersAt ((afterMove.metrics.committed.lookup k).map Held.row)
          = countersOf (afterMove.storedEvents platform k))
      ∧ afterMove.programs.keys = [] ∧ afterMove.zones Sample.siteId = some "Asia/Seoul"
      ∧ afterMove.metrics.committed.entries.map (fun e => (e.1.eventDate, e.2.row.events)) = [(0, 1), (1, 2)] := by
  have halong : Along (World.step platform) (World.Dated platform) (World.initial sites) moved := by
    decide +kernel
  have haccounted := (rebuilds_interleave platform sites moved halong moved.length).1
  rw [List.take_length] at haccounted
  refine ⟨halong, ?_, ?_, ?_, ?_⟩
  · unfold afterMove
    exact haccounted
  · decide +kernel
  · decide +kernel
  · decide +kernel

/-- **A zone read before the change and used after it.**  Everybody commits; day 0 has
one event in its metrics and, in Seoul, none stored. -/
theorem staleZone_miscounts :
    ZoneSample.afterStaleZone.programs.keys = []
      ∧ ZoneSample.afterStaleZone.log.map Commit.transaction = [1, 2]
      ∧ ¬∀ k, countersAt ((ZoneSample.afterStaleZone.metrics.committed.lookup k).map Held.row)
        = countersOf (ZoneSample.afterStaleZone.storedEvents ZoneSample.platform k) := by
  refine ⟨by decide +kernel, by decide +kernel, fun h => ?_⟩
  have hday := h (ZoneSample.day 0)
  revert hday
  decide +kernel

end Momento.Interleaving
