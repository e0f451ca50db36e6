/-
  Momento.Foundation.EveryRow

  **WHAT HOLDS OF EVERY ROW OF A TABLE.**  One rule per statement shape: what the
  statement writes has the property, so every row of the table it leaves has it.

  Where the rows come from a grouped query, the values of a row come from rows of
  its group; the rules at the end say so for each aggregate.
-/
import Momento.Foundation.Table
import Momento.Foundation.OrderedAggregate

namespace Foundation

namespace Table

variable {κ ρ σ : Type} [DecidableEq κ]

/-! ## §1. The property. -/

/-- Every row has the property. -/
def Every (P : κ → ρ → Prop) (t : Table κ ρ) : Prop := ∀ k r, t.lookup k = some r → P k r

variable {P : κ → ρ → Prop} {t : Table κ ρ}

theorem every_empty : Every P (∅ : Table κ ρ) := by
  intro k r h
  rw [AList.lookup_empty] at h
  cases h

/-! ## §2. The statements. -/

/-- An upsert keeps it. -/
theorem Every.upsert {k : κ} {ins : ρ} {upd : ρ → ρ} (h : Every P t) (hins : P k ins)
    (hupd : ∀ r, P k r → P k (upd r)) : Every P (t.upsert k ins upd) := by
  intro k' r hr
  by_cases hk : k' = k
  · subst hk
    rw [lookup_upsert_self] at hr
    obtain rfl := Option.some.inj hr
    cases hold : t.lookup k' with
    | none => exact hins
    | some old => exact hupd old (h k' old hold)
  · rw [lookup_upsert_of_ne hk] at hr
    exact h k' r hr

/-- An update keeps it. -/
theorem Every.modifyRows {f : κ → ρ → ρ} (h : Every P t) (hf : ∀ k r, P k r → P k (f k r)) :
    Every P (t.modifyRows f) := by
  intro k r hr
  rw [lookup_modifyRows] at hr
  obtain ⟨old, hold, rfl⟩ := Option.map_eq_some_iff.mp hr
  exact hf k old (h k old hold)

/-- A deletion keeps it. -/
theorem Every.deleteRows {drop : κ → ρ → Bool} (h : Every P t) : Every P (t.deleteRows drop) := by
  intro k r hr
  rw [lookup_deleteRows] at hr
  exact h k r (Option.eq_some_of_filter_eq_some hr)

theorem Every.filterMapRows {Q : κ → σ → Prop} {f : κ → ρ → Option σ} (h : Every P t)
    (hf : ∀ k r s, P k r → f k r = some s → Q k s) : Every Q (t.filterMapRows f) := by
  intro k s hs
  rw [lookup_filterMapRows] at hs
  obtain ⟨r, hr, hfr⟩ := Option.bind_eq_some_iff.mp hs
  exact hf k r s (h k r hr) hfr

/-- The rows of a grouped query: each has a group, and the group has a row. -/
theorem every_groupRows {key : σ → κ} {agg : κ → List σ → ρ} {rows : List σ}
    (h : ∀ r ∈ rows, P (key r) (agg (key r) (groupOf key rows (key r)))) : Every P (groupRows key agg rows) := by
  intro k r hr
  rw [lookup_groupRows] at hr
  split at hr
  · cases hr
  rename_i hgroup
  obtain rfl := Option.some.inj hr
  have hmem : k ∈ rows.map key := by
    by_contra hnot
    exact hgroup ((groupOf_eq_nil_iff key rows k).mpr hnot)
  obtain ⟨row, hrow, rfl⟩ := List.mem_map.mp hmem
  exact h row hrow

theorem Every.collect {ε : Type} {Q : κ → Except ε ρ → Prop} {t : Table κ (Except ε ρ)} {t' : Table κ ρ}
    (h : Every Q t) (hcollect : t.collect = .ok t') : Every (fun k r => Q k (.ok r)) t' := by
  intro k r hr
  refine h k (.ok r) ?_
  rw [lookup_collect hcollect, hr]
  rfl

/-- The new rows have the property, and so have the rows that stay. -/
theorem Every.replaceRows {covers : κ → Bool} {new : Table κ ρ} (h : Every P new)
    (hold : ∀ k r, covers k = false → t.lookup k = some r → P k r) : Every P (replaceRows covers new t) := by
  intro k r hr
  unfold Table.replaceRows at hr
  by_cases hk : k ∈ new
  · rw [AList.lookup_union_left hk] at hr
    exact h k r hr
  · rw [AList.lookup_union_right hk, lookup_deleteRows] at hr
    obtain ⟨hr, hcovers⟩ := Option.filter_eq_some_iff.mp hr
    exact hold k r (by simpa using hcovers) hr

/-- The group of a row has the row, and only rows under its key. -/
theorem mem_groupOf_self {key : σ → κ} {rows : List σ} {r : σ} (h : r ∈ rows) : r ∈ groupOf key rows (key r) :=
  List.mem_filter.mpr ⟨h, decide_eq_true rfl⟩

theorem mem_groupOf {key : σ → κ} {rows : List σ} {k : κ} {r : σ} (h : r ∈ groupOf key rows k) :
    r ∈ rows ∧ key r = k := by
  obtain ⟨hmem, hkey⟩ := List.mem_filter.mp h
  exact ⟨hmem, of_decide_eq_true hkey⟩

end Table

/-! ## §3. The aggregates. -/

section Aggregates
variable {ρ α : Type} {time : ρ → Int} {id : ρ → Nat} {col : ρ → Option α} {rows : List ρ}

theorem latest_mem {x : α} (h : latest time id col rows = some x) : ∃ r ∈ rows, col r = some x := by
  obtain ⟨r, hr, hx⟩ := Option.bind_eq_some_iff.mp h
  exact ⟨r, (latestRow_carries hr).1, hx⟩

/-- A column every row carries is answered from one of them. -/
theorem earliest_getD_mem (f : ρ → α) (d : α) (hrows : rows ≠ []) :
    ∃ r ∈ rows, (earliest time id (fun r => some (f r)) rows).getD d = f r := by
  cases hrow : earliestRow time id (fun r => some (f r)) rows with
  | none =>
    unfold earliestRow at hrow
    rw [firstBy_eq_none, List.filter_eq_nil_iff] at hrow
    obtain ⟨r, hr⟩ := List.exists_mem_of_ne_nil rows hrows
    exact absurd rfl (hrow r hr)
  | some r =>
    refine ⟨r, (earliestRow_carries hrow).1, ?_⟩
    rw [earliest_of_row hrow]
    rfl

theorem minTime_getD_mem (time : ρ → Int) (d : Int) (hrows : rows ≠ []) :
    ∃ r ∈ rows, (minTime time rows).getD d = time r := by
  cases hmin : minTime time rows with
  | none => exact absurd (minTime_eq_none_iff.mp hmin) hrows
  | some m =>
    obtain ⟨r, hr, rfl⟩ := minTime_mem hmin
    exact ⟨r, hr, rfl⟩

theorem maxTime_getD_mem (time : ρ → Int) (d : Int) (hrows : rows ≠ []) :
    ∃ r ∈ rows, (maxTime time rows).getD d = time r := by
  cases hmax : maxTime time rows with
  | none => exact absurd (maxTime_eq_none_iff.mp hmax) hrows
  | some m =>
    obtain ⟨r, hr, rfl⟩ := maxTime_mem hmax
    exact ⟨r, hr, rfl⟩

end Aggregates

end Foundation
