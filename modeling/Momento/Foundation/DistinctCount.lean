/-
  Momento.Foundation.DistinctCount

  **COUNTING DISTINCT VALUES GROUP BY GROUP.**  `count(DISTINCT f)` does not add up: the
  counts of the groups of a query, summed, count each value once for every group it is
  in.  They sum to the distinct pairs of group and value (`sum_distinct_groups`), which
  are as many as the distinct values exactly when a value is in one group only
  (`distinct_pair_eq_iff`).
-/
import Mathlib.Algebra.BigOperators.Group.Finset.Basic
import Mathlib.Data.Finset.Card
import Momento.Foundation.EveryRow

namespace Foundation

variable {σ κ α β : Type} [DecidableEq κ] [DecidableEq α] [DecidableEq β]

/-- `count(DISTINCT f)`. -/
def distinct (f : σ → α) (rows : List σ) : Nat := (rows.map f).dedup.length

section
variable {f : σ → α} {g : σ → β} {key : σ → κ} {rows : List σ}

theorem distinct_eq_card (f : σ → α) (rows : List σ) : distinct f rows = (rows.map f).toFinset.card :=
  (List.card_toFinset _).symm

/-- Fewer rows have no more values. -/
theorem distinct_le_of_subset {rows' : List σ} (h : ∀ r ∈ rows, r ∈ rows') : distinct f rows ≤ distinct f rows' := by
  rw [distinct_eq_card, distinct_eq_card]
  apply Finset.card_le_card
  intro x hx
  rw [List.mem_toFinset] at hx ⊢
  obtain ⟨r, hr, hfr⟩ := List.mem_map.mp hx
  exact List.mem_map.mpr ⟨r, h r hr, hfr⟩

/-- A value and what it determines are as many as the value. -/
theorem distinct_pair_eq_iff :
    distinct (fun r => (g r, f r)) rows = distinct f rows
      ↔ ∀ r ∈ rows, ∀ r' ∈ rows, f r = f r' → g r = g r' := by
  have himage : ((rows.map fun r => (g r, f r)).toFinset).image Prod.snd = (rows.map f).toFinset := by
    ext x
    simp only [Finset.mem_image, List.mem_toFinset, List.mem_map]
    constructor
    · rintro ⟨p, ⟨r, hr, rfl⟩, rfl⟩
      exact ⟨r, hr, rfl⟩
    · rintro ⟨r, hr, rfl⟩
      exact ⟨(g r, f r), ⟨r, hr, rfl⟩, rfl⟩
  rw [distinct_eq_card, distinct_eq_card, ← himage, eq_comm, Finset.card_image_iff]
  constructor
  · intro h r hr r' hr' heq
    have hmem : ∀ r ∈ rows, (g r, f r) ∈ ((rows.map fun r => (g r, f r)).toFinset : Set (β × α)) := by
      intro r hr
      exact List.mem_toFinset.mpr (List.mem_map.mpr ⟨r, hr, rfl⟩)
    exact congrArg Prod.fst (h (hmem r hr) (hmem r' hr') heq)
  · intro h p hp p' hp' heq
    obtain ⟨r, hr, rfl⟩ := List.mem_map.mp (List.mem_toFinset.mp hp)
    obtain ⟨r', hr', rfl⟩ := List.mem_map.mp (List.mem_toFinset.mp hp')
    exact Prod.ext (h r hr r' hr' heq) heq

/-- **The counts of the groups sum to the distinct pairs** of group and value. -/
theorem sum_distinct_groups {keys : List κ} (hnodup : keys.Nodup) (hkeys : ∀ r ∈ rows, key r ∈ keys) :
    (keys.map fun k => distinct f (Table.groupOf key rows k)).sum = distinct (fun r => (key r, f r)) rows := by
  have hmaps : ((rows.map fun r => (key r, f r)).toFinset : Set (κ × α)).MapsTo Prod.fst keys.toFinset := by
    intro p hp
    obtain ⟨r, hr, rfl⟩ := List.mem_map.mp (List.mem_toFinset.mp hp)
    exact List.mem_toFinset.mpr (hkeys r hr)
  rw [distinct_eq_card, Finset.card_eq_sum_card_fiberwise hmaps, List.sum_toFinset _ hnodup]
  congr 1
  refine List.map_congr_left fun k _ => ?_
  -- the pairs of a group are its values, tagged
  have hgroup : (rows.map fun r => (key r, f r)).toFinset.filter (fun p => p.1 = k)
      = ((Table.groupOf key rows k).map f).toFinset.image fun x => (k, x) := by
    ext p
    simp only [Finset.mem_filter, Finset.mem_image, List.mem_toFinset, List.mem_map]
    constructor
    · rintro ⟨⟨r, hr, rfl⟩, hk⟩
      have hk : key r = k := hk
      refine ⟨f r, ⟨r, ?_, rfl⟩, by rw [hk]⟩
      exact List.mem_filter.mpr ⟨hr, decide_eq_true hk⟩
    · rintro ⟨x, ⟨r, hr, rfl⟩, rfl⟩
      obtain ⟨hmem, hk⟩ := Table.mem_groupOf hr
      exact ⟨⟨r, hmem, by rw [hk]⟩, rfl⟩
  rw [hgroup, Finset.card_image_of_injective _ fun x y h => congrArg Prod.snd h, distinct_eq_card]

end

end Foundation
