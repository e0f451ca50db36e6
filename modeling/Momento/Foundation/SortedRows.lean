/-
  Momento.Foundation.SortedRows

  **ROWS IN ORDER.**  `ORDER BY` a column that has a value once puts rows in one order
  only, so that two queries give the same list exactly where they give the same rows.
-/
import Mathlib.Data.List.Sort
import Mathlib.Order.Basic
import Momento.Foundation.OrderedAggregate
import Momento.Foundation.Table

namespace Foundation

section
variable {κ ρ : Type} [DecidableEq κ]

/-- The rows of a table, with their keys. -/
def Table.pairs (t : Table κ ρ) : List (κ × ρ) := t.entries.map fun e => (e.1, e.2)

theorem Table.mem_pairs {t : Table κ ρ} {k : κ} {r : ρ} : (k, r) ∈ t.pairs ↔ t.lookup k = some r := by
  rw [← Option.mem_def, AList.mem_lookup_iff]
  constructor
  · intro h
    obtain ⟨e, he, heq⟩ := List.mem_map.mp h
    obtain ⟨rfl, rfl⟩ := Prod.mk.inj heq
    exact he
  · intro h
    exact List.mem_map.mpr ⟨⟨k, r⟩, h, rfl⟩

omit [DecidableEq κ] in
theorem Table.nodup_pairs (t : Table κ ρ) : (t.pairs.map Prod.fst).Nodup := by
  unfold Table.pairs
  rw [List.map_map]
  exact t.nodupKeys

end

variable {κ ρ : Type} [LinearOrder κ]

/-- `ORDER BY` the first column. -/
def orderBy (rows : List (κ × ρ)) : List (κ × ρ) := rows.mergeSort fun a b => decide (a.1 ≤ b.1)

theorem mem_orderBy {rows : List (κ × ρ)} {r : κ × ρ} : r ∈ orderBy rows ↔ r ∈ rows := List.mem_mergeSort

/-- Where every value is there once, the rows are in strict order. -/
theorem orderBy_sorted {rows : List (κ × ρ)} (h : (rows.map Prod.fst).Nodup) :
    (orderBy rows).Pairwise fun a b => a.1 < b.1 := by
  have hle : (orderBy rows).Pairwise fun a b => decide (a.1 ≤ b.1) = true := by
    refine List.pairwise_mergeSort (fun a b c hab hbc => ?_) (fun a b => ?_) rows
    · exact decide_eq_true (le_trans (of_decide_eq_true hab) (of_decide_eq_true hbc))
    · rw [Bool.or_eq_true, decide_eq_true_iff, decide_eq_true_iff]
      exact le_total a.1 b.1
  have hne : (orderBy rows).Pairwise fun a b => a.1 ≠ b.1 := by
    have hnodup : ((orderBy rows).map Prod.fst).Nodup :=
      (((List.mergeSort_perm rows _).map Prod.fst).nodup_iff).mpr h
    exact List.pairwise_map.mp hnodup
  exact (hle.and hne).imp fun {a b} hab => lt_of_le_of_ne (of_decide_eq_true hab.1) hab.2

/-- **The same lists are the same rows.** -/
theorem orderBy_eq_iff {rows rows' : List (κ × ρ)} (h : (rows.map Prod.fst).Nodup) (h' : (rows'.map Prod.fst).Nodup) :
    orderBy rows = orderBy rows' ↔ ∀ k r, (k, r) ∈ rows ↔ (k, r) ∈ rows' := by
  constructor
  · intro heq k r
    rw [← mem_orderBy, heq, mem_orderBy]
  · intro hmem
    have : Std.Irrefl fun a b : κ × ρ => a.1 < b.1 := ⟨fun a => lt_irrefl a.1⟩
    refine (orderBy_sorted h).eq_of_mem_iff (orderBy_sorted h') fun row => ?_
    rw [mem_orderBy, mem_orderBy]
    exact hmem row.1 row.2

/-- **The first row is before every other one.** -/
theorem firstBy_le {le : ρ → ρ → Prop} [DecidableRel le] (htotal : ∀ a b, le a b ∨ le b a)
    (htrans : ∀ a b c, le a b → le b c → le a c) {rows : List ρ} {b : ρ} (h : firstBy le rows = some b) :
    ∀ a ∈ rows, le b a := by
  induction rows generalizing b with
  | nil =>
    intro a ha
    cases ha
  | cons e rows ih =>
    intro a ha
    rw [firstBy_cons] at h
    cases hfirst : firstBy le rows with
    | none =>
      rw [hfirst] at h
      rw [(firstBy_eq_none le).mp hfirst, List.mem_singleton] at ha
      rw [ha, ← Option.some.inj h]
      exact (htotal e e).elim id id
    | some c =>
      rw [hfirst] at h
      dsimp only at h
      split at h
      next hle =>
        rw [← Option.some.inj h]
        cases List.mem_cons.mp ha with
        | inl heq =>
          rw [heq]
          exact (htotal e e).elim id id
        | inr hmem => exact htrans e c a hle (ih hfirst a hmem)
      next hle =>
        rw [← Option.some.inj h]
        cases List.mem_cons.mp ha with
        | inl heq =>
          rw [heq]
          exact (htotal e c).resolve_left hle
        | inr hmem => exact ih hfirst a hmem

end Foundation
