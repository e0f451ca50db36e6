/-
  Momento.Foundation.Buckets

  **ROWS BY A KEY.**  A report that groups the rows of a query by a key shows each row
  once: what its lines count adds up to what the rows count, whatever the key is, and
  their shares of the whole to a hundred.
-/
import Mathlib.Algebra.BigOperators.Ring.Finset
import Mathlib.Algebra.Order.Field.Rat
import Mathlib.Data.Finset.Card
import Mathlib.Tactic.FieldSimp
import Mathlib.Tactic.Ring
import Momento.Foundation.EveryRow

namespace Foundation

namespace Table

variable {κ ρ σ : Type} [DecidableEq κ]

/-! ## §1. The lines of a report. -/

/-- **What the lines count adds up to what the rows count.** -/
theorem sum_groupRows (key : σ → κ) (agg : κ → List σ → ρ) {f : ρ → Nat} {w : σ → Nat}
    (hf : ∀ k group, f (agg k group) = (group.map w).sum) (rows : List σ) :
    ((groupRows key agg rows).entries.map fun e => f e.2).sum = (rows.map w).sum := by
  have hint : ∀ k group, ((f (agg k group) : Nat) : Int) = (group.map fun r => (w r : Int)).sum := by
    intro k group
    rw [hf, Nat.cast_list_sum, List.map_map]
    rfl
  have hsum := sumRows_groupRows (f := fun _ r => (f r : Int)) key hint rows
  apply Int.ofNat_injective
  show ((_ : Nat) : Int) = ((_ : Nat) : Int)
  rw [Nat.cast_list_sum, Nat.cast_list_sum, List.map_map, List.map_map]
  exact hsum

/-- **The line of a key counts its group.** -/
theorem sum_groupRows_of (key : σ → κ) (agg : κ → List σ → ρ) {f : ρ → Nat} (rows : List σ) (k : κ) :
    (((groupRows key agg rows).entries.filter fun e => e.1 = k).map fun e => f e.2).sum
      = if groupOf key rows k = [] then 0 else f (agg k (groupOf key rows k)) := by
  have hentries : (groupRows key agg rows).entries
      = (rows.map key).dedup.map fun k => (⟨k, agg k (groupOf key rows k)⟩ : Sigma fun _ : κ => ρ) := rfl
  have hkeys : (rows.map key).dedup.filter (fun k' => k' = k)
      = if groupOf key rows k = [] then [] else [k] := by
    rw [List.filter_eq]
    by_cases hnil : groupOf key rows k = []
    · have hnot : k ∉ (rows.map key).dedup := by
        rw [List.mem_dedup]
        exact (groupOf_eq_nil_iff key rows k).mp hnil
      rw [if_pos hnil, List.count_eq_zero.mpr hnot, List.replicate_zero]
    · have hmem : k ∈ (rows.map key).dedup := by
        by_contra hnot
        rw [List.mem_dedup] at hnot
        exact hnil ((groupOf_eq_nil_iff key rows k).mpr hnot)
      rw [if_neg hnil, List.count_eq_one_of_mem (List.nodup_dedup _) hmem, List.replicate_one]
  rw [hentries, List.filter_map]
  show ((((rows.map key).dedup.filter fun k' => decide (k' = k)).map _).map _).sum = _
  rw [hkeys]
  split
  · rfl
  · simp

/-- **The keys a condition selects are as many as its rows.** -/
theorem card_filter_keys (t : Table κ ρ) (p : (Sigma fun _ : κ => ρ) → Bool) :
    ((t.entries.filter p).map Sigma.fst).toFinset.card = (t.entries.filter p).length := by
  have hnodup : ((t.entries.filter p).map Sigma.fst).Nodup := t.nodupKeys.sublist List.filter_sublist
  rw [List.toFinset_card_of_nodup hnodup, List.length_map]

/-! ## §2. Groups of sorted rows. -/

/-- The keys of a map filled in one pass, in the order they came. -/
theorem foldl_addToGroup_sublist (key : σ → κ) (rows : List σ) :
    ∃ ks : List κ, ks.Sublist (rows.map key) ∧ ks.Nodup ∧ (∀ k, k ∈ ks ↔ k ∈ rows.map key) ∧
      rows.foldl (fun groups r => addToGroup key r groups) [] = ks.map fun k => (k, groupOf key rows k) := by
  induction rows using List.reverseRecOn with
  | nil => exact ⟨[], List.Sublist.slnil, List.nodup_nil, fun _ => Iff.rfl, rfl⟩
  | append_singleton rows r ih =>
    obtain ⟨ks, hsub, hnodup, hmem, hfold⟩ := ih
    have hnew : key r ∉ ks → groupOf key rows (key r) = [] := fun h =>
      (groupOf_eq_nil_iff key rows (key r)).mpr fun hr => h ((hmem _).mpr hr)
    have hgroups := addToGroup_groups key r rows hnodup hnew
    rw [List.foldl_append, hfold, List.map_append]
    by_cases hold : key r ∈ ks
    · rw [if_pos hold] at hgroups
      refine ⟨ks, hsub.trans (List.sublist_append_left _ _), hnodup, fun k => ?_, hgroups⟩
      rw [List.mem_append, ← hmem k, List.map_singleton, List.mem_singleton]
      exact ⟨Or.inl, fun h => h.elim id fun h => h ▸ hold⟩
    · rw [if_neg hold] at hgroups
      refine ⟨ks ++ [key r], hsub.append (List.Sublist.refl _), ?_, fun k => ?_, hgroups⟩
      · exact hnodup.append (List.nodup_singleton _) (by simpa using hold)
      · rw [List.mem_append, List.mem_append, ← hmem k]
        exact Iff.rfl

/-- **The groups of sorted rows come in the order of their keys.** -/
theorem groupsInOrder_of_sorted {κ : Type} [LinearOrder κ] {key : σ → κ} {rows : List σ}
    (h : rows.Pairwise fun a b => key a ≤ key b) :
    ∃ ks : List κ, ks.Pairwise (· < ·) ∧ (∀ k, k ∈ ks ↔ k ∈ rows.map key)
      ∧ groupsInOrder key rows = ks.map fun k => groupOf key rows k := by
  obtain ⟨ks, hsub, hnodup, hmem, hfold⟩ := foldl_addToGroup_sublist key rows
  refine ⟨ks, ?_, hmem, ?_⟩
  · have hle : ks.Pairwise (· ≤ ·) := (List.pairwise_map.mpr h).sublist hsub
    exact (hle.and hnodup).imp fun h => lt_of_le_of_ne h.1 h.2
  · unfold groupsInOrder
    rw [hfold, List.map_map]
    rfl

end Table

/-! ## §3. Shares. -/

/-- **Shares of a whole add up to all of it.** -/
theorem sum_shares {α : Type} {f : α → Nat} {rows : List α} {total : Nat} (h : (rows.map f).sum = total)
    (hne : total ≠ 0) : (rows.map fun r => (f r : ℚ) * 100 / total).sum = 100 := by
  have hsum : ∀ rows : List α, (rows.map fun r => (f r : ℚ) * 100 / total).sum
      = ((rows.map f).sum : Nat) * 100 / (total : ℚ) := by
    intro rows
    induction rows with
    | nil => simp
    | cons r rows ih =>
      rw [List.map_cons, List.sum_cons, ih, List.map_cons, List.sum_cons, Nat.cast_add]
      ring
  have hq : (total : ℚ) ≠ 0 := Nat.cast_ne_zero.mpr hne
  rw [hsum, h]
  field_simp

end Foundation
