/-
  Momento.Foundation.OrderStatistics

  **WHAT STANDS IN THE MIDDLE OF A SORTED LIST.**  Sorting forgets the order the values
  came in.  And one value, however far off, takes up one place only: it can be first or
  last, so that what stands between the first and the last is no further out than the
  others are.
-/
import Mathlib.Data.List.GetD
import Mathlib.Data.List.Sort
import Mathlib.Order.Basic

namespace Foundation

variable {α : Type}

/-! ## §1. Sorted lists. -/

section Sorted

variable [LinearOrder α]

/-- The values in ascending order. -/
def sorted (l : List α) : List α := l.mergeSort fun a b => decide (a ≤ b)

theorem sorted_perm (l : List α) : (sorted l).Perm l := List.mergeSort_perm l _

@[simp] theorem length_sorted (l : List α) : (sorted l).length = l.length := List.length_mergeSort l

theorem pairwise_sorted (l : List α) : (sorted l).Pairwise (· ≤ ·) := by
  have hpairwise := @List.pairwise_mergeSort _ (fun a b : α => decide (a ≤ b))
    (fun a b c hab hbc => decide_eq_true ((of_decide_eq_true hab).trans (of_decide_eq_true hbc)))
    (fun a b => by
      rw [Bool.or_eq_true, decide_eq_true_eq, decide_eq_true_eq]
      exact le_total a b) l
  exact hpairwise.imp fun h => of_decide_eq_true h

/-- **The same values, sorted, are the same list.** -/
theorem sorted_eq_of_perm {l l' : List α} (h : l.Perm l') : sorted l = sorted l' :=
  List.Perm.eq_of_pairwise (fun _ _ _ _ hab hba => le_antisymm hab hba) (pairwise_sorted l) (pairwise_sorted l')
    ((sorted_perm l).trans (h.trans (sorted_perm l').symm))

/-! ## §2. All values but one. -/

/-- A value of a sorted list, after another, is out of bounds below only if two are. -/
theorem le_of_inner {lo x : α} {rest s : List α} (hperm : s.Perm (x :: rest)) (hsorted : s.Pairwise (· ≤ ·))
    (h : ∀ v ∈ rest, lo ≤ v) {k : Nat} (hk : 0 < k) (hlt : k < s.length) : lo ≤ s[k] := by
  by_contra hlow
  have hone : s.countP (· < lo) ≤ 1 := by
    have hnone : rest.countP (· < lo) = 0 :=
      List.countP_eq_zero.mpr fun v hv => by simpa using h v hv
    rw [hperm.countP_eq, List.countP_cons, hnone]
    split <;> omega
  cases s with
  | nil => exact absurd hlt (Nat.not_lt_zero k)
  | cons first later =>
    obtain ⟨j, rfl⟩ : ∃ j, k = j + 1 := ⟨k - 1, by omega⟩
    rw [List.getElem_cons_succ] at hlow
    have hmem := List.getElem_mem (l := later) (Nat.lt_of_succ_lt_succ hlt)
    have hfirst := (List.pairwise_cons.mp hsorted).1 _ hmem
    have hlater : 0 < later.countP (· < lo) :=
      List.countP_pos_iff.mpr ⟨_, hmem, decide_eq_true (not_le.mp hlow)⟩
    rw [List.countP_cons, if_pos (decide_eq_true (hfirst.trans_lt (not_le.mp hlow)))] at hone
    omega

/-- And one before another is out of bounds above only if two are. -/
theorem inner_le {hi x : α} {rest s : List α} (hperm : s.Perm (x :: rest)) (hsorted : s.Pairwise (· ≤ ·))
    (h : ∀ v ∈ rest, v ≤ hi) {k : Nat} (hlt : k + 1 < s.length) : s[k] ≤ hi := by
  by_contra hhigh
  have hone : s.countP (hi < ·) ≤ 1 := by
    have hnone : rest.countP (hi < ·) = 0 :=
      List.countP_eq_zero.mpr fun v hv => by simpa using h v hv
    rw [hperm.countP_eq, List.countP_cons, hnone]
    split <;> omega
  -- The list from this place on begins with two values that are too high.
  have hdrop : s.drop k = s[k] :: s[k + 1] :: s.drop (k + 2) := by
    rw [List.drop_eq_getElem_cons (by omega), List.drop_eq_getElem_cons hlt]
  have hnext : s[k] ≤ s[k + 1] := List.pairwise_iff_getElem.mp hsorted k (k + 1) _ hlt (Nat.lt_succ_self k)
  have htwo : 2 ≤ (s.drop k).countP (hi < ·) := by
    rw [hdrop, List.countP_cons, List.countP_cons, if_pos (decide_eq_true (not_le.mp hhigh)),
      if_pos (decide_eq_true ((not_le.mp hhigh).trans_le hnext))]
    omega
  have hsub : (s.drop k).countP (hi < ·) ≤ s.countP (hi < ·) := (List.drop_sublist k s).countP_le
  omega

/-- **An inner place of the sorted list is bounded by all values but one.** -/
theorem inner_between {lo hi x : α} {rest : List α} (h : ∀ v ∈ rest, lo ≤ v ∧ v ≤ hi) {l : List α}
    (hperm : l.Perm (x :: rest)) {k : Nat} (hk : 0 < k) (hlt : k + 1 < l.length) (d : α) :
    lo ≤ (sorted l).getD k d ∧ (sorted l).getD k d ≤ hi := by
  have hlength : k < (sorted l).length := by
    rw [length_sorted]
    omega
  have hperm' := (sorted_perm l).trans hperm
  rw [List.getD_eq_getElem _ _ hlength]
  exact ⟨le_of_inner hperm' (pairwise_sorted l) (fun v hv => (h v hv).1) hk hlength,
    inner_le hperm' (pairwise_sorted l) (fun v hv => (h v hv).2) (by rw [length_sorted]; exact hlt)⟩

end Sorted

/-! ## §3. Searches. -/

/-- **What is there once is found in any order.** -/
theorem find?_eq_of_perm {l l' : List α} (hperm : l.Perm l') {p : α → Bool} (hone : (l.filter p).length ≤ 1) :
    l.find? p = l'.find? p := by
  rw [← List.head?_filter, ← List.head?_filter]
  have hfilter := hperm.filter p
  cases hl : l.filter p with
  | nil =>
    rw [hl] at hfilter
    rw [hfilter.symm.eq_nil]
  | cons a rest =>
    rw [hl, List.length_cons] at hone
    have hrest : rest = [] := List.length_eq_zero_iff.mp (by omega)
    rw [hl, hrest] at hfilter
    rw [List.perm_singleton.mp hfilter.symm, hrest]

/-- At most one element has a key that no two elements share. -/
theorem length_filter_le_one {κ : Type} [DecidableEq κ] {l : List α} {key : α → κ} (h : (l.map key).Nodup) (k : κ) :
    (l.filter fun a => key a = k).length ≤ 1 := by
  have hcount := List.nodup_iff_count_le_one.mp h k
  have hsame : (fun a => decide (key a = k)) = (· == k) ∘ key := by
    funext a
    exact (beq_eq_decide _ _).symm
  rw [List.count_eq_countP, List.countP_map, ← hsame, List.countP_eq_length_filter] at hcount
  exact hcount

end Foundation
