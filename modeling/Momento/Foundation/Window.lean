/-
  Momento.Foundation.Window

  **ROW NUMBERS OF A PARTITION.**  `row_number() OVER (ORDER BY key)` gives the rows
  of a partition the numbers 1, 2, … in the order of a key.  Where no two rows
  share a key, every number up to the count of rows is given once; so what
  depends on the number alone can be summed over the numbers instead of the
  rows (`sum_rowNumber`).
-/
import Mathlib.Algebra.BigOperators.Group.Finset.Basic
import Mathlib.Algebra.BigOperators.Group.Finset.Piecewise
import Mathlib.Order.Interval.Finset.Nat
import Mathlib.Data.List.Perm.Subperm

namespace Foundation.Window

variable {ρ κ : Type} [LinearOrder κ]

/-- `row_number() OVER (ORDER BY key)`, in the partition `rows`. -/
def rowNumber (key : ρ → κ) (rows : List ρ) (r : ρ) : Nat := rows.countP (fun r' => key r' < key r) + 1

variable {key : ρ → κ} {rows : List ρ}

theorem one_le_rowNumber (r : ρ) : 1 ≤ rowNumber key rows r := Nat.le_add_left _ _

/-- A row is not before itself, so its number is not above the count of rows. -/
theorem rowNumber_le_length {r : ρ} (h : r ∈ rows) : rowNumber key rows r ≤ rows.length := by
  have hle := List.countP_le_length (p := fun r' => decide (key r' < key r)) (l := rows)
  have hne : rows.countP (fun r' => decide (key r' < key r)) ≠ rows.length := by
    intro heq
    have := List.countP_eq_length.mp heq r h
    simp at this
  unfold rowNumber
  omega

theorem rowNumber_lt {a b : ρ} (ha : a ∈ rows) (h : key a < key b) :
    rowNumber key rows a < rowNumber key rows b := by
  have hstrict : rows.countP (fun r => decide (key r < key a)) < rows.countP (fun r => decide (key r < key b)) := by
    -- what is before `a` is before `b`, and `a` is before `b` only
    obtain ⟨l, l', rfl⟩ := List.append_of_mem ha
    have hmono : ∀ l : List ρ, l.countP (fun r => decide (key r < key a))
        ≤ l.countP (fun r => decide (key r < key b)) := by
      intro l
      apply List.countP_mono_left
      intro r _ hr
      exact decide_eq_true ((of_decide_eq_true hr).trans h)
    have hleft := hmono l
    have hright := hmono l'
    simp only [List.countP_append, List.countP_cons, lt_irrefl, decide_false, Bool.false_eq_true, if_false,
      h, decide_true, if_true]
    omega
  unfold rowNumber
  omega

/-- **Every number once.** -/
theorem rowNumber_perm (h : (rows.map key).Nodup) :
    (rows.map (rowNumber key rows)).Perm (List.range' 1 rows.length) := by
  have hnodup : (rows.map (rowNumber key rows)).Nodup := by
    refine List.Nodup.map_on ?_ h.of_map
    intro a ha b hb heq
    rcases lt_trichotomy (key a) (key b) with hlt | hkey | hlt
    · have := rowNumber_lt ha hlt
      omega
    · exact List.inj_on_of_nodup_map h ha hb hkey
    · have := rowNumber_lt hb hlt
      omega
  have hsub : rows.map (rowNumber key rows) ⊆ List.range' 1 rows.length := by
    intro n hn
    obtain ⟨r, hr, rfl⟩ := List.mem_map.mp hn
    rw [List.mem_range'_1]
    have hlow : 1 ≤ rowNumber key rows r := one_le_rowNumber r
    have hhigh : rowNumber key rows r ≤ rows.length := rowNumber_le_length hr
    omega
  refine (hnodup.subperm hsub).perm_of_length_le ?_
  rw [List.length_map, List.length_range']

/-- **A sum over the rows of a partition is a sum over their numbers.** -/
theorem sum_rowNumber {M : Type} [AddCommMonoid M] (h : (rows.map key).Nodup) (f : Nat → M) :
    (rows.map fun r => f (rowNumber key rows r)).sum = ∑ n ∈ Finset.Icc 1 rows.length, f n := by
  have hmap : (rows.map fun r => f (rowNumber key rows r)) = (rows.map (rowNumber key rows)).map f := by
    rw [List.map_map]
    rfl
  have hrange : (List.range' 1 rows.length).toFinset = Finset.Icc 1 rows.length := by
    ext n
    rw [List.mem_toFinset, List.mem_range'_1, Finset.mem_Icc]
    omega
  rw [hmap, ((rowNumber_perm h).map f).sum_eq, ← hrange]
  exact (List.sum_toFinset f List.nodup_range').symm

/-- A share given to one number of the partition is given once. -/
theorem sum_one_number {M : Type} [AddCommMonoid M] (h : (rows.map key).Nodup) {k : Nat} (hone : 1 ≤ k)
    (hk : k ≤ rows.length) (x : M) :
    (rows.map fun r => if rowNumber key rows r = k then x else 0).sum = x := by
  rw [sum_rowNumber h fun n => if n = k then x else 0, Finset.sum_ite_eq' _ k fun _ => x,
    if_pos (Finset.mem_Icc.mpr ⟨hone, hk⟩)]

end Foundation.Window
