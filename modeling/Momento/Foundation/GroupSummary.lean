/-
  Momento.Foundation.GroupSummary

  **A TABLE THAT SUMMARISES GROUPS.**  A row that is inserted with a group's first member
  and updated with each one after holds what the group comes to; a rebuild puts in the
  same from all members at once.

      of        — what a group comes to, member by member
      Holds     — a table has, for every key, what its group comes to
-/
import Momento.Foundation.Table

namespace Foundation

/-- How a group is summarised: the first member, and one more. -/
structure Summary (σ α : Type) where
  ins : σ → α
  upd : σ → α → α

namespace Summary

variable {σ α : Type}

/-- What a group comes to; the last member stands first. -/
def of (S : Summary σ α) : List σ → Option α
  | [] => none
  | r :: group => some ((S.of group).elim (S.ins r) (S.upd r))

theorem of_eq_none_iff {S : Summary σ α} {group : List σ} : S.of group = none ↔ group = [] := by
  cases group with
  | nil => exact iff_of_true rfl rfl
  | cons r group => exact iff_of_false (Option.some_ne_none _) (List.cons_ne_nil _ _)

/-- A closed form that starts and goes on alike is what groups come to. -/
theorem of_eq {S : Summary σ α} {f : List σ → α} (hins : ∀ r, f [r] = S.ins r)
    (hupd : ∀ r group, group ≠ [] → f (r :: group) = S.upd r (f group)) {group : List σ} (hne : group ≠ []) :
    S.of group = some (f group) := by
  induction group with
  | nil => exact absurd rfl hne
  | cons r group ih =>
    by_cases hnil : group = []
    · rw [hnil, hins]
      rfl
    · show some ((S.of group).elim (S.ins r) (S.upd r)) = _
      rw [ih hnil, hupd r group hnil]
      rfl

variable {κ ρ : Type} [DecidableEq κ]

/-- **The table has, for every key of interest, what its group comes to.** -/
def Holds (S : Summary σ α) (proj : ρ → α) (keys : κ → Prop) (group : κ → List σ) (t : Table κ ρ) : Prop :=
  ∀ k, keys k → (t.lookup k).map proj = S.of (group k)

variable {S : Summary σ α} {proj : ρ → α} {keys : κ → Prop} {group group' : κ → List σ} {t t' : Table κ ρ}

/-- What a row holds, by a closed form. -/
theorem Holds.row {f : List σ → α} (hf : ∀ {group : List σ}, group ≠ [] → S.of group = some (f group))
    (h : S.Holds proj keys group t) {k : κ} (hk : keys k) :
    (t.lookup k).map proj = if group k = [] then none else some (f (group k)) := by
  rw [h k hk]
  by_cases hnil : group k = []
  · rw [if_pos hnil, hnil]
    rfl
  · rw [if_neg hnil, hf hnil]

/-- **One more member, one upsert.** -/
theorem Holds.upsert (h : S.Holds proj keys group t) {own : κ} {r : σ}
    (hgroup : ∀ k, group' k = if k = own then r :: group k else group k)
    (hlookup : ∀ k, (t'.lookup k).map proj
      = if k = own then some (((t.lookup k).map proj).elim (S.ins r) (S.upd r)) else (t.lookup k).map proj) :
    S.Holds proj keys group' t' := by
  intro k hk
  rw [hgroup, hlookup]
  by_cases hown : k = own
  · rw [if_pos hown, if_pos hown, h k hk]
    rfl
  · rw [if_neg hown, if_neg hown]
    exact h k hk

/-- **Some rows rebuilt**, the others as they were. -/
theorem Holds.replaceRows {covers : κ → Bool} {new : Table κ ρ}
    (hnew : ∀ k, (new.lookup k).map proj = if covers k = true then S.of (group k) else none)
    (hothers : (∀ k, keys k → covers k = true) ∨ S.Holds proj keys group t) :
    S.Holds proj keys group (Table.replaceRows covers new t) := by
  intro k hk
  rw [Table.lookup_replaceRows t fun k hcovers => ?_]
  · by_cases hcovers : covers k = true
    · rw [if_pos hcovers, hnew, if_pos hcovers]
    · rw [if_neg hcovers]
      cases hothers with
      | inl hall => exact absurd (hall k hk) hcovers
      | inr hold => exact hold k hk
  · have hnone := hnew k
    rw [hcovers, if_neg Bool.false_ne_true] at hnone
    exact Option.map_eq_none_iff.mp hnone

end Summary

end Foundation
