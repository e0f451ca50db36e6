/-
  Momento.Foundation.Batches

  **A QUEUE SENT IN BATCHES, EACH BATCH IN GROUPS, TO SOMEBODY WHO REFUSES SOME OF
  IT FOR EVER.**  A round takes the first `b` items, forms their groups and sends
  one after the other up to the first that holds a refused item.  If there is one,
  the whole batch goes back to the front; else it is done.

      through   — what of a batch is sent before the first refused group
      round     — one round: what is left of the queue
      ahead     — what of a queue is ever sent: the batches before the one with the
                  first refused item, and what gets through of that one

  A refused item is for ever in front, so however many rounds there are they send
  no more than `ahead`, and as many as there are items send that.
-/
import Mathlib.Data.List.TakeWhile

namespace Foundation.Batches

variable {α : Type}

/-! ## §1. Rounds. -/

section
variable (b : Nat) (groups : List α → List (List α)) (bad : α → Bool)

/-- The groups sent before the first with a refused item. -/
def cleanGroups (batch : List α) : List (List α) := (groups batch).takeWhile fun g => !g.any bad

/-- What of a batch gets through. -/
def through (batch : List α) : List α := (cleanGroups groups bad batch).flatten

/-- What a round leaves of the queue. -/
def round (queue : List α) : List α := if (queue.take b).any bad then queue else queue.drop b

/-- What `n` rounds send. -/
def sent : Nat → List α → List α
  | 0, _ => []
  | n + 1, queue => through groups bad (queue.take b) ++ sent n (round b bad queue)

/-- Where the batch of the first refused item starts. -/
def front (queue : List α) : Nat := b * (queue.findIdx bad / b)

/-- What is ever sent of a queue. -/
def ahead (queue : List α) : List α :=
  queue.take (front b bad queue) ++ through groups bad ((queue.drop (front b bad queue)).take b)

end

/-! ## §2. One round. -/

section
variable {b : Nat} {groups : List α → List (List α)} {bad : α → Bool} {queue : List α} {x : α}

@[simp] theorem round_nil : round b bad [] = [] := by
  unfold round
  rw [List.take_nil, List.drop_nil, ite_self]

theorem mem_through (hgroups : ∀ l, (groups l).flatten.Perm l) {batch : List α} (h : x ∈ through groups bad batch) :
    x ∈ batch := by
  obtain ⟨g, hg, hx⟩ := List.mem_flatten.mp h
  have hmem : g ∈ groups batch := (List.takeWhile_prefix _).subset hg
  exact (hgroups batch).subset (List.mem_flatten.mpr ⟨g, hmem, hx⟩)

/-- A batch without a refused item gets through as a whole. -/
theorem cleanGroups_of_clean (hgroups : ∀ l, (groups l).flatten.Perm l) {batch : List α}
    (hclean : batch.any bad = false) : cleanGroups groups bad batch = groups batch := by
  unfold cleanGroups
  rw [List.takeWhile_eq_self_iff]
  intro g hg
  rw [Bool.not_eq_true', List.any_eq_false]
  intro y hy
  have hmem : y ∈ batch := (hgroups batch).subset (List.mem_flatten.mpr ⟨g, hg, hy⟩)
  exact List.any_eq_false.mp hclean y hmem

theorem mem_through_of_clean (hgroups : ∀ l, (groups l).flatten.Perm l) {batch : List α}
    (hclean : batch.any bad = false) : x ∈ through groups bad batch ↔ x ∈ batch := by
  unfold through
  rw [cleanGroups_of_clean hgroups hclean]
  exact (hgroups batch).mem_iff

/-- The first refused item stands in the batch, so the front is here. -/
theorem ahead_of_any (hbad : (queue.take b).any bad = true) :
    ahead b groups bad queue = through groups bad (queue.take b) := by
  obtain ⟨y, hy, hrefused⟩ := List.any_eq_true.mp hbad
  have hlt : queue.findIdx bad < b := by
    obtain ⟨i, hi, rfl⟩ := List.mem_iff_getElem.mp hy
    rw [List.length_take] at hi
    have hle : queue.findIdx bad ≤ i := by
      by_contra hnot
      have hclean := List.not_of_lt_findIdx (Nat.lt_of_not_le hnot)
      rw [List.getElem_take] at hrefused
      rw [hrefused] at hclean
      cases hclean
    omega
  unfold ahead front
  rw [Nat.div_eq_of_lt hlt, Nat.mul_zero, List.take_zero, List.nil_append, List.drop_zero]

/-- It does not, so the front is the rest's, one batch on. -/
theorem mem_ahead_of_clean (hb : 0 < b) (hgroups : ∀ l, (groups l).flatten.Perm l)
    (hclean : (queue.take b).any bad = false) :
    x ∈ ahead b groups bad queue ↔ x ∈ queue.take b ∨ x ∈ ahead b groups bad (queue.drop b) := by
  by_cases hlength : queue.length < b
  · -- the last batch: there is no rest
    have hnone : queue.findIdx bad / b = 0 := Nat.div_eq_of_lt (Nat.lt_of_le_of_lt List.findIdx_le_length hlength)
    have hrest : queue.drop b = [] := List.drop_eq_nil_of_le (Nat.le_of_lt hlength)
    have hempty : ∀ y, y ∉ ahead b groups bad [] := by
      intro y hy
      unfold ahead at hy
      rw [List.take_nil, List.drop_nil, List.take_nil, List.nil_append] at hy
      exact List.not_mem_nil (mem_through hgroups hy)
    have hahead : ahead b groups bad queue = through groups bad (queue.take b) := by
      unfold ahead front
      rw [hnone, Nat.mul_zero, List.take_zero, List.nil_append, List.drop_zero]
    rw [hahead, hrest, mem_through_of_clean hgroups hclean]
    constructor
    · exact .inl
    · rintro (h | h)
      · exact h
      · exact absurd h (hempty x)
  · have hle : b ≤ queue.length := Nat.le_of_not_lt hlength
    have hindex : queue.findIdx bad = b + (queue.drop b).findIdx bad := by
      have hsplit := congrArg (List.findIdx bad) (List.take_append_drop b queue)
      rw [List.findIdx_append] at hsplit
      have hwhole : (queue.take b).findIdx bad = (queue.take b).length := by
        refine List.findIdx_eq_length_of_false fun y hy => ?_
        exact Bool.eq_false_iff.mpr (List.any_eq_false.mp hclean y hy)
      rw [hwhole, if_neg (Nat.lt_irrefl _), List.length_take, Nat.min_eq_left hle] at hsplit
      omega
    have hfront : front b bad queue = b + front b bad (queue.drop b) := by
      unfold front
      rw [hindex, Nat.add_div_left _ hb, Nat.mul_succ, Nat.add_comm]
    unfold ahead
    rw [hfront, List.take_add, ← List.drop_drop, List.append_assoc, List.mem_append]

/-! ## §3. Every number of rounds. -/

theorem sent_subset_ahead (hb : 0 < b) (hgroups : ∀ l, (groups l).flatten.Perm l) (n : Nat) :
    ∀ queue : List α, x ∈ sent b groups bad n queue → x ∈ ahead b groups bad queue := by
  induction n with
  | zero =>
    intro queue h
    exact absurd h List.not_mem_nil
  | succ n ih =>
    intro queue h
    unfold sent round at h
    rcases List.mem_append.mp h with hnow | hlater
    · cases hbad : (queue.take b).any bad with
      | true =>
        rw [ahead_of_any hbad]
        exact hnow
      | false =>
        rw [mem_ahead_of_clean hb hgroups hbad]
        exact .inl (mem_through hgroups hnow)
    · cases hbad : (queue.take b).any bad with
      | true =>
        rw [hbad, if_pos rfl] at hlater
        exact ih queue hlater
      | false =>
        rw [hbad, if_neg Bool.false_ne_true] at hlater
        rw [mem_ahead_of_clean hb hgroups hbad]
        exact .inr (ih _ hlater)

/-- **As many rounds as items are enough** for all that is ever sent. -/
theorem ahead_subset_sent (hb : 0 < b) (hgroups : ∀ l, (groups l).flatten.Perm l) (n : Nat) :
    ∀ queue : List α, queue.length ≤ n → x ∈ ahead b groups bad queue → x ∈ sent b groups bad n queue := by
  induction n with
  | zero =>
    intro queue hlength h
    obtain rfl := List.length_eq_zero_iff.mp (Nat.le_zero.mp hlength)
    rw [ahead, List.take_nil, List.drop_nil, List.take_nil, List.nil_append] at h
    exact absurd (mem_through hgroups h) List.not_mem_nil
  | succ n ih =>
    intro queue hlength h
    unfold sent round
    rw [List.mem_append]
    cases hbad : (queue.take b).any bad with
    | true =>
      rw [ahead_of_any hbad] at h
      exact .inl h
    | false =>
      rw [mem_ahead_of_clean hb hgroups hbad] at h
      rcases h with hnow | hlater
      · exact .inl ((mem_through_of_clean hgroups hbad).mpr hnow)
      · right
        rw [if_neg Bool.false_ne_true]
        refine ih _ ?_ hlater
        rw [List.length_drop]
        omega

end

end Foundation.Batches
