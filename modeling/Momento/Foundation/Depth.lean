/-
  Momento.Foundation.Depth

  **HOW DEEP A RELATION GOES.**  `Level R a k b`: going from `a` along `R`, `b` is met
  on level `k`; `a` itself is on level 1.

    • `Level.trans` — levels add up along a step between two walks
    • `level_head` — a walk by its first step
    • `not_transGen_self` — where the levels are bounded there is no cycle
    • `level_of_replaced` — one node's successors are replaced: a walk is an old one, or
      an old one to that node and then a walk from its new successor
-/
import Mathlib.Logic.Relation

namespace Foundation

variable {α : Type}

/-- Walks, by their length. -/
inductive Level (R : α → α → Prop) (a : α) : Nat → α → Prop
  | start : Level R a 1 a
  | step {k : Nat} {b c : α} : Level R a k b → R b c → Level R a (k + 1) c

namespace Level
variable {R : α → α → Prop} {a b c : α} {k j : Nat}

theorem pos (h : Level R a k b) : 1 ≤ k := by
  cases h with
  | start => exact Nat.le_refl 1
  | step _ _ => omega

/-- One walk, a step, and another walk. -/
theorem trans {d : α} (h : Level R a k b) (hstep : R b c) (h' : Level R c j d) : Level R a (k + j) d := by
  induction h' with
  | start => exact h.step hstep
  | step _ hlast ih => exact ih.step hlast

theorem of_reflTransGen (h : Relation.ReflTransGen R a b) : ∃ k, Level R a k b := by
  induction h with
  | refl => exact ⟨1, .start⟩
  | tail _ hlast ih =>
    obtain ⟨k, hk⟩ := ih
    exact ⟨k + 1, hk.step hlast⟩

/-- Along a larger relation. -/
theorem mono {R' : α → α → Prop} (hR : ∀ b c, R b c → R' b c) (h : Level R a k b) : Level R' a k b := by
  induction h with
  | start => exact .start
  | step _ hlast ih => exact ih.step (hR _ _ hlast)

end Level

/-- **A walk by its first step.** -/
theorem level_head {R : α → α → Prop} {a b : α} {k : Nat} :
    Level R a k b ↔ (k = 1 ∧ b = a) ∨ ∃ c j, R a c ∧ Level R c j b ∧ k = j + 1 := by
  constructor
  · intro h
    induction h with
    | start => exact .inl ⟨rfl, rfl⟩
    | @step k b c hwalk hlast ih =>
      right
      rcases ih with ⟨rfl, rfl⟩ | ⟨d, j, hfirst, hrest, rfl⟩
      · exact ⟨c, 1, hlast, .start, rfl⟩
      · exact ⟨d, j + 1, hfirst, hrest.step hlast, rfl⟩
  · rintro (⟨rfl, rfl⟩ | ⟨c, j, hfirst, hrest, rfl⟩)
    · exact .start
    · have hwalk := Level.start.trans hfirst hrest
      rwa [Nat.add_comm] at hwalk

/-- What holds of a node and of all that is met from its successors, holds of all that is met from
it. -/
theorem forall_level_of_head {R : α → α → Prop} {a : α} {n : Nat} {P : α → Prop} (ha : P a)
    (hrest : ∀ c, R a c → ∀ k b, Level R c k b → k ≤ n ∧ P b) :
    ∀ k b, Level R a k b → k ≤ n + 1 ∧ P b := by
  intro k b h
  rcases level_head.mp h with ⟨rfl, rfl⟩ | ⟨c, j, hfirst, hwalk, rfl⟩
  · exact ⟨by omega, ha⟩
  · obtain ⟨hj, hb⟩ := hrest c hfirst j b hwalk
    exact ⟨by omega, hb⟩

/-- **Bounded levels leave no cycle.** -/
theorem not_transGen_self {R : α → α → Prop} {a : α} {n : Nat} (h : ∀ k b, Level R a k b → k ≤ n) :
    ¬Relation.TransGen R a a := by
  intro hcycle
  obtain ⟨b, hwalk, hlast⟩ := Relation.TransGen.tail'_iff.mp hcycle
  obtain ⟨k, hk⟩ := Level.of_reflTransGen hwalk
  -- once more around the cycle, and a level deeper
  have hagain : ∀ m, ∃ j, m ≤ j ∧ Level R a j a := by
    intro m
    induction m with
    | zero => exact ⟨1, by omega, .start⟩
    | succ m ih =>
      obtain ⟨j, hj, hlevel⟩ := ih
      obtain ⟨c, i, hfirst, hrest, hi⟩ : ∃ c i, R a c ∧ Level R c i a ∧ k + 1 = i + 1 := by
        rcases level_head.mp (hk.step hlast) with ⟨hone, -⟩ | hhead
        · exact absurd hk.pos (by omega)
        · exact hhead
      exact ⟨j + i, by have := hrest.pos; omega, hlevel.trans hfirst hrest⟩
  obtain ⟨j, hj, hlevel⟩ := hagain (n + 1)
  exact absurd (h j a hlevel) (by omega)

section
variable {R R' : α → α → Prop} {here : α → Prop} {root : α}

/-- Where a walk never comes to the nodes that change, it stays. -/
theorem level_of_untouched (hsame : ∀ b c, ¬here b → (R' b c ↔ R b c)) {a : α}
    (hnever : ∀ k b, Level R a k b → ¬here b) {k : Nat} {b : α} : Level R' a k b ↔ Level R a k b := by
  constructor
  · intro h
    induction h with
    | start => exact .start
    | step _ hlast ih => exact ih.step ((hsame _ _ (hnever _ _ ih)).mp hlast)
  · intro h
    induction h with
    | start => exact .start
    | step hwalk hlast ih => exact ih.step ((hsame _ _ (hnever _ _ hwalk)).mpr hlast)

/-- **The nodes `here` get `root` for their successor**, from which none of them is met: a walk is an
old one, or an old one to such a node and one from the root. -/
theorem level_of_replaced (hsame : ∀ b c, ¬here b → (R' b c ↔ R b c)) (hroot : ∀ b c, here b → R' b c → c = root)
    (hnever : ∀ k b, Level R root k b → ¬here b) {a : α} {k : Nat} {b : α} (h : Level R' a k b) :
    Level R a k b ∨ ∃ i c j, Level R a i c ∧ here c ∧ Level R root j b ∧ k = i + j := by
  induction h with
  | start => exact .inl .start
  | @step k b c _ hlast ih =>
    rcases ih with hold | ⟨i, d, j, hto, hd, hfrom, rfl⟩
    · by_cases hb : here b
      · right
        obtain rfl := hroot _ _ hb hlast
        exact ⟨k, b, 1, hold, hb, .start, rfl⟩
      · left
        exact hold.step ((hsame _ _ hb).mp hlast)
    · right
      exact ⟨i, d, j + 1, hto, hd, hfrom.step ((hsame _ _ (hnever _ _ hfrom)).mp hlast), by omega⟩

end

end Foundation
