/-
  Momento.Foundation.Runs

  **RUNS OF A STEP FUNCTION.**  A run is a list of actions; a condition on one step
  holds along a run when it holds of each action in the state it is taken in.  What
  the initial state has and each such step keeps, the last state has.
-/
import Mathlib.Data.List.Basic

namespace Foundation

variable {σ α : Type}

/-- Every action of the run is taken in a state that meets the condition. -/
def Along (step : σ → α → σ) (C : σ → α → Prop) : σ → List α → Prop
  | _, [] => True
  | s, a :: as => C s a ∧ Along step C (step s a) as

instance decidableAlong {step : σ → α → σ} {C : σ → α → Prop} [∀ s a, Decidable (C s a)] :
    ∀ (s : σ) (actions : List α), Decidable (Along step C s actions)
  | _, [] => .isTrue trivial
  | s, a :: as =>
    have : Decidable (Along step C (step s a) as) := decidableAlong (step s a) as
    inferInstanceAs (Decidable (C s a ∧ Along step C (step s a) as))

/-- **The induction over runs.** -/
theorem along_induction {step : σ → α → σ} {C : σ → α → Prop} {I : σ → Prop}
    (hstep : ∀ s a, I s → C s a → I (step s a)) (actions : List α) {s : σ} (hs : I s)
    (hC : Along step C s actions) : I (actions.foldl step s) := by
  induction actions generalizing s with
  | nil => exact hs
  | cons a as ih => exact ih (hstep s a hs hC.1) hC.2

/-- A run's beginning. -/
theorem along_take {step : σ → α → σ} {C : σ → α → Prop} {actions : List α} (n : Nat) {s : σ}
    (h : Along step C s actions) : Along step C s (actions.take n) := by
  induction actions generalizing s n with
  | nil =>
    rw [List.take_nil]
    trivial
  | cons a as ih =>
    cases n with
    | zero => trivial
    | succ n => exact ⟨h.1, ih n h.2⟩

/-- A condition each action meets in every state. -/
theorem along_of_forall {step : σ → α → σ} {C : σ → α → Prop} (actions : List α) {s : σ}
    (h : ∀ s, ∀ a ∈ actions, C s a) : Along step C s actions := by
  induction actions generalizing s with
  | nil => trivial
  | cons a as ih => exact ⟨h s a List.mem_cons_self, ih fun s b hb => h s b (List.mem_cons_of_mem a hb)⟩

/-- Two conditions at once. -/
theorem along_and {step : σ → α → σ} {C D : σ → α → Prop} (actions : List α) {s : σ}
    (hC : Along step C s actions) (hD : Along step D s actions) :
    Along step (fun s a => C s a ∧ D s a) s actions := by
  induction actions generalizing s with
  | nil => trivial
  | cons a as ih => exact ⟨⟨hC.1, hD.1⟩, ih hC.2 hD.2⟩

/-- **What holds in every state a run reaches.**  Where every step keeps `I`, and from a
state that has `J` reaches one that has it exactly under the condition, `J` holds all
along the run exactly where the condition does. -/
theorem forall_take_iff_along {step : σ → α → σ} {C : σ → α → Prop} {I J : σ → Prop}
    (hI : ∀ s a, I s → I (step s a)) (hJ : ∀ s a, I s → J s → (J (step s a) ↔ C s a)) (actions : List α) {s : σ}
    (hs : I s) (hj : J s) : (∀ n, J ((actions.take n).foldl step s)) ↔ Along step C s actions := by
  induction actions generalizing s with
  | nil =>
    constructor
    · exact fun _ => trivial
    · intro _ n
      rw [List.take_nil]
      exact hj
  | cons a as ih =>
    constructor
    · intro h
      have hfirst : J (step s a) := h 1
      exact ⟨(hJ s a hs hj).mp hfirst, (ih (hI s a hs) hfirst).mp fun n => h (n + 1)⟩
    · rintro ⟨hC, hrest⟩ n
      have hfirst := (hJ s a hs hj).mpr hC
      cases n with
      | zero => exact hj
      | succ n => exact (ih (hI s a hs) hfirst).mpr hrest n

end Foundation
