/-
  Momento.Foundation.FixedWindow

  **SO MANY IN ONE WINDOW.**  A ledger notes every request with its key and the window
  it fell into, and forgets none.  A request is admitted where, with it, there are no
  more of its key in its window than the limit that is in force.

      Action      — a request, or a new limit
      Ledger      — the limit, and what was requested
      verdicts    — what becomes of each request of a run

  The ledger is what a limiter with counters is compared with: it never forgets, so it
  has nothing to evict and no window to open.
-/
import Mathlib.Data.List.Count
import Mathlib.Data.Int.Order.Basic

namespace Foundation.FixedWindow

variable {κ ω : Type} [DecidableEq κ] [DecidableEq ω]

/-! ## §1. Ledgers. -/

/-- A request of a key in a window, or a limit that holds from now on. -/
inductive Action (κ ω : Type)
  | request (key : κ) (window : ω)
  | limit (n : Int)

/-- What became of a request, and the limit it met. -/
structure Verdict (κ ω : Type) where
  key : κ
  window : ω
  limit : Int
  admitted : Bool

/-- A limit, and all requests so far, the latest first. -/
structure Ledger (κ ω : Type) where
  limit : Int
  past : List (κ × ω)

namespace Ledger

variable (g : Ledger κ ω)

/-- The requests of a key in a window. -/
def count (key : κ) (window : ω) : Nat := g.past.count (key, window)

/-- An action is noted. -/
def step : Action κ ω → Ledger κ ω
  | .request key window => { g with past := (key, window) :: g.past }
  | .limit n => { g with limit := n }

/-- A request counts itself. -/
def verdict (key : κ) (window : ω) : Verdict κ ω :=
  ⟨key, window, g.limit, decide ((g.count key window + 1 : Nat) ≤ g.limit)⟩

/-- The actions in order. -/
def run (actions : List (Action κ ω)) : Ledger κ ω := actions.foldl step g

/-- What each request is answered. -/
def verdicts : Ledger κ ω → List (Action κ ω) → List (Verdict κ ω)
  | _, [] => []
  | g, .request key window :: actions => g.verdict key window :: verdicts (g.step (.request key window)) actions
  | g, .limit n :: actions => verdicts (g.step (.limit n)) actions

theorem count_request (k key : κ) (w window : ω) :
    (g.step (.request key window)).count k w = g.count k w + if (key, window) = (k, w) then 1 else 0 := by
  show ((key, window) :: g.past).count (k, w) = g.past.count (k, w) + _
  rw [List.count_cons]
  by_cases h : (key, window) = (k, w)
  · rw [if_pos h, if_pos (beq_iff_eq.mpr h)]
  · rw [if_neg h, if_neg (by simpa using h)]

@[simp] theorem count_limit (k : κ) (w : ω) (n : Int) : (g.step (.limit n)).count k w = g.count k w := rfl

/-! ## §2. How many are admitted. -/

/-- Which verdicts admit a request of the key in the window. -/
def admits (key : κ) (window : ω) (v : Verdict κ ω) : Bool := v.key = key && v.window = window && v.admitted

theorem admits_iff {key : κ} {window : ω} {v : Verdict κ ω} :
    admits key window v = true ↔ (v.key = key ∧ v.window = window) ∧ v.admitted = true := by
  rw [admits, Bool.and_eq_true, Bool.and_eq_true, decide_eq_true_eq, decide_eq_true_eq]

/-- What is admitted from here on fits what the limit leaves. -/
theorem admitted_le_rest (key : κ) (window : ω) {most : Nat} (actions : List (Action κ ω)) :
    ∀ g : Ledger κ ω,
      (∀ v ∈ g.verdicts actions, v.key = key → v.window = window → v.limit ≤ most) →
        (g.verdicts actions).countP (admits key window) ≤ most - g.count key window := by
  induction actions with
  | nil =>
    intro g _
    show 0 ≤ _
    exact Nat.zero_le _
  | cons a actions ih =>
    intro g h
    cases a with
    | limit n => exact ih (g.step (.limit n)) h
    | request k w =>
      have hrest := ih (g.step (.request k w)) fun v hv => h v (List.mem_cons_of_mem _ hv)
      rw [count_request] at hrest
      show List.countP _ (g.verdict k w :: verdicts (g.step (.request k w)) actions) ≤ _
      rw [List.countP_cons]
      by_cases hsame : (k, w) = (key, window)
      · rw [if_pos hsame] at hrest
        obtain ⟨rfl, rfl⟩ := Prod.mk.inj hsame
        by_cases hadmitted : admits k w (g.verdict k w) = true
        · -- The limit it met has room for one more than there were.
          have hmet : (g.count k w + 1 : Nat) ≤ g.limit := of_decide_eq_true (admits_iff.mp hadmitted).2
          have hmost : g.limit ≤ most := h (g.verdict k w) List.mem_cons_self rfl rfl
          rw [if_pos hadmitted]
          omega
        · rw [if_neg hadmitted]
          omega
      · have hother : ¬ admits key window (g.verdict k w) = true := by
          intro hadmits
          obtain ⟨⟨hkey, hwindow⟩, -⟩ := admits_iff.mp hadmits
          exact hsame (Prod.ext hkey hwindow)
        rw [if_neg hsame] at hrest
        rw [if_neg hother]
        omega

/-- **No more are admitted than the largest limit a request met.** -/
theorem admitted_le (g : Ledger κ ω) (key : κ) (window : ω) {most : Nat} (actions : List (Action κ ω))
    (h : ∀ v ∈ g.verdicts actions, v.key = key → v.window = window → v.limit ≤ most) :
    (g.verdicts actions).countP (admits key window) ≤ most :=
  Nat.le_trans (admitted_le_rest key window actions g h) (Nat.sub_le _ _)

/-! ## §3. One key alone. -/

/-- The actions that are no other key's. -/
def concerns (key : κ) : Action κ ω → Bool
  | .request k _ => k = key
  | .limit _ => true

/-- The ledger as if there had been no other key. -/
def only (key : κ) : Ledger κ ω := { g with past := g.past.filter fun p => p.1 = key }

theorem count_only (key : κ) (window : ω) : (g.only key).count key window = g.count key window := by
  show (g.past.filter fun p => decide (p.1 = key)).count (key, window) = g.past.count (key, window)
  exact List.count_filter (decide_eq_true rfl)

theorem verdict_only (key : κ) (window : ω) : (g.only key).verdict key window = g.verdict key window := by
  rw [verdict, verdict, count_only]
  rfl

/-- **What becomes of the requests of a key depends on them alone.** -/
theorem verdicts_only (key : κ) (actions : List (Action κ ω)) :
    ∀ g : Ledger κ ω, (g.verdicts actions).filter (fun v => v.key = key)
      = (g.only key).verdicts (actions.filter (concerns key)) := by
  induction actions with
  | nil => intro g; rfl
  | cons a actions ih =>
    intro g
    cases a with
    | limit n => exact ih (g.step (.limit n))
    | request k w =>
      have hrest := ih (g.step (.request k w))
      show (g.verdict k w :: verdicts (g.step (.request k w)) actions).filter _ = _
      by_cases hk : k = key
      · have hstep : (g.step (.request k w)).only key = (g.only key).step (.request k w) := by
          simp only [only, step, List.filter_cons, hk, decide_true, if_true]
        have hkept : concerns key (.request k w : Action κ ω) = true := decide_eq_true hk
        have hverdict : (g.only key).verdict k w = g.verdict k w := by
          rw [hk, verdict_only]
        rw [List.filter_cons, if_pos (show decide ((g.verdict k w).key = key) = true from decide_eq_true hk),
          List.filter_cons, if_pos hkept, hrest, hstep]
        show _ = (g.only key).verdict k w :: _
        rw [hverdict]
      · have hstep : (g.step (.request k w)).only key = g.only key := by
          simp only [only, step, List.filter_cons, hk, decide_false, Bool.false_eq_true, if_false]
        have hdropped : ¬ concerns key (.request k w : Action κ ω) = true := fun h => hk (of_decide_eq_true h)
        have hother : ¬ decide ((g.verdict k w).key = key) = true := fun h => hk (of_decide_eq_true h)
        rw [List.filter_cons, if_neg hother, List.filter_cons, if_neg hdropped, hrest, hstep]

end Ledger

end Foundation.FixedWindow
