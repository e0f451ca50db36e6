/-
  Momento.Foundation.Timetable

  **A TIMETABLE.**  A task has a time from which on it may run, and an interval.  Who
  claims it at a time puts it off until an interval after that time; who sets it anew
  says both, and who removes it takes it off the timetable.

      Slot      — the next time, and the interval
      Entry     — a task is set, claimed or removed
      InTime    — nobody claims what is not due
      claims    — when a task was claimed
-/
import Mathlib.Logic.Function.Basic
import Mathlib.Data.List.Chain
import Mathlib.Algebra.Order.Ring.Int
import Mathlib.Tactic.Linarith
import Momento.Foundation.Runs

namespace Foundation

/-- One run after the other. -/
theorem along_append {σ α : Type} {step : σ → α → σ} {C : σ → α → Prop} {as bs : List α} {s : σ} :
    Along step C s (as ++ bs) ↔ Along step C s as ∧ Along step C (as.foldl step s) bs := by
  induction as generalizing s with
  | nil => exact (iff_of_eq (true_and _)).symm
  | cons a as ih =>
    show (C s a ∧ Along step C (step s a) (as ++ bs)) ↔ (C s a ∧ Along step C (step s a) as) ∧ _
    rw [ih, and_assoc]
    rfl

namespace Timetable

/-! ## §1. Slots. -/

/-- From when on a task may run, and how far apart its runs are. -/
structure Slot where
  next : Int
  every : Int
  deriving DecidableEq

/-- What may become of the next runs. -/
inductive Entry (κ : Type) where
  | set (k : κ) (slot : Slot)
  | claim (k : κ) (time : Int)
  | remove (picked : κ → Bool)

section
variable {κ : Type} [DecidableEq κ]

/-- What it makes of them. -/
def step (slots : κ → Option Slot) : Entry κ → κ → Option Slot
  | .set k slot => Function.update slots k (some slot)
  | .claim k time => Function.update slots k ((slots k).map fun slot => { slot with next := time + slot.every })
  | .remove picked => fun k => if picked k = true then none else slots k

/-- **Nobody claims what is not due.** -/
def InTime (slots : κ → Option Slot) : Entry κ → Prop
  | .claim k time => ∃ slot, slots k = some slot ∧ slot.next ≤ time
  | _ => True

/-- The entry sets the task anew, or removes it. -/
def Entry.resets (k : κ) : Entry κ → Bool
  | .set k' _ => k' = k
  | .claim _ _ => false
  | .remove picked => picked k

/-- When the entry claims the task. -/
def Entry.claims (k : κ) : Entry κ → Option Int
  | .claim k' time => if k' = k then some time else none
  | _ => none

@[simp] theorem Entry.claims_self (k : κ) (time : Int) : (Entry.claim k time).claims k = some time := if_pos rfl

theorem Entry.claims_of_ne {k k' : κ} (h : k' ≠ k) (time : Int) : (Entry.claim k' time).claims k = none := if_neg h

/-- When a task was claimed. -/
def claims (k : κ) (trace : List (Entry κ)) : List Int := trace.filterMap (Entry.claims k)

/-! ## §2. How far claims are apart. -/

variable {k : κ} {slots : κ → Option Slot} {slot : Slot} {e : Entry κ}

/-- What an entry leaves of a task that it does not set anew. -/
theorem step_of_not_resets (hslot : slots k = some slot) (h : e.resets k = false) :
    step slots e k = some { slot with next := (e.claims k).elim slot.next (· + slot.every) } := by
  cases e with
  | set k' s =>
    have hne : k ≠ k' := fun heq => of_decide_eq_false h heq.symm
    exact (Function.update_of_ne hne _ slots).trans hslot
  | claim k' time =>
    by_cases hk : k' = k
    · subst hk
      rw [Entry.claims_self]
      refine (Function.update_self k' _ slots).trans ?_
      rw [hslot]
      rfl
    · rw [Entry.claims_of_ne hk]
      exact (Function.update_of_ne (Ne.symm hk) _ slots).trans hslot
  | remove picked =>
    show (if picked k = true then none else slots k) = _
    have hpicked : ¬picked k = true := by
      rw [show picked k = false from h]
      exact Bool.false_ne_true
    rw [if_neg hpicked, hslot]
    rfl

/-- **Claims are an interval apart.**  The first one is not before the time that was set,
and the task may run again an interval after the last one. -/
theorem claims_spaced {trace : List (Entry κ)} (hslot : slots k = some slot)
    (hset : ∀ e ∈ trace, e.resets k = false) (h : Along step InTime slots trace) :
    List.IsChain (fun a b => a + slot.every ≤ b) ((slot.next - slot.every) :: claims k trace)
      ∧ trace.foldl step slots k
        = some { slot with next := ((claims k trace).getLast?).elim slot.next (· + slot.every) } := by
  induction trace generalizing slots slot with
  | nil => exact ⟨List.isChain_singleton _, hslot⟩
  | cons e trace ih =>
    have hstep := step_of_not_resets hslot (hset e List.mem_cons_self)
    obtain ⟨hchain, hlast⟩ := ih hstep (fun e he => hset e (List.mem_cons_of_mem _ he)) h.2
    have hcons : claims k (e :: trace) = (e.claims k).toList ++ claims k trace := by
      unfold claims
      rw [List.filterMap_cons]
      cases e.claims k with
      | none => rfl
      | some time => rfl
    rw [hcons]
    cases hclaims : e.claims k with
    | none =>
      rw [hclaims] at hchain hlast
      exact ⟨hchain, hlast⟩
    | some time =>
      rw [hclaims] at hchain hlast
      have hdue : slot.next ≤ time := by
        cases e with
        | claim k' time' =>
          by_cases hk : k' = k
          · subst hk
            rw [Entry.claims_self] at hclaims
            obtain ⟨slot', hslot', hle⟩ := h.1
            rw [hslot] at hslot'
            rw [← Option.some.inj hclaims, Option.some.inj hslot']
            exact hle
          · rw [Entry.claims_of_ne hk] at hclaims
            cases hclaims
        | set k' s => cases hclaims
        | remove picked => cases hclaims
      constructor
      · refine List.isChain_cons_cons.mpr ⟨?_, ?_⟩
        · show slot.next - slot.every + slot.every ≤ time
          rw [Int.sub_add_cancel]
          exact hdue
        · have hfrom : time + slot.every - slot.every = time := Int.add_sub_cancel _ _
          rw [← hfrom]
          exact hchain
      · refine hlast.trans ?_
        show _ = some { slot with next := ((time :: claims k trace).getLast?).elim _ _ }
        rw [List.getLast?_cons]
        cases (claims k trace).getLast? with
        | none => rfl
        | some last => rfl

end

/-! ## §3. How many fit into a window. -/

/-- Times so far apart in a window. -/
theorem length_mul_le {every first last : Int} {times : List Int} (hspaced : times.Pairwise fun a b => a + every ≤ b)
    (hfirst : ∀ t ∈ times, first ≤ t) (hlast : ∀ t ∈ times, t ≤ last) (hle : first ≤ last + every) :
    times.length * every ≤ last - first + every := by
  induction times generalizing first with
  | nil =>
    rw [List.length_nil, Nat.cast_zero, Int.zero_mul]
    linarith
  | cons t times ih =>
    obtain ⟨hafter, hspaced⟩ := List.pairwise_cons.mp hspaced
    have hfrom := hfirst t List.mem_cons_self
    have hto := hlast t List.mem_cons_self
    have hrest := ih hspaced hafter (fun u hu => hlast u (List.mem_cons_of_mem _ hu))
      (by linarith)
    rw [List.length_cons, Nat.cast_succ, Int.add_mul, Int.one_mul]
    linarith

/-- **So many fit into a window.** -/
theorem length_window_le {every first last start : Int} {times : List Int} (hevery : 0 < every) (hle : first ≤ last)
    (hchain : List.IsChain (fun a b => a + every ≤ b) (start :: times)) :
    ((times.filter fun t => decide (first ≤ t ∧ t ≤ last)).length : Int) ≤ (last - first) / every + 1 := by
  have htrans : ∀ a b c : Int, a + every ≤ b → b + every ≤ c → a + every ≤ c := by
    intro a b c hab hbc
    linarith
  have hpairs : (start :: times).Pairwise fun a b => a + every ≤ b := by
    have : IsTrans Int fun a b => a + every ≤ b := ⟨htrans⟩
    exact List.isChain_iff_pairwise.mp hchain
  have hwindow := length_mul_le ((List.pairwise_cons.mp hpairs).2.filter fun t => decide (first ≤ t ∧ t ≤ last))
    (fun t ht => (of_decide_eq_true (List.mem_filter.mp ht).2).1)
    (fun t ht => (of_decide_eq_true (List.mem_filter.mp ht).2).2) (by linarith)
  have hdiv := Int.le_ediv_of_mul_le hevery hwindow
  rwa [Int.add_ediv_of_dvd_right (Int.dvd_refl every), Int.ediv_self (ne_of_gt hevery)] at hdiv

end Timetable

end Foundation
