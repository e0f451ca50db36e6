/-
  Momento.Foundation.Since

  **WHAT HAPPENED BEFORE.**  A log is a list of entries, the newest first.  An entry may
  have to be justified by the entries before it, and a table may hold what was issued
  and has not been withdrawn since.

      `Since p q`       — some entry met `q` when it was made, all of them since met `p`
      `Throughout q`    — every entry met `q` when it was made
      `Effect.Tracks`   — a table holds, of the rows that are live, those that were issued
                          and neither withdrawn nor replaced since
-/
import Mathlib.Data.List.Basic

namespace Foundation

variable {ε : Type}

/-! ## §1. Past operators. -/

/-- Some entry met `q` in the light of those before it, and each since met `p`. -/
def Since (p : ε → Prop) (q : ε → List ε → Prop) : List ε → Prop
  | [] => False
  | e :: log => q e log ∨ p e ∧ Since p q log

/-- Every entry met `q` in the light of those before it. -/
def Throughout (q : ε → List ε → Prop) : List ε → Prop
  | [] => True
  | e :: log => q e log ∧ Throughout q log

section
variable {p p' : ε → Prop} {q q' : ε → List ε → Prop} {e : ε} {log : List ε}

/-- Weaker conditions. -/
theorem Since.imp (h : Since p q log) (hp : ∀ e, p e → p' e) (hq : ∀ e older, q e older → q' e older) :
    Since p' q' log := by
  induction log with
  | nil => exact h
  | cons e log ih =>
    cases h with
    | inl h => exact Or.inl (hq e log h)
    | inr h => exact Or.inr ⟨hp e h.1, ih h.2⟩

/-- At any entry of the log. -/
theorem Throughout.at {newer : List ε} (h : Throughout q (newer ++ e :: log)) : q e log := by
  induction newer with
  | nil => exact h.1
  | cons e' newer ih => exact ih h.2

/-- Where an entry neither met `q` nor let it stand, one after it met `q`. -/
theorem Since.of_append {newer : List ε} (h : Since p q (newer ++ e :: log)) (hp : ¬p e) (hq : ¬q e log) :
    ∃ e' ∈ newer, ∃ older, q e' older := by
  induction newer with
  | nil =>
    cases h with
    | inl h => exact absurd h hq
    | inr h => exact absurd h.1 hp
  | cons e' newer ih =>
    cases h with
    | inl h => exact ⟨e', List.mem_cons_self, _, h⟩
    | inr h =>
      obtain ⟨e'', hmem, hrest⟩ := ih h.2
      exact ⟨e'', List.mem_cons_of_mem e' hmem, hrest⟩

/-- What the entry made true, and nothing undoes. -/
theorem Since.stays {C : List ε → Prop} (h : Since p q log) (hq : ∀ e older, q e older → C older)
    (hC : ∀ e older, C older → C (e :: older)) : C log := by
  induction log with
  | nil => exact h.elim
  | cons e log ih =>
    cases h with
    | inl h => exact hC e log (hq e log h)
    | inr h => exact hC e log (ih h.2)

/-- **The entry was itself justified.** -/
theorem Since.and_throughout (h : Since p q log) (hq : Throughout q' log) :
    Since p (fun e older => q e older ∧ q' e older) log := by
  induction log with
  | nil => exact h
  | cons e log ih =>
    cases h with
    | inl h => exact Or.inl ⟨h, hq.1⟩
    | inr h => exact Or.inr ⟨h.1, ih h.2 hq.2⟩

end

/-! ## §2. Tables that a log accounts for. -/

variable {κ ρ : Type}

/-- What an entry does to a table: the row it issues, those it withdraws. -/
structure Effect (ε κ ρ : Type) where
  issues : ε → Option (κ × ρ)
  withdraws : ε → κ → ρ → Prop

namespace Effect
variable (f : Effect ε κ ρ)

/-- The row was issued, and neither replaced nor withdrawn since. -/
def Issued (log : List ε) (k : κ) (r : ρ) : Prop :=
  Since (fun e => (∀ r', f.issues e ≠ some (k, r')) ∧ ¬f.withdraws e k r) (fun e _ => f.issues e = some (k, r)) log

/-- The live rows of the table are those that were issued. -/
def Tracks (live : ρ → Prop) (t : κ → Option ρ) (log : List ε) : Prop :=
  ∀ k r, live r → (t k = some r ↔ f.Issued log k r)

variable {f} {live live' : ρ → Prop} {t t' : κ → Option ρ} {log : List ε} {e : ε}

/-- What is only ever replaced is there from then on. -/
theorem exists_issued_cons {k : κ} (hkept : ∀ r, ¬f.withdraws e k r) (h : ∃ r, f.Issued log k r) :
    ∃ r, f.Issued (e :: log) k r := by
  by_cases hissues : ∃ r, f.issues e = some (k, r)
  · obtain ⟨r, hr⟩ := hissues
    exact ⟨r, Or.inl hr⟩
  · obtain ⟨r, hr⟩ := h
    exact ⟨r, Or.inr ⟨⟨fun r' heq => hissues ⟨r', heq⟩, hkept r⟩, hr⟩⟩

theorem tracks_nil : f.Tracks live (fun _ => none) [] := by
  intro k r _
  constructor
  · intro h
    cases h
  · intro h
    exact h.elim

/-- **What an entry has to do to the table.** -/
theorem Tracks.cons (h : f.Tracks live t log)
    (ht : ∀ k r, live r → (t' k = some r ↔
      f.issues e = some (k, r) ∨ ((∀ r', f.issues e ≠ some (k, r')) ∧ ¬f.withdraws e k r) ∧ t k = some r)) :
    f.Tracks live t' (e :: log) := by
  intro k r hr
  rw [ht k r hr, h k r hr]
  exact Iff.rfl

/-- An entry that issues one row. -/
theorem Tracks.issue [DecidableEq κ] {k : κ} {r : ρ} (h : f.Tracks live t log) (hissues : f.issues e = some (k, r))
    (ht : ∀ k' r', k' ≠ k → live r' → (t' k' = some r' ↔ t k' = some r' ∧ ¬f.withdraws e k' r'))
    (hrow : t' k = some r) : f.Tracks live t' (e :: log) := by
  refine h.cons fun k' r' hr' => ?_
  rw [hissues]
  by_cases hk : k' = k
  · rw [hk, hrow]
    constructor
    · intro heq
      rw [Option.some.inj heq]
      exact Or.inl rfl
    · rintro (heq | ⟨⟨hnot, -⟩, -⟩)
      · rw [(Prod.mk.inj (Option.some.inj heq)).2]
      · exact absurd rfl (hnot r)
  · have hne : ∀ r'', some (k, r) ≠ some (k', r'') := by
      intro r'' heq
      exact hk (Prod.mk.inj (Option.some.inj heq)).1.symm
    rw [ht k' r' hk hr']
    constructor
    · rintro ⟨hlookup, hkept⟩
      exact Or.inr ⟨⟨hne, hkept⟩, hlookup⟩
    · rintro (heq | ⟨⟨-, hkept⟩, hlookup⟩)
      · exact absurd heq (hne r')
      · exact ⟨hlookup, hkept⟩

/-- An entry that issues nothing. -/
theorem Tracks.withdraw (h : f.Tracks live t log) (hissues : f.issues e = none)
    (ht : ∀ k r, live r → (t' k = some r ↔ t k = some r ∧ ¬f.withdraws e k r)) : f.Tracks live t' (e :: log) := by
  refine h.cons fun k r hr => ?_
  rw [ht k r hr, hissues]
  constructor
  · rintro ⟨hlookup, hkept⟩
    exact Or.inr ⟨⟨fun _ heq => (nomatch heq), hkept⟩, hlookup⟩
  · rintro (heq | ⟨⟨-, hkept⟩, hlookup⟩)
    · cases heq
    · exact ⟨hlookup, hkept⟩

/-- An entry that is of no concern to the table. -/
theorem Tracks.idle (h : f.Tracks live t log) (hissues : f.issues e = none) (hkept : ∀ k r, ¬f.withdraws e k r) :
    f.Tracks live t (e :: log) :=
  h.withdraw hissues fun k r _ => (and_iff_left (hkept k r)).symm

/-- **Without an entry**, only rows that are not live may change. -/
theorem Tracks.mono (h : f.Tracks live t log) (hlive : ∀ r, live' r → live r)
    (ht : ∀ k r, live' r → (t' k = some r ↔ t k = some r)) : f.Tracks live' t' log := by
  intro k r hr
  rw [ht k r hr]
  exact h k r (hlive r hr)

end Effect

end Foundation
