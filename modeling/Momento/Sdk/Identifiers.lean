/-
  Momento.Sdk.Identifiers

  **TWO DOORS FOR A USER ID.**  The tracker's `identify` refuses what looks like a
  person; the collector blanks what its detectors find.  The two rules have three
  expressions in common.  Beyond them

      the tracker    — an `@`, anywhere
      the collector  — an e-mail address, a card by its Luhn sum, a credential

  and that is where they part (`doors_agree_iff`).
-/
import Momento.Service.Detectors

namespace Momento

open Foundation Regexp

/-! ## §1. The tracker's rule. -/

namespace Sdk

/-- `PII_IDENTIFIER`. -/
def piiIdentifier : List Regexp :=
  [Expressions.lit '@', Expressions.longDigits, Expressions.phone, Expressions.resident]

/-- `looksLikeAPerson`. -/
def looksLikeAPerson (value : String) : Bool := piiIdentifier.any fun r => r.matchString value.toList

end Sdk

/-! ## §2. Where the two rules agree. -/

/-- What both rules look for. -/
def sharedShape (value : String) : Bool :=
  Expressions.longDigits.matchString value.toList || Expressions.phone.matchString value.toList
    || Expressions.resident.matchString value.toList

/-- What the collector alone looks for. -/
def collectorShape (value : String) : Bool :=
  Detectors.email.speaks value.toList || Detectors.card.speaks value.toList
    || Detectors.token.speaks value.toList

theorem looksLikeAPerson_iff (value : String) :
    Sdk.looksLikeAPerson value = true ↔ '@' ∈ value.toList ∨ sharedShape value = true := by
  have hat : (Expressions.lit '@').matchString value.toList = true ↔ '@' ∈ value.toList := by
    unfold Expressions.lit
    rw [matchString_char]
    constructor
    · rintro ⟨c, hmem, hc⟩
      rwa [of_decide_eq_true hc] at hmem
    · intro hmem
      exact ⟨'@', hmem, rfl⟩
  unfold Sdk.looksLikeAPerson Sdk.piiIdentifier sharedShape
  simp only [List.any_cons, List.any_nil, Bool.or_false, Bool.or_eq_true, hat, or_assoc]

theorem maskUserId_iff (env : Platform) (value : String) :
    maskUserId env.compiled value ≠ [] ↔ collectorShape value = true ∨ sharedShape value = true := by
  have hlong : env.compiled.matchString longDigitsPiiPattern value
      = Expressions.longDigits.matchString value.toList := matchString_compiled env rfl value
  have hfound := maskPiiString_found env value
  have hphone : Detectors.phone.speaks value.toList = Expressions.phone.matchString value.toList :=
    speaks_eq_matchString rfl _
  have hresident : Detectors.resident.speaks value.toList = Expressions.resident.matchString value.toList :=
    speaks_eq_matchString rfl _
  have hall : (∀ d ∈ Detectors.all, d.speaks value.toList = false)
      ↔ ¬(collectorShape value = true ∨ Expressions.phone.matchString value.toList = true
        ∨ Expressions.resident.matchString value.toList = true) := by
    unfold collectorShape Detectors.all
    rw [← hphone, ← hresident]
    simp only [List.forall_mem_cons, List.not_mem_nil, false_implies, implies_true, and_true, Bool.or_eq_true,
      not_or, Bool.not_eq_true]
    constructor
    · rintro ⟨hemail, hres, hcard, hph, htoken⟩
      exact ⟨⟨⟨hemail, hcard⟩, htoken⟩, hph, hres⟩
    · rintro ⟨⟨⟨hemail, hcard⟩, htoken⟩, hph, hres⟩
      exact ⟨hemail, hres, hcard, hph, htoken⟩
  unfold maskUserId sharedShape
  dsimp only
  rw [hlong]
  by_cases hnone : (maskPiiString env.compiled value).2 = []
  · have hsilent := hall.mp (hfound.mp hnone)
    rw [not_or, not_or] at hsilent
    obtain ⟨hcollector, hph, hres⟩ := hsilent
    by_cases hdigits : Expressions.longDigits.matchString value.toList = true
    · rw [if_pos ⟨hnone, hdigits⟩, hdigits]
      simp
    · rw [if_neg fun h => hdigits h.2, hnone]
      simp [hcollector, hph, hres, hdigits]
  · have hspoken := not_not.mp fun h => hnone (hfound.mpr (hall.mpr h))
    rw [if_neg fun h => hnone h.1]
    refine ⟨fun _ => ?_, fun _ => hnone⟩
    rcases hspoken with hcollector | hph | hres
    · exact .inl hcollector
    · exact .inr (by rw [hph]; simp)
    · exact .inr (by rw [hres]; simp)

/-- An e-mail address has its `@`. -/
theorem at_mem_of_email {s : String} (h : Detectors.email.speaks s.toList = true) : '@' ∈ s.toList := by
  have hconsumes : Expressions.email.consumes = true := rfl
  rw [speaks_eq_matchString rfl] at h
  obtain ⟨w, x, q, htext, hq⟩ := exists_of_matchString hconsumes h
  obtain ⟨m, hm, hrest⟩ := List.mem_flatMap.mp (show q ∈ (ends .wordBoundary ⟨w.reverse, x⟩).flatMap _ from hq)
  obtain ⟨c, hc, haccepts⟩ := mem_after_of_seq_char hrest
  obtain ⟨v, hv, -⟩ := reaches_of_mem_ends hm
  have hat : c = '@' := of_decide_eq_true haccepts
  rw [htext, show x = v ++ m.after from hv, ← hat]
  exact List.mem_append_right w (List.mem_append_right v hc)

/-- **The two doors agree** on an identifier exactly where it has a shape they share; or
its `@` belongs to one of the collector's own shapes; or it has no `@`, and is neither a
card nor a credential. -/
theorem doors_agree_iff (env : Platform) (s : String) :
    (Sdk.looksLikeAPerson s = true ↔ maskUserId env.compiled s ≠ [])
      ↔ sharedShape s = true ∨ '@' ∈ s.toList ∧ collectorShape s = true
        ∨ '@' ∉ s.toList ∧ Detectors.card.speaks s.toList = false ∧ Detectors.token.speaks s.toList = false := by
  rw [looksLikeAPerson_iff, maskUserId_iff]
  by_cases hshared : sharedShape s = true
  · simp [hshared]
  · by_cases hat : '@' ∈ s.toList
    · simp [hshared, hat]
    · -- without an `@` there is no address among the collector's shapes
      have hemail : Detectors.email.speaks s.toList = false := by
        by_contra hspeaks
        exact hat (at_mem_of_email (Bool.eq_true_of_not_eq_false hspeaks))
      have hown : collectorShape s = true
          ↔ ¬(Detectors.card.speaks s.toList = false ∧ Detectors.token.speaks s.toList = false) := by
        unfold collectorShape
        rw [hemail]
        cases Detectors.card.speaks s.toList <;> cases Detectors.token.speaks s.toList <;> decide
      rw [hown, iff_false_intro hshared, iff_false_intro hat]
      generalize (Detectors.card.speaks s.toList = false ∧ Detectors.token.speaks s.toList = false) = quiet
      simp

/-- **An address without a domain**: the tracker refuses it, the collector keeps it. -/
theorem doors_disagree :
    ¬∀ (env : Platform) (s : String), s ≠ "" →
      (Sdk.looksLikeAPerson s = true ↔ maskUserId env.compiled s ≠ []) := by
  intro h
  have hagree := (doors_agree_iff Sample.platform "kim@localhost").mp (h _ _ (by decide))
  revert hagree
  decide +kernel

-- a card in groups of four goes the other way: the collector blanks it, the tracker sends it
example : Sdk.looksLikeAPerson "5500 0000 0000 0004" = false
    ∧ collectorShape "5500 0000 0000 0004" = true := by
  decide +kernel

end Momento
