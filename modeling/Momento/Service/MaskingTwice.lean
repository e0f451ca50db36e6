/-
  Momento.Service.MaskingTwice

  **WHAT A SECOND LOOK FINDS.**  The detectors run one after the other, once.  A mask
  cuts the text: what was in the middle of a word is at its end now, and a detector
  that came before the mask does not look again.
-/
import Momento.Service.Detectors

namespace Momento

open Foundation Regexp

/-! ## §1. Masks separate. -/

/-- A mask as the collector writes them: bracketed, with nothing inside for a detector. -/
def Bracketed (mask : List Char) : Prop :=
  ∃ inside, mask = '[' :: (inside ++ [']']) ∧ ∀ d ∈ Detectors.all, d.speaks inside = false

theorem bracketed_mask : ∀ d ∈ Detectors.all, Bracketed d.mask := by
  have hinside : ∀ d ∈ Detectors.all, d.mask = '[' :: ((d.mask.drop 1).dropLast ++ [']']) := by
    decide +kernel
  have hsilent : ∀ d ∈ Detectors.all, ∀ e ∈ Detectors.all, e.speaks (d.mask.drop 1).dropLast = false := by
    decide +kernel
  intro d hd
  exact ⟨_, hinside d hd, hsilent d hd⟩

theorem refuses_brackets : ∀ d ∈ Detectors.all,
    d.expression.refuses '[' = true ∧ d.expression.refuses ']' = true := by
  decide +kernel

section Separate
variable {d : Detector} {mask : List Char}

theorem chunks_mask (hd : d ∈ Detectors.all) (inside u v : List Char) :
    d.expression.chunks (u ++ ('[' :: (inside ++ [']']) ++ v))
      = d.expression.chunks u
        ++ .kept '[' :: (d.expression.chunks inside ++ .kept ']' :: d.expression.chunks v) := by
  obtain ⟨hopen, hclose⟩ := refuses_brackets d hd
  rw [show u ++ ('[' :: (inside ++ [']']) ++ v) = u ++ '[' :: (inside ++ ']' :: v) by simp,
    chunks_append (by decide) hopen, chunks_append (by decide) hclose]

/-- A mask is not looked at, and no match goes through it. -/
theorem speaks_mask (hd : d ∈ Detectors.all) (hmask : Bracketed mask) (u v : List Char) :
    d.speaks (u ++ (mask ++ v)) = (d.speaks u || d.speaks v) := by
  obtain ⟨inside, rfl, hinside⟩ := hmask
  have hsilent := hinside d hd
  unfold Detector.speaks at hsilent ⊢
  rw [chunks_mask hd, List.any_append, List.any_cons, List.any_append, List.any_cons, hsilent]
  simp

theorem apply_mask (hd : d ∈ Detectors.all) (hmask : Bracketed mask) (u v : List Char) :
    d.apply (u ++ (mask ++ v)) = d.apply u ++ (mask ++ d.apply v) := by
  obtain ⟨inside, rfl, hinside⟩ := hmask
  have hsame := Detector.apply_of_not_speaks (hinside d hd)
  unfold Detector.apply at hsame ⊢
  rw [chunks_mask hd, replace_append]
  show _ ++ '[' :: replace d.accept d.mask (d.expression.chunks inside ++ .kept ']' :: d.expression.chunks v) = _
  rw [replace_append, hsame]
  show _ ++ '[' :: (inside ++ ']' :: replace d.accept d.mask (d.expression.chunks v)) = _
  simp

end Separate

/-! ## §2. Pieces between masks. -/

/-- The text is the pieces, with masks between them. -/
inductive Joined : List (List Char) → List Char → Prop
  | last (g : List Char) : Joined [g] g
  | cons (g mask : List Char) (gs : List (List Char)) (text : List Char) (hmask : Bracketed mask)
      (hrest : Joined gs text) : Joined (g :: gs) (g ++ (mask ++ text))

theorem Joined.append {gs gs' : List (List Char)} {text text' mask : List Char} (h : Joined gs text)
    (hmask : Bracketed mask) (h' : Joined gs' text') : Joined (gs ++ gs') (text ++ (mask ++ text')) := by
  induction h with
  | last g => exact .cons g mask gs' text' hmask h'
  | cons g mask' gs text hmask' _ ih =>
    rw [List.append_assoc, List.append_assoc]
    exact .cons g mask' (gs ++ gs') _ hmask' ih

/-- What a detector makes of a text without masks. -/
theorem joined_leaves {d : Detector} (hd : d ∈ Detectors.all) (g : List Char) :
    Joined (d.leaves g) (d.apply g) := by
  unfold Detector.leaves Detector.apply pieces
  rw [replace_eq_gaps]
  generalize gaps d.accept (d.expression.chunks g) = found
  obtain ⟨first, rest⟩ := found
  show Joined (first :: rest) (first ++ rest.flatMap (d.mask ++ ·))
  induction rest generalizing first with
  | nil =>
    rw [List.flatMap_nil, List.append_nil]
    exact .last first
  | cons g rest ih =>
    rw [List.flatMap_cons, List.append_assoc]
    exact .cons first d.mask _ _ (bracketed_mask d hd) (ih g)

/-- **A detector on a masked text** works piece by piece. -/
theorem Joined.apply {d : Detector} (hd : d ∈ Detectors.all) {gs : List (List Char)} {text : List Char}
    (h : Joined gs text) : Joined (gs.flatMap d.leaves) (d.apply text) := by
  induction h with
  | last g =>
    rw [List.flatMap_singleton]
    exact joined_leaves hd g
  | cons g mask gs text hmask _ ih =>
    rw [apply_mask hd hmask, List.flatMap_cons]
    exact (joined_leaves hd g).append hmask ih

theorem Joined.speaks {d : Detector} (hd : d ∈ Detectors.all) {gs : List (List Char)} {text : List Char}
    (h : Joined gs text) : d.speaks text = gs.any d.speaks := by
  induction h with
  | last g => simp
  | cons g mask gs text hmask _ ih => rw [speaks_mask hd hmask, ih, List.any_cons]

/-- What the masks leave of a text. -/
def leftovers (text : List Char) : List (List Char) :=
  Detectors.all.foldl (fun gs d => gs.flatMap d.leaves) [text]

theorem joined_leftovers (text : List Char) : Joined (leftovers text) (maskedText text) := by
  have hfold : ∀ (detectors : List Detector), (∀ d ∈ detectors, d ∈ Detectors.all) →
      ∀ (gs : List (List Char)) (text : List Char), Joined gs text →
        Joined (detectors.foldl (fun gs d => gs.flatMap d.leaves) gs)
          (detectors.foldl (fun text d => d.apply text) text) := by
    intro detectors
    induction detectors with
    | nil => exact fun _ _ _ h => h
    | cons d detectors ih =>
      intro hall gs text h
      exact ih (fun d' hd' => hall d' (List.mem_cons_of_mem _ hd')) _ _
        (h.apply (hall d List.mem_cons_self))
  exact hfold Detectors.all (fun _ hd => hd) [text] text (.last text)

/-- **A detector speaks on a masked text** exactly where it does on a piece between the masks. -/
theorem speaks_maskedText {d : Detector} (hd : d ∈ Detectors.all) (text : List Char) :
    d.speaks (maskedText text) = (leftovers text).any d.speaks := (joined_leftovers text).speaks hd

/-! ## §3. What cannot reappear. -/

theorem phone_of_mem_leaves {g piece : List Char} (h : piece ∈ Detectors.phone.leaves g) :
    Detectors.phone.speaks piece = false := by
  rw [speaks_eq_matchString rfl]
  exact matchString_of_mem_pieces rfl rfl h

theorem token_of_mem_leaves {g piece : List Char} (h : piece ∈ Detectors.token.leaves g) :
    Detectors.token.speaks piece = false := by
  rw [speaks_eq_matchString rfl]
  exact matchString_of_mem_pieces rfl rfl h

/-- A piece of a text without a telephone number has none. -/
theorem phone_of_piece {d : Detector} {g piece : List Char} (hg : Detectors.phone.speaks g = false)
    (h : piece ∈ d.leaves g) : Detectors.phone.speaks piece = false := by
  have hconsumes : Expressions.phone.consumes = true := rfl
  have hfree : Expressions.phone.boundaryFree = true := rfl
  obtain ⟨u, v, rfl⟩ := piece_of_mem_pieces h
  rw [speaks_eq_matchString rfl] at hg ⊢
  exact (matchString_eq_false_iff hconsumes piece).mpr
    (((matchString_eq_false_iff hconsumes _).mp hg).piece hfree)

theorem phone_of_mem_leftovers {text piece : List Char} (h : piece ∈ leftovers text) :
    Detectors.phone.speaks piece = false := by
  change piece ∈ ((((([text].flatMap Detectors.email.leaves).flatMap Detectors.resident.leaves).flatMap
    Detectors.card.leaves).flatMap Detectors.phone.leaves).flatMap Detectors.token.leaves) at h
  obtain ⟨g, hg, hpiece⟩ := List.mem_flatMap.mp h
  obtain ⟨g', -, hg'⟩ := List.mem_flatMap.mp hg
  exact phone_of_piece (phone_of_mem_leaves hg') hpiece

theorem token_of_mem_leftovers {text piece : List Char} (h : piece ∈ leftovers text) :
    Detectors.token.speaks piece = false := by
  change piece ∈ ((((([text].flatMap Detectors.email.leaves).flatMap Detectors.resident.leaves).flatMap
    Detectors.card.leaves).flatMap Detectors.phone.leaves).flatMap Detectors.token.leaves) at h
  obtain ⟨g, -, hpiece⟩ := List.mem_flatMap.mp h
  exact token_of_mem_leaves hpiece

/-! ## §4. Masking twice. -/

/-- The detectors that ask where a word ends, on a text of its own. -/
def uncovered (text : List Char) : Bool :=
  Detectors.email.speaks text || Detectors.resident.speaks text || Detectors.card.speaks text

/-- **No detector speaks on a masked text** exactly where no piece that the masks leave
shows, on its own, an address, a resident number or a card. -/
theorem silent_maskedText_iff (text : List Char) :
    (∀ d ∈ Detectors.all, d.speaks (maskedText text) = false)
      ↔ ∀ piece ∈ leftovers text, uncovered piece = false := by
  have hpieces : (∀ d ∈ Detectors.all, d.speaks (maskedText text) = false)
      ↔ ∀ d ∈ Detectors.all, ∀ piece ∈ leftovers text, d.speaks piece = false := by
    refine forall₂_congr fun d hd => ?_
    rw [speaks_maskedText hd, List.any_eq_false]
    exact forall₂_congr fun _ _ => Iff.of_eq (Bool.not_eq_true _)
  rw [hpieces]
  constructor
  · intro h piece hpiece
    unfold uncovered
    rw [h Detectors.email (by simp [Detectors.all]) piece hpiece,
      h Detectors.resident (by simp [Detectors.all]) piece hpiece,
      h Detectors.card (by simp [Detectors.all]) piece hpiece]
    rfl
  · intro h d hd piece hpiece
    have huncovered := h piece hpiece
    unfold uncovered at huncovered
    rw [Bool.or_eq_false_iff, Bool.or_eq_false_iff] at huncovered
    obtain ⟨⟨hemail, hresident⟩, hcard⟩ := huncovered
    simp only [Detectors.all, List.mem_cons, List.not_mem_nil, or_false] at hd
    rcases hd with rfl | rfl | rfl | rfl | rfl
    · exact hemail
    · exact hresident
    · exact hcard
    · exact phone_of_mem_leftovers hpiece
    · exact token_of_mem_leftovers hpiece

/-- **Masking reaches a fixpoint** exactly where no piece that the masks leave shows, on its
own, an address, a resident number or a card. -/
theorem mask_fixpoint_iff (env : Platform) (s : String) :
    maskPiiString env.compiled (maskPiiString env.compiled s).1 = ((maskPiiString env.compiled s).1, [])
      ↔ ∀ piece ∈ leftovers s.toList, uncovered piece = false := by
  rw [← silent_maskedText_iff, ← maskPiiString_text env, ← maskPiiString_found env]
  constructor
  · intro h
    rw [h]
  · intro h
    refine Prod.ext ?_ h
    apply String.toList_inj.mp
    rw [maskPiiString_text, maskedText_of_silent ((maskPiiString_found env _).mp h)]

/-- **A number that a mask uncovers**: the telephone number before it goes, and a resident
number stands alone. -/
theorem uncovered_resident_number :
    ¬∀ (env : Platform) (s : String),
      maskPiiString env.compiled (maskPiiString env.compiled s).1 = ((maskPiiString env.compiled s).1, []) := by
  intro h
  have hfixed := (mask_fixpoint_iff Sample.platform "010123456789003022345678").mp (h _ _)
  revert hfixed
  decide +kernel

end Momento
