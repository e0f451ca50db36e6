/-
  Momento.Service.Detectors

  **THE DETECTORS, AS REGULAR EXPRESSIONS.**  Elsewhere the platform answers for what
  an expression matches; here the six expressions of the collector are spelled out,
  and the platform answers as they do (`Platform.compiled`).

      email    resident_number    payment_card    phone    credential
      — in this order, each on what the ones before it left —
      and long_digits, for user ids alone

  A mask is in square brackets, which no detector goes on through and which are no word
  characters.  So a masked text is detected piece by piece, and the second look at it
  sees what the pieces show standing alone.
-/
import Momento.Foundation.Regexp
import Momento.Service.PiiMasking

namespace Momento

open Foundation Regexp

/-! ## §1. The expressions. -/

namespace Expressions

/-- This character. -/
def lit (c : Char) : Regexp := .char fun d => d = c

/-- One of these characters. -/
def oneOf (cs : String) : Regexp := .char fun c => c ∈ cs.toList

/-- `\d`. -/
def digit : Regexp := .char Char.isDigit

/-- `[a-z]` under `(?i)`: two letters beyond ASCII fold to `s` and `k`. -/
def isLetter (c : Char) : Bool := c.isAlpha || c = '\u017F' || c = '\u212A'

/-- `[a-zA-Z]`. -/
def letter : Regexp := .char isLetter

/-- Letters, digits and some more. -/
def wordOf (more : String) : Regexp := .char fun c => isLetter c || c.isDigit || c ∈ more.toList

/-- A text under `(?i)`, of letters that fold within ASCII. -/
def caseless (text : String) : Regexp := chain (text.toList.map fun c => .char fun d => d.toLower = c.toLower)

/-- `[- ]?`. -/
def separator : Regexp := opt (oneOf "- ")

/-- `(?i)\b[a-z0-9._%+\-]+@[a-z0-9.\-]+\.[a-z]{2,}\b`. -/
def email : Regexp :=
  chain [.wordBoundary, atLeast 1 (wordOf "._%+-"), lit '@', atLeast 1 (wordOf ".-"), lit '.', atLeast 2 letter,
    .wordBoundary]

/-- `(?:\+?82[- ]?)?0?1[016789][- ]?\d{3,4}[- ]?\d{4}`. -/
def phone : Regexp :=
  chain [opt (chain [opt (lit '+'), lit '8', lit '2', separator]), opt (lit '0'), lit '1', oneOf "016789",
    separator, between 3 4 digit, separator, times 4 digit]

/-- `\b\d{6}[- ]?[1-8]\d{6}\b`. -/
def resident : Regexp :=
  chain [.wordBoundary, times 6 digit, separator, oneOf "12345678", times 6 digit, .wordBoundary]

/-- `\b(?:\d[ -]*?){13,19}\b`. -/
def card : Regexp :=
  chain [.wordBoundary, between 13 19 (.seq digit (.star false (oneOf " -"))), .wordBoundary]

/-- `(?i)(?:bearer\s+[A-Za-z0-9._~+/=-]{12,}|eyJ[A-Za-z0-9_-]{10,}\.[A-Za-z0-9_-]{10,}\.[A-Za-z0-9_-]{5,})`. -/
def token : Regexp :=
  .alt (chain [caseless "bearer", atLeast 1 (oneOf "\t\n\x0c\r "), atLeast 12 (wordOf "._~+/=-")])
    (chain [caseless "eyJ", atLeast 10 (wordOf "_-"), lit '.', atLeast 10 (wordOf "_-"), lit '.',
      atLeast 5 (wordOf "_-")])

/-- `\+?\d{8,}`. -/
def longDigits : Regexp := chain [opt (lit '+'), atLeast 8 digit]

/-- The expression of a text. -/
def ofPattern (pattern : String) : Option Regexp :=
  if pattern = emailPiiPattern then some email
  else if pattern = residentPiiPattern then some resident
  else if pattern = cardPiiPattern then some card
  else if pattern = phonePiiPattern then some phone
  else if pattern = tokenPiiPattern then some token
  else if pattern = longDigitsPiiPattern then some longDigits
  else none

end Expressions

/-! ## §2. The platform. -/

/-- One more character before the first match. -/
def keepChar (c : Char) : List (String × String) × String → List (String × String) × String
  | ([], rest) => ([], String.ofList (c :: rest.toList))
  | ((before, m) :: ms, rest) => ((String.ofList (c :: before.toList), m) :: ms, rest)

/-- The matches from left to right, each with the text before it, and the text after the
last one. -/
def splitChunks : List Chunk → List (String × String) × String
  | [] => ([], "")
  | .kept c :: cs => keepChar c (splitChunks cs)
  | .hit m :: cs => (("", String.ofList m) :: (splitChunks cs).1, (splitChunks cs).2)

/-- The platform with the collector's own expressions compiled, and ASCII texts in upper
case. -/
def Platform.compiled (env : Platform) : Platform :=
  { env with
    splitMatches := fun pattern text =>
      match Expressions.ofPattern pattern with
      | some r => splitChunks (r.chunks text.toList)
      | none => env.splitMatches pattern text
    toUpper := fun s => if s.toList.all (fun c => c.toNat < 128) then s.toUpper else env.toUpper s }

theorem matches_keepChar (c : Char) (split : List (String × String) × String) :
    (keepChar c split).1.map Prod.snd = split.1.map Prod.snd := by
  obtain ⟨matched, rest⟩ := split
  cases matched with
  | nil => rfl
  | cons b ms => rfl

theorem join_keepChar (replace : String → String) (c : Char) (split : List (String × String) × String) :
    (String.join ((keepChar c split).1.map fun b => b.1 ++ replace b.2) ++ (keepChar c split).2).toList
      = c :: (String.join (split.1.map fun b => b.1 ++ replace b.2) ++ split.2).toList := by
  obtain ⟨matched, rest⟩ := split
  cases matched with
  | nil => simp [keepChar]
  | cons b ms => simp [keepChar]

/-- The matches are the hits. -/
theorem matches_splitChunks (cs : List Chunk) :
    (splitChunks cs).1.map Prod.snd = (cs.filter Chunk.isHit).map fun chunk => String.ofList chunk.text := by
  induction cs with
  | nil => rfl
  | cons chunk cs ih =>
    cases chunk with
    | kept c =>
      show (keepChar c (splitChunks cs)).1.map Prod.snd = _
      rw [matches_keepChar, ih]
      rfl
    | hit m =>
      show String.ofList m :: (splitChunks cs).1.map Prod.snd = _
      rw [ih]
      rfl

/-- `ReplaceAllStringFunc`, chunk by chunk. -/
theorem join_splitChunks (replace : String → String) (cs : List Chunk) :
    (String.join ((splitChunks cs).1.map fun b => b.1 ++ replace b.2) ++ (splitChunks cs).2).toList
      = cs.flatMap fun chunk =>
        match chunk with
        | .kept c => [c]
        | .hit m => (replace (String.ofList m)).toList := by
  induction cs with
  | nil => rfl
  | cons chunk cs ih =>
    cases chunk with
    | kept c =>
      rw [List.flatMap_cons, ← ih]
      exact join_keepChar replace c (splitChunks cs)
    | hit m =>
      rw [List.flatMap_cons, ← ih]
      show (String.join (("" ++ replace (String.ofList m)) :: _) ++ (splitChunks cs).2).toList = _
      simp

/-! ## §3. The detectors. -/

/-- An expression, which of its matches count, and what stands in their place. -/
structure Detector where
  expression : Regexp
  accept : List Char → Bool
  mask : List Char

namespace Detector

/-- It finds something in the text. -/
def speaks (d : Detector) (text : List Char) : Bool :=
  (d.expression.chunks text).any fun chunk =>
    match chunk with
    | .kept _ => false
    | .hit m => d.accept m

/-- The text with the masks it sets. -/
def apply (d : Detector) (text : List Char) : List Char := replace d.accept d.mask (d.expression.chunks text)

/-- The text between its masks. -/
def leaves (d : Detector) (text : List Char) : List (List Char) := pieces d.expression d.accept text

theorem apply_of_not_speaks {d : Detector} {text : List Char} (h : d.speaks text = false) :
    d.apply text = text := by
  unfold apply
  rw [replace_of_none]
  · exact flatMap_scan _ _ _
  · intro m hm
    have hfalse := List.any_eq_false.mp h _ hm
    exact Bool.eq_false_of_not_eq_true hfalse

end Detector

namespace Detectors

/-- `emailPIIPattern`. -/
def email : Detector := ⟨Expressions.email, fun _ => true, "[MASKED_EMAIL]".toList⟩

/-- `residentPIIPattern`. -/
def resident : Detector := ⟨Expressions.resident, fun _ => true, "[MASKED_RESIDENT_NUMBER]".toList⟩

/-- `cardPIIPattern`, of card numbers. -/
def card : Detector := ⟨Expressions.card, fun m => isCard (String.ofList m), "[MASKED_PAYMENT_CARD]".toList⟩

/-- `phonePIIPattern`. -/
def phone : Detector := ⟨Expressions.phone, fun _ => true, "[MASKED_PHONE]".toList⟩

/-- `tokenPIIPattern`. -/
def token : Detector := ⟨Expressions.token, fun _ => true, "[MASKED_CREDENTIAL]".toList⟩

/-- In the order of `maskPIIString`. -/
def all : List Detector := [email, resident, card, phone, token]

end Detectors

section Bridge
variable (env : Platform)

/-- `MatchString` of a compiled expression. -/
theorem matchString_compiled {pattern : String} {r : Regexp} (h : Expressions.ofPattern pattern = some r)
    (text : String) : env.compiled.matchString pattern text = r.matchString text.toList := by
  have hsplit : env.compiled.splitMatches pattern text = splitChunks (r.chunks text.toList) := by
    show (match Expressions.ofPattern pattern with | some r => _ | none => _) = _
    rw [h]
  unfold Platform.matchString Regexp.matchString
  rw [hsplit, Bool.eq_iff_iff, decide_eq_true_iff, List.any_eq_true]
  have hmap := congrArg List.length (matches_splitChunks (r.chunks text.toList))
  simp only [List.length_map] at hmap
  rw [← List.length_pos_iff, hmap, List.length_pos_iff_exists_mem]
  constructor
  · rintro ⟨chunk, hchunk⟩
    exact ⟨chunk, (List.mem_filter.mp hchunk).1, (List.mem_filter.mp hchunk).2⟩
  · rintro ⟨chunk, hmem, hhit⟩
    exact ⟨chunk, List.mem_filter.mpr ⟨hmem, hhit⟩⟩

theorem replaceAll_compiled {pattern : String} {r : Regexp} (h : Expressions.ofPattern pattern = some r)
    (text : String) (replace : String → String) :
    (env.compiled.replaceAllStringFunc pattern text replace).toList
      = (r.chunks text.toList).flatMap fun chunk =>
        match chunk with
        | .kept c => [c]
        | .hit m => (replace (String.ofList m)).toList := by
  have hsplit : env.compiled.splitMatches pattern text = splitChunks (r.chunks text.toList) := by
    show (match Expressions.ofPattern pattern with | some r => _ | none => _) = _
    rw [h]
  unfold Platform.replaceAllStringFunc
  rw [hsplit]
  exact join_splitChunks replace _

/-- A stage of `maskPIIString` does what its detector does. -/
structure Stage (d : Detector) (stage : Seen String → Seen String) : Prop where
  text : ∀ seen, (stage seen).1.toList = d.apply seen.1.toList
  found : ∀ seen, (stage seen).2 = [] ↔ seen.2 = [] ∧ d.speaks seen.1.toList = false

theorem speaks_eq_matchString {d : Detector} (haccept : d.accept = fun _ => true) (text : List Char) :
    d.speaks text = d.expression.matchString text := by
  unfold Detector.speaks Regexp.matchString
  congr 1
  funext chunk
  cases chunk with
  | kept c => rfl
  | hit m =>
    rw [haccept]
    rfl

theorem stage_replacePii {d : Detector} {pattern kind : String}
    (hpattern : Expressions.ofPattern pattern = some d.expression) (haccept : d.accept = fun _ => true)
    (hmask : ("[MASKED_" ++ env.compiled.toUpper kind ++ "]").toList = d.mask) :
    Stage d (replacePii env.compiled pattern kind) where
  text seen := by
    have hmatch := matchString_compiled env hpattern seen.1
    rw [← speaks_eq_matchString haccept] at hmatch
    unfold replacePii
    split
    · rw [replaceAll_compiled env hpattern]
      unfold Detector.apply replace
      apply List.flatMap_congr
      intro chunk _
      cases chunk with
      | kept c => rfl
      | hit m =>
        rw [haccept]
        exact hmask
    next hnone =>
      rw [hmatch] at hnone
      exact (Detector.apply_of_not_speaks (Bool.eq_false_of_not_eq_true hnone)).symm
  found seen := by
    have hmatch := matchString_compiled env hpattern seen.1
    rw [← speaks_eq_matchString haccept] at hmatch
    unfold replacePii
    split
    next hsome =>
      rw [hmatch] at hsome
      constructor
      · intro h
        exact absurd (List.append_eq_nil_iff.mp h).2 (List.cons_ne_nil _ _)
      · rintro ⟨-, hfalse⟩
        rw [hsome] at hfalse
        cases hfalse
    next hnone =>
      rw [hmatch] at hnone
      exact (and_iff_left (Bool.eq_false_of_not_eq_true hnone)).symm

theorem stage_replaceCards : Stage Detectors.card (replaceCards env.compiled) where
  text seen := by
    unfold replaceCards
    rw [replaceAll_compiled env rfl]
    unfold Detector.apply replace
    apply List.flatMap_congr
    intro chunk _
    cases chunk with
    | kept c => rfl
    | hit m =>
      show (if isCard (String.ofList m) then "[MASKED_PAYMENT_CARD]" else String.ofList m).toList
        = if isCard (String.ofList m) then _ else m
      split
      · rfl
      · exact String.toList_ofList
  found seen := by
    have hsplit : env.compiled.splitMatches cardPiiPattern seen.1
        = splitChunks (Expressions.card.chunks seen.1.toList) := rfl
    unfold replaceCards
    rw [hsplit, matches_splitChunks, List.append_eq_nil_iff, List.map_eq_nil_iff, List.filter_eq_nil_iff]
    refine and_congr_right fun _ => ?_
    unfold Detector.speaks
    rw [List.any_eq_false]
    constructor
    · intro h chunk hchunk
      cases chunk with
      | kept c => exact Bool.false_ne_true
      | hit m => exact h _ (List.mem_map.mpr ⟨.hit m, List.mem_filter.mpr ⟨hchunk, rfl⟩, rfl⟩)
    · intro h text htext
      obtain ⟨chunk, hchunk, rfl⟩ := List.mem_map.mp htext
      obtain ⟨hmem, hhit⟩ := List.mem_filter.mp hchunk
      cases chunk with
      | kept c => cases hhit
      | hit m => exact h _ hmem

theorem toUpper_compiled {s : String} (h : s.toList.all (fun c => c.toNat < 128) = true) :
    env.compiled.toUpper s = s.toUpper := if_pos h

/-- What `replacePii` is called with, beside a pattern, and the detectors that answers to. -/
def namedKinds : List (String × Detector) :=
  [("email", Detectors.email), ("resident_number", Detectors.resident), ("phone", Detectors.phone),
    ("credential", Detectors.token)]

theorem mask_of_namedKinds : ∀ k ∈ namedKinds, k.1.toList.all (fun c => c.toNat < 128) = true
    ∧ ("[MASKED_" ++ k.1.toUpper ++ "]").toList = k.2.mask := by
  decide +kernel

theorem mask_compiled {kind : String} {d : Detector} (h : (kind, d) ∈ namedKinds) :
    ("[MASKED_" ++ env.compiled.toUpper kind ++ "]").toList = d.mask := by
  obtain ⟨hascii, hmask⟩ := mask_of_namedKinds _ h
  rw [toUpper_compiled env hascii]
  exact hmask

theorem stage_email : Stage Detectors.email (replacePii env.compiled emailPiiPattern "email") :=
  stage_replacePii env rfl rfl (mask_compiled env (.head _))

theorem stage_resident :
    Stage Detectors.resident (replacePii env.compiled residentPiiPattern "resident_number") :=
  stage_replacePii env rfl rfl (mask_compiled env (.tail _ (.head _)))

theorem stage_phone : Stage Detectors.phone (replacePii env.compiled phonePiiPattern "phone") :=
  stage_replacePii env rfl rfl (mask_compiled env (.tail _ (.tail _ (.head _))))

theorem stage_token : Stage Detectors.token (replacePii env.compiled tokenPiiPattern "credential") :=
  stage_replacePii env rfl rfl (mask_compiled env (.tail _ (.tail _ (.tail _ (.head _)))))

/-! ## §4. `maskPIIString`. -/

/-- The text with every mask set. -/
def maskedText (text : List Char) : List Char := Detectors.all.foldl (fun text d => d.apply text) text

/-- The stages, in their order. -/
def stages : List (Seen String → Seen String) :=
  [replacePii env.compiled emailPiiPattern "email", replacePii env.compiled residentPiiPattern "resident_number",
    replaceCards env.compiled, replacePii env.compiled phonePiiPattern "phone",
    replacePii env.compiled tokenPiiPattern "credential"]

/-- The five stages. -/
theorem stages_do : List.Forall₂ Stage Detectors.all (stages env) :=
  .cons (stage_email env) (.cons (stage_resident env) (.cons (stage_replaceCards env)
    (.cons (stage_phone env) (.cons (stage_token env) .nil))))

theorem text_foldl {detectors : List Detector} {stages : List (Seen String → Seen String)}
    (h : List.Forall₂ Stage detectors stages) (seen : Seen String) :
    (stages.foldl (fun seen stage => stage seen) seen).1.toList
      = detectors.foldl (fun text d => d.apply text) seen.1.toList := by
  induction h generalizing seen with
  | nil => rfl
  | cons hstage _ ih =>
    rw [List.foldl_cons, List.foldl_cons, ih, hstage.text]

/-- Each detector sees the text as it was, as long as the ones before it were silent. -/
theorem found_foldl {detectors : List Detector} {stages : List (Seen String → Seen String)}
    (h : List.Forall₂ Stage detectors stages) (seen : Seen String) :
    (stages.foldl (fun seen stage => stage seen) seen).2 = []
      ↔ seen.2 = [] ∧ ∀ d ∈ detectors, d.speaks seen.1.toList = false := by
  induction h generalizing seen with
  | nil => exact ⟨fun hnil => ⟨hnil, fun _ hd => nomatch hd⟩, And.left⟩
  | cons hstage _ ih =>
    rw [List.foldl_cons, ih, hstage.found, hstage.text, List.forall_mem_cons]
    constructor
    · rintro ⟨⟨hnil, hsilent⟩, hrest⟩
      rw [Detector.apply_of_not_speaks hsilent] at hrest
      exact ⟨hnil, hsilent, hrest⟩
    · rintro ⟨hnil, hsilent, hrest⟩
      rw [Detector.apply_of_not_speaks hsilent]
      exact ⟨⟨hnil, hsilent⟩, hrest⟩

/-- The five stages in turn. -/
theorem maskPiiString_eq_foldl (value : String) :
    maskPiiString env.compiled value = (stages env).foldl (fun seen stage => stage seen) (value, []) := by
  unfold maskPiiString stages
  simp only [List.foldl_cons, List.foldl_nil]

/-- The five masks in turn. -/
theorem maskPiiString_text (value : String) :
    (maskPiiString env.compiled value).1.toList = maskedText value.toList := by
  rw [maskPiiString_eq_foldl, text_foldl (stages_do env)]
  rfl

/-- **Nothing is found** where no detector speaks. -/
theorem maskPiiString_found (value : String) :
    (maskPiiString env.compiled value).2 = [] ↔ ∀ d ∈ Detectors.all, d.speaks value.toList = false := by
  rw [maskPiiString_eq_foldl, found_foldl (stages_do env)]
  exact and_iff_right rfl

theorem maskedText_of_silent {text : List Char} (h : ∀ d ∈ Detectors.all, d.speaks text = false) :
    maskedText text = text := by
  unfold maskedText
  revert h
  generalize Detectors.all = detectors
  intro h
  induction detectors with
  | nil => rfl
  | cons d detectors ih =>
    rw [List.foldl_cons, Detector.apply_of_not_speaks (h d List.mem_cons_self)]
    exact ih fun d' hd' => h d' (List.mem_cons_of_mem _ hd')

end Bridge

end Momento
