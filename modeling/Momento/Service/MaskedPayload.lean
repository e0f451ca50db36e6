/-
  Momento.Service.MaskedPayload

  **WHAT MASKING LEAVES, READ OFF THE REQUEST.**  With the collector's own expressions
  (`Platform.compiled`) the masks a text gets are known, and with them what is left of
  it: the pieces between the masks.  A URL is masked, taken apart, and its query decoded
  and escaped again; a question mark, an ampersand and an equals sign stand between what
  the detectors see of it.
-/
import Momento.Service.MaskingTwice
import Momento.Service.UrlSanitising

namespace Momento

open Foundation Regexp
open Foundation.QueryString (Form escaped)

/-! ## §1. Separators. -/

/-- A detector that does not go on through a character looks at the two sides apart. -/
theorem speaks_append {d : Detector} {c : Char} (hword : isWordChar c = false)
    (hrefuses : d.expression.refuses c = true) (u v : List Char) :
    d.speaks (u ++ c :: v) = (d.speaks u || d.speaks v) := by
  unfold Detector.speaks
  rw [chunks_append hword hrefuses, List.any_append, List.any_cons]
  rfl

/-- Some detector speaks. -/
def spoken (text : List Char) : Bool := Detectors.all.any fun d => d.speaks text

theorem spoken_eq_false_iff (text : List Char) :
    spoken text = false ↔ ∀ d ∈ Detectors.all, d.speaks text = false := by
  unfold spoken
  rw [List.any_eq_false]
  exact forall₂_congr fun _ _ => Iff.of_eq (Bool.not_eq_true _)

/-- No detector goes on through what separates a query. -/
theorem refuses_separators : ∀ d ∈ Detectors.all,
    d.expression.refuses '?' = true ∧ d.expression.refuses '&' = true := by
  decide +kernel

theorem silent_append {c : Char} (hword : isWordChar c = false)
    (hrefuses : ∀ d ∈ Detectors.all, d.expression.refuses c = true) (u v : List Char) :
    spoken (u ++ c :: v) = false ↔ spoken u = false ∧ spoken v = false := by
  rw [spoken_eq_false_iff, spoken_eq_false_iff, spoken_eq_false_iff, ← forall₂_and]
  refine forall₂_congr fun d hd => ?_
  rw [speaks_append hword (hrefuses d hd), Bool.or_eq_false_iff]

/-- `bearer\s+…` asks for a blank. -/
def Expressions.bearer : Regexp :=
  chain [caseless "bearer", atLeast 1 (oneOf "\t\n\x0c\r "), atLeast 12 (wordOf "._~+/=-")]

/-- `eyJ…\.…\.…`. -/
def Expressions.webToken : Regexp :=
  chain [caseless "eyJ", atLeast 10 (wordOf "_-"), lit '.', atLeast 10 (wordOf "_-"), lit '.',
    atLeast 5 (wordOf "_-")]

/-- A text without blanks has no bearer's token. -/
theorem bearer_of_visible {text : List Char} (hvisible : ∀ c ∈ text, 32 < c.toNat) :
    Expressions.bearer.matchString text = false := by
  have hblanks : ∀ c, decide (c ∈ "\t\n\x0c\r ".toList) = true → c.toNat ≤ 32 := by
    intro c hc
    have hmem : c ∈ ['\t', '\n', '\x0c', '\r', ' '] := of_decide_eq_true hc
    simp only [List.mem_cons, List.not_mem_nil, or_false] at hmem
    rcases hmem with rfl | rfl | rfl | rfl | rfl
    · decide
    · decide
    · decide
    · decide
    · decide
  apply Bool.eq_false_of_not_eq_true
  intro hmatch
  obtain ⟨w, x, q, rfl, hq⟩ := exists_of_matchString rfl hmatch
  -- past the word, at least one blank is read
  obtain ⟨m, hm, hq⟩ := List.mem_flatMap.mp hq
  obtain ⟨k, hk, -⟩ := List.mem_flatMap.mp hq
  obtain ⟨n, hn, -⟩ := List.mem_flatMap.mp hk
  obtain ⟨n', hn', -⟩ := List.mem_flatMap.mp hn
  have hread : n' ∈ ends (.seq (Expressions.caseless "bearer")
      (.seq (Expressions.oneOf "\t\n\x0c\r ") .empty)) ⟨w.reverse, x⟩ :=
    List.mem_flatMap.mpr ⟨m, hm, List.mem_flatMap.mpr ⟨n', hn', List.mem_singleton_self n'⟩⟩
  obtain ⟨c, hc, hblank⟩ := mem_after_of_seq_char hread
  have hseen := hvisible c (List.mem_append_right w hc)
  have hle := hblanks c hblank
  omega

/-- A name and its value, as a query writes them, are looked at apart. -/
theorem token_pair {u v : List Char} (hu : ∀ c ∈ u, 32 < c.toNat) (hv : ∀ c ∈ v, 32 < c.toNat) :
    Detectors.token.speaks (u ++ '=' :: v) = (Detectors.token.speaks u || Detectors.token.speaks v) := by
  have halone : ∀ text : List Char, (∀ c ∈ text, 32 < c.toNat) →
      Detectors.token.speaks text = Expressions.webToken.matchString text := by
    intro text htext
    rw [speaks_eq_matchString rfl]
    show (Regexp.alt Expressions.bearer Expressions.webToken).matchString text = _
    rw [matchString_alt rfl rfl, bearer_of_visible htext, Bool.false_or]
  have hboth : ∀ c ∈ u ++ '=' :: v, 32 < c.toNat := by
    intro c hc
    rcases List.mem_append.mp hc with hmem | hmem
    · exact hu c hmem
    · rcases List.mem_cons.mp hmem with rfl | hmem
      · decide
      · exact hv c hmem
  rw [halone _ hboth, halone u hu, halone v hv, matchString_append (by decide) (by decide +kernel)]

/-- So does every detector: of a name and its value, one on either side of the sign. -/
theorem silent_pair {u v : List Char} (hu : ∀ c ∈ u, 32 < c.toNat) (hv : ∀ c ∈ v, 32 < c.toNat) :
    spoken (u ++ '=' :: v) = false ↔ spoken u = false ∧ spoken v = false := by
  have hrefuses : ∀ d ∈ [Detectors.email, Detectors.resident, Detectors.card, Detectors.phone],
      d.expression.refuses '=' = true := by
    decide +kernel
  rw [spoken_eq_false_iff, spoken_eq_false_iff, spoken_eq_false_iff, ← forall₂_and]
  refine forall₂_congr fun d hd => ?_
  rw [← Bool.or_eq_false_iff]
  have hsplit : d ∈ [Detectors.email, Detectors.resident, Detectors.card, Detectors.phone] ++ [Detectors.token] := hd
  rcases List.mem_append.mp hsplit with hother | htoken
  · rw [speaks_append (by decide) (hrefuses d hother)]
  · obtain rfl := List.mem_singleton.mp htoken
    rw [token_pair hu hv]

/-- Pieces with ampersands between them are looked at one by one. -/
theorem silent_intercalate (pieces : List (List Char)) :
    spoken (['&'].intercalate pieces) = false ↔ ∀ piece ∈ pieces, spoken piece = false := by
  induction pieces with
  | nil =>
    have hempty : spoken [] = false := by decide +kernel
    exact ⟨fun _ _ h => absurd h List.not_mem_nil, fun _ => hempty⟩
  | cons piece rest ih =>
    rw [List.forall_mem_cons, ← ih]
    by_cases hrest : rest = []
    · subst hrest
      have hempty : spoken (['&'].intercalate []) = false := by decide +kernel
      rw [hempty, List.intercalate_singleton]
      exact (and_iff_left rfl).symm
    · rw [List.intercalate_cons_of_ne_nil hrest, List.append_assoc, List.singleton_append]
      exact silent_append (by decide) (fun d hd => (refuses_separators d hd).2) _ _

/-! ## §2. Texts. -/

/-- Nothing is left of a text: no piece between its masks shows, on its own, an address,
a resident number or a card. -/
def TextLeavesNothing (text : String) : Prop := ∀ piece ∈ leftovers text.toList, uncovered piece = false

section
variable (env : Platform)

theorem matchString_detector {d : Detector} {pattern : String}
    (hpattern : Expressions.ofPattern pattern = some d.expression) (haccept : d.accept = fun _ => true)
    (text : String) : env.compiled.matchString pattern text = d.speaks text.toList := by
  rw [matchString_compiled env hpattern, speaks_eq_matchString haccept]

theorem anyCard_detector (text : String) :
    ((env.compiled.splitMatches cardPiiPattern text).1.any fun m => isCard m.2)
      = Detectors.card.speaks text.toList := by
  have hsplit : env.compiled.splitMatches cardPiiPattern text
      = splitChunks (Expressions.card.chunks text.toList) := rfl
  have hmap : ∀ matched : List (String × String),
      (matched.any fun m => isCard m.2) = (matched.map Prod.snd).any isCard := by
    intro matched
    rw [List.any_map]
    rfl
  rw [hsplit, hmap, matches_splitChunks, List.any_map, List.any_filter]
  unfold Detector.speaks
  congr 1
  funext chunk
  cases chunk with
  | kept c => rfl
  | hit m => rfl

/-- Some detector of the collector matches. -/
theorem detected_compiled (text : String) : detected env.compiled text = spoken text.toList := by
  unfold detected spoken
  rw [matchString_detector env (d := Detectors.email) rfl rfl,
    matchString_detector env (d := Detectors.resident) rfl rfl, anyCard_detector,
    matchString_detector env (d := Detectors.phone) rfl rfl,
    matchString_detector env (d := Detectors.token) rfl rfl]
  simp only [Detectors.all, List.any_cons, List.any_nil, Bool.or_false, Bool.or_assoc]

/-- **What masking leaves of a text** is in the pieces between the masks. -/
theorem maskedAway_iff (text : String) : MaskedAway env.compiled text ↔ TextLeavesNothing text := by
  unfold MaskedAway masked TextLeavesNothing
  rw [detected_compiled, maskPiiString_text, spoken_eq_false_iff, silent_maskedText_iff]

/-! ## §3. URLs. -/

/-- A text with the masks it gets. -/
def withMasks (text : String) : String := String.ofList (maskedText text.toList)

theorem masked_eq_withMasks (text : String) : masked env.compiled text = withMasks text := by
  apply String.toList_inj.mp
  rw [withMasks, String.toList_ofList]
  exact maskPiiString_text env text

/-- A URL without its query and its fragment. -/
def addressOf (u : Url) : String := env.urlString { u with fragment := "", rawQuery := "" }

/-- What `net/url` says of the query of a URL that `sanitizeURL` puts together. -/
structure QueryText : Prop where
  /-- A query that is not empty follows a question mark, behind the address. -/
  string_query : ∀ {raw u} privacy, env.parseUrl raw = some u → keptQuery env privacy u.rawQuery ≠ "" →
    sanitisedUrl env privacy u = addressOf env u ++ "?" ++ keptQuery env privacy u.rawQuery
  /-- `ParseQuery` returns a map, each key with the values given for it. -/
  parseQuery_wellFormed : ∀ s, Form.WellFormed (env.parseQuery s)
  /-- `Encode` escapes each pair, in the order of the keys. -/
  encodeQuery_text : ∀ v : Form, v.WellFormed → env.encodeQuery v = Foundation.QueryString.encodeText v

/-- Nothing is left of a URL.  Where its text, with the masks in it, is taken apart:
nothing is found in its address, and where its query is kept, in none of the names and
values that were decoded, as they are escaped again; a masked parameter's values are
gone. -/
def UrlLeavesNothing (privacy : Policy) (url : String) : Prop :=
  url ≠ "" →
    match env.parseUrl (withMasks url) with
    | none => TextLeavesNothing url
    | some u =>
      detected env (addressOf env u) = false
        ∧ (privacy.stripQueryString = false → ∀ p ∈ env.parseQuery u.rawQuery,
          detected env (escaped p.1) = false
            ∧ (¬Masks env privacy p.1 → ∀ value ∈ p.2, detected env (escaped value) = false))

/-- A detector takes no text away. -/
theorem apply_eq_nil {d : Detector} (hmask : d.mask ≠ []) {text : List Char} (h : d.apply text = []) :
    text = [] := by
  unfold Detector.apply replace at h
  rw [List.flatMap_eq_nil_iff] at h
  have hchunks : (d.expression.chunks text).flatMap Chunk.text = text :=
    flatMap_scan d.expression text.length ⟨[], text⟩
  rw [← hchunks, List.flatMap_eq_nil_iff]
  intro chunk hchunk
  have hnil := h chunk hchunk
  cases chunk with
  | kept c => cases hnil
  | hit m =>
    change (if d.accept m then d.mask else m) = [] at hnil
    split at hnil
    · exact absurd hnil hmask
    · exact hnil

theorem withMasks_eq_empty {text : String} (h : withMasks text = "") : text = "" := by
  have hmasks : ∀ d ∈ Detectors.all, d.mask ≠ [] := by decide +kernel
  have hfold : ∀ (detectors : List Detector), (∀ d ∈ detectors, d.mask ≠ []) → ∀ text : List Char,
      detectors.foldl (fun text d => d.apply text) text = [] → text = [] := by
    intro detectors
    induction detectors with
    | nil => exact fun _ _ h => h
    | cons d detectors ih =>
      intro hall text h
      exact apply_eq_nil (hall d List.mem_cons_self)
        (ih (fun d' hd' => hall d' (List.mem_cons_of_mem _ hd')) _ h)
  have hnil : maskedText text.toList = [] := by
    rw [← String.toList_ofList (l := maskedText text.toList)]
    exact congrArg String.toList h
  exact String.toList_inj.mp (hfold Detectors.all hmasks text.toList hnil)

variable {env} (query : QueryText env.compiled) (privacy : Policy)
include query

/-- **A query that is written again**: its names, its kept values and the mask. -/
theorem detected_keptQuery (hkeep : privacy.stripQueryString = false) (rawQuery : String) :
    detected env.compiled (keptQuery env.compiled privacy rawQuery) = false
      ↔ ∀ p ∈ env.compiled.parseQuery rawQuery, detected env.compiled (escaped p.1) = false
          ∧ (¬Masks env.compiled privacy p.1 →
            ∀ value ∈ p.2, detected env.compiled (escaped value) = false) := by
  have hwell := wellFormed_maskedQuery env.compiled privacy (query.parseQuery_wellFormed rawQuery)
  have hmask : detected env.compiled (escaped "[MASKED]") = false := by
    rw [detected_compiled]
    decide +kernel
  have hfields : ∀ (f : String × String) (v : Form), f ∈ v.inKeyOrder.fields ↔ ∃ p ∈ v, p.1 = f.1 ∧ f.2 ∈ p.2 := by
    intro f v
    unfold Form.fields
    rw [List.mem_flatMap]
    constructor
    · rintro ⟨p, hp, hf⟩
      obtain ⟨value, hvalue, rfl⟩ := List.mem_map.mp hf
      exact ⟨p, (QueryString.inKeyOrder_perm v).mem_iff.mp hp, rfl, hvalue⟩
    · rintro ⟨p, hp, hname, hvalue⟩
      exact ⟨p, (QueryString.inKeyOrder_perm v).mem_iff.mpr hp, List.mem_map.mpr ⟨f.2, hvalue, Prod.ext hname rfl⟩⟩
  have hpair : ∀ f : String × String, spoken ((escaped f.1).toList ++ '=' :: (escaped f.2).toList) = false
      ↔ detected env.compiled (escaped f.1) = false ∧ detected env.compiled (escaped f.2) = false := by
    intro f
    rw [detected_compiled, detected_compiled]
    exact silent_pair (QueryString.escaped_visible f.1) (QueryString.escaped_visible f.2)
  unfold keptQuery
  rw [if_neg (Bool.eq_false_iff.mp hkeep), query.encodeQuery_text _ hwell, detected_compiled,
    QueryString.toList_encodeText, silent_intercalate, List.forall_mem_map]
  constructor
  · intro h p hp
    have hmem := List.mem_map_of_mem (f := fun p : String × List String =>
      if Masks env.compiled privacy p.1 then (p.1, ["[MASKED]"]) else p) hp
    by_cases hmasks : Masks env.compiled privacy p.1
    · rw [if_pos hmasks] at hmem
      have hfield := (hpair (p.1, "[MASKED]")).mp (h _ ((hfields _ _).mpr ⟨_, hmem, rfl, List.mem_singleton_self _⟩))
      exact ⟨hfield.1, fun hnot => absurd hmasks hnot⟩
    · rw [if_neg hmasks] at hmem
      have hvalues : ∀ value ∈ p.2, detected env.compiled (escaped p.1) = false
          ∧ detected env.compiled (escaped value) = false := fun value hvalue =>
        (hpair (p.1, value)).mp (h _ ((hfields _ _).mpr ⟨p, hmem, rfl, hvalue⟩))
      -- a name is written once for each of its values, and it has one
      obtain ⟨value, hvalue⟩ := List.exists_mem_of_ne_nil _ ((query.parseQuery_wellFormed rawQuery).nonempty p hp)
      exact ⟨(hvalues value hvalue).1, fun _ value hvalue => (hvalues value hvalue).2⟩
  · intro h f hf
    obtain ⟨p, hp, hname, hvalue⟩ := (hfields f _).mp hf
    obtain ⟨old, hold, rfl⟩ := List.mem_map.mp hp
    obtain ⟨hkey, hvalues⟩ := h old hold
    refine (hpair f).mpr ?_
    split at hname
    next hmasks =>
      rw [if_pos hmasks] at hvalue
      rw [← hname, List.mem_singleton.mp hvalue]
      exact ⟨hkey, hmask⟩
    next hmasks =>
      rw [if_neg hmasks] at hvalue
      rw [← hname]
      exact ⟨hkey, hvalues hmasks f.2 hvalue⟩

/-- **What masking and sanitising leave of a URL.** -/
theorem sanitisedAway_iff (url : String) :
    SanitisedAway env.compiled privacy url ↔ UrlLeavesNothing env.compiled privacy url := by
  have hempty : detected env.compiled "" = false := by
    rw [detected_compiled]
    decide +kernel
  unfold SanitisedAway UrlLeavesNothing
  rw [masked_eq_withMasks]
  by_cases hurl : url = ""
  · subst hurl
    have hmasks : withMasks "" = "" := by decide +kernel
    rw [hmasks]
    exact ⟨fun _ h => absurd rfl h, fun _ => hempty⟩
  · have hraw : withMasks url ≠ "" := fun h => hurl (withMasks_eq_empty h)
    rw [forall_prop_of_true hurl]
    cases hparse : env.compiled.parseUrl (withMasks url) with
    | none =>
      have hnot : ¬Parses env.compiled (withMasks url) := by
        unfold Parses
        rw [hparse]
        exact Bool.false_ne_true
      rw [sanitizeUrl_of_not_parses env.compiled privacy hnot, ← masked_eq_withMasks env]
      exact maskedAway_iff env url
    | some u =>
      rw [sanitizeUrl_of_parse env.compiled privacy hraw hparse]
      show _ ↔ detected env.compiled (addressOf env.compiled u) = false ∧ _
      -- the address, and behind a question mark the query that is kept
      have hparts : detected env.compiled (sanitisedUrl env.compiled privacy u) = false
          ↔ detected env.compiled (addressOf env.compiled u) = false
            ∧ detected env.compiled (keptQuery env.compiled privacy u.rawQuery) = false := by
        by_cases hkept : keptQuery env.compiled privacy u.rawQuery = ""
        · rw [sanitisedUrl, hkept, and_iff_left hempty]
          rfl
        · rw [query.string_query privacy hparse hkept, detected_compiled, detected_compiled, detected_compiled,
            String.toList_append, String.toList_append, List.append_assoc]
          exact silent_append (by decide) (fun d hd => (refuses_separators d hd).1) _ _
      rw [hparts]
      refine and_congr_right fun _ => ?_
      cases hstrip : privacy.stripQueryString with
      | true =>
        have hnone : keptQuery env.compiled privacy u.rawQuery = "" := if_pos hstrip
        rw [hnone]
        exact ⟨fun _ h => absurd h Bool.noConfusion, fun _ => hempty⟩
      | false =>
        rw [forall_prop_of_true rfl]
        exact detected_keptQuery query privacy hstrip u.rawQuery

end

/-! ## §4. The payload. -/

namespace Sample

theorem queryText_urlPlatform : QueryText urlPlatform.compiled where
  string_query := by
    intro raw u privacy _ hkept
    unfold sanitisedUrl addressOf
    show plainUrlString _ = plainUrlString _ ++ "?" ++ _
    rw [plainUrlString_plain, plainUrlString_plain]
    unfold plainUrl
    rw [if_neg hkept, if_pos rfl, String.append_empty, String.append_assoc]
  parseQuery_wellFormed := netUrl_urlPlatform.parseQuery_wellFormed
  encodeQuery_text := by
    intro v _
    simp only [Platform.compiled, urlPlatform]

/-- The strings of the payload, where the request is admitted. -/
def shownStrings (title browser : String) : Option (List String) :=
  match accept urlPlatform.compiled (config 100) (shownCall title browser) (newYear * 1000) with
  | .error _ => none
  | .ok a => if a.siteId = siteId then some a.payload.request.strings else none

theorem accept_of_shownStrings {title browser : String} {texts : List String}
    (h : shownStrings title browser = some texts) :
    ∃ a, accept urlPlatform.compiled (config 100) (shownCall title browser) (newYear * 1000) = .ok a
      ∧ a.siteId = siteId ∧ a.payload.request.strings = texts := by
  unfold shownStrings at h
  cases haccept : accept urlPlatform.compiled (config 100) (shownCall title browser) (newYear * 1000) with
  | error turned =>
    rw [haccept] at h
    cases h
  | ok a =>
    rw [haccept] at h
    simp only at h
    split at h
    · next hsite => exact ⟨a, rfl, hsite, Option.some.inj h⟩
    · cases h

end Sample

end Momento
