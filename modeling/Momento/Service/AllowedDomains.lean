/-
  Momento.Service.AllowedDomains

  **A SITE'S ALLOWED DOMAINS.**  An administrator pastes domains, `normalizeDomains`
  stores them, `originAllowed` admits the origins of events by them, and `hostAllowed`
  tells the installation diagnostics which hosts they leave out.

  The stored form keeps a port and the brackets of an IP literal, the host of an origin
  has neither.  The diagnostics take the wildcard `*.d` for `d` itself too, the
  collector does not; the collector drops a final dot, the diagnostics do not.
-/
import Mathlib.Data.List.DropRight
import Momento.Foundation.UrlHost
import Momento.Service.Maintenance
import Momento.Service.Runs

namespace Momento

open Foundation

/-! ## §1. The diagnostics. -/

/-- `hostAllowed`. -/
def hostAllowed (env : Platform) (host : String) (allowed : List String) : Bool :=
  allowed.any fun pattern =>
    let pattern := env.toLower (trimSpace pattern)
    if pattern = "" then false
    else if pattern.toList.take 2 = ['*', '.'] then
      host.toList = pattern.toList.drop 2 || pattern.toList.tail.isSuffixOf host.toList
    else pattern = host

/-- `unlistedOrigins`: a site without a list admits every host. -/
def unlistedOrigins (env : Platform) (observed allowed : List String) : List String :=
  if allowed = [] then [] else observed.filter fun host => !hostAllowed env host allowed

/-! ## §2. Lower case. -/

/-- ASCII, and no letter. -/
def IsMark (c : Char) : Prop := c.toNat < 128 ∧ c.isAlpha = false

instance (c : Char) : Decidable (IsMark c) := inferInstanceAs (Decidable (_ ∧ _))

/-- `strings.ToLower` goes character by character, by `unicode.ToLower`. -/
structure LowersBy (env : Platform) (lower : Char → Char) : Prop where
  toLower : ∀ s, env.toLower s = String.ofList (s.toList.map lower)
  idempotent : ∀ c, lower (lower c) = lower c
  letters : ∀ c, c.isAlpha = true → lower c = c.toLower
  /-- A mark has no case, and is no letter's lower case. -/
  marks : ∀ c, IsMark c ∨ IsMark (lower c) → lower c = c
  spaces : ∀ c, isSpace (lower c) = isSpace c

section
variable {env : Platform} {lower : Char → Char} (hlower : LowersBy env lower)
include hlower

/-- A mark is in a text's lower case where it is in the text. -/
theorem LowersBy.mem_map {c : Char} (hc : IsMark c) {s : List Char} : c ∈ s.map lower ↔ c ∈ s := by
  constructor
  · intro h
    obtain ⟨x, hx, rfl⟩ := List.mem_map.mp h
    rw [hlower.marks x (.inr hc)]
    exact hx
  · intro h
    exact List.mem_map.mpr ⟨c, h, hlower.marks c (.inl hc)⟩

theorem LowersBy.mark {c : Char} (hc : IsMark c) : lower c = c := hlower.marks c (.inl hc)

theorem LowersBy.map_map (s : List Char) : (s.map lower).map lower = s.map lower := by
  rw [List.map_map]
  exact List.map_congr_left fun c _ => hlower.idempotent c

end

/-! ## §3. Whom an entry covers. -/

/-- The text without a final dot. -/
def dropDot (s : List Char) : List Char := if s.getLast? = some '.' then s.dropLast else s

theorem trimDot_toList (s : String) : (trimDot s).toList = dropDot s.toList := by
  unfold trimDot dropDot
  split
  · rw [String.toList_ofList]
  · rfl

/-- An entry covers the host it names; a wildcard covers what ends in its domain. -/
def Covers (entry host : List Char) : Prop :=
  entry = host ∨ (entry.take 2 = ['*', '.'] ∧ entry.tail <:+ host)

instance (entry host : List Char) : Decidable (Covers entry host) := inferInstanceAs (Decidable (_ ∨ _))

/-- The wildcard of the host itself. -/
def OwnWildcard (entry host : List Char) : Prop := entry = '*' :: '.' :: host

instance (entry host : List Char) : Decidable (OwnWildcard entry host) := inferInstanceAs (Decidable (_ = _))

section
variable (env : Platform)

/-- **Whom the collector admits**: origins whose host an entry covers, neither with a
final dot. -/
theorem originAllowed_iff {origin : String} {allowed : List String} (hne : allowed ≠ []) (horigin : origin ≠ "") :
    originAllowed env origin allowed = true ↔ ∃ u, env.parseUrl origin = some u ∧ ∃ entry ∈ allowed,
      Covers (env.toLower (trimSpace (trimDot entry))).toList (env.toLower (trimDot u.hostname)).toList := by
  unfold originAllowed Covers
  rw [if_neg hne, if_neg horigin]
  cases env.parseUrl origin with
  | none => simp
  | some u =>
    simp only [Option.some.injEq, exists_eq_left', List.any_eq_true, Bool.or_eq_true, Bool.and_eq_true,
      decide_eq_true_eq, List.isSuffixOf_iff_suffix, String.toList_inj]

/-- **Whom the diagnostics take for listed**: hosts an entry covers, and the domain of
a wildcard itself. -/
theorem hostAllowed_iff {host : String} (hhost : host ≠ "") (allowed : List String) :
    hostAllowed env host allowed = true ↔ ∃ entry ∈ allowed,
      Covers (env.toLower (trimSpace entry)).toList host.toList
        ∨ OwnWildcard (env.toLower (trimSpace entry)).toList host.toList := by
  unfold hostAllowed
  rw [List.any_eq_true]
  refine exists_congr fun entry => and_congr_right fun _ => ?_
  generalize env.toLower (trimSpace entry) = pattern
  dsimp only
  unfold Covers OwnWildcard
  by_cases hempty : pattern = ""
  · subst hempty
    have hlist : host.toList ≠ [] := fun h => hhost (String.toList_eq_nil_iff.mp h)
    simp [Ne.symm hlist]
  rw [if_neg hempty]
  by_cases hwild : pattern.toList.take 2 = ['*', '.']
  · -- a wildcard: `*.` and its domain
    obtain ⟨domain, hpattern⟩ : ∃ domain, pattern.toList = '*' :: '.' :: domain := by
      have happend := List.take_append_drop 2 pattern.toList
      rw [hwild] at happend
      exact ⟨_, happend.symm⟩
    rw [if_pos hwild, hpattern]
    simp only [List.drop_succ_cons, List.drop_zero, List.tail_cons, Bool.or_eq_true, decide_eq_true_eq,
      List.isSuffixOf_iff_suffix, List.take_succ_cons, List.take_zero, true_and, List.cons.injEq]
    constructor
    · intro h
      obtain hown | hsub := h
      · exact .inr hown.symm
      · exact .inl (.inr hsub)
    · intro h
      obtain (hself | hsub) | hown := h
      · refine .inr ?_
        rw [← hself]
        exact List.suffix_cons _ _
      · exact .inr hsub
      · exact .inl hown.symm
  · have hown : pattern.toList ≠ '*' :: '.' :: host.toList := fun h => hwild (by rw [h]; rfl)
    rw [if_neg hwild]
    simp only [decide_eq_true_eq, hwild, false_and, or_false, hown, String.toList_inj]

end

/-! ## §4. Subdomains. -/

/-- The labels of the domain are the last ones of the host's, and not all. -/
def ProperSubdomain (host domain : List Char) : Prop :=
  ∃ front : List (List Char), front ≠ [] ∧ host.splitOn '.' = front ++ domain.splitOn '.'

theorem intercalate_append_labels (front : List (List Char)) (hne : front ≠ []) (domain : List Char) :
    ('.' :: domain) <:+ ['.'].intercalate (front ++ domain.splitOn '.') := by
  induction front with
  | nil => exact absurd rfl hne
  | cons label rest ih =>
    have htail : rest ++ domain.splitOn '.' ≠ [] := by simp [List.splitOn_ne_nil]
    rw [List.cons_append, List.intercalate_cons_of_ne_nil htail]
    by_cases hrest : rest = []
    · rw [hrest, List.nil_append, List.intercalate_splitOn]
      exact ⟨label, by simp⟩
    · exact (ih hrest).trans (List.suffix_append _ _)

/-- Its text ends in a dot and the domain. -/
theorem properSubdomain_iff (host domain : List Char) :
    ProperSubdomain host domain ↔ ('.' :: domain) <:+ host := by
  constructor
  · intro h
    obtain ⟨front, hne, hlabels⟩ := h
    have hsuffix := intercalate_append_labels front hne domain
    rw [← hlabels, List.intercalate_splitOn] at hsuffix
    exact hsuffix
  · intro h
    obtain ⟨front, rfl⟩ := h
    exact ⟨front.splitOn '.', List.splitOn_ne_nil _ _, List.splitOn_append_cons_self _ _⟩

/-! ## §5. What is stored. -/

/-- A text without blanks. -/
def Solid (s : List Char) : Prop := ∀ c ∈ s, isSpace c = false

theorem solid_of_all {s : List Char} (h : s.all (fun c => !isSpace c) = true) : Solid s := by
  intro c hc
  simpa using List.all_eq_true.mp h c hc

theorem trimSpace_toList (s : String) :
    (trimSpace s).toList = (s.toList.dropWhile isSpace).rdropWhile isSpace := by
  rw [trimSpace, String.toList_ofList]
  rfl

theorem dropWhile_solid {s : List Char} (h : Solid s) (hne : s ≠ []) (rest : List Char) :
    (s ++ rest).dropWhile isSpace = s ++ rest := by
  obtain ⟨c, s, rfl⟩ := List.exists_cons_of_ne_nil hne
  exact List.dropWhile_cons_of_neg (by simp [h c List.mem_cons_self])

theorem rdropWhile_solid {s : List Char} (h : Solid s) : s.rdropWhile isSpace = s := by
  obtain rfl | ⟨front, c, rfl⟩ := List.eq_nil_or_concat s
  · rfl
  · rw [List.concat_eq_append] at h ⊢
    exact List.rdropWhile_concat_neg _ _ _ (by simp [h c (by simp)])

/-- Trimming leaves a solid text alone, -/
theorem trim_solid {s : String} (h : Solid s.toList) : (trimSpace s).toList = s.toList := by
  rw [trimSpace_toList]
  by_cases hne : s.toList = []
  · rw [hne]
    rfl
  · have hdrop := dropWhile_solid h hne []
    rw [List.append_nil] at hdrop
    rw [hdrop, rdropWhile_solid h]

/-- and of a solid text and a path the text and a path. -/
theorem trim_path {front path : List Char} (h : Solid front) (hne : front ≠ []) (hpath : UrlHost.IsPath path) :
    ∃ rest, UrlHost.IsPath rest ∧ (trimSpace (String.ofList (front ++ path))).toList = front ++ rest := by
  rw [trimSpace_toList, String.toList_ofList, dropWhile_solid h hne]
  obtain rfl | ⟨path, rfl⟩ := hpath
  · refine ⟨[], .inl rfl, ?_⟩
    rw [List.append_nil, rdropWhile_solid h]
  · refine ⟨'/' :: path.rdropWhile isSpace, .inr ⟨_, rfl⟩, ?_⟩
    -- the slash is no blank
    have hslash : ∀ s : List Char, (s ++ '/' :: path).rdropWhile isSpace = s ++ '/' :: path.rdropWhile isSpace := by
      intro s
      induction path using List.reverseRecOn with
      | nil => exact List.rdropWhile_concat_neg _ _ _ (by decide)
      | append_singleton path c ih =>
        rw [← List.cons_append, ← List.append_assoc]
        by_cases hc : isSpace c = true
        · rw [List.rdropWhile_concat_pos _ _ _ hc, List.rdropWhile_concat_pos _ _ _ hc]
          exact ih
        · rw [List.rdropWhile_concat_neg _ _ _ hc, List.rdropWhile_concat_neg _ _ _ hc]
          simp
    exact hslash front

/-! ## §6. What is pasted. -/

/-- The host of an origin: a name, or an IP literal in brackets. -/
inductive OriginHost
  | name (text : List Char)
  | literal (address : List Char)
  deriving DecidableEq

namespace OriginHost

/-- As it stands in the origin. -/
def text : OriginHost → List Char
  | name text => text
  | literal address => '[' :: (address ++ [']'])

/-- As `Hostname` gives it. -/
def host : OriginHost → List Char
  | name text => text
  | literal address => address

/-- It is not empty; no blank and no delimiter of URLs is in it. -/
def WellFormed : OriginHost → Prop
  | name text => text ≠ [] ∧ Solid text ∧ UrlHost.IsName text
  | literal address => address ≠ [] ∧ Solid address ∧ UrlHost.IsAddress address

/-- The host is a name. -/
def IsName : OriginHost → Prop
  | name _ => True
  | literal _ => False

instance (h : OriginHost) : Decidable h.IsName := by
  cases h
  · exact .isTrue trivial
  · exact .isFalse id

end OriginHost

/-- A port with a number, or none. -/
def IsOriginPort (port : List Char) : Prop :=
  port = [] ∨ ∃ digits : List Char, digits ≠ [] ∧ port = ':' :: digits ∧ ∀ c ∈ digits, c.isDigit = true

theorem IsOriginPort.isPort {port : List Char} (h : IsOriginPort port) : UrlHost.IsPort port := by
  obtain hnone | ⟨digits, -, hport, hdigits⟩ := h
  · exact .inl hnone
  · exact .inr ⟨digits, hport, hdigits⟩

theorem isSpace_digit {c : Char} (h : c.isDigit = true) : isSpace c = false := by
  have hrange : 48 ≤ c.toNat ∧ c.toNat ≤ 57 := by
    rw [Char.isDigit, Bool.and_eq_true, decide_eq_true_eq, decide_eq_true_eq] at h
    exact ⟨h.1, h.2⟩
  unfold isSpace
  simp only [Bool.or_eq_false_iff, Bool.and_eq_false_iff, decide_eq_false_iff_not]
  omega

/-- A letter is one of the two ranges of ASCII. -/
theorem isAlpha_iff (c : Char) : c.isAlpha = true
    ↔ (65 ≤ c.val.toNat ∧ c.val.toNat ≤ 90) ∨ (97 ≤ c.val.toNat ∧ c.val.toNat ≤ 122) := by
  show (decide (c.val ≥ 'A'.val ∧ c.val ≤ 'Z'.val) || (decide (c.val ≥ 'a'.val) && decide (c.val ≤ 'z'.val))) = true
    ↔ _
  rw [Bool.or_eq_true, decide_eq_true_eq, Bool.and_eq_true, decide_eq_true_eq, decide_eq_true_eq]
  exact Iff.rfl

theorem isMark_digit {c : Char} (h : c.isDigit = true) : IsMark c := by
  have hrange : 48 ≤ c.val.toNat ∧ c.val.toNat ≤ 57 := by
    rw [Char.isDigit, Bool.and_eq_true, decide_eq_true_eq, decide_eq_true_eq] at h
    exact ⟨h.1, h.2⟩
  constructor
  · show c.val.toNat < 128
    omega
  · rw [← Bool.not_eq_true, isAlpha_iff]
    omega

theorem isSpace_letter {c : Char} (h : c.isAlpha = true) : isSpace c = false := by
  have hrange : (65 ≤ c.toNat ∧ c.toNat ≤ 90) ∨ (97 ≤ c.toNat ∧ c.toNat ≤ 122) := (isAlpha_iff c).mp h
  unfold isSpace
  simp only [Bool.or_eq_false_iff, Bool.and_eq_false_iff, decide_eq_false_iff_not]
  omega

theorem IsOriginPort.solid {port : List Char} (h : IsOriginPort port) : Solid port := by
  intro c hc
  obtain rfl | ⟨digits, -, rfl, hdigits⟩ := h
  · cases hc
  · obtain rfl | hc := List.mem_cons.mp hc
    · decide
    · exact isSpace_digit (hdigits c hc)

/-- An origin, with a path behind it where one was pasted. -/
structure Origin where
  scheme : List Char
  host : OriginHost
  port : List Char
  path : List Char
  http : scheme.map Char.toLower = "http".toList ∨ scheme.map Char.toLower = "https".toList
  wellFormed : host.WellFormed
  isPort : IsOriginPort port
  isPath : UrlHost.IsPath path

namespace Origin

/-- The host and the port. -/
def authority (o : Origin) : List Char := o.host.text ++ o.port

/-- The text of an origin. -/
def text (o : Origin) : String := String.ofList (o.scheme ++ ':' :: '/' :: '/' :: (o.authority ++ o.path))

end Origin

/-- A wildcard `*.d`, with the port and the path that were pasted with it. -/
structure Wildcard where
  name : List Char
  port : List Char
  path : List Char
  nonempty : name ≠ []
  solid : Solid name
  isName : UrlHost.IsName name
  isPort : IsOriginPort port
  isPath : UrlHost.IsPath path

/-- The text of an entry. -/
def Wildcard.text (w : Wildcard) : String := String.ofList ('*' :: '.' :: (w.name ++ w.port) ++ w.path)

theorem Wildcard.isSolid (w : Wildcard) : Solid ('*' :: '.' :: (w.name ++ w.port)) := by
  intro c hc
  simp only [List.mem_cons, List.mem_append] at hc
  obtain rfl | rfl | hc | hc := hc
  · decide
  · decide
  · exact w.solid c hc
  · exact w.isPort.solid c hc

/-! ### The entry a paste is stored as. -/

theorem isAlpha_of_toLower {c : Char} (h : c.toLower.isAlpha = true) : c.isAlpha = true := by
  by_contra hnot
  have hupper : ¬('A'.val ≤ c.val ∧ c.val ≤ 'Z'.val) := by
    intro hrange
    exact hnot ((isAlpha_iff c).mpr (.inl hrange))
  have hsame : c.toLower = c := dif_neg hupper
  rw [hsame] at h
  exact hnot h

theorem Origin.isScheme (o : Origin) : UrlHost.IsScheme o.scheme := by
  have hletters : (∀ x ∈ "http".toList, x.isAlpha = true) ∧ ∀ x ∈ "https".toList, x.isAlpha = true :=
    ⟨List.all_eq_true.mp (by decide), List.all_eq_true.mp (by decide)⟩
  constructor
  · intro c hc
    have hlower : c.toLower ∈ o.scheme.map Char.toLower := List.mem_map_of_mem hc
    refine isAlpha_of_toLower ?_
    obtain h | h := o.http
    · exact hletters.1 _ (h ▸ hlower)
    · exact hletters.2 _ (h ▸ hlower)
  · intro hempty
    obtain h | h := o.http
    all_goals
      rw [hempty] at h
      exact absurd h (by decide)

theorem trimPrefixText_toList (start s : String) : (trimPrefixText start s).toList
    = if start.toList <+: s.toList then s.toList.drop start.toList.length else s.toList := by
  unfold trimPrefixText
  simp only [List.isPrefixOf_iff_prefix]
  split
  · rw [String.toList_ofList, String.length_toList]
  · rfl

/-- A text that does not start so is not trimmed. -/
theorem trimPrefixText_of_not {start s : String} (h : ¬start.toList <+: s.toList) : trimPrefixText start s = s := by
  rw [← String.toList_inj, trimPrefixText_toList, if_neg h]

theorem trimPrefixText_append {start s : String} {rest : List Char} (h : s.toList = start.toList ++ rest) :
    (trimPrefixText start s).toList = rest := by
  rw [trimPrefixText_toList, h, if_pos (List.prefix_append _ _), List.drop_left]

theorem OriginHost.no_slash {host : OriginHost} (h : host.WellFormed) {port : List Char} (hport : IsOriginPort port) :
    '/' ∉ host.text ++ port := by
  intro hmem
  obtain hin | hin := List.mem_append.mp hmem
  · cases host with
    | name text => exact h.2.2 '/' (by simp) hin
    | literal address =>
      have haddress := h.2.2 '/' (by simp)
      simp only [OriginHost.text, List.mem_cons, List.mem_append, List.not_mem_nil, or_false] at hin
      obtain heq | hin | heq := hin
      · exact absurd heq (by decide)
      · exact haddress hin
      · exact absurd heq (by decide)
  · exact UrlHost.not_mem_port hport.isPort (by decide) (by decide) hin

theorem OriginHost.solid {host : OriginHost} (h : host.WellFormed) {port : List Char} (hport : IsOriginPort port) :
    Solid (host.text ++ port) := by
  intro c hc
  obtain hc | hc := List.mem_append.mp hc
  · cases host with
    | name text => exact h.2.1 c hc
    | literal address =>
      simp only [OriginHost.text, List.mem_cons, List.mem_append, List.not_mem_nil, or_false] at hc
      obtain rfl | hc | rfl := hc
      · decide
      · exact h.2.1 c hc
      · decide
  · exact hport.solid c hc

section
variable {env : Platform} {lower : Char → Char} (hlower : LowersBy env lower)
include hlower

theorem LowersBy.isPath_map {path : List Char} (h : UrlHost.IsPath path) : UrlHost.IsPath (path.map lower) := by
  obtain rfl | ⟨rest, rfl⟩ := h
  · exact .inl rfl
  · exact .inr ⟨rest.map lower, by rw [List.map_cons, hlower.mark (c := '/') (by decide)]⟩

/-- The text in front of the first slash, in lower case. -/
theorem LowersBy.takeWhile_slash {front path : List Char} (hfront : '/' ∉ front) (hpath : UrlHost.IsPath path) :
    ((front ++ path).map lower).takeWhile (· ≠ '/') = front.map lower := by
  rw [List.map_append]
  refine UrlHost.takeWhile_slash ?_ (hlower.isPath_map hpath)
  rw [hlower.mem_map (by decide)]
  exact hfront

/-- An authority does not end in a colon. -/
theorem OriginHost.last_not_colon {host : OriginHost} (h : host.WellFormed) {port : List Char} (hport : IsOriginPort port) :
    ((host.text ++ port).map lower).getLast? ≠ some ':' := by
  rw [List.getLast?_map]
  intro hlast
  obtain ⟨c, hc, hcolon⟩ := Option.map_eq_some_iff.mp hlast
  obtain rfl : ':' = c := by rw [← hcolon, hlower.marks c (.inr (by rw [hcolon]; decide))]
  have hmem := List.mem_of_getLast? hc
  obtain rfl | ⟨digits, hne, rfl, hdigits⟩ := hport
  · rw [List.append_nil] at hc hmem
    cases host with
    | name text => exact h.2.2 ':' (by simp) hmem
    | literal address =>
      rw [show OriginHost.text (.literal address) = ('[' :: address) ++ [']'] from rfl, List.getLast?_concat] at hc
      exact absurd (Option.some.inj hc) (by decide)
  · -- it ends in a digit
    obtain ⟨front, last, rfl⟩ : ∃ front last, digits = front ++ [last] := by
      obtain hnil | ⟨front, last, hconcat⟩ := List.eq_nil_or_concat digits
      · exact absurd hnil hne
      · exact ⟨front, last, by rw [hconcat, List.concat_eq_append]⟩
    rw [← List.cons_append, ← List.append_assoc, List.getLast?_concat] at hc
    have hdigit := hdigits last (by simp)
    rw [Option.some.inj hc] at hdigit
    exact absurd hdigit (by decide)

/-- An authority starts no URL. -/
theorem OriginHost.no_scheme {host : OriginHost} (h : host.WellFormed) {port path : List Char}
    (hport : IsOriginPort port) (hpath : UrlHost.IsPath path) :
    ¬"http://".toList <+: ((host.text ++ port) ++ path).map lower := by
  intro hstart
  obtain ⟨rest, hrest⟩ := hstart
  have htake := hlower.takeWhile_slash (OriginHost.no_slash h hport) hpath
  rw [← hrest] at htake
  -- it would end in the colon of the scheme
  have hcolon : ("http://".toList ++ rest).takeWhile (· ≠ '/') = "http:".toList := by
    rw [show "http://".toList ++ rest = "http:".toList ++ ('/' :: '/' :: rest) from rfl]
    exact UrlHost.takeWhile_slash (by decide) (.inr ⟨_, rfl⟩)
  rw [hcolon] at htake
  refine OriginHost.last_not_colon hlower h hport ?_
  rw [← htake]
  rfl

/-- **An origin is stored as its host and port**, in lower case. -/
theorem Origin.stored (o : Origin) : (normalizeDomain env o.text).toList = o.authority.map lower := by
  have hsolid : Solid (o.scheme ++ ':' :: '/' :: '/' :: o.authority) := by
    intro c hc
    obtain hc | hc := List.mem_append.mp hc
    · exact isSpace_letter (o.isScheme.letters c hc)
    · simp only [List.mem_cons] at hc
      obtain rfl | rfl | rfl | hc := hc
      · decide
      · decide
      · decide
      · exact OriginHost.solid o.wellFormed o.isPort c hc
  obtain ⟨rest, hrest, htrim⟩ := trim_path hsolid (by simp) o.isPath
  have htext : o.text = String.ofList ((o.scheme ++ ':' :: '/' :: '/' :: o.authority) ++ o.path) := by
    rw [Origin.text, List.append_assoc, List.cons_append, List.cons_append, List.cons_append]
  have hscheme : o.scheme.map lower = o.scheme.map Char.toLower :=
    List.map_congr_left fun c hc => hlower.letters c (o.isScheme.letters c hc)
  have hlow : (env.toLower (trimSpace o.text)).toList
      = o.scheme.map Char.toLower ++ "://".toList ++ (o.authority ++ rest).map lower := by
    rw [hlower.toLower, String.toList_ofList, htext, htrim]
    simp only [List.map_append, List.map_cons, hscheme, hlower.mark (c := ':') (by decide),
      hlower.mark (c := '/') (by decide), List.append_assoc]
    rfl
  have hnot := OriginHost.no_scheme hlower o.wellFormed o.isPort hrest
  have hstripped : (trimPrefixText "http://" (trimPrefixText "https://" (env.toLower (trimSpace o.text)))).toList
      = (o.authority ++ rest).map lower := by
    obtain h | h := o.http
    · rw [h] at hlow
      have hfirst : ¬"https://".toList <+: (env.toLower (trimSpace o.text)).toList := by
        rw [hlow]
        intro hstart
        obtain ⟨tail, htail⟩ := hstart
        injection htail with _ htail
        injection htail with _ htail
        injection htail with _ htail
        injection htail with _ htail
        injection htail with hs _
        exact absurd hs (by decide)
      rw [trimPrefixText_of_not hfirst]
      exact trimPrefixText_append hlow
    · rw [h] at hlow
      have hfirst : (trimPrefixText "https://" (env.toLower (trimSpace o.text))).toList
          = (o.authority ++ rest).map lower := trimPrefixText_append hlow
      rw [trimPrefixText_of_not, hfirst]
      rw [hfirst]
      exact hnot
  unfold normalizeDomain
  dsimp only
  rw [String.toList_ofList, hstripped]
  exact hlower.takeWhile_slash (OriginHost.no_slash o.wellFormed o.isPort) hrest

/-- So is a wildcard. -/
theorem Wildcard.stored (w : Wildcard) :
    (normalizeDomain env w.text).toList = '*' :: '.' :: (w.name ++ w.port).map lower := by
  have hslash : '/' ∉ '*' :: '.' :: (w.name ++ w.port) := by
    simp only [List.mem_cons, List.mem_append, not_or]
    exact ⟨by decide, by decide, w.isName '/' (by simp), UrlHost.not_mem_port w.isPort.isPort (by decide) (by decide)⟩
  have hmarks : ('*' :: '.' :: (w.name ++ w.port)).map lower = '*' :: '.' :: (w.name ++ w.port).map lower := by
    rw [List.map_cons, List.map_cons, hlower.mark (c := '*') (by decide), hlower.mark (c := '.') (by decide)]
  obtain ⟨rest, hrest, htrim⟩ := trim_path w.isSolid (List.cons_ne_nil _ _) w.isPath
  have hlow : (env.toLower (trimSpace w.text)).toList = ('*' :: '.' :: (w.name ++ w.port) ++ rest).map lower := by
    rw [hlower.toLower, String.toList_ofList, Wildcard.text, htrim]
  -- a star starts no scheme
  have hstar : ∀ start : String, start.toList.head? = some 'h' →
      ¬start.toList <+: (env.toLower (trimSpace w.text)).toList := by
    intro start hhead hstart
    obtain ⟨tail, htail⟩ := hstart
    rw [hlow, List.map_append, hmarks] at htail
    have hheads := congrArg List.head? htail
    rw [List.head?_append, hhead] at hheads
    exact absurd hheads (by simp)
  unfold normalizeDomain
  dsimp only
  rw [trimPrefixText_of_not (hstar "https://" rfl), trimPrefixText_of_not (hstar "http://" rfl),
    String.toList_ofList, hlow, hlower.takeWhile_slash hslash hrest, hmarks]

omit hlower in
/-- A list of one entry. -/
theorem normalizeDomains_singleton {text : String} (hne : (normalizeDomain env text).toList ≠ []) :
    normalizeDomains env [text] = [normalizeDomain env text] := by
  have hne' : normalizeDomain env text ≠ "" := fun h => hne (by rw [h]; rfl)
  unfold normalizeDomains
  simp [hne']

theorem LowersBy.dropDot_map (s : List Char) : dropDot (s.map lower) = (dropDot s).map lower := by
  have hdot : ∀ c, lower c = '.' ↔ c = '.' := by
    intro c
    constructor
    · intro h
      rw [← h, hlower.marks c (.inr (by rw [h]; decide))]
    · intro h
      rw [h, hlower.mark (by decide)]
  unfold dropDot
  rw [List.getLast?_map]
  by_cases hlast : s.getLast? = some '.'
  · rw [hlast, if_pos rfl, Option.map_some, if_pos (by rw [hlower.mark (by decide)]), List.map_dropLast]
  · rw [if_neg hlast, if_neg]
    intro h
    obtain ⟨c, hc, hlow⟩ := Option.map_eq_some_iff.mp h
    rw [hc, (hdot c).mp hlow] at hlast
    exact hlast rfl

omit hlower in
/-- Only a dot is dropped. -/
theorem mem_dropDot {s : List Char} {c : Char} (hc : c ∈ s) (hdot : c ≠ '.') : c ∈ dropDot s := by
  unfold dropDot
  split
  next h =>
    obtain ⟨front, hsplit⟩ := List.getLast?_eq_some_iff.mp h
    rw [hsplit, List.mem_append, List.mem_singleton] at hc
    rw [hsplit, List.dropLast_concat]
    exact hc.resolve_right hdot
  next => exact hc

omit hlower in
theorem dropDot_sublist (s : List Char) : (dropDot s).Sublist s := by
  unfold dropDot
  split
  · exact List.dropLast_sublist s
  · exact List.Sublist.refl s

/-- How the collector reads an entry without blanks. -/
theorem LowersBy.read_entry {entry : String} {s : List Char} (hstored : entry.toList = s.map lower) (hsolid : Solid s) :
    (env.toLower (trimSpace (trimDot entry))).toList = (dropDot s).map lower := by
  have hdropped : (trimDot entry).toList = (dropDot s).map lower := by
    rw [trimDot_toList, hstored, hlower.dropDot_map]
  have hsolid' : Solid (trimDot entry).toList := by
    rw [hdropped]
    intro c hc
    obtain ⟨x, hx, rfl⟩ := List.mem_map.mp hc
    rw [hlower.spaces]
    exact hsolid x ((dropDot_sublist s).subset hx)
  rw [hlower.toLower, String.toList_ofList, trim_solid hsolid', hdropped, hlower.map_map]

/-- How it reads a host. -/
theorem LowersBy.read_host (host : String) :
    (env.toLower (trimDot host)).toList = (dropDot host.toList).map lower := by
  rw [hlower.toLower, String.toList_ofList, trimDot_toList]

end

/-! ## §7. Whom a paste admits. -/

/-- `url.Parse` and `Hostname` are those of `net/url`. -/
def ParsesBy (env : Platform) (rules : UrlHost.Rules) : Prop :=
  ∀ raw, (env.parseUrl raw).map (fun u => u.hostname.toList) = UrlHost.hostname rules raw.toList

/-- The host of a parsed URL as the collector compares it. -/
def hostRead (env : Platform) (u : Url) : List Char := (env.toLower (trimDot u.hostname)).toList

section
variable {env : Platform} {lower : Char → Char} {rules : UrlHost.Rules}

/-- An origin has the host it was written with. -/
theorem Origin.hostname (hurl : ParsesBy env rules) (o : Origin) {u : Url} (h : env.parseUrl o.text = some u) :
    u.hostname.toList = o.host.host := by
  have hread := hurl o.text
  rw [h, Option.map_some, Origin.text, String.toList_ofList, Origin.authority] at hread
  have hhost : UrlHost.hostname rules (o.scheme ++ ':' :: '/' :: '/' :: (o.host.text ++ o.port ++ o.path))
      = if rules.refuses (o.scheme ++ ':' :: '/' :: '/' :: (o.host.text ++ o.port ++ o.path)) then none
        else some o.host.host := by
    have hformed := o.wellFormed
    cases hkind : o.host with
    | name text =>
      rw [hkind] at hformed
      exact UrlHost.hostname_name rules o.isScheme hformed.2.2 o.isPort.isPort o.isPath
    | literal address =>
      rw [hkind] at hformed
      have hliteral := UrlHost.hostname_literal rules o.isScheme hformed.2.2 o.isPort.isPort o.isPath
      rw [show '[' :: address ++ ']' :: o.port = OriginHost.text (.literal address) ++ o.port by
        simp [OriginHost.text]] at hliteral
      exact hliteral
  rw [hhost] at hread
  split at hread
  · cases hread
  · exact Option.some.inj hread

/-- A text with a character the host does not have covers it not. -/
theorem not_covers_of_mark {entry host : List Char} {c : Char} (hc : c ∈ entry) (hstar : c ≠ '*') (hnot : c ∉ host) :
    ¬Covers entry host := by
  intro h
  obtain rfl | ⟨hwild, hsub⟩ := h
  · exact hnot hc
  · cases entry with
    | nil => cases hc
    | cons first rest =>
      obtain rfl | hc := List.mem_cons.mp hc
      · have hfirst : c = '*' := by
          have hhead := congrArg List.head? hwild
          simpa using hhead
        exact hstar hfirst
      · exact hnot (hsub.subset hc)

/-- A mark of the entry that the host lacks. -/
theorem LowersBy.not_covers (hlower : LowersBy env lower) (entry host : List Char) (c : Char) (hmark : IsMark c)
    (hc : c ∈ entry) (hother : c ≠ '*' ∧ c ≠ '.') (hnot : c ∉ host) :
    ¬Covers ((dropDot entry).map lower) ((dropDot host).map lower) := by
  refine not_covers_of_mark (c := c) ?_ hother.1 ?_
  · rw [hlower.mem_map hmark]
    exact mem_dropDot hc hother.2
  · rw [hlower.mem_map hmark]
    exact fun hmem => hnot ((dropDot_sublist host).subset hmem)

variable (hlower : LowersBy env lower)
include hlower

/-- **A pasted origin admits itself** exactly where it is a name without a port. -/
theorem origin_admits_itself (hurl : ParsesBy env rules) (o : Origin) (haccepted : (env.parseUrl o.text).isSome = true) :
    originAllowed env o.text (normalizeDomains env [o.text]) = true ↔ o.port = [] ∧ o.host.IsName := by
  obtain ⟨u, hu⟩ := Option.isSome_iff_exists.mp haccepted
  have hstored := o.stored hlower
  have hformed := o.wellFormed
  have hauthority : o.authority ≠ [] := by
    unfold Origin.authority
    cases hkind : o.host with
    | name text =>
      rw [hkind] at hformed
      simp [OriginHost.text, hformed.1]
    | literal address => simp [OriginHost.text]
  have hentry : (normalizeDomain env o.text).toList ≠ [] := by
    rw [hstored]
    simpa using hauthority
  have horigin : o.text ≠ "" := by
    intro h
    have hlist := congrArg String.toList h
    rw [Origin.text, String.toList_ofList] at hlist
    simp at hlist
  have hread := hlower.read_entry hstored (OriginHost.solid o.wellFormed o.isPort)
  have hhost := hlower.read_host u.hostname
  rw [o.hostname hurl hu] at hhost
  rw [normalizeDomains_singleton hentry, originAllowed_iff env (List.cons_ne_nil _ _) horigin]
  simp only [hu, Option.some.injEq, exists_eq_left', List.mem_singleton, exists_eq_left, hread, hhost]
  unfold Origin.authority
  cases hkind : o.host with
  | literal address =>
    -- the brackets are no part of the host
    rw [hkind] at hformed
    have hnot := hlower.not_covers ('[' :: (address ++ [']']) ++ o.port) address '['
      (by decide) (by simp) (by decide) (hformed.2.2 '[' (by simp))
    simp only [OriginHost.text, OriginHost.host, OriginHost.IsName, and_false, iff_false]
    exact hnot
  | name text =>
    rw [hkind] at hformed
    simp only [OriginHost.text, OriginHost.host, OriginHost.IsName, and_true]
    obtain hport | ⟨digits, hne, hport, hdigits⟩ := o.isPort
    · rw [hport, List.append_nil]
      exact iff_of_true (.inl rfl) rfl
    · -- neither is the port
      have hnot := hlower.not_covers (text ++ o.port) text ':' (by decide) (by rw [hport]; simp)
        (by decide) (hformed.2.2 ':' (by simp))
      refine iff_of_false hnot ?_
      rw [hport]
      exact List.cons_ne_nil _ _

omit hlower in
theorem dropDot_append (front : List Char) {s : List Char} (hne : s ≠ []) :
    dropDot (front ++ s) = front ++ dropDot s := by
  obtain ⟨c, rest, rfl⟩ := List.exists_cons_of_ne_nil hne
  unfold dropDot
  rw [List.getLast?_append_of_ne_nil _ (List.cons_ne_nil _ _)]
  split
  · rw [List.dropLast_append_of_ne_nil (List.cons_ne_nil _ _)]
  · rfl

/-- A wildcard covers what ends in a dot and the text behind its star. -/
theorem LowersBy.covers_wildcard (s host : List Char) :
    Covers (('*' :: '.' :: s).map lower) host ↔ ProperSubdomain host (s.map lower) := by
  have hmarks : ('*' :: '.' :: s).map lower = '*' :: '.' :: s.map lower := by
    rw [List.map_cons, List.map_cons, hlower.mark (c := '*') (by decide), hlower.mark (c := '.') (by decide)]
  rw [hmarks, properSubdomain_iff]
  constructor
  · intro h
    obtain rfl | ⟨-, hsub⟩ := h
    · exact List.suffix_cons _ _
    · exact hsub
  · intro h
    exact .inr ⟨rfl, h⟩

/-- **Whom a pasted wildcard admits.** -/
theorem wildcard_admits (hurl : ParsesBy env rules) (w : Wildcard) (origin : String) :
    originAllowed env origin (normalizeDomains env [w.text]) = true ↔ ∃ u, env.parseUrl origin = some u
      ∧ ProperSubdomain (hostRead env u) ((dropDot (w.name ++ w.port)).map lower) := by
  have hstored := w.stored hlower
  have hstored' : (normalizeDomain env w.text).toList = ('*' :: '.' :: (w.name ++ w.port)).map lower := by
    rw [hstored, List.map_cons, List.map_cons, hlower.mark (c := '*') (by decide), hlower.mark (c := '.') (by decide)]
  have hne : w.name ++ w.port ≠ [] := by simp [w.nonempty]
  have hdrop : dropDot ('*' :: '.' :: (w.name ++ w.port)) = '*' :: '.' :: dropDot (w.name ++ w.port) :=
    dropDot_append ['*', '.'] hne
  rw [normalizeDomains_singleton (by rw [hstored]; exact List.cons_ne_nil _ _)]
  by_cases horigin : origin = ""
  · -- no origin has no host
    subst horigin
    refine iff_of_false (by simp [originAllowed]) ?_
    intro h
    obtain ⟨u, hu, hsub⟩ := h
    have hread := hurl ""
    rw [hu, Option.map_some] at hread
    have hhost : u.hostname.toList = [] := by
      unfold UrlHost.hostname at hread
      split at hread
      · cases hread
      · exact Option.some.inj hread
    rw [properSubdomain_iff, hostRead, hlower.read_host, hhost] at hsub
    exact absurd (List.eq_nil_of_suffix_nil hsub) (List.cons_ne_nil _ _)
  · rw [originAllowed_iff env (List.cons_ne_nil _ _) horigin]
    simp only [List.mem_singleton, exists_eq_left, hlower.read_entry hstored' w.isSolid, hdrop, hlower.covers_wildcard]
    rfl

omit hlower in
/-- A text that ends in a domain does not end in one with a port. -/
theorem suffixes_apart {host domain front digits : List Char} (hdigits : ∀ c ∈ digits, c.isDigit = true)
    (hcolon : ':' ∉ domain) (h : ('.' :: domain) <:+ host) : ¬('.' :: (front ++ ':' :: digits)) <:+ host := by
  intro hport
  obtain hsub | hsub := List.suffix_or_suffix_of_suffix hport h
  · -- the colon would be in the domain
    have hmem : ':' ∈ '.' :: domain := hsub.subset (by simp)
    obtain heq | hmem := List.mem_cons.mp hmem
    · exact absurd heq (by decide)
    · exact hcolon hmem
  · -- the domain is behind the colon, and its dot a digit
    have hbehind : (':' :: digits) <:+ '.' :: (front ++ ':' :: digits) :=
      ⟨'.' :: front, by rw [List.cons_append]⟩
    obtain hsub' | hsub' := List.suffix_or_suffix_of_suffix hsub hbehind
    · have hdot : '.' ∈ ':' :: digits := hsub'.subset List.mem_cons_self
      obtain heq | hmem := List.mem_cons.mp hdot
      · exact absurd heq (by decide)
      · exact absurd (hdigits '.' hmem) (by decide)
    · have hmem : ':' ∈ '.' :: domain := hsub'.subset List.mem_cons_self
      obtain heq | hmem := List.mem_cons.mp hmem
      · exact absurd heq (by decide)
      · exact hcolon hmem

/-- **A pasted wildcard admits exactly the proper subdomains**, as far as an origin
shows, where it has no port, or the origin's host ends neither in the domain nor in the
domain and the port. -/
theorem wildcard_iff (hurl : ParsesBy env rules) (w : Wildcard) (origin : String) :
    (originAllowed env origin (normalizeDomains env [w.text]) = true ↔ ∃ u, env.parseUrl origin = some u
        ∧ ProperSubdomain (hostRead env u) (env.toLower (trimDot (String.ofList w.name))).toList)
      ↔ (w.port = [] ∨ ∀ u, env.parseUrl origin = some u →
          ¬ProperSubdomain (hostRead env u) (env.toLower (trimDot (String.ofList w.name))).toList
            ∧ ¬ProperSubdomain (hostRead env u) (env.toLower (String.ofList (w.name ++ w.port))).toList) := by
  have hdomain : (env.toLower (trimDot (String.ofList w.name))).toList = (dropDot w.name).map lower := by
    rw [hlower.read_host, String.toList_ofList]
  have hported : (env.toLower (String.ofList (w.name ++ w.port))).toList = (w.name ++ w.port).map lower := by
    rw [hlower.toLower, String.toList_ofList, String.toList_ofList]
  rw [wildcard_admits hlower hurl, hdomain, hported]
  obtain hport | ⟨digits, hne, hport, hdigits⟩ := w.isPort
  · rw [hport, List.append_nil]
    exact iff_of_true Iff.rfl (.inl rfl)
  · -- a port is stored, and ends in no dot
    have hdrop : dropDot (w.name ++ w.port) = w.name ++ w.port := by
      rw [hport, dropDot_append _ (List.cons_ne_nil _ _), dropDot, if_neg]
      intro hlast
      obtain heq | hmem := List.mem_cons.mp (List.mem_of_getLast? hlast)
      · exact absurd heq (by decide)
      · exact absurd (hdigits '.' hmem) (by decide)
    have happart : ∀ host, ProperSubdomain host ((dropDot w.name).map lower) →
        ¬ProperSubdomain host ((w.name ++ w.port).map lower) := by
      intro host h
      rw [properSubdomain_iff] at h ⊢
      have hdigits' : digits.map lower = digits :=
        (List.map_congr_left fun c hc => hlower.mark (isMark_digit (hdigits c hc))).trans (List.map_id _)
      rw [hport, List.map_append, List.map_cons, hlower.mark (c := ':') (by decide), hdigits']
      refine suffixes_apart hdigits ?_ h
      rw [hlower.mem_map (by decide)]
      exact fun hmem => w.isName ':' (by simp) ((dropDot_sublist w.name).subset hmem)
    have hsome : w.port ≠ [] := by
      rw [hport]
      exact List.cons_ne_nil _ _
    rw [hdrop, or_iff_right hsome]
    constructor
    · intro h u hu
      constructor
      · intro hsub
        obtain ⟨v, hv, hsub'⟩ := h.mpr ⟨u, hu, hsub⟩
        obtain rfl : u = v := Option.some.inj (hu.symm.trans hv)
        exact happart _ hsub hsub'
      · intro hsub
        obtain ⟨v, hv, hsub'⟩ := h.mp ⟨u, hu, hsub⟩
        obtain rfl : u = v := Option.some.inj (hu.symm.trans hv)
        exact happart _ hsub' hsub
    · intro h
      refine iff_of_false ?_ ?_
      · intro hex
        obtain ⟨u, hu, hsub⟩ := hex
        exact (h u hu).2 hsub
      · intro hex
        obtain ⟨u, hu, hsub⟩ := hex
        exact (h u hu).1 hsub

/-- **Allowed domains mean what was pasted**: an accepted origin admits itself exactly
where it is a name without a port; and a wildcard the proper subdomains exactly, where
it has no port or the origin's host ends neither in its domain nor in domain and port. -/
theorem allowedDomains_iff (hurl : ParsesBy env rules) :
    (∀ o : Origin, (env.parseUrl o.text).isSome = true →
      (originAllowed env o.text (normalizeDomains env [o.text]) = true ↔ o.port = [] ∧ o.host.IsName))
    ∧ ∀ (w : Wildcard) (origin : String),
      (originAllowed env origin (normalizeDomains env [w.text]) = true ↔ ∃ u, env.parseUrl origin = some u
          ∧ ProperSubdomain (hostRead env u) (env.toLower (trimDot (String.ofList w.name))).toList)
        ↔ (w.port = [] ∨ ∀ u, env.parseUrl origin = some u →
            ¬ProperSubdomain (hostRead env u) (env.toLower (trimDot (String.ofList w.name))).toList
              ∧ ¬ProperSubdomain (hostRead env u) (env.toLower (String.ofList (w.name ++ w.port))).toList) :=
  ⟨origin_admits_itself hlower hurl, wildcard_iff hlower hurl⟩

end

/-! ## §8. What the diagnostics say. -/

section
variable {env : Platform} {lower : Char → Char} (hlower : LowersBy env lower)

/-- An entry is a normalised one. -/
theorem mem_normalizeDomains {domains : List String} {entry : String} (h : entry ∈ normalizeDomains env domains) :
    ∃ v ∈ domains, entry = normalizeDomain env v := by
  have hfold : ∀ (entries out : List String),
      entry ∈ entries.foldl (fun out v => if v ≠ "" ∧ v ∉ out then out ++ [v] else out) out →
        entry ∈ out ∨ entry ∈ entries := by
    intro entries
    induction entries with
    | nil => exact fun _ hmem => .inl hmem
    | cons v entries ih =>
      intro out hmem
      obtain hmem | hmem := ih _ hmem
      · dsimp only at hmem
        split at hmem
        · obtain hout | hv := List.mem_append.mp hmem
          · exact .inl hout
          · exact .inr (by rw [List.mem_singleton.mp hv]; exact List.mem_cons_self)
        · exact .inl hmem
      · exact .inr (List.mem_cons_of_mem _ hmem)
  obtain hnone | hmem := hfold _ _ h
  · cases hnone
  · obtain ⟨v, hv, heq⟩ := List.mem_map.mp hmem
    exact ⟨v, hv, heq.symm⟩

theorem trimPrefixText_sublist (start s : String) : (trimPrefixText start s).toList.Sublist s.toList := by
  rw [trimPrefixText_toList]
  split
  · exact List.drop_sublist _ _
  · exact List.Sublist.refl _

theorem trimSpace_sublist (s : String) : (trimSpace s).toList.Sublist s.toList := by
  rw [trimSpace_toList]
  exact (List.rdropWhile_prefix _ _).sublist.trans (List.dropWhile_sublist _)

include hlower

/-- A part of a text in lower case is in lower case. -/
theorem LowersBy.of_sublist {s : String} {t : List Char} (h : s.toList.Sublist (t.map lower)) : env.toLower s = s := by
  have hsame : s.toList.map lower = s.toList := by
    refine (List.map_congr_left fun c hc => ?_).trans (List.map_id _)
    obtain ⟨x, -, rfl⟩ := List.mem_map.mp (h.subset hc)
    exact hlower.idempotent x
  rw [hlower.toLower, hsame, String.ofList_toList]

theorem stored_sublist (v : String) : ∃ t : List Char, (normalizeDomain env v).toList.Sublist (t.map lower) := by
  refine ⟨(trimSpace v).toList, ?_⟩
  have hlow : (env.toLower (trimSpace v)).toList = (trimSpace v).toList.map lower := by
    rw [hlower.toLower, String.toList_ofList]
  unfold normalizeDomain
  dsimp only
  rw [String.toList_ofList, ← hlow]
  exact (List.takeWhile_sublist _).trans ((trimPrefixText_sublist _ _).trans (trimPrefixText_sublist _ _))

/-- Stored entries are in lower case, trimmed or not. -/
theorem stored_lower {domains : List String} {entry : String} (h : entry ∈ normalizeDomains env domains) :
    env.toLower (trimSpace entry) = trimSpace entry
      ∧ env.toLower (trimSpace (trimDot entry)) = trimSpace (trimDot entry) := by
  obtain ⟨v, -, rfl⟩ := mem_normalizeDomains h
  obtain ⟨t, hsub⟩ := stored_sublist hlower v
  constructor
  · exact hlower.of_sublist ((trimSpace_sublist _).trans hsub)
  · have hdot : (trimDot (normalizeDomain env v)).toList.Sublist (normalizeDomain env v).toList := by
      rw [trimDot_toList]
      exact dropDot_sublist _
    exact hlower.of_sublist ((trimSpace_sublist _).trans (hdot.trans hsub))

end

/-- A lower-case host: the host of the URL that it makes. -/
structure IsHost (env : Platform) (host : String) : Prop where
  nonempty : host ≠ ""
  lower : env.toLower host = host
  url : (env.parseUrl ("https://" ++ host)).map Url.hostname = some host

/-- The entry covers the host, with final dots and without. -/
def CoversBoth (entry host : String) : Prop :=
  Covers (trimSpace entry).toList host.toList ∧ Covers (trimSpace (trimDot entry)).toList (trimDot host).toList

/-- Only the diagnostics take the entry for the host's: it is the host's own wildcard,
or covers the host with the final dots only. -/
def DiagnosticsOnly (entry host : String) : Prop :=
  OwnWildcard (trimSpace entry).toList host.toList
    ∨ (Covers (trimSpace entry).toList host.toList
      ∧ ¬Covers (trimSpace (trimDot entry)).toList (trimDot host).toList)

/-- Only the collector does: it covers the host without final dots only. -/
def CollectorOnly (entry host : String) : Prop :=
  ¬Covers (trimSpace entry).toList host.toList
    ∧ Covers (trimSpace (trimDot entry)).toList (trimDot host).toList

section
variable {env : Platform} {lower : Char → Char} (hlower : LowersBy env lower)
include hlower

/-- **The diagnostics and the collector say the same of a host** exactly where an entry
covers it with final dots and without, or where there are entries for each of them only,
or for neither. -/
theorem agree_iff {host : String} (hhost : IsHost env host) (domains : List String)
    (hne : normalizeDomains env domains ≠ []) :
    (hostAllowed env host (normalizeDomains env domains) = true
        ↔ originAllowed env ("https://" ++ host) (normalizeDomains env domains) = true)
      ↔ ((∃ entry ∈ normalizeDomains env domains, CoversBoth entry host)
        ∨ ((∃ entry ∈ normalizeDomains env domains, DiagnosticsOnly entry host)
          ↔ ∃ entry ∈ normalizeDomains env domains, CollectorOnly entry host)) := by
  obtain ⟨u, hu, hname⟩ := Option.map_eq_some_iff.mp hhost.url
  have horigin : "https://" ++ host ≠ "" := by
    intro h
    have hlist := congrArg String.toList h
    rw [String.toList_append] at hlist
    exact absurd hlist (by simp)
  have hdotless : env.toLower (trimDot host) = trimDot host := by
    refine hlower.of_sublist (t := host.toList) ?_
    have hsame : host.toList.map lower = host.toList := by
      have hmap := congrArg String.toList hhost.lower
      rw [hlower.toLower, String.toList_ofList] at hmap
      exact hmap
    rw [hsame, trimDot_toList]
    exact dropDot_sublist _
  have hdiagnostics : hostAllowed env host (normalizeDomains env domains) = true
      ↔ ∃ entry ∈ normalizeDomains env domains, Covers (trimSpace entry).toList host.toList
        ∨ OwnWildcard (trimSpace entry).toList host.toList := by
    rw [hostAllowed_iff env hhost.nonempty]
    exact exists_congr fun entry => and_congr_right fun hmem => by rw [(stored_lower hlower hmem).1]
  have hcollector : originAllowed env ("https://" ++ host) (normalizeDomains env domains) = true
      ↔ ∃ entry ∈ normalizeDomains env domains,
        Covers (trimSpace (trimDot entry)).toList (trimDot host).toList := by
    rw [originAllowed_iff env hne horigin]
    simp only [hu, Option.some.injEq, exists_eq_left', hname, hdotless]
    exact exists_congr fun entry => and_congr_right fun hmem => by rw [(stored_lower hlower hmem).2]
  rw [hdiagnostics, hcollector]
  unfold CoversBoth DiagnosticsOnly CollectorOnly
  generalize normalizeDomains env domains = entries
  grind

end

namespace Sample

/-- Checks nothing more, and takes a percent sign as it is. -/
def urlRules : UrlHost.Rules where
  refuses _ := false
  unescape s := some s
  unescape_plain _ _ := rfl

/-- A platform that reads the host of a URL. -/
def hostPlatform : Platform :=
  { platform with
    parseUrl := fun s => (UrlHost.hostname urlRules s.toList).map fun host => ⟨s, String.ofList host, "", ""⟩ }

theorem parsesBy_hostPlatform : ParsesBy hostPlatform urlRules := by
  intro raw
  show ((UrlHost.hostname urlRules raw.toList).map fun host => (⟨raw, String.ofList host, "", ""⟩ : Url)).map
    (fun u => u.hostname.toList) = UrlHost.hostname urlRules raw.toList
  rw [Option.map_map]
  cases UrlHost.hostname urlRules raw.toList with
  | none => rfl
  | some host => simp

/-- An upper-case letter moves by 32, everything else stays. -/
theorem toLower_cases (c : Char) :
    c.toLower = c ∨ (65 ≤ c.val.toNat ∧ c.val.toNat ≤ 90 ∧ c.toLower.val.toNat = c.val.toNat + 32) := by
  by_cases hupper : c.val ≥ 'A'.val ∧ c.val ≤ 'Z'.val
  · right
    have hrange : 65 ≤ c.val.toNat ∧ c.val.toNat ≤ 90 := hupper
    refine ⟨hrange.1, hrange.2, ?_⟩
    have hlower : c.toLower = ⟨c.val + ('a'.val - 'A'.val), _⟩ := dif_pos hupper
    rw [hlower]
    show (c.val + ('a'.val - 'A'.val)).toNat = c.val.toNat + 32
    rw [UInt32.toNat_add, show ('a'.val - 'A'.val).toNat = 32 from rfl]
    omega
  · exact .inl (dif_neg hupper)

theorem lowersBy_hostPlatform : LowersBy hostPlatform Char.toLower where
  toLower s := by
    have hmap : (s.map Char.toLower).toList = s.toList.map Char.toLower := String.toList_map
    show s.map Char.toLower = String.ofList (s.toList.map Char.toLower)
    rw [← hmap, String.ofList_toList]
  idempotent c := by
    obtain h | ⟨hlow, -, hmoved⟩ := toLower_cases c
    · rw [h, h]
    · obtain h' | ⟨-, hhigh, -⟩ := toLower_cases c.toLower
      · exact h'
      · omega
  letters _ _ := rfl
  marks c h := by
    obtain hsame | ⟨hlow, hhigh, hmoved⟩ := toLower_cases c
    · exact hsame
    · -- an upper-case letter and its lower case are both letters
      have hletter : c.isAlpha = true := (isAlpha_iff c).mpr (.inl ⟨hlow, hhigh⟩)
      have hletter' : c.toLower.isAlpha = true := (isAlpha_iff _).mpr (.inr (by omega))
      obtain ⟨-, hnot⟩ | ⟨-, hnot⟩ := h
      · rw [hletter] at hnot
        cases hnot
      · rw [hletter'] at hnot
        cases hnot
  spaces c := by
    obtain hsame | ⟨hlow, hhigh, hmoved⟩ := toLower_cases c
    · rw [hsame]
    · rw [isSpace_letter ((isAlpha_iff c).mpr (.inl ⟨hlow, hhigh⟩)),
        isSpace_letter ((isAlpha_iff _).mpr (.inr (by omega)))]

/-- `http://example.com:8080`. -/
def portOrigin : Origin where
  scheme := "http".toList
  host := .name "example.com".toList
  port := ":8080".toList
  path := []
  http := .inl (by decide)
  wellFormed := by
    show "example.com".toList ≠ [] ∧ Solid "example.com".toList ∧ UrlHost.IsName "example.com".toList
    exact ⟨by decide, solid_of_all (by decide), UrlHost.isName_of_all (by decide)⟩
  isPort := .inr ⟨"8080".toList, by decide, rfl, List.all_eq_true.mp (by decide)⟩
  isPath := .inl rfl

/-- `*.example.com:8080/`. -/
def portWildcard : Wildcard where
  name := "example.com".toList
  port := ":8080".toList
  path := ['/']
  nonempty := by decide
  solid := solid_of_all (by decide)
  isName := UrlHost.isName_of_all (by decide)
  isPort := portOrigin.isPort
  isPath := .inr ⟨[], rfl⟩

theorem portOrigin_accepted : (hostPlatform.parseUrl portOrigin.text).isSome = true := by
  have hread := parsesBy_hostPlatform portOrigin.text
  rw [show UrlHost.hostname urlRules portOrigin.text.toList = some "example.com".toList by decide] at hread
  obtain ⟨u, hu, -⟩ := Option.map_eq_some_iff.mp hread
  rw [hu]
  rfl

theorem allowedDomains_port :
    (originAllowed hostPlatform portOrigin.text (normalizeDomains hostPlatform [portOrigin.text]) = true
        ↔ portOrigin.port = [] ∧ portOrigin.host.IsName)
    ∧ ∀ (w : Wildcard) (origin : String),
      (originAllowed hostPlatform origin (normalizeDomains hostPlatform [w.text]) = true ↔
          ∃ u, hostPlatform.parseUrl origin = some u
            ∧ ProperSubdomain (hostRead hostPlatform u) (hostPlatform.toLower (trimDot (String.ofList w.name))).toList)
        ↔ (w.port = [] ∨ ∀ u, hostPlatform.parseUrl origin = some u →
            ¬ProperSubdomain (hostRead hostPlatform u) (hostPlatform.toLower (trimDot (String.ofList w.name))).toList
              ∧ ¬ProperSubdomain (hostRead hostPlatform u)
                (hostPlatform.toLower (String.ofList (w.name ++ w.port))).toList) :=
  ⟨(allowedDomains_iff lowersBy_hostPlatform parsesBy_hostPlatform).1 portOrigin portOrigin_accepted,
    (allowedDomains_iff lowersBy_hostPlatform parsesBy_hostPlatform).2⟩

/-- The host of `http://a.example.com`. -/
theorem subdomain_read : ∃ u, hostPlatform.parseUrl "http://a.example.com" = some u
    ∧ hostRead hostPlatform u = "a.example.com".toList := by
  have hread := parsesBy_hostPlatform "http://a.example.com"
  rw [show UrlHost.hostname urlRules "http://a.example.com".toList = some "a.example.com".toList by decide] at hread
  obtain ⟨u, hu, hhost⟩ := Option.map_eq_some_iff.mp hread
  refine ⟨u, hu, ?_⟩
  rw [hostRead, lowersBy_hostPlatform.read_host, hhost]
  decide

/-- A pasted origin with a port is refused itself, and a pasted wildcard with one
refuses its subdomains. -/
theorem pasted_port_refuses :
    (portOrigin.text = "http://example.com:8080"
      ∧ originAllowed hostPlatform portOrigin.text (normalizeDomains hostPlatform [portOrigin.text]) = false)
    ∧ portWildcard.text = "*.example.com:8080/"
      ∧ originAllowed hostPlatform "http://a.example.com" (normalizeDomains hostPlatform [portWildcard.text]) = false := by
  refine ⟨⟨rfl, ?_⟩, rfl, ?_⟩
  · rw [Bool.eq_false_iff]
    intro h
    have hport := (origin_admits_itself lowersBy_hostPlatform parsesBy_hostPlatform portOrigin portOrigin_accepted).mp h
    exact absurd hport.1 (by decide)
  · rw [Bool.eq_false_iff]
    intro h
    obtain ⟨u, hu, hsub⟩ := (wildcard_admits lowersBy_hostPlatform parsesBy_hostPlatform portWildcard _).mp h
    obtain ⟨v, hv, hhost⟩ := subdomain_read
    obtain rfl : u = v := Option.some.inj (hu.symm.trans hv)
    rw [properSubdomain_iff, hhost, ← List.isSuffixOf_iff_suffix] at hsub
    exact absurd hsub (by decide)

theorem isHost_corp : IsHost hostPlatform "corp.local" where
  nonempty := by decide
  lower := by
    rw [lowersBy_hostPlatform.toLower]
    decide
  url := by
    have hread := parsesBy_hostPlatform ("https://" ++ "corp.local")
    rw [show UrlHost.hostname urlRules ("https://" ++ "corp.local").toList = some "corp.local".toList by decide] at hread
    obtain ⟨u, hu, hhost⟩ := Option.map_eq_some_iff.mp hread
    rw [hu, Option.map_some, ← String.toList_inj.mp hhost]

/-- The wildcard `*.corp.local` as it is stored. -/
theorem stored_corp : normalizeDomains hostPlatform ["*.corp.local"] = ["*.corp.local"] := by
  have hstored : (normalizeDomain hostPlatform "*.corp.local").toList = "*.corp.local".toList := by
    unfold normalizeDomain
    rw [lowersBy_hostPlatform.toLower]
    decide
  rw [normalizeDomains_singleton (by rw [hstored]; decide), String.toList_inj.mp hstored]

theorem agree_iff_corp :
    (hostAllowed hostPlatform "corp.local" (normalizeDomains hostPlatform ["*.corp.local"]) = true
        ↔ originAllowed hostPlatform ("https://" ++ "corp.local") (normalizeDomains hostPlatform ["*.corp.local"]) = true)
      ↔ ((∃ entry ∈ normalizeDomains hostPlatform ["*.corp.local"], CoversBoth entry "corp.local")
        ∨ ((∃ entry ∈ normalizeDomains hostPlatform ["*.corp.local"], DiagnosticsOnly entry "corp.local")
          ↔ ∃ entry ∈ normalizeDomains hostPlatform ["*.corp.local"], CollectorOnly entry "corp.local")) :=
  agree_iff lowersBy_hostPlatform isHost_corp ["*.corp.local"] (by rw [stored_corp]; exact List.cons_ne_nil _ _)

/-- The diagnostics take the wildcard for the domain itself, the collector refuses it. -/
theorem apex_listed_and_refused :
    hostAllowed hostPlatform "corp.local" (normalizeDomains hostPlatform ["*.corp.local"]) = true
      ∧ originAllowed hostPlatform ("https://" ++ "corp.local") (normalizeDomains hostPlatform ["*.corp.local"]) = false := by
  rw [stored_corp]
  constructor
  · rw [hostAllowed_iff hostPlatform isHost_corp.nonempty]
    refine ⟨"*.corp.local", List.mem_singleton_self _, .inr ?_⟩
    rw [lowersBy_hostPlatform.toLower]
    decide
  · rw [Bool.eq_false_iff]
    intro h
    rw [originAllowed_iff hostPlatform (List.cons_ne_nil _ _) (by decide)] at h
    obtain ⟨u, hu, entry, hentry, hcovers⟩ := h
    obtain rfl := List.mem_singleton.mp hentry
    have hhost := isHost_corp.url
    rw [hu, Option.map_some] at hhost
    rw [Option.some.inj hhost, lowersBy_hostPlatform.toLower, lowersBy_hostPlatform.toLower] at hcovers
    revert hcovers
    unfold Covers
    rw [← List.isSuffixOf_iff_suffix]
    decide

end Sample

end Momento
