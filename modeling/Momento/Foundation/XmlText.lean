/-
  Momento.Foundation.XmlText

  **XML CONTENT, READ CHARACTER BY CHARACTER.**  Elements with attributes, references
  and character data, as XML 1.0 writes them.  The reader is stricter than the
  recommendation: it knows no comments, sections or instructions, and no blanks around
  the `=` of an attribute.  So what it reads is XML content.

  What a text reads as is a list of events, and fragments are put together by rules:
  text beside text (`Reads.append`), text inside an element (`Reads.element`), and a
  text that was escaped, which reads as its own characters (`reads_escape`).
-/
import Momento.Foundation.NumberText

namespace Foundation.XmlText

/-! ## §1. Characters. -/

/-- `Char`: what a document may hold, as itself or by reference. -/
def isXmlChar (c : Char) : Bool :=
  let n := c.toNat
  n = 0x9 || n = 0xA || n = 0xD || (0x20 ≤ n && n ≤ 0xD7FF) || (0xE000 ≤ n && n ≤ 0xFFFD) || 0x10000 ≤ n

/-- `S`. -/
def isBlank (c : Char) : Bool := c = ' ' || c = '\t' || c = '\r' || c = '\n'

/-- `NameStartChar`. -/
def isNameStart (c : Char) : Bool :=
  let n := c.toNat
  c = ':' || c = '_' || c.isAlpha || (0xC0 ≤ n && n ≤ 0xD6) || (0xD8 ≤ n && n ≤ 0xF6) || (0xF8 ≤ n && n ≤ 0x2FF)
    || (0x370 ≤ n && n ≤ 0x37D) || (0x37F ≤ n && n ≤ 0x1FFF) || (0x200C ≤ n && n ≤ 0x200D)
    || (0x2070 ≤ n && n ≤ 0x218F) || (0x2C00 ≤ n && n ≤ 0x2FEF) || (0x3001 ≤ n && n ≤ 0xD7FF)
    || (0xF900 ≤ n && n ≤ 0xFDCF) || (0xFDF0 ≤ n && n ≤ 0xFFFD) || (0x10000 ≤ n && n ≤ 0xEFFFF)

/-- `NameChar`. -/
def isNameChar (c : Char) : Bool :=
  let n := c.toNat
  isNameStart c || c = '-' || c = '.' || c.isDigit || n = 0xB7 || (0x300 ≤ n && n ≤ 0x36F)
    || (0x203F ≤ n && n ≤ 0x2040)

/-- The number written by digits of a base. -/
def numeral (digit : Char → Option ℕ) (base : ℕ) (digits : List Char) : Option ℕ :=
  if digits = [] then none
  else (digits.mapM digit).map fun values => values.foldl (fun n v => base * n + v) 0

/-- The character of `Reference`, what stands between `&` and `;`. -/
def referenced (name : List Char) : Option Char :=
  match name with
  | ['l', 't'] => some '<'
  | ['g', 't'] => some '>'
  | ['a', 'm', 'p'] => some '&'
  | ['q', 'u', 'o', 't'] => some '"'
  | ['a', 'p', 'o', 's'] => some '\''
  | '#' :: 'x' :: digits => ((numeral hexDigit? 16 digits).map Char.ofNat).filter isXmlChar
  | '#' :: digits => ((numeral digit? 10 digits).map Char.ofNat).filter isXmlChar
  | _ => none

/-! ## §2. The reader. -/

/-- The name of an element or attribute. -/
abbrev Name := List Char

/-- Attributes, in order. -/
abbrev Attributes := List (Name × List Char)

/-- What content is made of: tags, and the characters between them. -/
inductive Event where
  | start (name : Name) (attributes : Attributes)
  | stop (name : Name)
  | char (c : Char)
  deriving DecidableEq

/-- Where the reader is. -/
inductive Mode where
  /-- Between tags, behind so many `]`. -/
  | content (brackets : ℕ)
  | reference (text : List Char)
  /-- Behind `<`. -/
  | tag
  | startName (name : Name)
  | inTag (name : Name) (attributes : Attributes)
  | attribute (name : Name) (attributes : Attributes) (key : Name)
  /-- Behind `=`. -/
  | equals (name : Name) (attributes : Attributes) (key : Name)
  | value (name : Name) (attributes : Attributes) (key : Name) (quote : Char) (text : List Char)
  | afterValue (name : Name) (attributes : Attributes)
  /-- Behind the `/` of an empty element. -/
  | slash (name : Name) (attributes : Attributes)
  /-- Behind `</`. -/
  | stopName (name : Name)
  | afterStop (name : Name)
  deriving DecidableEq

/-- A start tag is over: its attributes have different names. -/
def started (name : Name) (attributes : Attributes) (more : List Event) : Option (Mode × List Event) :=
  if (attributes.map Prod.fst).Nodup then some (.content 0, .start name attributes :: more) else none

/-- One character. -/
def step : Mode → Char → Option (Mode × List Event)
  | .content brackets, c =>
    if c = '<' then some (.tag, [])
    else if c = '&' then some (.reference [], [])
    else if c = ']' then some (.content (brackets + 1), [.char c])
    -- `]]>` ends a section, and may stand nowhere else
    else if c = '>' ∧ 2 ≤ brackets then none
    else some (.content 0, [.char c])
  | .reference text, c =>
    if c = ';' then (referenced text).map fun d => (.content 0, [.char d]) else some (.reference (text ++ [c]), [])
  | .tag, c =>
    if c = '/' then some (.stopName [], [])
    else if isNameStart c then some (.startName [c], [])
    else none
  | .startName name, c =>
    if isNameChar c then some (.startName (name ++ [c]), [])
    else if c = '>' then started name [] []
    else if isBlank c then some (.inTag name [], [])
    else if c = '/' then some (.slash name [], [])
    else none
  | .inTag name attributes, c =>
    if isNameStart c then some (.attribute name attributes [c], [])
    else if c = '>' then started name attributes []
    else if isBlank c then some (.inTag name attributes, [])
    else if c = '/' then some (.slash name attributes, [])
    else none
  | .attribute name attributes key, c =>
    if isNameChar c then some (.attribute name attributes (key ++ [c]), [])
    else if c = '=' then some (.equals name attributes key, [])
    else none
  | .equals name attributes key, c =>
    if c = '"' ∨ c = '\'' then some (.value name attributes key c [], []) else none
  | .value name attributes key quote text, c =>
    if c = quote then some (.afterValue name (attributes ++ [(key, text)]), [])
    else if c = '<' ∨ c = '&' then none
    else some (.value name attributes key quote (text ++ [c]), [])
  | .afterValue name attributes, c =>
    if c = '>' then started name attributes []
    else if isBlank c then some (.inTag name attributes, [])
    else if c = '/' then some (.slash name attributes, [])
    else none
  | .slash name attributes, c => if c = '>' then started name attributes [.stop name] else none
  | .stopName name, c =>
    if (if name = [] then isNameStart c else isNameChar c) then some (.stopName (name ++ [c]), [])
    else if name = [] then none
    else if c = '>' then some (.content 0, [.stop name])
    else if isBlank c then some (.afterStop name, [])
    else none
  | .afterStop name, c =>
    if c = '>' then some (.content 0, [.stop name])
    else if isBlank c then some (.afterStop name, [])
    else none

/-- A whole text. -/
def run : Mode → List Char → Option (Mode × List Event)
  | m, [] => some (m, [])
  | m, c :: cs => do
    let (m', es) ← step m c
    let (m'', fs) ← run m' cs
    some (m'', es ++ fs)

/-- The events of content: outside every tag when it starts, and when it ends. -/
def read (s : List Char) : Option (List Event) :=
  match run (.content 0) s with
  | some (.content _, es) => some es
  | _ => none

/-- The elements that are open behind the events, where `names` were before. -/
def closes : List Name → List Event → Option (List Name)
  | names, [] => some names
  | names, .start name _ :: es => closes (name :: names) es
  | [], .stop _ :: _ => none
  | n :: names, .stop name :: es => if n = name then closes names es else none
  | names, .char _ :: es => closes names es

/-- Well-formed content: only characters of XML, and elements that are closed in order. -/
structure WellFormed (s : List Char) : Prop where
  chars : ∀ c ∈ s, isXmlChar c = true
  nested : ∃ es, read s = some es ∧ closes [] es = some []

/-- It is a tag, not a character. -/
def Event.isTag : Event → Bool
  | .char _ => false
  | _ => true

/-- The tags among the events. -/
def tagsOf (es : List Event) : List Event := es.filter Event.isTag

/-- The elements of content, without the text in them. -/
def structureOf (s : List Char) : Option (List Event) := (read s).map tagsOf

/-! ## §3. What a fragment reads as. -/

/-- A character that is taken, and the rest. -/
theorem run_cons {m m' : Mode} {c : Char} {es : List Event} (h : step m c = some (m', es)) (cs : List Char) :
    run m (c :: cs) = (run m' cs).map fun (m'', fs) => (m'', es ++ fs) := by
  cases hrest : run m' cs with
  | none => simp [run, h, hrest]
  | some reached => simp [run, h, hrest]

theorem run_append (m : Mode) (s t : List Char) :
    run m (s ++ t) = (run m s).bind fun (m', es) => (run m' t).map fun (m'', fs) => (m'', es ++ fs) := by
  induction s generalizing m with
  | nil =>
    show run m t = (run m t).map fun (m'', fs) => (m'', [] ++ fs)
    simp
  | cons c s ih =>
    rw [List.cons_append]
    cases hstep : step m c with
    | none => simp [run, hstep]
    | some next =>
      obtain ⟨m', es⟩ := next
      rw [run_cons hstep, run_cons hstep, ih]
      cases run m' s with
      | none => rfl
      | some reached =>
        obtain ⟨m'', fs⟩ := reached
        simp only [Option.bind_some, Option.map_some]
        cases run m'' t with
        | none => rfl
        | some last => simp [List.append_assoc]

/-- Between tags the text reads as these events, and leaves the reader between tags. -/
def Reads (s : List Char) (es : List Event) : Prop :=
  ∀ k, ∃ k', run (.content k) s = some (.content k', es)

namespace Reads

variable {s t : List Char} {es fs : List Event}

theorem nil : Reads [] [] := fun k => ⟨k, rfl⟩

theorem append (hs : Reads s es) (ht : Reads t fs) : Reads (s ++ t) (es ++ fs) := by
  intro k
  obtain ⟨k', hk'⟩ := hs k
  obtain ⟨k'', hk''⟩ := ht k'
  refine ⟨k'', ?_⟩
  rw [run_append, hk', Option.bind_some]
  simp only
  rw [hk'']
  rfl

theorem flatMap {α : Type} {l : List α} {text : α → List Char} {events : α → List Event}
    (h : ∀ a ∈ l, Reads (text a) (events a)) : Reads (l.flatMap text) (l.flatMap events) := by
  induction l with
  | nil => exact nil
  | cons a l ih =>
    rw [List.flatMap_cons, List.flatMap_cons]
    exact (h a (by simp)).append (ih fun b hb => h b (by simp [hb]))

theorem read_eq (h : Reads s es) : read s = some es := by
  obtain ⟨k, hk⟩ := h 0
  rw [read, hk]

end Reads

/-- `Name`. -/
def isName : Name → Bool
  | [] => false
  | c :: cs => isNameStart c && cs.all isNameChar

theorem isName_cons {c : Char} {cs : Name} :
    isName (c :: cs) = true ↔ isNameStart c = true ∧ ∀ d ∈ cs, isNameChar d = true := by
  rw [isName, Bool.and_eq_true, List.all_eq_true]

theorem ne_nil_of_isName {name : Name} (h : isName name = true) : name ≠ [] := by
  intro hnil
  rw [hnil] at h
  cases h

theorem not_isNameStart_slash : ¬isNameStart '/' = true := by decide

theorem not_isNameChar_gt : ¬isNameChar '>' = true := by decide

theorem ne_slash_of_start {c : Char} (h : isNameStart c = true) : c ≠ '/' := by
  intro hc
  rw [hc] at h
  exact not_isNameStart_slash h

theorem run_startName (name more : Name) (h : ∀ d ∈ more, isNameChar d = true) :
    run (.startName name) (more ++ ['>']) = some (.content 0, [.start (name ++ more) []]) := by
  induction more generalizing name with
  | nil =>
    have hstep : step (.startName name) '>' = some (.content 0, [.start name []]) := by
      rw [step, if_neg not_isNameChar_gt, if_pos rfl]
      rfl
    rw [List.append_nil]
    exact run_cons hstep []
  | cons c more ih =>
    have hstep : step (.startName name) c = some (.startName (name ++ [c]), []) := by
      rw [step, if_pos (h c (by simp))]
    rw [List.cons_append, run_cons hstep, ih (name ++ [c]) fun d hd => h d (by simp [hd])]
    simp

/-- A start tag without attributes. -/
theorem reads_start {name : Name} (h : isName name = true) : Reads ('<' :: name ++ ['>']) [.start name []] := by
  intro k
  obtain ⟨c, cs, rfl⟩ := List.exists_cons_of_ne_nil (ne_nil_of_isName h)
  obtain ⟨hc, hcs⟩ := isName_cons.mp h
  refine ⟨0, ?_⟩
  have hlt : step (.content k) '<' = some (.tag, []) := by rw [step, if_pos rfl]
  have hfirst : step .tag c = some (.startName [c], []) := by
    rw [step, if_neg (ne_slash_of_start hc), if_pos hc]
  rw [List.cons_append, run_cons hlt, List.cons_append, run_cons hfirst, run_startName [c] cs hcs]
  rfl

theorem run_stopName (name more : Name) (hname : name ≠ []) (h : ∀ d ∈ more, isNameChar d = true) :
    run (.stopName name) (more ++ ['>']) = some (.content 0, [.stop (name ++ more)]) := by
  induction more generalizing name with
  | nil =>
    have hstep : step (.stopName name) '>' = some (.content 0, [.stop name]) := by
      rw [step, if_neg hname, if_neg not_isNameChar_gt, if_neg hname, if_pos rfl]
    rw [List.append_nil]
    exact run_cons hstep []
  | cons c more ih =>
    have hstep : step (.stopName name) c = some (.stopName (name ++ [c]), []) := by
      rw [step, if_neg hname, if_pos (h c (by simp))]
    rw [List.cons_append, run_cons hstep, ih (name ++ [c]) (by simp) fun d hd => h d (by simp [hd])]
    simp

theorem reads_stop {name : Name} (h : isName name = true) : Reads ('<' :: '/' :: name ++ ['>']) [.stop name] := by
  intro k
  obtain ⟨c, cs, rfl⟩ := List.exists_cons_of_ne_nil (ne_nil_of_isName h)
  obtain ⟨hc, hcs⟩ := isName_cons.mp h
  refine ⟨0, ?_⟩
  have hlt : step (.content k) '<' = some (.tag, []) := by rw [step, if_pos rfl]
  have hslash : step .tag '/' = some (.stopName [], []) := by rw [step, if_pos rfl]
  have hfirst : step (.stopName []) c = some (.stopName [c], []) := by
    rw [step, if_pos rfl, if_pos hc]
    rfl
  rw [List.cons_append, run_cons hlt, List.cons_append, run_cons hslash, List.cons_append, run_cons hfirst,
    run_stopName [c] cs (by simp) hcs]
  rfl

/-- The text of an element around a text. -/
def element (name : Name) (body : List Char) : List Char := '<' :: name ++ '>' :: (body ++ '<' :: '/' :: name ++ ['>'])

/-- **An element around what is read.** -/
theorem Reads.element {s : List Char} {es : List Event} {name : Name} (hname : isName name = true) (h : Reads s es) :
    Reads (element name s) (.start name [] :: es ++ [.stop name]) := by
  have htext : XmlText.element name s = ('<' :: name ++ ['>']) ++ (s ++ ('<' :: '/' :: name ++ ['>'])) := by
    simp [XmlText.element]
  rw [htext]
  exact (reads_start hname).append (h.append (reads_stop hname))

/-! ## §4. Escaping. -/

/-- The replacements of `html.EscapeString`. -/
def escapeChar : Char → List Char
  | '&' => ['&', 'a', 'm', 'p', ';']
  | '\'' => ['&', '#', '3', '9', ';']
  | '<' => ['&', 'l', 't', ';']
  | '>' => ['&', 'g', 't', ';']
  | '"' => ['&', '#', '3', '4', ';']
  | c => [c]

/-- `html.EscapeString`. -/
def escape (s : List Char) : List Char := s.flatMap escapeChar

theorem reads_escapeChar (c : Char) : Reads (escapeChar c) [.char c] := by
  intro k
  unfold escapeChar
  split
  · exact ⟨0, rfl⟩
  · exact ⟨0, rfl⟩
  · exact ⟨0, rfl⟩
  · exact ⟨0, rfl⟩
  · exact ⟨0, rfl⟩
  rename_i hamp _ hlt hgt _
  -- any other character is read as it stands
  have hstep : ∃ k', step (.content k) c = some (.content k', [.char c]) := by
    rw [step, if_neg hlt, if_neg hamp]
    by_cases hbracket : c = ']'
    · rw [if_pos hbracket]
      exact ⟨_, rfl⟩
    · rw [if_neg hbracket, if_neg (fun h => hgt h.1)]
      exact ⟨_, rfl⟩
  obtain ⟨k', hk'⟩ := hstep
  exact ⟨k', run_cons hk' []⟩

/-- **An escaped text holds no markup.** -/
theorem reads_escape (s : List Char) : Reads (escape s) (s.map .char) := by
  have h : Reads (s.flatMap escapeChar) (s.flatMap fun c => [Event.char c]) :=
    Reads.flatMap fun c _ => reads_escapeChar c
  rwa [← List.map_eq_flatMap] at h

theorem forall_escapeChar (c : Char) : (∀ d ∈ escapeChar c, isXmlChar d = true) ↔ isXmlChar c = true := by
  rw [← List.all_eq_true]
  unfold escapeChar
  split
  · decide
  · decide
  · decide
  · decide
  · decide
  · simp

/-- Escaping neither removes a forbidden character nor adds one. -/
theorem forall_escape (s : List Char) : (∀ c ∈ escape s, isXmlChar c = true) ↔ ∀ c ∈ s, isXmlChar c = true := by
  constructor
  · intro h c hc
    refine (forall_escapeChar c).mp fun d hd => h d ?_
    exact List.mem_flatMap.mpr ⟨c, hc, hd⟩
  · intro h d hd
    obtain ⟨c, hc, hdc⟩ := List.mem_flatMap.mp hd
    exact (forall_escapeChar c).mpr (h c hc) d hdc

/-! ## §5. Nesting. -/

theorem closes_append (names : List Name) (es fs : List Event) :
    closes names (es ++ fs) = (closes names es).bind fun open_ => closes open_ fs := by
  induction es generalizing names with
  | nil => rfl
  | cons e es ih =>
    cases e with
    | start name attributes => exact ih (name :: names)
    | char c =>
      cases names with
      | nil => exact ih []
      | cons n names => exact ih (n :: names)
    | stop name =>
      cases names with
      | nil => rfl
      | cons n names =>
        show (if n = name then closes names (es ++ fs) else none)
          = (if n = name then closes names es else none).bind _
        by_cases h : n = name
        · rw [if_pos h, if_pos h, ih]
        · rw [if_neg h, if_neg h]
          rfl

/-- Every element that is opened is closed, and no other one. -/
def Nests (es : List Event) : Prop := ∀ names, closes names es = some names

namespace Nests

variable {es fs : List Event}

theorem nil : Nests [] := fun _ => by rw [closes]

theorem append (hes : Nests es) (hfs : Nests fs) : Nests (es ++ fs) := by
  intro names
  rw [closes_append, hes, Option.bind_some, hfs]

theorem flatMap {α : Type} {l : List α} {events : α → List Event} (h : ∀ a ∈ l, Nests (events a)) :
    Nests (l.flatMap events) := by
  induction l with
  | nil => exact nil
  | cons a l ih =>
    rw [List.flatMap_cons]
    exact (h a (by simp)).append (ih fun b hb => h b (by simp [hb]))

theorem chars (s : List Char) : Nests (s.map .char) := by
  induction s with
  | nil => exact nil
  | cons c s ih =>
    intro names
    rw [List.map_cons, closes]
    exact ih names

theorem tagged {name : Name} {attributes : Attributes} (h : Nests es) :
    Nests (.start name attributes :: es ++ [.stop name]) := by
  intro names
  rw [List.cons_append, closes, closes_append, h, Option.bind_some, closes, if_pos rfl, closes]

end Nests

/-- **Nested content is well formed when no character of it is forbidden.** -/
theorem wellFormed_iff {s : List Char} {es : List Event} (h : Reads s es) (hnests : Nests es) :
    WellFormed s ↔ ∀ c ∈ s, isXmlChar c = true :=
  ⟨fun hs => hs.chars, fun hs => ⟨hs, es, h.read_eq, hnests []⟩⟩

/-! ## §6. Tags. -/

/-- The elements of what is read. -/
theorem structureOf_eq {s : List Char} {es : List Event} (h : Reads s es) : structureOf s = some (tagsOf es) := by
  rw [structureOf, h.read_eq]
  rfl

theorem tagsOf_append (es fs : List Event) : tagsOf (es ++ fs) = tagsOf es ++ tagsOf fs := List.filter_append _ _

theorem tagsOf_chars (s : List Char) : tagsOf (s.map .char) = [] := by
  rw [tagsOf, List.filter_eq_nil_iff]
  intro e he
  obtain ⟨c, -, rfl⟩ := List.mem_map.mp he
  simp [Event.isTag]

/-- The tags of an element are its own and those in it. -/
theorem tagsOf_element (name : Name) (attributes : Attributes) (es : List Event) :
    tagsOf (.start name attributes :: es ++ [.stop name]) = .start name attributes :: tagsOf es ++ [.stop name] := by
  rw [tagsOf_append]
  rfl

theorem tagsOf_flatMap {α : Type} (l : List α) (events : α → List Event) :
    tagsOf (l.flatMap events) = l.flatMap fun a => tagsOf (events a) := by
  induction l with
  | nil => rfl
  | cons a l ih => rw [List.flatMap_cons, List.flatMap_cons, tagsOf_append, ih]

end Foundation.XmlText
