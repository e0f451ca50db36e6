/-
  Momento.Automation.PageStructure

  **WHAT THE SITE SENT DOES NOT SHAPE THE PAGE.**  Every text goes through
  `html.EscapeString`, so no text can open or close an element: which elements a page
  has depends on which values the payload carries, and not on what its texts say.

  But escaping replaces five characters, and XML forbids others: the controls, apart
  from tabs and line breaks, and the code points U+FFFE and U+FFFF.  A page that
  carries one of those is no XML.  JSON writes controls as escapes, so the attached
  document is safe from them, and from the other two it is not.
-/
import Momento.Automation.ConfluencePage
import Momento.Service.Runs

namespace Momento.Automation

open Foundation GoValue XmlText

/-! ## §1. The property. -/

/-- The keys the page looks for. -/
def fieldNames : List String :=
  ["name", "kind", "from", "to", "environment", "site_id", "data", "current", "previous", "change_percent",
    "insights", "title", "severity", "recommendation", "kpis", "headline", "label", "findings", "evidence",
    "action", "rows", "totals"]

/-- The texts that count as absent where they are empty. -/
def optionalNames : List String := ["environment", "site_id", "headline"]

/-- A key the page looks for, or any two others. -/
def SameName (k l : String) : Prop := k = l ∨ k ∉ fieldNames ∧ l ∉ fieldNames

/-- The empty text. -/
def isBlank : GoValue → Bool
  | .string s => s = ""
  | _ => false

/-- Values that differ in what their texts say: their strings, the keys nobody looks
for, and so the order of the members.  Their numbers differ too, as long as JSON can
write both or neither. -/
inductive SameShape : GoValue → GoValue → Prop
  | nil : SameShape .nil .nil
  | bool (a b : Bool) : SameShape (.bool a) (.bool b)
  | int (a b : Int) : SameShape (.int a) (.int b)
  | int64 (a b : Int) : SameShape (.int64 a) (.int64 b)
  | float64 {x y : Binary64} (h : encodable (.float64 x) = encodable (.float64 y)) :
      SameShape (.float64 x) (.float64 y)
  | string (s t : String) : SameShape (.string s) (.string t)
  | time {t u : Int} (h : yearFits t = yearFits u) : SameShape (.time t) (.time u)
  | uuid (s t : String) : SameShape (.uuid s) (.uuid t)
  | sliceNil (e : Declared) : SameShape (.slice e []) (.slice e [])
  | sliceCons {e : Declared} {v w : GoValue} {vs ws : List GoValue} (head : SameShape v w)
      (tail : SameShape (.slice e vs) (.slice e ws)) : SameShape (.slice e (v :: vs)) (.slice e (w :: ws))
  | mapNil (e : Declared) : SameShape (.map e []) (.map e [])
  | mapCons {e : Declared} {k l : String} {v w : GoValue} {ms ns ns' : Members} (name : SameName k l)
      (optional : k ∈ optionalNames → isBlank v = isBlank w) (head : SameShape v w)
      (tail : SameShape (.map e ms) (.map e ns)) (order : ((l, w) :: ns).Perm ns') :
      SameShape (.map e ((k, v) :: ms)) (.map e ns')
  | recordNil (omitempty : List String) : SameShape (.record omitempty []) (.record omitempty [])
  | recordCons {omitempty : List String} {name : String} {v w : GoValue} {fs gs : Members} (head : SameShape v w)
      (tail : SameShape (.record omitempty fs) (.record omitempty gs)) :
      SameShape (.record omitempty ((name, v) :: fs)) (.record omitempty ((name, w) :: gs))

/-- The payload as one value. -/
def Payload.value (p : Payload) : GoValue := .map .any p.members

/-- The property: the page is well-formed XML content, and has the elements that every
payload of this shape has. -/
structure PageProper (env : Platform) (p : Payload) : Prop where
  wellFormed : WellFormed (confluenceBody env p.members).toList
  shaped : ∀ q : Payload, SameShape p.value q.value →
    structureOf (confluenceBody env q.members).toList = structureOf (confluenceBody env p.members).toList

/-! ## §2. The condition. -/

/-- The named values of the items that are maps. -/
def shownOf (names : List String) (items : List GoValue) : List GoValue :=
  (items.filterMap asMap).flatMap fun item => names.map (at_ item)

/-- What the figures of a map are printed from. -/
def shownFigures (values : Members) (keys : List String) : List GoValue :=
  keys.flatMap fun key => [.string key, at_ values key]

/-- The totals of the page. -/
def shownTotals : Option Members → List GoValue
  | some totals => shownFigures totals (totals.map Prod.fst)
  | none => []

/-- What the report itself is printed from. -/
def shownData : Option Members → List GoValue
  | none => []
  | some data =>
    if (at_ data "current").present then
      shownFigures (mapAt data "current") ((mapAt data "current").map Prod.fst)
        ++ ((mapAt data "current").map Prod.fst).map (at_ (mapAt data "previous"))
        ++ shownOf ["title", "severity", "current", "previous", "recommendation"] (sliceAt data "insights")
    else if (at_ data "kpis").present then
      .string ((asString (at_ data "headline")).getD "") :: shownOf ["label", "current", "previous"] (sliceAt data "kpis")
        ++ shownOf ["title", "severity", "evidence", "action"] (sliceAt data "findings")
    else if (at_ data "rows").present then
      if sliceAt data "rows" = [] then []
      else
        (rowKeys data).map .string ++ shownOf ("label" :: rowKeys data) (sliceAt data "rows")
          ++ shownTotals (asMap (at_ data "totals"))
    else shownFigures data (figureKeys data)

/-- A text that is shown where it is not empty. -/
def shownText (value : String → String) : Option String → List GoValue
  | some text => if text ≠ "" then [.string (value text)] else []
  | none => []

/-- What the page is printed from, its document apart. -/
def shown (env : Platform) (payload : Members) : List GoValue :=
  .string ((asString (at_ payload "name")).getD "")
    :: (shownText env.toUpper (asString (at_ payload "environment"))
      ++ shownText id (asString (at_ payload "site_id"))
      ++ shownData (asMap (at_ payload "data")))

/-- No code point that is no character. -/
def isCharacter (c : Char) : Bool := c ≠ '\uFFFE' && c ≠ '\uFFFF'

/-- The condition: the texts the page shows can stand in XML, and if there is a
document, so can the kind it is titled with, and its texts once JSON has escaped them. -/
structure CleanPayload (env : Platform) (p : Payload) : Prop where
  report : ∀ v ∈ shown env p.members, CleanValue v
  document : encodable p.value = true →
    Clean ((asString (at_ p.members "kind")).getD "") ∧ ∀ s ∈ strings p.value, Holds isCharacter s

/-! ## §3. Which texts can spoil the page. -/

/-- No text of these blocks is spoilt. -/
def CleanBlocks (blocks : List Block) : Prop := ∀ b ∈ blocks, ∀ text ∈ b.texts, Clean text

theorem cleanBlocks_append {bs cs : List Block} : CleanBlocks (bs ++ cs) ↔ CleanBlocks bs ∧ CleanBlocks cs :=
  List.forall_mem_append

theorem cleanBlocks_cons {b : Block} {bs : List Block} :
    CleanBlocks (b :: bs) ↔ (∀ text ∈ b.texts, Clean text) ∧ CleanBlocks bs :=
  List.forall_mem_cons

theorem cleanBlocks_nil : CleanBlocks [] := fun _ hb => absurd hb List.not_mem_nil

/-- A block of the program's own texts. -/
theorem cleanBlocks_own {b : Block} (h : ∀ text ∈ b.texts, Clean text) (bs : List Block) :
    CleanBlocks (b :: bs) ↔ CleanBlocks bs := by
  rw [cleanBlocks_cons]
  exact ⟨fun hall => hall.2, fun hbs => ⟨h, hbs⟩⟩

/-- A table under headers of the program. -/
theorem clean_rows {headers : List String} (hheaders : ∀ header ∈ headers, Clean header) (rows : List (List String)) :
    (∀ text ∈ (Block.table headers rows).texts, Clean text) ↔ ∀ row ∈ rows, ∀ cell ∈ row, Clean cell := by
  rw [Block.texts]
  split
  · rename_i hnone
    rw [hnone]
    simp
  · rw [List.forall_mem_append, List.forall_mem_flatten]
    exact ⟨fun h => h.2, fun h => ⟨hheaders, h⟩⟩

theorem rowsOf_eq (row : Members → List String) (items : List GoValue) :
    rowsOf row items = (items.filterMap asMap).map row := by
  rw [List.map_filterMap]
  rfl

theorem clean_rowsOf (row : Members → List String) (names : Members → List GoValue) (items : List GoValue)
    (hrow : ∀ item, (∀ cell ∈ row item, Clean cell) ↔ ∀ v ∈ names item, CleanValue v) :
    (∀ r ∈ rowsOf row items, ∀ cell ∈ r, Clean cell)
      ↔ ∀ v ∈ (items.filterMap asMap).flatMap names, CleanValue v := by
  rw [rowsOf_eq, List.forall_mem_map, List.forall_mem_flatMap]
  exact forall₂_congr fun item _ => hrow item

theorem clean_insightRow (insight : Members) : (∀ cell ∈ insightRow insight, Clean cell)
    ↔ ∀ v ∈ ["title", "severity", "current", "previous", "recommendation"].map (at_ insight), CleanValue v := by
  have hchange : Clean (confluenceChange (at_ insight "change_percent")) := clean_confluenceChange _
  simp only [insightRow, List.map_cons, List.map_nil, List.forall_mem_cons, List.not_mem_nil, false_imp_iff, implies_true, and_true,
    clean_sprint, clean_confluenceNumber]
  exact ⟨fun h => ⟨h.1, h.2.1, h.2.2.2.1, h.2.2.2.2.1, h.2.2.2.2.2⟩,
    fun h => ⟨h.1, h.2.1, hchange, h.2.2.1, h.2.2.2.1, h.2.2.2.2⟩⟩

theorem clean_kpiRow (kpi : Members) : (∀ cell ∈ kpiRow kpi, Clean cell)
    ↔ ∀ v ∈ ["label", "current", "previous"].map (at_ kpi), CleanValue v := by
  have hchange : Clean (confluenceChange (at_ kpi "change_percent")) := clean_confluenceChange _
  simp only [kpiRow, List.map_cons, List.map_nil, List.forall_mem_cons, List.not_mem_nil, false_imp_iff, implies_true, and_true,
    clean_sprint, clean_confluenceNumber]
  exact ⟨fun h => ⟨h.1, h.2.1, h.2.2.1⟩, fun h => ⟨h.1, h.2.1, h.2.2, hchange⟩⟩

theorem clean_findingRow (finding : Members) : (∀ cell ∈ findingRow finding, Clean cell)
    ↔ ∀ v ∈ ["title", "severity", "evidence", "action"].map (at_ finding), CleanValue v := by
  simp only [findingRow, List.map_cons, List.map_nil, List.forall_mem_cons, List.not_mem_nil, false_imp_iff, implies_true, and_true,
    clean_sprint]

theorem clean_figureRow (values : Members) (key : String) : (∀ cell ∈ figureRow values key, Clean cell)
    ↔ ∀ v ∈ [GoValue.string key, at_ values key], CleanValue v := by
  simp only [figureRow, List.forall_mem_cons, List.not_mem_nil, false_imp_iff, implies_true, and_true, clean_confluenceTitle,
    clean_confluenceNumber, cleanValue_string]

theorem clean_comparisonRow (current previous change : Members) (key : String) :
    (∀ cell ∈ comparisonRow current previous change key, Clean cell)
      ↔ (∀ v ∈ [GoValue.string key, at_ current key], CleanValue v) ∧ CleanValue (at_ previous key) := by
  have hchange : Clean (confluenceChange (at_ change key)) := clean_confluenceChange _
  simp only [comparisonRow, List.forall_mem_cons, List.not_mem_nil, false_imp_iff, implies_true, and_true, clean_confluenceTitle,
    clean_confluenceNumber, cleanValue_string]
  exact ⟨fun h => ⟨⟨h.1, h.2.1⟩, h.2.2.1⟩, fun h => ⟨h.1.1, h.1.2, h.2, hchange⟩⟩

theorem mem_orderedKeys {values : Members} {key : String} :
    key ∈ orderedKeys values ↔ key ∈ values.map Prod.fst := by
  unfold orderedKeys
  dsimp only
  rw [List.mem_append, List.mem_filter, List.mem_filter, lookup_isSome_iff_mem]
  constructor
  · intro h
    obtain h | h := h
    · exact h.2
    · exact h.1
  · intro h
    by_cases hfirst : key ∈ confluenceOrder.filter fun key => (values.lookup key).isSome
    · exact .inl ⟨(List.mem_filter.mp hfirst).1, h⟩
    · exact .inr ⟨h, by simpa using hfirst⟩

theorem clean_figures (values : Members) (keys : List String) :
    (∀ row ∈ keys.map (figureRow values), ∀ cell ∈ row, Clean cell) ↔ ∀ v ∈ shownFigures values keys, CleanValue v := by
  rw [List.forall_mem_map, shownFigures, List.forall_mem_flatMap]
  exact forall₂_congr fun key _ => clean_figureRow values key

/-- The figures in order are those of the map. -/
theorem shownFigures_orderedKeys (values : Members) : (∀ v ∈ shownFigures values (orderedKeys values), CleanValue v)
    ↔ ∀ v ∈ shownFigures values (values.map Prod.fst), CleanValue v := by
  rw [shownFigures, shownFigures, List.forall_mem_flatMap, List.forall_mem_flatMap]
  exact forall_congr' fun key => imp_congr_left mem_orderedKeys

/-- The comparison of two periods. -/
theorem clean_comparisonBlocks (data : Members) : CleanBlocks (comparisonBlocks data)
    ↔ ∀ v ∈ shownFigures (mapAt data "current") ((mapAt data "current").map Prod.fst)
        ++ ((mapAt data "current").map Prod.fst).map (at_ (mapAt data "previous"))
        ++ shownOf ["title", "severity", "current", "previous", "recommendation"] (sliceAt data "insights"),
      CleanValue v := by
  have hfigures : (∀ row ∈ (orderedKeys (mapAt data "current")).map
        (comparisonRow (mapAt data "current") (mapAt data "previous") (mapAt data "change_percent")),
        ∀ cell ∈ row, Clean cell)
      ↔ (∀ v ∈ shownFigures (mapAt data "current") ((mapAt data "current").map Prod.fst), CleanValue v)
        ∧ ∀ v ∈ ((mapAt data "current").map Prod.fst).map (at_ (mapAt data "previous")), CleanValue v := by
    have hprevious : (∀ v ∈ ((mapAt data "current").map Prod.fst).map (at_ (mapAt data "previous")), CleanValue v)
        ↔ ∀ key ∈ (mapAt data "current").map Prod.fst, CleanValue (at_ (mapAt data "previous") key) :=
      List.forall_mem_map
    rw [List.forall_mem_map, shownFigures, List.forall_mem_flatMap, hprevious, ← forall₂_and]
    refine forall_congr' fun key => ?_
    rw [mem_orderedKeys, clean_comparisonRow]
  have hfound : CleanBlocks (if sliceAt data "insights" = [] then []
        else [.heading 3 "주목할 변화",
          .table ["항목", "심각도", "변화", "현재", "이전", "권장 조치"] (rowsOf insightRow (sliceAt data "insights"))])
      ↔ ∀ v ∈ shownOf ["title", "severity", "current", "previous", "recommendation"] (sliceAt data "insights"),
        CleanValue v := by
    split
    · rename_i hnone
      rw [hnone]
      exact ⟨fun _ v hv => absurd hv List.not_mem_nil, fun _ => cleanBlocks_nil⟩
    · rw [cleanBlocks_own (by decide), cleanBlocks_cons, clean_rows (by decide), clean_rowsOf _ _ _ clean_insightRow]
      exact ⟨fun h => h.1, fun h => ⟨h, cleanBlocks_nil⟩⟩
  rw [comparisonBlocks, cleanBlocks_cons, clean_rows (by decide), hfigures, hfound, List.forall_mem_append, List.forall_mem_append]

/-- An empty text spoils nothing, on the page or not. -/
theorem clean_paragraphOf (text : Option String) : CleanBlocks (paragraphOf text) ↔ Clean (text.getD "") := by
  have hempty : Clean "" := by decide
  cases text with
  | none => exact ⟨fun _ => hempty, fun _ => cleanBlocks_nil⟩
  | some s =>
    show CleanBlocks (if s ≠ "" then [.paragraph s] else []) ↔ Clean s
    split
    · rw [cleanBlocks_cons, Block.texts, List.forall_mem_singleton]
      exact ⟨fun h => h.1, fun h => ⟨h, cleanBlocks_nil⟩⟩
    · rename_i hs
      rw [not_not.mp hs]
      exact ⟨fun _ => hempty, fun _ => cleanBlocks_nil⟩

/-- The visitor report. -/
theorem clean_visitorBlocks (data : Members) : CleanBlocks (visitorBlocks data)
    ↔ ∀ v ∈ .string ((asString (at_ data "headline")).getD "")
        :: shownOf ["label", "current", "previous"] (sliceAt data "kpis")
        ++ shownOf ["title", "severity", "evidence", "action"] (sliceAt data "findings"), CleanValue v := by
  have hfound : CleanBlocks (if sliceAt data "findings" = [] then []
        else [.heading 3 "발견", .table ["제목", "심각도", "근거", "조치"] (rowsOf findingRow (sliceAt data "findings"))])
      ↔ ∀ v ∈ shownOf ["title", "severity", "evidence", "action"] (sliceAt data "findings"), CleanValue v := by
    split
    · rename_i hnone
      rw [hnone]
      exact ⟨fun _ v hv => absurd hv List.not_mem_nil, fun _ => cleanBlocks_nil⟩
    · rw [cleanBlocks_own (by decide), cleanBlocks_cons, clean_rows (by decide), clean_rowsOf _ _ _ clean_findingRow]
      exact ⟨fun h => h.1, fun h => ⟨h, cleanBlocks_nil⟩⟩
  rw [visitorBlocks, cleanBlocks_append, clean_paragraphOf, cleanBlocks_cons, clean_rows (by decide),
    clean_rowsOf _ _ _ clean_kpiRow, hfound, List.forall_mem_append, List.forall_mem_cons, cleanValue_string, and_assoc]
  exact Iff.rfl

theorem orderedKeys_nil : orderedKeys [] = [] := by decide

/-- Keys are read from the first row; where no row is a map there are none. -/
theorem rowKeys_of_no_rows {data : Members} (h : (sliceAt data "rows").filterMap asMap = []) : rowKeys data = [] := by
  have hfirst : ((sliceAt data "rows").head?.bind asMap).getD [] = [] := by
    cases hrows : sliceAt data "rows" with
    | nil => rfl
    | cons item items =>
      rw [hrows, List.filterMap_eq_nil_iff] at h
      show (asMap item).getD [] = []
      rw [h item (by simp)]
      rfl
  rw [rowKeys, hfirst, orderedKeys_nil]
  rfl

/-- The table of a labelled report: its headers are shown where it has rows. -/
theorem clean_labelledTable (data : Members) :
    (∀ text ∈ (Block.table ("항목" :: (rowKeys data).map confluenceTitle)
        (rowsOf (fun row => sprint (at_ row "label") :: (rowKeys data).map fun key => confluenceNumber (at_ row key))
          (sliceAt data "rows"))).texts, Clean text)
      ↔ ∀ v ∈ (rowKeys data).map .string ++ shownOf ("label" :: rowKeys data) (sliceAt data "rows"), CleanValue v := by
  have hkeys : (∀ v ∈ (rowKeys data).map GoValue.string, CleanValue v)
      ↔ ∀ header ∈ (rowKeys data).map confluenceTitle, Clean header := by
    rw [List.forall_mem_map, List.forall_mem_map]
    exact forall₂_congr fun key _ => (cleanValue_string key).trans (clean_confluenceTitle key).symm
  have hrows := clean_rowsOf
    (fun row => sprint (at_ row "label") :: (rowKeys data).map fun key => confluenceNumber (at_ row key))
    (fun item => ("label" :: rowKeys data).map (at_ item)) (sliceAt data "rows") (by
      intro item
      rw [List.map_cons, List.forall_mem_cons, List.forall_mem_cons, List.forall_mem_map, List.forall_mem_map,
        clean_sprint]
      exact and_congr_right fun _ => forall₂_congr fun key _ => clean_confluenceNumber _)
  rw [List.forall_mem_append, hkeys, Block.texts]
  split
  · rename_i hnone
    rw [rowsOf_eq, List.map_eq_nil_iff] at hnone
    rw [rowKeys_of_no_rows hnone, shownOf, hnone]
    simp
  · rw [List.cons_append, List.forall_mem_cons, List.forall_mem_append, List.forall_mem_flatten, hrows]
    exact ⟨fun h => h.2, fun h => ⟨by decide, h⟩⟩

/-- The totals below it. -/
theorem clean_totals (totals : Option Members) :
    CleanBlocks (totalsBlocks totals) ↔ ∀ v ∈ shownTotals totals, CleanValue v := by
  cases totals with
  | none => exact ⟨fun _ v hv => absurd hv List.not_mem_nil, fun _ => cleanBlocks_nil⟩
  | some totals =>
    rw [totalsBlocks, shownTotals, cleanBlocks_own (by decide), cleanBlocks_cons, clean_rows (by decide), clean_figures,
      shownFigures_orderedKeys]
    exact ⟨fun h => h.1, fun h => ⟨h, cleanBlocks_nil⟩⟩

/-- Figures with labels. -/
theorem clean_labelledBlocks (data : Members) : CleanBlocks (labelledBlocks data)
    ↔ ∀ v ∈ (if sliceAt data "rows" = [] then []
      else
        (rowKeys data).map .string ++ shownOf ("label" :: rowKeys data) (sliceAt data "rows")
          ++ shownTotals (asMap (at_ data "totals"))), CleanValue v := by
  rw [labelledBlocks]
  split
  · exact ⟨fun _ v hv => absurd hv List.not_mem_nil, fun _ => (cleanBlocks_own (by decide) _).mpr cleanBlocks_nil⟩
  · rw [cleanBlocks_cons, clean_labelledTable, clean_totals, ← List.forall_mem_append]

/-- Figures by their keys. -/
theorem clean_figureBlocks (data : Members) : CleanBlocks (figureBlocks data)
    ↔ ∀ v ∈ shownFigures data (figureKeys data), CleanValue v := by
  have hnotice : CleanBlocks
      (if figureKeys data = [] then [.paragraph "이 리포트의 내용은 아래 원본에 있습니다."] else []) := by
    split
    · exact (cleanBlocks_own (by decide) _).mpr cleanBlocks_nil
    · exact cleanBlocks_nil
  rw [figureBlocks, cleanBlocks_append, cleanBlocks_cons, clean_rows (by decide), clean_figures]
  exact ⟨fun h => h.2.1, fun h => ⟨hnotice, h, cleanBlocks_nil⟩⟩

/-- **The report is spoilt by the texts it is printed from.** -/
theorem clean_dataBlocks (data : Option Members) :
    CleanBlocks (dataBlocks data) ↔ ∀ v ∈ shownData data, CleanValue v := by
  cases data with
  | none => exact ⟨fun _ v hv => absurd hv List.not_mem_nil, fun _ => (cleanBlocks_own (by decide) _).mpr cleanBlocks_nil⟩
  | some data =>
    rw [dataBlocks, shownData]
    split
    · exact clean_comparisonBlocks data
    split
    · exact clean_visitorBlocks data
    split
    · exact clean_labelledBlocks data
    · exact clean_figureBlocks data

theorem clean_periodDates (from_ to_ : Option Int) : ∀ part ∈ periodDates from_ to_, Clean part := by
  have hdate : ∀ t, Clean (String.ofList (formatDate t)) :=
    fun t => holds_ofList.mpr fun c hc => xml_of_plain c (plain_formatDate t c hc)
  unfold periodDates
  split
  · rw [List.forall_mem_singleton]
    exact clean_append.mpr ⟨clean_append.mpr ⟨hdate _, by decide⟩, hdate _⟩
  · exact fun _ hpart => absurd hpart List.not_mem_nil

theorem clean_periodText {name : String} (hname : Clean name) (value : String → String) (text : Option String) :
    (∀ part ∈ periodText name value text, Clean part) ↔ ∀ v ∈ shownText value text, CleanValue v := by
  cases text with
  | none => simp [periodText, shownText]
  | some s =>
    rw [periodText, shownText]
    split
    · rw [List.forall_mem_singleton, List.forall_mem_singleton, cleanValue_string, clean_append]
      exact ⟨fun h => h.2, fun h => ⟨hname, h⟩⟩
    · simp

/-- The line that says what the report is about. -/
theorem clean_period (env : Platform) (payload : Members) :
    CleanBlocks (if period env payload = [] then [] else [.paragraph (" · ".intercalate (period env payload))])
      ↔ ∀ v ∈ shownText env.toUpper (asString (at_ payload "environment"))
          ++ shownText id (asString (at_ payload "site_id")), CleanValue v := by
  have hparts : (∀ part ∈ period env payload, Clean part)
      ↔ ∀ v ∈ shownText env.toUpper (asString (at_ payload "environment"))
          ++ shownText id (asString (at_ payload "site_id")), CleanValue v := by
    rw [period, List.forall_mem_append, List.forall_mem_append, clean_periodText (by decide),
      clean_periodText (by decide), List.forall_mem_append]
    exact ⟨fun h => ⟨h.1.2, h.2⟩, fun h => ⟨⟨clean_periodDates _ _, h.1⟩, h.2⟩⟩
  rw [← hparts]
  split
  · rename_i hnone
    rw [hnone]
    exact ⟨fun _ part hpart => absurd hpart List.not_mem_nil, fun _ => cleanBlocks_nil⟩
  · have hseparator : Holds isXmlChar " · " := by decide
    rw [cleanBlocks_cons, Block.texts, List.forall_mem_singleton, Clean, holds_intercalate hseparator]
    exact ⟨fun h => h.1, fun h => ⟨h, cleanBlocks_nil⟩⟩

theorem plain_unicodeEscape {c : Char} (h : c.toNat < 0x20 ∨ c ∈ ['<', '>', '&', '\u2028', '\u2029']) :
    ∀ d ∈ unicodeEscape c, isPlain d = true := by
  have hdigits : ∀ n < 0x20, (Nat.toDigits 16 n).all isPlain = true := by decide
  obtain hcontrol | hmark := h
  · exact plain_cons rfl (plain_cons rfl (plain_append (plain_zeros _) (plain_all (hdigits _ hcontrol))))
  · simp only [List.mem_cons, List.not_mem_nil, or_false] at hmark
    obtain rfl | rfl | rfl | rfl | rfl := hmark <;> exact plain_all (by decide)

/-- A character is escaped, or stands as it is. -/
theorem escapeJson_cases (c : Char) :
    (∀ d ∈ escapeJson c, isPlain d = true) ∧ isCharacter c = true ∨ escapeJson c = [c] ∧ 0x20 ≤ c.toNat := by
  by_cases hquote : c = '"' ∨ c = '\\'
  · obtain rfl | rfl := hquote <;> exact Or.inl ⟨plain_all (by decide), by decide⟩
  by_cases hbreak : c = '\x08' ∨ c = '\x0C' ∨ c = '\n' ∨ c = '\r' ∨ c = '\t'
  · obtain rfl | rfl | rfl | rfl | rfl := hbreak <;> exact Or.inl ⟨plain_all (by decide), by decide⟩
  rw [not_or] at hquote
  simp only [not_or] at hbreak
  obtain ⟨hb, hf, hn, hr, ht⟩ := hbreak
  have heq : escapeJson c = if c.toNat < 0x20 ∨ c ∈ ['<', '>', '&', '\u2028', '\u2029'] then unicodeEscape c else [c] := by
    rw [escapeJson, if_neg (not_or.mpr hquote), if_neg hb, if_neg hf, if_neg hn, if_neg hr, if_neg ht]
  rw [heq]
  split
  · rename_i hescaped
    left
    refine ⟨plain_unicodeEscape hescaped, ?_⟩
    obtain hcontrol | hmark := hescaped
    · -- no control is one of the two
      simp only [isCharacter, Bool.and_eq_true, decide_eq_true_eq]
      refine ⟨fun hc => ?_, fun hc => ?_⟩
      · rw [hc] at hcontrol
        exact absurd hcontrol (by decide)
      · rw [hc] at hcontrol
        exact absurd hcontrol (by decide)
    · simp only [List.mem_cons, List.not_mem_nil, or_false] at hmark
      obtain rfl | rfl | rfl | rfl | rfl := hmark <;> decide
  · rename_i hplain
    rw [not_or, Nat.not_lt] at hplain
    exact .inr ⟨rfl, hplain.1⟩

/-- From the blank on, XML forbids two characters. -/
theorem isXmlChar_eq {c : Char} (h : 0x20 ≤ c.toNat) : isXmlChar c = isCharacter c := by
  have hvalid : c.toNat < 0xD800 ∨ (0xDFFF < c.toNat ∧ c.toNat < 0x110000) := c.valid
  have hfffe : c = '\uFFFE' ↔ c.toNat = 0xFFFE := Char.toNat_inj.symm
  have hffff : c = '\uFFFF' ↔ c.toNat = 0xFFFF := Char.toNat_inj.symm
  rw [Bool.eq_iff_iff]
  simp only [isXmlChar, isCharacter, Bool.or_eq_true, Bool.and_eq_true, decide_eq_true_eq, ne_eq, hfffe, hffff]
  omega

/-- **What JSON does not escape**: of the characters XML forbids, the two that are none. -/
theorem keeps_isXmlChar (c : Char) : keeps isXmlChar c = isCharacter c := by
  unfold keeps
  obtain ⟨hplain, hchar⟩ | ⟨hself, hblank⟩ := escapeJson_cases c
  · rw [hchar, List.all_eq_true]
    exact fun d hd => xml_of_plain d (hplain d hd)
  · rw [hself, List.all_cons, List.all_nil, Bool.and_true]
    exact isXmlChar_eq hblank

theorem clean_attachment (p : Payload) : (∀ text ∈ (attachment p.members).texts, Clean text)
    ↔ (encodable p.value = true →
      Clean ((asString (at_ p.members "kind")).getD "") ∧ ∀ s ∈ strings p.value, Holds isCharacter s) := by
  have hkeeps : keeps isXmlChar = isCharacter := funext keeps_isXmlChar
  have hencodes := encodes xml_of_plain (by decide) 0 p.value p.valid
  unfold attachment marshalIndent
  change Encodes isXmlChar _ _ _ (encode 0 (.map .any p.members)) at hencodes
  cases hraw : encode 0 (.map .any p.members) with
  | ok raw =>
    rw [hraw] at hencodes
    obtain ⟨hencodable, hdocument⟩ := hencodes
    rw [hkeeps] at hdocument
    show (∀ text ∈ [_, raw], Clean text) ↔ _
    rw [List.forall_mem_cons, List.forall_mem_singleton, clean_append, clean_append]
    constructor
    · intro h _
      exact ⟨h.1.1.2, hdocument.mp h.2⟩
    · intro h
      obtain ⟨hkind, htexts⟩ := h hencodable
      exact ⟨⟨⟨by decide, hkind⟩, by decide⟩, hdocument.mpr htexts⟩
  | error message =>
    rw [hraw] at hencodes
    obtain ⟨hencodable, hmessage⟩ := hencodes
    show (∀ text ∈ [_], Clean text) ↔ _
    rw [List.forall_mem_singleton, clean_append]
    constructor
    · intro _ h
      rw [hencodable] at h
      cases h
    · intro _
      exact ⟨by decide, hmessage.of_plain xml_of_plain⟩

/-- **Which texts a page can be spoilt by.** -/
theorem clean_blocks_iff (env : Platform) (p : Payload) :
    CleanBlocks (confluenceBlocks env p.members) ↔ CleanPayload env p := by
  have hreport : CleanPayload env p ↔ (∀ v ∈ shown env p.members, CleanValue v)
      ∧ (encodable p.value = true →
        Clean ((asString (at_ p.members "kind")).getD "") ∧ ∀ s ∈ strings p.value, Holds isCharacter s) :=
    ⟨fun h => ⟨h.report, h.document⟩, fun h => ⟨h.1, h.2⟩⟩
  have hlast : CleanBlocks [attachment p.members] ↔ ∀ text ∈ (attachment p.members).texts, Clean text := by
    rw [cleanBlocks_cons]
    exact ⟨fun h => h.1, fun h => ⟨h, cleanBlocks_nil⟩⟩
  have hshown : (∀ v ∈ shown env p.members, CleanValue v)
      ↔ Clean ((asString (at_ p.members "name")).getD "")
        ∧ (∀ v ∈ shownText env.toUpper (asString (at_ p.members "environment"))
          ++ shownText id (asString (at_ p.members "site_id")), CleanValue v)
        ∧ ∀ v ∈ shownData (asMap (at_ p.members "data")), CleanValue v := by
    rw [shown, List.forall_mem_cons, cleanValue_string, List.forall_mem_append]
  rw [hreport, hshown, confluenceBlocks, cleanBlocks_append, hlast, clean_attachment, cleanBlocks_append,
    cleanBlocks_cons, Block.texts, List.forall_mem_singleton, clean_period, clean_dataBlocks]
  exact and_congr_left fun _ => and_assoc

/-! ## §4. What one shape has in common. -/

/-- Two members of maps of one shape. -/
structure Alike (m n : String × GoValue) : Prop where
  name : SameName m.1 n.1
  optional : m.1 ∈ optionalNames → isBlank m.2 = isBlank n.2
  value : SameShape m.2 n.2

/-- The members of maps of one shape. -/
def SameMembers (ms ns : Members) : Prop := ∃ ns' : Members, ns'.Perm ns ∧ List.Forall₂ Alike ms ns'

theorem sameMembers_nil : SameMembers [] [] := ⟨[], List.Perm.refl _, List.Forall₂.nil⟩

theorem SameShape.items {e : Declared} {vs : List GoValue} {w : GoValue} (h : SameShape (.slice e vs) w) :
    ∃ ws, w = .slice e ws ∧ List.Forall₂ SameShape vs ws := by
  induction vs generalizing w with
  | nil =>
    cases h
    exact ⟨[], rfl, List.Forall₂.nil⟩
  | cons v vs ih =>
    cases h with
    | sliceCons hhead htail =>
      obtain ⟨ws, hws, hall⟩ := ih htail
      obtain ⟨-, rfl⟩ := GoValue.slice.inj hws
      exact ⟨_, rfl, List.Forall₂.cons hhead hall⟩

theorem SameShape.members {e : Declared} {ms : Members} {w : GoValue} (h : SameShape (.map e ms) w) :
    ∃ ns, w = .map e ns ∧ SameMembers ms ns := by
  induction ms generalizing w with
  | nil =>
    cases h
    exact ⟨[], rfl, sameMembers_nil⟩
  | cons m ms ih =>
    cases h with
    | mapCons hname hoptional hhead htail horder =>
      obtain ⟨ns, hns, ns', hperm, hall⟩ := ih htail
      obtain ⟨-, rfl⟩ := GoValue.map.inj hns
      exact ⟨_, rfl, _, (hperm.cons _).trans horder, List.Forall₂.cons ⟨hname, hoptional, hhead⟩ hall⟩

theorem encodableMembers_eq_all (ms : Members) : encodableMembers ms = ms.all fun m => encodable m.2 := by
  induction ms with
  | nil => rfl
  | cons m ms ih =>
    obtain ⟨key, v⟩ := m
    rw [encodableMembers, List.all_cons, ih]

/-- JSON has a notation for both or for neither. -/
theorem SameShape.encodable_eq {v w : GoValue} (h : SameShape v w) : encodable v = encodable w := by
  induction h with
  | nil => rfl
  | bool a b => rfl
  | int a b => rfl
  | int64 a b => rfl
  | float64 h => exact h
  | string s t => rfl
  | time h => exact h
  | uuid s t => rfl
  | sliceNil e => rfl
  | sliceCons hhead htail ihhead ihtail =>
    rw [encodable, encodable] at ihtail
    rw [encodable, encodable, encodableItems, encodableItems, ihhead, ihtail]
  | mapNil e => rfl
  | mapCons hname hoptional hhead htail horder ihhead ihtail =>
    rw [encodable, encodable] at ihtail
    rw [encodable, encodable, encodableMembers, ihhead, ihtail, encodableMembers_eq_all, encodableMembers_eq_all,
      ← horder.all_eq, List.all_cons]
  | recordNil omitempty => rfl
  | recordCons hhead htail ihhead ihtail =>
    rw [encodable, encodable] at ihtail
    rw [encodable, encodable, encodableMembers, encodableMembers, ihhead, ihtail]

theorem exists_partner {α β : Type} {R : α → β → Prop} {l : List α} {l' : List β} (h : List.Forall₂ R l l') {a : α}
    (ha : a ∈ l) : ∃ b ∈ l', R a b := by
  induction h with
  | nil => cases ha
  | cons hab hrest ih =>
    obtain rfl | hmore := List.mem_cons.mp ha
    · exact ⟨_, List.mem_cons_self, hab⟩
    · obtain ⟨b, hb, hR⟩ := ih hmore
      exact ⟨b, List.mem_cons_of_mem _ hb, hR⟩

theorem sameName_field {k l : String} (h : SameName k l) (hfield : k ∈ fieldNames ∨ l ∈ fieldNames) : k = l := by
  obtain rfl | ⟨hk, hl⟩ := h
  · rfl
  · exact (hfield.elim hk hl).elim

/-- **What stands under a key the page looks for.** -/
theorem SameMembers.at {ms ns : Members} (h : SameMembers ms ns) (hms : ValidMap ms) (hns : ValidMap ns) {f : String}
    (hf : f ∈ fieldNames) :
    SameShape (at_ ms f) (at_ ns f) ∧ (f ∈ optionalNames → isBlank (at_ ms f) = isBlank (at_ ns f)) := by
  obtain ⟨ns', hperm, hall⟩ := h
  by_cases hmem : f ∈ ms.map Prod.fst
  · obtain ⟨⟨k, v⟩, hkv, rfl⟩ := List.mem_map.mp hmem
    obtain ⟨⟨l, w⟩, hlw, hname, hoptional, hvalue⟩ := exists_partner hall hkv
    obtain rfl : k = l := sameName_field hname (.inl hf)
    rw [at_of_mem hms.nodup hkv, at_of_mem hns.nodup (hperm.mem_iff.mp hlw)]
    exact ⟨hvalue, hoptional⟩
  · -- a member of the other map would have its partner here
    have hnot : f ∉ ns.map Prod.fst := by
      intro hfn
      obtain ⟨⟨l, w⟩, hlw, rfl⟩ := List.mem_map.mp hfn
      obtain ⟨⟨k, v⟩, hkv, hname, -, -⟩ := exists_partner hall.flip (hperm.mem_iff.mpr hlw)
      obtain rfl : k = l := sameName_field hname (.inr hf)
      exact hmem (List.mem_map.mpr ⟨(k, v), hkv, rfl⟩)
    rw [at_of_not_mem hmem, at_of_not_mem hnot]
    exact ⟨.nil, fun _ => rfl⟩

theorem SameMembers.countP_eq {ms ns : Members} (h : SameMembers ms ns) {P Q : String × GoValue → Bool}
    (hPQ : ∀ m n, Alike m n → P m = Q n) : ms.countP P = ns.countP Q := by
  obtain ⟨ns', hperm, hall⟩ := h
  rw [← hperm.countP_eq]
  clear hperm
  induction hall with
  | nil => rfl
  | cons hmn hrest ih => rw [List.countP_cons, List.countP_cons, ih, hPQ _ _ hmn]

theorem SameMembers.length_eq {ms ns : Members} (h : SameMembers ms ns) : ms.length = ns.length := by
  obtain ⟨ns', hperm, hall⟩ := h
  rw [← hperm.length_eq, hall.length_eq]

theorem SameShape.present_eq {v w : GoValue} (h : SameShape v w) : v.present = w.present := by cases h <;> rfl

theorem SameShape.asSlice {v w : GoValue} (h : SameShape v w) :
    Option.Rel (List.Forall₂ SameShape) (asSlice v) (asSlice w) := by
  cases v with
  | slice e vs =>
    obtain ⟨ws, rfl, hall⟩ := h.items
    cases e with
    | any => exact .some hall
    | typed => exact .none
  | _ => cases h <;> exact .none

theorem SameShape.asMap {v w : GoValue} (h : SameShape v w) : Option.Rel SameMembers (asMap v) (asMap w) := by
  cases v with
  | map e ms =>
    obtain ⟨ns, rfl, hall⟩ := h.members
    cases e with
    | any => exact .some hall
    | typed => exact .none
  | _ => cases h <;> exact .none

theorem SameMembers.asMap_at {ms ns : Members} (h : SameMembers ms ns) (hms : ValidMap ms) (hns : ValidMap ns)
    {f : String} (hf : f ∈ fieldNames) : Option.Rel SameMembers (asMap (at_ ms f)) (asMap (at_ ns f)) :=
  (h.at hms hns hf).1.asMap

theorem sameMembers_getD {x y : Option Members} (h : Option.Rel SameMembers x y) : SameMembers (x.getD []) (y.getD []) := by
  cases h with
  | some h => exact h
  | none => exact sameMembers_nil

theorem SameMembers.mapAt {ms ns : Members} (h : SameMembers ms ns) (hms : ValidMap ms) (hns : ValidMap ns)
    {f : String} (hf : f ∈ fieldNames) : SameMembers (mapAt ms f) (mapAt ns f) :=
  sameMembers_getD (h.asMap_at hms hns hf)

theorem SameMembers.sliceAt {ms ns : Members} (h : SameMembers ms ns) (hms : ValidMap ms) (hns : ValidMap ns)
    {f : String} (hf : f ∈ fieldNames) : List.Forall₂ SameShape (sliceAt ms f) (sliceAt ns f) := by
  have hrel := (h.at hms hns hf).1.asSlice
  unfold Automation.sliceAt
  generalize GoValue.asSlice (at_ ms f) = x at hrel
  generalize GoValue.asSlice (at_ ns f) = y at hrel
  cases hrel with
  | some h => exact h
  | none => exact List.Forall₂.nil

theorem SameMembers.present_eq {ms ns : Members} (h : SameMembers ms ns) (hms : ValidMap ms) (hns : ValidMap ns)
    {f : String} (hf : f ∈ fieldNames) : (at_ ms f).present = (at_ ns f).present :=
  (h.at hms hns hf).1.present_eq

/-- **A text that is left out is left out of both.** -/
theorem SameMembers.asString_at {ms ns : Members} (h : SameMembers ms ns) (hms : ValidMap ms) (hns : ValidMap ns)
    {f : String} (hf : f ∈ fieldNames) (hoptional : f ∈ optionalNames) :
    Option.Rel (fun s t : String => s = "" ↔ t = "") (asString (at_ ms f)) (asString (at_ ns f)) := by
  obtain ⟨hshape, hblank⟩ := h.at hms hns hf
  have hsame := hblank hoptional
  generalize at_ ms f = v at hshape hsame
  generalize at_ ns f = w at hshape hsame
  cases hshape with
  | string s t =>
    refine .some ?_
    rw [isBlank, isBlank, decide_eq_decide] at hsame
    exact hsame
  | _ => exact .none

theorem SameMembers.asTime_at {ms ns : Members} (h : SameMembers ms ns) (hms : ValidMap ms) (hns : ValidMap ns)
    {f : String} (hf : f ∈ fieldNames) :
    Option.Rel (fun _ _ : Int => True) (asTime (at_ ms f)) (asTime (at_ ns f)) := by
  obtain ⟨hshape, -⟩ := h.at hms hns hf
  generalize at_ ms f = v at hshape
  generalize at_ ns f = w at hshape
  cases hshape with
  | time hfits => exact .some trivial
  | _ => exact .none

/-! ## §5. The keys of the figures. -/

/-- The keys in order are the keys. -/
theorem orderedKeys_perm {values : Members} (hnodup : (values.map Prod.fst).Nodup) :
    (orderedKeys values).Perm (values.map Prod.fst) := by
  have hfirst : (confluenceOrder.filter fun key => (values.lookup key).isSome).Nodup :=
    List.Nodup.filter _ (by decide)
  have hall : (orderedKeys values).Nodup := by
    unfold orderedKeys
    refine List.Nodup.append hfirst (hnodup.filter _) ?_
    intro key hkey hrest
    have hnot := (List.mem_filter.mp hrest).2
    rw [decide_eq_true_eq] at hnot
    exact hnot hkey
  exact (List.perm_ext_iff_of_nodup hall hnodup).mpr fun _ => mem_orderedKeys

theorem length_orderedKeys {values : Members} (hnodup : (values.map Prod.fst).Nodup) :
    (orderedKeys values).length = values.length := by
  rw [(orderedKeys_perm hnodup).length_eq, List.length_map]

theorem length_filter_orderedKeys {values : Members} (hnodup : (values.map Prod.fst).Nodup) (p : String → Bool) :
    ((orderedKeys values).filter p).length = values.countP fun m => p m.1 := by
  rw [((orderedKeys_perm hnodup).filter p).length_eq, ← List.countP_eq_length_filter, List.countP_map]
  rfl

/-- The figures of one shape are as many. -/
theorem SameMembers.length_orderedKeys {ms ns : Members} (h : SameMembers ms ns) (hms : ValidMap ms)
    (hns : ValidMap ns) : (orderedKeys ms).length = (orderedKeys ns).length := by
  rw [Automation.length_orderedKeys hms.nodup, Automation.length_orderedKeys hns.nodup, h.length_eq]

theorem isNone_eq_of_rel {α β : Type} {R : α → β → Prop} {x : Option α} {y : Option β} (h : Option.Rel R x y) :
    x.isNone = y.isNone := by
  cases h <;> rfl

theorem SameMembers.length_figureKeys {ms ns : Members} (h : SameMembers ms ns) (hms : ValidMap ms)
    (hns : ValidMap ns) : (figureKeys ms).length = (figureKeys ns).length := by
  have hcount : ∀ {values : Members}, ValidMap values → (figureKeys values).length
      = values.countP fun m => (GoValue.asSlice m.2).isNone && (GoValue.asMap m.2).isNone := by
    intro values hvalues
    rw [figureKeys, length_filter_orderedKeys hvalues.nodup]
    refine List.countP_congr fun m hm => ?_
    obtain ⟨key, v⟩ := m
    rw [at_of_mem hvalues.nodup hm]
  rw [hcount hms, hcount hns]
  refine h.countP_eq fun m n hmn => ?_
  rw [isNone_eq_of_rel hmn.value.asSlice, isNone_eq_of_rel hmn.value.asMap]

/-! ## §6. Pages of one shape. -/

/-- Rows with as many cells. -/
abbrev SameRows : List (List String) → List (List String) → Prop :=
  List.Forall₂ fun row row' => row.length = row'.length

/-- Blocks that differ in their texts. -/
inductive SameBlock : Block → Block → Prop
  | heading (level : ℕ) (s t : String) : SameBlock (.heading level s) (.heading level t)
  | paragraph (s t : String) : SameBlock (.paragraph s) (.paragraph t)
  | table {headers headers' : List String} {rows rows' : List (List String)}
      (columns : headers.length = headers'.length) (cells : SameRows rows rows') :
      SameBlock (.table headers rows) (.table headers' rows')
  | expand (s s' t t' : String) : SameBlock (.expand s t) (.expand s' t')

/-- Block for block the same structure. -/
abbrev SameBlocks : List Block → List Block → Prop := List.Forall₂ SameBlock

theorem tagsOf_textEvents (s : String) : tagsOf (textEvents s) = [] := tagsOf_chars s.toList

theorem tagsOf_tagged (tag : String) (es : List Event) : tagsOf (tagged tag es) = tagged tag (tagsOf es) :=
  tagsOf_element _ _ es

theorem tagsOf_named (tag name : String) (es : List Event) : tagsOf (named tag name es) = named tag name (tagsOf es) :=
  tagsOf_element _ _ es

/-- So many empty cells. -/
theorem tagsOf_cellEvents (tag : String) (texts : List String) :
    tagsOf (cellEvents tag texts) = texts.flatMap fun _ => tagged tag [] := by
  rw [cellEvents, tagsOf_flatMap]
  refine List.flatMap_congr fun text _ => ?_
  rw [tagsOf_tagged, tagsOf_textEvents]

theorem flatMap_const {α β γ : Type} {l : List α} {l' : List β} (h : l.length = l'.length) (c : List γ) :
    (l.flatMap fun _ => c) = l'.flatMap fun _ => c := by
  induction l generalizing l' with
  | nil => rw [List.eq_nil_of_length_eq_zero h.symm, List.flatMap_nil, List.flatMap_nil]
  | cons a l ih =>
    cases l' with
    | nil => cases h
    | cons b l' => rw [List.flatMap_cons, List.flatMap_cons, ih (Nat.succ.inj h)]

/-- Rows of as many cells have the same tags. -/
theorem tagsOf_rows {rows rows' : List (List String)} (h : SameRows rows rows') :
    tagsOf (rows.flatMap fun row => tagged "tr" (cellEvents "td" row))
      = tagsOf (rows'.flatMap fun row => tagged "tr" (cellEvents "td" row)) := by
  induction h with
  | nil => rfl
  | cons hrow hrest ih =>
    rw [List.flatMap_cons, List.flatMap_cons, tagsOf_append, tagsOf_append, ih, tagsOf_tagged, tagsOf_tagged,
      tagsOf_cellEvents, tagsOf_cellEvents, flatMap_const hrow]

/-- **Texts do not show in the tags.** -/
theorem SameBlock.tags_eq {b c : Block} (h : SameBlock b c) : tagsOf b.events = tagsOf c.events := by
  cases h with
  | heading level s t =>
    rw [Block.events, Block.events, tagsOf_tagged, tagsOf_tagged, tagsOf_textEvents, tagsOf_textEvents]
  | paragraph s t =>
    rw [Block.events, Block.events, tagsOf_tagged, tagsOf_tagged, tagsOf_textEvents, tagsOf_textEvents]
  | expand s s' t t' =>
    simp only [Block.events, expandEvents, tagsOf_named, tagsOf_append, tagsOf_tagged, tagsOf_textEvents]
  | table hcolumns hrows =>
    rename_i headers headers' rows rows'
    have hempty : rows = [] ↔ rows' = [] := by
      rw [← List.length_eq_zero_iff, ← List.length_eq_zero_iff, hrows.length_eq]
    rw [Block.events, Block.events, tableEvents, tableEvents]
    by_cases hnone : rows = []
    · rw [if_pos hnone, if_pos (hempty.mp hnone)]
    · rw [if_neg hnone, if_neg (mt hempty.mpr hnone)]
      simp only [tagsOf_tagged, tagsOf_append, tagsOf_cellEvents]
      rw [tagsOf_rows hrows, flatMap_const hcolumns]

theorem tagsOf_blocks {bs cs : List Block} (h : SameBlocks bs cs) :
    tagsOf (bs.flatMap Block.events) = tagsOf (cs.flatMap Block.events) := by
  induction h with
  | nil => rfl
  | cons hb hrest ih => rw [List.flatMap_cons, List.flatMap_cons, tagsOf_append, tagsOf_append, ih, hb.tags_eq]

/-- Rows of one length, of as many keys or items. -/
theorem sameRows_map {α : Type} {l l' : List α} (hlength : l.length = l'.length) {f g : α → List String} {n : ℕ}
    (hf : ∀ a, (f a).length = n) (hg : ∀ a, (g a).length = n) : SameRows (l.map f) (l'.map g) := by
  induction l generalizing l' with
  | nil =>
    rw [List.eq_nil_of_length_eq_zero hlength.symm]
    exact List.Forall₂.nil
  | cons a l ih =>
    cases l' with
    | nil => cases hlength
    | cons b l' => exact List.Forall₂.cons ((hf a).trans (hg b).symm) (ih (Nat.succ.inj hlength))

theorem length_filterMap_asMap {items items' : List GoValue} (h : List.Forall₂ SameShape items items') :
    (items.filterMap asMap).length = (items'.filterMap asMap).length := by
  induction h with
  | nil => rfl
  | cons hhead hrest ih =>
    rename_i v w vs ws
    have hsame := hhead.asMap
    rw [List.filterMap_cons, List.filterMap_cons]
    generalize GoValue.asMap v = x at hsame
    generalize GoValue.asMap w = y at hsame
    cases hsame with
    | none => exact ih
    | some hms => exact congrArg Nat.succ ih

theorem sameRows_rowsOf {items items' : List GoValue} (h : List.Forall₂ SameShape items items')
    {f g : Members → List String} {n : ℕ} (hf : ∀ a, (f a).length = n) (hg : ∀ a, (g a).length = n) :
    SameRows (rowsOf f items) (rowsOf g items') := by
  rw [rowsOf_eq, rowsOf_eq]
  exact sameRows_map (length_filterMap_asMap h) hf hg

/-- No blocks. -/
theorem sameBlocks_nil : SameBlocks [] [] := List.Forall₂.nil

/-- One after the other. -/
theorem SameBlocks.append {bs bs' cs cs' : List Block} (hb : SameBlocks bs bs') (hc : SameBlocks cs cs') :
    SameBlocks (bs ++ cs) (bs' ++ cs') :=
  List.rel_append hb hc

theorem nil_iff_of_forall₂ {α β : Type} {R : α → β → Prop} {l : List α} {l' : List β} (h : List.Forall₂ R l l') :
    l = [] ↔ l' = [] := by
  rw [← List.length_eq_zero_iff, ← List.length_eq_zero_iff, h.length_eq]

/-- A section that is there where its items are. -/
theorem sameBlocks_section {items items' : List GoValue} (h : List.Forall₂ SameShape items items')
    {row : Members → List String} {n : ℕ} (hrow : ∀ a, (row a).length = n) (title : String) (headers : List String) :
    SameBlocks (if items = [] then [] else [.heading 3 title, .table headers (rowsOf row items)])
      (if items' = [] then [] else [.heading 3 title, .table headers (rowsOf row items')]) := by
  by_cases hnone : items = []
  · rw [if_pos hnone, if_pos ((nil_iff_of_forall₂ h).mp hnone)]
    exact sameBlocks_nil
  · rw [if_neg hnone, if_neg (mt (nil_iff_of_forall₂ h).mpr hnone)]
    exact .cons (.heading 3 title title) (.cons (.table rfl (sameRows_rowsOf h hrow hrow)) .nil)

section
variable {data data' : Members} (h : SameMembers data data') (hdata : ValidMap data) (hdata' : ValidMap data')
include h hdata hdata'

theorem sameBlocks_comparison : SameBlocks (comparisonBlocks data) (comparisonBlocks data') := by
  have hcurrent : SameMembers (mapAt data "current") (mapAt data' "current") := h.mapAt hdata hdata' (by decide)
  have hkeys := hcurrent.length_orderedKeys (validMap_asMap (valid_at hdata _)) (validMap_asMap (valid_at hdata' _))
  have hinsights : List.Forall₂ SameShape (sliceAt data "insights") (sliceAt data' "insights") :=
    h.sliceAt hdata hdata' (by decide)
  refine .cons (.table rfl (sameRows_map hkeys (n := 4) (fun _ => rfl) fun _ => rfl)) ?_
  exact sameBlocks_section hinsights (n := 6) (fun _ => rfl) _ _

theorem sameBlocks_visitor : SameBlocks (visitorBlocks data) (visitorBlocks data') := by
  have hkpis : List.Forall₂ SameShape (sliceAt data "kpis") (sliceAt data' "kpis") :=
    h.sliceAt hdata hdata' (by decide)
  have hfindings : List.Forall₂ SameShape (sliceAt data "findings") (sliceAt data' "findings") :=
    h.sliceAt hdata hdata' (by decide)
  have hheadline := h.asString_at hdata hdata' (f := "headline") (by decide) (by decide)
  refine SameBlocks.append ?_ (.cons (.table rfl (sameRows_rowsOf hkpis (n := 4) (fun _ => rfl) fun _ => rfl)) ?_)
  · generalize asString (at_ data "headline") = x at hheadline
    generalize asString (at_ data' "headline") = y at hheadline
    cases hheadline with
    | none => exact sameBlocks_nil
    | some hst =>
      rename_i s t
      show SameBlocks (if s ≠ "" then [.paragraph s] else []) (if t ≠ "" then [.paragraph t] else [])
      by_cases hs : s = ""
      · rw [if_neg (not_not.mpr hs), if_neg (not_not.mpr (hst.mp hs))]
        exact sameBlocks_nil
      · rw [if_pos hs, if_pos (mt hst.mpr hs)]
        exact .cons (.paragraph s t) .nil
  · exact sameBlocks_section hfindings (n := 4) (fun _ => rfl) _ _

/-- The columns of a labelled report are as many. -/
theorem length_rowKeys : (rowKeys data).length = (rowKeys data').length := by
  have hrows : List.Forall₂ SameShape (sliceAt data "rows") (sliceAt data' "rows") :=
    h.sliceAt hdata hdata' (by decide)
  have hvalid : validItems (sliceAt data "rows") = true := validItems_sliceAt hdata _
  have hvalid' : validItems (sliceAt data' "rows") = true := validItems_sliceAt hdata' _
  have hcount : ∀ {values : Members}, ValidMap values → ((orderedKeys values).filter (· ≠ "label")).length
      = values.countP fun m => m.1 ≠ "label" :=
    fun hvalues => length_filter_orderedKeys hvalues.nodup _
  unfold rowKeys
  generalize sliceAt data "rows" = items at hrows hvalid
  generalize sliceAt data' "rows" = items' at hrows hvalid'
  cases hrows with
  | nil => rfl
  | cons hhead hrest =>
    rename_i v w vs ws
    rw [validItems, Bool.and_eq_true] at hvalid hvalid'
    have hsame := sameMembers_getD hhead.asMap
    show ((orderedKeys ((GoValue.asMap v).getD [])).filter (· ≠ "label")).length
      = ((orderedKeys ((GoValue.asMap w).getD [])).filter (· ≠ "label")).length
    rw [hcount (validMap_asMap hvalid.1), hcount (validMap_asMap hvalid'.1)]
    refine hsame.countP_eq fun m n hmn => ?_
    rw [decide_eq_decide]
    constructor
    · intro hm hn
      exact hm ((sameName_field hmn.name (.inr (by rw [hn]; decide))).trans hn)
    · intro hn hm
      exact hn ((sameName_field hmn.name (.inl (by rw [hm]; decide))).symm.trans hm)

theorem sameBlocks_labelled : SameBlocks (labelledBlocks data) (labelledBlocks data') := by
  have hrows : List.Forall₂ SameShape (sliceAt data "rows") (sliceAt data' "rows") :=
    h.sliceAt hdata hdata' (by decide)
  have hkeys := length_rowKeys h hdata hdata'
  have htotals := h.asMap_at hdata hdata' (f := "totals") (by decide)
  have hvalid : ValidMap ((asMap (at_ data "totals")).getD []) := validMap_asMap (valid_at hdata _)
  have hvalid' : ValidMap ((asMap (at_ data' "totals")).getD []) := validMap_asMap (valid_at hdata' _)
  unfold labelledBlocks
  by_cases hnone : sliceAt data "rows" = []
  · rw [if_pos hnone, if_pos ((nil_iff_of_forall₂ hrows).mp hnone)]
    exact .cons (.paragraph _ _) .nil
  · rw [if_neg hnone, if_neg (mt (nil_iff_of_forall₂ hrows).mpr hnone)]
    refine .cons (.table ?_ (sameRows_rowsOf hrows (n := (rowKeys data).length + 1) ?_ ?_)) ?_
    · rw [List.length_cons, List.length_cons, List.length_map, List.length_map, hkeys]
    · intro row
      rw [List.length_cons, List.length_map]
    · intro row
      rw [List.length_cons, List.length_map, hkeys]
    · generalize asMap (at_ data "totals") = x at htotals hvalid
      generalize asMap (at_ data' "totals") = y at htotals hvalid'
      cases htotals with
      | none => exact sameBlocks_nil
      | some hsame =>
        refine .cons (.heading 3 _ _) (.cons (.table rfl ?_) .nil)
        exact sameRows_map (hsame.length_orderedKeys hvalid hvalid') (n := 2) (fun _ => rfl) fun _ => rfl

theorem sameBlocks_figures : SameBlocks (figureBlocks data) (figureBlocks data') := by
  have hkeys := h.length_figureKeys hdata hdata'
  have hempty : figureKeys data = [] ↔ figureKeys data' = [] := by
    rw [← List.length_eq_zero_iff, ← List.length_eq_zero_iff, hkeys]
  refine SameBlocks.append ?_ (.cons (.table rfl (sameRows_map hkeys (n := 2) (fun _ => rfl) fun _ => rfl)) .nil)
  by_cases hnone : figureKeys data = []
  · rw [if_pos hnone, if_pos (hempty.mp hnone)]
    exact .cons (.paragraph _ _) .nil
  · rw [if_neg hnone, if_neg (mt hempty.mpr hnone)]
    exact sameBlocks_nil

end

/-- Payloads of one shape make the same blocks. -/
theorem sameBlocks_dataBlocks {x y : Option Members} (h : Option.Rel SameMembers x y) (hx : ValidMap (x.getD []))
    (hy : ValidMap (y.getD [])) : SameBlocks (dataBlocks x) (dataBlocks y) := by
  cases h with
  | none => exact .cons (.paragraph _ _) .nil
  | some h =>
    rename_i data data'
    have hcurrent := h.present_eq hx hy (f := "current") (by decide)
    have hkpis := h.present_eq hx hy (f := "kpis") (by decide)
    have hrows := h.present_eq hx hy (f := "rows") (by decide)
    rw [dataBlocks, dataBlocks, hcurrent, hkpis, hrows]
    split
    · exact sameBlocks_comparison h hx hy
    split
    · exact sameBlocks_visitor h hx hy
    split
    · exact sameBlocks_labelled h hx hy
    · exact sameBlocks_figures h hx hy

theorem length_periodText {x y : Option String} (h : Option.Rel (fun s t : String => s = "" ↔ t = "") x y)
    (name : String) (value : String → String) : (periodText name value x).length = (periodText name value y).length := by
  cases h with
  | none => rfl
  | some hst =>
    rename_i s t
    rw [periodText, periodText]
    by_cases hs : s = ""
    · rw [if_neg (not_not.mpr hs), if_neg (not_not.mpr (hst.mp hs))]
    · rw [if_pos hs, if_pos (mt hst.mpr hs)]
      rfl

theorem length_periodDates {x y x' y' : Option Int} (h : Option.Rel (fun _ _ : Int => True) x x')
    (h' : Option.Rel (fun _ _ : Int => True) y y') : (periodDates x y).length = (periodDates x' y').length := by
  cases h <;> cases h' <;> rfl

/-- There is a document exactly where JSON has a notation for everything. -/
theorem marshalIndent_ok_iff (p : Payload) :
    (∃ raw, marshalIndent (.map .any p.members) = .ok raw) ↔ encodable p.value = true := by
  have hencodes := encodes xml_of_plain (by decide) 0 p.value p.valid
  change Encodes isXmlChar _ _ _ (marshalIndent (.map .any p.members)) at hencodes
  cases hraw : marshalIndent (.map .any p.members) with
  | ok raw =>
    rw [hraw] at hencodes
    exact ⟨fun _ => hencodes.1, fun _ => ⟨raw, rfl⟩⟩
  | error message =>
    rw [hraw] at hencodes
    refine ⟨fun h => ?_, fun h => ?_⟩
    · obtain ⟨raw, hne⟩ := h
      cases hne
    · rw [hencodes.1] at h
      cases h

theorem sameBlock_attachment {p q : Payload} (h : SameShape p.value q.value) :
    SameBlock (attachment p.members) (attachment q.members) := by
  have hiff := (marshalIndent_ok_iff p).trans ((by rw [h.encodable_eq] : _ ↔ _).trans (marshalIndent_ok_iff q).symm)
  unfold attachment
  cases hp : marshalIndent (.map .any p.members) with
  | ok raw =>
    obtain ⟨raw', hq⟩ := hiff.mp ⟨raw, hp⟩
    rw [hq]
    exact .expand _ _ _ _
  | error message =>
    cases hq : marshalIndent (.map .any q.members) with
    | ok raw' =>
      obtain ⟨raw, hraw⟩ := hiff.mpr ⟨raw', hq⟩
      rw [hp] at hraw
      cases hraw
    | error message' => exact .paragraph _ _

/-- **Payloads of one shape have pages of one shape.** -/
theorem sameBlocks (env : Platform) {p q : Payload} (h : SameShape p.value q.value) :
    SameBlocks (confluenceBlocks env p.members) (confluenceBlocks env q.members) := by
  obtain ⟨ns, hns, hmembers⟩ := h.members
  obtain ⟨-, rfl⟩ := GoValue.map.inj hns
  have hp : ValidMap p.members := validMap_of_valid p.valid
  have hq : ValidMap q.members := validMap_of_valid q.valid
  have hdates := length_periodDates (hmembers.asTime_at hp hq (f := "from") (by decide))
    (hmembers.asTime_at hp hq (f := "to") (by decide))
  have henvironment := length_periodText (hmembers.asString_at hp hq (f := "environment") (by decide) (by decide))
    "환경 " env.toUpper
  have hsite := length_periodText (hmembers.asString_at hp hq (f := "site_id") (by decide) (by decide)) "사이트 " id
  have hperiod : period env p.members = [] ↔ period env q.members = [] := by
    rw [← List.length_eq_zero_iff, ← List.length_eq_zero_iff, period, period, List.length_append,
      List.length_append, List.length_append, List.length_append, hdates, henvironment, hsite]
  have hline : SameBlocks
      (if period env p.members = [] then [] else [.paragraph (" · ".intercalate (period env p.members))])
      (if period env q.members = [] then [] else [.paragraph (" · ".intercalate (period env q.members))]) := by
    by_cases hnone : period env p.members = []
    · rw [if_pos hnone, if_pos (hperiod.mp hnone)]
      exact sameBlocks_nil
    · rw [if_neg hnone, if_neg (mt hperiod.mpr hnone)]
      exact .cons (.paragraph _ _) .nil
  have hdata := sameBlocks_dataBlocks (hmembers.asMap_at hp hq (f := "data") (by decide))
    (validMap_asMap (valid_at hp _)) (validMap_asMap (valid_at hq _))
  have hlast : SameBlocks [attachment p.members] [attachment q.members] := .cons (sameBlock_attachment h) .nil
  exact (SameBlocks.append (.cons (.heading 2 _ _) hline) hdata).append hlast

/-- A page is well formed exactly where nothing it shows is forbidden in XML. -/
theorem wellFormed_page_iff (env : Platform) (p : Payload) :
    WellFormed (confluenceBody env p.members).toList ↔ CleanPayload env p := by
  have hreads := reads_confluenceBody env p.members
  have hnests : Nests ((confluenceBlocks env p.members).flatMap Block.events) := Nests.flatMap fun b _ => b.nests
  rw [wellFormed_iff hreads hnests, ← clean_blocks_iff]
  exact clean_confluenceBody env p.members

/-- **What the site sent does not shape the page**, and it spoils the page exactly
where a text that is shown has a character XML forbids. -/
theorem pageProper_iff (env : Platform) (p : Payload) : PageProper env p ↔ CleanPayload env p := by
  constructor
  · intro h
    exact (wellFormed_page_iff env p).mp h.wellFormed
  · intro h
    refine ⟨(wellFormed_page_iff env p).mpr h, ?_⟩
    intro q hshape
    rw [structureOf_eq (reads_confluenceBody env q.members), structureOf_eq (reads_confluenceBody env p.members),
      tagsOf_blocks (sameBlocks env hshape)]

namespace Sample

/-- A report of the AI operations that was saved under a name with a control character
in it; saving only asks that the name is not blank. -/
def weekly : Payload where
  members := [
    ("data", .map .any [("group_by", .string "model"), ("rows", .slice .typed []), ("totals", .map .any [])]),
    ("environment", .string "prd"), ("kind", .string "ai"), ("name", .string "주간\u0001"),
    ("site_id", .string "site"), ("source", .string "Momento")]
  valid := by decide

/-- Its page cannot be read as XML. -/
theorem weekly_not_pageProper : ¬ PageProper Momento.Sample.platform weekly := by
  intro h
  have hclean := (wellFormed_page_iff _ _).mp h.wellFormed
  -- The name is the first text that is shown.
  have hname : CleanValue (.string "주간\u0001") := hclean.report _ List.mem_cons_self
  rw [cleanValue_string] at hname
  revert hname
  unfold Clean
  decide

end Sample

end Momento.Automation
