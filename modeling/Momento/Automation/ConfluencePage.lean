/-
  Momento.Automation.ConfluencePage

  **THE PAGE A DELIVERY IS PUBLISHED AS.**  The Confluence channel is the one Momento
  renders itself: `confluenceBody` writes headings, paragraphs and tables, and behind
  them the payload as a document.  Which tables depends on what it finds in the payload
  by asserting Go types, so a slice of structs is not found.

  The calls the builder gets are the blocks of the page; the page is their texts one
  after the other.
-/
import Momento.Automation.Payload
import Momento.Foundation.XmlText
import Momento.Foundation.Binary64Arithmetic
import Momento.Model.Platform

namespace Momento.Automation

open Foundation GoValue

/-! ## §1. Figures. -/

/-- What the metrics are called on the page. -/
def confluenceLabel : List (String × String) := [
  ("users", "사용자"), ("new_users", "신규 사용자"), ("sessions", "세션"),
  ("page_views", "페이지뷰"), ("events", "이벤트"), ("conversions", "전환"),
  ("conversion_users", "전환 사용자"), ("conversion_sessions", "전환 세션"),
  ("conversion_rate", "전환율"), ("user_conversion_rate", "사용자 전환율"),
  ("session_conversion_rate", "세션 전환율"), ("engagement_rate", "참여율"),
  ("avg_session_duration", "평균 세션 시간(초)"), ("revenue", "매출"),
  ("calls", "호출"), ("success_rate", "성공률"), ("average_latency_ms", "평균 지연(ms)"),
  ("input_tokens", "입력 토큰"), ("output_tokens", "출력 토큰"), ("cost", "비용"),
  ("fallbacks", "폴백"), ("errors", "오류"), ("affected_users", "영향받은 사용자"),
  ("error_users", "오류를 겪은 사용자"), ("error_user_conversion_rate", "오류 사용자 전환율"),
  ("clean_user_conversion_rate", "무오류 사용자 전환율"), ("conversion_rate_delta", "전환율 차이"),
  ("matched_entities", "대상 인원"), ("segment_name", "Segment")]

/-- The metrics that come first, in this order. -/
def confluenceOrder : List String :=
  ["users", "new_users", "sessions", "page_views", "events", "conversions", "conversion_users",
    "conversion_rate", "engagement_rate", "avg_session_duration", "revenue"]

/-- The label, or the key itself. -/
def confluenceTitle (key : String) : String := (confluenceLabel.lookup key).getD key

/-- The digits from the right, three at a time. -/
def thousands : List Char → List (List Char)
  | a :: b :: c :: d :: rest => [c, b, a] :: thousands (d :: rest)
  | digits => [digits.reverse]

/-- Commas between thousands. -/
def groupDigits (digits : String) : String :=
  let negative := digits.toList.head? = some '-'
  let digits := if negative then digits.toList.tail else digits.toList
  let joined := if digits.length ≤ 3 then digits else [','].intercalate (thousands digits.reverse).reverse
  String.ofList (if negative then '-' :: joined else joined)

/-- `number == float64(int64(number))`, and the number; what `int64` cannot hold becomes
the least one. -/
def wholeNumber : Binary64 → Option Int
  | .fin x => if x.value.den = 1 ∧ -2 ^ 63 ≤ x.value.num ∧ x.value.num < 2 ^ 63 then some x.value.num else none
  | _ => none

/-- A figure, as the page shows it. -/
def confluenceNumber : GoValue → String
  | .int64 n => groupDigits (toString n)
  | .float64 x =>
    match wholeNumber x with
    | some n => groupDigits (toString n)
    | none => formatFixed 2 x
  | .string s => s
  | .bool b => if b then "예" else "아니오"
  | .nil => "—"
  | v => sprint v

/-- A change, with an arrow. -/
def confluenceChange : GoValue → String
  | .float64 x =>
    if Binary64.lt (.fin Binary64.zero) x then "▲ " ++ formatFixed 1 x ++ "%"
    else if Binary64.lt x (.fin Binary64.zero) then "▼ " ++ formatFixed 1 (Binary64.neg x) ++ "%"
    else "변화 없음"
  | _ => "—"

/-! ## §2. The builder. -/

/-- `html.EscapeString`. -/
def escape (value : String) : String := String.ofList (XmlText.escape value.toList)

/-- A call of `confluenceBuilder`. -/
inductive Block where
  | heading (level : ℕ) (text : String)
  | paragraph (text : String)
  | table (headers : List String) (rows : List (List String))
  | expand (title preformatted : String)

/-- A text in its tags. -/
def element (tag body : String) : String := "<" ++ tag ++ ">" ++ body ++ "</" ++ tag ++ ">"

/-- The cells of a row. -/
def cells (tag : String) (texts : List String) : String :=
  String.join (texts.map fun text => element tag (escape text))

namespace ConfluenceBuilder

/-- `<h2>`, `<h3>`. -/
def heading (level : ℕ) (text : String) : String := element ("h" ++ toString level) (escape text)

/-- `<p>`. -/
def paragraph (text : String) : String := element "p" (escape text)

/-- A table without rows is left out. -/
def table (headers : List String) (rows : List (List String)) : String :=
  if rows = [] then ""
  else element "table" (element "tbody"
    (element "tr" (cells "th" headers) ++ String.join (rows.map fun row => element "tr" (cells "td" row))))

/-- The machine readable copy, behind a disclosure. -/
def expand (title preformatted : String) : String :=
  "<ac:structured-macro ac:name=\"expand\">" ++ ("<ac:parameter ac:name=\"title\">" ++ escape title
    ++ "</ac:parameter>" ++ (element "ac:rich-text-body" (element "pre" (escape preformatted))
    ++ "</ac:structured-macro>"))

end ConfluenceBuilder

/-- What the call writes. -/
def Block.render : Block → String
  | .heading level text => ConfluenceBuilder.heading level text
  | .paragraph text => ConfluenceBuilder.paragraph text
  | .table headers rows => ConfluenceBuilder.table headers rows
  | .expand title preformatted => ConfluenceBuilder.expand title preformatted

/-! ## §3. The page. -/

/-- The headline figures first, then the others; a map lists its members in key order. -/
def orderedKeys (values : Members) : List String :=
  let first := confluenceOrder.filter fun key => (values.lookup key).isSome
  first ++ (values.map Prod.fst).filter fun key => key ∉ first

/-- The dates of the period. -/
def periodDates : Option Int → Option Int → List String
  | some from_, some to_ => [String.ofList (formatDate from_) ++ " ~ " ++ String.ofList (formatDate (to_ - 1))]
  | _, _ => []

/-- A text of the payload behind what it is called, where there is one. -/
def periodText (name : String) (value : String → String) : Option String → List String
  | some text => if text ≠ "" then [name ++ value text] else []
  | none => []

/-- What the page says the report is about. -/
def period (env : Platform) (payload : Members) : List String :=
  periodDates (asTime (at_ payload "from")) (asTime (at_ payload "to"))
  ++ periodText "환경 " env.toUpper (asString (at_ payload "environment"))
  ++ periodText "사이트 " id (asString (at_ payload "site_id"))

/-- A figure beside the one before it. -/
def comparisonRow (current previous change : Members) (key : String) : List String :=
  [confluenceTitle key, confluenceNumber (at_ current key), confluenceNumber (at_ previous key),
    confluenceChange (at_ change key)]

/-- A row of the table of insights. -/
def insightRow (insight : Members) : List String :=
  [sprint (at_ insight "title"), sprint (at_ insight "severity"), confluenceChange (at_ insight "change_percent"),
    confluenceNumber (at_ insight "current"), confluenceNumber (at_ insight "previous"),
    sprint (at_ insight "recommendation")]

/-- A row of the table of indicators. -/
def kpiRow (kpi : Members) : List String :=
  [sprint (at_ kpi "label"), confluenceNumber (at_ kpi "current"), confluenceNumber (at_ kpi "previous"),
    confluenceChange (at_ kpi "change_percent")]

/-- A row of the table of findings. -/
def findingRow (finding : Members) : List String :=
  [sprint (at_ finding "title"), sprint (at_ finding "severity"), sprint (at_ finding "evidence"),
    sprint (at_ finding "action")]

/-- A row of a table of figures. -/
def figureRow (values : Members) (key : String) : List String :=
  [confluenceTitle key, confluenceNumber (at_ values key)]

/-- The rows of the items that are maps. -/
def rowsOf (row : Members → List String) (items : List GoValue) : List (List String) :=
  items.filterMap fun item => (asMap item).map row

/-- The map that is asserted, or a nil one. -/
def mapAt (values : Members) (key : String) : Members := (asMap (at_ values key)).getD []

/-- The slice that is asserted, or a nil one. -/
def sliceAt (values : Members) (key : String) : List GoValue := (asSlice (at_ values key)).getD []

/-- The period beside the one before it. -/
def comparisonBlocks (data : Members) : List Block :=
  let current := mapAt data "current"
  .table ["지표", "이번 기간", "이전 기간", "변화"]
      ((orderedKeys current).map (comparisonRow current (mapAt data "previous") (mapAt data "change_percent")))
    :: if sliceAt data "insights" = [] then []
      else [.heading 3 "주목할 변화",
        .table ["항목", "심각도", "변화", "현재", "이전", "권장 조치"] (rowsOf insightRow (sliceAt data "insights"))]

/-- A paragraph, where there is a text for it. -/
def paragraphOf : Option String → List Block
  | some text => if text ≠ "" then [.paragraph text] else []
  | none => []

/-- The visitor insight report. -/
def visitorBlocks (data : Members) : List Block :=
  paragraphOf (asString (at_ data "headline"))
  ++ .table ["지표", "이번 기간", "이전 기간", "변화"] (rowsOf kpiRow (sliceAt data "kpis"))
    :: if sliceAt data "findings" = [] then []
      else [.heading 3 "발견", .table ["제목", "심각도", "근거", "조치"] (rowsOf findingRow (sliceAt data "findings"))]

/-- The keys of the first row, its label apart. -/
def rowKeys (data : Members) : List String :=
  (orderedKeys ((((sliceAt data "rows").head?).bind asMap).getD [])).filter (· ≠ "label")

/-- The totals of a labelled report. -/
def totalsBlocks : Option Members → List Block
  | some totals => [.heading 3 "합계", .table ["지표", "값"] ((orderedKeys totals).map (figureRow totals))]
  | none => []

/-- The AI report, and what else answers a list of labelled rows. -/
def labelledBlocks (data : Members) : List Block :=
  if sliceAt data "rows" = [] then [.paragraph "이 기간에는 기록된 항목이 없습니다."]
  else
    .table ("항목" :: (rowKeys data).map confluenceTitle)
        (rowsOf (fun row => sprint (at_ row "label") :: (rowKeys data).map fun key => confluenceNumber (at_ row key))
          (sliceAt data "rows"))
      :: totalsBlocks (asMap (at_ data "totals"))

/-- The keys of the figures: no `[]any`, no `map[string]any`. -/
def figureKeys (data : Members) : List String :=
  (orderedKeys data).filter fun key => (asSlice (at_ data key)).isNone && (asMap (at_ data key)).isNone

/-- Every other report. -/
def figureBlocks (data : Members) : List Block :=
  (if figureKeys data = [] then [.paragraph "이 리포트의 내용은 아래 원본에 있습니다."] else [])
  ++ [.table ["지표", "값"] ((figureKeys data).map (figureRow data))]

/-- What the payload carries decides on the tables. -/
def dataBlocks : Option Members → List Block
  | none => [.paragraph "이 배달에는 내용이 없습니다."]
  | some data =>
    if (at_ data "current").present then comparisonBlocks data
    else if (at_ data "kpis").present then visitorBlocks data
    else if (at_ data "rows").present then labelledBlocks data
    else figureBlocks data

/-- The document behind the report, or why there is none. -/
def attachment (payload : Members) : Block :=
  match marshalIndent (.map .any payload) with
  | .ok raw => .expand ("원본 데이터 (" ++ (asString (at_ payload "kind")).getD "" ++ ")") raw
  | .error message => .paragraph ("원본 문서를 첨부하지 못했습니다: " ++ message)

/-- The calls `confluenceBody` makes. -/
def confluenceBlocks (env : Platform) (payload : Members) : List Block :=
  .heading 2 ((asString (at_ payload "name")).getD "")
    :: (if period env payload = [] then [] else [.paragraph (" · ".intercalate (period env payload))])
    ++ dataBlocks (asMap (at_ payload "data")) ++ [attachment payload]

/-- **`confluenceBody`**: the blocks one after the other. -/
def confluenceBody (env : Platform) (payload : Members) : String :=
  String.join ((confluenceBlocks env payload).map Block.render)

theorem validItems_sliceAt {values : Members} (h : ValidMap values) (key : String) :
    validItems (sliceAt values key) = true := by
  have hvalid := valid_at h key
  unfold sliceAt
  generalize at_ values key = v at hvalid
  unfold asSlice
  split
  · exact hvalid
  · rfl

/-! ## §4. What the page is read as. -/

open XmlText

/-- What a text is read as. -/
def textEvents (s : String) : List Event := s.toList.map .char

/-- An element, and what is in it. -/
def tagged (tag : String) (es : List Event) : List Event := .start tag.toList [] :: es ++ [.stop tag.toList]

/-- What the cells of a row are read as. -/
def cellEvents (tag : String) (texts : List String) : List Event :=
  texts.flatMap fun text => tagged tag (textEvents text)

/-- What a table is read as. -/
def tableEvents (headers : List String) (rows : List (List String)) : List Event :=
  if rows = [] then []
  else tagged "table" (tagged "tbody" (tagged "tr" (cellEvents "th" headers)
    ++ rows.flatMap fun row => tagged "tr" (cellEvents "td" row)))

/-- An element with the attribute `ac:name`. -/
def named (tag name : String) (es : List Event) : List Event :=
  .start tag.toList [("ac:name".toList, name.toList)] :: es ++ [.stop tag.toList]

/-- What a folded part is read as. -/
def expandEvents (title preformatted : String) : List Event :=
  named "ac:structured-macro" "expand" (named "ac:parameter" "title" (textEvents title)
    ++ tagged "ac:rich-text-body" (tagged "pre" (textEvents preformatted)))

/-- **What a block is read as.** -/
def Block.events : Block → List Event
  | .heading level text => tagged ("h" ++ toString level) (textEvents text)
  | .paragraph text => tagged "p" (textEvents text)
  | .table headers rows => tableEvents headers rows
  | .expand title preformatted => expandEvents title preformatted

theorem reads_escapeText (s : String) : Reads (escape s).toList (textEvents s) := by
  rw [escape, String.toList_ofList]
  exact reads_escape s.toList

theorem reads_element {tag body : String} {es : List Event} (htag : isName tag.toList = true)
    (hbody : Reads body.toList es) : Reads (element tag body).toList (tagged tag es) := by
  have htext : (element tag body).toList = XmlText.element tag.toList body.toList := by
    simp [element, XmlText.element]
  rw [htext]
  exact hbody.element htag

theorem reads_append {s t : String} {es fs : List Event} (hs : Reads s.toList es) (ht : Reads t.toList fs) :
    Reads (s ++ t).toList (es ++ fs) := by
  rw [String.toList_append]
  exact hs.append ht

theorem reads_join {α : Type} {l : List α} {text : α → String} {events : α → List Event}
    (h : ∀ a ∈ l, Reads (text a).toList (events a)) : Reads (String.join (l.map text)).toList (l.flatMap events) := by
  rw [String.toList_join, List.flatMap_map]
  exact Reads.flatMap h

theorem reads_cells {tag : String} (htag : isName tag.toList = true) (texts : List String) :
    Reads (cells tag texts).toList (cellEvents tag texts) :=
  reads_join fun text _ => reads_element htag (reads_escapeText text)

/-- A heading's tag is a name, whatever its level. -/
theorem isName_heading (level : ℕ) : isName ("h" ++ toString level).toList = true := by
  have htext : ("h" ++ toString level).toList = 'h' :: Nat.toDigits 10 level := by
    rw [String.toList_append]
    show ['h'] ++ (String.ofList (Nat.toDigits 10 level)).toList = _
    rw [String.toList_ofList, List.singleton_append]
  rw [htext, isName_cons]
  refine ⟨by decide, ?_⟩
  intro c hc
  have hdigit : c.isDigit = true := Nat.isDigit_of_mem_toDigits (by decide) (by decide) hc
  simp [isNameChar, hdigit]

/-- A table is read as one. -/
theorem reads_table (headers : List String) (rows : List (List String)) :
    Reads (ConfluenceBuilder.table headers rows).toList (tableEvents headers rows) := by
  unfold ConfluenceBuilder.table tableEvents
  split
  · exact Reads.nil
  have htr : isName "tr".toList = true := by decide
  have htd : isName "td".toList = true := by decide
  have hrows := reads_join fun row (_ : row ∈ rows) => reads_element htr (reads_cells htd row)
  have hhead := reads_element htr (reads_cells (by decide : isName "th".toList = true) headers)
  exact reads_element (by decide) (reads_element (by decide) (reads_append hhead hrows))

/-- A folded part is read as one. -/
theorem reads_expand (title preformatted : String) :
    Reads (ConfluenceBuilder.expand title preformatted).toList (expandEvents title preformatted) := by
  have hexpand : Reads "<ac:structured-macro ac:name=\"expand\">".toList
      [.start "ac:structured-macro".toList [("ac:name".toList, "expand".toList)]] := fun _ => ⟨0, rfl⟩
  have hparameter : Reads "<ac:parameter ac:name=\"title\">".toList
      [.start "ac:parameter".toList [("ac:name".toList, "title".toList)]] := fun _ => ⟨0, rfl⟩
  have hparameterEnd : Reads "</ac:parameter>".toList [.stop "ac:parameter".toList] := fun _ => ⟨0, rfl⟩
  have hexpandEnd : Reads "</ac:structured-macro>".toList [.stop "ac:structured-macro".toList] := fun _ => ⟨0, rfl⟩
  have hbody := reads_element (by decide : isName "ac:rich-text-body".toList = true)
    (reads_element (by decide : isName "pre".toList = true) (reads_escapeText preformatted))
  have hall := reads_append hexpand (reads_append (reads_append (reads_append hparameter (reads_escapeText title))
    hparameterEnd) (reads_append hbody hexpandEnd))
  refine Eq.mp (congrArg (Reads _) ?_) hall
  simp only [expandEvents, named, List.append_assoc, List.cons_append, List.nil_append]

/-- **What a block is read as.** -/
theorem Block.reads (b : Block) : Reads b.render.toList b.events := by
  cases b with
  | heading level text => exact reads_element (isName_heading level) (reads_escapeText text)
  | paragraph text => exact reads_element (by decide : isName "p".toList = true) (reads_escapeText text)
  | table headers rows => exact reads_table headers rows
  | expand title preformatted => exact reads_expand title preformatted

/-- The page is read block by block. -/
theorem reads_confluenceBody (env : Platform) (payload : Members) :
    Reads (confluenceBody env payload).toList ((confluenceBlocks env payload).flatMap Block.events) :=
  reads_join fun b _ => b.reads

theorem nests_cellEvents (tag : String) (texts : List String) : Nests (cellEvents tag texts) :=
  Nests.flatMap fun text _ => (Nests.chars text.toList).tagged

theorem Block.nests (b : Block) : Nests b.events := by
  cases b with
  | heading level text => exact (Nests.chars _).tagged
  | paragraph text => exact (Nests.chars _).tagged
  | table headers rows =>
    show Nests (tableEvents headers rows)
    unfold tableEvents
    split
    · exact Nests.nil
    have hrows : Nests (rows.flatMap fun row => tagged "tr" (cellEvents "td" row)) :=
      Nests.flatMap fun row _ => (nests_cellEvents "td" row).tagged
    exact (((nests_cellEvents "th" headers).tagged.append hrows).tagged).tagged
  | expand title preformatted =>
    show Nests (expandEvents title preformatted)
    have hparameter : Nests (textEvents title) := Nests.chars _
    have hpre : Nests (textEvents preformatted) := Nests.chars _
    exact ((hparameter.tagged).append hpre.tagged.tagged).tagged

/-! ## §5. The characters of the page. -/

/-- The texts a block puts on the page. -/
def Block.texts : Block → List String
  | .heading _ text | .paragraph text => [text]
  | .table headers rows => if rows = [] then [] else headers ++ rows.flatten
  | .expand title preformatted => [title, preformatted]

/-- A text XML can hold. -/
abbrev Clean (s : String) : Prop := Holds isXmlChar s

theorem xml_of_plain (c : Char) (h : isPlain c = true) : isXmlChar c = true := by
  simp only [isPlain, Bool.and_eq_true, decide_eq_true_eq] at h
  have hrange : 0x20 ≤ c.toNat ∧ c.toNat ≤ 0xD7FF := by omega
  simp [isXmlChar, hrange.1, hrange.2]

theorem clean_append {a b : String} : Clean (a ++ b) ↔ Clean a ∧ Clean b := holds_append

theorem clean_join (l : List String) : Clean (String.join l) ↔ ∀ s ∈ l, Clean s := holds_join l

theorem clean_escape (s : String) : Clean (escape s) ↔ Clean s := by
  unfold escape
  rw [Clean, holds_ofList]
  exact forall_escape s.toList

theorem clean_element {tag : String} (htag : Clean tag) (body : String) : Clean (element tag body) ↔ Clean body := by
  have hopen : Clean "<" := by decide
  have hclose : Clean "</" := by decide
  have hend : Clean ">" := by decide
  unfold element
  rw [clean_append, clean_append, clean_append, clean_append, clean_append, clean_append]
  exact ⟨fun h => h.1.1.1.2, fun h => ⟨⟨⟨⟨⟨⟨hopen, htag⟩, hend⟩, h⟩, hclose⟩, htag⟩, hend⟩⟩

theorem clean_cells {tag : String} (htag : Clean tag) (texts : List String) :
    Clean (cells tag texts) ↔ ∀ text ∈ texts, Clean text := by
  unfold cells
  rw [clean_join, List.forall_mem_map]
  exact forall₂_congr fun text _ => (clean_element htag _).trans (clean_escape text)

/-- A table is as clean as its cells. -/
theorem clean_table (headers : List String) (rows : List (List String)) :
    Clean (ConfluenceBuilder.table headers rows)
      ↔ ∀ text ∈ (Block.table headers rows).texts, Clean text := by
  have htr : Clean "tr" := by decide
  rw [ConfluenceBuilder.table, Block.texts]
  split
  · simp [Holds]
  rw [clean_element (by decide), clean_element (by decide), clean_append, clean_element htr,
    clean_cells (by decide), clean_join, List.forall_mem_map, List.forall_mem_append]
  have hrows : (∀ row ∈ rows, Clean (element "tr" (cells "td" row))) ↔ ∀ text ∈ rows.flatten, Clean text := by
    rw [List.forall_mem_flatten]
    exact forall₂_congr fun row _ => (clean_element htr _).trans (clean_cells (by decide) row)
  rw [hrows]

theorem clean_expand (title preformatted : String) :
    Clean (ConfluenceBuilder.expand title preformatted) ↔ Clean title ∧ Clean preformatted := by
  have hexpand : Clean "<ac:structured-macro ac:name=\"expand\">" := by decide
  have hparameter : Clean "<ac:parameter ac:name=\"title\">" := by decide
  have hparameterEnd : Clean "</ac:parameter>" := by decide
  have hexpandEnd : Clean "</ac:structured-macro>" := by decide
  unfold ConfluenceBuilder.expand
  rw [clean_append, clean_append, clean_append, clean_append, clean_append, clean_element (by decide),
    clean_element (by decide), clean_escape, clean_escape]
  exact ⟨fun h => ⟨h.2.1.1.2, h.2.2.1⟩, fun h => ⟨hexpand, ⟨⟨hparameter, h.1⟩, hparameterEnd⟩, h.2, hexpandEnd⟩⟩

/-- **A block holds the characters of its texts**, and the program's own. -/
theorem Block.clean_render (b : Block) : Clean b.render ↔ ∀ text ∈ b.texts, Clean text := by
  cases b with
  | heading level text =>
    have htag : Clean ("h" ++ toString level) :=
      holds_append.mpr ⟨by decide, (plain_nat level).of_plain xml_of_plain⟩
    rw [Block.texts, List.forall_mem_singleton]
    exact (clean_element htag _).trans (clean_escape text)
  | paragraph text =>
    rw [Block.texts, List.forall_mem_singleton]
    exact (clean_element (by decide) _).trans (clean_escape text)
  | table headers rows => exact clean_table headers rows
  | expand title preformatted =>
    rw [Block.texts, List.forall_mem_cons, List.forall_mem_singleton]
    exact clean_expand title preformatted

/-- The page is as clean as its blocks. -/
theorem clean_confluenceBody (env : Platform) (payload : Members) :
    Clean (confluenceBody env payload)
      ↔ ∀ b ∈ confluenceBlocks env payload, ∀ text ∈ b.texts, Clean text := by
  unfold confluenceBody
  rw [clean_join, List.forall_mem_map]
  exact forall₂_congr fun b _ => b.clean_render

theorem clean_confluenceLabel : ∀ entry ∈ confluenceLabel, Clean entry.1 ∧ Clean entry.2 := by decide

theorem clean_confluenceTitle (key : String) : Clean (confluenceTitle key) ↔ Clean key := by
  unfold confluenceTitle
  cases hlabel : confluenceLabel.lookup key with
  | none => exact Iff.rfl
  | some label =>
    have hmem : (key, label) ∈ confluenceLabel := by
      obtain ⟨before, after, hlist, -⟩ := List.lookup_eq_some_iff.mp hlabel
      rw [hlist]
      simp
    obtain ⟨hkey, htext⟩ := clean_confluenceLabel _ hmem
    exact ⟨fun _ => hkey, fun _ => htext⟩

theorem mem_thousands (digits : List Char) : ∀ part ∈ thousands digits, part ⊆ digits := by
  induction digits using thousands.induct with
  | case1 a b c d rest ih =>
    intro part hpart
    rw [thousands, List.mem_cons] at hpart
    obtain rfl | hmore := hpart
    · simp
    · intro x hx
      have hrest := ih part hmore hx
      simp only [List.mem_cons] at hrest ⊢
      exact .inr (.inr (.inr hrest))
  | case2 digits hshort =>
    intro part hpart
    rw [thousands, List.mem_singleton] at hpart
    · rw [hpart]
      exact List.reverse_subset.mpr (List.Subset.refl _)
    · exact hshort

theorem plain_joined {parts : List (List Char)} (h : ∀ part ∈ parts, ∀ c ∈ part, isPlain c = true) :
    ∀ c ∈ [','].intercalate parts, isPlain c = true := by
  induction parts with
  | nil => simp
  | cons part parts ih =>
    have hpart := h part (by simp)
    have hparts := ih fun q hq => h q (by simp [hq])
    cases parts with
    | nil =>
      rw [List.intercalate_singleton]
      exact hpart
    | cons part' parts =>
      rw [List.intercalate_cons_cons]
      exact plain_append (plain_append hpart (plain_all (by decide))) hparts

theorem plain_groupDigits {digits : String} (h : Holds isPlain digits) : Holds isPlain (groupDigits digits) := by
  have hdigits : ∀ c ∈ (if digits.toList.head? = some '-' then digits.toList.tail else digits.toList),
      isPlain c = true := by
    split
    · exact plain_of_subset h (List.tail_subset _)
    · exact h
  unfold groupDigits
  dsimp only
  generalize (if digits.toList.head? = some '-' then digits.toList.tail else digits.toList) = body at hdigits ⊢
  have hjoined : ∀ c ∈ (if body.length ≤ 3 then body else [','].intercalate (thousands body.reverse).reverse),
      isPlain c = true := by
    split
    · exact hdigits
    refine plain_joined fun part hpart => ?_
    have hsub := mem_thousands _ part (List.mem_reverse.mp hpart)
    exact fun c hc => hdigits c (List.mem_reverse.mp (hsub hc))
  rw [holds_ofList]
  split
  · exact plain_cons rfl hjoined
  · exact hjoined

/-- Every text in the value can stand in XML. -/
def CleanValue (v : GoValue) : Prop := ∀ s ∈ strings v, Clean s

theorem cleanValue_string (s : String) : CleanValue (.string s) ↔ Clean s := by
  rw [CleanValue, strings, List.forall_mem_singleton]

/-- A figure of a value without texts. -/
theorem clean_iff_cleanValue {s : String} (h : Clean s) {v : GoValue} (hv : strings v = []) :
    Clean s ↔ CleanValue v := by
  rw [CleanValue, hv]
  exact ⟨fun _ _ ht => absurd ht List.not_mem_nil, fun _ => h⟩

/-- A text is as clean as its value. -/
theorem clean_sprint (v : GoValue) : Clean (sprint v) ↔ CleanValue v := holds_sprint xml_of_plain v

/-- **A figure holds the characters of the texts in the value.** -/
theorem clean_confluenceNumber (v : GoValue) : Clean (confluenceNumber v) ↔ CleanValue v := by
  cases v with
  | nil => exact clean_iff_cleanValue (by decide) rfl
  | bool b => exact clean_iff_cleanValue (by cases b <;> decide) rfl
  | int64 n => exact clean_iff_cleanValue ((plain_groupDigits (plain_int n)).of_plain xml_of_plain) rfl
  | float64 x =>
    refine clean_iff_cleanValue ?_ rfl
    rw [confluenceNumber]
    split
    · exact (plain_groupDigits (plain_int _)).of_plain xml_of_plain
    · exact (plain_formatFixed 2 x).of_plain xml_of_plain
  | string s => exact (cleanValue_string s).symm
  | int n => exact clean_sprint (.int n)
  | time t => exact clean_sprint (.time t)
  | uuid text => exact clean_sprint (.uuid text)
  | slice elements items => exact clean_sprint (.slice elements items)
  | map elements members => exact clean_sprint (.map elements members)
  | record omitempty fields => exact clean_sprint (.record omitempty fields)

theorem clean_confluenceChange (v : GoValue) : Clean (confluenceChange v) := by
  have hfixed : ∀ x, Clean (formatFixed 1 x) := fun x => (plain_formatFixed 1 x).of_plain xml_of_plain
  unfold confluenceChange
  split
  · split
    · exact clean_append.mpr ⟨clean_append.mpr ⟨by decide, hfixed _⟩, by decide⟩
    · split
      · exact clean_append.mpr ⟨clean_append.mpr ⟨by decide, hfixed _⟩, by decide⟩
      · decide
  · decide

end Momento.Automation
