/-
  Momento.Automation.DeliveredRows

  **WHAT THE PAGE LEAVES OUT.**  A payload is handed to the renderer as it was built:
  the insights are a `[]Insight`, the figures of the visitor report a `[]KPI`, the rows
  of the AI report a `[]map[string]any`.  The renderer asserts `[]any`, which none of
  them is, and takes each for an empty list.

  So the insights report has no insights, the visitor report has its headline and no
  table, and the AI report says that nothing was recorded.
-/
import Momento.Automation.PageStructure
import Momento.Automation.RankedInsights
import Momento.Reports.Periods
import Momento.Service.Runs

namespace Momento.Automation

open Foundation GoValue XmlText Binary64

/-! ## §1. Figures of a report. -/

/-- The figures of a period. -/
structure MetricSet where
  users : Int
  newUsers : Int
  sessions : Int
  pageViews : Int
  events : Int
  conversions : Int
  conversionUsers : Int
  conversionSessions : Int
  engagementRate : Binary64
  avgSessionDuration : Binary64
  userConversionRate : Binary64
  sessionConversionRate : Binary64
  revenue : Binary64

/-- `MetricMap`. -/
def metricMap (m : MetricSet) : Members := [
  ("avg_session_duration", .float64 m.avgSessionDuration), ("conversion_rate", .float64 m.userConversionRate),
  ("conversion_sessions", .int64 m.conversionSessions), ("conversion_users", .int64 m.conversionUsers),
  ("conversions", .int64 m.conversions), ("engagement_rate", .float64 m.engagementRate), ("events", .int64 m.events),
  ("new_users", .int64 m.newUsers), ("page_views", .int64 m.pageViews), ("revenue", .float64 m.revenue),
  ("session_conversion_rate", .float64 m.sessionConversionRate), ("sessions", .int64 m.sessions),
  ("user_conversion_rate", .float64 m.userConversionRate), ("users", .int64 m.users)]

/-- `toFloat`: what is no number is 0. -/
def toFloat : GoValue → Binary64
  | .int64 n => float n
  | .float64 x => x
  | _ => .fin zero

/-- `MetricChange`. -/
def metricChange (current previous : MetricSet) : Members :=
  (metricMap current).map fun (key, value) =>
    (key, .float64 (percentChange (toFloat value) (toFloat (at_ (metricMap previous) key))))

/-! ## §2. The insights. -/

/-- An insight, as JSON. -/
def Insight.value (i : Insight) : GoValue := .record [] [
  ("metric", .string i.metric), ("title", .string i.title), ("severity", .string i.severity),
  ("change_percent", .float64 i.changePercent), ("current", .float64 i.current), ("previous", .float64 i.previous),
  ("evidence", .string i.evidence), ("recommendation", .string i.recommendation)]

/-! ## §3. The visitor report. -/

/-- What is counted of a period's visitors. -/
structure PeriodMetrics where
  users : Int
  newUsers : Int
  sessions : Int
  pageViews : Int
  convertedUsers : Int
  engagedSessions : Int
  averageSeconds : Binary64

namespace PeriodMetrics

variable (m : PeriodMetrics)

/-- Engaged sessions in a hundred. -/
def engagementRate : Binary64 := Momento.percent m.engagedSessions m.sessions

/-- Converted users in a hundred. -/
def conversionRate : Binary64 := Momento.percent m.convertedUsers m.users

/-- New users in a hundred. -/
def newUserShare : Binary64 := Momento.percent m.newUsers m.users

/-- Those that are not new. -/
def returningUsers : Int := m.users - m.newUsers

/-- How often they came. -/
def sessionsPerUser : Binary64 := ratio (float m.sessions) (float m.users)

/-- How much they saw. -/
def pagesPerSession : Binary64 := ratio (float m.pageViews) (float m.sessions)

end PeriodMetrics

/-- An indicator, then and now. -/
structure Kpi where
  key : String
  label : String
  format : String
  current : Binary64
  previous : Binary64
  goal : String

/-- An indicator, as JSON. -/
def Kpi.value (k : Kpi) : GoValue := .record [] [
  ("key", .string k.key), ("label", .string k.label), ("format", .string k.format), ("current", .float64 k.current),
  ("previous", .float64 k.previous), ("change_percent", .float64 (percentChange k.current k.previous)),
  ("goal", .string k.goal)]

/-- The ten figures of `Build`. -/
def kpis (current previous : PeriodMetrics) : List Kpi := [
  ⟨"users", "방문자", "number", float current.users, float previous.users, "higher"⟩,
  ⟨"new_users", "신규 방문자", "number", float current.newUsers, float previous.newUsers, "higher"⟩,
  ⟨"returning_users", "재방문자", "number", float current.returningUsers, float previous.returningUsers, "higher"⟩,
  ⟨"new_user_share", "신규 비중", "percent", current.newUserShare, previous.newUserShare, "neutral"⟩,
  ⟨"sessions", "세션", "number", float current.sessions, float previous.sessions, "higher"⟩,
  ⟨"sessions_per_user", "1인당 방문 횟수", "decimal", current.sessionsPerUser, previous.sessionsPerUser, "higher"⟩,
  ⟨"pages_per_session", "세션당 페이지뷰", "decimal", current.pagesPerSession, previous.pagesPerSession, "higher"⟩,
  ⟨"engagement_rate", "참여율", "percent", current.engagementRate, previous.engagementRate, "higher"⟩,
  ⟨"avg_session_duration", "평균 체류 시간", "duration", current.averageSeconds, previous.averageSeconds, "higher"⟩,
  ⟨"user_conversion_rate", "사용자 전환율", "percent", current.conversionRate, previous.conversionRate, "higher"⟩]

/-- What is wrong, why, and what to do. -/
structure Finding where
  id : String
  title : String
  severity : String
  evidence : String
  cause : String
  action : String
  impact : Binary64

/-- A finding, as JSON. -/
def Finding.value (f : Finding) : GoValue := .record [] [
  ("id", .string f.id), ("title", .string f.title), ("severity", .string f.severity),
  ("evidence", .string f.evidence), ("cause", .string f.cause), ("action", .string f.action),
  ("impact", .float64 f.impact)]

/-- `Headline`. -/
def headline (days users : Int) (change newShare engagement conversion : Binary64) : String :=
  let trend :=
    if le (.fin (ofNat 1 (by norm_num))) change then "전기간 대비 +" ++ formatFixed 1 change ++ "%"
    else if le change (neg (.fin (ofNat 1 (by norm_num)))) then "전기간 대비 " ++ formatFixed 1 change ++ "%"
    else "전기간과 유사"
  "최근 " ++ toString days ++ "일 방문자 " ++ toString users ++ "명(" ++ trend ++ ") · 신규 " ++ formatFixed 1 newShare
    ++ "% · 참여율 " ++ formatFixed 1 engagement ++ "% · 전환율 " ++ formatFixed 1 conversion ++ "%"

/-- What every visitor report adds. -/
def notes : List String := [
  "채널·기기별 사용자 합계는 한 사용자가 여러 채널로 방문하면 중복 계산될 수 있습니다.",
  "신규 여부는 선택한 환경의 전체 수집 이력에서 처음 관측된 시점으로 판단합니다.",
  "익명 방문자는 사이트 범위로 격리하고, SSO User ID가 있으면 사이트를 넘어 한 사람으로 계산합니다."]

/-- A part of the visitor report that the page never looks at. -/
structure Part where
  value : GoValue
  valid : value.valid = true

/-- What `Build` reads and finds; the findings are those of `BuildFindings`, whichever
they are. -/
structure VisitorReadings where
  current : PeriodMetrics
  previous : PeriodMetrics
  findings : List Finding
  lifecycle : Part
  channels : Part
  landingPages : Part
  frequency : Part
  recency : Part
  devices : Part
  audiences : Part

/-- `int(math.Round(to.Sub(from).Hours() / 24))`, and at least one day. -/
def daysBetween (from_ to_ : Int) : Int :=
  max 1 (roundHalfAway (nearest (Calendar.hours (Calendar.sub to_ from_) / 24)))

/-- `Build`. -/
def visitorReport (environment : String) (from_ to_ previousFrom previousTo : Int) (r : VisitorReadings) : Members :=
  let days := daysBetween from_ to_
  [("audiences", r.audiences.value), ("channels", r.channels.value), ("days", .int days),
    ("devices", r.devices.value), ("environment", .string environment),
    ("findings", .slice .typed (r.findings.map Finding.value)), ("frequency", r.frequency.value),
    ("from", .time from_),
    ("headline", .string (headline days r.current.users (percentChange (float r.current.users) (float r.previous.users))
      r.current.newUserShare r.current.engagementRate r.current.conversionRate)),
    ("kpis", .slice .typed ((kpis r.current r.previous).map Kpi.value)), ("landing_pages", r.landingPages.value),
    ("lifecycle", r.lifecycle.value), ("notes", .slice .typed (notes.map .string)),
    ("previous_from", .time previousFrom), ("previous_to", .time previousTo), ("recency", r.recency.value),
    ("to", .time to_)]

/-! ## §4. The AI report. -/

/-- A row of `AIOperations`. -/
structure Operation where
  label : String
  calls : Int
  users : Int
  successRate : Binary64
  averageLatencyMs : Binary64
  inputTokens : Int
  outputTokens : Int
  cost : Binary64
  fallbacks : Int

/-- A row of the AI report, as JSON. -/
def Operation.value (o : Operation) : GoValue := .map .any [
  ("average_latency_ms", .float64 o.averageLatencyMs), ("calls", .int64 o.calls), ("cost", .float64 o.cost),
  ("fallbacks", .int64 o.fallbacks), ("input_tokens", .int64 o.inputTokens), ("label", .string o.label),
  ("output_tokens", .int64 o.outputTokens), ("success_rate", .float64 o.successRate), ("users", .int64 o.users)]

/-- A sum of `int64`. -/
def sum64 (ns : List Int) : Int := ns.foldl (fun total n => (total + n).bmod (2 ^ 64)) 0

/-- A sum of doubles, from the first on. -/
def sumFloat (xs : List Binary64) : Binary64 := xs.foldl add (.fin zero)

/-- `int64(x)`; what it cannot hold becomes the least one. -/
def toInt64 : Binary64 → Int
  | .fin x =>
    let n := Calendar.truncate x.value
    if -2 ^ 63 ≤ n ∧ n < 2 ^ 63 then n else -2 ^ 63
  | _ => -2 ^ 63

/-- `AIOperationTotals`, and the users that are counted apart. -/
def operationTotals (rows : List Operation) (users : Int) : Members :=
  let calls := sum64 (rows.map Operation.calls)
  let successes := sum64 (rows.map fun o => toInt64 (div (mul o.successRate (float o.calls)) (.fin hundred)))
  let latencyWeighted := sumFloat (rows.map fun o => mul o.averageLatencyMs (float o.calls))
  [("average_latency_ms", .float64 (if 0 < calls then div latencyWeighted (float calls) else .fin zero)),
    ("calls", .int64 calls), ("cost", .float64 (sumFloat (rows.map Operation.cost))),
    ("fallbacks", .int64 (sum64 (rows.map Operation.fallbacks))),
    ("input_tokens", .int64 (sum64 (rows.map Operation.inputTokens))),
    ("output_tokens", .int64 (sum64 (rows.map Operation.outputTokens))),
    ("success_rate",
      .float64 (if 0 < calls then div (mul (float successes) (.fin hundred)) (float calls) else .fin zero)),
    ("users", .int64 users)]

/-- `AIOperationDimension`. -/
def operationDimension (group : String) : String :=
  if group ∈ ["model", "provider", "agent", "mcp_server", "tool"] then group else "model"

/-! ## §5. The payload. -/

/-- The kinds of report that compare periods, and the one whose data are rows. -/
inductive ReportKind
  | overview
  | insights
  | visitorInsight
  | ai
  deriving DecidableEq

/-- The kinds, as they are stored. -/
def ReportKind.text : ReportKind → String
  | .overview => "overview"
  | .insights => "insights"
  | .visitorInsight => "visitor_insight"
  | .ai => "ai"

/-- `scheduledDelivery`, as far as it is reported. -/
structure Delivery where
  reportId : String
  siteKey : String
  name : String
  kind : ReportKind
  /-- The definition, decoded. -/
  definition : Properties

/-- What is read while the payload is built. -/
structure Readings where
  location : Calendar.Location
  now : Int
  generatedAt : Int
  current : MetricSet
  previous : MetricSet
  platform : PlatformMetrics
  previousPlatform : PlatformMetrics
  visitors : VisitorReadings
  operations : List Operation
  operationUsers : Int

namespace Delivery

variable (d : Delivery)

/-- The environment the definition names. -/
def environment : String :=
  match d.definition.get "environment" with
  | some (.str environment) => if environment = "" then "prd" else environment
  | _ => "prd"

/-- The days the definition asks for, a week if it does not. -/
def days : Int :=
  match d.definition.get "days" with
  | some (.num value) => if 1 ≤ value.value ∧ value.value ≤ 365 then Calendar.truncate value.value else 7
  | _ => 7

/-- What the AI report is grouped by. -/
def group : String :=
  match d.definition.get "group_by" with
  | some (.str group) => operationDimension group
  | _ => operationDimension ""

/-- The periods beside each other. -/
def comparisonData (r : Readings) : Members :=
  let (from_, to_) := Periods.reportWindow r.location r.now d.days
  let (previousFrom, previousTo) := Periods.previousRange r.location from_ to_
  [("change_percent", .map .any (metricChange r.current r.previous)), ("current", .map .any (metricMap r.current)),
    ("from", .time from_)]
  ++ (if d.kind = .insights then
      [("insights", .slice .typed ((rankInsights r.platform r.previousPlatform).map Insight.value))] else [])
  ++ [("previous", .map .any (metricMap r.previous)), ("previous_from", .time previousFrom),
    ("previous_to", .time previousTo), ("to", .time to_)]

/-- The report's own data. -/
def data (r : Readings) : Members :=
  let (from_, to_) := Periods.reportWindow r.location r.now d.days
  match d.kind with
  | .overview | .insights => d.comparisonData r
  | .visitorInsight => visitorReport d.environment from_ to_ (from_ + -Calendar.sub to_ from_) from_ r.visitors
  | .ai => [("group_by", .string d.group), ("rows", .slice .typed (r.operations.map Operation.value)),
      ("totals", .map .any (operationTotals r.operations r.operationUsers))]

/-- `buildPayload`, as `confluenceBody` gets it. -/
def buildPayload (r : Readings) : Members :=
  let (from_, to_) := Periods.reportWindow r.location r.now d.days
  [("data", .map .any (d.data r)), ("environment", .string d.environment), ("from", .time from_),
    ("generated_at", .time r.generatedAt), ("kind", .string d.kind.text), ("name", .string d.name),
    ("report_id", .uuid d.reportId), ("site_id", .string d.siteKey), ("source", .string "Momento"), ("to", .time to_)]

end Delivery

/-! ## §6. What is built is a payload. -/

theorem validItems_map {α : Type} {f : α → GoValue} (h : ∀ x, (f x).valid = true) (xs : List α) :
    validItems (xs.map f) = true := by
  induction xs with
  | nil => rfl
  | cons x xs ih => rw [List.map_cons, validItems, h x, ih]; rfl

theorem valid_map {ms : Members} (hkeys : (ms.map Prod.fst).Pairwise (· < ·)) (hms : validMembers ms = true) :
    (GoValue.map .any ms).valid = true := by
  rw [valid, hms, decide_eq_true hkeys]
  rfl

/-- The names of the figures, in order. -/
theorem keys_metricMap (m : MetricSet) : ((metricMap m).map Prod.fst).Pairwise (· < ·) := by
  show ["avg_session_duration", "conversion_rate", "conversion_sessions", "conversion_users", "conversions",
    "engagement_rate", "events", "new_users", "page_views", "revenue", "session_conversion_rate", "sessions",
    "user_conversion_rate", "users"].Pairwise (· < ·)
  decide

theorem valid_metricMap (m : MetricSet) : (GoValue.map .any (metricMap m)).valid = true :=
  valid_map (keys_metricMap m) rfl

theorem valid_metricChange (current previous : MetricSet) :
    (GoValue.map .any (metricChange current previous)).valid = true :=
  valid_map (keys_metricMap current) rfl

theorem valid_record {fields : Members} (hplain : ∀ name ∈ fields.map Prod.fst, name.toList.all isPlain = true)
    (hfields : validMembers fields = true) : (GoValue.record [] fields).valid = true := by
  rw [valid, hfields, Bool.and_true, List.all_eq_true]
  exact fun field hfield => hplain field.1 (List.mem_map_of_mem hfield)

theorem valid_insight (i : Insight) : i.value.valid = true := by
  refine valid_record ?_ rfl
  show ∀ name ∈ ["metric", "title", "severity", "change_percent", "current", "previous", "evidence", "recommendation"],
    name.toList.all isPlain = true
  decide

theorem valid_kpi (k : Kpi) : k.value.valid = true := by
  refine valid_record ?_ rfl
  show ∀ name ∈ ["key", "label", "format", "current", "previous", "change_percent", "goal"],
    name.toList.all isPlain = true
  decide

theorem valid_finding (f : Finding) : f.value.valid = true := by
  refine valid_record ?_ rfl
  show ∀ name ∈ ["id", "title", "severity", "evidence", "cause", "action", "impact"], name.toList.all isPlain = true
  decide

theorem valid_operation (o : Operation) : o.value.valid = true := by
  refine valid_map ?_ rfl
  show ["average_latency_ms", "calls", "cost", "fallbacks", "input_tokens", "label", "output_tokens", "success_rate",
    "users"].Pairwise (· < ·)
  decide

theorem valid_operationTotals (rows : List Operation) (users : Int) :
    (GoValue.map .any (operationTotals rows users)).valid = true := by
  refine valid_map ?_ rfl
  show ["average_latency_ms", "calls", "cost", "fallbacks", "input_tokens", "output_tokens", "success_rate",
    "users"].Pairwise (· < ·)
  decide

theorem validMembers_append (ms ms' : Members) : validMembers (ms ++ ms') = (validMembers ms && validMembers ms') := by
  induction ms with
  | nil => rfl
  | cons m ms ih => rw [List.cons_append, validMembers, validMembers, ih, Bool.and_assoc]

theorem valid_visitorReport (environment : String) (from_ to_ previousFrom previousTo : Int) (r : VisitorReadings) :
    (GoValue.map .any (visitorReport environment from_ to_ previousFrom previousTo r)).valid = true := by
  refine valid_map ?_ ?_
  · show ["audiences", "channels", "days", "devices", "environment", "findings", "frequency", "from", "headline", "kpis",
      "landing_pages", "lifecycle", "notes", "previous_from", "previous_to", "recency", "to"].Pairwise (· < ·)
    decide
  · simp only [visitorReport, validMembers, valid, r.audiences.valid, r.channels.valid, r.devices.valid, r.frequency.valid,
      r.landingPages.valid, r.lifecycle.valid, r.recency.valid, validItems_map valid_finding, validItems_map valid_kpi,
      Bool.and_true]
    rfl

namespace Delivery

variable (d : Delivery) (r : Readings)

theorem valid_comparisonData : (GoValue.map .any (d.comparisonData r)).valid = true := by
  have hinsights := validItems_map valid_insight (rankInsights r.platform r.previousPlatform)
  refine valid_map ?_ ?_
  · unfold comparisonData
    by_cases hkind : d.kind = .insights
    · rw [if_pos hkind]
      show ["change_percent", "current", "from", "insights", "previous", "previous_from", "previous_to", "to"].Pairwise
        (· < ·)
      decide
    · rw [if_neg hkind]
      show ["change_percent", "current", "from", "previous", "previous_from", "previous_to", "to"].Pairwise (· < ·)
      decide
  · unfold comparisonData
    by_cases hkind : d.kind = .insights
    · rw [if_pos hkind]
      simp only [validMembers_append, validMembers, valid_metricMap, valid_metricChange, Bool.and_true, Bool.true_and]
      simp only [valid, hinsights, Bool.and_true]
    · rw [if_neg hkind]
      simp only [validMembers_append, validMembers, valid_metricMap, valid_metricChange, Bool.and_true, Bool.true_and]
      simp only [valid, Bool.and_true]

theorem valid_data : (GoValue.map .any (d.data r)).valid = true := by
  unfold data
  cases hkind : d.kind with
  | overview => exact d.valid_comparisonData r
  | insights => exact d.valid_comparisonData r
  | visitorInsight => exact valid_visitorReport ..
  | ai =>
    refine valid_map ?_ ?_
    · show ["group_by", "rows", "totals"].Pairwise (· < ·)
      decide
    · simp only [validMembers, valid, validItems_map valid_operation, Bool.and_true]
      exact valid_operationTotals r.operations r.operationUsers

/-- **What is built is a payload.** -/
theorem valid_buildPayload : (GoValue.map .any (d.buildPayload r)).valid = true := by
  refine valid_map ?_ ?_
  · show ["data", "environment", "from", "generated_at", "kind", "name", "report_id", "site_id", "source",
      "to"].Pairwise (· < ·)
    decide
  · rw [buildPayload, validMembers, d.valid_data r]
    rfl

end Delivery

/-! ## §7. The property, and its condition. -/

/-- What a reader of the page has seen of its tables. -/
structure Cursor where
  rows : List (List String)
  row : List String
  cell : Option (List Char)

/-- A row ends up with the texts of its cells; one of headers has none. -/
def Cursor.next (c : Cursor) : Event → Cursor
  | .start name _ =>
    if name = "tr".toList then ⟨c.rows, [], none⟩
    else if name = "td".toList then ⟨c.rows, c.row, some []⟩
    else c
  | .stop name =>
    if name = "td".toList then ⟨c.rows, c.row ++ (c.cell.map String.ofList).toList, none⟩
    else if name = "tr".toList then ⟨if c.row = [] then c.rows else c.rows ++ [c.row], [], none⟩
    else c
  | .char ch => ⟨c.rows, c.row, c.cell.map (· ++ [ch])⟩

/-- The rows of the tables on a page, by the texts of their cells. -/
def tableRows (page : String) : List (List String) :=
  (((read page.toList).getD []).foldl Cursor.next ⟨[], [], none⟩).rows

/-- There is a row for each of these names, which stands in its first cell. -/
def HasOwnRows (names : List String) (page : String) : Prop := names.Subperm ((tableRows page).filterMap List.head?)

namespace Delivery

/-- What the items of a report are called. -/
def itemNames (d : Delivery) (r : Readings) : List String :=
  match d.kind with
  | .overview => []
  | .insights => (rankInsights r.platform r.previousPlatform).map Insight.title
  | .visitorInsight => (kpis r.visitors.current r.visitors.previous).map Kpi.label ++ r.visitors.findings.map Finding.title
  | .ai => r.operations.map Operation.label

/-- The condition: the report has no items. -/
def HasNoItems (d : Delivery) (r : Readings) : Prop :=
  match d.kind with
  | .overview => True
  | .insights => ∀ c ∈ candidates r.platform r.previousPlatform, c.quiet = true
  | .visitorInsight => False
  | .ai => r.operations = []

end Delivery

/-! ## §8. The rows of a page. -/

/-- The rows of a block that have cells. -/
def Block.rows : Block → List (List String)
  | .table _ rows => rows.filter (· ≠ [])
  | .heading _ _ | .paragraph _ | .expand _ _ => []

theorem foldl_chars (rows : List (List String)) (row : List String) (cell : Option (List Char)) (s : List Char) :
    (s.map Event.char).foldl Cursor.next ⟨rows, row, cell⟩ = ⟨rows, row, cell.map (· ++ s)⟩ := by
  induction s generalizing cell with
  | nil => cases cell <;> simp
  | cons c s ih =>
    rw [List.map_cons, List.foldl_cons]
    show (s.map Event.char).foldl Cursor.next ⟨rows, row, cell.map (· ++ [c])⟩ = _
    rw [ih]
    cases cell <;> simp

/-- Outside a cell, text is not seen. -/
theorem foldl_textEvents (rows : List (List String)) (row : List String) (s : String) :
    (textEvents s).foldl Cursor.next ⟨rows, row, none⟩ = ⟨rows, row, none⟩ :=
  foldl_chars rows row none s.toList

theorem foldl_element {name : Name} (htr : name ≠ "tr".toList) (htd : name ≠ "td".toList) (attributes : Attributes)
    (es : List Event) (c c' : Cursor) (h : es.foldl Cursor.next c = c') :
    (Event.start name attributes :: es ++ [Event.stop name]).foldl Cursor.next c = c' := by
  have hstart : c.next (.start name attributes) = c := by rw [Cursor.next, if_neg htr, if_neg htd]
  have hstop : c'.next (.stop name) = c' := by rw [Cursor.next, if_neg htd, if_neg htr]
  rw [List.foldl_append]
  show (es.foldl Cursor.next (c.next (.start name attributes))).next (.stop name) = c'
  rw [hstart, h, hstop]

/-- An element that is no part of a row. -/
theorem foldl_tagged {tag : String} (htr : tag.toList ≠ "tr".toList) (htd : tag.toList ≠ "td".toList)
    {es : List Event} {c c' : Cursor} (h : es.foldl Cursor.next c = c') : (tagged tag es).foldl Cursor.next c = c' :=
  foldl_element htr htd [] es c c' h

theorem foldl_named {tag name : String} (htr : tag.toList ≠ "tr".toList) (htd : tag.toList ≠ "td".toList)
    {es : List Event} {c c' : Cursor} (h : es.foldl Cursor.next c = c') :
    (named tag name es).foldl Cursor.next c = c' :=
  foldl_element htr htd _ es c c' h

theorem foldl_headers (rows : List (List String)) (row : List String) (headers : List String) :
    (cellEvents "th" headers).foldl Cursor.next ⟨rows, row, none⟩ = ⟨rows, row, none⟩ := by
  induction headers with
  | nil => rfl
  | cons header headers ih =>
    rw [cellEvents, List.flatMap_cons, List.foldl_append,
      foldl_tagged (by decide) (by decide) (foldl_textEvents rows row header)]
    exact ih

theorem foldl_cells (rows : List (List String)) (row : List String) (texts : List String) :
    (cellEvents "td" texts).foldl Cursor.next ⟨rows, row, none⟩ = ⟨rows, row ++ texts, none⟩ := by
  induction texts generalizing row with
  | nil => rw [List.append_nil]; rfl
  | cons text texts ih =>
    have hcell : (tagged "td" (textEvents text)).foldl Cursor.next ⟨rows, row, none⟩ = ⟨rows, row ++ [text], none⟩ := by
      rw [tagged, List.foldl_append, List.foldl_cons]
      show List.foldl Cursor.next (List.foldl Cursor.next ⟨rows, row, some []⟩ (text.toList.map .char))
        [.stop "td".toList] = _
      rw [foldl_chars]
      show (⟨rows, row ++ [String.ofList ([] ++ text.toList)], none⟩ : Cursor) = _
      rw [List.nil_append, String.ofList_toList]
    rw [cellEvents, List.flatMap_cons, List.foldl_append, hcell]
    show (cellEvents "td" texts).foldl Cursor.next _ = _
    rw [ih, List.append_assoc]
    rfl

/-- A row is seen with its cells, if it has any. -/
theorem foldl_row (rows : List (List String)) (cells : List String) :
    (tagged "tr" (cellEvents "td" cells)).foldl Cursor.next ⟨rows, [], none⟩
      = ⟨rows ++ [cells].filter (· ≠ []), [], none⟩ := by
  rw [tagged, List.foldl_append, List.foldl_cons]
  show List.foldl Cursor.next (List.foldl Cursor.next ⟨rows, [], none⟩ (cellEvents "td" cells)) [.stop "tr".toList] = _
  rw [foldl_cells, List.nil_append]
  show (⟨if cells = [] then rows else rows ++ [cells], [], none⟩ : Cursor) = _
  by_cases h : cells = []
  · rw [if_pos h, List.filter_cons_of_neg (by simp [h]), List.filter_nil, List.append_nil]
  · rw [if_neg h, List.filter_cons_of_pos (by simp [h]), List.filter_nil]

theorem foldl_rows (rows more : List (List String)) :
    (more.flatMap fun row => tagged "tr" (cellEvents "td" row)).foldl Cursor.next ⟨rows, [], none⟩
      = ⟨rows ++ more.filter (· ≠ []), [], none⟩ := by
  induction more generalizing rows with
  | nil => rw [List.filter_nil, List.append_nil]; rfl
  | cons row more ih =>
    rw [List.flatMap_cons, List.foldl_append, foldl_row, ih, List.append_assoc, ← List.filter_append,
      List.singleton_append]

/-- The row of headers is none of the rows. -/
theorem foldl_headerRow (rows : List (List String)) (headers : List String) :
    (tagged "tr" (cellEvents "th" headers)).foldl Cursor.next ⟨rows, [], none⟩ = ⟨rows, [], none⟩ := by
  rw [tagged, List.foldl_append, List.foldl_cons]
  show List.foldl Cursor.next (List.foldl Cursor.next ⟨rows, [], none⟩ (cellEvents "th" headers)) [.stop "tr".toList] = _
  rw [foldl_headers]
  rfl

/-- **What is seen of a block**: the rows of its table. -/
theorem foldl_block (rows : List (List String)) (b : Block) :
    b.events.foldl Cursor.next ⟨rows, [], none⟩ = ⟨rows ++ b.rows, [], none⟩ := by
  cases b with
  | heading level text =>
    rw [Block.rows, List.append_nil, Block.events]
    exact foldl_tagged (by simp) (by simp) (foldl_textEvents rows [] text)
  | paragraph text =>
    rw [Block.rows, List.append_nil, Block.events]
    exact foldl_tagged (by decide) (by decide) (foldl_textEvents rows [] text)
  | expand title preformatted =>
    rw [Block.rows, List.append_nil, Block.events, expandEvents]
    refine foldl_named (by decide) (by decide) ?_
    rw [List.foldl_append, foldl_named (by decide) (by decide) (foldl_textEvents rows [] title)]
    exact foldl_tagged (by decide) (by decide)
      (foldl_tagged (by decide) (by decide) (foldl_textEvents rows [] preformatted))
  | table headers body =>
    rw [Block.rows, Block.events, tableEvents]
    by_cases hnone : body = []
    · rw [if_pos hnone, hnone, List.filter_nil, List.append_nil]
      rfl
    · rw [if_neg hnone]
      refine foldl_tagged (by decide) (by decide) (foldl_tagged (by decide) (by decide) ?_)
      rw [List.foldl_append, foldl_headerRow, foldl_rows]

/-- **The rows of a page are those of its blocks.** -/
theorem tableRows_confluenceBody (env : Platform) (payload : Members) :
    tableRows (confluenceBody env payload) = (confluenceBlocks env payload).flatMap Block.rows := by
  have hblocks : ∀ (bs : List Block) (rows : List (List String)),
      (bs.flatMap Block.events).foldl Cursor.next ⟨rows, [], none⟩ = ⟨rows ++ bs.flatMap Block.rows, [], none⟩ := by
    intro bs
    induction bs with
    | nil =>
      intro rows
      rw [List.flatMap_nil, List.flatMap_nil, List.append_nil]
      rfl
    | cons b bs ih =>
      intro rows
      rw [List.flatMap_cons, List.flatMap_cons, List.foldl_append, foldl_block, ih, List.append_assoc]
  rw [tableRows, (reads_confluenceBody env payload).read_eq, Option.getD_some, hblocks, List.nil_append]

/-- The report's own blocks are the only ones with rows. -/
theorem tableRows_eq (env : Platform) (payload : Members) :
    tableRows (confluenceBody env payload) = (dataBlocks (asMap (at_ payload "data"))).flatMap Block.rows := by
  have hline : (if period env payload = [] then []
      else [Block.paragraph (" · ".intercalate (period env payload))]).flatMap Block.rows = [] := by
    split <;> rfl
  have hlast : (attachment payload).rows = [] := by
    unfold attachment
    split <;> rfl
  rw [tableRows_confluenceBody, confluenceBlocks, List.flatMap_append, List.flatMap_append, List.flatMap_cons, hline,
    List.flatMap_singleton, hlast, List.append_nil]
  rfl

/-! ## §9. What the renderer does not find. -/

/-- A slice of one type is none of `[]any`. -/
theorem sliceAt_typed {values : Members} {key : String} {items : List GoValue}
    (h : at_ values key = .slice .typed items) : sliceAt values key = [] := by
  rw [sliceAt, h]
  rfl

/-- **The insights report**: the table of the figures, and nothing under it. -/
theorem comparisonBlocks_rows {data : Members} (hinsights : sliceAt data "insights" = []) :
    (comparisonBlocks data).flatMap Block.rows = (orderedKeys (mapAt data "current")).map
      (comparisonRow (mapAt data "current") (mapAt data "previous") (mapAt data "change_percent")) := by
  rw [comparisonBlocks, hinsights, if_pos rfl, List.flatMap_singleton, Block.rows, List.filter_eq_self]
  intro row hrow
  obtain ⟨key, -, rfl⟩ := List.mem_map.mp hrow
  rfl

/-- **The visitor report**: its headline. -/
theorem visitorBlocks_rows {data : Members} (hkpis : sliceAt data "kpis" = []) (hfindings : sliceAt data "findings" = []) :
    (visitorBlocks data).flatMap Block.rows = [] := by
  have hheadline : (paragraphOf (asString (at_ data "headline"))).flatMap Block.rows = [] := by
    unfold paragraphOf
    split
    · split <;> rfl
    · rfl
  rw [visitorBlocks, hkpis, hfindings, if_pos rfl, List.flatMap_append, hheadline]
  rfl

/-- **The AI report**: that there is nothing. -/
theorem labelledBlocks_rows {data : Members} (hrows : sliceAt data "rows" = []) :
    (labelledBlocks data).flatMap Block.rows = [] := by
  rw [labelledBlocks, if_pos hrows]
  rfl

/-- The first cells of the figures are what they are called. -/
theorem heads_comparisonRows (current previous change : Members) (keys : List String) :
    (keys.map (comparisonRow current previous change)).filterMap List.head? = keys.map confluenceTitle := by
  rw [List.filterMap_map]
  show keys.filterMap (some ∘ confluenceTitle) = keys.map confluenceTitle
  rw [List.filterMap_eq_map]

namespace Delivery

variable (env : Platform) (d : Delivery) (r : Readings)

theorem tableRows_page : tableRows (confluenceBody env (d.buildPayload r))
    = (dataBlocks (some (d.data r))).flatMap Block.rows := by
  rw [tableRows_eq]
  rfl

/-- What the comparing reports say of the insights is not found. -/
theorem rows_comparison (hkind : d.kind = .overview ∨ d.kind = .insights) :
    (tableRows (confluenceBody env (d.buildPayload r))).filterMap List.head?
      = (orderedKeys (metricMap r.current)).map confluenceTitle := by
  have hdata : d.data r = d.comparisonData r := by
    unfold data
    obtain h | h := hkind <;> rw [h]
  have hcurrent : at_ (d.comparisonData r) "current" = .map .any (metricMap r.current) := rfl
  have hinsights : sliceAt (d.comparisonData r) "insights" = [] := by
    unfold comparisonData
    obtain h | h := hkind <;> rw [h] <;> rfl
  have hblocks : dataBlocks (some (d.comparisonData r)) = comparisonBlocks (d.comparisonData r) := by
    rw [dataBlocks, hcurrent]
    rfl
  rw [tableRows_page, hdata, hblocks, comparisonBlocks_rows hinsights, heads_comparisonRows, mapAt, hcurrent]
  rfl

theorem rows_visitorInsight (hkind : d.kind = .visitorInsight) :
    tableRows (confluenceBody env (d.buildPayload r)) = [] := by
  obtain ⟨data, hdata, hcurrent, hkpis, hfindings⟩ : ∃ data, d.data r = data ∧ at_ data "current" = .nil
      ∧ at_ data "kpis" = .slice .typed ((kpis r.visitors.current r.visitors.previous).map Kpi.value)
      ∧ at_ data "findings" = .slice .typed (r.visitors.findings.map Finding.value) := by
    refine ⟨_, rfl, ?_⟩
    unfold Delivery.data
    rw [hkind]
    exact ⟨rfl, rfl, rfl⟩
  have hblocks : dataBlocks (some data) = visitorBlocks data := by
    rw [dataBlocks, hcurrent, hkpis]
    rfl
  rw [tableRows_page, hdata, hblocks, visitorBlocks_rows (sliceAt_typed hkpis) (sliceAt_typed hfindings)]

theorem rows_ai (hkind : d.kind = .ai) : tableRows (confluenceBody env (d.buildPayload r)) = [] := by
  obtain ⟨data, hdata, hcurrent, hkpis, hrows⟩ : ∃ data, d.data r = data ∧ at_ data "current" = .nil
      ∧ at_ data "kpis" = .nil ∧ at_ data "rows" = .slice .typed (r.operations.map Operation.value) := by
    refine ⟨_, rfl, ?_⟩
    unfold Delivery.data
    rw [hkind]
    exact ⟨rfl, rfl, rfl⟩
  have hblocks : dataBlocks (some data) = labelledBlocks data := by
    rw [dataBlocks, hcurrent, hkpis, hrows]
    rfl
  rw [tableRows_page, hdata, hblocks, labelledBlocks_rows (sliceAt_typed hrows)]

end Delivery

/-! ## §10. The items. -/

/-- No insight is called what a figure is called. -/
theorem title_ne_confluenceTitle (current previous : PlatformMetrics) (m : MetricSet) :
    ∀ title ∈ (rankInsights current previous).map Insight.title, title ∉ (orderedKeys (metricMap m)).map confluenceTitle := by
  have hapart : ∀ title ∈ ["활성 사용자 변화", "이벤트 사용량 변화", "전환 변화", "사용자 오류 변화", "매출 변화"],
      ∀ key ∈ ["avg_session_duration", "conversion_rate", "conversion_sessions", "conversion_users", "conversions",
        "engagement_rate", "events", "new_users", "page_views", "revenue", "session_conversion_rate", "sessions",
        "user_conversion_rate", "users"], confluenceTitle key ≠ title := by decide
  intro title htitle hfigure
  obtain ⟨i, hi, rfl⟩ := List.mem_map.mp htitle
  rw [rankInsights, List.mem_mergeSort] at hi
  obtain ⟨c, hc, rfl⟩ := List.mem_map.mp hi
  obtain ⟨key, hkey, hsame⟩ := List.mem_map.mp hfigure
  have hmem : c.title ∈ (candidates current previous).map Candidate.title :=
    List.mem_map_of_mem (List.mem_filter.mp hc).1
  exact hapart c.title hmem key (mem_orderedKeys.mp hkey) hsame

/-- Names that no row begins with have rows where there are none of them. -/
theorem hasOwnRows_iff_nil {names : List String} {page : String}
    (h : ∀ name ∈ names, name ∉ (tableRows page).filterMap List.head?) : HasOwnRows names page ↔ names = [] := by
  constructor
  · intro hrows
    rw [List.eq_nil_iff_forall_not_mem]
    intro name hname
    exact h name hname (hrows.subset hname)
  · intro hnone
    rw [hnone]
    exact List.nil_subperm

theorem rankInsights_eq_nil_iff (current previous : PlatformMetrics) :
    rankInsights current previous = [] ↔ ∀ c ∈ candidates current previous, c.quiet = true := by
  rw [rankInsights, ← List.length_eq_zero_iff, List.length_mergeSort, List.length_eq_zero_iff, List.map_eq_nil_iff,
    List.filter_eq_nil_iff]
  exact forall₂_congr fun c _ => by rw [Bool.not_eq_true', Bool.not_eq_false]

/-- **What the page leaves out**: every item has a row of its own exactly where the
report has none. -/
theorem hasOwnRows_iff (env : Platform) (d : Delivery) (r : Readings) :
    HasOwnRows (d.itemNames r) (confluenceBody env (d.buildPayload r)) ↔ d.HasNoItems r := by
  cases hkind : d.kind with
  | overview =>
    rw [Delivery.itemNames, Delivery.HasNoItems, hkind]
    exact ⟨fun _ => trivial, fun _ => List.nil_subperm⟩
  | insights =>
    have hapart := title_ne_confluenceTitle r.platform r.previousPlatform r.current
    rw [← d.rows_comparison env r (.inr hkind)] at hapart
    rw [Delivery.itemNames, Delivery.HasNoItems, hkind]
    exact (hasOwnRows_iff_nil hapart).trans (List.map_eq_nil_iff.trans (rankInsights_eq_nil_iff _ _))
  | visitorInsight =>
    have hnone := d.rows_visitorInsight env r hkind
    rw [Delivery.itemNames, Delivery.HasNoItems, hkind]
    refine (hasOwnRows_iff_nil ?_).trans ⟨fun h => ?_, False.elim⟩
    · rw [hnone]
      exact fun _ _ => List.not_mem_nil
    · cases (List.append_eq_nil_iff.mp h).1
  | ai =>
    have hnone := d.rows_ai env r hkind
    rw [Delivery.itemNames, Delivery.HasNoItems, hkind]
    refine (hasOwnRows_iff_nil ?_).trans List.map_eq_nil_iff
    rw [hnone]
    exact fun _ _ => List.not_mem_nil

namespace Sample

def quietMetrics : MetricSet where
  users := 1
  newUsers := 0
  sessions := 1
  pageViews := 1
  events := 1
  conversions := 0
  conversionUsers := 0
  conversionSessions := 0
  engagementRate := .fin zero
  avgSessionDuration := .fin zero
  userConversionRate := .fin zero
  sessionConversionRate := .fin zero
  revenue := .fin zero

def quietPeriod : PeriodMetrics := ⟨1, 0, 1, 1, 0, 0, .fin zero⟩

def nothing : Part := ⟨.slice .typed [], rfl⟩

/-- The AI report of a week in which one model was called. -/
def models : Delivery := ⟨"00000000-0000-0000-0000-000000000001", "site", "weekly", .ai, []⟩

def modelReadings : Readings where
  location := .utc
  now := Momento.Sample.newYear * 1000
  generatedAt := Momento.Sample.newYear * 1000
  current := quietMetrics
  previous := quietMetrics
  platform := ⟨1, 1, 0, 0, .fin zero⟩
  previousPlatform := ⟨1, 1, 0, 0, .fin zero⟩
  visitors := ⟨quietPeriod, quietPeriod, [], nothing, nothing, nothing, nothing, nothing, nothing, nothing⟩
  operations := [⟨"gpt", 3, 1, .fin hundred, .fin hundred, 10, 10, .fin zero, 0⟩]
  operationUsers := 1

/-- The page has no row for it. -/
theorem models_without_rows :
    ¬ HasOwnRows (models.itemNames modelReadings)
      (confluenceBody Momento.Sample.platform (models.buildPayload modelReadings)) := by
  intro h
  have hnames : models.itemNames modelReadings = ["gpt"] := rfl
  rw [HasOwnRows, hnames, models.rows_ai _ _ rfl, List.filterMap_nil] at h
  exact absurd (h.subset List.mem_cons_self) List.not_mem_nil

end Sample

end Momento.Automation
