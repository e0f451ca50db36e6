/-
  Momento.Segment.Compile

  **A SEGMENT DEFINITION COMPILED INTO SQL.**  A definition is a tree of groups and
  rules.  Each rule becomes a condition whose values are bound parameters, appended to
  one growing list and numbered by its length; a group joins the conditions of its
  members.

  A rule over a person's history selects the persons by an uncorrelated subquery.  It is
  written in place, or collected as a named CTE with a reference in its place: one
  compiler for both, told apart by whether there is a collector.
-/
import Momento.Model.Json
import Momento.Model.Event

namespace Momento.Segment

open Foundation

/-! ## §1. Definitions and dimensions. -/

/-- `Node`: a group of rules, or one rule. -/
inductive Node where
  | mk (combinator : String) (rules : List Node) (field operator : String) (value : Json)

/-- A dimension of the registry. -/
structure CustomDimension where
  propertyKey : String
  scope : String

/-- `Resolver`. -/
structure Resolver where
  custom : String → Option CustomDimension
  siteId : Uuid
  environment : String

/-- `eventNamePattern` and `PropertyKeyPattern`. -/
def isKey (text : String) : Bool :=
  match text.toList with
  | [] => false
  | c :: cs =>
    (c.isAlpha || c = '_') && cs.length ≤ 127
      && cs.all fun c => c.isAlphanum || c = '_' || c = '.' || c = '-'

/-- `builtinDimensionSQL`, each template at its alias. -/
def builtinDimensionSQL (rowAlias : String) : List (String × String) :=
  [("event.name", rowAlias ++ ".event_name"),
    ("page.url", rowAlias ++ ".page_url"),
    ("device.type", rowAlias ++ ".device_type"),
    ("browser", rowAlias ++ ".browser"),
    ("os", rowAlias ++ ".os"),
    ("country", rowAlias ++ ".country"),
    ("traffic.source", rowAlias ++ ".source"),
    ("traffic.medium", rowAlias ++ ".medium"),
    ("traffic.campaign", rowAlias ++ ".campaign"),
    ("traffic.class", rowAlias ++ ".client_class"),
    ("network", rowAlias ++ ".network_name"),
    ("traffic.internal", rowAlias ++ ".is_internal"),
    ("user.id", rowAlias ++ ".canonical_user_id"),
    ("visitor.id", rowAlias ++ ".visitor_id"),
    ("session.id", rowAlias ++ ".session_id"),
    ("user.department", rowAlias ++ ".canonical_user_properties->>'department'"),
    ("user.organization", rowAlias ++ ".canonical_user_properties->>'organization'"),
    ("feature", rowAlias ++ ".properties->>'feature'"),
    ("button", "coalesce(" ++ rowAlias ++ ".properties->>'button'," ++ rowAlias
      ++ ".properties->>'element_text')"),
    ("is_conversion", rowAlias ++ ".is_conversion::text"),
    ("environment", rowAlias ++ ".environment"),
    ("contract.version", rowAlias ++ ".contract_version::text"),
    ("release.version", rowAlias ++ ".properties->>'release_version'"),
    ("app.version", rowAlias ++ ".properties->>'app_version'")]

/-- `Resolver.Expression`. -/
def Resolver.expression (resolver : Resolver) (field rowAlias : String) : Except String String :=
  match (builtinDimensionSQL rowAlias).lookup field with
  | some sql => .ok sql
  | none =>
    match resolver.custom field with
    | none => .error ("unsupported dimension: " ++ field)
    | some item =>
      if !isKey item.propertyKey then .error "custom dimension has an invalid property key"
      else if item.scope = "user" then
        .ok (rowAlias ++ ".canonical_user_properties->>'" ++ item.propertyKey ++ "'")
      else if item.scope = "event" ∨ item.scope = "session" then
        .ok (rowAlias ++ ".properties->>'" ++ item.propertyKey ++ "'")
      else .error "item-scoped dimensions are available in Ecommerce reports"

/-- The signals `entityAggregateSQL` counts as friction. -/
def frictionSignals : String :=
  "'\x7brage_click,dead_click,rapid_back,form_retry,repeated_search,error_after_click,"
    ++ "slow_interaction,error,resource_error\x7d'"

/-- The aggregates of an entity. -/
def entityAggregateSQL : List (String × String) :=
  [("entity.sessions", "count(DISTINCT segment_entity.session_id)"),
    ("entity.events", "count(*)"),
    ("entity.conversions", "count(*) FILTER(WHERE segment_entity.is_conversion)"),
    ("entity.days_since_last_seen",
      "extract(epoch FROM (now()-max(segment_entity.event_timestamp)))/86400"),
    ("entity.days_since_first_seen",
      "extract(epoch FROM (now()-min(segment_entity.event_timestamp)))/86400"),
    ("entity.frustration_signals",
      "count(*) FILTER(WHERE segment_entity.event_name = ANY(" ++ frictionSignals ++ "))"),
    ("entity.frustration_sessions",
      "count(DISTINCT segment_entity.session_id) FILTER(WHERE segment_entity.event_name = ANY("
        ++ frictionSignals ++ "))"),
    ("entity.searches", "count(*) FILTER(WHERE segment_entity.event_name='search')"),
    ("entity.zero_result_searches",
      "count(*) FILTER(WHERE segment_entity.event_name='search_no_result' OR "
        ++ "(segment_entity.event_name='search' AND segment_entity.properties->>'result_count'='0'))"),
    ("entity.search_clicks", "count(*) FILTER(WHERE segment_entity.event_name='search_click')")]

/-! ## §2. The SQL that is put together. -/

/-- A bound parameter. -/
inductive Arg
  | text (s : String)
  | texts (ss : List String)
  | number (x : Binary64)
  | siteId (id : Uuid)

/-- A piece of a predicate: plain text, a `$n`, or a subquery that reads a CTE. -/
inductive Piece
  | text (s : String)
  | placeholder (n : Nat)
  | reference (name : String)
  deriving DecidableEq

/-- A piece as text. -/
def Piece.render : Piece → String
  | .text s => s
  | .placeholder n => "$" ++ toString n
  | .reference name => "SELECT entity_id FROM " ++ name

/-- A text of SQL. -/
abbrev Sql := List Piece

/-- The text. -/
def Sql.render (sql : Sql) : String := String.join (sql.map Piece.render)

/-- A member of the `WITH` list. -/
structure Cte where
  name : String
  body : Sql

/-- The text of a common table expression. -/
def Cte.render (cte : Cte) : String := cte.name ++ " AS MATERIALIZED (" ++ Sql.render cte.body ++ ")"

/-- What is behind the pointers a compilation is given: the arguments so far, and the
collector, if there is one. -/
structure Compiling where
  args : List Arg
  collector : Option (List Cte)

/-- `*args = append(*args, values...)`. -/
def Compiling.append (s : Compiling) (values : List Arg) : Compiling :=
  { s with args := s.args ++ values }

/-! ## §3. Rules. -/

/-- `numericValue`. -/
def numericValue : Json → Option Binary64
  | .num x => some (.fin x)
  | value =>
    match parseFloat value.sprint with
    | (parsed, true) => some parsed
    | (_, false) => none

/-- `LikeLiteral`. -/
def likeLiteral (value : String) : String :=
  String.ofList (value.toList.flatMap fun c =>
    if c = '\\' ∨ c = '%' ∨ c = '_' then ['\\', c] else [c])

/-- `compileEventExistence`. -/
def compileEventExistence (operator : String) (value : Json) (rowAlias : String) (s : Compiling) :
    Except String (Sql × Compiling) :=
  let base := "segment_event.site_id=" ++ rowAlias ++ ".site_id AND segment_event.environment=" ++ rowAlias
    ++ ".environment AND segment_event.entity_id=" ++ rowAlias ++ ".entity_id"
  let exists_ := "EXISTS(SELECT 1 FROM analytics_events segment_event WHERE " ++ base
    ++ " AND segment_event.event_name="
  if operator = "=" ∨ operator = "!=" then
    let name := trimSpace value.sprint
    if !isKey name then .error "event.has requires a valid event name"
    else
      let s := s.append [.text name]
      let sql : Sql := [.text exists_, .placeholder s.args.length, .text ")"]
      .ok (if operator = "!=" then .text "NOT " :: sql else sql, s)
  else if operator = "in" ∨ operator = "not in" then
    match value with
    | .arr raw =>
      if raw.length = 0 ∨ 100 < raw.length then
        .error ("event.has " ++ operator ++ " requires 1 to 100 event names")
      else
        let names := raw.map fun v => trimSpace v.sprint
        if !names.all isKey then .error "event.has requires valid event names"
        else
          let s := s.append [.texts names]
          let sql : Sql := [.text (exists_ ++ "ANY("), .placeholder s.args.length, .text "))"]
          .ok (if operator = "not in" then .text "NOT " :: sql else sql, s)
    | _ => .error ("event.has " ++ operator ++ " requires 1 to 100 event names")
  else .error "event.has supports =, !=, in, and not in"

/-- `compileEntityAggregate`. -/
def compileEntityAggregate (field operator : String) (value : Json) (resolver : Resolver)
    (expression rowAlias ctePrefix : String) (s : Compiling) : Except String (Sql × Compiling) :=
  if operator ∉ ["=", "!=", ">", ">=", "<", "<="] then
    .error (field ++ " requires a numeric comparison operator")
  else
    match numericValue value with
    | none => .error (field ++ " requires a numeric value")
    | some value =>
      if resolver.siteId = ⟨0⟩ ∨ resolver.environment = "" then
        .error (field ++ " cannot be evaluated without a site and environment")
      else
        let s := s.append [.siteId resolver.siteId, .text resolver.environment, .number value]
        let membership : Sql :=
          [.text ("SELECT segment_entity.entity_id FROM analytics_events segment_entity"
              ++ " WHERE segment_entity.site_id="), .placeholder (s.args.length - 2),
            .text " AND segment_entity.environment=", .placeholder (s.args.length - 1),
            .text (" GROUP BY segment_entity.entity_id HAVING coalesce(" ++ expression ++ ",0) "
              ++ (if operator = "!=" then "<>" else operator) ++ " "),
            .placeholder s.args.length]
        match s.collector with
        | none => .ok (.text (rowAlias ++ ".entity_id IN (") :: membership ++ [.text ")"], s)
        | some ctes =>
          let name := ctePrefix ++ toString (ctes.length + 1)
          .ok ([.text (rowAlias ++ ".entity_id IN ("), .reference name, .text ")"],
            { s with collector := some (ctes ++ [⟨name, membership⟩]) })

/-- The rest of `compile` for a rule over a dimension. -/
def compileDimension (operator : String) (value : Json) (expr : String) (s : Compiling) :
    Except String (Sql × Compiling) :=
  if operator = "exists" then
    .ok ([.text ("(" ++ expr ++ " IS NOT NULL AND " ++ expr ++ "<>'')")], s)
  else if operator = "not exists" then
    .ok ([.text ("(" ++ expr ++ " IS NULL OR " ++ expr ++ "='')")], s)
  else if operator = "in" ∨ operator = "not in" then
    match value with
    | .arr raw =>
      if raw.length = 0 ∨ 100 < raw.length then
        .error (operator ++ " requires an array with 1 to 100 values")
      else
        let s := s.append [.texts (raw.map Json.sprint)]
        .ok ([.text (expr ++ if operator = "in" then " = ANY(" else " <> ALL("),
          .placeholder s.args.length, .text ")"], s)
    | _ => .error (operator ++ " requires an array with 1 to 100 values")
  else if operator ∈ ["=", "!=", "contains", "not contains", "startsWith", "endsWith"] then
    let text := if operator ≠ "=" ∧ operator ≠ "!=" then likeLiteral value.sprint else value.sprint
    let s := s.append [.text text]
    let placeholder : Piece := .placeholder s.args.length
    if operator = "=" ∨ operator = "!=" then
      .ok ([.text (expr ++ " " ++ operator ++ " "), placeholder], s)
    else if operator = "contains" then
      .ok ([.text (expr ++ " ILIKE '%'||"), placeholder, .text "||'%'"], s)
    else if operator = "not contains" then
      .ok ([.text (expr ++ " NOT ILIKE '%'||"), placeholder, .text "||'%'"], s)
    else if operator = "startsWith" then
      .ok ([.text (expr ++ " ILIKE "), placeholder, .text "||'%'"], s)
    else .ok ([.text (expr ++ " ILIKE '%'||"), placeholder], s)
  else if operator ∈ [">", ">=", "<", "<="] then
    match numericValue value with
    | none => .error (operator ++ " requires a numeric value")
    | some value =>
      let s := s.append [.number value]
      .ok ([.text ("(CASE WHEN " ++ expr ++ " ~ '^-?[0-9]+(\\.[0-9]+)?$' THEN (" ++ expr
        ++ ")::numeric END) " ++ operator ++ " "), .placeholder s.args.length], s)
  else .error ("unsupported operator: " ++ operator)

/-- A node that is a rule. -/
def compileRule (field operator : String) (value : Json) (resolver : Resolver)
    (rowAlias ctePrefix : String) (s : Compiling) : Except String (Sql × Compiling) :=
  if field = "event.has" then compileEventExistence operator value rowAlias s
  else
    match entityAggregateSQL.lookup field with
    | some expression =>
      compileEntityAggregate field operator value resolver expression rowAlias ctePrefix s
    | none =>
      match resolver.expression field rowAlias with
      | .error e => .error e
      | .ok expr => compileDimension operator value expr s

/-! ## §4. Groups. -/

/-- `strings.ToLower(node.Combinator)`, where it is one of the two. -/
def combinatorOf (combinator : String) : Option String :=
  if combinator.toLower = "and" then some " AND "
  else if combinator.toLower = "or" then some " OR "
  else none

/-- `"(" + strings.Join(parts, …) + ")"`. -/
def joined (separator : String) (parts : List Sql) : Sql :=
  .text "(" :: List.intercalate [.text separator] parts ++ [.text ")"]

section
variable (resolver : Resolver) (rowAlias ctePrefix : String)

mutual

/-- `compile`.  What a failed compilation has appended stays appended. -/
def compile : Node → Int → Compiling → Except String Sql × Compiling
  | .mk combinator rules field operator value, depth, s =>
    if 5 < depth then (.error "segment nesting is limited to 5 levels", s)
    else if 0 < rules.length ∨ combinator ≠ "" then
      match combinatorOf combinator with
      | none => (.error "segment combinator must be and or or", s)
      | some separator =>
        if rules.length = 0 then (.error "segment group must contain at least one rule", s)
        else if 50 < rules.length then (.error "segment group is limited to 50 rules", s)
        else
          match compileRules rules (depth + 1) s with
          | (.error e, s') => (.error e, s')
          | (.ok parts, s') => (.ok (joined separator parts), s')
    else
      match compileRule field operator value resolver rowAlias ctePrefix s with
      | .error e => (.error e, s)
      | .ok (sql, s') => (.ok sql, s')

/-- The members of a group, one after the other. -/
def compileRules : List Node → Int → Compiling → Except String (List Sql) × Compiling
  | [], _, s => (.ok [], s)
  | rule :: rules, depth, s =>
    match compile rule depth s with
    | (.error e, s') => (.error e, s')
    | (.ok part, s') =>
      match compileRules rules depth s' with
      | (.error e, s'') => (.error e, s'')
      | (.ok parts, s'') => (.ok (part :: parts), s'')

end

/-- What `CompileHoisted` answers, and what it leaves behind the argument pointer. -/
structure Compiled where
  predicate : Except String Sql
  ctes : List Cte
  args : List Arg

/-- `CompileHoisted`. -/
def compileHoisted (node : Node) (args : List Arg) (depth : Int) : Compiled :=
  let collector := if ctePrefix ≠ "" then some [] else none
  let (predicate, s) := compile resolver rowAlias ctePrefix node depth ⟨args, collector⟩
  ⟨predicate, s.collector.getD [], s.args⟩

end

/-- `Compile`. -/
def compileInline (resolver : Resolver) (rowAlias : String) (node : Node) (args : List Arg) (depth : Int) :
    Compiled :=
  compileHoisted resolver rowAlias "" node args depth

end Momento.Segment
