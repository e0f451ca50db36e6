/-
  Momento.Reports.Attribution

  **WHICH VISIT EARNS A CONVERSION.**  Every conversion of the period has a path:
  the visits of the same person before it.  A model gives each visit of the path a
  weight; the report adds the weights up by channel and by site.

  The database works the weights out in exact arithmetic here: over any ordered
  field, `0.5 ^ x` being any positive function.
-/
import Momento.Foundation.Table
import Momento.Foundation.Window
import Mathlib.Algebra.Order.Floor.Semiring
import Mathlib.Data.Prod.Lex
import Mathlib.Analysis.SpecialFunctions.Pow.Real
import Momento.Model.Figures
import Momento.Model.Json
import Momento.Model.Platform
import Momento.Service.Runs
import Mathlib.Logic.Encodable.Basic
import Mathlib.Logic.Equiv.List
import Momento.Reports.AnalyticsEvents

namespace Momento.Reports

open Foundation Foundation.Window

/-! ## §1. The models. -/

/-- A model, as it is offered. -/
structure AttributionModel where
  key : String
  label : String
  description : String
  multiTouch : Bool := false

/-- `AttributionModels`. -/
def attributionModels : List AttributionModel :=
  [{ key := "last_non_direct", label := "마지막 비직접 터치"
     description := "전환 직전 채널 정보가 있는 마지막 방문에 전부 배분합니다. 직접 방문만 있으면 직접에 배분합니다." },
   { key := "first_touch", label := "최초 터치"
     description := "Lookback 안의 첫 방문에 전부 배분합니다. 신규 발견 기여를 봅니다." },
   { key := "last_touch", label := "마지막 터치"
     description := "전환 직전 방문에 전부 배분합니다." },
   { key := "linear", label := "선형 분배"
     description := "경로의 모든 방문에 같은 비중으로 나눕니다. 전환까지의 모든 접점을 동등하게 인정합니다."
     multiTouch := true },
   { key := "time_decay", label := "시간 감쇠"
     description := "전환에 가까운 방문에 더 많이 배분합니다. 기본 반감기는 7일입니다."
     multiTouch := true },
   { key := "position_based", label := "위치 기반"
     description := "첫 방문과 마지막 방문에 각 40%, 중간 방문들이 나머지 20%를 나눕니다."
     multiTouch := true }]

/-- The keys of `attributionWeights`. -/
inductive Weighting
  | firstTouch
  | lastTouch
  | lastNonDirect
  | linear
  | positionBased
  | timeDecay (halfLifeDays : Nat)

/-- The half-life, where none is asked for. -/
def defaultHalfLifeDays : Nat := 7

/-- The half life a number of days stands for. -/
def clampHalfLife (halfLifeDays : Int) : Nat :=
  if halfLifeDays < 1 ∨ 90 < halfLifeDays then defaultHalfLifeDays else halfLifeDays.toNat

/-- `AttributionWeight`. -/
def attributionWeight (model : String) (halfLifeDays : Int) : Option Weighting :=
  if model = "first_touch" then some .firstTouch
  else if model = "last_touch" then some .lastTouch
  else if model = "last_non_direct" then some .lastNonDirect
  else if model = "linear" then some .linear
  else if model = "position_based" then some .positionBased
  else if model = "time_decay" then some (.timeDecay (clampHalfLife halfLifeDays))
  else none

/-! ## §2. Conversions, touches, paths. -/

/-- What the report asks for. -/
structure AttributionQuery where
  siteId : Uuid
  touchSites : List Uuid
  environment : String
  from_ : Instant
  to_ : Instant
  lookbackDays : Int
  model : String
  halfLifeDays : Int
  scope : String

/-- What the database brings to a run: the calendar of its time zone, the order
it has session ids in, and in which order it takes rows alike in the columns a
window is ordered by. -/
structure Server where
  /-- `t - make_interval(days => n)`. -/
  minusDays : Instant → Nat → Instant
  /-- The place of a session id, and of a site among those with sessions of that id. -/
  rank : String → Uuid → Nat
  rank_injective : ∀ {s t : String} {u v : Uuid}, rank s u = rank t v → s = t ∧ u = v

/-- `conv`. -/
def conversions (query : AttributionQuery) (s : Store) : List AnalyticsEvent :=
  (analyticsEvents s).filter fun e =>
    e.siteId = query.siteId ∧ e.environment = query.environment ∧ query.from_ ≤ e.eventTimestamp
      ∧ e.eventTimestamp < query.to_ ∧ e.isConversion

/-- A row of `touch`. -/
structure Touch where
  entityId : String
  sessionId : String
  startedAt : Instant
  siteId : Uuid
  source : String
  medium : String
  deriving DecidableEq

/-- `t.source <> '' OR t.medium <> ''`. -/
def Touch.nonDirect (t : Touch) : Bool := t.source ≠ "" ∨ t.medium ≠ ""

/-- A session, as a touch. -/
def touchOf (s : Store) (key : SessionKey) (session : Session) : Touch where
  entityId := Reports.entityId (canonicalUser s.visitorIdentities key.siteId session.visitorId session.userId)
    session.visitorId
  sessionId := key.sessionId
  startedAt := session.startedAt
  siteId := key.siteId
  source := session.source.getD ""
  medium := session.medium.getD ""

section
variable (server : Server) (query : AttributionQuery) (lookback : Nat) (touchSites : List Uuid)

/-- `touch`. -/
def touches (s : Store) : List Touch :=
  (s.sessions.entries.filter fun e =>
    e.1.siteId ∈ touchSites ∧ e.1.environment = query.environment
      ∧ server.minusDays query.from_ lookback ≤ e.2.startedAt ∧ e.2.startedAt < query.to_).map
    fun e => touchOf s e.1 e.2

/-- `t` is on the path of the conversion `c`. -/
def onPath (c : AnalyticsEvent) (t : Touch) : Bool :=
  t.entityId = c.entityId ∧ t.startedAt ≤ c.eventTimestamp
    ∧ server.minusDays c.eventTimestamp lookback ≤ t.startedAt

/-- A row of the join, before its windows. -/
structure Joined where
  eventId : Uuid
  entityId : String
  convertedAt : Instant
  touch : Touch
  deriving DecidableEq

/-- `conv c JOIN touch t ON …`. -/
def joined (s : Store) : List Joined :=
  (conversions query s).flatMap fun c =>
    ((touches server query lookback touchSites s).filter (onPath server lookback c)).map
      fun t => ⟨c.eventId, c.entityId, c.eventTimestamp, t⟩

end

/-- `PARTITION BY c.event_id`. -/
def partitionOf (rows : List Joined) (eventId : Uuid) : List Joined := rows.filter fun r => r.eventId = eventId

section
variable (server : Server)

/-- `ORDER BY t.started_at, t.session_id`. -/
def byStart (r : Joined) : Int ×ₗ Nat := toLex (r.touch.startedAt, server.rank r.touch.sessionId r.touch.siteId)

/-- `ORDER BY t.started_at DESC, t.session_id`. -/
def byStartDesc (r : Joined) : Int ×ₗ Nat :=
  toLex (-r.touch.startedAt, server.rank r.touch.sessionId r.touch.siteId)

/-- A row of `path`. -/
structure PathRow where
  eventId : Uuid
  entityId : String
  source : String
  medium : String
  touchSite : Uuid
  position : Nat
  touches : Nat
  nonDirectTouches : Nat
  nonDirectRank : Option Nat
  daysBefore : ℚ

/-- The row with its windows over `rows`. -/
def pathRow (rows : List Joined) (r : Joined) : PathRow :=
  let partition := partitionOf rows r.eventId
  { eventId := r.eventId
    entityId := r.entityId
    source := r.touch.source
    medium := r.touch.medium
    touchSite := r.touch.siteId
    position := rowNumber (byStart server) partition r
    touches := partition.length
    nonDirectTouches := partition.countP fun r => r.touch.nonDirect
    nonDirectRank :=
      if r.touch.nonDirect then
        some (rowNumber (byStartDesc server) (partition.filter fun r => r.touch.nonDirect) r)
      else none
    daysBefore := (r.convertedAt - r.touch.startedAt : ℚ) / 1000000 / 86400 }

/-- `path`. -/
def path (rows : List Joined) : List PathRow := rows.map (pathRow server rows)

end

/-! ## §3. Weights. -/

/-- `pow(0.5, x)`. -/
structure HalfPower (K : Type) [Zero K] [LT K] where
  pow : ℚ → K
  pos : ∀ x, 0 < pow x

section
variable {K : Type} [Field K] [LinearOrder K]

section
variable (half : HalfPower K) (rows : List PathRow)

/-- The expression of a weighting, at a row of the path; null where it divides by
nothing. -/
def weightSql (p : PathRow) : Weighting → Option K
  | .firstTouch => some (if p.position = 1 then 1 else 0)
  | .lastTouch => some (if p.position = p.touches then 1 else 0)
  | .lastNonDirect =>
    some (if 0 < p.nonDirectTouches then if p.nonDirectRank = some 1 then 1 else 0
      else if p.position = p.touches then 1 else 0)
  | .linear => some (1 / (p.touches : K))
  | .positionBased =>
    some (if p.touches = 1 then 1
      else if p.touches = 2 then 1 / 2
      else if p.position = 1 ∨ p.position = p.touches then 2 / 5
      else 1 / 5 / ((p.touches : K) - 2))
  | .timeDecay halfLifeDays =>
    let total := ((rows.filter fun q => q.eventId = p.eventId).map fun q =>
      half.pow (q.daysBefore / halfLifeDays)).sum
    if total = 0 then none else some (half.pow (p.daysBefore / halfLifeDays) / total)

/-- `coalesce(weight, 0)`. -/
def weightOf (weighting : Weighting) (p : PathRow) : K := (weightSql half rows p weighting).getD 0

end

/-! ## §4. The report. -/

/-- `source, medium, touch_site`, what credit is grouped by. -/
structure CreditKey where
  source : String
  medium : String
  touchSite : Uuid
  deriving DecidableEq

/-- What a touch is grouped by. -/
def PathRow.creditKey (p : PathRow) : CreditKey := ⟨p.source, p.medium, p.touchSite⟩

/-- A row of `credit`. -/
structure CreditRow (K : Type) where
  creditedConversions : K
  creditedEvents : Nat
  creditedUsers : Nat
  touchedConvs : Nat

/-- The credited groups. -/
def creditRows (half : HalfPower K) (rows : List PathRow) (weighting : Weighting) :
    Table CreditKey (CreditRow K) :=
  Table.groupRows PathRow.creditKey (fun _ group =>
    let credited := group.filter fun p => 0 < weightOf half rows weighting p
    { creditedConversions := (group.map (weightOf half rows weighting)).sum
      creditedEvents := (credited.map fun p => p.eventId).dedup.length
      creditedUsers := (credited.map fun p => p.entityId).dedup.length
      touchedConvs := (group.map fun p => p.eventId).dedup.length }) rows

/-- `strings.Contains`, and `containsAny`. -/
def containsAny (value : String) (needles : List String) : Bool :=
  value ≠ "" && needles.any fun needle => decide (needle.toList <:+: value.toList)

/-- `ClassifyChannel`, without a referrer and off the internal network. -/
def classifyChannel (toLower : String → String) (source medium : String) : String :=
  let source := toLower (trimSpace source)
  let medium := toLower (trimSpace medium)
  if containsAny medium ["cpc", "ppc", "paid", "cpm", "cpv"] then "Paid Search"
  else if medium = "organic"
      ∨ containsAny source ["google", "naver", "daum", "bing", "yahoo", "duckduckgo", "kagi"] then
    "Organic Search"
  else if containsAny medium ["email", "mail", "newsletter"]
      ∨ containsAny source ["mailgateway", "outlook", "exchange"] then "Email"
  else if containsAny medium ["social"]
      ∨ containsAny source ["facebook", "instagram", "twitter", "linkedin", "kakao", "band", "youtube",
        "threads", "x.com"] then "Social"
  else if containsAny medium ["notice", "announcement", "공지"] then "Internal Notice"
  else if containsAny medium ["internal", "intranet", "portal"]
      ∨ containsAny source ["intranet", "portal", "groupware", "confluence", "sharepoint"] then
    "Internal Portal"
  else if containsAny medium ["display", "banner", "signage"] then "Display"
  else if containsAny medium ["messenger", "chat", "teams", "slack"] then "Internal Message"
  else if medium = "referral" then "Referral"
  else if source = "" ∧ medium = "" then "Direct"
  else "Other"

/-- What is credited to a channel. -/
structure AttributionChannel (K : Type) where
  channel : String
  creditedConversions : K
  creditedUsers : Nat := 0
  touchedConversions : Nat := 0
  assistedConversions : Nat := 0
  creditSharePercent : K
  assistOnlyConversion : Int := 0
  touchSharePercent : ℚ := 0

/-- What is credited to a service. -/
structure AttributionSite (K : Type) where
  siteId : String := ""
  name : String := ""
  creditedConversions : K
  creditSharePercent : K
  isConversionSite : Bool

/-- **The report.** -/
structure AttributionReport (K : Type) where
  model : String
  label : String := ""
  description : String := ""
  multiTouch : Bool := false
  lookbackDays : Int
  halfLifeDays : Int := 0
  environment : String
  from_ : Instant
  to_ : Instant
  totalConversions : Nat
  attributed : K
  unattributed : Nat := 0
  averagePathTouch : ℚ := 0
  channels : List (AttributionChannel K) := []
  scope : String
  sites : List (AttributionSite K) := []
  crossSiteCredit : K
  note : String

/-- What the loop over the credited groups has built. -/
structure Credited (K : Type) where
  channels : Table String (AttributionChannel K)
  sites : Table Uuid (AttributionSite K)
  attributed : K
  crossSiteCredit : K

/-- One turn of the loop. -/
def credit (toLower : String → String) (siteId : Uuid) (acc : Credited K) (key : CreditKey) (row : CreditRow K) :
    Credited K :=
  let channel := classifyChannel toLower key.source key.medium
  let add (target : AttributionChannel K) : AttributionChannel K :=
    { target with
      creditedConversions := target.creditedConversions + row.creditedConversions
      creditedUsers := target.creditedUsers + row.creditedUsers
      touchedConversions := target.touchedConversions + row.touchedConvs
      assistedConversions := target.assistedConversions + row.touchedConvs }
  let addSite (site : AttributionSite K) : AttributionSite K :=
    { site with creditedConversions := site.creditedConversions + row.creditedConversions }
  { channels := acc.channels.upsert channel
      (add { channel := channel, creditedConversions := 0, creditSharePercent := 0 }) add
    sites := acc.sites.upsert key.touchSite
      (addSite { isConversionSite := key.touchSite = siteId, creditedConversions := 0, creditSharePercent := 0 })
      addSite
    attributed := acc.attributed + row.creditedConversions
    crossSiteCredit :=
      if key.touchSite ≠ siteId then acc.crossSiteCredit + row.creditedConversions else acc.crossSiteCredit }

/-- The loop. -/
def creditAll (toLower : String → String) (siteId : Uuid) (rows : Table CreditKey (CreditRow K)) : Credited K :=
  rows.entries.foldl (fun acc e => credit toLower siteId acc e.1 e.2) ⟨∅, ∅, 0, 0⟩

/-- `ratio`. -/
def ratio (numerator denominator : K) : K := if denominator = 0 then 0 else numerator / denominator

/-- What the report adds. -/
def noteText : String :=
  "Touchpoint는 세션 단위 유입 정보입니다. Lookback 안에 방문 기록이 없는 전환은 미배분으로 표시하고, 다중 터치 모델의 배분 전환은 소수로 나뉩니다."

/-- What it adds over several services. -/
def workspaceNote : String :=
  " 교차 서비스 배분은 SSO로 식별된 사용자에게만 적용됩니다. 익명 방문자는 서비스별로 격리됩니다."

/-- `query` with the defaults of `Attribution` in place. -/
def AttributionQuery.withDefaults (query : AttributionQuery) : AttributionQuery :=
  { query with
    lookbackDays := if query.lookbackDays < 1 ∨ 180 < query.lookbackDays then 30 else query.lookbackDays
    halfLifeDays := clampHalfLife query.halfLifeDays
    touchSites := if query.touchSites.length = 0 then [query.siteId] else query.touchSites
    scope := if query.scope = "" then "site" else query.scope }

/-- The answer before anything is read. -/
def emptyReport (query : AttributionQuery) : AttributionReport K :=
  let item := attributionModels.find? fun item => item.key = query.model
  { model := query.model
    label := (item.map AttributionModel.label).getD ""
    description := (item.map AttributionModel.description).getD ""
    multiTouch := (item.map AttributionModel.multiTouch).getD false
    lookbackDays := query.lookbackDays
    halfLifeDays := if query.model = "time_decay" then query.halfLifeDays else 0
    environment := query.environment
    from_ := query.from_
    to_ := query.to_
    totalConversions := 0
    attributed := 0
    scope := query.scope
    crossSiteCredit := 0
    note := if query.scope = "workspace" then noteText ++ workspaceNote else noteText }

/-- The conversions that have a path, and how long the paths are on average. -/
def pathSummary (rows : List PathRow) : Nat × ℚ :=
  let paths := (rows.map fun p => (p.eventId, p.touches)).dedup
  ((paths.map Prod.fst).dedup.length,
    if paths.length = 0 then 0 else ((paths.map fun p => (p.2 : ℚ)).sum) / paths.length)

variable [FloorRing K]

/-- The shares of a channel, once all is added up. -/
def finishChannel (attributed : K) (attributedConversions : Nat) (entry : AttributionChannel K) :
    AttributionChannel K :=
  { entry with
    creditSharePercent := ratio entry.creditedConversions attributed * 100
    touchSharePercent := exactPercent entry.touchedConversions attributedConversions
    assistOnlyConversion :=
      -- `int64(x)` drops the fraction, of a credit that is not negative
      if entry.creditedConversions < entry.touchedConversions then
        entry.touchedConversions - ⌊entry.creditedConversions⌋
      else entry.assistOnlyConversion }

/-- The name of the service, and its share. -/
def finishSite (attributed : K) (label : String × String) (site : AttributionSite K) : AttributionSite K :=
  { site with
    siteId := label.1
    name := label.2
    creditSharePercent := ratio site.creditedConversions attributed * 100 }

/-- By credit, then by name. -/
def channelBefore (a b : AttributionChannel K) : Bool :=
  if a.creditedConversions = b.creditedConversions then decide (a.channel ≤ b.channel)
  else decide (b.creditedConversions < a.creditedConversions)

/-- By credit, then by name. -/
def siteBefore (a b : AttributionSite K) : Bool :=
  if a.creditedConversions = b.creditedConversions then decide (a.name ≤ b.name)
  else decide (b.creditedConversions < a.creditedConversions)

/-- **`Attribution`.** `labels` is `siteNames`. -/
def attribution (env : Platform) (server : Server) (labels : Uuid → String × String)
    (half : HalfPower K) (query : AttributionQuery) (s : Store) : Except String (AttributionReport K) :=
  let query := query.withDefaults
  match attributionWeight query.model query.halfLifeDays with
  | none => .error ("unsupported attribution model " ++ env.quote query.model)
  | some weighting =>
    let rows := path server (joined server query query.lookbackDays.toNat query.touchSites s)
    let report : AttributionReport K := { emptyReport query with totalConversions := (conversions query s).length }
    if report.totalConversions = 0 then .ok report
    else
      let credited := creditAll env.toLower query.siteId (creditRows half rows weighting)
      let (attributedConversions, averageTouches) := pathSummary rows
      .ok { report with
        attributed := credited.attributed
        crossSiteCredit := credited.crossSiteCredit
        averagePathTouch := averageTouches
        unattributed := report.totalConversions - attributedConversions
        channels := (credited.channels.entries.map fun e =>
          finishChannel credited.attributed attributedConversions e.2).mergeSort channelBefore
        sites :=
          if query.scope = "workspace" then
            (credited.sites.entries.map fun e =>
              finishSite credited.attributed (labels e.1) e.2).mergeSort siteBefore
          else [] }

end

/-! ## §5. The rows of a path are told apart by their keys. -/

/-- Rows of one conversion are about different sessions. -/
def Told (server : Server) (rows : List Joined) : Prop :=
  rows.Pairwise fun a b => a.eventId = b.eventId →
    server.rank a.touch.sessionId a.touch.siteId ≠ server.rank b.touch.sessionId b.touch.siteId

section
variable {server : Server} {rows : List Joined}

theorem Told.partition (h : Told server rows) (eventId : Uuid) :
    (partitionOf rows eventId).Pairwise fun a b =>
      server.rank a.touch.sessionId a.touch.siteId ≠ server.rank b.touch.sessionId b.touch.siteId := by
  refine (h.sublist List.filter_sublist).imp_of_mem ?_
  intro a b ha hb hab
  apply hab
  rw [of_decide_eq_true (List.mem_filter.mp ha).2, of_decide_eq_true (List.mem_filter.mp hb).2]

theorem Told.nodup_byStart (h : Told server rows) (eventId : Uuid) :
    ((partitionOf rows eventId).map (byStart server)).Nodup := by
  rw [List.Nodup, List.pairwise_map]
  refine (h.partition eventId).imp ?_
  intro a b hab heq
  exact hab (congrArg (fun k => (ofLex k).2) heq)

theorem Told.nodup_byStartDesc (h : Told server rows) (eventId : Uuid) :
    (((partitionOf rows eventId).filter fun r => r.touch.nonDirect).map (byStartDesc server)).Nodup := by
  rw [List.Nodup, List.pairwise_map]
  refine ((h.partition eventId).sublist List.filter_sublist).imp ?_
  intro a b hab heq
  exact hab (congrArg (fun k => (ofLex k).2) heq)

end

section
variable (server : Server) (query : AttributionQuery) (lookback : Nat) (touchSites : List Uuid) (s : Store)

/-- No two events of a site share an id. -/
theorem nodup_conversions : ((conversions query s).map fun c => c.eventId).Nodup := by
  have hraw : (s.rawEvents.rows.map RawEvent.uniqueKey).Nodup := s.rawEvents.distinct
  rw [List.Nodup, List.pairwise_map] at hraw ⊢
  have hview : (analyticsEvents s).Pairwise fun a b => (a.siteId, a.eventId) ≠ (b.siteId, b.eventId) :=
    List.pairwise_map.mpr hraw
  refine (hview.sublist List.filter_sublist).imp_of_mem ?_
  intro a b ha hb hab heq
  have hsa := (of_decide_eq_true (List.mem_filter.mp ha).2).1
  have hsb := (of_decide_eq_true (List.mem_filter.mp hb).2).1
  exact hab (by rw [hsa, hsb, heq])

/-- No two sessions of an environment share site and id. -/
theorem told_touches : (touches server query lookback touchSites s).Pairwise fun a b =>
    server.rank a.sessionId a.siteId ≠ server.rank b.sessionId b.siteId := by
  unfold touches
  rw [List.pairwise_map]
  have hkeys : s.sessions.entries.Pairwise fun a b => a.1 ≠ b.1 := List.nodupKeys_iff_pairwise.mp s.sessions.nodupKeys
  refine (hkeys.sublist List.filter_sublist).imp_of_mem ?_
  intro a b ha hb hab heq
  obtain ⟨hid, hsite⟩ := server.rank_injective heq
  have hea := (of_decide_eq_true (List.mem_filter.mp ha).2).2.1
  have heb := (of_decide_eq_true (List.mem_filter.mp hb).2).2.1
  -- the primary key: site, environment, session id
  apply hab
  rcases a with ⟨⟨_, _, _⟩, _⟩
  rcases b with ⟨⟨_, _, _⟩, _⟩
  simp only [touchOf] at hid hsite hea heb
  subst hid hsite hea heb
  rfl

theorem told_joined : Told server (joined server query lookback touchSites s) := by
  unfold Told joined
  rw [List.pairwise_flatMap]
  constructor
  · intro c _
    rw [List.pairwise_map]
    refine ((told_touches server query lookback touchSites s).sublist List.filter_sublist).imp ?_
    intro a b hab _
    exact hab
  · have hconversions := nodup_conversions query s
    rw [List.Nodup, List.pairwise_map] at hconversions
    refine hconversions.imp ?_
    intro c c' hne a ha b hb heq
    obtain ⟨t, _, rfl⟩ := List.mem_map.mp ha
    obtain ⟨t', _, rfl⟩ := List.mem_map.mp hb
    exact absurd heq hne

end

/-! ## §6. The weights of one path. -/

section
variable {K : Type} [Field K] [LinearOrder K] [IsStrictOrderedRing K]
variable {server : Server} {rows : List Joined} {half : HalfPower K}

theorem filter_path (rows' : List Joined) (eventId : Uuid) :
    (rows.map (pathRow server rows')).filter (fun p => p.eventId = eventId)
      = (partitionOf rows eventId).map (pathRow server rows') := by
  rw [List.filter_map]
  rfl

/-- A sum over the rows a condition holds of. -/
theorem sum_filter {ρ M : Type} [AddCommMonoid M] (keep : ρ → Bool) (f : ρ → M) (rows : List ρ) :
    ((rows.filter keep).map f).sum = (rows.map fun r => if keep r then f r else 0).sum := by
  induction rows with
  | nil => rfl
  | cons r rows ih =>
    cases h : keep r <;> simp [h, ih]

/-- The shares of the first and the last of three or more, and of those between. -/
theorem sum_positions {n : Nat} (hn : 3 ≤ n) :
    ∑ i ∈ Finset.Icc 1 n, (if i = 1 ∨ i = n then (2 / 5 : K) else 1 / 5 / ((n : K) - 2)) = 1 := by
  have hpos : (0 : K) < (n : K) - 2 := by
    have : (3 : K) ≤ n := by exact_mod_cast hn
    linarith
  -- both ends are one share between them more
  have hsplit : ∀ i, (if i = 1 ∨ i = n then (2 / 5 : K) else 1 / 5 / ((n : K) - 2))
      = 1 / 5 / ((n : K) - 2) + ((if i = 1 then 2 / 5 - 1 / 5 / ((n : K) - 2) else 0)
          + (if i = n then 2 / 5 - 1 / 5 / ((n : K) - 2) else 0)) := by
    intro i
    by_cases hone : i = 1
    · have hne : i ≠ n := by omega
      simp [hone, show (1 : Nat) ≠ n by omega]
    · by_cases hlast : i = n <;> simp [hone, hlast, show n ≠ 1 by omega]
  simp only [hsplit, Finset.sum_add_distrib, Finset.sum_const, Nat.card_Icc, nsmul_eq_mul]
  rw [Finset.sum_ite_eq' _ 1, Finset.sum_ite_eq' _ n, if_pos (Finset.mem_Icc.mpr ⟨le_rfl, by omega⟩),
    if_pos (Finset.mem_Icc.mpr ⟨by omega, le_rfl⟩), Nat.add_sub_cancel]
  field_simp
  ring

theorem sum_pow_pos (half : HalfPower K) {rows : List PathRow} (hrows : rows ≠ []) (days : Nat) :
    0 < (rows.map fun q => half.pow (q.daysBefore / days)).sum := by
  apply List.sum_pos
  · intro x hx
    obtain ⟨q, -, rfl⟩ := List.mem_map.mp hx
    exact half.pos _
  · simpa using hrows

/-- No weight is negative; a row of a path has at least itself beside it. -/
theorem weightOf_nonneg (half : HalfPower K) (rows : List PathRow) (weighting : Weighting) {p : PathRow}
    (hp : 1 ≤ p.touches) : 0 ≤ weightOf half rows weighting p := by
  have hite : ∀ (c : Prop) [Decidable c], (0 : K) ≤ if c then 1 else 0 := by
    intro c _
    split
    · exact zero_le_one
    · exact le_rfl
  cases weighting with
  | firstTouch => exact hite _
  | lastTouch => exact hite _
  | lastNonDirect =>
    show (0 : K) ≤ if _ then _ else _
    split
    · exact hite _
    · exact hite _
  | linear => exact div_nonneg zero_le_one (Nat.cast_nonneg _)
  | positionBased =>
    show (0 : K) ≤ if _ then _ else _
    split
    · exact zero_le_one
    split
    · norm_num
    split
    · norm_num
    next hone htwo _ =>
      have hthree : (3 : K) ≤ p.touches := by exact_mod_cast (by omega : 3 ≤ p.touches)
      exact div_nonneg (by norm_num) (by linarith)
  | timeDecay days =>
    unfold weightOf weightSql
    dsimp only
    split
    · exact le_rfl
    refine div_nonneg (half.pos _).le (List.sum_nonneg ?_)
    intro x hx
    obtain ⟨q, -, rfl⟩ := List.mem_map.mp hx
    exact (half.pos _).le

/-- The windows of the rows of one conversion are over the same rows. -/
theorem pathRow_of_mem (server : Server) {eventId : Uuid} {r : Joined} (hr : r ∈ partitionOf rows eventId) :
    (pathRow server rows r).eventId = eventId
      ∧ (pathRow server rows r).position = rowNumber (byStart server) (partitionOf rows eventId) r
      ∧ (pathRow server rows r).touches = (partitionOf rows eventId).length
      ∧ (pathRow server rows r).nonDirectTouches
          = ((partitionOf rows eventId).countP fun r => r.touch.nonDirect)
      ∧ (pathRow server rows r).nonDirectRank
          = if r.touch.nonDirect then
              some (rowNumber (byStartDesc server)
                ((partitionOf rows eventId).filter fun r => r.touch.nonDirect) r)
            else none := by
  obtain rfl : r.eventId = eventId := of_decide_eq_true (List.mem_filter.mp hr).2
  exact ⟨rfl, rfl, rfl, rfl, rfl⟩

theorem one_le_touches {p : PathRow} (hp : p ∈ path server rows) : 1 ≤ p.touches := by
  obtain ⟨r, hr, rfl⟩ := List.mem_map.mp hp
  have hmem : r ∈ partitionOf rows r.eventId := List.mem_filter.mpr ⟨hr, decide_eq_true rfl⟩
  exact List.length_pos_of_mem hmem

/-- **The weights of a path sum to one**, whatever the model. -/
theorem sum_weights (half : HalfPower K) (htold : Told server rows) (weighting : Weighting) {eventId : Uuid}
    (hne : partitionOf rows eventId ≠ []) :
    (((path server rows).filter fun p => p.eventId = eventId).map
      (weightOf half (path server rows) weighting)).sum = 1 := by
  have hn : 1 ≤ (partitionOf rows eventId).length := List.length_pos_iff.mpr hne
  have hkeys := htold.nodup_byStart eventId
  -- what the last visit earns where it earns all
  have hlast : ((partitionOf rows eventId).map fun r =>
      if rowNumber (byStart server) (partitionOf rows eventId) r = (partitionOf rows eventId).length
      then (1 : K) else 0).sum = 1 := sum_one_number hkeys hn le_rfl 1
  unfold path
  rw [filter_path, List.map_map]
  cases weighting with
  | firstTouch =>
    rw [← sum_one_number hkeys le_rfl hn (1 : K)]
    congr 1
    apply List.map_congr_left
    intro r hr
    obtain ⟨-, hposition, -, -, -⟩ := pathRow_of_mem server hr
    show (if (pathRow server rows r).position = 1 then (1 : K) else 0) = _
    rw [hposition]
  | lastTouch =>
    rw [← hlast]
    congr 1
    apply List.map_congr_left
    intro r hr
    obtain ⟨-, hposition, htouches, -, -⟩ := pathRow_of_mem server hr
    show (if (pathRow server rows r).position = (pathRow server rows r).touches then (1 : K) else 0) = _
    rw [hposition, htouches]
  | lastNonDirect =>
    by_cases hany : 0 < (partitionOf rows eventId).countP fun r => r.touch.nonDirect
    · -- the first of the visits with a channel, counted from the end
      have hrank := sum_one_number (htold.nodup_byStartDesc eventId) le_rfl
        (by rw [← List.countP_eq_length_filter]; exact hany) (1 : K)
      rw [sum_filter] at hrank
      rw [← hrank]
      congr 1
      apply List.map_congr_left
      intro r hr
      obtain ⟨-, -, -, hcount, hnumber⟩ := pathRow_of_mem server hr
      show (if 0 < (pathRow server rows r).nonDirectTouches then
        if (pathRow server rows r).nonDirectRank = some 1 then (1 : K) else 0 else _) = _
      rw [hcount, if_pos hany, hnumber]
      cases r.touch.nonDirect with
      | false => rfl
      | true => simp only [if_true, Option.some.injEq]
    · rw [← hlast]
      congr 1
      apply List.map_congr_left
      intro r hr
      obtain ⟨-, hposition, htouches, hcount, -⟩ := pathRow_of_mem server hr
      show (if 0 < (pathRow server rows r).nonDirectTouches then _ else
        if (pathRow server rows r).position = (pathRow server rows r).touches then (1 : K) else 0) = _
      rw [hcount, if_neg hany, hposition, htouches]
  | linear =>
    have hconst : (partitionOf rows eventId).map
        (weightOf half (rows.map (pathRow server rows)) .linear ∘ pathRow server rows)
          = (partitionOf rows eventId).map fun _ => (1 : K) / (partitionOf rows eventId).length := by
      apply List.map_congr_left
      intro r hr
      obtain ⟨-, -, htouches, -, -⟩ := pathRow_of_mem server hr
      show (1 : K) / ((pathRow server rows r).touches : K) = _
      rw [htouches]
    rw [hconst, List.map_const', List.sum_replicate, nsmul_eq_mul]
    have hpos : ((partitionOf rows eventId).length : K) ≠ 0 := by
      exact_mod_cast (by omega : (partitionOf rows eventId).length ≠ 0)
    field_simp
  | positionBased =>
    let share : Nat → K := fun i =>
      if (partitionOf rows eventId).length = 1 then 1
      else if (partitionOf rows eventId).length = 2 then 1 / 2
      else if i = 1 ∨ i = (partitionOf rows eventId).length then 2 / 5
      else 1 / 5 / (((partitionOf rows eventId).length : K) - 2)
    have hnumbers : (partitionOf rows eventId).map
        (weightOf half (rows.map (pathRow server rows)) .positionBased ∘ pathRow server rows)
          = (partitionOf rows eventId).map fun r =>
            share (rowNumber (byStart server) (partitionOf rows eventId) r) := by
      apply List.map_congr_left
      intro r hr
      obtain ⟨-, hposition, htouches, -, -⟩ := pathRow_of_mem server hr
      show (if (pathRow server rows r).touches = 1 then (1 : K)
        else if (pathRow server rows r).touches = 2 then 1 / 2
        else if (pathRow server rows r).position = 1
          ∨ (pathRow server rows r).position = (pathRow server rows r).touches then 2 / 5
        else 1 / 5 / (((pathRow server rows r).touches : K) - 2)) = _
      rw [hposition, htouches]
    rw [hnumbers, sum_rowNumber hkeys share]
    by_cases hone : (partitionOf rows eventId).length = 1
    · simp [share, hone]
    · by_cases htwo : (partitionOf rows eventId).length = 2
      · simp [share, htwo]
      · simp only [share, if_neg hone, if_neg htwo]
        exact sum_positions (by omega)
  | timeDecay days =>
    have hrows : (partitionOf rows eventId).map (pathRow server rows) ≠ [] := by simpa using hne
    have htotal := sum_pow_pos half hrows days
    have hshares : (partitionOf rows eventId).map
        (weightOf half (rows.map (pathRow server rows)) (.timeDecay days) ∘ pathRow server rows)
          = ((partitionOf rows eventId).map (pathRow server rows)).map fun q =>
            half.pow (q.daysBefore / days)
              * (((partitionOf rows eventId).map (pathRow server rows)).map fun q =>
                  half.pow (q.daysBefore / days)).sum⁻¹ := by
      rw [List.map_map]
      apply List.map_congr_left
      intro r hr
      obtain ⟨hid, -, -, -, -⟩ := pathRow_of_mem server hr
      show (weightSql half (rows.map (pathRow server rows)) (pathRow server rows r) (.timeDecay days)).getD 0 = _
      simp only [weightSql, hid, filter_path]
      rw [if_neg htotal.ne', Option.getD_some, div_eq_mul_inv]
      rfl
    rw [hshares, List.sum_map_mul_right]
    exact mul_inv_cancel₀ htotal.ne'

/-! ## §7. All paths together. -/

/-- All weights together: one for each conversion with a path. -/
theorem sum_all_weights (half : HalfPower K) (htold : Told server rows) (weighting : Weighting) :
    ((path server rows).map (weightOf half (path server rows) weighting)).sum
      = (((path server rows).map fun p => p.eventId).dedup.length : K) := by
  have hgroups : Table.sumRows (fun _ w => w) (Table.groupRows (fun p : PathRow => p.eventId)
        (fun _ group => (group.map (weightOf half (path server rows) weighting)).sum) (path server rows))
      = ((path server rows).map (weightOf half (path server rows) weighting)).sum :=
    Table.sumRows_groupRows _ (by intro _ _; rfl) _
  rw [← hgroups]
  have hone : ∀ eventId ∈ ((path server rows).map fun p => p.eventId).dedup,
      ((Table.groupOf (fun p : PathRow => p.eventId) (path server rows) eventId).map
        (weightOf half (path server rows) weighting)).sum = 1 := by
    intro eventId hid
    obtain ⟨p, hp, rfl⟩ := List.mem_map.mp (List.mem_dedup.mp hid)
    obtain ⟨r, hr, rfl⟩ := List.mem_map.mp hp
    have hne : partitionOf rows r.eventId ≠ [] :=
      List.ne_nil_of_mem (List.mem_filter.mpr ⟨hr, decide_eq_true rfl⟩)
    exact sum_weights half htold weighting hne
  simp only [Table.sumRows, Table.groupRows, List.map_map, Function.comp_def]
  rw [List.map_congr_left hone, List.map_const', List.sum_replicate, nsmul_eq_mul, mul_one]

omit [IsStrictOrderedRing K] in
/-- The groups have the weights of all rows. -/
theorem sumRows_creditRows (half : HalfPower K) (paths : List PathRow) (weighting : Weighting) :
    (creditRows half paths weighting).sumRows (fun _ row => row.creditedConversions)
      = (paths.map (weightOf half paths weighting)).sum := by
  unfold creditRows
  apply Table.sumRows_groupRows
  intro _ _
  rfl

/-- Values told apart by more are as many as those told apart by less, once that is
the same. -/
theorem length_dedup_map {α β : Type} [DecidableEq α] [DecidableEq β] (f : α → β) (xs : List α) :
    ((xs.dedup).map f).dedup.length = (xs.map f).dedup.length := by
  rw [← List.card_toFinset, ← List.card_toFinset]
  congr 1
  ext b
  simp only [List.mem_toFinset, List.mem_map, List.mem_dedup]

theorem pathSummary_fst (paths : List PathRow) :
    (pathSummary paths).1 = (paths.map fun p => p.eventId).dedup.length := by
  show ((paths.map fun p => (p.eventId, p.touches)).dedup.map Prod.fst).dedup.length = _
  rw [length_dedup_map, List.map_map]
  rfl

end

/-! ## §8. The loop keeps the sums. -/

/-- An upsert that adds to one column adds to its sum. -/
theorem sumRows_upsert_add {K κ ρ : Type} [AddCommGroup K] [DecidableEq κ] (column : ρ → K) {k : κ} {ins : ρ} {add : ρ → ρ} {x : K}
    (hins : column ins = x) (hadd : ∀ r, column (add r) = column r + x) (t : Table κ ρ) :
    (t.upsert k ins add).sumRows (fun _ r => column r) = t.sumRows (fun _ r => column r) + x := by
  rw [Table.sumRows_upsert, Table.rowPart]
  cases t.lookup k with
  | none => rw [Option.elim_none, Option.elim_none, hins, sub_zero]
  | some r =>
    rw [Option.elim_some, Option.elim_some, hadd, add_sub_cancel_left]

section
variable {K : Type} [Field K] (toLower : String → String) (siteId : Uuid)

/-- **One turn adds a group's credit to a channel, to a site and to the total.** -/
theorem credit_sums (acc : Credited K) (key : CreditKey) (row : CreditRow K) :
    (credit toLower siteId acc key row).channels.sumRows (fun _ c => c.creditedConversions)
        = acc.channels.sumRows (fun _ c => c.creditedConversions) + row.creditedConversions
      ∧ (credit toLower siteId acc key row).sites.sumRows (fun _ c => c.creditedConversions)
        = acc.sites.sumRows (fun _ c => c.creditedConversions) + row.creditedConversions
      ∧ (credit toLower siteId acc key row).attributed = acc.attributed + row.creditedConversions :=
  ⟨sumRows_upsert_add AttributionChannel.creditedConversions (zero_add _) (fun _ => rfl) _,
    sumRows_upsert_add AttributionSite.creditedConversions (zero_add _) (fun _ => rfl) _, rfl⟩

/-- And so do all turns. -/
theorem creditAll_sums (rows : Table CreditKey (CreditRow K)) :
    (creditAll toLower siteId rows).channels.sumRows (fun _ c => c.creditedConversions)
        = rows.sumRows (fun _ row => row.creditedConversions)
      ∧ (creditAll toLower siteId rows).sites.sumRows (fun _ c => c.creditedConversions)
        = rows.sumRows (fun _ row => row.creditedConversions)
      ∧ (creditAll toLower siteId rows).attributed = rows.sumRows (fun _ row => row.creditedConversions) := by
  have hloop : ∀ (entries : List (Sigma fun _ : CreditKey => CreditRow K)) (acc : Credited K),
      (entries.foldl (fun acc e => credit toLower siteId acc e.1 e.2) acc).channels.sumRows
          (fun _ c => c.creditedConversions)
        = acc.channels.sumRows (fun _ c => c.creditedConversions)
            + (entries.map fun e => e.2.creditedConversions).sum
      ∧ (entries.foldl (fun acc e => credit toLower siteId acc e.1 e.2) acc).sites.sumRows
          (fun _ c => c.creditedConversions)
        = acc.sites.sumRows (fun _ c => c.creditedConversions)
            + (entries.map fun e => e.2.creditedConversions).sum
      ∧ (entries.foldl (fun acc e => credit toLower siteId acc e.1 e.2) acc).attributed
        = acc.attributed + (entries.map fun e => e.2.creditedConversions).sum := by
    intro entries
    induction entries with
    | nil => intro acc; simp
    | cons e entries ih =>
      intro acc
      obtain ⟨hchannels, hsites, htotal⟩ := credit_sums toLower siteId acc e.1 e.2
      obtain ⟨ihchannels, ihsites, ihtotal⟩ := ih (credit toLower siteId acc e.1 e.2)
      simp only [List.foldl_cons, List.map_cons, List.sum_cons]
      rw [ihchannels, ihsites, ihtotal, hchannels, hsites, htotal]
      exact ⟨add_assoc _ _ _, add_assoc _ _ _, add_assoc _ _ _⟩
  obtain ⟨hchannels, hsites, htotal⟩ := hloop rows.entries ⟨∅, ∅, 0, 0⟩
  refine ⟨hchannels.trans ?_, hsites.trans ?_, htotal.trans (zero_add _)⟩
  · exact zero_add _
  · exact zero_add _

end

/-! ## §9. Conversions with a touch. -/

section
variable (server : Server) (query : AttributionQuery) (lookback : Nat) (touchSites : List Uuid) (s : Store)

/-- The conversions with at least one visit on their path. -/
def touchedConversions : List AnalyticsEvent :=
  (conversions query s).filter fun c =>
    (touches server query lookback touchSites s).any (onPath server lookback c)

theorem mem_eventIds_joined (eventId : Uuid) :
    eventId ∈ (joined server query lookback touchSites s).map (fun r => r.eventId)
      ↔ eventId ∈ (touchedConversions server query lookback touchSites s).map fun c => c.eventId := by
  simp only [joined, touchedConversions, List.mem_map, List.mem_flatMap, List.mem_filter, List.any_eq_true]
  constructor
  · rintro ⟨r, ⟨c, hc, t, ⟨ht, hon⟩, rfl⟩, rfl⟩
    exact ⟨c, ⟨hc, t, ht, hon⟩, rfl⟩
  · rintro ⟨c, ⟨hc, t, ht, hon⟩, rfl⟩
    exact ⟨⟨c.eventId, c.entityId, c.eventTimestamp, t⟩, ⟨c, hc, t, ⟨ht, hon⟩, rfl⟩, rfl⟩

/-- The paths are about as many conversions. -/
theorem eventIds_path (rows : List Joined) :
    (path server rows).map (fun p => p.eventId) = rows.map fun r => r.eventId := by
  unfold path
  rw [List.map_map]
  rfl

theorem length_touchedConversions :
    ((path server (joined server query lookback touchSites s)).map fun p => p.eventId).dedup.length
      = (touchedConversions server query lookback touchSites s).length := by
  have hnodup : ((touchedConversions server query lookback touchSites s).map fun c => c.eventId).Nodup :=
    (nodup_conversions query s).sublist (List.filter_sublist.map _)
  have hsame : ((joined server query lookback touchSites s).map fun r => r.eventId).toFinset
      = ((touchedConversions server query lookback touchSites s).map fun c => c.eventId).toFinset := by
    ext eventId
    rw [List.mem_toFinset, List.mem_toFinset]
    exact mem_eventIds_joined server query lookback touchSites s eventId
  rw [eventIds_path, ← List.card_toFinset, hsame, List.toFinset_card_of_nodup hnodup, List.length_map]

end

/-! ## §10. The report. -/

/-- Sorting and finishing the entries leaves their credits. -/
theorem sum_mergeSort {K κ ρ : Type} [AddCommGroup K] [DecidableEq κ] (column : ρ → K) (before : ρ → ρ → Bool)
    (finish : κ → ρ → ρ) (hfinish : ∀ k r, column (finish k r) = column r) (t : Table κ ρ) :
    (((t.entries.map fun e => finish e.1 e.2).mergeSort before).map column).sum
      = t.sumRows (fun _ r => column r) := by
  rw [((List.mergeSort_perm _ before).map column).sum_eq, List.map_map]
  unfold Table.sumRows
  congr 1
  apply List.map_congr_left
  intro e _
  exact hfinish e.1 e.2

section
variable {K : Type} [Field K] [LinearOrder K] [IsStrictOrderedRing K] [FloorRing K]

/-- **Attribution conserves conversions.**  On every path the weights are not
negative and sum to one; so the credits of the channels, and those of the sites,
sum to the conversions that have a touch, and these and the unattributed ones are
all. -/
theorem attribution_conserves (env : Platform) (server : Server) (labels : Uuid → String × String)
    (half : HalfPower K) (query : AttributionQuery) (s : Store) {weighting : Weighting}
    (hmodel : attributionWeight query.model (clampHalfLife query.halfLifeDays) = some weighting) :
    let q := query.withDefaults
    let paths := path server (joined server q q.lookbackDays.toNat q.touchSites s)
    let touched := touchedConversions server q q.lookbackDays.toNat q.touchSites s
    (∀ p ∈ paths, 0 ≤ weightOf half paths weighting p)
      ∧ (∀ c ∈ touched,
          ((paths.filter fun p => p.eventId = c.eventId).map (weightOf half paths weighting)).sum = 1)
      ∧ (creditAll env.toLower q.siteId (creditRows half paths weighting)).sites.sumRows
          (fun _ site => site.creditedConversions) = touched.length
      ∧ ∃ report : AttributionReport K, attribution env server labels half query s = .ok report
        ∧ (report.channels.map AttributionChannel.creditedConversions).sum = touched.length
        ∧ (report.scope = "workspace" →
            (report.sites.map AttributionSite.creditedConversions).sum = touched.length)
        ∧ report.totalConversions = (conversions q s).length
        ∧ report.attributed = touched.length
        ∧ report.attributed + report.unattributed = report.totalConversions := by
  intro q paths touched
  have htold : Told server (joined server q q.lookbackDays.toNat q.touchSites s) := told_joined _ _ _ _ _
  have hcount : ((paths.map fun p => p.eventId).dedup.length : K) = touched.length := by
    rw [length_touchedConversions]
  have hcredit : (creditRows half paths weighting).sumRows (fun _ row => row.creditedConversions)
      = (touched.length : K) := by
    rw [sumRows_creditRows, sum_all_weights half htold, hcount]
  obtain ⟨hchannels, hsites, hattributed⟩ :=
    creditAll_sums env.toLower q.siteId (creditRows half paths weighting)
  rw [hcredit] at hchannels hsites hattributed
  refine ⟨fun p hp => weightOf_nonneg half paths weighting (one_le_touches hp), ?_, hsites, ?_⟩
  · intro c hc
    apply sum_weights half htold
    -- a touched conversion has a row in the join
    obtain ⟨r, hr, hid⟩ := List.mem_map.mp
      ((mem_eventIds_joined server q _ _ s c.eventId).mpr (List.mem_map_of_mem hc))
    exact List.ne_nil_of_mem (List.mem_filter.mpr ⟨hr, decide_eq_true hid⟩)
  · have hsub : touched.length ≤ (conversions q s).length := List.length_filter_le _ _
    have hsummary : (pathSummary paths).1 = touched.length := by
      rw [pathSummary_fst, length_touchedConversions]
    simp only [attribution]
    rw [show attributionWeight query.withDefaults.model query.withDefaults.halfLifeDays = some weighting
      from hmodel]
    dsimp only
    by_cases hnone : (conversions q s).length = 0
    · -- nothing to credit: the answer is sent before the loop
      have hzero : touched.length = 0 := by omega
      rw [if_pos hnone]
      refine ⟨_, rfl, ?_, ?_, rfl, ?_, ?_⟩
      · simp [emptyReport, hzero]
      · intro _
        simp [emptyReport, hzero]
      · simp [emptyReport, hzero]
      · show (0 : K) + ((0 : Nat) : K) = ((conversions q s).length : K)
        rw [hnone, Nat.cast_zero, add_zero]
    · rw [if_neg hnone]
      refine ⟨_, rfl, ?_, ?_, rfl, hattributed, ?_⟩
      · exact (sum_mergeSort AttributionChannel.creditedConversions channelBefore
          (fun _ entry => finishChannel _ _ entry) (fun _ _ => rfl) _).trans hchannels
      · intro hscope
        show (List.map AttributionSite.creditedConversions (if q.scope = "workspace" then _ else _)).sum = _
        rw [if_pos (show q.scope = "workspace" from hscope)]
        exact (sum_mergeSort AttributionSite.creditedConversions siteBefore
          (fun id site => finishSite _ (labels id) site) (fun _ _ => rfl) _).trans hsites
      · show (creditAll env.toLower q.siteId (creditRows half paths weighting)).attributed
          + (((conversions q s).length - (pathSummary paths).1 : Nat) : K) = ((conversions q s).length : K)
        rw [hattributed, hsummary, Nat.cast_sub hsub]
        ring

end

namespace AttributionSample

/-- One order among all: sites in the order of their ids, and sessions by a code of
their ids; a day is a day. -/
def server : Server where
  minusDays t n := t - n * 86400000000
  rank sessionId siteId := Encodable.encode (sessionId.toList.map Char.toNat, siteId.bits.toNat)
  rank_injective := by
    intro s t u v h
    obtain ⟨htext, hbits⟩ := Prod.ext_iff.mp (Encodable.encode_injective h)
    refine ⟨String.toList_injective (List.map_injective_iff.mpr (fun _ _ => Char.toNat_inj.mp) htext), ?_⟩
    cases u
    cases v
    exact congrArg Uuid.mk (BitVec.eq_of_toNat_eq hbits)

/-- A visit from a search page, and a conversion an hour in. -/
def visited : Store :=
  { Store.initial (Sample.config 10) with
    rawEvents := ⟨[{
      id := 1
      eventId := ⟨7⟩
      siteId := Sample.siteId
      eventName := "signup"
      eventTimestamp := 3600000000
      visitorId := "v"
      sessionId := "s"
      isConversion := true }], 1, by simp, by simp, by simp⟩
    sessions := AList.singleton ⟨Sample.siteId, "prd", "s"⟩ {
      visitorId := "v"
      startedAt := 0
      lastEventAt := 3600000000
      eventCount := 1
      pageViews := 0
      conversionCount := 1
      engaged := true
      source := some "google"
      medium := some "organic" } }

/-- A visit of the same person, of one page. -/
def laterVisit (startedAt : Instant) (source medium : String) : Session where
  visitorId := "v"
  startedAt := startedAt
  lastEventAt := startedAt
  eventCount := 1
  pageViews := 1
  conversionCount := 0
  engaged := false
  source := some source
  medium := some medium

/-- Three visits before the conversion, two from one search page and one from a mail. -/
def severalVisits : Store :=
  { visited with
    sessions := (visited.sessions.insert ⟨Sample.siteId, "prd", "t"⟩ (laterVisit 60000000 "newsletter" "email")).insert
      ⟨Sample.siteId, "prd", "u"⟩ (laterVisit 120000000 "google" "organic") }

def query : AttributionQuery where
  siteId := Sample.siteId
  touchSites := []
  environment := "prd"
  from_ := 0
  to_ := 86400000000
  lookbackDays := 0
  model := "time_decay"
  halfLifeDays := 0
  scope := "workspace"

end AttributionSample

/-- `0.5 ^ x`. -/
noncomputable def realHalfPower : HalfPower ℝ where
  pow x := (1 / 2 : ℝ) ^ (x : ℝ)
  pos x := Real.rpow_pos_of_pos (by norm_num) _

open AttributionSample in
/-- One conversion with three visits of two groups: they share it. -/
theorem attribution_conserves_visited :
    (path server (joined server query.withDefaults 30 [Sample.siteId] severalVisits)).length = 3
      ∧ ((path server (joined server query.withDefaults 30 [Sample.siteId] severalVisits)).map
          PathRow.creditKey).dedup.length = 2
      ∧ ∃ report : AttributionReport ℝ,
        attribution Sample.platform server (fun _ => ("site", "Site")) realHalfPower query severalVisits = .ok report
          ∧ (report.channels.map AttributionChannel.creditedConversions).sum = 1
          ∧ report.attributed + report.unattributed = 1 := by
  refine ⟨by decide +kernel, by decide +kernel, ?_⟩
  have hone : (touchedConversions server query.withDefaults 30 [Sample.siteId] severalVisits).length = 1 := by
    decide +kernel
  have hall : (conversions query.withDefaults severalVisits).length = 1 := by decide +kernel
  obtain ⟨-, -, -, report, hreport, hchannels, -, htotal, -, hsum⟩ :=
    attribution_conserves Sample.platform server (fun _ => ("site", "Site")) realHalfPower query severalVisits
      (show attributionWeight query.model (clampHalfLife query.halfLifeDays) = some (.timeDecay 7) from rfl)
  refine ⟨report, hreport, ?_, ?_⟩
  · rw [hchannels]
    exact_mod_cast hone
  · rw [hsum, htotal, hall, Nat.cast_one]

end Momento.Reports
