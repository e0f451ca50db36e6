/-
  Momento.Governance.SemanticMetrics

  **METRICS DEFINED BY OTHER METRICS.**  A definition counts, sums, divides one
  definition by another, or refers to a metric by its name.  A save checks the new
  definition, and what it refers to, down to five levels; an evaluation walks the same
  way, an operand and a reference a level each.

      validateSemanticDefinition — the definition alone
      validateMetricReferences   — the active metrics it leads to
      saveSemanticMetric         — both, and the row
      evaluateSemanticMetric     — the walk again, against the registry as it is then

  Nothing is asked of the metrics that refer to the one being saved.
-/
import Momento.Foundation.Depth
import Momento.Foundation.Runs
import Momento.Foundation.Table
import Momento.Service.DataDeletion
import Momento.Service.Runs
import Momento.Service.Roles

namespace Momento.Governance

open Foundation

/-! ## §1. Definitions. -/

/-- A filter of a metric. -/
structure SemanticFilter where
  property : String
  operator : String
  /-- None where it is left out, or `null`. -/
  value : Option Json := none
  scope : String := ""

/-- What a metric measures. -/
structure SemanticDefinition where
  type : String
  metric : String := ""
  eventName : String := ""
  conversion : Option Bool := none
  property : String := ""
  fallbackProperty : String := ""
  trafficClass : String := ""
  minOccurrences : Int := 0
  filters : List SemanticFilter := []
  numerator : Option SemanticDefinition := none
  denominator : Option SemanticDefinition := none

/-- `registryNamePattern`. -/
def isRegistryName (name : String) : Bool :=
  match name.toList with
  | [] => false
  | c :: cs => c.isLower && cs.length ≤ 63 && cs.all fun c => c.isLower || c.isDigit || c = '_'

/-- An `in` filter has one to a hundred values. -/
def SemanticFilter.hasValues (filter : SemanticFilter) : Bool :=
  match filter.value with
  | some (.arr values) => 1 ≤ values.length && values.length ≤ 100
  | _ => false

/-- What a filter is refused for. -/
def SemanticFilter.check (filter : SemanticFilter) : Except String Unit :=
  if !isPropertyName filter.property then .error "invalid filter property"
  else if filter.operator ∉ ["eq", "neq", "exists", "not_exists", "in"] then .error "unsupported filter operator"
  else if filter.scope ≠ "" ∧ filter.scope ≠ "event" ∧ filter.scope ≠ "user" ∧ filter.scope ≠ "session" then
    .error "filter scope must be event, user or session"
  else if filter.operator = "in" ∧ !filter.hasValues then .error "in filter requires 1 to 100 values"
  else .ok ()

/-- The checks of the fields that every type has, the filters apart. -/
def SemanticDefinition.checkOwn (d : SemanticDefinition) : Except String Unit :=
  if d.eventName ≠ "" ∧ (!isPropertyName d.eventName ∨ 64 < d.eventName.utf8ByteSize) then .error "invalid event_name"
  else if d.property ≠ "" ∧ !isPropertyName d.property then .error "invalid property"
  else if d.fallbackProperty ≠ "" ∧ !isPropertyName d.fallbackProperty then .error "invalid fallback_property"
  else if d.trafficClass ≠ ""
      ∧ d.trafficClass ∉ ["normal", "internal_traffic", "known_bot", "monitoring", "suspicious"] then
    .error "invalid traffic_class"
  else if d.minOccurrences < 0 ∨ 1000000 < d.minOccurrences then
    .error "min_occurrences must be between 0 and 1000000"
  else .ok ()

/-- Its own fields, then its filters. -/
def SemanticDefinition.checkFields (d : SemanticDefinition) : Except String Unit := do
  d.checkOwn
  d.filters.forM SemanticFilter.check

/-- `validateSemanticDefinition`, with the levels that are left: at depth 1 there are five. -/
def validateSemanticDefinition : Nat → SemanticDefinition → Except String Unit
  | 0, _ => .error "metric definition nesting is limited to 5"
  | left + 1, d => do
    d.checkFields
    if d.type = "count" ∨ d.type = "unique_users" ∨ d.type = "unique_sessions" then pure ()
    else if d.type = "sum" ∨ d.type = "average" then
      if d.property = "" then throw ("property is required for " ++ d.type)
    else if d.type = "ratio" then
      match d.numerator, d.denominator with
      | some numerator, some denominator => do
        validateSemanticDefinition left numerator
        validateSemanticDefinition left denominator
      | _, _ => throw "ratio requires numerator and denominator"
    else if d.type = "metric_ref" then
      if !isRegistryName d.metric then throw "metric_ref requires a valid metric"
    else throw "unsupported metric type"

/-! ## §2. The registry. -/

/-- A row of `semantic_metrics`. -/
structure MetricRow where
  label : String
  description : String := ""
  definition : SemanticDefinition
  format : String := "number"
  unit : String := ""
  definitionVersion : Nat := 1
  active : Bool := true
  owner : String := ""
  entityScope : String := "event"
  tags : List String := []

/-- The metrics of a site. -/
abbrev Registry := Table String MetricRow

/-- `SELECT definition … WHERE name=$2 AND status='active'`. -/
def Registry.active (reg : Registry) (name : String) : Option SemanticDefinition :=
  ((reg.lookup name).filter MetricRow.active).map MetricRow.definition

section
variable (env : Platform) (reg : Registry)

/-- `validateMetricReferences`, with the levels that are left. -/
def validateMetricReferences (metricName : String) : Nat → List String → SemanticDefinition → Except String Unit
  | 0, _, _ => .error "metric reference nesting is limited to 5"
  | left + 1, seen, d =>
    if d.type = "ratio" then
      match d.numerator, d.denominator with
      | some numerator, some denominator => do
        validateMetricReferences metricName left seen numerator
        validateMetricReferences metricName left seen denominator
      -- a missing operand panics; every definition that comes here was validated
      | _, _ => .error ""
    else if d.type ≠ "metric_ref" then .ok ()
    else if d.metric = metricName ∨ d.metric ∈ seen then
      .error ("metric reference cycle detected at " ++ d.metric)
    else match reg.active d.metric with
      | none => .error ("referenced metric " ++ env.quote d.metric ++ " not found")
      | some referenced => validateMetricReferences metricName left (d.metric :: seen) referenced

end

/-! ## §3. Saving. -/

/-- The body of a save. -/
structure SaveBody where
  name : String
  label : String
  description : String
  definition : SemanticDefinition
  format : String
  unit : String
  status : String
  owner : String
  entityScope : String
  tags : List String

/-- A request, its body perhaps not decoded; and what the statement fails with, if it does. -/
structure SaveRequest where
  body : Except String SaveBody
  statementFails : Option String := none

/-- The name is one a registry takes, and there is a label. -/
def SaveBody.checkName (body : SaveBody) : Except Refusal Unit :=
  if !isRegistryName body.name ∨ trimSpace body.label = "" then
    .error ⟨400, "INVALID_METRIC", "valid name and label are required"⟩
  else .ok ()

namespace SaveBody
variable (body : SaveBody)

/-- The defaults. -/
def savedFormat : String := if body.format = "" then "number" else body.format

/-- A metric is active unless it says otherwise. -/
def savedStatus : String := if body.status = "" then "active" else body.status

/-- It is of events unless it says otherwise. -/
def savedScope : String := if body.entityScope = "" then "event" else body.entityScope

/-- The checks of the fields that are no definition. -/
def checkRest : Except Refusal Unit :=
  if body.savedFormat ∉ ["number", "percent", "duration", "currency"] then
    .error ⟨400, "INVALID_FORMAT", "format must be number, percent, duration or currency"⟩
  else if body.savedStatus ∉ ["active", "deprecated"] then
    .error ⟨400, "INVALID_STATUS", "status must be active or deprecated"⟩
  else if body.savedScope ∉ ["event", "session", "user", "item"] then
    .error ⟨400, "INVALID_SCOPE", "entity_scope must be event, session, user or item"⟩
  else if 20 < body.tags.length then .error ⟨400, "INVALID_TAGS", "at most 20 tags are allowed"⟩
  else if body.tags.any fun tag => trimSpace tag = "" || 64 < tag.utf8ByteSize then
    .error ⟨400, "INVALID_TAGS", "tags must be non-empty and at most 64 characters"⟩
  else .ok ()

/-- The row that is saved. -/
def row : MetricRow where
  label := body.label
  description := body.description
  definition := body.definition
  format := body.savedFormat
  unit := body.unit
  active := body.savedStatus = "active"
  owner := body.owner
  entityScope := body.savedScope
  tags := body.tags

end SaveBody

section
variable (env : Platform)

/-- `INSERT … ON CONFLICT(site_id,name) DO UPDATE`. -/
def Registry.put (reg : Registry) (name : String) (row : MetricRow) : Registry :=
  Table.upsert name row (fun old => { row with definitionVersion := old.definitionVersion + 1 }) reg

/-- What is checked before the statement. -/
def checkSave (reg : Registry) (body : SaveBody) : Except Refusal Unit := do
  body.checkName
  (validateSemanticDefinition 5 body.definition).mapError (⟨400, "INVALID_METRIC_DEFINITION", ·⟩)
  (validateMetricReferences env reg body.name 5 [body.name] body.definition).mapError
    (⟨400, "INVALID_METRIC_REFERENCE", ·⟩)
  body.checkRest

/-- `saveSemanticMetric`. -/
def saveSemanticMetric (reg : Registry) (request : SaveRequest) : Except Refusal Registry := do
  let body ← request.body.mapError (⟨400, "INVALID_PAYLOAD", ·⟩)
  checkSave env reg body
  match request.statementFails with
  | some message => throw ⟨500, "METRIC_SAVE_FAILED", message⟩
  | none => pure (reg.put body.name body.row)

/-- A call, refused or not. -/
def step (reg : Registry) (request : SaveRequest) : Registry :=
  match saveSemanticMetric env reg request with
  | .ok reg' => reg'
  | .error _ => reg

end

/-! ## §4. Evaluating. -/

/-- What the events come to under a definition that refers to nothing, and the arithmetic of a
ratio. -/
structure Measure (ν : Type) where
  read : SemanticDefinition → Except String ν
  zero : ν
  isZero : ν → Bool
  /-- `numerator / denominator * 100`. -/
  percentage : ν → ν → ν

/-- Why an evaluation has no value. -/
inductive EvaluationError where
  /-- Of `validateSemanticDefinition`. -/
  | invalid (message : String)
  | notFound (metric : String)
  | query (message : String)
  deriving DecidableEq

/-- A reference hands its filters down. -/
def SemanticDefinition.withFilters (d : SemanticDefinition) (filters : List SemanticFilter) : SemanticDefinition :=
  { d with filters := d.filters ++ filters }

section
variable {ν : Type} (measure : Measure ν) (reg : Registry)

/-- `evaluateSemanticMetric`, with the levels that are left. -/
def evaluateSemanticMetric : Nat → SemanticDefinition → Except EvaluationError ν
  | 0, d => (validateSemanticDefinition 0 d).mapError .invalid *> .ok measure.zero
  | left + 1, d => do
    (validateSemanticDefinition (left + 1) d).mapError .invalid
    if d.type = "ratio" then
      match d.numerator, d.denominator with
      | some numerator, some denominator => do
        let above ← evaluateSemanticMetric left (numerator.withFilters d.filters)
        let below ← evaluateSemanticMetric left (denominator.withFilters d.filters)
        pure (if measure.isZero below then measure.zero else measure.percentage above below)
      -- validated just before
      | _, _ => pure measure.zero
    else if d.type = "metric_ref" then
      match reg.active d.metric with
      | none => throw (.notFound d.metric)
      | some referenced => evaluateSemanticMetric left (referenced.withFilters d.filters)
    else (measure.read d).mapError .query

end

/-! ## §5. What a validated definition is. -/

theorem seq_ok_iff {ε : Type} {x y : Except ε Unit} : (do x; y) = .ok () ↔ x = .ok () ∧ y = .ok () := by
  cases x with
  | error e => exact ⟨fun h => absurd h (by simp [bind, Except.bind]), fun h => absurd h.1 (by simp)⟩
  | ok u => exact ⟨fun h => ⟨rfl, h⟩, fun h => h.2⟩

theorem forM_ok_iff {ε α : Type} {f : α → Except ε Unit} {l : List α} :
    l.forM f = .ok () ↔ ∀ a ∈ l, f a = .ok () := by
  induction l with
  | nil => exact ⟨fun _ _ h => absurd h List.not_mem_nil, fun _ => rfl⟩
  | cons a rest ih =>
    show (do f a; rest.forM f) = .ok () ↔ _
    rw [seq_ok_iff, ih, List.forall_mem_cons]

/-- The operands of a ratio. -/
def Operand (d e : SemanticDefinition) : Prop := d.type = "ratio" ∧ (d.numerator = some e ∨ d.denominator = some e)

/-- A definition and the operands in it. -/
abbrev Part : SemanticDefinition → SemanticDefinition → Prop := Relation.ReflTransGen Operand

/-- The definition's own fields and type are right, its operands apart. -/
structure Shape (d : SemanticDefinition) : Prop where
  fields : d.checkFields = .ok ()
  type : d.type ∈ ["count", "unique_users", "unique_sessions"]
    ∨ d.type ∈ ["sum", "average"] ∧ d.property ≠ ""
    ∨ d.type = "ratio" ∧ d.numerator.isSome ∧ d.denominator.isSome
    ∨ d.type = "metric_ref" ∧ isRegistryName d.metric

/-- A definition that is right throughout. -/
def Sound (d : SemanticDefinition) : Prop := ∀ e, Part d e → Shape e

theorem validate_ok_iff {left : Nat} {d : SemanticDefinition} :
    validateSemanticDefinition (left + 1) d = .ok ()
      ↔ Shape d ∧ ∀ e, Operand d e → validateSemanticDefinition left e = .ok () := by
  rw [validateSemanticDefinition, seq_ok_iff]
  constructor
  · rintro ⟨hfields, htype⟩
    split at htype
    next h =>
      exact ⟨⟨hfields, .inl (by simpa using h)⟩, fun e he => by simp [he.1] at h⟩
    split at htype
    next hcount h =>
      refine ⟨⟨hfields, .inr (.inl ⟨by simpa using h, ?_⟩)⟩, fun e he => by simp [he.1] at h⟩
      intro hproperty
      rw [if_pos hproperty] at htype
      exact absurd htype (by simp [throw, throwThe, MonadExceptOf.throw])
    split at htype
    next hcount hsum h =>
      split at htype
      next numerator denominator hn hd =>
        obtain ⟨hnumerator, hdenominator⟩ := seq_ok_iff.mp htype
        refine ⟨⟨hfields, .inr (.inr (.inl ⟨h, by simp [hn], by simp [hd]⟩))⟩, ?_⟩
        rintro e ⟨-, he | he⟩
        · rw [hn] at he
          exact Option.some.inj he ▸ hnumerator
        · rw [hd] at he
          exact Option.some.inj he ▸ hdenominator
      next => exact absurd htype (by simp [throw, throwThe, MonadExceptOf.throw])
    split at htype
    next hcount hsum hratio h =>
      refine ⟨⟨hfields, .inr (.inr (.inr ⟨h, ?_⟩))⟩, fun e he => absurd he.1 hratio⟩
      cases hname : isRegistryName d.metric with
      | true => rfl
      | false =>
        rw [hname] at htype
        exact absurd htype (by simp [throw, throwThe, MonadExceptOf.throw])
    next => exact absurd htype (by simp [throw, throwThe, MonadExceptOf.throw])
  · rintro ⟨hshape, hoperands⟩
    refine ⟨hshape.fields, ?_⟩
    rcases hshape.type with h | ⟨h, hproperty⟩ | ⟨h, hn, hd⟩ | ⟨h, hname⟩
    · rw [if_pos (by simpa using h)]
      rfl
    · rw [if_neg (by rintro (hc | hc | hc) <;> simp [hc] at h), if_pos (by simpa using h), if_neg hproperty]
      rfl
    · obtain ⟨numerator, hn⟩ := Option.isSome_iff_exists.mp hn
      obtain ⟨denominator, hd⟩ := Option.isSome_iff_exists.mp hd
      rw [if_neg (by simp [h]), if_neg (by simp [h]), if_pos h, hn, hd]
      exact seq_ok_iff.mpr ⟨hoperands _ ⟨h, .inl hn⟩, hoperands _ ⟨h, .inr hd⟩⟩
    · rw [if_neg (by simp [h]), if_neg (by simp [h]), if_neg (by simp [h]), if_pos h, if_neg (by simp [hname])]
      rfl

theorem sound_of_validate {left : Nat} {d : SemanticDefinition} (h : validateSemanticDefinition left d = .ok ()) :
    Sound d := by
  induction left generalizing d with
  | zero => exact absurd h (by simp [validateSemanticDefinition])
  | succ left ih =>
    obtain ⟨hshape, hoperands⟩ := validate_ok_iff.mp h
    intro e he
    rcases Relation.ReflTransGen.cases_head he with rfl | ⟨operand, hfirst, hrest⟩
    · exact hshape
    · exact ih (hoperands operand hfirst) e hrest

/-- A definition right throughout passes where it goes no deeper than the levels that are left. -/
theorem validate_of_shapes {left : Nat} {d : SemanticDefinition}
    (h : ∀ k e, Level Operand d k e → k ≤ left ∧ Shape e) : validateSemanticDefinition left d = .ok () := by
  induction left generalizing d with
  | zero => exact absurd (h 1 d .start).1 (by omega)
  | succ left ih =>
    refine validate_ok_iff.mpr ⟨(h 1 d .start).2, fun e he => ih fun k f hf => ?_⟩
    obtain ⟨hk, hshape⟩ := h (k + 1) f (level_head.mpr (.inr ⟨e, k, he, hf, rfl⟩))
    exact ⟨by omega, hshape⟩

/-! ## §6. What a definition leads to. -/

/-- `e` refers to the metric `name`. -/
def Names (name : String) (e : SemanticDefinition) : Prop := e.type = "metric_ref" ∧ e.metric = name

/-- From a definition to an operand, or to the active definition of the metric it refers to. -/
def Leads (reg : Registry) (d e : SemanticDefinition) : Prop :=
  Operand d e ∨ d.type = "metric_ref" ∧ reg.active d.metric = some e

theorem Operand.leads {d e : SemanticDefinition} (h : Operand d e) (reg : Registry) : Leads reg d e := .inl h

theorem Operand.not_names {d e : SemanticDefinition} {name : String} (h : Operand d e) : ¬Names name d := by
  intro hnames
  exact absurd (h.1.symm.trans hnames.1) (by decide)

theorem walk_of_part {d e : SemanticDefinition} (reg : Registry) (h : Part d e) : Relation.ReflTransGen (Leads reg) d e :=
  Relation.ReflTransGen.mono (fun _ _ hstep => Operand.leads hstep reg) _ _ h

theorem exists_level_of_part (reg : Registry) {d e : SemanticDefinition} (h : Part d e) :
    ∃ k, Level (Leads reg) d k e :=
  Level.of_reflTransGen (walk_of_part reg h)

/-- Every reference of every active metric is to an active metric. -/
def Resolved (reg : Registry) : Prop :=
  ∀ x d, reg.active x = some d → ∀ e, Part d e → ∀ name, Names name e → (reg.active name).isSome

/-- No active metric leads deeper than five levels. -/
def Shallow (reg : Registry) : Prop :=
  ∀ x d, reg.active x = some d → ∀ k e, Level (Leads reg) d k e → k ≤ 5

/-- One active metric refers to another. -/
def RefersTo (reg : Registry) (x y : String) : Prop :=
  ∃ d d', reg.active x = some d ∧ reg.active y = some d' ∧ ∃ e, Part d e ∧ Names y e

/-- **An evaluable registry.**  The references of its active metrics resolve, without a cycle and no
deeper than five levels; and an evaluation that fails, fails in the database. -/
structure Evaluable {ν : Type} (measure : Measure ν) (reg : Registry) : Prop where
  resolved : Resolved reg
  acyclic : ∀ x, ¬Relation.TransGen (RefersTo reg) x x
  shallow : Shallow reg
  evaluates : ∀ x d, reg.active x = some d → ∀ error, evaluateSemanticMetric measure reg 5 d = .error error →
    ∃ message, error = .query message

/-- Every stored definition is right throughout. -/
def AllSound (reg : Registry) : Prop := ∀ name row, reg.lookup name = some row → Sound row.definition

section
variable {reg : Registry}

/-- An active definition is sound. -/
theorem AllSound.of_active (h : AllSound reg) {name : String} {d : SemanticDefinition} (hd : reg.active name = some d) :
    Sound d := by
  obtain ⟨row, hrow, rfl⟩ := Option.map_eq_some_iff.mp hd
  exact h name row (Option.mem_filter_iff.mp hrow).1

/-- A reference leads to the metric's definition. -/
theorem transGen_of_refersTo {x y : String} (h : Relation.TransGen (RefersTo reg) x y) :
    ∃ d d', reg.active x = some d ∧ reg.active y = some d' ∧ Relation.TransGen (Leads reg) d d' := by
  have hone : ∀ {x y}, RefersTo reg x y →
      ∃ d d', reg.active x = some d ∧ reg.active y = some d' ∧ Relation.TransGen (Leads reg) d d' := by
    rintro x y ⟨d, d', hd, hd', e, hpart, htype, rfl⟩
    exact ⟨d, d', hd, hd', .tail' (walk_of_part reg hpart) (.inr ⟨htype, hd'⟩)⟩
  induction h with
  | single hxy => exact hone hxy
  | tail _ hlast ih =>
    obtain ⟨d, d', hd, hd', hwalk⟩ := ih
    obtain ⟨e, e', he, he', hstep⟩ := hone hlast
    obtain rfl := Option.some.inj (hd'.symm.trans he)
    exact ⟨d, e', hd, he', hwalk.trans hstep⟩

theorem Shallow.acyclic (h : Shallow reg) (x : String) : ¬Relation.TransGen (RefersTo reg) x x := by
  intro hcycle
  obtain ⟨d, d', hd, hd', hwalk⟩ := transGen_of_refersTo hcycle
  obtain rfl := Option.some.inj (hd.symm.trans hd')
  exact not_transGen_self (h x d hd) hwalk

/-- What an evaluation relies on: a walk within the levels, over right definitions, that always
finds what it looks for. -/
def Walkable (reg : Registry) (left : Nat) (d : SemanticDefinition) : Prop :=
  ∀ k e, Level (Leads reg) d k e → k ≤ left ∧ (Shape e ∧ ∀ name, Names name e → (reg.active name).isSome)

theorem Shape.check_filter {d : SemanticDefinition} (h : Shape d) {f : SemanticFilter} (hf : f ∈ d.filters) :
    f.check = .ok () :=
  forM_ok_iff.mp (seq_ok_iff.mp h.fields).2 f hf

theorem Shape.withFilters {d : SemanticDefinition} (h : Shape d) {filters : List SemanticFilter}
    (hfilters : ∀ f ∈ filters, f.check = .ok ()) : Shape (d.withFilters filters) := by
  refine ⟨seq_ok_iff.mpr ⟨(seq_ok_iff.mp h.fields).1, forM_ok_iff.mpr fun f hf => ?_⟩, h.type⟩
  rcases List.mem_append.mp hf with hf | hf
  · exact h.check_filter hf
  · exact hfilters f hf

/-- The filters of a definition bring no level and no reference. -/
theorem Walkable.withFilters {left : Nat} {d : SemanticDefinition} (h : Walkable reg left d)
    {filters : List SemanticFilter} (hfilters : ∀ f ∈ filters, f.check = .ok ()) :
    Walkable reg left (d.withFilters filters) := by
  intro k e hlevel
  rcases level_head.mp hlevel with ⟨rfl, rfl⟩ | ⟨c, j, hfirst, hrest, rfl⟩
  · obtain ⟨hk, hshape, hnames⟩ := h 1 d .start
    exact ⟨hk, hshape.withFilters hfilters, hnames⟩
  · exact h (j + 1) e (level_head.mpr (.inr ⟨c, j, hfirst, hrest, rfl⟩))

theorem Walkable.of_leads {left : Nat} {d e : SemanticDefinition} (h : Walkable reg (left + 1) d)
    (hstep : Leads reg d e) : Walkable reg left e := by
  intro k f hlevel
  obtain ⟨hk, hf⟩ := h (k + 1) f (level_head.mpr (.inr ⟨e, k, hstep, hlevel, rfl⟩))
  exact ⟨by omega, hf⟩

theorem Walkable.validate {left : Nat} {d : SemanticDefinition} (h : Walkable reg left d) :
    validateSemanticDefinition left d = .ok () := by
  apply validate_of_shapes
  intro k e hlevel
  obtain ⟨hk, hshape, -⟩ := h k e (hlevel.mono fun _ _ hstep => hstep.leads reg)
  exact ⟨hk, hshape⟩

/-- **An evaluation that can be walked fails in the database, or not at all.** -/
theorem evaluate_error_query {ν : Type} (measure : Measure ν) {left : Nat} {d : SemanticDefinition}
    (h : Walkable reg left d) {error : EvaluationError}
    (herror : evaluateSemanticMetric measure reg left d = .error error) : ∃ message, error = .query message := by
  induction left generalizing d error with
  | zero => exact absurd (h 1 d .start).1 (by omega)
  | succ left ih =>
    obtain ⟨-, hshape, hnames⟩ := h 1 d .start
    rw [evaluateSemanticMetric, h.validate] at herror
    simp only [Except.mapError, bind, Except.bind] at herror
    split at herror
    · -- a ratio: its operands, each with the filters of the whole
      next hratio =>
      split at herror
      next numerator denominator hn hd =>
        have habove := (h.of_leads (.inl ⟨hratio, .inl hn⟩)).withFilters fun f hf => hshape.check_filter hf
        have hbelow := (h.of_leads (.inl ⟨hratio, .inr hd⟩)).withFilters fun f hf => hshape.check_filter hf
        cases hnumerator : evaluateSemanticMetric measure reg left (numerator.withFilters d.filters) with
        | error e =>
          rw [hnumerator] at herror
          obtain rfl := Except.error.inj herror
          exact ih habove hnumerator
        | ok above =>
          rw [hnumerator] at herror
          cases hdenominator : evaluateSemanticMetric measure reg left (denominator.withFilters d.filters) with
          | error e =>
            rw [hdenominator] at herror
            obtain rfl := Except.error.inj herror
            exact ih hbelow hdenominator
          | ok below =>
            rw [hdenominator] at herror
            exact absurd herror (by simp [pure, Except.pure])
      next => exact absurd herror (by simp [pure, Except.pure])
    split at herror
    · -- a reference: the metric is there
      next hratio hreference =>
      obtain ⟨referenced, hreferenced⟩ := Option.isSome_iff_exists.mp (hnames d.metric ⟨hreference, rfl⟩)
      rw [hreferenced] at herror
      exact ih ((h.of_leads (.inr ⟨hreference, hreferenced⟩)).withFilters fun f hf => hshape.check_filter hf) herror
    next hratio hreference =>
    cases hread : measure.read d with
    | ok v =>
      rw [hread] at herror
      exact absurd herror (by simp)
    | error message =>
      rw [hread] at herror
      exact ⟨message, (Except.error.inj herror).symm⟩

/-- An evaluable registry is one whose references resolve and lead no deeper than five levels. -/
theorem evaluable_iff {ν : Type} (measure : Measure ν) (hsound : AllSound reg) :
    Evaluable measure reg ↔ Resolved reg ∧ Shallow reg := by
  constructor
  · exact fun h => ⟨h.resolved, h.shallow⟩
  · rintro ⟨hresolved, hshallow⟩
    -- every definition met from an active metric is a part of an active metric's
    have hmet : ∀ {x d}, reg.active x = some d → ∀ {k e}, Level (Leads reg) d k e →
        ∃ y dy, reg.active y = some dy ∧ Part dy e := by
      intro x d hd k e hlevel
      induction hlevel with
      | start => exact ⟨x, d, hd, .refl⟩
      | @step k e f _ hlast ih =>
        obtain ⟨y, dy, hdy, hpart⟩ := ih
        rcases hlast with hoperand | ⟨-, hactive⟩
        · exact ⟨y, dy, hdy, hpart.tail hoperand⟩
        · exact ⟨e.metric, f, hactive, .refl⟩
    refine ⟨hresolved, hshallow.acyclic, hshallow, fun x d hd error herror => ?_⟩
    refine evaluate_error_query measure (fun k e hlevel => ?_) herror
    obtain ⟨y, dy, hdy, hpart⟩ := hmet hd hlevel
    exact ⟨hshallow x d hd k e hlevel, hsound.of_active hdy e hpart, hresolved y dy hdy e hpart⟩

/-! ## §7. What a save makes sure of. -/

/-- **References that were validated**: no deeper than the levels that are left, never to the metric
itself, and always to an active one. -/
theorem walk_of_references {env : Platform} {m : String} {left : Nat} {seen : List String} {d : SemanticDefinition}
    (h : validateMetricReferences env reg m left seen d = .ok ()) :
    ∀ k e, Level (Leads reg) d k e → k ≤ left ∧ ∀ name, Names name e → name ≠ m ∧ (reg.active name).isSome := by
  induction left generalizing seen d with
  | zero => exact absurd h (by simp [validateMetricReferences])
  | succ left ih =>
    rw [validateMetricReferences] at h
    split at h
    next hratio =>
      split at h
      next numerator denominator hn hd =>
        obtain ⟨hnumerator, hdenominator⟩ := seq_ok_iff.mp h
        apply forall_level_of_head
        · intro name hnames
          exact absurd (hratio.symm.trans hnames.1) (by decide)
        · rintro c (⟨-, hc | hc⟩ | ⟨hreference, -⟩)
          · rw [hn] at hc
            exact Option.some.inj hc ▸ ih hnumerator
          · rw [hd] at hc
            exact Option.some.inj hc ▸ ih hdenominator
          · exact absurd (hratio.symm.trans hreference) (by decide)
      next => exact absurd h (by simp)
    next hratio =>
      split at h
      · -- neither a ratio nor a reference: it leads nowhere
        next hreference =>
        apply forall_level_of_head
        · exact fun name hnames => absurd hnames.1 hreference
        · rintro c (⟨hc, -⟩ | ⟨hc, -⟩)
          · exact absurd hc hratio
          · exact absurd hc hreference
      next hreference =>
      split at h
      · exact absurd h (by simp)
      next hcycle =>
      split at h
      · exact absurd h (by simp)
      next referenced hreferenced =>
      apply forall_level_of_head
      · rintro name ⟨-, rfl⟩
        exact ⟨fun hself => hcycle (.inl hself), by rw [hreferenced]; rfl⟩
      · rintro c (⟨hc, -⟩ | ⟨-, hc⟩)
        · exact absurd hc hratio
        · rw [hreferenced] at hc
          exact Option.some.inj hc ▸ ih h

end

/-- **A save that was accepted.** -/
structure Accepted (env : Platform) (reg : Registry) (request : SaveRequest) (body : SaveBody) : Prop where
  decoded : request.body = .ok body
  valid : validateSemanticDefinition 5 body.definition = .ok ()
  references : validateMetricReferences env reg body.name 5 [body.name] body.definition = .ok ()
  status : body.savedStatus ∈ ["active", "deprecated"]
  stored : saveSemanticMetric env reg request = .ok (reg.put body.name body.row)

theorem savedStatus_of_checkRest {body : SaveBody} (h : body.checkRest = .ok ()) :
    body.savedStatus ∈ ["active", "deprecated"] := by
  unfold SaveBody.checkRest at h
  split at h
  · exact absurd h (by simp)
  split at h
  · exact absurd h (by simp)
  next hstatus => exact Classical.not_not.mp hstatus

theorem mapError_ok_iff {ε ε' α : Type} {f : ε → ε'} {x : Except ε α} {a : α} : x.mapError f = .ok a ↔ x = .ok a := by
  cases x <;> simp [Except.mapError]

/-- A request is accepted, or refused. -/
theorem accepted_or_refused (env : Platform) (reg : Registry) (request : SaveRequest) :
    (∃ body, Accepted env reg request body) ∨ ∃ refusal, saveSemanticMetric env reg request = .error refusal := by
  cases hsave : saveSemanticMetric env reg request with
  | error refusal => exact .inr ⟨refusal, rfl⟩
  | ok reg' =>
    left
    have h := hsave
    unfold saveSemanticMetric at h
    cases hbody : request.body with
    | error message =>
      rw [hbody] at h
      exact absurd h (by simp [Except.mapError, bind, Except.bind])
    | ok body =>
      rw [hbody] at h
      change (do checkSave env reg body; _) = _ at h
      cases hcheck : checkSave env reg body with
      | error refusal =>
        rw [hcheck] at h
        exact absurd h (by simp [bind, Except.bind])
      | ok _ =>
        rw [hcheck] at h
        obtain ⟨-, hrest⟩ := seq_ok_iff.mp hcheck
        obtain ⟨hvalid, hrest⟩ := seq_ok_iff.mp hrest
        obtain ⟨hreferences, hrest⟩ := seq_ok_iff.mp hrest
        refine ⟨body, hbody, mapError_ok_iff.mp hvalid, mapError_ok_iff.mp hreferences,
          savedStatus_of_checkRest hrest, ?_⟩
        cases hfails : request.statementFails with
        | some message =>
          rw [hfails] at h
          exact absurd h (by simp [bind, Except.bind, throw, throwThe, MonadExceptOf.throw])
        | none =>
          rw [hfails] at h
          rw [hsave]
          exact h.symm

/-! ## §8. What a save does to the others. -/

/-- **What a save must not do**: deprecate a metric that another active one refers to, or give a metric
a definition that leads deeper than the place an active one refers to it from leaves room for. -/
structure KeepsReferrers (reg : Registry) (body : SaveBody) : Prop where
  deprecated : body.savedStatus = "deprecated" → ∀ x d, x ≠ body.name → reg.active x = some d →
    ∀ e, Part d e → ¬Names body.name e
  active : body.savedStatus = "active" → ∀ x d, x ≠ body.name → reg.active x = some d →
    ∀ k e, Level (Leads reg) d k e → Names body.name e →
      ∀ j f, Level (Leads reg) body.definition j f → k + j ≤ 5

section
variable {env : Platform} {reg : Registry} {request : SaveRequest} {body : SaveBody}

/-- What an accepted save stores. -/
theorem Accepted.step_eq (h : Accepted env reg request body) : step env reg request = reg.put body.name body.row := by
  unfold step
  rw [h.stored]

/-- A refused save stores nothing. -/
theorem step_of_refused {refusal : Refusal} (h : saveSemanticMetric env reg request = .error refusal) :
    step env reg request = reg := by
  unfold step
  rw [h]

/-- The row a save leaves, whichever version it is. -/
theorem lookup_put_self (reg : Registry) (name : String) (row : MetricRow) :
    ∃ version, (reg.put name row).lookup name = some { row with definitionVersion := version } := by
  unfold Registry.put
  rw [Table.lookup_upsert_self]
  cases reg.lookup name with
  | none => exact ⟨row.definitionVersion, rfl⟩
  | some old => exact ⟨old.definitionVersion + 1, rfl⟩

theorem active_put_self (reg : Registry) (name : String) (row : MetricRow) :
    (reg.put name row).active name = if row.active then some row.definition else none := by
  obtain ⟨version, hlookup⟩ := lookup_put_self reg name row
  unfold Registry.active
  rw [hlookup]
  cases row.active <;> simp [Option.filter]

theorem active_put_of_ne {name x : String} (h : x ≠ name) (reg : Registry) (row : MetricRow) :
    (reg.put name row).active x = reg.active x := by
  unfold Registry.active Registry.put
  rw [Table.lookup_upsert_of_ne h]

/-- **One save.** -/
theorem AllSound.step (h : AllSound reg) : AllSound (step env reg request) := by
  rcases accepted_or_refused env reg request with ⟨body, haccepted⟩ | ⟨refusal, hrefused⟩
  · rw [haccepted.step_eq]
    intro name row hrow
    by_cases hname : name = body.name
    · subst hname
      obtain ⟨version, hlookup⟩ := lookup_put_self reg body.name body.row
      rw [hlookup] at hrow
      obtain rfl := Option.some.inj hrow
      exact sound_of_validate haccepted.valid
    · unfold Registry.put at hrow
      rw [Table.lookup_upsert_of_ne hname] at hrow
      exact h name row hrow
  · rw [step_of_refused hrefused]
    exact h

/-- Only references to the metric that is saved lead elsewhere. -/
theorem leads_put_iff {name : String} {row : MetricRow} {b : SemanticDefinition} (h : ¬Names name b)
    (c : SemanticDefinition) : Leads (reg.put name row) b c ↔ Leads reg b c := by
  unfold Leads
  by_cases htype : b.type = "metric_ref"
  · rw [active_put_of_ne (fun hmetric => h ⟨htype, hmetric⟩)]
  · simp only [htype, false_and, or_false]

/-- In a shallow registry the walk to a reference is there before and after: it does not come to a
reference to that metric earlier, as there is no cycle. -/
theorem level_put_of_names {name : String} {row : MetricRow} (hshallow : Shallow reg) {d e : SemanticDefinition}
    {k : Nat} (hlevel : Level (Leads reg) d k e) (hnames : Names name e) : Level (Leads (reg.put name row)) d k e := by
  have hwalk : ∀ k b, Level (Leads reg) d k b → Relation.ReflTransGen (Leads reg) b e →
      Level (Leads (reg.put name row)) d k b := by
    intro k b hb
    induction hb with
    | start => exact fun _ => .start
    | @step k b c _ hlast ih =>
      intro hrest
      refine (ih (.head hlast hrest)).step ?_
      by_cases hb : Names name b
      · -- from `c`, the metric's definition, back to `c`
        exfalso
        rcases hlast with hoperand | ⟨htype, hactive⟩
        · exact hoperand.not_names hb
        · rw [hb.2] at hactive
          have hback : Leads reg e c := .inr ⟨hnames.1, by rw [hnames.2]; exact hactive⟩
          exact not_transGen_self (hshallow name c hactive) (.tail' hrest hback)
      · exact (leads_put_iff hb c).mpr hlast
  exact hwalk k e hlevel .refl

theorem Accepted.row_active (h : Accepted env reg request body) :
    body.savedStatus = "active" ∧ body.row.active ∨ body.savedStatus = "deprecated" ∧ body.row.active = false := by
  have hstatus := h.status
  simp only [List.mem_cons, List.not_mem_nil, or_false] at hstatus
  rcases hstatus with hs | hs
  · exact .inl ⟨hs, by simp [SaveBody.row, hs]⟩
  · exact .inr ⟨hs, by simp [SaveBody.row, hs]⟩

/-- A new definition leads to no reference to its own metric, before and after. -/
theorem Accepted.level_put_iff (h : Accepted env reg request body) {row : MetricRow} {k : Nat} {e : SemanticDefinition} :
    Level (Leads (reg.put body.name row)) body.definition k e ↔ Level (Leads reg) body.definition k e := by
  apply level_of_untouched
  · exact fun b c hb => leads_put_iff hb c
  · intro k e hlevel hnames
    exact ((walk_of_references h.references k e hlevel).2 body.name hnames).1 rfl

/-- **A save of an active metric.** -/
theorem Accepted.evaluable_active (h : Accepted env reg request body) (hstatus : body.savedStatus = "active")
    (hactive : body.row.active) (hresolved : Resolved reg) (hshallow : Shallow reg) :
    (Resolved (reg.put body.name body.row) ∧ Shallow (reg.put body.name body.row)) ↔ KeepsReferrers reg body := by
  have hself : (reg.put body.name body.row).active body.name = some body.definition := by
    rw [active_put_self, if_pos hactive]
    rfl
  have hother : ∀ x, x ≠ body.name → (reg.put body.name body.row).active x = reg.active x :=
    fun x hx => active_put_of_ne hx reg body.row
  constructor
  · rintro ⟨-, hshallow'⟩
    refine ⟨fun hdeprecated => absurd (hstatus.symm.trans hdeprecated) (by decide), ?_⟩
    intro _ x d hx hd k e hlevel hnames j f hbelow
    -- up to the reference, into the new definition, and down
    have hstep : Leads (reg.put body.name body.row) e body.definition :=
      .inr ⟨hnames.1, by rw [hnames.2]; exact hself⟩
    have hwalk := (level_put_of_names hshallow hlevel hnames).trans hstep (h.level_put_iff.mpr hbelow)
    exact hshallow' x d (by rw [hother x hx]; exact hd) _ _ hwalk
  · intro hkeeps
    have hfound : ∀ name, (reg.active name).isSome → ((reg.put body.name body.row).active name).isSome := by
      intro name hname
      by_cases heq : name = body.name
      · rw [heq, hself]
        rfl
      · rw [hother name heq]
        exact hname
    constructor
    · intro x d hd e hpart name hnames
      by_cases hx : x = body.name
      · rw [hx, hself] at hd
        obtain rfl := Option.some.inj hd
        obtain ⟨k, hlevel⟩ := exists_level_of_part reg hpart
        exact hfound name ((walk_of_references h.references k e hlevel).2 name hnames).2
      · rw [hother x hx] at hd
        exact hfound name (hresolved x d hd e hpart name hnames)
    · intro x d hd k e hlevel
      by_cases hx : x = body.name
      · rw [hx, hself] at hd
        obtain rfl := Option.some.inj hd
        exact (walk_of_references h.references k e (h.level_put_iff.mp hlevel)).1
      · rw [hother x hx] at hd
        have hsame : ∀ b c, ¬Names body.name b → (Leads (reg.put body.name body.row) b c ↔ Leads reg b c) :=
          fun b c hb => leads_put_iff hb c
        have hroot : ∀ b c, Names body.name b → Leads (reg.put body.name body.row) b c → c = body.definition := by
          rintro b c hb (hoperand | ⟨-, hc⟩)
          · exact absurd hb hoperand.not_names
          · rw [hb.2, hself] at hc
            exact (Option.some.inj hc).symm
        have hnever : ∀ k e, Level (Leads reg) body.definition k e → ¬Names body.name e :=
          fun k e hlevel hnames => ((walk_of_references h.references k e hlevel).2 _ hnames).1 rfl
        rcases level_of_replaced hsame hroot hnever hlevel with hold | ⟨i, c, j, hto, hc, hfrom, rfl⟩
        · exact hshallow x d hd k e hold
        · exact hkeeps.active hstatus x d hx hd i c hto hc j e hfrom

/-- **A save that deprecates.** -/
theorem Accepted.evaluable_deprecated (hstatus : body.savedStatus = "deprecated")
    (hactive : body.row.active = false) (hresolved : Resolved reg) (hshallow : Shallow reg) :
    (Resolved (reg.put body.name body.row) ∧ Shallow (reg.put body.name body.row)) ↔ KeepsReferrers reg body := by
  have hself : (reg.put body.name body.row).active body.name = none := by
    rw [active_put_self, hactive]
    rfl
  have hother : ∀ x, x ≠ body.name → (reg.put body.name body.row).active x = reg.active x :=
    fun x hx => active_put_of_ne hx reg body.row
  have hne : ∀ {x d}, (reg.put body.name body.row).active x = some d → x ≠ body.name := by
    rintro x d hd rfl
    exact absurd (hself.symm.trans hd) (by simp)
  constructor
  · rintro ⟨hresolved', -⟩
    refine ⟨?_, fun h => absurd (h.symm.trans hstatus) (by decide)⟩
    intro _ x d hx hd e hpart hnames
    have hfound := hresolved' x d (by rw [hother x hx]; exact hd) e hpart body.name hnames
    rw [hself] at hfound
    exact absurd hfound (by simp)
  · intro hkeeps
    constructor
    · intro x d hd e hpart name hnames
      have hx := hne hd
      rw [hother x hx] at hd
      have hname : name ≠ body.name := by
        rintro rfl
        exact hkeeps.deprecated hstatus x d hx hd e hpart hnames
      rw [hother name hname]
      exact hresolved x d hd e hpart name hnames
    · intro x d hd k e hlevel
      have hx := hne hd
      rw [hother x hx] at hd
      -- a walk that is left was there
      refine hshallow x d hd k e (hlevel.mono ?_)
      rintro b c (hoperand | ⟨htype, hc⟩)
      · exact .inl hoperand
      · rw [hother _ (hne hc)] at hc
        exact .inr ⟨htype, hc⟩

/-- **One save.** -/
theorem step_evaluable_iff {ν : Type} (measure : Measure ν) (hsound : AllSound reg) (h : Evaluable measure reg) :
    Evaluable measure (step env reg request) ↔ ∀ body, Accepted env reg request body → KeepsReferrers reg body := by
  rcases accepted_or_refused env reg request with ⟨body, haccepted⟩ | ⟨refusal, hrefused⟩
  · have honly : (∀ other, Accepted env reg request other → KeepsReferrers reg other) ↔ KeepsReferrers reg body := by
      constructor
      · exact fun hall => hall body haccepted
      · intro hkeeps other hother
        have heq : body = other := Except.ok.inj (haccepted.decoded.symm.trans hother.decoded)
        exact heq ▸ hkeeps
    rw [honly, evaluable_iff measure hsound.step, haccepted.step_eq]
    rcases haccepted.row_active with ⟨hstatus, hactive⟩ | ⟨hstatus, hactive⟩
    · exact haccepted.evaluable_active hstatus hactive h.resolved h.shallow
    · exact Accepted.evaluable_deprecated hstatus hactive h.resolved h.shallow
  · rw [step_of_refused hrefused]
    refine ⟨fun _ body haccepted => ?_, fun _ => h⟩
    rw [haccepted.stored] at hrefused
    exact absurd hrefused (by simp)

end

/-- **The registry stays evaluable** all along a run of calls exactly where no save that is accepted
deprecates a metric an active one refers to, or gives a metric a definition too deep for the place it is
referred to from. -/
theorem registry_stays_evaluable {ν : Type} (env : Platform) (measure : Measure ν) (start : Registry)
    (hsound : AllSound start) (hstart : Evaluable measure start) (requests : List SaveRequest) :
    (∀ n, Evaluable measure ((requests.take n).foldl (step env) start))
      ↔ Along (step env) (fun reg request => ∀ body, Accepted env reg request body → KeepsReferrers reg body)
          start requests := by
  apply forall_take_iff_along (I := AllSound) (J := Evaluable measure)
  · exact fun reg request h => h.step
  · exact fun reg request hsound h => step_evaluable_iff measure hsound h
  · exact hsound
  · exact hstart

/-! ## §9. The metrics every site starts with. -/

/-- The rows of the `INSERT` that creates a site's metrics. -/
def builtin : List (String × MetricRow) :=
  [("events", { label := "Events", description := "수집된 이벤트 수", definition := { type := "count" } }),
   ("users", { label := "Users", description := "Canonical 사용자 수", definition := { type := "unique_users" } }),
   ("sessions", { label := "Sessions", description := "세션 수", definition := { type := "unique_sessions" } }),
   ("page_views",
     { label := "Page Views", description := "페이지 조회 수", definition := { type := "count", eventName := "page_view" } }),
   ("conversions",
     { label := "Conversions", description := "전환 이벤트 수", definition := { type := "count", conversion := some true } }),
   ("conversion_users",
     { label := "Conversion Users", description := "전환 사용자 수"
       definition := { type := "unique_users", conversion := some true } }),
   ("revenue",
     { label := "Revenue", description := "구매 매출 합계", format := "currency"
       definition :=
        { type := "sum", eventName := "purchase", property := "value", fallbackProperty := "revenue" } })]

/-- The registry of a site that saved nothing. -/
def newSite : Registry := (builtin.map fun m => (⟨m.1, m.2⟩ : (_ : String) × MetricRow)).toAList

theorem mem_builtin {name : String} {row : MetricRow} (h : newSite.lookup name = some row) : (name, row) ∈ builtin := by
  unfold newSite at h
  rw [AList.lookup_to_alist] at h
  obtain ⟨m, hm, heq⟩ := List.mem_map.mp (List.of_mem_dlookup h)
  cases heq
  exact hm

theorem validate_builtin : ∀ m ∈ builtin, validateSemanticDefinition 1 m.2.definition = .ok () := by
  simp only [builtin, List.forall_mem_cons, List.not_mem_nil, false_implies, implies_true, and_true]
  refine ⟨rfl, rfl, rfl, rfl, rfl, rfl, rfl⟩

theorem allSound_newSite : AllSound newSite :=
  fun name row h => sound_of_validate (validate_builtin (name, row) (mem_builtin h))

/-- A built-in metric leads nowhere. -/
theorem not_leads_builtin : ∀ m ∈ builtin, m.2.definition.type ≠ "ratio" ∧ m.2.definition.type ≠ "metric_ref" := by
  decide

theorem active_newSite {x : String} {d : SemanticDefinition} (h : newSite.active x = some d) :
    d.type ≠ "ratio" ∧ d.type ≠ "metric_ref" := by
  obtain ⟨row, hrow, rfl⟩ := Option.map_eq_some_iff.mp h
  exact not_leads_builtin (x, row) (mem_builtin (Option.mem_filter_iff.mp hrow).1)

theorem level_newSite {x : String} {d e : SemanticDefinition} {k : Nat} (h : newSite.active x = some d)
    (hlevel : Level (Leads newSite) d k e) : k = 1 ∧ e = d := by
  rcases level_head.mp hlevel with hstart | ⟨c, j, ⟨htype, -⟩ | ⟨htype, -⟩, -, -⟩
  · exact hstart
  · exact absurd htype (active_newSite h).1
  · exact absurd htype (active_newSite h).2

/-- **A new site's registry is evaluable.** -/
theorem evaluable_newSite {ν : Type} (measure : Measure ν) : Evaluable measure newSite := by
  rw [evaluable_iff measure allSound_newSite]
  constructor
  · intro x d hd e hpart name hnames
    obtain ⟨k, hlevel⟩ := exists_level_of_part newSite hpart
    obtain ⟨-, rfl⟩ := level_newSite hd hlevel
    exact absurd hnames.1 (active_newSite hd).2
  · intro x d hd k e hlevel
    have := (level_newSite hd hlevel).1
    omega

namespace MetricSample

/-- Every metric is one. -/
def measure : Measure Nat := ⟨fun _ => .ok 1, 0, fun n => n = 0, fun n m => 100 * n / m⟩

def save (name : String) (definition : SemanticDefinition) (status : String) : SaveRequest where
  body := .ok
    { name := name
      label := name
      description := ""
      definition := definition
      format := ""
      unit := ""
      status := status
      owner := ""
      entityScope := ""
      tags := [] }

/-- The users who converted, in a hundred. -/
def conversionRate : SemanticDefinition where
  type := "ratio"
  numerator := some { type := "metric_ref", metric := "conversion_users" }
  denominator := some { type := "metric_ref", metric := "users" }

end MetricSample

open MetricSample in
/-- A ratio of two built-in metrics is added. -/
theorem registry_stays_evaluable_ratio :
    Evaluable measure ((([save "conversion_rate" conversionRate ""] : List SaveRequest).take 1).foldl
      (step Sample.platform) newSite) := by
  refine (registry_stays_evaluable Sample.platform measure newSite allSound_newSite (evaluable_newSite measure)
    [save "conversion_rate" conversionRate ""]).mpr ⟨fun body haccepted => ?_, trivial⟩ 1
  obtain rfl := Except.ok.inj haccepted.decoded
  refine ⟨fun h => absurd h (by decide), ?_⟩
  -- no built-in metric refers to another
  intro _ x d _ hd k e hlevel hnames
  obtain ⟨-, rfl⟩ := level_newSite hd hlevel
  exact absurd hnames.1 (active_newSite hd).2

open MetricSample in
/-- **A metric that another refers to is deprecated**, and the reference resolves no more. -/
theorem registry_not_evaluable :
    ¬∀ requests : List SaveRequest, Evaluable measure (requests.foldl (step Sample.platform) newSite) := by
  intro h
  have hevaluable := h [save "purchases" { type := "metric_ref", metric := "events" } "",
    save "events" { type := "count" } "deprecated"]
  generalize hreg : [save "purchases" { type := "metric_ref", metric := "events" } "",
    save "events" { type := "count" } "deprecated"].foldl (step Sample.platform) newSite = reg at hevaluable
  have hstored : (reg.active "purchases").map (fun d => (d.type, d.metric)) = some ("metric_ref", "events") := by
    subst hreg
    decide +kernel
  obtain ⟨d, hd, hshape⟩ := Option.map_eq_some_iff.mp hstored
  have hfound := hevaluable.resolved "purchases" d hd d .refl "events" (Prod.mk.inj hshape)
  have hgone : (reg.active "events").isSome = false := by
    subst hreg
    decide +kernel
  rw [hgone] at hfound
  exact absurd hfound (by decide)

end Momento.Governance
