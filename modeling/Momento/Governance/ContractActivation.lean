/-
  Momento.Governance.ContractActivation

  **WHICH VERSION OF A CONTRACT IS ACTIVE**, while requests that create, activate
  and edit contracts of a site run at once.  Each is one transaction:

      createEventContract    — the definition's row, the next version number, the
                               active version deprecated, the version inserted, the
                               definition pointed at it (the last but one only and
                               the last only where it is activated)
      activateEventContract  — the version's row locked, the active version
                               deprecated, this one made active, the definition
                               pointed at it
      upsertEventDefinition  — as a creation that activates

  A step of the world is one row of one statement; a step whose row is locked
  leaves the world as it is, and may be tried again.
-/
import Momento.Foundation.ReadCommitted
import Momento.Foundation.Runs
import Momento.Model.Json
import Momento.Model.Database

namespace Momento.Governance

open Foundation

/-! ## §1. Rows and requests. -/

/-- A row of `event_definitions`, of one site. -/
structure Definition where
  description : String
  owner : String
  schema : Json
  validationMode : ContractMode
  conversion : Bool
  currentVersion : Nat
  deprecated : Bool

/-- A row of `event_contract_versions`. -/
structure Version where
  schema : Json
  validationMode : ContractMode
  status : ContractStatus
  changelog : String

/-- `UNIQUE(site_id, event_name, version)`. -/
abbrev VersionKey : Type := String × Nat

/-- What the three handlers are sent. -/
inductive Request where
  | createEventContract (description owner : String) (schema : Json) (mode : ContractMode)
      (changelog : String) (activate : Bool)
  | activateEventContract (version : Nat)
  | upsertEventDefinition (description : String) (conversion : Bool) (schema : Json) (mode : ContractMode)

namespace Request

/-- `INSERT INTO event_definitions … ON CONFLICT(site_id, name) DO UPDATE`: the row to
insert, and the row there is as it is updated. -/
def definitionRow : Request → Option Definition → Option Definition
  | .createEventContract description owner schema mode _ _, none =>
    some ⟨description, owner, schema, mode, false, 1, false⟩
  | .createEventContract description owner _ _ _ _, some d => some { d with description := description, owner := owner }
  | .upsertEventDefinition description conversion schema mode, none =>
    some ⟨description, "", schema, mode, conversion, 1, false⟩
  | .upsertEventDefinition description conversion _ _, some d =>
    some { d with description := description, conversion := conversion }
  | .activateEventContract _, _ => none

/-- Whether the version is made active. -/
def activates : Request → Bool
  | .createEventContract _ _ _ _ _ activate => activate
  | .activateEventContract _ => true
  | .upsertEventDefinition _ _ _ _ => true

/-- The changelog of an inserted version. -/
def changelog : Request → String
  | .createEventContract _ _ _ _ changelog _ => changelog
  | .activateEventContract _ => ""
  | .upsertEventDefinition _ _ _ _ => "Legacy schema editor"

end Request

/-- The version a transaction is about, with what it knows of it. -/
structure Target where
  version : Nat
  schema : Json
  validationMode : ContractMode

/-- How far a transaction is. -/
inductive Phase where
  | begun
  /-- Its definition's row is written. -/
  | defined
  /-- The version's number is chosen, or its row locked. -/
  | chosen (t : Target)
  /-- `SET status='deprecated'` runs: the versions its snapshot found active, and
  those of them left to look at. -/
  | deprecating (t : Target) (found left : List Nat)
  /-- The version is there, and active. -/
  | placed (t : Target) (found : List Nat)
  /-- The definition points at it. -/
  | pointed (t : Target) (found : List Nat)
  /-- The version is there, a draft. -/
  | drafted (t : Target)

/-- A handler's transaction under way. -/
structure Program where
  eventName : String
  request : Request
  phase : Phase

/-- The two tables, and the transactions under way. -/
structure World where
  definitions : Relation String Definition
  versions : Relation VersionKey Version
  programs : Table Nat Program

/-- The statements of the handlers, row by row, in any order. -/
inductive Action where
  | start (x : Nat) (eventName : String) (request : Request)
  | define (x : Nat)
  | choose (x : Nat)
  | deprecateActive (x : Nat)
  | deprecateRow (x : Nat) (version : Nat)
  | place (x : Nat)
  | point (x : Nat)
  | commit (x : Nat)
  | abort (x : Nat)

/-! ## §2. Steps. -/

/-- `SET status='deprecated' WHERE status='active'`. -/
def Version.deprecateActive (v : Version) : Version :=
  if v.status = .active then { v with status := .deprecated } else v

/-- `SET status='active'`. -/
def Version.activate (v : Version) : Version := { v with status := .active }

/-- `UPDATE event_definitions SET current_version, schema, validation_mode`; only the
editor leaves `deprecated` alone. -/
def Target.update (t : Target) (request : Request) (d : Definition) : Definition :=
  { d with
    currentVersion := t.version
    schema := t.schema
    validationMode := t.validationMode
    deprecated :=
      match request with
      | .upsertEventDefinition _ _ _ _ => d.deprecated
      | _ => false }

/-- A statement on a stored row. -/
def onRow {ρ : Type} (f : ρ → ρ) (held : Option (Held ρ)) : Option (Held ρ) :=
  held.map fun h => ⟨h.birth, f h.row⟩

/-- The versions of an event the rows have active. -/
def activeVersions (rows : Table VersionKey (Held Version)) (eventName : String) : List Nat :=
  (rows.entries.filter fun e => e.1.1 = eventName ∧ e.2.row.status = .active).map fun e => e.1.2

/-- `SELECT coalesce(max(version),0)+1`. -/
def nextVersion (rows : Table VersionKey (Held Version)) (eventName : String) : Nat :=
  ((rows.entries.filter fun e => e.1.1 = eventName).map fun e => e.1.2).foldr max 0 + 1

namespace World
variable (w : World)

/-- Nothing runs yet. -/
def initial (definitions : Table String (Held Definition)) (versions : Table VersionKey (Held Version)) : World :=
  ⟨{ Relation.empty with committed := definitions }, { Relation.empty with committed := versions }, ∅⟩

/-- The transaction goes on. -/
def withPhase (x : Nat) (p : Program) (phase : Phase) : World :=
  { w with programs := AList.insert x { p with phase := phase } w.programs }

/-- The transaction is over, and nothing is left of it. -/
def abort (x : Nat) : World where
  definitions := w.definitions.discard x
  versions := w.versions.discard x
  programs := w.programs.erase x

/-- Both tables are committed. -/
def commit (x : Nat) : World where
  definitions := w.definitions.commit x
  versions := w.versions.commit x
  programs := w.programs.erase x

/-- The definition is inserted, or updated where it is there. -/
def define (x : Nat) (p : Program) : World :=
  match p.request.definitionRow ((w.definitions.seen x p.eventName).map Held.row) with
  | none => w
  | some row =>
    match w.definitions.upsertRow x p.eventName row with
    | none => w
    | some definitions => { w with definitions := definitions }.withPhase x p .defined

/-- The version's row, `FOR UPDATE`; with no such row the transaction ends. -/
def lockVersion (x : Nat) (p : Program) (version : Nat) : World :=
  match w.versions.seen x (p.eventName, version) with
  | none => w.abort x
  | some held =>
    match w.versions.write x (p.eventName, version) id with
    | none => w
    | some versions =>
      { w with versions := versions }.withPhase x p (.chosen ⟨version, held.row.schema, held.row.validationMode⟩)

/-- The next version's number. -/
def chooseNext (x : Nat) (p : Program) (schema : Json) (mode : ContractMode) : World :=
  w.withPhase x p (.chosen ⟨nextVersion (w.versions.snapshot x) p.eventName, schema, mode⟩)

/-- `UPDATE … SET status='deprecated' WHERE status='active'` starts, with its
snapshot. -/
def deprecateActive (x : Nat) (p : Program) (t : Target) : World :=
  let found := activeVersions (w.versions.snapshot x) p.eventName
  w.withPhase x p (.deprecating t found found)

/-- One row of it: found in the snapshot, looked at again under its lock. -/
def deprecateRow (x : Nat) (p : Program) (t : Target) (found left : List Nat) (version : Nat) : World :=
  match w.versions.write x (p.eventName, version) (onRow Version.deprecateActive) with
  | none => w
  | some versions =>
    { w with versions := versions }.withPhase x p (.deprecating t found (left.filter (· ≠ version)))

/-- `INSERT INTO event_contract_versions`; a number that is taken ends the
transaction. -/
def insertVersion (x : Nat) (p : Program) (t : Target) (status : ContractStatus) (phase : Phase) : World :=
  match w.versions.seen x (p.eventName, t.version) with
  | some _ => w.abort x
  | none =>
    match w.versions.insertRow x (p.eventName, t.version)
        ⟨t.schema, t.validationMode, status, p.request.changelog⟩ with
    | none => w
    | some versions => { w with versions := versions }.withPhase x p phase

/-- The version becomes active: inserted so, or updated. -/
def placeActive (x : Nat) (p : Program) (t : Target) (found : List Nat) : World :=
  match p.request with
  | .activateEventContract _ =>
    match w.versions.write x (p.eventName, t.version) (onRow Version.activate) with
    | none => w
    | some versions => { w with versions := versions }.withPhase x p (.placed t found)
  | _ => w.insertVersion x p t .active (.placed t found)

/-- The definition is to point at a version. -/
def point (x : Nat) (p : Program) (t : Target) (found : List Nat) : World :=
  match w.definitions.write x p.eventName (onRow (t.update p.request)) with
  | none => w
  | some definitions => { w with definitions := definitions }.withPhase x p (.pointed t found)

/-- What is done for the transaction, if it is open. -/
def during (x : Nat) (f : Program → World) : World :=
  match w.programs.lookup x with
  | some p => f p
  | none => w

/-- **A step.**  An action that is not the transaction's next one leaves the world. -/
def step (w : World) : Action → World
  | .start x eventName request =>
    match w.programs.lookup x with
    | some _ => w
    | none => { w with programs := AList.insert x ⟨eventName, request, .begun⟩ w.programs }
  | .define x => w.during x fun p =>
    match p.phase with
    | .begun => w.define x p
    | _ => w
  | .choose x => w.during x fun p =>
    match p.phase, p.request with
    | .begun, .activateEventContract version => w.lockVersion x p version
    | .defined, .createEventContract _ _ schema mode _ _ => w.chooseNext x p schema mode
    | .defined, .upsertEventDefinition _ _ schema mode => w.chooseNext x p schema mode
    | _, _ => w
  | .deprecateActive x => w.during x fun p =>
    match p.phase with
    | .chosen t => if p.request.activates then w.deprecateActive x p t else w
    | _ => w
  | .deprecateRow x version => w.during x fun p =>
    match p.phase with
    | .deprecating t found left => if version ∈ left then w.deprecateRow x p t found left version else w
    | _ => w
  | .place x => w.during x fun p =>
    match p.phase with
    | .deprecating t found [] => w.placeActive x p t found
    | .chosen t => if p.request.activates then w else w.insertVersion x p t .draft (.drafted t)
    | _ => w
  | .point x => w.during x fun p =>
    match p.phase with
    | .placed t found => w.point x p t found
    | _ => w
  | .commit x => w.during x fun p =>
    match p.phase with
    | .pointed _ _ => w.commit x
    | .drafted _ => w.commit x
    | _ => w
  | .abort x => w.during x fun _ => w.abort x

end World

/-! ## §3. What should hold. -/

/-- The committed rows have this version active. -/
def World.Active (w : World) (eventName : String) (version : Nat) (row : Version) : Prop :=
  ∃ birth, w.versions.committed.lookup (eventName, version) = some ⟨birth, row⟩ ∧ row.status = .active

/-- The definition shows the version. -/
def Definition.Shows (d : Definition) (version : Nat) (schema : Json) (mode : ContractMode) : Prop :=
  d.currentVersion = version ∧ d.schema = schema ∧ d.validationMode = mode

/-- **One active version per event**, and it is the one the definition shows. -/
structure World.Sound (w : World) : Prop where
  one : ∀ e v v' row row', w.Active e v row → w.Active e v' row' → v = v'
  shown : ∀ e v row, w.Active e v row →
    ∃ held, w.definitions.committed.lookup e = some held ∧ held.row.Shows v row.schema row.validationMode

/-- Every version has a definition: the foreign key. -/
def World.Referenced (w : World) : Prop :=
  ∀ e v held, w.versions.committed.lookup (e, v) = some held → (w.definitions.committed.lookup e).isSome

/-- **No version became active in between**: where a transaction that activates one
commits, the others active now were so when its UPDATE looked for them. -/
def World.NoneSince (w : World) : Action → Prop
  | .commit x => ∀ p t found, w.programs.lookup x = some p → p.phase = .pointed t found →
      ∀ v row, w.Active p.eventName v row → v ≠ t.version → v ∈ found
  | _ => True

theorem mem_activeVersions {rows : Table VersionKey (Held Version)} {e : String} {n : Nat} :
    n ∈ activeVersions rows e ↔ ∃ birth row, rows.lookup (e, n) = some ⟨birth, row⟩ ∧ row.status = .active := by
  unfold activeVersions
  simp only [List.mem_map, List.mem_filter, decide_eq_true_eq]
  constructor
  · rintro ⟨⟨⟨e', n'⟩, birth, row⟩, ⟨hmem, rfl, hactive⟩, rfl⟩
    exact ⟨birth, row, AList.mem_lookup_iff.mpr hmem, hactive⟩
  · rintro ⟨birth, row, hlookup, hactive⟩
    exact ⟨⟨(e, n), birth, row⟩, ⟨AList.mem_lookup_iff.mp hlookup, rfl, hactive⟩, rfl⟩

/-- The condition, as it can be looked up. -/
def World.noneSince (w : World) : Action → Bool
  | .commit x =>
    match w.programs.lookup x with
    | some ⟨e, _, .pointed t found⟩ => (activeVersions w.versions.committed e).all fun v => v = t.version || v ∈ found
    | _ => true
  | _ => true

theorem noneSince_iff {w : World} {a : Action} : w.noneSince a = true ↔ w.NoneSince a := by
  cases a with
  | commit x =>
    simp only [World.noneSince, World.NoneSince]
    split
    next e request t found hp =>
      simp only [hp, List.all_eq_true, Bool.or_eq_true, decide_eq_true_eq]
      constructor
      · rintro h p t' found' hp' hphase v row ⟨birth, hlookup, hactive⟩ hne
        obtain rfl := Option.some.inj hp'
        obtain ⟨rfl, rfl⟩ := Phase.pointed.inj hphase
        exact (h v (mem_activeVersions.mpr ⟨birth, row, hlookup, hactive⟩)).resolve_left hne
      · intro h v hv
        obtain ⟨birth, row, hlookup, hactive⟩ := mem_activeVersions.mp hv
        by_cases hne : v = t.version
        · exact .inl hne
        · exact .inr (h _ t found rfl rfl v row ⟨birth, hlookup, hactive⟩ hne)
    next hnot =>
      refine iff_of_true rfl ?_
      intro p t found hp hphase
      refine absurd ?_ (hnot p.eventName p.request t found)
      rw [hp, ← hphase]
  | start _ _ _ => exact iff_of_true rfl trivial
  | define _ => exact iff_of_true rfl trivial
  | choose _ => exact iff_of_true rfl trivial
  | deprecateActive _ => exact iff_of_true rfl trivial
  | deprecateRow _ _ => exact iff_of_true rfl trivial
  | place _ => exact iff_of_true rfl trivial
  | point _ => exact iff_of_true rfl trivial
  | abort _ => exact iff_of_true rfl trivial

instance (w : World) (a : Action) : Decidable (w.NoneSince a) := decidable_of_iff _ noneSince_iff

/-! ## §4. What a transaction holds, phase by phase. -/

/-- What a transaction has written under each key it holds, with what is committed
there. -/
abbrev Mine (κ ρ : Type) : Type := κ → Option (Option (Held ρ) × Option (Held ρ))

/-- It has written this row under the key. -/
def Wrote {κ ρ : Type} (m : Mine κ ρ) (k : κ) (row : ρ) : Prop := ∃ birth base, m k = some (some ⟨birth, row⟩, base)

/-- Its definition's row, which shows what the committed one shows, if there is one. -/
def KeepsShown (d : Mine String Definition) (e : String) : Prop :=
  ∃ birth row base, d e = some (some ⟨birth, row⟩, base)
    ∧ ∀ c, base = some c → row.Shows c.row.currentVersion c.row.schema c.row.validationMode

/-- It locks the definition first. -/
def Request.locks : Request → Bool
  | .activateEventContract _ => true
  | _ => false

/-- Until the definition is pointed at the version: a creation holds the definition,
an activation the version. -/
def Prepared (e : String) (request : Request) (t : Target) (v : Mine VersionKey Version)
    (d : Mine String Definition) : Prop :=
  if request.locks then
    (∀ k, d k = none) ∧ ∃ birth row base, v (e, t.version) = some (some ⟨birth, row⟩, some base)
      ∧ row.schema = t.schema ∧ row.validationMode = t.validationMode
  else KeepsShown d e

/-- The versions looked at are not active any more. -/
def Deprecated (e : String) (looked : Nat → Prop) (v : Mine VersionKey Version) : Prop :=
  ∀ n, looked n → ∃ own base, v (e, n) = some (own, base) ∧ ∀ held, own = some held → held.row.status ≠ .active

/-- The version is active, as the target has it. -/
def Placed (e : String) (t : Target) (v : Mine VersionKey Version) : Prop :=
  ∃ row, Wrote v (e, t.version) row ∧ row.status = .active ∧ row.schema = t.schema
    ∧ row.validationMode = t.validationMode

/-- What a phase says of the rows the transaction holds. -/
def Phase.State (e : String) (request : Request) (v : Mine VersionKey Version) (d : Mine String Definition) :
    Phase → Prop
  | .begun => (∀ k, v k = none) ∧ ∀ k, d k = none
  | .defined => (∀ k, v k = none) ∧ KeepsShown d e ∧ request.locks = false
  | .chosen t => Prepared e request t v d ∧ ∀ k, (v k).isSome → request.locks = true ∧ k = (e, t.version)
  | .deprecating t found left =>
    Prepared e request t v d ∧ (∀ n ∈ left, n ∈ found)
      ∧ (∀ k, (v k).isSome → k.1 = e ∧ (k.2 ∈ found ∨ k.2 = t.version))
      ∧ Deprecated e (fun n => n ∈ found ∧ n ∉ left) v
  | .placed t found =>
    Prepared e request t v d ∧ (∀ k, (v k).isSome → k.1 = e ∧ (k.2 ∈ found ∨ k.2 = t.version))
      ∧ Deprecated e (fun n => n ∈ found ∧ n ≠ t.version) v ∧ Placed e t v
  | .pointed t found =>
    (∃ row, Wrote d e row ∧ row.Shows t.version t.schema t.validationMode)
      ∧ (∀ k, (v k).isSome → k.1 = e ∧ (k.2 ∈ found ∨ k.2 = t.version))
      ∧ Deprecated e (fun n => n ∈ found ∧ n ≠ t.version) v ∧ Placed e t v
  | .drafted t =>
    KeepsShown d e ∧ (∀ k, (v k).isSome → k = (e, t.version))
      ∧ ∃ birth row, v (e, t.version) = some (some ⟨birth, row⟩, none) ∧ row.status = .draft

/-- The phase's rows; and of definitions it holds its own only. -/
structure Program.State (p : Program) (v : Mine VersionKey Version) (d : Mine String Definition) : Prop where
  phase : p.phase.State p.eventName p.request v d
  definition : ∀ k, (d k).isSome → k = p.eventName

/-- **The invariant.** -/
structure World.Inv (w : World) : Prop where
  own : ∀ x p, w.programs.lookup x = some p → p.State (w.versions.own x) (w.definitions.own x)
  idle : ∀ x, w.programs.lookup x = none → (∀ k, w.versions.own x k = none) ∧ ∀ k, w.definitions.own x k = none
  referenced : w.Referenced

section
variable {w : World} {x : Nat} {p : Program}

/-- A step of one transaction that commits nothing. -/
theorem World.Inv.worked (h : w.Inv) {definitions : Relation String Definition}
    {versions : Relation VersionKey Version} (hv : Relation.Private x w.versions versions)
    (hd : Relation.Private x w.definitions definitions) (p : Program)
    (hp : p.State (versions.own x) (definitions.own x)) :
    World.Inv ⟨definitions, versions, AList.insert x p w.programs⟩ where
  own y q hq := by
    by_cases hy : y = x
    · subst hy
      obtain rfl := Option.some.inj ((AList.lookup_insert _).symm.trans hq)
      exact hp
    · have hq : w.programs.lookup y = some q := by rwa [← AList.lookup_insert_ne hy]
      show q.State (versions.own y) (definitions.own y)
      rw [hv.own_eq hy, hd.own_eq hy]
      exact h.own y q hq
  idle y hy := by
    have hne : y ≠ x := by
      rintro rfl
      have hsome := AList.lookup_insert (s := w.programs) (b := p) (a := y)
      exact nomatch hsome.symm.trans hy
    have hy : w.programs.lookup y = none := by rwa [← AList.lookup_insert_ne hne]
    show (∀ k, versions.own y k = none) ∧ ∀ k, definitions.own y k = none
    rw [hv.own_eq hne, hd.own_eq hne]
    exact h.idle y hy
  referenced e n held hheld := by
    show (definitions.committed.lookup e).isSome
    rw [hd.committed]
    exact h.referenced e n held (by rw [← hv.committed]; exact hheld)

/-- The end of a transaction: the others keep what is theirs. -/
theorem World.Inv.over (h : w.Inv) {definitions : Relation String Definition}
    {versions : Relation VersionKey Version} (hvx : ∀ k, versions.own x k = none)
    (hdx : ∀ k, definitions.own x k = none) (hv : ∀ y, y ≠ x → versions.own y = w.versions.own y)
    (hd : ∀ y, y ≠ x → definitions.own y = w.definitions.own y)
    (href : World.Referenced ⟨definitions, versions, w.programs.erase x⟩) :
    World.Inv ⟨definitions, versions, w.programs.erase x⟩ where
  own y q hq := by
    have hne : y ≠ x := by
      rintro rfl
      exact nomatch (AList.lookup_erase _ _).symm.trans hq
    show q.State (versions.own y) (definitions.own y)
    rw [hv y hne, hd y hne]
    exact h.own y q (by rwa [← AList.lookup_erase_ne hne])
  idle y hy := by
    by_cases hyx : y = x
    · subst hyx
      exact ⟨hvx, hdx⟩
    · show (∀ k, versions.own y k = none) ∧ ∀ k, definitions.own y k = none
      rw [hv y hyx, hd y hyx]
      exact h.idle y (by rwa [← AList.lookup_erase_ne hyx])
  referenced := href

/-- A transaction is rolled back. -/
theorem World.Inv.abort (h : w.Inv) (x : Nat) : (w.abort x).Inv := by
  obtain ⟨hv, hvx⟩ := w.versions.discard_spec x
  obtain ⟨hd, hdx⟩ := w.definitions.discard_spec x
  exact h.over (fun _ => Relation.own_of_none hvx) (fun _ => Relation.own_of_none hdx)
    (fun y hy => hv.own_eq hy) (fun y hy => hd.own_eq hy) h.referenced

/-! ## §5. Each statement keeps the invariant. -/

/-- The step kept the invariant, and committed nothing. -/
structure World.Quiet (w w' : World) : Prop where
  inv : w'.Inv
  versions : w'.versions.committed = w.versions.committed
  definitions : w'.definitions.committed = w.definitions.committed

theorem World.Quiet.same (h : w.Inv) : w.Quiet w := ⟨h, rfl, rfl⟩

theorem World.Quiet.abort (h : w.Inv) (x : Nat) : w.Quiet (w.abort x) := ⟨h.abort x, rfl, rfl⟩

/-- A step that only goes on to another phase. -/
theorem World.Inv.phase (h : w.Inv) (p : Program) {phase : Phase}
    (hp : Program.State { p with phase := phase } (w.versions.own x) (w.definitions.own x)) :
    w.Quiet (w.withPhase x p phase) :=
  ⟨h.worked (.refl x _) (.refl x _) _ hp, rfl, rfl⟩

/-- A step that writes a row of `event_contract_versions`. -/
theorem World.Inv.writeVersion (h : w.Inv) (p : Program) {phase : Phase} {versions : Relation VersionKey Version}
    {k : VersionKey} {v : Option (Held Version)} (hprivate : Relation.Private x w.versions versions)
    (hwork : versions.workOf x = (w.versions.workOf x).put k v)
    (hp : Program.State { p with phase := phase }
      (Function.update (w.versions.own x) k (some (v, w.versions.committed.lookup k))) (w.definitions.own x)) :
    w.Quiet ({ w with versions := versions }.withPhase x p phase) := by
  refine ⟨h.worked hprivate (.refl x _) _ ?_, hprivate.committed, rfl⟩
  rw [Relation.own_of_put hprivate hwork]
  exact hp

/-- A step that writes a row of `event_definitions`. -/
theorem World.Inv.writeDefinition (h : w.Inv) (p : Program) {phase : Phase} {definitions : Relation String Definition}
    {k : String} {v : Option (Held Definition)} (hprivate : Relation.Private x w.definitions definitions)
    (hwork : definitions.workOf x = (w.definitions.workOf x).put k v)
    (hp : Program.State { p with phase := phase } (w.versions.own x)
      (Function.update (w.definitions.own x) k (some (v, w.definitions.committed.lookup k)))) :
    w.Quiet ({ w with definitions := definitions }.withPhase x p phase) := by
  refine ⟨h.worked (.refl x _) hprivate _ ?_, rfl, hprivate.committed⟩
  rw [Relation.own_of_put hprivate hwork]
  exact hp

theorem base_of_own {κ ρ : Type} [DecidableEq κ] {r : Relation κ ρ} {k : κ} {v base : Option (Held ρ)}
    (h : r.own x k = some (v, base)) : base = r.committed.lookup k := by
  unfold Relation.own at h
  obtain ⟨u, -, hu⟩ := Option.map_eq_some_iff.mp h
  exact (congrArg Prod.snd hu).symm

theorem definitionRow_shows {request : Request} {d row : Definition}
    (h : request.definitionRow (some d) = some row) : row.Shows d.currentVersion d.schema d.validationMode := by
  cases request with
  | createEventContract _ _ _ _ _ _ =>
    obtain rfl := Option.some.inj h
    exact ⟨rfl, rfl, rfl⟩
  | activateEventContract _ => cases h
  | upsertEventDefinition _ _ _ _ =>
    obtain rfl := Option.some.inj h
    exact ⟨rfl, rfl, rfl⟩

theorem quiet_define (h : w.Inv) (hp : w.programs.lookup x = some p) (hphase : p.phase = .begun) :
    w.Quiet (w.define x p) := by
  obtain ⟨hstate, -⟩ := h.own x p hp
  rw [hphase] at hstate
  obtain ⟨hv, hd⟩ := hstate
  unfold World.define
  split
  next => exact .same h
  next row hrow =>
    split
    next => exact .same h
    next definitions hupsert =>
      obtain ⟨-, hprivate, birth, hwork⟩ := Relation.upsertRow_spec hupsert
      apply h.writeDefinition p hprivate hwork
      refine ⟨⟨hv, ⟨birth, row, _, Function.update_self _ _ _, ?_⟩, ?_⟩, ?_⟩
      · intro c hc
        -- nothing is its own yet, so the row it saw is the committed one
        have hseen : w.definitions.seen x p.eventName = some c := by
          rw [Relation.seen_eq_own, hd, Option.elim_none, hc]
        rw [hseen] at hrow
        exact definitionRow_shows hrow
      · cases hrequest : p.request with
        | createEventContract _ _ _ _ _ _ => rfl
        | activateEventContract _ =>
          rw [hrequest] at hrow
          cases hrow
        | upsertEventDefinition _ _ _ _ => rfl
      · intro k hk
        by_contra hne
        rw [Function.update_of_ne hne, hd] at hk
        cases hk

theorem quiet_lockVersion (h : w.Inv) (hp : w.programs.lookup x = some p) (hphase : p.phase = .begun) {version : Nat}
    (hrequest : p.request = .activateEventContract version) : w.Quiet (w.lockVersion x p version) := by
  obtain ⟨hstate, hdefinition⟩ := h.own x p hp
  rw [hphase] at hstate
  obtain ⟨hv, hd⟩ := hstate
  unfold World.lockVersion
  split
  next => exact .abort h x
  next held hseen =>
    split
    next => exact .same h
    next versions hwrite =>
      obtain ⟨-, hprivate, hwork⟩ := Relation.write_spec hwrite
      have hbase : w.versions.committed.lookup (p.eventName, version) = some held := by
        rw [Relation.seen_eq_own, hv, Option.elim_none] at hseen
        exact hseen
      apply h.writeVersion p hprivate hwork
      refine ⟨⟨?_, ?_⟩, hdefinition⟩
      · unfold Prepared
        rw [if_pos (show p.request.locks = true by rw [hrequest]; rfl)]
        refine ⟨hd, held.birth, held.row, held, ?_, rfl, rfl⟩
        rw [Function.update_self, id, hseen, hbase]
      · intro k hk
        refine ⟨by rw [hrequest]; rfl, ?_⟩
        by_contra hne
        rw [Function.update_of_ne hne, hv] at hk
        cases hk

theorem quiet_chooseNext (h : w.Inv) (hp : w.programs.lookup x = some p) (hphase : p.phase = .defined)
    (schema : Json) (mode : ContractMode) : w.Quiet (w.chooseNext x p schema mode) := by
  obtain ⟨hstate, hdefinition⟩ := h.own x p hp
  rw [hphase] at hstate
  obtain ⟨hv, hkeeps, hlocks⟩ := hstate
  apply h.phase p
  refine ⟨⟨?_, ?_⟩, hdefinition⟩
  · unfold Prepared
    rw [if_neg (by rw [hlocks]; exact Bool.false_ne_true)]
    exact hkeeps
  · intro k hk
    rw [hv] at hk
    cases hk

theorem quiet_deprecateActive (h : w.Inv) (hp : w.programs.lookup x = some p) {t : Target}
    (hphase : p.phase = .chosen t) : w.Quiet (w.deprecateActive x p t) := by
  obtain ⟨hstate, hdefinition⟩ := h.own x p hp
  rw [hphase] at hstate
  obtain ⟨hprepared, hkeys⟩ := hstate
  apply h.phase p
  refine ⟨⟨hprepared, fun _ hn => hn, ?_, fun n hn => absurd hn.1 hn.2⟩, hdefinition⟩
  intro k hk
  obtain ⟨-, rfl⟩ := hkeys k hk
  exact ⟨rfl, .inr rfl⟩

/-- Deprecating a row changes nothing of its contract. -/
theorem deprecateActive_spec (v : Version) : v.deprecateActive.status ≠ .active
    ∧ v.deprecateActive.schema = v.schema ∧ v.deprecateActive.validationMode = v.validationMode := by
  unfold Version.deprecateActive
  split
  next => exact ⟨by simp, rfl, rfl⟩
  next hne => exact ⟨hne, rfl, rfl⟩

/-- A version's row is rewritten, its contract kept. -/
theorem Prepared.update {e : String} {request : Request} {t : Target} {v : Mine VersionKey Version}
    {d : Mine String Definition} (h : Prepared e request t v d) {k : VersionKey} {base : Option (Held Version)}
    {f : Version → Version} (hf : ∀ row, (f row).schema = row.schema ∧ (f row).validationMode = row.validationMode)
    {seen : Option (Held Version)} (hseen : ∀ own base', v k = some (own, base') → seen = own ∧ base = base') :
    Prepared e request t (Function.update v k (some (onRow f seen, base))) d := by
  unfold Prepared at h ⊢
  split at h
  next hlocks =>
    rw [if_pos hlocks]
    obtain ⟨hd, birth, row, base', hv, hschema, hmode⟩ := h
    refine ⟨hd, ?_⟩
    by_cases hk : k = (e, t.version)
    · subst hk
      obtain ⟨rfl, rfl⟩ := hseen _ _ hv
      refine ⟨birth, f row, base', Function.update_self _ _ _, ?_, ?_⟩
      · rw [(hf row).1, hschema]
      · rw [(hf row).2, hmode]
    · exact ⟨birth, row, base', by rw [Function.update_of_ne (Ne.symm hk), hv], hschema, hmode⟩
  next hlocks =>
    rw [if_neg hlocks]
    exact h

theorem seen_of_own {κ ρ : Type} [DecidableEq κ] {r : Relation κ ρ} {k : κ} {own base : Option (Held ρ)}
    (h : r.own x k = some (own, base)) : r.seen x k = own ∧ r.committed.lookup k = base := by
  refine ⟨?_, (base_of_own h).symm⟩
  rw [Relation.seen_eq_own, h]
  rfl

theorem quiet_deprecateRow (h : w.Inv) (hp : w.programs.lookup x = some p) {t : Target} {found left : List Nat}
    (hphase : p.phase = .deprecating t found left) {version : Nat} (hversion : version ∈ left) :
    w.Quiet (w.deprecateRow x p t found left version) := by
  obtain ⟨hstate, hdefinition⟩ := h.own x p hp
  rw [hphase] at hstate
  obtain ⟨hprepared, hleft, hkeys, hlooked⟩ := hstate
  unfold World.deprecateRow
  split
  next => exact .same h
  next versions hwrite =>
    obtain ⟨-, hprivate, hwork⟩ := Relation.write_spec hwrite
    apply h.writeVersion p hprivate hwork
    refine ⟨⟨?_, ?_, ?_, ?_⟩, hdefinition⟩
    · exact hprepared.update (fun row => (deprecateActive_spec row).2) fun own base hv => seen_of_own hv
    · exact fun n hn => hleft n (List.mem_of_mem_filter hn)
    · intro k hk
      by_cases hkey : k = (p.eventName, version)
      · subst hkey
        exact ⟨rfl, .inl (hleft version hversion)⟩
      · rw [Function.update_of_ne hkey] at hk
        exact hkeys k hk
    · rintro n ⟨hfound, hnot⟩
      by_cases hn : n = version
      · subst hn
        refine ⟨_, _, Function.update_self _ _ _, ?_⟩
        intro held hheld
        obtain ⟨held', -, rfl⟩ := Option.map_eq_some_iff.mp hheld
        exact (deprecateActive_spec held'.row).1
      · have hstill : n ∉ left := fun hmem => hnot (List.mem_filter.mpr ⟨hmem, decide_eq_true hn⟩)
        rw [Function.update_of_ne (fun heq => hn (congrArg Prod.snd heq))]
        exact hlooked n ⟨hfound, hstill⟩

/-- A row written under another key leaves what was looked at. -/
theorem Deprecated.update {e : String} {looked : Nat → Prop} {v : Mine VersionKey Version} (h : Deprecated e looked v)
    {n : Nat} (hn : ¬ looked n) (own : Option (Held Version) × Option (Held Version)) :
    Deprecated e looked (Function.update v (e, n) (some own)) := by
  intro m hm
  have hne : m ≠ n := by
    rintro rfl
    exact hn hm
  rw [Function.update_of_ne (fun heq => hne (congrArg Prod.snd heq))]
  exact h m hm

/-- Of the keys it holds, one more is its target's. -/
theorem keys_update {e : String} {t : Target} {found : List Nat} {v : Mine VersionKey Version}
    (h : ∀ k, (v k).isSome → k.1 = e ∧ (k.2 ∈ found ∨ k.2 = t.version))
    (own : Option (Held Version) × Option (Held Version)) (k : VersionKey)
    (hk : (Function.update v (e, t.version) (some own) k).isSome) : k.1 = e ∧ (k.2 ∈ found ∨ k.2 = t.version) := by
  by_cases hkey : k = (e, t.version)
  · subst hkey
    exact ⟨rfl, .inr rfl⟩
  · rw [Function.update_of_ne hkey] at hk
    exact h k hk

theorem quiet_placeActive (h : w.Inv) (hp : w.programs.lookup x = some p) {t : Target} {found : List Nat}
    (hphase : p.phase = .deprecating t found []) : w.Quiet (w.placeActive x p t found) := by
  obtain ⟨hstate, hdefinition⟩ := h.own x p hp
  rw [hphase] at hstate
  obtain ⟨hprepared, -, hkeys, hlooked⟩ := hstate
  have hrest : Deprecated p.eventName (fun n => n ∈ found ∧ n ≠ t.version) (w.versions.own x) :=
    fun n hn => hlooked n ⟨hn.1, List.not_mem_nil⟩
  cases hlocks : p.request.locks with
  | true =>
    obtain ⟨version, hrequest⟩ : ∃ version, p.request = .activateEventContract version := by
      cases hrequest : p.request with
      | createEventContract _ _ _ _ _ _ =>
        rw [hrequest] at hlocks
        cases hlocks
      | activateEventContract version => exact ⟨version, rfl⟩
      | upsertEventDefinition _ _ _ _ =>
        rw [hrequest] at hlocks
        cases hlocks
    have hheld := hprepared
    unfold Prepared at hheld
    rw [if_pos hlocks] at hheld
    obtain ⟨-, birth, row, base, hv, hschema, hmode⟩ := hheld
    simp only [World.placeActive, hrequest]
    split
    next => exact .same h
    next versions hwrite =>
      obtain ⟨-, hprivate, hwork⟩ := Relation.write_spec hwrite
      apply h.writeVersion p hprivate hwork
      refine ⟨⟨?_, keys_update hkeys _, hrest.update (fun hn => hn.2 rfl) _, ?_⟩, hdefinition⟩
      · exact hprepared.update (f := Version.activate) (fun _ => ⟨rfl, rfl⟩) fun own base hv => seen_of_own hv
      · refine ⟨row.activate, ⟨birth, w.versions.committed.lookup (p.eventName, t.version), ?_⟩, rfl,
          hschema, hmode⟩
        rw [Function.update_self, (seen_of_own hv).1]
        rfl
  | false =>
    have hinsert : w.placeActive x p t found = w.insertVersion x p t .active (.placed t found) := by
      unfold World.placeActive
      cases hrequest : p.request with
      | createEventContract _ _ _ _ _ _ => rfl
      | activateEventContract _ =>
        rw [hrequest] at hlocks
        cases hlocks
      | upsertEventDefinition _ _ _ _ => rfl
    rw [hinsert]
    unfold World.insertVersion
    split
    next => exact .abort h x
    next =>
      split
      next => exact .same h
      next versions hwrite =>
        obtain ⟨-, hprivate, hwork⟩ := Relation.insertRow_spec hwrite
        apply h.writeVersion p hprivate hwork
        have hlocks' : ¬ p.request.locks = true := by rw [hlocks]; exact Bool.false_ne_true
        refine ⟨⟨?_, keys_update hkeys _, hrest.update (fun hn => hn.2 rfl) _, ?_⟩, hdefinition⟩
        · unfold Prepared at hprepared ⊢
          rw [if_neg hlocks'] at hprepared ⊢
          exact hprepared
        · exact ⟨_, ⟨_, _, Function.update_self _ _ _⟩, rfl, rfl, rfl⟩

theorem quiet_insertDraft (h : w.Inv) (hp : w.programs.lookup x = some p) {t : Target} (hphase : p.phase = .chosen t)
    (hactivates : p.request.activates = false) : w.Quiet (w.insertVersion x p t .draft (.drafted t)) := by
  obtain ⟨hstate, hdefinition⟩ := h.own x p hp
  rw [hphase] at hstate
  obtain ⟨hprepared, hkeys⟩ := hstate
  have hlocks : ¬ p.request.locks = true := by
    cases hrequest : p.request with
    | createEventContract _ _ _ _ _ _ => exact Bool.false_ne_true
    | activateEventContract _ =>
      rw [hrequest] at hactivates
      cases hactivates
    | upsertEventDefinition _ _ _ _ => exact Bool.false_ne_true
  -- no version is its own yet
  have hnone : ∀ k, w.versions.own x k = none := by
    intro k
    by_contra hsome
    exact hlocks (hkeys k (Option.isSome_iff_ne_none.mpr hsome)).1
  unfold World.insertVersion
  split
  next => exact .abort h x
  next hseen =>
    split
    next => exact .same h
    next versions hwrite =>
      obtain ⟨-, hprivate, hwork⟩ := Relation.insertRow_spec hwrite
      apply h.writeVersion p hprivate hwork
      have hbase : w.versions.committed.lookup (p.eventName, t.version) = none := by
        rw [Relation.seen_eq_own, hnone, Option.elim_none] at hseen
        exact hseen
      refine ⟨⟨?_, ?_, ?_⟩, hdefinition⟩
      · unfold Prepared at hprepared
        rw [if_neg hlocks] at hprepared
        exact hprepared
      · intro k hk
        by_contra hne
        rw [Function.update_of_ne hne, hnone] at hk
        cases hk
      · exact ⟨_, _, by rw [Function.update_self, hbase], rfl⟩

theorem update_shows (t : Target) (request : Request) (d : Definition) :
    (t.update request d).Shows t.version t.schema t.validationMode := ⟨rfl, rfl, rfl⟩

theorem quiet_point (h : w.Inv) (hp : w.programs.lookup x = some p) {t : Target} {found : List Nat}
    (hphase : p.phase = .placed t found) : w.Quiet (w.point x p t found) := by
  obtain ⟨hstate, hdefinition⟩ := h.own x p hp
  rw [hphase] at hstate
  obtain ⟨hprepared, hkeys, hlooked, hplaced⟩ := hstate
  -- the definition is there: its own row, or the one the locked version refers to
  obtain ⟨held, hseen⟩ : ∃ held, w.definitions.seen x p.eventName = some held := by
    unfold Prepared at hprepared
    split at hprepared
    next =>
      obtain ⟨hd, birth, row, base, hv, -⟩ := hprepared
      have hcommitted := (seen_of_own hv).2
      rw [Relation.seen_eq_own, hd, Option.elim_none]
      exact Option.isSome_iff_exists.mp (h.referenced _ _ _ hcommitted)
    next =>
      obtain ⟨birth, row, base, hd, -⟩ := hprepared
      exact ⟨_, (seen_of_own hd).1⟩
  unfold World.point
  split
  next => exact .same h
  next definitions hwrite =>
    obtain ⟨-, hprivate, hwork⟩ := Relation.write_spec hwrite
    apply h.writeDefinition p hprivate hwork
    refine ⟨⟨⟨t.update p.request held.row, ⟨held.birth, w.definitions.committed.lookup p.eventName, ?_⟩,
      update_shows t p.request held.row⟩, hkeys, hlooked, hplaced⟩, ?_⟩
    · rw [Function.update_self, hseen]
      rfl
    · intro k hk
      by_contra hne
      rw [Function.update_of_ne hne] at hk
      exact hne (hdefinition k hk)

/-! ## §6. Commits. -/

/-- What a commit leaves under a key. -/
theorem lookup_commit_versions (k : VersionKey) : (w.commit x).versions.committed.lookup k
    = (w.versions.own x k).elim (w.versions.committed.lookup k) Prod.fst := Relation.lookup_commit

theorem lookup_commit_definitions (e : String) : (w.commit x).definitions.committed.lookup e
    = (w.definitions.own x e).elim (w.definitions.committed.lookup e) Prod.fst := Relation.lookup_commit

/-- A commit that leaves every version a definition keeps the invariant. -/
theorem World.Inv.commit (h : w.Inv) (href : (w.commit x).Referenced) : (w.commit x).Inv := by
  obtain ⟨-, hvx, -⟩ := w.versions.commit_spec x
  obtain ⟨-, hdx, -⟩ := w.definitions.commit_spec x
  exact h.over (fun _ => Relation.own_of_none hvx) (fun _ => Relation.own_of_none hdx)
    (fun y hy => Relation.own_commit hy) (fun y hy => Relation.own_commit hy) href

/-- A transaction that has its definition's row leaves every version one. -/
theorem referenced_commit (h : w.Inv) {e : String} {row : Definition} (hd : Wrote (w.definitions.own x) e row)
    (hdefinition : ∀ k, (w.definitions.own x k).isSome → k = e)
    (hkeys : ∀ k, (w.versions.own x k).isSome → k.1 = e) : (w.commit x).Referenced := by
  intro e' n held hheld
  rw [lookup_commit_definitions]
  obtain ⟨birth, base, hd⟩ := hd
  by_cases he : e' = e
  · subst he
    rw [hd]
    rfl
  · have hnone : w.definitions.own x e' = none := by
      by_contra hsome
      exact he (hdefinition e' (Option.isSome_iff_ne_none.mpr hsome))
    have hnoneVersion : w.versions.own x (e', n) = none := by
      by_contra hsome
      exact he (hkeys (e', n) (Option.isSome_iff_ne_none.mpr hsome))
    rw [lookup_commit_versions, hnoneVersion, Option.elim_none] at hheld
    rw [hnone, Option.elim_none]
    exact h.referenced e' n held hheld

/-- **What the commit of an activation leaves active**: its own version, and those
its UPDATE did not find. -/
theorem active_commit_pointed (h : w.Inv) (hp : w.programs.lookup x = some p) {t : Target} {found : List Nat}
    (hphase : p.phase = .pointed t found) (e : String) (n : Nat) (row : Version) :
    (w.commit x).Active e n row ↔
      (e = p.eventName ∧ n = t.version ∧ row.schema = t.schema ∧ row.validationMode = t.validationMode
          ∧ Wrote (w.versions.own x) (e, n) row ∧ row.status = .active)
        ∨ ((e ≠ p.eventName ∨ n ≠ t.version ∧ n ∉ found) ∧ w.Active e n row) := by
  obtain ⟨hstate, -⟩ := h.own x p hp
  rw [hphase] at hstate
  obtain ⟨-, hkeys, hlooked, row', ⟨birth', base', hv⟩, hstatus, hschema, hmode⟩ := hstate
  unfold World.Active
  rw [lookup_commit_versions]
  by_cases htarget : e = p.eventName ∧ n = t.version
  · obtain ⟨rfl, rfl⟩ := htarget
    rw [hv, Option.elim_some]
    constructor
    · rintro ⟨birth, hrow, hactive⟩
      obtain ⟨rfl, rfl⟩ : birth' = birth ∧ row' = row := by simpa using hrow
      exact .inl ⟨rfl, rfl, hschema, hmode, ⟨_, _, hv⟩, hactive⟩
    · rintro (⟨-, -, -, -, ⟨birth, base, hwrote⟩, hactive⟩ | ⟨hne | hne, -⟩)
      · rw [hv] at hwrote
        exact ⟨birth, (Prod.ext_iff.mp (Option.some.inj hwrote)).1, hactive⟩
      · exact absurd rfl hne
      · exact absurd rfl hne.1
  · by_cases hfound : e = p.eventName ∧ n ∈ found
    · -- found active, so not active any more
      obtain ⟨rfl, hfound⟩ := hfound
      have hn : n ≠ t.version := fun heq => htarget ⟨rfl, heq⟩
      obtain ⟨own, base, hown, hnot⟩ := hlooked n ⟨hfound, hn⟩
      rw [hown, Option.elim_some]
      constructor
      · rintro ⟨birth, hrow, hactive⟩
        exact absurd hactive (hnot _ hrow)
      · rintro (⟨-, heq, -⟩ | ⟨hne | hne, -⟩)
        · exact absurd heq hn
        · exact absurd rfl hne
        · exact absurd hfound hne.2
    · have hnone : w.versions.own x (e, n) = none := by
        by_contra hsome
        obtain ⟨he, hmem | heq⟩ := hkeys (e, n) (Option.isSome_iff_ne_none.mpr hsome)
        · exact hfound ⟨he, hmem⟩
        · exact htarget ⟨he, heq⟩
      rw [hnone, Option.elim_none]
      constructor
      · intro hactive
        refine .inr ⟨?_, hactive⟩
        by_cases he : e = p.eventName
        · exact .inr ⟨fun heq => htarget ⟨he, heq⟩, fun hmem => hfound ⟨he, hmem⟩⟩
        · exact .inl he
      · rintro (⟨he, heq, -⟩ | ⟨-, hactive⟩)
        · exact absurd ⟨he, heq⟩ htarget
        · exact hactive

/-- The definition another event shows is not the transaction's. -/
theorem definition_of_ne (hdefinition : ∀ k, (w.definitions.own x k).isSome → k = p.eventName) {e : String}
    (he : e ≠ p.eventName) : (w.commit x).definitions.committed.lookup e = w.definitions.committed.lookup e := by
  have hnone : w.definitions.own x e = none := by
    by_contra hsome
    exact he (hdefinition e (Option.isSome_iff_ne_none.mpr hsome))
  rw [lookup_commit_definitions, hnone]
  rfl

/-- **The commit of an activation.**  It keeps the claim exactly where no other
version became active since its UPDATE looked. -/
theorem sound_commit_pointed (h : w.Inv) (hsound : w.Sound) (hp : w.programs.lookup x = some p) {t : Target}
    {found : List Nat} (hphase : p.phase = .pointed t found) :
    (w.commit x).Sound ↔ ∀ v row, w.Active p.eventName v row → v ≠ t.version → v ∈ found := by
  have hactive := active_commit_pointed h hp hphase
  obtain ⟨hstate, hdefinition⟩ := h.own x p hp
  rw [hphase] at hstate
  obtain ⟨⟨shown, ⟨birthShown, baseShown, hshown⟩, hshows⟩, -, -, row, hwrote, hstatus, hschema, hmode⟩ := hstate
  constructor
  · intro hafter v row' hv hne
    by_contra hnot
    -- a version it did not find stays active beside its own
    have hstays : (w.commit x).Active p.eventName v row' := (hactive _ _ _).mpr (.inr ⟨.inr ⟨hne, hnot⟩, hv⟩)
    have hown : (w.commit x).Active p.eventName t.version row :=
      (hactive _ _ _).mpr (.inl ⟨rfl, rfl, hschema, hmode, hwrote, hstatus⟩)
    exact hne (hafter.one _ _ _ _ _ hstays hown)
  · intro hfound
    -- of its event, only its own version is active
    have honly : ∀ v row', (w.commit x).Active p.eventName v row' →
        v = t.version ∧ row'.schema = t.schema ∧ row'.validationMode = t.validationMode := by
      intro v row' hv
      rcases (hactive _ _ _).mp hv with ⟨-, hversion, hs, hm, -⟩ | ⟨hne | ⟨hne, hnot⟩, hbefore⟩
      · exact ⟨hversion, hs, hm⟩
      · exact absurd rfl hne
      · exact absurd (hfound v row' hbefore hne) hnot
    -- of another, what was
    have hother : ∀ e v row', e ≠ p.eventName → (w.commit x).Active e v row' → w.Active e v row' := by
      intro e v row' he hv
      rcases (hactive _ _ _).mp hv with ⟨heq, -⟩ | ⟨-, hbefore⟩
      · exact absurd heq he
      · exact hbefore
    constructor
    · intro e v v' row₁ row₂ hv hv'
      by_cases he : e = p.eventName
      · subst he
        rw [(honly v row₁ hv).1, (honly v' row₂ hv').1]
      · exact hsound.one e v v' row₁ row₂ (hother e v row₁ he hv) (hother e v' row₂ he hv')
    · intro e v row' hv
      by_cases he : e = p.eventName
      · subst he
        obtain ⟨rfl, hs, hm⟩ := honly v row' hv
        refine ⟨⟨birthShown, shown⟩, ?_, ?_⟩
        · rw [lookup_commit_definitions, hshown]
          rfl
        · rw [hs, hm]
          exact hshows
      · rw [definition_of_ne hdefinition he]
        exact hsound.shown e v row' (hother e v row' he hv)

/-- The commit of a draft leaves active what was. -/
theorem active_commit_drafted (h : w.Inv) (hp : w.programs.lookup x = some p) {t : Target}
    (hphase : p.phase = .drafted t) (e : String) (n : Nat) (row : Version) :
    (w.commit x).Active e n row ↔ w.Active e n row := by
  obtain ⟨hstate, -⟩ := h.own x p hp
  rw [hphase] at hstate
  obtain ⟨-, hkeys, birth', row', hv, hdraft⟩ := hstate
  unfold World.Active
  rw [lookup_commit_versions]
  by_cases hkey : (e, n) = (p.eventName, t.version)
  · rw [hkey, hv, Option.elim_some, ← base_of_own hv]
    constructor
    · rintro ⟨birth, hrow, hactive⟩
      obtain ⟨-, rfl⟩ : birth' = birth ∧ row' = row := by simpa using hrow
      rw [hdraft] at hactive
      cases hactive
    · rintro ⟨birth, hrow, -⟩
      cases hrow
  · have hnone : w.versions.own x (e, n) = none := by
      by_contra hsome
      exact hkey (hkeys (e, n) (Option.isSome_iff_ne_none.mpr hsome))
    rw [hnone]
    rfl

theorem sound_commit_drafted (h : w.Inv) (hsound : w.Sound) (hp : w.programs.lookup x = some p) {t : Target}
    (hphase : p.phase = .drafted t) : (w.commit x).Sound := by
  have hactive := active_commit_drafted h hp hphase
  obtain ⟨hstate, hdefinition⟩ := h.own x p hp
  rw [hphase] at hstate
  obtain ⟨⟨birth, row, base, hd, hkeeps⟩, -⟩ := hstate
  constructor
  · intro e v v' row₁ row₂ hv hv'
    exact hsound.one e v v' row₁ row₂ ((hactive _ _ _).mp hv) ((hactive _ _ _).mp hv')
  · intro e v row' hv
    obtain ⟨held, hheld, hshows⟩ := hsound.shown e v row' ((hactive _ _ _).mp hv)
    by_cases he : e = p.eventName
    · subst he
      -- the definition it wrote shows what the committed one shows
      obtain ⟨hversion, hschema, hmode⟩ := hkeeps held (by rw [base_of_own hd, hheld])
      refine ⟨⟨birth, row⟩, ?_, hversion.trans hshows.1, hschema.trans hshows.2.1, hmode.trans hshows.2.2⟩
      rw [lookup_commit_definitions, hd]
      rfl
    · rw [definition_of_ne hdefinition he]
      exact ⟨held, hheld, hshows⟩

/-- Either commit keeps the invariant. -/
theorem inv_commit (h : w.Inv) (hp : w.programs.lookup x = some p)
    (hphase : (∃ t found, p.phase = .pointed t found) ∨ ∃ t, p.phase = .drafted t) : (w.commit x).Inv := by
  obtain ⟨hstate, hdefinition⟩ := h.own x p hp
  apply h.commit
  rcases hphase with ⟨t, found, hphase⟩ | ⟨t, hphase⟩
  · rw [hphase] at hstate
    obtain ⟨⟨row, hd, -⟩, hkeys, -⟩ := hstate
    exact referenced_commit h hd hdefinition fun k hk => (hkeys k hk).1
  · rw [hphase] at hstate
    obtain ⟨⟨birth, row, base, hd, -⟩, hkeys, -⟩ := hstate
    exact referenced_commit h ⟨birth, base, hd⟩ hdefinition fun k hk => congrArg Prod.fst (hkeys k hk)

/-! ## §7. Every step. -/

theorem World.Quiet.sound_iff {w' : World} (h : w.Quiet w') : w'.Sound ↔ w.Sound := by
  have hactive : ∀ e v row, w'.Active e v row ↔ w.Active e v row := by
    intro e v row
    unfold World.Active
    rw [h.versions]
  constructor
  · intro hsound
    constructor
    · intro e v v' row row' hv hv'
      exact hsound.one e v v' row row' ((hactive _ _ _).mpr hv) ((hactive _ _ _).mpr hv')
    · intro e v row hv
      rw [← h.definitions]
      exact hsound.shown e v row ((hactive _ _ _).mpr hv)
  · intro hsound
    constructor
    · intro e v v' row row' hv hv'
      exact hsound.one e v v' row row' ((hactive _ _ _).mp hv) ((hactive _ _ _).mp hv')
    · intro e v row hv
      rw [h.definitions]
      exact hsound.shown e v row ((hactive _ _ _).mp hv)

theorem quiet_start (h : w.Inv) (hx : w.programs.lookup x = none) (eventName : String) (request : Request) :
    w.Quiet { w with programs := AList.insert x ⟨eventName, request, .begun⟩ w.programs } := by
  obtain ⟨hv, hd⟩ := h.idle x hx
  refine ⟨h.worked (.refl x _) (.refl x _) _ ⟨⟨hv, hd⟩, ?_⟩, rfl, rfl⟩
  intro k hk
  rw [hd] at hk
  cases hk

/-- What is done for an open transaction is all that is done. -/
theorem World.during_cases {C : World → Prop} {f : Program → World} (hidle : C w)
    (hopen : ∀ p, w.programs.lookup x = some p → C (f p)) : C (w.during x f) := by
  unfold World.during
  split
  next p hp => exact hopen p hp
  next => exact hidle

/-- **A step commits nothing, or is a commit.** -/
theorem step_cases (h : w.Inv) (a : Action) :
    w.Quiet (w.step a) ∧ w.NoneSince a
      ∨ ∃ x p, a = .commit x ∧ w.programs.lookup x = some p ∧ w.step a = w.commit x
        ∧ ((∃ t found, p.phase = .pointed t found) ∨ ∃ t, p.phase = .drafted t) := by
  have hsame : w.Quiet w := .same h
  cases a with
  | start x eventName request =>
    refine .inl ⟨?_, trivial⟩
    simp only [World.step]
    split
    next => exact hsame
    next hx => exact quiet_start h hx eventName request
  | define x =>
    refine .inl ⟨World.during_cases hsame fun p hp => ?_, trivial⟩
    split
    next hphase => exact quiet_define h hp hphase
    next => exact hsame
  | choose x =>
    refine .inl ⟨World.during_cases hsame fun p hp => ?_, trivial⟩
    split
    next version hphase hrequest => exact quiet_lockVersion h hp hphase hrequest
    next hphase _ => exact quiet_chooseNext h hp hphase _ _
    next hphase _ => exact quiet_chooseNext h hp hphase _ _
    next => exact hsame
  | deprecateActive x =>
    refine .inl ⟨World.during_cases hsame fun p hp => ?_, trivial⟩
    split
    next t hphase =>
      split
      next => exact quiet_deprecateActive h hp hphase
      next => exact hsame
    next => exact hsame
  | deprecateRow x version =>
    refine .inl ⟨World.during_cases hsame fun p hp => ?_, trivial⟩
    split
    next t found left hphase =>
      split
      next hversion => exact quiet_deprecateRow h hp hphase hversion
      next => exact hsame
    next => exact hsame
  | place x =>
    refine .inl ⟨World.during_cases hsame fun p hp => ?_, trivial⟩
    split
    next t found hphase => exact quiet_placeActive h hp hphase
    next t hphase =>
      split
      next => exact hsame
      next hactivates => exact quiet_insertDraft h hp hphase (Bool.not_eq_true _ ▸ hactivates)
    next => exact hsame
  | point x =>
    refine .inl ⟨World.during_cases hsame fun p hp => ?_, trivial⟩
    split
    next t found hphase => exact quiet_point h hp hphase
    next => exact hsame
  | abort x => exact .inl ⟨World.during_cases hsame fun p hp => .abort h x, trivial⟩
  | commit x =>
    simp only [World.step, World.during]
    split
    next p hp =>
      split
      next t found hphase => exact .inr ⟨x, p, rfl, hp, rfl, .inl ⟨t, found, hphase⟩⟩
      next t hphase => exact .inr ⟨x, p, rfl, hp, rfl, .inr ⟨t, hphase⟩⟩
      next hpointed hdrafted =>
        refine .inl ⟨hsame, fun q t found hq hphase => ?_⟩
        obtain rfl := Option.some.inj (hp.symm.trans hq)
        exact absurd hphase (hpointed t found)
    next hnone =>
      refine .inl ⟨hsame, fun q t found hq _ => ?_⟩
      rw [hnone] at hq
      cases hq

/-- **One step.** -/
theorem step_inv (a : Action) (h : w.Inv) : (w.step a).Inv := by
  rcases step_cases h a with ⟨hquiet, -⟩ | ⟨x, p, rfl, hp, hstep, hphase⟩
  · exact hquiet.inv
  · rw [hstep]
    exact inv_commit h hp hphase

/-- **One step.** -/
theorem step_sound_iff (a : Action) (h : w.Inv) (hsound : w.Sound) : (w.step a).Sound ↔ w.NoneSince a := by
  rcases step_cases h a with ⟨hquiet, hnone⟩ | ⟨x, p, rfl, hp, hstep, ⟨t, found, hphase⟩ | ⟨t, hphase⟩⟩
  · exact iff_of_true (hquiet.sound_iff.mpr hsound) hnone
  · rw [hstep, sound_commit_pointed h hsound hp hphase]
    constructor
    · intro hfound q t' found' hq hphase'
      obtain rfl := Option.some.inj (hp.symm.trans hq)
      obtain ⟨rfl, rfl⟩ := Phase.pointed.inj (hphase.symm.trans hphase')
      exact hfound
    · exact fun hnone => hnone p t found hp hphase
  · rw [hstep]
    refine iff_of_true (sound_commit_drafted h hsound hp hphase) ?_
    intro q t' found' hq hphase'
    obtain rfl := Option.some.inj (hp.symm.trans hq)
    cases hphase.symm.trans hphase'

end

/-! ## §8. Every run. -/

theorem inv_initial {definitions : Table String (Held Definition)} {versions : Table VersionKey (Held Version)}
    (h : (World.initial definitions versions).Referenced) : (World.initial definitions versions).Inv where
  own x p hp := by cases hp
  idle x _ := ⟨fun _ => rfl, fun _ => rfl⟩
  referenced := h

/-- **ONE ACTIVE VERSION, ALL ALONG A RUN**, exactly where at every commit of an
activation no other version became active since its UPDATE looked. -/
theorem one_active_version (definitions : Table String (Held Definition))
    (versions : Table VersionKey (Held Version)) (hsound : (World.initial definitions versions).Sound)
    (href : (World.initial definitions versions).Referenced) (actions : List Action) :
    (∀ n, ((actions.take n).foldl World.step (World.initial definitions versions)).Sound)
      ↔ Along World.step World.NoneSince (World.initial definitions versions) actions :=
  forall_take_iff_along (fun _ a h => step_inv a h) (fun _ a h hsound => step_sound_iff a h hsound) actions
    (inv_initial href) hsound

namespace ContractSample

def schema : Json := .obj []

def definitions : Table String (Held Definition) :=
  AList.singleton "checkout" ⟨0, ⟨"", "", schema, .warn, false, 1, false⟩⟩

/-- Version 1 is active; 2 and 3 are drafts. -/
def versions : Table VersionKey (Held Version) :=
  AList.insert ("checkout", 1) ⟨0, ⟨schema, .warn, .active, ""⟩⟩
    (AList.insert ("checkout", 2) ⟨0, ⟨schema, .reject, .draft, ""⟩⟩
      (AList.singleton ("checkout", 3) ⟨0, ⟨schema, .reject, .draft, ""⟩⟩))

def initial : World := World.initial definitions versions

theorem committed {v : VersionKey} {held : Held Version} (h : initial.versions.committed.lookup v = some held) :
    (v = ("checkout", 1) ∧ held.row = ⟨schema, .warn, .active, ""⟩)
      ∨ v.1 = "checkout" ∧ held.row.status = .draft := by
  have hentry : ⟨v, held⟩ ∈ versions.entries := AList.mem_lookup_iff.mp h
  have hentries : versions.entries = [⟨("checkout", 1), 0, schema, .warn, .active, ""⟩,
      ⟨("checkout", 2), 0, schema, .reject, .draft, ""⟩, ⟨("checkout", 3), 0, schema, .reject, .draft, ""⟩] := rfl
  rw [hentries] at hentry
  simp only [List.mem_cons, List.not_mem_nil, or_false] at hentry
  rcases hentry with h | h | h
  all_goals
    cases h
    simp

theorem referenced : initial.Referenced := by
  intro e n held h
  rcases committed h with ⟨heq, -⟩ | ⟨heq, -⟩
  · cases heq
    rfl
  · obtain rfl : e = "checkout" := heq
    rfl

theorem sound : initial.Sound := by
  have hactive : ∀ e v row, initial.Active e v row → (e, v) = ("checkout", 1) ∧ row = ⟨schema, .warn, .active, ""⟩ := by
    rintro e v row ⟨birth, hlookup, hstatus⟩
    rcases committed hlookup with h | ⟨-, hdraft⟩
    · exact h
    · rw [show row.status = .draft from hdraft] at hstatus
      cases hstatus
  constructor
  · intro e v v' row row' hv hv'
    have hkey := (hactive e v row hv).1.trans (hactive e v' row' hv').1.symm
    exact congrArg Prod.snd hkey
  · intro e v row hv
    obtain ⟨hkey, rfl⟩ := hactive e v row hv
    cases hkey
    exact ⟨_, rfl, rfl, rfl, rfl⟩

/-- One transaction activates a version, up to its commit. -/
def activation (x version : Nat) (found : List Nat) : List Action :=
  [.start x "checkout" (.activateEventContract version), .choose x, .deprecateActive x]
    ++ found.map (.deprecateRow x) ++ [.place x, .point x]

/-- Two activations at once: the second's UPDATE finds version 1 active, waits for
it, and never sees version 2. -/
def atOnce : List Action :=
  [.start 1 "checkout" (.activateEventContract 3), .choose 1] ++ activation 0 2 [1]
    ++ [.deprecateActive 1, .deprecateRow 1 1, .commit 0, .deprecateRow 1 1, .place 1, .point 1, .commit 1]

def inTurn : List Action := activation 0 2 [1] ++ [.commit 0] ++ activation 1 3 [2] ++ [.commit 1]

end ContractSample

/-- Version 2 is activated, then version 3. -/
theorem one_active_version_inTurn : (ContractSample.inTurn.foldl World.step ContractSample.initial).Sound := by
  have hrun := (one_active_version _ _ ContractSample.sound ContractSample.referenced ContractSample.inTurn).mpr
    (by decide +kernel) ContractSample.inTurn.length
  rwa [List.take_length] at hrun

/-- **Two activations at once leave two versions active.** -/
theorem two_active_versions : ContractSample.initial.Sound ∧ ContractSample.initial.Referenced
    ∧ ¬ (ContractSample.atOnce.foldl World.step ContractSample.initial).Sound := by
  refine ⟨ContractSample.sound, ContractSample.referenced, fun hsound => ?_⟩
  have htwo : 2 ∈ activeVersions
      (ContractSample.atOnce.foldl World.step ContractSample.initial).versions.committed "checkout" := by
    decide +kernel
  have hthree : 3 ∈ activeVersions
      (ContractSample.atOnce.foldl World.step ContractSample.initial).versions.committed "checkout" := by
    decide +kernel
  obtain ⟨birth, row, hrow, hactive⟩ := mem_activeVersions.mp htwo
  obtain ⟨birth', row', hrow', hactive'⟩ := mem_activeVersions.mp hthree
  exact absurd (hsound.one _ _ _ _ _ ⟨birth, hrow, hactive⟩ ⟨birth', hrow', hactive'⟩) (by decide)

end Momento.Governance
