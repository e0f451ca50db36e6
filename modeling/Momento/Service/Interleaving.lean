/-
  Momento.Service.Interleaving

  **REBUILDS AND WORKERS, STATEMENT BY STATEMENT.**  Any number of worker
  transactions and of rebuilds run at once under `READ COMMITTED`.  A step of the
  world is one row of one statement of one transaction, or its begin, its
  savepoints and its end; a step that has to wait leaves the world as it is, and
  may be tried again.

      worker      — for each job SELECT timezone FROM sites, which locks nothing;
                    INSERT raw_events … ON CONFLICT DO NOTHING, and for a row that
                    is new the upsert into daily_site_metrics, on the date that
                    the zone gives the event
      rebuild     — DELETE FROM daily_site_metrics, row by row as its snapshot had
                    them; then INSERT … SELECT, one snapshot for all its rows
      updateSite  — SELECT timezone … FOR UPDATE and the UPDATE of the site; then,
                    if the zone is another one, the rebuild of the site's days

  Events and metrics refer to their site, so at the end of the statement that
  inserted one its site is locked `FOR KEY SHARE`, which excludes `FOR UPDATE`.
  The statements on the other derived tables write rows of them, any rows at any
  time: all that they are to the metrics is something to wait for.
-/
import Momento.Foundation.ReadCommitted
import Momento.Service.Rebuild

namespace Momento.Interleaving

open Foundation

/-! ## §1. The rebuilds. -/

/-- The zones of the sites, as somebody sees them. -/
abbrev Zones : Type := Uuid → Option String

/-- A rebuild and its arguments.  `RebuildSiteDailyAggregates` alone runs in the
transaction of `updateSite`, which brings the zone. -/
inductive Rebuild where
  | environmentDateRange (siteId : Uuid) (environment : String) (first last : Date)
  | siteDailyAggregates (siteId : Uuid) (timezone : String)
  | siteDerivedData (siteId : Uuid)

/-- A statement of a rebuild; `derived` is one on another table. -/
inductive Statement where
  /-- The site's row locked, and updated. -/
  | setTimezone
  | derived
  | deleteMetrics
  | insertMetrics
  deriving DecidableEq

namespace Rebuild

/-- The site it rebuilds. -/
def siteId : Rebuild → Uuid
  | .environmentDateRange siteId _ _ _ => siteId
  | .siteDailyAggregates siteId _ => siteId
  | .siteDerivedData siteId => siteId

/-- The zone its transaction gives the site. -/
def newZone : Rebuild → Option String
  | .siteDailyAggregates _ timezone => some timezone
  | _ => none

/-- The days whose metrics it deletes. -/
def covers : Rebuild → DayKey → Bool
  | .environmentDateRange siteId environment first last => coversRange siteId environment first last
  | .siteDailyAggregates siteId _ => coversSite siteId
  | .siteDerivedData siteId => coversSite siteId

/-- The `SELECT` of its metrics. -/
def select (env : Platform) (zones : Zones) (rows : List RawEvent) :
    Rebuild → Table DayKey (Except DbError DailyMetrics)
  | .environmentDateRange siteId environment first last =>
    (zones siteId).elim ∅ fun timezone =>
      Table.groupRows (RawEvent.dayKey env timezone) (fun _ rows => rebuildMetricsRow rows)
        (rangeRows env timezone siteId environment first last rows)
  | .siteDailyAggregates siteId _ | .siteDerivedData siteId =>
    (zones siteId).elim ∅ fun timezone =>
      Table.groupRows (RawEvent.dayKey env timezone) (fun _ rows => rebuildMetricsRow rows)
        (siteRows siteId rows)

/-- The three deletes and the three inserts of the daily tables. -/
def dailyStatements : List Statement :=
  [.derived, .derived, .deleteMetrics, .insertMetrics, .derived, .derived]

/-- The statements in their order.  `updateSite` updates the sessions before the
rebuild; `RebuildSiteDerivedData` empties eight tables and fills five of them first. -/
def statements : Rebuild → List Statement
  | .environmentDateRange _ _ _ _ => dailyStatements
  | .siteDailyAggregates _ _ => [.setTimezone, .derived] ++ dailyStatements
  | .siteDerivedData _ =>
    [.derived, .derived, .derived, .deleteMetrics, .derived, .derived, .derived, .derived]
      ++ [.derived, .derived, .derived, .derived, .derived] ++ dailyStatements

end Rebuild

/-! ## §2. The world. -/

/-- Where the running statement of a rebuild is. -/
inductive Doing where
  | idle
  /-- The rows of its snapshot that are left to delete. -/
  | deleting (left : List (DayKey × Nat))
  /-- The rows of its `SELECT` that are left to insert. -/
  | inserting (left : Table DayKey DailyMetrics)

/-- What a transaction is about to do. -/
inductive Program where
  /-- A worker; its job has read the zone of a site, and an event it has inserted may
  still have to be counted. -/
  | worker (zone : Option (Uuid × String)) (uncounted : Option RawEvent)
  | rebuild (kind : Rebuild) (todo : List Statement) (doing : Doing)

/-- It is in the middle of an `INSERT … SELECT`. -/
def Program.inserting : Program → Bool
  | .rebuild _ _ (.inserting _) => true
  | _ => false

/-- What a committed transaction has written. -/
structure Commit (κ ρ : Type) where
  transaction : Nat
  sites : Writes Uuid String
  raw : Writes (Uuid × Uuid) RawEvent
  metrics : Writes DayKey DailyMetrics
  derived : Writes κ ρ

/-- `κ` and `ρ` are the keys and rows of the other derived tables. -/
structure World (κ ρ : Type) [DecidableEq κ] where
  /-- `sites`, of which a row is its zone. -/
  sites : Relation Uuid String
  raw : Relation (Uuid × Uuid) RawEvent
  metrics : Relation DayKey DailyMetrics
  derived : Relation κ ρ
  programs : Table Nat Program
  /-- The committed transactions, newest first.  No table holds it. -/
  log : List (Commit κ ρ)

/-- A step, and the transaction that takes it. -/
inductive Action (κ ρ : Type) where
  | beginWorker (x : Nat)
  | beginRebuild (x : Nat) (kind : Rebuild)
  | readZone (x : Nat) (siteId : Uuid)
  | insertRaw (x : Nat) (row : RawEvent)
  | countEvent (x : Nat) (amount : Binary64)
  | derived (x : Nat) (k : κ) (f : Option (Held ρ) → Option (Held ρ))
  | release (x : Nat)
  | rollback (x : Nat)
  | nextStatement (x : Nat)
  | deleteRow (x : Nat) (i : Nat)
  | insertRow (x : Nat) (k : DayKey)
  | statementDone (x : Nat)
  | commit (x : Nat)
  | abort (x : Nat)

/-! ## §3. Steps. -/

/-- The row of the upsert into `daily_site_metrics`. -/
def countedRow (row : RawEvent) (excluded : Numeric) : Option DailyMetrics → Except DbError DailyMetrics
  | none => .ok ⟨1, (decide (row.eventName = "page_view")).toNat, row.isConversion.toNat, excluded⟩
  | some m => do
    let revenue ← storeNumeric24_6 (m.revenue + excluded)
    return ⟨m.events + 1, m.pageViews + (decide (row.eventName = "page_view")).toNat,
      m.conversions + row.isConversion.toNat, revenue⟩

/-- The rows of a table. -/
def rowsOf {κ ρ : Type} (t : Table κ (Held ρ)) : List ρ := t.entries.map fun e => e.2.row

namespace World
variable {κ ρ : Type} [DecidableEq κ]

/-- Some sites, and nothing stored yet. -/
def initial (sites : Table Uuid (Held String)) : World κ ρ :=
  ⟨.ofRows sites, .empty, .empty, .empty, ∅, []⟩

variable (env : Platform) (w : World κ ρ)

/-- The zones of the sites as they are committed. -/
def zones : Zones := fun siteId => (w.sites.committed.lookup siteId).map Held.row

/-- The zones that a transaction sees. -/
def zonesSeen (x : Nat) : Zones := fun siteId => (w.sites.seen x siteId).map Held.row

/-- The transaction goes on with another program. -/
def withProgram (x : Nat) (p : Program) : World κ ρ :=
  { w with programs := AList.insert x p w.programs }

/-- The transaction is over, and nothing is left of it. -/
def abort (x : Nat) : World κ ρ :=
  { w with
    sites := w.sites.discard x
    raw := w.raw.discard x
    metrics := w.metrics.discard x
    derived := w.derived.discard x
    programs := w.programs.erase x }

/-- The transaction is over, and what it has written is committed. -/
def commit (x : Nat) : World κ ρ :=
  { sites := w.sites.commit x
    raw := w.raw.commit x
    metrics := w.metrics.commit x
    derived := w.derived.commit x
    programs := w.programs.erase x
    log := ⟨x, (w.sites.workOf x).all, (w.raw.workOf x).all, (w.metrics.workOf x).all,
      (w.derived.workOf x).all⟩ :: w.log }

/-- The transaction is in the middle of an `INSERT … SELECT`. -/
def inserting (y : Nat) : Bool :=
  match w.programs.lookup y with
  | some p => p.inserting
  | none => false

/-- The transaction has inserted metrics of the site. -/
def PutsMetrics (y : Nat) (siteId : Uuid) : Prop :=
  ∃ k ∈ (inserted (w.metrics.workOf y).all).keys, k.siteId = siteId

instance (y : Nat) (siteId : Uuid) : Decidable (w.PutsMetrics y siteId) :=
  inferInstanceAs (Decidable (∃ k ∈ _, _))

/-- It holds the site `FOR KEY SHARE`: it has stored an event or metrics of the site,
and the statement that did is over. -/
def Shares (y : Nat) (siteId : Uuid) : Prop :=
  (∃ key ∈ (w.raw.workOf y).all.keys, key.1 = siteId)
    ∨ w.inserting y = false ∧ w.PutsMetrics y siteId

instance (y : Nat) (siteId : Uuid) : Decidable (w.Shares y siteId) :=
  inferInstanceAs (Decidable ((∃ key ∈ _, _) ∨ _ ∧ _))

/-- The zone of the job's site, read without a lock. -/
def readZone (x : Nat) (siteId : Uuid) : World κ ρ :=
  match w.programs.lookup x, w.zones siteId with
  | some (.worker none none), some timezone => w.withProgram x (.worker (some (siteId, timezone)) none)
  | _, _ => w

/-- `INSERT INTO raw_events … ON CONFLICT DO NOTHING`; the check of the foreign key
waits while the site is locked `FOR UPDATE`. -/
def insertRaw (x : Nat) (row : RawEvent) : World κ ρ :=
  match w.programs.lookup x with
  | some (.worker (some zone) none) =>
    if row.siteId = zone.1 ∧ w.sites.free x row.siteId = true then
      match w.raw.seen x row.uniqueKey with
      | some _ => w
      | none =>
        match w.raw.insertRow x row.uniqueKey row with
        | none => w
        | some raw => { w with raw := raw }.withProgram x (.worker (some zone) (some row))
    else w
  | _ => w

/-- `updateDailyAggregates`, its first statement; where it fails, the job is rolled
back to its savepoint. -/
def countEvent (x : Nat) (amount : Binary64) : World κ ρ :=
  match w.programs.lookup x with
  | some (.worker (some zone) (some row)) =>
    let day := row.dayKey env zone.2
    match excludedRevenue amount >>= fun excluded =>
        countedRow row excluded ((w.metrics.seen x day).map Held.row) with
    | .error _ => w
    | .ok counted =>
      match w.metrics.upsertRow x day counted with
      | none => w
      | some metrics => { w with metrics := metrics }.withProgram x (.worker (some zone) none)
  | _ => w

/-- `SELECT timezone … FOR UPDATE` and `UPDATE sites`, once nobody else holds the
site's row.  An unknown site ends the transaction; of a site that has the zone
already nothing is rebuilt. -/
def setTimezone (x : Nat) (siteId : Uuid) (timezone : String) (rest : List Statement) : World κ ρ :=
  if ∃ y ∈ w.programs.keys, y ≠ x ∧ w.Shares y siteId then w
  else if w.sites.free x siteId = false then w
  else
    match w.sites.seen x siteId with
    | none => w.abort x
    | some previous =>
      match w.sites.write x siteId fun _ => some { previous with row := timezone } with
      | none => w
      | some sites =>
        { w with sites := sites }.withProgram x (.rebuild (.siteDailyAggregates siteId timezone)
          (if previous.row = timezone then [.derived] else rest) .idle)

/-- The next statement of a rebuild starts, with a snapshot of its own; a `SELECT`
that fails ends the transaction. -/
def nextStatement (x : Nat) : World κ ρ :=
  match w.programs.lookup x with
  | some (.rebuild (.siteDailyAggregates siteId timezone) (.setTimezone :: rest) .idle) =>
    w.setTimezone x siteId timezone rest
  | some (.rebuild kind (.derived :: rest) .idle) => w.withProgram x (.rebuild kind rest .idle)
  | some (.rebuild kind (.deleteMetrics :: rest) .idle) =>
    w.withProgram x (.rebuild kind rest (.deleting
      (((w.metrics.snapshot x).entries.filter fun e => kind.covers e.1).map fun e => (e.1, e.2.birth))))
  | some (.rebuild kind (.insertMetrics :: rest) .idle) =>
    match (kind.select env (w.zonesSeen x) (rowsOf (w.raw.snapshot x))).collect with
    | .error _ => w.abort x
    | .ok rows => w.withProgram x (.rebuild kind rest (.inserting rows))
  | _ => w

/-- One row of a `DELETE`.  The row's newest version goes; where the row is gone,
another one under its key stays. -/
def deleteRow (x : Nat) (i : Nat) : World κ ρ :=
  match w.programs.lookup x with
  | some (.rebuild kind todo (.deleting left)) =>
    match left[i]? with
    | none => w
    | some (k, birth) =>
      if w.metrics.free x k = false then w
      else
        let after := w.withProgram x (.rebuild kind todo (.deleting (left.eraseIdx i)))
        if (w.metrics.seen x k).map Held.birth = some birth then
          match w.metrics.write x k fun _ => none with
          | none => w
          | some metrics => { after with metrics := metrics }
        else after
  | _ => w

/-- One row of the `INSERT`; a row under its key is a unique violation. -/
def insertRow (x : Nat) (k : DayKey) : World κ ρ :=
  match w.programs.lookup x with
  | some (.rebuild kind todo (.inserting left)) =>
    match left.lookup k with
    | none => w
    | some row =>
      if w.metrics.free x k = false then w
      else match w.metrics.seen x k with
        | some _ => w.abort x
        | none =>
          match w.metrics.insertRow x k row with
          | none => w
          | some metrics =>
            { w with metrics := metrics }.withProgram x (.rebuild kind todo (.inserting (left.erase k)))
  | _ => w

/-- The statement has no row left.  At the end of an `INSERT` the foreign keys of its
rows are checked, which waits as in `insertRaw`. -/
def statementDone (x : Nat) : World κ ρ :=
  match w.programs.lookup x with
  | some (.rebuild kind todo (.deleting [])) => w.withProgram x (.rebuild kind todo .idle)
  | some (.rebuild kind todo (.inserting left)) =>
    if left.entries = [] ∧ (w.PutsMetrics x kind.siteId → w.sites.free x kind.siteId = true) then
      w.withProgram x (.rebuild kind todo .idle)
    else w
  | _ => w

/-- One step. -/
def step : Action κ ρ → World κ ρ
  | .beginWorker x => if x ∈ w.programs then w else w.withProgram x (.worker none none)
  | .beginRebuild x kind =>
    if x ∈ w.programs then w else w.withProgram x (.rebuild kind kind.statements .idle)
  | .readZone x siteId => w.readZone x siteId
  | .insertRaw x row => w.insertRaw x row
  | .countEvent x amount => w.countEvent env x amount
  | .derived x k f =>
    if x ∈ w.programs then
      match w.derived.write x k f with
      | none => w
      | some derived => { w with derived := derived }
    else w
  | .release x =>
    match w.programs.lookup x with
    | some (.worker _ none) =>
      { w with
        raw := w.raw.release x
        metrics := w.metrics.release x
        derived := w.derived.release x }.withProgram x (.worker none none)
    | _ => w
  | .rollback x =>
    match w.programs.lookup x with
    | some (.worker _ _) =>
      { w with
        raw := w.raw.rollback x
        metrics := w.metrics.rollback x
        derived := w.derived.rollback x }.withProgram x (.worker none none)
    | _ => w
  | .nextStatement x => w.nextStatement env x
  | .deleteRow x i => w.deleteRow x i
  | .insertRow x k => w.insertRow x k
  | .statementDone x => w.statementDone x
  | .commit x =>
    match w.programs.lookup x with
    | some (.worker none none) => w.commit x
    | some (.rebuild _ [] .idle) => w.commit x
    | _ => w
  | .abort x => if x ∈ w.programs then w.abort x else w

/-- A run of the world. -/
def run (actions : List (Action κ ρ)) : World κ ρ := actions.foldl (step env) w

end World

/-! ## §4. What is stored, and what is committed. -/

/-- The events of a local date and environment among some rows. -/
def dayRows (env : Platform) (zones : Zones) (rows : List RawEvent) (k : DayKey) : List RawEvent :=
  (zones k.siteId).elim [] fun timezone => Table.groupOf (RawEvent.dayKey env timezone) rows k

namespace World
variable {κ ρ : Type} [DecidableEq κ] (env : Platform) (w : World κ ρ)

/-- The stored events of a local date and environment, by the zones there are now. -/
def storedEvents (k : DayKey) : List RawEvent := dayRows env w.zones (rowsOf w.raw.committed) k

/-- The four parts of the database as the committed transactions, one after the other,
left them. -/
structure Replayed (sites : Table Uuid (Held String)) (w : World κ ρ) : Prop where
  sites : w.sites.committed = (w.log.map Commit.sites).foldr overlay sites
  raw : w.raw.committed = replay (w.log.map Commit.raw)
  metrics : w.metrics.committed = replay (w.log.map Commit.metrics)
  derived : w.derived.committed = replay (w.log.map Commit.derived)

/-- **Where counting holds.**  A worker counts an event on the date that the zone of
its site gives it now.  And an `INSERT … SELECT` beside a zone change puts no row on a
day that the rebuild has not emptied and that has no event any more. -/
def Dated : Action κ ρ → Prop
  | .countEvent x _ =>
    match w.programs.lookup x with
    | some (.worker (some zone) (some row)) =>
      (w.zones row.siteId).map (row.dayKey env ·) = some (row.dayKey env zone.2)
    | _ => True
  | .insertRow x k =>
    match w.programs.lookup x with
    | some (.rebuild kind _ (.inserting left)) =>
      kind.newZone = none → k ∈ left → w.metrics.Holds x k ∨ w.storedEvents env k ≠ []
    | _ => True
  | _ => True

instance (action : Action κ ρ) : Decidable (w.Dated env action) := by
  unfold Dated
  split
  · split <;> infer_instance
  · split <;> infer_instance
  · infer_instance

end World

end Momento.Interleaving
