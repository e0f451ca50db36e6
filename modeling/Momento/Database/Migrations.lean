/-
  Momento.Database.Migrations

  **EVERY PROCESS MIGRATES THE DATABASE.**  Each process that opens the database runs
  `MigrateThrough` on a connection of its own: it takes the advisory lock, goes through the
  migrations its release ships in the order of their names, and applies each one that
  `schema_migrations` does not name, in a transaction with the row that names it.

      lock, unlock — `pg_advisory_lock`, and the deferred `pg_advisory_unlock`
      create, list — `CREATE TABLE IF NOT EXISTS`, and the names up to the last one
      check        — `SELECT EXISTS`, or the end of the loop
      begin, apply, record, commit
                   — the transaction of one migration
      lost         — the commit took effect, but its answer did not arrive
      fail, crash  — a statement failed, and the connection is gone

  The statements of any number of processes, of any releases, interleave in any order.
-/
import Mathlib.Logic.Function.Basic
import Mathlib.Data.List.Infix
import Mathlib.Data.String.Basic
import Momento.Foundation.Runs

namespace Momento.Migrations

open Foundation

/-! ## §1. The names. -/

/-- An entry of the embedded directory. -/
structure Entry where
  name : String
  isDir : Bool

/-- `Versions`. -/
def versions (entries : List Entry) : List String :=
  ((entries.filter fun e => !e.isDir && decide (".sql".toList <:+ e.name.toList)).map Entry.name).mergeSort
    fun a b => decide (a ≤ b)

/-- `names[:cut+1]`; an unknown name is refused. -/
def namesThrough (names : List String) (last : String) : Option (List String) :=
  if last = "" then some names
  else (names.findIdx? fun name => name = last).map fun cut => names.take (cut + 1)

/-! ## §2. Processes. -/

/-- Where a process is. -/
inductive Place (δ : Type) where
  | acquired
  | locked
  | created
  /-- At the head of the loop, with the names that are left. -/
  | next (rest : List String)
  | missing (name : String) (rest : List String)
  | began (name : String) (rest : List String)
  /-- The body ran in the transaction, and left this schema. -/
  | applied (name : String) (rest : List String) (schema : δ)
  | recorded (name : String) (rest : List String) (schema : δ)
  | unlocking (ok : Bool)
  | closed (ok : Bool)

/-- It is between the lock and the unlock. -/
def Place.migrates {δ : Type} : Place δ → Bool
  | .acquired => false
  | .closed _ => false
  | _ => true

/-- A process of one release. -/
structure Process (δ : Type) where
  entries : List Entry
  last : String
  place : Place δ

/-- The names the process goes through. -/
def Process.names {δ : Type} (p : Process δ) : Option (List String) := namesThrough (versions p.entries) p.last

/-- The database, and the processes that migrate it. -/
structure World (δ : Type) where
  schema : δ
  /-- `schema_migrations`, once it is there. -/
  recorded : Option (List String)
  /-- Who has the advisory lock. -/
  holder : Option Nat
  processes : Nat → Option (Process δ)
  /-- The migrations that took effect, in order.  No table holds them. -/
  history : List String

/-- The statements of `MigrateThrough`, by any process. -/
inductive Action where
  | connect (x : Nat) (entries : List Entry) (last : String)
  | lock (x : Nat)
  | create (x : Nat)
  | list (x : Nat)
  | check (x : Nat)
  | begin (x : Nat)
  | apply (x : Nat)
  | record (x : Nat)
  | commit (x : Nat)
  | lost (x : Nat)
  | fail (x : Nat)
  | unlock (x : Nat)
  | crash (x : Nat)

/-! ## §3. Steps. -/

section
variable {δ : Type}

namespace World

/-- Nothing is recorded, and no process is there. -/
def initial (schema : δ) : World δ := ⟨schema, none, none, fun _ => none, []⟩

variable (w : World δ)

/-- A connection from the pool. -/
def connect (x : Nat) (entries : List Entry) (last : String) : World δ :=
  match w.processes x with
  | some _ => w
  | none => { w with processes := Function.update w.processes x (some ⟨entries, last, .acquired⟩) }

/-- A process goes on. -/
def setPlace (x : Nat) (p : Process δ) (place : Place δ) : World δ :=
  { w with processes := Function.update w.processes x (some { p with place := place }) }

/-- A step of a process that is there. -/
def onProcess (x : Nat) (step : Process δ → World δ) : World δ :=
  match w.processes x with
  | some p => step p
  | none => w

/-- The lock goes with the connection. -/
def free (x : Nat) : World δ := { w with holder := if w.holder = some x then none else w.holder }

/-- The transaction takes effect. -/
def commit (name : String) (schema : δ) : World δ :=
  { w with schema := schema, recorded := some (w.recorded.getD [] ++ [name]), history := w.history ++ [name] }

/-- **A step**, given what the body of a migration makes of a schema; none where it fails. -/
def step (body : String → δ → Option δ) (w : World δ) : Action → World δ
  | .connect x entries last => w.connect x entries last
  | .lock x => w.onProcess x fun p =>
    match p.place with
    | .acquired => if w.holder = none then { w with holder := some x }.setPlace x p .locked else w
    | _ => w
  | .create x => w.onProcess x fun p =>
    match p.place with
    | .locked => { w with recorded := some (w.recorded.getD []) }.setPlace x p .created
    | _ => w
  | .list x => w.onProcess x fun p =>
    match p.place with
    | .created =>
      match p.names with
      | some names => w.setPlace x p (.next names)
      | none => w.setPlace x p (.unlocking false)
    | _ => w
  | .check x => w.onProcess x fun p =>
    match p.place with
    | .next [] => w.setPlace x p (.unlocking true)
    | .next (name :: rest) =>
      if name ∈ w.recorded.getD [] then w.setPlace x p (.next rest) else w.setPlace x p (.missing name rest)
    | _ => w
  | .begin x => w.onProcess x fun p =>
    match p.place with
    | .missing name rest => w.setPlace x p (.began name rest)
    | _ => w
  | .apply x => w.onProcess x fun p =>
    match p.place with
    | .began name rest =>
      match body name w.schema with
      | some schema => w.setPlace x p (.applied name rest schema)
      | none => w.setPlace x p (.unlocking false)
    | _ => w
  | .record x => w.onProcess x fun p =>
    match p.place with
    | .applied name rest schema =>
      -- the name is the primary key
      if name ∈ w.recorded.getD [] then w.setPlace x p (.unlocking false)
      else w.setPlace x p (.recorded name rest schema)
    | _ => w
  | .commit x => w.onProcess x fun p =>
    match p.place with
    | .recorded name rest schema => (w.commit name schema).setPlace x p (.next rest)
    | _ => w
  | .lost x => w.onProcess x fun p =>
    match p.place with
    | .recorded name _ schema => (w.commit name schema).setPlace x p (.unlocking false)
    | _ => w
  | .fail x => w.onProcess x fun p =>
    match p.place with
    | .acquired => w.setPlace x p (.closed false)
    | .closed _ => w
    | .unlocking _ => w
    | _ => w.setPlace x p (.unlocking false)
  | .unlock x => w.onProcess x fun p =>
    match p.place with
    | .unlocking ok => (w.free x).setPlace x p (.closed ok)
    | _ => w
  | .crash x => w.onProcess x fun p =>
    match p.place with
    | .closed _ => w
    | _ => (w.free x).setPlace x p (.closed false)

end World

/-! ## §4. What should hold. -/

/-- The bodies, one after another. -/
def replay (body : String → δ → Option δ) (names : List String) (schema : δ) : Option δ :=
  names.foldlM (fun schema name => body name schema) schema

/-- **What any number of processes leave behind**, `newest` being the release that ships
the most. -/
structure World.Sound (body : String → δ → Option δ) (newest : List Entry) (schema : δ) (w : World δ) : Prop where
  /-- What took effect, took effect once and in the order of the names. -/
  order : w.history <+: versions newest
  sorted : w.history.Pairwise (· < ·)
  recorded : w.recorded.getD [] = w.history
  schema : replay body w.history schema = some w.schema
  exclusive : ∀ x y p q, w.processes x = some p → w.processes y = some q → p.place.migrates = true →
    q.place.migrates = true → x = y
  finished : ∀ x p, w.processes x = some p → p.place = .closed true →
    ∃ names, p.names = some names ∧ ∀ name ∈ names, name ∈ w.history

/-! ## §5. The invariant. -/

/-- The process has seen to all names before `rest`. -/
def Seen (history : List String) (names : Option (List String)) (rest : List String) : Prop :=
  ∃ done, names = some (done ++ rest) ∧ ∀ name ∈ done, name ∈ history

/-- What a place says of the database. -/
def Place.Fits (body : String → δ → Option δ) (history : List String) (schema : δ) (names : Option (List String)) :
    Place δ → Prop
  | .next rest => Seen history names rest
  | .missing name rest => Seen history names (name :: rest) ∧ name ∉ history
  | .began name rest => Seen history names (name :: rest) ∧ name ∉ history
  | .applied name rest after => Seen history names (name :: rest) ∧ name ∉ history ∧ body name schema = some after
  | .recorded name rest after => Seen history names (name :: rest) ∧ name ∉ history ∧ body name schema = some after
  | .unlocking ok => ok = true → Seen history names []
  | .closed ok => ok = true → Seen history names []
  | _ => True

/-- **The invariant**: what is recorded is what was run, in order. -/
structure World.Inv (body : String → δ → Option δ) (names : List String) (schema : δ) (w : World δ) : Prop where
  releases : ∀ x p, w.processes x = some p → versions p.entries <+: names
  order : w.history <+: names
  recorded : w.recorded.getD [] = w.history
  schema : replay body w.history schema = some w.schema
  locked : ∀ x p, w.processes x = some p → p.place.migrates = true → w.holder = some x
  fits : ∀ x p, w.processes x = some p → p.place.Fits body w.history w.schema p.names

theorem Seen.mono {history history' : List String} {names : Option (List String)} {rest : List String}
    (h : Seen history names rest) (hsub : history ⊆ history') : Seen history' names rest := by
  obtain ⟨done, hnames, hdone⟩ := h
  exact ⟨done, hnames, fun name hname => hsub (hdone name hname)⟩

theorem Seen.next {history : List String} {names : Option (List String)} {name : String} {rest : List String}
    (h : Seen history names (name :: rest)) (hname : name ∈ history) : Seen history names rest := by
  obtain ⟨done, hnames, hdone⟩ := h
  refine ⟨done ++ [name], ?_, ?_⟩
  · rw [hnames, List.append_assoc]
    rfl
  · intro v hv
    cases List.mem_append.mp hv with
    | inl hbefore => exact hdone v hbefore
    | inr heq =>
      rw [List.mem_singleton.mp heq]
      exact hname

/-- The names a process goes through are the first of what its release ships. -/
theorem namesThrough_initial {names through : List String} {last : String} (h : namesThrough names last = some through) :
    through <+: names := by
  unfold namesThrough at h
  by_cases hlast : last = ""
  · rw [if_pos hlast] at h
    rw [← Option.some.inj h]
  · rw [if_neg hlast] at h
    obtain ⟨cut, -, heq⟩ := Option.map_eq_some_iff.mp h
    rw [← heq]
    exact List.take_prefix _ _

/-- **The name that is missing is the next one.**  What took effect and what the process
has seen to are both the first of the same names, and neither goes further. -/
theorem history_eq_done {names history done rest : List String} {name : String} (hnodup : names.Nodup)
    (horder : history <+: names) (hrest : done ++ name :: rest <+: names) (hdone : ∀ v ∈ done, v ∈ history)
    (hname : name ∉ history) : history = done := by
  have hbefore : done <+: names := (List.prefix_append done _).trans hrest
  cases List.prefix_or_prefix_of_prefix horder hbefore with
  | inl hshort =>
    obtain ⟨more, heq⟩ := hshort
    have hnone : more = [] := by
      rw [List.eq_nil_iff_forall_not_mem]
      intro v hv
      have hdistinct : (history ++ more).Nodup := by
        rw [heq]
        exact hnodup.sublist hbefore.sublist
      have hin : v ∈ done := by
        rw [← heq]
        exact List.mem_append_right _ hv
      exact (List.nodup_append.mp hdistinct).2.2 v (hdone v hin) v hv rfl
    rw [← heq, hnone, List.append_nil]
  | inr hlong =>
    obtain ⟨more, heq⟩ := hlong
    cases more with
    | nil =>
      rw [← heq, List.append_nil]
    | cons v more =>
      -- the name after what was seen to is the missing one
      have hboth : (v :: more) <+: (name :: rest) ∨ (name :: rest) <+: (v :: more) := by
        rw [← heq] at horder
        cases List.prefix_or_prefix_of_prefix horder hrest with
        | inl h => exact Or.inl ((List.prefix_append_right_inj done).mp h)
        | inr h => exact Or.inr ((List.prefix_append_right_inj done).mp h)
      have hsame : v = name := by
        cases hboth with
        | inl h => exact (List.cons_prefix_cons.mp h).1
        | inr h => exact (List.cons_prefix_cons.mp h).1.symm
      refine absurd ?_ hname
      rw [← heq, hsame]
      exact List.mem_append_right _ List.mem_cons_self

theorem replay_append (body : String → δ → Option δ) (history : List String) (name : String) (schema : δ) :
    replay body (history ++ [name]) schema = (replay body history schema).bind (body name) := by
  unfold replay
  rw [List.foldlM_append]
  cases List.foldlM (fun schema name => body name schema) schema history with
  | none => rfl
  | some after =>
    show (body name after).bind some = body name after
    cases body name after with
    | none => rfl
    | some next => rfl

/-! ## §6. Every step. -/

section
variable {body : String → δ → Option δ} {names : List String} {schema : δ} {w : World δ} {x : Nat} {p : Process δ}

theorem process_of_setPlace {place : Place δ} {y : Nat} {q : Process δ}
    (h : (w.setPlace x p place).processes y = some q) :
    y = x ∧ q = { p with place := place } ∨ y ≠ x ∧ w.processes y = some q := by
  by_cases hy : y = x
  · subst hy
    exact Or.inl ⟨rfl, (Option.some.inj ((Function.update_self y _ w.processes).symm.trans h)).symm⟩
  · exact Or.inr ⟨hy, (Function.update_of_ne hy _ w.processes).symm.trans h⟩

/-- **A step that takes no migration into effect.** -/
theorem World.Inv.moves (h : w.Inv body names schema) (hp : w.processes x = some p) {recorded : Option (List String)}
    {holder : Option Nat} (hrecorded : recorded.getD [] = w.recorded.getD [])
    (hholder : ∀ y, y ≠ x → w.holder = some y → holder = some y) {place : Place δ}
    (hlocked : place.migrates = true → holder = some x) (hfits : place.Fits body w.history w.schema p.names) :
    ({ w with recorded := recorded, holder := holder }.setPlace x p place).Inv body names schema where
  releases y q hq := by
    cases process_of_setPlace hq with
    | inl hself =>
      rw [hself.2]
      exact h.releases x p hp
    | inr hother => exact h.releases y q hother.2
  order := h.order
  recorded := hrecorded.trans h.recorded
  schema := h.schema
  locked y q hq hmigrates := by
    cases process_of_setPlace hq with
    | inl hself =>
      rw [hself.2] at hmigrates
      rw [hself.1]
      exact hlocked hmigrates
    | inr hother => exact hholder y hother.1 (h.locked y q hother.2 hmigrates)
  fits y q hq := by
    cases process_of_setPlace hq with
    | inl hself =>
      rw [hself.2]
      exact hfits
    | inr hother => exact h.fits y q hother.2

theorem World.Inv.stays (h : w.Inv body names schema) (hp : w.processes x = some p) {place : Place δ}
    (hlocked : place.migrates = true → p.place.migrates = true)
    (hfits : place.Fits body w.history w.schema p.names) : (w.setPlace x p place).Inv body names schema :=
  h.moves hp rfl (fun _ _ hy => hy) (fun hm => h.locked x p hp (hlocked hm)) hfits

/-- A process gives the lock back. -/
theorem World.Inv.free (h : w.Inv body names schema) (hp : w.processes x = some p) {place : Place δ}
    (hlocked : place.migrates = false) (hfits : place.Fits body w.history w.schema p.names) :
    ((w.free x).setPlace x p place).Inv body names schema := by
  refine h.moves hp rfl (fun y hy hholder => ?_) (fun hm => ?_) hfits
  · rw [if_neg]
    · exact hholder
    · rw [hholder]
      exact fun heq => hy (Option.some.inj heq)
  · rw [hlocked] at hm
    cases hm

/-- Who is done, or has not begun, does not mind what takes effect. -/
theorem Place.Fits.later {place : Place δ} {history history' : List String} {schema schema' : δ}
    {through : Option (List String)} (h : place.Fits body history schema through) (hout : place.migrates = false)
    (hsub : history ⊆ history') : place.Fits body history' schema' through := by
  cases place with
  | acquired => trivial
  | closed ok => exact fun hok => (h hok).mono hsub
  | _ => cases hout

/-- **A migration takes effect.** -/
theorem World.Inv.commits (hnodup : names.Nodup) (h : w.Inv body names schema) (hp : w.processes x = some p)
    {name : String} {rest : List String} {after : δ} (hplace : p.place = .recorded name rest after) {place : Place δ}
    (hfits : Seen (w.history ++ [name]) p.names rest → place.Fits body (w.history ++ [name]) after p.names) :
    ((w.commit name after).setPlace x p place).Inv body names schema := by
  have hat := h.fits x p hp
  have hholder := h.locked x p hp (by rw [hplace]; rfl)
  rw [hplace] at hat
  obtain ⟨hseen, hname, hbody⟩ := hat
  have hsub : w.history ⊆ w.history ++ [name] := List.subset_append_left _ _
  refine { releases := ?_, order := ?_, recorded := ?_, schema := ?_, locked := ?_, fits := ?_ }
  · intro y q hq
    cases process_of_setPlace hq with
    | inl hself =>
      rw [hself.2]
      exact h.releases x p hp
    | inr hother => exact h.releases y q hother.2
  · obtain ⟨done, hnames, hdone⟩ := hseen
    have hrest : done ++ name :: rest <+: names := (namesThrough_initial hnames).trans (h.releases x p hp)
    have heq := history_eq_done hnodup h.order hrest hdone hname
    show w.history ++ [name] <+: names
    rw [heq]
    refine List.IsPrefix.trans ?_ hrest
    exact ⟨rest, by rw [List.append_assoc]; rfl⟩
  · show w.recorded.getD [] ++ [name] = w.history ++ [name]
    rw [h.recorded]
  · show replay body (w.history ++ [name]) schema = some after
    rw [replay_append, h.schema]
    exact hbody
  · intro y q hq hmigrates
    cases process_of_setPlace hq with
    | inl hself =>
      rw [hself.1]
      exact hholder
    | inr hother => exact h.locked y q hother.2 hmigrates
  · intro y q hq
    cases process_of_setPlace hq with
    | inl hself =>
      rw [hself.2]
      exact hfits ((hseen.mono hsub).next (List.mem_append_right _ List.mem_cons_self))
    | inr hother =>
      -- the others are not between their locks and unlocks
      refine (h.fits y q hother.2).later ?_ hsub
      cases hmigrates : q.place.migrates with
      | false => rfl
      | true =>
        have hboth := (h.locked y q hother.2 hmigrates).symm.trans hholder
        exact absurd (Option.some.inj hboth) hother.1

/-- A process that is there. -/
theorem onProcess_inv {step : Process δ → World δ} (h : w.Inv body names schema)
    (hstep : ∀ p, w.processes x = some p → (step p).Inv body names schema) :
    (w.onProcess x step).Inv body names schema := by
  unfold World.onProcess
  cases hp : w.processes x with
  | none => exact h
  | some p => exact hstep p hp

end

/-- The release a process is of ships no more than the newest. -/
def Action.Ships (names : List String) : Action → Prop
  | .connect _ entries _ => versions entries <+: names
  | _ => True

/-- **Each step keeps the invariant.** -/
theorem step_inv {body : String → δ → Option δ} {names : List String} {schema : δ} (hnodup : names.Nodup) {w : World δ}
    (h : w.Inv body names schema) (a : Action) (ha : a.Ships names) : (w.step body a).Inv body names schema := by
  cases a with
  | connect x entries last =>
    show (w.connect x entries last).Inv body names schema
    unfold World.connect
    cases hx : w.processes x with
    | some p => exact h
    | none =>
      have hnew : ∀ {y q}, (Function.update w.processes x (some ⟨entries, last, .acquired⟩)) y = some q →
          q = ⟨entries, last, .acquired⟩ ∨ w.processes y = some q := by
        intro y q hq
        by_cases hy : y = x
        · rw [hy, Function.update_self] at hq
          exact Or.inl (Option.some.inj hq).symm
        · rw [Function.update_of_ne hy] at hq
          exact Or.inr hq
      refine { h with releases := ?_, locked := ?_, fits := ?_ }
      · intro y q hq
        cases hnew hq with
        | inl heq =>
          rw [heq]
          exact ha
        | inr hold => exact h.releases y q hold
      · intro y q hq hmigrates
        cases hnew hq with
        | inl heq =>
          rw [heq] at hmigrates
          cases hmigrates
        | inr hold => exact h.locked y q hold hmigrates
      · intro y q hq
        cases hnew hq with
        | inl heq =>
          rw [heq]
          trivial
        | inr hold => exact h.fits y q hold
  | lock x =>
    refine onProcess_inv h fun p hp => ?_
    cases hplace : p.place with
    | acquired =>
      dsimp only
      by_cases hfree : w.holder = none
      · rw [if_pos hfree]
        refine h.moves hp rfl (fun y _ hy => ?_) (fun _ => rfl) trivial
        rw [hfree] at hy
        cases hy
      · rw [if_neg hfree]
        exact h
    | _ => exact h
  | create x =>
    refine onProcess_inv h fun p hp => ?_
    cases hplace : p.place with
    | locked =>
      have hfits : Place.Fits body w.history w.schema p.names .created := trivial
      have hsame : (some (w.recorded.getD [])).getD [] = w.recorded.getD [] := rfl
      exact h.moves hp hsame (fun _ _ hy => hy) (fun _ => h.locked x p hp (by rw [hplace]; rfl)) hfits
    | _ => exact h
  | list x =>
    refine onProcess_inv h fun p hp => ?_
    cases hplace : p.place with
    | created =>
      dsimp only
      cases hnames : p.names with
      | some through =>
        refine h.stays hp (fun _ => by rw [hplace]; rfl) ?_
        exact ⟨[], hnames, fun v hv => absurd hv List.not_mem_nil⟩
      | none => exact h.stays hp (fun _ => by rw [hplace]; rfl) fun hok => by cases hok
    | _ => exact h
  | check x =>
    refine onProcess_inv h fun p hp => ?_
    have hat := h.fits x p hp
    cases hplace : p.place with
    | next rest =>
      rw [hplace] at hat
      cases rest with
      | nil => exact h.stays hp (fun _ => by rw [hplace]; rfl) fun _ => hat
      | cons name rest =>
        dsimp only
        by_cases hin : name ∈ w.recorded.getD []
        · rw [if_pos hin]
          rw [h.recorded] at hin
          exact h.stays hp (fun _ => by rw [hplace]; rfl) (Seen.next hat hin)
        · rw [if_neg hin]
          rw [h.recorded] at hin
          exact h.stays hp (fun _ => by rw [hplace]; rfl) ⟨hat, hin⟩
    | _ => exact h
  | begin x =>
    refine onProcess_inv h fun p hp => ?_
    have hat := h.fits x p hp
    cases hplace : p.place with
    | missing name rest =>
      rw [hplace] at hat
      exact h.stays hp (fun _ => by rw [hplace]; rfl) hat
    | _ => exact h
  | apply x =>
    refine onProcess_inv h fun p hp => ?_
    have hat := h.fits x p hp
    cases hplace : p.place with
    | began name rest =>
      rw [hplace] at hat
      dsimp only
      cases hbody : body name w.schema with
      | some after => exact h.stays hp (fun _ => by rw [hplace]; rfl) ⟨hat.1, hat.2, hbody⟩
      | none => exact h.stays hp (fun _ => by rw [hplace]; rfl) fun hok => by cases hok
    | _ => exact h
  | record x =>
    refine onProcess_inv h fun p hp => ?_
    have hat := h.fits x p hp
    cases hplace : p.place with
    | applied name rest after =>
      rw [hplace] at hat
      dsimp only
      by_cases hin : name ∈ w.recorded.getD []
      · rw [if_pos hin]
        exact h.stays hp (fun _ => by rw [hplace]; rfl) fun hok => by cases hok
      · rw [if_neg hin]
        exact h.stays hp (fun _ => by rw [hplace]; rfl) hat
    | _ => exact h
  | commit x =>
    refine onProcess_inv h fun p hp => ?_
    cases hplace : p.place with
    | recorded name rest after => exact h.commits hnodup hp hplace fun hseen => hseen
    | _ => exact h
  | lost x =>
    refine onProcess_inv h fun p hp => ?_
    cases hplace : p.place with
    | recorded name rest after => exact h.commits hnodup hp hplace fun _ hok => by cases hok
    | _ => exact h
  | fail x =>
    refine onProcess_inv h fun p hp => ?_
    cases hplace : p.place with
    | acquired => exact h.stays hp (fun hm => by cases hm) fun hok => by cases hok
    | closed ok => exact h
    | unlocking ok => exact h
    | _ => exact h.stays hp (fun _ => by rw [hplace]; rfl) fun hok => by cases hok
  | unlock x =>
    refine onProcess_inv h fun p hp => ?_
    have hat := h.fits x p hp
    cases hplace : p.place with
    | unlocking ok =>
      rw [hplace] at hat
      exact h.free hp rfl hat
    | _ => exact h
  | crash x =>
    refine onProcess_inv h fun p hp => ?_
    cases hplace : p.place with
    | closed ok => exact h
    | _ => exact h.free hp rfl fun hok => by cases hok

/-! ## §7. Runs. -/

/-- Nothing is recorded. -/
theorem World.Inv.initial (body : String → δ → Option δ) (names : List String) (schema : δ) :
    (World.initial schema).Inv body names schema where
  releases _ _ hp := by cases hp
  order := List.nil_prefix
  recorded := rfl
  schema := rfl
  locked _ _ hp := by cases hp
  fits _ _ hp := by cases hp

theorem versions_nodup {entries : List Entry} (h : (entries.map Entry.name).Nodup) : (versions entries).Nodup := by
  unfold versions
  rw [(List.mergeSort_perm _ _).nodup_iff]
  exact h.sublist (List.filter_sublist.map _)

theorem versions_sorted {entries : List Entry} (h : (entries.map Entry.name).Nodup) :
    (versions entries).Pairwise (· < ·) := by
  have hle : (versions entries).Pairwise fun a b => decide (a ≤ b) = true := by
    refine List.pairwise_mergeSort (fun a b c hab hbc => ?_) (fun a b => ?_) _
    · exact decide_eq_true (le_trans (of_decide_eq_true hab) (of_decide_eq_true hbc))
    · rw [Bool.or_eq_true, decide_eq_true_eq, decide_eq_true_eq]
      exact le_total a b
  refine (hle.and (versions_nodup h)).imp fun {a b} hab => ?_
  exact lt_of_le_of_ne (of_decide_eq_true hab.1) hab.2

/-- **Any number of processes migrate the database once.**  Whatever they do, and whatever
happens to them, what took effect is a beginning of the newest release's migrations, in
the order of their names and each once; `schema_migrations` names exactly these; the schema
is what their bodies make of the one the database had; one process at a time is at it;
and one that ends well leaves all its migrations in effect. -/
theorem migrate_sound (body : String → δ → Option δ) (schema : δ) {newest : List Entry}
    (hnames : (newest.map Entry.name).Nodup) (actions : List Action)
    (hships : ∀ a ∈ actions, a.Ships (versions newest)) :
    (actions.foldl (World.step body) (World.initial schema)).Sound body newest schema := by
  have hinv : (actions.foldl (World.step body) (World.initial schema)).Inv body (versions newest) schema :=
    along_induction (I := fun w : World δ => w.Inv body (versions newest) schema)
      (fun w a h ha => step_inv (versions_nodup hnames) h a ha) actions
      (World.Inv.initial body (versions newest) schema) (along_of_forall actions fun _ a ha => hships a ha)
  refine { order := hinv.order, sorted := ?_, recorded := hinv.recorded, schema := hinv.schema, exclusive := ?_,
           finished := ?_ }
  · exact (versions_sorted hnames).sublist hinv.order.sublist
  · intro x y p q hp hq hx hy
    exact Option.some.inj ((hinv.locked x p hp hx).symm.trans (hinv.locked y q hq hy))
  · intro x p hp hplace
    have hat := hinv.fits x p hp
    rw [hplace] at hat
    obtain ⟨done, hdone, hin⟩ := hat rfl
    refine ⟨done ++ [], hdone, fun name hname => hin name ?_⟩
    rwa [List.append_nil] at hname

namespace Sample

/-- A release with two migrations. -/
def release : List Entry := [⟨"001_initial.sql", false⟩, ⟨"002_more.sql", false⟩, ⟨"README.md", false⟩]

/-- Two processes: the first stops after the first migration, the second finishes. -/
def race : List Action :=
  [.connect 0 release "001_initial.sql", .connect 1 release "", .lock 0, .lock 1, .create 0, .list 0, .check 0, .begin 0,
    .apply 0, .record 0, .commit 0, .check 0, .unlock 0, .lock 1, .create 1, .list 1, .check 1, .check 1, .begin 1,
    .apply 1, .record 1, .commit 1, .check 1, .unlock 1]

end Sample

open Sample in
theorem migrate_sound_race :
    (race.foldl (World.step fun name schema => some (name :: schema)) (World.initial [])).Sound
      (fun name schema => some (name :: schema)) release [] := by
  refine migrate_sound _ [] (by decide) race fun a ha => ?_
  simp only [race, List.mem_cons, List.not_mem_nil, or_false] at ha
  rcases ha with rfl | rfl | rfl | rfl | rfl | rfl | rfl | rfl | rfl | rfl | rfl | rfl | rfl | rfl | rfl | rfl | rfl | rfl
    | rfl | rfl | rfl | rfl | rfl | rfl
  all_goals first | exact List.prefix_rfl | trivial

end

end Momento.Migrations
