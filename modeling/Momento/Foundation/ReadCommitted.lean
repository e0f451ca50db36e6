/-
  Momento.Foundation.ReadCommitted

  **ONE TABLE UNDER CONCURRENT TRANSACTIONS**, as `READ COMMITTED` has it.  A
  transaction sees what is committed, its own uncommitted writes over it.  A row
  it has written (inserted, updated or deleted) is locked until it ends: nobody
  else can write a row under that key, by the row lock or by the unique index.

      snapshot   — the rows a statement sees, taken when it starts
      write      — one row written, or the statement waits
      commit     — the writes become what is committed
      discard    — the writes are gone

  A row remembers the insertion it goes back to (`birth`).  An update keeps it, so
  a statement that waited for a row of its snapshot can tell the row's newest
  version from another row under the same key.

  That no two transactions hold one key is a field of the table.  A savepoint is
  a second layer of writes; rolling back to it empties the layer.
-/
import Momento.Foundation.Table

namespace Foundation

variable {κ ρ : Type} [DecidableEq κ]

/-! ## §1. Writes over rows. -/

/-- A stored row, and which insertion it goes back to. -/
structure Held (ρ : Type) where
  birth : Nat
  row : ρ

/-- Uncommitted writes; `none` is a deleted row. -/
abbrev Writes (κ ρ : Type) : Type := Table κ (Option (Held ρ))

/-- The rows the writes leave. -/
def inserted (w : Writes κ ρ) : Table κ (Held ρ) := Table.filterMapRows (fun _ v => v) w

/-- The table under the writes. -/
def overlay (w : Writes κ ρ) (t : Table κ (Held ρ)) : Table κ (Held ρ) :=
  inserted w ∪ Table.deleteRows (fun k _ => decide (k ∈ w)) t

theorem lookup_inserted (w : Writes κ ρ) (k : κ) : (inserted w).lookup k = (w.lookup k).join := by
  unfold inserted
  rw [Table.lookup_filterMapRows]
  cases w.lookup k with
  | none => rfl
  | some v => rfl

/-- A row that the writes leave is one they put. -/
theorem mem_inserted_iff {w : Writes κ ρ} {k : κ} : k ∈ inserted w ↔ ∃ held, w.lookup k = some (some held) := by
  rw [← AList.lookup_isSome, lookup_inserted, Option.isSome_iff_exists]
  exact exists_congr fun held => Option.join_eq_some_iff

theorem mem_of_mem_inserted {w : Writes κ ρ} {k : κ} (h : k ∈ inserted w) : k ∈ w := by
  obtain ⟨held, hheld⟩ := mem_inserted_iff.mp h
  rw [← AList.lookup_isSome, hheld]
  rfl

/-- A key the writes say nothing about has the row it had. -/
theorem lookup_overlay (w : Writes κ ρ) (t : Table κ (Held ρ)) (k : κ) :
    (overlay w t).lookup k = (w.lookup k).getD (t.lookup k) := by
  unfold overlay
  by_cases hins : k ∈ inserted w
  · rw [AList.lookup_union_left hins, lookup_inserted]
    rw [← AList.lookup_isSome, lookup_inserted] at hins
    cases hw : w.lookup k with
    | none =>
      rw [hw] at hins
      cases hins
    | some v => rfl
  · rw [AList.lookup_union_right hins, Table.lookup_deleteRows]
    rw [← AList.lookup_isSome, lookup_inserted] at hins
    cases hw : w.lookup k with
    | none =>
      have hnot : k ∉ w := AList.lookup_eq_none.mp hw
      simp only [hnot, decide_false, Bool.not_false, Option.getD_none]
      cases t.lookup k with
      | none => rfl
      | some r => rfl
    | some v =>
      have hmem : k ∈ w := AList.lookup_isSome.mp (by rw [hw]; rfl)
      cases v with
      | some held =>
        rw [hw] at hins
        exact absurd rfl hins
      | none =>
        simp only [hmem, decide_true, Bool.not_true, Option.getD_some]
        cases t.lookup k with
        | none => rfl
        | some r => rfl

/-- Writes under keys the table does not have add their rows, and that is all. -/
theorem entries_overlay_fresh {w : Writes κ ρ} {t : Table κ (Held ρ)} (h : ∀ k ∈ w, k ∉ t) :
    (overlay w t).entries = (inserted w).entries ++ t.entries := by
  have hkeep : Table.deleteRows (fun k _ => decide (k ∈ w)) t = t := by
    apply AList.ext
    show t.entries.filter _ = t.entries
    refine List.filter_eq_self.mpr fun e he => ?_
    have hmem : e.1 ∈ t := List.mem_map.mpr ⟨e, he, rfl⟩
    have hnot : e.1 ∉ w := fun hw => h e.1 hw hmem
    simp [hnot]
  have hunion : ∀ l : List (Sigma fun _ : κ => Held ρ), (∀ e ∈ l, e.1 ∉ t) →
      List.kunion l t.entries = l ++ t.entries := by
    intro l
    induction l with
    | nil => exact fun _ => List.nil_kunion
    | cons e l ih =>
      intro hl
      have hfresh : e.1 ∉ t.entries.keys := hl e List.mem_cons_self
      rw [List.kunion_cons, List.kerase_of_notMem_keys hfresh,
        ih fun e' he' => hl e' (List.mem_cons_of_mem e he')]
      rfl
  unfold overlay
  rw [hkeep, AList.union_entries]
  refine hunion _ fun e he => h e.1 ?_
  have hsome : (inserted w).lookup e.1 = some e.2 := AList.mem_lookup_iff.mpr he
  rw [lookup_inserted] at hsome
  exact AList.lookup_isSome.mp (by
    cases hw : w.lookup e.1 with
    | none =>
      rw [hw] at hsome
      cases hsome
    | some v => rfl)

/-- What a list of writes leaves, the last ones first. -/
def replay (ws : List (Writes κ ρ)) : Table κ (Held ρ) := ws.foldr overlay ∅

/-! ## §2. The transactions of a table. -/

/-- The writes of one transaction, before its savepoint and after. -/
structure Work (κ ρ : Type) where
  outer : Writes κ ρ
  inner : Writes κ ρ

namespace Work

/-- Nothing is written. -/
def none : Work κ ρ := ⟨∅, ∅⟩

/-- What is written, a savepoint's over what was before. -/
def all (w : Work κ ρ) : Writes κ ρ := w.inner ∪ w.outer

@[simp] theorem all_none : (none : Work κ ρ).all = ∅ := AList.empty_union

/-- One more row written. -/
def put (w : Work κ ρ) (k : κ) (v : Option (Held ρ)) : Work κ ρ :=
  { w with inner := AList.insert k v w.inner }

@[simp] theorem all_put (w : Work κ ρ) (k : κ) (v : Option (Held ρ)) :
    (w.put k v).all = AList.insert k v w.all := AList.insert_union.symm

/-- `RELEASE SAVEPOINT`, and the next `SAVEPOINT`. -/
def release (w : Work κ ρ) : Work κ ρ := ⟨w.all, ∅⟩

@[simp] theorem all_release (w : Work κ ρ) : w.release.all = w.all := AList.empty_union

/-- `ROLLBACK TO SAVEPOINT`. -/
def rollback (w : Work κ ρ) : Work κ ρ := ⟨w.outer, ∅⟩

@[simp] theorem all_rollback (w : Work κ ρ) : w.rollback.all = w.outer := AList.empty_union

theorem mem_all_of_outer {w : Work κ ρ} {k : κ} (h : k ∈ w.outer) : k ∈ w.all :=
  AList.mem_union.mpr (.inr h)

end Work

/-- **A table under concurrent transactions.** -/
structure Relation (κ ρ : Type) [DecidableEq κ] where
  committed : Table κ (Held ρ)
  /-- The last birth given out. -/
  births : Nat
  works : Table Nat (Work κ ρ)
  /-- A key is held by one transaction. -/
  exclusive : ∀ x y wx wy k, works.lookup x = some wx → works.lookup y = some wy →
    k ∈ wx.all → k ∈ wy.all → x = y

namespace Relation

/-- Committed rows, and no transaction. -/
def ofRows (t : Table κ (Held ρ)) : Relation κ ρ := ⟨t, 0, ∅, fun _ _ _ _ _ h => by cases h⟩

/-- No rows. -/
def empty : Relation κ ρ := ofRows ∅

variable (r : Relation κ ρ) (x y : Nat) (k k' : κ)

/-- What a transaction has written. -/
def workOf : Work κ ρ := (r.works.lookup x).getD Work.none

/-- The transaction has written the row under the key. -/
def Holds : Prop := k ∈ (r.workOf x).all

instance : Decidable (r.Holds x k) := inferInstanceAs (Decidable (_ ∈ _))

/-- Nobody else holds the key. -/
def free : Bool := r.works.entries.all fun e => e.1 = x || !decide (k ∈ e.2.all)

/-- The rows the transaction sees now. -/
def snapshot : Table κ (Held ρ) := overlay (r.workOf x).all r.committed

/-- The row the transaction sees under the key. -/
def seen : Option (Held ρ) := ((r.workOf x).all.lookup k).getD (r.committed.lookup k)

/-- A snapshot is what is seen. -/
theorem lookup_snapshot : (r.snapshot x).lookup k = r.seen x k := lookup_overlay _ _ _

variable {r x y k k'}

theorem mem_all_of_lookup {w : Work κ ρ} (h : r.works.lookup x = some w) : r.workOf x = w := by
  unfold workOf
  rw [h]
  rfl

theorem lookup_of_holds (h : r.Holds x k) : r.works.lookup x = some (r.workOf x) := by
  unfold Holds workOf at *
  cases hw : r.works.lookup x with
  | none =>
    rw [hw, Option.getD_none, Work.all_none] at h
    exact absurd h (AList.notMem_empty k)
  | some w => rfl

/-- One writer holds a row. -/
theorem eq_of_holds (hx : r.Holds x k) (hy : r.Holds y k) : x = y :=
  r.exclusive x y _ _ k (lookup_of_holds hx) (lookup_of_holds hy) hx hy

theorem not_holds_of_free (h : r.free x k = true) (hne : y ≠ x) : ¬r.Holds y k := by
  intro hy
  have hentry := AList.mem_lookup_iff.mp (Option.mem_def.mpr (lookup_of_holds hy))
  have hfree := List.all_eq_true.mp h _ hentry
  have hmem : k ∈ (r.workOf y).all := hy
  simp [hne, hmem] at hfree

/-- Others' rows are seen as committed. -/
theorem seen_of_not_holds (h : ¬r.Holds x k) : r.seen x k = r.committed.lookup k := by
  unfold seen
  rw [AList.lookup_eq_none.mpr h]
  rfl

/-! ## §3. Steps. -/

variable (r x) in
/-- The transaction with other writes, under keys it holds or nobody does. -/
def withWork (w : Work κ ρ) (h : ∀ k ∈ w.all, r.Holds x k ∨ r.free x k = true) : Relation κ ρ where
  committed := r.committed
  births := r.births
  works := AList.insert x w r.works
  exclusive := by
    intro y z wy wz k hy hz hky hkz
    have hother : ∀ y wy, y ≠ x → (AList.insert x w r.works).lookup y = some wy → k ∈ wy.all →
        k ∈ w.all → False := by
      intro y wy hne hy hky hk
      rw [AList.lookup_insert_ne hne] at hy
      have hholds : r.Holds y k := by
        unfold Holds
        rw [mem_all_of_lookup hy]
        exact hky
      rcases h k hk with hown | hfree
      · exact hne (eq_of_holds hholds hown)
      · exact not_holds_of_free hfree hne hholds
    by_cases hyx : y = x
    · subst hyx
      obtain rfl := Option.some.inj ((AList.lookup_insert _).symm.trans hy)
      by_cases hzy : z = y
      · exact hzy.symm
      · exact (hother z wz hzy hz hkz hky).elim
    · by_cases hzx : z = x
      · subst hzx
        obtain rfl := Option.some.inj ((AList.lookup_insert _).symm.trans hz)
        exact (hother y wy hyx hy hky hkz).elim
      · rw [AList.lookup_insert_ne hyx] at hy
        rw [AList.lookup_insert_ne hzx] at hz
        exact r.exclusive y z wy wz k hy hz hky hkz

variable (r x k) in
/-- **One row written.**  The row is found under the lock, not in the snapshot;
where another transaction holds the key, the statement waits (`none`). -/
def write (f : Option (Held ρ) → Option (Held ρ)) : Option (Relation κ ρ) :=
  if h : r.free x k = true then
    some (r.withWork x ((r.workOf x).put k (f (r.seen x k))) (by
      intro k' hk'
      rw [Work.all_put, AList.mem_insert] at hk'
      rcases hk' with rfl | hk'
      · exact .inr h
      · exact .inl hk'))
  else none

variable (r x k) in
/-- An insertion: the write of a row with a birth of its own. -/
def insertRow (row : ρ) : Option (Relation κ ρ) :=
  (r.write x k fun _ => some ⟨r.births + 1, row⟩).map fun r' => { r' with births := r.births + 1 }

variable (r x k) in
/-- `ON CONFLICT DO UPDATE`: a row that is there keeps its birth. -/
def upsertRow (row : ρ) : Option (Relation κ ρ) :=
  match r.seen x k with
  | none => r.insertRow x k row
  | some held => r.write x k fun _ => some ⟨held.birth, row⟩

variable (r x) in
/-- `RELEASE SAVEPOINT`. -/
def release : Relation κ ρ :=
  r.withWork x (r.workOf x).release fun k hk => .inl (by rwa [Work.all_release] at hk)

variable (r x) in
/-- `ROLLBACK TO SAVEPOINT`. -/
def rollback : Relation κ ρ :=
  r.withWork x (r.workOf x).rollback fun k hk =>
    .inl (Work.mem_all_of_outer (by rwa [Work.all_rollback] at hk))

variable (r x) in
/-- The writes of a transaction that is over are gone. -/
def discard : Relation κ ρ where
  committed := r.committed
  births := r.births
  works := r.works.erase x
  exclusive := by
    intro y z wy wz k hy hz
    have hkept : ∀ y wy, (r.works.erase x).lookup y = some wy → r.works.lookup y = some wy := by
      intro y wy hy
      by_cases hyx : y = x
      · subst hyx
        rw [AList.lookup_erase] at hy
        cases hy
      · rwa [AList.lookup_erase_ne hyx] at hy
    exact r.exclusive y z wy wz k (hkept y wy hy) (hkept z wz hz)

variable (r x) in
/-- `COMMIT`: everybody sees what is written, and the locks go. -/
def commit : Relation κ ρ := { r.discard x with committed := r.snapshot x }

/-! ## §4. What a step does. -/

variable {r' : Relation κ ρ} {f : Option (Held ρ) → Option (Held ρ)} {row : ρ}

/-- The step is one of `x` alone, and commits nothing. -/
structure Private (x : Nat) (r r' : Relation κ ρ) : Prop where
  committed : r'.committed = r.committed
  others : ∀ y, y ≠ x → r'.workOf y = r.workOf y

theorem Private.refl (x : Nat) (r : Relation κ ρ) : Private x r r := ⟨rfl, fun _ _ => rfl⟩

variable (r x) in
theorem private_withWork (w : Work κ ρ) (h : ∀ k ∈ w.all, r.Holds x k ∨ r.free x k = true) :
    Private x r (r.withWork x w h) where
  committed := rfl
  others y hy := by
    show ((AList.insert x w r.works).lookup y).getD Work.none = _
    rw [AList.lookup_insert_ne hy]
    rfl

variable (r x) in
theorem workOf_withWork (w : Work κ ρ) (h : ∀ k ∈ w.all, r.Holds x k ∨ r.free x k = true) :
    (r.withWork x w h).workOf x = w := by
  show ((AList.insert x w r.works).lookup x).getD Work.none = w
  rw [AList.lookup_insert]
  rfl

/-- **What a write does**: nobody else held the key; the transaction does now. -/
theorem write_spec (h : r.write x k f = some r') :
    r.free x k = true ∧ Private x r r' ∧ r'.workOf x = (r.workOf x).put k (f (r.seen x k)) := by
  unfold write at h
  split at h
  next hfree =>
    obtain rfl := Option.some.inj h
    exact ⟨hfree, private_withWork r x _ _, workOf_withWork r x _ _⟩
  next => cases h

/-- An insert is private. -/
theorem insertRow_spec (h : r.insertRow x k row = some r') :
    r.free x k = true ∧ Private x r r'
      ∧ r'.workOf x = (r.workOf x).put k (some ⟨r.births + 1, row⟩) := by
  unfold insertRow at h
  obtain ⟨r₁, hwrite, rfl⟩ := Option.map_eq_some_iff.mp h
  obtain ⟨hfree, hprivate, hwork⟩ := write_spec hwrite
  exact ⟨hfree, ⟨hprivate.committed, hprivate.others⟩, hwork⟩

/-- An upsert is private. -/
theorem upsertRow_spec (h : r.upsertRow x k row = some r') :
    r.free x k = true ∧ Private x r r'
      ∧ ∃ birth, r'.workOf x = (r.workOf x).put k (some ⟨birth, row⟩) := by
  unfold upsertRow at h
  split at h
  next =>
    obtain ⟨hfree, hprivate, hwork⟩ := insertRow_spec h
    exact ⟨hfree, hprivate, _, hwork⟩
  next held =>
    obtain ⟨hfree, hprivate, hwork⟩ := write_spec h
    exact ⟨hfree, hprivate, _, hwork⟩

variable (r x) in
/-- A released savepoint is private. -/
theorem release_spec : Private x r (r.release x) ∧ (r.release x).workOf x = (r.workOf x).release :=
  ⟨private_withWork r x _ _, workOf_withWork r x _ _⟩

variable (r x) in
/-- So is a rolled back one. -/
theorem rollback_spec : Private x r (r.rollback x) ∧ (r.rollback x).workOf x = (r.workOf x).rollback :=
  ⟨private_withWork r x _ _, workOf_withWork r x _ _⟩

variable (r x) in
/-- An abort leaves no work. -/
theorem discard_spec : Private x r (r.discard x) ∧ (r.discard x).workOf x = Work.none := by
  refine ⟨⟨rfl, fun y hy => ?_⟩, ?_⟩
  · show ((r.works.erase x).lookup y).getD Work.none = _
    rw [AList.lookup_erase_ne hy]
    rfl
  · show ((r.works.erase x).lookup x).getD Work.none = _
    rw [AList.lookup_erase]
    rfl

variable (r x) in
/-- **What a commit does**: what the transaction saw is what there is. -/
theorem commit_spec :
    (∀ k, (r.commit x).committed.lookup k = r.seen x k) ∧ (r.commit x).workOf x = Work.none
      ∧ ∀ y, y ≠ x → (r.commit x).workOf y = r.workOf y := by
  obtain ⟨hprivate, hwork⟩ := r.discard_spec x
  exact ⟨fun k => r.lookup_snapshot x k, hwork, hprivate.others⟩

/-- A key that somebody else holds is as it was before a commit. -/
theorem lookup_commit_of_holds (h : r.Holds y k) (hne : y ≠ x) :
    (r.commit x).committed.lookup k = r.committed.lookup k := by
  rw [(r.commit_spec x).1, seen_of_not_holds]
  exact fun hx => hne (eq_of_holds h hx)

/-! ## §5. What is a transaction's own. -/

variable (r x k) in
/-- What the transaction has written under a key it holds, and what is committed
there. -/
def own : Option (Option (Held ρ) × Option (Held ρ)) :=
  ((r.workOf x).all.lookup k).map fun v => (v, r.committed.lookup k)

/-- What it sees is its own, else what is committed. -/
theorem seen_eq_own : r.seen x k = (r.own x k).elim (r.committed.lookup k) Prod.fst := by
  unfold seen own
  cases (r.workOf x).all.lookup k with
  | none => rfl
  | some v => rfl

theorem own_of_workOf_eq (hwork : r'.workOf x = r.workOf x)
    (hcommitted : ∀ k, r.Holds x k → r'.committed.lookup k = r.committed.lookup k) : r'.own x = r.own x := by
  funext k
  unfold own
  rw [hwork]
  cases hv : (r.workOf x).all.lookup k with
  | none => rfl
  | some v =>
    have hholds : r.Holds x k := AList.lookup_isSome.mp (by rw [hv]; rfl)
    rw [Option.map_some, Option.map_some, hcommitted k hholds]

/-- Nothing another transaction does alone touches it. -/
theorem Private.own_eq (h : Private x r r') (hne : y ≠ x) : r'.own y = r.own y :=
  own_of_workOf_eq (h.others y hne) fun k _ => by rw [h.committed]

/-- Nor does its commit: the keys are held. -/
theorem own_commit (hne : y ≠ x) : (r.commit x).own y = r.own y :=
  own_of_workOf_eq ((r.commit_spec x).2.2 y hne) fun _ hk => lookup_commit_of_holds hk hne

theorem own_of_none (h : r.workOf x = Work.none) : r.own x k = none := by
  unfold own
  rw [h, Work.all_none]
  rfl

/-- **A row written is one more of its own.** -/
theorem own_of_put {v : Option (Held ρ)} (hprivate : Private x r r') (hwork : r'.workOf x = (r.workOf x).put k v) :
    r'.own x = Function.update (r.own x) k (some (v, r.committed.lookup k)) := by
  funext k'
  unfold own
  rw [hwork, Work.all_put, hprivate.committed]
  by_cases hk : k' = k
  · subst hk
    rw [AList.lookup_insert, Function.update_self]
    rfl
  · rw [AList.lookup_insert_ne hk, Function.update_of_ne hk]

/-- What a commit leaves, in terms of what was its own. -/
theorem lookup_commit : (r.commit x).committed.lookup k = (r.own x k).elim (r.committed.lookup k) Prod.fst := by
  rw [(r.commit_spec x).1, seen_eq_own]

end Relation

end Foundation
