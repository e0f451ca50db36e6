/-
  Momento.Foundation.Table

  **KEYED TABLES.**  A relational table with a primary key is a finite
  association list whose keys are distinct; the distinctness is a field of the
  value (`AList`), so a table with two rows under one key cannot be written.

  The statement shapes the services use are functions on it:

      upsert       — INSERT … ON CONFLICT(key) DO UPDATE
      modifyRows   — UPDATE … SET … WHERE
      deleteRows   — DELETE … WHERE
      groupRows    — INSERT … SELECT … GROUP BY key
      replaceRows  — DELETE … WHERE, then INSERT … SELECT

  each with the lookup it leaves, and `sumRows` (SELECT sum(…)) with what an
  upsert adds to it.  `groupsInOrder` groups a plain list, each group where its
  first row stood.
-/
import Mathlib.Data.List.AList
import Mathlib.Data.List.Dedup
import Mathlib.Algebra.BigOperators.Group.List.Basic
import Mathlib.Algebra.BigOperators.Group.Finset.Basic
import Mathlib.Algebra.BigOperators.Group.Finset.Piecewise
import Mathlib.Data.Set.Card
import Mathlib.Tactic.Abel

namespace Foundation

/-- A table keyed by `κ` with rows `ρ`. -/
abbrev Table (κ ρ : Type) : Type := AList (fun _ : κ => ρ)

namespace Table

variable {κ ρ σ : Type} [DecidableEq κ]

/-! ## §1. INSERT … ON CONFLICT DO UPDATE. -/

/-- Insert `ins` under a fresh key, replace the row `r` already there by
`upd r`. -/
def upsert (k : κ) (ins : ρ) (upd : ρ → ρ) (t : Table κ ρ) : Table κ ρ :=
  AList.insert k ((t.lookup k).elim ins upd) t

@[simp] theorem lookup_upsert_self (k : κ) (ins : ρ) (upd : ρ → ρ)
    (t : Table κ ρ) :
    (t.upsert k ins upd).lookup k = some ((t.lookup k).elim ins upd) :=
  AList.lookup_insert t

theorem lookup_upsert_of_ne {k k' : κ} (h : k' ≠ k) (ins : ρ) (upd : ρ → ρ)
    (t : Table κ ρ) : (t.upsert k ins upd).lookup k' = t.lookup k' :=
  AList.lookup_insert_ne h

/-! ## §2. UPDATE … WHERE and DELETE … WHERE. -/

/-- Replace every row `r` under a key `k` by `f k r`. -/
def modifyRows (f : κ → ρ → ρ) (t : Table κ ρ) : Table κ ρ :=
  ⟨t.entries.map (Sigma.map id fun k r => f k r), by
    show (List.map Sigma.fst (List.map _ t.entries)).Nodup
    rw [List.map_map]
    exact t.nodupKeys⟩

/-- A row after an update. -/
theorem lookup_modifyRows (f : κ → ρ → ρ) (t : Table κ ρ) (k : κ) :
    (t.modifyRows f).lookup k = (t.lookup k).map (f k) :=
  List.dlookup_map₂ k

/-- Keep the rows `keep` is true of. -/
def keepRows (keep : κ → ρ → Bool) (t : Table κ ρ) : Table κ ρ :=
  ⟨t.entries.filter (fun e => keep e.1 e.2),
    t.nodupKeys.sublist List.filter_sublist⟩

theorem lookup_keepRows (keep : κ → ρ → Bool) (t : Table κ ρ) (k : κ) :
    (t.keepRows keep).lookup k = (t.lookup k).filter (keep k) := by
  have mem : ∀ r, r ∈ (t.keepRows keep).lookup k ↔ r ∈ (t.lookup k).filter (keep k) := by
    intro r
    rw [AList.mem_lookup_iff, Option.mem_filter_iff, AList.mem_lookup_iff]
    simp [keepRows]
  exact Option.ext mem

/-- Drop the rows `drop` is true of. -/
def deleteRows (drop : κ → ρ → Bool) (t : Table κ ρ) : Table κ ρ :=
  t.keepRows (fun k r => !drop k r)

/-- A row after a deletion. -/
theorem lookup_deleteRows (drop : κ → ρ → Bool) (t : Table κ ρ) (k : κ) :
    (t.deleteRows drop).lookup k = (t.lookup k).filter (fun r => !drop k r) :=
  lookup_keepRows _ t k

/-- The rows `f` gives something for, under their keys. -/
def filterMapRows (f : κ → ρ → Option σ) (t : Table κ ρ) : Table κ σ :=
  ⟨t.entries.filterMap (fun e => (f e.1 e.2).map (Sigma.mk e.1)), by
    refine List.Nodup.sublist ?_ t.nodupKeys
    show List.Sublist (List.map Sigma.fst _) (t.entries.map Sigma.fst)
    induction t.entries with
    | nil => exact List.Sublist.refl _
    | cons e rest ih =>
      rw [List.filterMap_cons]
      cases f e.1 e.2 with
      | none => exact ih.cons _
      | some r => exact ih.cons_cons _⟩

theorem lookup_filterMapRows (f : κ → ρ → Option σ) (t : Table κ ρ) (k : κ) :
    (t.filterMapRows f).lookup k = (t.lookup k).bind (f k) := by
  have mem : ∀ r, r ∈ (t.filterMapRows f).lookup k ↔ r ∈ (t.lookup k).bind (f k) := by
    intro r
    rw [AList.mem_lookup_iff]
    simp only [filterMapRows, List.mem_filterMap, Option.map_eq_some_iff, Sigma.mk.injEq,
      Option.mem_def, Option.bind_eq_some_iff]
    constructor
    · rintro ⟨⟨k', r'⟩, hmem, s, hs, rfl, hr⟩
      obtain rfl := eq_of_heq hr
      exact ⟨r', AList.mem_lookup_iff.mpr hmem, hs⟩
    · rintro ⟨r', hlookup, hs⟩
      exact ⟨⟨k, r'⟩, AList.mem_lookup_iff.mp hlookup, r, hs, rfl, HEq.rfl⟩
  exact Option.ext mem

/-- An update of every row, and a row that is new to the table. -/
theorem modifyRows_insert_fresh (f : κ → ρ → ρ) {k : κ} (r : ρ) {t : Table κ ρ} (h : k ∉ t) :
    modifyRows f (AList.insert k r t) = AList.insert k (f k r) (modifyRows f t) := by
  have hk : k ∉ modifyRows f t := by
    rw [← AList.lookup_eq_none, lookup_modifyRows, AList.lookup_eq_none.mpr h]
    rfl
  apply AList.ext
  rw [AList.entries_insert_of_notMem hk]
  show (AList.insert k r t).entries.map _ = _
  rw [AList.entries_insert_of_notMem h]
  rfl

theorem filterMapRows_insert_fresh {f : κ → ρ → Option σ} {k : κ} {r : ρ} {r' : σ}
    (hf : f k r = some r') {t : Table κ ρ} (h : k ∉ t) :
    filterMapRows f (AList.insert k r t) = AList.insert k r' (filterMapRows f t) := by
  have hk : k ∉ filterMapRows f t := by
    rw [← AList.lookup_eq_none, lookup_filterMapRows, AList.lookup_eq_none.mpr h]
    rfl
  apply AList.ext
  rw [AList.entries_insert_of_notMem hk]
  show (AList.insert k r t).entries.filterMap
    (fun e => (f e.1 e.2).map (Sigma.mk (β := fun _ => σ) e.1)) = _
  rw [AList.entries_insert_of_notMem h, List.filterMap_cons, hf]
  rfl

/-- All rows, or the first error among them. -/
def collect {ε : Type} (t : Table κ (Except ε ρ)) : Except ε (Table κ ρ) :=
  match t.entries.findSome? (fun e => match e.2 with | .error error => some error | .ok _ => none) with
  | some error => .error error
  | none => .ok (t.filterMapRows fun _ r => r.toOption)

theorem lookup_collect {ε : Type} {t : Table κ (Except ε ρ)} {t' : Table κ ρ}
    (h : t.collect = .ok t') (k : κ) : t.lookup k = (t'.lookup k).map Except.ok := by
  unfold collect at h
  split at h
  next => cases h
  next hnone =>
    obtain rfl := Except.ok.inj h
    rw [lookup_filterMapRows]
    cases hrow : t.lookup k with
    | none => rfl
    | some r =>
      have hmem := AList.mem_lookup_iff.mp hrow
      have hok := List.findSome?_eq_none_iff.mp hnone _ hmem
      cases r with
      | error e => cases hok
      | ok r => rfl

/-- The rows `covers` names go, the rows of `new` come. -/
def replaceRows (covers : κ → Bool) (new t : Table κ ρ) : Table κ ρ :=
  new ∪ t.deleteRows fun k _ => covers k

/-- A row of a refilled table. -/
theorem lookup_replaceRows {covers : κ → Bool} {new : Table κ ρ} (t : Table κ ρ)
    (hnew : ∀ k, covers k = false → new.lookup k = none) (k : κ) :
    (replaceRows covers new t).lookup k = if covers k then new.lookup k else t.lookup k := by
  unfold replaceRows
  by_cases hk : k ∈ new
  · rw [AList.lookup_union_left hk]
    cases hcovers : covers k with
    | true => rfl
    | false =>
      have hnone := AList.lookup_eq_none.mp (hnew k hcovers)
      exact absurd hk hnone
  · rw [AList.lookup_union_right hk, lookup_deleteRows]
    have hnone := AList.lookup_eq_none.mpr hk
    cases covers k with
    | true =>
      rw [hnone]
      cases t.lookup k with
      | none => rfl
      | some r => rfl
    | false =>
      cases t.lookup k with
      | none => rfl
      | some r => rfl

/-! ## §3. SELECT sum(…). -/

section Sum
variable {M : Type} [AddCommGroup M]

/-- The sum of `f` over all rows. -/
def sumRows (f : κ → ρ → M) (t : Table κ ρ) : M :=
  (t.entries.map (fun e => f e.1 e.2)).sum

/-- The part of the sum one key contributes. -/
def rowPart (f : κ → ρ → M) (t : Table κ ρ) (k : κ) : M :=
  (t.lookup k).elim 0 (f k)

theorem sumRows_erase (f : κ → ρ → M) (t : Table κ ρ) (k : κ) :
    sumRows f (t.erase k) + rowPart f t k = sumRows f t := by
  by_cases hk : k ∈ t.entries.keys
  · obtain ⟨r, l₁, l₂, hl₁, he, herase⟩ := List.exists_of_kerase hk
    have hr : t.lookup k = some r := by
      rw [← Option.mem_def, AList.mem_lookup_iff, he]
      simp
    have hcut : (t.erase k).entries = l₁ ++ l₂ := herase
    simp only [sumRows, rowPart, hr, hcut, he, Option.elim_some, List.map_append,
      List.sum_append, List.map_cons, List.sum_cons]
    abel
  · have hnone : t.lookup k = none := List.dlookup_eq_none.mpr hk
    have hcut : (t.erase k).entries = t.entries := List.kerase_of_notMem_keys hk
    simp [sumRows, rowPart, hnone, hcut]

/-- **What an upsert adds to a sum**: the new row's part less the old one's. -/
theorem sumRows_upsert (f : κ → ρ → M) (k : κ) (ins : ρ) (upd : ρ → ρ)
    (t : Table κ ρ) :
    sumRows f (t.upsert k ins upd)
      = sumRows f t + (f k ((t.lookup k).elim ins upd) - rowPart f t k) := by
  have hins : sumRows f (t.upsert k ins upd)
      = f k ((t.lookup k).elim ins upd) + sumRows f (t.erase k) := rfl
  rw [hins, ← sumRows_erase f t k]
  abel

/-- **What an update of one row adds to a sum.** -/
theorem sumRows_modifyRow (f : κ → ρ → M) (k : κ) (g : ρ → ρ) (t : Table κ ρ) :
    sumRows f (t.modifyRows fun k' r => if k' = k then g r else r)
      = sumRows f t + ((t.lookup k).elim 0 fun r => f k (g r) - f k r) := by
  have hlist : ∀ l : List (Sigma fun _ : κ => ρ), l.NodupKeys →
      (l.map fun e => f e.1 (if e.1 = k then g e.2 else e.2)).sum
        = (l.map fun e => f e.1 e.2).sum + ((l.dlookup k).elim 0 fun r => f k (g r) - f k r) := by
    intro l hl
    induction l with
    | nil => simp
    | cons e l ih =>
      obtain ⟨k', r⟩ := e
      obtain ⟨hnot, hl⟩ := List.nodupKeys_cons.mp hl
      rw [List.map_cons, List.sum_cons, ih hl, List.map_cons, List.sum_cons]
      by_cases hk : k' = k
      · subst hk
        rw [List.dlookup_eq_none.mpr hnot, List.dlookup_cons_eq]
        simp only [if_true, Option.elim_none, Option.elim_some]
        abel
      · rw [List.dlookup_cons_ne l ⟨k', r⟩ (Ne.symm hk)]
        simp only [hk, if_false]
        abel
  have hentries : (t.modifyRows fun k' r => if k' = k then g r else r).entries
      = t.entries.map (Sigma.map id fun k' r => if k' = k then g r else r) := rfl
  unfold sumRows
  rw [hentries, List.map_map]
  exact hlist t.entries t.nodupKeys

/-- What a row under a fresh key adds to a sum. -/
theorem sumRows_insert_fresh (f : κ → ρ → M) {k : κ} (r : ρ) {t : Table κ ρ} (h : k ∉ t) :
    sumRows f (AList.insert k r t) = f k r + sumRows f t := by
  unfold sumRows
  rw [AList.entries_insert_of_notMem h, List.map_cons, List.sum_cons]

end Sum

/-! ### SELECT count(column). -/

/-- `count(f)`: the rows `f` is not null in. -/
def countRows (f : ρ → Option σ) (t : Table κ ρ) : Nat := t.entries.countP fun e => (f e.2).isSome

/-- A count is the number of keys with a value there. -/
theorem countRows_eq_ncard (f : ρ → Option σ) (t : Table κ ρ) :
    t.countRows f = {k | ((t.lookup k).bind f).isSome}.ncard := by
  have hset : {k | ((t.lookup k).bind f).isSome}
      = ((t.entries.filter fun e => (f e.2).isSome).map Sigma.fst).toFinset := by
    ext k
    simp only [Set.mem_ofPred_eq, List.coe_toFinset, List.mem_map, List.mem_filter]
    constructor
    · intro h
      obtain ⟨v, hv⟩ := Option.isSome_iff_exists.mp h
      obtain ⟨r, hr, hf⟩ := Option.bind_eq_some_iff.mp hv
      exact ⟨⟨k, r⟩, ⟨AList.mem_lookup_iff.mp hr, by rw [hf]; rfl⟩, rfl⟩
    · rintro ⟨⟨k', r⟩, ⟨hr, hf⟩, rfl⟩
      rw [AList.mem_lookup_iff.mpr hr]
      exact hf
  have hnodup : ((t.entries.filter fun e => (f e.2).isSome).map Sigma.fst).Nodup :=
    t.nodupKeys.sublist List.filter_sublist
  rw [hset, Set.ncard_coe_finset, List.toFinset_card_of_nodup hnodup, List.length_map,
    countRows, List.countP_eq_length_filter]

/-! ## §4. INSERT … SELECT … GROUP BY. -/

/-- The rows of one group. -/
def groupOf (key : σ → κ) (rows : List σ) (k : κ) : List σ :=
  rows.filter (fun r => key r = k)

/-- One row `agg k g` for every key `k` that occurs, `g` being its group. -/
def groupRows (key : σ → κ) (agg : κ → List σ → ρ) (rows : List σ) : Table κ ρ :=
  ⟨(rows.map key).dedup.map (fun k => ⟨k, agg k (groupOf key rows k)⟩), by
    simpa [List.NodupKeys, List.keys, Function.comp_def] using
      List.nodup_dedup (rows.map key)⟩

theorem groupOf_eq_nil_iff (key : σ → κ) (rows : List σ) (k : κ) :
    groupOf key rows k = [] ↔ k ∉ rows.map key := by
  simp [groupOf, List.filter_eq_nil_iff]

/-- A group's row. -/
theorem lookup_groupRows (key : σ → κ) (agg : κ → List σ → ρ) (rows : List σ)
    (k : κ) :
    (groupRows key agg rows).lookup k
      = if groupOf key rows k = [] then none else some (agg k (groupOf key rows k)) := by
  by_cases hk : k ∈ rows.map key
  · have hne : groupOf key rows k ≠ [] := fun h => (groupOf_eq_nil_iff key rows k).mp h hk
    rw [if_neg hne, ← Option.mem_def, AList.mem_lookup_iff]
    refine List.mem_map.mpr ⟨k, List.mem_dedup.mpr hk, rfl⟩
  · rw [if_pos ((groupOf_eq_nil_iff key rows k).mpr hk), AList.lookup_eq_none]
    intro hmem
    apply hk
    have hkeys : k ∈ (groupRows key agg rows).keys := hmem
    simp only [groupRows, AList.keys, List.keys, List.map_map] at hkeys
    obtain ⟨k', hk', rfl⟩ := List.mem_map.mp hkeys
    exact List.mem_dedup.mp hk'

theorem groupOf_cons (key : σ → κ) (r : σ) (rows : List σ) (k : κ) :
    groupOf key (r :: rows) k
      = if key r = k then r :: groupOf key rows k else groupOf key rows k := by
  simp only [groupOf, List.filter_cons, decide_eq_true_eq]

/-- A restriction every row of the group meets does not change the group. -/
theorem groupOf_filter {key : σ → κ} {k : κ} {keep : σ → Bool} {rows : List σ}
    (hkeep : ∀ r, key r = k → keep r = true) :
    groupOf key (rows.filter keep) k = groupOf key rows k := by
  unfold groupOf
  rw [List.filter_filter]
  congr 1
  funext r
  by_cases hr : key r = k
  · simp [hr, hkeep r hr]
  · simp [hr]

/-- `count(*) FILTER(WHERE …)` of one more row. -/
theorem countP_cons_toNat (p : σ → Bool) (r : σ) (rows : List σ) :
    (r :: rows).countP p = rows.countP p + (p r).toNat := by
  rw [List.countP_cons]
  cases p r with
  | true => rfl
  | false => rfl

/-- A sum over the groups is the sum over the rows. -/
theorem sumRows_groupRows {M : Type} [AddCommGroup M] (key : σ → κ) {agg : κ → List σ → ρ} {f : κ → ρ → M}
    {w : σ → M} (hf : ∀ k group, f k (agg k group) = (group.map w).sum) (rows : List σ) :
    sumRows f (groupRows key agg rows) = (rows.map w).sum := by
  have hgroups : sumRows f (groupRows key agg rows)
      = ∑ k ∈ (rows.map key).toFinset, ((groupOf key rows k).map w).sum := by
    have hkeys : (rows.map key).toFinset = (rows.map key).dedup.toFinset := by
      ext k
      rw [List.mem_toFinset, List.mem_toFinset, List.mem_dedup]
    simp only [sumRows, groupRows, List.map_map, Function.comp_def, hf]
    rw [hkeys]
    exact (List.sum_toFinset _ (List.nodup_dedup _)).symm
  have hsplit : ∀ (keys : Finset κ) (rows : List σ), (∀ r ∈ rows, key r ∈ keys) →
      ∑ k ∈ keys, ((groupOf key rows k).map w).sum = (rows.map w).sum := by
    intro keys rows
    induction rows with
    | nil => simp [groupOf]
    | cons r rows ih =>
      intro hkeys
      -- the new row is in one group, the one of its key
      have hcons : ∀ k, ((groupOf key (r :: rows) k).map w).sum
          = (if key r = k then w r else 0) + ((groupOf key rows k).map w).sum := by
        intro k
        by_cases hk : key r = k <;> simp [groupOf, hk]
      simp only [hcons, Finset.sum_add_distrib]
      rw [ih fun r' hr' => hkeys r' (List.mem_cons_of_mem _ hr'), Finset.sum_ite_eq keys (key r) fun _ => w r,
        if_pos (hkeys r List.mem_cons_self), List.map_cons, List.sum_cons]
  rw [hgroups]
  apply hsplit
  intro r hr
  exact List.mem_toFinset.mpr (List.mem_map_of_mem hr)

/-! ## §5. Groups in order of first appearance.

A map filled in one pass over the rows, read back in insertion order. -/

/-- One more row for the groups. -/
def addToGroup (key : σ → κ) (r : σ) : List (κ × List σ) → List (κ × List σ)
  | [] => [(key r, [r])]
  | (k, g) :: rest => if k = key r then (k, g ++ [r]) :: rest else (k, g) :: addToGroup key r rest

/-- The groups of the rows, the group of the first row first. -/
def groupsInOrder (key : σ → κ) (rows : List σ) : List (List σ) :=
  (rows.foldl (fun groups r => addToGroup key r groups) []).map Prod.snd

theorem addToGroup_perm (key : σ → κ) (r : σ) (groups : List (κ × List σ)) :
    ((addToGroup key r groups).map Prod.snd).flatten.Perm (r :: (groups.map Prod.snd).flatten) := by
  induction groups with
  | nil => exact .refl _
  | cons kg rest ih =>
    obtain ⟨k, g⟩ := kg
    unfold addToGroup
    split
    · simp only [List.map_cons, List.flatten_cons, List.append_assoc]
      exact List.perm_middle
    · simp only [List.map_cons, List.flatten_cons]
      exact (ih.append_left g).trans List.perm_middle

/-- **Grouping loses no row and adds none.** -/
theorem groupsInOrder_perm (key : σ → κ) (rows : List σ) :
    (groupsInOrder key rows).flatten.Perm rows := by
  have hfold : ∀ groups : List (κ × List σ),
      ((rows.foldl (fun groups r => addToGroup key r groups) groups).map Prod.snd).flatten.Perm
        ((groups.map Prod.snd).flatten ++ rows) := by
    induction rows with
    | nil => intro groups; simp
    | cons r rows ih =>
      intro groups
      refine (ih _).trans ?_
      refine ((addToGroup_perm key r groups).append_right rows).trans ?_
      exact List.perm_middle.symm
  exact hfold []

/-- A group after one row more. -/
theorem groupOf_concat (key : σ → κ) (rows : List σ) (r : σ) (k : κ) :
    groupOf key (rows ++ [r]) k = groupOf key rows k ++ (if key r = k then [r] else []) := by
  by_cases hk : key r = k <;> simp [groupOf, hk]

/-- One more row is in the group of its key, which is a new one or one of the old. -/
theorem addToGroup_groups (key : σ → κ) (r : σ) (rows : List σ) {ks : List κ} (hnodup : ks.Nodup)
    (hnew : key r ∉ ks → groupOf key rows (key r) = []) :
    addToGroup key r (ks.map fun k => (k, groupOf key rows k))
      = (if key r ∈ ks then ks else ks ++ [key r]).map fun k => (k, groupOf key (rows ++ [r]) k) := by
  induction ks with
  | nil =>
    have hempty := hnew List.not_mem_nil
    simp [addToGroup, groupOf_concat, hempty]
  | cons k ks ih =>
    obtain ⟨hk, hnodup⟩ := List.nodup_cons.mp hnodup
    simp only [List.map_cons, addToGroup]
    by_cases hkey : k = key r
    · -- the groups behind it stay as they are
      subst hkey
      rw [if_pos rfl, if_pos List.mem_cons_self, List.map_cons, groupOf_concat, if_pos rfl]
      congr 1
      refine List.map_congr_left fun k' hk' => ?_
      have hother : key r ≠ k' := fun h => hk (h ▸ hk')
      rw [groupOf_concat, if_neg hother, List.append_nil]
    · have hrest := ih hnodup fun hmem => hnew fun h => (List.mem_cons.mp h).elim (Ne.symm hkey) hmem
      rw [if_neg hkey, hrest]
      have hsame : groupOf key (rows ++ [r]) k = groupOf key rows k := by
        rw [groupOf_concat, if_neg (Ne.symm hkey), List.append_nil]
      by_cases hmem : key r ∈ ks
      · rw [if_pos hmem, if_pos (List.mem_cons_of_mem _ hmem), List.map_cons, hsame]
      · have hmem' : key r ∉ k :: ks := fun h => (List.mem_cons.mp h).elim (Ne.symm hkey) hmem
        rw [if_neg hmem, if_neg hmem', List.cons_append, List.map_cons, hsame]

/-- **The map filled in one pass holds, for each key, the rows of that key in order.** -/
theorem foldl_addToGroup (key : σ → κ) (rows : List σ) :
    ∃ ks : List κ, ks.Nodup ∧ (∀ k, k ∈ ks ↔ k ∈ rows.map key) ∧
      rows.foldl (fun groups r => addToGroup key r groups) []
        = ks.map fun k => (k, groupOf key rows k) := by
  induction rows using List.reverseRecOn with
  | nil => exact ⟨[], List.nodup_nil, fun _ => Iff.rfl, rfl⟩
  | append_singleton rows r ih =>
    obtain ⟨ks, hnodup, hmem, hfold⟩ := ih
    have hnew : key r ∉ ks → groupOf key rows (key r) = [] := fun h =>
      (groupOf_eq_nil_iff key rows (key r)).mpr fun hr => h ((hmem _).mpr hr)
    refine ⟨if key r ∈ ks then ks else ks ++ [key r], ?_, ?_, ?_⟩
    · split
      · exact hnodup
      next h => exact hnodup.append (List.nodup_singleton _) (by simpa using h)
    · intro k
      rw [List.map_append, List.mem_append, ← hmem k]
      split
      next h =>
        constructor
        · exact Or.inl
        · rintro (hk | hk)
          · exact hk
          · rw [List.mem_singleton.mp hk]
            exact h
      next => exact List.mem_append
    · rw [List.foldl_append, hfold]
      exact addToGroup_groups key r rows hnodup hnew

/-- A group in order is the rows of one key, and has one. -/
theorem groupsInOrder_spec (key : σ → κ) (rows : List σ) :
    ∀ g ∈ groupsInOrder key rows, g ≠ [] ∧ ∀ r ∈ g, ∀ r' ∈ g, key r = key r' := by
  obtain ⟨ks, -, hmem, hfold⟩ := foldl_addToGroup key rows
  intro g hg
  rw [groupsInOrder, hfold, List.map_map] at hg
  obtain ⟨k, hk, rfl⟩ := List.mem_map.mp hg
  show groupOf key rows k ≠ [] ∧ ∀ r ∈ groupOf key rows k, ∀ r' ∈ groupOf key rows k, key r = key r'
  have hkey : ∀ r ∈ groupOf key rows k, key r = k := fun r hr => of_decide_eq_true (List.mem_filter.mp hr).2
  refine ⟨fun h => (groupOf_eq_nil_iff key rows k).mp h ((hmem k).mp hk), ?_⟩
  intro r hr r' hr'
  rw [hkey r hr, hkey r' hr']

/-- The rows of a group are in the order they came in, -/
theorem groupsInOrder_sublist (key : σ → κ) (rows : List σ) :
    ∀ g ∈ groupsInOrder key rows, g.Sublist rows := by
  obtain ⟨ks, -, -, hfold⟩ := foldl_addToGroup key rows
  intro g hg
  rw [groupsInOrder, hfold, List.map_map] at hg
  obtain ⟨k, -, rfl⟩ := List.mem_map.mp hg
  exact List.filter_sublist

/-- and rows of two groups have two keys. -/
theorem groupsInOrder_pairwise (key : σ → κ) (rows : List σ) :
    (groupsInOrder key rows).Pairwise fun g g' => ∀ r ∈ g, ∀ r' ∈ g', key r ≠ key r' := by
  obtain ⟨ks, hnodup, -, hfold⟩ := foldl_addToGroup key rows
  rw [groupsInOrder, hfold, List.map_map, List.pairwise_map]
  refine hnodup.imp fun {k k'} hne r hr r' hr' => ?_
  have hk : key r = k := of_decide_eq_true (List.mem_filter.mp hr).2
  have hk' : key r' = k' := of_decide_eq_true (List.mem_filter.mp hr').2
  rw [hk, hk']
  exact hne

/-- A row is in the group of its key. -/
theorem groupOf_mem_groupsInOrder (key : σ → κ) {rows : List σ} {r : σ} (hr : r ∈ rows) :
    groupOf key rows (key r) ∈ groupsInOrder key rows := by
  obtain ⟨ks, -, hmem, hfold⟩ := foldl_addToGroup key rows
  rw [groupsInOrder, hfold, List.map_map]
  exact List.mem_map.mpr ⟨key r, (hmem _).mpr (List.mem_map_of_mem hr), rfl⟩

theorem groupsInOrder_ne_nil (key : σ → κ) {rows : List σ} (h : rows ≠ []) :
    groupsInOrder key rows ≠ [] := by
  intro hnil
  have hperm := groupsInOrder_perm key rows
  rw [hnil] at hperm
  exact h hperm.symm.eq_nil

/-! ## §6. One row of many. -/

/-- Where a row stands, and what removing or replacing it leaves. -/
theorem split_of_getElem? {rows : List σ} {i : Nat} {r : σ} (h : rows[i]? = some r) :
    ∃ before after, rows = before ++ r :: after ∧ rows.eraseIdx i = before ++ after
      ∧ ∀ r', rows.set i r' = before ++ r' :: after := by
  obtain ⟨hlt, hget⟩ := List.getElem?_eq_some_iff.mp h
  refine ⟨rows.take i, rows.drop (i + 1), ?_, List.eraseIdx_eq_take_drop_succ rows i, ?_⟩
  · rw [← hget, List.cons_getElem_drop_succ, List.take_append_drop]
  · intro r'
    rw [List.set_eq_take_append_cons_drop, if_pos hlt]

/-- A selection that keeps an attribute keeps the order of its values. -/
theorem filterMap_sublist {τ β : Type} {f : σ → Option τ} {attr : σ → β} {attr' : τ → β}
    (h : ∀ r r', f r = some r' → attr' r' = attr r) (rows : List σ) :
    ((rows.filterMap f).map attr').Sublist (rows.map attr) := by
  induction rows with
  | nil => exact List.Sublist.slnil
  | cons r rest ih =>
    rw [List.filterMap_cons, List.map_cons]
    split
    · exact ih.cons _
    next r' hr' =>
      rw [List.map_cons, h r r' hr']
      exact ih.cons_cons _

end Table

end Foundation
