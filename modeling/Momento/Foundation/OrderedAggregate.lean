/-
  Momento.Foundation.OrderedAggregate

  **ORDERED AGGREGATES, ONE ROW AT A TIME.**

  `(array_agg(col ORDER BY time, id) FILTER (WHERE col IS NOT NULL))[1]` and its
  DESC twin pick one row of a group.  An incremental table maintains the same
  answer by looking at one more row and the answer so far, so the only fact
  needed about such an aggregate is what ONE new row does to it:

      earliest col (e :: rows)   — first touch: replaced only by a strictly earlier row
      latest   col (e :: rows)   — last touch: replaced by a row not older

  for a row `e` whose id is above every id already there (the row was inserted
  last).  Rows are listed newest insertion first.
-/
import Mathlib.Data.List.Sort
import Mathlib.Tactic.Linarith

namespace Foundation

section Head
variable {ρ : Type} (le : ρ → ρ → Prop) [DecidableRel le]

/-- The head of the sorted rows. -/
def firstBy (rows : List ρ) : Option ρ := (rows.insertionSort le).head?

@[simp] theorem firstBy_nil : firstBy le ([] : List ρ) = none := rfl

theorem firstBy_cons (e : ρ) (rows : List ρ) :
    firstBy le (e :: rows)
      = match firstBy le rows with
        | none => some e
        | some b => if le e b then some e else some b := by
  show (List.orderedInsert le e (rows.insertionSort le)).head? = _
  unfold firstBy
  cases rows.insertionSort le with
  | nil => rfl
  | cons b l =>
    show (if le e b then e :: b :: l else b :: List.orderedInsert le e l).head? = _
    by_cases h : le e b
    · simp [h]
    · simp [h]

/-- The first is a row. -/
theorem firstBy_mem {rows : List ρ} {b : ρ} (h : firstBy le rows = some b) : b ∈ rows := by
  have hb : b ∈ rows.insertionSort le := List.mem_of_mem_head? h
  exact (List.mem_insertionSort le).mp hb

theorem firstBy_eq_none {rows : List ρ} : firstBy le rows = none ↔ rows = [] := by
  unfold firstBy
  rw [List.head?_eq_none_iff]
  constructor
  · intro h
    have hlen := List.length_insertionSort le rows
    rw [h] at hlen
    exact List.length_eq_zero_iff.mp hlen.symm
  · rintro rfl
    rfl

end Head

/-! ## §2. The two row orders. -/

section Touch
variable {ρ α : Type} (time : ρ → Int) (id : ρ → Nat)

/-- `ORDER BY time, id`. -/
def Ascending (a b : ρ) : Prop := time a < time b ∨ (time a = time b ∧ id a ≤ id b)

/-- `ORDER BY time DESC, id DESC`. -/
def Descending (a b : ρ) : Prop := time b < time a ∨ (time a = time b ∧ id b ≤ id a)

instance : DecidableRel (Ascending time id) := fun _ _ => instDecidableOr
instance : DecidableRel (Descending time id) := fun _ _ => instDecidableOr

/-- The first row, in time order, that carries the column. -/
def earliestRow (col : ρ → Option α) (rows : List ρ) : Option ρ :=
  firstBy (Ascending time id) (rows.filter (fun r => (col r).isSome))

/-- The last row, in time order, that carries the column. -/
def latestRow (col : ρ → Option α) (rows : List ρ) : Option ρ :=
  firstBy (Descending time id) (rows.filter (fun r => (col r).isSome))

/-- `(array_agg(col ORDER BY time, id) FILTER (WHERE col IS NOT NULL))[1]`. -/
def earliest (col : ρ → Option α) (rows : List ρ) : Option α :=
  (earliestRow time id col rows).bind col

/-- `(array_agg(col ORDER BY time DESC, id DESC) FILTER (WHERE col IS NOT NULL))[1]`. -/
def latest (col : ρ → Option α) (rows : List ρ) : Option α :=
  (latestRow time id col rows).bind col

@[simp] theorem earliest_nil (col : ρ → Option α) : earliest time id col [] = none := rfl
@[simp] theorem latest_nil (col : ρ → Option α) : latest time id col [] = none := rfl

/-! ## §3. One more row. -/

variable {time id}

theorem earliestRow_carries {col : ρ → Option α} {rows : List ρ} {b : ρ}
    (h : earliestRow time id col rows = some b) : b ∈ rows ∧ (col b).isSome := by
  have hb := firstBy_mem _ h
  rw [List.mem_filter] at hb
  exact ⟨hb.1, hb.2⟩

theorem latestRow_carries {col : ρ → Option α} {rows : List ρ} {b : ρ}
    (h : latestRow time id col rows = some b) : b ∈ rows ∧ (col b).isSome := by
  have hb := firstBy_mem _ h
  rw [List.mem_filter] at hb
  exact ⟨hb.1, hb.2⟩

theorem earliest_eq_none_iff {col : ρ → Option α} {rows : List ρ} :
    earliest time id col rows = none ↔ earliestRow time id col rows = none := by
  unfold earliest
  cases h : earliestRow time id col rows with
  | none => simp
  | some b =>
    obtain ⟨v, hv⟩ := Option.isSome_iff_exists.mp (earliestRow_carries h).2
    simp [hv]

theorem latest_eq_none_iff {col : ρ → Option α} {rows : List ρ} :
    latest time id col rows = none ↔ latestRow time id col rows = none := by
  unfold latest
  cases h : latestRow time id col rows with
  | none => simp
  | some b =>
    obtain ⟨v, hv⟩ := Option.isSome_iff_exists.mp (latestRow_carries h).2
    simp [hv]

/-- A row without the column changes nothing. -/
theorem earliestRow_cons_none {col : ρ → Option α} {e : ρ} {rows : List ρ}
    (he : col e = none) : earliestRow time id col (e :: rows) = earliestRow time id col rows := by
  unfold earliestRow
  rw [List.filter_cons_of_neg (by simp [he])]

theorem latestRow_cons_none {col : ρ → Option α} {e : ρ} {rows : List ρ}
    (he : col e = none) : latestRow time id col (e :: rows) = latestRow time id col rows := by
  unfold latestRow
  rw [List.filter_cons_of_neg (by simp [he])]

/-- **First touch**: the newly inserted row wins only if it is strictly
earlier. -/
theorem earliestRow_cons_some {col : ρ → Option α} {e : ρ} {rows : List ρ} {v : α}
    (hid : ∀ r ∈ rows, id r < id e) (he : col e = some v) :
    earliestRow time id col (e :: rows)
      = match earliestRow time id col rows with
        | none => some e
        | some b => if time e < time b then some e else some b := by
  unfold earliestRow
  rw [List.filter_cons_of_pos (by simp [he]), firstBy_cons]
  cases h : firstBy (Ascending time id) (rows.filter (fun r => (col r).isSome)) with
  | none => rfl
  | some b =>
    have hb : id b < id e := hid b (List.mem_of_mem_filter (firstBy_mem _ h))
    have hiff : Ascending time id e b ↔ time e < time b := by
      unfold Ascending; omega
    simp only [hiff]

/-- **Last touch**: the newly inserted row wins unless it is strictly older. -/
theorem latestRow_cons_some {col : ρ → Option α} {e : ρ} {rows : List ρ} {v : α}
    (hid : ∀ r ∈ rows, id r < id e) (he : col e = some v) :
    latestRow time id col (e :: rows)
      = match latestRow time id col rows with
        | none => some e
        | some b => if time b ≤ time e then some e else some b := by
  unfold latestRow
  rw [List.filter_cons_of_pos (by simp [he]), firstBy_cons]
  cases h : firstBy (Descending time id) (rows.filter (fun r => (col r).isSome)) with
  | none => rfl
  | some b =>
    have hb : id b < id e := hid b (List.mem_of_mem_filter (firstBy_mem _ h))
    have hiff : Descending time id e b ↔ time b ≤ time e := by
      unfold Descending; omega
    simp only [hiff]

/-! ## §4. Bounds. -/

/-- `min(time)`. -/
def minTime (time : ρ → Int) (rows : List ρ) : Option Int := (rows.map time).min?

/-- `max(time)`. -/
def maxTime (time : ρ → Int) (rows : List ρ) : Option Int := (rows.map time).max?

theorem minTime_cons (e : ρ) (rows : List ρ) :
    minTime time (e :: rows) = some ((minTime time rows).elim (time e) (min (time e))) := by
  unfold minTime
  rw [List.map_cons, List.min?_cons]

theorem maxTime_cons (e : ρ) (rows : List ρ) :
    maxTime time (e :: rows) = some ((maxTime time rows).elim (time e) (max (time e))) := by
  unfold maxTime
  rw [List.map_cons, List.max?_cons]

theorem minTime_le {rows : List ρ} {m : Int} (h : minTime time rows = some m) :
    ∀ r ∈ rows, m ≤ time r := by
  intro r hr
  exact (List.min?_eq_some_iff.mp h).2 (time r) (List.mem_map_of_mem hr)

theorem le_maxTime {rows : List ρ} {m : Int} (h : maxTime time rows = some m) :
    ∀ r ∈ rows, time r ≤ m := by
  intro r hr
  exact (List.max?_eq_some_iff.mp h).2 (time r) (List.mem_map_of_mem hr)

theorem minTime_mem {rows : List ρ} {m : Int} (h : minTime time rows = some m) :
    ∃ r ∈ rows, time r = m := by
  obtain ⟨r, hr, hm⟩ := List.mem_map.mp (List.min?_mem h)
  exact ⟨r, hr, hm⟩

theorem maxTime_mem {rows : List ρ} {m : Int} (h : maxTime time rows = some m) :
    ∃ r ∈ rows, time r = m := by
  obtain ⟨r, hr, hm⟩ := List.mem_map.mp (List.max?_mem h)
  exact ⟨r, hr, hm⟩

/-- An upsert that takes the smaller time keeps `min(time)`. -/
theorem minTime_upsert {κ : Type} {first : κ → Int} {old : Option κ} {ins : κ} {upd : κ → κ}
    {e : ρ} {rows : List ρ} (hold : old.map first = minTime time rows) (hins : first ins = time e)
    (hupd : ∀ r, first (upd r) = min (first r) (time e)) :
    (some (old.elim ins upd)).map first = minTime time (e :: rows) := by
  rw [minTime_cons, ← hold]
  cases old with
  | none => simp [hins]
  | some r => simp [hupd, min_comm]

/-- An upsert that takes the larger time keeps `max(time)`. -/
theorem maxTime_upsert {κ : Type} {last : κ → Int} {old : Option κ} {ins : κ} {upd : κ → κ}
    {e : ρ} {rows : List ρ} (hold : old.map last = maxTime time rows) (hins : last ins = time e)
    (hupd : ∀ r, last (upd r) = max (last r) (time e)) :
    (some (old.elim ins upd)).map last = maxTime time (e :: rows) := by
  rw [maxTime_cons, ← hold]
  cases old with
  | none => simp [hins]
  | some r => simp [hupd, max_comm]

theorem minTime_eq_none_iff {rows : List ρ} : minTime time rows = none ↔ rows = [] := by
  unfold minTime
  rw [List.min?_eq_none_iff, List.map_eq_nil_iff]

theorem maxTime_eq_none_iff {rows : List ρ} : maxTime time rows = none ↔ rows = [] := by
  unfold maxTime
  rw [List.max?_eq_none_iff, List.map_eq_nil_iff]

/-- No answer means no row carries the column. -/
theorem latestRow_eq_none_iff {id : ρ → Nat} {col : ρ → Option α} {rows : List ρ} :
    latestRow time id col rows = none ↔ ∀ r ∈ rows, col r = none := by
  unfold latestRow
  rw [firstBy_eq_none, List.filter_eq_nil_iff]
  simp

/-! ## §5. When an upsert keeps the aggregate.

Each rule compares the value an upsert leaves with the aggregate over the rows
and the new one, the old value being the old aggregate, and says exactly which
rows keep the two equal. -/

variable {col : ρ → Option α} {e : ρ} {rows : List ρ}

/-- The old answer is the column of the row that carries it. -/
theorem earliest_of_row {b : ρ} (h : earliestRow time id col rows = some b) :
    earliest time id col rows = col b := by
  simp [earliest, h]

/-- The value of the latest row. -/
theorem latest_of_row {b : ρ} (h : latestRow time id col rows = some b) :
    latest time id col rows = col b := by
  simp [latest, h]

@[simp] theorem earliest_singleton : earliest time id col [e] = col e := by
  cases he : col e with
  | none => rw [earliest_eq_none_iff, earliestRow_cons_none he]; rfl
  | some v =>
    have hrow : earliestRow time id col [e] = some e := earliestRow_cons_some (by simp) he
    rw [earliest_of_row hrow, he]

@[simp] theorem latest_singleton : latest time id col [e] = col e := by
  cases he : col e with
  | none => rw [latest_eq_none_iff, latestRow_cons_none he]; rfl
  | some v =>
    have hrow : latestRow time id col [e] = some e := latestRow_cons_some (by simp) he
    rw [latest_of_row hrow, he]

/-- A row without the column changes neither answer. -/
theorem earliest_cons_none (he : col e = none) :
    earliest time id col (e :: rows) = earliest time id col rows := by
  unfold earliest
  rw [earliestRow_cons_none he]

theorem latest_cons_none (he : col e = none) :
    latest time id col (e :: rows) = latest time id col rows := by
  unfold latest
  rw [latestRow_cons_none he]

theorem earliest_cons_some {v : α} (hid : ∀ r ∈ rows, id r < id e) (he : col e = some v) :
    earliest time id col (e :: rows)
      = match earliestRow time id col rows with
        | none => some v
        | some b => if time e < time b then some v else col b := by
  unfold earliest
  rw [earliestRow_cons_some hid he]
  cases earliestRow time id col rows with
  | none => exact he
  | some b =>
    by_cases hlt : time e < time b
    · simp [hlt, he]
    · simp [hlt]

/-- A new row that has a value. -/
theorem latest_cons_some {v : α} (hid : ∀ r ∈ rows, id r < id e) (he : col e = some v) :
    latest time id col (e :: rows)
      = match latestRow time id col rows with
        | none => some v
        | some b => if time b ≤ time e then some v else col b := by
  unfold latest
  rw [latestRow_cons_some hid he]
  cases latestRow time id col rows with
  | none => exact he
  | some b =>
    by_cases hle : time b ≤ time e
    · simp [hle, he]
    · simp [hle]

/-- `coalesce(old, new)` against first touch. -/
theorem coalesce_eq_earliest_iff (hid : ∀ r ∈ rows, id r < id e) :
    (earliest time id col rows).or (col e) = earliest time id col (e :: rows)
      ↔ ∀ v b, col e = some v → earliestRow time id col rows = some b → time e < time b →
          col b = some v := by
  cases he : col e with
  | none => simp [earliest_cons_none he]
  | some v =>
    rw [earliest_cons_some hid he]
    cases hb : earliestRow time id col rows with
    | none => simp [earliest_eq_none_iff.mpr hb]
    | some b =>
      obtain ⟨w, hw⟩ := Option.isSome_iff_exists.mp (earliestRow_carries hb).2
      rw [earliest_of_row hb, hw]
      by_cases hlt : time e < time b
      · simp [hlt, hw]
      · simp [hlt, hw]

/-- First touch, replaced only by a row before the whole group. -/
theorem guardedFirst_eq_earliest_iff (col : ρ → Option α) {start : Int} (hid : ∀ r ∈ rows, id r < id e)
    (hstart : minTime time rows = some start) :
    (if time e < start ∧ col e ≠ none then col e else (earliest time id col rows).or (col e))
        = earliest time id col (e :: rows)
      ↔ ∀ v b, col e = some v → earliestRow time id col rows = some b → start ≤ time e →
          time e < time b → col b = some v := by
  by_cases hearly : time e < start
  · cases he : col e with
    | none => simp [earliest_cons_none he]
    | some v =>
      rw [earliest_cons_some hid he]
      cases hb : earliestRow time id col rows with
      | none => simp [hearly]
      | some b =>
        have hlt : time e < time b :=
          hearly.trans_le (minTime_le hstart b (earliestRow_carries hb).1)
        simp [hearly, hlt]
  · rw [if_neg (fun h => hearly h.1), coalesce_eq_earliest_iff hid]
    have hle : start ≤ time e := not_lt.mp hearly
    simp [hle]

/-- Last touch, replaced only by a row not before the whole group's end. -/
theorem guardedLast_eq_latest_iff (col : ρ → Option α) {last : Int} (hid : ∀ r ∈ rows, id r < id e)
    (hlast : maxTime time rows = some last) :
    (if last ≤ time e ∧ col e ≠ none then col e else latest time id col rows)
        = latest time id col (e :: rows)
      ↔ ∀ v, col e = some v → time e < last →
          ∃ b, latestRow time id col rows = some b ∧ (time b ≤ time e → col b = some v) := by
  cases he : col e with
  | none => simp [latest_cons_none he]
  | some v =>
    rw [latest_cons_some hid he]
    by_cases hlate : last ≤ time e
    · have hnot : ¬time e < last := not_lt.mpr hlate
      cases hb : latestRow time id col rows with
      | none => simp [hlate, hnot]
      | some b =>
        have hle : time b ≤ time e :=
          (le_maxTime hlast b (latestRow_carries hb).1).trans hlate
        simp [hlate, hnot, hle]
    · cases hb : latestRow time id col rows with
      | none => simp [hlate, latest_eq_none_iff.mpr hb, not_le.mp hlate]
      | some b =>
        rw [latest_of_row hb]
        by_cases hle : time b ≤ time e
        · simp [hlate, hle, not_le.mp hlate]
        · simp [hlate, hle]

/-- Last touch in an object merged from one side or the other. -/
theorem mergedLast_eq_latest_iff (col : ρ → Option α) {last : Int} (hid : ∀ r ∈ rows, id r < id e)
    (hlast : maxTime time rows = some last) :
    (if last ≤ time e then (col e).or (latest time id col rows)
        else (latest time id col rows).or (col e))
        = latest time id col (e :: rows)
      ↔ ∀ v b, col e = some v → time e < last → latestRow time id col rows = some b →
          time b ≤ time e → col b = some v := by
  cases he : col e with
  | none => simp [latest_cons_none he]
  | some v =>
    rw [latest_cons_some hid he]
    cases hb : latestRow time id col rows with
    | none => simp [latest_eq_none_iff.mpr hb]
    | some b =>
      obtain ⟨w, hw⟩ := Option.isSome_iff_exists.mp (latestRow_carries hb).2
      rw [latest_of_row hb, hw]
      by_cases hlate : last ≤ time e
      · have hle : time b ≤ time e :=
          (le_maxTime hlast b (latestRow_carries hb).1).trans hlate
        simp [hlate, hle]
      · by_cases hle : time b ≤ time e
        · simp [hlate, hle, hw, not_le.mp hlate]
        · simp [hlate, hle, hw]

/-- A value from elsewhere, against last touch. -/
theorem assign_eq_latest_iff {u : α} (hid : ∀ r ∈ rows, id r < id e) :
    some u = latest time id col (e :: rows)
      ↔ (col e = some u ∧ ∀ b, latestRow time id col rows = some b → time b ≤ time e)
        ∨ ∃ b, latestRow time id col rows = some b ∧ col b = some u
            ∧ (col e = none ∨ time e < time b) := by
  cases he : col e with
  | none =>
    rw [latest_cons_none he]
    cases hb : latestRow time id col rows with
    | none => simp [latest_eq_none_iff.mpr hb]
    | some b => simp [latest_of_row hb, eq_comm]
  | some v =>
    rw [latest_cons_some hid he]
    cases hb : latestRow time id col rows with
    | none => simp [eq_comm]
    | some b =>
      by_cases hle : time b ≤ time e
      · simp [hle, hle.not_gt, eq_comm]
      · simp [hle, not_le.mp hle, eq_comm]

end Touch

end Foundation
