/-
  Momento.Foundation.KeysetPages

  **A SORTED RESULT READ PAGE BY PAGE.**  Each page asks for the rows after the last
  one of the page before, one more than it shows; that one more says whether there is
  a next page.

      pagesFrom    — the pages from a cursor on, as long as there are some
      Continues    — what a read after a row has to answer
-/
import Mathlib.Data.List.Sort

namespace Foundation.KeysetPages

variable {ρ : Type}

/-! ## §1. Sorted rows. -/

/-- Two sorted lists of the same rows are one list, where no two rows tie. -/
theorem mergeSort_filter {le : ρ → ρ → Bool} (htrans : ∀ a b c, le a b → le b c → le a c)
    (htotal : ∀ a b, le a b || le b a) {rows : List ρ}
    (hanti : ∀ a ∈ rows, ∀ b ∈ rows, le a b → le b a → a = b) (p : ρ → Bool) :
    (rows.filter p).mergeSort le = (rows.mergeSort le).filter p := by
  have hsorted := List.pairwise_mergeSort htrans htotal rows
  have hsorted' := List.pairwise_mergeSort htrans htotal (rows.filter p)
  have hperm : ((rows.filter p).mergeSort le).Perm ((rows.mergeSort le).filter p) :=
    (List.mergeSort_perm _ _).trans ((List.mergeSort_perm rows le).symm.filter p)
  have hanti' : ∀ a b, a ∈ (rows.filter p).mergeSort le → b ∈ (rows.mergeSort le).filter p →
      le a b = true → le b a = true → a = b := by
    intro a b ha hb
    have ha' : a ∈ rows := (List.mem_filter.mp ((List.mergeSort_perm _ _).subset ha)).1
    have hb' : b ∈ rows := (List.mergeSort_perm _ _).subset (List.mem_filter.mp hb).1
    exact hanti a ha' b hb'
  exact List.Perm.eq_of_pairwise hanti' hsorted' (hsorted.filter p) hperm

/-- The rows after a row of a list in order are the rest of the list. -/
theorem filter_after {before : ρ → ρ → Prop} [DecidableRel before] (hasymm : ∀ a b, before a b → ¬ before b a)
    {front rest : List ρ} {r : ρ} (h : (front ++ r :: rest).Pairwise before) :
    (front ++ r :: rest).filter (fun x => before r x) = rest := by
  obtain ⟨-, hrest, hfront⟩ := List.pairwise_append.mp h
  obtain ⟨hafter, -⟩ := List.pairwise_cons.mp hrest
  rw [List.filter_append, List.filter_cons_of_neg]
  · have hnone : front.filter (fun x => before r x) = [] := by
      refine List.filter_eq_nil_iff.mpr fun x hx => ?_
      have hx' := hasymm x r (hfront x hx r List.mem_cons_self)
      simpa using hx'
    have hall : rest.filter (fun x => before r x) = rest :=
      List.filter_eq_self.mpr fun x hx => decide_eq_true (hafter x hx)
    rw [hnone, hall, List.nil_append]
  · intro hself
    have hrr : before r r := of_decide_eq_true hself
    exact hasymm r r hrr hrr

/-! ## §2. Page by page. -/

/-- The rows of the pages from a cursor on: `read` answers all the rows after it, of
which a page shows as many as the limit says.  So many pages at most; `none` is a
reader still reading. -/
def pagesFrom (read : Option ρ → List ρ) (limit : Nat) : Nat → Option ρ → Option (List ρ)
  | 0, _ => none
  | n + 1, cursor =>
    let page := (read cursor).take limit
    if limit < (read cursor).length then (pagesFrom read limit n page.getLast?).map (page ++ ·)
    else some page

/-- `read` answers all rows without a cursor, and after a row those behind it. -/
structure Continues (before : ρ → ρ → Prop) [DecidableRel before] (read : Option ρ → List ρ)
    (rows : List ρ) : Prop where
  sorted : rows.Pairwise before
  asymm : ∀ a b, before a b → ¬ before b a
  first : read none = rows
  after : ∀ r ∈ rows, read (some r) = rows.filter fun x => before r x

variable {before : ρ → ρ → Prop} [DecidableRel before] {read : Option ρ → List ρ} {rows : List ρ}

/-- From wherever a page starts, the pages are the rest of the rows.  The induction is
on the pages; each of them leaves fewer rows than it found. -/
theorem pagesFrom_rest (h : Continues before read rows) {limit : Nat} (hlimit : 0 < limit) :
    ∀ (n : Nat) {cursor : Option ρ} {front rest : List ρ}, rows = front ++ rest → read cursor = rest →
      rest.length < n → pagesFrom read limit n cursor = some rest := by
  intro n
  induction n with
  | zero =>
    intro cursor front rest _ _ hlt
    exact absurd hlt (Nat.not_lt_zero _)
  | succ n ih =>
    intro cursor front rest hrows hread hlt
    unfold pagesFrom
    dsimp only
    rw [hread]
    by_cases hmore : limit < rest.length
    · rw [if_pos hmore]
      -- the page's last row is the cursor of the next
      obtain ⟨init, r, hpage⟩ : ∃ init r, rest.take limit = init ++ [r] := by
        obtain hnil | ⟨init, r, hinit⟩ := List.eq_nil_or_concat (rest.take limit)
        · have hlength := congrArg List.length hnil
          rw [List.length_take, List.length_nil] at hlength
          omega
        · exact ⟨init, r, by rw [hinit, List.concat_eq_append]⟩
      have hrest : init ++ r :: rest.drop limit = rest := by
        have happend := List.take_append_drop limit rest
        rw [hpage, List.append_assoc] at happend
        exact happend
      have hsplit : rows = (front ++ init) ++ r :: rest.drop limit := by
        rw [List.append_assoc, hrest, hrows]
      have hmem : r ∈ rows := by
        rw [hsplit]
        simp
      have hnext : read (some r) = rest.drop limit := by
        rw [h.after r hmem, hsplit]
        exact filter_after h.asymm (hsplit ▸ h.sorted)
      have hsplit' : rows = (front ++ init ++ [r]) ++ rest.drop limit := by
        rw [hsplit]
        simp
      have hshorter : (rest.drop limit).length < n := by
        rw [List.length_drop]
        omega
      rw [hpage, List.getLast?_concat, ih hsplit' hnext hshorter, Option.map_some, ← hpage,
        List.take_append_drop]
    · rw [if_neg hmore, List.take_of_length_le (not_lt.mp hmore)]

/-- **Page by page every row is read once, in order**, and the reading ends. -/
theorem pagesFrom_exact (h : Continues before read rows) {limit : Nat} (hlimit : 0 < limit) {n : Nat}
    (hn : rows.length < n) : pagesFrom read limit n none = some rows :=
  pagesFrom_rest h hlimit n (show rows = [] ++ rows from rfl) h.first hn

end Foundation.KeysetPages
