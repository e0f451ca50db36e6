/-
  Momento.Foundation.Regexp

  **REGULAR EXPRESSIONS THAT REPLACE.**  An expression is tried at a position; what it
  can match there is a list, in the order a backtracking matcher comes to it, and the
  match is the first of the list.  From the left, match after match, a text falls into
  the characters that are kept and the matches between them (`scan`).

      \b        — between a word character and none; ASCII
      a*, a*?   — star, greedy and lazy: the order of the list, not what is in it
      a{m,n}    — between, greedy

  An expression that can match the empty text is not scanned for it.
-/
import Mathlib.Data.List.Basic

namespace Foundation

/-! ## §1. Expressions. -/

/-- The expressions. -/
inductive Regexp where
  | empty
  | wordBoundary
  | char (accepts : Char → Bool)
  | seq (a b : Regexp)
  | alt (a b : Regexp)
  | star (greedy : Bool) (a : Regexp)

/-- `[0-9A-Za-z_]`. -/
def isWordChar (c : Char) : Bool := c.isAlphanum || c = '_'

namespace Regexp

/-- `a?`. -/
def opt (a : Regexp) : Regexp := alt a empty

/-- `a{n}`. -/
def times : Nat → Regexp → Regexp
  | 0, _ => empty
  | n + 1, a => seq a (times n a)

/-- `a{0,n}`. -/
def upTo : Nat → Regexp → Regexp
  | 0, _ => empty
  | n + 1, a => opt (seq a (upTo n a))

/-- `a{m,n}`. -/
def between (m n : Nat) (a : Regexp) : Regexp := seq (times m a) (upTo (n - m) a)

/-- `a{n,}`. -/
def atLeast (n : Nat) (a : Regexp) : Regexp := seq (times n a) (star true a)

/-- The texts, one after the other. -/
def chain : List Regexp → Regexp
  | [] => empty
  | a :: as => seq a (chain as)

/-! ## §2. Matching. -/

/-- A place in a text: what is before it, the nearest character first, and what is
after it. -/
structure Pos where
  before : List Char
  after : List Char

namespace Pos

/-- `\b`. -/
def boundary (p : Pos) : Bool := p.before.head?.any isWordChar != p.after.head?.any isWordChar

/-- The place in a larger text. -/
def within (B A : List Char) (p : Pos) : Pos := ⟨p.before ++ B, p.after ++ A⟩

/-- The place `w` further on. -/
def advance (p : Pos) (w : List Char) : Pos := ⟨w.reverse ++ p.before, p.after.drop w.length⟩

end Pos

/-- `a*`: no iteration is empty, so that as many as there are characters left will do. -/
def starEnds (step : Pos → List Pos) (greedy : Bool) : Nat → Pos → List Pos
  | 0, p => [p]
  | n + 1, p =>
    let more := ((step p).filter fun q => q.after.length < p.after.length).flatMap (starEnds step greedy n)
    if greedy then more ++ [p] else p :: more

/-- **Where the matches at a place end**, the preferred one first. -/
def ends : Regexp → Pos → List Pos
  | empty, p => [p]
  | wordBoundary, p => if p.boundary then [p] else []
  | char accepts, p =>
    match p.after with
    | [] => []
    | c :: cs => if accepts c then [⟨c :: p.before, cs⟩] else []
  | seq a b, p => (ends a p).flatMap (ends b)
  | alt a b, p => ends a p ++ ends b p
  | star greedy a, p => starEnds (ends a) greedy p.after.length p

/-- No match contains the character. -/
def refuses (c : Char) : Regexp → Bool
  | empty => true
  | wordBoundary => true
  | char accepts => !accepts c
  | seq a b => refuses c a && refuses c b
  | alt a b => refuses c a && refuses c b
  | star _ a => refuses c a

/-- There is no `\b` in it. -/
def boundaryFree : Regexp → Bool
  | wordBoundary => false
  | empty => true
  | char _ => true
  | seq a b => boundaryFree a && boundaryFree b
  | alt a b => boundaryFree a && boundaryFree b
  | star _ a => boundaryFree a

/-- No match is empty. -/
def consumes : Regexp → Bool
  | empty => false
  | wordBoundary => false
  | char _ => true
  | seq a b => consumes a || consumes b
  | alt a b => consumes a && consumes b
  | star _ _ => false

/-! ## §3. What a match is. -/

/-- The second place is some characters further on than the first, none of which an
expression refuses. -/
def Reaches (p q : Pos) (w : List Char) : Prop := p.after = w ++ q.after ∧ q.before = w.reverse ++ p.before

theorem Reaches.refl (p : Pos) : Reaches p p [] := ⟨rfl, rfl⟩

theorem Reaches.trans {p q r : Pos} {w w' : List Char} (h : Reaches p q w) (h' : Reaches q r w') :
    Reaches p r (w ++ w') := by
  refine ⟨?_, ?_⟩
  · rw [h.1, h'.1, List.append_assoc]
  · rw [h'.2, h.2, List.reverse_append, List.append_assoc]

theorem Reaches.length_le {p q : Pos} {w : List Char} (h : Reaches p q w) : q.after.length ≤ p.after.length := by
  rw [h.1, List.length_append]
  omega

/-- The rule of the star: what the empty iteration has and each further one keeps. -/
theorem starEnds_induction {step : Pos → List Pos} {greedy : Bool} {P : Pos → Pos → Prop}
    (hrefl : ∀ p, P p p) (hstep : ∀ p q r, q ∈ step p → P q r → P p r) (n : Nat) {p q : Pos}
    (h : q ∈ starEnds step greedy n p) : P p q := by
  induction n generalizing p with
  | zero =>
    rw [List.mem_singleton.mp h]
    exact hrefl p
  | succ n ih =>
    have hcases : q = p ∨ ∃ r ∈ step p, q ∈ starEnds step greedy n r := by
      unfold starEnds at h
      dsimp only at h
      have hmore : q ∈ ((step p).filter fun r => r.after.length < p.after.length).flatMap
          (starEnds step greedy n) → ∃ r ∈ step p, q ∈ starEnds step greedy n r := by
        intro hq
        obtain ⟨r, hr, hqr⟩ := List.mem_flatMap.mp hq
        exact ⟨r, (List.mem_filter.mp hr).1, hqr⟩
      split at h
      · rcases List.mem_append.mp h with hq | hq
        · exact .inr (hmore hq)
        · exact .inl (List.mem_singleton.mp hq)
      · rcases List.mem_cons.mp h with hq | hq
        · exact .inl hq
        · exact .inr (hmore hq)
    rcases hcases with rfl | ⟨r, hr, hqr⟩
    · exact hrefl q
    · exact hstep p r q hr (ih hqr)

/-- **A match is a piece of the text.** -/
theorem reaches_of_mem_ends {r : Regexp} {p q : Pos} (h : q ∈ ends r p) : ∃ w, Reaches p q w := by
  induction r generalizing p q with
  | empty =>
    rw [List.mem_singleton.mp h]
    exact ⟨[], Reaches.refl p⟩
  | wordBoundary =>
    unfold ends at h
    split at h
    · rw [List.mem_singleton.mp h]
      exact ⟨[], Reaches.refl p⟩
    · cases h
  | char accepts =>
    unfold ends at h
    split at h
    · cases h
    next c cs hafter =>
      split at h
      · rw [List.mem_singleton.mp h]
        exact ⟨[c], hafter, rfl⟩
      · cases h
  | seq a b iha ihb =>
    obtain ⟨m, hm, hq⟩ := List.mem_flatMap.mp h
    obtain ⟨w, hw⟩ := iha hm
    obtain ⟨w', hw'⟩ := ihb hq
    exact ⟨w ++ w', hw.trans hw'⟩
  | alt a b iha ihb =>
    rcases List.mem_append.mp h with ha | hb
    · exact iha ha
    · exact ihb hb
  | star greedy a iha =>
    refine starEnds_induction (P := fun p q => ∃ w, Reaches p q w) (fun p => ⟨[], Reaches.refl p⟩) ?_ _ h
    intro p q r hq hr
    obtain ⟨w, hw⟩ := iha hq
    obtain ⟨w', hw'⟩ := hr
    exact ⟨w ++ w', hw.trans hw'⟩

theorem length_le_of_mem_ends {r : Regexp} {p q : Pos} (h : q ∈ ends r p) :
    q.after.length ≤ p.after.length := by
  obtain ⟨w, hw⟩ := reaches_of_mem_ends h
  exact hw.length_le

theorem length_lt_of_mem_ends {r : Regexp} (hr : r.consumes = true) {p q : Pos} (h : q ∈ ends r p) :
    q.after.length < p.after.length := by
  induction r generalizing p q with
  | empty => cases hr
  | wordBoundary => cases hr
  | char accepts =>
    unfold ends at h
    split at h
    · cases h
    next c cs hafter =>
      split at h
      · rw [List.mem_singleton.mp h, hafter]
        exact Nat.lt_succ_self _
      · cases h
  | seq a b iha ihb =>
    obtain ⟨m, hm, hq⟩ := List.mem_flatMap.mp h
    have hma := length_le_of_mem_ends hm
    have hqb := length_le_of_mem_ends hq
    rcases Bool.or_eq_true_iff.mp hr with ha | hb
    · have hlt := iha ha hm
      omega
    · have hlt := ihb hb hq
      omega
  | alt a b iha ihb =>
    obtain ⟨hra, hrb⟩ := Bool.and_eq_true_iff.mp hr
    rcases List.mem_append.mp h with ha | hb
    · exact iha hra ha
    · exact ihb hrb hb
  | star greedy a => cases hr

/-! ## §4. A text within a larger one. -/

/-- More iterations than there are characters left add nothing. -/
theorem starEnds_enough {step : Pos → List Pos} {greedy : Bool} (n m : Nat) {p : Pos}
    (hn : p.after.length ≤ n) (hm : p.after.length ≤ m) :
    starEnds step greedy n p = starEnds step greedy m p := by
  induction n generalizing m p with
  | zero =>
    have hnone : ∀ l : List Pos, l.filter (fun q => q.after.length < p.after.length) = [] := by
      intro l
      apply List.filter_eq_nil_iff.mpr
      intro q _
      simp only [decide_eq_true_eq]
      omega
    cases m with
    | zero => rfl
    | succ m =>
      unfold starEnds
      dsimp only
      rw [hnone, List.flatMap_nil]
      split <;> rfl
  | succ n ih =>
    cases m with
    | zero =>
      have hnone : ∀ l : List Pos, l.filter (fun q => q.after.length < p.after.length) = [] := by
        intro l
        apply List.filter_eq_nil_iff.mpr
        intro q _
        simp only [decide_eq_true_eq]
        omega
      unfold starEnds
      dsimp only
      rw [hnone, List.flatMap_nil]
      split <;> rfl
    | succ m =>
      have hmore : ((step p).filter fun q => q.after.length < p.after.length).flatMap (starEnds step greedy n)
          = ((step p).filter fun q => q.after.length < p.after.length).flatMap (starEnds step greedy m) := by
        apply List.flatMap_congr
        intro q hq
        have hlt : q.after.length < p.after.length := by
          simpa using (List.mem_filter.mp hq).2
        exact ih m (by omega) (by omega)
      unfold starEnds
      dsimp only
      rw [hmore]

/-- The text does not notice what it stands in. -/
structure Closed (r : Regexp) (B A : List Char) : Prop where
  left : B.head?.any isWordChar = false
  right : ∀ c ∈ A.head?, isWordChar c = false ∧ r.refuses c = true

theorem any_head_append {l B : List Char} (h : B.head?.any isWordChar = false) :
    (l ++ B).head?.any isWordChar = l.head?.any isWordChar := by
  cases l with
  | nil => exact h
  | cons c l => rfl

theorem boundary_within {B A : List Char} (hleft : B.head?.any isWordChar = false)
    (hright : A.head?.any isWordChar = false) (p : Pos) : (p.within B A).boundary = p.boundary := by
  unfold Pos.boundary Pos.within
  dsimp only
  rw [any_head_append hleft, any_head_append hright]

theorem starEnds_within {step : Pos → List Pos} {greedy : Bool} {B A : List Char}
    (hstep : ∀ p, step (p.within B A) = (step p).map (Pos.within B A)) (n : Nat) (p : Pos) :
    starEnds step greedy n (p.within B A) = (starEnds step greedy n p).map (Pos.within B A) := by
  induction n generalizing p with
  | zero => rfl
  | succ n ih =>
    have hshorter : ∀ q : Pos, decide ((q.within B A).after.length < (p.within B A).after.length)
        = decide (q.after.length < p.after.length) := by
      intro q
      simp [Pos.within]
    have hmore : ((step (p.within B A)).filter
          fun q => q.after.length < (p.within B A).after.length).flatMap (starEnds step greedy n)
        = (((step p).filter fun q => q.after.length < p.after.length).flatMap
          (starEnds step greedy n)).map (Pos.within B A) := by
      rw [hstep, List.filter_map, List.flatMap_map, List.map_flatMap]
      have hfilter : ((fun q : Pos => decide (q.after.length < (p.within B A).after.length)) ∘ Pos.within B A)
          = fun q : Pos => decide (q.after.length < p.after.length) := funext hshorter
      rw [hfilter]
      apply List.flatMap_congr
      intro q _
      exact ih q
    unfold starEnds
    dsimp only
    rw [hmore]
    split
    · rw [List.map_append, List.map_cons, List.map_nil]
    · rw [List.map_cons]

/-- **A closed text is matched as if it stood alone.** -/
theorem ends_within {r : Regexp} {B A : List Char} (h : Closed r B A) (p : Pos) :
    ends r (p.within B A) = (ends r p).map (Pos.within B A) := by
  have hright : A.head?.any isWordChar = false := by
    cases hA : A.head? with
    | none => rfl
    | some c => exact (h.right c hA).1
  induction r generalizing p with
  | empty => rfl
  | wordBoundary =>
    unfold ends
    rw [boundary_within h.left hright]
    split <;> rfl
  | char accepts =>
    obtain ⟨before, after⟩ := p
    cases after with
    | cons c cs =>
      show (if accepts c then _ else _) = List.map _ (if accepts c then _ else _)
      split <;> rfl
    | nil =>
      show ends (char accepts) ⟨before ++ B, A⟩ = []
      cases A with
      | nil => rfl
      | cons c A =>
        have hrefused : accepts c = false := by
          simpa [refuses] using (h.right c rfl).2
        show (if accepts c then _ else _) = _
        rw [if_neg (by rw [hrefused]; exact Bool.false_ne_true)]
  | seq a b iha ihb =>
    have ha : Closed a B A := ⟨h.left, fun c hc => ⟨(h.right c hc).1, (Bool.and_eq_true_iff.mp (h.right c hc).2).1⟩⟩
    have hb : Closed b B A := ⟨h.left, fun c hc => ⟨(h.right c hc).1, (Bool.and_eq_true_iff.mp (h.right c hc).2).2⟩⟩
    show (ends a (p.within B A)).flatMap (ends b) = ((ends a p).flatMap (ends b)).map (Pos.within B A)
    rw [iha ha, List.flatMap_map, List.map_flatMap]
    apply List.flatMap_congr
    intro q _
    exact ihb hb q
  | alt a b iha ihb =>
    have ha : Closed a B A := ⟨h.left, fun c hc => ⟨(h.right c hc).1, (Bool.and_eq_true_iff.mp (h.right c hc).2).1⟩⟩
    have hb : Closed b B A := ⟨h.left, fun c hc => ⟨(h.right c hc).1, (Bool.and_eq_true_iff.mp (h.right c hc).2).2⟩⟩
    show ends a (p.within B A) ++ ends b (p.within B A) = (ends a p ++ ends b p).map (Pos.within B A)
    rw [iha ha, ihb hb, List.map_append]
  | star greedy a iha =>
    have ha : Closed a B A := ⟨h.left, fun c hc => h.right c hc⟩
    show starEnds (ends a) greedy (p.within B A).after.length (p.within B A)
      = (starEnds (ends a) greedy p.after.length p).map (Pos.within B A)
    rw [starEnds_within (fun q => iha ha q)]
    rw [starEnds_enough (p := p) (p.within B A).after.length p.after.length (by simp [Pos.within])
      (Nat.le_refl _)]

/-- Without `\b`, a match in a text is one in every larger text. -/
theorem mem_ends_within {r : Regexp} (hr : r.boundaryFree = true) {B A : List Char} {p q : Pos}
    (h : q ∈ ends r p) : q.within B A ∈ ends r (p.within B A) := by
  induction r generalizing p q with
  | empty =>
    rw [List.mem_singleton.mp h]
    exact List.mem_singleton_self _
  | wordBoundary => cases hr
  | char accepts =>
    obtain ⟨before, after⟩ := p
    cases after with
    | nil => cases h
    | cons c cs =>
      change q ∈ (if accepts c then _ else _) at h
      show _ ∈ (if accepts c then _ else _)
      split at h
      next hc =>
        rw [if_pos hc, List.mem_singleton.mp h]
        exact List.mem_singleton_self _
      · cases h
  | seq a b iha ihb =>
    obtain ⟨hra, hrb⟩ := Bool.and_eq_true_iff.mp hr
    obtain ⟨m, hm, hq⟩ := List.mem_flatMap.mp h
    exact List.mem_flatMap.mpr ⟨m.within B A, iha hra hm, ihb hrb hq⟩
  | alt a b iha ihb =>
    obtain ⟨hra, hrb⟩ := Bool.and_eq_true_iff.mp hr
    rcases List.mem_append.mp h with ha | hb
    · exact List.mem_append.mpr (.inl (iha hra ha))
    · exact List.mem_append.mpr (.inr (ihb hrb hb))
  | star greedy a iha =>
    have hmono : ∀ n m : Nat, ∀ p q : Pos, p.after.length ≤ m → q ∈ starEnds (ends a) greedy n p →
        q.within B A ∈ starEnds (ends a) greedy (m + A.length) (p.within B A) := by
      intro n
      induction n with
      | zero =>
        intro m p q hm hq
        rw [List.mem_singleton.mp hq]
        cases m + A.length with
        | zero => exact List.mem_singleton_self _
        | succ k =>
          unfold starEnds
          dsimp only
          split
          · exact List.mem_append.mpr (.inr (List.mem_singleton_self _))
          · exact List.mem_cons_self
      | succ n ih =>
        intro m p q hm hq
        have hcases : q = p ∨ ∃ k ∈ ends a p, k.after.length < p.after.length
            ∧ q ∈ starEnds (ends a) greedy n k := by
          unfold starEnds at hq
          dsimp only at hq
          have hmore : q ∈ ((ends a p).filter fun k => k.after.length < p.after.length).flatMap
              (starEnds (ends a) greedy n) →
              ∃ k ∈ ends a p, k.after.length < p.after.length ∧ q ∈ starEnds (ends a) greedy n k := by
            intro hq
            obtain ⟨k, hk, hqk⟩ := List.mem_flatMap.mp hq
            obtain ⟨hmem, hlt⟩ := List.mem_filter.mp hk
            exact ⟨k, hmem, by simpa using hlt, hqk⟩
          split at hq
          · rcases List.mem_append.mp hq with hq | hq
            · exact .inr (hmore hq)
            · exact .inl (List.mem_singleton.mp hq)
          · rcases List.mem_cons.mp hq with hq | hq
            · exact .inl hq
            · exact .inr (hmore hq)
        rcases hcases with rfl | ⟨k, hk, hlt, hqk⟩
        · cases m + A.length with
          | zero => exact List.mem_singleton_self _
          | succ j =>
            unfold starEnds
            dsimp only
            split
            · exact List.mem_append.mpr (.inr (List.mem_singleton_self _))
            · exact List.mem_cons_self
        · obtain ⟨m, rfl⟩ : ∃ m', m = m' + 1 := ⟨m - 1, by omega⟩
          have hnext := ih m k q (by omega) hqk
          have hmem : q.within B A ∈ ((ends a (p.within B A)).filter
              fun k => k.after.length < (p.within B A).after.length).flatMap
                (starEnds (ends a) greedy (m + A.length)) := by
            refine List.mem_flatMap.mpr ⟨k.within B A, List.mem_filter.mpr ⟨iha hr hk, ?_⟩, hnext⟩
            simpa [Pos.within] using hlt
          rw [show m + 1 + A.length = (m + A.length) + 1 by omega]
          unfold starEnds
          dsimp only
          split
          · exact List.mem_append.mpr (.inl hmem)
          · exact List.mem_cons_of_mem _ hmem
    have hlength : (p.within B A).after.length = p.after.length + A.length := List.length_append
    show q.within B A ∈ starEnds (ends a) greedy (p.within B A).after.length (p.within B A)
    rw [hlength]
    exact hmono p.after.length p.after.length p q (Nat.le_refl _) h

/-! ## §5. From the left, match after match. -/

/-- A piece of a scanned text: a character between the matches, or a match. -/
inductive Chunk where
  | kept (c : Char)
  | hit (m : List Char)

/-- The text of a piece. -/
def Chunk.text : Chunk → List Char
  | kept c => [c]
  | hit m => m

/-- It is a match. -/
def Chunk.isHit : Chunk → Bool
  | kept _ => false
  | hit _ => true

/-- Where the preferred match ends. -/
def next (r : Regexp) (p : Pos) : Option Pos :=
  (ends r p).head?.filter fun q => q.after.length < p.after.length

/-- **Match after match**, from the left; `n` bounds the characters that are left. -/
def scan (r : Regexp) : Nat → Pos → List Chunk
  | 0, p => p.after.map .kept
  | n + 1, p =>
    match p.after with
    | [] => []
    | c :: cs =>
      match next r p with
      | some q => .hit (p.after.take (p.after.length - q.after.length)) :: scan r n q
      | none => .kept c :: scan r n ⟨c :: p.before, cs⟩

/-- **The text, scanned.** -/
def chunks (r : Regexp) (text : List Char) : List Chunk := scan r text.length ⟨[], text⟩

/-- `MatchString`. -/
def matchString (r : Regexp) (text : List Char) : Bool := (chunks r text).any Chunk.isHit

theorem next_lt {r : Regexp} {p q : Pos} (h : next r p = some q) : q.after.length < p.after.length := by
  simpa using (Option.filter_eq_some_iff.mp h).2

theorem mem_of_next {r : Regexp} {p q : Pos} (h : next r p = some q) : q ∈ ends r p :=
  List.mem_of_mem_head? (Option.filter_eq_some_iff.mp h).1

theorem next_within {r : Regexp} {B A : List Char} (h : Closed r B A) (p : Pos) :
    next r (p.within B A) = (next r p).map (Pos.within B A) := by
  unfold next
  rw [ends_within h, List.head?_map, Option.filter_map]
  have hshorter : ((fun q : Pos => decide (q.after.length < (p.within B A).after.length)) ∘ Pos.within B A)
      = fun q : Pos => decide (q.after.length < p.after.length) := by
    funext q
    simp [Pos.within]
  rw [hshorter]

/-- Nothing is matched at the end of a text. -/
theorem next_nil (r : Regexp) (B : List Char) : next r ⟨B, []⟩ = none := by
  cases h : next r ⟨B, []⟩ with
  | none => rfl
  | some q => exact absurd (next_lt h) (Nat.not_lt_zero _)

theorem scan_enough {r : Regexp} (n m : Nat) {p : Pos} (hn : p.after.length ≤ n) (hm : p.after.length ≤ m) :
    scan r n p = scan r m p := by
  induction n generalizing m p with
  | zero =>
    have hnil : p.after = [] := List.length_eq_zero_iff.mp (Nat.le_zero.mp hn)
    cases m with
    | zero => rfl
    | succ m =>
      unfold scan
      rw [hnil]
      rfl
  | succ n ih =>
    cases m with
    | zero =>
      have hnil : p.after = [] := List.length_eq_zero_iff.mp (Nat.le_zero.mp hm)
      unfold scan
      rw [hnil]
      rfl
    | succ m =>
      unfold scan
      split
      · rfl
      next c cs hafter =>
        have hlength : p.after.length = cs.length + 1 := by rw [hafter]; rfl
        split
        next q hq =>
          have hlt := next_lt hq
          rw [ih m (by omega) (by omega)]
        · rw [ih m (p := ⟨c :: p.before, cs⟩) (by show cs.length ≤ n; omega) (by show cs.length ≤ m; omega)]

/-- The chunks are the text. -/
theorem flatMap_scan (r : Regexp) (n : Nat) (p : Pos) : (scan r n p).flatMap Chunk.text = p.after := by
  induction n generalizing p with
  | zero =>
    show (p.after.map Chunk.kept).flatMap Chunk.text = p.after
    rw [List.flatMap_map]
    exact List.flatMap_singleton' p.after
  | succ n ih =>
    unfold scan
    split
    next hafter => exact hafter.symm
    next c cs hafter =>
      split
      next q hq =>
        obtain ⟨w, hw, -⟩ := reaches_of_mem_ends (mem_of_next hq)
        rw [List.flatMap_cons, ih, hw]
        show (w ++ q.after).take ((w ++ q.after).length - q.after.length) ++ q.after = _
        rw [List.length_append, Nat.add_sub_cancel, List.take_left]
      · rw [List.flatMap_cons, ih, hafter]
        rfl

/-- What stands before a text matters only if it ends in a word character. -/
theorem scan_within_left {r : Regexp} {B : List Char} (h : Closed r B []) (n : Nat) (p : Pos) :
    scan r n (p.within B []) = scan r n p := by
  induction n generalizing p with
  | zero =>
    show (p.after ++ []).map Chunk.kept = p.after.map Chunk.kept
    rw [List.append_nil]
  | succ n ih =>
    have hafter : (p.within B []).after = p.after := List.append_nil _
    unfold scan
    rw [hafter, next_within h]
    split
    · rfl
    next c cs _ =>
      cases next r p with
      | none =>
        show Chunk.kept c :: scan r n ⟨c :: (p.before ++ B), cs⟩ = _
        have hnext := ih ⟨c :: p.before, cs⟩
        rw [show Pos.within B [] ⟨c :: p.before, cs⟩ = ⟨c :: (p.before ++ B), cs⟩ by
          simp [Pos.within]] at hnext
        rw [hnext]
      | some q =>
        show Chunk.hit (p.after.take (p.after.length - (q.within B []).after.length))
          :: scan r n (q.within B []) = _
        rw [ih q, show (q.within B []).after = q.after from List.append_nil _]

/-- **A character that separates**: it is no word character, and no match can contain it. -/
theorem scan_append {r : Regexp} {c : Char} (hword : isWordChar c = false) (hrefuses : r.refuses c = true)
    (n : Nat) (b u v : List Char) (hn : u.length ≤ n) :
    scan r (n + 1 + v.length) ⟨b, u ++ c :: v⟩ = scan r n ⟨b, u⟩ ++ .kept c :: chunks r v := by
  induction n generalizing b u with
  | zero =>
    obtain rfl : u = [] := List.length_eq_zero_iff.mp (Nat.le_zero.mp hn)
    have hclosed : Closed r [] (c :: v) := ⟨rfl, fun d hd => by cases hd; exact ⟨hword, hrefuses⟩⟩
    have hnext : next r ⟨b, c :: v⟩ = none := by
      have h := next_within hclosed ⟨b, []⟩
      rw [next_nil, show Pos.within [] (c :: v) ⟨b, []⟩ = ⟨b, c :: v⟩ by simp [Pos.within]] at h
      exact h
    have hleft : Closed r (c :: b) [] := ⟨hword, fun _ hd => nomatch hd⟩
    rw [show 0 + 1 + v.length = v.length + 1 by omega]
    show (match next r ⟨b, c :: v⟩ with
      | some q => _
      | none => Chunk.kept c :: scan r v.length ⟨c :: b, v⟩) = _
    rw [hnext]
    have hscan := scan_within_left hleft v.length ⟨[], v⟩
    rw [show Pos.within (c :: b) [] ⟨[], v⟩ = ⟨c :: b, v⟩ by simp [Pos.within]] at hscan
    show Chunk.kept c :: scan r v.length ⟨c :: b, v⟩ = [].map Chunk.kept ++ Chunk.kept c :: chunks r v
    rw [hscan]
    rfl
  | succ n ih =>
    have hclosed : Closed r [] (c :: v) := ⟨rfl, fun d hd => by cases hd; exact ⟨hword, hrefuses⟩⟩
    cases u with
    | nil =>
      have hzero := scan_enough (r := r) (p := ⟨b, c :: v⟩) (n + 1 + 1 + v.length) (n + 1 + v.length)
        (by show v.length + 1 ≤ _; omega) (by show v.length + 1 ≤ _; omega)
      show scan r (n + 1 + 1 + v.length) ⟨b, c :: v⟩ = [] ++ _
      rw [hzero]
      have hnil := ih b [] (Nat.zero_le _)
      rw [scan_enough (p := ⟨b, []⟩) n 0 (Nat.zero_le _) (Nat.le_refl _)] at hnil
      exact hnil
    | cons d u =>
      have hlength : u.length ≤ n := Nat.le_of_succ_le_succ hn
      have hnext := next_within hclosed ⟨b, d :: u⟩
      rw [show Pos.within [] (c :: v) ⟨b, d :: u⟩ = ⟨b, d :: (u ++ c :: v)⟩ by simp [Pos.within]] at hnext
      rw [show n + 1 + 1 + v.length = (n + 1 + v.length) + 1 by omega]
      show (match next r ⟨b, d :: (u ++ c :: v)⟩ with
          | some q => Chunk.hit ((d :: (u ++ c :: v)).take ((d :: (u ++ c :: v)).length - q.after.length))
            :: scan r (n + 1 + v.length) q
          | none => Chunk.kept d :: scan r (n + 1 + v.length) ⟨d :: b, u ++ c :: v⟩)
        = (match next r ⟨b, d :: u⟩ with
          | some q => Chunk.hit ((d :: u).take ((d :: u).length - q.after.length)) :: scan r n q
          | none => Chunk.kept d :: scan r n ⟨d :: b, u⟩) ++ Chunk.kept c :: chunks r v
      rw [hnext]
      cases hq : next r ⟨b, d :: u⟩ with
      | none =>
        show Chunk.kept d :: scan r (n + 1 + v.length) ⟨d :: b, u ++ c :: v⟩
          = Chunk.kept d :: (scan r n ⟨d :: b, u⟩ ++ Chunk.kept c :: chunks r v)
        rw [ih (d :: b) u hlength]
      | some q =>
        have hlt : q.after.length < u.length + 1 := next_lt hq
        have hrest := ih q.before q.after (by omega)
        have htake : (d :: (u ++ c :: v)).take
            ((d :: (u ++ c :: v)).length - (q.after ++ c :: v).length)
            = (d :: u).take ((d :: u).length - q.after.length) := by
          have hsame : (d :: (u ++ c :: v)).length - (q.after ++ c :: v).length
              = (d :: u).length - q.after.length := by
            simp only [List.length_cons, List.length_append]
            omega
          rw [hsame, ← List.cons_append, List.take_append_of_le_length (Nat.sub_le _ _)]
        show Chunk.hit ((d :: (u ++ c :: v)).take
            ((d :: (u ++ c :: v)).length - (q.after ++ c :: v).length))
            :: scan r (n + 1 + v.length) ⟨q.before ++ [], q.after ++ c :: v⟩
          = Chunk.hit ((d :: u).take ((d :: u).length - q.after.length))
            :: (scan r n q ++ Chunk.kept c :: chunks r v)
        rw [htake, List.append_nil, hrest]

/-- **A separated text is scanned side by side.** -/
theorem chunks_append {r : Regexp} {c : Char} (hword : isWordChar c = false) (hrefuses : r.refuses c = true)
    (u v : List Char) : chunks r (u ++ c :: v) = chunks r u ++ .kept c :: chunks r v := by
  have h := scan_append hword hrefuses u.length [] u v (Nat.le_refl _)
  unfold chunks at h ⊢
  rwa [show (u ++ c :: v).length = u.length + 1 + v.length by simp only [List.length_append, List.length_cons]; omega]

/-! ## §6. Replacing. -/

/-- The text between the matches that are accepted: up to the first one, and after each. -/
def gaps (accept : List Char → Bool) : List Chunk → List Char × List (List Char)
  | [] => ([], [])
  | .kept c :: cs => (c :: (gaps accept cs).1, (gaps accept cs).2)
  | .hit m :: cs =>
    if accept m then ([], (gaps accept cs).1 :: (gaps accept cs).2) else (m ++ (gaps accept cs).1, (gaps accept cs).2)

/-- The gaps, one after the other. -/
def pieces (r : Regexp) (accept : List Char → Bool) (text : List Char) : List (List Char) :=
  (gaps accept (chunks r text)).1 :: (gaps accept (chunks r text)).2

/-- Every match that is accepted is replaced. -/
def replace (accept : List Char → Bool) (mask : List Char) (cs : List Chunk) : List Char :=
  cs.flatMap fun chunk =>
    match chunk with
    | .kept c => [c]
    | .hit m => if accept m then mask else m

theorem replace_eq_gaps (accept : List Char → Bool) (mask : List Char) (cs : List Chunk) :
    replace accept mask cs = (gaps accept cs).1 ++ (gaps accept cs).2.flatMap (mask ++ ·) := by
  induction cs with
  | nil => rfl
  | cons chunk cs ih =>
    cases chunk with
    | kept c =>
      show c :: replace accept mask cs = c :: ((gaps accept cs).1 ++ (gaps accept cs).2.flatMap (mask ++ ·))
      rw [ih]
    | hit m =>
      show (if accept m then mask else m) ++ replace accept mask cs = _
      unfold gaps
      split
      · rw [ih, List.nil_append, List.flatMap_cons, List.append_assoc]
      · rw [ih, List.append_assoc]

/-- The gaps are pieces of the text. -/
theorem piece_of_mem_gaps (accept : List Char → Bool) (cs : List Chunk) :
    (∃ v, cs.flatMap Chunk.text = (gaps accept cs).1 ++ v)
      ∧ ∀ g ∈ (gaps accept cs).2, ∃ u v, cs.flatMap Chunk.text = u ++ (g ++ v) := by
  induction cs with
  | nil => exact ⟨⟨[], rfl⟩, fun _ hg => nomatch hg⟩
  | cons chunk cs ih =>
    obtain ⟨⟨v, hv⟩, hrest⟩ := ih
    have hlater : ∀ (w : List Char), ∀ g ∈ (gaps accept cs).2,
        ∃ u v, w ++ cs.flatMap Chunk.text = u ++ (g ++ v) := by
      intro w g hg
      obtain ⟨u, v, h⟩ := hrest g hg
      exact ⟨w ++ u, v, by rw [h, List.append_assoc]⟩
    cases chunk with
    | kept c => exact ⟨⟨v, congrArg (c :: ·) hv⟩, hlater [c]⟩
    | hit m =>
      show (∃ v, m ++ cs.flatMap Chunk.text = _) ∧ ∀ g ∈ _, ∃ u v, m ++ cs.flatMap Chunk.text = _
      unfold gaps
      split
      · refine ⟨⟨_, rfl⟩, fun g hg => ?_⟩
        rcases List.mem_cons.mp hg with rfl | hmem
        · exact ⟨m, v, by rw [hv]⟩
        · exact hlater m g hmem
      · exact ⟨⟨v, by rw [hv, List.append_assoc]⟩, hlater m⟩

theorem piece_of_mem_pieces {r : Regexp} {accept : List Char → Bool} {text g : List Char}
    (h : g ∈ pieces r accept text) : ∃ u v, text = u ++ (g ++ v) := by
  obtain ⟨⟨v, hfirst⟩, hrest⟩ := piece_of_mem_gaps accept (chunks r text)
  have htext : (chunks r text).flatMap Chunk.text = text := flatMap_scan r text.length ⟨[], text⟩
  rw [htext] at hfirst hrest
  rcases List.mem_cons.mp h with rfl | hmem
  · exact ⟨[], v, hfirst⟩
  · exact hrest g hmem

theorem replace_append (accept : List Char → Bool) (mask : List Char) (cs cs' : List Chunk) :
    replace accept mask (cs ++ cs') = replace accept mask cs ++ replace accept mask cs' :=
  List.flatMap_append

/-- A text without an accepted match stays as it is. -/
theorem replace_of_none {accept : List Char → Bool} {mask : List Char} {cs : List Chunk}
    (h : ∀ m, .hit m ∈ cs → accept m = false) : replace accept mask cs = cs.flatMap Chunk.text := by
  unfold replace
  apply List.flatMap_congr
  intro chunk hmem
  cases chunk with
  | kept c => rfl
  | hit m =>
    show (if accept m then mask else m) = m
    rw [if_neg (by rw [h m hmem]; exact Bool.false_ne_true)]

/-! ## §7. Texts without a match. -/

/-- Nothing is matched anywhere in the text. -/
def Silent (r : Regexp) (p : Pos) : Prop := ∀ w x, p.after = w ++ x → ends r ⟨w.reverse ++ p.before, x⟩ = []

theorem ends_eq_nil_of_next {r : Regexp} (hr : r.consumes = true) {p : Pos} (h : next r p = none) :
    ends r p = [] := by
  cases hends : ends r p with
  | nil => rfl
  | cons q qs =>
    have hlt := length_lt_of_mem_ends hr (p := p) (q := q) (by rw [hends]; exact List.mem_cons_self)
    have hsome : next r p = some q := by
      unfold next
      rw [hends, List.head?_cons, Option.filter_some, if_pos (decide_eq_true hlt)]
    rw [hsome] at h
    cases h

theorem ends_nil {r : Regexp} (hr : r.consumes = true) (b : List Char) : ends r ⟨b, []⟩ = [] :=
  ends_eq_nil_of_next hr (next_nil r b)

theorem Silent.tail {r : Regexp} {b cs : List Char} {c : Char} (h : Silent r ⟨b, c :: cs⟩) :
    Silent r ⟨c :: b, cs⟩ := by
  intro w x hx
  have hcons := h (c :: w) x (by
    show c :: cs = c :: w ++ x
    rw [List.cons_append, ← hx])
  rwa [List.reverse_cons, List.append_assoc] at hcons

theorem silent_iff {r : Regexp} (hr : r.consumes = true) (n : Nat) {p : Pos} (hn : p.after.length ≤ n) :
    (∀ m, Chunk.hit m ∉ scan r n p) ↔ Silent r p := by
  induction n generalizing p with
  | zero =>
    have hnil : p.after = [] := List.length_eq_zero_iff.mp (Nat.le_zero.mp hn)
    constructor
    · intro _ w x hx
      rw [hnil] at hx
      obtain ⟨rfl, rfl⟩ := List.nil_eq_append_iff.mp hx
      exact ends_nil hr _
    · intro _ m hm
      change Chunk.hit m ∈ p.after.map Chunk.kept at hm
      rw [hnil] at hm
      cases hm
  | succ n ih =>
    obtain ⟨b, after⟩ := p
    cases after with
    | nil =>
      constructor
      · intro _ w x hx
        obtain ⟨rfl, rfl⟩ := List.nil_eq_append_iff.mp hx
        exact ends_nil hr _
      · intro _ m hm
        cases hm
    | cons c cs =>
      have hlength : cs.length ≤ n := Nat.le_of_succ_le_succ hn
      have hrest := ih (p := ⟨c :: b, cs⟩) hlength
      constructor
      · intro hnone
        have hnext : next r ⟨b, c :: cs⟩ = none := by
          cases hq : next r ⟨b, c :: cs⟩ with
          | none => rfl
          | some q =>
            refine absurd ?_ (hnone ((c :: cs).take ((c :: cs).length - q.after.length)))
            unfold scan
            dsimp only
            rw [hq]
            exact List.mem_cons_self
        have htail : Silent r ⟨c :: b, cs⟩ := by
          refine hrest.mp fun m hm => hnone m ?_
          unfold scan
          dsimp only
          rw [hnext]
          exact List.mem_cons_of_mem _ hm
        intro w x hx
        cases w with
        | nil =>
          change c :: cs = x at hx
          subst hx
          exact ends_eq_nil_of_next hr hnext
        | cons d w =>
          change c :: cs = d :: (w ++ x) at hx
          injection hx with hc hcs
          subst hc
          have hlater := htail w x hcs
          rwa [List.reverse_cons, List.append_assoc]
      · intro hsilent m hm
        have hnext : next r ⟨b, c :: cs⟩ = none := by
          have hends : ends r ⟨b, c :: cs⟩ = [] := hsilent [] (c :: cs) rfl
          unfold next
          rw [hends]
          rfl
        unfold scan at hm
        dsimp only at hm
        rw [hnext] at hm
        rcases List.mem_cons.mp hm with heq | hmem
        · cases heq
        · exact hrest.mpr hsilent.tail m hmem

theorem matchString_eq_false_iff {r : Regexp} (hr : r.consumes = true) (text : List Char) :
    r.matchString text = false ↔ Silent r ⟨[], text⟩ := by
  rw [← silent_iff hr text.length (Nat.le_refl _)]
  unfold matchString chunks
  constructor
  · intro h m hm
    have hhit := List.any_eq_false.mp h _ hm
    exact hhit rfl
  · intro h
    apply List.any_eq_false.mpr
    intro chunk hchunk
    cases chunk with
    | kept c => exact Bool.false_ne_true
    | hit m => exact absurd hchunk (h m)

/-- **One of two expressions matches** where one of them does. -/
theorem matchString_alt {a b : Regexp} (ha : a.consumes = true) (hb : b.consumes = true) (text : List Char) :
    (alt a b).matchString text = (a.matchString text || b.matchString text) := by
  have halt : (alt a b).consumes = true := by
    show (a.consumes && b.consumes) = true
    rw [ha, hb]
    rfl
  have hsilent : (alt a b).matchString text = false ↔ a.matchString text = false ∧ b.matchString text = false := by
    rw [matchString_eq_false_iff halt, matchString_eq_false_iff ha, matchString_eq_false_iff hb]
    constructor
    · intro h
      exact ⟨fun w x hx => (List.append_eq_nil_iff.mp (h w x hx)).1,
        fun w x hx => (List.append_eq_nil_iff.mp (h w x hx)).2⟩
    · intro h w x hx
      exact List.append_eq_nil_iff.mpr ⟨h.1 w x hx, h.2 w x hx⟩
  rw [Bool.eq_iff_iff, ← not_iff_not, Bool.not_eq_true, hsilent, Bool.not_eq_true, Bool.or_eq_false_iff]

/-- A separated text is matched on one side or the other. -/
theorem matchString_append {r : Regexp} {c : Char} (hword : isWordChar c = false) (hrefuses : r.refuses c = true)
    (u v : List Char) : r.matchString (u ++ c :: v) = (r.matchString u || r.matchString v) := by
  unfold matchString
  rw [chunks_append hword hrefuses, List.any_append, List.any_cons]
  rfl

/-- A match somewhere in a text. -/
theorem exists_of_matchString {r : Regexp} (hr : r.consumes = true) {text : List Char}
    (h : r.matchString text = true) : ∃ w x q, text = w ++ x ∧ q ∈ ends r ⟨w.reverse, x⟩ := by
  by_contra hnone
  have hsilent : Silent r ⟨[], text⟩ := by
    intro w x hx
    cases hends : ends r ⟨w.reverse ++ [], x⟩ with
    | nil => rfl
    | cons q qs =>
      rw [List.append_nil] at hends
      exact absurd ⟨w, x, q, hx, by rw [hends]; exact List.mem_cons_self⟩ hnone
  rw [(matchString_eq_false_iff hr text).mpr hsilent] at h
  cases h

/-- What goes on with a character reaches it. -/
theorem mem_after_of_seq_char {a b : Regexp} {accepts : Char → Bool} {p q : Pos}
    (h : q ∈ ends (seq a (seq (char accepts) b)) p) : ∃ c ∈ p.after, accepts c = true := by
  obtain ⟨m, hm, hq⟩ := List.mem_flatMap.mp h
  obtain ⟨k, hk, -⟩ := List.mem_flatMap.mp hq
  obtain ⟨w, hw, -⟩ := reaches_of_mem_ends hm
  unfold ends at hk
  split at hk
  · cases hk
  next c cs hafter =>
    split at hk
    next hc =>
      refine ⟨c, ?_, hc⟩
      rw [hw, hafter]
      exact List.mem_append_right w List.mem_cons_self
    · cases hk

/-- The expression of one character. -/
theorem matchString_char (accepts : Char → Bool) (text : List Char) :
    (char accepts).matchString text = true ↔ ∃ c ∈ text, accepts c = true := by
  constructor
  · intro h
    obtain ⟨w, x, q, rfl, hq⟩ := exists_of_matchString rfl h
    cases x with
    | nil => cases hq
    | cons c cs =>
      change q ∈ (if accepts c then _ else _) at hq
      split at hq
      next hc => exact ⟨c, List.mem_append_right w List.mem_cons_self, hc⟩
      · cases hq
  · rintro ⟨c, hmem, hc⟩
    by_contra hnone
    have hsilent := (matchString_eq_false_iff (r := char accepts) rfl text).mp (Bool.not_eq_true _ |>.mp hnone)
    obtain ⟨u, v, rfl⟩ := List.append_of_mem hmem
    have hends := hsilent u (c :: v) rfl
    change (if accepts c then _ else _) = _ at hends
    rw [if_pos hc] at hends
    cases hends

/-- **Without `\b`, a piece of a text without a match has none.** -/
theorem Silent.piece {r : Regexp} (hfree : r.boundaryFree = true) {b u g v : List Char}
    (h : Silent r ⟨b, u ++ (g ++ v)⟩) : Silent r ⟨[], g⟩ := by
  intro w x hx
  have hx : g = w ++ x := hx
  have hnone := h (u ++ w) (x ++ v) (by
    show u ++ (g ++ v) = u ++ w ++ (x ++ v)
    rw [hx, List.append_assoc, List.append_assoc])
  cases hends : ends r ⟨w.reverse ++ [], x⟩ with
  | nil => rfl
  | cons q qs =>
    have hmem := mem_ends_within hfree (B := u.reverse ++ b) (A := v)
      (p := ⟨w.reverse ++ [], x⟩) (q := q) (by rw [hends]; exact List.mem_cons_self)
    rw [show Pos.within (u.reverse ++ b) v ⟨w.reverse ++ [], x⟩ = ⟨(u ++ w).reverse ++ b, x ++ v⟩ by
      simp [Pos.within], hnone] at hmem
    cases hmem

/-- The first gap begins the text, and has no match where it stands. -/
theorem first_gap {r : Regexp} (hr : r.consumes = true) (n : Nat) {p : Pos} (hn : p.after.length ≤ n) :
    ∃ rest, p.after = (gaps (fun _ => true) (scan r n p)).1 ++ rest
      ∧ ∀ w x, (gaps (fun _ => true) (scan r n p)).1 = w ++ x →
        ends r ⟨w.reverse ++ p.before, x ++ rest⟩ = [] ∨ x = [] := by
  induction n generalizing p with
  | zero =>
    have hnil : p.after = [] := List.length_eq_zero_iff.mp (Nat.le_zero.mp hn)
    refine ⟨[], ?_, ?_⟩
    · show p.after = (gaps _ (p.after.map Chunk.kept)).1 ++ []
      rw [hnil]
      rfl
    · intro w x hx
      change (gaps _ (p.after.map Chunk.kept)).1 = w ++ x at hx
      rw [hnil] at hx
      exact .inr (List.nil_eq_append_iff.mp hx).2
  | succ n ih =>
    obtain ⟨b, after⟩ := p
    cases after with
    | nil => exact ⟨[], rfl, fun w x hx => .inr (List.nil_eq_append_iff.mp hx).2⟩
    | cons c cs =>
      have hlength : cs.length ≤ n := Nat.le_of_succ_le_succ hn
      unfold scan
      dsimp only
      cases hnext : next r ⟨b, c :: cs⟩ with
      | some q => exact ⟨c :: cs, rfl, fun w x hx => .inr (List.nil_eq_append_iff.mp hx).2⟩
      | none =>
        obtain ⟨rest, hrest, hsilent⟩ := ih (p := ⟨c :: b, cs⟩) hlength
        refine ⟨rest, congrArg (c :: ·) hrest, ?_⟩
        intro w x hx
        cases w with
        | nil =>
          left
          have hall : x ++ rest = c :: cs := by
            rw [← show _ = x from hx]
            exact congrArg (c :: ·) hrest.symm
          rw [hall]
          exact ends_eq_nil_of_next hr hnext
        | cons d w =>
          change c :: _ = d :: (w ++ x) at hx
          injection hx with hc hgap
          subst hc
          rcases hsilent w x hgap with hnone | hempty
          · left
            rwa [List.reverse_cons, List.append_assoc]
          · exact .inr hempty

/-- **Between the matches there is none**, where there is no `\b`. -/
theorem silent_of_mem_gaps {r : Regexp} (hr : r.consumes = true) (hfree : r.boundaryFree = true) (n : Nat)
    {p : Pos} (hn : p.after.length ≤ n) :
    ∀ g ∈ (gaps (fun _ => true) (scan r n p)).1 :: (gaps (fun _ => true) (scan r n p)).2, Silent r ⟨[], g⟩ := by
  have hfirst : ∀ (n : Nat) (p : Pos), p.after.length ≤ n →
      Silent r ⟨[], (gaps (fun _ => true) (scan r n p)).1⟩ := by
    intro n p hn
    obtain ⟨rest, -, hsilent⟩ := first_gap hr n hn
    intro w x hx
    rcases hsilent w x hx with hnone | hempty
    · cases hends : ends r ⟨w.reverse ++ [], x⟩ with
      | nil => rfl
      | cons q qs =>
        have hmem := mem_ends_within hfree (B := p.before) (A := rest)
          (p := ⟨w.reverse ++ [], x⟩) (q := q) (by rw [hends]; exact List.mem_cons_self)
        rw [show Pos.within p.before rest ⟨w.reverse ++ [], x⟩ = ⟨w.reverse ++ p.before, x ++ rest⟩ by
          simp [Pos.within], hnone] at hmem
        cases hmem
    · rw [hempty]
      exact ends_nil hr _
  induction n generalizing p with
  | zero =>
    intro g hg
    have hnil : p.after = [] := List.length_eq_zero_iff.mp (Nat.le_zero.mp hn)
    rcases List.mem_cons.mp hg with rfl | hmem
    · exact hfirst 0 p hn
    · change g ∈ (gaps _ (p.after.map Chunk.kept)).2 at hmem
      rw [hnil] at hmem
      cases hmem
  | succ n ih =>
    intro g hg
    rcases List.mem_cons.mp hg with rfl | hmem
    · exact hfirst (n + 1) p hn
    · obtain ⟨b, after⟩ := p
      cases after with
      | nil => cases hmem
      | cons c cs =>
        have hlength : cs.length ≤ n := Nat.le_of_succ_le_succ hn
        unfold scan at hmem
        dsimp only at hmem
        cases hnext : next r ⟨b, c :: cs⟩ with
        | none =>
          rw [hnext] at hmem
          exact ih (p := ⟨c :: b, cs⟩) hlength g (List.mem_cons_of_mem _ hmem)
        | some q =>
          have hlt : q.after.length < cs.length + 1 := next_lt hnext
          rw [hnext] at hmem
          exact ih (p := q) (by omega) g hmem

theorem matchString_of_mem_pieces {r : Regexp} (hr : r.consumes = true) (hfree : r.boundaryFree = true)
    {text g : List Char} (h : g ∈ pieces r (fun _ => true) text) : r.matchString g = false :=
  (matchString_eq_false_iff hr g).mpr (silent_of_mem_gaps hr hfree text.length (Nat.le_refl _) g h)

end Regexp

end Foundation
