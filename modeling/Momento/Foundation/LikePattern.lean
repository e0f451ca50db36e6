/-
  Momento.Foundation.LikePattern

  **LIKE PATTERNS.**  `%` stands for any text, `_` for any character, and a backslash
  takes the character after it as it is.  `matchText` is PostgreSQL's matcher: it gives
  up altogether where no later place in the text could match either, and complains of a
  pattern that ends in a backslash, if it comes that far.

      Matches     — what a pattern means
      matchText   — what the matcher answers
      escape      — a text with a backslash before each of the three characters
-/
import Mathlib.Data.List.Infix
import Mathlib.Tactic.IntervalCases

namespace Foundation.LikePattern

/-! ## §1. Patterns. -/

/-- The characters a pattern reads as syntax. -/
def isSyntax (c : Char) : Bool := c = '\\' || c = '%' || c = '_'

/-- What a pattern means. -/
inductive Matches : List Char → List Char → Prop
  | done : Matches [] []
  | any {p t u} : u <:+ t → Matches p u → Matches ('%' :: p) t
  | one {p c t} : Matches p t → Matches ('_' :: p) (c :: t)
  | escaped {p c t} : Matches p t → Matches ('\\' :: c :: p) (c :: t)
  | char {p c t} : isSyntax c = false → Matches p t → Matches (c :: p) (c :: t)

/-- The pattern does not end in a backslash that escapes nothing. -/
def complete : List Char → Bool
  | [] => true
  | c :: p =>
    if c = '\\' then
      match p with
      | [] => false
      | _ :: p => complete p
    else complete p

section

variable {c : Char} {p t : List Char}

theorem matches_nil : Matches [] t ↔ t = [] := by
  constructor
  · intro h
    cases h
    rfl
  · rintro rfl
    exact .done

theorem matches_any : Matches ('%' :: p) t ↔ ∃ u, u <:+ t ∧ Matches p u := by
  constructor
  · intro h
    cases h with
    | any hu hp => exact ⟨_, hu, hp⟩
    | char hc => cases hc
  · intro ⟨u, hu, hp⟩
    exact .any hu hp

theorem matches_one : Matches ('_' :: p) t ↔ ∃ d u, t = d :: u ∧ Matches p u := by
  constructor
  · intro h
    cases h with
    | one hp => exact ⟨_, _, rfl, hp⟩
    | char hc => cases hc
  · rintro ⟨d, u, rfl, hp⟩
    exact .one hp

theorem matches_escaped : Matches ('\\' :: c :: p) t ↔ ∃ u, t = c :: u ∧ Matches p u := by
  constructor
  · intro h
    cases h with
    | escaped hp => exact ⟨_, rfl, hp⟩
    | char hc => cases hc
  · rintro ⟨u, rfl, hp⟩
    exact .escaped hp

theorem matches_char (hc : isSyntax c = false) : Matches (c :: p) t ↔ ∃ u, t = c :: u ∧ Matches p u := by
  constructor
  · intro h
    cases h with
    | any | one | escaped => cases hc
    | char _ hp => exact ⟨_, rfl, hp⟩
  · rintro ⟨u, rfl, hp⟩
    exact .char hc hp

/-- The empty text is matched by nothing but `%`. -/
theorem matches_empty : Matches p [] ↔ p.all (· = '%') = true := by
  induction p with
  | nil => exact iff_of_true .done rfl
  | cons c p ih =>
    rw [List.all_cons, Bool.and_eq_true, decide_eq_true_eq, ← ih]
    constructor
    · intro h
      cases h with
      | any hu hp =>
        rw [List.suffix_nil.mp hu] at hp
        exact ⟨rfl, hp⟩
    · rintro ⟨rfl, hp⟩
      exact .any List.suffix_rfl hp

end

/-! ## §2. The matcher. -/

/-- `LIKE_TRUE`, `LIKE_FALSE`, `LIKE_ABORT`, and the error. -/
inductive Outcome
  | matched
  | failed
  | aborted
  | invalid
  deriving DecidableEq

/-- The places where the text has the first character of what is left, one after the
other. -/
def scan (rest : List Char → Outcome) (first : Char) : List Char → Outcome
  | [] => .aborted
  | d :: t =>
    if d = first then
      match rest t with
      | .failed => scan rest first t
      | outcome => outcome
    else scan rest first t

mutual

/-- `MatchText`. -/
def matchText : List Char → List Char → Outcome
  | [], t => if t = [] then .matched else .failed
  | c :: p, t =>
    match t with
    | [] => if (c :: p).all (· = '%') then .matched else .aborted
    | d :: t =>
      if c = '\\' then
        match p with
        | [] => .invalid
        | e :: p => if e = d then matchText p t else .failed
      else if c = '%' then matchRest p (d :: t)
      else if c = '_' then matchText p t
      else if c = d then matchText p t
      else .failed

/-- What follows a `%`. -/
def matchRest : List Char → List Char → Outcome
  | [], _ => .matched
  | c :: p, t =>
    if c = '%' then matchRest p t
    else if c = '_' then
      match t with
      | [] => .aborted
      | _ :: t => matchRest p t
    else if c = '\\' then
      match p with
      | [] => .invalid
      | e :: p => scan (matchText p) e t
    else scan (matchText p) c t

end

/-- What an answer tells about a text: giving up means that no end of it matches. -/
def Tells (m : List Char → Prop) (t : List Char) : Outcome → Prop
  | .matched => m t
  | .failed => ¬ m t
  | .aborted => ∀ u, u <:+ t → ¬ m u
  | .invalid => False

/-- The same is told of what is matched by the same texts. -/
theorem Tells.congr {m m' : List Char → Prop} {t : List Char} {o : Outcome} (h : Tells m t o) (hm : ∀ u, m' u ↔ m u) :
    Tells m' t o := by
  cases o with
  | matched => exact (hm t).mpr h
  | failed => exact fun h' => h ((hm t).mp h')
  | aborted => exact fun u hu h' => h u hu ((hm u).mp h')
  | invalid => exact h

/-- One character further: what is told of the rest is told of the text. -/
theorem Tells.cons {m m' : List Char → Prop} {d : Char} {t : List Char} {o : Outcome} (h : Tells m t o)
    (hstep : m' (d :: t) ↔ m t) (hrest : ∀ u, m' u → ∃ x v, u = x :: v ∧ m v) : Tells m' (d :: t) o := by
  cases o with
  | matched => exact hstep.mpr h
  | failed => exact fun h' => h (hstep.mp h')
  | aborted =>
    intro u hu h'
    obtain ⟨x, v, rfl, hv⟩ := hrest u h'
    obtain hsame | hsuffix := List.suffix_cons_iff.mp hu
    · obtain ⟨rfl, rfl⟩ := List.cons.inj hsame
      exact h v List.suffix_rfl hv
    · exact h v ((List.suffix_cons x v).trans hsuffix) hv
  | invalid => exact h

/-- Some end of the text begins with the character and goes on as it should. -/
def Somewhere (m : List Char → Prop) (first : Char) (t : List Char) : Prop :=
  ∃ u, u <:+ t ∧ ∃ v, u = first :: v ∧ m v

theorem somewhere_cons {m : List Char → Prop} {first d : Char} {t : List Char} :
    Somewhere m first (d :: t) ↔ (d = first ∧ m t) ∨ Somewhere m first t := by
  constructor
  · intro ⟨u, hu, v, huv, hv⟩
    obtain rfl | hsuffix := List.suffix_cons_iff.mp hu
    · obtain ⟨rfl, rfl⟩ := List.cons.inj huv
      exact .inl ⟨rfl, hv⟩
    · exact .inr ⟨u, hsuffix, v, huv, hv⟩
  · intro h
    obtain ⟨rfl, hm⟩ | ⟨u, hu, hv⟩ := h
    · exact ⟨_, List.suffix_rfl, t, rfl, hm⟩
    · exact ⟨u, hu.trans (List.suffix_cons d t), hv⟩

/-- A place that does not match leaves the answer to the later ones. -/
theorem Tells.later {m : List Char → Prop} {first d : Char} {t : List Char} {o : Outcome}
    (h : Tells (Somewhere m first) t o) (hnot : ¬ (d = first ∧ m t)) : Tells (Somewhere m first) (d :: t) o := by
  have hsame : Somewhere m first (d :: t) ↔ Somewhere m first t := by
    rw [somewhere_cons]
    exact or_iff_right hnot
  cases o with
  | matched => exact hsame.mpr h
  | failed => exact fun h' => h (hsame.mp h')
  | aborted =>
    intro u hu h'
    obtain rfl | hsuffix := List.suffix_cons_iff.mp hu
    · exact h t List.suffix_rfl (hsame.mp h')
    · exact h u hsuffix h'
  | invalid => exact h

/-- **The scan** finds a place if there is one, and gives up with the first that does. -/
theorem scan_tells {m : List Char → Prop} {rest : List Char → Outcome} (h : ∀ t, Tells m t (rest t)) (first : Char)
    (t : List Char) : Tells (Somewhere m first) t (scan rest first t) := by
  induction t with
  | nil =>
    intro u hu ⟨w, hw, v, hv, _⟩
    rw [List.suffix_nil.mp hu] at hw
    rw [List.suffix_nil.mp hw] at hv
    cases hv
  | cons d t ih =>
    unfold scan
    by_cases hd : d = first
    · rw [if_pos hd]
      have hrest := h t
      cases ho : rest t with
      | matched =>
        rw [ho] at hrest
        exact somewhere_cons.mpr (.inl ⟨hd, hrest⟩)
      | failed =>
        rw [ho] at hrest
        exact ih.later fun h' => hrest h'.2
      | aborted =>
        rw [ho] at hrest
        intro u hu ⟨w, hw, v, hwv, hv⟩
        -- What follows the character lies within the rest.
        obtain hsame | hsuffix := List.suffix_cons_iff.mp (hw.trans hu)
        · rw [hwv] at hsame
          exact hrest v ((List.cons.inj hsame).2 ▸ List.suffix_rfl) hv
        · rw [hwv] at hsuffix
          exact hrest v ((List.suffix_cons first v).trans hsuffix) hv
      | invalid =>
        rw [ho] at hrest
        exact hrest.elim
    · rw [if_neg hd]
      exact ih.later fun h' => hd h'.1

theorem isSyntax_false {c : Char} (hslash : c ≠ '\\') (hany : c ≠ '%') (hone : c ≠ '_') : isSyntax c = false := by
  simp [isSyntax, hslash, hany, hone]

theorem complete_cons {c : Char} (hslash : c ≠ '\\') (p : List Char) : complete (c :: p) = complete p := by
  rw [complete.eq_def]
  exact if_neg hslash

/-- What stands after a `%` and begins with a character is looked for. -/
theorem matches_any_char {c : Char} {p t : List Char} (hc : isSyntax c = false) :
    Matches ('%' :: c :: p) t ↔ Somewhere (Matches p) c t := by
  rw [matches_any]
  exact exists_congr fun u => and_congr_right fun _ => matches_char hc

theorem matches_any_escaped {c : Char} {p t : List Char} :
    Matches ('%' :: '\\' :: c :: p) t ↔ Somewhere (Matches p) c t := by
  rw [matches_any]
  exact exists_congr fun u => and_congr_right fun _ => matches_escaped

theorem matches_any_any {p t : List Char} : Matches ('%' :: '%' :: p) t ↔ Matches ('%' :: p) t := by
  rw [matches_any]
  constructor
  · intro ⟨u, hu, h⟩
    obtain ⟨v, hv, hp⟩ := matches_any.mp h
    exact .any (hv.trans hu) hp
  · intro h
    exact ⟨t, List.suffix_rfl, h⟩

theorem matches_any_one {d : Char} {p t : List Char} : Matches ('%' :: '_' :: p) (d :: t) ↔ Matches ('%' :: p) t := by
  rw [matches_any, matches_any]
  constructor
  · intro ⟨u, hu, h⟩
    obtain ⟨x, v, rfl, hp⟩ := matches_one.mp h
    refine ⟨v, ?_, hp⟩
    obtain hsame | hsuffix := List.suffix_cons_iff.mp hu
    · exact (List.cons.inj hsame).2 ▸ List.suffix_rfl
    · exact (List.suffix_cons x v).trans hsuffix
  · intro ⟨u, ⟨front, hfront⟩, hp⟩
    -- There is a character before the end that is matched.
    obtain hnil | ⟨init, x, hinit⟩ := List.eq_nil_or_concat (d :: front)
    · cases hnil
    · rw [List.concat_eq_append] at hinit
      refine ⟨x :: u, ⟨init, ?_⟩, .one hp⟩
      rw [← hfront, ← List.cons_append, hinit, List.append_assoc]
      rfl

/-- Nothing but a character and an underscore is needed for what follows a `%`. -/
theorem not_matches_any_one_nil {p : List Char} : ¬ Matches ('%' :: '_' :: p) [] := by
  intro h
  obtain ⟨u, hu, h'⟩ := matches_any.mp h
  obtain ⟨x, v, hv, -⟩ := matches_one.mp h'
  rw [List.suffix_nil.mp hu] at hv
  cases hv

/-- Both halves of the matcher answer what a pattern means. -/
def Told (p : List Char) : Prop :=
  ∀ t, Tells (Matches p) t (matchText p t) ∧ Tells (Matches ('%' :: p)) t (matchRest p t)

section Step

variable {c : Char} {p : List Char}

/-- A character of the text that is asked for, with what is told of the rest. -/
theorem tells_compared {q : List Char} {e d : Char} {t : List Char} {o : Outcome}
    (hq : ∀ u, Matches q u ↔ ∃ v, u = e :: v ∧ Matches p v) (h : Tells (Matches p) t o) :
    Tells (Matches q) (d :: t) (if e = d then o else .failed) := by
  by_cases hsame : e = d
  · rw [if_pos hsame]
    obtain rfl := hsame
    refine h.cons ((hq _).trans ?_) fun u hu => ?_
    · constructor
      · rintro ⟨v, hv, hp⟩
        rw [(List.cons.inj hv).2]
        exact hp
      · intro hp
        exact ⟨t, rfl, hp⟩
    · obtain ⟨v, hv, hp⟩ := (hq u).mp hu
      exact ⟨e, v, hv, hp⟩
  · rw [if_neg hsame]
    intro hm
    obtain ⟨v, hv, -⟩ := (hq _).mp hm
    exact hsame (List.cons.inj hv).1.symm

theorem matchText_cons (hcomplete : complete (c :: p) = true)
    (h : ∀ q : List Char, q.length ≤ p.length → complete q = true → Told q) (t : List Char) :
    Tells (Matches (c :: p)) t (matchText (c :: p) t) := by
  cases t with
  | nil =>
    rw [matchText]
    split
    · exact matches_empty.mpr ‹_›
    intro u hu hm
    rw [List.suffix_nil.mp hu, matches_empty] at hm
    exact ‹¬ _› hm
  | cons d t =>
    rw [matchText.eq_def]
    dsimp only
    by_cases hslash : c = '\\'
    · obtain rfl := hslash
      rw [if_pos rfl]
      cases p with
      | nil => cases hcomplete
      | cons e p =>
        have hp : complete p = true := hcomplete
        exact tells_compared (fun u => matches_escaped) (h p (Nat.le_succ _) hp t).1
    · rw [if_neg hslash]
      rw [complete_cons hslash] at hcomplete
      have hp := h p le_rfl hcomplete
      by_cases hany : c = '%'
      · obtain rfl := hany
        rw [if_pos rfl]
        exact (hp (d :: t)).2
      · rw [if_neg hany]
        by_cases hone : c = '_'
        · obtain rfl := hone
          rw [if_pos rfl]
          exact (hp t).1.cons (matches_one.trans (by simp)) fun u hu => matches_one.mp hu
        · rw [if_neg hone]
          exact tells_compared (fun u => matches_char (isSyntax_false hslash hany hone)) (hp t).1

theorem matchRest_cons (hcomplete : complete (c :: p) = true)
    (h : ∀ q : List Char, q.length ≤ p.length → complete q = true → Told q) (t : List Char) :
    Tells (Matches ('%' :: c :: p)) t (matchRest (c :: p) t) := by
  rw [matchRest.eq_def]
  dsimp only
  by_cases hslash : c = '\\'
  · obtain rfl := hslash
    rw [if_neg (by decide), if_neg (by decide), if_pos rfl]
    cases p with
    | nil => cases hcomplete
    | cons e p =>
      have hp : complete p = true := hcomplete
      exact (scan_tells (fun t => (h p (Nat.le_succ _) hp t).1) e t).congr fun u => matches_any_escaped
  · rw [complete_cons hslash] at hcomplete
    have hp := h p le_rfl hcomplete
    by_cases hany : c = '%'
    · obtain rfl := hany
      rw [if_pos rfl]
      exact (hp t).2.congr fun u => matches_any_any
    · rw [if_neg hany]
      by_cases hone : c = '_'
      · obtain rfl := hone
        rw [if_pos rfl]
        cases t with
        | nil =>
          intro u hu hm
          rw [List.suffix_nil.mp hu] at hm
          exact not_matches_any_one_nil hm
        | cons d t =>
          refine (hp t).2.cons matches_any_one fun u hu => ?_
          cases u with
          | nil => exact absurd hu not_matches_any_one_nil
          | cons x v => exact ⟨x, v, rfl, matches_any_one.mp hu⟩
      · rw [if_neg hone, if_neg hslash]
        exact (scan_tells (fun t => (hp t).1) c t).congr fun u => matches_any_char (isSyntax_false hslash hany hone)

end Step

/-- **On a complete pattern the matcher answers what it means.**  The induction is on the
length of the pattern: every step takes at least one character off it. -/
theorem matchText_tells (n : Nat) : ∀ p : List Char, p.length ≤ n → complete p = true → Told p := by
  induction n with
  | zero =>
    intro p hlength _ t
    obtain rfl := List.length_eq_zero_iff.mp (Nat.le_zero.mp hlength)
    refine ⟨?_, .any (List.nil_suffix) .done⟩
    rw [matchText]
    split
    · exact matches_nil.mpr ‹_›
    · exact fun h => absurd (matches_nil.mp h) ‹_›
  | succ n ih =>
    intro p hlength hcomplete t
    cases p with
    | nil => exact ih [] (Nat.zero_le n) rfl t
    | cons c p =>
      have hshorter : ∀ q : List Char, q.length ≤ p.length → complete q = true → Told q :=
        fun q hq => ih q (hq.trans (Nat.le_of_succ_le_succ hlength))
      exact ⟨matchText_cons hcomplete hshorter t, matchRest_cons hcomplete hshorter t⟩

/-- The matcher accepts what the pattern means, and has no complaint. -/
theorem matchText_iff {p : List Char} (h : complete p = true) (t : List Char) :
    (matchText p t = .matched ↔ Matches p t) ∧ matchText p t ≠ .invalid := by
  have htells := (matchText_tells p.length p le_rfl h t).1
  cases ho : matchText p t with
  | matched =>
    rw [ho] at htells
    exact ⟨iff_of_true rfl htells, by decide⟩
  | failed =>
    rw [ho] at htells
    exact ⟨iff_of_false (by decide) htells, by decide⟩
  | aborted =>
    rw [ho] at htells
    exact ⟨iff_of_false (by decide) (htells t List.suffix_rfl), by decide⟩
  | invalid =>
    rw [ho] at htells
    exact htells.elim

/-! ## §3. Escaped texts. -/

/-- A backslash before each of the three characters. -/
def escape (v : List Char) : List Char := v.flatMap fun c => if isSyntax c then ['\\', c] else [c]

theorem escape_cons (c : Char) (v : List Char) :
    escape (c :: v) = if isSyntax c then '\\' :: c :: escape v else c :: escape v := by
  rw [escape, List.flatMap_cons]
  split <;> rfl

theorem complete_escape_append (v : List Char) {p : List Char} (h : complete p = true) :
    complete (escape v ++ p) = true := by
  induction v with
  | nil => exact h
  | cons c v ih =>
    rw [escape_cons]
    by_cases hc : isSyntax c = true
    · rw [if_pos hc]
      exact ih
    · rw [if_neg hc]
      have hslash : c ≠ '\\' := by
        rintro rfl
        exact hc rfl
      rw [List.cons_append, complete_cons hslash]
      exact ih

/-- **An escaped text matches itself and nothing else.** -/
theorem matches_escape_append (v p t : List Char) : Matches (escape v ++ p) t ↔ ∃ u, t = v ++ u ∧ Matches p u := by
  induction v generalizing t with
  | nil =>
    constructor
    · intro h
      exact ⟨t, rfl, h⟩
    · rintro ⟨u, rfl, h⟩
      exact h
  | cons c v ih =>
    have hstep : Matches (escape (c :: v) ++ p) t ↔ ∃ u, t = c :: u ∧ Matches (escape v ++ p) u := by
      rw [escape_cons]
      by_cases hc : isSyntax c = true
      · rw [if_pos hc]
        exact matches_escaped
      · rw [if_neg hc]
        exact matches_char ((Bool.not_eq_true _).mp hc)
    rw [hstep]
    constructor
    · rintro ⟨w, rfl, h⟩
      obtain ⟨u, rfl, hp⟩ := (ih w).mp h
      exact ⟨u, rfl, hp⟩
    · rintro ⟨u, rfl, hp⟩
      exact ⟨v ++ u, rfl, (ih _).mpr ⟨u, rfl, hp⟩⟩

/-- `%` at the end lets anything follow. -/
theorem matches_startsWith (v t : List Char) : Matches (escape v ++ ['%']) t ↔ v <+: t := by
  rw [matches_escape_append]
  constructor
  · rintro ⟨u, rfl, -⟩
    exact List.prefix_append v u
  · rintro ⟨u, rfl⟩
    exact ⟨u, rfl, .any List.nil_suffix .done⟩

/-- With `%` on both sides a text is looked for anywhere. -/
theorem matches_contains (v t : List Char) : Matches ('%' :: escape v ++ ['%']) t ↔ v <:+: t := by
  rw [List.cons_append, matches_any]
  constructor
  · intro ⟨u, hu, h⟩
    exact ((matches_startsWith v u).mp h).isInfix.trans hu.isInfix
  · rintro ⟨front, back, rfl⟩
    refine ⟨v ++ back, ⟨front, (List.append_assoc ..).symm⟩, ?_⟩
    exact (matches_startsWith v _).mpr (List.prefix_append v back)

/-- With `%` before it, at the end. -/
theorem matches_endsWith (v t : List Char) : Matches ('%' :: escape v) t ↔ v <:+ t := by
  rw [matches_any]
  have hexact : ∀ u, Matches (escape v) u ↔ u = v := by
    intro u
    have happend := matches_escape_append v [] u
    rw [List.append_nil] at happend
    rw [happend]
    constructor
    · rintro ⟨w, rfl, hw⟩
      rw [matches_nil.mp hw, List.append_nil]
    · rintro rfl
      exact ⟨[], (List.append_nil _).symm, .done⟩
  constructor
  · intro ⟨u, hu, h⟩
    rw [← (hexact u).mp h]
    exact hu
  · intro h
    exact ⟨v, h, (hexact v).mpr rfl⟩

/-! ## §4. Letters of either case. -/

/-- The lower case of a text, character by character; no character but the three
themselves becomes one of them. -/
structure CaseFolding where
  lower : Char → List Char
  syntax_kept : ∀ c, isSyntax c = true → lower c = [c]
  syntax_only : ∀ c, isSyntax c = false → ∀ d ∈ lower c, isSyntax d = false

namespace CaseFolding

variable (fold : CaseFolding)

/-- A text, folded. -/
def lowerText (t : List Char) : List Char := t.flatMap fold.lower

theorem escape_of_plain {v : List Char} (h : ∀ d ∈ v, isSyntax d = false) : escape v = v := by
  induction v with
  | nil => rfl
  | cons c v ih =>
    rw [escape_cons, if_neg (by rw [h c List.mem_cons_self]; decide), ih fun d hd => h d (List.mem_cons_of_mem c hd)]

/-- **Escaping and folding commute.** -/
theorem lowerText_escape (v : List Char) : fold.lowerText (escape v) = escape (fold.lowerText v) := by
  induction v with
  | nil => rfl
  | cons c v ih =>
    have hfold : ∀ w : List Char, fold.lowerText (c :: w) = fold.lower c ++ fold.lowerText w := fun w => List.flatMap_cons
    have happend : escape (fold.lower c ++ fold.lowerText v) = escape (fold.lower c) ++ escape (fold.lowerText v) :=
      List.flatMap_append ..
    rw [hfold, happend, ← ih, escape_cons]
    by_cases hc : isSyntax c = true
    · have hslash : fold.lowerText ('\\' :: c :: escape v) = '\\' :: fold.lowerText (c :: escape v) := by
        rw [lowerText, List.flatMap_cons, fold.syntax_kept _ rfl]
        rfl
      rw [if_pos hc, hslash, hfold, fold.syntax_kept c hc, escape_cons, if_pos hc]
      rfl
    · rw [if_neg hc, hfold, escape_of_plain (fold.syntax_only c ((Bool.not_eq_true _).mp hc))]

/-- `ILIKE`: the text and the pattern in lower case. -/
def ilike (t p : List Char) : Outcome := matchText (fold.lowerText p) (fold.lowerText t)

/-- A capital letter becomes a letter. -/
theorem isSyntax_toLower {c : Char} (hc : isSyntax c = false) : isSyntax c.toLower = false := by
  by_cases hupper : 65 ≤ c.toNat ∧ c.toNat ≤ 90
  · obtain ⟨n, hn⟩ : ∃ n, c.toNat = n := ⟨_, rfl⟩
    have hchar : c = Char.ofNat n := by rw [← hn, Char.ofNat_toNat]
    rw [hn] at hupper
    obtain ⟨hlow, hhigh⟩ := hupper
    rw [hchar]
    interval_cases n <;> rfl
  · have hsame : c.toLower = c := by
      unfold Char.toLower
      rw [dif_neg]
      intro h
      exact hupper ⟨h.1, h.2⟩
    rw [hsame]
    exact hc

/-- The Latin letters in lower case, which every server folds. -/
def latin : CaseFolding where
  lower c := [c.toLower]
  syntax_kept := by
    intro c hc
    simp only [isSyntax, Bool.or_eq_true, decide_eq_true_eq] at hc
    obtain (rfl | rfl) | rfl := hc <;> rfl
  syntax_only := by
    intro c hc d hd
    rw [List.mem_singleton.mp hd]
    exact isSyntax_toLower hc

end CaseFolding

end Foundation.LikePattern
