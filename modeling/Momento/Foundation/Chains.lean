/-
  Momento.Foundation.Chains

  **CHAINS OF ROWS, AND THE EARLIEST ONE.**  A list of steps is a list of
  predicates on rows.  A chain answers the steps in turn with rows in
  nondecreasing time order, each near enough to the one before it.

  A search that keeps one time per step (the earliest row of the step that may
  follow the time kept) finds a chain, but not every chain:

      reached       — the time the search keeps after the last step
      EndsAt        — some chain of these steps ends at this time
      EarliestEnd   — the same without the bound, and no such chain ends earlier
      Stranded      — two consecutive earliest ends are too far apart

  `reached_isSome_iff` is the main result: the search gets through exactly
  when there is a chain and no prefix of the steps strands it.
-/
import Mathlib.Data.List.Chain
import Momento.Foundation.OrderedAggregate

namespace Foundation.Chains

section
variable {ρ : Type} (time : ρ → Int)

/-! ## §1. Chains. -/

/-- `b` may follow `a`: not before it, and near enough. -/
def Follows (near : Int → Int → Bool) (a b : ρ) : Prop :=
  time a ≤ time b ∧ near (time a) (time b) = true

/-- `es` answers the steps in turn, with rows of `rows`. -/
structure Chain (near : Int → Int → Bool) (rows : List ρ) (steps : List (ρ → Bool)) (es : List ρ) : Prop where
  answers : List.Forall₂ (fun p e => p e = true) steps es
  ofRows : ∀ e ∈ es, e ∈ rows
  follows : es.IsChain (Follows time near)

/-- Some chain of these steps ends at `t`. -/
def EndsAt (near : Int → Int → Bool) (rows : List ρ) (steps : List (ρ → Bool)) (t : Int) : Prop :=
  ∃ es e, Chain time near rows steps (es ++ [e]) ∧ time e = t

/-- Rows that are never too far apart. -/
def anyGap : Int → Int → Bool := fun _ _ => true

/-- The earliest time the steps can be done by, however long they take. -/
def EarliestEnd (rows : List ρ) (steps : List (ρ → Bool)) (t : Int) : Prop :=
  EndsAt time anyGap rows steps t ∧ ∀ t', EndsAt time anyGap rows steps t' → t ≤ t'

/-- Of two consecutive earliest ends, the second is too late for the first. -/
def Stranded (near : Int → Int → Bool) (rows : List ρ) (steps : List (ρ → Bool)) : Prop :=
  ∃ before p t t', before ≠ [] ∧ before ++ [p] <+: steps ∧ EarliestEnd time rows before t ∧
    EarliestEnd time rows (before ++ [p]) t' ∧ near t t' = false

variable {time} {near : Int → Int → Bool} {rows : List ρ} {steps : List (ρ → Bool)} {p : ρ → Bool} {t : Int}

/-- An event for each step. -/
theorem Chain.length {es : List ρ} (h : Chain time near rows steps es) : es.length = steps.length :=
  h.answers.length_eq.symm

/-- A chain of a row more: the chain without it, and the row. -/
theorem chain_concat {es : List ρ} {e : ρ} :
    Chain time near rows (steps ++ [p]) (es ++ [e])
      ↔ Chain time near rows steps es ∧ p e = true ∧ e ∈ rows ∧ ∀ a ∈ es.getLast?, Follows time near a e := by
  constructor
  · intro h
    have hlen : steps.length = es.length := by
      have := h.length
      simp only [List.length_append, List.length_singleton] at this
      omega
    refine ⟨⟨?_, fun a ha => h.ofRows a (List.mem_append_left _ ha), ?_⟩, ?_,
      h.ofRows e (by simp), ?_⟩
    · have := List.forall₂_take steps.length h.answers
      rwa [List.take_left, hlen, List.take_left] at this
    · exact (List.isChain_append.mp h.follows).1
    · have := List.forall₂_drop steps.length h.answers
      rw [List.drop_left, hlen, List.drop_left] at this
      exact (List.forall₂_cons.mp this).1
    · intro a ha
      exact (List.isChain_append.mp h.follows).2.2 a ha e (by simp)
  · rintro ⟨h, hp, he, hlast⟩
    refine ⟨List.rel_append h.answers (List.Forall₂.cons hp .nil), ?_, ?_⟩
    · intro a ha
      rcases List.mem_append.mp ha with ha | ha
      · exact h.ofRows a ha
      · rw [List.mem_singleton.mp ha]
        exact he
    · apply List.isChain_append.mpr
      refine ⟨h.follows, List.isChain_singleton _, ?_⟩
      intro a ha b hb
      obtain rfl : e = b := by simpa using hb
      exact hlast a ha

theorem endsAt_single : EndsAt time near rows [p] t ↔ ∃ e ∈ rows, p e = true ∧ time e = t := by
  constructor
  · rintro ⟨es, e, h, ht⟩
    have hchain : Chain time near rows ([] ++ [p]) (es ++ [e]) := h
    obtain ⟨-, hp, he, -⟩ := chain_concat.mp hchain
    exact ⟨e, he, hp, ht⟩
  · rintro ⟨e, he, hp, ht⟩
    have hchain : Chain time near rows ([] ++ [p]) ([] ++ [e]) :=
      chain_concat.mpr ⟨⟨.nil, by simp, .nil⟩, hp, he, by simp⟩
    exact ⟨[], e, hchain, ht⟩

/-- The last step. -/
theorem endsAt_concat (hsteps : steps ≠ []) :
    EndsAt time near rows (steps ++ [p]) t
      ↔ ∃ e ∈ rows, p e = true ∧ time e = t
          ∧ ∃ t', EndsAt time near rows steps t' ∧ t' ≤ t ∧ near t' t = true := by
  constructor
  · rintro ⟨es, e, h, rfl⟩
    obtain ⟨hchain, hp, he, hfollows⟩ := chain_concat.mp h
    -- the steps before `p` are not empty, so the chain before `e` has a last row
    obtain ⟨es, a, rfl⟩ : ∃ es' a, es = es' ++ [a] := by
      have hne : es ≠ [] := by
        intro hnil
        apply hsteps
        rw [← List.length_eq_zero_iff, ← hchain.length, hnil, List.length_nil]
      exact ⟨_, _, (List.dropLast_append_getLast hne).symm⟩
    have hae := hfollows a (by simp)
    exact ⟨e, he, hp, rfl, time a, ⟨es, a, hchain, rfl⟩, hae.1, hae.2⟩
  · rintro ⟨e, he, hp, rfl, t', ⟨es, a, hchain, rfl⟩, hle, hnear⟩
    refine ⟨es ++ [a], e, chain_concat.mpr ⟨hchain, hp, he, ?_⟩, rfl⟩
    intro b hb
    obtain rfl : a = b := by simpa using hb
    exact ⟨hle, hnear⟩

/-- Rows far apart or not, a chain is one without a bound. -/
theorem Chain.loose {es : List ρ} (h : Chain time near rows steps es) : Chain time anyGap rows steps es :=
  ⟨h.answers, h.ofRows, h.follows.imp fun _ _ hab => ⟨hab.1, rfl⟩⟩

/-- Any gap is allowed. -/
theorem EndsAt.loose (h : EndsAt time near rows steps t) : EndsAt time anyGap rows steps t := by
  obtain ⟨es, e, hchain, ht⟩ := h
  exact ⟨es, e, hchain.loose, ht⟩

/-- Every row of a chain answers one of the steps. -/
theorem Chain.answers_some {es : List ρ} (h : Chain time near rows steps es) {e : ρ} (he : e ∈ es) :
    ∃ p ∈ steps, p e = true := by
  have hanswers := h.answers
  clear h
  induction hanswers with
  | nil => cases he
  | @cons p a steps es hp _ ih =>
    rcases List.mem_cons.mp he with rfl | he
    · exact ⟨p, List.mem_cons_self, hp⟩
    · obtain ⟨q, hq, hqe⟩ := ih he
      exact ⟨q, List.mem_cons_of_mem _ hq, hqe⟩

/-- Steps no row answers two of are answered by as many rows as there are steps. -/
theorem Chain.nodup_of_disjoint {es : List ρ} (h : Chain time near rows steps es)
    (hdisjoint : steps.Pairwise fun p q => ∀ e ∈ rows, ¬ (p e = true ∧ q e = true)) : es.Nodup := by
  induction es generalizing steps with
  | nil => exact List.nodup_nil
  | cons e es ih =>
    obtain ⟨hanswers, hrows, hfollows⟩ := h
    cases hanswers with
    | @cons p _ steps _ hp hanswers =>
      obtain ⟨hfirst, hrest⟩ := List.pairwise_cons.mp hdisjoint
      have htail : Chain time near rows steps es :=
        ⟨hanswers, fun a ha => hrows a (List.mem_cons_of_mem _ ha), hfollows.tail⟩
      refine List.nodup_cons.mpr ⟨?_, ih htail hrest⟩
      -- a second place of `e` would be an answer to a later step too
      intro he
      obtain ⟨q, hq, hqe⟩ := htail.answers_some he
      exact hfirst q hq e (hrows e List.mem_cons_self) ⟨hp, hqe⟩

/-! ## §2. The search. -/

/-- The earliest row of the step. -/
def first (time : ρ → Int) (rows : List ρ) (p : ρ → Bool) : Option Int := minTime time (rows.filter p)

/-- The earliest row of the step that may follow `t`. -/
def next (time : ρ → Int) (near : Int → Int → Bool) (rows : List ρ) (p : ρ → Bool) (t : Int) : Option Int :=
  minTime time (rows.filter fun e => p e && decide (t ≤ time e) && near t (time e))

/-- **The search**: one time per step, each the earliest that may follow the one
before it. -/
def reached (time : ρ → Int) (near : Int → Int → Bool) (rows : List ρ) : List (ρ → Bool) → Option Int
  | [] => none
  | p :: steps => steps.foldl (fun t p => t.bind (next time near rows p)) (first time rows p)

theorem reached_concat (hsteps : steps ≠ []) :
    reached time near rows (steps ++ [p]) = (reached time near rows steps).bind (next time near rows p) := by
  cases steps with
  | nil => exact absurd rfl hsteps
  | cons q steps =>
    show List.foldl _ _ (steps ++ [p]) = _
    rw [List.foldl_append]
    rfl

theorem first_eq_some : first time rows p = some t ↔
    (∃ e ∈ rows, p e = true ∧ time e = t) ∧ ∀ e ∈ rows, p e = true → t ≤ time e := by
  unfold first minTime
  rw [List.min?_eq_some_iff]
  simp only [List.mem_map, List.mem_filter, forall_exists_index, and_imp]
  constructor
  · rintro ⟨⟨e, ⟨he, hp⟩, ht⟩, hleast⟩
    exact ⟨⟨e, he, hp, ht⟩, fun e he hp => hleast _ e he hp rfl⟩
  · rintro ⟨⟨e, he, hp, ht⟩, hleast⟩
    refine ⟨⟨e, ⟨he, hp⟩, ht⟩, ?_⟩
    rintro _ e he hp rfl
    exact hleast e he hp

theorem next_eq_first (t : Int) : next time near rows p t
    = first time rows (fun e => p e && decide (t ≤ time e) && near t (time e)) := rfl

/-- What the search finds after a step more. -/
theorem next_eq_some {t' : Int} : next time near rows p t' = some t ↔
    (∃ e ∈ rows, p e = true ∧ time e = t ∧ t' ≤ t ∧ near t' t = true)
      ∧ ∀ e ∈ rows, p e = true → t' ≤ time e → near t' (time e) = true → t ≤ time e := by
  rw [next_eq_first, first_eq_some]
  simp only [Bool.and_eq_true, decide_eq_true_eq, and_imp]
  constructor
  · rintro ⟨⟨e, he, ⟨⟨hp, hle⟩, hnear⟩, rfl⟩, hleast⟩
    exact ⟨⟨e, he, hp, rfl, hle, hnear⟩, hleast⟩
  · rintro ⟨⟨e, he, hp, rfl, hle, hnear⟩, hleast⟩
    exact ⟨⟨e, he, ⟨⟨hp, hle⟩, hnear⟩, rfl⟩, hleast⟩

theorem exists_first (h : ∃ e ∈ rows, p e = true) : ∃ t, first time rows p = some t := by
  rw [← Option.isSome_iff_exists, Option.isSome_iff_ne_none, Ne, first, minTime_eq_none_iff, List.filter_eq_nil_iff]
  intro hnone
  obtain ⟨e, he, hp⟩ := h
  exact hnone e he hp

/-! ## §3. What the search finds is a chain. -/

theorem endsAt_of_reached : ∀ {steps : List (ρ → Bool)} {t : Int},
    reached time near rows steps = some t → EndsAt time near rows steps t := by
  intro steps
  -- the search goes from the first step on, so the induction is on the last one
  induction steps using List.reverseRecOn with
  | nil =>
    intro t h
    cases h
  | append_singleton steps p ih =>
    intro t h
    by_cases hsteps : steps = []
    · subst hsteps
      exact endsAt_single.mpr (first_eq_some.mp h).1
    · rw [reached_concat hsteps] at h
      obtain ⟨t', ht', hnext⟩ := Option.bind_eq_some_iff.mp h
      obtain ⟨⟨e, he, hp, htime, hle, hnear⟩, -⟩ := next_eq_some.mp hnext
      exact (endsAt_concat hsteps).mpr ⟨e, he, hp, htime, t', ih ht', hle, hnear⟩

/-! ## §4. Without a bound it finds the earliest one. -/

/-- Whatever chain there is, the unbounded search gets at least as far, and not
later. -/
theorem reached_le_of_endsAt : ∀ {steps : List (ρ → Bool)} {t' : Int},
    EndsAt time anyGap rows steps t' → ∃ t, reached time anyGap rows steps = some t ∧ t ≤ t' := by
  intro steps
  induction steps using List.reverseRecOn with
  | nil =>
    rintro t' ⟨es, e, h, -⟩
    have := h.length
    simp at this
  | append_singleton steps p ih =>
    intro t' h
    by_cases hsteps : steps = []
    · subst hsteps
      obtain ⟨e, he, hp, rfl⟩ := endsAt_single.mp h
      obtain ⟨t, ht⟩ : ∃ t, first time rows p = some t := exists_first ⟨e, he, hp⟩
      exact ⟨t, ht, (first_eq_some.mp ht).2 e he hp⟩
    · obtain ⟨e, he, hp, rfl, s', hs', hle, -⟩ := (endsAt_concat hsteps).mp h
      obtain ⟨s, hs, hss'⟩ := ih hs'
      rw [reached_concat hsteps, hs, Option.bind_some]
      have hse : s ≤ time e := hss'.trans hle
      have hmatch : ∃ e ∈ rows, (p e && decide (s ≤ time e) && anyGap s (time e)) = true :=
        ⟨e, he, by simp [hp, hse, anyGap]⟩
      obtain ⟨t, ht⟩ : ∃ t, first time rows _ = some t := exists_first hmatch
      exact ⟨t, ht, (next_eq_some.mp ht).2 e he hp hse rfl⟩

/-- `reached` finds the earliest end. -/
theorem earliestEnd_iff : EarliestEnd time rows steps t ↔ reached time anyGap rows steps = some t := by
  constructor
  · rintro ⟨hends, hleast⟩
    obtain ⟨s, hs, hst⟩ := reached_le_of_endsAt hends
    rw [hs, le_antisymm hst (hleast s (endsAt_of_reached hs))]
  · intro h
    refine ⟨endsAt_of_reached h, ?_⟩
    intro t' h'
    obtain ⟨s, hs, hst⟩ := reached_le_of_endsAt h'
    rw [h] at hs
    obtain rfl := Option.some.inj hs
    exact hst

/-! ## §5. With a bound it is the same search, as far as it gets. -/

theorem Stranded.concat (h : Stranded time near rows steps) : Stranded time near rows (steps ++ [p]) := by
  obtain ⟨before, q, t, t', hne, hextends, rest⟩ := h
  exact ⟨before, q, t, t', hne, hextends.trans (List.prefix_append _ _), rest⟩

/-- A step more strands the chain where the prefix does, or at that step. -/
theorem stranded_concat (hsteps : steps ≠ []) : Stranded time near rows (steps ++ [p])
    ↔ Stranded time near rows steps ∨ ∃ t t', EarliestEnd time rows steps t
        ∧ EarliestEnd time rows (steps ++ [p]) t' ∧ near t t' = false := by
  constructor
  · rintro ⟨before, q, t, t', hne, hextends, ht, ht', hfar⟩
    rcases List.prefix_concat_iff.mp hextends with heq | hextends
    · obtain ⟨rfl, rfl⟩ : before = steps ∧ q = p := by simpa using heq
      exact .inr ⟨t, t', ht, ht', hfar⟩
    · exact .inl ⟨before, q, t, t', hne, hextends, ht, ht', hfar⟩
  · rintro (h | ⟨t, t', ht, ht', hfar⟩)
    · exact h.concat
    · exact ⟨steps, p, t, t', hsteps, List.prefix_rfl, ht, ht', hfar⟩

theorem not_stranded_single : ¬ Stranded time near rows [p] := by
  rintro ⟨before, q, -, -, hne, hextends, -⟩
  have hlen := hextends.length_le
  simp only [List.length_append, List.length_singleton] at hlen
  exact hne (List.length_eq_zero_iff.mp (by omega))

/-- Near rows stay near when the second comes earlier. -/
def NearDown (near : Int → Int → Bool) : Prop :=
  ∀ a b c, a ≤ b → b ≤ c → near a c = true → near a b = true

/-- **The bounded search is the unbounded one**, where no prefix is stranded. -/
theorem reached_eq_some_iff (hdown : NearDown near) : ∀ {steps : List (ρ → Bool)} {t : Int},
    reached time near rows steps = some t
      ↔ reached time anyGap rows steps = some t ∧ ¬ Stranded time near rows steps := by
  intro steps
  induction steps using List.reverseRecOn with
  | nil =>
    intro t
    exact ⟨fun h => (nomatch h), fun h => (nomatch h.1)⟩
  | append_singleton steps p ih =>
    intro t
    by_cases hsteps : steps = []
    · subst hsteps
      exact ⟨fun h => ⟨h, not_stranded_single⟩, fun h => h.1⟩
    · rw [stranded_concat hsteps]
      constructor
      · intro h
        rw [reached_concat hsteps] at h
        obtain ⟨t', ht', hnext⟩ := Option.bind_eq_some_iff.mp h
        obtain ⟨hloose, hkept⟩ := ih.mp ht'
        obtain ⟨⟨e, he, hp, rfl, hle, hnear⟩, hleast⟩ := next_eq_some.mp hnext
        -- an earlier row would be near enough too, so the bound does not matter
        have hfound : reached time anyGap rows (steps ++ [p]) = some (time e) := by
          rw [reached_concat hsteps, hloose, Option.bind_some, next_eq_some]
          refine ⟨⟨e, he, hp, rfl, hle, rfl⟩, ?_⟩
          intro b hb hpb htb _
          by_contra hlt
          have hbt : time b ≤ time e := by omega
          exact hlt (hleast b hb hpb htb (hdown _ _ _ htb hbt hnear))
        refine ⟨hfound, ?_⟩
        rintro (hstranded | ⟨s, s', hs, hs', hfar⟩)
        · exact hkept hstranded
        · rw [earliestEnd_iff, hloose] at hs
          rw [earliestEnd_iff, hfound] at hs'
          obtain rfl := Option.some.inj hs
          obtain rfl := Option.some.inj hs'
          rw [hnear] at hfar
          cases hfar
      · rintro ⟨hfound, hkept⟩
        obtain ⟨hkept, hgap⟩ := not_or.mp hkept
        have hfound' := hfound
        rw [reached_concat hsteps] at hfound
        obtain ⟨t', hloose, hnext⟩ := Option.bind_eq_some_iff.mp hfound
        obtain ⟨⟨e, he, hp, rfl, hle, -⟩, hleast⟩ := next_eq_some.mp hnext
        have hnear : near t' (time e) = true := by
          by_contra hfar
          exact hgap ⟨t', time e, earliestEnd_iff.mpr hloose, earliestEnd_iff.mpr hfound',
            Bool.eq_false_iff.mpr hfar⟩
        rw [reached_concat hsteps, ih.mpr ⟨hloose, hkept⟩, Option.bind_some, next_eq_some]
        exact ⟨⟨e, he, hp, rfl, hle, hnear⟩, fun b hb hpb htb _ => hleast b hb hpb htb rfl⟩

/-- **When the search gets through**: there is a chain, and no prefix of the
steps is stranded. -/
theorem reached_isSome_iff (hdown : NearDown near) :
    (reached time near rows steps).isSome
      ↔ (∃ t, EndsAt time near rows steps t) ∧ ¬ Stranded time near rows steps := by
  constructor
  · intro h
    obtain ⟨t, ht⟩ := Option.isSome_iff_exists.mp h
    exact ⟨⟨t, endsAt_of_reached ht⟩, ((reached_eq_some_iff hdown).mp ht).2⟩
  · rintro ⟨⟨t', h⟩, hkept⟩
    obtain ⟨t, ht, -⟩ := reached_le_of_endsAt h.loose
    rw [(reached_eq_some_iff hdown).mpr ⟨ht, hkept⟩]
    rfl

/-- Without a bound nothing is stranded. -/
theorem not_stranded_anyGap : ¬ Stranded time anyGap rows steps := by
  rintro ⟨_, _, _, _, _, _, _, _, hfar⟩
  cases hfar

end
end Foundation.Chains
