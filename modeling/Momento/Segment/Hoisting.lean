/-
  Momento.Segment.Hoisting

  **HOISTED AND INLINE ARE ONE PREDICATE.**  A rule knows of the compilation so far only
  how many arguments there are and, over a person's history, how many CTEs: it numbers
  its own placeholders from the one and its CTE from the other.  So a rule compiled in a
  tree is the rule compiled on its own, moved to where its arguments begin; and a
  collected subquery is the one that is written in place.

  Both are carried through the groups by one induction on the tree.
-/
import Momento.Segment.Compile

namespace Momento.Segment

/-! ## §1. Moving a predicate. -/

/-- Placeholders count from `k`. -/
def Piece.shift (k : Nat) : Piece → Piece
  | .placeholder n => .placeholder (k + n)
  | piece => piece

/-- Placeholders count from `k`. -/
def Sql.shift (k : Nat) (sql : Sql) : Sql := sql.map (Piece.shift k)

/-- Every placeholder is one of the first `m`. -/
def Sql.Fits (sql : Sql) (m : Nat) : Prop := ∀ n, .placeholder n ∈ sql → 1 ≤ n ∧ n ≤ m

/-- The tables read by name. -/
def Sql.references (sql : Sql) : List String :=
  sql.filterMap fun
    | .reference name => some name
    | _ => none

/-- The predicate with the body of each CTE in place of its reference. -/
def Sql.substitute (ctes : List Cte) (sql : Sql) : Sql :=
  sql.flatMap fun
    | .reference name =>
      match ctes.find? fun cte => cte.name = name with
      | some cte => cte.body
      | none => [.reference name]
    | piece => [piece]

/-- What a rule does, wherever it is compiled: it is refused, it has its own arguments
and a predicate over them, or it has a subquery over them, in place or collected. -/
inductive RuleKind (ctePrefix : String) (rule : Compiling → Except String (Sql × Compiling)) : Prop
  | refused (e : String) (h : ∀ s, rule s = .error e)
  | plain (own : List Arg) (sql : Sql) (fits : sql.Fits own.length) (whole : sql.references = [])
      (h : ∀ s, rule s = .ok (sql.shift s.args.length, s.append own))
  | aggregate (own : List Arg) (body : Sql) (before after : String) (fits : body.Fits own.length)
      (whole : body.references = [])
      (inPlace : ∀ args, rule ⟨args, none⟩
        = .ok (.text before :: body.shift args.length ++ [.text after], ⟨args ++ own, none⟩))
      (hoisted : ∀ args ctes, rule ⟨args, some ctes⟩
        = .ok ([.text before, .reference (ctePrefix ++ toString (ctes.length + 1)), .text after],
            ⟨args ++ own, some (ctes ++ [⟨ctePrefix ++ toString (ctes.length + 1),
              body.shift args.length⟩])⟩))

/-! ## §2. The rules. -/

section
variable {ctePrefix : String} {rule : Compiling → Except String (Sql × Compiling)}

theorem RuleKind.bare (text : String) (h : ∀ s, rule s = .ok ([.text text], s)) : RuleKind ctePrefix rule := by
  refine .plain [] [.text text] ?_ rfl fun s => ?_
  · intro n hn
    rcases List.mem_singleton.mp hn with ⟨⟩
  · rw [h, Compiling.append, List.append_nil]
    rfl

/-- A rule that binds one argument. -/
theorem RuleKind.single (own : Arg) (before after : List String)
    (h : ∀ s, rule s = .ok (before.map .text ++ .placeholder (s.append [own]).args.length :: after.map .text,
      s.append [own])) : RuleKind ctePrefix rule := by
  refine .plain [own] (before.map .text ++ .placeholder 1 :: after.map .text) ?_ ?_ fun s => ?_
  · intro n hn
    have hone : n = 1 := by simpa using hn
    rw [hone]
    exact ⟨le_rfl, le_rfl⟩
  · simp [Sql.references, List.filterMap_map]
  · rw [h]
    simp [Sql.shift, Piece.shift, Compiling.append, Function.comp_def]

/-- A rule that selects persons: three arguments, numbered from the back of the list. -/
theorem RuleKind.membership (a b c : Arg) (first second third before after : String)
    (inPlace : ∀ args, rule ⟨args, none⟩
      = .ok (.text before :: [.text first, .placeholder ((args ++ [a, b, c]).length - 2), .text second,
          .placeholder ((args ++ [a, b, c]).length - 1), .text third,
          .placeholder (args ++ [a, b, c]).length] ++ [.text after], ⟨args ++ [a, b, c], none⟩))
    (hoisted : ∀ args ctes, rule ⟨args, some ctes⟩
      = .ok ([.text before, .reference (ctePrefix ++ toString (ctes.length + 1)), .text after],
          ⟨args ++ [a, b, c], some (ctes ++ [⟨ctePrefix ++ toString (ctes.length + 1),
            [.text first, .placeholder ((args ++ [a, b, c]).length - 2), .text second,
              .placeholder ((args ++ [a, b, c]).length - 1), .text third,
              .placeholder (args ++ [a, b, c]).length]⟩])⟩)) : RuleKind ctePrefix rule := by
  refine .aggregate [a, b, c]
    [.text first, .placeholder 1, .text second, .placeholder 2, .text third, .placeholder 3]
    before after ?_ rfl (fun args => ?_) fun args ctes => ?_
  · simp [Sql.Fits]
  · rw [inPlace, List.length_append]
    rfl
  · rw [hoisted, List.length_append]
    rfl

theorem ruleKind_eventExistence (operator : String) (value : Json) (rowAlias : String) :
    RuleKind ctePrefix (compileEventExistence operator value rowAlias) := by
  unfold compileEventExistence
  dsimp only
  split
  · split
    · exact .refused _ fun _ => rfl
    · split
      · exact .single _ ["NOT ", _] [")"] fun _ => rfl
      · exact .single _ [_] [")"] fun _ => rfl
  · split
    · split
      · split
        · exact .refused _ fun _ => rfl
        · split
          · exact .refused _ fun _ => rfl
          · split
            · exact .single _ ["NOT ", _] ["))"] fun _ => rfl
            · exact .single _ [_] ["))"] fun _ => rfl
      · exact .refused _ fun _ => rfl
    · exact .refused _ fun _ => rfl

theorem ruleKind_dimension (operator : String) (value : Json) (expr : String) :
    RuleKind ctePrefix (compileDimension operator value expr) := by
  unfold compileDimension
  dsimp only
  split
  · exact .bare _ fun _ => rfl
  split
  · exact .bare _ fun _ => rfl
  split
  · split
    · split
      · exact .refused _ fun _ => rfl
      · exact .single _ [_] [")"] fun _ => rfl
    · exact .refused _ fun _ => rfl
  split
  · split
    · exact .single _ [_] [] fun _ => rfl
    split
    · exact .single _ [_] ["||'%'"] fun _ => rfl
    split
    · exact .single _ [_] ["||'%'"] fun _ => rfl
    split
    · exact .single _ [_] ["||'%'"] fun _ => rfl
    · exact .single _ [_] [] fun _ => rfl
  split
  · split
    · exact .refused _ fun _ => rfl
    · exact .single _ [_] [] fun _ => rfl
  · exact .refused _ fun _ => rfl

theorem ruleKind_entityAggregate (field operator : String) (value : Json) (resolver : Resolver)
    (expression rowAlias : String) :
    RuleKind ctePrefix
      (compileEntityAggregate field operator value resolver expression rowAlias ctePrefix) := by
  unfold compileEntityAggregate
  dsimp only
  split
  · exact .refused _ fun _ => rfl
  split
  · exact .refused _ fun _ => rfl
  split
  · exact .refused _ fun _ => rfl
  · exact .membership _ _ _ _ _ _ _ _ (fun _ => rfl) fun _ _ => rfl

/-- **What a rule does.** -/
theorem ruleKind (field operator : String) (value : Json) (resolver : Resolver) (rowAlias : String) :
    RuleKind ctePrefix (compileRule field operator value resolver rowAlias ctePrefix) := by
  unfold compileRule
  split
  · exact ruleKind_eventExistence operator value rowAlias
  split
  · exact ruleKind_entityAggregate field operator value resolver _ rowAlias
  split
  · exact .refused _ fun _ => rfl
  · exact ruleKind_dimension operator value _

end

/-! ## §3. The predicate with its values. -/

/-- Which rule an argument was appended for, by its path in the tree; none is one of the
caller's. -/
abbrev Owner := Option (List Nat)

/-- A piece with the argument its placeholder stands for. -/
inductive Written
  | text (s : String)
  | value (bound : Option (Owner × Arg))
  | reference (name : String)

/-- A placeholder with its argument. -/
def Piece.fill (arguments : List (Owner × Arg)) : Piece → Written
  | .text s => .text s
  | .placeholder n => .value arguments[n - 1]?
  | .reference name => .reference name

/-- Placeholders with their arguments. -/
def Sql.fill (arguments : List (Owner × Arg)) (sql : Sql) : List Written :=
  sql.map (Piece.fill arguments)

section
variable (resolver : Resolver) (rowAlias : String)

/-- A rule compiled on its own: its predicate and its arguments. -/
def alone (field operator : String) (value : Json) : Sql × List Arg :=
  match compileRule field operator value resolver rowAlias "" ⟨[], none⟩ with
  | .ok (sql, s) => (sql, s.args)
  | .error _ => ([], [])

mutual

/-- The arguments of the rules of a tree, in order, each with its rule. -/
def owned : Node → List Nat → List (Owner × Arg)
  | .mk combinator rules field operator value, path =>
    if 0 < rules.length ∨ combinator ≠ "" then ownedRules rules path 0
    else (alone resolver rowAlias field operator value).2.map fun arg => (some path, arg)

/-- `owned`, of the rules of a group. -/
def ownedRules : List Node → List Nat → Nat → List (Owner × Arg)
  | [], _, _ => []
  | rule :: rules, path, i => owned rule (path ++ [i]) ++ ownedRules rules path (i + 1)

end

mutual

/-- The predicate of a tree, each rule's values in its own condition. -/
def written : Node → List Nat → List Written
  | .mk combinator rules field operator value, path =>
    if 0 < rules.length ∨ combinator ≠ "" then
      .text "(" :: List.intercalate [.text ((combinatorOf combinator).getD "")] (writtenRules rules path 0)
        ++ [.text ")"]
    else
      (alone resolver rowAlias field operator value).1.fill
        ((alone resolver rowAlias field operator value).2.map fun arg => (some path, arg))

/-- `written`, of the rules of a group. -/
def writtenRules : List Node → List Nat → Nat → List (List Written)
  | [], _, _ => []
  | rule :: rules, path, i => written rule (path ++ [i]) :: writtenRules rules path (i + 1)

end

end

/-! ## §4. Pieces moved, filled and substituted. -/

theorem flatMap_intercalate {α β : Type} (f : α → List β) (separator : List α) (parts : List (List α)) :
    (List.intercalate separator parts).flatMap f
      = List.intercalate (separator.flatMap f) (parts.map fun part => part.flatMap f) := by
  induction parts with
  | nil => rfl
  | cons part rest ih =>
    cases rest with
    | nil => simp [List.intercalate]
    | cons next rest =>
      rw [List.intercalate_cons_cons, List.map_cons, List.map_cons, List.intercalate_cons_cons,
        List.flatMap_append, List.flatMap_append, ih, List.map_cons]

theorem mem_joined {piece : Piece} {separator : String} {parts : List Sql} (h : piece ∈ joined separator parts) :
    (∃ text, piece = .text text) ∨ ∃ part ∈ parts, piece ∈ part := by
  have hinter : ∀ parts : List Sql, piece ∈ List.intercalate [.text separator] parts →
      (∃ text, piece = .text text) ∨ ∃ part ∈ parts, piece ∈ part := by
    intro parts
    induction parts with
    | nil => exact fun h => absurd h List.not_mem_nil
    | cons part rest ih =>
      intro h
      cases rest with
      | nil => exact .inr ⟨part, List.mem_singleton_self _, by simpa [List.intercalate] using h⟩
      | cons next rest =>
        rw [List.intercalate_cons_cons, List.mem_append, List.mem_append, List.mem_singleton] at h
        rcases h with (h | h) | h
        · exact .inr ⟨part, List.mem_cons_self, h⟩
        · exact .inl ⟨_, h⟩
        · exact (ih h).imp_right fun ⟨p, hp, hmem⟩ => ⟨p, List.mem_cons_of_mem _ hp, hmem⟩
  unfold joined at h
  rw [List.cons_append, List.mem_cons, List.mem_append, List.mem_singleton] at h
  rcases h with h | h | h
  · exact .inl ⟨_, h⟩
  · exact hinter parts h
  · exact .inl ⟨_, h⟩

theorem fill_joined (arguments : List (Owner × Arg)) (separator : String) (parts : List Sql) :
    (joined separator parts).fill arguments
      = .text "(" :: List.intercalate [.text separator] (parts.map fun part => part.fill arguments)
          ++ [.text ")"] := by
  have hmap : ∀ sql : Sql, sql.fill arguments = sql.flatMap fun piece => [piece.fill arguments] :=
    fun sql => List.map_eq_flatMap
  simp only [hmap, joined, List.cons_append, List.flatMap_cons, List.flatMap_append, flatMap_intercalate]
  rfl

theorem references_joined (separator : String) (parts : List Sql) :
    (joined separator parts).references = (parts.map Sql.references).flatten := by
  unfold joined
  rw [Sql.references, List.cons_append, List.filterMap_cons, List.filterMap_append]
  simp only [List.filterMap_cons, List.filterMap_nil, List.append_nil]
  induction parts with
  | nil => rfl
  | cons part rest ih =>
    cases rest with
    | nil => simp [List.intercalate, Sql.references]
    | cons next rest =>
      rw [List.intercalate_cons_cons, List.filterMap_append, List.filterMap_append, ih]
      simp [Sql.references]

theorem substitute_joined (ctes : List Cte) (separator : String) (parts : List Sql) :
    (joined separator parts).substitute ctes = joined separator (parts.map fun part => part.substitute ctes) := by
  unfold joined
  rw [Sql.substitute, List.cons_append, List.flatMap_cons, List.flatMap_append, flatMap_intercalate]
  rfl

theorem substitute_of_whole {sql : Sql} (h : sql.references = []) (ctes : List Cte) : sql.substitute ctes = sql := by
  induction sql with
  | nil => rfl
  | cons piece rest ih =>
    cases piece with
    | reference name => cases h
    | text s => exact congrArg (Piece.text s :: ·) (ih h)
    | placeholder n => exact congrArg (Piece.placeholder n :: ·) (ih h)

theorem references_shift (k : Nat) (sql : Sql) : (sql.shift k).references = sql.references := by
  unfold Sql.references Sql.shift
  rw [List.filterMap_map]
  congr 1
  funext piece
  cases piece <;> rfl

theorem Sql.Fits.shift {sql : Sql} {m : Nat} (h : sql.Fits m) (k : Nat) {n : Nat}
    (hn : .placeholder n ∈ sql.shift k) : k + 1 ≤ n ∧ n ≤ k + m := by
  obtain ⟨piece, hpiece, heq⟩ := List.mem_map.mp hn
  cases piece with
  | placeholder n' =>
    obtain rfl := Piece.placeholder.inj heq
    obtain ⟨hlow, hhigh⟩ := h n' hpiece
    omega
  | text s => cases heq
  | reference name => cases heq

/-- A rule's placeholders stand for its own arguments, wherever they are. -/
theorem Sql.Fits.fill {sql : Sql} {own : List (Owner × Arg)} (h : sql.Fits own.length)
    (before after : List (Owner × Arg)) :
    (sql.shift before.length).fill (before ++ own ++ after) = sql.fill own := by
  unfold Sql.shift Sql.fill
  rw [List.map_map]
  refine List.map_congr_left fun piece hpiece => ?_
  cases piece with
  | placeholder n =>
    obtain ⟨hlow, hhigh⟩ := h n hpiece
    show Written.value (before ++ own ++ after)[before.length + n - 1]? = .value own[n - 1]?
    rw [List.append_assoc, List.getElem?_append_right (by omega), List.getElem?_append_left (by omega)]
    congr 2
    omega
  | text s => rfl
  | reference name => rfl

/-! ## §5. In place. -/

section
variable (resolver : Resolver) (rowAlias : String)

/-- Without a collector nothing is named. -/
theorem compileRule_inPlace (field operator : String) (value : Json) (ctePrefix : String) (args : List Arg) :
    compileRule field operator value resolver rowAlias ctePrefix ⟨args, none⟩
      = compileRule field operator value resolver rowAlias "" ⟨args, none⟩ := rfl

/-- What compiling a tree in place leaves: its arguments after those that were there, and
a predicate whose placeholders stand for them. -/
structure InPlace (node : Node) (path : List Nat) (args : List Arg) (answer : Except String Sql × Compiling) :
    Prop where
  collector : answer.2.collector = none
  kept : args <+: answer.2.args
  appended : ∀ sql, answer.1 = .ok sql →
    answer.2.args = args ++ (owned resolver rowAlias node path).map Prod.snd
  fits : ∀ sql, answer.1 = .ok sql → ∀ n, .placeholder n ∈ sql → args.length < n ∧ n ≤ answer.2.args.length
  filled : ∀ sql, answer.1 = .ok sql → ∀ before after : List (Owner × Arg), before.length = args.length →
    sql.fill (before ++ owned resolver rowAlias node path ++ after) = written resolver rowAlias node path

/-- The same of the members of a group, from the `i`-th on. -/
structure InPlaceRules (rules : List Node) (path : List Nat) (i : Nat) (args : List Arg)
    (answer : Except String (List Sql) × Compiling) : Prop where
  collector : answer.2.collector = none
  kept : args <+: answer.2.args
  appended : ∀ parts, answer.1 = .ok parts →
    answer.2.args = args ++ (ownedRules resolver rowAlias rules path i).map Prod.snd
  fits : ∀ parts, answer.1 = .ok parts → ∀ part ∈ parts, ∀ n, .placeholder n ∈ part →
    args.length < n ∧ n ≤ answer.2.args.length
  filled : ∀ parts, answer.1 = .ok parts → ∀ before after : List (Owner × Arg), before.length = args.length →
    parts.map (fun part => part.fill (before ++ ownedRules resolver rowAlias rules path i ++ after))
      = writtenRules resolver rowAlias rules path i

variable {resolver rowAlias}

theorem InPlace.refused {node : Node} {path : List Nat} {args : List Arg} (e : String) :
    InPlace resolver rowAlias node path args (.error e, ⟨args, none⟩) where
  collector := rfl
  kept := List.prefix_refl _
  appended := nofun
  fits := nofun
  filled := nofun

/-- A rule in place is the rule on its own, moved. -/
theorem inPlace_rule (ctePrefix field operator : String) (value : Json) (path : List Nat) (args : List Arg) :
    InPlace resolver rowAlias (.mk "" [] field operator value) path args
      (match compileRule field operator value resolver rowAlias ctePrefix ⟨args, none⟩ with
        | .error e => (.error e, ⟨args, none⟩)
        | .ok (sql, s) => (.ok sql, s)) := by
  have hmoved : ∀ {own : List Arg} {sql : Sql}, sql.Fits own.length →
      (∀ args, compileRule field operator value resolver rowAlias ctePrefix ⟨args, none⟩
        = .ok (sql.shift args.length, ⟨args ++ own, none⟩)) →
      InPlace resolver rowAlias (.mk "" [] field operator value) path args
        (.ok (sql.shift args.length), ⟨args ++ own, none⟩) := by
    intro own sql hfits h
    have halone : alone resolver rowAlias field operator value = (sql, own) := by
      unfold alone
      rw [← compileRule_inPlace resolver rowAlias field operator value ctePrefix, h]
      have hzero : sql.shift 0 = sql := by
        refine (List.map_congr_left fun piece _ => ?_).trans (List.map_id sql)
        cases piece <;> simp [Piece.shift]
      simp [hzero]
    have howned : owned resolver rowAlias (.mk "" [] field operator value) path
        = own.map fun arg => (some path, arg) := by
      rw [owned, if_neg (by simp), halone]
    refine ⟨rfl, List.prefix_append _ _, fun _ _ => ?_, fun _ hok n hn => ?_, fun _ hok before after hbefore => ?_⟩
    · rw [howned, List.map_map]
      exact congrArg (args ++ ·) (List.map_id own).symm
    · obtain rfl := Except.ok.inj hok
      obtain ⟨hlow, hhigh⟩ := hfits.shift _ hn
      rw [List.length_append]
      omega
    · obtain rfl := Except.ok.inj hok
      rw [written, if_neg (by simp), halone, howned, ← hbefore]
      exact Sql.Fits.fill (by rwa [List.length_map]) before after
  cases @ruleKind ctePrefix field operator value resolver rowAlias with
  | refused e h =>
    rw [h]
    exact .refused e
  | plain own sql fits whole h =>
    rw [h]
    exact hmoved fits fun args => h ⟨args, none⟩
  | aggregate own body before after fits whole inPlace hoisted =>
    have hshift : ∀ k, .text before :: body.shift k ++ [.text after]
        = Sql.shift k (.text before :: body ++ [.text after]) := by
      intro k
      simp [Sql.shift, Piece.shift]
    have hfits : Sql.Fits (.text before :: body ++ [.text after]) own.length := by
      intro n hn
      exact fits n (by simpa using hn)
    rw [inPlace, hshift]
    exact hmoved hfits fun args => by rw [inPlace, hshift]

/-- A rule's node has no members and no combinator; what it would do with them is
nothing. -/
theorem InPlace.of_rule {combinator : String} {rules : List Node} {field operator : String} {value : Json}
    {path : List Nat} {args : List Arg} {answer : Except String Sql × Compiling}
    (hrule : ¬(0 < rules.length ∨ combinator ≠ ""))
    (h : InPlace resolver rowAlias (.mk "" [] field operator value) path args answer) :
    InPlace resolver rowAlias (.mk combinator rules field operator value) path args answer := by
  rw [not_or, not_not, not_lt, Nat.le_zero, List.length_eq_zero_iff] at hrule
  rw [hrule.1, hrule.2]
  exact h

/-- A group in place. -/
theorem InPlace.of_rules {combinator separator : String} {rules : List Node} {field operator : String}
    {value : Json} {path : List Nat} {args : List Arg} {r : Except String (List Sql)} {s : Compiling}
    (hgroup : 0 < rules.length ∨ combinator ≠ "") (hseparator : combinatorOf combinator = some separator)
    (h : InPlaceRules resolver rowAlias rules path 0 args (r, s)) :
    InPlace resolver rowAlias (.mk combinator rules field operator value) path args
      (r.map (joined separator), s) := by
  cases r with
  | error e => exact ⟨h.collector, h.kept, nofun, nofun, nofun⟩
  | ok parts =>
    refine ⟨h.collector, h.kept, fun _ _ => ?_, fun _ hok n hn => ?_, fun _ hok before after hbefore => ?_⟩
    · rw [owned, if_pos hgroup]
      exact h.appended parts rfl
    · obtain rfl := Except.ok.inj hok
      rcases mem_joined hn with ⟨text, htext⟩ | ⟨part, hpart, hmem⟩
      · cases htext
      · exact h.fits parts rfl part hpart n hmem
    · obtain rfl := Except.ok.inj hok
      rw [fill_joined, owned, if_pos hgroup, h.filled parts rfl before after hbefore, written, if_pos hgroup,
        hseparator, Option.getD_some]

theorem InPlaceRules.stopped {rules : List Node} {path : List Nat} {i : Nat} {args : List Arg} (e : String)
    {s : Compiling} (hcollector : s.collector = none) (hkept : args <+: s.args) :
    InPlaceRules resolver rowAlias rules path i args (.error e, s) :=
  ⟨hcollector, hkept, nofun, nofun, nofun⟩

/-- One member, and then the others. -/
theorem InPlaceRules.cons {rule : Node} {rules : List Node} {path : List Nat} {i : Nat} {args : List Arg}
    {part : Sql} {parts : List Sql} {s s' : Compiling}
    (hfirst : InPlace resolver rowAlias rule (path ++ [i]) args (.ok part, s))
    (hothers : InPlaceRules resolver rowAlias rules path (i + 1) s.args (.ok parts, s')) :
    InPlaceRules resolver rowAlias (rule :: rules) path i args (.ok (part :: parts), s') := by
  have hmine : s.args = args ++ (owned resolver rowAlias rule (path ++ [i])).map Prod.snd :=
    hfirst.appended part rfl
  have hall : s'.args = s.args ++ (ownedRules resolver rowAlias rules path (i + 1)).map Prod.snd :=
    hothers.appended parts rfl
  have hgrown : args.length ≤ s.args.length := hfirst.kept.length_le
  have hgrown' : s.args.length ≤ s'.args.length := hothers.kept.length_le
  refine ⟨hothers.collector, hfirst.kept.trans hothers.kept, fun _ _ => ?_, fun _ hok p hp n hn => ?_,
    fun _ hok before after hbefore => ?_⟩
  · show s'.args = _
    rw [ownedRules, List.map_append, hall, hmine, List.append_assoc]
  · obtain rfl := Except.ok.inj hok
    show args.length < n ∧ n ≤ s'.args.length
    rcases List.mem_cons.mp hp with rfl | hp
    · have hbounds : args.length < n ∧ n ≤ s.args.length := hfirst.fits p rfl n hn
      omega
    · have hbounds : s.args.length < n ∧ n ≤ s'.args.length := hothers.fits parts rfl p hp n hn
      omega
  · obtain rfl := Except.ok.inj hok
    have hlength : (before ++ owned resolver rowAlias rule (path ++ [i])).length = s.args.length := by
      rw [hmine, List.length_append, List.length_append, List.length_map, hbefore]
    have htail := hothers.filled parts rfl (before ++ owned resolver rowAlias rule (path ++ [i])) after hlength
    have hhead := hfirst.filled part rfl before (ownedRules resolver rowAlias rules path (i + 1) ++ after) hbefore
    rw [ownedRules, writtenRules, List.map_cons, ← hhead, ← htail]
    simp only [List.append_assoc]

variable (resolver rowAlias)

mutual

/-- **A tree in place.** -/
theorem compile_inPlace (ctePrefix : String) : ∀ (node : Node) (depth : Int) (args : List Arg) (path : List Nat),
    InPlace resolver rowAlias node path args (compile resolver rowAlias ctePrefix node depth ⟨args, none⟩)
  | .mk combinator rules field operator value, depth, args, path => by
    rw [compile]
    split
    · exact .refused _
    split
    next hgroup =>
      split
      · exact .refused _
      next separator hseparator =>
        split
        · exact .refused _
        split
        · exact .refused _
        have hrules := compileRules_inPlace ctePrefix rules (depth + 1) args path 0
        rcases hanswer : compileRules resolver rowAlias ctePrefix rules (depth + 1) ⟨args, none⟩ with ⟨r, s⟩
        rw [hanswer] at hrules
        have hnode := @InPlace.of_rules resolver rowAlias _ _ _ field operator value _ _ _ _ hgroup hseparator hrules
        cases r with
        | error e => exact hnode
        | ok parts => exact hnode
    · next hrule => exact .of_rule hrule (inPlace_rule ctePrefix field operator value path args)

theorem compileRules_inPlace (ctePrefix : String) : ∀ (rules : List Node) (depth : Int) (args : List Arg)
    (path : List Nat) (i : Nat), InPlaceRules resolver rowAlias rules path i args
      (compileRules resolver rowAlias ctePrefix rules depth ⟨args, none⟩)
  | [], _, args, path, i => by
    rw [compileRules]
    exact ⟨rfl, List.prefix_refl _, fun _ _ => (List.append_nil _).symm,
      (fun _ hok part hpart => by cases hok; cases hpart), fun _ hok _ _ _ => by cases hok; rfl⟩
  | rule :: rules, depth, args, path, i => by
    have hfirst := compile_inPlace ctePrefix rule depth args (path ++ [i])
    rw [compileRules]
    rcases hanswer : compile resolver rowAlias ctePrefix rule depth ⟨args, none⟩ with ⟨_ | part, ⟨args', c⟩⟩
    · rw [hanswer] at hfirst
      exact .stopped _ hfirst.collector hfirst.kept
    · rw [hanswer] at hfirst
      obtain rfl : c = none := hfirst.collector
      have hothers := compileRules_inPlace ctePrefix rules depth args' path (i + 1)
      dsimp only
      rcases hrest : compileRules resolver rowAlias ctePrefix rules depth ⟨args', none⟩ with ⟨_ | parts, s⟩
      · rw [hrest] at hothers
        exact .stopped _ hothers.collector (hfirst.kept.trans hothers.kept)
      · rw [hrest] at hothers
        exact .cons hfirst hothers

end

end

/-! ## §6. Hoisted. -/

section
variable (ctePrefix : String)

/-- The names of `m` CTEs after the first `k`. -/
def cteNames (k m : Nat) : List String := (List.range' (k + 1) m).map fun i => ctePrefix ++ toString i

theorem cteNames_append (k m m' : Nat) :
    cteNames ctePrefix k m ++ cteNames ctePrefix (k + m) m' = cteNames ctePrefix k (m + m') := by
  unfold cteNames
  rw [← List.map_append, ← List.range'_append_1]
  congr 3
  omega

theorem cteName_injective {i j : Nat} (h : ctePrefix ++ toString i = ctePrefix ++ toString j) : i = j := by
  have hdigits : Nat.toDigits 10 i = Nat.toDigits 10 j := by
    have hlists := congrArg String.toList ((String.append_right_inj ctePrefix).mp h)
    simpa using hlists
  rw [← Nat.ofDigitChars_ten_toDigits (n := i), hdigits, Nat.ofDigitChars_ten_toDigits]

theorem nodup_cteNames (k m : Nat) : (cteNames ctePrefix k m).Nodup :=
  List.Nodup.map (fun _ _ h => cteName_injective ctePrefix h) List.nodup_range'

/-- The CTEs so far are numbered from one. -/
def Numbered (ctes : List Cte) : Prop := ctes.map Cte.name = cteNames ctePrefix 0 ctes.length

/-- What is compiled, a predicate or the parts of one, and what it refers to. -/
structure Compilable (α : Type) where
  references : α → List String
  substitute : List Cte → α → α

/-- A single predicate. -/
def predicates : Compilable Sql := ⟨Sql.references, Sql.substitute⟩

/-- The parts of a group. -/
def parts : Compilable (List Sql) :=
  ⟨fun ps => (ps.map Sql.references).flatten, fun ctes ps => ps.map (Sql.substitute ctes)⟩

/-- The two answers: the same refusal; or each new CTE is referred to once, in order, and
its body in place of the reference makes the inline answer. -/
inductive SameAnswer {α : Type} (c : Compilable α) (ctes more : List Cte) :
    Except String α → Except String α → Prop
  | refused (e : String) : SameAnswer c ctes more (.error e) (.error e)
  | compiled (inline hoisted : α) (referred : c.references hoisted = more.map Cte.name)
      (substituted : ∀ rest, c.substitute (ctes ++ more ++ rest) hoisted = inline) :
      SameAnswer c ctes more (.ok inline) (.ok hoisted)

/-- Compiled from the same arguments, without a collector and with one. -/
structure Alike {α : Type} (c : Compilable α) (ctes more : List Cte)
    (inline hoisted : Except String α × Compiling) : Prop where
  args : hoisted.2.args = inline.2.args
  collected : hoisted.2.collector = some (ctes ++ more)
  named : more.map Cte.name = cteNames ctePrefix ctes.length more.length
  same : SameAnswer c ctes more inline.1 hoisted.1

variable {ctePrefix}

theorem Numbered.append {ctes more : List Cte} (h : Numbered ctePrefix ctes)
    (hmore : more.map Cte.name = cteNames ctePrefix ctes.length more.length) :
    Numbered ctePrefix (ctes ++ more) := by
  unfold Numbered
  rw [List.map_append, List.length_append, h, hmore, ← cteNames_append, Nat.zero_add]

theorem Alike.refused {α : Type} {c : Compilable α} {args : List Arg} {ctes : List Cte} (e : String) :
    Alike ctePrefix c ctes [] (.error e, ⟨args, none⟩) (.error e, ⟨args, some ctes⟩) where
  args := rfl
  collected := congrArg some (List.append_nil ctes).symm
  named := rfl
  same := .refused e

/-- The next CTE's name is not taken. -/
theorem Numbered.find? {ctes : List Cte} (h : Numbered ctePrefix ctes) (next : Cte)
    (hnext : next.name = ctePrefix ++ toString (ctes.length + 1)) (rest : List Cte) :
    (ctes ++ [next] ++ rest).find? (fun cte => cte.name = next.name) = some next := by
  have hfresh : ctes.find? (fun cte => cte.name = next.name) = none := by
    refine List.find?_eq_none.mpr fun cte hcte hname => ?_
    have hmem : cte.name ∈ cteNames ctePrefix 0 ctes.length := h ▸ List.mem_map_of_mem hcte
    obtain ⟨i, hi, hi'⟩ := List.mem_map.mp hmem
    have hsame := cteName_injective ctePrefix (hi'.trans ((of_decide_eq_true hname).trans hnext))
    have hbounds := List.mem_range'_1.mp hi
    omega
  rw [List.append_assoc, List.find?_append, hfresh, Option.none_or]
  simp

section
variable (resolver : Resolver) (rowAlias : String)

theorem alike_rule (field operator : String) (value : Json) (args : List Arg) {ctes : List Cte}
    (hctes : Numbered ctePrefix ctes) :
    ∃ more, Alike ctePrefix predicates ctes more
      (match compileRule field operator value resolver rowAlias ctePrefix ⟨args, none⟩ with
        | .error e => (.error e, ⟨args, none⟩)
        | .ok (sql, s) => (.ok sql, s))
      (match compileRule field operator value resolver rowAlias ctePrefix ⟨args, some ctes⟩ with
        | .error e => (.error e, ⟨args, some ctes⟩)
        | .ok (sql, s) => (.ok sql, s)) := by
  cases @ruleKind ctePrefix field operator value resolver rowAlias with
  | refused e h =>
    rw [h, h]
    exact ⟨[], .refused e⟩
  | plain own sql fits whole h =>
    rw [h, h]
    have hwhole : Sql.references (sql.shift args.length) = [] := (references_shift _ _).trans whole
    exact ⟨[], rfl, congrArg some (List.append_nil ctes).symm, rfl,
      .compiled _ _ hwhole fun rest => substitute_of_whole hwhole _⟩
  | aggregate own body before after fits whole inPlace hoisted =>
    rw [inPlace, hoisted]
    let next : Cte := ⟨ctePrefix ++ toString (ctes.length + 1), body.shift args.length⟩
    refine ⟨[next], rfl, rfl, rfl, .compiled _ _ rfl fun rest => ?_⟩
    show [Piece.text before] ++ ((match (ctes ++ [next] ++ rest).find? (fun cte => cte.name = next.name) with
      | some cte => cte.body
      | none => [Piece.reference next.name]) ++ ([Piece.text after] ++ [])) = _
    rw [hctes.find? next rfl]
    rfl

mutual

/-- **A tree, inline and hoisted.** -/
theorem compile_alike : ∀ (node : Node) (depth : Int) (args : List Arg) (ctes : List Cte),
    Numbered ctePrefix ctes → ∃ more, Alike ctePrefix predicates ctes more
      (compile resolver rowAlias ctePrefix node depth ⟨args, none⟩)
      (compile resolver rowAlias ctePrefix node depth ⟨args, some ctes⟩)
  | .mk combinator rules field operator value, depth, args, ctes, hctes => by
    rw [compile, compile]
    split
    · exact ⟨[], .refused _⟩
    split
    · cases combinatorOf combinator with
      | none => exact ⟨[], .refused _⟩
      | some separator =>
        dsimp only
        split
        · exact ⟨[], .refused _⟩
        split
        · exact ⟨[], .refused _⟩
        obtain ⟨more, hargs, hcollected, hnamed, hsame⟩ :=
          compileRules_alike rules (depth + 1) args ctes hctes
        refine ⟨more, ?_⟩
        revert hargs hcollected hsame
        rcases compileRules resolver rowAlias ctePrefix rules (depth + 1) ⟨args, none⟩ with ⟨r, s⟩
        rcases compileRules resolver rowAlias ctePrefix rules (depth + 1) ⟨args, some ctes⟩ with ⟨r', s'⟩
        rintro hargs hcollected (⟨e⟩ | ⟨ps, ps', referred, substituted⟩)
        · exact ⟨hargs, hcollected, hnamed, .refused e⟩
        · refine ⟨hargs, hcollected, hnamed, .compiled _ _ ?_ fun rest => ?_⟩
          · exact (references_joined separator ps').trans referred
          · exact (substitute_joined _ separator ps').trans (congrArg (joined separator) (substituted rest))
    · exact alike_rule resolver rowAlias field operator value args hctes

theorem compileRules_alike : ∀ (rules : List Node) (depth : Int) (args : List Arg) (ctes : List Cte),
    Numbered ctePrefix ctes → ∃ more, Alike ctePrefix parts ctes more
      (compileRules resolver rowAlias ctePrefix rules depth ⟨args, none⟩)
      (compileRules resolver rowAlias ctePrefix rules depth ⟨args, some ctes⟩)
  | [], _, args, ctes, _ => by
    rw [compileRules, compileRules]
    exact ⟨[], rfl, congrArg some (List.append_nil ctes).symm, rfl, .compiled _ _ rfl fun _ => rfl⟩
  | rule :: rules, depth, args, ctes, hctes => by
    have hfirst := compile_alike rule depth args ctes hctes
    have hbare := (compile_inPlace resolver rowAlias ctePrefix rule depth args []).collector
    rw [compileRules, compileRules]
    rcases hinline : compile resolver rowAlias ctePrefix rule depth ⟨args, none⟩ with ⟨r, ⟨args', c⟩⟩
    rcases hhoisted : compile resolver rowAlias ctePrefix rule depth ⟨args, some ctes⟩ with ⟨r', ⟨args'', c'⟩⟩
    rw [hinline, hhoisted] at hfirst
    rw [hinline] at hbare
    obtain rfl : c = none := hbare
    obtain ⟨more, hargs, hcollected, hnamed, hsame⟩ := hfirst
    obtain rfl : args'' = args' := hargs
    obtain rfl : c' = some (ctes ++ more) := hcollected
    obtain e | ⟨part, part', referred, substituted⟩ := hsame
    · exact ⟨more, rfl, rfl, hnamed, .refused e⟩
    -- the other members start from the CTEs this one has added
    dsimp only
    have hothers := compileRules_alike rules depth args'' (ctes ++ more) (hctes.append hnamed)
    rcases hinline' : compileRules resolver rowAlias ctePrefix rules depth ⟨args'', none⟩ with ⟨r, s⟩
    rcases hhoisted' : compileRules resolver rowAlias ctePrefix rules depth
      ⟨args'', some (ctes ++ more)⟩ with ⟨r', s'⟩
    rw [hinline', hhoisted'] at hothers
    obtain ⟨more', hargs', hcollected', hnamed', hsame'⟩ := hothers
    have hall : (more ++ more').map Cte.name = cteNames ctePrefix ctes.length (more ++ more').length := by
      rw [List.map_append, List.length_append, hnamed, hnamed', List.length_append, cteNames_append]
    rw [List.append_assoc] at hcollected'
    obtain e | ⟨ps, ps', referred', substituted'⟩ := hsame'
    · exact ⟨more ++ more', hargs', hcollected', hall, .refused e⟩
    · refine ⟨more ++ more', hargs', hcollected', hall, .compiled _ _ ?_ fun rest => ?_⟩
      · have hrefs : part'.references ++ (ps'.map Sql.references).flatten
            = more.map Cte.name ++ more'.map Cte.name := by
          rw [← referred, ← referred']
          rfl
        rw [List.map_append]
        exact hrefs
      · have hhead := substituted (more' ++ rest)
        have htail := substituted' rest
        rw [← List.append_assoc (ctes ++ more), List.append_assoc ctes more more'] at hhead
        rw [List.append_assoc ctes more more'] at htail
        show part'.substitute _ :: ps'.map (Sql.substitute _) = part :: ps
        exact congr (congrArg List.cons hhead) htail

end

end

end

/-! ## §7. The two compilations. -/

section
variable (resolver : Resolver) (rowAlias : String)

mutual

/-- In place, the name of the CTEs is not looked at. -/
theorem compile_unnamed (ctePrefix : String) : ∀ (node : Node) (depth : Int) (args : List Arg),
    compile resolver rowAlias ctePrefix node depth ⟨args, none⟩
      = compile resolver rowAlias "" node depth ⟨args, none⟩
  | .mk combinator rules field operator value, depth, args => by
    rw [compile, compile, compileRule_inPlace, compileRules_unnamed ctePrefix rules]

theorem compileRules_unnamed (ctePrefix : String) : ∀ (rules : List Node) (depth : Int) (args : List Arg),
    compileRules resolver rowAlias ctePrefix rules depth ⟨args, none⟩
      = compileRules resolver rowAlias "" rules depth ⟨args, none⟩
  | [], _, _ => by rw [compileRules, compileRules]
  | rule :: rules, depth, args => by
    have hbare := (compile_inPlace resolver rowAlias "" rule depth args []).collector
    rw [compileRules, compileRules, compile_unnamed ctePrefix rule]
    rcases hanswer : compile resolver rowAlias "" rule depth ⟨args, none⟩ with ⟨_ | part, ⟨args', c⟩⟩
    · rfl
    · rw [hanswer] at hbare
      obtain rfl : c = none := hbare
      dsimp only
      rw [compileRules_unnamed ctePrefix rules]

end

end

/-- Every `$n` is one of the arguments that were appended. -/
def Sql.Bound (sql : Sql) (args appended : List Arg) : Prop :=
  ∀ n, .placeholder n ∈ sql → args.length < n ∧ n ≤ appended.length

/-- **The two compilations agree**: on the arguments, the caller's first; on the refusal,
or on the predicate once each CTE's body is put in place of its one reference.  Every
`$n` is an argument of this compilation, the one its own rule appended. -/
structure Agree (resolver : Resolver) (rowAlias : String) (node : Node) (args : List Arg)
    (inline hoisted : Compiled) : Prop where
  arguments : hoisted.args = inline.args
  kept : args <+: inline.args
  distinct : (hoisted.ctes.map Cte.name).Nodup
  predicates : match inline.predicate, hoisted.predicate with
    | .error e, .error e' => e = e'
    | .ok sql, .ok sql' =>
      sql'.substitute hoisted.ctes = sql ∧ sql'.references = hoisted.ctes.map Cte.name
        ∧ sql.Bound args inline.args ∧ sql'.Bound args hoisted.args
        ∧ (∀ cte ∈ hoisted.ctes, Sql.Bound cte.body args hoisted.args)
        ∧ inline.args = args ++ (owned resolver rowAlias node []).map Prod.snd
        ∧ sql.fill (args.map (fun arg => (none, arg)) ++ owned resolver rowAlias node [])
          = written resolver rowAlias node []
    | _, _ => False

/-- A piece that is no reference stays where it is. -/
theorem mem_substitute_placeholder {ctes : List Cte} {sql : Sql} {n : Nat} (h : .placeholder n ∈ sql) :
    .placeholder n ∈ sql.substitute ctes :=
  List.mem_flatMap.mpr ⟨_, h, List.mem_singleton_self _⟩

/-- The body of a CTE that is referred to is in the predicate. -/
theorem body_subset_substitute {ctes : List Cte} {sql : Sql} {cte : Cte} (hcte : cte ∈ ctes)
    (hdistinct : (ctes.map Cte.name).Nodup) (hreferred : cte.name ∈ sql.references) :
    cte.body ⊆ sql.substitute ctes := by
  obtain ⟨piece, hpiece, hname⟩ := List.mem_filterMap.mp hreferred
  have hfind : ctes.find? (fun other => other.name = cte.name) = some cte := by
    cases hfind : ctes.find? fun other => other.name = cte.name with
    | none => exact absurd (decide_eq_true rfl) (List.find?_eq_none.mp hfind cte hcte)
    | some other =>
      have hsame : other.name = cte.name := by simpa using List.find?_some hfind
      rw [List.inj_on_of_nodup_map hdistinct (List.mem_of_find?_eq_some hfind) hcte hsame]
  intro body hbody
  refine List.mem_flatMap.mpr ⟨piece, hpiece, ?_⟩
  cases piece with
  | text s => cases hname
  | placeholder n => cases hname
  | reference name =>
    obtain rfl := Option.some.inj hname
    dsimp only
    rw [hfind]
    exact hbody

/-- **HOISTED COMPILATION EQUALS INLINE COMPILATION**, for every tree, resolver, alias,
prefix and argument list. -/
theorem hoisted_agrees_inline (resolver : Resolver) (rowAlias ctePrefix : String) (hnaming : ctePrefix ≠ "")
    (node : Node) (args : List Arg) (depth : Int) :
    Agree resolver rowAlias node args (compileInline resolver rowAlias node args depth)
      (compileHoisted resolver rowAlias ctePrefix node args depth) := by
  have hinPlace := compile_inPlace resolver rowAlias ctePrefix node depth args []
  obtain ⟨more, hargs, hcollected, hnamed, hsame⟩ :=
    @compile_alike ctePrefix resolver rowAlias node depth args [] rfl
  have hinline : compileInline resolver rowAlias node args depth
      = ⟨(compile resolver rowAlias ctePrefix node depth ⟨args, none⟩).1, [],
          (compile resolver rowAlias ctePrefix node depth ⟨args, none⟩).2.args⟩ := by
    unfold compileInline compileHoisted
    rw [if_neg (not_not.mpr rfl)]
    dsimp only
    rw [← compile_unnamed resolver rowAlias ctePrefix, hinPlace.collector]
    rfl
  have hhoisted : compileHoisted resolver rowAlias ctePrefix node args depth
      = ⟨(compile resolver rowAlias ctePrefix node depth ⟨args, some []⟩).1, more,
          (compile resolver rowAlias ctePrefix node depth ⟨args, none⟩).2.args⟩ := by
    unfold compileHoisted
    rw [if_pos hnaming]
    dsimp only
    rw [hcollected, hargs]
    rfl
  have hdistinct : (more.map Cte.name).Nodup := hnamed ▸ nodup_cteNames ctePrefix 0 _
  rw [hinline, hhoisted]
  refine ⟨rfl, hinPlace.kept, hdistinct, ?_⟩
  dsimp only
  have hfits := hinPlace.fits
  have happended := hinPlace.appended
  have hfilled := hinPlace.filled
  generalize (compile resolver rowAlias ctePrefix node depth ⟨args, none⟩).1 = r at *
  generalize (compile resolver rowAlias ctePrefix node depth ⟨args, some []⟩).1 = r' at *
  obtain e | ⟨sql, sql', referred, substituted⟩ := hsame
  · rfl
  · have hreferred : sql'.references = more.map Cte.name := referred
    have hwhole : sql'.substitute more = sql := by
      have hall := substituted []
      rw [List.nil_append, List.append_nil] at hall
      exact hall
    refine ⟨hwhole, hreferred, hfits sql rfl, fun n hn => ?_, fun cte hcte n hn => ?_, happended sql rfl, ?_⟩
    · exact hfits sql rfl n (hwhole ▸ mem_substitute_placeholder hn)
    · have hname : cte.name ∈ sql'.references := by
        rw [hreferred]
        exact List.mem_map_of_mem hcte
      exact hfits sql rfl n (hwhole ▸ body_subset_substitute hcte hdistinct hname hn)
    · have hown := hfilled sql rfl (args.map fun arg => (none, arg)) [] (List.length_map _)
      rwa [List.append_nil] at hown

/-! ## §8. What compiles. -/

/-- One to a hundred values. -/
def takesValues (value : Json) (p : Json → Bool) : Bool :=
  match value with
  | .arr raw => 0 < raw.length && raw.length ≤ 100 && raw.all p
  | _ => false

/-- What `event.has` takes: one event name, or a list of them. -/
def takesEventName (operator : String) (value : Json) : Bool :=
  if operator = "=" ∨ operator = "!=" then isKey (trimSpace value.sprint)
  else if operator = "in" ∨ operator = "not in" then takesValues value fun v => isKey (trimSpace v.sprint)
  else false

/-- What a measure over a person's history takes: a comparison with a number, on a known
site and environment. -/
def takesAggregate (resolver : Resolver) (operator : String) (value : Json) : Bool :=
  operator ∈ ["=", "!=", ">", ">=", "<", "<="] ∧ (numericValue value).isSome = true
    ∧ resolver.siteId ≠ ⟨0⟩ ∧ resolver.environment ≠ ""

/-- What a dimension takes: presence, a list, a text, or a comparison with a number. -/
def takesDimension (operator : String) (value : Json) : Bool :=
  if operator = "exists" ∨ operator = "not exists" then true
  else if operator = "in" ∨ operator = "not in" then takesValues value fun _ => true
  else if operator ∈ ["=", "!=", "contains", "not contains", "startsWith", "endsWith"] then true
  else if operator ∈ [">", ">=", "<", "<="] then (numericValue value).isSome
  else false

/-- A rule the compiler takes. -/
def takesRule (resolver : Resolver) (rowAlias field operator : String) (value : Json) : Bool :=
  if field = "event.has" then takesEventName operator value
  else
    match entityAggregateSQL.lookup field with
    | some _ => takesAggregate resolver operator value
    | none => (resolver.expression field rowAlias).isOk && takesDimension operator value

mutual

/-- **A definition that compiles**: at most five levels; every group has a combinator and
one to fifty members; every rule is one the compiler takes. -/
def takes (resolver : Resolver) (rowAlias : String) : Node → Int → Bool
  | .mk combinator rules field operator value, depth =>
    decide (depth ≤ 5) &&
      if 0 < rules.length ∨ combinator ≠ "" then
        (combinatorOf combinator).isSome && decide (0 < rules.length) && decide (rules.length ≤ 50)
          && takesAll resolver rowAlias rules (depth + 1)
      else takesRule resolver rowAlias field operator value

/-- The members of a group. -/
def takesAll (resolver : Resolver) (rowAlias : String) : List Node → Int → Bool
  | [], _ => true
  | rule :: rules, depth => takes resolver rowAlias rule depth && takesAll resolver rowAlias rules depth

end

/-- No value, or too many. -/
theorem takesValues_of_outside {raw : List Json} (p : Json → Bool) (h : raw.length = 0 ∨ 100 < raw.length) :
    takesValues (.arr raw) p = false := by
  show (decide (0 < raw.length) && decide (raw.length ≤ 100) && raw.all p) = false
  rcases h with hzero | hlong
  · rw [decide_eq_false (by omega), Bool.false_and, Bool.false_and]
  · rw [decide_eq_false (p := raw.length ≤ 100) (by omega), Bool.and_false, Bool.false_and]

/-- Within the bounds each value decides. -/
theorem takesValues_of_within {raw : List Json} (p : Json → Bool) (h : ¬(raw.length = 0 ∨ 100 < raw.length)) :
    takesValues (.arr raw) p = raw.all p := by
  show (decide (0 < raw.length) && decide (raw.length ≤ 100) && raw.all p) = raw.all p
  rw [decide_eq_true (by omega), decide_eq_true (by omega), Bool.true_and, Bool.true_and]

theorem isOk_eventExistence (operator : String) (value : Json) (rowAlias : String) (s : Compiling) :
    (compileEventExistence operator value rowAlias s).isOk = takesEventName operator value := by
  unfold compileEventExistence takesEventName
  dsimp only
  by_cases heq : operator = "=" ∨ operator = "!="
  · rw [if_pos heq, if_pos heq]
    cases isKey (trimSpace value.sprint) <;> rfl
  rw [if_neg heq, if_neg heq]
  by_cases hin : operator = "in" ∨ operator = "not in"
  · rw [if_pos hin, if_pos hin]
    cases value with
    | arr raw =>
      dsimp only
      by_cases hlength : raw.length = 0 ∨ 100 < raw.length
      · rw [if_pos hlength, takesValues_of_outside _ hlength]
        rfl
      rw [if_neg hlength, takesValues_of_within _ hlength, List.all_map]
      show _ = raw.all ((fun name => isKey name) ∘ fun v => trimSpace v.sprint)
      cases raw.all ((fun name => isKey name) ∘ fun v => trimSpace v.sprint) <;> rfl
    | _ => rfl
  · rw [if_neg hin, if_neg hin]
    rfl

theorem isOk_entityAggregate (field operator : String) (value : Json) (resolver : Resolver)
    (expression rowAlias ctePrefix : String) (s : Compiling) :
    (compileEntityAggregate field operator value resolver expression rowAlias ctePrefix s).isOk
      = takesAggregate resolver operator value := by
  unfold compileEntityAggregate takesAggregate
  by_cases hoperator : operator ∈ ["=", "!=", ">", ">=", "<", "<="]
  · rw [if_neg (not_not.mpr hoperator)]
    cases hvalue : numericValue value with
    | none => simp [Except.isOk, Except.toBool]
    | some x =>
      dsimp only
      by_cases hsite : resolver.siteId = ⟨0⟩ ∨ resolver.environment = ""
      · rw [if_pos hsite]
        refine (decide_eq_false ?_).symm
        rintro ⟨-, -, hid, henvironment⟩
        exact hsite.elim hid henvironment
      rw [if_neg hsite]
      obtain ⟨hid, henvironment⟩ := not_or.mp hsite
      refine Eq.trans ?_ (decide_eq_true ⟨hoperator, rfl, hid, henvironment⟩).symm
      -- inline or hoisted
      split <;> rfl
  · rw [if_pos hoperator]
    exact (decide_eq_false fun h => hoperator h.1).symm

theorem isOk_dimension (operator : String) (value : Json) (expr : String) (s : Compiling) :
    (compileDimension operator value expr s).isOk = takesDimension operator value := by
  unfold compileDimension takesDimension
  by_cases hexists : operator = "exists"
  · rw [if_pos hexists, if_pos (.inl hexists)]
    rfl
  rw [if_neg hexists]
  by_cases habsent : operator = "not exists"
  · rw [if_pos habsent, if_pos (.inr habsent)]
    rfl
  rw [if_neg habsent, if_neg (not_or.mpr ⟨hexists, habsent⟩)]
  by_cases hin : operator = "in" ∨ operator = "not in"
  · rw [if_pos hin, if_pos hin]
    cases value with
    | arr raw =>
      dsimp only
      by_cases hlength : raw.length = 0 ∨ 100 < raw.length
      · rw [if_pos hlength, takesValues_of_outside _ hlength]
        rfl
      · rw [if_neg hlength, takesValues_of_within _ hlength, List.all_eq_true.mpr fun _ _ => rfl]
        rfl
    | _ => rfl
  rw [if_neg hin, if_neg hin]
  by_cases htext : operator ∈ ["=", "!=", "contains", "not contains", "startsWith", "endsWith"]
  · rw [if_pos htext, if_pos htext]
    dsimp only
    split
    · rfl
    split
    · rfl
    split
    · rfl
    · split <;> rfl
  rw [if_neg htext, if_neg htext]
  by_cases hcompare : operator ∈ [">", ">=", "<", "<="]
  · rw [if_pos hcompare, if_pos hcompare]
    cases numericValue value <;> rfl
  · rw [if_neg hcompare, if_neg hcompare]
    rfl

/-- A rule compiles where it is one that is taken, whatever was compiled before it. -/
theorem isOk_rule (resolver : Resolver) (rowAlias ctePrefix field operator : String) (value : Json) (s : Compiling) :
    (compileRule field operator value resolver rowAlias ctePrefix s).isOk
      = takesRule resolver rowAlias field operator value := by
  unfold compileRule takesRule
  by_cases hevent : field = "event.has"
  · rw [if_pos hevent, if_pos hevent]
    exact isOk_eventExistence operator value rowAlias s
  · rw [if_neg hevent, if_neg hevent]
    cases entityAggregateSQL.lookup field with
    | some expression => exact isOk_entityAggregate field operator value resolver expression rowAlias ctePrefix s
    | none =>
      dsimp only
      cases resolver.expression field rowAlias with
      | error e => rfl
      | ok expr => exact isOk_dimension operator value expr s

mutual

/-- **What compiles is what is taken**, in either mode and behind any arguments. -/
theorem isOk_compile (resolver : Resolver) (rowAlias ctePrefix : String) : ∀ (node : Node) (depth : Int) (s : Compiling),
    (compile resolver rowAlias ctePrefix node depth s).1.isOk = takes resolver rowAlias node depth
  | .mk combinator rules field operator value, depth, s => by
    rw [compile, takes]
    by_cases hdepth : 5 < depth
    · rw [if_pos hdepth, decide_eq_false (not_le.mpr hdepth)]
      rfl
    · rw [if_neg hdepth, decide_eq_true (not_lt.mp hdepth), Bool.true_and]
      by_cases hgroup : 0 < rules.length ∨ combinator ≠ ""
      · rw [if_pos hgroup, if_pos hgroup]
        cases combinatorOf combinator with
        | none => rfl
        | some separator =>
          dsimp only
          by_cases hempty : rules.length = 0
          · rw [if_pos hempty, hempty]
            rfl
          · rw [if_neg hempty, decide_eq_true (Nat.pos_of_ne_zero hempty)]
            by_cases hlong : 50 < rules.length
            · rw [if_pos hlong, decide_eq_false (not_le.mpr hlong)]
              rfl
            · rw [if_neg hlong, decide_eq_true (not_lt.mp hlong), ← isOk_compileRules resolver rowAlias ctePrefix rules (depth + 1) s]
              rcases compileRules resolver rowAlias ctePrefix rules (depth + 1) s with ⟨_ | parts, s'⟩ <;> rfl
      · rw [if_neg hgroup, if_neg hgroup, ← isOk_rule resolver rowAlias ctePrefix field operator value s]
        cases compileRule field operator value resolver rowAlias ctePrefix s <;> rfl

/-- The members of a group, one after the other. -/
theorem isOk_compileRules (resolver : Resolver) (rowAlias ctePrefix : String) :
    ∀ (rules : List Node) (depth : Int) (s : Compiling),
    (compileRules resolver rowAlias ctePrefix rules depth s).1.isOk = takesAll resolver rowAlias rules depth
  | [], _, _ => by
    rw [compileRules, takesAll]
    rfl
  | rule :: rules, depth, s => by
    rw [compileRules, takesAll, ← isOk_compile resolver rowAlias ctePrefix rule depth s]
    rcases compile resolver rowAlias ctePrefix rule depth s with ⟨_ | part, s'⟩
    · rfl
    · dsimp only
      rw [← isOk_compileRules resolver rowAlias ctePrefix rules depth s']
      rcases compileRules resolver rowAlias ctePrefix rules depth s' with ⟨_ | parts, s''⟩ <;> rfl

end

/-- So both compilations answer with a predicate exactly for these. -/
theorem isOk_compileHoisted (resolver : Resolver) (rowAlias ctePrefix : String) (node : Node) (args : List Arg)
    (depth : Int) :
    (compileHoisted resolver rowAlias ctePrefix node args depth).predicate.isOk = takes resolver rowAlias node depth :=
  isOk_compile resolver rowAlias ctePrefix node depth _

namespace Sample

def site : Resolver := ⟨fun _ => none, ⟨1⟩, "prd"⟩

def rule (field operator : String) (value : Json) : Node := .mk "" [] field operator value

/-- Came back, and bought nothing or came from a campaign. -/
def returning : Node :=
  .mk "AND"
    [rule "entity.sessions" ">=" (.num (Foundation.Binary64.ofNat 3 (by decide))),
      .mk "or" [rule "event.has" "!=" (.str "purchase"), rule "traffic.campaign" "exists" .null,
        rule "entity.conversions" "=" (.num (Foundation.Binary64.ofNat 0 (by decide)))] "" "" .null] "" "" .null

end Sample

/-- Behind one argument of the caller, with two collected subqueries; it compiles. -/
theorem hoisted_agrees_inline_returning :
    Agree Sample.site "e" Sample.returning [.text "prd"]
        (compileInline Sample.site "e" Sample.returning [.text "prd"] 0)
        (compileHoisted Sample.site "e" "segment_member_" Sample.returning [.text "prd"] 0)
      ∧ (compileHoisted Sample.site "e" "segment_member_" Sample.returning [.text "prd"] 0).predicate.isOk = true
      ∧ (compileHoisted Sample.site "e" "segment_member_" Sample.returning [.text "prd"] 0).ctes.map Cte.name
        = ["segment_member_1", "segment_member_2"] := by
  refine ⟨hoisted_agrees_inline Sample.site "e" "segment_member_" (by decide) Sample.returning [.text "prd"] 0, ?_, ?_⟩
  · rw [isOk_compileHoisted]
    decide +kernel
  · decide +kernel

example : ((compileHoisted Sample.site "e" "segment_member_" Sample.returning [.text "prd"] 0).ctes.map
      Cte.render)[1]?
    = some ("segment_member_2 AS MATERIALIZED (SELECT segment_entity.entity_id FROM analytics_events "
        ++ "segment_entity WHERE segment_entity.site_id=$6 AND segment_entity.environment=$7 GROUP BY "
        ++ "segment_entity.entity_id HAVING coalesce(count(*) FILTER(WHERE segment_entity.is_conversion),0) "
        ++ "= $8)") := by
  decide +kernel

end Momento.Segment
