/-
  Momento.Segment.LikeLiteral

  **A TEXT IN A LIKE PATTERN MEANS ITSELF.**  The rules "contains", "starts with" and
  "ends with" bind the value with its wildcards and backslashes escaped, and put `%`
  around it in the query.  PostgreSQL lowers pattern and subject and matches them.
-/
import Momento.Segment.Compile
import Momento.Foundation.LikePattern

namespace Momento.Segment

open Foundation LikePattern

/-! ## §1. The conditions and what they mean. -/

/-- The operators on texts. -/
inductive TextOperator
  | contains
  | startsWith
  | endsWith

/-- The operator's name. -/
def TextOperator.text : TextOperator → String
  | .contains => "contains"
  | .startsWith => "startsWith"
  | .endsWith => "endsWith"

/-- What the operator says of a value and a subject. -/
def TextOperator.Holds (value subject : List Char) : TextOperator → Prop
  | .contains => value <:+: subject
  | .startsWith => value <+: subject
  | .endsWith => value <:+ subject

/-- The value of `'%'||$n||'%'`, or of a part of it. -/
def operandValue (args : List Arg) : Sql → Option (List Char)
  | [] => some []
  | .text t :: rest => if t = "'%'||" ∨ t = "||'%'" then (operandValue args rest).map ('%' :: ·) else none
  | .placeholder n :: rest =>
    match args[n - 1]? with
    | some (.text s) => (operandValue args rest).map (s.toList ++ ·)
    | _ => none
  | .reference _ :: _ => none

/-- The condition compares the expression with this pattern. -/
def Compares (expr : String) (args : List Arg) (sql : Sql) (pattern : List Char) : Prop :=
  ∃ operand : Sql, Sql.render sql = expr ++ " ILIKE " ++ Sql.render operand ∧ operandValue args operand = some pattern

/-- The pattern an operator makes of a value. -/
def TextOperator.pattern (value : List Char) : TextOperator → List Char
  | .contains => '%' :: escape value ++ ['%']
  | .startsWith => escape value ++ ['%']
  | .endsWith => '%' :: escape value

/-! ## §2. What is compiled. -/

/-- The value is bound escaped. -/
theorem likeLiteral_toList (value : String) : (likeLiteral value).toList = escape value.toList := by
  rw [likeLiteral, String.toList_ofList, escape]
  congr 1
  funext c
  have hspecial : isSyntax c = true ↔ c = '\\' ∨ c = '%' ∨ c = '_' := by
    simp only [isSyntax, Bool.or_eq_true, decide_eq_true_eq, or_assoc]
  by_cases hc : c = '\\' ∨ c = '%' ∨ c = '_'
  · rw [if_pos hc, if_pos (hspecial.mpr hc)]
  · rw [if_neg hc, if_neg (mt hspecial.mp hc)]

/-- The argument that was appended last is the one its placeholder names. -/
theorem operandValue_last (s : Compiling) (text : String) (rest : Sql) :
    operandValue (s.append [Arg.text text]).args (.placeholder (s.append [Arg.text text]).args.length :: rest)
      = (operandValue (s.append [Arg.text text]).args rest).map (text.toList ++ ·) := by
  have hlast : (s.append [Arg.text text]).args[(s.append [Arg.text text]).args.length - 1]? = some (Arg.text text) := by
    show (s.args ++ [Arg.text text])[(s.args ++ [Arg.text text]).length - 1]? = _
    rw [List.length_append, List.length_singleton, Nat.add_sub_cancel, List.getElem?_concat_length]
  rw [operandValue, hlast]

theorem operandValue_nil (args : List Arg) : operandValue args [] = some [] := rfl

theorem operandValue_any (args : List Arg) (rest : Sql) :
    operandValue args (.text "'%'||" :: rest) = (operandValue args rest).map ('%' :: ·)
      ∧ operandValue args (.text "||'%'" :: rest) = (operandValue args rest).map ('%' :: ·) := by
  constructor
  · rw [operandValue, if_pos (.inl rfl)]
  · rw [operandValue, if_pos (.inr rfl)]

theorem render_cons (piece : Piece) (sql : Sql) : Sql.render (piece :: sql) = piece.render ++ Sql.render sql := by
  show String.join ((piece :: sql).map Piece.render) = piece.render ++ String.join (sql.map Piece.render)
  rw [List.map_cons, String.join_cons]

/-- The literal before the placeholder belongs to the operand. -/
theorem render_ilike (expr : String) (rest : Sql) :
    Sql.render (.text (expr ++ " ILIKE '%'||") :: rest) = expr ++ " ILIKE " ++ Sql.render (.text "'%'||" :: rest) := by
  have hsplit : " ILIKE '%'||" = " ILIKE " ++ "'%'||" := by decide
  rw [render_cons, render_cons]
  show expr ++ " ILIKE '%'||" ++ Sql.render rest = expr ++ " ILIKE " ++ ("'%'||" ++ Sql.render rest)
  rw [hsplit, String.append_assoc, String.append_assoc, String.append_assoc]

/-- The condition of an operator, with the pieces around the placeholder. -/
def TextOperator.sql (expr : String) (n : Nat) : TextOperator → Sql
  | .contains => [.text (expr ++ " ILIKE '%'||"), .placeholder n, .text "||'%'"]
  | .startsWith => [.text (expr ++ " ILIKE "), .placeholder n, .text "||'%'"]
  | .endsWith => [.text (expr ++ " ILIKE '%'||"), .placeholder n]

theorem TextOperator.compileDimension_eq (op : TextOperator) (value : Json) (expr : String) (s : Compiling) :
    compileDimension op.text value expr s
      = .ok (op.sql expr (s.append [Arg.text (likeLiteral value.sprint)]).args.length,
          s.append [Arg.text (likeLiteral value.sprint)]) := by
  unfold compileDimension
  cases op <;> simp [TextOperator.text, TextOperator.sql]

/-- **What the compiled condition compares the subject with.** -/
theorem TextOperator.compares (op : TextOperator) (value : Json) (expr : String) (s : Compiling) :
    Compares expr (s.append [Arg.text (likeLiteral value.sprint)]).args
      (op.sql expr (s.append [Arg.text (likeLiteral value.sprint)]).args.length) (op.pattern value.sprint.toList) := by
  have hvalue := likeLiteral_toList value.sprint
  cases op with
  | contains =>
    refine ⟨[.text "'%'||", .placeholder (s.append [Arg.text (likeLiteral value.sprint)]).args.length,
      .text "||'%'"], ?_, ?_⟩
    · exact render_ilike expr _
    · rw [(operandValue_any _ _).1, operandValue_last, (operandValue_any _ _).2, operandValue_nil, hvalue]
      rfl
  | startsWith =>
    refine ⟨[.placeholder (s.append [Arg.text (likeLiteral value.sprint)]).args.length, .text "||'%'"], ?_, ?_⟩
    · exact render_cons _ _
    · rw [operandValue_last, (operandValue_any _ _).2, operandValue_nil, hvalue]
      rfl
  | endsWith =>
    refine ⟨[.text "'%'||", .placeholder (s.append [Arg.text (likeLiteral value.sprint)]).args.length], ?_, ?_⟩
    · exact render_ilike expr _
    · rw [(operandValue_any _ _).1, operandValue_last, operandValue_nil, hvalue, Option.map_some, Option.map_some,
        List.append_nil]
      rfl

/-! ## §3. What it matches. -/

theorem TextOperator.matches_pattern (op : TextOperator) (value subject : List Char) :
    Matches (op.pattern value) subject ↔ op.Holds value subject := by
  cases op with
  | contains => exact matches_contains value subject
  | startsWith => exact matches_startsWith value subject
  | endsWith => exact matches_endsWith value subject

theorem TextOperator.complete_pattern (op : TextOperator) (value : List Char) : complete (op.pattern value) = true := by
  cases op with
  | contains =>
    show complete ('%' :: (escape value ++ ['%'])) = true
    rw [complete_cons (by decide)]
    exact complete_escape_append value rfl
  | startsWith => exact complete_escape_append value rfl
  | endsWith =>
    have hcomplete := complete_escape_append value (p := []) rfl
    rw [List.append_nil] at hcomplete
    show complete ('%' :: escape value) = true
    rw [complete_cons (by decide)]
    exact hcomplete

/-- Folding the pattern folds the value in it. -/
theorem TextOperator.lowerText_pattern (fold : CaseFolding) (op : TextOperator) (value : List Char) :
    fold.lowerText (op.pattern value) = op.pattern (fold.lowerText value) := by
  have happend : ∀ u w : List Char, fold.lowerText (u ++ w) = fold.lowerText u ++ fold.lowerText w :=
    fun u w => List.flatMap_append ..
  have hany : fold.lowerText ['%'] = ['%'] := by
    show fold.lower '%' ++ [] = ['%']
    rw [fold.syntax_kept _ rfl]
    rfl
  cases op with
  | contains =>
    show fold.lowerText (['%'] ++ escape value ++ ['%']) = ['%'] ++ escape (fold.lowerText value) ++ ['%']
    rw [happend, happend, hany, fold.lowerText_escape]
  | startsWith =>
    show fold.lowerText (escape value ++ ['%']) = escape (fold.lowerText value) ++ ['%']
    rw [happend, hany, fold.lowerText_escape]
  | endsWith =>
    show fold.lowerText (['%'] ++ escape value) = ['%'] ++ escape (fold.lowerText value)
    rw [happend, hany, fold.lowerText_escape]

/-- **The condition holds exactly where the operator says so**, up to case: the subject
matches the pattern if it contains the value, starts or ends with it; and no value makes
the pattern one that the server refuses. -/
theorem likePatterns_exact (fold : CaseFolding) (op : TextOperator) (value : Json) (expr : String) (s : Compiling) :
    ∃ sql s' pattern, compileDimension op.text value expr s = .ok (sql, s') ∧ Compares expr s'.args sql pattern
      ∧ ∀ subject : String,
        (fold.ilike subject.toList pattern = .matched
          ↔ op.Holds (fold.lowerText value.sprint.toList) (fold.lowerText subject.toList))
        ∧ fold.ilike subject.toList pattern ≠ .invalid := by
  refine ⟨_, _, _, op.compileDimension_eq value expr s, op.compares value expr s, ?_⟩
  intro subject
  rw [CaseFolding.ilike, op.lowerText_pattern fold]
  obtain ⟨hmatched, hvalid⟩ := matchText_iff (op.complete_pattern (fold.lowerText value.sprint.toList))
    (fold.lowerText subject.toList)
  exact ⟨hmatched.trans (op.matches_pattern _ _), hvalid⟩

/-- An underscore in the value stands for itself. -/
theorem likePatterns_exact_latin :
    ∃ sql s' pattern, compileDimension "contains" (.str "T_") "e.title" ⟨[], none⟩ = .ok (sql, s')
      ∧ Compares "e.title" s'.args sql pattern
      ∧ CaseFolding.latin.ilike "the T_D".toList pattern = .matched
      ∧ CaseFolding.latin.ilike "the TxD".toList pattern ≠ .matched := by
  obtain ⟨sql, s', pattern, hcompiled, hcompares, hexact⟩ :=
    likePatterns_exact CaseFolding.latin .contains (.str "T_") "e.title" ⟨[], none⟩
  refine ⟨sql, s', pattern, hcompiled, hcompares, (hexact "the T_D").1.mpr ?_, fun hmatched => ?_⟩
  · exact ⟨"the ".toList, ['d'], by decide +kernel⟩
  · have hinfix := (hexact "the TxD").1.mp hmatched
    revert hinfix
    show ¬(_ <:+: _)
    decide +kernel

end Momento.Segment
