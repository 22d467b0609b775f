/-
This file folds a flat row of operands and operators into one tree. A row comes
from the part of a line, or of a bracket group, that has no separators left.

First the ends and the starts of lines are left out, and the tokens of the row are
read as operators: two tokens may write one operator, and a minus is a sign where no
operand stands before it. Then the
ladder is walked from the tightest operator to the loosest, and on each rung
every occurrence is folded from left to right. A binary operator takes the
operand on each side; a unary operator takes the operand after it, and a run of
the same unary operator nests. A power takes a sign on its right although the
sign is one rung further down, so `2 ** -1` needs no parentheses.

After the last rung one operand must be left.
-/

import Offside.Syntax.Expr
import Offside.Syntax.ParseError

namespace Offside

/-- An entry of a row as it was read. -/
inductive Item where
  | operand (expression : Expr)
  | token (token : Token)

/-- An entry of a row once its tokens are read as operators. -/
inductive Piece where
  | operand (expression : Expr)
  | binary (operator : BinaryOperator) (location : Location)
  | unary (operator : UnaryOperator) (location : Location)
  /-- A token that is no operator: it has no place in an expression. -/
  | stray (token : Token)

namespace Ladder

/-- A fault at a known line. -/
def failAt {α : Type} (location : Location) (fault : ParseFault) : Except ParseError α :=
  .error ⟨fault, some location⟩

/-! ### Line breaks -/

/-- The item is the end or the start of a line. -/
def isBreak : Item → Bool
  | .token ⟨.endOfLine, _⟩ => true
  | .token ⟨.indentation _, _⟩ => true
  | _ => false

/-- A row without the ends and starts of lines. -/
def withoutBreaks (row : List Item) : List Item :=
  row.filter (!isBreak ·)

/-- No line ends or starts in the row. -/
def Unbroken (row : List Item) : Prop :=
  ∀ item ∈ row, isBreak item = false

theorem unbroken_withoutBreaks (row : List Item) : Unbroken (withoutBreaks row) := by
  intro item listed
  simpa using (List.mem_filter.mp listed).2

/-- There is nothing to leave out of an unbroken row. -/
theorem Unbroken.withoutBreaks_eq {row : List Item} (unbroken : Unbroken row) :
    withoutBreaks row = row := by
  refine List.filter_eq_self.mpr fun item listed => ?_
  rw [unbroken item listed]
  rfl

/-! ### Reading tokens as operators -/

/-- The piece that a single token is, by whether an operand stands before it. -/
def pieceOf (afterOperand : Bool) (token : Token) : Piece :=
  if token.lexeme = .symbol .minus && !afterOperand then .unary .negate token.location
  else if token.lexeme = .keyword .notWord then .unary .not token.location
  else match BinaryOperator.ofLexeme? token.lexeme with
    | some operator => .binary operator token.location
    | none => .stray token

/-- The operator that two adjacent tokens write together. -/
def fused? (first second : Token) : Option BinaryOperator :=
  if first.lexeme = .keyword .isWord && second.lexeme = .keyword .notWord then some .isNot
  else if first.lexeme = .keyword .notWord && second.lexeme = .keyword .inWord then some .notIn
  else none

/-- The pieces of a row. -/
def pieces (afterOperand : Bool) : List Item → List Piece
  | [] => []
  | .operand expression :: rest => .operand expression :: pieces true rest
  | .token first :: .token second :: rest =>
    match fused? first second with
    | some operator => .binary operator first.location :: pieces false rest
    | none => pieceOf afterOperand first :: pieces false (.token second :: rest)
  | .token first :: rest => pieceOf afterOperand first :: pieces false rest

/-- The pieces that a row writes. -/
def written (row : List Item) : List Piece :=
  pieces false (withoutBreaks row)

/-! ### Folding one rung -/

/-- The operand of a unary operator, and the pieces after it. The operator stands at the given
line, just before the pieces. -/
def unaryOperand (operator : UnaryOperator) (location : Location) :
    List Piece → Except ParseError (Expr × List Piece)
  | .operand expression :: rest => .ok (.unary location operator expression, rest)
  | .unary second secondLocation :: rest =>
    if second = operator then do
      let (operand, after) ← unaryOperand operator secondLocation rest
      .ok (.unary location operator operand, after)
    else failAt location (.operandAfter operator.text)
  | _ => failAt location (.operandAfter operator.text)

/-- The right operand of a binary operator, and the pieces after it. A sign may stand before it. -/
def rightOperand (operator : BinaryOperator) (location : Location) :
    List Piece → Except ParseError (Expr × List Piece)
  | .operand expression :: rest => .ok (expression, rest)
  | .unary .negate signLocation :: rest => unaryOperand .negate signLocation rest
  | _ => failAt location (.operandAfter operator.name)

theorem length_of_unaryOperand {operator : UnaryOperator} {location : Location}
    {row after : List Piece} {operand : Expr}
    (taken : unaryOperand operator location row = .ok (operand, after)) :
    after.length < row.length := by
  induction row generalizing location operand after with
  | nil => simp [unaryOperand, failAt] at taken
  | cons piece rest inductionHypothesis =>
    cases piece with
    | operand expression =>
      simp only [unaryOperand, Except.ok.injEq, Prod.mk.injEq] at taken
      simp [← taken.2]
    | binary => simp [unaryOperand, failAt] at taken
    | stray => simp [unaryOperand, failAt] at taken
    | unary second secondLocation =>
      simp only [unaryOperand] at taken
      split at taken
      · cases inner : unaryOperand operator secondLocation rest with
        | error => simp [inner, bind, Except.bind] at taken
        | ok result =>
          obtain ⟨innerOperand, innerAfter⟩ := result
          simp only [inner, bind, Except.bind, Except.ok.injEq, Prod.mk.injEq] at taken
          have shorter := inductionHypothesis inner
          rw [List.length_cons, ← taken.2]
          omega
      · simp [failAt] at taken

theorem length_of_rightOperand {operator : BinaryOperator} {location : Location}
    {row after : List Piece} {operand : Expr}
    (taken : rightOperand operator location row = .ok (operand, after)) :
    after.length < row.length := by
  unfold rightOperand at taken
  split at taken
  · simp only [Except.ok.injEq, Prod.mk.injEq] at taken
    simp [← taken.2]
  · have shorter := length_of_unaryOperand taken
    rw [List.length_cons]
    omega
  · simp [failAt] at taken

/-- Folds every occurrence of a unary operator. The pieces already passed are kept reversed. -/
def foldUnary (operator : UnaryOperator) (passed row : List Piece) :
    Except ParseError (List Piece) :=
  match row with
  | [] => .ok passed.reverse
  | .unary found location :: rest =>
    if found = operator then
      match passed with
      | .operand _ :: _ => failAt location (.unexpected operator.text)
      | _ =>
        match _taken : unaryOperand operator location rest with
        | .ok (operand, after) => foldUnary operator (.operand operand :: passed) after
        | .error error => .error error
    else foldUnary operator (.unary found location :: passed) rest
  | piece :: rest => foldUnary operator (piece :: passed) rest
termination_by row.length
decreasing_by
  · exact Nat.lt_succ_of_lt (length_of_unaryOperand _taken)
  · simp
  · simp

/-- Folds every occurrence of a binary operator. The pieces already passed are kept reversed. -/
def foldBinary (operator : BinaryOperator) (passed row : List Piece) :
    Except ParseError (List Piece) :=
  match row with
  | [] => .ok passed.reverse
  | .binary found location :: rest =>
    if found = operator then
      match passed with
      | .operand left :: before =>
        match _taken : rightOperand operator location rest with
        | .ok (right, after) =>
          foldBinary operator (.operand (.binary location operator left right) :: before) after
        | .error error => .error error
      | _ => failAt location (.operandBefore operator.name)
    else foldBinary operator (.binary found location :: passed) rest
  | piece :: rest => foldBinary operator (piece :: passed) rest
termination_by row.length
decreasing_by
  · exact Nat.lt_succ_of_lt (length_of_rightOperand _taken)
  · simp
  · simp

/-- Folds one rung. -/
def fold (row : List Piece) : Rung → Except ParseError (List Piece)
  | .binary operator => foldBinary operator [] row
  | .unary operator => foldUnary operator [] row

/-! ### The whole row -/

/-- What is left after the last rung must be one operand. A comma is reported before anything
else, because parentheses would mend it. -/
def finish (row : List Piece) : Except ParseError Expr :=
  match row with
  | [.operand expression] => .ok expression
  | [] => .error ⟨.emptyExpression, none⟩
  | first :: rest =>
    match row.findSome? comma? with
    | some location => failAt location .missingParentheses
    | none =>
      match first, rest with
      | .operand _, .operand second :: _ => failAt second.location .missingOperator
      | .operand _, piece :: _ => misplaced piece
      | piece, _ => misplaced piece
where
  comma? : Piece → Option Location
    | .stray ⟨.symbol .comma, location⟩ => some location
    | _ => none
  misplaced : Piece → Except ParseError Expr
    | .operand expression => failAt expression.location .missingOperator
    | .binary operator location => failAt location (.unexpected operator.name)
    | .unary operator location => failAt location (.unexpected operator.text)
    | .stray token => failAt token.location (.unexpected token.display)

/-- Folds a row of pieces down the whole ladder. -/
def foldAll (row : List Piece) : Except ParseError Expr := do
  finish (← ladder.foldlM fold row)

/-- The expression that a row writes. -/
def reduce (row : List Item) : Except ParseError Expr :=
  foldAll (written row)

theorem reduce_withoutBreaks (row : List Item) : reduce (withoutBreaks row) = reduce row := by
  rw [reduce, written, (unbroken_withoutBreaks row).withoutBreaks_eq]
  rfl

end Ladder

end Offside
