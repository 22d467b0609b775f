/-
This file lists the operators of expressions and the order in which they bind.
Most operators are written with one token. Three are not: `is not` and `not in`
are written with two, and the sign before an operand shares its token with
subtraction.

The ladder lists the operators from the tightest to the loosest, one operator to
a rung. An expression is folded rung by rung: all powers first, then all signs,
then all products, and so on down to `or`.
-/

import Offside.Source.Token

namespace Offside

/-- Operators between two operands. -/
inductive BinaryOperator where
  | power | times | divide | modulo | plus | minus
  | isNot | notIn | identical | member
  | notEqual | equal | atMost | less | atLeast | greater
  | and | or
deriving Repr, DecidableEq

/-- Operators before one operand. -/
inductive UnaryOperator where
  | negate | not
deriving Repr, DecidableEq

/-- The name of an operator in listings of the tree. -/
def BinaryOperator.name : BinaryOperator → String
  | .power => "**"
  | .times => "*"
  | .divide => "/"
  | .modulo => "%"
  | .plus => "+"
  | .minus => "-"
  | .isNot => "is not"
  | .notIn => "not in"
  | .identical => "is"
  | .member => "in"
  | .notEqual => "!="
  | .equal => "=="
  | .atMost => "<="
  | .less => "<"
  | .atLeast => ">="
  | .greater => ">"
  | .and => "and"
  | .or => "or"

/-- The name of an operator in listings of the tree, where the sign is told apart from
subtraction. -/
def UnaryOperator.name : UnaryOperator → String
  | .negate => "unary -"
  | .not => "not"

/-- The operator as the reader wrote it. -/
def UnaryOperator.text : UnaryOperator → String
  | .negate => "-"
  | .not => "not"

/-- The operator that a single token writes between two operands. -/
def BinaryOperator.ofLexeme? : Lexeme → Option BinaryOperator
  | .symbol .power => some .power
  | .symbol .times => some .times
  | .symbol .divide => some .divide
  | .symbol .modulo => some .modulo
  | .symbol .plus => some .plus
  | .symbol .minus => some .minus
  | .symbol .notEqual => some .notEqual
  | .symbol .equal => some .equal
  | .symbol .atMost => some .atMost
  | .symbol .less => some .less
  | .symbol .atLeast => some .atLeast
  | .symbol .greater => some .greater
  | .keyword .isWord => some .identical
  | .keyword .inWord => some .member
  | .keyword .andWord => some .and
  | .keyword .orWord => some .or
  | _ => none

/-- A token that belongs to an operator. -/
def Lexeme.isOperator (lexeme : Lexeme) : Bool :=
  (BinaryOperator.ofLexeme? lexeme).isSome || lexeme == .keyword .notWord

/-- One rung of the ladder. -/
inductive Rung where
  | binary (operator : BinaryOperator)
  | unary (operator : UnaryOperator)
deriving Repr, DecidableEq

/-- All operators, tightest first. -/
def ladder : List Rung :=
  [.binary .power, .unary .negate, .binary .times, .binary .divide, .binary .modulo,
    .binary .plus, .binary .minus, .binary .isNot, .binary .notIn, .binary .identical,
    .binary .member, .binary .notEqual, .binary .equal, .binary .atMost, .binary .less,
    .binary .atLeast, .binary .greater, .unary .not, .binary .and, .binary .or]

end Offside
