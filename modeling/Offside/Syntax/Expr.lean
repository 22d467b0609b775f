/-
This file holds the expressions of the language as trees. Every node knows the
line that it is reported on. Parentheses stay in the tree, because what stands
in them may be an assignment target, and an omitted bound of a slice is a node
of its own, because it has a value too.
-/

import Offside.Source.Location
import Offside.Syntax.Operator

namespace Offside

inductive Expr where
  | integer (location : Location) (value : Int64)
  | float (location : Location) (value : Float)
  | string (location : Location) (value : String)
  | boolean (location : Location) (value : Bool)
  | none (location : Location)
  | name (location : Location) (name : String)
  /-- A bound that a slice leaves out. -/
  | omitted (location : Location)
  | parenthesized (location : Location) (inner : Expr)
  | tuple (location : Location) (elements : List Expr)
  | list (location : Location) (elements : List Expr)
  | set (location : Location) (elements : List Expr)
  | dict (location : Location) (entries : List (Expr × Expr))
  | call (location : Location) (callee : Expr) (positional : List Expr)
      (named : List (String × Expr))
  | attribute (location : Location) (object : Expr) (name : String)
  | index (location : Location) (object index : Expr)
  | slice (location : Location) (object start stop step : Expr)
  | binary (location : Location) (operator : BinaryOperator) (left right : Expr)
  | unary (location : Location) (operator : UnaryOperator) (operand : Expr)
  | comprehension (location : Location) (output target source : Expr) (filter : Option Expr)
deriving Inhabited

namespace Expr

/-- The line that a node is reported on. -/
def location : Expr → Location
  | .integer location _ => location
  | .float location _ => location
  | .string location _ => location
  | .boolean location _ => location
  | .none location => location
  | .name location _ => location
  | .omitted location => location
  | .parenthesized location _ => location
  | .tuple location _ => location
  | .list location _ => location
  | .set location _ => location
  | .dict location _ => location
  | .call location _ _ _ => location
  | .attribute location _ _ => location
  | .index location _ _ => location
  | .slice location _ _ _ _ => location
  | .binary location _ _ _ => location
  | .unary location _ _ => location
  | .comprehension location _ _ _ _ => location

/-- The name of a node in listings of the tree. -/
def nodeName (expression : Expr) : String :=
  "minipy.AstExpression" ++ match expression with
    | .integer .. => "Integer"
    | .float .. => "Float"
    | .string .. => "String"
    | .boolean .. => "Boolean"
    | .none .. => "None"
    | .name .. => "Identifier"
    | .omitted .. => "Empty"
    | .parenthesized .. => "Parened"
    | .tuple .. => "Tuple"
    | .list .. => "List"
    | .set .. => "Set"
    | .dict .. => "Dict"
    | .call .. => "Call"
    | .attribute .. => "Attribute"
    | .index .. => "Index"
    | .slice .. => "Slice"
    | .binary .. => "Binary"
    | .unary .. => "Unary"
    | .comprehension .. => "ListComprehension"

/-- What a message calls an expression that cannot be assigned to. The shapes that may hold other
targets are called by the name of their node. -/
def describe : Expr → String
  | .integer .. => "literal"
  | .float .. => "literal"
  | .string .. => "literal"
  | .boolean .. => "literal"
  | .none .. => "literal"
  | .call .. => "function call"
  | .binary .. => "expression"
  | .unary .. => "expression"
  | .comprehension .. => "list comprehension"
  | .dict .. => "display"
  | .set .. => "display"
  | other => other.nodeName

mutual

/-- The part of a target that cannot be assigned to, if there is one: targets are names,
attributes and subscripts, and parenthesized or displayed groups of targets. -/
def untargetable? : Expr → Option Expr
  | .name .. => .none
  | .attribute .. => .none
  | .index .. => .none
  | .slice .. => .none
  | .parenthesized _ inner => inner.untargetable?
  | .tuple _ elements => untargetableIn? elements
  | .list _ elements => untargetableIn? elements
  | other => some other

/-- The first part of several targets that cannot be assigned to. -/
def untargetableIn? : List Expr → Option Expr
  | [] => .none
  | first :: rest => first.untargetable? <|> untargetableIn? rest

end

/-- The expression can be assigned to. -/
def isTarget (target : Expr) : Bool :=
  target.untargetable?.isNone

end Expr

end Offside
