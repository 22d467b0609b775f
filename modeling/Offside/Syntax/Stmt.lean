/-
This file holds the statements of the language. A simple statement fills one
line and holds no other statement; everything that an exception's trace records
about a failing line is recorded for it. A compound statement opens one or more
blocks, each a non-empty list of statements.
-/

import Offside.Syntax.Expr

namespace Offside

/-- A statement that fills one line. -/
inductive Simple where
  | expression (expression : Expr)
  | assign (target value : Expr)
  | pass
  | breakLoop
  | continueLoop
  | returnValue (value : Option Expr)
  /-- Raises a value, or again the exception being handled. -/
  | raiseValue (value : Option Expr)
  | delete (target : Expr)
  /-- Imports a module by its dotted path, under a name of its own if one is given. -/
  | importModule (path : List String) (newName : Option String)
  /-- Imports names from a module, or every public name if none are listed. -/
  | importNames (path : List String) (names : Option (List String))
deriving Inhabited

/-- A parameter of a function with its default. -/
structure Parameter where
  name : String
  default : Option Expr
deriving Inhabited

mutual

inductive Stmt where
  | simple (location : Location) (action : Simple)
  /-- The branches of `if` and every `elif`, in order, and the `else` block. -/
  | choice (location : Location) (branches : List Branch) (otherwise : Option (List Stmt))
  | whileLoop (location : Location) (condition : Expr) (body : List Stmt)
      (otherwise : Option (List Stmt))
  | forLoop (location : Location) (target iterable : Expr) (body : List Stmt)
      (otherwise : Option (List Stmt))
  | attempt (location : Location) (body : List Stmt) (handlers : List Handler)
      (otherwise : Option (List Stmt)) (cleanup : Option (List Stmt))
  | functionDef (location : Location) (name : String) (parameters : List Parameter)
      (body : List Stmt)
  | classDef (location : Location) (name : String) (base : Option Expr) (body : List Stmt)

/-- A condition and the block that runs when it holds. -/
inductive Branch where
  | mk (location : Location) (condition : Expr) (body : List Stmt)

/-- An `except` clause: without a class it catches every exception. -/
inductive Handler where
  | mk (location : Location) (class? : Option Expr) (name : Option String) (body : List Stmt)

end

instance : Inhabited Stmt := ⟨.simple default .pass⟩

/-- The line that a statement starts on. -/
def Stmt.location : Stmt → Location
  | .simple location _ => location
  | .choice location _ _ => location
  | .whileLoop location _ _ _ => location
  | .forLoop location _ _ _ _ => location
  | .attempt location _ _ _ _ => location
  | .functionDef location _ _ _ => location
  | .classDef location _ _ _ => location

/-- The line of an `except` clause. -/
def Handler.location : Handler → Location
  | .mk location _ _ _ => location

/-- A clause that catches every exception. -/
def Handler.isBare : Handler → Bool
  | .mk _ class? _ _ => class?.isNone

end Offside
