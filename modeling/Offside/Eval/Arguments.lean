/-
This file matches the arguments of a call with the parameters of a function.
Positional arguments fill the parameters from the left, named ones fill the
parameters of their names in the order of the names, and defaults fill what is
still open. The frame of the call binds exactly the parameters.

Faults are found in this order: too many positional arguments, then for each named
argument one that names no parameter or a filled one, and at last the parameters
that are still open, all of them at once.
-/

import Offside.Eval.Complaint
import Offside.Value.Object

namespace Offside

namespace Arguments

/-- Named values in the order of their names. -/
def byName (named : List (String × Ref)) : List (String × Ref) :=
  named.mergeSort fun left right => decide (left.1 ≤ right.1)

/-- Fills parameters from the left. -/
def fillPositional (parameters : List Parameter) (positional : List Ref) : Namespace :=
  (parameters.zip positional).foldl (fun table entry => table.set entry.1.name entry.2) .empty

/-- Fills the parameters that have the given names. -/
def fillNamed (function : String) (parameters : List Parameter) :
    List (String × Ref) → Namespace → Except Complaint Namespace
  | [], table => .ok table
  | (name, value) :: rest, table =>
    if !parameters.any (·.name == name) then .error (.unexpectedKeyword function name)
    else if (table.get? name).isSome then .error (.repeatedValue function name)
    else fillNamed function parameters rest (table.set name value)

/-- Fills open parameters with their defaults, and lists those without one. -/
def fillDefaults (defaults : List (String × Ref)) :
    List Parameter → Namespace → Namespace × List String
  | [], table => (table, [])
  | parameter :: rest, table =>
    if (table.get? parameter.name).isSome then fillDefaults defaults rest table
    else match defaults.lookup parameter.name with
      | some value => fillDefaults defaults rest (table.set parameter.name value)
      | none =>
        let (filled, missing) := fillDefaults defaults rest table
        (filled, parameter.name :: missing)

/-- The frame of a call. -/
def bind (function : String) (parameters : List Parameter) (defaults : List (String × Ref))
    (positional : List Ref) (named : List (String × Ref)) : Except Complaint Namespace := do
  if parameters.length < positional.length then
    throw (.tooManyArguments function parameters.length positional.length)
  let table ← fillNamed function parameters (byName named) (fillPositional parameters positional)
  match fillDefaults defaults parameters table with
  | (filled, []) => return filled
  | (_, missing) => throw (.missingArguments function missing)

end Arguments

end Offside
