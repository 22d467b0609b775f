/-
This file holds the free functions. Except for `print`, which has named arguments,
they take a fixed range of positional arguments and nothing else.
-/

import Offside.Library.Kinds
import Offside.Library.Streams

namespace Offside.Library

open Exec

/-- Classes, given as one class or as a tuple of them. -/
def classesOf (function : String) (ref : Ref) : Exec (List Ref) := do
  let classes ← read fun world => match world.payload ref with
    | .tuple elements => elements.toList
    | _ => [ref]
  if ← read fun world => classes.all world.isClass then return classes
  else complain (.secondNotClass function)

def isInstance (value classes : Ref) : Exec Ref := do
  let classes ← classesOf "isinstance" classes
  return truthRef (← read fun world => classes.any (world.isInstance value))

def isSubclass (class_ classes : Ref) : Exec Ref := do
  if ← read (·.isClass class_) then
    let classes ← classesOf "issubclass" classes
    return truthRef (← read fun world => classes.any (world.isSubclass class_))
  else complain .firstNotClass

def length (machine : Machine) (ref : Ref) : Exec Ref := do
  match ← invoke? machine ref "__len__" [] with
  | some result => return result
  | none => complain (.hasNoLen (← typeName ref))

/-- The next element of an iterator, or the given value once it is exhausted. -/
def next (machine : Machine) (iterator : Ref) (otherwise : Option Ref) : Exec Ref := do
  match ← next? machine iterator, otherwise with
  | some element, _ => return element
  | none, some value => return value
  | none, none => complain .stopIteration

/-- How many arguments a free function takes. -/
def freeArity : FreeFunction → Arity
  | .input => ⟨0, some 1, []⟩
  | .next => ⟨1, some 2, []⟩
  | .isInstance | .isSubclass => .exactly 2
  | _ => .exactly 1

/-- Refuses a wrong number of arguments. -/
def wrongCount {α : Type} (name : String) (arity : Arity) (given : Nat) : Exec α :=
  complain (.wrongCount name arity.least arity.most given)

/-- Runs a free function that takes positional arguments only. -/
def runPositional (machine : Machine) (function : FreeFunction) (arguments : List Ref) :
    Exec Ref := do
  match function, arguments with
  | .type, [ref] => return (← read (·.object ref)).class_
  | .repr, [ref] => newStr (← repr machine ref)
  | .hash, [ref] => newInt (← Exec.hash machine ref)
  | .len, [ref] => length machine ref
  | .iter, [ref] => iter machine ref
  | .next, [iterator] => next machine iterator none
  | .next, [iterator, otherwise] => next machine iterator (some otherwise)
  | .input, [] => input machine none
  | .input, [prompt] => input machine (some prompt)
  | .isInstance, [value, classes] => isInstance value classes
  | .isSubclass, [class_, classes] => isSubclass class_ classes
  | other, arguments => wrongCount other.name (freeArity other) arguments.length

/-- Runs a free function. -/
def runFree (machine : Machine) (function : FreeFunction) (arguments : List Ref)
    (named : List (String × Ref)) : Exec Ref :=
  match function with
  | .print => print machine arguments named
  | other =>
    if named.isEmpty then runPositional machine other arguments
    else complain (.takesNoKeywords other.name)

end Offside.Library
