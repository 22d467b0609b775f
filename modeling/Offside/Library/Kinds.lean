/-
This file holds the methods of the objects that carry the language itself: classes,
functions, modules, iterators, exceptions and the absent value.
-/

import Offside.Library.Mappings

namespace Offside.Library

open Exec

/-! ### Classes, functions, modules -/

/-- The members of a class as a dict. -/
def classMembers (self : Ref) : Exec Ref := do
  let result ← newDict
  (← read (·.attributes self)).entries.forM fun (name, value) => do
    dictStore result (← newStr name) value
  return result

def classRepr (self : Ref) : Exec Ref := do
  newStr ("<class '" ++ (← read (·.className self)) ++ "'>")

/-- A function that is bound to a receiver is shown as a method. -/
def functionRepr (self : Ref) : Exec Ref := do
  match (← read (·.object self)).function with
  | none => newStr "<function ?>"
  | some function =>
    newStr ((if function.bound.isEmpty then "<function " else "<bound method ") ++
      function.name ++ ">")

def moduleRepr (self : Ref) : Exec Ref := do
  newStr ("<module '" ++ (← moduleName self) ++ "'>")

/-! ### Iterators -/

/-- The next element; an iteration that has ended says so by an exception. -/
def iteratorNext (self : Ref) : Exec Ref := do
  match ← read (·.payload self) with
  | .iterator cursor =>
    match ← advance self cursor with
    | some element => return element
    | none => complain .stopIteration
  | _ => complain (.notIterator (← typeName self))

/-! ### Exceptions -/

/-- The arguments of an exception. A program may have put anything in their place. -/
def exceptionArguments (self : Ref) : Exec (List Ref) :=
  read fun world => match world.ownAttribute? self "args" with
    | none => []
    | some found =>
      match world.payload found with
      | .tuple elements => elements.toList
      | _ => [found]

def exceptionInit (self : Ref) (arguments : List Ref) : Exec Ref := do
  setAttribute self "args" (← newTuple arguments.toArray)
  return noneRef

/-- The text of a single argument, and otherwise the arguments as a tuple. -/
def exceptionStr (machine : Machine) (self : Ref) : Exec Ref := do
  match ← exceptionArguments self with
  | [] => newStr ""
  | [single] => newStr (← str machine single)
  | several => newStr (← repr machine (← newTuple several.toArray))

def exceptionRepr (machine : Machine) (self : Ref) : Exec Ref := do
  let texts ← reprAll machine (← exceptionArguments self)
  newStr ((← typeName self) ++ "(" ++ World.commaJoined texts ++ ")")

end Offside.Library
