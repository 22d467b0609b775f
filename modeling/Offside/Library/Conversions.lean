/-
This file makes objects of the built-in classes when a program calls the class.
The classes of values convert what they are given; the classes of the language's
own machinery make no objects this way; the classes of exceptions make objects
like the classes of a program do, and so have no conversion.
-/

import Offside.Library.Methods

namespace Offside.Library

open Exec

/-- The built-in class that an object is. -/
def builtinOf? (ref : Ref) : Option BuiltinClass :=
  BuiltinClass.all[ref.index]?

/-- Calling the class converts, or is refused. -/
def hasConversion (builtin : BuiltinClass) : Bool :=
  !builtin.isException

/-- The built-in class with a conversion that an object is. -/
def converter? (ref : Ref) : Option BuiltinClass :=
  (builtinOf? ref).filter hasConversion

/-- How many arguments a conversion takes. -/
def conversionArity : BuiltinClass → Arity
  | .range | .slice => ⟨1, some 3, []⟩
  | _ => ⟨0, some 1, []⟩

/-- Runs a conversion on a number of arguments that fits. -/
def convertPositional (machine : Machine) (builtin : BuiltinClass) (arguments : List Ref) :
    Exec Ref :=
  match builtin with
  | .str => convertStr machine arguments
  | .int => convertInt machine arguments
  | .bool => convertBool machine arguments
  | .float => convertFloat machine arguments
  | .list => convertList machine arguments
  | .tuple => convertTuple machine arguments
  | .set => convertSet machine arguments
  | .slice => convertSlice arguments
  | .range => convertRange arguments
  | other => complain (.cannotCreate other.name)

/-- The number of arguments lies in the range. -/
def admits (arity : Arity) (given : Nat) : Bool :=
  arity.least ≤ given && (match arity.most with
    | some most => given ≤ most
    | none => true)

/-- Makes an object of a built-in class. Only dicts take named arguments. -/
def convert (machine : Machine) (builtin : BuiltinClass) (arguments : List Ref)
    (named : List (String × Ref)) : Exec Ref :=
  let arity := conversionArity builtin
  match builtin with
  | .klass | .function | .noneType | .moduleType | .iterator =>
    complain (.cannotCreate builtin.name)
  | .dict =>
    if admits arity arguments.length then convertDict machine arguments named
    else wrongCount builtin.name arity arguments.length
  | _ =>
    if !named.isEmpty then complain (.takesNoKeywords builtin.name)
    else if admits arity arguments.length then convertPositional machine builtin arguments
    else wrongCount builtin.name arity arguments.length

end Offside.Library
