/-
This file relates objects to classes: which class extends which, and where an
attribute of an object is found. Inheritance is single. A class names its base
in its own table, so the chain of bases is read off the heap; a chain cannot be
longer than the heap has objects, which bounds the walk along it.

An object's own attributes come first. A class then looks at its bases; every
object finally looks at its class and the bases of that. A function found there
becomes a method of the object: calling it passes the object first. The two names
that describe a class are not visible through its instances.
-/

import Offside.Value.World

namespace Offside

namespace World

/-- The object is a class: its class is the class of all classes. -/
def isClass (world : World) (ref : Ref) : Bool :=
  (world.object ref).class_ == BuiltinClass.klass.ref

/-- The class that a class extends. -/
def base? (world : World) (ref : Ref) : Option Ref :=
  match world.ownAttribute? ref "__base__" with
  | some base => if world.isClass base then some base else none
  | none => none

/-- The chain of classes from this one on, at most `fuel` of them. -/
def chainFrom (world : World) : Nat → Ref → List Ref
  | 0, _ => []
  | fuel + 1, ref =>
    match world.base? ref with
    | some base => ref :: chainFrom world fuel base
    | none => [ref]

/-- A class, its base, the base of that, and so on. Programs may make a class one of its own bases,
and then there is no end to its chain. Only so many classes of it are looked at. -/
def chain (world : World) (ref : Ref) : List Ref :=
  world.chainFrom (world.objects.size + 1) ref

/-- The class is the other one or extends it. -/
def isSubclass (world : World) (ref other : Ref) : Bool :=
  (world.chain ref).contains other

/-- The object's class is this one or extends it. -/
def isInstance (world : World) (ref class_ : Ref) : Bool :=
  world.isSubclass (world.object ref).class_ class_

/-- The name of a class, which programs may have overwritten. -/
def className (world : World) (class_ : Ref) : String :=
  match world.ownAttribute? class_ "__name__" with
  | some name =>
    match world.payload name with
    | .str text => text
    | _ => "?"
  | none => "?"

/-- The name of an object's class. -/
def typeName (world : World) (ref : Ref) : String :=
  world.className (world.object ref).class_

/-! ### Attributes -/

/-- What looking up an attribute finds. -/
inductive Found where
  | value (ref : Ref)
  /-- A function found in the class of an object. -/
  | method (function receiver : Ref)

/-- A function becomes a method of the object it was reached through. -/
def bindTo (world : World) (value receiver : Ref) : Found :=
  if (world.object value).function.isSome && !world.isClass value then .method value receiver
  else .value value

/-- The first of some classes that has the attribute gives its value. -/
def firstIn (world : World) (classes : List Ref) (name : String) : Option Ref :=
  classes.findSome? fun class_ => world.ownAttribute? class_ name

/-- Looks up an attribute in the object's class and the bases of that. -/
def lookupInClass (world : World) (ref : Ref) (name : String) : Option Found :=
  (world.firstIn (world.chain (world.object ref).class_) name).map (world.bindTo · ref)

/-- The names that describe a class itself. -/
def isClassMarker (name : String) : Bool :=
  name == "__name__" || name == "__base__"

/-- Looks up an attribute. -/
def lookup (world : World) (ref : Ref) (name : String) : Option Found :=
  match world.ownAttribute? ref name with
  | some value => some (.value value)
  | none =>
    match if world.isClass ref then world.firstIn (world.chain ref).tail name else none with
    | some value => some (.value value)
    | none => if isClassMarker name then none else world.lookupInClass ref name

/-- Looks up the method behind an operator. A class looks at the class of classes, since its own
methods are for its instances. -/
def lookupOperator (world : World) (ref : Ref) (name : String) : Option Found :=
  if world.isClass ref then world.lookupInClass ref name else world.lookup ref name

end World

/-- An attribute as a value: a method is a new function that is bound to its receiver and shares
the attributes of the function it came from. -/
def World.Found.toRef : World.Found → Exec Ref
  | .value ref => pure ref
  | .method function receiver => do
    let object ← Exec.read (·.object function)
    Exec.alloc
      { object with
        payload := .empty
        function := object.function.map fun code =>
          { code with bound := code.bound ++ [receiver] } }

end Offside
