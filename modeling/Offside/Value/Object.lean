/-
This file says what an object is. Every value of the language is an object, the
classes and functions among them: it has a class, a table of attributes, and
possibly a payload (a number, a text, a container) or code that can be called.

Objects refer to each other by their index in the heap, so a container can hold
itself and two names can share one object. Attribute tables have a place of
their own, because a scope, a class or a module can share its table with an
object; an object that was never given an attribute has no table yet. The
elements of a list and the values of a dict have places of their own as well,
because an operation that is still going through them sees them change.

A scope is a list of frames, innermost first. A frame is not copied when a
function closes over it: it names its table.
-/

import Offside.Number.Double
import Offside.Syntax.Stmt
import Offside.Value.Buffer
import Offside.Value.Builtin
import Offside.Value.Table

namespace Offside

/-- A table of names in its place. -/
structure SpaceId where
  index : Nat
deriving Repr, DecidableEq, Inhabited

/-- The value of a dict's entry in its place. -/
structure SlotId where
  index : Nat
deriving Repr, DecidableEq, Inhabited

/-- One frame of a scope. -/
structure Frame where
  space : SpaceId
  /-- What traces call the frame; an empty label leaves it to the frame around. -/
  label : String
  /-- Functions defined in a class body do not see its frame. -/
  isClassBody : Bool
deriving Repr, DecidableEq

/-- The frames in which a name is looked up, innermost first. -/
abbrev Env := List Frame

/-- The name that traces give to a place. -/
def Env.label (env : Env) : String :=
  match env.find? (·.label != "") with
  | some frame => frame.label
  | none => "<module>"

/-- The scope that a function defined here closes over: the innermost one that is not a class
body. -/
def Env.closure : Env → Env
  | [] => []
  | [frame] => [frame]
  | frame :: outer => if frame.isClassBody then Env.closure outer else frame :: outer

/-! ### Payloads -/

/-- How far an iteration has come. -/
inductive Cursor where
  /-- Walks a list or tuple as it is at each step. -/
  | sequence (source : Ref) (position : Nat)
  /-- Walks elements that were copied when the iteration began. -/
  | copied (elements : Array Ref) (position : Nat)
  /-- Walks the characters that are left of a text. -/
  | characters (rest : List Char)
  /-- Walks the numbers of a range. -/
  | numbers (start stop step position : Int64)

/-- What an object holds besides its attributes. -/
inductive Payload where
  | empty
  | none
  | bool (value : Bool)
  | int (value : Int64)
  | float (value : Number.Double)
  | str (value : String)
  | list (buffer : BufferId)
  | tuple (elements : Array Ref)
  | dict (table : Table SlotId)
  | set (table : Table Unit)
  | slice (start stop step : Ref)
  | range (start stop step : Int64)
  | iterator (cursor : Cursor)
deriving Inhabited

/-! ### Code -/

/-- What a function written in the language does. -/
structure Definition where
  parameters : List Parameter
  body : List Stmt

/-- The code of a function. -/
inductive Code where
  /-- Written in the language, with the scope it closes over and the values of its defaults. -/
  | written (definition : Definition) (closure : Env) (defaults : List (String × Ref))
  | native (native : Native)

/-- A function. Arguments that it was bound to come before all others. -/
structure Function where
  name : String
  code : Code
  bound : List Ref

/-! ### Objects -/

structure Object where
  class_ : Ref
  space : Option SpaceId
  payload : Payload
  function : Option Function

instance : Inhabited Object := ⟨⟨⟨0⟩, none, .empty, none⟩⟩

/-- The object of a built-in class: they come first in the heap, in the order of their list. -/
def BuiltinClass.ref (builtin : BuiltinClass) : Ref :=
  ⟨builtin.ctorIdx⟩

/-- The truth values and the absent value follow the classes, and the object of vacant cells follows
them. -/
def trueRef : Ref := ⟨25⟩
def falseRef : Ref := ⟨26⟩
def noneRef : Ref := ⟨27⟩

/-- The object of a truth value. -/
def truthRef (value : Bool) : Ref :=
  if value then trueRef else falseRef

end Offside
