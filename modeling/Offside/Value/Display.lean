/-
This file writes objects without running any code of the program: listings of a
scope and the messages of exceptions use this. Texts stand as they are at the top
and as literals inside of a list or tuple. Other containers are shown by their
class only. Nesting is bounded by the size of the heap.
-/

import Offside.Number.FloatText
import Offside.Number.Integer
import Offside.Text.Quoted
import Offside.Value.Class

namespace Offside

namespace World

/-- Texts with a comma and a blank between them. -/
def commaJoined (texts : List String) : String :=
  ", ".intercalate texts

/-- Elements between round brackets; a single one keeps a comma. -/
def tupleText (elements : List String) : String :=
  match elements with
  | [single] => "(" ++ single ++ ",)"
  | _ => "(" ++ commaJoined elements ++ ")"

def listText (elements : List String) : String :=
  "[" ++ commaJoined elements ++ "]"

/-- How an object without a writing of its own is shown. -/
def plainDisplay (world : World) (ref : Ref) : String :=
  if world.isClass ref then "<class '" ++ world.className ref ++ "'>"
  else match (world.object ref).function with
    | some function => "<function " ++ function.name ++ ">"
    | none => "<" ++ world.typeName ref ++ " object>"

def displayWithin (world : World) : Nat → Ref → String
  | 0, _ => ""
  | fuel + 1, ref =>
    let element (item : Ref) : String :=
      match world.payload item with
      | .str text => Text.quote text
      | _ => displayWithin world fuel item
    match world.payload ref with
    | .none => "None"
    | .bool value => truthText value
    | .int value => Number.integerText value
    | .float value => Number.floatText value.toFloat
    | .str text => text
    | .list buffer => listText ((world.buffer buffer).cells.toList.map element)
    | .tuple elements => tupleText (elements.toList.map element)
    | _ => world.plainDisplay ref

/-- An object as listings and messages show it. A list may hold itself, and then there is no end to
what it shows. Only so many levels of it are shown. -/
def display (world : World) (ref : Ref) : String :=
  world.displayWithin (world.objects.size + 1) ref

/-- The arguments of an exception as messages show them. -/
def exceptionText (world : World) (ref : Ref) : String :=
  match (world.ownAttribute? ref "args").map world.payload with
  | some (.tuple elements) => commaJoined (elements.toList.map world.display)
  | _ => ""

/-- The class of an exception, and its arguments if it has any. -/
def raisedText (world : World) (id : RaisedId) : String :=
  let value := (world.raisedAt id).value
  let message := world.exceptionText value
  if message == "" then world.typeName value else world.typeName value ++ ": " ++ message

end World

/-- A failure as a message. -/
def Failure.message (world : World) : Failure → String
  | .raised id => world.raisedText id
  | .source error => error.message
  | .host message => message
  | .internal location reason => "internal error at " ++ Location.textOf location ++ ": " ++ reason
  | .outside => "position outside of a sequence"
  | .waiting => "waiting for input"
  | .exhausted => "budget exhausted"

end Offside
