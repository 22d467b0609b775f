/-
This file says how the language works on objects through their special methods:
calling them, asking for their truth, their text, their elements, whether they
are equal, and what an operator does to them. A special method is looked up on
the object's class unless the object itself carries one, and is called like any
other function.

What a call does is not decided here: a `Machine` is passed in, which knows how
to call an object and how to run statements. It also carries the budget for
loops whose length nothing else bounds.
-/

import Offside.Eval.Complaint
import Offside.Syntax.Operator
import Offside.Value.Display
import Offside.Value.Key
import Offside.Value.Span

namespace Offside

/-- How a sequence of statements ended, if it did not fail. -/
inductive Flow where
  | done
  | returned (location : Location) (value : Ref)
  | broken (location : Location)
  | continued (location : Location)

/-- What a step may start anew: calls and whole blocks. -/
structure Machine where
  /-- How many rounds a loop may take. -/
  budget : Nat
  /-- Calls an object with positional and named arguments. -/
  call : Ref → List Ref → List (String × Ref) → Exec Ref
  /-- Runs statements in a scope. -/
  run : List Stmt → Env → Exec Flow

namespace Exec

/-! ### Raising -/

/-- A new object of an exception class with these arguments. No initializer of the program runs. -/
def newException (class_ : Ref) (arguments : Array Ref) : Exec Ref := do
  let tuple ← newTuple arguments
  let space ← newSpace (Namespace.empty.set "args" tuple)
  alloc ⟨class_, some space, .empty, none⟩

/-- Enters the exception of a complaint into the world. -/
def newComplaint (complaint : Complaint) : Exec RaisedId := do
  let arguments ← match complaint.message with
    | some text => (fun ref => #[ref]) <$> newStr text
    | none => pure #[]
  newRaised (← newException complaint.exception.ref arguments)

/-- Raises the exception of a complaint. -/
def complain {α : Type} (complaint : Complaint) : Exec α := do
  throw (.raised (← newComplaint complaint))

/-- The failure is an exception of this class. -/
def isRaised (failure : Failure) (builtin : BuiltinClass) : Exec Bool :=
  match failure with
  | .raised id => read fun world => world.isInstance (world.raisedAt id).value builtin.ref
  | _ => pure false

/-- The name of an object's class. -/
def typeName (ref : Ref) : Exec String :=
  read (·.typeName ref)

/-- Nothing can be done with what a vacant cell holds. -/
def checkPresent (ref : Ref) : Exec Unit :=
  if ref == vacantRef then throw .outside else return ()

/-! ### Special methods -/

/-- Calls a special method, if the object has it. -/
def invoke? (machine : Machine) (ref : Ref) (name : String) (arguments : List Ref) :
    Exec (Option Ref) := do
  checkPresent ref
  match ← read (·.lookupOperator ref name) with
  | none => return none
  | some (.value found) => return some (← machine.call found arguments [])
  | some (.method function receiver) =>
    return some (← machine.call function (receiver :: arguments) [])

/-- Whether an object counts as true: what its `__bool__` says, else whether its `__len__` is not
zero, else yes. -/
def truthy (machine : Machine) (ref : Ref) : Exec Bool := do
  let object ← read (·.object ref)
  match object.payload, object.class_ == BuiltinClass.bool.ref with
  | .bool value, true => return value
  | _, _ =>
    match ← invoke? machine ref "__bool__" [] with
    | some answer =>
      match ← read (·.payload answer) with
      | .bool value => return value
      | _ => complain (.boolReturned (← typeName answer))
    | none =>
      match ← invoke? machine ref "__len__" [] with
      | some answer =>
        match ← read (·.payload answer) with
        | .int value => return value != 0
        | _ => complain (.notInteger (← typeName answer))
      | none => return true

/-- The text of an object for a reader of programs. -/
def repr (machine : Machine) (ref : Ref) : Exec String := do
  match ← invoke? machine ref "__repr__" [] with
  | some answer =>
    match ← read (·.payload answer) with
    | .str text => return text
    | _ => complain (.reprReturned (← typeName answer))
  | none => read (·.display ref)

/-- The text of an object for a reader of output. -/
def str (machine : Machine) (ref : Ref) : Exec String := do
  match ← invoke? machine ref "__str__" [] with
  | some answer =>
    match ← read (·.payload answer) with
    | .str text => return text
    | _ => complain (.strReturned (← typeName answer))
  | none => repr machine ref

/-- The texts of several objects, in order, after those found already, which are given from their
end. -/
def reprOnto (machine : Machine) (found : List String) : List Ref → Exec (List String)
  | [] => return found.reverse
  | ref :: rest => do
    let text ← repr machine ref
    reprOnto machine (text :: found) rest

/-- The texts of several objects, in order. -/
def reprAll (machine : Machine) (refs : List Ref) : Exec (List String) :=
  reprOnto machine [] refs

/-- The texts of as many elements of a span as given, from a position on, after those found already,
which are given from their end. -/
def reprSpanOnto (machine : Machine) (span : Span) (found : List String) :
    Nat → Nat → Exec (List String)
  | 0, _ => return found.reverse
  | count + 1, position => do
    let text ← repr machine (← elementOf span position)
    reprSpanOnto machine span (text :: found) count (position + 1)

/-- The texts of the elements of a span, each as it is when its turn comes. -/
def reprSpan (machine : Machine) (span : Span) : Exec (List String) :=
  reprSpanOnto machine span [] span.size 0

/-! ### Iterating -/

/-- An iterator over an object. -/
def iter (machine : Machine) (ref : Ref) : Exec Ref := do
  match ← invoke? machine ref "__iter__" [] with
  | some iterator => return iterator
  | none => complain (.notIterable (← typeName ref))

/-- How many numbers a range has, with arithmetic that wraps at 64 bits. -/
def rangeLength (start stop step : Int64) : Int64 :=
  if 0 < step && start < stop then (stop - start + step - 1) / step
  else if step < 0 && stop < start then (start - stop - step - 1) / (-step)
  else 0

/-- Takes one step of a built-in iteration. -/
def advance (iterator : Ref) (cursor : Cursor) : Exec (Option Ref) :=
  match cursor with
  | .sequence source position => do
    match ← read fun world => (world.elements source)[position]? with
    | some element =>
      setPayload iterator (.iterator (.sequence source (position + 1)))
      return some element
    | none => return none
  | .copied elements position =>
    match elements[position]? with
    | some element => do
      setPayload iterator (.iterator (.copied elements (position + 1)))
      return some element
    | none => return none
  | .characters rest =>
    match rest with
    | c :: after => do
      setPayload iterator (.iterator (.characters after))
      return some (← newStr (String.singleton c))
    | [] => return none
  | .numbers start stop step position =>
    if rangeLength start stop step ≤ position then return none
    else do
      setPayload iterator (.iterator (.numbers start stop step (position + 1)))
      return some (← newInt (start + position * step))

/-- The next element of an iterator, or nothing once it is exhausted. -/
def next? (machine : Machine) (iterator : Ref) : Exec (Option Ref) := do
  match ← read (·.payload iterator) with
  | .iterator cursor => advance iterator cursor
  | _ =>
    let attempt : Exec (Option (Option Ref)) :=
      tryCatch (do return some (← invoke? machine iterator "__next__" [])) fun failure => do
        if ← isRaised failure .stopIteration then return none else throw failure
    match ← attempt with
    | none => return none
    | some (some element) => return some element
    | some none => complain (.notIterator (← typeName iterator))

/-- Runs a round again and again until it gives a result, for as long as the budget lasts. -/
@[specialize] def repeatUntil {α σ : Type} (round : σ → Exec (Except σ α)) : Nat → σ → Exec α
  | 0, _ => throw .exhausted
  | budget + 1, state => do
    match ← round state with
    | .ok result => return result
    | .error state => repeatUntil round budget state

/-- The elements that an iterator still gives. -/
def drain (machine : Machine) (iterator : Ref) : Exec (Array Ref) :=
  repeatUntil (fun (found : Array Ref) => do
    match ← next? machine iterator with
    | some element => return .error (found.push element)
    | none => return .ok found) machine.budget #[]

/-- The elements of an object. Those of a list or tuple are taken as they are. -/
def collect (machine : Machine) (ref : Ref) : Exec (Array Ref) := do
  match ← read (·.elements? ref) with
  | some elements => return elements
  | none => drain machine (← iter machine ref)

/-! ### Comparing and hashing -/

/-- Whether two objects are equal: what `__eq__` says, else whether they are identical. -/
def equal (machine : Machine) (left right : Ref) : Exec Bool := do
  match ← invoke? machine left "__eq__" [right] with
  | some answer => truthy machine answer
  | none => read (·.isSame left right)

/-- Refuses an object that cannot be a key. -/
def checkHashable (ref : Ref) : Exec Unit := do
  checkPresent ref
  if ← read (·.isHashable ref) then return ()
  else complain (.unhashable (← typeName ref))

/-- The hash that a program sees. -/
def hash (machine : Machine) (ref : Ref) : Exec Int64 := do
  checkHashable ref
  match ← invoke? machine ref "__hash__" [] with
  | some answer =>
    match ← read (·.payload answer) with
    | .int value => return value
    | _ => complain .hashReturned
  | none => return (← read (·.keyHash ref)).toInt64

/-! ### Operators -/

/-- An operator that its left operand does not support. -/
def unsupported {α : Type} (operator : String) (left right : Ref) : Exec α := do
  complain (.unsupported operator (← typeName left) (← typeName right))

/-- The special method behind an operator that has one of its own. -/
def operatorMethod? : BinaryOperator → Option String
  | .plus => some "__add__"
  | .times => some "__mul__"
  | .divide => some "__truediv__"
  | .modulo => some "__mod__"
  | .power => some "__pow__"
  | .equal => some "__eq__"
  | .less => some "__lt__"
  | .greater => some "__gt__"
  | .atMost => some "__le__"
  | .atLeast => some "__ge__"
  | _ => none

/-- Whether the right operand contains the left one. -/
def contains (machine : Machine) (left right : Ref) : Exec Bool := do
  match ← invoke? machine right "__contains__" [left] with
  | some answer => truthy machine answer
  | none => unsupported "in" right left

/-- Subtraction adds the negated right operand, and reports a type that does not fit as its own. -/
def subtract (machine : Machine) (left right : Ref) : Exec Ref := do
  match ← invoke? machine right "__neg__" [] with
  | none => unsupported "-" left right
  | some negated =>
    let attempt : Exec (Option Ref) :=
      tryCatch (invoke? machine left "__add__" [negated]) fun failure => do
        if ← isRaised failure .typeError then return none else throw failure
    match ← attempt with
    | some result => return result
    | none => unsupported "-" left right

/-- Applies an operator to two values. -/
def binaryOperation (machine : Machine) (operator : BinaryOperator) (left right : Ref) :
    Exec Ref := do
  match operator with
  | .identical => return truthRef (← read (·.isSame left right))
  | .isNot => return truthRef !(← read (·.isSame left right))
  | .notEqual => return truthRef !(← equal machine left right)
  | .equal => return truthRef (← equal machine left right)
  | .member => return truthRef (← contains machine left right)
  | .notIn => return truthRef !(← contains machine left right)
  | .minus => subtract machine left right
  | other =>
    match operatorMethod? other with
    | none => throw (.internal none ("unknown binary operator " ++ other.name))
    | some method =>
      match ← invoke? machine left method [right] with
      | some result => return result
      | none => unsupported other.name left right

/-- Whether the left value is less than the right one. -/
def lessThan (machine : Machine) (left right : Ref) : Exec Bool := do
  truthy machine (← binaryOperation machine .less left right)

/-! ### Attributes and items -/

/-- The name of a module as messages show it. -/
def moduleName (ref : Ref) : Exec String :=
  read fun world => match world.ownAttribute? ref "__name__" with
    | some name => world.display name
    | none => "?"

/-- The value of an attribute. -/
def getAttribute (ref : Ref) (name : String) : Exec Ref := do
  checkPresent ref
  match ← read (·.lookup ref name) with
  | some found => found.toRef
  | none =>
    if (← read (·.object ref)).class_ == BuiltinClass.moduleType.ref then
      complain (.moduleAttribute (← moduleName ref) name)
    else if ← read (·.isClass ref) then
      complain (.classAttribute (← read (·.className ref)) name)
    else complain (.objectAttribute (← typeName ref) name)

def getItem (machine : Machine) (ref index : Ref) : Exec Ref := do
  match ← invoke? machine ref "__getitem__" [index] with
  | some result => return result
  | none => complain (.notSubscriptable (← typeName ref))

def setItem (machine : Machine) (ref index value : Ref) : Exec Unit := do
  match ← invoke? machine ref "__setitem__" [index, value] with
  | some _ => return ()
  | none => complain (.noItemAssignment (← typeName ref))

def deleteItem (machine : Machine) (ref index : Ref) : Exec Unit := do
  match ← invoke? machine ref "__delitem__" [index] with
  | some _ => return ()
  | none => complain (.noItemDeletion (← typeName ref))

end Exec

end Offside
