/-
This file says what calling an object does. Calling a class makes an object of it;
calling a function runs it, with the arguments that it is bound to before all
others; any other object is called through its special method.

An object of a program's class that extends a built-in class of values carries
what the built-in class would make: without an initializer it is made from the
arguments, and with one it starts empty and the initializer gets the arguments.
-/

import Offside.Eval.Arguments
import Offside.Eval.Scope
import Offside.Library.Conversions

namespace Offside

namespace Exec

/-! ### Functions -/

/-- How many functions written in the language may be active at once. -/
def maxCallDepth : Nat := 1000

/-- Runs a function body in the frame of its arguments. -/
def runBody (machine : Machine) (name : String) (definition : Definition) (closure : Env)
    (defaults : List (String × Ref)) (arguments : List Ref) (named : List (String × Ref)) :
    Exec Ref := do
  match Arguments.bind name definition.parameters defaults arguments named with
  | .error complaint => complain complaint
  | .ok table =>
    let env ← enter closure name false table
    match ← machine.run definition.body env with
    | .returned _ value => return value
    | _ => return noneRef

/-- Runs a step as a call of a function written in the language. The begin of the call and its end
are entered into the record of calls. -/
def inCall (step : Exec Ref) : Exec Ref := do
  change (·.enterCall)
  change (·.noteCall .entered)
  thenAlways step fun world => world.leaveCall.noteCall .left

/-- A call fails as its step does. -/
theorem inCall_of_error {step : Exec Ref} {failure : Failure} {world after : World}
    (failed : step (world.enterCall.noteCall .entered) = .error failure after) :
    inCall step world = .error failure (after.leaveCall.noteCall .left) := by
  have ended : thenAlways step (fun world => world.leaveCall.noteCall .left)
      (world.enterCall.noteCall .entered) = .error failure (after.leaveCall.noteCall .left) := by
    rw [thenAlways, failed]
  exact ended

/-- Calls a function written in the language. -/
def callWritten (machine : Machine) (name : String) (definition : Definition) (closure : Env)
    (defaults : List (String × Ref)) (arguments : List Ref) (named : List (String × Ref)) :
    Exec Ref := do
  if maxCallDepth ≤ (← read (·.callDepth)) then complain .recursionTooDeep
  else inCall (runBody machine name definition closure defaults arguments named)

/-- Calls a function. -/
def callFunction (machine : Machine) (function : Function) (arguments : List Ref)
    (named : List (String × Ref)) : Exec Ref :=
  let all := function.bound ++ arguments
  match function.code with
  | .native native => do
    all.forM checkPresent
    Library.runNative machine native all named
  | .written definition closure defaults =>
    callWritten machine function.name definition closure defaults all named

/-! ### Classes -/

/-- The first class with a conversion among the classes that this one extends. -/
def inheritedConverter? (class_ : Ref) : Exec (Option BuiltinClass) :=
  read fun world => (world.chain class_).tail.findSome? Library.converter?

/-- Gives a new object what a built-in class makes from the arguments. -/
def carryPayload (machine : Machine) (instance_ : Ref) (builtin : BuiltinClass)
    (arguments : List Ref) (named : List (String × Ref)) : Exec Unit := do
  let value ← Library.convert machine builtin arguments named
  setPayload instance_ (← read (·.payload value))

/-- Calls the initializer of a new object. -/
def runInitializer (machine : Machine) (initializer : World.Found) (arguments : List Ref)
    (named : List (String × Ref)) : Exec Unit := do
  let result ← match initializer with
    | .value found => machine.call found arguments named
    | .method function receiver => machine.call function (receiver :: arguments) named
  match ← read (·.payload result) with
  | .none => return ()
  | _ => complain (.initReturned (← typeName result))

/-- Makes an object of a program's class or of a class of exceptions. -/
def construct (machine : Machine) (class_ : Ref) (arguments : List Ref)
    (named : List (String × Ref)) : Exec Ref := do
  let instance_ ← alloc ⟨class_, none, .empty, none⟩
  let initializer ← read (·.lookupInClass instance_ "__init__")
  match initializer, ← inheritedConverter? class_ with
  | none, some builtin =>
    carryPayload machine instance_ builtin arguments named
    return instance_
  | none, none =>
    if arguments.isEmpty && named.isEmpty then return instance_
    else complain (.takesNoArguments (← read (·.className class_)))
  | some initializer, converter =>
    match converter with
    | some builtin => carryPayload machine instance_ builtin [] []
    | none => pure ()
    runInitializer machine initializer arguments named
    return instance_

/-- Makes an object of a class. -/
def instantiate (machine : Machine) (class_ : Ref) (arguments : List Ref)
    (named : List (String × Ref)) : Exec Ref :=
  match Library.converter? class_ with
  | some builtin => do
    arguments.forM checkPresent
    Library.convert machine builtin arguments named
  | none => construct machine class_ arguments named

/-! ### Objects -/

/-- Calls an object through its special method. -/
def callObject (machine : Machine) (callee : Ref) (arguments : List Ref)
    (named : List (String × Ref)) : Exec Ref := do
  match ← read (·.lookupOperator callee "__call__") with
  | some (.value found) => machine.call found arguments named
  | some (.method function receiver) => machine.call function (receiver :: arguments) named
  | none => complain (.notCallable (← typeName callee))

/-- Calls an object. -/
def callStep (machine : Machine) (callee : Ref) (arguments : List Ref)
    (named : List (String × Ref)) : Exec Ref := do
  checkPresent callee
  if ← read (·.isClass callee) then instantiate machine callee arguments named
  else match (← read (·.object callee)).function with
    | some function => callFunction machine function arguments named
    | none => callObject machine callee arguments named

end Exec

end Offside
