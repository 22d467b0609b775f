/-
This file says how exceptions are raised, caught and linked. An exception that is
raised while another one is handled is linked to the one below it, once: a link is
never replaced, and never made where it would close a circle.

A failure that is no exception of the language passes every handler, but cleanup
code still runs for it. Some kinds end the run at once, without any cleanup: a
position outside of a sequence, a line of input that has not come yet, and a
used-up budget.
-/

import Offside.Eval.Expression

namespace Offside

/-- The failure ends the run at once. -/
def Failure.isFatal : Failure → Bool
  | .outside => true
  | .waiting => true
  | .exhausted => true
  | _ => false

namespace World

/-- The exceptions from this one on downwards, at most `fuel` of them. -/
def linksFrom (world : World) : Nat → RaisedId → List RaisedId
  | 0, _ => []
  | fuel + 1, id =>
    match (world.raisedAt id).below with
    | some below => id :: linksFrom world fuel below
    | none => [id]

/-- The exceptions from this one on downwards. -/
def links (world : World) (id : RaisedId) : List RaisedId :=
  world.linksFrom (world.raised.size + 1) id

/-- An exception may be linked to another one below it: it has no link yet, and none of the
exceptions that would come below it is itself. -/
def mayLink (world : World) (id below : RaisedId) : Bool :=
  (world.raisedAt id).below.isNone && !(world.links below).contains id

/-- Links an exception to the one below it, unless it may not be linked. -/
def link (world : World) (id below : RaisedId) : World :=
  if world.mayLink id below then
    { world with raised := world.raised.modify id.index fun raised =>
        { raised with below := some below } }
  else world

end World

namespace Exec

/-- How a step ended: with a value or with a failure that leaves room for cleanup. -/
@[inline] def settle {α : Type} (step : Exec α) : Exec (Except Failure α) :=
  fun world => match step world with
    | .ok value world => .ok (.ok value) world
    | .error failure world =>
      if failure.isFatal then .error failure world else .ok (.error failure) world

theorem settle_ok {α : Type} {step : Exec α} {world after : World} {value : α}
    (done : step world = .ok value after) : settle step world = .ok (.ok value) after := by
  rw [settle, done]

theorem settle_error {α : Type} {step : Exec α} {world after : World} {failure : Failure}
    (failed : step world = .error failure after) :
    settle step world =
      if failure.isFatal then .error failure after else .ok (.error failure) after := by
  rw [settle, failed]

/-- Ends as a step ended before. -/
@[inline] def release {α : Type} : Except Failure α → Exec α
  | .ok value => return value
  | .error failure => throw failure

/-- Links the exception of one failure to that of another, if both are exceptions. -/
def linkFailures (failure inflight : Failure) : Exec Unit :=
  match failure, inflight with
  | .raised id, .raised below => change (·.link id below)
  | _, _ => pure ()

/-- Links the exception that ended the body of a handler to the one that the handler caught. -/
def linkOutcome (outcome : Except Failure Flow) (caught : RaisedId) : Exec Unit :=
  match outcome with
  | .error failure => linkFailures failure (.raised caught)
  | .ok _ => pure ()

/-! ### Raising -/

/-- Raises a value as an exception. The exception that is being handled stays the same if it is
raised again. -/
def raiseNew (value : Ref) : Exec Flow := do
  match ← read (·.handling) with
  | none => throw (.raised (← newRaised value))
  | some current =>
    if (← read (·.raisedAt current)).value == value then throw (.raised current)
    else
      let id ← newRaised value
      change (·.link id current)
      throw (.raised id)

/-- The object that a raised value stands for: a class of exceptions stands for a new object of
it. -/
def exceptionOf (machine : Machine) (value : Ref) : Exec Ref := do
  let exception := BuiltinClass.exception.ref
  let value ←
    if ← read fun world => world.isClass value && world.isSubclass value exception then
      machine.call value [] []
    else pure value
  if ← read (·.isInstance value exception) then return value
  else complain .notException

/-- Raises the exception that is being handled again. -/
def raiseAgain : Exec Flow := do
  match ← read (·.handling) with
  | some current => throw (.raised current)
  | none => complain .nothingToReraise

/-! ### Catching -/

/-- Some class of a list catches an exception. Each class that is looked at must be one of
exceptions. -/
def catches (exception : Ref) : List Ref → Exec Bool
  | [] => return false
  | class_ :: rest => do
    let top := BuiltinClass.exception.ref
    if ← read fun world => world.isClass class_ && world.isSubclass class_ top then
      if ← read (·.isInstance exception class_) then return true else catches exception rest
    else complain .catchingNonException

/-- The classes that the expression of a handler gives. -/
def handlerClasses (class_ : Ref) : Exec (List Ref) :=
  read fun world => match world.payload class_ with
    | .tuple elements => elements.toList
    | _ => [class_]

/-- A handler catches an exception. -/
def handlerMatches (machine : Machine) (env : Env) (location : Location) (class_ : Option Expr)
    (id : RaisedId) : Exec Bool := do
  let value := (← read (·.raisedAt id)).value
  match class_ with
  | none => read (·.isInstance value BuiltinClass.exception.ref)
  | some expression =>
    let class_ ← traced location env (evaluate machine env expression)
    let classes ← handlerClasses class_
    traced location env (catches value classes)

/-- Binds the name of the exception that a handler caught. -/
def bindHandled (env : Env) (name : Option String) (id : RaisedId) : Exec Unit := do
  match name with
  | some name => bindName env name (← read (·.raisedAt id)).value
  | none => pure ()

/-- Unbinds it again. -/
def unbindHandled (env : Env) (name : Option String) : Exec Unit :=
  match name with
  | some name => modifyFrame env (·.erase name)
  | none => pure ()

theorem bindHandled_succeeds (env : Env) (name : Option String) (id : RaisedId) (world : World) :
    ∃ after, bindHandled env name id world = .ok () after := by
  cases name with
  | none => exact ⟨world, rfl⟩
  | some name => cases env <;> exact ⟨_, rfl⟩

theorem unbindHandled_succeeds (env : Env) (name : Option String) (world : World) :
    ∃ after, unbindHandled env name world = .ok () after := by
  cases name with
  | none => exact ⟨world, rfl⟩
  | some name => cases env <;> exact ⟨_, rfl⟩

/-- Ends a handler once it is known how its body ended. The name of its exception is unbound, and an
exception that left the body is linked to the one that the handler caught. -/
def endHandler (env : Env) (name : Option String) (id : RaisedId)
    (outcome : Except Failure Flow) : Exec Flow := do
  linkOutcome outcome id
  unbindHandled env name
  release outcome

/-- Runs the body of a handler. -/
def runHandler (env : Env) (name : Option String) (id : RaisedId) (body : Exec Flow) :
    Exec Flow := do
  bindHandled env name id
  endHandler env name id (← settle body)

/-- Runs the body of a handler while its exception is the one being handled. -/
def handleWith (env : Env) (name : Option String) (id : RaisedId) (body : Exec Flow) :
    Exec Flow := do
  let previous ← read (·.handling)
  change fun world => { world with handling := some id }
  thenAlways (runHandler env name id body) fun world => { world with handling := previous }

end Exec

end Offside
