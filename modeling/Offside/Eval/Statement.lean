/-
This file runs statements. A sequence of statements runs until one of them fails or
gives a signal: `return`, `break` or `continue`, which the construct around takes
up. Before every statement a requested interrupt is delivered.

A trace records the simple statements and the headers of compound statements that
an exception passes through; the statements of a block record themselves, so a
compound statement adds nothing for its blocks.

The recursion is on the statements. Bodies of functions and modules run through
the machine, and loops are bounded by its budget.
-/

import Offside.Eval.Handling
import Offside.Eval.Import

namespace Offside

namespace Exec

/-! ### Simple statements -/

/-- Runs a simple statement. -/
def runSimple (machine : Machine) (env : Env) (location : Location) : Simple → Exec Flow
  | .expression expression => do
    discard (evaluate machine env expression)
    return .done
  | .assign target value => do
    assign machine env (← evaluate machine env value) target
    return .done
  | .pass => return .done
  | .breakLoop => return .broken location
  | .continueLoop => return .continued location
  | .returnValue none => return .returned location noneRef
  | .returnValue (some value) => return .returned location (← evaluate machine env value)
  | .raiseValue none => raiseAgain
  | .raiseValue (some value) => do
    raiseNew (← exceptionOf machine (← evaluate machine env value))
  | .delete target => do
    delete machine env target
    return .done
  | .importModule path newName => do
    importModule machine env location path newName
    return .done
  | .importNames path names => do
    importNames machine env location path names
    return .done

/-! ### Definitions -/

/-- The values of the defaults of parameters. -/
def evaluateDefaults (machine : Machine) (env : Env) : List Parameter →
    Exec (List (String × Ref))
  | [] => return []
  | ⟨_, none⟩ :: rest => evaluateDefaults machine env rest
  | ⟨name, some default⟩ :: rest => do
    let value ← evaluate machine env default
    return (name, value) :: (← evaluateDefaults machine env rest)

/-- Defines a function. -/
def defineFunction (machine : Machine) (env : Env) (location : Location) (name : String)
    (parameters : List Parameter) (body : List Stmt) : Exec Unit := do
  let defaults ← traced location env (evaluateDefaults machine env parameters)
  let text ← newStr name
  let space ← newSpace (Namespace.empty.set "__name__" text)
  let function ← alloc ⟨BuiltinClass.function.ref, some space, .empty,
    some ⟨name, .written ⟨parameters, body⟩ env.closure defaults, []⟩⟩
  bindName env name function

/-- The base of a class, which must be a class. -/
def evaluateBase (machine : Machine) (env : Env) (name : String) : Option Expr →
    Exec (Option Ref)
  | none => return none
  | some expression => do
    let base ← evaluate machine env expression
    if ← read (·.isClass base) then return some base
    else complain (.baseNotClass name (← typeName base))

/-- Defines a class with the names that its body binds. -/
def defineClass (env : Env) (name : String) (base : Option Ref) (body : Env → Exec Flow) :
    Exec Unit := do
  let space ← newSpace .empty
  discard (body (⟨space, name, true⟩ :: env))
  bindName env name (← newClass name base space)

/-! ### Loops -/

/-- The truth of a condition. -/
def holds (machine : Machine) (env : Env) (location : Location) (condition : Expr) :
    Exec Bool :=
  traced location env do truthy machine (← evaluate machine env condition)

/-- What a loop does after a round: it goes on, or it ends with a signal or because it was
broken. -/
inductive Round where
  | again
  | broken
  | left (flow : Flow)

/-- What the end of a loop's body means for the loop. -/
def Round.ofFlow : Flow → Round
  | .done => .again
  | .continued _ => .again
  | .broken _ => .broken
  | .returned location value => .left (.returned location value)

/-- Runs rounds until one of them ends the loop. A round without a body to run means that the loop
ran to its end, and then its `else` block runs. -/
@[specialize] def loop (machine : Machine) (round : Exec (Option Round))
    (otherwise : Exec Flow) : Exec Flow :=
  repeatUntil (fun (_ : Unit) => do
    match ← round with
    | none => return .ok (← otherwise)
    | some .again => return .error ()
    | some .broken => return .ok .done
    | some (.left flow) => return .ok flow) machine.budget ()

/-! ### Statements -/

/-- Delivers a requested interrupt. -/
def checkInterrupt : Exec Unit := do
  let requested ← read (·.isInterrupted)
  change (·.takeInterrupt)
  if requested then complain .keyboardInterrupt

theorem checkInterrupt_of_quiet {world : World} (quiet : world.interrupted = false)
    (unrequested : world.host.arrivals = []) : checkInterrupt world = .ok () world := by
  have requested : world.isInterrupted = false := by
    rw [World.isInterrupted, quiet, unrequested]
    rfl
  have taken : world.takeInterrupt = world := by
    obtain ⟨_, _, _, _, _, _, _, host, _⟩ := world
    cases host
    cases quiet
    cases unrequested
    rfl
  rw [checkInterrupt, read_bind, requested]
  exact congrArg (EStateM.Result.ok ()) taken

/-- Runs cleanup code after a step, and then ends as the step did. Cleanup that fails or gives a
signal of its own takes the place of how the step ended. -/
def cleanUp (outcome : Except Failure Flow) (cleanup : Exec Flow) : Exec Flow := do
  match ← settle cleanup, outcome with
  | .error failure, .error inflight =>
    linkFailures failure inflight
    throw failure
  | .error failure, .ok _ => throw failure
  | .ok .done, outcome => release outcome
  | .ok flow, _ => return flow

mutual

/-- Runs a statement. -/
def execute (machine : Machine) (env : Env) : Stmt → Exec Flow
  | .simple location action => traced location env (runSimple machine env location action)
  | .choice _ branches otherwise =>
    executeBranches machine env (executeElse machine env otherwise) branches
  | .whileLoop location condition body otherwise =>
    loop machine (do
      if ← holds machine env location condition then
        return some (.ofFlow (← executeAll machine env body))
      else return none)
      (executeElse machine env otherwise)
  | .forLoop location target iterable body otherwise => do
    let iterator ← traced location env do iter machine (← evaluate machine env iterable)
    loop machine (do
      match ← traced location env (next? machine iterator) with
      | none => return none
      | some element =>
        traced location env (assign machine env element target)
        return some (.ofFlow (← executeAll machine env body)))
      (executeElse machine env otherwise)
  | .attempt _ body handlers otherwise cleanup => do
    let outcome ← match ← settle (executeAll machine env body) with
      | .error (.raised id) => settle (executeHandlers machine env id handlers)
      | .ok .done => settle (executeElse machine env otherwise)
      | ended => pure ended
    match cleanup with
    | none => release outcome
    | some block => cleanUp outcome (executeAll machine env block)
  | .functionDef location name parameters body => do
    defineFunction machine env location name parameters body
    return .done
  | .classDef location name base body => do
    let base ← traced location env (evaluateBase machine env name base)
    defineClass env name base fun inner => executeAll machine inner body
    return .done

/-- Runs statements until one of them gives a signal. -/
def executeAll (machine : Machine) (env : Env) : List Stmt → Exec Flow
  | [] => return .done
  | statement :: rest => do
    traced statement.location env checkInterrupt
    match ← execute machine env statement with
    | .done => executeAll machine env rest
    | flow => return flow

/-- Runs a block that may be missing. -/
def executeElse (machine : Machine) (env : Env) : Option (List Stmt) → Exec Flow
  | none => return .done
  | some block => executeAll machine env block

/-- Runs the first branch whose condition holds, or the `else` block. -/
def executeBranches (machine : Machine) (env : Env) (otherwise : Exec Flow) :
    List Branch → Exec Flow
  | [] => otherwise
  | .mk location condition body :: rest => do
    if ← holds machine env location condition then executeAll machine env body
    else executeBranches machine env otherwise rest

/-- Runs the first handler that catches an exception; without one the exception goes on. -/
def executeHandlers (machine : Machine) (env : Env) (id : RaisedId) : List Handler → Exec Flow
  | [] => throw (.raised id)
  | .mk location class_ name body :: rest => do
    match ← settle (handlerMatches machine env location class_ id) with
    | .error failure =>
      linkFailures failure (.raised id)
      throw failure
    | .ok true => handleWith env name id (executeAll machine env body)
    | .ok false => executeHandlers machine env id rest

end

end Exec

end Offside
