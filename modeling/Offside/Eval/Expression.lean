/-
This file gives expressions their values. Parts are evaluated from left to right.
An expression that stands for a place can also be assigned to: a name is bound in
the innermost frame, an attribute or an item is stored in its object, and a group
of targets takes the elements of a value one by one.

Evaluation follows the tree. What it starts anew, calls of functions, goes through
the machine, so the recursion here is on the expression alone; the loop of a
comprehension is bounded by the machine's budget.
-/

import Offside.Eval.Scope
import Offside.Library.Mappings

namespace Offside

namespace Exec

/-! ### Steps on values -/

/-- The sign before a value. -/
def negate (machine : Machine) (operand : Ref) : Exec Ref := do
  match ← invoke? machine operand "__neg__" [] with
  | some result => return result
  | none => complain (.unsupportedUnary UnaryOperator.negate.text (← typeName operand))

/-- Applies an operator to one value. -/
def unaryOperation (machine : Machine) (operator : UnaryOperator) (operand : Ref) :
    Exec Ref :=
  match operator with
  | .not => do return truthRef !(← truthy machine operand)
  | .negate => negate machine operand

/-- Whether the left operand of `and` or `or` already decides. -/
def decides (operator : BinaryOperator) (truth : Bool) : Bool :=
  match operator with
  | .and => !truth
  | .or => truth
  | _ => false

/-- The operator looks at its right operand only if the left one does not decide. -/
def isShortCircuit (operator : BinaryOperator) : Bool :=
  operator == .and || operator == .or

/-- A new set of values, all of which must be hashable. -/
def newSetOf (values : List Ref) : Exec Ref := do
  newSet (← Library.addKeys .empty values)

/-- The elements of a value that is taken apart into a number of targets. -/
def unpack (machine : Machine) (value : Ref) (count : Nat) : Exec (List Ref) := do
  let elements ← tryCatch (collect machine value) fun failure => do
    if ← isRaised failure .typeError then complain (.cannotUnpack (← typeName value))
    else throw failure
  if elements.size < count then complain (.tooFewToUnpack count elements.size)
  else if count < elements.size then complain (.tooManyToUnpack count)
  else return elements.toList

/-- A target that is none: parsing lets no such target through. -/
def unassignable {α : Type} (target : Expr) : Exec α :=
  throw (.internal (some target.location) ("unassignable target " ++ target.nodeName))

/-! ### Evaluation -/

mutual

/-- The value of an expression. -/
def evaluate (machine : Machine) (env : Env) : Expr → Exec Ref
  | .integer _ value => newInt value
  | .float _ value => newFloat (.ofFloat value)
  | .string _ value => newStr value
  | .boolean _ value => return truthRef value
  | .none _ => return noneRef
  | .omitted _ => return noneRef
  | .name _ name => lookupName env name
  | .parenthesized _ inner => evaluate machine env inner
  | .tuple _ elements => do newTuple (← evaluateAll machine env elements).toArray
  | .list _ elements => do newList (← evaluateAll machine env elements).toArray
  | .set _ elements => do newSetOf (← evaluateAll machine env elements)
  | .dict _ entries => do
    let dict ← newDict
    evaluateEntries machine env dict entries
    return dict
  | .call _ callee positional named => do
    let function ← evaluate machine env callee
    let arguments ← evaluateAll machine env positional
    let named ← evaluateNamed machine env [] named
    machine.call function arguments named
  | .attribute _ object name => do getAttribute (← evaluate machine env object) name
  | .index _ object index => do
    let object ← evaluate machine env object
    getItem machine object (← evaluate machine env index)
  | .slice _ object start stop step => do
    let object ← evaluate machine env object
    let start ← evaluate machine env start
    let stop ← evaluate machine env stop
    let step ← evaluate machine env step
    getItem machine object (← newSlice start stop step)
  | .unary _ operator operand => do
    unaryOperation machine operator (← evaluate machine env operand)
  | .binary _ operator left right => do
    let first ← evaluate machine env left
    if isShortCircuit operator then
      if decides operator (← truthy machine first) then return first
      else evaluate machine env right
    else binaryOperation machine operator first (← evaluate machine env right)
  | .comprehension _ output target source filter => do
    let iterator ← iter machine (← evaluate machine env source)
    let scope ← enter env "" false .empty
    let elements ← repeatUntil (fun (found : Array Ref) => do
      match ← next? machine iterator with
      | none => return .ok found
      | some element =>
        assign machine scope element target
        let keep ← match filter with
          | some condition => do truthy machine (← evaluate machine scope condition)
          | none => pure true
        if keep then return .error (found.push (← evaluate machine scope output))
        else return .error found) machine.budget #[]
    newListIn (.oneByOne elements)

/-- The values of several expressions. -/
def evaluateAll (machine : Machine) (env : Env) : List Expr → Exec (List Ref)
  | [] => return []
  | expression :: rest => do
    let value ← evaluate machine env expression
    return value :: (← evaluateAll machine env rest)

/-- Enters the entries of a display into a dict. A key is checked before its value is evaluated. -/
def evaluateEntries (machine : Machine) (env : Env) (dict : Ref) :
    List (Expr × Expr) → Exec Unit
  | [] => return ()
  | (key, value) :: rest => do
    let key ← evaluate machine env key
    checkHashable key
    let value ← evaluate machine env value
    Library.dictStore dict key value
    evaluateEntries machine env dict rest

/-- The values of named arguments, after those found already. -/
def evaluateNamed (machine : Machine) (env : Env) (found : List (String × Ref)) :
    List (String × Expr) → Exec (List (String × Ref))
  | [] => return found
  | (name, expression) :: rest => do
    let value ← evaluate machine env expression
    if (found.lookup name).isSome then complain (.repeatedKeyword name)
    else evaluateNamed machine env (found ++ [(name, value)]) rest

/-- Stores a value in a target. -/
def assign (machine : Machine) (env : Env) (value : Ref) : Expr → Exec Unit
  | .name _ name => bindName env name value
  | .parenthesized _ inner => assign machine env value inner
  | .attribute _ object name => do
    let object ← evaluate machine env object
    checkPresent object
    setAttribute object name value
  | .index _ object index => do
    let object ← evaluate machine env object
    setItem machine object (← evaluate machine env index) value
  | .slice _ object start stop step => do
    let object ← evaluate machine env object
    let start ← evaluate machine env start
    let stop ← evaluate machine env stop
    let step ← evaluate machine env step
    setItem machine object (← newSlice start stop step) value
  | .tuple _ elements => do
    assignEach machine env (← unpack machine value elements.length) elements
  | .list _ elements => do
    assignEach machine env (← unpack machine value elements.length) elements
  | other => unassignable other

/-- Stores values in targets, one by one. -/
def assignEach (machine : Machine) (env : Env) : List Ref → List Expr → Exec Unit
  | value :: values, target :: targets => do
    assign machine env value target
    assignEach machine env values targets
  | _, _ => return ()

end

/-! ### Deleting -/

/-- Takes an attribute away from an object. -/
def deleteAttribute (ref : Ref) (name : String) : Exec Unit := do
  checkPresent ref
  match ← read (·.ownAttribute? ref name) with
  | some _ => modifySpace (← spaceOf ref) (·.erase name)
  | none => complain (.objectAttribute (← typeName ref) name)

mutual

/-- Deletes what a target stands for. -/
def delete (machine : Machine) (env : Env) : Expr → Exec Unit
  | .name _ name => unbindName env name
  | .parenthesized _ inner => delete machine env inner
  | .attribute _ object name => do deleteAttribute (← evaluate machine env object) name
  | .index _ object index => do
    let object ← evaluate machine env object
    deleteItem machine object (← evaluate machine env index)
  | .slice _ object start stop step => do
    let object ← evaluate machine env object
    let start ← evaluate machine env start
    let stop ← evaluate machine env stop
    let step ← evaluate machine env step
    deleteItem machine object (← newSlice start stop step)
  | .tuple _ elements => deleteEach machine env elements
  | .list _ elements => deleteEach machine env elements
  | other => throw (.internal (some other.location) ("undeletable target " ++ other.nodeName))

/-- Deletes what targets stand for, one by one. -/
def deleteEach (machine : Machine) (env : Env) : List Expr → Exec Unit
  | [] => return ()
  | target :: rest => do
    delete machine env target
    deleteEach machine env rest

end

end Exec

end Offside
