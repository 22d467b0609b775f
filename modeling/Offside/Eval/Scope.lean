/-
This file looks names up in a scope and binds them there. A name is looked up frame
by frame, from the innermost outwards; a frame in which the name is pending ends
the search, because the value that the name is about to get is not known yet.
Binding and unbinding are for the innermost frame alone.
-/

import Offside.Eval.Protocol

namespace Offside

/-- What a name means in a scope. -/
inductive Meaning where
  | bound (value : Ref)
  | pending
  | undefined
deriving DecidableEq

/-- What a name means in one frame, if the frame knows it. -/
def Namespace.meaning? (table : Namespace) (name : String) : Option Meaning :=
  if table.isPending name then some .pending else (table.get? name).map .bound

/-- What a name means in a scope. -/
def World.meaning (world : World) (env : Env) (name : String) : Meaning :=
  (env.findSome? fun frame => (world.namespaceAt frame.space).meaning? name).getD .undefined

namespace Exec

/-- The value of a name. -/
def lookupName (env : Env) (name : String) : Exec Ref := do
  match ← read (·.meaning env name) with
  | .bound value => return value
  | .pending => complain (.pendingName name)
  | .undefined => complain (.undefinedName name)

/-- Changes the innermost frame. -/
def modifyFrame (env : Env) (step : Namespace → Namespace) : Exec Unit :=
  match env with
  | frame :: _ => modifySpace frame.space step
  | [] => pure ()

/-- Binds a name. -/
def bindName (env : Env) (name : String) (value : Ref) : Exec Unit :=
  modifyFrame env (·.set name value)

/-- The innermost frame binds the name. -/
def isBoundHere (env : Env) (name : String) : Exec Bool :=
  read fun world => match env with
    | frame :: _ => ((world.namespaceAt frame.space).get? name).isSome
    | [] => false

/-- Unbinds a name. -/
def unbindName (env : Env) (name : String) : Exec Unit := do
  if ← isBoundHere env name then modifyFrame env (·.erase name)
  else complain (.undefinedName name)

/-- A scope with a new frame inside. -/
def enter (env : Env) (label : String) (isClassBody : Bool) (table : Namespace) : Exec Env := do
  let space ← newSpace table
  return ⟨space, label, isClassBody⟩ :: env

end Exec

end Offside
