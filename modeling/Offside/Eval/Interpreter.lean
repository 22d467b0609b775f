/-
This file closes the circle: calling a function runs statements, and statements call
functions. Every start of a call or of a body costs one unit of fuel, so the
interpreter of a certain fuel is defined from that of one unit less. The fuel that
runs are given is more than any run uses up in practice, and the depth of calls
written in the language is limited long before it.
-/

import Offside.Eval.Calling
import Offside.Eval.Statement

namespace Offside

mutual

/-- Calls an object with a certain fuel. -/
def callAt : Nat → Ref → List Ref → List (String × Ref) → Exec Ref
  | 0, _, _, _ => throw .exhausted
  | fuel + 1, callee, arguments, named =>
    Exec.callStep ⟨fuel, callAt fuel, runAt fuel⟩ callee arguments named

/-- Runs statements with a certain fuel. -/
def runAt : Nat → List Stmt → Env → Exec Flow
  | 0, _, _ => throw .exhausted
  | fuel + 1, statements, env =>
    Exec.executeAll ⟨fuel, callAt fuel, runAt fuel⟩ env statements

end

/-- The interpreter of a certain fuel. -/
def Machine.ofFuel (fuel : Nat) : Machine :=
  ⟨fuel, callAt fuel, runAt fuel⟩

/-- The fuel of a run. -/
def fuelOfRun : Nat := 1000000000000

/-- The interpreter of runs. -/
def Machine.standard : Machine :=
  Machine.ofFuel fuelOfRun

end Offside
