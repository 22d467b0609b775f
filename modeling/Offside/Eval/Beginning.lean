/-
This file makes the world in which a run begins: the built-in classes with their
methods, the three single values, and the frame of names that every program can
use. The classes stand first in the heap, because everything else refers to them;
their tables stand right after the frame of built-in names, which is the first
table of all.
-/

import Offside.Value.World

namespace Offside

/-- The frame of the names that every program can use. -/
def builtinsSpace : SpaceId := ⟨0⟩

/-- The scope of a module: its own names, and the built-in ones around them. -/
def moduleEnv (space : SpaceId) : Env :=
  [⟨space, "", false⟩, ⟨builtinsSpace, "", false⟩]

/-- The table of a built-in class. -/
def BuiltinClass.space (builtin : BuiltinClass) : SpaceId :=
  ⟨builtin.ref.index + 1⟩

namespace World

/-- The built-in classes without their members, the single values, and what vacant cells hold. -/
def bareObjects : Array Object :=
  (BuiltinClass.all.map fun builtin =>
      (⟨BuiltinClass.klass.ref, some builtin.space, .empty, none⟩ : Object)).toArray ++
    #[⟨BuiltinClass.bool.ref, none, .bool true, none⟩,
      ⟨BuiltinClass.bool.ref, none, .bool false, none⟩,
      ⟨BuiltinClass.noneType.ref, none, .none, none⟩,
      ⟨BuiltinClass.noneType.ref, none, .empty, none⟩]

/-- A world in which nothing has a name yet. -/
def bare (host : Host) (searchPath : List String) : World where
  objects := bareObjects
  spaces := Array.replicate (BuiltinClass.all.length + 1) .empty
  buffers := #[]
  slots := #[]
  raised := #[]
  registry := ⟨[], [], []⟩
  sources := []
  host := host
  searchPath := searchPath
  interrupted := false
  handling := none
  callDepth := 0
  calls := []

end World

namespace Exec

/-- A function that is not written in the language. It has a table of attributes from the start,
because methods that are bound to a receiver share it. -/
def newNative (name : String) (native : Native) : Exec Ref := do
  let space ← newSpace .empty
  alloc ⟨BuiltinClass.function.ref, some space, .empty, some ⟨name, .native native, []⟩⟩

/-- Gives a built-in class one of its methods. -/
def fillMethod (builtin : BuiltinClass) (entry : String × Method) : Exec Unit := do
  let function ← newNative entry.1 (.method builtin entry.1 entry.2)
  modifySpace builtin.space (·.set entry.1 function)

/-- Names a built-in class and gives it its base and its methods. -/
def fillClass (builtin : BuiltinClass) : Exec Unit := do
  let name ← newStr builtin.name
  modifySpace builtin.space (·.set "__name__" name)
  match builtin.base? with
  | some base => modifySpace builtin.space (·.set "__base__" base.ref)
  | none => pure ()
  builtin.methods.forM (fillMethod builtin)
  if builtin.isGlobal then modifySpace builtinsSpace (·.set builtin.name builtin.ref)

/-- Gives everything its name. -/
def fillBuiltins : Exec Unit := do
  BuiltinClass.all.forM fillClass
  FreeFunction.all.forM fun function => do
    let ref ← newNative function.name (.free function)
    modifySpace builtinsSpace (·.set function.name ref)

end Exec

/-- The world in which a run begins. -/
def World.beginning (host : Host) (searchPath : List String) : World :=
  match Exec.fillBuiltins (.bare host searchPath) with
  | .ok _ world => world
  | .error _ world => world

end Offside
