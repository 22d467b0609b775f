/-
This file is the way in: a session is a world that runs source texts, files and
modules one after the other and keeps what they leave behind. Whatever is run, the
session goes on afterwards; a failure is part of the outcome.
-/

import Offside.Eval.Interpreter
import Offside.Eval.Traceback

namespace Offside

/-- What a run gives back. -/
structure Outcome where
  /-- The table of the names that were bound, if the run got far enough to have one. -/
  space : Option SpaceId
  failure : Option Failure

/-- The outcome of a run with a table of names, by how the run ended. -/
def Outcome.ofRun {α : Type} (space : SpaceId) : Except Failure α → Outcome
  | .ok _ => ⟨some space, none⟩
  | .error failure => ⟨some space, some failure⟩

/-- A name of a table with the class of its value and the value itself, as listings show them. -/
structure Listed where
  name : String
  class_ : String
  value : String
deriving Repr, DecidableEq

namespace Exec

/-- How a step ended, whatever the failure. -/
def attempt {α : Type} (step : Exec α) : Exec (Except Failure α) :=
  tryCatch (do return .ok (← step)) fun failure => return .error failure

/-- Runs a source text as the main program. Its imports start from the directory of the file that
it is said to come from. -/
def startText (machine : Machine) (file text : String) : Exec Outcome := do
  let space ← newModuleSpace "__main__" file
  return .ofRun space (← attempt (runText machine file text space))

/-- Runs a file as the main program. It takes part in the search for import cycles; a file that
was loaded before is run again, and its new module takes the place of the old one. -/
def startFile (machine : Machine) (path : String) : Exec Outcome := do
  let place ← read fun world => Path.absolute world.host.files.working path
  let (space, module_) ← newFileModule "__main__" place
  let registry ← read (·.registry)
  match registry.loaded? place, registry.running? place with
  | none, some _ =>
    return ⟨none, some (.raised (← newComplaint (.alreadyRunning path)))⟩
  | _, _ =>
    modifyRegistry (·.startMain place)
    let body := runModule machine place .main module_ space
    return .ofRun space (← attempt (complete place module_ body))

/-- Loads a module by its dotted name, from the working directory. -/
def startImport (machine : Machine) (name : String) : Exec Outcome := do
  match ← attempt (load machine name ".") with
  | .ok (.ready module_) => return ⟨(← read (·.object module_)).space, none⟩
  | .ok (.unfinished _ running) =>
    return ⟨none, some (.raised (← newComplaint (.stillImporting running)))⟩
  | .error failure => return ⟨none, some failure⟩

end Exec

namespace World

/-- Runs a step that handles its own failures. -/
def perform {α : Type} (world : World) (otherwise : α) (step : Exec α) : α × World :=
  match step world with
  | .ok value world => (value, world)
  | .error _ world => (otherwise, world)

/-- Runs a source text as the main program. -/
def runSource (world : World) (file text : String) : Outcome × World :=
  world.perform ⟨none, none⟩ (Exec.startText .standard file text)

/-- Runs a file as the main program. -/
def runFile (world : World) (path : String) : Outcome × World :=
  world.perform ⟨none, none⟩ (Exec.startFile .standard path)

/-- Loads a module. -/
def importByName (world : World) (name : String) : Outcome × World :=
  world.perform ⟨none, none⟩ (Exec.startImport .standard name)

/-- The report of a failure. Code of the program may run for it. -/
def reportOf (world : World) (failure : Failure) : String × World :=
  world.perform "" (Exec.report .standard failure)

/-- Requests that the next statement raise an interrupt. -/
def interrupt (world : World) : World :=
  { world with interrupted := true }

/-- The names of a table, in order. -/
def listing (world : World) (space : SpaceId) : List Listed :=
  (world.namespaceAt space).entries.map fun (name, value) =>
    ⟨name, world.typeName value, world.display value⟩

/-- Takes away what was written, and how often it was passed on at once. -/
def takeOutput (world : World) : String × Nat × World :=
  (world.host.output, world.host.syncs,
    { world with host := { world.host with output := "", syncs := 0 } })

/-- Puts a file into the tree of files. -/
def writeFile (world : World) (path text : String) : World :=
  { world with host := { world.host with files := world.host.files.write path text } }

/-- Sets the directories of the environment. -/
def setSearchVariable (world : World) (value : String) : World :=
  { world with host := { world.host with searchVariable := value } }

/-- Adds directories for modules after those that there are. -/
def addSearchPath (world : World) (directories : List String) : World :=
  { world with searchPath := world.searchPath ++ directories }

end World

end Offside
