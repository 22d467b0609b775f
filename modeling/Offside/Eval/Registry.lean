/-
This file keeps track of modules by the absolute paths of their files: which are
loaded, and which imports have begun and not finished. An import that meets one of
the latter is part of a cycle; what it would bind is deferred until that import
finishes. What happens to modules is written down in a journal, by those who run files
and carry out bindings; no change of the registry reads it or writes in it.
-/

import Offside.Value.World

namespace Offside

namespace Registry

/-- The module of a file that was loaded. -/
def loaded? (registry : Registry) (path : String) : Option Ref :=
  registry.loaded.lookup path

/-- The import of a file that has begun and not finished. -/
def running? (registry : Registry) (path : String) : Option Job :=
  registry.running.lookup path

/-- Enters an event into the journal. -/
def note (registry : Registry) (event : ModuleEvent) : Registry :=
  { registry with journal := event :: registry.journal }

/-- Begins an import. -/
def begin (registry : Registry) (path name : String) : Registry :=
  { registry with running := (path, ⟨name, []⟩) :: registry.running }

/-- Begins the run of a file as the main program. A file that was loaded before cannot become part
of a cycle. -/
def startMain (registry : Registry) (path : String) : Registry :=
  if (registry.loaded? path).isNone then registry.begin path "__main__" else registry

/-- Ends an import that failed. -/
def abandon (registry : Registry) (path : String) : Registry :=
  { registry with running := registry.running.filter (·.1 != path) }

/-- Ends an import that succeeded. -/
def finish (registry : Registry) (path : String) (ref : Ref) : Registry :=
  { registry with
    loaded := (path, ref) :: registry.loaded.filter (·.1 != path)
    running := registry.running.filter (·.1 != path) }

/-- Adds a binding to an import that has begun. -/
def defer (registry : Registry) (path : String) (binding : Deferred) : Registry :=
  { registry with
    running := registry.running.map fun (place, job) =>
      if place == path then (place, { job with deferred := job.deferred ++ [binding] })
      else (place, job) }

end Registry

/-- Changes the registry of a run. -/
def Exec.modifyRegistry (step : Registry → Registry) : Exec Unit :=
  change fun world => { world with registry := step world.registry }

end Offside
