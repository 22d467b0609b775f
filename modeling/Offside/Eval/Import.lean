/-
This file loads modules. A dotted name is looked for below the directory of the
importing file, then below the directories of the environment, the last of them
first, and then below those of the settings. The first file that is found is run
once; its names are the module.

An import that meets a module whose own import has not finished binds nothing yet:
the names that it would bind are announced as pending, and the binding itself
happens when the other import finishes.
-/

import Offside.Eval.Beginning
import Offside.Eval.Registry
import Offside.Eval.Scope
import Offside.Syntax.Block

namespace Offside

/-- A dotted name. -/
def dotted (path : List String) : String :=
  ".".intercalate path

/-- The ending of source files. -/
def sourceExtension : String := ".minipy"

namespace World

/-! ### Where modules are looked for -/

/-- The directories that the environment gives, the last one first. -/
def environmentDirectories (variable_ : String) : List String :=
  ((variable_.splitToList fun c => c == ':' || c == ';').filter (· != "")).reverse

/-- The directories in which an import from a directory looks, in order. -/
def searchDirectories (world : World) (directory : String) : List String :=
  directory :: environmentDirectories world.host.searchVariable ++ world.searchPath

/-- The file of a module below a directory. -/
def relativeFile (working name : String) : String :=
  Path.join working (name.splitOn ".") ++ sourceExtension

/-- The absolute path of the file that a dotted name means. -/
def resolve? (world : World) (name directory : String) : Option String :=
  let working := world.host.files.working
  let candidates := (world.searchDirectories directory).map fun place =>
    Path.join working [place, relativeFile working name]
  (candidates.find? world.host.files.isFile).map (Path.absolute working)

end World

namespace Exec

/-! ### Running a source text -/

/-- A signal that left the body of a module. -/
def escaped {α : Type} (location : Location) : Exec α :=
  throw (.internal location "control flow escaped the module body")

/-- Runs a source text in a scope. -/
def runText (machine : Machine) (file text : String) (space : SpaceId) : Exec Unit := do
  change (·.rememberSource file text)
  match Program.parse file text with
  | .error error => throw (.source error)
  | .ok program =>
    match ← machine.run program (moduleEnv space) with
    | .done => return ()
    | .returned location _ => escaped location
    | .broken location => escaped location
    | .continued location => escaped location

/-- Runs a file in a scope. -/
def runPath (machine : Machine) (path : String) (space : SpaceId) : Exec Unit := do
  match ← read (·.host.textAt path) with
  | .ok text => runText machine path text space
  | .error reason => throw (.host reason)

theorem runPath_of_ok {machine : Machine} {path text : String} {space : SpaceId} {world : World}
    (found : world.host.textAt path = .ok text) :
    runPath machine path space world = runText machine path text space world := by
  rw [runPath, read_bind, found]

theorem runPath_of_error {machine : Machine} {path : String} {reason : String}
    {space : SpaceId} {world : World} (found : world.host.textAt path = .error reason) :
    runPath machine path space world = .error (.host reason) world := by
  rw [runPath, read_bind, found]
  rfl

/-! ### Binding what was imported -/

/-- The object is a module. -/
def isModule (world : World) (ref : Ref) : Bool :=
  (world.object ref).class_ == BuiltinClass.moduleType.ref

/-- A module without a file, which only holds other modules. -/
def newPackage (path : List String) : Exec Ref := do
  newModule (dotted path) (← newSpace .empty)

/-- The module that a name of another module means; there is a new one if it means none. -/
def childModule (parent : Ref) (path : List String) (name : String) : Exec Ref := do
  let known ← read fun world => (world.ownAttribute? parent name).filter (isModule world)
  match known with
  | some child => return child
  | none =>
    let child ← newPackage path
    setAttribute parent name child
    return child

/-- Puts a module at the end of a path below another module. What was walked already is given
too, because the modules on the way are named by it. -/
def graft (parent : Ref) (walked : List String) (module_ : Ref) : List String → Exec Unit
  | [] => return ()
  | [last] => setAttribute parent last module_
  | name :: rest => do
    let child ← childModule parent (walked ++ [name]) name
    graft child (walked ++ [name]) module_ rest

/-- The module that the first part of a dotted name means in a scope, or a new one. -/
def rootModule (env : Env) (name : String) : Exec Ref := do
  let known ← read fun world => match world.meaning env name with
    | .bound value => if isModule world value then some value else none
    | _ => none
  match known with
  | some root => return root
  | none => newPackage [name]

/-- The name that importing a module binds. -/
def importedName (path : List String) (newName : Option String) : String :=
  newName.getD (path.headD "")

/-- Binds a module. Without a new name the first part of its path is bound, and the modules on the
way to it are made as needed. -/
def bindModule (env : Env) (path : List String) (newName : Option String) (module_ : Ref) :
    Exec Unit :=
  match newName, path with
  | none, first :: second :: rest => do
    let root ← rootModule env first
    bindName env first root
    graft root [first] module_ (second :: rest)
  | _, _ => bindName env (importedName path newName) module_

/-- Binds names of a module. -/
def bindNames (env : Env) (path : List String) (module_ : Ref) : List String → Exec Unit
  | [] => return ()
  | name :: rest => do
    match ← read (·.ownAttribute? module_ name) with
    | some value =>
      bindName env name value
      bindNames env path module_ rest
    | none => complain (.nameNotInModule name (dotted path))

/-- The name is not for users of a module. -/
def isPrivate (name : String) : Bool :=
  name.startsWith "_"

/-- Binds every name of a module that is for its users. -/
def bindPublic (env : Env) (module_ : Ref) : Exec Unit := do
  (← read (·.attributes module_)).entries.forM fun (name, value) =>
    if isPrivate name then pure () else bindName env name value

/-- Carries out a deferred binding. -/
def settleDeferred (module_ : Ref) : Deferred → Exec Unit
  | .bindModule env path newName => bindModule env path newName module_
  | .bindNames env path names location =>
    traced location env (bindNames env path module_ names)

/-! ### Loading -/

/-- What an import finds. -/
inductive Loaded where
  | ready (module_ : Ref)
  /-- The module at this path is still being imported, under this name. -/
  | unfinished (path name : String)

/-- Carries out a deferred binding of an import that has finished. -/
def carryOut (path : String) (module_ : Ref) (binding : Deferred) : Exec Unit := do
  tryCatch (settleDeferred module_ binding) fun failure => do
    modifyRegistry (·.note (.unsettled path module_ binding))
    throw failure
  modifyRegistry (·.note (.settled path module_ binding))

/-- Ends an import: a module that ran to its end is kept, and what waits for it is bound. -/
def complete (path : String) (module_ : Ref) (body : Exec Unit) : Exec Unit := do
  tryCatch body fun failure => do
    modifyRegistry (·.abandon path)
    throw failure
  let job ← read (·.registry.running? path)
  modifyRegistry (·.finish path module_)
  match job with
  | some job => job.deferred.forM (carryOut path module_)
  | none => return ()

/-- Runs the file of a module. The begin of the run and its end are entered into the journal. -/
def runModule (machine : Machine) (path : String) (purpose : Purpose) (module_ : Ref)
    (space : SpaceId) : Exec Unit := do
  modifyRegistry (·.note (.started path purpose))
  tryCatch (runPath machine path space) fun failure => do
    modifyRegistry (·.note (.failed path))
    throw failure
  modifyRegistry (·.note (.finished path module_))

/-- The names that a module has before it runs. -/
def newModuleSpace (name file : String) : Exec SpaceId := do
  let name ← newStr name
  let file ← newStr file
  newSpace (Namespace.empty.setAll [("__name__", name), ("__file__", file)])

/-- The table and the module of a file. -/
def newFileModule (name file : String) : Exec (SpaceId × Ref) := do
  let space ← newModuleSpace name file
  return (space, ← newModule name space)

/-- Runs the file of a module for the first time. -/
def loadFresh (machine : Machine) (path name : String) : Exec Ref := do
  modifyRegistry (·.begin path name)
  let (space, module_) ← newFileModule name path
  complete path module_ (runModule machine path .imported module_ space)
  return module_

/-- Finds the module of a dotted name for an import from a directory. -/
def load (machine : Machine) (name directory : String) : Exec Loaded := do
  match ← read (·.resolve? name directory) with
  | none => complain (.noModule name)
  | some path =>
    let registry ← read (·.registry)
    match registry.loaded? path, registry.running? path with
    | some module_, _ =>
      modifyRegistry (·.note (.found path module_))
      return .ready module_
    | none, some job => return .unfinished path job.name
    | none, none => return .ready (← loadFresh machine path name)

/-! ### Import statements -/

/-- Announces names in a scope. -/
def announceAll (env : Env) (names : List String) : Exec Unit :=
  names.forM fun name => modifyFrame env (·.announce name)

/-- Leaves a binding to an import that has begun and not finished. -/
def postpone (path : String) (binding : Deferred) : Exec Unit := do
  modifyRegistry (·.defer path binding)
  modifyRegistry (·.note (.deferred path binding))

/-- The directory of the file that a statement stands in. -/
def directoryOf (location : Location) : Exec String :=
  read fun world => Path.directory world.host.files.working location.file

/-- Imports a module. -/
def importModule (machine : Machine) (env : Env) (location : Location) (path : List String)
    (newName : Option String) : Exec Unit := do
  match ← load machine (dotted path) (← directoryOf location) with
  | .ready module_ => bindModule env path newName module_
  | .unfinished place _ =>
    announceAll env [importedName path newName]
    postpone place (.bindModule env path newName)

/-- Imports names from a module. -/
def importNames (machine : Machine) (env : Env) (location : Location) (path : List String)
    (names : Option (List String)) : Exec Unit := do
  match ← load machine (dotted path) (← directoryOf location), names with
  | .ready module_, some names => bindNames env path module_ names
  | .ready module_, none => bindPublic env module_
  | .unfinished _ _, none => complain (.starInCycle (dotted path))
  | .unfinished place _, some names =>
    announceAll env names
    postpone place (.bindNames env path names location)

end Exec

end Offside
