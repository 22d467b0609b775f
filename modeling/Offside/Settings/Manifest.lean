/-
This file reads the manifest of a project, which gives the project a name, lists
directories for its modules and sets how much is logged. Names of settings are
taken in any case; settings that are not known are passed over, but a known one
must have a value of its kind.

A manifest is looked for in a directory and then in the directories above it.
-/

import Offside.Host.Files
import Offside.Settings.Toml
import Offside.Text.Case

namespace Offside

/-- The settings of a project. -/
structure Manifest where
  project : String
  /-- Directories for modules, as they are written. -/
  searchPath : List String
  verbosity : Int64
  /-- The directory of the manifest itself. -/
  directory : String
deriving Repr, DecidableEq

/-- Why there is no manifest. -/
inductive ManifestError where
  | unreadable (path reason : String)
  | malformed (path : String)
deriving Repr, DecidableEq

def ManifestError.message : ManifestError → String
  | .unreadable path reason => "cannot read " ++ path ++ ": " ++ reason
  | .malformed path => "parse error in " ++ path ++ ": malformed settings"

/-- The message without the reason. -/
def ManifestError.summary : ManifestError → String
  | .unreadable path _ => "cannot read " ++ path
  | .malformed path => "parse error in " ++ path

namespace Manifest

/-- The name of manifests. -/
def fileName : String := "minipy.toml"

/-! ### Settings -/

/-- A name of a setting in lower case. -/
def folded (name : String) : String :=
  String.ofList (name.toList.map Text.toLower)

/-- The texts of an array. -/
def texts? : Toml.Value → Option (List String)
  | .array elements => elements.mapM fun
    | .text value => some value
    | _ => none
  | _ => none

/-- Applies one setting. -/
def withSetting? (manifest : Manifest) (path : List String) (value : Toml.Value) : Option Manifest :=
  match path.map folded, value with
  | ["project", "name"], .text name => some { manifest with project := name }
  | ["log", "verbosity"], .integer level => some { manifest with verbosity := level }
  | ["source", "search-path"], value =>
    (texts? value).map fun entries => { manifest with searchPath := entries }
  | "project" :: "name" :: _, _ => none
  | "log" :: "verbosity" :: _, _ => none
  | "source" :: "search-path" :: _, _ => none
  | ["project"], _ => none
  | ["log"], _ => none
  | ["source"], _ => none
  | _, _ => some manifest

/-- The header does not make a table of a setting that is none. -/
def admitsHeader (path : List String) : Bool :=
  match path.map folded with
  | "project" :: "name" :: _ => false
  | "log" :: "verbosity" :: _ => false
  | "source" :: "search-path" :: _ => false
  | _ => true

/-- The settings of a document. -/
def ofDocument? (directory : String) (document : Toml.Document) : Option Manifest :=
  if document.headers.all admitsHeader then
    document.values.foldlM (fun manifest entry => manifest.withSetting? entry.1 entry.2)
      ⟨"", [], 0, directory⟩
  else none

/-! ### Files -/

/-- Reads the manifest at a path. -/
def load (files : Files) (path : String) : Except ManifestError Manifest :=
  match files.read path with
  | .error reason => .error (.unreadable path reason)
  | .ok text =>
    let directory := Path.absolute files.working (Path.directory files.working path)
    match (Toml.read? text).bind (ofDocument? directory) with
    | some manifest => .ok manifest
    | none => .error (.malformed path)

/-- Looks for a manifest in a directory and in those above it, at most `fuel` of them. -/
def findFrom (files : Files) : Nat → String → Except ManifestError (Option Manifest)
  | 0, _ => .ok none
  | fuel + 1, directory =>
    let path := Path.join files.working [directory, fileName]
    if files.isFile path then (load files path).map some
    else
      let parent := Path.directory files.working directory
      if parent == directory then .ok none else findFrom files fuel parent

/-- Looks for a manifest in a directory and in those above it. A path has fewer directories above
it than characters. -/
def find (files : Files) (directory : String) : Except ManifestError (Option Manifest) :=
  let place := Path.absolute files.working directory
  findFrom files (place.length + 2) place

/-- The directories for modules, from the root on. -/
def searchDirectories (manifest : Manifest) (files : Files) : List String :=
  manifest.searchPath.map fun entry =>
    if Path.isAbsolute files.working entry then Path.clean files.working entry
    else Path.join files.working [manifest.directory, entry]

end Manifest

end Offside
