/-
This file connects the command line with the outside world. Running a program is a
function of its arguments, its files and its input, so the files that it can reach
are read first, and the program is run anew whenever it asks for another line of
input: what it wrote before is the same again and is not written twice.
-/

import Offside.CommandLine

namespace Offside.Main

/-- The name under which the environment gives directories for modules. -/
def searchVariableName : String := "MINIPY_PATH"

/-- How deep directories are searched for modules. -/
def searchDepth : Nat := 16

/-- A file and its text, if it can be read. -/
def readText (path : String) : IO (List (String × String)) := do
  try return [(path, ← IO.FS.readFile path)] catch _ => return []

/-- The modules in a directory and in those below it, at most so deep. -/
def readModules : Nat → String → IO (List (String × String))
  | 0, _ => return []
  | depth + 1, directory => do
    try
      let mut found := []
      for entry in ← ((← IO.currentDir) / directory).readDir do
        let path := entry.path.toString
        if ← entry.path.isDir then
          if !entry.fileName.startsWith "." then found := found ++ (← readModules depth path)
        else if entry.fileName.endsWith sourceExtension then
          found := found ++ (← readText path)
      return found
    catch _ => return []

/-- A directory and those above it, at most so many. -/
def upwards (working : String) : Nat → String → List String
  | 0, _ => []
  | count + 1, directory =>
    let parent := Path.directory working directory
    directory :: if parent == directory then [] else upwards working count parent

/-- The manifests in a directory and in those above it. -/
def readManifests (working directory : String) : IO (List (String × String)) := do
  let places := upwards working (directory.length + 1) directory
  return (← places.mapM fun place =>
    readText (Path.join working [place, Manifest.fileName])).flatten

/-- The files that a command can reach. -/
def readFiles (working searchVariable : String) (arguments : List String) : IO Files := do
  match CommandLine.read {} arguments with
  | .run options =>
    let file := Path.absolute working (options.file.getD "x")
    let directory := Path.directory working file
    let manifests ← readManifests working directory
    let settings : Files := ⟨working, manifests⟩
    let listed := match Manifest.find settings directory with
      | .ok (some manifest) => manifest.searchDirectories settings
      | _ => []
    let places := directory :: World.environmentDirectories searchVariable ++ listed
    let modules ← places.mapM fun place => readModules searchDepth (Path.absolute working place)
    return ⟨working, (← readText file) ++ manifests ++ modules.flatten⟩
  | _ => return ⟨working, []⟩

/-- Runs the command with the input read so far, and goes on with another line of input for as
long as it waits for one. What was written before is given by its length. -/
partial def serve (host : Host) (arguments : List String) (written : Nat) : IO UInt32 := do
  let ending := CommandLine.run "minipy" host arguments
  let output ← IO.getStdout
  output.putStr (String.ofList (ending.output.toList.drop written))
  output.flush
  if ending.isWaiting then
    let line ← (← IO.getStdin).getLine
    let host := if line.isEmpty then { host with isInputOpen := false }
      else { host with input := host.input ++ line }
    serve host arguments ending.output.length
  else
    (← IO.getStderr).putStr ending.errors
    return ending.code.toUInt32

end Offside.Main

def main (arguments : List String) : IO UInt32 := do
  let working := (← IO.currentDir).toString
  let searchVariable := (← IO.getEnv Offside.Main.searchVariableName).getD ""
  let files ← Offside.Main.readFiles working searchVariable arguments
  Offside.Main.serve
    { files, input := "", isInputOpen := true, output := "", searchVariable } arguments 0
