/-
This file holds the two functions that reach the outside world: one writes a line
of texts, the other reads a line. Every call writes at most once. A write may be
the one that requests an interrupt, which the next statement delivers, or the one
that the outside world refuses; then nothing is written.
-/

import Offside.Library.Strings

namespace Offside.Library

open Exec

/-- What the outside world says when it refuses a write. -/
def writeRefused : String := "write refused"

/-- Writes a text for one of the functions. -/
def writeFor (function text : String) : Exec Unit := do
  change fun world => { world with host.writes := world.host.writes + 1 }
  let host ← read (·.host)
  if host.interruptAt == some host.writes then
    change fun world => { world with interrupted := true }
  if host.failAt == some host.writes then complain (.streamFailed function writeRefused)
  else change fun world => { world with host.output := world.host.output ++ text }

/-! ### Writing -/

/-- A named argument that is a text; one that is left out or absent has its default. -/
def namedText (named : List (String × Ref)) (name otherwise : String) : Exec String := do
  match named.lookup name with
  | none => return otherwise
  | some value =>
    match ← read (·.payload value) with
    | .none => return otherwise
    | .str text => return text
    | _ => complain (.keywordNotText name (← typeName value))

/-- The texts of several objects, after those found already, which are given from their end. -/
def strOnto (machine : Machine) (found : List String) : List Ref → Exec (List String)
  | [] => return found.reverse
  | ref :: rest => do
    let text ← str machine ref
    strOnto machine (text :: found) rest

/-- The names that the arguments of `print` may have. -/
def printNames : List String := ["sep", "end", "flush"]

/-- Writes texts in one piece, and passes them on at once if asked to. -/
def print (machine : Machine) (arguments : List Ref) (named : List (String × Ref)) :
    Exec Ref := do
  match named.find? fun entry => !printNames.contains entry.1 with
  | some (name, _) => complain (.printKeyword name)
  | none =>
    let separator ← namedText named "sep" " "
    let ending ← namedText named "end" "\n"
    let texts ← strOnto machine [] arguments
    writeFor "print" (separator.intercalate texts ++ ending)
    match named.lookup "flush" with
    | none => return noneRef
    | some flush =>
      if ← truthy machine flush then
        change fun world => { world with host.syncs := world.host.syncs + 1 }
      return noneRef

/-! ### Reading -/

/-- The first line of what is left to read, and what is left after it. The line break belongs to
neither. -/
def splitLine (input : String) : String × String :=
  let line := input.toList.takeWhile (· != '\n')
  (String.ofList line, String.ofList (input.toList.drop (line.length + 1)))

/-- Reads a line. What is left after the last line break is a line unless it is empty. -/
def readLine : Exec Ref := do
  let host ← read (·.host)
  if host.input.isEmpty then
    if host.isInputOpen then throw .waiting else complain .endOfInput
  else
    let (line, rest) := splitLine host.input
    change fun world => { world with host.input := rest }
    newStr line

/-- Shows a prompt, if there is one, and reads a line. -/
def input (machine : Machine) (prompt : Option Ref) : Exec Ref := do
  match prompt with
  | none => readLine
  | some prompt =>
    match ← read (·.payload prompt) with
    | .none => readLine
    | _ =>
      let text ← str machine prompt
      writeFor "input" text
      readLine

end Offside.Library
