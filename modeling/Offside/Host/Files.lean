/-
This file holds the part of the outside world that a run can read: a tree of
text files below a working directory. A directory exists when it is the root or the
working directory, or some file lies below it. A path is followed part by part as
it is written, so it leads nowhere if one of the places on its way is no directory,
even where cleaning the path would have removed that place. Reading gives the text
of a file, or says why it cannot in the customary words of an operating system.
-/

import Offside.Host.Path

namespace Offside

/-- A tree of files: the text of each, by its clean absolute path. -/
structure Files where
  working : String
  texts : List (String × String)
deriving Repr, DecidableEq, Inhabited

namespace Files

/-- What stands at a path. -/
inductive Entry where
  | file (text : String)
  | directory
  | absent
  /-- The path leads through a file. -/
  | throughFile
deriving Repr, DecidableEq

/-- The directory is an ancestor of the path, or the path itself. -/
def isBelow (directory path : String) : Bool :=
  path == directory || path.startsWith (if directory == "/" then "/" else directory ++ "/")

/-- What stands at a clean absolute path. -/
def entryAt (files : Files) (place : String) : Entry :=
  match files.texts.lookup place with
  | some text => .file text
  | none =>
    if place == "/" || isBelow place files.working ||
        files.texts.any (fun entry => isBelow place entry.1) then .directory
    else .absent

/-- Follows the parts of a path from a place, which is given by its parts from the last one on.
Every place on the way must be a directory, also before a part that leads back up. -/
def follow (files : Files) (place : List String) : List String → Entry
  | [] => files.entryAt (Path.absoluteText files.working place.reverse)
  | part :: rest =>
    match files.entryAt (Path.absoluteText files.working place.reverse) with
    | .directory =>
      if part == "." then follow files place rest
      else if part == ".." then follow files place.tail rest
      else follow files (part :: place) rest
    | .file _ => .throughFile
    | .throughFile => .throughFile
    | .absent => .absent

/-- The parts of a path as it is written. A slash at the end asks for a directory. -/
def partsToFollow (path : String) : List String :=
  Path.parts path ++ (if path.endsWith "/" then ["."] else [])

/-- What stands at a path, given as it may be written. Nothing stands at the empty path. -/
def look (files : Files) (path : String) : Entry :=
  if path == "" then .absent
  else if Path.isAbsolute files.working path then files.follow [] (partsToFollow path)
  else files.follow (Path.parts files.working).reverse (partsToFollow path)

/-- There is a file at the path. -/
def isFile (files : Files) (path : String) : Bool :=
  match files.look path with
  | .file _ => true
  | _ => false

/-- The text of a file, or what the operating system says. -/
def read (files : Files) (path : String) : Except String String :=
  match files.look path with
  | .file text => .ok text
  | .directory => .error ("read " ++ path ++ ": is a directory")
  | .absent => .error ("open " ++ path ++ ": no such file or directory")
  | .throughFile => .error ("open " ++ path ++ ": not a directory")

/-- Puts a text at a path. -/
def write (files : Files) (path text : String) : Files :=
  let place := Path.absolute files.working path
  { files with texts := (place, text) :: files.texts.filter (·.1 != place) }

/-! ### What is read -/

theorem mem_of_entryAt {files : Files} {place text : String}
    (found : files.entryAt place = .file text) : ∃ name, (name, text) ∈ files.texts := by
  unfold entryAt at found
  split at found
  next known =>
    cases found
    obtain ⟨earlier, later, split, -⟩ := List.lookup_eq_some_iff.mp known
    exact ⟨place, by simp [split]⟩
  next =>
    split at found <;> cases found

theorem mem_of_follow {files : Files} {text : String} {parts place : List String}
    (found : files.follow place parts = .file text) : ∃ name, (name, text) ∈ files.texts := by
  induction parts generalizing place with
  | nil => exact mem_of_entryAt found
  | cons part rest inductionHypothesis =>
    unfold follow at found
    split at found
    · split at found
      · exact inductionHypothesis found
      · split at found
        · exact inductionHypothesis found
        · exact inductionHypothesis found
    all_goals cases found

/-- What is read at a path is one of the texts. -/
theorem mem_of_read {files : Files} {path text : String} (found : files.read path = .ok text) :
    ∃ name, (name, text) ∈ files.texts := by
  have entry : files.look path = .file text := by
    unfold read at found
    split at found
    · cases found
      assumption
    all_goals cases found
  unfold look at entry
  split at entry
  · cases entry
  · split at entry
    · exact mem_of_follow entry
    · exact mem_of_follow entry

end Files

end Offside
