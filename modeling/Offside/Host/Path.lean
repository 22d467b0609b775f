/-
This file computes with the paths of files. Paths are texts with slashes between
their parts. A path is absolute if it starts with a slash or with the name of
the working directory; the second rule matters where that name is not itself a
path from the root, as in a directory tree that exists only in memory. All
computations are on the text alone and never ask which files exist.

Cleaning a path removes empty parts and single points, and lets each double point
cancel the part before it. Above the root there is nothing to cancel.
-/

namespace Offside.Path

/-- The parts of a path between its slashes, empty ones left out. -/
def parts (path : String) : List String :=
  (path.splitOn "/").filter (· != "")

/-- The path starts at a root. -/
def isAbsolute (working path : String) : Bool :=
  path.startsWith "/" || path == working || path.startsWith (working ++ "/")

/-- Cancels double points. The parts kept so far are reversed; a relative path keeps the double
points that it has nothing to cancel with. -/
def resolve (rooted : Bool) : List String → List String → List String
  | kept, [] => kept.reverse
  | kept, part :: rest =>
    if part == "." then resolve rooted kept rest
    else if part == ".." then
      match kept with
      | [] => if rooted then resolve rooted [] rest else resolve rooted [".."] rest
      | last :: before =>
        if last == ".." then resolve rooted (".." :: last :: before) rest
        else resolve rooted before rest
    else resolve rooted (part :: kept) rest

/-- An absolute path, by its parts. The working directory's own name needs no slash before it. -/
def absoluteText (working : String) (found : List String) : String :=
  match found with
  | first :: _ =>
    if first == working then "/".intercalate found else "/" ++ "/".intercalate found
  | [] => "/"

/-- The shortest path with the same meaning. -/
def clean (working path : String) : String :=
  if isAbsolute working path then absoluteText working (resolve true [] (parts path))
  else match resolve false [] (parts path) with
    | [] => "."
    | found => "/".intercalate found

/-- Puts paths one after the other. -/
def join (working : String) (elements : List String) : String :=
  match elements.filter (· != "") with
  | [] => ""
  | found => clean working ("/".intercalate found)

/-- The path from the root. -/
def absolute (working path : String) : String :=
  if isAbsolute working path then clean working path else join working [working, path]

/-- The path up to and without its last part. -/
def directory (working path : String) : String :=
  match (path.splitOn "/").reverse with
  | [_] => if path == working && path != "" then clean working "/" else "."
  | _ :: before =>
    clean working ("/".intercalate before.reverse ++ "/")
  | [] => "."

end Offside.Path
