/-
This file writes the report of a failure. An exception is shown with the statements
that it passed through, the outermost first, each with its line of source if that
is known; exceptions that it is linked to come before it, the oldest first. Other
failures are shown with the place in the source that they are about, if there is
one.

The text of an exception is what its own method makes of it, so writing a report
runs code of the program. If that code fails, the arguments are shown instead.
-/

import Offside.Eval.Handling
import Offside.Text.Blank

namespace Offside

/-- The text between two linked exceptions. -/
def chainSeparator : String :=
  "\nDuring handling of the above exception, another exception occurred:\n\n"

namespace World

/-- A line of source without white space around it. -/
def trimmedLine? (world : World) (location : Location) : Option String :=
  (world.sourceLine? location.file location.line).map fun line =>
    String.ofList (Text.trim line.toList)

/-- A statement that an exception passed through. An empty line of source is not shown. -/
def frameText (world : World) (frame : TraceFrame) : String :=
  let place := "  File \"" ++ frame.location.file ++ "\", line " ++
    toString frame.location.line ++ ", in " ++ frame.label ++ "\n"
  match world.trimmedLine? frame.location with
  | some line => if line == "" then place else place ++ "    " ++ line ++ "\n"
  | none => place

/-- A message about a place in the source. -/
def locatedText (world : World) (location : Option Location) (message : String) : String :=
  let place := match location with
    | none => ""
    | some location =>
      "  File \"" ++ location.file ++ "\", line " ++ toString location.line ++ "\n" ++
        match world.trimmedLine? location with
        | some line => "    " ++ line ++ "\n"
        | none => ""
  place ++ message ++ "\n"

end World

namespace Exec

/-- The class of an exception and its text. -/
def exceptionLine (machine : Machine) (value : Ref) : Exec String := do
  let name ← typeName value
  let message ← match ← settle (str machine value) with
    | .ok text => pure text
    | .error _ => read (·.exceptionText value)
  return if message == "" then name else name ++ ": " ++ message

/-- An exception with its trace. -/
def raisedReport (machine : Machine) (id : RaisedId) : Exec String := do
  let frames ← read fun world => String.join ((world.raisedAt id).trace.map world.frameText)
  let line ← exceptionLine machine (← read (·.raisedAt id)).value
  return "Traceback (most recent call last):\n" ++ frames ++ line ++ "\n"

/-- The reports of several exceptions, in order. -/
def raisedReports (machine : Machine) : List RaisedId → Exec (List String)
  | [] => return []
  | id :: rest => do
    let report ← raisedReport machine id
    return report :: (← raisedReports machine rest)

/-- The report of a failure. -/
def report (machine : Machine) (failure : Failure) : Exec String := do
  let message ← read failure.message
  match failure with
  | .raised id =>
    let chain ← read fun world => (world.links id).reverse
    return chainSeparator.intercalate (← raisedReports machine chain)
  | .source error => read (·.locatedText error.location? message)
  | .internal location _ => read (·.locatedText location message)
  | _ => return message ++ "\n"

end Exec

end Offside
