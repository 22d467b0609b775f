/-
This file says where something stands in the source: the name of the file as the
program was told it, and a line counted from one.
-/

namespace Offside

/-- A line of a source file. -/
structure Location where
  file : String
  line : Nat
deriving Repr, DecidableEq, Inhabited

/-- The customary `file:line`. -/
def Location.text (location : Location) : String :=
  location.file ++ ":" ++ toString location.line

/-- The text of a location that may be missing. -/
def Location.textOf : Option Location → String
  | some location => location.text
  | none => "<unknown>"

/-- The next line of the same file. -/
def Location.next (location : Location) : Location :=
  { location with line := location.line + 1 }

end Offside
