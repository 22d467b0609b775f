/-
This file holds the one operation that the tables of character classes share:
membership of a character in a list of closed ranges of code points. A table
lists its ranges in ascending order and no two of them touch, so each class is
written down in exactly one way and the length of a table says how many
separate runs the class has.
-/

namespace Offside.Text

/-- A closed range of code points, written as its first and last member. -/
abbrev CodeRange := Nat × Nat

/-- The range holds the code point. -/
def CodeRange.holds (range : CodeRange) (code : Nat) : Bool :=
  range.1 ≤ code && code ≤ range.2

/-- Some range of the table holds the code point. The table is ascending, so the search may
stop at the first range that starts beyond it. -/
def inRanges (code : Nat) : List CodeRange → Bool
  | [] => false
  | range :: rest => if code < range.1 then false else range.holds code || inRanges code rest

end Offside.Text
