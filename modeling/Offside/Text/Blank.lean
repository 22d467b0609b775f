/-
This file says which characters count as white space when text is trimmed or
split: the members of the property White_Space. It is a wider class than the
blanks of indentation, which are the space and the tab alone.
-/

import Offside.Text.Ranges

namespace Offside.Text

/-- The runs of white space, from the ASCII controls to the ideographic space. -/
def blankRanges : List CodeRange := [
  (0x9, 0xD), (0x20, 0x20), (0x85, 0x85), (0xA0, 0xA0), (0x1680, 0x1680), (0x2000, 0x200A),
  (0x2028, 0x2029), (0x202F, 0x202F), (0x205F, 0x205F), (0x3000, 0x3000)]

/-- White space of any script. -/
def isBlank (c : Char) : Bool :=
  inRanges c.toNat blankRanges

/-- Drops white space at the front. -/
def trimLeft (text : List Char) : List Char :=
  text.dropWhile isBlank

/-- Drops white space at the back. -/
def trimRight (text : List Char) : List Char :=
  (text.reverse.dropWhile isBlank).reverse

/-- Drops white space at both ends. -/
def trim (text : List Char) : List Char :=
  trimRight (trimLeft text)

/-- The maximal runs of characters that are not white space, in order. The current run is kept
reversed; an empty run is never listed. -/
def fieldsFrom (run : List Char) : List Char → List (List Char)
  | [] => if run.isEmpty then [] else [run.reverse]
  | c :: rest =>
    if isBlank c then
      if run.isEmpty then fieldsFrom [] rest else run.reverse :: fieldsFrom [] rest
    else fieldsFrom (c :: run) rest

/-- The words of a text: its maximal runs without white space. -/
def fields (text : List Char) : List (List Char) :=
  fieldsFrom [] text

end Offside.Text
