/-
This file holds the methods of texts. A text is a sequence of characters, and
positions and lengths count characters; texts are ordered character by character.
Most methods want texts for all of their arguments and say so.
-/

import Offside.Library.Lists
import Offside.Text.Blank
import Offside.Text.Case
import Offside.Text.Search

namespace Offside.Library

open Exec

/-- The text that an object is. -/
def textOf? (ref : Ref) : Exec (Option String) :=
  read fun world => match world.payload ref with
    | .str text => some text
    | _ => none

/-- The text that an object is; other objects are refused. -/
def textOf (ref : Ref) : Exec String := do
  match ← textOf? ref with
  | some text => return text
  | none => complain (.expectedText (← typeName ref))

/-- The text that an object is, or the empty text. -/
def textOrEmpty (ref : Ref) : Exec String := do
  return (← textOf? ref).getD ""

/-- A new text from characters. -/
def newText (characters : List Char) : Exec Ref :=
  newStr (String.ofList characters)

/-! ### Operators -/

def stringAdd (self other : Ref) : Exec Ref := do
  match ← textOf? other with
  | some right => newStr ((← textOrEmpty self) ++ right)
  | none => complain (.cannotConcatenate "str" (← typeName other))

/-- A text over and over. -/
def repeatedText (text : String) : Nat → String → String
  | 0, found => found
  | count + 1, found => repeatedText text count (found ++ text)

def stringMul (self count : Ref) : Exec Ref := do
  let text ← textOrEmpty self
  let count ← repeatCount count
  checkRepetition text.utf8ByteSize count
  newStr (if text.isEmpty then "" else repeatedText text count "")

def stringEq (self other : Ref) : Exec Ref := do
  match ← textOf? other with
  | some right => return truthRef ((← textOrEmpty self) == right)
  | none => return falseRef

/-- The order of two texts. -/
def holdsText : Comparison → String → String → Bool
  | .less, left, right => left < right
  | .atMost, left, right => !(right < left)
  | .greater, left, right => right < left
  | .atLeast, left, right => !(left < right)

def stringCompare (order : Comparison) (self other : Ref) : Exec Ref := do
  match ← textOf? other with
  | some right => return truthRef (holdsText order (← textOrEmpty self) right)
  | none => unsupported order.operator self other

def stringContains (self piece : Ref) : Exec Ref := do
  match ← textOf? piece with
  | some piece => return truthRef (Text.occurs piece.toList (← textOrEmpty self).toList)
  | none => complain (.containsNeedsText (← typeName piece))

/-- The character at an index, or the characters that a slice selects. An object that is no text is
taken as listings show it. -/
def stringGetItem (self index : Ref) : Exec Ref := do
  let characters := (← read (·.display self)).toList.toArray
  match ← boundsOf? index with
  | some bounds =>
    let selection ← select bounds characters.size
    newText (← pick characters selection.positions).toList
  | none =>
    let position ← positionOf "string" (Int64.ofNat characters.size) index
    match elementAt? characters position with
    | some c => newText [c]
    | none => throw .outside

def stringHash (self : Ref) : Exec Ref := do
  newInt (← read (·.keyHash self)).toInt64

/-! ### Methods -/

def stringLength (self : Ref) : Exec Ref := do
  newCount (← textOf self).length

def stringIter (self : Ref) : Exec Ref := do
  newIterator (.characters (← textOf self).toList)

def stringRepr (self : Ref) : Exec Ref := do
  newStr (Text.quote (← textOf self))

def stringStr (self : Ref) : Exec Ref := do
  newStr (← textOf self)

def stringUpper (self : Ref) : Exec Ref := do
  newText ((← textOf self).toList.map Text.toUpper)

def stringLower (self : Ref) : Exec Ref := do
  newText ((← textOf self).toList.map Text.toLower)

def stringStrip (self : Ref) (dropped : Option Ref) : Exec Ref := do
  let text := (← textOf self).toList
  match dropped with
  | some dropped => newText (Text.strip (← textOf dropped).toList text)
  | none => newText (Text.trim text)

/-- A new list of texts. -/
def newTexts (parts : List (List Char)) : Exec Ref := do
  newList (← parts.mapM newText).toArray

def stringSplit (self : Ref) (separator : Option Ref) : Exec Ref := do
  let text := (← textOf self).toList
  match separator with
  | none => newTexts (Text.fields text)
  | some separator =>
    let separator := (← textOf separator).toList
    if nonempty : separator = [] then complain .emptySeparator
    else newTexts (Text.split separator nonempty text)

/-- The texts among elements; the first that is none is refused with its position. -/
def textsOf (position : Nat) (found : List String) : List Ref → Exec (List String)
  | [] => return found.reverse
  | element :: rest => do
    match ← textOf? element with
    | some text => textsOf (position + 1) (text :: found) rest
    | none => complain (.joinItem position (← typeName element))

def stringJoin (machine : Machine) (self parts : Ref) : Exec Ref := do
  let separator ← textOf self
  let parts ← collect machine parts
  newStr (separator.intercalate (← textsOf 0 [] parts.toList))

/-- Applies a search to two texts. -/
def withPiece (self piece : Ref) (search : List Char → List Char → Exec Ref) : Exec Ref := do
  let text ← textOf self
  let piece ← textOf piece
  search piece.toList text.toList

def stringReplace (self piece other : Ref) : Exec Ref := do
  let text ← textOf self
  let piece ← textOf piece
  let other ← textOf other
  newText (Text.replace piece.toList other.toList text.toList)

def stringStartsWith (self piece : Ref) : Exec Ref :=
  withPiece self piece fun piece text => return truthRef (Text.startsWith piece text)

def stringEndsWith (self piece : Ref) : Exec Ref :=
  withPiece self piece fun piece text => return truthRef (Text.endsWith piece text)

def stringFind (self piece : Ref) : Exec Ref :=
  withPiece self piece fun piece text =>
    match Text.find? piece text with
    | some position => newCount position
    | none => newInt (-1)

def stringCount (self piece : Ref) : Exec Ref :=
  withPiece self piece fun piece text => newCount (Text.occurrences piece text)

def convertStr (machine : Machine) : List Ref → Exec Ref
  | [] => newStr ""
  | source :: _ => do newStr (← str machine source)

end Offside.Library
