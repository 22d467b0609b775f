/-
This file turns the inside of a bracket group into an expression. Everything
nested deeper has been turned into operands already, so the inside is a flat row
in which commas, colons, `=` and the words of a comprehension stand as tokens.
The separators cut the row into segments and each segment is folded on its own.

What a group means depends on its bracket and on whether it directly follows an
operand. After an operand, parentheses are a call, square brackets a subscript.
On their own, parentheses group or make a tuple, square brackets make a list and
braces a dict or a set. Braces are never attached to what stands before them,
and yet take its place: the operand before them is dropped.
-/

import Offside.Number.FloatReading
import Offside.Syntax.Ladder

namespace Offside

/-- The entry is this token. -/
def Item.is (item : Item) (lexeme : Lexeme) : Bool :=
  match item with
  | .token found => found.lexeme = lexeme
  | .operand _ => false

def Item.location : Item → Location
  | .operand expression => expression.location
  | .token found => found.location

/-- The error of a target that cannot be assigned to names the part that is at fault. -/
def Expr.checkTarget (target : Expr) : Except ParseError Unit :=
  match target.untargetable? with
  | some part => Ladder.failAt part.location (.cannotAssign part.describe)
  | .none => .ok ()

namespace Group

open Ladder (failAt reduce)

/-! ### Cutting a row -/

/-- The segments between the entries that are this token: one more than there are such entries. -/
def split (separator : Lexeme) : List Item → List (List Item)
  | [] => [[]]
  | item :: rest =>
    if item.is separator then [] :: split separator rest
    else match split separator rest with
      | first :: others => (item :: first) :: others
      | [] => [[item]]

/-- The segments between commas. A comma at the end opens no further segment. -/
def commaSegments (row : List Item) : List (List Item) :=
  let segments := split (.symbol .comma) row
  if segments.length > 1 && segments.getLast?.any (·.isEmpty) then segments.dropLast else segments

/-- The row before the first entry with the property, that entry, and the row after it. -/
def cutAt? (marks : Item → Bool) : List Item → Option (List Item × Item × List Item)
  | [] => none
  | item :: rest =>
    if marks item then some ([], item, rest)
    else (cutAt? marks rest).map fun (before, found, after) => (item :: before, found, after)

/-! ### Displays -/

/-- A group is opened by a bracket at a line. -/
structure Opening where
  bracket : Bracket
  location : Location

/-- The elements of a group with commas between them. -/
def elements (opening : Opening) (row : List Item) : Except ParseError (List Expr) :=
  if row.isEmpty then .ok []
  else (commaSegments row).mapM fun segment =>
    if segment.isEmpty then failAt opening.location (.emptyElement opening.bracket)
    else reduce segment

/-- The row holds this token. -/
def holds (row : List Item) (lexeme : Lexeme) : Bool :=
  row.any (·.is lexeme)

/-- Parentheses on their own: one expression without a comma is only grouped. -/
def parenthesized (opening : Opening) (row : List Item) : Except ParseError Expr := do
  match ← elements opening row with
  | [inner] =>
    if holds row (.symbol .comma) then .ok (.tuple opening.location [inner])
    else .ok (.parenthesized opening.location inner)
  | inner => .ok (.tuple opening.location inner)

/-- A list comprehension, its row cut at the word that opens the loop. The clause is written as a
membership test, which is taken apart into the target and the source. -/
def comprehension (opening : Opening) (output : List Item) (word : Item) (clause : List Item) :
    Except ParseError Expr := do
  if output.isEmpty then failAt opening.location .noComprehensionOutput
  let output ← reduce output
  let (clause, filter) ← match cutAt? (·.is (.keyword .ifWord)) clause with
    | some (_, word, []) => failAt word.location .noComprehensionCondition
    | some (before, _, condition) => (fun filter => (before, some filter)) <$> reduce condition
    | none => .ok (clause, none)
  if clause.isEmpty then failAt word.location .noComprehensionMembership
  match ← reduce clause with
  | .binary _ .member target source =>
    target.checkTarget
    .ok (.comprehension opening.location output target source filter)
  | _ => failAt word.location .noComprehensionMembership

/-- Square brackets on their own. -/
def squareDisplay (opening : Opening) (row : List Item) : Except ParseError Expr :=
  match cutAt? (fun item => item.is (.keyword .forWord) || item.is (.keyword .ofWord)) row with
  | some (output, word, clause) => comprehension opening output word clause
  | none => .list opening.location <$> elements opening row

/-- One entry of a dict display. -/
def entry (opening : Opening) (segment : List Item) : Except ParseError (Expr × Expr) :=
  match split (.symbol .colon) segment with
  | [key, value] =>
    if key.isEmpty || value.isEmpty then failAt opening.location .malformedEntry
    else do return (← reduce key, ← reduce value)
  | _ => failAt opening.location .malformedEntry

/-- Braces: a colon anywhere makes a dict, and so does nothing at all. -/
def braceDisplay (opening : Opening) (row : List Item) : Except ParseError Expr :=
  if row.isEmpty then .ok (.dict opening.location [])
  else if holds row (.symbol .colon) then
    .dict opening.location <$> (commaSegments row).mapM (entry opening)
  else .set opening.location <$> elements opening row

/-! ### Groups after an operand -/

/-- The value of an argument. An empty value is reported at the token before it. -/
def argumentValue (location : Location) (before : String) (segment : List Item) :
    Except ParseError Expr :=
  if segment.isEmpty then failAt location (.expectedExpressionAfter before)
  else match cutAt? (·.is (.symbol .assign)) segment with
    | some (_, sign, _) => failAt sign.location .strayAssignment
    | none => reduce segment

/-- Reads the arguments of a call. Those already read are kept reversed; once one was named, all
later ones must be. -/
def arguments (opening : Opening) (positional : List Expr) (named : List (String × Expr)) :
    List (List Item) → Except ParseError (List Expr × List (String × Expr))
  | [] => .ok (positional.reverse, named.reverse)
  | segment :: rest =>
    match segment with
    | [] => failAt opening.location .emptyArgument
    | first :: following =>
      match following with
      | .token ⟨.symbol .assign, location⟩ :: value =>
        match first with
        | .operand (.name _ name) => do
          let value ← argumentValue location Symbol.assign.spelling value
          arguments opening positional ((name, value) :: named) rest
        | _ => failAt location .argumentNameNotIdentifier
      | _ =>
        if named.isEmpty then do
          let value ← argumentValue opening.location opening.bracket.opener.spelling segment
          arguments opening (value :: positional) named rest
        else failAt first.location .positionalAfterNamed

/-- Parentheses after an operand. -/
def call (opening : Opening) (callee : Expr) (row : List Item) : Except ParseError Expr := do
  if row.isEmpty then return .call opening.location callee [] []
  let (positional, named) ← arguments opening [] [] (commaSegments row)
  return .call opening.location callee positional named

/-- One bound of a slice. -/
def bound (opening : Opening) (segment : List Item) : Except ParseError Expr :=
  if segment.isEmpty then .ok (.omitted opening.location) else reduce segment

/-- Square brackets after an operand: an index, a tuple of indices, or a slice. -/
def subscript (opening : Opening) (object : Expr) (row : List Item) : Except ParseError Expr := do
  if row.isEmpty then failAt opening.location .emptySubscript
  else if holds row (.symbol .colon) then
    match split (.symbol .colon) row with
    | [start, stop] => do
      let start ← bound opening start
      let stop ← bound opening stop
      return .slice opening.location object start stop (.omitted opening.location)
    | [start, stop, step] => do
      let start ← bound opening start
      let stop ← bound opening stop
      let step ← bound opening step
      return .slice opening.location object start stop step
    | _ => failAt opening.location .tooManyBounds
  else do
    match ← elements opening row with
    | [index] =>
      if holds row (.symbol .comma) then
        return .index opening.location object (.tuple opening.location [index])
      else return .index opening.location object index
    | indices => return .index opening.location object (.tuple opening.location indices)

/-- The expression of a group, given the operand that it directly follows. -/
def close (opening : Opening) (before : Option Expr) (row : List Item) : Except ParseError Expr :=
  match opening.bracket, before with
  | .paren, some callee => call opening callee row
  | .paren, none => parenthesized opening row
  | .square, some object => subscript opening object row
  | .square, none => squareDisplay opening row
  | .brace, _ => braceDisplay opening row

/-! ### Single tokens -/

/-- The number that digits with at most one point write: without a point an integer. -/
def numeral (location : Location) (digits : String) : Except ParseError Expr :=
  if digits.toList.contains '.' then
    match Number.readFloat? digits.toList with
    | some value => .ok (.float location value)
    | none => failAt location (.invalidNumber digits)
  else
    match Number.readInteger? digits.toList with
    | some value => .ok (.integer location value)
    | none => failAt location (.integerTooLarge digits)

/-- The operand that a token is on its own. -/
def operand? (token : Token) : Option (Except ParseError Expr) :=
  match token.lexeme with
  | .identifier name => some (.ok (.name token.location name))
  | .string value => some (.ok (.string token.location value))
  | .boolean value => some (.ok (.boolean token.location value))
  | .keyword .noneWord => some (.ok (.none token.location))
  | .number digits => some (numeral token.location digits)
  | _ => none

end Group

end Offside
