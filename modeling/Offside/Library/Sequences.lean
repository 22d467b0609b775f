/-
This file holds the methods that lists and tuples share: those that only look at
elements and those that make a new sequence. An object of another class that
reaches such a method has no elements. Two sequences are compared only if they are
of the same class.

A method that runs code of the program while it goes through a sequence goes
through the span that the sequence had at the start, so it sees what that code
changes in place.
-/

import Offside.Library.Positions

namespace Offside.Library

open Exec

/-- The elements of a list or tuple; anything else has none. -/
def elementsOf (ref : Ref) : Exec (Array Ref) :=
  read (·.elements ref)

/-- Two objects are of the same class. -/
def isPeer (world : World) (self other : Ref) : Bool :=
  (world.object self).class_ == (world.object other).class_

/-- The elements of a sequence of the same class as another object. -/
def peerElements? (self other : Ref) : Exec (Option (Array Ref)) :=
  read fun world => if isPeer world self other then world.elements? other else none

/-- What there is to go through in a sequence of the same class as another object. -/
def peerSpan? (self other : Ref) : Exec (Option Span) :=
  read fun world => if isPeer world self other then world.span? other else none

/-- A new sequence: a tuple if the given one is a tuple, and a list otherwise. -/
def newSequence (like : Ref) (buffer : Buffer) : Exec Ref := do
  match ← read (·.payload like) with
  | .tuple _ => newTuple buffer.cells
  | _ => newListIn buffer

/-! ### Looking at elements -/

def sequenceLength (self : Ref) : Exec Ref := do
  newCount (← elementsOf self).size

/-- The position of the first element that equals a value, among as many as given from a position
on. -/
def firstEqual? (machine : Machine) (span : Span) (value : Ref) : Nat → Nat → Exec (Option Nat)
  | 0, _ => return none
  | count + 1, position => do
    if ← equal machine (← elementOf span position) value then return some position
    else firstEqual? machine span value count (position + 1)

/-- How many elements equal a value, besides those found already. -/
def countEqual (machine : Machine) (span : Span) (value : Ref) (found : Nat) :
    Nat → Nat → Exec Nat
  | 0, _ => return found
  | count + 1, position => do
    if ← equal machine (← elementOf span position) value then
      countEqual machine span value (found + 1) count (position + 1)
    else countEqual machine span value found count (position + 1)

/-- The position of the first element of a sequence that equals a value. -/
def find? (machine : Machine) (self value : Ref) : Exec (Option Nat) := do
  let span ← spanOf self
  firstEqual? machine span value span.size 0

def sequenceContains (machine : Machine) (self value : Ref) : Exec Ref := do
  return truthRef (← find? machine self value).isSome

def sequenceIndex (machine : Machine) (self value : Ref) : Exec Ref := do
  match ← find? machine self value with
  | some position => newCount position
  | none =>
    let text ← repr machine value
    complain (.notInSequence text (← typeName self))

def sequenceCount (machine : Machine) (self value : Ref) : Exec Ref := do
  let span ← spanOf self
  newCount (← countEqual machine span value 0 span.size 0)

/-- Two spans are equal element by element, as far as given. An element is equal to itself. -/
def allEqual (machine : Machine) (left right : Span) : Nat → Nat → Exec Bool
  | 0, _ => return true
  | count + 1, position => do
    let first ← elementOf left position
    let second ← elementOf right position
    if first == second then allEqual machine left right count (position + 1)
    else if ← equal machine first second then allEqual machine left right count (position + 1)
    else return false

def sequenceEq (machine : Machine) (self other : Ref) : Exec Ref := do
  let left ← spanOf self
  match ← peerSpan? self other with
  | none => return falseRef
  | some right =>
    if left.size == right.size then
      return truthRef (← allEqual machine left right left.size 0)
    else return falseRef

/-- What the lengths of two sequences say once all their common positions are equal. -/
def orderOfLengths : Comparison → Nat → Nat → Bool
  | .less, left, right => left < right
  | .atMost, left, right => left ≤ right
  | .greater, left, right => right < left
  | .atLeast, left, right => right ≤ left

/-- The order of two spans, as far as given: the first position at which they differ decides. Its
elements are read again for that, since comparing them may have changed them. -/
def lexicographic (machine : Machine) (order : Comparison) (left right : Span) :
    Nat → Nat → Exec Bool
  | 0, _ => return orderOfLengths order left.size right.size
  | count + 1, position => do
    if ← equal machine (← elementOf left position) (← elementOf right position) then
      lexicographic machine order left right count (position + 1)
    else
      let first ← elementOf left position
      let second ← elementOf right position
      match order with
      | .less | .atMost => lessThan machine first second
      | .greater | .atLeast => lessThan machine second first

def sequenceCompare (machine : Machine) (order : Comparison) (self other : Ref) : Exec Ref := do
  let left ← spanOf self
  match ← peerSpan? self other with
  | none => unsupported order.operator self other
  | some right =>
    return truthRef (← lexicographic machine order left right (min left.size right.size) 0)

def sequenceIter (self : Ref) : Exec Ref :=
  newIterator (.sequence self 0)

/-- The element at an index, or a new sequence of what a slice selects. -/
def sequenceGetItem (kind : String) (self index : Ref) : Exec Ref := do
  let elements ← elementsOf self
  match ← boundsOf? index with
  | some bounds =>
    let selection ← select bounds elements.size
    newSequence self (.exact (← pick elements selection.positions))
  | none =>
    let position ← positionOf kind (Int64.ofNat elements.size) index
    match elementAt? elements position with
    | some element => return element
    | none => throw .outside

/-! ### Joining and repeating -/

def sequenceAdd (kind : String) (self other : Ref) : Exec Ref := do
  let left ← elementsOf self
  match ← peerElements? self other with
  | some right => newSequence self ((Buffer.copied left).map (· ++ right))
  | none => complain (.cannotConcatenate kind (← typeName other))

/-- How often a sequence is repeated: a count below zero is none at all. -/
def repeatCount (count : Ref) : Exec Nat := do
  match ← indexOf? count with
  | some value => return value.toNatClampNeg
  | none => complain (.cannotRepeat (← typeName count))

/-- The most elements or bytes that a repetition may have; there is no room for more. -/
def repetitionLimit : Nat := Nat.pow 2 40

/-- Refuses a repetition for which there is no room. -/
def checkRepetition (size count : Nat) : Exec Unit :=
  if repetitionLimit < size * count then throw .outside else return ()

/-- Elements over and over. -/
def repeated (elements : Array Ref) : Nat → Array Ref → Array Ref
  | 0, found => found
  | count + 1, found => repeated elements count (found ++ elements)

def sequenceMul (self count : Ref) : Exec Ref := do
  let elements ← elementsOf self
  let count ← repeatCount count
  checkRepetition elements.size count
  newSequence self (.exact (if elements.isEmpty then #[] else repeated elements count #[]))

/-! ### Texts -/

/-- A list as its own method shows it, from the texts of its elements. -/
def listLayout (texts : List String) : String :=
  "[" ++ ", ".intercalate texts ++ "]"

/-- A tuple as its own method shows it: a comma is added to what stands inside if that is a single
element. -/
def tupleLayout (texts : List String) : String :=
  let inner := ", ".intercalate texts
  "(" ++ (if texts.length = 1 then inner ++ "," else inner) ++ ")"

def listRepr (machine : Machine) (self : Ref) : Exec Ref := do
  newStr (listLayout (← reprSpan machine (← spanOf self)))

def tupleRepr (machine : Machine) (self : Ref) : Exec Ref := do
  newStr (tupleLayout (← reprSpan machine (← spanOf self)))

def tupleHash (self : Ref) : Exec Ref := do
  (← elementsOf self).forM checkHashable
  newInt (← read (·.keyHash self)).toInt64

/-! ### Conversions -/

def convertTuple (machine : Machine) : List Ref → Exec Ref
  | [] => newTuple #[]
  | source :: _ => do newTuple (← collect machine source)

end Offside.Library
