/-
This file holds what lists do beyond tuples: changing their elements. Storing at a
position, deleting at one and reversing happen in the buffer of the list, and so
does everything that makes it longer as long as it fits. Deleting what a slice
selects, emptying and sorting give the list a new buffer.
-/

import Offside.Library.Sequences
import Offside.Library.Sorting

namespace Offside.Library

open Exec

/-- The buffer of a list; other objects are refused. -/
def listBuffer (self : Ref) : Exec BufferId := do
  match ← read (·.payload self) with
  | .list buffer => return buffer
  | _ => complain (.wrongReceiver "list" (← typeName self))

/-- The elements of a list; other objects are refused. -/
def listElements (self : Ref) : Exec (Array Ref) := do
  let buffer ← listBuffer self
  read fun world => (world.buffer buffer).cells

/-- Moves a list to a new buffer. -/
def moveList (self : Ref) (buffer : Buffer) : Exec Ref := do
  setPayload self (.list (← newBuffer buffer))
  return noneRef

/-- Changes the elements of a list in its buffer. -/
def modifyList (self : Ref) (step : Array Ref → Array Ref) : Exec Ref := do
  modifyBuffer (← listBuffer self) step
  return noneRef

/-- Replaces the elements from `start` up to and without `stop`. The list stays in its buffer if the
new elements fit. -/
def splice (self : Ref) (start stop : Nat) (values : Array Ref) : Exec Ref := do
  let id ← listBuffer self
  let (size, capacity) ← read fun world =>
    ((world.buffer id).cells.size, (world.buffer id).capacity)
  if size - (stop - start) + values.size ≤ capacity then
    modifyList self (spliced start stop values)
  else moveList self (← read fun world => (world.buffer id).map (spliced start stop values))

/-- Deletes the element at a position, which must still be there. -/
def deleteAt (self : Ref) (position : Nat) : Exec Ref := do
  if position < (← listElements self).size then splice self position (position + 1) #[]
  else throw .outside

/-! ### Items -/

/-- Stores values at positions of a buffer, one by one. -/
def storeEach (buffer : BufferId) (size : Nat) : List Int64 → List Ref → Exec Ref
  | position :: positions, value :: values => do
    if position < 0 || Int64.ofNat size ≤ position then throw .outside
    else
      modifyBuffer buffer (·.setIfInBounds position.toNatClampNeg value)
      storeEach buffer size positions values
  | _, _ => return noneRef

/-- Replaces what a slice selects. With a step of one the list may grow or shrink. Then the first
bound is resolved once more, since nothing may be selected. -/
def storeSlice (self : Ref) (size : Nat) (values : Array Ref) (bounds : Bounds)
    (selection : Selection) : Exec Ref := do
  if selection.step == 1 then
    let start := (← boundPosition bounds.start (Int64.ofNat size) 1 0).toNatClampNeg
    splice self start (start + selection.positions.length) values
  else if values.size != selection.positions.length then
    complain (.extendedSliceSize values.size selection.positions.length)
  else storeEach (← listBuffer self) size selection.positions values.toList

def listSetItem (machine : Machine) (self index value : Ref) : Exec Ref := do
  let size := (← listElements self).size
  match ← boundsOf? index with
  | none =>
    let position ← positionOf "list assignment" (Int64.ofNat size) index
    modifyList self (·.setIfInBounds position.toNatClampNeg value)
  | some bounds =>
    let values ← collect machine value
    let size := (← listElements self).size
    storeSlice self size values bounds (← select bounds size)

/-- The elements without those at some positions. -/
def withoutPositions (positions : List Int64) (elements : Array Ref) : Array Ref :=
  (elements.zipIdx.filter fun entry => !positions.contains (Int64.ofNat entry.2)).map Prod.fst

def listDelItem (self index : Ref) : Exec Ref := do
  let elements ← listElements self
  match ← boundsOf? index with
  | some bounds =>
    let selection ← select bounds elements.size
    moveList self (.oneByOne (withoutPositions selection.positions elements))
  | none =>
    let position ← positionOf "list assignment" (Int64.ofNat elements.size) index
    deleteAt self position.toNatClampNeg

/-! ### Methods -/

/-- Adds elements at the end. -/
def appendAll (self : Ref) (values : Array Ref) : Exec Ref := do
  let size := (← listElements self).size
  splice self size size values

def listAppend (self value : Ref) : Exec Ref :=
  appendAll self #[value]

def listExtend (machine : Machine) (self values : Ref) : Exec Ref := do
  discard (listBuffer self)
  appendAll self (← collect machine values)

/-- Inserts before a position; one outside of the list means its nearer end. -/
def listInsert (self index value : Ref) : Exec Ref := do
  let length := (← listElements self).size
  match ← indexOf? index with
  | none => complain (.notInteger (← typeName index))
  | some wanted =>
    let size := Int64.ofNat length
    let position := if wanted < 0 then wanted + size else wanted
    let start := if size < position then length else position.toNatClampNeg
    splice self start start #[value]

def listPop (self : Ref) (index : Option Ref) : Exec Ref := do
  let elements ← listElements self
  if elements.isEmpty then complain .popFromEmptyList
  else
    let position ← match index with
      | some index => positionOf "pop" (Int64.ofNat elements.size) index
      | none => pure (Int64.ofNat (elements.size - 1))
    match elementAt? elements position with
    | some element =>
      discard (deleteAt self position.toNatClampNeg)
      return element
    | none => throw .outside

/-- Deletes the first element that equals a value, at the position where it was found. -/
def listRemove (machine : Machine) (self value : Ref) : Exec Ref := do
  discard (listBuffer self)
  match ← find? machine self value with
  | some position => deleteAt self position
  | none => complain .removeMissing

def listClear (self : Ref) : Exec Ref := do
  discard (listBuffer self)
  moveList self (.exact #[])

def listCopy (self : Ref) : Exec Ref := do
  newListIn (.copied (← elementsOf self))

def listReverse (self : Ref) : Exec Ref :=
  modifyList self (·.reverse)

/-- The list is changed only if every comparison succeeds. -/
def listSort (machine : Machine) (self : Ref) (descending : Option Ref) : Exec Ref := do
  discard (listBuffer self)
  let descending ← match descending with
    | some flag => truthy machine flag
    | none => pure false
  moveList self (.copied (← sorted machine descending (← listElements self)))

/-! ### Conversions -/

/-- The elements of a list or tuple are copied at once, all others come one by one. -/
def convertList (machine : Machine) : List Ref → Exec Ref
  | [] => newList #[]
  | source :: _ => do
    match ← read (·.elements? source) with
    | some elements => newListIn (.copied elements)
    | none => newListIn (.oneByOne (← collect machine source))

end Offside.Library
