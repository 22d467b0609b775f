/-
This file holds the methods of ranges and of slices as objects. A range is kept as
its bounds and its step; its numbers are computed when they are asked for, in
64 bits and with wrap-around, as is their count.
-/

import Offside.Library.Positions

namespace Offside.Library

open Exec

/-- The bounds and the step of a range. -/
structure Progression where
  start : Int64
  stop : Int64
  step : Int64
deriving DecidableEq

/-- How many numbers there are. -/
def Progression.length (range : Progression) : Int64 :=
  rangeLength range.start range.stop range.step

/-- The number at a position. -/
def Progression.number (range : Progression) (position : Int64) : Int64 :=
  range.start + position * range.step

/-- The number is one of the range: it lies a whole count of steps from the start. -/
def Progression.holds (range : Progression) (number : Int64) : Bool :=
  let offset := number - range.start
  let steps := offset / range.step
  offset % range.step == 0 && 0 ≤ steps && steps < range.length

/-- The range that an object is. -/
def progressionOf? (ref : Ref) : Exec (Option Progression) :=
  read fun world => match world.payload ref with
    | .range start stop step => some ⟨start, stop, step⟩
    | _ => none

/-- The range that an object is; other objects are refused. -/
def progressionOf (ref : Ref) : Exec Progression := do
  match ← progressionOf? ref with
  | some range => return range
  | none => complain (.wrongReceiver "range" (← typeName ref))

def rangeLen (self : Ref) : Exec Ref := do
  newInt (← progressionOf self).length

def rangeIter (self : Ref) : Exec Ref := do
  let range ← progressionOf self
  newIterator (.numbers range.start range.stop range.step 0)

/-- Only integers are looked for; a truth value is none. -/
def rangeContains (self number : Ref) : Exec Ref := do
  let range ← progressionOf self
  match ← read (·.payload number) with
  | .int value => return truthRef (range.holds value)
  | _ => return falseRef

def rangeGetItem (self index : Ref) : Exec Ref := do
  let range ← progressionOf self
  newInt (range.number (← positionOf "range object" range.length index))

/-- Ranges are equal if their bounds and steps are. -/
def rangeEq (self other : Ref) : Exec Ref := do
  match ← progressionOf? self, ← progressionOf? other with
  | some left, some right => return truthRef (left == right)
  | _, _ => return falseRef

def rangeRepr (self : Ref) : Exec Ref := do
  let range ← progressionOf self
  let numbers := [range.start, range.stop] ++ if range.step == 1 then [] else [range.step]
  newStr ("range(" ++ World.commaJoined (numbers.map Number.integerText) ++ ")")

/-- The integers that objects are; the first that is none is refused. -/
def integersOf (found : List Int64) : List Ref → Exec (List Int64)
  | [] => return found.reverse
  | ref :: rest => do
    match ← indexOf? ref with
    | some value => integersOf (value :: found) rest
    | none => complain (.notInteger (← typeName ref))

/-- A range from its stop, from start and stop, or from start, stop and step. -/
def convertRange (arguments : List Ref) : Exec Ref := do
  let range : Progression := match ← integersOf [] arguments with
    | [stop] => ⟨0, stop, 1⟩
    | [start, stop] => ⟨start, stop, 1⟩
    | start :: stop :: step :: _ => ⟨start, stop, step⟩
    | [] => ⟨0, 0, 1⟩
  if range.step == 0 then complain .rangeStepZero
  else newValue .range (.range range.start range.stop range.step)

/-! ### Slices as objects -/

def sliceRepr (machine : Machine) (self : Ref) : Exec Ref := do
  match ← boundsOf? self with
  | none => newStr "slice(?)"
  | some bounds =>
    let texts ← reprAll machine [bounds.start, bounds.stop, bounds.step]
    newStr ("slice(" ++ World.commaJoined texts ++ ")")

/-- A slice from its stop, from start and stop, or from start, stop and step. -/
def convertSlice : List Ref → Exec Ref
  | [stop] => newSlice noneRef stop noneRef
  | [start, stop] => newSlice start stop noneRef
  | start :: stop :: step :: _ => newSlice start stop step
  | [] => newSlice noneRef noneRef noneRef

end Offside.Library
