/-
This file turns indices and slices into positions of a sequence. An index below
zero counts from the end and must hit an element. A slice never fails for being
too wide: its bounds are clamped to the sequence, and what it selects is found by
stepping from the first bound to the second.

Stepping is done in 64 bits and wraps. A step so large that it wraps can come
back into the range between the bounds at a position that is not one of the
sequence; such positions are kept in the selection, and it is left to its user
what they mean. Every second step of a wrapping walk moves at least two
positions down, so twice the length and a few more bound its length.
-/

import Offside.Eval.Protocol

namespace Offside.Library

open Exec

/-- The number that an object is as an index. A truth value counts as one or zero. -/
def indexValue? : Payload → Option Int64
  | .int value => some value
  | .bool value => some (if value then 1 else 0)
  | _ => none

def indexOf? (ref : Ref) : Exec (Option Int64) :=
  read fun world => indexValue? (world.payload ref)

/-- The position that an index means in a sequence of this length. -/
def positionOf (kind : String) (length : Int64) (index : Ref) : Exec Int64 := do
  match ← indexOf? index with
  | none => complain (.indexNotInteger kind (← typeName index))
  | some value =>
    let position := if value < 0 then value + length else value
    if position < 0 || length ≤ position then complain (.indexOutOfRange kind)
    else return position

/-! ### Slices -/

/-- The bounds of a slice, as objects. -/
structure Bounds where
  start : Ref
  stop : Ref
  step : Ref

/-- The bounds that an object holds, if it is a slice. -/
def boundsOf? (ref : Ref) : Exec (Option Bounds) :=
  read fun world => match world.payload ref with
    | .slice start stop step => some ⟨start, stop, step⟩
    | _ => none

/-- A bound, brought between the ends of the sequence. A walk downwards may start at the last
position and stop before the first. -/
def clampBound (length step value : Int64) : Int64 :=
  if value < 0 then
    if value + length < 0 then (if step < 0 then -1 else 0) else value + length
  else if length ≤ value then (if step < 0 then length - 1 else length)
  else value

/-- The position of a bound; one that is left out has its default. -/
def boundPosition (bound : Ref) (length step otherwise : Int64) : Exec Int64 := do
  match ← read (·.payload bound) with
  | .none => return otherwise
  | payload =>
    match indexValue? payload with
    | some value => return clampBound length step value
    | none => complain .boundNotInteger

/-- The distance between the positions that a slice selects. -/
def stepOf (bound : Ref) : Exec Int64 := do
  match ← read (·.payload bound) with
  | .none => return 1
  | payload =>
    match indexValue? payload with
    | none => complain .boundNotInteger
    | some value => if value == 0 then complain .stepZero else return value

/-- The positions from `start` up to and without `stop`. -/
def walk (stop step : Int64) : Nat → Int64 → List Int64
  | 0, _ => []
  | fuel + 1, position =>
    if (0 < step && position < stop) || (step < 0 && stop < position) then
      position :: walk stop step fuel (position + step)
    else []

/-- What a slice selects from a sequence. -/
structure Selection where
  start : Int64
  step : Int64
  positions : List Int64

/-- Resolves a slice against a sequence of this length. The step is looked at first. -/
def select (bounds : Bounds) (length : Nat) : Exec Selection := do
  let size := Int64.ofNat length
  let step ← stepOf bounds.step
  let start ← boundPosition bounds.start size step (if step < 0 then size - 1 else 0)
  let stop ← boundPosition bounds.stop size step (if step < 0 then -1 else size)
  return ⟨start, step, walk stop step (2 * length + 4) start⟩

/-- The element at a position. -/
def elementAt? {α : Type} (elements : Array α) (position : Int64) : Option α :=
  if position < 0 then none else elements[position.toNatClampNeg]?

/-- The selected elements, in the order of the selection. -/
def pick {α : Type} (elements : Array α) (positions : List Int64) : Exec (Array α) :=
  positions.foldlM (fun picked position =>
    match elementAt? elements position with
    | some element => return picked.push element
    | none => throw .outside) #[]

end Offside.Library
