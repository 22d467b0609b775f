/-
This file says what an operation goes through when it takes the elements of a list
or tuple one by one and runs code of the program in between. That code can change
the list. A span fixes at the start which buffer is gone through and how far, and
each element is read when its turn comes: a change that the list makes in that
buffer is seen, and one for which the list moves to another buffer is not. If the
list shrinks in its buffer, the cells that it gave up are vacant.

The elements of a tuple never change, so its span is just them.
-/

import Offside.Value.World

namespace Offside

/-- What is gone through, element by element. -/
inductive Span where
  | fixed (elements : Array Ref)
  /-- The first cells of a buffer. -/
  | cells (buffer : BufferId) (size : Nat)

/-- How many elements are gone through. -/
def Span.size : Span → Nat
  | .fixed elements => elements.size
  | .cells _ size => size

namespace World

/-- The element whose turn it is. -/
def spanElement (world : World) (span : Span) (position : Nat) : Ref :=
  match span with
  | .fixed elements => elements.getD position vacantRef
  | .cells buffer _ => (world.buffer buffer).cell position

/-- The elements of a list or tuple from here on. -/
def span? (world : World) (ref : Ref) : Option Span :=
  match world.payload ref with
  | .list buffer => some (.cells buffer (world.buffer buffer).cells.size)
  | .tuple elements => some (.fixed elements)
  | _ => none

/-- Until something changes, a span shows the elements as they are. -/
theorem spanElement_of_span? {world : World} {ref : Ref} {span : Span}
    (found : world.span? ref = some span) (position : Nat) :
    world.spanElement span position = (world.elements ref).getD position vacantRef := by
  unfold span? at found
  split at found
  next buffer held =>
    cases found
    simp [elements, elements?, held, spanElement, Buffer.cell]
  next elements held =>
    cases found
    simp [World.elements, elements?, held, spanElement]
  next => cases found

end World

namespace Exec

/-- What there is to go through; an object without elements has an empty span. -/
def spanOf (ref : Ref) : Exec Span :=
  read fun world => (world.span? ref).getD (.fixed #[])

/-- The element whose turn it is. -/
def elementOf (span : Span) (position : Nat) : Exec Ref :=
  read (·.spanElement span position)

end Exec

end Offside
