/-
This file holds the buffers in which lists keep their elements. A buffer has a
fixed number of cells, its capacity; the cells of the list's elements come first
and the rest are vacant, room for the list to grow. A list that outgrows its
buffer moves to a larger one and leaves the old one behind as it was, so whoever
is still going through the old buffer sees nothing of what the list does later.
Whether a change happens in place is therefore part of what a program can see,
and so is the capacity of every buffer.

A list that has to move asks for twice the capacity while it is small, and for a
quarter more once it is large, unless it needs more than that at once. What it
gets is rounded up to one of the sizes in which storage is handed out. The laws
say that it never gets less than it needs.
-/

import Offside.Value.Namespace

namespace Offside

/-- A buffer in its place. -/
structure BufferId where
  index : Nat
deriving Repr, DecidableEq, Inhabited

/-- What a vacant cell holds: an object that no operation accepts. -/
def vacantRef : Ref := ⟨28⟩

/-! ### Storage -/

/-- The sizes of small pieces of storage, in cells. -/
def storageSizes : List Nat :=
  [1, 2, 3, 4, 6, 8, 10, 12, 14, 16, 18, 20, 22, 24, 26, 28, 30, 32, 36, 40, 44, 48, 52, 56, 60,
    64, 72, 80, 88, 96, 112, 128, 144, 160, 176, 192, 224, 256, 288, 336, 384, 400, 432, 512, 608,
    640, 672, 768, 816, 848, 864, 1024, 1184, 1216, 1280, 1360, 1536, 1696, 1792, 2048, 2304, 2384,
    2560, 2720, 3072, 3408, 3584, 4096]

/-- The least size of a small piece of storage with room for some cells. -/
def smallStorage (cells : Nat) : Nat :=
  (storageSizes.find? (cells ≤ ·)).getD cells

theorem le_smallStorage (cells : Nat) : cells ≤ smallStorage cells := by
  unfold smallStorage
  cases found : storageSizes.find? (cells ≤ ·) with
  | none => exact Nat.le_refl cells
  | some size => simpa using List.find?_some found

/-- The most cells of a piece of storage that needs no cell for its description. -/
def plainStorage : Nat := 64

/-- The size of a page. Large pieces of storage are whole pages. -/
def pageCells : Nat := 1024

/-- How many cells one gets who asks for some. A piece of storage that is neither very small nor
large keeps one cell for its own description. -/
def storageFor (cells : Nat) : Nat :=
  if cells ≤ plainStorage then smallStorage cells
  else if cells < 4 * pageCells then smallStorage (cells + 1) - 1
  else (cells + (pageCells - 1)) / pageCells * pageCells

theorem le_storageFor (cells : Nat) : cells ≤ storageFor cells := by
  unfold storageFor
  split
  · exact le_smallStorage cells
  · split
    · have room := le_smallStorage (cells + 1)
      omega
    · simp only [pageCells]
      omega

/-! ### Growing -/

/-- A capacity that is a quarter and a little larger, as often as needed. -/
def stretched (needed capacity : Nat) : Nat :=
  if capacity < needed then stretched needed (capacity + (capacity + 768) / 4) else capacity
termination_by needed - capacity
decreasing_by omega

theorem le_stretched (needed capacity : Nat) : needed ≤ stretched needed capacity := by
  fun_induction stretched needed capacity with
  | case1 capacity _ inductionHypothesis => exact inductionHypothesis
  | case2 capacity enough => omega

/-- The capacity below which a buffer doubles. -/
def doublingLimit : Nat := 256

/-- The capacity to which a list moves that needs more than it has. -/
def grownCapacity (capacity needed : Nat) : Nat :=
  storageFor
    (if 2 * capacity < needed then needed
      else if capacity < doublingLimit then 2 * capacity
      else stretched needed capacity)

theorem le_grownCapacity (capacity needed : Nat) : needed ≤ grownCapacity capacity needed := by
  refine Nat.le_trans ?_ (le_storageFor _)
  split
  · exact Nat.le_refl needed
  · split
    · omega
    · exact le_stretched needed capacity

/-- The capacity of a list that started with some and took its elements one by one. -/
def capacityOneByOne (needed capacity : Nat) : Nat :=
  if capacity < needed then capacityOneByOne needed (grownCapacity capacity (capacity + 1))
  else capacity
termination_by needed - capacity
decreasing_by
  have larger := le_grownCapacity capacity (capacity + 1)
  omega

theorem le_capacityOneByOne (needed capacity : Nat) :
    needed ≤ capacityOneByOne needed capacity := by
  fun_induction capacityOneByOne needed capacity with
  | case1 capacity _ inductionHypothesis => exact inductionHypothesis
  | case2 capacity enough => omega

/-! ### Buffers -/

/-- The cells in use, and how many there are in all. -/
structure Buffer where
  cells : Array Ref
  capacity : Nat
  fits : cells.size ≤ capacity

namespace Buffer

/-- Exactly the cells in use. -/
def exact (cells : Array Ref) : Buffer :=
  ⟨cells, cells.size, Nat.le_refl _⟩

instance : Inhabited Buffer := ⟨exact #[]⟩

/-- Cells in a buffer of some capacity, or in a larger one if they do not fit. -/
def holding (capacity : Nat) (cells : Array Ref) : Buffer :=
  if fits : cells.size ≤ capacity then ⟨cells, capacity, fits⟩
  else ⟨cells, grownCapacity capacity cells.size, le_grownCapacity _ _⟩

/-- Cells that were copied at once. -/
def copied (cells : Array Ref) : Buffer :=
  holding 0 cells

/-- Cells that came one by one. -/
def oneByOne (cells : Array Ref) : Buffer :=
  ⟨cells, capacityOneByOne cells.size 0, le_capacityOneByOne _ _⟩

/-- The buffer with its cells changed. -/
def map (step : Array Ref → Array Ref) : Buffer → Buffer
  | ⟨cells, capacity, _⟩ => holding capacity (step cells)

/-- What a cell holds. -/
def cell (buffer : Buffer) (position : Nat) : Ref :=
  buffer.cells.getD position vacantRef

@[simp] theorem cells_holding (capacity : Nat) (cells : Array Ref) :
    (holding capacity cells).cells = cells := by
  unfold holding
  split <;> rfl

@[simp] theorem cells_map (step : Array Ref → Array Ref) (buffer : Buffer) :
    (buffer.map step).cells = step buffer.cells :=
  cells_holding _ _

end Buffer

/-- Cells with those from `start` up to and without `stop` replaced. At the end nothing has to be
moved. -/
def spliced (start stop : Nat) (values cells : Array Ref) : Array Ref :=
  if cells.size ≤ stop then cells.shrink start ++ values
  else cells.extract 0 start ++ values ++ cells.extract stop cells.size

end Offside
