/-
This file sorts the elements of a list by the language's own comparison, which
is code of the program and may fail or write output; so the order of the
comparisons is part of what a sort does. How a comparison is asked for is left
open, so that it can be said of a sort which comparisons it asks for. Runs of
twenty elements are sorted by insertion, where an element is compared with its
left neighbour until it does not come before it. Then neighbouring runs are merged
until one is left, by dividing both at a place that is found by bisection; of two
equal elements the left one stays first, so the sort is stable.

A comparison asks whether the first element is less than the second, and, if it is
not, also whether the second is less than the first: the answer to the second
question changes nothing, but asking it can fail.
-/

import Offside.Eval.Protocol

namespace Offside.Library

open Exec

variable {m : Type → Type} [Monad m]

/-- The first element has to come before the second one. -/
def precedes (less : Ref → Ref → m Bool) (descending : Bool) (first second : Ref) : m Bool := do
  let (left, right) := if descending then (second, first) else (first, second)
  if ← less left right then return true
  else
    discard (less right left)
    return false

/-! ### Insertion -/

/-- Puts an element into a sorted run, which is given from its end. -/
def insertFromEnd (before : Ref → Ref → m Bool) (element : Ref) : List Ref → m (List Ref)
  | [] => return [element]
  | last :: rest => do
    if ← before element last then return last :: (← insertFromEnd before element rest)
    else return element :: last :: rest

/-- Inserts elements one after the other into a sorted run, which is given from its end. -/
def insertAll (before : Ref → Ref → m Bool) (sorted : List Ref) : List Ref → m (List Ref)
  | [] => return sorted.reverse
  | element :: rest => do insertAll before (← insertFromEnd before element sorted) rest

/-! ### Merging -/

/-- The least position from `low` up to `high` at which a test fails, if it fails from some position
on. The test is asked in the middle of what is left. -/
def bisect (test : Nat → m Bool) (low high : Nat) : m Nat := do
  if low < high then
    let middle := (low + high) / 2
    if ← test middle then bisect test (middle + 1) high else bisect test low middle
  else return low
termination_by high - low
decreasing_by all_goals omega

/-- The element at a position that is known to be there. -/
def runElement (elements : Array Ref) (position : Nat) : Ref :=
  elements.getD position vacantRef

/-- Merges two sorted runs. A single element is put before the first of the other run that does not
come before it, or after all that do not come after it. Longer runs are divided: the first half of
the result is merged from a beginning of each, and the rest from what remains of each. How much of
the left run goes into the first half is searched for along the line on which the beginnings
together have that length. -/
def mergeRuns (before : Ref → Ref → m Bool) (left right : Array Ref) : m (Array Ref) := do
  if left.size = 0 then return right
  else if right.size = 0 then return left
  else if left.size = 1 then
    let single := runElement left 0
    let place ← bisect (fun position => before (runElement right position) single) 0 right.size
    return right.extract 0 place ++ left ++ right.extract place right.size
  else if right.size = 1 then
    let single := runElement right 0
    let place ← bisect (fun position => do return !(← before single (runElement left position)))
      0 left.size
    return left.extract 0 place ++ right ++ left.extract place left.size
  else
    let both := left ++ right
    let half := both.size / 2
    let line := half + left.size
    let (low, high) :=
      if half < left.size then (line - both.size, half) else (0, left.size)
    let start ← bisect (fun position => do
      return !(← before (runElement both (line - 1 - position)) (runElement both position))) low high
    let first ← mergeRuns before (left.extract 0 start) (right.extract 0 (half - start))
    let rest ← mergeRuns before (left.extract start left.size)
      (right.extract (half - start) right.size)
    return first ++ rest
termination_by left.size + right.size
decreasing_by
  all_goals
    simp only [Array.size_extract, Array.size_append]
    omega

/-- Merges each run with the one after it. -/
def mergePairs (before : Ref → Ref → m Bool) : List (Array Ref) → m (List (Array Ref))
  | first :: second :: rest => do
    let merged ← mergeRuns before first second
    return merged :: (← mergePairs before rest)
  | runs => return runs

/-- Merges runs until one is left, for as many rounds as allowed. Each round halves the number of
runs. -/
def mergeRounds (before : Ref → Ref → m Bool) : Nat → List (Array Ref) → m (Array Ref)
  | 0, runs => return runs.foldl (· ++ ·) #[]
  | rounds + 1, runs => do
    match runs with
    | [] => return #[]
    | [run] => return run
    | _ => mergeRounds before rounds (← mergePairs before runs)

/-! ### Sorting -/

/-- How many elements are sorted by insertion at a time. -/
def runLength : Nat := 20

/-- Cuts a list into runs; the last one may be shorter. -/
def cutRuns : Nat → List Ref → List (List Ref)
  | 0, _ => []
  | _, [] => []
  | fuel + 1, elements =>
    elements.take runLength :: cutRuns fuel (elements.drop runLength)

/-- Sorts elements. -/
def sortBy (less : Ref → Ref → m Bool) (descending : Bool) (elements : Array Ref) :
    m (Array Ref) := do
  let before := precedes less descending
  let runs ← (cutRuns elements.size elements.toList).mapM fun run => do
    return (← insertAll before [] run).toArray
  mergeRounds before elements.size runs

/-- Sorts elements by the language's own comparison. -/
def sorted (machine : Machine) (descending : Bool) (elements : Array Ref) : Exec (Array Ref) :=
  sortBy (lessThan machine) descending elements

end Offside.Library
