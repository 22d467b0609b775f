/-
This file goes through the functions and methods that are not written in the language
and shows that each keeps to every conduct. None of them can break a rule of its own:
they change payloads, make new objects, raise exceptions, and otherwise call back into
the program, which keeps to the conduct by assumption. Those that go through elements
one by one are done by induction on what is left to go through.
-/

import Offside.Library.Conversions
import Offside.Proofs.Conduct.Basic

open Std.Do

set_option mvcgen.warning false

namespace Offside

namespace Conduct

open Exec Library

variable {machine : Machine} (conduct : Conduct machine)

/-! ### Going through lists -/

theorem obeys_bind {α β : Type} (first : Exec α) (next : α → Exec β) (obeys : conduct.Obeys first)
    (nextObeys : ∀ value, conduct.Obeys (next value)) : conduct.Obeys (first >>= next) := by
  mvcgen [obeys, nextObeys]

theorem obeys_forM {α : Type} (step : α → Exec PUnit) (elements : List α)
    (obeys : ∀ element, conduct.Obeys (step element)) : conduct.Obeys (elements.forM step) := by
  induction elements with
  | nil => exact fun _ holds => holds
  | cons element rest inductionHypothesis =>
    exact conduct.obeys_bind _ _ (obeys element) fun _ => inductionHypothesis

theorem obeys_mapM {α β : Type} (step : α → Exec β) (elements : List α)
    (obeys : ∀ element, conduct.Obeys (step element)) : conduct.Obeys (elements.mapM step) := by
  induction elements with
  | nil => mvcgen [List.mapM_nil]
  | cons element rest inductionHypothesis => mvcgen [List.mapM_cons, obeys, inductionHypothesis]

theorem obeys_foldlM {α β : Type} (step : β → α → Exec β) (start : β) (elements : List α)
    (obeys : ∀ found element, conduct.Obeys (step found element)) :
    conduct.Obeys (elements.foldlM step start) := by
  induction elements generalizing start with
  | nil => exact fun _ holds => holds
  | cons element rest inductionHypothesis =>
    exact conduct.obeys_bind _ _ (obeys start element) inductionHypothesis

theorem obeys_arrayForM {α : Type} (step : α → Exec PUnit) (elements : Array α)
    (obeys : ∀ element, conduct.Obeys (step element)) : conduct.Obeys (elements.forM step) := by
  unfold Array.forM
  rw [← Array.foldlM_toList]
  exact conduct.obeys_foldlM _ _ _ fun _ => obeys

theorem obeys_arrayMapM {α β : Type} (step : α → Exec β) (elements : Array α)
    (obeys : ∀ element, conduct.Obeys (step element)) : conduct.Obeys (elements.mapM step) := by
  have listObeys := conduct.obeys_mapM step elements.toList obeys
  rw [Array.mapM_eq_mapM_toList]
  mvcgen [listObeys]

/-- Nothing is broken where a step ends at a position that no check forbids. -/
theorem outside_allowed {world : World} (holds : conduct.holds world) :
    conduct.allows .outside world :=
  conduct.fatal holds rfl

/-! ### Numbers -/

@[spec]
theorem obeys_numericOf? (ref : Ref) : conduct.Obeys (numericOf? ref) :=
  fun _ holds => holds

@[spec]
theorem obeys_integerResult (operator : String) (result : Option Int64) :
    conduct.Obeys (integerResult operator result) := by
  mvcgen [integerResult]

theorem obeys_numericOperator (operator : String) (self other : Ref)
    (apply : Numeric → Numeric → Exec Ref)
    (obeys : ∀ left right, conduct.Obeys (apply left right)) :
    conduct.Obeys (numericOperator operator self other apply) := by
  mvcgen [numericOperator, obeys]

@[spec]
theorem obeys_numberAdd (self other : Ref) : conduct.Obeys (numberAdd self other) := by
  refine conduct.obeys_numericOperator _ _ _ _ fun left right => ?_
  cases left <;> cases right <;> mvcgen

@[spec]
theorem obeys_numberMul (self other : Ref) : conduct.Obeys (numberMul machine self other) := by
  mvcgen [numberMul]

@[spec]
theorem obeys_numberTrueDiv (self other : Ref) : conduct.Obeys (numberTrueDiv self other) := by
  refine conduct.obeys_numericOperator _ _ _ _ fun left right => ?_
  mvcgen

@[spec]
theorem obeys_numberMod (self other : Ref) : conduct.Obeys (numberMod self other) := by
  refine conduct.obeys_numericOperator _ _ _ _ fun left right => ?_
  mvcgen

@[spec]
theorem obeys_floatPow (left right : Numeric) : conduct.Obeys (floatPow left right) := by
  mvcgen [floatPow]

@[spec]
theorem obeys_numberPow (self other : Ref) : conduct.Obeys (numberPow self other) := by
  refine conduct.obeys_numericOperator _ _ _ _ fun left right => ?_
  cases left <;> cases right <;> mvcgen

@[spec]
theorem obeys_numberEq (self other : Ref) : conduct.Obeys (numberEq self other) := by
  mvcgen [numberEq]

@[spec]
theorem obeys_numberCompare (order : Comparison) (self other : Ref) :
    conduct.Obeys (numberCompare order self other) := by
  refine conduct.obeys_numericOperator _ _ _ _ fun left right => ?_
  cases left <;> cases right <;> mvcgen

theorem obeys_numericUnary (self : Ref) (apply : Numeric → Exec Ref)
    (obeys : ∀ value, conduct.Obeys (apply value)) : conduct.Obeys (numericUnary self apply) := by
  mvcgen [numericUnary, obeys]

@[spec]
theorem obeys_numberNeg (self : Ref) : conduct.Obeys (numberNeg self) := by
  refine conduct.obeys_numericUnary _ _ fun value => ?_
  cases value <;> mvcgen

@[spec]
theorem obeys_numberBool (self : Ref) : conduct.Obeys (numberBool self) := by
  refine conduct.obeys_numericUnary _ _ fun value => ?_
  cases value <;> mvcgen

@[spec]
theorem obeys_numberInt (self : Ref) : conduct.Obeys (numberInt self) := by
  refine conduct.obeys_numericUnary _ _ fun value => ?_
  cases value <;> mvcgen

@[spec]
theorem obeys_numberFloat (self : Ref) : conduct.Obeys (numberFloat self) := by
  refine conduct.obeys_numericUnary _ _ fun value => ?_
  mvcgen

@[spec]
theorem obeys_numberHash (self : Ref) : conduct.Obeys (numberHash self) := by
  refine conduct.obeys_numericUnary _ _ fun value => ?_
  mvcgen

@[spec]
theorem obeys_numberRepr (self : Ref) : conduct.Obeys (numberRepr self) := by
  refine conduct.obeys_numericUnary _ _ fun value => ?_
  cases value <;> mvcgen

@[spec]
theorem obeys_boolRepr (self : Ref) : conduct.Obeys (boolRepr self) := by
  mvcgen [boolRepr]

@[spec]
theorem obeys_boolBool (self : Ref) : conduct.Obeys (boolBool self) := by
  mvcgen [boolBool]

@[spec]
theorem obeys_convertInt (arguments : List Ref) : conduct.Obeys (convertInt machine arguments) := by
  mvcgen [convertInt]

@[spec]
theorem obeys_convertFloat (arguments : List Ref) :
    conduct.Obeys (convertFloat machine arguments) := by
  mvcgen [convertFloat]

@[spec]
theorem obeys_convertBool (arguments : List Ref) :
    conduct.Obeys (convertBool machine arguments) := by
  mvcgen [convertBool]

/-! ### Positions -/

@[spec]
theorem obeys_indexOf? (ref : Ref) : conduct.Obeys (indexOf? ref) :=
  fun _ holds => holds

@[spec]
theorem obeys_boundsOf? (ref : Ref) : conduct.Obeys (boundsOf? ref) :=
  fun _ holds => holds

@[spec]
theorem obeys_positionOf (kind : String) (length : Int64) (index : Ref) :
    conduct.Obeys (positionOf kind length index) := by
  mvcgen [positionOf]

@[spec]
theorem obeys_boundPosition (bound : Ref) (length step otherwise : Int64) :
    conduct.Obeys (boundPosition bound length step otherwise) := by
  mvcgen [boundPosition]

@[spec]
theorem obeys_stepOf (bound : Ref) : conduct.Obeys (stepOf bound) := by
  mvcgen [stepOf]

@[spec]
theorem obeys_select (bounds : Bounds) (length : Nat) : conduct.Obeys (select bounds length) := by
  mvcgen [select]

@[spec]
theorem obeys_pick {α : Type} (elements : Array α) (positions : List Int64) :
    conduct.Obeys (pick elements positions) := by
  refine conduct.obeys_foldlM _ _ _ fun picked position => ?_
  mvcgen
  exact conduct.outside_allowed ‹_›

/-! ### Ranges and slices -/

@[spec]
theorem obeys_progressionOf? (ref : Ref) : conduct.Obeys (progressionOf? ref) :=
  fun _ holds => holds

@[spec]
theorem obeys_progressionOf (ref : Ref) : conduct.Obeys (progressionOf ref) := by
  mvcgen [progressionOf]

@[spec]
theorem obeys_rangeLen (self : Ref) : conduct.Obeys (rangeLen self) := by
  mvcgen [rangeLen]

@[spec]
theorem obeys_rangeIter (self : Ref) : conduct.Obeys (rangeIter self) := by
  mvcgen [rangeIter]

@[spec]
theorem obeys_rangeContains (self number : Ref) : conduct.Obeys (rangeContains self number) := by
  mvcgen [rangeContains]

@[spec]
theorem obeys_rangeGetItem (self index : Ref) : conduct.Obeys (rangeGetItem self index) := by
  mvcgen [rangeGetItem]

@[spec]
theorem obeys_rangeEq (self other : Ref) : conduct.Obeys (rangeEq self other) := by
  mvcgen [rangeEq]

@[spec]
theorem obeys_rangeRepr (self : Ref) : conduct.Obeys (rangeRepr self) := by
  mvcgen [rangeRepr]

@[spec]
theorem obeys_integersOf (found : List Int64) (refs : List Ref) :
    conduct.Obeys (integersOf found refs) := by
  induction refs generalizing found with
  | nil => mvcgen [integersOf]
  | cons ref rest inductionHypothesis => mvcgen [integersOf, inductionHypothesis]

@[spec]
theorem obeys_convertRange (arguments : List Ref) : conduct.Obeys (convertRange arguments) := by
  mvcgen [convertRange]

@[spec]
theorem obeys_sliceRepr (self : Ref) : conduct.Obeys (sliceRepr machine self) := by
  mvcgen [sliceRepr]

@[spec]
theorem obeys_convertSlice (arguments : List Ref) : conduct.Obeys (convertSlice arguments) := by
  mvcgen [convertSlice]

/-! ### Sequences -/

@[spec]
theorem obeys_elementsOf (ref : Ref) : conduct.Obeys (elementsOf ref) :=
  fun _ holds => holds

@[spec]
theorem obeys_peerElements? (self other : Ref) : conduct.Obeys (peerElements? self other) :=
  fun _ holds => holds

@[spec]
theorem obeys_peerSpan? (self other : Ref) : conduct.Obeys (peerSpan? self other) :=
  fun _ holds => holds

@[spec]
theorem obeys_newSequence (like : Ref) (buffer : Buffer) :
    conduct.Obeys (newSequence like buffer) := by
  mvcgen [newSequence]

@[spec]
theorem obeys_sequenceLength (self : Ref) : conduct.Obeys (sequenceLength self) := by
  mvcgen [sequenceLength]

@[spec]
theorem obeys_firstEqual? (span : Span) (value : Ref) (count position : Nat) :
    conduct.Obeys (firstEqual? machine span value count position) := by
  induction count generalizing position with
  | zero => mvcgen [firstEqual?]
  | succ count inductionHypothesis => mvcgen [firstEqual?, inductionHypothesis]

@[spec]
theorem obeys_countEqual (span : Span) (value : Ref) (found count position : Nat) :
    conduct.Obeys (countEqual machine span value found count position) := by
  induction count generalizing found position with
  | zero => mvcgen [countEqual]
  | succ count inductionHypothesis => mvcgen [countEqual, inductionHypothesis]

@[spec]
theorem obeys_find? (self value : Ref) : conduct.Obeys (find? machine self value) := by
  mvcgen [find?]

@[spec]
theorem obeys_sequenceContains (self value : Ref) :
    conduct.Obeys (sequenceContains machine self value) := by
  mvcgen [sequenceContains]

@[spec]
theorem obeys_sequenceIndex (self value : Ref) :
    conduct.Obeys (sequenceIndex machine self value) := by
  mvcgen [sequenceIndex]

@[spec]
theorem obeys_sequenceCount (self value : Ref) :
    conduct.Obeys (sequenceCount machine self value) := by
  mvcgen [sequenceCount]

@[spec]
theorem obeys_allEqual (left right : Span) (count position : Nat) :
    conduct.Obeys (allEqual machine left right count position) := by
  induction count generalizing position with
  | zero => mvcgen [allEqual]
  | succ count inductionHypothesis => mvcgen [allEqual, inductionHypothesis]

@[spec]
theorem obeys_sequenceEq (self other : Ref) : conduct.Obeys (sequenceEq machine self other) := by
  mvcgen [sequenceEq]

@[spec]
theorem obeys_lexicographic (order : Comparison) (left right : Span) (count position : Nat) :
    conduct.Obeys (lexicographic machine order left right count position) := by
  induction count generalizing position with
  | zero => mvcgen [lexicographic]
  | succ count inductionHypothesis => mvcgen [lexicographic, inductionHypothesis]

@[spec]
theorem obeys_sequenceCompare (order : Comparison) (self other : Ref) :
    conduct.Obeys (sequenceCompare machine order self other) := by
  mvcgen [sequenceCompare]

@[spec]
theorem obeys_sequenceIter (self : Ref) : conduct.Obeys (sequenceIter self) :=
  conduct.obeys_newIterator _

@[spec]
theorem obeys_sequenceGetItem (kind : String) (self index : Ref) :
    conduct.Obeys (sequenceGetItem kind self index) := by
  mvcgen [sequenceGetItem]
  exact conduct.outside_allowed ‹_›

@[spec]
theorem obeys_sequenceAdd (kind : String) (self other : Ref) :
    conduct.Obeys (sequenceAdd kind self other) := by
  mvcgen [sequenceAdd]

@[spec]
theorem obeys_repeatCount (count : Ref) : conduct.Obeys (repeatCount count) := by
  mvcgen [repeatCount]

@[spec]
theorem obeys_checkRepetition (size count : Nat) :
    conduct.Obeys (checkRepetition size count) := by
  mvcgen [checkRepetition]
  exact conduct.outside_allowed ‹_›

@[spec]
theorem obeys_sequenceMul (self count : Ref) : conduct.Obeys (sequenceMul self count) := by
  mvcgen [sequenceMul]

@[spec]
theorem obeys_listRepr (self : Ref) : conduct.Obeys (listRepr machine self) := by
  mvcgen [listRepr]

@[spec]
theorem obeys_tupleRepr (self : Ref) : conduct.Obeys (tupleRepr machine self) := by
  mvcgen [tupleRepr]

@[spec]
theorem obeys_tupleHash (self : Ref) : conduct.Obeys (tupleHash self) := by
  have obeys (elements : Array Ref) : conduct.Obeys (elements.forM checkHashable) :=
    conduct.obeys_arrayForM _ _ conduct.obeys_checkHashable
  mvcgen [tupleHash, obeys]

@[spec]
theorem obeys_convertTuple (arguments : List Ref) :
    conduct.Obeys (convertTuple machine arguments) := by
  mvcgen [convertTuple]

/-! ### Sorting -/

@[spec]
theorem obeys_precedes (descending : Bool) (first second : Ref) :
    conduct.Obeys (precedes (lessThan machine) descending first second) := by
  mvcgen [precedes]

section Sorting

variable {before : Ref → Ref → Exec Bool} (obeys : ∀ first second, conduct.Obeys (before first second))

include obeys

theorem obeys_insertFromEnd (element : Ref) (sorted : List Ref) :
    conduct.Obeys (insertFromEnd before element sorted) := by
  induction sorted with
  | nil => mvcgen [insertFromEnd]
  | cons last rest inductionHypothesis => mvcgen [insertFromEnd, obeys, inductionHypothesis]

theorem obeys_insertAll (sorted elements : List Ref) :
    conduct.Obeys (insertAll before sorted elements) := by
  have insertObeys := conduct.obeys_insertFromEnd obeys
  induction elements generalizing sorted with
  | nil => mvcgen [insertAll]
  | cons element rest inductionHypothesis => mvcgen [insertAll, insertObeys, inductionHypothesis]

omit obeys in
theorem obeys_bisect (test : Nat → Exec Bool) (obeys : ∀ position, conduct.Obeys (test position))
    (low high : Nat) : conduct.Obeys (bisect test low high) := by
  induction low, high using bisect.induct with
  | case1 low high less middle upper lower =>
    rw [bisect, if_pos less]
    mvcgen [obeys, upper, lower]
  | case2 low high notLess =>
    rw [bisect, if_neg notLess]
    exact fun _ holds => holds

theorem obeys_mergeRuns (left right : Array Ref) : conduct.Obeys (mergeRuns before left right) := by
  induction left, right using mergeRuns.induct with
  | case1 left right leftEmpty =>
    rw [mergeRuns, if_pos leftEmpty]
    exact fun _ holds => holds
  | case2 left right leftSome rightEmpty =>
    rw [mergeRuns, if_neg leftSome, if_pos rightEmpty]
    exact fun _ holds => holds
  | case3 left right leftSome rightSome single =>
    rw [mergeRuns, if_neg leftSome, if_neg rightSome, if_pos single]
    refine conduct.obeys_bind _ _ (conduct.obeys_bisect _ (fun _ => obeys _ _) _ _) fun _ => ?_
    exact fun _ holds => holds
  | case4 left right leftSome rightSome several single =>
    rw [mergeRuns, if_neg leftSome, if_neg rightSome, if_neg several, if_pos single]
    refine conduct.obeys_bind _ _ (conduct.obeys_bisect _ (fun _ => ?_) _ _) fun _ => ?_
    · mvcgen [obeys]
    · exact fun _ holds => holds
  | case5 left right leftSome rightSome leftSeveral rightSeveral both half line low high bounds
      firstHalf secondHalf =>
    rw [mergeRuns, if_neg leftSome, if_neg rightSome, if_neg leftSeveral, if_neg rightSeveral]
    simp only [← dite_eq_ite]
    rw [bounds]
    refine conduct.obeys_bind _ _ (conduct.obeys_bisect _ (fun _ => ?_) _ _) fun start => ?_
    · mvcgen [obeys]
    · mvcgen [firstHalf, secondHalf]

theorem obeys_mergePairs (runs : List (Array Ref)) : conduct.Obeys (mergePairs before runs) := by
  have mergeObeys := conduct.obeys_mergeRuns obeys
  induction runs using mergePairs.induct with
  | case1 first second rest inductionHypothesis => mvcgen [mergePairs, mergeObeys, inductionHypothesis]
  | case2 runs few =>
    rw [mergePairs]
    · exact fun _ holds => holds
    · exact few

theorem obeys_mergeRounds (rounds : Nat) (runs : List (Array Ref)) :
    conduct.Obeys (mergeRounds before rounds runs) := by
  have mergeObeys := conduct.obeys_mergePairs obeys
  induction rounds generalizing runs with
  | zero => mvcgen [mergeRounds]
  | succ rounds inductionHypothesis => mvcgen [mergeRounds, mergeObeys, inductionHypothesis]

end Sorting

@[spec]
theorem obeys_sorted (descending : Bool) (elements : Array Ref) :
    conduct.Obeys (sorted machine descending elements) := by
  have precedesObeys := conduct.obeys_precedes descending
  have insertObeys := conduct.obeys_insertAll precedesObeys
  have roundsObeys := conduct.obeys_mergeRounds precedesObeys
  refine conduct.obeys_bind _ _ (conduct.obeys_mapM _ _ fun run => ?_) fun runs => ?_
  · mvcgen [insertObeys]
  · exact roundsObeys _ _

/-! ### Lists -/

@[spec]
theorem obeys_listBuffer (self : Ref) : conduct.Obeys (listBuffer self) := by
  mvcgen [listBuffer]

@[spec]
theorem obeys_listElements (self : Ref) : conduct.Obeys (listElements self) := by
  mvcgen [listElements]

@[spec]
theorem obeys_moveList (self : Ref) (buffer : Buffer) : conduct.Obeys (moveList self buffer) := by
  mvcgen [moveList]

@[spec]
theorem obeys_modifyList (self : Ref) (step : Array Ref → Array Ref) :
    conduct.Obeys (modifyList self step) := by
  mvcgen [modifyList]

@[spec]
theorem obeys_splice (self : Ref) (start stop : Nat) (values : Array Ref) :
    conduct.Obeys (splice self start stop values) := by
  mvcgen [splice]

@[spec]
theorem obeys_deleteAt (self : Ref) (position : Nat) : conduct.Obeys (deleteAt self position) := by
  mvcgen [deleteAt]
  exact conduct.outside_allowed ‹_›

@[spec]
theorem obeys_storeEach (buffer : BufferId) (size : Nat) (positions : List Int64)
    (values : List Ref) : conduct.Obeys (storeEach buffer size positions values) := by
  induction positions generalizing values with
  | nil => mvcgen [storeEach]
  | cons position rest inductionHypothesis =>
    cases values with
    | nil => mvcgen [storeEach]
    | cons value values =>
      mvcgen [storeEach, inductionHypothesis]
      exact conduct.outside_allowed ‹_›

@[spec]
theorem obeys_storeSlice (self : Ref) (size : Nat) (values : Array Ref) (bounds : Bounds)
    (selection : Selection) : conduct.Obeys (storeSlice self size values bounds selection) := by
  mvcgen [storeSlice]

@[spec]
theorem obeys_listSetItem (self index value : Ref) :
    conduct.Obeys (listSetItem machine self index value) := by
  mvcgen [listSetItem]

@[spec]
theorem obeys_listDelItem (self index : Ref) : conduct.Obeys (listDelItem self index) := by
  mvcgen [listDelItem]

@[spec]
theorem obeys_appendAll (self : Ref) (values : Array Ref) :
    conduct.Obeys (appendAll self values) := by
  mvcgen [appendAll]

@[spec]
theorem obeys_listAppend (self value : Ref) : conduct.Obeys (listAppend self value) :=
  conduct.obeys_appendAll _ _

@[spec]
theorem obeys_listExtend (self values : Ref) : conduct.Obeys (listExtend machine self values) := by
  mvcgen [listExtend]

@[spec]
theorem obeys_listInsert (self index value : Ref) :
    conduct.Obeys (listInsert self index value) := by
  mvcgen [listInsert]

@[spec]
theorem obeys_listPop (self : Ref) (index : Option Ref) : conduct.Obeys (listPop self index) := by
  mvcgen [listPop]
  all_goals exact conduct.outside_allowed ‹_›

@[spec]
theorem obeys_listRemove (self value : Ref) : conduct.Obeys (listRemove machine self value) := by
  mvcgen [listRemove]

@[spec]
theorem obeys_listClear (self : Ref) : conduct.Obeys (listClear self) := by
  mvcgen [listClear]

@[spec]
theorem obeys_listCopy (self : Ref) : conduct.Obeys (listCopy self) := by
  mvcgen [listCopy]

@[spec]
theorem obeys_listReverse (self : Ref) : conduct.Obeys (listReverse self) :=
  conduct.obeys_modifyList _ _

@[spec]
theorem obeys_listSort (self : Ref) (descending : Option Ref) :
    conduct.Obeys (listSort machine self descending) := by
  mvcgen [listSort]

@[spec]
theorem obeys_convertList (arguments : List Ref) :
    conduct.Obeys (convertList machine arguments) := by
  mvcgen [convertList]

/-! ### Texts -/

@[spec]
theorem obeys_textOf? (ref : Ref) : conduct.Obeys (textOf? ref) :=
  fun _ holds => holds

@[spec]
theorem obeys_textOf (ref : Ref) : conduct.Obeys (textOf ref) := by
  mvcgen [textOf]

@[spec]
theorem obeys_textOrEmpty (ref : Ref) : conduct.Obeys (textOrEmpty ref) := by
  mvcgen [textOrEmpty]

@[spec]
theorem obeys_newText (characters : List Char) : conduct.Obeys (newText characters) :=
  conduct.obeys_newStr _

@[spec]
theorem obeys_stringAdd (self other : Ref) : conduct.Obeys (stringAdd self other) := by
  mvcgen [stringAdd]

@[spec]
theorem obeys_stringMul (self count : Ref) : conduct.Obeys (stringMul self count) := by
  mvcgen [stringMul]

@[spec]
theorem obeys_stringEq (self other : Ref) : conduct.Obeys (stringEq self other) := by
  mvcgen [stringEq]

@[spec]
theorem obeys_stringCompare (order : Comparison) (self other : Ref) :
    conduct.Obeys (stringCompare order self other) := by
  mvcgen [stringCompare]

@[spec]
theorem obeys_stringContains (self piece : Ref) : conduct.Obeys (stringContains self piece) := by
  mvcgen [stringContains]

@[spec]
theorem obeys_stringGetItem (self index : Ref) : conduct.Obeys (stringGetItem self index) := by
  mvcgen [stringGetItem]
  exact conduct.outside_allowed ‹_›

@[spec]
theorem obeys_stringHash (self : Ref) : conduct.Obeys (stringHash self) := by
  mvcgen [stringHash]

@[spec]
theorem obeys_stringLength (self : Ref) : conduct.Obeys (stringLength self) := by
  mvcgen [stringLength]

@[spec]
theorem obeys_stringIter (self : Ref) : conduct.Obeys (stringIter self) := by
  mvcgen [stringIter]

@[spec]
theorem obeys_stringRepr (self : Ref) : conduct.Obeys (stringRepr self) := by
  mvcgen [stringRepr]

@[spec]
theorem obeys_stringStr (self : Ref) : conduct.Obeys (stringStr self) := by
  mvcgen [stringStr]

@[spec]
theorem obeys_stringUpper (self : Ref) : conduct.Obeys (stringUpper self) := by
  mvcgen [stringUpper]

@[spec]
theorem obeys_stringLower (self : Ref) : conduct.Obeys (stringLower self) := by
  mvcgen [stringLower]

@[spec]
theorem obeys_stringStrip (self : Ref) (dropped : Option Ref) :
    conduct.Obeys (stringStrip self dropped) := by
  mvcgen [stringStrip]

@[spec]
theorem obeys_newTexts (parts : List (List Char)) : conduct.Obeys (newTexts parts) := by
  have obeys := conduct.obeys_mapM newText parts conduct.obeys_newText
  mvcgen [newTexts, obeys]

@[spec]
theorem obeys_stringSplit (self : Ref) (separator : Option Ref) :
    conduct.Obeys (stringSplit self separator) := by
  mvcgen [stringSplit]

@[spec]
theorem obeys_textsOf (position : Nat) (found : List String) (elements : List Ref) :
    conduct.Obeys (textsOf position found elements) := by
  induction elements generalizing position found with
  | nil => mvcgen [textsOf]
  | cons element rest inductionHypothesis => mvcgen [textsOf, inductionHypothesis]

@[spec]
theorem obeys_stringJoin (self parts : Ref) : conduct.Obeys (stringJoin machine self parts) := by
  mvcgen [stringJoin]

theorem obeys_withPiece (self piece : Ref) (search : List Char → List Char → Exec Ref)
    (obeys : ∀ piece text, conduct.Obeys (search piece text)) :
    conduct.Obeys (withPiece self piece search) := by
  mvcgen [withPiece, obeys]

@[spec]
theorem obeys_stringReplace (self piece other : Ref) :
    conduct.Obeys (stringReplace self piece other) := by
  mvcgen [stringReplace]

@[spec]
theorem obeys_stringStartsWith (self piece : Ref) :
    conduct.Obeys (stringStartsWith self piece) := by
  refine conduct.obeys_withPiece _ _ _ fun piece text => ?_
  mvcgen

@[spec]
theorem obeys_stringEndsWith (self piece : Ref) : conduct.Obeys (stringEndsWith self piece) := by
  refine conduct.obeys_withPiece _ _ _ fun piece text => ?_
  mvcgen

@[spec]
theorem obeys_stringFind (self piece : Ref) : conduct.Obeys (stringFind self piece) := by
  refine conduct.obeys_withPiece _ _ _ fun piece text => ?_
  mvcgen

@[spec]
theorem obeys_stringCount (self piece : Ref) : conduct.Obeys (stringCount self piece) := by
  refine conduct.obeys_withPiece _ _ _ fun piece text => ?_
  mvcgen

@[spec]
theorem obeys_convertStr (arguments : List Ref) : conduct.Obeys (convertStr machine arguments) := by
  mvcgen [convertStr]

/-! ### Dicts and sets -/

@[spec]
theorem obeys_dictTable (self : Ref) : conduct.Obeys (dictTable self) := by
  mvcgen [dictTable]

@[spec]
theorem obeys_setTable (self : Ref) : conduct.Obeys (setTable self) := by
  mvcgen [setTable]

@[spec]
theorem obeys_pushEntry (self : Ref) (code : UInt64) (key : Ref) (slot : SlotId) :
    conduct.Obeys (pushEntry self code key slot) := by
  refine conduct.obeys_modifyObject _ _ fun object => ?_
  obtain ⟨class_, space, payload, function⟩ := object
  cases payload <;> exact ⟨rfl, rfl, rfl⟩

@[spec]
theorem obeys_pushKey (self : Ref) (code : UInt64) (key : Ref) :
    conduct.Obeys (pushKey self code key) := by
  refine conduct.obeys_modifyObject _ _ fun object => ?_
  obtain ⟨class_, space, payload, function⟩ := object
  cases payload <;> exact ⟨rfl, rfl, rfl⟩

@[spec]
theorem obeys_removeEntry (self : Ref) (position : Option Nat) :
    conduct.Obeys (removeEntry self position) := by
  refine conduct.obeys_modifyObject _ _ fun object => ?_
  obtain ⟨class_, space, payload, function⟩ := object
  cases payload <;> exact ⟨rfl, rfl, rfl⟩

@[spec]
theorem obeys_locate (self key : Ref) : conduct.Obeys (locate self key) :=
  fun _ holds => holds

@[spec]
theorem obeys_slotOf? (self key : Ref) : conduct.Obeys (slotOf? self key) :=
  fun _ holds => holds

@[spec]
theorem obeys_dictStore (self key value : Ref) : conduct.Obeys (dictStore self key value) := by
  mvcgen [dictStore]

@[spec]
theorem obeys_setInsert (self key : Ref) : conduct.Obeys (setInsert self key) := by
  mvcgen [setInsert]

@[spec]
theorem obeys_tableRemove (self key : Ref) : conduct.Obeys (tableRemove self key) := by
  mvcgen [tableRemove]

@[spec]
theorem obeys_valueOf (entry : Table.Entry SlotId) : conduct.Obeys (valueOf entry) :=
  fun _ holds => holds

@[spec]
theorem obeys_missingKey {α : Type} (key : Ref) :
    conduct.Obeys (missingKey machine key : Exec α) := by
  mvcgen [missingKey]

@[spec]
theorem obeys_keyIterator {α : Type} (table : Table α) : conduct.Obeys (keyIterator table) :=
  conduct.obeys_newIterator _

@[spec]
theorem obeys_dictLen (self : Ref) : conduct.Obeys (dictLen self) := by
  mvcgen [dictLen]

@[spec]
theorem obeys_dictLookup (self key : Ref) : conduct.Obeys (dictLookup self key) := by
  mvcgen [dictLookup]

@[spec]
theorem obeys_dictContains (self key : Ref) : conduct.Obeys (dictContains self key) := by
  mvcgen [dictContains]

@[spec]
theorem obeys_dictGetItem (self key : Ref) : conduct.Obeys (dictGetItem machine self key) := by
  mvcgen [dictGetItem]

@[spec]
theorem obeys_dictGet (self key : Ref) (otherwise : Option Ref) :
    conduct.Obeys (dictGet self key otherwise) := by
  mvcgen [dictGet]

@[spec]
theorem obeys_dictSetItem (self key value : Ref) : conduct.Obeys (dictSetItem self key value) := by
  mvcgen [dictSetItem]

@[spec]
theorem obeys_dictDelItem (self key : Ref) : conduct.Obeys (dictDelItem machine self key) := by
  mvcgen [dictDelItem]

@[spec]
theorem obeys_dictPop (self key : Ref) (otherwise : Option Ref) :
    conduct.Obeys (dictPop machine self key otherwise) := by
  mvcgen [dictPop]

@[spec]
theorem obeys_dictIter (self : Ref) : conduct.Obeys (dictIter self) := by
  mvcgen [dictIter]

@[spec]
theorem obeys_entriesAgree (other : Ref) (entries : List (Table.Entry SlotId)) :
    conduct.Obeys (entriesAgree machine other entries) := by
  induction entries with
  | nil => mvcgen [entriesAgree]
  | cons entry rest inductionHypothesis => mvcgen [entriesAgree, inductionHypothesis]

@[spec]
theorem obeys_entryTexts (found : List String) (entries : List (Table.Entry SlotId)) :
    conduct.Obeys (entryTexts machine found entries) := by
  induction entries generalizing found with
  | nil => mvcgen [entryTexts]
  | cons entry rest inductionHypothesis => mvcgen [entryTexts, inductionHypothesis]

@[spec]
theorem obeys_dictEq (self other : Ref) : conduct.Obeys (dictEq machine self other) := by
  mvcgen [dictEq]

@[spec]
theorem obeys_dictRepr (self : Ref) : conduct.Obeys (dictRepr machine self) := by
  mvcgen [dictRepr]

@[spec]
theorem obeys_dictKeys (self : Ref) : conduct.Obeys (dictKeys self) := by
  mvcgen [dictKeys]

@[spec]
theorem obeys_dictValues (self : Ref) : conduct.Obeys (dictValues self) := by
  have obeys (table : Table SlotId) : conduct.Obeys (table.entries.mapM valueOf) :=
    conduct.obeys_arrayMapM _ _ conduct.obeys_valueOf
  mvcgen [dictValues, obeys]

@[spec]
theorem obeys_dictItems (self : Ref) : conduct.Obeys (dictItems self) := by
  have obeys (table : Table SlotId) : conduct.Obeys (table.entries.mapM fun entry => do
      newTuple #[entry.key, ← valueOf entry]) := by
    refine conduct.obeys_arrayMapM _ _ fun entry => ?_
    mvcgen
  mvcgen [dictItems, obeys]

@[spec]
theorem obeys_storePairs (self : Ref) (position : Nat) (pairs : List Ref) :
    conduct.Obeys (storePairs machine self position pairs) := by
  induction pairs generalizing position with
  | nil => mvcgen [storePairs]
  | cons pair rest inductionHypothesis => mvcgen [storePairs, inductionHypothesis]

@[spec]
theorem obeys_storeEntries (self : Ref) (table : Table SlotId) :
    conduct.Obeys (storeEntries self table) := by
  refine conduct.obeys_arrayForM _ _ fun entry => ?_
  mvcgen

@[spec]
theorem obeys_dictMerge (self source : Ref) : conduct.Obeys (dictMerge machine self source) := by
  mvcgen [dictMerge]

@[spec]
theorem obeys_dictUpdate (self source : Ref) : conduct.Obeys (dictUpdate machine self source) := by
  mvcgen [dictUpdate]

@[spec]
theorem obeys_dictClear (self : Ref) : conduct.Obeys (dictClear self) := by
  mvcgen [dictClear]

@[spec]
theorem obeys_dictCopy (self : Ref) : conduct.Obeys (dictCopy self) := by
  mvcgen [dictCopy]

/-- The named values that a dict or a class has besides its other entries. -/
theorem obeys_storeNamed (self : Ref) (named : List (String × Ref)) :
    conduct.Obeys (named.forM fun (name, value) => do dictStore self (← newStr name) value) := by
  refine conduct.obeys_forM _ _ fun entry => ?_
  mvcgen

@[spec]
theorem obeys_convertDict (arguments : List Ref) (named : List (String × Ref)) :
    conduct.Obeys (convertDict machine arguments named) := by
  mvcgen [convertDict, obeys_storeNamed]

@[spec]
theorem obeys_setLen (self : Ref) : conduct.Obeys (setLen self) := by
  mvcgen [setLen]

@[spec]
theorem obeys_setContains (self key : Ref) : conduct.Obeys (setContains self key) := by
  mvcgen [setContains]

@[spec]
theorem obeys_setIter (self : Ref) : conduct.Obeys (setIter self) := by
  mvcgen [setIter]

@[spec]
theorem obeys_setEq (self other : Ref) : conduct.Obeys (setEq self other) :=
  fun _ holds => holds

@[spec]
theorem obeys_setRepr (self : Ref) : conduct.Obeys (setRepr machine self) := by
  mvcgen [setRepr]

@[spec]
theorem obeys_setAdd (self key : Ref) : conduct.Obeys (setAdd self key) := by
  mvcgen [setAdd]

@[spec]
theorem obeys_setDiscard (self key : Ref) : conduct.Obeys (setDiscard self key) := by
  mvcgen [setDiscard]

@[spec]
theorem obeys_setRemove (self key : Ref) : conduct.Obeys (setRemove machine self key) := by
  mvcgen [setRemove]

@[spec]
theorem obeys_setPop (self : Ref) : conduct.Obeys (setPop self) := by
  mvcgen [setPop]

@[spec]
theorem obeys_setClear (self : Ref) : conduct.Obeys (setClear self) := by
  mvcgen [setClear]

@[spec]
theorem obeys_addKeys (table : Table Unit) (keys : List Ref) :
    conduct.Obeys (addKeys table keys) := by
  induction keys generalizing table with
  | nil => mvcgen [addKeys]
  | cons key rest inductionHypothesis => mvcgen [addKeys, inductionHypothesis]

@[spec]
theorem obeys_collectTable (source : Ref) : conduct.Obeys (collectTable machine source) := by
  mvcgen [collectTable]

@[spec]
theorem obeys_setUnion (self other : Ref) : conduct.Obeys (setUnion machine self other) := by
  mvcgen [setUnion]

@[spec]
theorem obeys_setIntersection (self other : Ref) :
    conduct.Obeys (setIntersection machine self other) := by
  mvcgen [setIntersection]

@[spec]
theorem obeys_setCopy (self : Ref) : conduct.Obeys (setCopy self) := by
  mvcgen [setCopy]

@[spec]
theorem obeys_convertSet (arguments : List Ref) : conduct.Obeys (convertSet machine arguments) := by
  mvcgen [convertSet]

/-! ### Classes, functions, modules, iterators and exceptions -/

@[spec]
theorem obeys_classMembers (self : Ref) : conduct.Obeys (classMembers self) := by
  mvcgen [classMembers, obeys_storeNamed]

@[spec]
theorem obeys_classRepr (self : Ref) : conduct.Obeys (classRepr self) := by
  mvcgen [classRepr]

@[spec]
theorem obeys_functionRepr (self : Ref) : conduct.Obeys (functionRepr self) := by
  mvcgen [functionRepr]

@[spec]
theorem obeys_moduleRepr (self : Ref) : conduct.Obeys (moduleRepr self) := by
  mvcgen [moduleRepr]

@[spec]
theorem obeys_iteratorNext (self : Ref) : conduct.Obeys (iteratorNext self) := by
  mvcgen [iteratorNext]

@[spec]
theorem obeys_exceptionArguments (self : Ref) : conduct.Obeys (exceptionArguments self) :=
  fun _ holds => holds

@[spec]
theorem obeys_exceptionInit (self : Ref) (arguments : List Ref) :
    conduct.Obeys (exceptionInit self arguments) := by
  mvcgen [exceptionInit]

@[spec]
theorem obeys_exceptionStr (self : Ref) : conduct.Obeys (exceptionStr machine self) := by
  mvcgen [exceptionStr]

@[spec]
theorem obeys_exceptionRepr (self : Ref) : conduct.Obeys (exceptionRepr machine self) := by
  mvcgen [exceptionRepr]

/-! ### Streams -/

/-- Of the outside world a conduct may speak about nothing but the files. -/
@[spec]
theorem obeys_changeHost (step : World → Host)
    (files : ∀ world, (step world).files = world.host.files) :
    conduct.Obeys (change fun world => { world with host := step world }) :=
  conduct.obeys_change _ fun world => .of_same rfl rfl rfl rfl rfl (files world) rfl rfl rfl

@[spec]
theorem obeys_requestInterrupt :
    conduct.Obeys (change fun world => { world with interrupted := true }) :=
  conduct.obeys_change _ fun _ => .of_same rfl rfl rfl rfl rfl rfl rfl rfl rfl

@[spec]
theorem obeys_writeFor (function text : String) : conduct.Obeys (writeFor function text) := by
  mvcgen [writeFor]
  all_goals simp

@[spec]
theorem obeys_namedText (named : List (String × Ref)) (name otherwise : String) :
    conduct.Obeys (namedText named name otherwise) := by
  mvcgen [namedText]

@[spec]
theorem obeys_strOnto (found : List String) (refs : List Ref) :
    conduct.Obeys (strOnto machine found refs) := by
  induction refs generalizing found with
  | nil => mvcgen [strOnto]
  | cons ref rest inductionHypothesis => mvcgen [strOnto, inductionHypothesis]

@[spec]
theorem obeys_print (arguments : List Ref) (named : List (String × Ref)) :
    conduct.Obeys (print machine arguments named) := by
  mvcgen [print]
  exact fun _ => trivial

@[spec]
theorem obeys_readLine : conduct.Obeys readLine := by
  mvcgen [readLine]
  · exact conduct.fatal ‹_› rfl
  · exact fun _ => trivial

@[spec]
theorem obeys_input (prompt : Option Ref) : conduct.Obeys (input machine prompt) := by
  mvcgen [input]

/-! ### Native code -/

@[spec]
theorem obeys_classesOf (function : String) (ref : Ref) :
    conduct.Obeys (classesOf function ref) := by
  refine conduct.obeys_bind _ _ (fun _ holds => holds) fun classes => ?_
  refine conduct.obeys_bind _ _ (fun _ holds => holds) fun allClasses => ?_
  split
  · exact fun _ holds => holds
  · exact conduct.obeys_complain _

@[spec]
theorem obeys_isInstance (value classes : Ref) : conduct.Obeys (isInstance value classes) := by
  mvcgen [isInstance]

@[spec]
theorem obeys_isSubclass (class_ classes : Ref) : conduct.Obeys (isSubclass class_ classes) := by
  mvcgen [isSubclass]

@[spec]
theorem obeys_length (ref : Ref) : conduct.Obeys (length machine ref) := by
  mvcgen [length]

@[spec]
theorem obeys_next (iterator : Ref) (otherwise : Option Ref) :
    conduct.Obeys (next machine iterator otherwise) := by
  mvcgen [next]

@[spec]
theorem obeys_wrongCount {α : Type} (name : String) (arity : Arity) (given : Nat) :
    conduct.Obeys (wrongCount name arity given : Exec α) :=
  conduct.obeys_complain _

@[spec]
theorem obeys_runPositional (function : FreeFunction) (arguments : List Ref) :
    conduct.Obeys (runPositional machine function arguments) := by
  mvcgen [runPositional]

@[spec]
theorem obeys_runFree (function : FreeFunction) (arguments : List Ref)
    (named : List (String × Ref)) : conduct.Obeys (runFree machine function arguments named) := by
  mvcgen [runFree]

section Methods

variable {otherwise : Exec Ref} (obeys : conduct.Obeys otherwise)

include obeys

theorem obeys_runAlone (self : Ref) (method : Method) :
    conduct.Obeys (runAlone machine self otherwise method) := by
  cases method <;> mvcgen [runAlone, obeys]

theorem obeys_runWithOne (self argument : Ref) (method : Method) :
    conduct.Obeys (runWithOne machine self argument otherwise method) := by
  cases method <;> mvcgen [runWithOne, obeys]

theorem obeys_runWithTwo (self first second : Ref) (method : Method) :
    conduct.Obeys (runWithTwo machine self first second otherwise method) := by
  cases method <;> mvcgen [runWithTwo, obeys]

end Methods

@[spec]
theorem obeys_runMethod (native : Native) (method : Method) (self : Ref) (arguments : List Ref) :
    conduct.Obeys (runMethod machine native method self arguments) := by
  have refused (given : Nat) : conduct.Obeys (refuseCount native method given) :=
    conduct.obeys_wrongCount _ _ _
  unfold runMethod
  split
  · exact conduct.obeys_runAlone (refused _) self method
  · exact conduct.obeys_runWithOne (refused _) self _ method
  · exact conduct.obeys_runWithTwo (refused _) self _ _ method
  · split
    · exact conduct.obeys_exceptionInit _ _
    · exact refused _

@[spec]
theorem obeys_fillNamed (native : Native) (names : List String) (named : List (String × Ref))
    (filled : List (Option Ref)) : conduct.Obeys (fillNamed native names named filled) := by
  induction named generalizing filled with
  | nil => mvcgen [fillNamed]
  | cons entry rest inductionHypothesis => mvcgen [fillNamed, inductionHypothesis]

@[spec]
theorem obeys_positionalArguments (native : Native) (names : List String) (arguments : List Ref)
    (named : List (String × Ref)) :
    conduct.Obeys (positionalArguments native names arguments named) := by
  mvcgen [positionalArguments]

@[spec]
theorem obeys_runNative (native : Native) (arguments : List Ref) (named : List (String × Ref)) :
    conduct.Obeys (runNative machine native arguments named) := by
  mvcgen [runNative]

/-! ### Conversions -/

@[spec]
theorem obeys_convertPositional (builtin : BuiltinClass) (arguments : List Ref) :
    conduct.Obeys (convertPositional machine builtin arguments) := by
  mvcgen [convertPositional]

@[spec]
theorem obeys_convert (builtin : BuiltinClass) (arguments : List Ref)
    (named : List (String × Ref)) :
    conduct.Obeys (convert machine builtin arguments named) := by
  mvcgen [convert]

end Conduct

end Offside
