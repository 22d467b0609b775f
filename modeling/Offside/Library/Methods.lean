/-
This file runs a built-in method by its name tag. The receiver is the first
positional argument. Named arguments fill the positions that the method has names
for; then the number of arguments selects how the method runs, and a number that
fits no way of running it is refused.
-/

import Offside.Eval.Arguments
import Offside.Library.Functions
import Offside.Library.Numbers
import Offside.Library.Ranges

namespace Offside.Library

open Exec

/-- Runs a method without arguments. -/
def runAlone (machine : Machine) (self : Ref) (otherwise : Exec Ref) : Method → Exec Ref
  | .metaDict => classMembers self
  | .metaRepr => classRepr self
  | .functionRepr => functionRepr self
  | .noneBool => return falseRef
  | .noneRepr => newStr "None"
  | .moduleRepr => moduleRepr self
  | .iteratorIter => return self
  | .iteratorNext => iteratorNext self
  | .iteratorRepr => newStr "<iterator object>"
  | .exceptionInit => exceptionInit self []
  | .exceptionRepr => exceptionRepr machine self
  | .exceptionStr => exceptionStr machine self
  | .numberNeg => numberNeg self
  | .numberBool => numberBool self
  | .numberInt => numberInt self
  | .numberFloat => numberFloat self
  | .numberHash => numberHash self
  | .numberRepr => numberRepr self
  | .boolBool => boolBool self
  | .boolRepr => boolRepr self
  | .seqLen => sequenceLength self
  | .seqIter => sequenceIter self
  | .listRepr => listRepr machine self
  | .listClear => listClear self
  | .listCopy => listCopy self
  | .listPop => listPop self none
  | .listReverse => listReverse self
  | .listSort => listSort machine self none
  | .tupleHash => tupleHash self
  | .tupleRepr => tupleRepr machine self
  | .strLen => stringLength self
  | .strIter => stringIter self
  | .strHash => stringHash self
  | .strRepr => stringRepr self
  | .strStr => stringStr self
  | .strUpper => stringUpper self
  | .strLower => stringLower self
  | .strStrip => stringStrip self none
  | .strSplit => stringSplit self none
  | .rangeLen => rangeLen self
  | .rangeIter => rangeIter self
  | .rangeRepr => rangeRepr self
  | .sliceRepr => sliceRepr machine self
  | .dictLen => dictLen self
  | .dictIter => dictIter self
  | .dictRepr => dictRepr machine self
  | .dictKeys => dictKeys self
  | .dictValues => dictValues self
  | .dictItems => dictItems self
  | .dictClear => dictClear self
  | .dictCopy => dictCopy self
  | .setLen => setLen self
  | .setIter => setIter self
  | .setRepr => setRepr machine self
  | .setPop => setPop self
  | .setClear => setClear self
  | .setCopy => setCopy self
  | _ => otherwise

/-- Runs a method with one argument. -/
def runWithOne (machine : Machine) (self argument : Ref) (otherwise : Exec Ref) :
    Method → Exec Ref
  | .exceptionInit => exceptionInit self [argument]
  | .numberAdd => numberAdd self argument
  | .numberMul => numberMul machine self argument
  | .numberTrueDiv => numberTrueDiv self argument
  | .numberMod => numberMod self argument
  | .numberPow => numberPow self argument
  | .numberEq => numberEq self argument
  | .numberCompare order => numberCompare order self argument
  | .seqContains => sequenceContains machine self argument
  | .seqEq => sequenceEq machine self argument
  | .seqCompare order => sequenceCompare machine order self argument
  | .seqIndex => sequenceIndex machine self argument
  | .seqCount => sequenceCount machine self argument
  | .seqAdd kind => sequenceAdd kind self argument
  | .seqMul => sequenceMul self argument
  | .seqGetItem kind => sequenceGetItem kind self argument
  | .listDelItem => listDelItem self argument
  | .listAppend => listAppend self argument
  | .listExtend => listExtend machine self argument
  | .listPop => listPop self (some argument)
  | .listRemove => listRemove machine self argument
  | .listSort => listSort machine self (some argument)
  | .strAdd => stringAdd self argument
  | .strMul => stringMul self argument
  | .strEq => stringEq self argument
  | .strCompare order => stringCompare order self argument
  | .strContains => stringContains self argument
  | .strGetItem => stringGetItem self argument
  | .strStrip => stringStrip self (some argument)
  | .strSplit => stringSplit self (some argument)
  | .strJoin => stringJoin machine self argument
  | .strStartsWith => stringStartsWith self argument
  | .strEndsWith => stringEndsWith self argument
  | .strFind => stringFind self argument
  | .strCount => stringCount self argument
  | .rangeContains => rangeContains self argument
  | .rangeGetItem => rangeGetItem self argument
  | .rangeEq => rangeEq self argument
  | .dictContains => dictContains self argument
  | .dictGetItem => dictGetItem machine self argument
  | .dictDelItem => dictDelItem machine self argument
  | .dictEq => dictEq machine self argument
  | .dictGet => dictGet self argument none
  | .dictPop => dictPop machine self argument none
  | .dictUpdate => dictUpdate machine self argument
  | .setContains => setContains self argument
  | .setEq => setEq self argument
  | .setAdd => setAdd self argument
  | .setDiscard => setDiscard self argument
  | .setRemove => setRemove machine self argument
  | .setUnion => setUnion machine self argument
  | .setIntersection => setIntersection machine self argument
  | _ => otherwise

/-- Runs a method with two arguments. -/
def runWithTwo (machine : Machine) (self first second : Ref) (otherwise : Exec Ref) :
    Method → Exec Ref
  | .exceptionInit => exceptionInit self [first, second]
  | .listSetItem => listSetItem machine self first second
  | .listInsert => listInsert self first second
  | .strReplace => stringReplace self first second
  | .dictSetItem => dictSetItem self first second
  | .dictGet => dictGet self first (some second)
  | .dictPop => dictPop machine self first (some second)
  | _ => otherwise

/-- Refuses a number of arguments that does not fit a method. -/
def refuseCount (native : Native) (method : Method) (given : Nat) : Exec Ref :=
  wrongCount native.name method.arity given

/-- Runs a method. -/
def runMethod (machine : Machine) (native : Native) (method : Method) (self : Ref)
    (arguments : List Ref) : Exec Ref :=
  let otherwise : Exec Ref := refuseCount native method arguments.length
  match arguments with
  | [] => runAlone machine self otherwise method
  | [argument] => runWithOne machine self argument otherwise method
  | [first, second] => runWithTwo machine self first second otherwise method
  | several =>
    match method with
    | .exceptionInit => exceptionInit self several
    | _ => otherwise

/-! ### Named arguments -/

/-- Puts a value at a position; positions before it that have no value yet stay open. -/
def fillAt (value : Ref) : Nat → List (Option Ref) → List (Option Ref)
  | 0, [] => [some value]
  | 0, _ :: rest => some value :: rest
  | position + 1, [] => none :: fillAt value position []
  | position + 1, first :: rest => first :: fillAt value position rest

/-- Puts named arguments at their positions. -/
def fillNamed (native : Native) (names : List String) :
    List (String × Ref) → List (Option Ref) → Exec (List (Option Ref))
  | [], filled => return filled
  | (name, value) :: rest, filled =>
    match names.findIdx? (· == name) with
    | none => complain (.unexpectedKeyword native.name name)
    | some position =>
      if (filled[position]?.getD none).isSome then complain (.repeatedValue native.name name)
      else fillNamed native names rest (fillAt value position filled)

/-- All arguments of a method by position. -/
def positionalArguments (native : Native) (names : List String) (arguments : List Ref)
    (named : List (String × Ref)) : Exec (List Ref) := do
  if named.isEmpty then return arguments
  else
    let filled ← fillNamed native names (Arguments.byName named) (arguments.map some)
    match filled.mapM id with
    | some complete => return complete
    | none => complain (.missingPositional native.name)

/-! ### Native code -/

/-- Runs code that is not written in the language. -/
def runNative (machine : Machine) (native : Native) (arguments : List Ref)
    (named : List (String × Ref)) : Exec Ref :=
  match native with
  | .free function => runFree machine function arguments named
  | .method _ _ method =>
    match arguments with
    | [] => complain (.needsArgument native.name)
    | self :: rest => do
      let complete ← positionalArguments native method.arity.names rest named
      runMethod machine native method self complete

end Offside.Library
