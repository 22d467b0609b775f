/-
This file lists every exception that the language itself raises, with its class
and its wording. A complaint says what is wrong; names of classes and values in
it are given as the texts that the message shows.
-/

import Offside.Text.Quoted
import Offside.Value.Builtin

namespace Offside

/-- What the language complains about. -/
inductive Complaint where
  -- calling
  | notCallable (type : String)
  | tooManyArguments (function : String) (taken given : Nat)
  | unexpectedKeyword (function name : String)
  | repeatedValue (function name : String)
  | missingArguments (function : String) (names : List String)
  | repeatedKeyword (name : String)
  | takesNoArguments (class_ : String)
  | initReturned (type : String)
  | needsArgument (function : String)
  | missingPositional (function : String)
  | wrongCount (function : String) (least : Nat) (most : Option Nat) (given : Nat)
  | takesNoKeywords (function : String)
  | cannotCreate (class_ : String)
  | recursionTooDeep
  -- results of special methods
  | boolReturned (type : String)
  | reprReturned (type : String)
  | strReturned (type : String)
  | hashReturned
  | intReturned (type : String)
  | floatReturned (type : String)
  -- operators
  | unsupportedUnary (operator type : String)
  | unsupported (operator left right : String)
  | overflow (operator : String)
  | divisionByZero
  | zeroToNegative
  | notNumber (type : String)
  | notInteger (type : String)
  -- containers
  | notIterable (type : String)
  | notIterator (type : String)
  | notSubscriptable (type : String)
  | noItemAssignment (type : String)
  | noItemDeletion (type : String)
  | unhashable (type : String)
  | indexNotInteger (kind type : String)
  | indexOutOfRange (kind : String)
  | boundNotInteger
  | stepZero
  | rangeStepZero
  | wrongReceiver (expected type : String)
  | cannotConcatenate (kind type : String)
  | cannotRepeat (type : String)
  | notInSequence (value type : String)
  | extendedSliceSize (given wanted : Nat)
  | removeMissing
  | popFromEmptyList
  | keyMissing (key : String)
  | popFromEmptySet
  | pairLength (position length : Nat)
  -- texts
  | expectedText (type : String)
  | containsNeedsText (type : String)
  | joinItem (position : Nat) (type : String)
  | emptySeparator
  -- conversions
  | intArgument (type : String)
  | floatArgument (type : String)
  | intLiteral (text : String)
  | floatLiteral (text : String)
  | floatNotFinite (text : String)
  | floatTooLarge (text : String)
  -- free functions
  | hasNoLen (type : String)
  | keywordNotText (name type : String)
  | printKeyword (name : String)
  | secondNotClass (function : String)
  | firstNotClass
  | streamFailed (function reason : String)
  | endOfInput
  -- names and attributes
  | undefinedName (name : String)
  | pendingName (name : String)
  | moduleAttribute (module_ name : String)
  | classAttribute (class_ name : String)
  | objectAttribute (type name : String)
  -- statements
  | cannotUnpack (type : String)
  | tooFewToUnpack (wanted found : Nat)
  | tooManyToUnpack (wanted : Nat)
  | nothingToReraise
  | notException
  | catchingNonException
  | baseNotClass (name type : String)
  -- modules
  | noModule (name : String)
  | starInCycle (path : String)
  | nameNotInModule (name path : String)
  | stillImporting (name : String)
  | alreadyRunning (path : String)
  -- signals without a message
  | stopIteration
  | keyboardInterrupt
deriving Repr, DecidableEq

namespace Complaint

/-- The class of the exception. -/
def exception : Complaint → BuiltinClass
  | .overflow _ | .divisionByZero | .zeroToNegative => .valueError
  | .stepZero | .rangeStepZero | .notInSequence .. | .extendedSliceSize .. => .valueError
  | .removeMissing | .pairLength .. | .emptySeparator => .valueError
  | .intLiteral _ | .floatLiteral _ | .floatNotFinite _ | .floatTooLarge _ => .valueError
  | .tooFewToUnpack .. | .tooManyToUnpack _ => .valueError
  | .indexOutOfRange _ | .popFromEmptyList => .indexError
  | .keyMissing _ | .popFromEmptySet => .keyError
  | .undefinedName _ => .nameError
  | .moduleAttribute .. | .classAttribute .. | .objectAttribute .. => .attributeError
  | .pendingName _ | .noModule _ | .starInCycle _ | .nameNotInModule .. => .importError
  | .stillImporting _ | .alreadyRunning _ => .importError
  | .recursionTooDeep | .streamFailed .. | .endOfInput | .nothingToReraise => .exception
  | .stopIteration => .stopIteration
  | .keyboardInterrupt => .keyboardInterrupt
  | _ => .typeError

/-- A text between single quotes, without any escapes. -/
def named (text : String) : String :=
  "'" ++ text ++ "'"

/-- How many arguments a function takes. -/
def countText (least : Nat) (most : Option Nat) (given : Nat) : String :=
  if most = some least then "exactly " ++ toString least
  else if given < least then "at least " ++ toString least
  else "at most " ++ toString (most.getD 0)

/-- The wording; signals have none. -/
def message : Complaint → Option String
  | .notCallable type => some (named type ++ " object is not callable")
  | .tooManyArguments function taken given =>
    some (function ++ "() takes " ++ toString taken ++ " positional arguments but " ++
      toString given ++ " were given")
  | .unexpectedKeyword function name =>
    some (function ++ "() got an unexpected keyword argument " ++ named name)
  | .repeatedValue function name =>
    some (function ++ "() got multiple values for argument " ++ named name)
  | .missingArguments function names =>
    some (function ++ "() missing " ++ toString names.length ++ " required " ++
      (if names.length > 1 then "arguments" else "argument") ++ ": " ++
      ", ".intercalate (names.map named))
  | .repeatedKeyword name => some ("keyword argument repeated: " ++ name)
  | .takesNoArguments class_ => some (class_ ++ "() takes no arguments")
  | .initReturned type => some ("__init__() should return None, not " ++ named type)
  | .needsArgument function => some (function ++ "() needs an argument")
  | .missingPositional function => some (function ++ "() missing a positional argument")
  | .wrongCount function least most given =>
    some (function ++ "() takes " ++ countText least most given ++ " arguments (" ++
      toString given ++ " given)")
  | .takesNoKeywords function => some (function ++ "() takes no keyword arguments")
  | .cannotCreate class_ => some ("cannot create " ++ named class_ ++ " instances")
  | .recursionTooDeep => some "maximum recursion depth exceeded"
  | .boolReturned type => some ("__bool__ should return bool, returned " ++ type)
  | .reprReturned type => some ("__repr__ returned non-string (type " ++ type ++ ")")
  | .strReturned type => some ("__str__ returned non-string (type " ++ type ++ ")")
  | .hashReturned => some "__hash__ method should return an integer"
  | .intReturned type => some ("__int__ returned non-int (type " ++ type ++ ")")
  | .floatReturned type => some ("__float__ returned non-float (type " ++ type ++ ")")
  | .unsupportedUnary operator type =>
    some ("\"" ++ operator ++ "\" not supported for " ++ named type)
  | .unsupported operator left right =>
    some ("\"" ++ operator ++ "\" not supported between instances of " ++ named left ++ " and " ++
      named right)
  | .overflow operator => some ("integer overflow in " ++ Text.quote operator)
  | .divisionByZero => some "division by zero"
  | .zeroToNegative => some "0.0 cannot be raised to a negative power"
  | .notNumber type => some (named type ++ " object is not a number")
  | .notInteger type => some (named type ++ " object cannot be interpreted as an integer")
  | .notIterable type => some (named type ++ " object is not iterable")
  | .notIterator type => some (named type ++ " object is not an iterator")
  | .notSubscriptable type => some (named type ++ " object is not subscriptable")
  | .noItemAssignment type => some (named type ++ " object does not support item assignment")
  | .noItemDeletion type => some (named type ++ " object does not support item deletion")
  | .unhashable type => some ("unhashable type: " ++ named type)
  | .indexNotInteger kind type =>
    some (kind ++ " indices must be integers or slices, not " ++ type)
  | .indexOutOfRange kind => some (kind ++ " index out of range")
  | .boundNotInteger => some "slice indices must be integers or None"
  | .stepZero => some "slice step cannot be zero"
  | .rangeStepZero => some "range() arg 3 must not be zero"
  | .wrongReceiver expected type =>
    some ("descriptor requires a " ++ named expected ++ " object but received a " ++ named type)
  | .cannotConcatenate kind type =>
    some ("can only concatenate " ++ kind ++ " (not " ++ named type ++ ") to " ++ kind)
  | .cannotRepeat type => some ("can't multiply sequence by non-int of type " ++ named type)
  | .notInSequence value type => some (value ++ " is not in " ++ type)
  | .extendedSliceSize given wanted =>
    some ("attempt to assign sequence of size " ++ toString given ++
      " to extended slice of size " ++ toString wanted)
  | .removeMissing => some "list.remove(x): x not in list"
  | .popFromEmptyList => some "pop from empty list"
  | .keyMissing key => some key
  | .popFromEmptySet => some "pop from an empty set"
  | .pairLength position length =>
    some ("dictionary update sequence element #" ++ toString position ++ " has length " ++
      toString length ++ "; 2 is required")
  | .expectedText type => some ("expected str, got " ++ type)
  | .containsNeedsText type =>
    some ("'in <string>' requires string as left operand, not " ++ type)
  | .joinItem position type =>
    some ("sequence item " ++ toString position ++ ": expected str instance, " ++ type ++ " found")
  | .emptySeparator => some "empty separator"
  | .intArgument type => some ("int() argument must be a string or a number, not " ++ named type)
  | .floatArgument type =>
    some ("float() argument must be a string or a number, not " ++ named type)
  | .intLiteral text => some ("invalid literal for int() with base 10: " ++ Text.quote text)
  | .floatLiteral text => some ("could not convert string to float: " ++ Text.quote text)
  | .floatNotFinite text => some ("cannot convert float " ++ text ++ " to integer")
  | .floatTooLarge text => some ("float " ++ text ++ " is too large to convert to integer")
  | .hasNoLen type => some ("object of type " ++ named type ++ " has no len()")
  | .keywordNotText name type => some (name ++ " must be None or a string, not " ++ type)
  | .printKeyword name => some (named name ++ " is an invalid keyword argument for print()")
  | .secondNotClass function => some (function ++ "() arg 2 must be a class or tuple of classes")
  | .firstNotClass => some "issubclass() arg 1 must be a class"
  | .streamFailed function reason => some (function ++ ": " ++ reason)
  | .endOfInput => some "EOF when reading a line"
  | .undefinedName name => some ("name " ++ named name ++ " is not defined")
  | .pendingName name =>
    some ("cannot use name " ++ named name ++ " before its circular import has completed")
  | .moduleAttribute module_ name =>
    some ("module " ++ named module_ ++ " has no attribute " ++ named name)
  | .classAttribute class_ name =>
    some ("type object " ++ named class_ ++ " has no attribute " ++ named name)
  | .objectAttribute type name =>
    some (named type ++ " object has no attribute " ++ named name)
  | .cannotUnpack type => some ("cannot unpack non-iterable " ++ type ++ " object")
  | .tooFewToUnpack wanted found =>
    some ("not enough values to unpack (expected " ++ toString wanted ++ ", got " ++
      toString found ++ ")")
  | .tooManyToUnpack wanted =>
    some ("too many values to unpack (expected " ++ toString wanted ++ ")")
  | .nothingToReraise => some "no active exception to re-raise"
  | .notException => some "exceptions must derive from Exception"
  | .catchingNonException =>
    some "catching classes that do not inherit from Exception is not allowed"
  | .baseNotClass name type => some ("base of class " ++ name ++ " must be a class, not " ++ named type)
  | .noModule name => some ("No module named " ++ named name)
  | .starInCycle path => some ("cannot import * from " ++ named path ++ " during its circular import")
  | .nameNotInModule name path => some ("cannot import name " ++ named name ++ " from " ++ named path)
  | .stillImporting name => some ("module " ++ named name ++ " is still being imported")
  | .alreadyRunning path => some (path ++ " is already running")
  | .stopIteration => none
  | .keyboardInterrupt => none

end Complaint

end Offside
