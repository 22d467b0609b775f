/-
This file names what the language brings along: its classes, the methods of those
classes that are not written in the language itself, and its free functions.
Everything here is a name with a fixed spelling; what the methods do is said
where they are run.

A method has an arity and, rarely, names for its positions. Methods that several
classes share are one method; the class it was reached through only shows in
messages.
-/

namespace Offside

/-- The classes that exist before any program runs. -/
inductive BuiltinClass where
  | klass | str | function | noneType | int | bool | float | list | tuple | dict | set | slice
  | range | moduleType | iterator | exception | stopIteration | nameError | typeError | indexError
  | keyError | attributeError | importError | keyboardInterrupt | valueError
deriving Repr, DecidableEq

namespace BuiltinClass

def all : List BuiltinClass :=
  [.klass, .str, .function, .noneType, .int, .bool, .float, .list, .tuple, .dict, .set, .slice,
    .range, .moduleType, .iterator, .exception, .stopIteration, .nameError, .typeError, .indexError,
    .keyError, .attributeError, .importError, .keyboardInterrupt, .valueError]

def name : BuiltinClass → String
  | .klass => "Class"
  | .str => "str"
  | .function => "Function"
  | .noneType => "NoneType"
  | .int => "int"
  | .bool => "bool"
  | .float => "float"
  | .list => "list"
  | .tuple => "tuple"
  | .dict => "dict"
  | .set => "set"
  | .slice => "slice"
  | .range => "range"
  | .moduleType => "Module"
  | .iterator => "iterator"
  | .exception => "Exception"
  | .stopIteration => "StopIteration"
  | .nameError => "NameError"
  | .typeError => "TypeError"
  | .indexError => "IndexError"
  | .keyError => "KeyError"
  | .attributeError => "AttributeError"
  | .importError => "ImportError"
  | .keyboardInterrupt => "KeyboardInterrupt"
  | .valueError => "ValueError"

/-- The class that a class extends. -/
def base? : BuiltinClass → Option BuiltinClass
  | .bool => some .int
  | .stopIteration => some .exception
  | .nameError => some .exception
  | .typeError => some .exception
  | .indexError => some .exception
  | .keyError => some .exception
  | .attributeError => some .exception
  | .importError => some .exception
  | .keyboardInterrupt => some .exception
  | .valueError => some .exception
  | _ => none

/-- Programs can use the name of the class. -/
def isGlobal : BuiltinClass → Bool
  | .klass => false
  | .function => false
  | .noneType => false
  | .moduleType => false
  | .iterator => false
  | _ => true

/-- Exceptions are made like the objects of a program's own classes. -/
def isException (builtin : BuiltinClass) : Bool :=
  builtin == .exception || builtin.base? == some .exception

end BuiltinClass

/-! ### Methods -/

/-- How many arguments a method takes besides its receiver, and the names of positions that may be
given by name. -/
structure Arity where
  least : Nat
  most : Option Nat
  names : List String := []
deriving Repr, DecidableEq

/-- Exactly this many. -/
def Arity.exactly (count : Nat) : Arity := ⟨count, some count, []⟩

/-- Comparisons by size. -/
inductive Comparison where
  | less | atMost | greater | atLeast
deriving Repr, DecidableEq

def Comparison.operator : Comparison → String
  | .less => "<"
  | .atMost => "<="
  | .greater => ">"
  | .atLeast => ">="

/-- The methods, by the family of classes that they belong to. -/
inductive Method where
  | metaDict | metaRepr
  | functionRepr | noneBool | noneRepr | moduleRepr
  | iteratorIter | iteratorNext | iteratorRepr
  | exceptionInit | exceptionRepr | exceptionStr
  | numberAdd | numberMul | numberTrueDiv | numberMod | numberPow | numberEq
  | numberCompare (order : Comparison) | numberNeg | numberBool | numberInt | numberFloat
  | numberHash | numberRepr
  | boolBool | boolRepr
  | seqLen | seqContains | seqEq | seqCompare (order : Comparison) | seqIter | seqIndex | seqCount
  | seqAdd (kind : String) | seqMul | seqGetItem (kind : String)
  | listSetItem | listDelItem | listRepr | listAppend | listClear | listCopy | listExtend
  | listInsert | listPop | listRemove | listReverse | listSort
  | tupleHash | tupleRepr
  | strAdd | strMul | strEq | strCompare (order : Comparison) | strLen | strContains | strGetItem
  | strIter | strHash | strRepr | strStr | strUpper | strLower | strStrip | strSplit | strJoin
  | strReplace | strStartsWith | strEndsWith | strFind | strCount
  | rangeLen | rangeIter | rangeContains | rangeGetItem | rangeEq | rangeRepr | sliceRepr
  | dictLen | dictContains | dictGetItem | dictSetItem | dictDelItem | dictIter | dictEq
  | dictRepr | dictGet | dictKeys | dictValues | dictItems | dictPop | dictUpdate | dictClear
  | dictCopy
  | setLen | setContains | setIter | setEq | setRepr | setAdd | setDiscard | setRemove | setPop
  | setClear | setUnion | setIntersection | setCopy
deriving Repr, DecidableEq

/-- The arity of a method. -/
def Method.arity : Method → Arity
  | .exceptionInit => ⟨0, none, []⟩
  | .numberAdd | .numberMul | .numberTrueDiv | .numberMod | .numberPow | .numberEq => .exactly 1
  | .numberCompare _ => .exactly 1
  | .seqContains | .seqEq | .seqIndex | .seqCount | .seqMul => .exactly 1
  | .seqCompare _ | .seqAdd _ | .seqGetItem _ => .exactly 1
  | .listSetItem | .listInsert => .exactly 2
  | .listDelItem | .listAppend | .listExtend | .listRemove => .exactly 1
  | .listPop => ⟨0, some 1, []⟩
  | .listSort => ⟨0, some 1, ["reverse"]⟩
  | .strAdd | .strMul | .strEq | .strContains | .strGetItem | .strJoin => .exactly 1
  | .strCompare _ => .exactly 1
  | .strStrip | .strSplit => ⟨0, some 1, []⟩
  | .strReplace => .exactly 2
  | .strStartsWith | .strEndsWith | .strFind | .strCount => .exactly 1
  | .rangeContains | .rangeGetItem | .rangeEq => .exactly 1
  | .dictContains | .dictGetItem | .dictDelItem | .dictEq | .dictUpdate => .exactly 1
  | .dictSetItem => .exactly 2
  | .dictGet | .dictPop => ⟨1, some 2, []⟩
  | .setContains | .setEq | .setAdd | .setDiscard | .setRemove => .exactly 1
  | .setUnion | .setIntersection => .exactly 1
  | _ => .exactly 0

/-- The methods of numbers. Truth values inherit those of `int`. -/
def numberMethods : List (String × Method) :=
  [("__add__", .numberAdd), ("__bool__", .numberBool), ("__eq__", .numberEq),
    ("__float__", .numberFloat), ("__ge__", .numberCompare .atLeast),
    ("__gt__", .numberCompare .greater), ("__hash__", .numberHash), ("__int__", .numberInt),
    ("__le__", .numberCompare .atMost), ("__lt__", .numberCompare .less),
    ("__mod__", .numberMod), ("__mul__", .numberMul), ("__neg__", .numberNeg),
    ("__pow__", .numberPow), ("__repr__", .numberRepr), ("__truediv__", .numberTrueDiv)]

/-- The methods of a class, by name in the order of their names. -/
def BuiltinClass.methods : BuiltinClass → List (String × Method)
  | .klass => [("__dict__", .metaDict), ("__repr__", .metaRepr)]
  | .function => [("__repr__", .functionRepr)]
  | .noneType => [("__bool__", .noneBool), ("__repr__", .noneRepr)]
  | .moduleType => [("__repr__", .moduleRepr)]
  | .iterator =>
    [("__iter__", .iteratorIter), ("__next__", .iteratorNext), ("__repr__", .iteratorRepr)]
  | .exception =>
    [("__init__", .exceptionInit), ("__repr__", .exceptionRepr), ("__str__", .exceptionStr)]
  | .int => numberMethods
  | .float => numberMethods
  | .bool => [("__bool__", .boolBool), ("__repr__", .boolRepr)]
  | .list =>
    [("__add__", .seqAdd "list"), ("__contains__", .seqContains), ("__delitem__", .listDelItem),
      ("__eq__", .seqEq), ("__ge__", .seqCompare .atLeast), ("__getitem__", .seqGetItem "list"),
      ("__gt__", .seqCompare .greater), ("__iter__", .seqIter), ("__le__", .seqCompare .atMost),
      ("__len__", .seqLen), ("__lt__", .seqCompare .less), ("__mul__", .seqMul),
      ("__repr__", .listRepr), ("__setitem__", .listSetItem), ("append", .listAppend),
      ("clear", .listClear), ("copy", .listCopy), ("count", .seqCount), ("extend", .listExtend),
      ("index", .seqIndex), ("insert", .listInsert), ("pop", .listPop), ("remove", .listRemove),
      ("reverse", .listReverse), ("sort", .listSort)]
  | .tuple =>
    [("__add__", .seqAdd "tuple"), ("__contains__", .seqContains), ("__eq__", .seqEq),
      ("__ge__", .seqCompare .atLeast), ("__getitem__", .seqGetItem "tuple"),
      ("__gt__", .seqCompare .greater), ("__hash__", .tupleHash), ("__iter__", .seqIter),
      ("__le__", .seqCompare .atMost), ("__len__", .seqLen), ("__lt__", .seqCompare .less),
      ("__mul__", .seqMul), ("__repr__", .tupleRepr), ("count", .seqCount), ("index", .seqIndex)]
  | .str =>
    [("__add__", .strAdd), ("__contains__", .strContains), ("__eq__", .strEq),
      ("__ge__", .strCompare .atLeast), ("__getitem__", .strGetItem),
      ("__gt__", .strCompare .greater), ("__hash__", .strHash), ("__iter__", .strIter),
      ("__le__", .strCompare .atMost), ("__len__", .strLen), ("__lt__", .strCompare .less),
      ("__mul__", .strMul), ("__repr__", .strRepr), ("__str__", .strStr), ("count", .strCount),
      ("endswith", .strEndsWith), ("find", .strFind), ("join", .strJoin), ("lower", .strLower),
      ("replace", .strReplace), ("split", .strSplit), ("startswith", .strStartsWith),
      ("strip", .strStrip), ("upper", .strUpper)]
  | .range =>
    [("__contains__", .rangeContains), ("__eq__", .rangeEq), ("__getitem__", .rangeGetItem),
      ("__iter__", .rangeIter), ("__len__", .rangeLen), ("__repr__", .rangeRepr)]
  | .slice => [("__repr__", .sliceRepr)]
  | .dict =>
    [("__contains__", .dictContains), ("__delitem__", .dictDelItem), ("__eq__", .dictEq),
      ("__getitem__", .dictGetItem), ("__iter__", .dictIter), ("__len__", .dictLen),
      ("__repr__", .dictRepr), ("__setitem__", .dictSetItem), ("clear", .dictClear),
      ("copy", .dictCopy), ("get", .dictGet), ("items", .dictItems), ("keys", .dictKeys),
      ("pop", .dictPop), ("update", .dictUpdate), ("values", .dictValues)]
  | .set =>
    [("__contains__", .setContains), ("__eq__", .setEq), ("__iter__", .setIter),
      ("__len__", .setLen), ("__repr__", .setRepr), ("add", .setAdd), ("clear", .setClear),
      ("copy", .setCopy), ("discard", .setDiscard), ("intersection", .setIntersection),
      ("pop", .setPop), ("remove", .setRemove), ("union", .setUnion)]
  | _ => []

/-! ### Free functions -/

/-- The functions that every program can use by name. -/
inductive FreeFunction where
  | hash | input | isInstance | isSubclass | iter | len | next | print | repr | type
deriving Repr, DecidableEq

namespace FreeFunction

/-- In the order of their names. -/
def all : List FreeFunction :=
  [.hash, .input, .isInstance, .isSubclass, .iter, .len, .next, .print, .repr, .type]

def name : FreeFunction → String
  | .hash => "hash"
  | .input => "input"
  | .isInstance => "isinstance"
  | .isSubclass => "issubclass"
  | .iter => "iter"
  | .len => "len"
  | .next => "next"
  | .print => "print"
  | .repr => "repr"
  | .type => "type"

end FreeFunction

/-- Code that is not written in the language. -/
inductive Native where
  /-- A method, as reached through the class that lists it under this name. -/
  | method (owner : BuiltinClass) (name : String) (method : Method)
  | free (function : FreeFunction)
deriving Repr, DecidableEq

/-- What messages call it: a method is named with its class. -/
def Native.name : Native → String
  | .method owner name _ => owner.name ++ "." ++ name
  | .free function => function.name

end Offside
