/-
This file names the values that the language can write down: the absent value, truth
values, integers, texts, and lists, tuples, dicts and sets of such values. They are
finite trees, whatever objects of the heap stand for them.

A literal is written in three steps that undo the steps of reading: it is a text, the
text falls into lexemes, and the lexemes build a tree of expressions. The three are
defined here side by side, and the modules after this one show that reading takes each
of them to the next. A container is handled in the same way at each step: its parts
with separators between them and its brackets around them.

Not every tree is a value. The keys of dicts and the elements of sets can be hashed and
are all different, the least integer cannot be written, because its digits alone are too
large a number, and the empty set has no literal.
-/

import Offside.Library.Mappings

namespace Offside

/-- A value that can be written as a literal. -/
inductive Literal where
  | none
  | bool (value : Bool)
  | int (value : Int64)
  | str (value : String)
  | list (elements : List Literal)
  | tuple (elements : List Literal)
  | dict (entries : List (Literal × Literal))
  | set (elements : List Literal)

/-- Parts with a separator between them. -/
def separated {α : Type} (separator : List α) : List (List α) → List α
  | [] => []
  | [part] => part
  | part :: next :: rest => part ++ separator ++ separated separator (next :: rest)

namespace Literal

/-! ### Values -/

mutual

/-- The value may be a key. -/
def Hashable : Literal → Prop
  | .list _ => False
  | .dict _ => False
  | .set _ => False
  | .tuple elements => HashableAll elements
  | _ => True

def HashableAll : List Literal → Prop
  | [] => True
  | first :: rest => first.Hashable ∧ HashableAll rest

end

mutual

/-- The value has a literal. -/
def WellFormed : Literal → Prop
  | .int value => value.toInt ≠ Number.least
  | .list elements => WellFormedAll elements
  | .tuple elements => WellFormedAll elements
  | .dict entries => WellFormedEntries entries ∧ (entries.map Prod.fst).Nodup
  | .set elements => elements ≠ [] ∧ WellFormedAll elements ∧ HashableAll elements ∧ elements.Nodup
  | _ => True

def WellFormedAll : List Literal → Prop
  | [] => True
  | first :: rest => first.WellFormed ∧ WellFormedAll rest

/-- Keys can be hashed. -/
def WellFormedEntries : List (Literal × Literal) → Prop
  | [] => True
  | (key, value) :: rest =>
    key.WellFormed ∧ key.Hashable ∧ value.WellFormed ∧ WellFormedEntries rest

end

mutual

/-- How many containers stand inside of each other. -/
def depth : Literal → Nat
  | .list elements => depthAll elements + 1
  | .tuple elements => depthAll elements + 1
  | .dict entries => depthEntries entries + 1
  | .set elements => depthAll elements + 1
  | _ => 0

def depthAll : List Literal → Nat
  | [] => 0
  | first :: rest => max first.depth (depthAll rest)

def depthEntries : List (Literal × Literal) → Nat
  | [] => 0
  | (key, value) :: rest => max (max key.depth value.depth) (depthEntries rest)

end

mutual

/-- The hash of a key. -/
def hash : Literal → UInt64
  | .none => 0x9e3779b97f4a7c15
  | .bool value => if value then 1 else 0
  | .int value => value.toUInt64
  | .str value => hashText value
  | .tuple elements => hashAll hashStart elements
  | _ => 0

/-- The hash of a sequence that starts with the hash of what comes before. -/
def hashAll (start : UInt64) : List Literal → UInt64
  | [] => start
  | first :: rest => hashAll (hashStep start first.hash) rest

end

/-! ### Texts -/

/-- What stands between the brackets of a group. -/
def grouped (bracket : Bracket) (inner : List Char) : List Char :=
  bracket.opener.spelling.toList ++ inner ++ bracket.closer.spelling.toList

/-- A single element of a tuple keeps a comma. -/
def trailing {α : Type} (comma : α) (elements : List Literal) : List α :=
  if elements.length = 1 then [comma] else []

mutual

/-- The literal of a value, as characters. -/
def chars : Literal → List Char
  | .none => "None".toList
  | .bool value => (truthText value).toList
  | .int value => (Number.integerText value).toList
  | .str value => Text.quoteChars value.toList
  | .list elements => grouped .square (separated [',', ' '] (charsOf elements))
  | .tuple elements =>
    grouped .paren (separated [',', ' '] (charsOf elements) ++ trailing ',' elements)
  | .dict entries => grouped .brace (separated [',', ' '] (charsOfEntries entries))
  | .set elements => grouped .brace (separated [',', ' '] (charsOf elements))

def charsOf : List Literal → List (List Char)
  | [] => []
  | first :: rest => first.chars :: charsOf rest

def charsOfEntries : List (Literal × Literal) → List (List Char)
  | [] => []
  | (key, value) :: rest => (key.chars ++ ':' :: ' ' :: value.chars) :: charsOfEntries rest

end

/-- The literal of a value. -/
def text (literal : Literal) : String :=
  String.ofList literal.chars

/-! ### Lexemes -/

/-- The lexemes of an integer: a sign, if there is one, and digits. -/
def lexemesOfInt (value : Int64) : List Lexeme :=
  match value.toInt with
  | .ofNat n => [.number (String.ofList (Nat.toDigits 10 n))]
  | .negSucc n => [.symbol .minus, .number (String.ofList (Nat.toDigits 10 (n + 1)))]

/-- The lexemes of a group. -/
def groupedLexemes (bracket : Bracket) (inner : List Lexeme) : List Lexeme :=
  .symbol bracket.opener :: inner ++ [.symbol bracket.closer]

mutual

/-- The lexemes of a literal. -/
def lexemes : Literal → List Lexeme
  | .none => [.keyword .noneWord]
  | .bool value => [.boolean value]
  | .int value => lexemesOfInt value
  | .str value => [.string value]
  | .list elements => groupedLexemes .square (separated [.symbol .comma] (lexemesOf elements))
  | .tuple elements =>
    groupedLexemes .paren
      (separated [.symbol .comma] (lexemesOf elements) ++ trailing (.symbol .comma) elements)
  | .dict entries =>
    groupedLexemes .brace (separated [.symbol .comma] (lexemesOfEntries entries))
  | .set elements => groupedLexemes .brace (separated [.symbol .comma] (lexemesOf elements))

def lexemesOf : List Literal → List (List Lexeme)
  | [] => []
  | first :: rest => first.lexemes :: lexemesOf rest

def lexemesOfEntries : List (Literal × Literal) → List (List Lexeme)
  | [] => []
  | (key, value) :: rest =>
    (key.lexemes ++ .symbol .colon :: value.lexemes) :: lexemesOfEntries rest

end

/-! ### Trees -/

/-- The tree of an integer: only what is not negative is a numeral. -/
def treeOfInt (location : Location) (value : Int64) : Expr :=
  match value.toInt with
  | .ofNat _ => .integer location value
  | .negSucc n => .unary location .negate (.integer location (Int64.ofNat (n + 1)))

mutual

/-- The tree of a literal that stands on one line. -/
def tree (location : Location) : Literal → Expr
  | .none => .none location
  | .bool value => .boolean location value
  | .int value => treeOfInt location value
  | .str value => .string location value
  | .list elements => .list location (trees location elements)
  | .tuple elements => .tuple location (trees location elements)
  | .dict entries => .dict location (treesOfEntries location entries)
  | .set elements => .set location (trees location elements)

def trees (location : Location) : List Literal → List Expr
  | [] => []
  | first :: rest => first.tree location :: trees location rest

def treesOfEntries (location : Location) : List (Literal × Literal) → List (Expr × Expr)
  | [] => []
  | (key, value) :: rest =>
    (key.tree location, value.tree location) :: treesOfEntries location rest

end

end Literal

end Offside
