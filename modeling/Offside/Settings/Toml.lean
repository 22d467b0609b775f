/-
This file reads settings in the format TOML: lines that give a value to a name, under
headers that name the table they belong to. The values are texts, numbers, truth
values and arrays of these; tables written inside of a line and dates are refused
like any other malformed text.

What was read is kept flat, as values with the whole path of their names. A path
cannot be both a value and a table, a value cannot be given twice, and a header
cannot stand twice or open a table that dotted names already made.
-/

import Offside.Number.Integer

namespace Offside.Toml

inductive Value where
  | text (value : String)
  | integer (value : Int64)
  | float
  | boolean (value : Bool)
  | array (elements : List Value)

/-! ### Blanks and comments -/

def isBlank (c : Char) : Bool :=
  c == ' ' || c == '\t'

/-- Control characters other than the tab stand nowhere in a line. -/
def isControl (c : Char) : Bool :=
  (c.toNat < 32 && c != '\t') || c.toNat == 127

/-- Drops blanks. -/
def skipBlanks (text : List Char) : List Char :=
  text.dropWhile isBlank

/-- Starts with a line break. -/
def atLineBreak : List Char → Bool
  | '\n' :: _ => true
  | '\r' :: '\n' :: _ => true
  | _ => false

/-- Drops blanks, line breaks and comments. -/
def skipGap (inComment : Bool) : List Char → Option (List Char)
  | [] => some []
  | c :: rest =>
    if atLineBreak (c :: rest) then skipGap (inComment && c == '\r') rest
    else if inComment then if isControl c then none else skipGap true rest
    else if c == '#' then skipGap true rest
    else if isBlank c then skipGap false rest
    else some (c :: rest)

/-- Drops the end of a line with what may stand there. -/
def endLine (text : List Char) : Option (List Char) :=
  match skipBlanks text with
  | [] => some []
  | '#' :: rest => skipGap true rest
  | rest => if atLineBreak rest then skipGap false rest else none

/-! ### Texts -/

/-- The value of hexadecimal digits. -/
def hexValue? (digits : List Char) : Option Nat :=
  digits.foldlM (fun value c =>
    if c.isDigit then some (16 * value + (c.toNat - '0'.toNat))
    else if 'a' ≤ c && c ≤ 'f' then some (16 * value + (c.toNat - 'a'.toNat + 10))
    else if 'A' ≤ c && c ≤ 'F' then some (16 * value + (c.toNat - 'A'.toNat + 10))
    else none) 0

/-- The character with a number, which must be one of a character. -/
def character? (code : Nat) : Option Char :=
  if code.isValidChar then some (Char.ofNat code) else none

/-- The character that an escape means, after its backslash. -/
def readEscape : List Char → Option (Char × List Char)
  | 'b' :: rest => some (Char.ofNat 8, rest)
  | 't' :: rest => some ('\t', rest)
  | 'n' :: rest => some ('\n', rest)
  | 'f' :: rest => some (Char.ofNat 12, rest)
  | 'r' :: rest => some ('\r', rest)
  | '"' :: rest => some ('"', rest)
  | '\\' :: rest => some ('\\', rest)
  | 'u' :: rest => numbered 4 rest
  | 'U' :: rest => numbered 8 rest
  | _ => none
where
  numbered (count : Nat) (rest : List Char) : Option (Char × List Char) := do
    let digits := rest.take count
    if digits.length < count then none
    else return (← character? (← hexValue? digits), rest.drop count)

/-- The inside of a text between double quotes. -/
def readBasic : Nat → List Char → List Char → Option (String × List Char)
  | fuel + 1, found, '\\' :: rest => do
    let (c, rest) ← readEscape rest
    readBasic fuel (c :: found) rest
  | fuel + 1, found, c :: rest =>
    if c == '"' then some (String.ofList found.reverse, rest)
    else if isControl c then none
    else readBasic fuel (c :: found) rest
  | _, _, _ => none

/-- The inside of a text between single quotes. -/
def readLiteral (found : List Char) : List Char → Option (String × List Char)
  | [] => none
  | c :: rest =>
    if c == '\'' then some (String.ofList found.reverse, rest)
    else if isControl c then none
    else readLiteral (c :: found) rest

/-- The end of a text over several lines: the last three of up to five quotes close it. -/
def closing? (quote : Char) (text : List Char) : Option (Nat × List Char) :=
  let count := (text.takeWhile (· == quote)).length
  if count < 3 then none else some (min count 5 - 3, text.drop (min count 5))

/-- A backslash at the end of a line, which joins the line with the next text. -/
def joinsLines (text : List Char) : Bool :=
  atLineBreak (skipBlanks text)

def isSpace (c : Char) : Bool :=
  isBlank c || c == '\n' || c == '\r'

/-- The inside of a text over several lines; escapes are read in basic ones only. -/
def readLong (quote : Char) : Nat → List Char → List Char → Option (String × List Char)
  | 0, _, _ => none
  | fuel + 1, found, text =>
    match closing? quote text, text with
    | some (extra, rest), _ =>
      some (String.ofList (List.replicate extra quote ++ found).reverse, rest)
    | none, [] => none
    | none, c :: rest =>
      if c == '\\' && quote == '"' then
        if joinsLines rest then readLong quote fuel found (rest.dropWhile isSpace)
        else do
          let (escaped, rest) ← readEscape rest
          readLong quote fuel (escaped :: found) rest
      else if isControl c && !atLineBreak text && c != '\n' then none
      else readLong quote fuel (c :: found) rest

/-- A line break right after the opening quotes does not count. -/
def dropLineBreak : List Char → List Char
  | '\n' :: rest => rest
  | '\r' :: '\n' :: rest => rest
  | text => text

/-! ### Numbers -/

/-- Digits in groups, with an underscore between two groups. -/
def isGrouped (isDigit : Char → Bool) (text : List Char) : Bool :=
  ((String.ofList text).splitOn "_").all fun group =>
    !group.isEmpty && group.toList.all isDigit

def isDecimal (text : List Char) : Bool :=
  isGrouped Char.isDigit text

/-- Digits without a needless zero in front. -/
def isWhole (text : List Char) : Bool :=
  isDecimal text && (text.head? != some '0' || text.length == 1)

/-- The text without a sign in front. -/
def unsigned : List Char → List Char
  | '+' :: rest => rest
  | '-' :: rest => rest
  | text => text

/-- The number that digits of a base write. -/
def digitsValue (base : Nat) (text : List Char) : Int :=
  (text.filter (· != '_')).foldl (fun value c => base * value + ((hexValue? [c]).getD 0)) (0 : Nat)

/-- A whole number with its base in front. -/
def basedInteger? (text : List Char) : Option Int :=
  let digits := text.drop 2
  match text.take 2 with
  | ['0', 'x'] => if isGrouped (fun c => (hexValue? [c]).isSome) digits then
      some (digitsValue 16 digits) else none
  | ['0', 'o'] => if isGrouped (fun c => '0' ≤ c && c ≤ '7') digits then
      some (digitsValue 8 digits) else none
  | ['0', 'b'] => if isGrouped (fun c => c == '0' || c == '1') digits then
      some (digitsValue 2 digits) else none
  | _ => none

def integer? (text : List Char) : Option Int :=
  if isWhole (unsigned text) then
    let size := digitsValue 10 (unsigned text)
    some (if text.head? == some '-' then -size else size)
  else basedInteger? text

/-- A whole number with an exponent or nothing after it. -/
def isScaled (whole : List Char → Bool) (text : List Char) : Bool :=
  let front := text.takeWhile fun c => c != 'e' && c != 'E'
  match text.drop front.length with
  | [] => whole front
  | _ :: exponent => whole front && isDecimal (unsigned exponent)

/-- A number with a point, an exponent or both, or one that is not finite. -/
def isFloat (text : List Char) : Bool :=
  let size := unsigned text
  if size == "inf".toList || size == "nan".toList then true
  else
    let front := size.takeWhile (· != '.')
    match size.drop front.length with
    | [] => isScaled isWhole size
    | _ :: decimals => isWhole front && isScaled isDecimal decimals

/-- The value of a word. -/
def wordValue? (word : List Char) : Option Value :=
  if word == "true".toList then some (.boolean true)
  else if word == "false".toList then some (.boolean false)
  else match integer? word with
    | some value => (Number.fit? value).map .integer
    | none => if isFloat word then some .float else none

def isWordChar (c : Char) : Bool :=
  c.isAlphanum || c == '+' || c == '-' || c == '_' || c == '.'

/-! ### Values -/

/-- A text in quotes. -/
def readText (text : List Char) : Option (String × List Char) :=
  match text with
  | '"' :: '"' :: '"' :: rest => readLong '"' (rest.length + 1) [] (dropLineBreak rest)
  | '\'' :: '\'' :: '\'' :: rest => readLong '\'' (rest.length + 1) [] (dropLineBreak rest)
  | '"' :: rest => readBasic (rest.length + 1) [] rest
  | '\'' :: rest => readLiteral [] rest
  | _ => none

mutual

/-- A value. -/
def readValue : Nat → List Char → Option (Value × List Char)
  | 0, _ => none
  | fuel + 1, text =>
    match text with
    | '[' :: rest => readElements fuel [] rest
    | '"' :: _ => (readText text).map fun (value, rest) => (.text value, rest)
    | '\'' :: _ => (readText text).map fun (value, rest) => (.text value, rest)
    | _ =>
      let word := text.takeWhile isWordChar
      (wordValue? word).map fun value => (value, text.drop word.length)

/-- The elements of an array, with a comma between them and possibly after the last. -/
def readElements : Nat → List Value → List Char → Option (Value × List Char)
  | 0, _, _ => none
  | fuel + 1, found, text => do
    match ← skipGap false text with
    | ']' :: rest => some (.array found.reverse, rest)
    | inner =>
      let (value, rest) ← readValue fuel inner
      match ← skipGap false rest with
      | ',' :: rest => readElements fuel (value :: found) rest
      | ']' :: rest => some (.array (value :: found).reverse, rest)
      | _ => none

end

/-! ### Names -/

def isNameChar (c : Char) : Bool :=
  c.isAlphanum || c == '_' || c == '-'

/-- One part of a dotted name. -/
def readName (text : List Char) : Option (String × List Char) :=
  match text with
  | '"' :: rest => readBasic (rest.length + 1) [] rest
  | '\'' :: rest => readLiteral [] rest
  | _ =>
    let name := text.takeWhile isNameChar
    if name.isEmpty then none else some (String.ofList name, text.drop name.length)

/-- A dotted name. Blanks may stand around its points. -/
def readPath : Nat → List Char → Option (List String × List Char)
  | 0, _ => none
  | fuel + 1, text => do
    let (name, rest) ← readName (skipBlanks text)
    match skipBlanks rest with
    | '.' :: more =>
      let (path, rest) ← readPath fuel more
      some (name :: path, rest)
    | rest => some ([name], rest)

/-! ### Documents -/

/-- What was read. -/
structure Document where
  values : List (List String × Value)
  /-- The tables that have a header. -/
  headers : List (List String)
  /-- The tables that dotted names made. -/
  dotted : List (List String)

namespace Document

def empty : Document := ⟨[], [], []⟩

/-- One path goes on from the other. -/
def extends_ (path other : List String) : Bool :=
  other.isPrefixOf path

/-- The tables on the way to a dotted name below a table. -/
def between (table name : List String) : List (List String) :=
  ((List.range name.length).drop 1).map fun count => table ++ name.take count

/-- Gives a value to a name of a table. -/
def addValue (document : Document) (table name : List String) (value : Value) :
    Option Document :=
  let path := table ++ name
  let made := between table name
  if document.values.any fun entry => extends_ path entry.1 || extends_ entry.1 path then none
  else if document.headers.any fun header => extends_ header path || made.contains header then none
  else some
    { document with
      values := document.values ++ [(path, value)]
      dotted := document.dotted ++ made }

/-- Opens a table. -/
def addHeader (document : Document) (table : List String) : Option Document :=
  if document.headers.contains table || document.dotted.contains table then none
  else if document.values.any fun entry => extends_ table entry.1 then none
  else some { document with headers := document.headers ++ [table] }

end Document

/-- Reads lines into a document, under the current table. -/
def readLines : Nat → List String → Document → List Char → Option Document
  | 0, _, _, _ => none
  | fuel + 1, table, document, text => do
    match ← skipGap false text with
    | [] => some document
    | '[' :: rest =>
      let (path, rest) ← readPath fuel rest
      match rest with
      | ']' :: rest => readLines fuel path (← document.addHeader path) (← endLine rest)
      | _ => none
    | line =>
      let (path, rest) ← readPath fuel line
      match rest with
      | '=' :: rest =>
        let (value, rest) ← readValue fuel (skipBlanks rest)
        readLines fuel table (← document.addValue table path value) (← endLine rest)
      | _ => none

/-- Reads a document. Every step takes at least one character, so the length of the text bounds
their number. -/
def read? (text : String) : Option Document :=
  readLines (text.length + 2) [] .empty text.toList

end Offside.Toml
