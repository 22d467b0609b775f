/-
This file turns a source text into its tokens. The text is read once, from left
to right. At the start of every line stands an indentation token with the blanks
found there, possibly none; after it come the tokens of the line, and an
end-of-line token closes it. Blanks between tokens and comments are skipped. The
last line is closed like every other one and the end-of-file token follows.

The tokens form a stream, which is a list that may break off in a fault: a
reader that stops before the fault never learns of it. Every token but the
indentations and the closing pair uses up at least one character, so the reading
ends.
-/

import Offside.Source.Token
import Offside.Source.LexError
import Offside.Text.Letter

namespace Offside

/-- The tokens of a text, up to its end or its first fault. -/
inductive Stream where
  | ended
  | failed (error : LexError)
  | token (head : Token) (rest : Stream)
deriving Repr, DecidableEq

/-- The tokens before the end or the fault. -/
def Stream.tokens : Stream → List Token
  | .token head rest => head :: rest.tokens
  | _ => []

/-- The fault that the stream breaks off in. -/
def Stream.fault? : Stream → Option LexError
  | .token _ rest => rest.fault?
  | .failed error => some error
  | .ended => none

/-- The number of tokens. -/
def Stream.size : Stream → Nat
  | .token _ rest => rest.size + 1
  | _ => 0

namespace Lexer

/-! ### Indentation -/

/-- The blanks that indent a line and separate tokens. -/
def isIndent (c : Char) : Bool :=
  c == ' ' || c == '\t'

/-- The blank that a file indents with is the first one that it indents with. -/
def markerAfter (marker : Option Char) (blanks : List Char) : Option Char :=
  marker <|> blanks.head?

/-- All blanks of a line are the one that the file indents with. -/
def isUniform (marker : Option Char) (blanks : List Char) : Bool :=
  blanks.all fun blank => markerAfter marker blanks == some blank

/-! ### Strings -/

/-- The character that a backslash and the given character stand for. -/
def escape? (c : Char) : Option Char :=
  if c = '\\' then some '\\'
  else if c = 'n' then some '\n'
  else if c = 't' then some '\t'
  else if c = 'r' then some '\r'
  else if c = '\'' || c = '"' then some c
  else none

/-- The line after a character. -/
def lineAfter (line : Nat) (c : Char) : Nat :=
  if c = '\n' then line + 1 else line

/-- The quotes that open and close a string. -/
structure Quotes where
  delimiter : Char
  triple : Bool

def Quotes.text (quotes : Quotes) : String :=
  String.ofList (List.replicate (if quotes.triple then 3 else 1) quotes.delimiter)

/-- The rest after the closing quotes, if the text starts with them. -/
def Quotes.close? (quotes : Quotes) : List Char → Option (List Char)
  | [] => none
  | c :: rest =>
    if c ≠ quotes.delimiter then none
    else if !quotes.triple then some rest
    else match rest with
      | second :: third :: rest =>
        if second = quotes.delimiter && third = quotes.delimiter then some rest else none
      | _ => none

/-- Reads a string up to its closing quotes: the decoded value, the line of the closing quotes and
the rest of the text. The value read so far is kept reversed, and an unterminated string is
reported where it was opened. -/
def readString (quotes : Quotes) (opened line : Nat) (value : List Char) :
    List Char → Except (LexFault × Nat) (List Char × Nat × List Char)
  | [] => .error (.unterminatedString quotes.text, opened)
  | '\\' :: [] => .error (.escapeAtEnd, line)
  | '\\' :: c :: rest =>
    match escape? c with
    | some decoded => readString quotes opened line (decoded :: value) rest
    | none => .error (.unknownEscape c, lineAfter line c)
  | c :: rest =>
    if c = '\r' then .error (.carriageReturnInString, line)
    else match quotes.close? (c :: rest) with
      | some after => .ok (value.reverse, line, after)
      | none =>
        if c = '\n' && !quotes.triple then .error (.lineEndInString, line)
        else readString quotes opened (lineAfter line c) (c :: value) rest

/-- The quotes that open a string with this delimiter, and the text after them. -/
def openQuotes (delimiter : Char) : List Char → Quotes × List Char
  | second :: third :: rest =>
    if second = delimiter && third = delimiter then (⟨delimiter, true⟩, rest)
    else (⟨delimiter, false⟩, second :: third :: rest)
  | rest => (⟨delimiter, false⟩, rest)

/-! ### Words, numbers and symbols -/

/-- A character of a number: an ASCII digit or a point. -/
def isNumberPart (c : Char) : Bool :=
  c.isDigit || c == '.'

/-- The lexeme that a run of digits and points is. -/
def numberLexeme (run : List Char) : Except LexFault Lexeme :=
  match run.count '.' with
  | 0 => .ok (.number (String.ofList run))
  | 1 => .ok (if run = ['.'] then .symbol .dot else .number (String.ofList run))
  | _ => .error (.malformedNumber (String.ofList run))

/-- The first symbol of the table that the text starts with. -/
def symbolAt? (text : List Char) : Option Symbol :=
  Symbol.all.find? fun symbol => symbol.spelling.toList.isPrefixOf text

/-! ### One token -/

/-- A lexeme taken from a text: the line after it and what is left of the text. -/
structure Taken where
  lexeme : Lexeme
  line : Nat
  rest : List Char

/-- Takes the lexeme that starts with the given character, which is no blank, line end or start of
a comment. -/
def take (line : Nat) (c : Char) (rest : List Char) : Except (LexFault × Nat) Taken :=
  if c = '\r' then .error (.carriageReturn, line)
  else if c = '\'' || c = '"' then
    let (quotes, body) := openQuotes c rest
    match readString quotes line line [] body with
    | .ok (value, lineEnd, after) => .ok ⟨.string (String.ofList value), lineEnd, after⟩
    | .error fault => .error fault
  else if Text.isNameStart c then
    .ok ⟨.ofWord (String.ofList (c :: rest.takeWhile Text.isNamePart)), line,
      rest.dropWhile Text.isNamePart⟩
  else if isNumberPart c then
    match numberLexeme (c :: rest.takeWhile isNumberPart) with
    | .ok lexeme => .ok ⟨lexeme, line, rest.dropWhile isNumberPart⟩
    | .error fault => .error (fault, line)
  else match symbolAt? (c :: rest) with
    | some symbol => .ok ⟨.symbol symbol, line, rest.drop (symbol.spelling.length - 1)⟩
    | none => .error (.noToken (String.ofList ((c :: rest).takeWhile (· ≠ '\n'))), line)

/-! ### Taking a lexeme uses up characters -/

theorem length_dropWhile_le (keep : Char → Bool) (text : List Char) :
    (text.dropWhile keep).length ≤ text.length :=
  (List.dropWhile_sublist keep).length_le

theorem length_of_close? {quotes : Quotes} {text after : List Char}
    (closed : quotes.close? text = some after) : after.length < text.length := by
  unfold Quotes.close? at closed
  split at closed
  · simp at closed
  · split at closed
    · simp at closed
    · split at closed
      · simp at closed
        simp [← closed]
      · split at closed
        · split at closed
          · simp at closed
            simp [← closed]
            omega
          · simp at closed
        · simp at closed

theorem length_of_readString {quotes : Quotes} {opened line : Nat} {value text : List Char}
    {result : List Char × Nat × List Char}
    (read : readString quotes opened line value text = .ok result) :
    result.2.2.length ≤ text.length := by
  fun_induction readString quotes opened line value text with
  | case1 => simp at read
  | case2 => simp at read
  | case3 line value c rest decoded escaped inductionHypothesis =>
    exact Nat.le_trans (inductionHypothesis read) (by simp only [List.length_cons]; omega)
  | case4 => simp at read
  | case5 => simp at read
  | case6 line value c rest _ _ _ after closed =>
    injection read with equal
    subst equal
    exact Nat.le_of_lt (length_of_close? closed)
  | case7 => simp at read
  | case8 line value c rest _ _ _ _ _ inductionHypothesis =>
    exact Nat.le_trans (inductionHypothesis read) (by simp only [List.length_cons]; omega)

theorem length_openQuotes (delimiter : Char) (text : List Char) :
    (openQuotes delimiter text).2.length ≤ text.length := by
  unfold openQuotes
  split
  · split <;> simp
    omega
  · exact Nat.le_refl _

theorem length_of_take {line : Nat} {c : Char} {rest : List Char} {taken : Taken}
    (success : take line c rest = .ok taken) : taken.rest.length ≤ rest.length := by
  unfold take at success
  split at success
  · simp at success
  · split at success
    · dsimp only at success
      split at success
      next read =>
        injection success with equal
        subst equal
        exact Nat.le_trans (length_of_readString read) (length_openQuotes c rest)
      next => simp at success
    · split at success
      · injection success with equal
        subst equal
        exact length_dropWhile_le _ _
      · split at success
        · split at success
          · injection success with equal
            subst equal
            exact length_dropWhile_le _ _
          · simp at success
        · split at success
          · injection success with equal
            subst equal
            simp
          · simp at success

/-! ### The whole text -/

/-- The part of a comment that is skipped: up to the end of the line or a carriage return. -/
def afterComment (rest : List Char) : List Char :=
  rest.dropWhile fun c => c ≠ '\n' && c ≠ '\r'

/-- The stream of a text from the middle of a line on. -/
def scan (file : String) (marker : Option Char) (line : Nat) (text : List Char) : Stream :=
  match text with
  | [] => .token ⟨.endOfLine, ⟨file, line⟩⟩ (.token ⟨.endOfFile, ⟨file, line⟩⟩ .ended)
  | c :: rest =>
    if isIndent c then scan file marker line rest
    else if c = '#' then
      if (afterComment rest).head? = some '\r' then .failed ⟨.carriageReturn, ⟨file, line⟩⟩
      else scan file marker line (afterComment rest)
    else if c = '\n' then
      .token ⟨.endOfLine, ⟨file, line⟩⟩
        (let blanks := rest.takeWhile isIndent
        if isUniform marker blanks then
          .token ⟨.indentation (String.ofList blanks), ⟨file, line + 1⟩⟩
            (scan file (markerAfter marker blanks) (line + 1) (rest.dropWhile isIndent))
        else .failed ⟨.mixedIndentation, ⟨file, line + 1⟩⟩)
    else match _taken : take line c rest with
      | .ok taken => .token ⟨taken.lexeme, ⟨file, line⟩⟩ (scan file marker taken.line taken.rest)
      | .error (fault, faultLine) => .failed ⟨fault, ⟨file, faultLine⟩⟩
termination_by text.length
decreasing_by
  · simp
  · exact Nat.lt_succ_of_le (length_dropWhile_le _ _)
  · exact Nat.lt_succ_of_le (length_dropWhile_le _ _)
  · exact Nat.lt_succ_of_le (length_of_take _taken)

/-- The stream of a text that starts at the given line of a file. -/
def streamFrom (start : Location) (text : String) : Stream :=
  let blanks := text.toList.takeWhile isIndent
  if isUniform none blanks then
    .token ⟨.indentation (String.ofList blanks), start⟩
      (scan start.file (markerAfter none blanks) start.line (text.toList.dropWhile isIndent))
  else .failed ⟨.mixedIndentation, start⟩

/-- The stream of a whole file. -/
def stream (file text : String) : Stream :=
  streamFrom ⟨file, 1⟩ text

/-- The tokens of a whole file, or its first fault. -/
def tokenize (file text : String) : Except LexError (List Token) :=
  match (stream file text).fault? with
  | some error => .error error
  | none => .ok (stream file text).tokens

end Lexer

end Offside
