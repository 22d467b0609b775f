/-
This file lists the tokens of the language. A token is a lexeme and the line on
which it starts. Symbols and keywords are closed families, each with one
spelling; a lexeme that carries text (a name, the digits of a number, the value
of a string, the blanks of an indentation) carries it as its own argument, so
that no lexeme has a text that means nothing.

Three views of a lexeme are used in messages and listings. Its kind is what the
grammar asks for, its literal is the text that it stands for, and its display is
how a message names it.
-/

import Offside.Source.Location
import Offside.Text.Quoted

namespace Offside

/-! ### Symbols and keywords -/

/-- Operators, brackets and punctuation. -/
inductive Symbol where
  | equal | notEqual | atMost | atLeast | power
  | plus | minus | times | divide | modulo
  | less | greater | assign
  | openParen | closeParen | openBrace | closeBrace | openBracket | closeBracket
  | colon | dot | comma
deriving Repr, DecidableEq

/-- Every symbol, those of two characters first: a text is matched against the list in order, so
`==` is never read as two signs. -/
def Symbol.all : List Symbol :=
  [.equal, .notEqual, .atMost, .atLeast, .power, .plus, .minus, .times, .divide, .modulo,
    .less, .greater, .assign, .openParen, .closeParen, .openBrace, .closeBrace,
    .openBracket, .closeBracket, .colon, .dot, .comma]

def Symbol.spelling : Symbol → String
  | .equal => "=="
  | .notEqual => "!="
  | .atMost => "<="
  | .atLeast => ">="
  | .power => "**"
  | .plus => "+"
  | .minus => "-"
  | .times => "*"
  | .divide => "/"
  | .modulo => "%"
  | .less => "<"
  | .greater => ">"
  | .assign => "="
  | .openParen => "("
  | .closeParen => ")"
  | .openBrace => "\x7b"
  | .closeBrace => "\x7d"
  | .openBracket => "["
  | .closeBracket => "]"
  | .colon => ":"
  | .dot => "."
  | .comma => ","

/-- Reserved words other than the two truth values. -/
inductive Keyword where
  | andWord | asWord | breakWord | classWord | continueWord | defWord | delWord | elifWord
  | elseWord | exceptWord | finallyWord | forWord | fromWord | ifWord | importWord | inWord
  | isWord | noneWord | notWord | ofWord | orWord | passWord | raiseWord | returnWord
  | tryWord | whileWord
deriving Repr, DecidableEq

def Keyword.all : List Keyword :=
  [.andWord, .asWord, .breakWord, .classWord, .continueWord, .defWord, .delWord, .elifWord,
    .elseWord, .exceptWord, .finallyWord, .forWord, .fromWord, .ifWord, .importWord, .inWord,
    .isWord, .noneWord, .notWord, .ofWord, .orWord, .passWord, .raiseWord, .returnWord,
    .tryWord, .whileWord]

def Keyword.spelling : Keyword → String
  | .andWord => "and"
  | .asWord => "as"
  | .breakWord => "break"
  | .classWord => "class"
  | .continueWord => "continue"
  | .defWord => "def"
  | .delWord => "del"
  | .elifWord => "elif"
  | .elseWord => "else"
  | .exceptWord => "except"
  | .finallyWord => "finally"
  | .forWord => "for"
  | .fromWord => "from"
  | .ifWord => "if"
  | .importWord => "import"
  | .inWord => "in"
  | .isWord => "is"
  | .noneWord => "None"
  | .notWord => "not"
  | .ofWord => "of"
  | .orWord => "or"
  | .passWord => "pass"
  | .raiseWord => "raise"
  | .returnWord => "return"
  | .tryWord => "try"
  | .whileWord => "while"

/-- The keyword that a word is, if it is one. -/
def Keyword.ofWord? (word : String) : Option Keyword :=
  Keyword.all.find? (·.spelling == word)

/-! ### Lexemes -/

/-- What the grammar can ask for. -/
inductive Kind where
  | indentation | endOfLine | endOfFile
  | identifier | number | string | boolean
  | symbol (sign : Symbol)
  | keyword (word : Keyword)
deriving Repr, DecidableEq

/-- The name of a kind in messages and listings. -/
def Kind.name : Kind → String
  | .indentation => "indentation"
  | .endOfLine => "end-of-line"
  | .endOfFile => "end-of-file"
  | .identifier => "identifier"
  | .number => "number"
  | .string => "string"
  | .boolean => "boolean"
  | .symbol sign => sign.spelling
  | .keyword word => word.spelling

/-- A token without its place. -/
inductive Lexeme where
  /-- The blanks at the start of a line, possibly none. -/
  | indentation (blanks : String)
  | endOfLine
  | endOfFile
  | identifier (name : String)
  /-- A number as it is written: digits with at most one point. -/
  | number (digits : String)
  /-- A string by its value, with every escape decoded. -/
  | string (value : String)
  | boolean (value : Bool)
  | symbol (sign : Symbol)
  | keyword (word : Keyword)
deriving Repr, DecidableEq

def Lexeme.kind : Lexeme → Kind
  | .indentation _ => .indentation
  | .endOfLine => .endOfLine
  | .endOfFile => .endOfFile
  | .identifier _ => .identifier
  | .number _ => .number
  | .string _ => .string
  | .boolean _ => .boolean
  | .symbol sign => .symbol sign
  | .keyword word => .keyword word

/-- The spelling of a truth value. -/
def truthText (value : Bool) : String :=
  if value then "True" else "False"

/-- The text that a lexeme stands for. -/
def Lexeme.literal : Lexeme → String
  | .indentation blanks => blanks
  | .endOfLine => ""
  | .endOfFile => ""
  | .identifier name => name
  | .number digits => digits
  | .string value => value
  | .boolean value => truthText value
  | .symbol sign => sign.spelling
  | .keyword word => word.spelling

/-- How a message names a lexeme: a name, a number or a truth value by its text, a string as a
literal, anything else by its kind. -/
def Lexeme.display : Lexeme → String
  | .identifier name => name
  | .number digits => digits
  | .boolean value => truthText value
  | .string value => Text.quote value
  | lexeme => lexeme.kind.name

/-- The keyword that a lexeme is, if it is one. -/
def Lexeme.keyword? : Lexeme → Option Keyword
  | .keyword word => some word
  | _ => none

/-- The lexeme of a word: a truth value, a keyword or a name. -/
def Lexeme.ofWord (word : String) : Lexeme :=
  if word == "True" then .boolean true
  else if word == "False" then .boolean false
  else match Keyword.ofWord? word with
    | some reserved => .keyword reserved
    | none => .identifier word

/-! ### Tokens -/

/-- A lexeme and the line on which it starts. -/
structure Token where
  lexeme : Lexeme
  location : Location
deriving Repr, DecidableEq

def Token.kind (token : Token) : Kind :=
  token.lexeme.kind

theorem Token.kind_of_keyword? {token : Token} {word : Keyword}
    (isWord : token.lexeme.keyword? = some word) : token.kind = .keyword word := by
  obtain ⟨lexeme, location⟩ := token
  cases lexeme with
  | keyword => exact congrArg Kind.keyword (Option.some.inj isWord)
  | _ => cases isWord

def Token.display (token : Token) : String :=
  token.lexeme.display

/-! ### Brackets -/

/-- The three pairs of brackets. -/
inductive Bracket where
  | paren | square | brace
deriving Repr, DecidableEq

def Bracket.opener : Bracket → Symbol
  | .paren => .openParen
  | .square => .openBracket
  | .brace => .openBrace

def Bracket.closer : Bracket → Symbol
  | .paren => .closeParen
  | .square => .closeBracket
  | .brace => .closeBrace

/-- Both characters, as messages write an empty group. -/
def Bracket.pair (bracket : Bracket) : String :=
  bracket.opener.spelling ++ bracket.closer.spelling

/-- The bracket that a symbol opens. -/
def Symbol.opens? : Symbol → Option Bracket
  | .openParen => some .paren
  | .openBracket => some .square
  | .openBrace => some .brace
  | _ => none

/-- The bracket that a symbol closes. -/
def Symbol.closes? : Symbol → Option Bracket
  | .closeParen => some .paren
  | .closeBracket => some .square
  | .closeBrace => some .brace
  | _ => none

/-- The bracket that a lexeme opens. -/
def Lexeme.opens? : Lexeme → Option Bracket
  | .symbol sign => sign.opens?
  | _ => none

/-- The bracket that a lexeme closes. -/
def Lexeme.closes? : Lexeme → Option Bracket
  | .symbol sign => sign.closes?
  | _ => none

end Offside
