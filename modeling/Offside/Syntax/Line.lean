/-
This file reads one logical line: the indentation that starts it and the
statement or block header that fills it. A logical line ends at the end of a line
of text, except that a bracket which is still open carries it on. Which block a
line belongs to is decided later, from the depths of all lines.
-/

import Offside.Syntax.Stmt
import Offside.Syntax.Reading

namespace Offside

/-- A line that opens a block. -/
inductive Header where
  | ifTrue (condition : Expr)
  | elseIf (condition : Expr)
  | otherwise
  | whileTrue (condition : Expr)
  | forEach (target iterable : Expr)
  | attempt
  | handle (class? : Option Expr) (name : Option String)
  | cleanup
  | function (name : String) (parameters : List Parameter)
  | klass (name : String) (base : Option Expr)

/-- The word that a header starts with. -/
def Header.keyword : Header → Keyword
  | .ifTrue _ => .ifWord
  | .elseIf _ => .elifWord
  | .otherwise => .elseWord
  | .whileTrue _ => .whileWord
  | .forEach .. => .forWord
  | .attempt => .tryWord
  | .handle .. => .exceptWord
  | .cleanup => .finallyWord
  | .function .. => .defWord
  | .klass .. => .classWord

/-- The word that a simple statement starts with, if it starts with one. -/
def Simple.keyword? : Simple → Option Keyword
  | .expression _ => none
  | .assign .. => none
  | .pass => some .passWord
  | .breakLoop => some .breakWord
  | .continueLoop => some .continueWord
  | .returnValue _ => some .returnWord
  | .raiseValue _ => some .raiseWord
  | .delete _ => some .delWord
  | .importModule .. => some .importWord
  | .importNames .. => some .fromWord

/-- What fills a line. -/
inductive Content where
  | header (header : Header)
  | simple (statement : Simple)

/-- A logical line that is not blank. Its depth is the number of blanks before it, and its place
is that of its first token. -/
structure Line where
  depth : Nat
  location : Location
  content : Content

namespace Line

open Reading

/-- The end of a header. -/
def headerEnd : Reading Unit := do
  let _ ← expect (.symbol .colon)
  endOfLine

/-! ### Headers, after their first word -/

/-- The class and the name of an `except` clause. -/
def handlerClass : Reading (Option Expr × Option String) := do
  if ← isNext (.symbol .colon) then return (none, none)
  let class? ← expression [.keyword .asWord]
  if ← isNext (.keyword .asWord) then
    advance
    return (some class?, some (← identifier))
  return (some class?, none)

/-- The targets and the source of a `for` loop. With `in` the source arrives as the right side of
a membership test that ends the list of targets. -/
def loopClause : Reading (Expr × Expr) := do
  let location ← here
  let (targets, _) ← commaSeparated
    (fun _ => expression [.symbol .comma, .keyword .ofWord]) (fun _ => false) []
  let (targets, iterable) ←
    if ← isNext (.keyword .ofWord) then
      advance
      pure (targets, ← expressionList [])
    else match targets.reverse with
      | .binary _ .member last source :: before => pure ((last :: before).reverse, source)
      | _ => fail location .noLoopSource
  let target := match targets with
    | [target] => target
    | targets => .tuple location targets
  lift target.checkTarget
  return (target, iterable)

/-- One parameter, given the parameters before it. -/
def parameter (before : List Parameter) : Reading Parameter := do
  let location ← here
  let name ← identifier
  if before.any (·.name = name) then fail location (.duplicateParameter name)
  else if ← isNext (.symbol .assign) then
    advance
    return ⟨name, some (← expression [.symbol .comma])⟩
  else if before.any (·.default.isSome) then fail location (.parameterWithoutDefault name)
  else return ⟨name, none⟩

/-- Parameters in parentheses. -/
def parameters : Reading (List Parameter) := do
  let _ ← expect (.symbol .openParen)
  let found ←
    if ← isNext (.symbol .closeParen) then pure []
    else Prod.fst <$> commaSeparated parameter (·.kind = .symbol .closeParen) []
  let _ ← expect (.symbol .closeParen)
  return found

/-- The base of a class, in parentheses if there are any. -/
def baseClass : Reading (Option Expr) := do
  if ← isNext (.symbol .openParen) then
    advance
    let base ←
      if ← isNext (.symbol .closeParen) then pure none
      else some <$> expression []
    let _ ← expect (.symbol .closeParen)
    return base
  return none

/-! ### Simple statements, after their first word -/

/-- An expression, or nothing before the end of the line. -/
def optionalValue : Reading (Option Expr) := do
  if ← isNext .endOfLine then return none
  return some (← expressionList [])

/-- What `del` deletes. -/
def deletion (location : Location) : Reading Simple := do
  let target ← expressionList []
  if target.isTarget then return .delete target
  else fail location (.cannotDelete target.describe)

/-- What `import` imports. -/
def moduleImport : Reading Simple := do
  let path ← dottedName
  if ← isNext (.keyword .asWord) then
    advance
    return .importModule path (some (← identifier))
  return .importModule path none

/-- A name to import. A star is only allowed alone, and that was ruled out before. -/
def importedName : Reading String := do
  match ← peek with
  | some ⟨.symbol .times, location⟩ => fail location .starNotAlone
  | _ => identifier

/-- What `from` imports. -/
def namesImport : Reading Simple := do
  let path ← dottedName
  let _ ← expect (.keyword .importWord)
  if ← isNext (.symbol .times) then
    advance
    return .importNames path none
  let (names, _) ← commaSeparated (fun _ => importedName) (fun _ => false) []
  return .importNames path (some names)

/-- A statement that starts with no keyword. -/
def expressionOrAssignment : Reading Simple := do
  let first ← expressionList [.symbol .assign]
  if ← isNext (.symbol .assign) then
    lift first.checkTarget
    advance
    return .assign first (← expressionList [])
  return .expression first

/-! ### Whole lines -/

/-- A header that a word starts, or nothing if the word starts no header. -/
def header? (word : Keyword) : Option (Reading Header) :=
  match word with
  | .ifWord => some (Header.ifTrue <$> expression [])
  | .elifWord => some (Header.elseIf <$> expression [])
  | .whileWord => some (Header.whileTrue <$> expression [])
  | .elseWord => some (pure .otherwise)
  | .tryWord => some (pure .attempt)
  | .finallyWord => some (pure .cleanup)
  | .exceptWord => some ((fun (class?, name) => .handle class? name) <$> handlerClass)
  | .forWord => some ((fun (target, iterable) => .forEach target iterable) <$> loopClause)
  | .defWord => some (do return .function (← identifier) (← parameters))
  | .classWord => some (do return .klass (← identifier) (← baseClass))
  | _ => none

/-- A simple statement that a word starts, or nothing if the word starts none. -/
def statement? (location : Location) (word : Keyword) : Option (Reading Simple) :=
  match word with
  | .passWord => some (pure .pass)
  | .breakWord => some (pure .breakLoop)
  | .continueWord => some (pure .continueLoop)
  | .returnWord => some (Simple.returnValue <$> optionalValue)
  | .raiseWord => some (Simple.raiseValue <$> optionalValue)
  | .delWord => some (deletion location)
  | .importWord => some moduleImport
  | .fromWord => some namesImport
  | _ => none

/-- What fills a line that starts with this token. -/
def readContent (first : Token) : Reading Content := do
  let word? := first.lexeme.keyword?
  match word?.bind header?, word?.bind (statement? first.location) with
  | some rest, _ =>
    advance
    let header ← rest
    headerEnd
    return .header header
  | none, some rest =>
    advance
    let statement ← rest
    endOfLine
    return .simple statement
  | none, none =>
    let statement ← expressionOrAssignment
    endOfLine
    return .simple statement

/-- The line after its indentation; a blank line is nothing. -/
def afterIndentation (depth : Nat) : Reading (Option Line) := do
  match ← peek with
  | some ⟨.endOfLine, _⟩ =>
    advance
    return none
  | some first => return some ⟨depth, first.location, ← readContent first⟩
  | none => return none

/-- Reads one logical line. The indentation that it starts with is used up, so what is left is
shorter. -/
def read (stream : Stream) :
    Except SourceError (Option Line × { rest : Stream // rest.size < stream.size }) :=
  match stream with
  | .token ⟨.indentation blanks, _⟩ rest => do
    ahead rest
    let (line, ⟨left, bound⟩) ← afterIndentation blanks.length rest
    .ok (line, ⟨left, Nat.lt_succ_of_le bound⟩)
  | .token head _ => .error (.parse ⟨.expected .indentation head.display, some head.location⟩)
  | .failed error => .error (.lex error)
  | .ended => .error (.parse ⟨.expected .indentation "", none⟩)

/-- Reads all logical lines up to the end of the file, or up to the first fault. -/
def readAll (stream : Stream) : List (Option Line) × Option SourceError :=
  match stream with
  | .token ⟨.endOfFile, _⟩ _ => ([], none)
  | stream =>
    match read stream with
    | .error error => ([], some error)
    | .ok (line, ⟨rest, _shorter⟩) =>
      let (lines, error) := readAll rest
      (line :: lines, error)
termination_by stream.size

end Line

end Offside
