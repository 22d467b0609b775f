/-
This file groups lines into blocks by their depth. The block of a header is the
run of lines after it that are indented deeper than it; its first line fixes the
depth of all of them. A clause (`elif`, `else`, `except`, `finally`) belongs to
the statement whose header has the same depth and stands directly before it.

While grouping, the place of each statement is known, so `break` and `continue`
outside of a loop and `return` outside of a function are refused here. A function
body is outside of every loop around it, and a class body is outside of every
loop and every function around it.

Each function takes the lines that are left and gives back what it leaves, with
the fact that this is no longer; a statement uses up its own line, so the
grouping ends.
-/

import Offside.Syntax.Line

namespace Offside

namespace Block

/-- What a statement may do where it stands. -/
structure Place where
  inLoop : Bool
  inFunction : Bool

def Place.top : Place := ⟨false, false⟩

/-- The body of a loop. -/
def Place.loop (place : Place) : Place := { place with inLoop := true }

/-- The body of a function. -/
def Place.function : Place := ⟨false, true⟩

/-- The body of a class. -/
def Place.klass : Place := ⟨false, false⟩

/-- What may be left of some lines. -/
abbrev Rest (lines : List Line) := { rest : List Line // rest.length ≤ lines.length }

def failAt {α : Type} (location : Location) (fault : ParseFault) : Except ParseError α :=
  .error ⟨fault, some location⟩

/-- A simple statement that stands where it may. -/
def simple (place : Place) (location : Location) (statement : Simple) : Except ParseError Stmt :=
  match statement with
  | .breakLoop =>
    if place.inLoop then .ok (.simple location .breakLoop)
    else failAt location (.outsideLoop .breakWord)
  | .continueLoop =>
    if place.inLoop then .ok (.simple location .continueLoop)
    else failAt location (.outsideLoop .continueWord)
  | .returnValue value =>
    if place.inFunction then .ok (.simple location (.returnValue value))
    else failAt location .returnOutsideFunction
  | other => .ok (.simple location other)

/-- The header of a line at this depth, if the line is one. -/
def Line.headerAt? (line : Line) (depth : Nat) : Option Header :=
  if line.depth = depth then
    match line.content with
    | .header header => some header
    | .simple _ => none
  else none

mutual

/-- The statements at this depth, up to a line that is less deep. -/
def sequence (place : Place) (depth : Nat) (lines : List Line) :
    Except ParseError (List Stmt × Rest lines) :=
  match lines with
  | [] => .ok ([], ⟨[], Nat.le_refl _⟩)
  | line :: rest =>
    if line.depth < depth then .ok ([], ⟨line :: rest, Nat.le_refl _⟩)
    else if depth < line.depth then failAt line.location .unexpectedIndent
    else
      match statement place line rest with
      | .error error => .error error
      | .ok (first, ⟨middle, bound⟩) =>
        match sequence place depth middle with
        | .error error => .error error
        | .ok (others, ⟨left, bound1⟩) =>
          .ok (first :: others, ⟨left, by simp only [List.length_cons]; omega⟩)
termination_by 4 * lines.length + 0

/-- The statement that starts with a line, whose blocks and clauses are among the lines after
it. -/
def statement (place : Place) (line : Line) (lines : List Line) :
    Except ParseError (Stmt × Rest lines) :=
  match line.content with
  | .simple action => do return (← simple place line.location action, ⟨lines, Nat.le_refl _⟩)
  | .header header =>
    match header with
    | .ifTrue condition => do
      let (first, ⟨rest, bound⟩) ← body place line header lines
      let (others, ⟨rest1, bound1⟩) ← branches place line.depth rest
      let (otherwise, ⟨rest2, bound2⟩) ← elseClause place line.depth rest1
      return (.choice line.location (.mk line.location condition first :: others) otherwise,
        ⟨rest2, by omega⟩)
    | .whileTrue condition => do
      let (body, ⟨rest, bound⟩) ← body place.loop line header lines
      let (otherwise, ⟨rest1, bound1⟩) ← elseClause place line.depth rest
      return (.whileLoop line.location condition body otherwise, ⟨rest1, by omega⟩)
    | .forEach target iterable => do
      let (body, ⟨rest, bound⟩) ← body place.loop line header lines
      let (otherwise, ⟨rest1, bound1⟩) ← elseClause place line.depth rest
      return (.forLoop line.location target iterable body otherwise, ⟨rest1, by omega⟩)
    | .attempt => do
      let (body, ⟨rest, bound⟩) ← body place line header lines
      let (handlers, ⟨rest1, bound1⟩) ← handlers place line.depth none rest
      let (otherwise, ⟨rest2, bound2⟩) ← attemptElse place line.depth handlers.isEmpty rest1
      let (cleanup, ⟨rest3, bound3⟩) ← finallyClause place line.depth rest2
      if handlers.isEmpty && cleanup.isNone then failAt line.location .tryAlone
      else return (.attempt line.location body handlers otherwise cleanup, ⟨rest3, by omega⟩)
    | .function name parameters => do
      let (body, rest) ← body .function line header lines
      return (.functionDef line.location name parameters body, rest)
    | .klass name base => do
      let (body, rest) ← body .klass line header lines
      return (.classDef line.location name base body, rest)
    | .elseIf _ => failAt line.location (.strayClause .elifWord)
    | .otherwise => failAt line.location (.strayClause .elseWord)
    | .handle .. => failAt line.location (.strayClause .exceptWord)
    | .cleanup => failAt line.location (.strayClause .finallyWord)
termination_by 4 * lines.length + 3

/-- The block of a header. -/
def body (place : Place) (line : Line) (header : Header) (lines : List Line) :
    Except ParseError (List Stmt × Rest lines) :=
  match lines with
  | [] => failAt line.location (.expectedBlock header.keyword line.location.line)
  | first :: rest =>
    if first.depth ≤ line.depth then
      failAt first.location (.expectedBlock header.keyword line.location.line)
    else
      match sequence place first.depth (first :: rest) with
      | .error error => .error error
      | .ok (statements, ⟨[], bound⟩) => .ok (statements, ⟨[], bound⟩)
      | .ok (statements, ⟨after :: left, bound⟩) =>
        if line.depth < after.depth then failAt after.location .unmatchedUnindent
        else .ok (statements, ⟨after :: left, bound⟩)
termination_by 4 * lines.length + 1

/-- The `elif` clauses at this depth. -/
def branches (place : Place) (depth : Nat) (lines : List Line) :
    Except ParseError (List Branch × Rest lines) :=
  match lines with
  | [] => .ok ([], ⟨[], Nat.le_refl _⟩)
  | line :: rest =>
    match Line.headerAt? line depth with
    | some (.elseIf condition) => do
      let (block, ⟨middle, bound⟩) ← body place line (.elseIf condition) rest
      let (others, ⟨left, bound1⟩) ← branches place depth middle
      return (.mk line.location condition block :: others,
        ⟨left, by simp only [List.length_cons]; omega⟩)
    | _ => .ok ([], ⟨line :: rest, Nat.le_refl _⟩)
termination_by 4 * lines.length + 2

/-- The `else` clause at this depth. -/
def elseClause (place : Place) (depth : Nat) (lines : List Line) :
    Except ParseError (Option (List Stmt) × Rest lines) :=
  match lines with
  | [] => .ok (none, ⟨[], Nat.le_refl _⟩)
  | line :: rest =>
    match Line.headerAt? line depth with
    | some .otherwise => do
      let (block, ⟨left, bound⟩) ← body place line .otherwise rest
      return (some block, ⟨left, by simp only [List.length_cons]; omega⟩)
    | _ => .ok (none, ⟨line :: rest, Nat.le_refl _⟩)
termination_by 4 * lines.length + 2

/-- The `else` clause of a `try` statement, which needs an `except` clause before it. -/
def attemptElse (place : Place) (depth : Nat) (unhandled : Bool) (lines : List Line) :
    Except ParseError (Option (List Stmt) × Rest lines) :=
  match lines with
  | [] => .ok (none, ⟨[], Nat.le_refl _⟩)
  | line :: rest =>
    match Line.headerAt? line depth with
    | some .otherwise =>
      if unhandled then failAt line.location .elseWithoutExcept
      else do
        let (block, ⟨left, bound⟩) ← body place line .otherwise rest
        return (some block, ⟨left, by simp only [List.length_cons]; omega⟩)
    | _ => .ok (none, ⟨line :: rest, Nat.le_refl _⟩)
termination_by 4 * lines.length + 2

/-- The `finally` clause at this depth. -/
def finallyClause (place : Place) (depth : Nat) (lines : List Line) :
    Except ParseError (Option (List Stmt) × Rest lines) :=
  match lines with
  | [] => .ok (none, ⟨[], Nat.le_refl _⟩)
  | line :: rest =>
    match Line.headerAt? line depth with
    | some .cleanup => do
      let (block, ⟨left, bound⟩) ← body place line .cleanup rest
      return (some block, ⟨left, by simp only [List.length_cons]; omega⟩)
    | _ => .ok (none, ⟨line :: rest, Nat.le_refl _⟩)
termination_by 4 * lines.length + 2

/-- The `except` clauses at this depth. A clause without a class must be the last; its place is
remembered to report the clause after it. -/
def handlers (place : Place) (depth : Nat) (bare : Option Location) (lines : List Line) :
    Except ParseError (List Handler × Rest lines) :=
  match lines with
  | [] => .ok ([], ⟨[], Nat.le_refl _⟩)
  | line :: rest =>
    match Line.headerAt? line depth with
    | some (.handle class? name) =>
      match bare with
      | some location => failAt location .bareExceptNotLast
      | none => do
        let (block, ⟨middle, bound⟩) ← body place line (.handle class? name) rest
        let bare := if class?.isNone then some line.location else none
        let (others, ⟨left, bound1⟩) ← handlers place depth bare middle
        return (.mk line.location class? name block :: others,
          ⟨left, by simp only [List.length_cons]; omega⟩)
    | _ => .ok ([], ⟨line :: rest, Nat.le_refl _⟩)
termination_by 4 * lines.length + 2

end

/-- The statements of a whole file. Its first line must not be indented. -/
def group (lines : List Line) : Except ParseError (List Stmt) :=
  match lines with
  | [] => .ok []
  | first :: rest =>
    if first.depth ≠ 0 then failAt first.location .unexpectedIndent
    else do return (← sequence .top 0 (first :: rest)).1

/-! ### Clauses that may be missing -/

/-- The header that the next line is, if it stands at this depth. -/
def nextHeader? (depth : Nat) (lines : List Line) : Option Header :=
  lines.head?.bind (Line.headerAt? · depth)

/-- A way to read a clause that may be missing: the block after its header, or nothing if the next
line is another one. -/
structure ReadsClause (place : Place) (depth : Nat) (header : Header)
    (clause : (lines : List Line) → Except ParseError (Option (List Stmt) × Rest lines)) :
    Prop where
  stands {line : Line} {rest : List Line} (isHeader : Line.headerAt? line depth = some header) :
    clause (line :: rest) = do
      let (block, ⟨left, bound⟩) ← body place line header rest
      return (some block, ⟨left, Nat.le_succ_of_le bound⟩)
  missing {lines : List Line} (differs : nextHeader? depth lines ≠ some header) :
    clause lines = .ok (none, ⟨lines, Nat.le_refl _⟩)

theorem elseClause_reads (place : Place) (depth : Nat) :
    ReadsClause place depth .otherwise (elseClause place depth) where
  stands isHeader := by
    rw [elseClause]
    simp only [isHeader]
  missing {lines} differs := by
    cases lines with
    | nil => rw [elseClause]
    | cons line rest =>
      rw [elseClause]
      split
      next isHeader => exact absurd isHeader differs
      next => rfl

theorem finallyClause_reads (place : Place) (depth : Nat) :
    ReadsClause place depth .cleanup (finallyClause place depth) where
  stands isHeader := by
    rw [finallyClause]
    simp only [isHeader]
  missing {lines} differs := by
    cases lines with
    | nil => rw [finallyClause]
    | cons line rest =>
      rw [finallyClause]
      split
      next isHeader => exact absurd isHeader differs
      next => rfl

/-- Without an `else` line it does not matter whether there is a handler. -/
theorem attemptElse_of_ne (place : Place) {depth : Nat} (unhandled : Bool) {lines : List Line}
    (differs : nextHeader? depth lines ≠ some .otherwise) :
    attemptElse place depth unhandled lines = .ok (none, ⟨lines, Nat.le_refl _⟩) := by
  cases lines with
  | nil => rw [attemptElse]
  | cons line rest =>
    rw [attemptElse]
    split
    next isHeader => exact absurd isHeader differs
    next => rfl

/-- After a handler an `else` clause is read as after any other statement. -/
theorem attemptElse_reads (place : Place) (depth : Nat) :
    ReadsClause place depth .otherwise (attemptElse place depth false) where
  stands isHeader := by
    rw [attemptElse]
    simp only [isHeader, Bool.false_eq_true, if_false]
  missing differs := attemptElse_of_ne place false differs

/-- Without a handler an `else` clause is refused. -/
theorem attemptElse_refused (place : Place) {depth : Nat} {line : Line} {rest : List Line}
    (isHeader : Line.headerAt? line depth = some .otherwise) :
    attemptElse place depth true (line :: rest) = failAt line.location .elseWithoutExcept := by
  rw [attemptElse]
  simp only [isHeader, if_true]

end Block

/-- A program: the statements of a file. -/
abbrev Program := List Stmt

/-- Reads a program from the text of a file. All lines are read before any are grouped, so a fault
in a line is reported before a fault in the layout of earlier lines. -/
def Program.parse (file text : String) : Except SourceError Program :=
  match Line.readAll (Lexer.stream file text) with
  | (_, some error) => .error error
  | (lines, none) =>
    match Block.group (lines.filterMap id) with
    | .ok statements => .ok statements
    | .error error => .error (.parse error)

end Offside
