/-
This file reads expressions from a stream of tokens. Tokens are collected into a
row until one comes that cannot continue an expression. An opening bracket sets
the row aside and starts a new one; the matching closing bracket turns the inner
row into an operand and resumes the outer one. So one pass over the stream with
a stack of rows set aside handles any nesting.

Whoever reads a stream gets back what is left of it, together with the fact that
this is no longer than what there was. Loops over a stream end because each
round uses up a token.

Reading always looks one token ahead: a fault in the characters after a token is
reported as soon as that token is used.

What a successful step of a loop does is said once, beside the loop: `Lists` for
items with commas between them and `Shifts` for one token of a row. What is true
of everything that is read follows from these by induction.
-/

import Offside.Source.Stream
import Offside.Syntax.Group

namespace Offside

/-! ### Reading from a stream -/

/-- What may be left of a stream after reading from it. -/
abbrev Stream.Rest (stream : Stream) := { rest : Stream // rest.size ≤ stream.size }

/-- Reads a value from a stream. -/
def Reading (α : Type) : Type :=
  (stream : Stream) → Except SourceError (α × stream.Rest)

namespace Reading

instance : Monad Reading where
  pure value := fun stream => .ok (value, ⟨stream, Nat.le_refl _⟩)
  bind first next := fun stream =>
    match first stream with
    | .error error => .error error
    | .ok (value, ⟨middle, bound⟩) =>
      match next value middle with
      | .error error => .error error
      | .ok (result, ⟨rest, further⟩) => .ok (result, ⟨rest, Nat.le_trans further bound⟩)

/-- A fault of grammar. -/
def fail {α : Type} (location : Location) (fault : ParseFault) : Reading α :=
  fun _ => .error (.parse ⟨fault, some location⟩)

/-- A step that reads nothing. -/
def lift {α : Type} (result : Except ParseError α) : Reading α :=
  fun stream => match result with
    | .ok value => .ok (value, ⟨stream, Nat.le_refl _⟩)
    | .error error => .error (.parse error)

/-- The next token, if the stream has not come to its end or a fault. -/
def peek : Reading (Option Token) :=
  fun stream => match stream with
    | .token head rest => .ok (some head, ⟨.token head rest, Nat.le_refl _⟩)
    | .failed error => .ok (none, ⟨.failed error, Nat.le_refl _⟩)
    | .ended => .ok (none, ⟨.ended, Nat.le_refl _⟩)

/-- The next token has this kind. -/
def isNext (kind : Kind) : Reading Bool := do
  return (← peek).any (·.kind = kind)

/-- Looking one token ahead: a fault there is reported now. -/
def ahead (rest : Stream) : Except SourceError Unit :=
  match rest with
  | .failed error => .error (.lex error)
  | _ => .ok ()

/-- Uses up the next token. -/
def advance : Reading Unit :=
  fun stream => match stream with
    | .token _ rest =>
      match ahead rest with
      | .ok () => .ok ((), ⟨rest, Nat.le_succ _⟩)
      | .error error => .error error
    | .failed error => .error (.lex error)
    | .ended => .ok ((), ⟨.ended, Nat.le_refl _⟩)

/-- The place of the next token. Reading stops at the end-of-file token, so there always is one;
the place of an empty stream is never asked for. -/
def here : Reading Location := do
  match ← peek with
  | some token => return token.location
  | none => return default

/-- How a message names the next token. -/
def nextDisplay : Reading String := do
  return ((← peek).map Token.display).getD ""

/-- Uses up a token of this kind and gives it back, or reports what stands in its place. -/
def expect (kind : Kind) : Reading Token := do
  match ← peek with
  | some token =>
    if token.kind = kind then
      advance
      return token
    else fail token.location (.expected kind token.display)
  | none => fail default (.expected kind "")

/-- Uses up a name. -/
def identifier : Reading String := do
  return (← expect .identifier).lexeme.literal

/-- Every line ends where its statement does. -/
def endOfLine : Reading Unit := do
  match ← peek with
  | some ⟨.endOfLine, _⟩ => advance
  | some token =>
    match token.lexeme.closes? with
    | some bracket => fail token.location (.unmatchedCloser bracket.closer)
    | none => fail token.location (.unexpected token.display)
  | none => fail default (.unexpected "")

/-- Reads items with commas between them. Each item may depend on the items before it, which are
given reversed. After a comma the list may end if the next token says so; whether it ended with a
comma is given back too. -/
def commaSeparated {α : Type} (item : List α → Reading α) (ends : Token → Bool)
    (done : List α) (stream : Stream) : Except SourceError ((List α × Bool) × stream.Rest) :=
  match item done stream with
  | .error error => .error error
  | .ok (value, ⟨.token ⟨.symbol .comma, _⟩ after, bound⟩) =>
    match ahead after with
    | .error error => .error error
    | .ok () =>
      have shorter : after.size < stream.size := Nat.lt_of_succ_le bound
      match after with
      | .token next rest =>
        if ends next then
          .ok (((value :: done).reverse, true), ⟨.token next rest, Nat.le_of_lt shorter⟩)
        else
          match commaSeparated item ends (value :: done) (.token next rest) with
          | .error error => .error error
          | .ok (result, ⟨left, further⟩) =>
            .ok (result, ⟨left, Nat.le_trans further (Nat.le_of_lt shorter)⟩)
      | rest => .ok (((value :: done).reverse, true), ⟨rest, Nat.le_of_lt shorter⟩)
  | .ok (value, rest) => .ok (((value :: done).reverse, false), rest)
termination_by stream.size

/-- How a list of items ends after the items before, which are reversed: with an item that no comma
follows, with a comma that nothing more of the list follows, or further on. -/
inductive Lists {α : Type} (item : List α → Reading α) (ends : Token → Bool) :
    List α → Stream → List α × Bool → Stream → Prop
  | last {done : List α} {stream left : Stream} {value : α} {bound : left.size ≤ stream.size}
      (itemRead : item done stream = .ok (value, ⟨left, bound⟩))
      (noComma : ∀ location rest, left ≠ .token ⟨.symbol .comma, location⟩ rest) :
      Lists item ends done stream ((value :: done).reverse, false) left
  | closed {done : List α} {stream left : Stream} {value : α} {location : Location}
      {bound : (Stream.token ⟨.symbol .comma, location⟩ left).size ≤ stream.size}
      (itemRead : item done stream = .ok (value, ⟨.token ⟨.symbol .comma, location⟩ left, bound⟩))
      (ready : ahead left = .ok ())
      (atEnd : ∀ next rest, left = .token next rest → ends next = true) :
      Lists item ends done stream ((value :: done).reverse, true) left
  | more {done : List α} {stream rest left : Stream} {value : α} {location : Location}
      {next : Token} {result : List α × Bool}
      {bound : (Stream.token ⟨.symbol .comma, location⟩ (.token next rest)).size ≤ stream.size}
      (itemRead : item done stream =
        .ok (value, ⟨.token ⟨.symbol .comma, location⟩ (.token next rest), bound⟩))
      (goesOn : ¬ ends next = true)
      (others : Lists item ends (value :: done) (.token next rest) result left) :
      Lists item ends done stream result left

section Listing

variable {α : Type} {item : List α → Reading α} {ends : Token → Bool} {done : List α}
  {stream left : Stream} {result : List α × Bool}

theorem lists_of_commaSeparated {bound : left.size ≤ stream.size}
    (success : commaSeparated item ends done stream = .ok (result, ⟨left, bound⟩)) :
    Lists item ends done stream result left := by
  induction size : stream.size using Nat.strongRecOn generalizing stream done with
  | ind count inductionHypothesis =>
    unfold commaSeparated at success
    split at success
    · cases success
    next value location after bound itemRead =>
      split at success
      · cases success
      next ready =>
        cases after with
        | failed => cases ready
        | ended =>
          cases success
          exact .closed itemRead ready nofun
        | token next rest =>
          dsimp only at success
          split at success
          next atEnd =>
            cases success
            refine .closed itemRead ready fun other others same => ?_
            obtain ⟨rfl, rfl⟩ := Stream.token.inj same
            exact atEnd
          next goesOn =>
            split at success
            · cases success
            next more last further moreRead =>
              cases success
              have shorter : (Stream.token next rest).size < count := by
                rw [← size]
                exact Nat.lt_of_succ_le bound
              exact .more itemRead goesOn (inductionHypothesis _ shorter moreRead rfl)
    next value rest noComma itemRead =>
      obtain ⟨rest, bound⟩ := rest
      cases success
      refine .last itemRead ?_
      rintro location after rfl
      exact noComma location after bound rfl

theorem Lists.exists_eq (lists : Lists item ends done stream result left) :
    ∃ bound, commaSeparated item ends done stream = .ok (result, ⟨left, bound⟩) := by
  induction lists with
  | @last _ _ _ _ bound itemRead noComma =>
    refine ⟨bound, ?_⟩
    unfold commaSeparated
    rw [itemRead]
    split
    next same => cases same
    next same =>
      cases same
      exact absurd rfl (noComma _ _)
    next same =>
      cases same
      rfl
  | @closed _ _ left _ _ bound itemRead ready atEnd =>
    refine ⟨Nat.le_of_lt (Nat.lt_of_succ_le bound), ?_⟩
    unfold commaSeparated
    simp only [itemRead, ready]
    cases left with
    | token next rest => simp only [atEnd next rest rfl, if_true]
    | failed | ended => rfl
  | @more _ _ _ _ _ _ _ _ bound itemRead goesOn _ moreRead =>
    obtain ⟨further, moreRead⟩ := moreRead
    refine ⟨Nat.le_trans further (Nat.le_of_lt (Nat.lt_of_succ_le bound)), ?_⟩
    unfold commaSeparated
    simp only [itemRead, ahead, moreRead, goesOn, Bool.false_eq_true, if_false]

end Listing

end Reading

/-! ### Collecting a row -/

namespace Row

open Ladder (failAt)

/-- A bracket that is still open, with the row set aside at it. Rows are kept reversed. -/
structure Pending where
  opening : Group.Opening
  before : List Item

/-- The bracket is closed later on the same line. The rest of the line starts inside `depth`
brackets, of which this one is the outermost. -/
def closesLater (bracket : Bracket) : Nat → Stream → Bool
  | depth, .token head rest =>
    match head.lexeme with
    | .endOfLine => false
    | .endOfFile => false
    | lexeme =>
      if lexeme.opens?.isSome then closesLater bracket (depth + 1) rest
      else match lexeme.closes? with
        | some closed =>
          if depth ≤ 1 then closed = bracket else closesLater bracket (depth - 1) rest
        | none => closesLater bracket depth rest
  | _, _ => false

/-- A token that has no place in a group is at fault if the group is closed later on the line, and
the bracket that opened the group otherwise. -/
def misplaced {α : Type} (pending : Pending) (token : Token) (rest : Stream) :
    Except SourceError α :=
  if closesLater pending.opening.bracket 1 rest then
    .error (.parse ⟨.unexpectedInGroup token.display, some token.location⟩)
  else
    .error (.parse ⟨.neverClosed pending.opening.bracket.opener, some pending.opening.location⟩)

/-- Whether a token that is no operand, operator or bracket separates the parts of a group. -/
def separates (bracket : Bracket) : Lexeme → Bool
  | .symbol .comma => true
  | .symbol .colon => bracket ≠ .paren
  | .symbol .assign => bracket = .paren
  | .keyword .forWord => bracket = .square
  | .keyword .ofWord => bracket = .square
  | .keyword .ifWord => bracket = .square
  | _ => false

/-- Adds an operand to a reversed row. After a point it is a name and completes an attribute. -/
def addOperand (row : List Item) (operand : Expr) (name : String) :
    Except ParseError (List Item) :=
  match row with
  | .token ⟨.symbol .dot, location⟩ :: .operand object :: before =>
    .ok (.operand (.attribute location object name) :: before)
  | .token ⟨.symbol .dot, location⟩ :: _ => failAt location .dotWithoutObject
  | _ => .ok (.operand operand :: row)

/-- Puts the expression of a closed group into the row that was set aside. It takes the place of
an operand directly before it. -/
def closeGroup (pending : Pending) (inner : List Item) : Except ParseError (List Item) :=
  match pending.before with
  | .operand object :: before => do
    return .operand (← Group.close pending.opening (some object) inner) :: before
  | before => do return .operand (← Group.close pending.opening none inner) :: before

/-- The row ends in a point, so a name must follow. -/
def wantsName (row : List Item) : Bool :=
  match row with
  | .token ⟨.symbol .dot, _⟩ :: _ => true
  | _ => false

/-- A fault of grammar among the faults of a source text. -/
def orFault {α : Type} (result : Except ParseError α) : Except SourceError α :=
  match result with
  | .ok value => .ok value
  | .error error => .error (.parse error)

/-- What a token does to a row. -/
inductive Role where
  /-- The end or the start of a line. -/
  | lineBreak
  | fileEnd
  | opens (bracket : Bracket)
  | closes (bracket : Bracket)
  | operand (operand : Except ParseError Expr)
  /-- An operator or a point. -/
  | joins
  /-- Anything else: a separator in some places, the end of the row in others. -/
  | divides

/-- The role of a token. -/
def role (token : Token) : Role :=
  match token.lexeme with
  | .endOfLine => .lineBreak
  | .indentation _ => .lineBreak
  | .endOfFile => .fileEnd
  | lexeme =>
    match lexeme.opens? with
    | some bracket => .opens bracket
    | none =>
      match lexeme.closes? with
      | some bracket => .closes bracket
      | none =>
        match Group.operand? token with
        | some operand => .operand operand
        | none =>
          if lexeme.isOperator || lexeme = .symbol .dot then .joins else .divides

/-- Collects a row up to a token that cannot continue it, which is left in the stream. -/
def collect (stop : List Kind) (pending : List Pending) (row : List Item) :
    Stream → Except SourceError (List Item × Stream)
  | .token head rest =>
    if pending.isEmpty && stop.contains head.kind then .ok (row.reverse, .token head rest)
    else if wantsName row && head.kind ≠ .identifier then
      .error (.parse ⟨.expectedAttributeName head.display, some head.location⟩)
    else match role head with
      | .lineBreak =>
        -- Inside brackets the ends of lines do not matter.
        if pending.isEmpty then .ok (row.reverse, .token head rest)
        else do
          Reading.ahead rest
          collect stop pending row rest
      | .fileEnd =>
        match pending.head? with
        | none => .ok (row.reverse, .token head rest)
        | some inner =>
          .error (.parse ⟨.neverClosed inner.opening.bracket.opener, some inner.opening.location⟩)
      | .opens bracket => do
        Reading.ahead rest
        collect stop (⟨⟨bracket, head.location⟩, row⟩ :: pending) [] rest
      | .closes bracket =>
        match pending.head? with
        | none => .ok (row.reverse, .token head rest)
        | some inner =>
          if inner.opening.bracket = bracket then do
            Reading.ahead rest
            let resumed ← orFault (closeGroup inner row.reverse)
            collect stop pending.tail resumed rest
          else
            .error (.parse ⟨.mismatchedCloser bracket.closer inner.opening.bracket.opener
              inner.opening.location.line, some head.location⟩)
      | .operand operand => do
        let operand ← orFault operand
        Reading.ahead rest
        let extended ← orFault (addOperand row operand head.lexeme.literal)
        collect stop pending extended rest
      | .joins => do
        Reading.ahead rest
        collect stop pending (.token head :: row) rest
      | .divides =>
        match pending.head? with
        | none =>
          if head.lexeme = .symbol .comma then do
            Reading.ahead rest
            collect stop pending (.token head :: row) rest
          else .ok (row.reverse, .token head rest)
        | some inner =>
          if separates inner.opening.bracket head.lexeme then do
            Reading.ahead rest
            collect stop pending (.token head :: row) rest
          else misplaced inner head rest
  | .failed error => .error (.lex error)
  | .ended => .ok (row.reverse, .ended)

theorem bind_ok {ε α β : Type} {first : Except ε α} {next : α → Except ε β} {result : β}
    (success : (first >>= next) = .ok result) :
    ∃ value, first = .ok value ∧ next value = .ok result := by
  cases first with
  | error => simp [bind, Except.bind] at success
  | ok value => exact ⟨value, rfl, success⟩

/-- Only tokens that are operands have their role. -/
theorem operand?_of_role {token : Token} {operand : Except ParseError Expr}
    (isOperand : role token = .operand operand) : Group.operand? token = some operand := by
  unfold role at isOperand
  split at isOperand
  any_goals cases isOperand
  split at isOperand
  · cases isOperand
  split at isOperand
  · cases isOperand
  split at isOperand
  next known =>
    cases isOperand
    exact known
  next =>
    split at isOperand <;> cases isOperand

/-- What one token does to the rows that are set aside and to the current one, both reversed. -/
inductive Shifts (head : Token) : List Pending → List Item → List Pending → List Item → Prop where
  | lineBreak {pending : List Pending} {row : List Item} (isBreak : role head = .lineBreak)
      (inside : pending ≠ []) : Shifts head pending row pending row
  | opens {pending : List Pending} {row : List Item} {bracket : Bracket}
      (isOpener : role head = .opens bracket) :
      Shifts head pending row (⟨⟨bracket, head.location⟩, row⟩ :: pending) []
  | closes {pending : List Pending} {row resumed : List Item} {inner : Pending}
      (isCloser : role head = .closes inner.opening.bracket)
      (closed : closeGroup inner row.reverse = .ok resumed) :
      Shifts head (inner :: pending) row pending resumed
  | operand {pending : List Pending} {row extended : List Item} {operand : Expr}
      (isOperand : role head = .operand (.ok operand))
      (named : wantsName row = true → head.kind = .identifier)
      (added : addOperand row operand head.lexeme.literal = .ok extended) :
      Shifts head pending row pending extended
  | keeps {pending : List Pending} {row : List Item}
      (isOther : role head = .joins ∨ role head = .divides) :
      Shifts head pending row pending (.token head :: row)

theorem orFault_eq_ok {α : Type} {result : Except ParseError α} {value : α}
    (success : orFault result = .ok value) : result = .ok value := by
  cases result with
  | error => cases success
  | ok => rw [orFault] at success; cases success; rfl

/-- Collecting stops before a token, outside of all brackets, or goes on behind it. -/
theorem collect_cases {stop : List Kind} {pending : List Pending} {row : List Item} {head : Token}
    {rest : Stream} {result : List Item × Stream}
    (collected : collect stop pending row (.token head rest) = .ok result) :
    (pending = [] ∧ result = (row.reverse, .token head rest)) ∨
      head.lexeme ≠ .endOfFile ∧ ∃ pending' row', Shifts head pending row pending' row' ∧
        collect stop pending' row' rest = .ok result := by
  have notEnd {other : Role} (isOther : role head = other) (noEnd : other ≠ .fileEnd) :
      head.lexeme ≠ .endOfFile := by
    rintro isEnd
    rw [role, isEnd] at isOther
    exact noEnd isOther.symm
  unfold collect at collected
  split at collected
  next stops =>
    rw [Bool.and_eq_true, List.isEmpty_iff] at stops
    cases collected
    exact .inl ⟨stops.1, rfl⟩
  split at collected
  next => cases collected
  next noFault =>
    have named : wantsName row = true → head.kind = .identifier := by
      intro wants
      simpa [wants] using noFault
    split at collected
    next isBreak =>
      split at collected
      next outside =>
        cases collected
        exact .inl ⟨List.isEmpty_iff.mp outside, rfl⟩
      next inside =>
        obtain ⟨_, -, goesOn⟩ := bind_ok collected
        refine .inr ⟨notEnd isBreak (by simp), pending, row, .lineBreak isBreak ?_, goesOn⟩
        rwa [List.isEmpty_iff] at inside
    next =>
      split at collected
      next outside =>
        cases collected
        exact .inl ⟨List.head?_eq_none_iff.mp outside, rfl⟩
      next => cases collected
    next bracket isOpener =>
      obtain ⟨_, -, goesOn⟩ := bind_ok collected
      exact .inr ⟨notEnd isOpener (by simp), _, _, .opens isOpener, goesOn⟩
    next bracket isCloser =>
      split at collected
      next outside =>
        cases collected
        exact .inl ⟨List.head?_eq_none_iff.mp outside, rfl⟩
      next inner innermost =>
        split at collected
        next same =>
          subst same
          obtain ⟨outer, rfl⟩ := List.head?_eq_some_iff.mp innermost
          obtain ⟨_, -, goesOn⟩ := bind_ok collected
          obtain ⟨resumed, closed, goesOn⟩ := bind_ok goesOn
          exact .inr ⟨notEnd isCloser (by simp), _, _, .closes isCloser (orFault_eq_ok closed),
            goesOn⟩
        next => cases collected
    next operand isOperand =>
      obtain ⟨value, read, goesOn⟩ := bind_ok collected
      obtain ⟨_, -, goesOn⟩ := bind_ok goesOn
      obtain ⟨extended, added, goesOn⟩ := bind_ok goesOn
      rw [orFault_eq_ok read] at isOperand
      exact .inr ⟨notEnd isOperand (by simp), _, _,
        .operand isOperand named (orFault_eq_ok added), goesOn⟩
    next isJoint =>
      obtain ⟨_, -, goesOn⟩ := bind_ok collected
      exact .inr ⟨notEnd isJoint (by simp), _, _, .keeps (.inl isJoint), goesOn⟩
    next isDivider =>
      have goesOn (further : (Reading.ahead rest >>= fun _ =>
          collect stop pending (.token head :: row) rest) = .ok result) :
          head.lexeme ≠ .endOfFile ∧ ∃ pending' row', Shifts head pending row pending' row' ∧
            collect stop pending' row' rest = .ok result := by
        obtain ⟨_, -, further⟩ := bind_ok further
        exact ⟨notEnd isDivider (by simp), _, _, .keeps (.inr isDivider), further⟩
      split at collected
      next outside =>
        split at collected
        next => exact .inr (goesOn collected)
        next =>
          cases collected
          exact .inl ⟨List.head?_eq_none_iff.mp outside, rfl⟩
      next =>
        split at collected
        next => exact .inr (goesOn collected)
        next =>
          unfold misplaced at collected
          split at collected <;> cases collected

/-- What is left behind a row is no longer than the stream was. -/
theorem size_of_collect {stop : List Kind} {pending : List Pending} {row : List Item}
    {stream : Stream} {result : List Item × Stream}
    (collected : collect stop pending row stream = .ok result) :
    result.2.size ≤ stream.size := by
  induction stream generalizing pending row with
  | ended =>
    cases collected
    exact Nat.le_refl _
  | failed => cases collected
  | token head rest inductionHypothesis =>
    obtain ⟨-, rfl⟩ | ⟨-, _, _, -, goesOn⟩ := collect_cases collected
    · exact Nat.le_refl _
    · exact Nat.le_trans (inductionHypothesis goesOn) (Nat.le_succ _)

/-! ### Line breaks in rows -/

open Ladder (Unbroken isBreak)

theorem isBreak_of_role {token : Token} (goesOn : role token ≠ .lineBreak) :
    isBreak (.token token) = false := by
  obtain ⟨lexeme, location⟩ := token
  cases lexeme with
  | endOfLine | indentation => exact absurd rfl goesOn
  | _ => rfl

/-- A token keeps the current row unbroken, and those that are set aside. -/
theorem Shifts.unbroken {head : Token} {pending pending' : List Pending} {row row' : List Item}
    (shifts : Shifts head pending row pending' row') (whole : Unbroken row)
    (aside : ∀ other ∈ pending, Unbroken other.before) :
    Unbroken row' ∧ ∀ other ∈ pending', Unbroken other.before := by
  have behind {before : List Item} (unbroken : Unbroken before) (expression : Expr) :
      Unbroken (.operand expression :: before) :=
    List.forall_mem_cons.mpr ⟨rfl, unbroken⟩
  cases shifts with
  | lineBreak => exact ⟨whole, aside⟩
  | opens => exact ⟨List.forall_mem_nil _, List.forall_mem_cons.mpr ⟨whole, aside⟩⟩
  | @closes pending row resumed inner _ closed =>
    obtain ⟨before, others⟩ := List.forall_mem_cons.mp aside
    refine ⟨?_, others⟩
    unfold closeGroup at closed
    split at closed
    next object earlier same =>
      obtain ⟨group, -, same'⟩ := bind_ok closed
      cases same'
      rw [same] at before
      exact behind (List.forall_mem_cons.mp before).2 group
    next =>
      obtain ⟨group, -, same⟩ := bind_ok closed
      cases same
      exact behind before group
  | operand _ _ added =>
    refine ⟨?_, aside⟩
    unfold addOperand at added
    split at added
    · cases added
      exact behind (List.forall_mem_cons.mp (List.forall_mem_cons.mp whole).2).2 _
    · cases added
    · cases added
      exact behind whole _
  | keeps isOther =>
    have goesOn : role head ≠ .lineBreak := by
      obtain isOther | isOther := isOther <;> simp [isOther]
    exact ⟨List.forall_mem_cons.mpr ⟨isBreak_of_role goesOn, whole⟩, aside⟩

/-- A row that is collected from the start on has no line breaks. -/
theorem unbroken_of_collect {stop : List Kind} {pending : List Pending} {row : List Item}
    {stream : Stream} {result : List Item × Stream}
    (collected : collect stop pending row stream = .ok result) (whole : Unbroken row)
    (aside : ∀ other ∈ pending, Unbroken other.before) : Unbroken result.1 := by
  have reversed {row : List Item} (whole : Unbroken row) : Unbroken row.reverse :=
    fun item listed => whole item (List.mem_reverse.mp listed)
  induction stream generalizing pending row with
  | ended =>
    cases collected
    exact reversed whole
  | failed => cases collected
  | token head rest inductionHypothesis =>
    obtain ⟨-, rfl⟩ | ⟨-, pending', row', shifts, goesOn⟩ := collect_cases collected
    · exact reversed whole
    · obtain ⟨wholeThen, asideThen⟩ := shifts.unbroken whole aside
      exact inductionHypothesis goesOn wholeThen asideThen

end Row

namespace Reading

/-- Collects the row of an expression outside of brackets. -/
def row (stop : List Kind) : Reading (List Item) :=
  fun stream =>
    match collected : Row.collect stop [] [] stream with
    | .ok (items, rest) => .ok (items, ⟨rest, Row.size_of_collect collected⟩)
    | .error error => .error error

/-- Reads one expression. The token that ends it is left in the stream; outside of brackets the
kinds in `stop` end it too. -/
def expression (stop : List Kind) : Reading Expr := do
  let location ← here
  match ← row stop with
  | [] => fail location (.expectedExpression (← nextDisplay))
  | items => lift (Ladder.reduce items)

/-- A comma-separated list ends before the end of the line, an assignment sign, a colon or any
kind in `stop`. -/
def endsList (stop : List Kind) (token : Token) : Bool :=
  token.kind = .endOfLine || token.kind = .symbol .assign || token.kind = .symbol .colon ||
    stop.contains token.kind

/-- Reads one expression, or several with commas between them, which form a tuple. -/
def expressionList (stop : List Kind) : Reading Expr := do
  let location ← here
  let stop := stop ++ [.symbol .comma]
  let (elements, trailing) ← commaSeparated (fun _ => expression stop) (endsList stop) []
  match elements, trailing with
  | [element], false => return element
  | elements, _ => return .tuple location elements

/-- Reads names with points between them. -/
def dottedName (stream : Stream) : Except SourceError (List String × stream.Rest) :=
  match identifier stream with
  | .error error => .error error
  | .ok (name, ⟨.token ⟨.symbol .dot, _⟩ after, bound⟩) =>
    match ahead after with
    | .error error => .error error
    | .ok () =>
      match dottedName after with
      | .error error => .error error
      | .ok (path, ⟨rest, further⟩) =>
        .ok (name :: path, ⟨rest, Nat.le_trans further (Nat.le_of_succ_le bound)⟩)
  | .ok (name, rest) => .ok ([name], rest)
termination_by stream.size
decreasing_by exact Nat.lt_of_succ_le bound

end Reading

end Offside
