/-
This file takes the collecting of a row apart into turns, one for each token. What a turn
does depends on the rows so far and on its token, not on the tokens after it: it stops the
collecting, turns the rows into others, or finds a fault. So two streams that start with
the same tokens are collected alike until they part.
-/

import Offside.Proofs.Terminals.Reading

namespace Offside

/-- A stream that starts with these tokens. -/
def Stream.after (tokens : List Token) (rest : Stream) : Stream :=
  tokens.foldr .token rest

@[simp] theorem Stream.after_nil (rest : Stream) : Stream.after [] rest = rest :=
  rfl

@[simp] theorem Stream.after_cons (head : Token) (tokens : List Token) (rest : Stream) :
    Stream.after (head :: tokens) rest = .token head (.after tokens rest) :=
  rfl

theorem Stream.size_after (tokens : List Token) (rest : Stream) :
    (Stream.after tokens rest).size = tokens.length + rest.size := by
  induction tokens with
  | nil => simp
  | cons head tokens inductionHypothesis =>
    rw [after_cons, size, inductionHypothesis, List.length_cons]
    omega

theorem Stream.exists_after (tokens : List Token) (head : Token) (rest : Stream) :
    ∃ first others, Stream.after tokens (.token head rest) = .token first others := by
  cases tokens <;> exact ⟨_, _, rfl⟩

/-- Looking ahead finds no fault where there is a token. -/
theorem Reading.ahead_after (tokens : List Token) (head : Token) (rest : Stream) :
    ahead (.after tokens (.token head rest)) = .ok () := by
  cases tokens <;> rfl

namespace Row

/-- What a token does to the rows that are set aside and to the current one. -/
inductive Turn where
  | stop
  | go (pending : List Pending) (row : List Item)
  | fault

/-- The rows go on with a new current one, unless that is at fault. -/
def Turn.ofResult (pending : List Pending) : Except ParseError (List Item) → Turn
  | .ok row => .go pending row
  | .error _ => .fault

/-- The turn of one token. -/
def turn (stop : List Kind) (pending : List Pending) (row : List Item) (head : Token) : Turn :=
  if pending.isEmpty && stop.contains head.kind then .stop
  else if wantsName row && head.kind ≠ .identifier then .fault
  else match role head with
    | .lineBreak => if pending.isEmpty then .stop else .go pending row
    | .fileEnd => if pending.isEmpty then .stop else .fault
    | .opens bracket => .go (⟨⟨bracket, head.location⟩, row⟩ :: pending) []
    | .closes bracket =>
      match pending with
      | [] => .stop
      | inner :: outer =>
        if inner.opening.bracket = bracket then .ofResult outer (closeGroup inner row.reverse)
        else .fault
    | .operand operand =>
      .ofResult pending (operand >>= fun operand => addOperand row operand head.lexeme.literal)
    | .joins => .go pending (.token head :: row)
    | .divides =>
      match pending with
      | [] => if head.lexeme = .symbol .comma then .go [] (.token head :: row) else .stop
      | inner :: _ =>
        if separates inner.opening.bracket head.lexeme then .go pending (.token head :: row)
        else .fault

/-- The collecting takes this turn before a stream. -/
def Turn.Taken (turn : Turn) (stop : List Kind) (row : List Item) (head : Token) (rest : Stream)
    (collected : Except SourceError (List Item × Stream)) : Prop :=
  match turn with
  | .stop => collected = .ok (row.reverse, .token head rest)
  | .go pending' row' =>
    collected = (Reading.ahead rest >>= fun _ => collect stop pending' row' rest)
  | .fault => ∃ error, collected = .error error

/-- Collecting takes the turn of the first token. -/
theorem collect_turn (stop : List Kind) (pending : List Pending) (row : List Item) (head : Token)
    (rest : Stream) :
    (turn stop pending row head).Taken stop row head rest
      (collect stop pending row (.token head rest)) := by
  unfold turn
  rw [collect]
  split
  next => rfl
  split
  next => exact ⟨_, rfl⟩
  cases role head with
  | lineBreak =>
    dsimp only
    split <;> rfl
  | fileEnd =>
    cases pending with
    | nil => rfl
    | cons => exact ⟨_, rfl⟩
  | opens bracket => rfl
  | closes bracket =>
    cases pending with
    | nil => rfl
    | cons inner outer =>
      dsimp only [List.head?_cons, List.tail_cons]
      split
      next =>
        cases closeGroup inner row.reverse with
        | ok => rfl
        | error =>
          cases ready : Reading.ahead rest with
          | ok => exact ⟨_, rfl⟩
          | error => exact ⟨_, rfl⟩
      next => exact ⟨_, rfl⟩
  | operand operand =>
    cases operand with
    | error => exact ⟨_, rfl⟩
    | ok operand =>
      dsimp only [Bind.bind, Except.bind, orFault]
      cases addOperand row operand head.lexeme.literal with
      | ok => rfl
      | error =>
        cases ready : Reading.ahead rest with
        | ok => exact ⟨_, rfl⟩
        | error => exact ⟨_, rfl⟩
  | joins => rfl
  | divides =>
    cases pending with
    | nil =>
      dsimp only [List.head?_nil]
      split <;> rfl
    | cons inner outer =>
      dsimp only [List.head?_cons]
      split
      next => rfl
      next =>
        rw [misplaced]
        split <;> exact ⟨_, rfl⟩

end Row

end Offside
