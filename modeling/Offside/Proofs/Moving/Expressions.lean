/-
This file moves a program to other lines of its file. What a row of tokens is read as does not
depend on where the tokens stand: moving all of them leaves every decision as it was, and the
tree that results is moved in the same way. A fault names a place, so it moves too, but only
that there is one matters here.

Reading an expression goes through many hands, and each of them is compared with itself on
moved parts. Two steps are parallel if both fail, or if both succeed and the second gives the
moved value of the first. Parallel steps compose, so the comparison follows the text of each
function.
-/

import Offside.Proofs.Rows.Turns

namespace Offside

variable {move : Location → Location}

/-! ### Moved trees -/

namespace Expr

mutual

/-- The same tree at moved places. -/
def relocate (move : Location → Location) : Expr → Expr
  | .integer location value => .integer (move location) value
  | .float location value => .float (move location) value
  | .string location value => .string (move location) value
  | .boolean location value => .boolean (move location) value
  | .none location => .none (move location)
  | .name location word => .name (move location) word
  | .omitted location => .omitted (move location)
  | .parenthesized location inner => .parenthesized (move location) (inner.relocate move)
  | .tuple location elements => .tuple (move location) (relocateAll move elements)
  | .list location elements => .list (move location) (relocateAll move elements)
  | .set location elements => .set (move location) (relocateAll move elements)
  | .dict location entries => .dict (move location) (relocateEntries move entries)
  | .call location callee positional named =>
    .call (move location) (callee.relocate move) (relocateAll move positional)
      (relocateNamed move named)
  | .attribute location object word => .attribute (move location) (object.relocate move) word
  | .index location object inner =>
    .index (move location) (object.relocate move) (inner.relocate move)
  | .slice location object start stop step =>
    .slice (move location) (object.relocate move) (start.relocate move) (stop.relocate move)
      (step.relocate move)
  | .binary location operator left right =>
    .binary (move location) operator (left.relocate move) (right.relocate move)
  | .unary location operator operand => .unary (move location) operator (operand.relocate move)
  | .comprehension location output target source filter =>
    .comprehension (move location) (output.relocate move) (target.relocate move)
      (source.relocate move) (relocateFilter move filter)

def relocateAll (move : Location → Location) : List Expr → List Expr
  | [] => []
  | first :: rest => first.relocate move :: relocateAll move rest

def relocateEntries (move : Location → Location) : List (Expr × Expr) → List (Expr × Expr)
  | [] => []
  | (key, value) :: rest => (key.relocate move, value.relocate move) :: relocateEntries move rest

def relocateNamed (move : Location → Location) : List (String × Expr) → List (String × Expr)
  | [] => []
  | (word, value) :: rest => (word, value.relocate move) :: relocateNamed move rest

def relocateFilter (move : Location → Location) : Option Expr → Option Expr
  | .none => .none
  | some condition => some (condition.relocate move)

end

theorem relocateAll_eq_map (elements : List Expr) :
    relocateAll move elements = elements.map (relocate move) := by
  induction elements with
  | nil => rfl
  | cons first rest inductionHypothesis => rw [relocateAll, inductionHypothesis, List.map_cons]

theorem relocateEntries_eq_map (entries : List (Expr × Expr)) :
    relocateEntries move entries = entries.map (Prod.map (relocate move) (relocate move)) := by
  induction entries with
  | nil => rfl
  | cons first rest inductionHypothesis =>
    rw [relocateEntries, inductionHypothesis, List.map_cons]
    rfl

theorem relocateNamed_eq_map (named : List (String × Expr)) :
    relocateNamed move named = named.map (Prod.map id (relocate move)) := by
  induction named with
  | nil => rfl
  | cons first rest inductionHypothesis =>
    rw [relocateNamed, inductionHypothesis, List.map_cons]
    rfl

theorem location_relocate (expression : Expr) :
    (expression.relocate move).location = move expression.location := by
  cases expression <;> rfl

mutual

/-- What cannot be assigned to in a target stays the same part of it. -/
theorem untargetable?_relocate : (target : Expr) →
    (target.relocate move).untargetable? = target.untargetable?.map (relocate move)
  | .parenthesized _ inner => untargetable?_relocate inner
  | .tuple _ elements | .list _ elements => untargetableIn?_relocate elements
  | .name .. | .attribute .. | .index .. | .slice .. => rfl
  | .integer .. | .float .. | .string .. | .boolean .. | .none .. | .omitted .. | .set ..
  | .dict .. | .call .. | .binary .. | .unary .. | .comprehension .. => rfl

theorem untargetableIn?_relocate : (elements : List Expr) →
    untargetableIn? (relocateAll move elements) =
      (untargetableIn? elements).map (relocate move)
  | [] => rfl
  | first :: rest => by
    rw [relocateAll, untargetableIn?, untargetableIn?, untargetable?_relocate first,
      untargetableIn?_relocate rest]
    cases first.untargetable? <;> rfl

end

theorem isTarget_relocate (target : Expr) :
    (target.relocate move).isTarget = target.isTarget := by
  rw [isTarget, untargetable?_relocate, Option.isNone_map, isTarget]

end Expr

/-! ### Moved rows -/

/-- The same token at a moved place. -/
def Token.relocate (move : Location → Location) (token : Token) : Token :=
  ⟨token.lexeme, move token.location⟩

@[simp] theorem Token.lexeme_relocate (token : Token) :
    (token.relocate move).lexeme = token.lexeme :=
  rfl

@[simp] theorem Token.location_relocate (token : Token) :
    (token.relocate move).location = move token.location :=
  rfl

@[simp] theorem Token.kind_relocate (token : Token) : (token.relocate move).kind = token.kind :=
  rfl

def Item.relocate (move : Location → Location) : Item → Item
  | .operand expression => .operand (expression.relocate move)
  | .token found => .token (found.relocate move)

def Piece.relocate (move : Location → Location) : Piece → Piece
  | .operand expression => .operand (expression.relocate move)
  | .binary operator location => .binary operator (move location)
  | .unary operator location => .unary operator (move location)
  | .stray token => .stray (token.relocate move)

def Group.Opening.relocate (move : Location → Location) (opening : Group.Opening) :
    Group.Opening :=
  ⟨opening.bracket, move opening.location⟩

/-- A row, moved entry by entry. -/
abbrev Row.relocate (move : Location → Location) (row : List Item) : List Item :=
  row.map (Item.relocate move)

/-! ### Parallel steps -/

/-- Both steps fail, or both give a value and that of the second is the changed one. -/
inductive Parallel {ε α β : Type} (change : α → β) : Except ε α → Except ε β → Prop where
  | ok (value : α) : Parallel change (.ok value) (.ok (change value))
  | error (first second : ε) : Parallel change (.error first) (.error second)

namespace Parallel

variable {ε α β γ δ : Type} {change : α → β} {further : γ → δ}

theorem failAt (first second : Location) (fault other : ParseFault) :
    Parallel change (Ladder.failAt first fault) (Ladder.failAt second other) :=
  .error _ _

theorem failAt_bind {first second : Location} {fault other : ParseFault}
    {next : α → Except ParseError γ} {nextToo : β → Except ParseError δ} :
    Parallel further (Ladder.failAt first fault >>= next)
      (Ladder.failAt second other >>= nextToo) :=
  .error _ _

theorem bind {first : Except ε α} {second : Except ε β} {next : α → Except ε γ}
    {nextToo : β → Except ε δ} (parallel : Parallel change first second)
    (goesOn : ∀ value, Parallel further (next value) (nextToo (change value))) :
    Parallel further (first >>= next) (second >>= nextToo) := by
  cases parallel with
  | ok value => exact goesOn value
  | error => exact .error _ _

theorem map {first : Except ε α} {second : Except ε β} {wrap : α → γ} {wrapToo : β → δ}
    (parallel : Parallel change first second)
    (same : ∀ value, wrapToo (change value) = further (wrap value)) :
    Parallel further (wrap <$> first) (wrapToo <$> second) := by
  cases parallel with
  | ok value =>
    have given : Parallel further (.ok (wrap value) : Except ε γ) (.ok (further (wrap value))) :=
      .ok (wrap value)
    rw [← same value] at given
    exact given
  | error => exact .error _ _

theorem mapM {first : α → Except ε γ} {second : β → Except ε δ}
    (parallel : ∀ element, Parallel further (first element) (second (change element)))
    (elements : List α) :
    Parallel (List.map further) (elements.mapM first) ((elements.map change).mapM second) := by
  induction elements with
  | nil => exact .ok []
  | cons element rest inductionHypothesis =>
    rw [List.map_cons, List.mapM_cons, List.mapM_cons]
    refine (parallel element).bind fun value => inductionHypothesis.bind fun values => ?_
    exact .ok (value :: values)

theorem ok_iff {value : α} {second : Except ε β} :
    Parallel change (.ok value) second ↔ second = .ok (change value) := by
  constructor
  · rintro ⟨⟩
    rfl
  · rintro rfl
    exact .ok value

theorem error_iff {error : ε} {second : Except ε β} :
    Parallel change (.error error) second ↔ ∃ other, second = .error other := by
  constructor
  · rintro ⟨⟩
    exact ⟨_, rfl⟩
  · rintro ⟨other, rfl⟩
    exact .error error other

end Parallel

theorem Expr.checkTarget_parallel (target : Expr) :
    Parallel id target.checkTarget (target.relocate move).checkTarget := by
  rw [checkTarget, checkTarget, untargetable?_relocate]
  cases target.untargetable? with
  | none => exact .ok ()
  | some part => exact .failAt _ _ _ _

/-! ### Folding -/

namespace Ladder

variable {row passed : List Piece}

theorem pieceOf_relocate (afterOperand : Bool) (token : Token) :
    pieceOf afterOperand (token.relocate move) = (pieceOf afterOperand token).relocate move := by
  rw [pieceOf, pieceOf, Token.lexeme_relocate]
  split
  · rfl
  · split
    · rfl
    · split <;> rfl

theorem pieces_relocate (afterOperand : Bool) (row : List Item) :
    pieces afterOperand (Row.relocate move row) =
      (pieces afterOperand row).map (Piece.relocate move) := by
  fun_induction pieces afterOperand row with
  | case1 => rfl
  | case2 afterOperand expression rest inductionHypothesis =>
    exact congrArg (List.cons _) inductionHypothesis
  | case3 afterOperand first second rest operator fused inductionHypothesis =>
    have fusedToo : fused? (first.relocate move) (second.relocate move) = some operator := fused
    rw [Row.relocate, List.map_cons, List.map_cons, Item.relocate, Item.relocate, pieces, fusedToo]
    exact congrArg (List.cons _) inductionHypothesis
  | case4 afterOperand first second rest apart inductionHypothesis =>
    have apartToo : fused? (first.relocate move) (second.relocate move) = none := apart
    rw [Row.relocate, List.map_cons, List.map_cons, Item.relocate, Item.relocate, pieces, apartToo,
      List.map_cons, ← pieceOf_relocate]
    exact congrArg (List.cons _) inductionHypothesis
  | case5 afterOperand first rest notToken inductionHypothesis =>
    rw [List.map_cons, ← pieceOf_relocate, ← inductionHypothesis]
    cases rest with
    | nil => rfl
    | cons item others =>
      cases item with
      | operand => rfl
      | token second => exact absurd rfl (notToken second others)

/-- An operand and the pieces after it, moved. -/
abbrev relocateTaken (move : Location → Location) : Expr × List Piece → Expr × List Piece :=
  Prod.map (Expr.relocate move) (List.map (Piece.relocate move))

theorem unaryOperand_parallel (move : Location → Location) (operator : UnaryOperator)
    (location : Location) (row : List Piece) :
    Parallel (relocateTaken move) (unaryOperand operator location row)
      (unaryOperand operator (move location) (row.map (Piece.relocate move))) := by
  induction row generalizing location with
  | nil => exact .failAt _ _ _ _
  | cons piece rest inductionHypothesis =>
    cases piece with
    | operand expression => exact .ok (Expr.unary location operator expression, rest)
    | binary | stray => exact .failAt _ _ _ _
    | unary second secondLocation =>
      rw [List.map_cons, Piece.relocate, unaryOperand, unaryOperand]
      split
      · refine (inductionHypothesis secondLocation).bind fun taken => ?_
        exact .ok (Expr.unary location operator taken.1, taken.2)
      · exact .failAt _ _ _ _

theorem rightOperand_parallel (move : Location → Location) (operator : BinaryOperator)
    (location : Location) (row : List Piece) :
    Parallel (relocateTaken move) (rightOperand operator location row)
      (rightOperand operator (move location) (row.map (Piece.relocate move))) := by
  cases row with
  | nil => exact .failAt _ _ _ _
  | cons piece rest =>
    cases piece with
    | operand expression => exact .ok (expression, rest)
    | binary | stray => exact .failAt _ _ _ _
    | unary sign signLocation =>
      cases sign with
      | negate => exact unaryOperand_parallel move .negate signLocation rest
      | not => exact .failAt _ _ _ _

/-! A fold passes every piece but its own operator. -/

theorem foldUnary_pass {operator : UnaryOperator} {piece : Piece}
    (other : ∀ location, piece ≠ .unary operator location) :
    foldUnary operator passed (piece :: row) = foldUnary operator (piece :: passed) row := by
  rw [foldUnary.eq_def]
  cases piece with
  | unary found location =>
    have differs : found ≠ operator := by
      rintro rfl
      exact other location rfl
    exact if_neg differs
  | operand | binary | stray => rfl

theorem foldBinary_pass {operator : BinaryOperator} {piece : Piece}
    (other : ∀ location, piece ≠ .binary operator location) :
    foldBinary operator passed (piece :: row) = foldBinary operator (piece :: passed) row := by
  rw [foldBinary.eq_def]
  cases piece with
  | binary found location =>
    have differs : found ≠ operator := by
      rintro rfl
      exact other location rfl
    exact if_neg differs
  | operand | unary | stray => rfl

/-- A unary operator that no operand stands before takes its own operand, or fails with it. -/
theorem foldUnary_found {operator : UnaryOperator} (location : Location) (free : Free passed) :
    foldUnary operator passed (.unary operator location :: row) =
      unaryOperand operator location row >>= fun taken =>
        foldUnary operator (.operand taken.1 :: passed) taken.2 := by
  cases found : unaryOperand operator location row with
  | ok taken => exact foldUnary_take free found
  | error error =>
    rw [foldUnary, if_pos rfl]
    · split
      next same => exact absurd (found.symm.trans same) (by simp)
      next same =>
        cases found.symm.trans same
        rfl
    · rintro expression before rfl
      exact free expression rfl

theorem foldBinary_found {operator : BinaryOperator} (location : Location) (left : Expr) :
    foldBinary operator (.operand left :: passed) (.binary operator location :: row) =
      rightOperand operator location row >>= fun taken =>
        foldBinary operator (.operand (.binary location operator left taken.1) :: passed)
          taken.2 := by
  cases found : rightOperand operator location row with
  | ok taken => exact foldBinary_take found
  | error error =>
    rw [foldBinary, if_pos rfl]
    split
    next same => exact absurd (found.symm.trans same) (by simp)
    next same =>
      cases found.symm.trans same
      rfl

theorem free_iff : Free passed ↔ ∀ expression before, passed ≠ .operand expression :: before := by
  cases passed with
  | nil => simp [Free]
  | cons piece before => simp [Free]

theorem Free.relocate (free : Free passed) : Free (passed.map (Piece.relocate move)) := by
  intro expression starts
  rw [List.head?_map, Option.map_eq_some_iff] at starts
  obtain ⟨piece, first, moved⟩ := starts
  cases piece with
  | operand inner => exact free inner first
  | binary | unary | stray => cases moved

theorem foldUnary_parallel (operator : UnaryOperator) :
    Parallel (List.map (Piece.relocate move)) (foldUnary operator passed row)
      (foldUnary operator (passed.map (Piece.relocate move))
        (row.map (Piece.relocate move))) := by
  fun_induction foldUnary operator passed row with
  | case1 passed =>
    rw [List.map_nil, foldUnary, ← List.map_reverse]
    exact .ok passed.reverse
  | case2 rest location expression before =>
    rw [List.map_cons, List.map_cons, Piece.relocate, Piece.relocate, foldUnary, if_pos rfl]
    exact .failAt _ _ _ _
  | case3 passed location rest operand after taken notOperand inductionHypothesis =>
    have takenToo := unaryOperand_parallel move operator location rest
    rw [taken, Parallel.ok_iff] at takenToo
    rw [List.map_cons, Piece.relocate, foldUnary_found _ (free_iff.mpr notOperand).relocate,
      takenToo]
    exact inductionHypothesis
  | case4 passed location rest error failed notOperand =>
    have failedToo := unaryOperand_parallel move operator location rest
    rw [failed, Parallel.error_iff] at failedToo
    obtain ⟨other, failedToo⟩ := failedToo
    rw [List.map_cons, Piece.relocate, foldUnary_found _ (free_iff.mpr notOperand).relocate,
      failedToo]
    exact .error _ _
  | case5 passed found location rest other inductionHypothesis =>
    rw [List.map_cons, foldUnary_pass]
    · exact inductionHypothesis
    · rintro _ ⟨⟩
      exact other rfl
  | case6 passed piece rest notUnary inductionHypothesis =>
    rw [List.map_cons, foldUnary_pass]
    · exact inductionHypothesis
    · intro location moved
      cases piece with
      | unary found location => exact notUnary found location rfl
      | operand | binary | stray => cases moved

theorem foldBinary_parallel (operator : BinaryOperator) :
    Parallel (List.map (Piece.relocate move)) (foldBinary operator passed row)
      (foldBinary operator (passed.map (Piece.relocate move))
        (row.map (Piece.relocate move))) := by
  fun_induction foldBinary operator passed row with
  | case1 passed =>
    rw [List.map_nil, foldBinary, ← List.map_reverse]
    exact .ok passed.reverse
  | case2 location rest left before right after taken inductionHypothesis =>
    have takenToo := rightOperand_parallel move operator location rest
    rw [taken, Parallel.ok_iff] at takenToo
    rw [List.map_cons, List.map_cons, Piece.relocate, Piece.relocate, foldBinary_found, takenToo]
    exact inductionHypothesis
  | case3 location rest left before error failed =>
    have failedToo := rightOperand_parallel move operator location rest
    rw [failed, Parallel.error_iff] at failedToo
    obtain ⟨other, failedToo⟩ := failedToo
    rw [List.map_cons, List.map_cons, Piece.relocate, Piece.relocate, foldBinary_found, failedToo]
    exact .error _ _
  | case4 passed location rest notOperand =>
    rw [List.map_cons, Piece.relocate, foldBinary, if_pos rfl]
    · exact .failAt _ _ _ _
    · intro moved before starts
      exact (free_iff.mpr notOperand).relocate moved (by rw [starts, List.head?_cons])
  | case5 passed found location rest other inductionHypothesis =>
    rw [List.map_cons, foldBinary_pass]
    · exact inductionHypothesis
    · rintro _ ⟨⟩
      exact other rfl
  | case6 passed piece rest notBinary inductionHypothesis =>
    rw [List.map_cons, foldBinary_pass]
    · exact inductionHypothesis
    · intro location moved
      cases piece with
      | binary found location => exact notBinary found location rfl
      | operand | unary | stray => cases moved

theorem foldlM_parallel (rungs : List Rung) (row : List Piece) :
    Parallel (List.map (Piece.relocate move)) (rungs.foldlM fold row)
      (rungs.foldlM fold (row.map (Piece.relocate move))) := by
  induction rungs generalizing row with
  | nil => exact .ok row
  | cons rung rungs inductionHypothesis =>
    rw [List.foldlM_cons, List.foldlM_cons]
    have first : Parallel (List.map (Piece.relocate move)) (fold row rung)
        (fold (row.map (Piece.relocate move)) rung) := by
      cases rung with
      | binary operator => exact foldBinary_parallel operator
      | unary operator => exact foldUnary_parallel operator
    exact first.bind inductionHypothesis

/-- Whether a single operand is left does not depend on places. -/
theorem finish_parallel (row : List Piece) :
    Parallel (Expr.relocate move) (finish row) (finish (row.map (Piece.relocate move))) := by
  cases finished : finish row with
  | ok expression =>
    obtain rfl := eq_of_finish finished
    exact .ok expression
  | error error =>
    cases finishedToo : finish (row.map (Piece.relocate move)) with
    | error => exact .error _ _
    | ok moved =>
      obtain ⟨piece, rfl, same⟩ := List.map_eq_singleton_iff.mp (eq_of_finish finishedToo)
      cases piece with
      | operand => cases finished
      | binary | unary | stray => cases same

theorem isBreak_relocate (item : Item) : isBreak (item.relocate move) = isBreak item := by
  obtain expression | ⟨lexeme, location⟩ := item
  · rfl
  · cases lexeme <;> rfl

/-- Moving the entries of a row moves the tree that the row writes. -/
theorem reduce_parallel (row : List Item) :
    Parallel (Expr.relocate move) (reduce row) (reduce (Row.relocate move row)) := by
  have breaks : withoutBreaks (Row.relocate move row) = Row.relocate move (withoutBreaks row) := by
    rw [withoutBreaks, withoutBreaks, Row.relocate, Row.relocate, List.filter_map]
    exact congrArg _ (List.filter_congr fun item _ => congrArg _ (isBreak_relocate item))
  rw [reduce, reduce, foldAll, foldAll, written, written, breaks, pieces_relocate]
  exact (foldlM_parallel ladder _).bind finish_parallel

end Ladder

/-! ### Groups -/

@[simp] theorem Item.is_relocate (item : Item) (lexeme : Lexeme) :
    (item.relocate move).is lexeme = item.is lexeme := by
  cases item <;> rfl

theorem Item.location_relocate (item : Item) :
    (item.relocate move).location = move item.location := by
  cases item with
  | operand expression => exact expression.location_relocate
  | token => rfl

namespace Group

open Ladder (reduce_parallel)

variable {opening : Opening} {row : List Item}

theorem holds_relocate (row : List Item) (lexeme : Lexeme) :
    holds (Row.relocate move row) lexeme = holds row lexeme := by
  rw [holds, List.any_map]
  exact List.any_congr rfl fun item => item.is_relocate lexeme

theorem split_relocate (separator : Lexeme) (row : List Item) :
    split separator (Row.relocate move row) = (split separator row).map (Row.relocate move) := by
  induction row with
  | nil => rfl
  | cons item rest inductionHypothesis =>
    rw [Row.relocate, List.map_cons, split, split, Item.is_relocate, inductionHypothesis]
    split
    · rfl
    · cases split separator rest <;> rfl

theorem commaSegments_relocate (row : List Item) :
    commaSegments (Row.relocate move row) = (commaSegments row).map (Row.relocate move) := by
  have ends (segments : List (List Item)) :
      (segments.map (Row.relocate move)).getLast?.any (·.isEmpty) =
        segments.getLast?.any (·.isEmpty) := by
    rw [List.getLast?_map]
    cases segments.getLast? with
    | none => rfl
    | some last => exact List.isEmpty_map
  rw [commaSegments, commaSegments, split_relocate, List.length_map, ends]
  split
  · exact List.map_dropLast.symm
  · rfl

theorem cutAt?_relocate {marks : Item → Bool}
    (same : ∀ item : Item, marks (item.relocate move) = marks item) (row : List Item) :
    cutAt? marks (Row.relocate move row) = (cutAt? marks row).map fun (before, found, after) =>
      (Row.relocate move before, found.relocate move, Row.relocate move after) := by
  induction row with
  | nil => rfl
  | cons item rest inductionHypothesis =>
    rw [Row.relocate, List.map_cons, cutAt?, cutAt?, same, inductionHypothesis]
    split
    · rfl
    · rw [Option.map_map, Option.map_map]
      rfl

theorem elements_parallel (opening : Opening) (row : List Item) :
    Parallel (Expr.relocateAll move) (elements opening row)
      (elements (opening.relocate move) (Row.relocate move row)) := by
  rw [elements, elements, List.isEmpty_map, commaSegments_relocate]
  split
  · exact .ok []
  · have same : Expr.relocateAll move = List.map (Expr.relocate move) :=
      funext Expr.relocateAll_eq_map
    rw [same]
    refine .mapM (fun segment => ?_) _
    rw [List.isEmpty_map]
    split
    · exact .failAt _ _ _ _
    · exact reduce_parallel segment

theorem parenthesized_parallel (opening : Opening) (row : List Item) :
    Parallel (Expr.relocate move) (parenthesized opening row)
      (parenthesized (opening.relocate move) (Row.relocate move row)) := by
  refine (elements_parallel opening row).bind fun inner => ?_
  rw [holds_relocate]
  match inner with
  | [] => exact .ok (Expr.tuple opening.location [])
  | [single] =>
    dsimp only [Expr.relocateAll]
    split
    · exact .ok (Expr.tuple opening.location [single])
    · exact .ok (Expr.parenthesized opening.location single)
  | first :: second :: rest => exact .ok (Expr.tuple opening.location (first :: second :: rest))

/-- What is folded from the clause of a comprehension is taken apart in the same way. -/
theorem membership_parallel (place location : Location) (output membership : Expr)
    (filter : Option Expr) :
    Parallel (Expr.relocate move)
      (match membership with
        | .binary _ .member target source => do
          target.checkTarget
          .ok (.comprehension place output target source filter)
        | _ => Ladder.failAt location .noComprehensionMembership)
      (match membership.relocate move with
        | .binary _ .member target source => do
          target.checkTarget
          .ok (.comprehension (move place) (output.relocate move) target source
            (Expr.relocateFilter move filter))
        | _ => Ladder.failAt (move location) .noComprehensionMembership) := by
  cases membership with
  | binary _ operator target source =>
    cases operator with
    | member =>
      refine target.checkTarget_parallel.bind fun _ => ?_
      exact .ok (Expr.comprehension place output target source filter)
    | _ => exact .failAt _ _ _ _
  | _ => exact .failAt _ _ _ _

theorem comprehension_parallel (opening : Opening) (output clause : List Item) (word : Item) :
    Parallel (Expr.relocate move) (comprehension opening output word clause)
      (comprehension (opening.relocate move) (Row.relocate move output) (word.relocate move)
        (Row.relocate move clause)) := by
  unfold comprehension
  dsimp only
  rw [List.isEmpty_map, Item.location_relocate]
  by_cases noOutput : output.isEmpty
  · rw [if_pos noOutput, if_pos noOutput]
    exact .failAt_bind
  rw [if_neg noOutput, if_neg noOutput]
  refine (reduce_parallel output).bind fun output => ?_
  rw [cutAt?_relocate fun item => item.is_relocate _]
  have clausal (clause : List Item) (filter : Option Expr) :
      Parallel (Expr.relocate move)
        (do
          if clause.isEmpty then Ladder.failAt word.location .noComprehensionMembership
          match ← Ladder.reduce clause with
          | .binary _ .member target source =>
            target.checkTarget
            .ok (.comprehension opening.location output target source filter)
          | _ => Ladder.failAt word.location .noComprehensionMembership)
        (do
          if (Row.relocate move clause).isEmpty then
            Ladder.failAt (move word.location) .noComprehensionMembership
          match ← Ladder.reduce (Row.relocate move clause) with
          | .binary _ .member target source =>
            target.checkTarget
            .ok (.comprehension (move opening.location) (output.relocate move) target source
              (Expr.relocateFilter move filter))
          | _ => Ladder.failAt (move word.location) .noComprehensionMembership) := by
    dsimp only
    rw [List.isEmpty_map]
    by_cases noClause : clause.isEmpty
    · rw [if_pos noClause, if_pos noClause]
      exact .failAt_bind
    rw [if_neg noClause, if_neg noClause]
    exact (reduce_parallel clause).bind fun membership =>
      membership_parallel opening.location word.location output membership filter
  match cutAt? (·.is (.keyword .ifWord)) clause with
  | none => exact clausal clause none
  | some (before, found, []) => exact .failAt_bind
  | some (before, found, item :: condition) =>
    have filtered : Parallel (Prod.map (Row.relocate move) (Expr.relocateFilter move))
        ((fun filter => (before, some filter)) <$> Ladder.reduce (item :: condition))
        ((fun filter => (Row.relocate move before, some filter)) <$>
          Ladder.reduce (Row.relocate move (item :: condition))) :=
      (reduce_parallel (item :: condition)).map fun _ => rfl
    exact filtered.bind fun parts => clausal parts.1 parts.2

theorem squareDisplay_parallel (opening : Opening) (row : List Item) :
    Parallel (Expr.relocate move) (squareDisplay opening row)
      (squareDisplay (opening.relocate move) (Row.relocate move row)) := by
  rw [squareDisplay, squareDisplay, cutAt?_relocate fun item => by simp only [Item.is_relocate]]
  match cutAt? (fun item => item.is (.keyword .forWord) || item.is (.keyword .ofWord)) row with
  | none => exact (elements_parallel opening row).map fun _ => rfl
  | some (output, word, clause) => exact comprehension_parallel opening output clause word

theorem entry_parallel (opening : Opening) (segment : List Item) :
    Parallel (Prod.map (Expr.relocate move) (Expr.relocate move)) (entry opening segment)
      (entry (opening.relocate move) (Row.relocate move segment)) := by
  rw [entry, entry, split_relocate]
  match split (.symbol .colon) segment with
  | [] | [_] | _ :: _ :: _ :: _ => exact .failAt _ _ _ _
  | [key, value] =>
    rw [List.map_cons, List.map_cons, List.map_nil]
    dsimp only
    rw [List.isEmpty_map, List.isEmpty_map]
    split
    · exact .failAt _ _ _ _
    · refine (reduce_parallel key).bind fun key => (reduce_parallel value).bind fun value => ?_
      exact .ok (key, value)

theorem braceDisplay_parallel (opening : Opening) (row : List Item) :
    Parallel (Expr.relocate move) (braceDisplay opening row)
      (braceDisplay (opening.relocate move) (Row.relocate move row)) := by
  rw [braceDisplay, braceDisplay, List.isEmpty_map, holds_relocate, commaSegments_relocate]
  split
  · exact .ok (Expr.dict opening.location [])
  · split
    · refine (Parallel.mapM (entry_parallel opening) _).map fun entries => ?_
      rw [Expr.relocate, Expr.relocateEntries_eq_map]
      rfl
    · exact (elements_parallel opening row).map fun _ => rfl

theorem argumentValue_parallel (location : Location) (before : String) (segment : List Item) :
    Parallel (Expr.relocate move) (argumentValue location before segment)
      (argumentValue (move location) before (Row.relocate move segment)) := by
  rw [argumentValue, argumentValue, List.isEmpty_map,
    cutAt?_relocate fun item => item.is_relocate _]
  split
  · exact .failAt _ _ _ _
  · match cutAt? (·.is (.symbol .assign)) segment with
    | some (_, sign, _) => exact .failAt _ _ _ _
    | none => exact reduce_parallel segment

/-- A segment that does not name its value is an argument by its position. -/
theorem arguments_unnamed {positional : List Expr} {named : List (String × Expr)} {first : Item}
    {following : List Item} {rest : List (List Item)}
    (unnamed : ∀ location value, following ≠ .token ⟨.symbol .assign, location⟩ :: value) :
    arguments opening positional named ((first :: following) :: rest) =
      if named.isEmpty then do
        let value ← argumentValue opening.location opening.bracket.opener.spelling
          (first :: following)
        arguments opening (value :: positional) named rest
      else Ladder.failAt first.location .positionalAfterNamed := by
  rw [arguments]
  exact unnamed

theorem unnamed_relocate {following : List Item}
    (unnamed : ∀ location value, following ≠ .token ⟨.symbol .assign, location⟩ :: value)
    (location : Location) (value : List Item) :
    Row.relocate move following ≠ .token ⟨.symbol .assign, location⟩ :: value := by
  intro same
  obtain ⟨item, others, rfl, isSign, -⟩ := List.map_eq_cons_iff.mp same
  cases item with
  | operand => cases isSign
  | token found =>
    obtain ⟨lexeme, place⟩ := found
    cases isSign
    exact unnamed _ _ rfl

theorem arguments_parallel (opening : Opening) (positional : List Expr)
    (named : List (String × Expr)) (segments : List (List Item)) :
    Parallel (Prod.map (Expr.relocateAll move) (Expr.relocateNamed move))
      (arguments opening positional named segments)
      (arguments (opening.relocate move) (Expr.relocateAll move positional)
        (Expr.relocateNamed move named) (segments.map (Row.relocate move))) := by
  induction segments generalizing positional named with
  | nil =>
    have positionals : (Expr.relocateAll move positional).reverse =
        Expr.relocateAll move positional.reverse := by
      rw [Expr.relocateAll_eq_map, Expr.relocateAll_eq_map, List.map_reverse]
    have names : (Expr.relocateNamed move named).reverse =
        Expr.relocateNamed move named.reverse := by
      rw [Expr.relocateNamed_eq_map, Expr.relocateNamed_eq_map, List.map_reverse]
    rw [List.map_nil, arguments, arguments, positionals, names]
    exact .ok (positional.reverse, named.reverse)
  | cons segment rest inductionHypothesis =>
    cases segment with
    | nil => exact .failAt _ _ _ _
    | cons first following =>
      by_cases isNamed : ∃ location value,
          following = .token ⟨.symbol .assign, location⟩ :: value
      · obtain ⟨location, value, rfl⟩ := isNamed
        cases first with
        | token => exact .failAt _ _ _ _
        | operand expression =>
          cases expression with
          | name place word =>
            refine (argumentValue_parallel location _ value).bind fun value => ?_
            exact inductionHypothesis positional ((word, value) :: named)
          | _ => exact .failAt _ _ _ _
      · have unnamed (location : Location) (value : List Item) :
            following ≠ .token ⟨.symbol .assign, location⟩ :: value :=
          fun same => isNamed ⟨location, value, same⟩
        rw [List.map_cons, Row.relocate, List.map_cons, arguments_unnamed unnamed,
          arguments_unnamed (unnamed_relocate unnamed)]
        cases named with
        | nil =>
          refine (argumentValue_parallel opening.location _ (first :: following)).bind
            fun value => ?_
          exact inductionHypothesis (value :: positional) []
        | cons => exact .failAt _ _ _ _

theorem call_parallel (opening : Opening) (callee : Expr) (row : List Item) :
    Parallel (Expr.relocate move) (call opening callee row)
      (call (opening.relocate move) (callee.relocate move) (Row.relocate move row)) := by
  rw [call, call, List.isEmpty_map, commaSegments_relocate]
  split
  · exact .ok (Expr.call opening.location callee [] [])
  · refine (arguments_parallel opening [] [] (commaSegments row)).bind fun found => ?_
    exact .ok (Expr.call opening.location callee found.1 found.2)

theorem bound_parallel (opening : Opening) (segment : List Item) :
    Parallel (Expr.relocate move) (bound opening segment)
      (bound (opening.relocate move) (Row.relocate move segment)) := by
  rw [bound, bound, List.isEmpty_map]
  split
  · exact .ok (Expr.omitted opening.location)
  · exact reduce_parallel segment

theorem subscript_parallel (opening : Opening) (object : Expr) (row : List Item) :
    Parallel (Expr.relocate move) (subscript opening object row)
      (subscript (opening.relocate move) (object.relocate move) (Row.relocate move row)) := by
  rw [subscript, subscript, List.isEmpty_map, holds_relocate, holds_relocate, split_relocate]
  split
  · exact .failAt _ _ _ _
  split
  · match split (.symbol .colon) row with
    | [] | [_] | _ :: _ :: _ :: _ :: _ => exact .failAt _ _ _ _
    | [start, stop] =>
      refine (bound_parallel opening start).bind fun start => ?_
      refine (bound_parallel opening stop).bind fun stop => ?_
      exact .ok (Expr.slice opening.location object start stop (.omitted opening.location))
    | [start, stop, step] =>
      refine (bound_parallel opening start).bind fun start => ?_
      refine (bound_parallel opening stop).bind fun stop => ?_
      refine (bound_parallel opening step).bind fun step => ?_
      exact .ok (Expr.slice opening.location object start stop step)
  · refine (elements_parallel opening row).bind fun indices => ?_
    match indices with
    | [] => exact .ok (Expr.index opening.location object (.tuple opening.location []))
    | [single] =>
      dsimp only [Expr.relocateAll]
      split
      · exact .ok (Expr.index opening.location object (.tuple opening.location [single]))
      · exact .ok (Expr.index opening.location object single)
    | first :: second :: rest =>
      exact .ok (Expr.index opening.location object
        (.tuple opening.location (first :: second :: rest)))

theorem close_parallel (opening : Opening) (before : Option Expr) (row : List Item) :
    Parallel (Expr.relocate move) (close opening before row)
      (close (opening.relocate move) (before.map (Expr.relocate move))
        (Row.relocate move row)) := by
  obtain ⟨bracket, location⟩ := opening
  cases bracket with
  | paren =>
    cases before with
    | none => exact parenthesized_parallel _ row
    | some callee => exact call_parallel _ callee row
  | square =>
    cases before with
    | none => exact squareDisplay_parallel _ row
    | some object => exact subscript_parallel _ object row
  | brace => cases before <;> exact braceDisplay_parallel _ row

theorem numeral_parallel (location : Location) (digits : String) :
    Parallel (Expr.relocate move) (numeral location digits) (numeral (move location) digits) := by
  unfold numeral
  split
  · split
    next value _ => exact .ok (Expr.float location value)
    · exact .failAt _ _ _ _
  · split
    next value _ => exact .ok (Expr.integer location value)
    · exact .failAt _ _ _ _

end Group

/-! ### Rows -/

/-- A bracket that is still open, moved with the row before it. -/
def Row.Pending.relocate (move : Location → Location) (pending : Row.Pending) : Row.Pending :=
  ⟨pending.opening.relocate move, Row.relocate move pending.before⟩

namespace Row

open Offside.Group

theorem addOperand_parallel (row : List Item) (operand : Expr) (word : String) :
    Parallel (Row.relocate move) (addOperand row operand word)
      (addOperand (Row.relocate move row) (operand.relocate move) word) := by
  match row with
  | [] => exact .ok [Item.operand operand]
  | .operand object :: before => exact .ok (Item.operand operand :: .operand object :: before)
  | .token ⟨lexeme, place⟩ :: before =>
    have added : Parallel (Row.relocate move)
        (.ok (.operand operand :: .token ⟨lexeme, place⟩ :: before) : Except ParseError _)
        (.ok (.operand (operand.relocate move) :: .token ⟨lexeme, move place⟩ ::
          Row.relocate move before)) :=
      .ok (Item.operand operand :: .token ⟨lexeme, place⟩ :: before)
    cases lexeme with
    | symbol sign =>
      cases sign with
      | dot =>
        match before with
        | .operand object :: before =>
          exact .ok (Item.operand (.attribute place object word) :: before)
        | [] | .token _ :: _ => exact .failAt _ _ _ _
      | _ => exact added
    | _ => exact added

theorem closeGroup_parallel (pending : Pending) (inner : List Item) :
    Parallel (Row.relocate move) (closeGroup pending inner)
      (closeGroup (pending.relocate move) (Row.relocate move inner)) := by
  obtain ⟨opening, before⟩ := pending
  match before with
  | [] => 
    refine (close_parallel opening none inner).bind fun group => ?_
    exact .ok [Item.operand group]
  | .token found :: before =>
    refine (close_parallel opening none inner).bind fun group => ?_
    exact .ok (Item.operand group :: .token found :: before)
  | .operand object :: before =>
    refine (close_parallel opening (some object) inner).bind fun group => ?_
    exact .ok (Item.operand group :: before)

theorem wantsName_relocate (row : List Item) :
    wantsName (Row.relocate move row) = wantsName row := by
  match row with
  | [] | .operand _ :: _ => rfl
  | .token ⟨lexeme, _⟩ :: _ =>
    cases lexeme with
    | symbol sign => cases sign <;> rfl
    | _ => rfl

/-- Two roles are the same, except that their operands are parallel. -/
def Role.Parallel (move : Location → Location) : Role → Role → Prop
  | .operand first, .operand second => Offside.Parallel (Expr.relocate move) first second
  | .operand _, _ => False
  | first, second => second = first

theorem role_parallel (move : Location → Location) (token : Token) :
    (role token).Parallel move (role (token.relocate move)) := by
  obtain ⟨lexeme, location⟩ := token
  cases lexeme with
  | identifier word => exact .ok (Expr.name location word)
  | string value => exact .ok (Expr.string location value)
  | boolean value => exact .ok (Expr.boolean location value)
  | number digits => exact numeral_parallel location digits
  | keyword word =>
    cases word with
    | noneWord => exact .ok (Expr.none location)
    | _ => rfl
  | symbol sign => cases sign <;> rfl
  | indentation | endOfLine | endOfFile => rfl

/-- What a token does to a row, moved. -/
def Turn.relocate (move : Location → Location) : Turn → Turn
  | .stop => .stop
  | .go pending row => .go (pending.map (Pending.relocate move)) (Row.relocate move row)
  | .fault => .fault

theorem Turn.ofResult_relocate (pending : List Pending)
    {first second : Except ParseError (List Item)}
    (parallel : Offside.Parallel (Row.relocate move) first second) :
    Turn.ofResult (pending.map (Pending.relocate move)) second =
      (Turn.ofResult pending first).relocate move := by
  cases parallel <;> rfl

/-- A token takes the same turn wherever it stands. -/
theorem turn_relocate (move : Location → Location) (stop : List Kind) (pending : List Pending)
    (row : List Item) (head : Token) :
    turn stop (pending.map (Pending.relocate move)) (Row.relocate move row) (head.relocate move) =
      (turn stop pending row head).relocate move := by
  unfold turn
  rw [List.isEmpty_map, Token.kind_relocate, wantsName_relocate]
  split
  · rfl
  split
  · rfl
  have roles := role_parallel move head
  revert roles
  generalize role (head.relocate move) = second
  cases role head with
  | lineBreak =>
    rintro rfl
    dsimp only
    split <;> rfl
  | fileEnd =>
    rintro rfl
    dsimp only
    split <;> rfl
  | opens bracket =>
    rintro rfl
    rfl
  | closes bracket =>
    rintro rfl
    match pending with
    | [] => rfl
    | inner :: outer =>
      rw [List.map_cons]
      dsimp only [Pending.relocate, Opening.relocate]
      split
      · rw [← List.map_reverse]
        exact Turn.ofResult_relocate outer (closeGroup_parallel inner row.reverse)
      · rfl
  | operand operand =>
    cases second with
    | operand other =>
      intro parallel
      refine Turn.ofResult_relocate pending (parallel.bind fun operand => ?_)
      exact addOperand_parallel row operand head.lexeme.literal
    | _ => exact False.elim
  | joins =>
    rintro rfl
    rfl
  | divides =>
    rintro rfl
    match pending with
    | [] =>
      rw [List.map_nil]
      dsimp only
      rw [apply_ite (Turn.relocate move)]
      rfl
    | inner :: outer =>
      rw [List.map_cons]
      dsimp only
      rw [apply_ite (Turn.relocate move)]
      rfl

end Row

end Offside
