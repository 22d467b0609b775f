/-
This file says which rows can stand behind `in` without being torn apart. A row is folded
from the tightest operators to the loosest ones, so an operand and `in` in front of a row
take all of it only if every operator in it is folded before `in` is. If one is not, the
tree that comes out has that operator at its root, or the membership test is on the left
of another one.

The grammar of rows makes this an argument about derivations: a derivation without loose
operators is one of a low level, and a low level is what the grammar allows on the right of
`in`.
-/

import Offside.Proofs.Precedence

namespace Offside

namespace Expr

/-- The root of the expression is an operator. -/
def isOperation : Expr → Bool
  | .binary .. => true
  | .unary .. => true
  | _ => false

theorem not_isOperation_of_isTarget {target : Expr} (isTarget : target.isTarget = true) :
    target.isOperation = false := by
  cases target <;> first | rfl | exact absurd isTarget (by simp [Expr.isTarget, untargetable?])

end Expr

namespace Ladder

/-- The piece is no operator, or one that is folded before this one. -/
def Precedes (operator : BinaryOperator) (piece : Piece) : Prop :=
  ∀ rung, rungOf? piece = some rung → ladder.idxOf rung < ladder.idxOf (.binary operator)

theorem idxOf_of_rung {level : Nat} {rung : Rung} (found : ladder[level]? = some rung) :
    ladder.idxOf rung = level := by
  have listed : rung ∈ ladder := List.mem_of_getElem? found
  have same : ladder[ladder.idxOf rung]? = some rung := by
    rw [List.getElem?_eq_getElem (List.idxOf_lt_length_iff.mpr listed), List.getElem_idxOf]
  exact rung_unique same found

namespace Derivation

/-- A derivation may stand on every later level. -/
theorem exists_above {level high : Nat} (derivation : Derivation level) (above : level ≤ high) :
    ∃ same : Derivation high, same.yield = derivation.yield ∧ same.tree = derivation.tree := by
  induction above with
  | refl => exact ⟨derivation, rfl, rfl⟩
  | step _ inductionHypothesis =>
    obtain ⟨same, word, tree⟩ := inductionHypothesis
    exact ⟨.climb same, word, tree⟩

/-- What is derived without operators of some level on needs no more than that level. -/
theorem exists_below {level limit : Nat} (derivation : Derivation level) (positive : 0 < limit)
    (tight : ∀ piece ∈ derivation.yield, ∀ rung, rungOf? piece = some rung →
      ladder.idxOf rung < limit) :
    ∃ same : Derivation limit, same.yield = derivation.yield ∧ same.tree = derivation.tree := by
  induction derivation with
  | operand expression => exact exists_above (.operand expression) (Nat.zero_le limit)
  | climb inner inductionHypothesis => exact inductionHypothesis tight
  | power location left right => exact exists_above (.power location left right) positive
  | binary operator rung notPower location left right =>
    have below := tight (.binary operator location) (by simp) (.binary operator) rfl
    rw [idxOf_of_rung rung] at below
    exact exists_above (.binary operator rung notPower location left right) below
  | unary operator rung location inner =>
    have below := tight (.unary operator location) (by simp) (.unary operator) rfl
    rw [idxOf_of_rung rung] at below
    exact exists_above (.unary operator rung location inner) below

theorem rung_of_mem_signed {signed : Signed} {piece : Piece} (inside : piece ∈ signed.yield)
    {rung : Rung} (isRung : rungOf? piece = some rung) : rung = .unary .negate := by
  induction signed with
  | operand expression =>
    obtain rfl := List.mem_singleton.mp inside
    cases isRung
  | sign location inner inductionHypothesis =>
    obtain rfl | inside := List.mem_cons.mp inside
    · cases isRung
      rfl
    · exact inductionHypothesis inside

/-- No operator of a derivation is on its level or beyond, but for signs on the right of a power. -/
theorem rung_lt_of_mem {level : Nat} (derivation : Derivation level) {piece : Piece}
    (inside : piece ∈ derivation.yield) {rung : Rung} (isRung : rungOf? piece = some rung) :
    ladder.idxOf rung < max level 2 := by
  induction derivation with
  | operand expression =>
    obtain rfl := List.mem_singleton.mp inside
    cases isRung
  | climb inner inductionHypothesis =>
    have below := inductionHypothesis inside
    omega
  | power location left right inductionHypothesis =>
    rw [yield, List.mem_append, List.mem_cons] at inside
    obtain inside | rfl | inside := inside
    · exact inductionHypothesis inside
    · cases isRung
      decide
    · rw [rung_of_mem_signed inside isRung]
      decide
  | binary operator found notPower location left right leftHypothesis rightHypothesis =>
    rw [yield, List.mem_append, List.mem_cons] at inside
    obtain inside | rfl | inside := inside
    · exact leftHypothesis inside
    · cases isRung
      rw [idxOf_of_rung found]
      omega
    · have below := rightHypothesis inside
      omega
  | unary operator found location inner inductionHypothesis =>
    obtain rfl | inside := List.mem_cons.mp inside
    · cases isRung
      rw [idxOf_of_rung found]
      omega
    · exact inductionHypothesis inside

/-- A derivation of anything but an operation is one operand. -/
theorem yield_of_not_isOperation {level : Nat} (derivation : Derivation level)
    (other : derivation.tree.isOperation = false) :
    derivation.yield = [.operand derivation.tree] := by
  induction derivation with
  | operand => rfl
  | climb inner inductionHypothesis => exact inductionHypothesis other
  | power | binary | unary => cases other

/-- A derivation of an operation other than a power is one operand, or is made of derivations of
both sides. -/
theorem sides_of_tree_eq {level : Nat} (derivation : Derivation level) {location : Location}
    {operator : BinaryOperator} {left right : Expr} (notPower : operator ≠ .power)
    (isBinary : derivation.tree = .binary location operator left right) :
    derivation.yield = [.operand (.binary location operator left right)] ∨
      ∃ (stage : Nat) (leftSide : Derivation (stage + 1)) (rightSide : Derivation stage),
        ladder[stage]? = some (.binary operator) ∧ leftSide.tree = left ∧ rightSide.tree = right ∧
          derivation.yield = leftSide.yield ++ .binary operator location :: rightSide.yield := by
  induction derivation with
  | operand expression =>
    obtain rfl : expression = _ := isBinary
    exact .inl rfl
  | climb inner inductionHypothesis => exact inductionHypothesis isBinary
  | power =>
    cases isBinary
    exact absurd rfl notPower
  | binary operator rung _ location leftSide rightSide =>
    cases isBinary
    exact .inr ⟨_, leftSide, rightSide, rung, rfl, rfl, rfl⟩
  | unary => cases isBinary

end Derivation

/-- The first token of a row writes an operator or has no place in it. -/
theorem pieces_token (afterOperand : Bool) (first : Token) (row : List Item) :
    ∃ piece rest, pieces afterOperand (.token first :: row) = piece :: rest ∧
      ∀ expression, piece ≠ .operand expression := by
  have alone (expression : Expr) : pieceOf afterOperand first ≠ .operand expression := by
    unfold pieceOf
    split
    · simp
    split
    · simp
    split <;> simp
  obtain _ | ⟨expression | second, row⟩ := row
  · exact ⟨_, _, rfl, alone⟩
  · exact ⟨_, _, rfl, alone⟩
  · rw [pieces]
    cases fused? first second with
    | none => exact ⟨_, _, rfl, alone⟩
    | some operator => exact ⟨_, _, rfl, by simp⟩

/-- A row of anything but an operation is one operand. -/
theorem row_of_not_isOperation {row : List Item} {expression : Expr} (unbroken : Unbroken row)
    (reduced : reduce row = .ok expression) (other : expression.isOperation = false) :
    row = [.operand expression] := by
  obtain ⟨derivation, yields, rfl⟩ := derivation_of_foldAll reduced
  rw [derivation.yield_of_not_isOperation other, written, unbroken.withoutBreaks_eq] at yields
  obtain _ | ⟨found | first, row⟩ := row
  · cases yields
  · rw [pieces] at yields
    obtain ⟨same, nothing⟩ := List.cons.inj yields
    cases same
    obtain _ | ⟨second | second, row⟩ := row
    · rfl
    · cases nothing
    · obtain ⟨piece, rest, some, -⟩ := pieces_token true second row
      rw [some] at nothing
      cases nothing
  · obtain ⟨piece, rest, starts, noOperand⟩ := pieces_token false first row
    rw [starts] at yields
    exact absurd (List.cons.inj yields).1.symm (noOperand _)

/-- A token that writes an operator breaks no line. -/
theorem isBreak_of_pieceOf {token : Token} {operator : BinaryOperator} {afterOperand : Bool}
    {location : Location} (writes : pieceOf afterOperand token = .binary operator location) :
    isBreak (.token token) = false := by
  obtain ⟨lexeme, place⟩ := token
  cases lexeme with
  | endOfLine | indentation => cases writes
  | _ => rfl

section TwoOperands

variable {token : Token} {operator : BinaryOperator} {stage : Nat} {left right : Expr}
  (alone : pieceOf true token = .binary operator token.location)

include alone

theorem written_binary : written [.operand left, .token token, .operand right] =
    [.operand left, .binary operator token.location, .operand right] := by
  have whole : Unbroken [.operand left, .token token, .operand right] :=
    List.forall_mem_cons.mpr ⟨rfl, List.forall_mem_cons.mpr
      ⟨isBreak_of_pieceOf alone, List.forall_mem_singleton.mpr rfl⟩⟩
  rw [written, whole.withoutBreaks_eq]
  simp [pieces, alone]

/-- Two operands and an operator between them make one operation. -/
theorem reduce_binary (rung : ladder[stage]? = some (.binary operator))
    (notPower : operator ≠ .power) : reduce [.operand left, .token token, .operand right] =
      .ok (.binary token.location operator left right) := by
  obtain ⟨leftSide, leftYields, leftTree⟩ :=
    (Derivation.operand left).exists_above (Nat.zero_le (stage + 1))
  obtain ⟨rightSide, rightYields, rightTree⟩ :=
    (Derivation.operand right).exists_above (Nat.zero_le stage)
  have listed : stage < ladder.length := (List.getElem?_eq_some_iff.mp rung).1
  obtain ⟨whole, wholeYields, wholeTree⟩ := (Derivation.binary operator rung notPower
    token.location leftSide rightSide).exists_above listed
  rw [Derivation.yield, leftYields, rightYields] at wholeYields
  rw [Derivation.tree, leftTree, rightTree] at wholeTree
  have yieldsAll := wholeYields.trans (written_binary alone).symm
  rw [reduce, ← yieldsAll, foldAll_yield, wholeTree]
  rfl

end TwoOperands

section Membership

variable {word : Token} (isIn : word.lexeme = .keyword .inWord) {target : Expr} {row : List Item}

include isIn

/-- The word `in` between an operand and a row is an operator of its own. -/
theorem written_member :
    written (.operand target :: .token word :: row) =
      .operand target :: .binary .member word.location :: written row := by
  have whole : isBreak (.token word) = false := by
    obtain ⟨lexeme, location⟩ := word
    cases isIn
    rfl
  have rest : withoutBreaks (.operand target :: .token word :: row) =
      .operand target :: .token word :: withoutBreaks row := by
    rw [withoutBreaks, List.filter_cons_of_pos rfl, List.filter_cons_of_pos (by rw [whole]; rfl)]
    rfl
  have alone : pieceOf true word = .binary .member word.location := by
    simp [pieceOf, isIn, BinaryOperator.ofLexeme?]
  have unfused (second : Token) : fused? word second = none := by
    simp [fused?, isIn]
  rw [written, written, rest]
  cases withoutBreaks row with
  | nil => simp [pieces, alone]
  | cons item rest =>
    cases item with
    | operand expression => simp [pieces, alone]
    | token second => simp [pieces, unfused, alone]

/-- A row of tight operators stays whole behind `in`. -/
theorem reduce_member {source : Expr} (reduced : reduce row = .ok source)
    (tight : ∀ piece ∈ written row, Precedes .member piece) :
    reduce (.operand target :: .token word :: row) =
      .ok (.binary word.location .member target source) := by
  obtain ⟨derivation, yields, rfl⟩ := derivation_of_foldAll reduced
  rw [← yields] at tight
  have rung : ladder[10]? = some (.binary .member) := rfl
  obtain ⟨right, rightYields, rightTree⟩ := derivation.exists_below (Nat.succ_pos 9) tight
  obtain ⟨left, leftYields, leftTree⟩ :=
    (Derivation.operand target).exists_above (Nat.zero_le (10 + 1))
  obtain ⟨whole, wholeYields, wholeTree⟩ :=
    (Derivation.binary .member rung (by decide) word.location left right).exists_above
      (show 10 + 1 ≤ ladder.length by decide)
  rw [Derivation.yield, leftYields, rightYields, yields] at wholeYields
  rw [Derivation.tree, leftTree, rightTree] at wholeTree
  have yieldsAll : whole.yield = written (.operand target :: .token word :: row) :=
    wholeYields.trans (written_member isIn).symm
  rw [reduce, ← yieldsAll, foldAll_yield, wholeTree]
  rfl

/-- An operand, `in` and a row make an operation. -/
theorem isOperation_of_reduce_member {result : Expr}
    (reduced : reduce (.operand target :: .token word :: row) = .ok result) :
    result.isOperation = true := by
  obtain ⟨derivation, yields, rfl⟩ := derivation_of_foldAll reduced
  rw [written_member isIn] at yields
  cases other : derivation.tree.isOperation with
  | true => rfl
  | false =>
    have single := derivation.yield_of_not_isOperation other
    rw [yields] at single
    cases single

/-- If they make a membership test of something that is no operation itself, then of the operand,
and the row has tight operators only. -/
theorem tight_of_reduce_member {location : Location} {last source : Expr}
    (reduced : reduce (.operand target :: .token word :: row) =
      .ok (.binary location .member last source)) (other : last.isOperation = false) :
    last = target ∧ reduce row = .ok source ∧
      ∀ piece ∈ written row, Precedes .member piece := by
  obtain ⟨derivation, yields, tree⟩ := derivation_of_foldAll reduced
  rw [written_member isIn] at yields
  obtain single | ⟨stage, left, right, rung, rfl, rfl, word'⟩ :=
    derivation.sides_of_tree_eq (by decide) tree
  · rw [yields] at single
    cases single
  · obtain rfl : stage = 10 := rung_unique rung rfl
    rw [yields, left.yield_of_not_isOperation other] at word'
    simp only [List.singleton_append, List.cons.injEq, Piece.operand.injEq, Piece.binary.injEq,
      true_and] at word'
    obtain ⟨rfl, -, rest⟩ := word'
    obtain ⟨same, sameYields, sameTree⟩ := right.exists_above (show 10 ≤ ladder.length by decide)
    refine ⟨rfl, ?_, fun piece inside rung isRung => ?_⟩
    · rw [reduce, rest, ← sameYields, foldAll_yield, sameTree]
    · rw [rest] at inside
      exact right.rung_lt_of_mem inside isRung

end Membership

end Ladder

end Offside
