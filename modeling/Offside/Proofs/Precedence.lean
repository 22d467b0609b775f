/-
This file proves that folding a row down the ladder is parsing by a grammar. The
grammar has one level for each number of rungs climbed. At level zero stands a
single operand. A level whose rung is a binary operator adds chains of that
operator that lean to the left, and a level whose rung is a unary operator adds
runs of it. Power alone is different: its right side is an operand with any
number of signs, although signs are one rung further down.

The folding never sees the grammar. It replaces parts of the row by operands,
rung by rung, so the argument needs a view of the rows in between. `rowAt` is
that view for a given derivation: the parts that the first rungs complete are
operands and everything else is still spread out. Folding one rung takes the row
of one stage to the row of the next, which is completeness. For soundness the
view runs the other way: `Covers` says that a half-folded row stands for a word,
each of its operands being the tree of a derivation of its part of the word.
-/

import Offside.Syntax.Reading

namespace Offside

namespace Ladder

/-! ### The grammar -/

/-- The right side of a power: an operand with any number of signs before it. -/
inductive Signed where
  | operand (expression : Expr)
  | sign (location : Location) (inner : Signed)

/-- The expression that a signed operand stands for. -/
def Signed.tree : Signed → Expr
  | .operand expression => expression
  | .sign location inner => .unary location .negate inner.tree

/-- The pieces that a signed operand is written with. -/
def Signed.yield : Signed → List Piece
  | .operand expression => [.operand expression]
  | .sign location inner => .unary .negate location :: inner.yield

/-- A derivation that uses the operators of the first rungs, as many as its level says. -/
inductive Derivation : Nat → Type where
  | operand (expression : Expr) : Derivation 0
  /-- What needs fewer rungs may stand on every later level. -/
  | climb {level : Nat} (inner : Derivation level) : Derivation (level + 1)
  | power (location : Location) (left : Derivation 1) (right : Signed) : Derivation 1
  | binary {level : Nat} (operator : BinaryOperator)
      (rung : ladder[level]? = some (.binary operator)) (notPower : operator ≠ .power)
      (location : Location) (left : Derivation (level + 1)) (right : Derivation level) :
      Derivation (level + 1)
  | unary {level : Nat} (operator : UnaryOperator)
      (rung : ladder[level]? = some (.unary operator)) (location : Location)
      (inner : Derivation (level + 1)) : Derivation (level + 1)

namespace Derivation

/-- The expression that a derivation builds. -/
def tree : {level : Nat} → Derivation level → Expr
  | _, .operand expression => expression
  | _, .climb inner => inner.tree
  | _, .power location left right => .binary location .power left.tree right.tree
  | _, .binary operator _ _ location left right =>
    .binary location operator left.tree right.tree
  | _, .unary operator _ location inner => .unary location operator inner.tree

/-- The leaves of a derivation from left to right. -/
def yield : {level : Nat} → Derivation level → List Piece
  | _, .operand expression => [.operand expression]
  | _, .climb inner => inner.yield
  | _, .power location left right => left.yield ++ .binary .power location :: right.yield
  | _, .binary operator _ _ location left right =>
    left.yield ++ .binary operator location :: right.yield
  | _, .unary operator _ location inner => .unary operator location :: inner.yield

/-- The row of a derivation once the rungs before `stage` are folded: what they complete is one
operand. -/
def rowAt (stage : Nat) : {level : Nat} → Derivation level → List Piece
  | _, .operand expression => [.operand expression]
  | _, .climb inner => inner.rowAt stage
  | _, .power location left right =>
    if 1 ≤ stage then [.operand (.binary location .power left.tree right.tree)]
    else left.rowAt stage ++ .binary .power location :: right.yield
  | level + 1, .binary operator _ _ location left right =>
    if level + 1 ≤ stage then [.operand (.binary location operator left.tree right.tree)]
    else left.rowAt stage ++ .binary operator location :: right.rowAt stage
  | level + 1, .unary operator _ location inner =>
    if level + 1 ≤ stage then [.operand (.unary location operator inner.tree)]
    else .unary operator location :: inner.rowAt stage

attribute [simp] tree yield rowAt

/-- Before any rung the row is the word itself. -/
theorem rowAt_zero {level : Nat} (derivation : Derivation level) :
    derivation.rowAt 0 = derivation.yield := by
  induction derivation with
  | operand => rfl
  | climb inner inductionHypothesis => exact inductionHypothesis
  | power location left right inductionHypothesis =>
    simp [rowAt, yield, inductionHypothesis]
  | binary operator rung notPower location left right leftHypothesis rightHypothesis =>
    simp [rowAt, yield, leftHypothesis, rightHypothesis]
  | unary operator rung location inner inductionHypothesis =>
    simp [rowAt, yield, inductionHypothesis]

/-- Once all its rungs are folded a derivation is one operand. -/
theorem rowAt_of_le {level stage : Nat} (derivation : Derivation level)
    (folded : level ≤ stage) : derivation.rowAt stage = [.operand derivation.tree] := by
  induction derivation with
  | operand => rfl
  | climb inner inductionHypothesis => exact inductionHypothesis (by omega)
  | power => simp only [rowAt, if_pos folded, tree]
  | binary => simp only [rowAt, if_pos folded, tree]
  | unary => simp only [rowAt, if_pos folded, tree]

theorem yield_ne_nil {level : Nat} (derivation : Derivation level) : derivation.yield ≠ [] := by
  induction derivation with
  | climb inner inductionHypothesis => exact inductionHypothesis
  | _ => simp [yield]

end Derivation

/-- No operator stands on two rungs. -/
theorem rung_unique {first second : Nat} {rung : Rung} (atFirst : ladder[first]? = some rung)
    (atSecond : ladder[second]? = some rung) : first = second := by
  have nodup : ladder.Nodup := by decide
  obtain ⟨bound, _⟩ := List.getElem?_eq_some_iff.mp atFirst
  exact (List.getElem?_inj bound nodup).mp (atFirst.trans atSecond.symm)

theorem power_rung {level : Nat} (rung : ladder[level]? = some (.binary .power)) : level = 0 :=
  rung_unique rung rfl

/-! ### Completeness: folding follows a derivation -/

theorem unaryOperand_signed (signed : Signed) (location : Location) (rest : List Piece) :
    unaryOperand .negate location (signed.yield ++ rest) =
      .ok (.unary location .negate signed.tree, rest) := by
  induction signed generalizing location with
  | operand => rfl
  | sign second inner inductionHypothesis =>
    rw [Signed.yield, List.cons_append, unaryOperand, if_pos rfl, inductionHypothesis second]
    rfl

/-- A power takes the whole of a signed operand. -/
theorem rightOperand_signed (signed : Signed) (operator : BinaryOperator) (location : Location)
    (rest : List Piece) :
    rightOperand operator location (signed.yield ++ rest) = .ok (signed.tree, rest) := by
  cases signed with
  | operand => rfl
  | sign second inner => exact unaryOperand_signed inner second rest

/-- A unary operator takes the whole of the derivation after it, which is a run of the same
operator before one operand. -/
theorem unaryOperand_rowAt {stage : Nat} {operator : UnaryOperator}
    (rung : ladder[stage]? = some (.unary operator)) {level : Nat} (derivation : Derivation level)
    (atRung : level = stage + 1) (location : Location) (rest : List Piece) :
    unaryOperand operator location (derivation.rowAt stage ++ rest) =
      .ok (.unary location operator derivation.tree, rest) := by
  induction derivation generalizing location with
  | operand => omega
  | climb inner =>
    rw [Derivation.rowAt, inner.rowAt_of_le (by omega)]
    rfl
  | power =>
    obtain rfl : stage = 0 := by omega
    cases rung
  | binary found otherRung =>
    obtain rfl : stage = _ := (Nat.succ.inj atRung).symm
    exact absurd (rung.symm.trans otherRung) (by simp)
  | unary found otherRung second inner inductionHypothesis =>
    obtain rfl : stage = _ := (Nat.succ.inj atRung).symm
    obtain rfl : found = operator := by simpa using otherRung.symm.trans rung
    rw [Derivation.rowAt, if_neg (by omega), List.cons_append, unaryOperand, if_pos rfl,
      inductionHypothesis rfl second]
    rfl

theorem foldBinary_operand (operator : BinaryOperator) (passed rest : List Piece)
    (expression : Expr) :
    foldBinary operator passed (.operand expression :: rest) =
      foldBinary operator (.operand expression :: passed) rest := by
  rw [foldBinary.eq_def]

theorem foldBinary_skip {operator other : BinaryOperator} (differs : other ≠ operator)
    (location : Location) (passed rest : List Piece) :
    foldBinary operator passed (.binary other location :: rest) =
      foldBinary operator (.binary other location :: passed) rest := by
  rw [foldBinary.eq_def]
  exact if_neg differs

theorem foldBinary_unary (operator : BinaryOperator) (other : UnaryOperator)
    (location : Location) (passed rest : List Piece) :
    foldBinary operator passed (.unary other location :: rest) =
      foldBinary operator (.unary other location :: passed) rest := by
  rw [foldBinary.eq_def]

theorem foldBinary_take {operator : BinaryOperator} {location : Location} {left right : Expr}
    {passed row after : List Piece}
    (taken : rightOperand operator location row = .ok (right, after)) :
    foldBinary operator (.operand left :: passed) (.binary operator location :: row) =
      foldBinary operator (.operand (.binary location operator left right) :: passed) after := by
  rw [foldBinary, if_pos rfl]
  split
  next result after' found =>
    obtain ⟨rfl, rfl⟩ : right = result ∧ after = after' := by simpa using taken.symm.trans found
    rfl
  next found => exact absurd (taken.symm.trans found) (by simp)

/-- Folding a binary rung passes a derivation by completing every part that belongs to the rung.
What comes before and after the derivation does not matter. -/
theorem foldBinary_rowAt {stage : Nat} {operator : BinaryOperator}
    (rung : ladder[stage]? = some (.binary operator)) {level : Nat} (derivation : Derivation level)
    (reaches : stage < level) (passed rest : List Piece) :
    foldBinary operator passed (derivation.rowAt stage ++ rest) =
      foldBinary operator ((derivation.rowAt (stage + 1)).reverse ++ passed) rest := by
  induction derivation generalizing passed rest with
  | operand => omega
  | @climb level inner inductionHypothesis =>
    by_cases below : stage < level
    · exact inductionHypothesis below passed rest
    · rw [Derivation.rowAt, Derivation.rowAt, inner.rowAt_of_le (by omega),
        inner.rowAt_of_le (by omega)]
      exact foldBinary_operand operator passed rest inner.tree
  | power location left right inductionHypothesis =>
    obtain rfl : stage = 0 := by omega
    obtain rfl : operator = .power := by simpa [ladder] using rung.symm
    rw [Derivation.rowAt, Derivation.rowAt, if_neg (by omega), if_pos (by omega),
      List.append_assoc, inductionHypothesis (by omega), left.rowAt_of_le (by omega)]
    exact foldBinary_take (rightOperand_signed right .power location rest)
  | @binary level found foundRung notPower location left right leftHypothesis rightHypothesis =>
    by_cases same : stage = level
    · subst same
      obtain rfl : operator = found := by simpa using rung.symm.trans foundRung
      rw [Derivation.rowAt, Derivation.rowAt, if_neg (by omega), if_pos (by omega),
        List.append_assoc, leftHypothesis (by omega), left.rowAt_of_le (by omega),
        right.rowAt_of_le (by omega)]
      exact foldBinary_take rfl
    · have differs : found ≠ operator := by
        rintro rfl
        exact same (rung_unique rung foundRung)
      rw [Derivation.rowAt, Derivation.rowAt, if_neg (by omega), if_neg (by omega),
        List.append_assoc, leftHypothesis (by omega), List.cons_append,
        foldBinary_skip differs, rightHypothesis (by omega)]
      simp
  | @unary level found foundRung location inner inductionHypothesis =>
    have differs : stage ≠ level := by
      rintro rfl
      exact absurd (rung.symm.trans foundRung) (by simp)
    rw [Derivation.rowAt, Derivation.rowAt, if_neg (by omega), if_neg (by omega),
      List.cons_append, foldBinary_unary, inductionHypothesis (by omega)]
    simp

/-- The last piece passed is no operand, so a unary operator may follow. -/
def Free (passed : List Piece) : Prop :=
  ∀ expression, passed.head? ≠ some (.operand expression)

theorem foldUnary_operand (operator : UnaryOperator) (passed rest : List Piece)
    (expression : Expr) :
    foldUnary operator passed (.operand expression :: rest) =
      foldUnary operator (.operand expression :: passed) rest := by
  rw [foldUnary.eq_def]

theorem foldUnary_binary (operator : UnaryOperator) (other : BinaryOperator)
    (location : Location) (passed rest : List Piece) :
    foldUnary operator passed (.binary other location :: rest) =
      foldUnary operator (.binary other location :: passed) rest := by
  rw [foldUnary.eq_def]

theorem foldUnary_skip {operator other : UnaryOperator} (differs : other ≠ operator)
    (location : Location) (passed rest : List Piece) :
    foldUnary operator passed (.unary other location :: rest) =
      foldUnary operator (.unary other location :: passed) rest := by
  rw [foldUnary.eq_def]
  exact if_neg differs

theorem foldUnary_take {operator : UnaryOperator} {location : Location} {operand : Expr}
    {passed row after : List Piece} (free : Free passed)
    (taken : unaryOperand operator location row = .ok (operand, after)) :
    foldUnary operator passed (.unary operator location :: row) =
      foldUnary operator (.operand operand :: passed) after := by
  rw [foldUnary, if_pos rfl]
  · split
    next result after' found =>
      obtain ⟨rfl, rfl⟩ : operand = result ∧ after = after' := by
        simpa using taken.symm.trans found
      rfl
    next found => exact absurd (taken.symm.trans found) (by simp)
  · rintro expression before rfl
    exact free expression rfl

/-- Folding a unary rung passes a derivation that no operand stands before. -/
theorem foldUnary_rowAt {stage : Nat} {operator : UnaryOperator}
    (rung : ladder[stage]? = some (.unary operator)) {level : Nat} (derivation : Derivation level)
    (reaches : stage < level) (passed rest : List Piece) (free : Free passed) :
    foldUnary operator passed (derivation.rowAt stage ++ rest) =
      foldUnary operator ((derivation.rowAt (stage + 1)).reverse ++ passed) rest := by
  induction derivation generalizing passed rest with
  | operand => omega
  | @climb level inner inductionHypothesis =>
    by_cases below : stage < level
    · exact inductionHypothesis below passed rest free
    · rw [Derivation.rowAt, Derivation.rowAt, inner.rowAt_of_le (by omega),
        inner.rowAt_of_le (by omega)]
      exact foldUnary_operand operator passed rest inner.tree
  | power =>
    obtain rfl : stage = 0 := by omega
    cases rung
  | @binary level found foundRung notPower location left right leftHypothesis rightHypothesis =>
    have differs : stage ≠ level := by
      rintro rfl
      exact absurd (rung.symm.trans foundRung) (by simp)
    rw [Derivation.rowAt, Derivation.rowAt, if_neg (by omega), if_neg (by omega),
      List.append_assoc, leftHypothesis (by omega) _ _ free, List.cons_append, foldUnary_binary,
      rightHypothesis (by omega) _ _ (by simp [Free])]
    simp
  | @unary level found foundRung location inner inductionHypothesis =>
    by_cases same : stage = level
    · subst same
      obtain rfl : operator = found := by simpa using rung.symm.trans foundRung
      rw [Derivation.rowAt, Derivation.rowAt, if_neg (by omega), if_pos (by omega)]
      exact foldUnary_take free (unaryOperand_rowAt rung inner rfl location rest)
    · have differs : found ≠ operator := by
        rintro rfl
        exact same (rung_unique rung foundRung)
      rw [Derivation.rowAt, Derivation.rowAt, if_neg (by omega), if_neg (by omega),
        List.cons_append, foldUnary_skip differs,
        inductionHypothesis (by omega) _ _ (by simp [Free])]
      simp

/-- One rung takes the row of a derivation to its row at the next stage. -/
theorem fold_rowAt {stage level : Nat} {rung : Rung} (found : ladder[stage]? = some rung)
    (derivation : Derivation level) (reaches : stage < level) :
    fold (derivation.rowAt stage) rung = .ok (derivation.rowAt (stage + 1)) := by
  cases rung with
  | binary operator =>
    have folded := foldBinary_rowAt found derivation reaches [] []
    rw [List.append_nil, List.append_nil] at folded
    rw [fold, folded, foldBinary, List.reverse_reverse]
  | unary operator =>
    have folded := foldUnary_rowAt found derivation reaches [] [] (by simp [Free])
    rw [List.append_nil, List.append_nil] at folded
    rw [fold, folded, foldUnary, List.reverse_reverse]

/-- The rungs from a stage on fold a derivation of the last level to one operand. -/
theorem foldlM_rowAt (derivation : Derivation ladder.length) (stage : Nat)
    (bound : stage ≤ ladder.length) :
    (ladder.drop stage).foldlM fold (derivation.rowAt stage) =
      .ok [.operand derivation.tree] := by
  by_cases atEnd : stage = ladder.length
  · rw [atEnd, List.drop_length, derivation.rowAt_of_le (Nat.le_refl _)]
    rfl
  · have inside : stage < ladder.length := by omega
    rw [List.drop_eq_getElem_cons inside, List.foldlM_cons,
      fold_rowAt (List.getElem?_eq_getElem inside) derivation inside]
    exact foldlM_rowAt derivation (stage + 1) inside
termination_by ladder.length - stage

/-- The word of a derivation folds to its tree. -/
theorem foldAll_yield (derivation : Derivation ladder.length) :
    foldAll derivation.yield = .ok derivation.tree := by
  have folded := foldlM_rowAt derivation 0 (Nat.zero_le _)
  rw [List.drop_zero, derivation.rowAt_zero] at folded
  rw [foldAll, folded]
  rfl

/-! ### Soundness: a half-folded row stands for the word -/

/-- The rung that folds a piece. -/
def rungOf? : Piece → Option Rung
  | .binary operator _ => some (.binary operator)
  | .unary operator _ => some (.unary operator)
  | _ => none

/-- A piece that is no operand and that no rung before `level` folds. -/
structure Waits (level : Nat) (piece : Piece) : Prop where
  notOperand : ∀ expression, piece ≠ .operand expression
  unfolded : ∀ stage < level, ∀ rung, ladder[stage]? = some rung → rungOf? piece ≠ some rung

/-- A row stands for a word: each operand is the tree of a derivation of its part of the word, and
what is left are pieces that wait for later rungs. -/
inductive Covers (level : Nat) : List Piece → List Piece → Prop where
  | nil : Covers level [] []
  | operand (derivation : Derivation level) {row word : List Piece} (rest : Covers level row word) :
      Covers level (.operand derivation.tree :: row) (derivation.yield ++ word)
  | waiting (piece : Piece) (waits : Waits level piece) {row word : List Piece}
      (rest : Covers level row word) : Covers level (piece :: row) (piece :: word)

theorem waits_zero {piece : Piece} (notOperand : ∀ expression, piece ≠ .operand expression) :
    Waits 0 piece :=
  ⟨notOperand, fun _ below => absurd below (Nat.not_lt_zero _)⟩

theorem Waits.succ {level : Nat} {piece : Piece} {rung : Rung} (waits : Waits level piece)
    (found : ladder[level]? = some rung) (other : rungOf? piece ≠ some rung) :
    Waits (level + 1) piece := by
  refine ⟨waits.notOperand, fun stage below stageRung atStage => ?_⟩
  by_cases same : stage = level
  · subst same
    obtain rfl : rung = stageRung := by simpa using found.symm.trans atStage
    exact other
  · exact waits.unfolded stage (by omega) stageRung atStage

/-- Before any rung every row stands for itself. -/
theorem Covers.refl (row : List Piece) : Covers 0 row row := by
  induction row with
  | nil => exact .nil
  | cons piece rest inductionHypothesis =>
    cases piece with
    | operand expression => exact .operand (.operand expression) inductionHypothesis
    | binary => exact .waiting _ (waits_zero (by simp)) inductionHypothesis
    | unary => exact .waiting _ (waits_zero (by simp)) inductionHypothesis
    | stray => exact .waiting _ (waits_zero (by simp)) inductionHypothesis

/-- Before any rung a row stands for nothing else. -/
theorem Covers.eq_of_zero {row word : List Piece} (covers : Covers 0 row word) : row = word := by
  generalize level_eq : 0 = level at covers
  induction covers with
  | nil => rfl
  | operand derivation rest inductionHypothesis =>
    subst level_eq
    cases derivation with
    | operand => rw [Derivation.tree, Derivation.yield, inductionHypothesis]; rfl
  | waiting piece waits rest inductionHypothesis => rw [inductionHypothesis]

theorem Covers.append {level : Nat} {first second firstWord secondWord : List Piece}
    (covers : Covers level first firstWord) (further : Covers level second secondWord) :
    Covers level (first ++ second) (firstWord ++ secondWord) := by
  induction covers with
  | nil => exact further
  | operand derivation rest inductionHypothesis =>
    rw [List.append_assoc]
    exact .operand derivation inductionHypothesis
  | waiting piece waits rest inductionHypothesis => exact .waiting piece waits inductionHypothesis

/-- Passing a piece that waits moves it to the word behind. -/
theorem Covers.pass_waiting {level : Nat} {passed before : List Piece} {piece : Piece}
    (covers : Covers level passed.reverse before) (waits : Waits level piece) :
    Covers level (piece :: passed).reverse (before ++ [piece]) := by
  rw [List.reverse_cons]
  exact covers.append (.waiting piece waits .nil)

/-- Passing an operand moves its derivation to the word behind. -/
theorem Covers.pass_operand {level : Nat} {passed before : List Piece}
    (covers : Covers level passed.reverse before) (derivation : Derivation level) :
    Covers level (.operand derivation.tree :: passed).reverse (before ++ derivation.yield) := by
  rw [List.reverse_cons]
  simpa using covers.append (.operand derivation .nil)

/-- A row that ends in an operand stands for a word that ends in a derivation. -/
theorem Covers.of_concat {level : Nat} {row word : List Piece} {expression : Expr}
    (covers : Covers level (row ++ [.operand expression]) word) :
    ∃ (before : List Piece) (derivation : Derivation level),
      Covers level row before ∧ derivation.tree = expression ∧
        word = before ++ derivation.yield := by
  induction row generalizing word with
  | nil =>
    cases covers with
    | operand derivation rest =>
      cases rest
      exact ⟨[], derivation, .nil, rfl, by simp⟩
    | waiting _ waits => exact absurd rfl (waits.notOperand expression)
  | cons piece row inductionHypothesis =>
    cases covers with
    | operand derivation rest =>
      obtain ⟨before, last, front, same, rfl⟩ := inductionHypothesis rest
      exact ⟨derivation.yield ++ before, last, .operand derivation front, same, by simp⟩
    | waiting _ waits rest =>
      obtain ⟨before, last, front, same, rfl⟩ := inductionHypothesis rest
      exact ⟨piece :: before, last, .waiting piece waits front, same, by simp⟩

/-- What a sign takes is a signed operand. -/
theorem signed_of_unaryOperand {location : Location} {row after : List Piece} {operand : Expr}
    (taken : unaryOperand .negate location row = .ok (operand, after)) :
    ∃ signed : Signed, .unary .negate location :: row = signed.yield ++ after ∧
      signed.tree = operand := by
  induction row generalizing location operand with
  | nil => simp [unaryOperand, failAt] at taken
  | cons piece rest inductionHypothesis =>
    cases piece with
    | operand expression =>
      simp only [unaryOperand, Except.ok.injEq, Prod.mk.injEq] at taken
      obtain ⟨rfl, rfl⟩ := taken
      exact ⟨.sign location (.operand expression), rfl, rfl⟩
    | binary => simp [unaryOperand, failAt] at taken
    | stray => simp [unaryOperand, failAt] at taken
    | unary second secondLocation =>
      rw [unaryOperand] at taken
      split at taken
      next same =>
        subst same
        obtain ⟨⟨innerOperand, innerAfter⟩, inner, result⟩ := Row.bind_ok taken
        simp only [Except.ok.injEq, Prod.mk.injEq] at result
        obtain ⟨rfl, rfl⟩ := result
        obtain ⟨signed, word, tree⟩ := inductionHypothesis inner
        refine ⟨.sign location signed, ?_, ?_⟩
        · rw [word, Signed.yield, List.cons_append]
        · rw [Signed.tree, tree]
      next => simp [failAt] at taken

/-- What a unary operator takes on its own rung is a derivation. -/
theorem derivation_of_unaryOperand {level : Nat} {operator : UnaryOperator}
    (rung : ladder[level]? = some (.unary operator)) {location : Location}
    {row word after : List Piece} {operand : Expr} (covers : Covers level row word)
    (taken : unaryOperand operator location row = .ok (operand, after)) :
    ∃ (derivation : Derivation (level + 1)) (left : List Piece), Covers level after left ∧
      derivation.tree = operand ∧ .unary operator location :: word = derivation.yield ++ left := by
  induction covers generalizing location operand with
  | nil => simp [unaryOperand, failAt] at taken
  | @operand derivation row word rest =>
    simp only [unaryOperand, Except.ok.injEq, Prod.mk.injEq] at taken
    obtain ⟨rfl, rfl⟩ := taken
    exact ⟨.unary operator rung location (.climb derivation), word, rest, rfl, rfl⟩
  | waiting piece waits rest inductionHypothesis =>
    cases piece with
    | operand expression => exact absurd rfl (waits.notOperand expression)
    | binary => simp [unaryOperand, failAt] at taken
    | stray => simp [unaryOperand, failAt] at taken
    | unary second secondLocation =>
      rw [unaryOperand] at taken
      split at taken
      next same =>
        subst same
        obtain ⟨⟨innerOperand, innerAfter⟩, inner, result⟩ := Row.bind_ok taken
        simp only [Except.ok.injEq, Prod.mk.injEq] at result
        obtain ⟨rfl, rfl⟩ := result
        obtain ⟨derivation, left, covered, tree, same⟩ := inductionHypothesis inner
        refine ⟨.unary second rung location derivation, left, covered, ?_, ?_⟩
        · rw [Derivation.tree, tree]
        · rw [Derivation.yield, List.cons_append, same]
      next => simp [failAt] at taken

/-- What a binary operator takes on its own rung makes a derivation together with the one before
it. -/
theorem derivation_of_rightOperand {level : Nat} {operator : BinaryOperator}
    (rung : ladder[level]? = some (.binary operator)) {location : Location}
    {row word after : List Piece} {right : Expr} (covers : Covers level row word)
    (taken : rightOperand operator location row = .ok (right, after))
    (leftSide : Derivation (level + 1)) :
    ∃ (derivation : Derivation (level + 1)) (left : List Piece), Covers level after left ∧
      derivation.tree = .binary location operator leftSide.tree right ∧
      leftSide.yield ++ .binary operator location :: word = derivation.yield ++ left := by
  by_cases isPower : operator = .power
  · -- No rung is folded yet, so the row is the word, and signs are still in it.
    subst isPower
    obtain rfl := power_rung rung
    obtain rfl := covers.eq_of_zero
    have asSigned : ∃ signed : Signed, row = signed.yield ++ after ∧ signed.tree = right := by
      unfold rightOperand at taken
      split at taken
      · simp only [Except.ok.injEq, Prod.mk.injEq] at taken
        obtain ⟨rfl, rfl⟩ := taken
        exact ⟨.operand _, rfl, rfl⟩
      · exact signed_of_unaryOperand taken
      · simp [failAt] at taken
    obtain ⟨signed, rfl, rfl⟩ := asSigned
    refine ⟨.power location leftSide signed, after, .refl after, rfl, ?_⟩
    rw [Derivation.yield, List.append_assoc, List.cons_append]
  · -- Signs are folded by now: only an operand can stand on the right.
    have signsFolded : 1 < level := by
      have notFirst : level ≠ 0 := by
        rintro rfl
        exact isPower (by simpa [ladder] using rung.symm)
      have notSecond : level ≠ 1 := by
        rintro rfl
        exact absurd rung (by simp [ladder])
      omega
    cases covers with
    | nil => simp [rightOperand, failAt] at taken
    | @operand derivation row word rest =>
      simp only [rightOperand, Except.ok.injEq, Prod.mk.injEq] at taken
      obtain ⟨rfl, rfl⟩ := taken
      refine ⟨.binary operator rung isPower location leftSide derivation, word, rest, rfl, ?_⟩
      rw [Derivation.yield, List.append_assoc, List.cons_append]
    | waiting piece waits rest =>
      unfold rightOperand at taken
      split at taken
      next expression _ found =>
        exact absurd (List.cons.inj found).1 (waits.notOperand expression)
      next signLocation _ found =>
        obtain rfl : piece = .unary .negate signLocation := (List.cons.inj found).1
        exact absurd rfl (waits.unfolded 1 signsFolded (.unary .negate) rfl)
      next => simp [failAt] at taken

/-- Folding a binary rung keeps what a row stands for. -/
theorem covers_of_foldBinary {level : Nat} {operator : BinaryOperator}
    (rung : ladder[level]? = some (.binary operator)) {passed row out before word : List Piece}
    (folded : foldBinary operator passed row = .ok out)
    (front : Covers (level + 1) passed.reverse before) (covers : Covers level row word) :
    Covers (level + 1) out (before ++ word) := by
  fun_induction foldBinary operator passed row generalizing before word with
  | case1 passed =>
    cases covers
    obtain rfl : passed.reverse = out := by simpa using folded
    rwa [List.append_nil]
  | case2 location rest left passed right after taken inductionHypothesis =>
    rw [List.reverse_cons] at front
    obtain ⟨beforeLeft, leftSide, earlier, rfl, rfl⟩ := front.of_concat
    cases covers with
    | waiting _ waits rest =>
      obtain ⟨derivation, left, covered, tree, same⟩ :=
        derivation_of_rightOperand rung rest taken leftSide
      rw [List.append_assoc, same, ← List.append_assoc]
      exact inductionHypothesis folded (tree ▸ earlier.pass_operand derivation) covered
  | case3 => simp at folded
  | case4 => simp [failAt] at folded
  | case5 passed found location rest differs inductionHypothesis =>
    cases covers with
    | waiting _ waits rest =>
      have waits' : Waits (level + 1) (.binary found location) :=
        waits.succ rung (by simpa [rungOf?] using differs)
      simpa using inductionHypothesis folded (front.pass_waiting waits') rest
  | case6 passed piece rest notBinary inductionHypothesis =>
    cases covers with
    | operand derivation rest =>
      simpa [Derivation.yield] using
        inductionHypothesis folded (front.pass_operand derivation.climb) rest
    | waiting _ waits rest =>
      have waits' : Waits (level + 1) piece := waits.succ rung (by
        cases piece with
        | binary found location => exact absurd rfl (notBinary found location)
        | _ => simp [rungOf?])
      simpa using inductionHypothesis folded (front.pass_waiting waits') rest

/-- Folding a unary rung keeps what a row stands for. -/
theorem covers_of_foldUnary {level : Nat} {operator : UnaryOperator}
    (rung : ladder[level]? = some (.unary operator)) {passed row out before word : List Piece}
    (folded : foldUnary operator passed row = .ok out)
    (front : Covers (level + 1) passed.reverse before) (covers : Covers level row word) :
    Covers (level + 1) out (before ++ word) := by
  fun_induction foldUnary operator passed row generalizing before word with
  | case1 passed =>
    cases covers
    obtain rfl : passed.reverse = out := by simpa using folded
    rwa [List.append_nil]
  | case2 => simp [failAt] at folded
  | case3 passed location rest operand after taken free inductionHypothesis =>
    cases covers with
    | waiting _ waits rest =>
      obtain ⟨derivation, left, covered, rfl, same⟩ := derivation_of_unaryOperand rung rest taken
      rw [same, ← List.append_assoc]
      exact inductionHypothesis folded (front.pass_operand derivation) covered
  | case4 => simp at folded
  | case5 passed found location rest differs inductionHypothesis =>
    cases covers with
    | waiting _ waits rest =>
      have waits' : Waits (level + 1) (.unary found location) :=
        waits.succ rung (by simpa [rungOf?] using differs)
      simpa using inductionHypothesis folded (front.pass_waiting waits') rest
  | case6 passed piece rest notUnary inductionHypothesis =>
    cases covers with
    | operand derivation rest =>
      simpa [Derivation.yield] using
        inductionHypothesis folded (front.pass_operand derivation.climb) rest
    | waiting _ waits rest =>
      have waits' : Waits (level + 1) piece := waits.succ rung (by
        cases piece with
        | unary found location => exact absurd rfl (notUnary found location)
        | _ => simp [rungOf?])
      simpa using inductionHypothesis folded (front.pass_waiting waits') rest

/-- One rung keeps what a row stands for. -/
theorem covers_of_fold {level : Nat} {rung : Rung} (found : ladder[level]? = some rung)
    {row out word : List Piece} (folded : fold row rung = .ok out)
    (covers : Covers level row word) : Covers (level + 1) out word := by
  cases rung with
  | binary operator => exact covers_of_foldBinary found folded .nil covers
  | unary operator => exact covers_of_foldUnary found folded .nil covers

/-- So do all rungs from a stage on. -/
theorem covers_of_foldlM {stage : Nat} (bound : stage ≤ ladder.length)
    {row out word : List Piece} (folded : (ladder.drop stage).foldlM fold row = .ok out)
    (covers : Covers stage row word) : Covers ladder.length out word := by
  by_cases atEnd : stage = ladder.length
  · subst atEnd
    rw [List.drop_length] at folded
    obtain rfl : row = out := by simpa [List.foldlM, pure, Except.pure] using folded
    exact covers
  · have inside : stage < ladder.length := by omega
    rw [List.drop_eq_getElem_cons inside, List.foldlM_cons] at folded
    obtain ⟨middle, first, others⟩ := Row.bind_ok folded
    exact covers_of_foldlM inside others
      (covers_of_fold (List.getElem?_eq_getElem inside) first covers)
termination_by ladder.length - stage

theorem eq_of_finish {row : List Piece} {expression : Expr}
    (finished : finish row = .ok expression) : row = [.operand expression] := by
  unfold finish at finished
  split at finished
  · simpa using finished
  · simp at finished
  · split at finished
    · simp [failAt] at finished
    · split at finished
      · simp [failAt] at finished
      · unfold finish.misplaced at finished
        split at finished <;> simp [failAt] at finished
      · unfold finish.misplaced at finished
        split at finished <;> simp [failAt] at finished

/-- Whatever a row folds to is the tree of a derivation of the row. -/
theorem derivation_of_foldAll {row : List Piece} {expression : Expr}
    (folded : foldAll row = .ok expression) :
    ∃ derivation : Derivation ladder.length,
      derivation.yield = row ∧ derivation.tree = expression := by
  obtain ⟨out, rungs, finished⟩ := Row.bind_ok folded
  obtain rfl := eq_of_finish finished
  have covers := covers_of_foldlM (Nat.zero_le _) rungs (Covers.refl row)
  cases covers with
  | operand derivation rest =>
    cases rest
    exact ⟨derivation, (List.append_nil _).symm, rfl⟩
  | waiting _ waits => exact absurd rfl (waits.notOperand expression)

/-! ### The grammar is unambiguous -/

theorem Signed.binary_not_mem_yield (signed : Signed) (operator : BinaryOperator)
    (location : Location) : Piece.binary operator location ∉ signed.yield := by
  induction signed with
  | operand => simp [yield]
  | sign second inner inductionHypothesis => simp [yield, inductionHypothesis]

theorem Signed.yield_injective {first second : Signed} (same : first.yield = second.yield) :
    first = second := by
  induction first generalizing second with
  | operand => cases second <;> simp_all [yield]
  | sign location inner inductionHypothesis =>
    cases second with
    | operand => simp [yield] at same
    | sign secondLocation secondInner =>
      simp only [yield, List.cons.injEq, Piece.unary.injEq, true_and] at same
      rw [same.1, inductionHypothesis same.2]

/-- A binary operator in a word belongs to one of the rungs climbed. -/
theorem Derivation.rung_of_binary_mem {level : Nat} (derivation : Derivation level)
    {operator : BinaryOperator} {location : Location}
    (member : Piece.binary operator location ∈ derivation.yield) :
    ∃ stage < level, ladder[stage]? = some (.binary operator) := by
  induction derivation with
  | operand => simp [yield] at member
  | climb inner inductionHypothesis =>
    obtain ⟨stage, below, rung⟩ := inductionHypothesis member
    exact ⟨stage, by omega, rung⟩
  | power second left right inductionHypothesis =>
    simp only [yield, List.mem_append, List.mem_cons, Piece.binary.injEq] at member
    obtain inLeft | ⟨rfl, -⟩ | inRight := member
    · exact inductionHypothesis inLeft
    · exact ⟨0, by omega, rfl⟩
    · exact absurd inRight (right.binary_not_mem_yield operator location)
  | @binary level found rung notPower second left right leftHypothesis rightHypothesis =>
    simp only [yield, List.mem_append, List.mem_cons, Piece.binary.injEq] at member
    obtain inLeft | ⟨rfl, -⟩ | inRight := member
    · exact leftHypothesis inLeft
    · exact ⟨level, by omega, rung⟩
    · obtain ⟨stage, below, rung⟩ := rightHypothesis inRight
      exact ⟨stage, by omega, rung⟩
  | unary found rung second inner inductionHypothesis =>
    simp only [yield, List.mem_cons, reduceCtorEq, false_or] at member
    exact inductionHypothesis member

/-- A unary operator at the start of a word belongs to one of the rungs climbed. Further inside a
power may have brought signs that its own level does not have. -/
theorem Derivation.rung_of_unary_head {level : Nat} (derivation : Derivation level)
    {operator : UnaryOperator} {location : Location}
    (starts : derivation.yield.head? = some (.unary operator location)) :
    ∃ stage < level, ladder[stage]? = some (.unary operator) := by
  have inLeft {level : Nat} {left : Derivation level} {rest : List Piece}
      (starts : (left.yield ++ rest).head? = some (.unary operator location)) :
      left.yield.head? = some (.unary operator location) := by
    obtain ⟨first, others, word⟩ := List.exists_cons_of_ne_nil left.yield_ne_nil
    rwa [word] at starts ⊢
  induction derivation with
  | operand => simp [yield] at starts
  | climb inner inductionHypothesis =>
    obtain ⟨stage, below, rung⟩ := inductionHypothesis starts
    exact ⟨stage, by omega, rung⟩
  | power second left right inductionHypothesis => exact inductionHypothesis (inLeft starts)
  | binary found rung notPower second left right inductionHypothesis =>
    exact inductionHypothesis (inLeft starts)
  | @unary level found rung second inner =>
    simp only [yield, List.head?_cons, Option.some.injEq, Piece.unary.injEq] at starts
    exact ⟨level, by omega, starts.1 ▸ rung⟩

/-- A list is cut in one way at the last of its marked entries. -/
theorem append_cons_inj {α : Type} (marked : α → Prop) {before before' after after' : List α}
    {mark mark' : α} (same : before ++ mark :: after = before' ++ mark' :: after')
    (isMark : marked mark) (isMark' : marked mark') (clean : ∀ entry ∈ after, ¬ marked entry)
    (clean' : ∀ entry ∈ after', ¬ marked entry) :
    before = before' ∧ mark = mark' ∧ after = after' := by
  obtain ⟨middle, rfl, rest⟩ | ⟨middle, rfl, rest⟩ := List.append_eq_append_iff.mp same
  · cases middle with
    | nil => simpa using rest
    | cons first others =>
      simp only [List.cons_append, List.cons.injEq] at rest
      exact absurd isMark' (clean mark' (by simp [rest.2]))
  · cases middle with
    | nil => simpa [eq_comm] using rest
    | cons first others =>
      simp only [List.cons_append, List.cons.injEq] at rest
      exact absurd isMark (clean' mark (by simp [rest.2]))

/-- A level whose rung is a binary operator has no other derivations of a word that this operator
cuts in two. -/
theorem Derivation.not_binary_mem {level : Nat} {operator : BinaryOperator}
    (rung : ladder[level]? = some (.binary operator)) (derivation : Derivation level)
    (location : Location) : Piece.binary operator location ∉ derivation.yield := by
  intro member
  obtain ⟨stage, below, found⟩ := derivation.rung_of_binary_mem member
  exact absurd (rung_unique found rung) (by omega)

/-- The rung of a unary operator has no other derivations of a word that starts with it. -/
theorem Derivation.not_unary_head {level : Nat} {operator : UnaryOperator}
    (rung : ladder[level]? = some (.unary operator)) (derivation : Derivation level)
    (location : Location) (rest : List Piece) :
    derivation.yield ≠ .unary operator location :: rest := by
  intro starts
  have head : derivation.yield.head? = some (.unary operator location) := by
    rw [starts, List.head?_cons]
  obtain ⟨stage, below, found⟩ := derivation.rung_of_unary_head head
  exact absurd (rung_unique found rung) (by omega)

/-- The piece is this binary operator. -/
def IsBinary (operator : BinaryOperator) (piece : Piece) : Prop :=
  ∃ location, piece = .binary operator location

/-- A word has at most one derivation on each level. -/
theorem Derivation.yield_injective {level : Nat} {first second : Derivation level}
    (same : first.yield = second.yield) : first = second := by
  induction first with
  | operand expression =>
    cases second with
    | operand => simpa [yield] using same
  | @climb level inner inductionHypothesis =>
    cases second with
    | climb other => rw [inductionHypothesis same]
    | power location left right =>
      exact absurd (show Piece.binary .power location ∈ inner.yield by
        simp [show inner.yield = _ from same, yield]) (inner.not_binary_mem rfl location)
    | binary operator rung notPower location left right =>
      exact absurd (show Piece.binary operator location ∈ inner.yield by
        simp [show inner.yield = _ from same, yield]) (inner.not_binary_mem rung location)
    | unary operator rung location other =>
      exact absurd same (inner.not_unary_head rung location other.yield)
  | power location left right inductionHypothesis =>
    cases second with
    | climb other =>
      exact absurd (show Piece.binary .power location ∈ other.yield by
        simp [← show _ = other.yield from same, yield]) (other.not_binary_mem rfl location)
    | power otherLocation otherLeft otherRight =>
      obtain ⟨lefts, marks, rights⟩ := append_cons_inj (IsBinary .power) same ⟨_, rfl⟩ ⟨_, rfl⟩
        (by rintro _ member ⟨location, rfl⟩; exact right.binary_not_mem_yield _ _ member)
        (by rintro _ member ⟨location, rfl⟩; exact otherRight.binary_not_mem_yield _ _ member)
      obtain rfl : location = otherLocation := by simpa using marks
      rw [inductionHypothesis lefts, Signed.yield_injective rights]
    | binary operator rung notPower =>
      exact absurd (by simpa [ladder] using rung.symm) notPower
    | unary operator rung => cases rung
  | @binary level operator rung notPower location left right leftHypothesis rightHypothesis =>
    cases second with
    | climb other =>
      exact absurd (show Piece.binary operator location ∈ other.yield by
        simp [← show _ = other.yield from same, yield]) (other.not_binary_mem rung location)
    | power =>
      exact absurd (by simpa [ladder] using rung.symm) notPower
    | binary otherOperator otherRung _ otherLocation otherLeft otherRight =>
      obtain rfl : operator = otherOperator := by simpa using rung.symm.trans otherRung
      obtain ⟨lefts, marks, rights⟩ := append_cons_inj (IsBinary operator) same ⟨_, rfl⟩ ⟨_, rfl⟩
        (by rintro _ member ⟨location, rfl⟩; exact right.not_binary_mem rung _ member)
        (by rintro _ member ⟨location, rfl⟩; exact otherRight.not_binary_mem rung _ member)
      obtain rfl : location = otherLocation := by simpa using marks
      rw [leftHypothesis lefts, rightHypothesis rights]
    | unary otherOperator otherRung => exact absurd (rung.symm.trans otherRung) (by simp)
  | @unary level operator rung location inner inductionHypothesis =>
    cases second with
    | climb other => exact absurd same.symm (other.not_unary_head rung location inner.yield)
    | power => cases rung
    | binary otherOperator otherRung => exact absurd (rung.symm.trans otherRung) (by simp)
    | unary otherOperator otherRung otherLocation otherInner =>
      simp only [yield, List.cons.injEq, Piece.unary.injEq] at same
      obtain ⟨⟨rfl, rfl⟩, inners⟩ := same
      rw [inductionHypothesis inners]

/-! ### The whole row -/

/-- A row reduces to exactly those trees that the grammar derives from the pieces that it writes,
and the grammar derives a row in at most one way. -/
theorem reduce_eq_ok_iff_derivation (row : List Item) (expression : Expr) :
    (reduce row = .ok expression ↔
      ∃ derivation : Derivation ladder.length,
        derivation.yield = written row ∧ derivation.tree = expression) ∧
    ∀ first second : Derivation ladder.length,
      first.yield = written row → second.yield = written row → first = second := by
  refine ⟨⟨derivation_of_foldAll, ?_⟩, ?_⟩
  · rintro ⟨derivation, word, rfl⟩
    rw [reduce, ← word]
    exact foldAll_yield derivation
  · intro first second firstWord secondWord
    exact Derivation.yield_injective (firstWord.trans secondWord.symm)

end Ladder

end Offside
