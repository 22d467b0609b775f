/-
This file lists the terminals of an expression, which are its names and its literals in the
order in which they are written, and proves that folding a row and closing a group keep
them. A row is folded into a tree whose operands stand in the order of the row. A group
cuts its row at separators, folds the parts and puts them side by side, so its terminals are
those of the row, after those of the operand that it follows.

Braces are the exception. A group in braces follows no operand, and when one stands before
it all the same, its terminals are lost. So the statement about a group asks that braces be
closed without an operand before them.
-/

import Mathlib.Data.List.Basic
import Offside.Proofs.Targets

namespace Offside

/-- A name or a literal. -/
inductive Terminal where
  | name (name : String)
  | integer (value : Int64)
  | float (value : Float)
  | string (value : String)
  | boolean (value : Bool)
  | none

/-- The number that digits with at most one point write, if there is one. -/
def Terminal.ofDigits (digits : String) : List Terminal :=
  if digits.toList.contains '.' then
    ((Number.readFloat? digits.toList).map Terminal.float).toList
  else
    ((Number.readInteger? digits.toList).map Terminal.integer).toList

/-- The terminal that a lexeme is, if it is one. A number stands for its value. -/
def Lexeme.terminals : Lexeme → List Terminal
  | .identifier name => [.name name]
  | .number digits => Terminal.ofDigits digits
  | .string value => [.string value]
  | .boolean value => [.boolean value]
  | .keyword .noneWord => [.none]
  | _ => []

/-! ### Expressions -/

namespace Expr

mutual

/-- The names and literals of an expression from left to right. -/
def terminals : Expr → List Terminal
  | .integer _ value => [.integer value]
  | .float _ value => [.float value]
  | .string _ value => [.string value]
  | .boolean _ value => [.boolean value]
  | .none _ => [.none]
  | .name _ text => [.name text]
  | .omitted _ => []
  | .parenthesized _ inner => inner.terminals
  | .tuple _ elements => terminalsOf elements
  | .list _ elements => terminalsOf elements
  | .set _ elements => terminalsOf elements
  | .dict _ entries => terminalsOfEntries entries
  | .call _ callee positional named =>
    callee.terminals ++ (terminalsOf positional ++ terminalsOfNamed named)
  | .attribute _ object text => object.terminals ++ [.name text]
  | .index _ object inner => object.terminals ++ inner.terminals
  | .slice _ object start stop step =>
    object.terminals ++ (start.terminals ++ (stop.terminals ++ step.terminals))
  | .binary _ _ left right => left.terminals ++ right.terminals
  | .unary _ _ operand => operand.terminals
  | .comprehension _ output target source filter =>
    output.terminals ++ (target.terminals ++ (source.terminals ++ terminalsOfFilter filter))

def terminalsOf : List Expr → List Terminal
  | [] => []
  | first :: rest => first.terminals ++ terminalsOf rest

def terminalsOfEntries : List (Expr × Expr) → List Terminal
  | [] => []
  | (key, value) :: rest => key.terminals ++ (value.terminals ++ terminalsOfEntries rest)

def terminalsOfNamed : List (String × Expr) → List Terminal
  | [] => []
  | (text, value) :: rest => .name text :: (value.terminals ++ terminalsOfNamed rest)

def terminalsOfFilter : Option Expr → List Terminal
  | .none => []
  | some condition => condition.terminals

end

attribute [simp] terminals terminalsOf terminalsOfEntries terminalsOfNamed terminalsOfFilter

theorem terminalsOf_eq (elements : List Expr) :
    terminalsOf elements = elements.flatMap terminals := by
  induction elements with
  | nil => rfl
  | cons first rest inductionHypothesis =>
    rw [terminalsOf, inductionHypothesis, List.flatMap_cons]

theorem terminalsOfEntries_eq (entries : List (Expr × Expr)) :
    terminalsOfEntries entries =
      entries.flatMap fun entry => entry.1.terminals ++ entry.2.terminals := by
  induction entries with
  | nil => rfl
  | cons first rest inductionHypothesis =>
    rw [terminalsOfEntries, inductionHypothesis, List.flatMap_cons, List.append_assoc]

theorem terminalsOfNamed_eq (named : List (String × Expr)) :
    terminalsOfNamed named =
      named.flatMap fun entry => .name entry.1 :: entry.2.terminals := by
  induction named with
  | nil => rfl
  | cons first rest inductionHypothesis =>
    rw [terminalsOfNamed, inductionHypothesis, List.flatMap_cons, List.cons_append]

end Expr

/-! ### Rows -/

/-- An entry of a row has the terminals of its operand. -/
def Item.terminals : Item → List Terminal
  | .operand expression => expression.terminals
  | .token _ => []

/-- The terminals of a row from left to right. -/
def rowTerminals (row : List Item) : List Terminal :=
  row.flatMap Item.terminals

@[simp] theorem rowTerminals_nil : rowTerminals [] = [] :=
  rfl

@[simp] theorem rowTerminals_operand (expression : Expr) (row : List Item) :
    rowTerminals (.operand expression :: row) = expression.terminals ++ rowTerminals row :=
  rfl

@[simp] theorem rowTerminals_token (token : Token) (row : List Item) :
    rowTerminals (.token token :: row) = rowTerminals row :=
  rfl

@[simp] theorem rowTerminals_append (first second : List Item) :
    rowTerminals (first ++ second) = rowTerminals first ++ rowTerminals second :=
  List.flatMap_append

/-- Whatever marks a token marks no operand. -/
theorem rowTerminals_cons_of_is {item : Item} {lexeme : Lexeme} (isToken : item.is lexeme = true)
    (row : List Item) : rowTerminals (item :: row) = rowTerminals row := by
  cases item with
  | operand => cases isToken
  | token => rfl

/-! ### Folding -/

namespace Ladder

/-- A piece has the terminals of its operand. -/
def pieceTerminals : Piece → List Terminal
  | .operand expression => expression.terminals
  | _ => []

theorem pieceTerminals_pieceOf (afterOperand : Bool) (token : Token) :
    pieceTerminals (pieceOf afterOperand token) = [] := by
  unfold pieceOf
  split
  · rfl
  split
  · rfl
  split <;> rfl

/-- Reading tokens as operators keeps the operands in their places. -/
theorem flatMap_pieces (afterOperand : Bool) (row : List Item) :
    (pieces afterOperand row).flatMap pieceTerminals = rowTerminals row := by
  fun_induction pieces afterOperand row with
  | case1 => rfl
  | case2 afterOperand expression rest inductionHypothesis =>
    rw [List.flatMap_cons, inductionHypothesis]
    rfl
  | case3 afterOperand first second rest operator _ inductionHypothesis =>
    rw [List.flatMap_cons, inductionHypothesis]
    rfl
  | case4 afterOperand first second rest _ inductionHypothesis =>
    rw [List.flatMap_cons, inductionHypothesis, pieceTerminals_pieceOf]
    rfl
  | case5 afterOperand first rest _ inductionHypothesis =>
    rw [List.flatMap_cons, inductionHypothesis, pieceTerminals_pieceOf]
    rfl

theorem Signed.terminals_tree (signed : Signed) :
    signed.tree.terminals = signed.yield.flatMap pieceTerminals := by
  induction signed with
  | operand expression =>
    rw [tree, yield, List.flatMap_cons, List.flatMap_nil, List.append_nil]
    rfl
  | sign location inner inductionHypothesis =>
    rw [tree, Expr.terminals, inductionHypothesis, yield, List.flatMap_cons]
    rfl

/-- A tree has the terminals of its operands in the order in which they were written. -/
theorem Derivation.terminals_tree {level : Nat} (derivation : Derivation level) :
    derivation.tree.terminals = derivation.yield.flatMap pieceTerminals := by
  induction derivation with
  | operand expression =>
    rw [tree, yield, List.flatMap_cons, List.flatMap_nil, List.append_nil]
    rfl
  | climb inner inductionHypothesis => exact inductionHypothesis
  | power location left right inductionHypothesis =>
    rw [tree, Expr.terminals, inductionHypothesis, Signed.terminals_tree, yield,
      List.flatMap_append, List.flatMap_cons]
    rfl
  | binary operator rung notPower location left right leftHypothesis rightHypothesis =>
    rw [tree, Expr.terminals, leftHypothesis, rightHypothesis, yield, List.flatMap_append,
      List.flatMap_cons]
    rfl
  | unary operator rung location inner inductionHypothesis =>
    rw [tree, Expr.terminals, inductionHypothesis, yield, List.flatMap_cons]
    rfl

/-- The ends and starts of lines are no terminals. -/
theorem rowTerminals_withoutBreaks (row : List Item) :
    rowTerminals (withoutBreaks row) = rowTerminals row := by
  induction row with
  | nil => rfl
  | cons item rest inductionHypothesis =>
    rw [withoutBreaks, List.filter_cons]
    cases item with
    | operand expression => exact congrArg (expression.terminals ++ ·) inductionHypothesis
    | token found => split <;> exact inductionHypothesis

theorem terminals_of_reduce {row : List Item} {expression : Expr}
    (reduced : reduce row = .ok expression) : expression.terminals = rowTerminals row := by
  obtain ⟨derivation, yields, rfl⟩ := derivation_of_foldAll reduced
  rw [derivation.terminals_tree, yields, written, flatMap_pieces, rowTerminals_withoutBreaks]

end Ladder

/-! ### Groups -/

namespace Group

open Ladder (terminals_of_reduce)

/-- The segments have the terminals of the row, since a separator has none. -/
theorem flatMap_split (separator : Lexeme) (row : List Item) :
    (split separator row).flatMap rowTerminals = rowTerminals row := by
  induction row with
  | nil => rfl
  | cons item rest inductionHypothesis =>
    rw [split]
    split
    next isSeparator =>
      rw [List.flatMap_cons, inductionHypothesis, rowTerminals_cons_of_is isSeparator]
      rfl
    next =>
      cases segments : split separator rest with
      | nil =>
        rw [segments] at inductionHypothesis
        rw [List.flatMap_cons, List.flatMap_nil, List.append_nil, rowTerminals, rowTerminals,
          List.flatMap_cons, List.flatMap_cons]
        exact congrArg (item.terminals ++ ·) inductionHypothesis
      | cons first others =>
        rw [segments, List.flatMap_cons] at inductionHypothesis
        rw [List.flatMap_cons, rowTerminals, List.flatMap_cons, List.append_assoc]
        exact congrArg (item.terminals ++ ·) inductionHypothesis

theorem flatMap_commaSegments (row : List Item) :
    (commaSegments row).flatMap rowTerminals = rowTerminals row := by
  have whole := flatMap_split (.symbol .comma) row
  unfold commaSegments
  dsimp only
  split
  next trailing =>
    -- The segment after a comma at the end is empty.
    rw [Bool.and_eq_true] at trailing
    obtain ⟨last, isLast, isEmpty⟩ := (Option.any_eq_true _ _).mp trailing.2
    rw [List.isEmpty_iff] at isEmpty
    rw [← List.dropLast_append_getLast? _ isLast, isEmpty, List.flatMap_append] at whole
    rwa [List.flatMap_cons, List.flatMap_nil, rowTerminals_nil, List.append_nil,
      List.append_nil] at whole
  next => exact whole

/-- A row is cut at a token, so both sides together have its terminals. -/
theorem rowTerminals_of_cutAt? {marks : Item → Bool} {row before after : List Item} {found : Item}
    (tokens : ∀ item, marks item = true → item.terminals = [])
    (cut : cutAt? marks row = some (before, found, after)) :
    rowTerminals row = rowTerminals before ++ rowTerminals after := by
  induction row generalizing before with
  | nil => cases cut
  | cons item rest inductionHypothesis =>
    rw [cutAt?] at cut
    split at cut
    next marked =>
      cases cut
      rw [rowTerminals, List.flatMap_cons, tokens found marked]
      rfl
    next =>
      obtain ⟨⟨inner, first, last⟩, innerCut, same⟩ := Option.map_eq_some_iff.mp cut
      cases same
      have others := inductionHypothesis innerCut
      rw [rowTerminals, List.flatMap_cons, rowTerminals, List.flatMap_cons, List.append_assoc]
      exact congrArg (_ ++ ·) others

theorem yields_mapM_terminals {α β ε : Type} {step : α → Except ε β} {before : α → List Terminal}
    {after : β → List Terminal} {elements : List α}
    (yields : ∀ element, Yields (step element) fun value => after value = before element) :
    Yields (elements.mapM step) fun values => values.flatMap after = elements.flatMap before := by
  induction elements with
  | nil => exact yields_ok rfl
  | cons element rest inductionHypothesis =>
    rw [List.mapM_cons]
    refine (yields element).bind fun value same => inductionHypothesis.bind fun values others => ?_
    refine yields_ok ?_
    rw [List.flatMap_cons, List.flatMap_cons, same, others]

variable {opening : Opening} {row : List Item}

theorem reduce_terminals (row : List Item) :
    Yields (Ladder.reduce row) fun expression => expression.terminals = rowTerminals row :=
  fun _ => terminals_of_reduce

theorem elements_terminals (opening : Opening) (row : List Item) :
    Yields (elements opening row) fun found => Expr.terminalsOf found = rowTerminals row := by
  unfold elements
  split
  next isEmpty =>
    rw [List.isEmpty_iff.mp isEmpty]
    exact yields_ok rfl
  next =>
    intro values done
    rw [Expr.terminalsOf_eq, ← flatMap_commaSegments row]
    refine yields_mapM_terminals (fun segment => ?_) values done
    split
    · exact yields_failAt
    · exact reduce_terminals segment

theorem terminalsOf_singleton (expression : Expr) :
    Expr.terminalsOf [expression] = expression.terminals :=
  List.append_nil _

theorem parenthesized_terminals (opening : Opening) (row : List Item) :
    Yields (parenthesized opening row) fun found => found.terminals = rowTerminals row := by
  refine (elements_terminals opening row).bind fun inner same => ?_
  split
  next =>
    split
    · exact yields_ok same
    · rw [terminalsOf_singleton] at same
      exact yields_ok same
  next => exact yields_ok same

/-- The clause of a comprehension is split into the two sides of its membership test. -/
theorem membership_terminals {word : Item} {output : Expr} {clause : List Item}
    {filter : Option Expr} :
    Yields (do
      if clause.isEmpty then Ladder.failAt word.location .noComprehensionMembership
      match ← Ladder.reduce clause with
      | .binary _ .member target source =>
        target.checkTarget
        .ok (.comprehension opening.location output target source filter)
      | _ => Ladder.failAt word.location .noComprehensionMembership) fun found : Expr =>
        found.terminals =
          output.terminals ++ (rowTerminals clause ++ Expr.terminalsOfFilter filter) := by
  dsimp only
  by_cases noClause : clause.isEmpty
  · rw [if_pos noClause]
    exact yields_failAt_bind
  · rw [if_neg noClause]
    refine (reduce_terminals clause).bind fun membership same => ?_
    split
    next target source =>
      refine (checkTarget_yields target).bind fun _ _ => yields_ok ?_
      rw [Expr.terminals] at same
      rw [Expr.terminals, ← same, List.append_assoc]
    next => exact yields_failAt

theorem terminals_of_is {item : Item} {lexeme : Lexeme} (isToken : item.is lexeme = true) :
    item.terminals = [] := by
  cases item with
  | operand => cases isToken
  | token => rfl

theorem comprehension_terminals (opening : Opening) (output clause : List Item) (word : Item) :
    Yields (comprehension opening output word clause) fun found =>
      found.terminals = rowTerminals output ++ rowTerminals clause := by
  unfold comprehension
  dsimp only
  by_cases noOutput : output.isEmpty
  · rw [if_pos noOutput]
    exact yields_failAt_bind
  · rw [if_neg noOutput]
    refine (reduce_terminals output).bind fun first firstSame => ?_
    split
    · exact yields_failAt_bind
    next before _ condition _ found =>
      have cut := rowTerminals_of_cutAt? (fun _ => terminals_of_is) found
      have filtered : Yields ((fun filter => (before, some filter)) <$> Ladder.reduce condition)
          fun parts => parts.1 = before ∧
            Expr.terminalsOfFilter parts.2 = rowTerminals condition :=
        (reduce_terminals condition).map fun filter same => ⟨rfl, same⟩
      refine filtered.bind fun parts same => ?_
      intro found done
      rw [membership_terminals found done, firstSame, cut, same.1, same.2]
    next =>
      refine Yields.bind (yields_ok rfl) fun parts (same : (clause, none) = parts) => ?_
      intro found done
      rw [membership_terminals found done, firstSame, ← same]
      exact congrArg (_ ++ ·) (List.append_nil _)

theorem squareDisplay_terminals (opening : Opening) (row : List Item) :
    Yields (squareDisplay opening row) fun found => found.terminals = rowTerminals row := by
  unfold squareDisplay
  split
  next output word clause found =>
    have tokens : ∀ item : Item,
        (item.is (.keyword .forWord) || item.is (.keyword .ofWord)) = true →
        item.terminals = [] := by
      intro item isWord
      rw [Bool.or_eq_true] at isWord
      exact isWord.elim terminals_of_is terminals_of_is
    rw [rowTerminals_of_cutAt? tokens found]
    exact comprehension_terminals opening output clause word
  next => exact (elements_terminals opening row).map fun _ same => same

theorem entry_terminals (opening : Opening) (segment : List Item) :
    Yields (entry opening segment) fun entry =>
      entry.1.terminals ++ entry.2.terminals = rowTerminals segment := by
  have whole := flatMap_split (.symbol .colon) segment
  unfold entry
  split
  next key value parts =>
    rw [parts, List.flatMap_cons, List.flatMap_cons, List.flatMap_nil, List.append_nil] at whole
    split
    · exact yields_failAt
    · refine (reduce_terminals key).bind fun key keySame => ?_
      refine (reduce_terminals value).bind fun value valueSame => yields_ok ?_
      rw [keySame, valueSame, whole]
  next => exact yields_failAt

theorem braceDisplay_terminals (opening : Opening) (row : List Item) :
    Yields (braceDisplay opening row) fun found => found.terminals = rowTerminals row := by
  unfold braceDisplay
  split
  next isEmpty =>
    rw [List.isEmpty_iff.mp isEmpty]
    exact yields_ok rfl
  next =>
    split
    · refine Yields.map (yields_mapM_terminals (entry_terminals opening)) fun entries same => ?_
      rw [Expr.terminals, Expr.terminalsOfEntries_eq, same, flatMap_commaSegments]
    · exact (elements_terminals opening row).map fun _ same => same

theorem argumentValue_terminals (location : Location) (before : String) (segment : List Item) :
    Yields (argumentValue location before segment) fun found =>
      found.terminals = rowTerminals segment := by
  unfold argumentValue
  split
  · exact yields_failAt
  · split
    · exact yields_failAt
    · exact reduce_terminals segment

/-- Named arguments come after all others, so both lists one after the other are in the order of the
text. -/
theorem arguments_terminals (opening : Opening) (positional : List Expr)
    (named : List (String × Expr)) (segments : List (List Item)) :
    Yields (arguments opening positional named segments) fun found =>
      Expr.terminalsOf found.1 ++ Expr.terminalsOfNamed found.2 =
        Expr.terminalsOf positional.reverse ++ Expr.terminalsOfNamed named.reverse ++
          segments.flatMap rowTerminals := by
  simp only [Expr.terminalsOf_eq, Expr.terminalsOfNamed_eq]
  induction segments generalizing positional named with
  | nil => exact yields_ok (List.append_nil _).symm
  | cons segment rest inductionHypothesis =>
    cases segment with
    | nil => exact yields_failAt
    | cons first following =>
      unfold arguments
      dsimp only
      split
      next location value =>
        split
        next place name =>
          refine (argumentValue_terminals _ _ value).bind fun result same => ?_
          intro found done
          rw [inductionHypothesis _ _ found done]
          simp [Expr.terminals, same]
        next => exact yields_failAt
      next =>
        split
        next noName =>
          rw [List.isEmpty_iff] at noName
          refine (argumentValue_terminals _ _ (first :: following)).bind fun result same => ?_
          intro found done
          rw [inductionHypothesis _ _ found done]
          simp [noName, same]
        next => exact yields_failAt

theorem call_terminals (opening : Opening) (callee : Expr) (row : List Item) :
    Yields (call opening callee row) fun found =>
      found.terminals = callee.terminals ++ rowTerminals row := by
  unfold call
  split
  next isEmpty =>
    rw [List.isEmpty_iff.mp isEmpty]
    exact yields_ok rfl
  next =>
    refine (arguments_terminals opening [] [] (commaSegments row)).bind fun found same => ?_
    refine yields_ok ?_
    rw [Expr.terminals, same, flatMap_commaSegments]
    rfl

theorem bound_terminals (opening : Opening) (segment : List Item) :
    Yields (bound opening segment) fun found => found.terminals = rowTerminals segment := by
  unfold bound
  split
  next isEmpty =>
    rw [List.isEmpty_iff.mp isEmpty]
    exact yields_ok rfl
  next => exact reduce_terminals segment

theorem subscript_terminals (opening : Opening) (object : Expr) (row : List Item) :
    Yields (subscript opening object row) fun found =>
      found.terminals = object.terminals ++ rowTerminals row := by
  have whole := flatMap_split (.symbol .colon) row
  unfold subscript
  split
  · exact yields_failAt
  split
  · split
    next start stop parts =>
      rw [parts] at whole
      refine (bound_terminals opening start).bind fun _ startSame => ?_
      refine (bound_terminals opening stop).bind fun _ stopSame => yields_ok ?_
      simp [Expr.terminals, startSame, stopSame, ← whole]
    next start stop step parts =>
      rw [parts] at whole
      refine (bound_terminals opening start).bind fun _ startSame => ?_
      refine (bound_terminals opening stop).bind fun _ stopSame => ?_
      refine (bound_terminals opening step).bind fun _ stepSame => yields_ok ?_
      simp [Expr.terminals, startSame, stopSame, stepSame, ← whole]
    next => exact yields_failAt
  · refine (elements_terminals opening row).bind fun indices same => ?_
    split
    next index =>
      split
      · exact yields_ok (congrArg (object.terminals ++ ·) same)
      · rw [terminalsOf_singleton] at same
        exact yields_ok (congrArg (object.terminals ++ ·) same)
    next => exact yields_ok (congrArg (object.terminals ++ ·) same)

/-- A group has the terminals of its row after those of the operand that it follows, and braces
follow none. -/
theorem close_terminals (opening : Opening) (before : Option Expr) (row : List Item)
    (noBraces : opening.bracket = .brace → before = none) :
    Yields (close opening before row) fun found =>
      found.terminals = before.elim [] Expr.terminals ++ rowTerminals row := by
  unfold close
  split
  · exact call_terminals opening _ row
  · exact parenthesized_terminals opening row
  · exact subscript_terminals opening _ row
  · exact squareDisplay_terminals opening row
  next isBrace =>
    rw [noBraces isBrace]
    exact braceDisplay_terminals opening row

/-! ### Single tokens -/

theorem numeral_terminals (location : Location) (digits : String) :
    Yields (numeral location digits) fun found => found.terminals = Terminal.ofDigits digits := by
  unfold numeral Terminal.ofDigits
  split
  · split
    next read => exact yields_ok (by rw [read]; rfl)
    next => exact yields_failAt
  · split
    next read => exact yields_ok (by rw [read]; rfl)
    next => exact yields_failAt

/-- An operand that is a single token is its terminal. -/
theorem operand?_terminals {token : Token} {operand : Except ParseError Expr}
    (found : operand? token = some operand) :
    Yields operand fun expression => expression.terminals = token.lexeme.terminals := by
  obtain ⟨lexeme, location⟩ := token
  cases lexeme with
  | identifier | string | boolean =>
    cases found
    exact yields_ok rfl
  | number digits =>
    cases found
    exact numeral_terminals location digits
  | keyword word =>
    cases word <;> cases found
    exact yields_ok rfl
  | indentation | endOfLine | endOfFile | symbol => cases found

end Group

end Offside
