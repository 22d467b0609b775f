/-
This file follows the places that are recorded while expressions are read. Every node of
a tree and every fault of grammar names a line, and each such line is that of some token.
What a good line is stays open here: if every entry of a row stands at a good line, the
tree of the row has good lines only, and so has the fault that is reported when there is
no tree.

One fault names no line at all, that of an expression without any part. It is what the
folding of an empty row ends in. Folding leaves something of every row that is not empty,
and each step that cuts a row looks at its parts before it folds them, so that fault is
never reported. In the same way the parts that a step picks by their number are there:
a row that holds a colon has two parts at least, and a row without a comma is a single
element.
-/

import Offside.Proofs.Targets

namespace Offside

/-! ### How a step ends -/

/-- A step gives a value with this property, or fails with an allowed error. -/
def Lands {ε α : Type} (allowed : ε → Prop) (step : Except ε α) (property : α → Prop) : Prop :=
  match step with
  | .ok value => property value
  | .error error => allowed error

section

variable {ε α β : Type} {allowed : ε → Prop}

theorem Lands.bind {first : Except ε α} {next : α → Except ε β} {property : α → Prop}
    {result : β → Prop} (lands : Lands allowed first property)
    (nextLands : ∀ value, property value → Lands allowed (next value) result) :
    Lands allowed (first >>= next) result := by
  cases first with
  | error => exact lands
  | ok value => exact nextLands value lands

theorem Lands.map {first : Except ε α} {change : α → β} {property : α → Prop} {result : β → Prop}
    (lands : Lands allowed first property)
    (changed : ∀ value, property value → result (change value)) :
    Lands allowed (change <$> first) result := by
  cases first with
  | error => exact lands
  | ok value => exact changed value lands

theorem lands_mapM {step : α → Except ε β} {property : β → Prop} {elements : List α}
    (lands : ∀ element ∈ elements, Lands allowed (step element) property) :
    Lands allowed (elements.mapM step) fun values =>
      values.length = elements.length ∧ ∀ value ∈ values, property value := by
  induction elements with
  | nil => exact ⟨rfl, by simp⟩
  | cons element rest inductionHypothesis =>
    rw [List.forall_mem_cons] at lands
    rw [List.mapM_cons]
    refine lands.1.bind fun value holds => ?_
    refine (inductionHypothesis lands.2).bind fun values ⟨length, all⟩ => ?_
    exact ⟨congrArg (· + 1) length, List.forall_mem_cons.mpr ⟨holds, all⟩⟩

theorem lands_foldlM {step : β → α → Except ε β} {property : β → Prop}
    (lands : ∀ state element, property state → Lands allowed (step state element) property)
    (elements : List α) {start : β} (holds : property start) :
    Lands allowed (elements.foldlM step start) property := by
  induction elements generalizing start with
  | nil => exact holds
  | cons element rest inductionHypothesis =>
    rw [List.foldlM_cons]
    exact (lands start element holds).bind fun state => inductionHypothesis

end

/-- The fault is reported at a good line. -/
def ParseError.At (good : Location → Prop) (error : ParseError) : Prop :=
  ∃ location, error.location = some location ∧ good location

variable {good : Location → Prop}

theorem lands_failAt {α : Type} {location : Location} {fault : ParseFault} {property : α → Prop}
    (isGood : good location) :
    Lands (ParseError.At good) (Ladder.failAt location fault) property :=
  ⟨location, rfl, isGood⟩

/-! ### Located expressions -/

namespace Expr

mutual

/-- Every node of a tree stands at a good line. -/
def Located (good : Location → Prop) : Expr → Prop
  | .integer location _ => good location
  | .float location _ => good location
  | .string location _ => good location
  | .boolean location _ => good location
  | .none location => good location
  | .name location _ => good location
  | .omitted location => good location
  | .parenthesized location inner => good location ∧ inner.Located good
  | .tuple location elements => good location ∧ LocatedAll good elements
  | .list location elements => good location ∧ LocatedAll good elements
  | .set location elements => good location ∧ LocatedAll good elements
  | .dict location entries => good location ∧ LocatedEntries good entries
  | .call location callee positional named =>
    good location ∧ callee.Located good ∧ LocatedAll good positional ∧ LocatedNamed good named
  | .attribute location object _ => good location ∧ object.Located good
  | .index location object inner => good location ∧ object.Located good ∧ inner.Located good
  | .slice location object start stop step =>
    good location ∧ object.Located good ∧ start.Located good ∧ stop.Located good ∧
      step.Located good
  | .binary location _ left right => good location ∧ left.Located good ∧ right.Located good
  | .unary location _ operand => good location ∧ operand.Located good
  | .comprehension location output target source filter =>
    good location ∧ output.Located good ∧ target.Located good ∧ source.Located good ∧
      LocatedFilter good filter

def LocatedAll (good : Location → Prop) : List Expr → Prop
  | [] => True
  | first :: rest => first.Located good ∧ LocatedAll good rest

def LocatedEntries (good : Location → Prop) : List (Expr × Expr) → Prop
  | [] => True
  | (key, value) :: rest => key.Located good ∧ value.Located good ∧ LocatedEntries good rest

def LocatedNamed (good : Location → Prop) : List (String × Expr) → Prop
  | [] => True
  | (_, value) :: rest => value.Located good ∧ LocatedNamed good rest

def LocatedFilter (good : Location → Prop) : Option Expr → Prop
  | .none => True
  | some condition => condition.Located good

end

theorem locatedAll_iff {elements : List Expr} :
    LocatedAll good elements ↔ ∀ element ∈ elements, element.Located good := by
  induction elements with
  | nil => simp [LocatedAll]
  | cons first rest inductionHypothesis => simp [LocatedAll, inductionHypothesis]

theorem locatedEntries_iff {entries : List (Expr × Expr)} :
    LocatedEntries good entries ↔
      ∀ entry ∈ entries, entry.1.Located good ∧ entry.2.Located good := by
  induction entries with
  | nil => simp [LocatedEntries]
  | cons first rest inductionHypothesis => simp [LocatedEntries, inductionHypothesis, and_assoc]

theorem locatedNamed_iff {named : List (String × Expr)} :
    LocatedNamed good named ↔ ∀ entry ∈ named, entry.2.Located good := by
  induction named with
  | nil => simp [LocatedNamed]
  | cons first rest inductionHypothesis => simp [LocatedNamed, inductionHypothesis]

theorem Located.location {expression : Expr} (located : expression.Located good) :
    good expression.location := by
  cases expression
  case integer | float | string | boolean | none | name | omitted => exact located
  all_goals exact located.1

mutual

/-- If every line is good, all trees stand at good lines. -/
theorem located_of_forall (always : ∀ location, good location) :
    (expression : Expr) → expression.Located good
  | .integer .. | .float .. | .string .. | .boolean .. | .none .. | .name .. | .omitted .. =>
    always _
  | .parenthesized _ inner => ⟨always _, located_of_forall always inner⟩
  | .tuple _ elements => ⟨always _, locatedAll_of_forall always elements⟩
  | .list _ elements => ⟨always _, locatedAll_of_forall always elements⟩
  | .set _ elements => ⟨always _, locatedAll_of_forall always elements⟩
  | .dict _ entries => ⟨always _, locatedEntries_of_forall always entries⟩
  | .call _ callee positional named =>
    ⟨always _, located_of_forall always callee, locatedAll_of_forall always positional,
      locatedNamed_of_forall always named⟩
  | .attribute _ object _ => ⟨always _, located_of_forall always object⟩
  | .index _ object inner =>
    ⟨always _, located_of_forall always object, located_of_forall always inner⟩
  | .slice _ object start stop step =>
    ⟨always _, located_of_forall always object, located_of_forall always start,
      located_of_forall always stop, located_of_forall always step⟩
  | .binary _ _ left right =>
    ⟨always _, located_of_forall always left, located_of_forall always right⟩
  | .unary _ _ operand => ⟨always _, located_of_forall always operand⟩
  | .comprehension _ output target source filter =>
    ⟨always _, located_of_forall always output, located_of_forall always target,
      located_of_forall always source, locatedFilter_of_forall always filter⟩

theorem locatedAll_of_forall (always : ∀ location, good location) :
    (elements : List Expr) → LocatedAll good elements
  | [] => trivial
  | first :: rest => ⟨located_of_forall always first, locatedAll_of_forall always rest⟩

theorem locatedEntries_of_forall (always : ∀ location, good location) :
    (entries : List (Expr × Expr)) → LocatedEntries good entries
  | [] => trivial
  | (key, value) :: rest =>
    ⟨located_of_forall always key, located_of_forall always value,
      locatedEntries_of_forall always rest⟩

theorem locatedNamed_of_forall (always : ∀ location, good location) :
    (named : List (String × Expr)) → LocatedNamed good named
  | [] => trivial
  | (_, value) :: rest => ⟨located_of_forall always value, locatedNamed_of_forall always rest⟩

theorem locatedFilter_of_forall (always : ∀ location, good location) :
    (filter : Option Expr) → LocatedFilter good filter
  | .none => trivial
  | some condition => located_of_forall always condition

end

mutual

/-- The part that is at fault in a target is a part of it. -/
theorem Located.untargetable? : (target : Expr) → target.Located good →
    ∀ part ∈ target.untargetable?, part.Located good
  | .parenthesized _ inner, located, part, found =>
    Located.untargetable? inner located.2 part found
  | .tuple _ elements, located, part, found => LocatedAll.untargetableIn? elements located.2 part found
  | .list _ elements, located, part, found => LocatedAll.untargetableIn? elements located.2 part found
  | .name .., _, _, found | .attribute .., _, _, found | .index .., _, _, found
  | .slice .., _, _, found => by cases found
  | .integer .., located, _, found | .float .., located, _, found | .string .., located, _, found
  | .boolean .., located, _, found | .none .., located, _, found | .omitted .., located, _, found
  | .set .., located, _, found | .dict .., located, _, found | .call .., located, _, found
  | .binary .., located, _, found | .unary .., located, _, found
  | .comprehension .., located, _, found => by
    cases found
    exact located

theorem LocatedAll.untargetableIn? : (elements : List Expr) → LocatedAll good elements →
    ∀ part ∈ untargetableIn? elements, part.Located good
  | [], _, _, found => by cases found
  | first :: rest, located, part, found => by
    rw [Expr.untargetableIn?] at found
    cases fault : first.untargetable? with
    | none =>
      rw [fault] at found
      exact LocatedAll.untargetableIn? rest located.2 part found
    | some other =>
      rw [fault] at found
      exact Located.untargetable? first located.1 part (by rw [fault]; exact found)

end

theorem Located.checkTarget {target : Expr} (located : target.Located good) :
    Lands (ParseError.At good) target.checkTarget fun _ => True := by
  unfold Expr.checkTarget
  split
  next part found => exact lands_failAt (Located.untargetable? target located part found).location
  · trivial

end Expr

/-! ### Located rows -/

/-- An entry of a row stands at a good line, and is neither its end nor its start. -/
def Item.Located (good : Location → Prop) : Item → Prop
  | .operand expression => expression.Located good
  | .token found => good found.location ∧ Ladder.isBreak (.token found) = false

def Piece.Located (good : Location → Prop) : Piece → Prop
  | .operand expression => expression.Located good
  | .binary _ location => good location
  | .unary _ location => good location
  | .stray token => good token.location

theorem Item.Located.location {item : Item} (located : item.Located good) : good item.location := by
  cases item with
  | operand => exact Expr.Located.location located
  | token => exact located.1

/-- Every entry of a row stands at a good line. -/
def LocatedRow (good : Location → Prop) (row : List Item) : Prop :=
  ∀ item ∈ row, item.Located good

theorem LocatedRow.mono {row part : List Item} (located : LocatedRow good row)
    (inside : part ⊆ row) : LocatedRow good part :=
  fun item found => located item (inside found)

theorem locatedRow_cons {item : Item} {row : List Item} :
    LocatedRow good (item :: row) ↔ item.Located good ∧ LocatedRow good row :=
  List.forall_mem_cons

theorem LocatedRow.unbroken {row : List Item} (located : LocatedRow good row) :
    Ladder.Unbroken row := by
  intro item listed
  cases item with
  | operand => rfl
  | token => exact (located _ listed).2

theorem locatedRow_of_forall (always : ∀ location, good location) {row : List Item}
    (unbroken : Ladder.Unbroken row) : LocatedRow good row := by
  intro item listed
  cases item with
  | operand expression => exact Expr.located_of_forall always expression
  | token found => exact ⟨always _, unbroken _ listed⟩

namespace Ladder

/-- Every piece of a row stands at a good line. -/
def LocatedPieces (good : Location → Prop) (row : List Piece) : Prop :=
  ∀ piece ∈ row, piece.Located good

theorem locatedPieces_cons {piece : Piece} {row : List Piece} :
    LocatedPieces good (piece :: row) ↔ piece.Located good ∧ LocatedPieces good row :=
  List.forall_mem_cons

theorem located_pieceOf {token : Token} (afterOperand : Bool) (isGood : good token.location) :
    (pieceOf afterOperand token).Located good := by
  unfold pieceOf
  split
  · exact isGood
  · split
    · exact isGood
    · split <;> exact isGood

theorem located_pieces {afterOperand : Bool} {row : List Item} (located : LocatedRow good row) :
    LocatedPieces good (pieces afterOperand row) := by
  fun_induction pieces afterOperand row with
  | case1 => exact fun _ found => by cases found
  | case2 afterOperand expression rest inductionHypothesis =>
    obtain ⟨operandLocated, restLocated⟩ := locatedRow_cons.mp located
    exact locatedPieces_cons.mpr ⟨operandLocated, inductionHypothesis restLocated⟩
  | case3 afterOperand first second rest operator fused inductionHypothesis =>
    obtain ⟨firstLocated, others⟩ := locatedRow_cons.mp located
    exact locatedPieces_cons.mpr
      ⟨firstLocated.1, inductionHypothesis (locatedRow_cons.mp others).2⟩
  | case4 afterOperand first second rest fused inductionHypothesis =>
    obtain ⟨firstLocated, others⟩ := locatedRow_cons.mp located
    exact locatedPieces_cons.mpr ⟨located_pieceOf _ firstLocated.1, inductionHypothesis others⟩
  | case5 afterOperand first rest notToken inductionHypothesis =>
    obtain ⟨firstLocated, others⟩ := locatedRow_cons.mp located
    exact locatedPieces_cons.mpr ⟨located_pieceOf _ firstLocated.1, inductionHypothesis others⟩

/-- Reading tokens as operators fuses some of them, but leaves something of every row. -/
theorem pieces_ne_nil {afterOperand : Bool} {row : List Item} (inhabited : row ≠ []) :
    pieces afterOperand row ≠ [] := by
  fun_cases pieces afterOperand row with
  | case1 => exact absurd rfl inhabited
  | case2 | case3 | case4 | case5 => exact List.cons_ne_nil _ _

/-! ### Folding -/

theorem unaryOperand_lands (operator : UnaryOperator) {location : Location} {row : List Piece}
    (isGood : good location) (located : LocatedPieces good row) :
    Lands (ParseError.At good) (unaryOperand operator location row) fun found =>
      found.1.Located good ∧ LocatedPieces good found.2 := by
  fun_induction unaryOperand operator location row with
  | case1 location expression rest =>
    obtain ⟨operandLocated, restLocated⟩ := locatedPieces_cons.mp located
    exact ⟨⟨isGood, operandLocated⟩, restLocated⟩
  | case2 location secondLocation rest inductionHypothesis =>
    obtain ⟨secondGood, restLocated⟩ := locatedPieces_cons.mp located
    refine (inductionHypothesis secondGood restLocated).bind fun found foundLocated => ?_
    exact ⟨⟨isGood, foundLocated.1⟩, foundLocated.2⟩
  | case3 | case4 => exact lands_failAt isGood

theorem rightOperand_lands (operator : BinaryOperator) {location : Location} {row : List Piece}
    (isGood : good location) (located : LocatedPieces good row) :
    Lands (ParseError.At good) (rightOperand operator location row) fun found =>
      found.1.Located good ∧ LocatedPieces good found.2 := by
  unfold rightOperand
  split
  · exact locatedPieces_cons.mp located
  · obtain ⟨signGood, restLocated⟩ := locatedPieces_cons.mp located
    exact unaryOperand_lands .negate signGood restLocated
  · exact lands_failAt isGood

/-- Some pieces are left, all at good lines. -/
def Foldable (good : Location → Prop) (row : List Piece) : Prop :=
  row ≠ [] ∧ LocatedPieces good row

/-- The operand that is folded is put back in the place of what it is made of, so a fold never uses
up a row. -/
theorem foldUnary_lands {operator : UnaryOperator} {passed row : List Piece}
    (inhabited : passed ++ row ≠ []) (passedLocated : LocatedPieces good passed)
    (located : LocatedPieces good row) :
    Lands (ParseError.At good) (foldUnary operator passed row) (Foldable good) := by
  fun_induction foldUnary operator passed row with
  | case1 passed =>
    exact ⟨by simpa using inhabited, fun piece found => passedLocated piece (by simpa using found)⟩
  | case2 rest location => exact lands_failAt (locatedPieces_cons.mp located).1
  | case3 passed location rest operand after taken notOperand inductionHypothesis =>
    obtain ⟨isGood, restLocated⟩ := locatedPieces_cons.mp located
    have lands := unaryOperand_lands operator isGood restLocated
    rw [taken] at lands
    exact inductionHypothesis (by simp) (locatedPieces_cons.mpr ⟨lands.1, passedLocated⟩) lands.2
  | case4 passed location rest error failed notOperand =>
    obtain ⟨isGood, restLocated⟩ := locatedPieces_cons.mp located
    have lands := unaryOperand_lands operator isGood restLocated
    rw [failed] at lands
    exact lands
  | case5 passed found location rest other inductionHypothesis =>
    obtain ⟨pieceLocated, restLocated⟩ := locatedPieces_cons.mp located
    exact inductionHypothesis (by simp) (locatedPieces_cons.mpr ⟨pieceLocated, passedLocated⟩)
      restLocated
  | case6 passed piece rest notUnary inductionHypothesis =>
    obtain ⟨pieceLocated, restLocated⟩ := locatedPieces_cons.mp located
    exact inductionHypothesis (by simp) (locatedPieces_cons.mpr ⟨pieceLocated, passedLocated⟩)
      restLocated

theorem foldBinary_lands {operator : BinaryOperator} {passed row : List Piece}
    (inhabited : passed ++ row ≠ []) (passedLocated : LocatedPieces good passed)
    (located : LocatedPieces good row) :
    Lands (ParseError.At good) (foldBinary operator passed row) (Foldable good) := by
  fun_induction foldBinary operator passed row with
  | case1 passed =>
    exact ⟨by simpa using inhabited, fun piece found => passedLocated piece (by simpa using found)⟩
  | case2 location rest left before right after taken inductionHypothesis =>
    obtain ⟨isGood, restLocated⟩ := locatedPieces_cons.mp located
    obtain ⟨leftLocated, beforeLocated⟩ := locatedPieces_cons.mp passedLocated
    have lands := rightOperand_lands operator isGood restLocated
    rw [taken] at lands
    exact inductionHypothesis (by simp)
      (locatedPieces_cons.mpr ⟨⟨isGood, leftLocated, lands.1⟩, beforeLocated⟩) lands.2
  | case3 location rest left before error failed =>
    obtain ⟨isGood, restLocated⟩ := locatedPieces_cons.mp located
    have lands := rightOperand_lands operator isGood restLocated
    rw [failed] at lands
    exact lands
  | case4 passed location rest notOperand => exact lands_failAt (locatedPieces_cons.mp located).1
  | case5 passed found location rest other inductionHypothesis =>
    obtain ⟨pieceLocated, restLocated⟩ := locatedPieces_cons.mp located
    exact inductionHypothesis (by simp) (locatedPieces_cons.mpr ⟨pieceLocated, passedLocated⟩)
      restLocated
  | case6 passed piece rest notBinary inductionHypothesis =>
    obtain ⟨pieceLocated, restLocated⟩ := locatedPieces_cons.mp located
    exact inductionHypothesis (by simp) (locatedPieces_cons.mpr ⟨pieceLocated, passedLocated⟩)
      restLocated

theorem fold_lands {row : List Piece} (rung : Rung) (foldable : Foldable good row) :
    Lands (ParseError.At good) (fold row rung) (Foldable good) := by
  have nothing : LocatedPieces good [] := fun _ found => by cases found
  cases rung with
  | binary operator => exact foldBinary_lands foldable.1 nothing foldable.2
  | unary operator => exact foldUnary_lands foldable.1 nothing foldable.2

theorem comma?_located {row : List Piece} {location : Location} (located : LocatedPieces good row)
    (found : row.findSome? finish.comma? = some location) : good location := by
  obtain ⟨piece, inside, isComma⟩ := List.exists_of_findSome?_eq_some found
  unfold finish.comma? at isComma
  split at isComma
  · cases isComma
    exact located _ inside
  · cases isComma

theorem misplaced_lands {piece : Piece} (located : piece.Located good) :
    Lands (ParseError.At good) (finish.misplaced piece) (Expr.Located good) := by
  cases piece with
  | operand => exact lands_failAt (Expr.Located.location located)
  | binary | unary | stray => exact lands_failAt located

theorem finish_lands {row : List Piece} (foldable : Foldable good row) :
    Lands (ParseError.At good) (finish row) (Expr.Located good) := by
  obtain ⟨inhabited, located⟩ := foldable
  unfold finish
  split
  · exact (locatedPieces_cons.mp located).1
  · exact absurd rfl inhabited
  next first rest notOne =>
    obtain ⟨firstLocated, restLocated⟩ := locatedPieces_cons.mp located
    split
    next location found => exact lands_failAt (comma?_located located found)
    · split
      · exact lands_failAt (Expr.Located.location (locatedPieces_cons.mp restLocated).1)
      · exact misplaced_lands (locatedPieces_cons.mp restLocated).1
      · exact misplaced_lands firstLocated

/-- A row that is not empty folds to a tree or to a fault at one of its own lines. -/
theorem reduce_lands {row : List Item} (inhabited : row ≠ []) (located : LocatedRow good row) :
    Lands (ParseError.At good) (reduce row) (Expr.Located good) := by
  have foldable : Foldable good (written row) := by
    rw [written, located.unbroken.withoutBreaks_eq]
    exact ⟨pieces_ne_nil inhabited, located_pieces located⟩
  exact (lands_foldlM (fun _ rung => fold_lands rung) ladder foldable).bind fun _ => finish_lands

end Ladder

/-! ### Groups -/

namespace Group

/-- There is one more part than there are separators. -/
theorem length_split (separator : Lexeme) (row : List Item) :
    (split separator row).length = row.countP (·.is separator) + 1 := by
  induction row with
  | nil => rfl
  | cons item rest inductionHypothesis =>
    rw [split, List.countP_cons]
    split
    · rw [List.length_cons, inductionHypothesis]
    · rw [Nat.add_zero]
      split
      next first others parts =>
        rw [parts, List.length_cons] at inductionHypothesis
        rw [List.length_cons]
        exact inductionHypothesis
      next parts => simp [parts] at inductionHypothesis

theorem two_le_length_split {separator : Lexeme} {row : List Item}
    (present : holds row separator = true) : 2 ≤ (split separator row).length := by
  rw [length_split]
  have counted : 0 < row.countP (·.is separator) := List.countP_pos_iff.mpr (List.any_eq_true.mp present)
  omega

theorem length_commaSegments_of_single {row : List Item}
    (single : holds row (.symbol .comma) = false) : (commaSegments row).length = 1 := by
  have counted : row.countP (·.is (.symbol .comma)) = 0 := by
    rw [List.countP_eq_zero]
    exact fun item inside => by simpa using List.any_eq_false.mp single item inside
  have length : (split (.symbol .comma) row).length = 1 := by rw [length_split, counted]
  rw [commaSegments]
  simp [length]

variable {opening : Opening} {row : List Item}

theorem located_of_cutAt? {marks : Item → Bool} {before after : List Item} {found : Item}
    (located : LocatedRow good row) (cut : cutAt? marks row = some (before, found, after)) :
    LocatedRow good before ∧ found.Located good ∧ LocatedRow good after := by
  have parts : row = before ++ found :: after := by
    induction row generalizing before with
    | nil => simp [cutAt?] at cut
    | cons item rest inductionHypothesis =>
      rw [cutAt?] at cut
      split at cut
      · cases cut
        rfl
      · obtain ⟨⟨inner, first, last⟩, innerCut, same⟩ := Option.map_eq_some_iff.mp cut
        cases same
        rw [inductionHypothesis (locatedRow_cons.mp located).2 innerCut, List.cons_append]
  subst parts
  obtain ⟨beforeLocated, others⟩ := List.forall_mem_append.mp located
  exact ⟨beforeLocated, List.forall_mem_cons.mp others⟩

/-- Without a comma there is exactly one element, if there is anything at all. -/
theorem length_elements (inhabited : row ≠ []) (single : holds row (.symbol .comma) = false) :
    Yields (elements opening row) fun found => found.length = 1 := by
  intro found done
  have anyhow (step : Except ParseError Expr) : Lands (fun _ => True) step fun _ => True := by
    cases step <;> trivial
  unfold elements at done
  split at done
  next empty => exact absurd (List.isEmpty_iff.mp empty) inhabited
  next =>
    let element (segment : List Item) : Except ParseError Expr :=
      if segment.isEmpty then Ladder.failAt opening.location (.emptyElement opening.bracket)
      else Ladder.reduce segment
    have lands := lands_mapM fun segment (_ : segment ∈ commaSegments row) =>
      anyhow (element segment)
    rw [done] at lands
    rw [lands.1, length_commaSegments_of_single single]

theorem elements_lands (isGood : good opening.location) (located : LocatedRow good row) :
    Lands (ParseError.At good) (elements opening row) (Expr.LocatedAll good) := by
  unfold elements
  split
  · exact trivial
  · have folds : ∀ segment ∈ commaSegments row, Lands (ParseError.At good)
        (if segment.isEmpty then Ladder.failAt opening.location (.emptyElement opening.bracket)
          else Ladder.reduce segment) (Expr.Located good) := by
      intro segment found
      split
      · exact lands_failAt isGood
      next inhabited =>
        exact Ladder.reduce_lands (fun empty => inhabited (List.isEmpty_iff.mpr empty))
          (located.mono (subset_of_mem_commaSegments found))
    have lands := lands_mapM folds
    cases done : (commaSegments row).mapM fun segment =>
        if segment.isEmpty then Ladder.failAt opening.location (.emptyElement opening.bracket)
          else Ladder.reduce segment with
    | error =>
      rw [done] at lands
      exact lands
    | ok found =>
      rw [done] at lands
      exact Expr.locatedAll_iff.mpr lands.2
theorem parenthesized_lands (isGood : good opening.location) (located : LocatedRow good row) :
    Lands (ParseError.At good) (parenthesized opening row) (Expr.Located good) := by
  refine (elements_lands isGood located).bind fun inner all => ?_
  split
  · split
    · exact ⟨isGood, all⟩
    · exact ⟨isGood, all.1⟩
  · exact ⟨isGood, all⟩

theorem membership_lands {word : Item} {output : Expr} {clause : List Item} {filter : Option Expr}
    (isGood : good opening.location) (wordLocated : word.Located good)
    (outputLocated : output.Located good) (clauseLocated : LocatedRow good clause)
    (filterLocated : Expr.LocatedFilter good filter) :
    Lands (ParseError.At good) (do
      if clause.isEmpty then Ladder.failAt word.location .noComprehensionMembership
      match ← Ladder.reduce clause with
      | .binary _ .member target source =>
        target.checkTarget
        .ok (.comprehension opening.location output target source filter)
      | _ => Ladder.failAt word.location .noComprehensionMembership) (Expr.Located good) := by
  dsimp only
  by_cases noClause : clause.isEmpty
  · rw [if_pos noClause]
    exact (lands_failAt wordLocated.location).bind fun _ (impossible : False) => impossible.elim
  · rw [if_neg noClause]
    have inhabited : clause ≠ [] := fun empty => noClause (List.isEmpty_iff.mpr empty)
    refine (Ladder.reduce_lands inhabited clauseLocated).bind fun membership membershipLocated => ?_
    split
    · refine (Expr.Located.checkTarget membershipLocated.2.1).bind fun _ _ => ?_
      exact ⟨isGood, outputLocated, membershipLocated.2.1, membershipLocated.2.2, filterLocated⟩
    · exact lands_failAt wordLocated.location

theorem comprehension_lands {output clause : List Item} {word : Item}
    (isGood : good opening.location) (outputLocated : LocatedRow good output)
    (wordLocated : word.Located good) (clauseLocated : LocatedRow good clause) :
    Lands (ParseError.At good) (comprehension opening output word clause) (Expr.Located good) := by
  unfold comprehension
  dsimp only
  by_cases noOutput : output.isEmpty
  · rw [if_pos noOutput]
    exact (lands_failAt isGood).bind fun _ (impossible : False) => impossible.elim
  · rw [if_neg noOutput]
    have inhabited : output ≠ [] := fun empty => noOutput (List.isEmpty_iff.mpr empty)
    refine (Ladder.reduce_lands inhabited outputLocated).bind fun output outputLocated => ?_
    split
    next before word found =>
      obtain ⟨-, wordLocated, -⟩ := located_of_cutAt? clauseLocated found
      exact (lands_failAt wordLocated.location).bind
        fun _ (impossible : False) => impossible.elim
    next before word condition present found =>
      obtain ⟨beforeLocated, -, conditionLocated⟩ := located_of_cutAt? clauseLocated found
      have filtered : Lands (ParseError.At good)
          ((fun filter => (before, some filter)) <$> Ladder.reduce condition)
          fun parts => LocatedRow good parts.1 ∧ Expr.LocatedFilter good parts.2 :=
        (Ladder.reduce_lands present conditionLocated).map
          fun filter filterLocated => ⟨beforeLocated, filterLocated⟩
      exact filtered.bind fun parts partsLocated =>
        membership_lands isGood wordLocated outputLocated partsLocated.1 partsLocated.2
    · exact membership_lands isGood wordLocated outputLocated clauseLocated trivial

theorem squareDisplay_lands (isGood : good opening.location) (located : LocatedRow good row) :
    Lands (ParseError.At good) (squareDisplay opening row) (Expr.Located good) := by
  unfold squareDisplay
  split
  next output word clause found =>
    obtain ⟨outputLocated, wordLocated, clauseLocated⟩ := located_of_cutAt? located found
    exact comprehension_lands isGood outputLocated wordLocated clauseLocated
  · exact (elements_lands isGood located).map fun _ all => ⟨isGood, all⟩

theorem entry_lands (isGood : good opening.location) (located : LocatedRow good row) :
    Lands (ParseError.At good) (entry opening row) fun entry =>
      entry.1.Located good ∧ entry.2.Located good := by
  unfold entry
  split
  next key value parts =>
    have inside {part : List Item} (found : part ∈ [key, value]) : part ⊆ row :=
      subset_of_mem_split (by rw [parts]; exact found)
    split
    · exact lands_failAt isGood
    next inhabited =>
      rw [Bool.or_eq_true, List.isEmpty_iff, List.isEmpty_iff, not_or] at inhabited
      refine (Ladder.reduce_lands inhabited.1 (located.mono (inside (by simp)))).bind
        fun key keyLocated => ?_
      refine (Ladder.reduce_lands inhabited.2 (located.mono (inside (by simp)))).bind
        fun value valueLocated => ?_
      exact ⟨keyLocated, valueLocated⟩
  · exact lands_failAt isGood

theorem braceDisplay_lands (isGood : good opening.location) (located : LocatedRow good row) :
    Lands (ParseError.At good) (braceDisplay opening row) (Expr.Located good) := by
  unfold braceDisplay
  split
  · exact ⟨isGood, trivial⟩
  · split
    · refine Lands.map (lands_mapM fun segment found => ?_) fun _ ⟨_, all⟩ =>
        ⟨isGood, Expr.locatedEntries_iff.mpr all⟩
      exact entry_lands isGood (located.mono (subset_of_mem_commaSegments found))
    · exact (elements_lands isGood located).map fun _ all => ⟨isGood, all⟩

theorem argumentValue_lands {location : Location} {before : String} (isGood : good location)
    (located : LocatedRow good row) :
    Lands (ParseError.At good) (argumentValue location before row) (Expr.Located good) := by
  unfold argumentValue
  split
  · exact lands_failAt isGood
  next inhabited =>
    split
    next found => exact lands_failAt (located_of_cutAt? located found).2.1.location
    · exact Ladder.reduce_lands (fun empty => inhabited (List.isEmpty_iff.mpr empty)) located

theorem arguments_lands {positional : List Expr} {named : List (String × Expr)}
    {segments : List (List Item)} (isGood : good opening.location)
    (positionalLocated : Expr.LocatedAll good positional)
    (namedLocated : Expr.LocatedNamed good named)
    (located : ∀ segment ∈ segments, LocatedRow good segment) :
    Lands (ParseError.At good) (arguments opening positional named segments) fun found =>
      Expr.LocatedAll good found.1 ∧ Expr.LocatedNamed good found.2 := by
  induction segments generalizing positional named with
  | nil =>
    refine ⟨Expr.locatedAll_iff.mpr ?_, Expr.locatedNamed_iff.mpr ?_⟩
    · simpa using Expr.locatedAll_iff.mp positionalLocated
    · simpa using Expr.locatedNamed_iff.mp namedLocated
  | cons segment rest inductionHypothesis =>
    rw [List.forall_mem_cons] at located
    obtain ⟨segmentLocated, restLocated⟩ := located
    cases segment with
    | nil => exact lands_failAt isGood
    | cons first following =>
      obtain ⟨firstLocated, followingLocated⟩ := locatedRow_cons.mp segmentLocated
      unfold arguments
      dsimp only
      split
      next location value =>
        obtain ⟨signGood, valueLocated⟩ := locatedRow_cons.mp followingLocated
        split
        · refine (argumentValue_lands signGood.1 valueLocated).bind fun value valueLocated => ?_
          exact inductionHypothesis positionalLocated ⟨valueLocated, namedLocated⟩ restLocated
        · exact lands_failAt signGood.1
      · split
        · refine (argumentValue_lands isGood segmentLocated).bind fun value valueLocated => ?_
          exact inductionHypothesis ⟨valueLocated, positionalLocated⟩ namedLocated restLocated
        · exact lands_failAt firstLocated.location

theorem call_lands {callee : Expr} (isGood : good opening.location)
    (calleeLocated : callee.Located good) (located : LocatedRow good row) :
    Lands (ParseError.At good) (call opening callee row) (Expr.Located good) := by
  unfold call
  split
  · exact ⟨isGood, calleeLocated, trivial, trivial⟩
  · have noneLocated : Expr.LocatedAll good [] ∧ Expr.LocatedNamed good [] := ⟨trivial, trivial⟩
    refine (arguments_lands isGood noneLocated.1 noneLocated.2 fun segment found => ?_).bind
      fun found foundLocated => ?_
    · exact located.mono (subset_of_mem_commaSegments found)
    · exact ⟨isGood, calleeLocated, foundLocated⟩

theorem bound_lands (isGood : good opening.location) (located : LocatedRow good row) :
    Lands (ParseError.At good) (bound opening row) (Expr.Located good) := by
  unfold bound
  split
  · exact isGood
  next inhabited =>
    exact Ladder.reduce_lands (fun empty => inhabited (List.isEmpty_iff.mpr empty)) located

theorem subscript_lands {object : Expr} (isGood : good opening.location)
    (objectLocated : object.Located good) (located : LocatedRow good row) :
    Lands (ParseError.At good) (subscript opening object row) (Expr.Located good) := by
  have bound {part : List Item} (found : part ∈ split (.symbol .colon) row) :
      Lands (ParseError.At good) (bound opening part) (Expr.Located good) :=
    bound_lands isGood (located.mono (subset_of_mem_split found))
  unfold subscript
  split
  · exact lands_failAt isGood
  · split
    · split
      next start stop parts =>
        rw [parts] at bound
        refine (bound (by simp)).bind fun start startLocated => ?_
        refine (bound (by simp)).bind fun stop stopLocated => ?_
        exact ⟨isGood, objectLocated, startLocated, stopLocated, isGood⟩
      next start stop step parts =>
        rw [parts] at bound
        refine (bound (by simp)).bind fun start startLocated => ?_
        refine (bound (by simp)).bind fun stop stopLocated => ?_
        refine (bound (by simp)).bind fun step stepLocated => ?_
        exact ⟨isGood, objectLocated, startLocated, stopLocated, stepLocated⟩
      · exact lands_failAt isGood
    · refine (elements_lands isGood located).bind fun indices all => ?_
      split
      · split
        · exact ⟨isGood, objectLocated, isGood, all⟩
        · exact ⟨isGood, objectLocated, all.1⟩
      · exact ⟨isGood, objectLocated, isGood, all⟩

theorem close_lands {before : Option Expr} (isGood : good opening.location)
    (beforeLocated : ∀ object ∈ before, object.Located good) (located : LocatedRow good row) :
    Lands (ParseError.At good) (close opening before row) (Expr.Located good) := by
  unfold close
  split
  · exact call_lands isGood (beforeLocated _ rfl) located
  · exact parenthesized_lands isGood located
  · exact subscript_lands isGood (beforeLocated _ rfl) located
  · exact squareDisplay_lands isGood located
  · exact braceDisplay_lands isGood located

theorem operand?_lands {token : Token} {operand : Except ParseError Expr}
    (isGood : good token.location) (found : operand? token = some operand) :
    Lands (ParseError.At good) operand (Expr.Located good) := by
  unfold operand? at found
  split at found
  any_goals
    cases found
    exact isGood
  · cases found
    unfold numeral
    split <;> split
    any_goals exact isGood
    any_goals exact lands_failAt isGood
  · cases found

end Group

end Offside
