/-
This file proves that the lexemes of a literal build its tree, and that a text which is
a literal is a program of one statement. Rows of tokens and operands stand between the
two: a literal adds one operand to the row in which it stands, or a sign and an operand,
and a container does so because its own row, once its bracket is closed, is cut at its
separators into the rows of its parts.

A literal in brackets is an operand of its own only if no operand stands directly before
it. That is why the rows are those in which a separator comes last, or nothing at all.
-/

import Offside.Proofs.Literal.Lexing
import Offside.Proofs.Precedence
import Offside.Syntax.Block

namespace Offside

namespace Number

/-! ### Numerals -/

theorem decimalValue_toDigits (n : Nat) : decimalValue (Nat.toDigits 10 n) = n := by
  have written : Nat.ofDigitChars 10 (Nat.toDigits 10 n) 0 = n := Nat.ofDigitChars_ten_toDigits
  rw [Nat.ofDigitChars_eq_foldl] at written
  rw [decimalValue]
  conv_rhs => rw [← written]
  congr 1
  funext value c
  rw [digitValue, Nat.mul_comm]

/-- Digits that write a small enough number are read as that number. -/
theorem readInteger?_toDigits {n : Nat} (small : (n : Int) ≤ greatest) :
    readInteger? (Nat.toDigits 10 n) = some (Int64.ofNat n) := by
  have digits : ∀ c ∈ Nat.toDigits 10 n, c.isDigit = true :=
    fun c found => Nat.isDigit_of_mem_toDigits (by decide) (by decide) found
  have isDigits : isDigits (Nat.toDigits 10 n) = true := by
    rw [Number.isDigits, List.all_eq_true.mpr digits, Bool.and_true, Bool.not_eq_true',
      List.isEmpty_eq_false_iff]
    exact Nat.toDigits_ne_nil
  have fits : fit? (n : Int) = some (Int64.ofNat n) := by
    rw [fit?, if_pos ⟨by simp only [least]; omega, small⟩]
    rfl
  unfold readInteger?
  split
  next same => exact absurd (digits '-' (by rw [same]; exact List.mem_cons_self)) (by decide)
  next same => exact absurd (digits '+' (by rw [same]; exact List.mem_cons_self)) (by decide)
  next => rw [if_pos isDigits, decimalValue_toDigits, fits]

end Number

namespace Literal

/-! ### Rows -/

/-- The row of an integer. -/
def itemsOfInt (location : Location) (value : Int64) : List Item :=
  match value.toInt with
  | .ofNat _ => [.operand (.integer location value)]
  | .negSucc n =>
    [.token ⟨.symbol .minus, location⟩, .operand (.integer location (Int64.ofNat (n + 1)))]

/-- The row of a literal. -/
def items (location : Location) : Literal → List Item
  | .int value => itemsOfInt location value
  | other => [.operand (other.tree location)]

/-- The row of an entry. -/
def entryItems (location : Location) (entry : Literal × Literal) : List Item :=
  entry.1.items location ++ .token ⟨.symbol .colon, location⟩ :: entry.2.items location

end Literal

namespace Ladder

/-! ### Rows without binary operators -/

/-- What needs few rungs, on a later level. -/
def Derivation.climbBy {level : Nat} (inner : Derivation level) :
    (rungs : Nat) → Derivation (level + rungs)
  | 0 => inner
  | rungs + 1 => .climb (inner.climbBy rungs)

theorem reduce_operand (expression : Expr) : reduce [.operand expression] = .ok expression :=
  foldAll_yield ((Derivation.operand expression).climbBy 20)

theorem reduce_negated (location : Location) (expression : Expr) :
    reduce [.token ⟨.symbol .minus, location⟩, .operand expression] =
      .ok (.unary location .negate expression) := by
  let sign : Derivation 2 := .unary .negate rfl location (.climb (.climb (.operand expression)))
  exact foldAll_yield (sign.climbBy 18)

/-- The row of a literal folds to its tree. -/
theorem reduce_items (location : Location) (literal : Literal) :
    reduce (literal.items location) = .ok (literal.tree location) := by
  cases literal with
  | int value =>
    rw [Literal.items, Literal.tree, Literal.itemsOfInt, Literal.treeOfInt]
    cases value.toInt with
    | ofNat n => exact reduce_operand _
    | negSucc n => exact reduce_negated _ _
  | _ => exact reduce_operand _

end Ladder

namespace Row

open Reading (ahead)

/-! ### Tokens in a row -/

/-- The kinds that end an expression at the start of a line. -/
def listStop : List Kind := [.symbol .assign, .symbol .comma]

/-- The row is empty or a separator comes last in it, so no operand stands directly before what
comes next. Rows are reversed here. -/
def Open (row : List Item) : Prop :=
  ∀ item ∈ row.head?, ∃ location : Location,
    item = .token ⟨.symbol .comma, location⟩ ∨ item = .token ⟨.symbol .colon, location⟩

theorem open_nil : Open [] := by
  intro item impossible
  cases impossible

theorem open_comma (location : Location) (row : List Item) :
    Open (.token ⟨.symbol .comma, location⟩ :: row) := by
  intro item found
  cases found
  exact ⟨location, .inl rfl⟩

theorem open_colon (location : Location) (row : List Item) :
    Open (.token ⟨.symbol .colon, location⟩ :: row) := by
  intro item found
  cases found
  exact ⟨location, .inr rfl⟩

theorem Open.wantsName {row : List Item} (isOpen : Open row) : wantsName row = false := by
  cases row with
  | nil => rfl
  | cons item row =>
    obtain ⟨location, rfl | rfl⟩ := isOpen item rfl <;> rfl

section Steps

variable {pending : List Pending} {row : List Item} {head : Token} {rest : Stream}

theorem addOperand_plain (wants : wantsName row = false) (operand : Expr) (name : String) :
    addOperand row operand name = .ok (.operand operand :: row) := by
  unfold addOperand
  split
  · cases wants
  · cases wants
  · rfl

section Inside

variable (wants : wantsName row = false) (ready : ahead rest = .ok ())

include wants ready

theorem collect_operand {operand : Expr} (stays : head.kind ∉ listStop)
    (isOperand : role head = .operand (.ok operand)) :
    collect listStop pending row (.token head rest) =
      collect listStop pending (.operand operand :: row) rest := by
  rw [collect, if_neg (by simp [stays]), if_neg (by simp [wants]), isOperand]
  simp only [orFault, ready, addOperand_plain wants]
  rfl

theorem collect_joins (stays : head.kind ∉ listStop) (joins : role head = .joins) :
    collect listStop pending row (.token head rest) =
      collect listStop pending (.token head :: row) rest := by
  rw [collect, if_neg (by simp [stays]), if_neg (by simp [wants]), joins]
  simp only [ready]
  rfl

theorem collect_opens {bracket : Bracket} (stays : head.kind ∉ listStop)
    (opens : role head = .opens bracket) :
    collect listStop pending row (.token head rest) =
      collect listStop (⟨⟨bracket, head.location⟩, row⟩ :: pending) [] rest := by
  rw [collect, if_neg (by simp [stays]), if_neg (by simp [wants]), opens]
  simp only [ready]
  rfl

/-- A separator of the group that is open. -/
theorem collect_divides {inner : Pending} (divides : role head = .divides)
    (separating : separates inner.opening.bracket head.lexeme = true) :
    collect listStop (inner :: pending) row (.token head rest) =
      collect listStop (inner :: pending) (.token head :: row) rest := by
  rw [collect, if_neg (by simp), if_neg (by simp [wants]), divides]
  simp only [List.head?_cons, separating, if_true, ready]
  rfl

/-- The end of a group that stands on its own. -/
theorem collect_closes {opening : Group.Opening} {before : List Item} {operand : Expr}
    (closes : role head = .closes opening.bracket) (isOpen : Open before)
    (closed : Group.close opening none row.reverse = .ok operand) :
    collect listStop (⟨opening, before⟩ :: pending) row (.token head rest) =
      collect listStop pending (.operand operand :: before) rest := by
  have resumed : closeGroup ⟨opening, before⟩ row.reverse = .ok (.operand operand :: before) := by
    unfold closeGroup
    split
    next object outer same =>
      obtain rfl : before = .operand object :: outer := same
      obtain ⟨location, impossible | impossible⟩ := isOpen _ rfl <;> cases impossible
    next =>
      rw [closed]
      rfl
  rw [collect, if_neg (by simp), if_neg (by simp [wants]), closes]
  simp only [List.head?_cons, if_true, ready, resumed, orFault, List.tail_cons]
  rfl

end Inside

end Steps

/-! ### Literals in a row -/

/-- Lexemes add items to every row that is open for them. -/
def Collects (location : Location) (lexemes : List Lexeme) (items : List Item) : Prop :=
  ∀ (pending : List Pending) (row : List Item) (rest : Stream), Open row → ahead rest = .ok () →
    collect listStop pending row (Stream.onto location lexemes rest) =
      collect listStop pending (items.reverse ++ row) rest

/-- Lexemes add items to every open row inside of a bracket. -/
def CollectsIn (bracket : Bracket) (location : Location) (lexemes : List Lexeme)
    (items : List Item) : Prop :=
  ∀ (inner : Pending) (pending : List Pending) (row : List Item) (rest : Stream),
    inner.opening.bracket = bracket → Open row → ahead rest = .ok () →
    collect listStop (inner :: pending) row (Stream.onto location lexemes rest) =
      collect listStop (inner :: pending) (items.reverse ++ row) rest

theorem Collects.inside {location : Location} {lexemes : List Lexeme} {items : List Item}
    (collects : Collects location lexemes items) (bracket : Bracket) :
    CollectsIn bracket location lexemes items := by
  intro inner pending row rest _ isOpen ready
  exact collects (inner :: pending) row rest isOpen ready

/-- Looking ahead is safe before a token. -/
theorem ahead_onto (location : Location) (lexemes : List Lexeme) {rest : Stream}
    (ready : ahead rest = .ok ()) : ahead (Stream.onto location lexemes rest) = .ok () := by
  cases lexemes with
  | nil => exact ready
  | cons => rfl

theorem collects_operand {location : Location} {lexeme : Lexeme} {operand : Expr}
    (stays : lexeme.kind ∉ listStop)
    (isOperand : role ⟨lexeme, location⟩ = .operand (.ok operand)) :
    Collects location [lexeme] [.operand operand] := by
  intro pending row rest isOpen ready
  exact collect_operand isOpen.wantsName ready stays isOperand

theorem numeral_toDigits (location : Location) {n : Nat} (small : (n : Int) ≤ Number.greatest) :
    Group.numeral location (String.ofList (Nat.toDigits 10 n)) =
      .ok (.integer location (Int64.ofNat n)) := by
  have noPoint : (Nat.toDigits 10 n).contains '.' = false := by
    rw [List.contains_eq_mem, decide_eq_false_iff_not]
    intro point
    exact absurd (Nat.isDigit_of_mem_toDigits (by decide) (by decide) point) (by decide)
  rw [Group.numeral, String.toList_ofList, noPoint, if_neg Bool.false_ne_true,
    Number.readInteger?_toDigits small]

theorem collects_int (location : Location) {value : Int64} (written : value.toInt ≠ Number.least) :
    Collects location (Literal.lexemesOfInt value) (Literal.itemsOfInt location value) := by
  have numberRole {n : Nat} (small : (n : Int) ≤ Number.greatest) :
      role ⟨.number (String.ofList (Nat.toDigits 10 n)), location⟩ =
        .operand (.ok (.integer location (Int64.ofNat n))) := by
    rw [← numeral_toDigits location small]
    rfl
  have numberStays (digits : String) : (Lexeme.number digits).kind ∉ listStop :=
    show Kind.number ∉ listStop by decide
  have minusStays : (Token.mk (.symbol .minus) location).kind ∉ listStop :=
    show Kind.symbol .minus ∉ listStop by decide
  have low : Number.least ≤ value.toInt := Int64.le_toInt value
  have high : value.toInt ≤ Number.greatest := Int64.toInt_le value
  unfold Literal.lexemesOfInt Literal.itemsOfInt
  cases same : value.toInt with
  | ofNat n =>
    rw [same] at high
    have back : Int64.ofNat n = value := by
      rw [← Int64.ofInt_toInt value, same]
      rfl
    have collects := collects_operand (numberStays _) (numberRole high)
    rw [back] at collects
    exact collects
  | negSucc n =>
    rw [same] at written low
    have small : ((n + 1 : Nat) : Int) ≤ Number.greatest := by
      simp only [Number.least, Number.greatest] at written low ⊢
      omega
    intro pending row rest isOpen ready
    rw [Stream.onto_cons, Stream.onto_cons, Stream.onto_nil,
      collect_joins isOpen.wantsName rfl minusStays rfl]
    exact collect_operand rfl ready (numberStays _) (numberRole small)

/-! ### Containers -/

section Containers

variable {location : Location}

theorem collectsIn_nil (bracket : Bracket) : CollectsIn bracket location [] [] :=
  fun _ _ _ _ _ _ _ => rfl

/-- A separator between two parts of a group. -/
theorem CollectsIn.separate {bracket : Bracket} {sign : Symbol} {first second : List Lexeme}
    {firstItems secondItems : List Item} (collects : CollectsIn bracket location first firstItems)
    (wants : ∀ row, wantsName (firstItems.reverse ++ row) = false)
    (divides : role ⟨.symbol sign, location⟩ = .divides)
    (separating : separates bracket (.symbol sign) = true)
    (isOpen : ∀ row, Open (.token ⟨.symbol sign, location⟩ :: row))
    (after : CollectsIn bracket location second secondItems) :
    CollectsIn bracket location (first ++ .symbol sign :: second)
      (firstItems ++ .token ⟨.symbol sign, location⟩ :: secondItems) := by
  intro inner pending row rest same openBefore ready
  have secondReady := ahead_onto location second ready
  rw [Stream.onto_append, Stream.onto_cons, collects inner pending row _ same openBefore rfl,
    collect_divides (wants row) secondReady divides (by rw [same]; exact separating),
    after inner pending _ rest same (isOpen _) ready]
  simp only [List.reverse_append, List.reverse_cons, List.append_assoc, List.cons_append,
    List.nil_append]

/-- No point comes last. -/
def Settled (items : List Item) : Prop :=
  ∀ row : List Item, wantsName (items.reverse ++ row) = false

theorem settled_append_operand (before : List Item) (operand : Expr) :
    Settled (before ++ [.operand operand]) := by
  intro row
  rw [List.reverse_append]
  rfl

theorem Settled.append {items : List Item} (settled : Settled items) (before : List Item) :
    Settled (before ++ items) := by
  intro row
  rw [List.reverse_append, List.append_assoc]
  exact settled _

theorem settled_separated {separator : List Item} {parts : List (List Item)} (some : parts ≠ [])
    (settled : ∀ part ∈ parts, Settled part) : Settled (separated separator parts) := by
  induction parts with
  | nil => exact absurd rfl some
  | cons part others inductionHypothesis =>
    rw [List.forall_mem_cons] at settled
    cases others with
    | nil => exact settled.1
    | cons => exact (inductionHypothesis (List.cons_ne_nil _ _) settled.2).append _

/-- The parts of a group. -/
theorem collectsIn_separated {bracket : Bracket} {lexemes : List (List Lexeme)}
    {parts : List (List Item)}
    (all : List.Forall₂ (CollectsIn bracket location) lexemes parts)
    (settled : ∀ part ∈ parts, Settled part) :
    CollectsIn bracket location (separated [.symbol .comma] lexemes)
      (separated [.token ⟨.symbol .comma, location⟩] parts) := by
  induction all with
  | nil => exact collectsIn_nil bracket
  | cons collects others inductionHypothesis =>
    rw [List.forall_mem_cons] at settled
    have after := inductionHypothesis settled.2
    cases others with
    | nil => exact collects
    | cons =>
      rw [separated, separated, List.append_assoc, List.append_assoc]
      exact collects.separate settled.1 rfl rfl (open_comma location) after

/-- The comma after a single element. -/
theorem CollectsIn.trailing {bracket : Bracket} {lexemes : List Lexeme} {row : List Item}
    {elements : List Literal} (collects : CollectsIn bracket location lexemes row)
    (settled : elements ≠ [] → Settled row) :
    CollectsIn bracket location (lexemes ++ Literal.trailing (.symbol .comma) elements)
      (row ++ Literal.trailing (.token ⟨.symbol .comma, location⟩) elements) := by
  unfold Literal.trailing
  split
  next single =>
    have some : elements ≠ [] := List.ne_nil_of_length_pos (by omega)
    exact collects.separate (settled some) rfl rfl (open_comma location) (collectsIn_nil bracket)
  next =>
    rw [List.append_nil, List.append_nil]
    exact collects

theorem wantsName_separated {separator : List Item} {parts : List (List Item)}
    (settled : ∀ part ∈ parts, Settled part) :
    wantsName (separated separator parts).reverse = false := by
  by_cases none : parts = []
  · subst none
    rfl
  · have ends : Settled (separated separator parts) := settled_separated none settled
    rw [← List.append_nil (separated separator parts).reverse]
    exact ends []

theorem wantsName_trailing {row : List Item} (elements : List Literal)
    (wants : wantsName row.reverse = false) :
    wantsName (row ++ Literal.trailing (Item.token ⟨.symbol .comma, location⟩) elements).reverse =
      false := by
  unfold Literal.trailing
  split
  · rw [List.reverse_append]
    rfl
  · rw [List.append_nil]
    exact wants

/-- A group is an operand once it is closed. -/
theorem CollectsIn.grouped {bracket : Bracket} {lexemes : List Lexeme} {row : List Item}
    {operand : Expr} (collects : CollectsIn bracket location lexemes row)
    (wants : wantsName row.reverse = false)
    (closed : Group.close ⟨bracket, location⟩ none row = .ok operand) :
    Collects location (Literal.groupedLexemes bracket lexemes) [.operand operand] := by
  intro pending outer rest isOpen ready
  have stays : (Token.mk (.symbol bracket.opener) location).kind ∉ listStop := by
    change Kind.symbol bracket.opener ∉ listStop
    cases bracket <;> decide
  have opens : role ⟨.symbol bracket.opener, location⟩ = .opens bracket := by
    cases bracket <;> rfl
  have closes : role ⟨.symbol bracket.closer, location⟩ = .closes bracket := by
    cases bracket <;> rfl
  have innerReady : ahead (Stream.onto location (lexemes ++ [.symbol bracket.closer]) rest) =
      .ok () :=
    ahead_onto location _ ready
  rw [Literal.groupedLexemes, List.cons_append, Stream.onto_cons,
    collect_opens isOpen.wantsName innerReady stays opens, Stream.onto_append, Stream.onto_cons,
    Stream.onto_nil, collects _ pending [] _ rfl open_nil rfl, List.append_nil,
    collect_closes wants ready closes isOpen (by rw [List.reverse_reverse]; exact closed)]
  rfl

end Containers

end Row

namespace Group

/-! ### Cutting the row of a container -/

/-- The row does not hold this token. -/
def Free (separator : Lexeme) (row : List Item) : Prop :=
  ∀ item ∈ row, item.is separator = false

section Cutting

variable {separator : Lexeme}

theorem split_free {row : List Item} (free : Free separator row) :
    split separator row = [row] := by
  induction row with
  | nil => rfl
  | cons item row inductionHypothesis =>
    rw [Free, List.forall_mem_cons] at free
    rw [split, if_neg (by simp [free.1]), inductionHypothesis free.2]

theorem split_append {row rest : List Item} {item : Item} (free : Free separator row)
    (cuts : item.is separator = true) :
    split separator (row ++ item :: rest) = row :: split separator rest := by
  induction row with
  | nil => rw [List.nil_append, split, if_pos cuts]
  | cons first row inductionHypothesis =>
    rw [Free, List.forall_mem_cons] at free
    rw [List.cons_append, split, if_neg (by simp [free.1]), inductionHypothesis free.2]

theorem split_separated {item : Item} {parts : List (List Item)} (cuts : item.is separator = true)
    (some : parts ≠ []) (free : ∀ part ∈ parts, Free separator part) :
    split separator (separated [item] parts) = parts := by
  induction parts with
  | nil => exact absurd rfl some
  | cons part others inductionHypothesis =>
    rw [List.forall_mem_cons] at free
    cases others with
    | nil => exact split_free free.1
    | cons =>
      rw [separated, List.append_assoc, List.singleton_append, split_append free.1 cuts,
        inductionHypothesis (List.cons_ne_nil _ _) free.2]

end Cutting

section Displays

variable {location : Location} {opening : Opening}

theorem commaSegments_separated {parts : List (List Item)} (some : parts ≠ [])
    (free : ∀ part ∈ parts, Free (.symbol .comma) part) (filled : ∀ part ∈ parts, part ≠ []) :
    commaSegments (separated [.token ⟨.symbol .comma, location⟩] parts) = parts := by
  have lastFilled : parts.getLast?.any (·.isEmpty) = false := by
    rw [List.getLast?_eq_some_getLast some, Option.any_some, List.isEmpty_eq_false_iff]
    exact filled _ (List.getLast_mem some)
  have cuts : (Item.token ⟨.symbol .comma, location⟩).is (.symbol .comma) = true := by
    simp [Item.is]
  rw [commaSegments, split_separated cuts some free, lastFilled, Bool.and_false,
    if_neg Bool.false_ne_true]

/-- A comma at the end opens no segment. -/
theorem commaSegments_single {part : List Item} (free : Free (.symbol .comma) part) :
    commaSegments (part ++ [.token ⟨.symbol .comma, location⟩]) = [part] := by
  have cut : split (.symbol .comma) (part ++ [.token ⟨.symbol .comma, location⟩]) = [part, []] :=
    split_append free (by simp [Item.is])
  rw [commaSegments, cut]
  rfl

theorem cutAt?_eq_none {marks : Item → Bool} {row : List Item}
    (unmarked : ∀ item ∈ row, marks item = false) : cutAt? marks row = none := by
  induction row with
  | nil => rfl
  | cons item row inductionHypothesis =>
    rw [List.forall_mem_cons] at unmarked
    rw [cutAt?, if_neg (by simp [unmarked.1]), inductionHypothesis unmarked.2]
    rfl

/-! ### The rows of literals -/

theorem items_ne_nil (literal : Literal) : literal.items location ≠ [] := by
  cases literal with
  | int value =>
    rw [Literal.items, Literal.itemsOfInt]
    split <;> exact List.cons_ne_nil _ _
  | _ => exact List.cons_ne_nil _ _

/-- The only token in the row of a literal is a sign. -/
theorem free_items (literal : Literal) {separator : Lexeme} (other : separator ≠ .symbol .minus) :
    Free separator (literal.items location) := by
  intro item found
  cases literal with
  | int value =>
    rw [Literal.items, Literal.itemsOfInt] at found
    split at found
    · cases List.mem_singleton.mp found
      rfl
    · obtain rfl | found := List.mem_cons.mp found
      · simpa [Item.is] using other.symm
      · cases List.mem_singleton.mp found
        rfl
  | _ =>
    cases List.mem_singleton.mp found
    rfl

theorem settled_items (literal : Literal) : Row.Settled (literal.items location) := by
  cases literal with
  | int value =>
    rw [Literal.items, Literal.itemsOfInt]
    split
    · exact Row.settled_append_operand [] _
    · exact Row.settled_append_operand [_] _
  | _ => exact Row.settled_append_operand [] _

/-- The rows of the elements of a container. -/
def rows (location : Location) (elements : List Literal) : List (List Item) :=
  elements.map (Literal.items location)

/-- The row of the elements of a container. -/
def elementRow (location : Location) (elements : List Literal) : List Item :=
  separated [.token ⟨.symbol .comma, location⟩] (rows location elements)

theorem mapM_rows {f : List Item → Except ParseError Expr}
    (each : ∀ literal : Literal, f (literal.items location) = .ok (literal.tree location))
    (elements : List Literal) :
    (rows location elements).mapM f = .ok (Literal.trees location elements) := by
  induction elements with
  | nil => rfl
  | cons first rest inductionHypothesis =>
    rw [rows] at inductionHypothesis ⊢
    rw [List.map_cons, List.mapM_cons, each, inductionHypothesis]
    rfl

theorem elements_of_segments {row : List Item} {elements : List Literal} (filled : row ≠ [])
    (cut : commaSegments row = rows location elements) :
    Group.elements opening row = .ok (Literal.trees location elements) := by
  rw [Group.elements, if_neg (by simp [filled]), cut]
  refine mapM_rows (fun literal => ?_) elements
  rw [if_neg (by simp [items_ne_nil]), Ladder.reduce_items]

theorem elementRow_ne_nil {elements : List Literal} (some : elements ≠ []) :
    elementRow location elements ≠ [] := by
  cases elements with
  | nil => exact absurd rfl some
  | cons first rest =>
    cases rest with
    | nil => exact items_ne_nil first
    | cons =>
      intro none
      rw [elementRow, rows, List.map_cons, List.map_cons, separated, List.append_eq_nil_iff,
        List.append_eq_nil_iff] at none
      exact items_ne_nil first none.1.1

theorem free_separated {separator : Lexeme} {item : Item} {parts : List (List Item)}
    (other : item.is separator = false) (free : ∀ part ∈ parts, Free separator part) :
    Free separator (separated [item] parts) := by
  induction parts with
  | nil => exact fun _ impossible => by cases impossible
  | cons part others inductionHypothesis =>
    rw [List.forall_mem_cons] at free
    cases others with
    | nil => exact free.1
    | cons =>
      intro found member
      rw [separated, List.mem_append, List.mem_append, List.mem_singleton] at member
      obtain (member | rfl) | member := member
      · exact free.1 found member
      · exact other
      · exact inductionHypothesis free.2 found member

theorem free_rows {separator : Lexeme} (other : separator ≠ .symbol .minus)
    (elements : List Literal) : ∀ part ∈ rows location elements, Free separator part := by
  intro part found
  obtain ⟨literal, -, rfl⟩ := List.mem_map.mp found
  exact free_items literal other

theorem free_elementRow {separator : Lexeme} (other : separator ≠ .symbol .minus)
    (notComma : separator ≠ .symbol .comma) (elements : List Literal) :
    Free separator (elementRow location elements) :=
  free_separated (by simpa [Item.is] using notComma.symm) (free_rows other elements)

theorem elements_elementRow (elements : List Literal) :
    Group.elements opening (elementRow location elements) =
      .ok (Literal.trees location elements) := by
  by_cases none : elements = []
  · subst none
    rfl
  · have someRows : rows location elements ≠ [] := by
      rw [rows, ne_eq, List.map_eq_nil_iff]
      exact none
    refine elements_of_segments (elementRow_ne_nil none) ?_
    refine commaSegments_separated someRows (free_rows (by decide) elements) ?_
    intro part found
    obtain ⟨literal, -, rfl⟩ := List.mem_map.mp found
    exact items_ne_nil literal

/-! ### Closing the brackets of a container -/

theorem close_list (elements : List Literal) :
    close ⟨.square, location⟩ none (elementRow location elements) =
      .ok (.list location (Literal.trees location elements)) := by
  have noLoop : cutAt? (fun item => item.is (.keyword .forWord) || item.is (.keyword .ofWord))
      (elementRow location elements) = none := by
    refine cutAt?_eq_none fun item found => ?_
    rw [free_elementRow (by decide) (by decide) elements item found,
      free_elementRow (by decide) (by decide) elements item found]
    rfl
  change squareDisplay ⟨.square, location⟩ (elementRow location elements) = _
  rw [squareDisplay, noLoop]
  dsimp only
  rw [elements_elementRow]
  rfl

theorem holds_eq_false {row : List Item} {lexeme : Lexeme} (free : Free lexeme row) :
    holds row lexeme = false :=
  List.any_eq_false.mpr fun item found => by simp [free item found]

/-- A comma makes a tuple of a single element; without elements no comma is needed, and with
several there is one anyway. -/
theorem close_tuple (elements : List Literal) :
    close ⟨.paren, location⟩ none (elementRow location elements ++
        Literal.trailing (.token ⟨.symbol .comma, location⟩) elements) =
      .ok (.tuple location (Literal.trees location elements)) := by
  change parenthesized ⟨.paren, location⟩ _ = _
  match elements with
  | [] => rfl
  | [single] =>
    have found : Group.elements ⟨.paren, location⟩
        (single.items location ++ [.token ⟨.symbol .comma, location⟩]) =
        .ok (Literal.trees location [single]) :=
      elements_of_segments (by simp) (commaSegments_single (free_items single (by decide)))
    have comma : holds (single.items location ++ [.token ⟨.symbol .comma, location⟩])
        (.symbol .comma) = true := by
      simp [holds, Item.is]
    change parenthesized ⟨.paren, location⟩
      (single.items location ++ [.token ⟨.symbol .comma, location⟩]) = _
    rw [parenthesized, found]
    simp only [Literal.trees, bind, Except.bind, comma, if_true]
  | first :: second :: rest =>
    have plain : Literal.trailing (.token ⟨.symbol .comma, location⟩)
        (first :: second :: rest) = ([] : List Item) := by
      simp [Literal.trailing]
    rw [plain, List.append_nil, parenthesized, elements_elementRow]
    rfl

theorem close_set {elements : List Literal} (some : elements ≠ []) :
    close ⟨.brace, location⟩ none (elementRow location elements) =
      .ok (.set location (Literal.trees location elements)) := by
  change braceDisplay ⟨.brace, location⟩ (elementRow location elements) = _
  rw [braceDisplay, if_neg (by simp [elementRow_ne_nil some]),
    holds_eq_false (free_elementRow (by decide) (by decide) elements),
    if_neg Bool.false_ne_true, elements_elementRow]
  rfl

/-- The rows of the entries of a dict. -/
def entryRows (location : Location) (entries : List (Literal × Literal)) : List (List Item) :=
  entries.map (Literal.entryItems location)

/-- The row of the entries of a dict. -/
def entryRow (location : Location) (entries : List (Literal × Literal)) : List Item :=
  separated [.token ⟨.symbol .comma, location⟩] (entryRows location entries)

theorem entry_entryItems (pair : Literal × Literal) :
    entry opening (pair.1.items location ++ .token ⟨.symbol .colon, location⟩ ::
      pair.2.items location) = .ok (pair.1.tree location, pair.2.tree location) := by
  have cut : split (.symbol .colon) (pair.1.items location ++
      .token ⟨.symbol .colon, location⟩ :: pair.2.items location) =
      [pair.1.items location, pair.2.items location] := by
    rw [split_append (free_items pair.1 (by decide)) (by simp [Item.is]),
      split_free (free_items pair.2 (by decide))]
  rw [entry, cut]
  dsimp only
  rw [if_neg (by simp [items_ne_nil]), Ladder.reduce_items, Ladder.reduce_items]
  rfl

theorem free_entryItems (pair : Literal × Literal) :
    Free (.symbol .comma) (Literal.entryItems location pair) := by
  intro item found
  rw [Literal.entryItems, List.mem_append, List.mem_cons] at found
  obtain found | rfl | found := found
  · exact free_items pair.1 (by decide) item found
  · simp [Item.is]
  · exact free_items pair.2 (by decide) item found

theorem mapM_entryRows (entries : List (Literal × Literal)) :
    (entryRows location entries).mapM (entry opening) =
      .ok (Literal.treesOfEntries location entries) := by
  induction entries with
  | nil => rfl
  | cons pair rest inductionHypothesis =>
    rw [entryRows] at inductionHypothesis ⊢
    rw [List.map_cons, List.mapM_cons, Literal.entryItems, entry_entryItems, inductionHypothesis]
    rfl

theorem close_dict (entries : List (Literal × Literal)) :
    close ⟨.brace, location⟩ none (entryRow location entries) =
      .ok (.dict location (Literal.treesOfEntries location entries)) := by
  change braceDisplay ⟨.brace, location⟩ (entryRow location entries) = _
  cases entries with
  | nil => rfl
  | cons pair rest =>
    have colon : holds (entryRow location (pair :: rest)) (.symbol .colon) = true := by
      refine List.any_eq_true.mpr ⟨.token ⟨.symbol .colon, location⟩, ?_, by simp [Item.is]⟩
      have first : Item.token ⟨.symbol .colon, location⟩ ∈ Literal.entryItems location pair :=
        List.mem_append_right _ List.mem_cons_self
      cases rest with
      | nil => exact first
      | cons =>
        rw [entryRow, entryRows, List.map_cons, List.map_cons, separated]
        exact List.mem_append_left _ (List.mem_append_left _ first)
    have filled : entryRow location (pair :: rest) ≠ [] := by
      intro none
      rw [none] at colon
      cases colon
    have cut : commaSegments (entryRow location (pair :: rest)) =
        entryRows location (pair :: rest) := by
      refine commaSegments_separated (List.cons_ne_nil _ _) ?_ ?_
      · intro part found
        obtain ⟨literal, -, rfl⟩ := List.mem_map.mp found
        exact free_entryItems literal
      · intro part found
        obtain ⟨literal, -, rfl⟩ := List.mem_map.mp found
        exact List.append_ne_nil_of_right_ne_nil _ (List.cons_ne_nil _ _)
    rw [braceDisplay, if_neg (by simp [filled]), if_pos colon, cut, mapM_entryRows]
    rfl

end Displays

end Group

namespace Row

variable {location : Location}

theorem settled_rows (elements : List Literal) :
    ∀ part ∈ Group.rows location elements, Settled part := by
  intro part found
  obtain ⟨literal, -, rfl⟩ := List.mem_map.mp found
  exact Group.settled_items literal

theorem settled_entryRows (entries : List (Literal × Literal)) :
    ∀ part ∈ Group.entryRows location entries, Settled part := by
  intro part found
  obtain ⟨pair, -, rfl⟩ := List.mem_map.mp found
  exact ((Group.settled_items pair.2).append [_]).append _

mutual

/-- A literal adds its items to the row in which it stands. -/
theorem collects_lexemes : (literal : Literal) → literal.WellFormed →
    Collects location literal.lexemes (literal.items location)
  | .none, _ => collects_operand (show Kind.keyword .noneWord ∉ listStop by decide) rfl
  | .bool _, _ => collects_operand (show Kind.boolean ∉ listStop by decide) rfl
  | .int _, written => collects_int location written
  | .str _, _ => collects_operand (show Kind.string ∉ listStop by decide) rfl
  | .list elements, wellFormed =>
    (collectsIn_separated (collects_lexemesOf .square elements wellFormed)
      (settled_rows elements)).grouped (wantsName_separated (settled_rows elements))
      (Group.close_list elements)
  | .tuple elements, wellFormed => by
    have collects := collectsIn_separated (collects_lexemesOf .paren elements wellFormed)
      (settled_rows elements)
    have settled (some : elements ≠ []) : Settled (Group.elementRow location elements) :=
      settled_separated (by simpa [Group.rows] using some) (settled_rows elements)
    exact (collects.trailing settled).grouped
      (wantsName_trailing elements (wantsName_separated (settled_rows elements)))
      (Group.close_tuple elements)
  | .dict entries, ⟨wellFormed, _⟩ =>
    (collectsIn_separated (collects_lexemesOfEntries entries wellFormed)
      (settled_entryRows entries)).grouped (wantsName_separated (settled_entryRows entries))
      (Group.close_dict entries)
  | .set elements, ⟨nonempty, wellFormed, _⟩ =>
    (collectsIn_separated (collects_lexemesOf .brace elements wellFormed)
      (settled_rows elements)).grouped (wantsName_separated (settled_rows elements))
      (Group.close_set nonempty)

theorem collects_lexemesOf (bracket : Bracket) : (elements : List Literal) →
    Literal.WellFormedAll elements →
    List.Forall₂ (CollectsIn bracket location) (Literal.lexemesOf elements)
      (Group.rows location elements)
  | [], _ => .nil
  | first :: rest, ⟨firstWellFormed, restWellFormed⟩ =>
    .cons ((collects_lexemes first firstWellFormed).inside bracket)
      (collects_lexemesOf bracket rest restWellFormed)

theorem collects_lexemesOfEntries : (entries : List (Literal × Literal)) →
    Literal.WellFormedEntries entries →
    List.Forall₂ (CollectsIn .brace location) (Literal.lexemesOfEntries entries)
      (Group.entryRows location entries)
  | [], _ => .nil
  | (key, value) :: rest, ⟨keyWellFormed, _, valueWellFormed, restWellFormed⟩ =>
    .cons (((collects_lexemes key keyWellFormed).inside .brace).separate
        (Group.settled_items key) rfl rfl (open_colon location)
        ((collects_lexemes value valueWellFormed).inside .brace))
      (collects_lexemesOfEntries rest restWellFormed)

end

end Row

namespace Reading

/-! ### One line -/

/-- A reading succeeds with a value and leaves the rest of the stream. -/
def Consumes {α : Type} (reading : Reading α) (stream : Stream) (value : α) (rest : Stream) :
    Prop :=
  ∃ bound, reading stream = .ok (value, ⟨rest, bound⟩)

section Steps

variable {α β : Type} {stream middle rest : Stream}

theorem consumes_pure (value : α) (stream : Stream) : Consumes (pure value) stream value stream :=
  ⟨Nat.le_refl _, rfl⟩

theorem Consumes.bind {first : Reading α} {next : α → Reading β} {value : α} {result : β}
    (consumes : Consumes first stream value middle)
    (after : Consumes (next value) middle result rest) :
    Consumes (first >>= next) stream result rest := by
  obtain ⟨bound, read⟩ := consumes
  obtain ⟨further, readNext⟩ := after
  refine ⟨Nat.le_trans further bound, ?_⟩
  simp only [Bind.bind, read, readNext]

theorem consumes_peek (head : Token) (rest : Stream) :
    Consumes peek (.token head rest) (some head) (.token head rest) :=
  ⟨Nat.le_refl _, rfl⟩

theorem consumes_here (head : Token) (rest : Stream) :
    Consumes here (.token head rest) head.location (.token head rest) :=
  (consumes_peek head rest).bind (consumes_pure _ _)

theorem consumes_isNext (kind : Kind) (head : Token) (rest : Stream) :
    Consumes (isNext kind) (.token head rest) (decide (head.kind = kind)) (.token head rest) :=
  (consumes_peek head rest).bind (consumes_pure _ _)

theorem consumes_advance {head : Token} (ready : ahead rest = .ok ()) :
    Consumes advance (.token head rest) () rest := by
  refine ⟨Nat.le_succ _, ?_⟩
  rw [advance, ready]

theorem consumes_lift {result : Except ParseError α} {value : α} (found : result = .ok value)
    (stream : Stream) : Consumes (lift result) stream value stream := by
  subst found
  exact ⟨Nat.le_refl _, rfl⟩

theorem consumes_row {stop : List Kind} {items : List Item}
    (collected : Row.collect stop [] [] stream = .ok (items, rest)) :
    Consumes (row stop) stream items rest := by
  refine ⟨Row.size_of_collect collected, ?_⟩
  unfold row
  split
  next same =>
    rw [collected] at same
    cases same
    rfl
  next same =>
    rw [collected] at same
    cases same

/-- One item that no comma follows is all there is. -/
theorem consumes_commaSeparated {item : List α → Reading α} {ends : Token → Bool} {value : α}
    {head : Token} (consumes : Consumes (item []) stream value (.token head rest))
    (noComma : head.lexeme ≠ .symbol .comma) :
    Consumes (commaSeparated item ends []) stream ([value], false) (.token head rest) := by
  obtain ⟨bound, read⟩ := consumes
  refine (Lists.last read fun location after same => noComma ?_).exists_eq
  obtain ⟨rfl, -⟩ := Stream.token.inj same
  rfl

end Steps

/-! ### A literal on a line -/

variable (location : Location)

/-- The token that closes a line. -/
abbrev lineEnd (location : Location) : Token :=
  ⟨.endOfLine, location⟩

theorem collect_line {literal : Literal} (wellFormed : literal.WellFormed) (after : Stream) :
    Row.collect Row.listStop [] []
        (Stream.onto location literal.lexemes (.token (lineEnd location) after)) =
      .ok (literal.items location, .token (lineEnd location) after) := by
  have stays : (lineEnd location).kind ∉ Row.listStop :=
    show Kind.endOfLine ∉ Row.listStop by decide
  have wants : Row.wantsName (literal.items location).reverse = false := by
    rw [← List.append_nil (literal.items location).reverse]
    exact Group.settled_items literal []
  rw [Row.collects_lexemes literal wellFormed [] [] _ Row.open_nil rfl, List.append_nil,
    Row.collect, if_neg (by simp [stays]), if_neg (by simp [wants])]
  change Except.ok ((literal.items location).reverse.reverse, _) = _
  rw [List.reverse_reverse]

/-- A literal starts like no line but one that holds an expression. -/
theorem lexemes_head (literal : Literal) :
    ∃ first rest, literal.lexemes = first :: rest ∧ first ≠ .endOfLine ∧
      ∀ word, first = .keyword word → word = .noneWord := by
  cases literal with
  | none => exact ⟨_, _, rfl, by decide, fun word same => by cases same; rfl⟩
  | bool value => exact ⟨_, _, rfl, by simp, fun word same => by cases same⟩
  | int value =>
    rw [Literal.lexemes, Literal.lexemesOfInt]
    split
    · exact ⟨_, _, rfl, by simp, fun word same => by cases same⟩
    · exact ⟨_, _, rfl, by simp, fun word same => by cases same⟩
  | str value => exact ⟨_, _, rfl, by simp, fun word same => by cases same⟩
  | list elements => exact ⟨_, _, rfl, by simp, fun word same => by cases same⟩
  | tuple elements => exact ⟨_, _, rfl, by simp, fun word same => by cases same⟩
  | dict entries => exact ⟨_, _, rfl, by simp, fun word same => by cases same⟩
  | set elements => exact ⟨_, _, rfl, by simp, fun word same => by cases same⟩

section OneLine

variable {literal : Literal} (wellFormed : literal.WellFormed) (after : Stream)

include wellFormed

theorem consumes_expression :
    Consumes (expression Row.listStop)
      (Stream.onto location literal.lexemes (.token (lineEnd location) after))
      (literal.tree location) (.token (lineEnd location) after) := by
  have collected := collect_line location wellFormed after
  obtain ⟨first, rest, starts, -⟩ := lexemes_head literal
  rw [starts, Stream.onto_cons] at collected ⊢
  refine (consumes_here _ _).bind ((consumes_row collected).bind ?_)
  split
  next none => exact absurd none (Group.items_ne_nil literal)
  next => exact consumes_lift (Ladder.reduce_items location literal) _

theorem consumes_expressionList :
    Consumes (expressionList [.symbol .assign])
      (Stream.onto location literal.lexemes (.token (lineEnd location) after))
      (literal.tree location) (.token (lineEnd location) after) := by
  have consumes := consumes_expression location wellFormed after
  obtain ⟨first, rest, starts, -⟩ := lexemes_head literal
  rw [starts, Stream.onto_cons] at consumes ⊢
  refine (consumes_here _ _).bind ((consumes_commaSeparated consumes ?_).bind (consumes_pure _ _))
  exact fun impossible => by cases impossible

theorem consumes_statement :
    Consumes Line.expressionOrAssignment
      (Stream.onto location literal.lexemes (.token (lineEnd location) after))
      (.expression (literal.tree location)) (.token (lineEnd location) after) := by
  refine (consumes_expressionList location wellFormed after).bind ((consumes_isNext _ _ _).bind ?_)
  exact consumes_pure _ _

theorem consumes_afterIndentation (ready : ahead after = .ok ()) :
    Consumes (Line.afterIndentation 0)
      (Stream.onto location literal.lexemes (.token (lineEnd location) after))
      (some ⟨0, location, .simple (.expression (literal.tree location))⟩) after := by
  have statement := consumes_statement location wellFormed after
  obtain ⟨first, rest, starts, content, words⟩ := lexemes_head literal
  rw [starts, Stream.onto_cons] at statement ⊢
  have ended : Consumes endOfLine (.token (lineEnd location) after) () after :=
    (consumes_peek _ _).bind (consumes_advance ready)
  have filled : Consumes (Line.readContent ⟨first, location⟩)
      (.token ⟨first, location⟩ (Stream.onto location rest (.token (lineEnd location) after)))
      (.simple (.expression (literal.tree location))) after := by
    unfold Line.readContent
    cases first with
    | keyword word =>
      cases words word rfl
      exact statement.bind (ended.bind (consumes_pure _ _))
    | _ => exact statement.bind (ended.bind (consumes_pure _ _))
  refine (consumes_peek _ _).bind ?_
  cases first with
  | endOfLine => exact absurd rfl content
  | _ => exact filled.bind (consumes_pure _ _)

end OneLine

end Reading

/-! ### Whole programs -/

theorem Block.group_single (location : Location) (expression : Expr) :
    Block.group [⟨0, location, .simple (.expression expression)⟩] =
      .ok [.simple location (.expression expression)] := by
  simp [Block.group, Block.sequence, Block.statement, Block.simple]

theorem Line.read_of_consumes (location : Location) {stream rest : Stream} {line : Option Line}
    (ready : Reading.ahead stream = .ok ())
    (consumes : Reading.Consumes (Line.afterIndentation 0) stream line rest) :
    ∃ bound, Line.read (.token ⟨.indentation "", location⟩ stream) = .ok (line, ⟨rest, bound⟩) := by
  obtain ⟨bound, read⟩ := consumes
  refine ⟨Nat.lt_succ_of_le bound, ?_⟩
  change (Reading.ahead stream >>= fun _ => Line.afterIndentation 0 stream >>= _) = _
  rw [ready, read]
  rfl

theorem Line.readAll_literal (location : Location) {literal : Literal}
    (wellFormed : literal.WellFormed) :
    Line.readAll (Stream.onto location
        (.indentation "" :: (literal.lexemes ++ [.endOfLine, .endOfFile])) .ended) =
      ([some ⟨0, location, .simple (.expression (literal.tree location))⟩], none) := by
  have ready : Reading.ahead (Stream.onto location literal.lexemes
      (.token (Reading.lineEnd location) (.token ⟨.endOfFile, location⟩ .ended))) = .ok () :=
    Row.ahead_onto location literal.lexemes rfl
  obtain ⟨bound, first⟩ := Line.read_of_consumes location ready
    (Reading.consumes_afterIndentation location wellFormed _ rfl)
  have last : Line.readAll (.token ⟨.endOfFile, location⟩ .ended) = ([], none) := by
    rw [Line.readAll]
  rw [Stream.onto_cons, Stream.onto_append, Stream.onto_cons, Stream.onto_cons, Stream.onto_nil,
    Line.readAll, first]
  · dsimp only
    rw [last]
  · intro _ _ impossible
    cases impossible

/-- A text that is a literal is a program of one expression. -/
theorem Program.parse_text (file : String) {literal : Literal} (wellFormed : literal.WellFormed) :
    Program.parse file literal.text =
      .ok [.simple ⟨file, 1⟩ (.expression (literal.tree ⟨file, 1⟩))] := by
  rw [Program.parse, Lexer.stream_text, Line.readAll_literal _ wellFormed]
  simp only [List.filterMap_cons, id_eq, List.filterMap_nil, Block.group_single]

end Offside
