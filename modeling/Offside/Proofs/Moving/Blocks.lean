/-
This file compares how lines and moved lines are grouped into blocks. Grouping looks at the
depths and the headers of lines, which do not move, so the same statements result at moved
places. Each function of the grouping is compared with itself; all of them use up fewer lines
than they are given, and the number of lines is what the induction is on.
-/

import Offside.Proofs.Moving.Lines

namespace Offside

variable {move : Location → Location}

/-! ### Moved statements -/

mutual

/-- The same statement at moved places. -/
def Stmt.relocate (move : Location → Location) : Stmt → Stmt
  | .simple location action => .simple (move location) (action.relocate move)
  | .choice location branches otherwise =>
    .choice (move location) (Branch.relocateAll move branches) (Stmt.relocateElse move otherwise)
  | .whileLoop location condition body otherwise =>
    .whileLoop (move location) (condition.relocate move) (Stmt.relocateAll move body)
      (Stmt.relocateElse move otherwise)
  | .forLoop location target iterable body otherwise =>
    .forLoop (move location) (target.relocate move) (iterable.relocate move)
      (Stmt.relocateAll move body) (Stmt.relocateElse move otherwise)
  | .attempt location body handlers otherwise cleanup =>
    .attempt (move location) (Stmt.relocateAll move body) (Handler.relocateAll move handlers)
      (Stmt.relocateElse move otherwise) (Stmt.relocateElse move cleanup)
  | .functionDef location name parameters body =>
    .functionDef (move location) name (parameters.map (Parameter.relocate move))
      (Stmt.relocateAll move body)
  | .classDef location name base body =>
    .classDef (move location) name (base.map (Expr.relocate move)) (Stmt.relocateAll move body)

def Stmt.relocateAll (move : Location → Location) : List Stmt → List Stmt
  | [] => []
  | first :: rest => first.relocate move :: Stmt.relocateAll move rest

def Stmt.relocateElse (move : Location → Location) : Option (List Stmt) → Option (List Stmt)
  | none => none
  | some body => some (Stmt.relocateAll move body)

def Branch.relocateAll (move : Location → Location) : List Branch → List Branch
  | [] => []
  | .mk location condition body :: rest =>
    .mk (move location) (condition.relocate move) (Stmt.relocateAll move body) ::
      Branch.relocateAll move rest

def Handler.relocateAll (move : Location → Location) : List Handler → List Handler
  | [] => []
  | .mk location class? name body :: rest =>
    .mk (move location) (class?.map (Expr.relocate move)) name (Stmt.relocateAll move body) ::
      Handler.relocateAll move rest

end

/-- The same program at moved places. -/
abbrev Program.relocate (move : Location → Location) (program : Program) : Program :=
  Stmt.relocateAll move program

namespace Block

/-- The second rest is the first at moved places. -/
def Moved (move : Location → Location) {lines linesToo : List Line} (left : Rest lines)
    (leftToo : Rest linesToo) : Prop :=
  leftToo.1 = left.1.map (Line.relocate move)

theorem headerAt?_relocate (line : Line) (depth : Nat) :
    Line.headerAt? (line.relocate move) depth =
      (Line.headerAt? line depth).map (Header.relocate move) := by
  obtain ⟨found, location, content⟩ := line
  unfold Line.headerAt? Line.relocate
  dsimp only
  split
  · cases content <;> rfl
  · rfl

theorem nextHeader?_relocate (depth : Nat) (lines : List Line) :
    nextHeader? depth (lines.map (Line.relocate move)) =
      (nextHeader? depth lines).map (Header.relocate move) := by
  cases lines with
  | nil => rfl
  | cons line rest => exact headerAt?_relocate line depth

/-- The header of a clause that may be missing has no place in it. -/
theorem nextHeader?_relocate_eq_some {depth : Nat} {lines : List Line} {header : Header}
    (placeless : header = .otherwise ∨ header = .cleanup) :
    nextHeader? depth (lines.map (Line.relocate move)) = some header ↔
      nextHeader? depth lines = some header := by
  rw [nextHeader?_relocate]
  cases nextHeader? depth lines with
  | none => rfl
  | some found =>
    obtain rfl | rfl := placeless
    all_goals cases found <;> simp [Header.relocate]

theorem simple_parallel (place : Place) (location : Location) (action : Simple) :
    Parallel (Stmt.relocate move) (simple place location action)
      (simple place (move location) (action.relocate move)) := by
  have stands : Parallel (Stmt.relocate move) (.ok (.simple location action) : Except ParseError _)
      (.ok (.simple (move location) (action.relocate move))) :=
    .ok (Stmt.simple location action)
  cases action with
  | breakLoop | continueLoop | returnValue =>
    rw [simple, Simple.relocate, simple]
    split
    · exact stands
    · exact .error _ _
  | _ => exact stands

/-- A step after one that leaves moved lines. -/
theorem bind_moved {α β γ δ σ τ : Type} {change : α → β} {further : γ → δ}
    {leaves : σ → τ → Prop} {lines linesToo : List Line}
    {first : Except ParseError (α × Rest lines)} {second : Except ParseError (β × Rest linesToo)}
    {next : α × Rest lines → Except ParseError (γ × σ)}
    {nextToo : β × Rest linesToo → Except ParseError (δ × τ)}
    (abreast : Abreast change (Moved move) first second)
    (goesOn : ∀ value left bound boundToo, Abreast further leaves (next (value, ⟨left, bound⟩))
      (nextToo (change value, ⟨left.map (Line.relocate move), boundToo⟩))) :
    Abreast further leaves (first >>= next) (second >>= nextToo) := by
  refine abreast.bind fun value left leftToo moved => ?_
  obtain ⟨left, bound⟩ := left
  obtain ⟨leftToo, boundToo⟩ := leftToo
  obtain rfl : leftToo = left.map (Line.relocate move) := moved
  exact goesOn value left bound boundToo

/-- A step that uses up no line. -/
theorem unused_abreast {α β : Type} {change : α → β} (value : α) (lines : List Line) :
    Abreast change (Moved move)
      (.ok (value, ⟨lines, Nat.le_refl _⟩) : Except ParseError (α × Rest lines))
      (.ok (change value, ⟨lines.map (Line.relocate move), Nat.le_refl _⟩) :
        Except ParseError (β × Rest (lines.map (Line.relocate move)))) :=
  .ok value rfl

/-- Sequences of fewer than `count` lines are grouped alike. -/
def SequencesAlike (move : Location → Location) (count : Nat) : Prop :=
  ∀ (place : Place) (depth : Nat) (lines : List Line), lines.length < count →
    Abreast (Stmt.relocateAll move) (Moved move) (sequence place depth lines)
      (sequence place depth (lines.map (Line.relocate move)))

section

variable {count : Nat} (alike : SequencesAlike move count)
include alike

theorem body_abreast (place : Place) (line : Line) (header headerToo : Header)
    {lines : List Line} (short : lines.length < count) :
    Abreast (Stmt.relocateAll move) (Moved move) (body place line header lines)
      (body place (line.relocate move) headerToo (lines.map (Line.relocate move))) := by
  cases lines with
  | nil =>
    rw [List.map_nil, body, body]
    exact .error _ _
  | cons first rest =>
    have abreast : Abreast (Stmt.relocateAll move) (Moved move)
        (sequence place first.depth (first :: rest))
        (sequence place (first.relocate move).depth
          (first.relocate move :: rest.map (Line.relocate move))) :=
      alike place first.depth (first :: rest) short
    rw [List.map_cons, body, body]
    change Abreast _ _ (if first.depth ≤ line.depth then _ else _)
      (if first.depth ≤ line.depth then _ else _)
    split
    · exact .error _ _
    generalize sequence place first.depth (first :: rest) = given at abreast ⊢
    generalize sequence place (first.relocate move).depth
      (first.relocate move :: rest.map (Line.relocate move)) = givenToo at abreast ⊢
    cases abreast with
    | error => exact .error _ _
    | @ok statements left leftToo moved =>
      obtain ⟨left, bound⟩ := left
      obtain ⟨leftToo, boundToo⟩ := leftToo
      obtain rfl : leftToo = left.map (Line.relocate move) := moved
      cases left with
      | nil => exact .ok statements rfl
      | cons after left =>
        change Abreast _ _ (if line.depth < after.depth then _ else _)
          (if line.depth < after.depth then _ else _)
        split
        · exact .error _ _
        · exact .ok statements rfl

theorem ReadsClause.abreast {place : Place} {depth : Nat} {header : Header}
    {clause : (lines : List Line) → Except ParseError (Option (List Stmt) × Rest lines)}
    (reads : ReadsClause place depth header clause)
    (placeless : header = .otherwise ∨ header = .cleanup) {lines : List Line}
    (short : lines.length ≤ count) :
    Abreast (Stmt.relocateElse move) (Moved move) (clause lines)
      (clause (lines.map (Line.relocate move))) := by
  have same : nextHeader? depth (lines.map (Line.relocate move)) = some header ↔
      nextHeader? depth lines = some header :=
    nextHeader?_relocate_eq_some placeless
  by_cases next : nextHeader? depth lines = some header
  · cases lines with
    | nil => simp [nextHeader?] at next
    | cons line rest =>
      rw [List.map_cons, reads.stands next, reads.stands (same.mpr next)]
      refine (body_abreast alike place line header header short).bind
        fun block left leftToo moved => ?_
      exact .ok (some block) moved
  · rw [reads.missing next, reads.missing (mt same.mp next)]
    exact unused_abreast none lines

theorem attemptElse_abreast (place : Place) (depth : Nat) (unhandled : Bool) {lines : List Line}
    (short : lines.length ≤ count) :
    Abreast (Stmt.relocateElse move) (Moved move) (attemptElse place depth unhandled lines)
      (attemptElse place depth unhandled (lines.map (Line.relocate move))) := by
  cases unhandled with
  | false => exact (attemptElse_reads place depth).abreast alike (.inl rfl) short
  | true =>
    have same : nextHeader? depth (lines.map (Line.relocate move)) = some .otherwise ↔
        nextHeader? depth lines = some .otherwise :=
      nextHeader?_relocate_eq_some (.inl rfl)
    by_cases next : nextHeader? depth lines = some .otherwise
    · cases lines with
      | nil => simp [nextHeader?] at next
      | cons line rest =>
        rw [List.map_cons, attemptElse_refused place next,
          attemptElse_refused place (same.mpr next)]
        exact .error _ _
    · rw [attemptElse_of_ne place true next, attemptElse_of_ne place true (mt same.mp next)]
      exact unused_abreast none lines

theorem branches_abreast (place : Place) (depth : Nat) {lines : List Line}
    (short : lines.length ≤ count) :
    Abreast (Branch.relocateAll move) (Moved move) (branches place depth lines)
      (branches place depth (lines.map (Line.relocate move))) := by
  induction size : lines.length using Nat.strongRecOn generalizing lines with
  | ind length inductionHypothesis =>
    cases lines with
    | nil =>
      rw [List.map_nil, branches]
      exact unused_abreast [] []
    | cons line rest =>
      rw [List.map_cons, branches, branches, headerAt?_relocate]
      cases Line.headerAt? line depth with
      | none => exact unused_abreast [] (line :: rest)
      | some header =>
        cases header with
        | elseIf condition =>
          refine bind_moved (body_abreast alike place line (.elseIf condition)
            (.elseIf (condition.relocate move)) short) fun block left bound boundToo => ?_
          have fewer : left.length < length := size ▸ Nat.lt_succ_of_le bound
          refine (inductionHypothesis _ fewer (by omega) rfl).bind
            fun others last lastToo moved => ?_
          exact .ok (Branch.mk line.location condition block :: others) moved
        | _ => exact unused_abreast [] (line :: rest)

theorem handlers_abreast (place : Place) (depth : Nat) (bare : Option Location)
    {lines : List Line} (short : lines.length ≤ count) :
    Abreast (Handler.relocateAll move) (Moved move) (handlers place depth bare lines)
      (handlers place depth (bare.map move) (lines.map (Line.relocate move))) := by
  induction size : lines.length using Nat.strongRecOn generalizing lines bare with
  | ind length inductionHypothesis =>
    cases lines with
    | nil =>
      rw [List.map_nil, handlers, handlers]
      exact unused_abreast [] []
    | cons line rest =>
      rw [List.map_cons, handlers, handlers, headerAt?_relocate]
      cases Line.headerAt? line depth with
      | none => exact unused_abreast [] (line :: rest)
      | some header =>
        cases header with
        | handle class? name =>
          cases bare with
          | some location => exact .error _ _
          | none =>
            refine bind_moved (body_abreast alike place line (.handle class? name)
              (.handle (class?.map (Expr.relocate move)) name) short)
              fun block left bound boundToo => ?_
            have fewer : left.length < length := size ▸ Nat.lt_succ_of_le bound
            have ends : (if class?.isNone then some line.location else none).map move =
                if (class?.map (Expr.relocate move)).isNone then
                  some (line.relocate move).location else none := by
              cases class? <;> rfl
            have more := inductionHypothesis _ fewer
              (if class?.isNone then some line.location else none) (by omega) rfl
            rw [ends] at more
            refine more.bind fun others last lastToo moved => ?_
            exact .ok (Handler.mk line.location class? name block :: others) moved
        | _ => exact unused_abreast [] (line :: rest)

omit alike in
theorem isEmpty_relocateAll (handlers : List Handler) :
    (Handler.relocateAll move handlers).isEmpty = handlers.isEmpty := by
  cases handlers with
  | nil => rfl
  | cons handler rest =>
    cases handler
    rfl

omit alike in
theorem isNone_relocateElse (body : Option (List Stmt)) :
    (Stmt.relocateElse move body).isNone = body.isNone := by
  cases body <;> rfl

theorem statement_abreast (place : Place) (line : Line) {lines : List Line}
    (short : lines.length < count) :
    Abreast (Stmt.relocate move) (Moved move) (statement place line lines)
      (statement place (line.relocate move) (lines.map (Line.relocate move))) := by
  obtain ⟨depth, location, content⟩ := line
  rw [statement, statement]
  cases content with
  | simple action =>
    have parallel : Parallel (Stmt.relocate move) (simple place location action)
        (simple place (move location) (action.relocate move)) :=
      simple_parallel place location action
    dsimp only [Line.relocate, Content.relocate]
    generalize simple place location action = given at parallel ⊢
    generalize simple place (move location) (action.relocate move) = givenToo at parallel ⊢
    cases parallel with
    | ok found => exact unused_abreast found lines
    | error => exact .error _ _
  | header header =>
    cases header with
    | ifTrue condition =>
      refine bind_moved (body_abreast alike place _ _ _ short) fun first rest bound _ => ?_
      refine bind_moved (branches_abreast alike place depth (by omega))
        fun others rest1 bound1 _ => ?_
      refine ((elseClause_reads place depth).abreast alike (.inl rfl) (by omega)).bind
        fun otherwise left leftToo moved => ?_
      exact .ok (Stmt.choice location (.mk location condition first :: others) otherwise) moved
    | whileTrue condition =>
      refine bind_moved (body_abreast alike place.loop _ _ _ short) fun body rest bound _ => ?_
      refine ((elseClause_reads place depth).abreast alike (.inl rfl) (by omega)).bind
        fun otherwise left leftToo moved => ?_
      exact .ok (Stmt.whileLoop location condition body otherwise) moved
    | forEach target iterable =>
      refine bind_moved (body_abreast alike place.loop _ _ _ short) fun body rest bound _ => ?_
      refine ((elseClause_reads place depth).abreast alike (.inl rfl) (by omega)).bind
        fun otherwise left leftToo moved => ?_
      exact .ok (Stmt.forLoop location target iterable body otherwise) moved
    | attempt =>
      refine bind_moved (body_abreast alike place _ _ _ short) fun body rest bound _ => ?_
      refine bind_moved (handlers_abreast alike place depth none (by omega))
        fun handlers rest1 bound1 _ => ?_
      dsimp only
      rw [isEmpty_relocateAll]
      refine bind_moved (attemptElse_abreast alike place depth handlers.isEmpty (by omega))
        fun otherwise rest2 bound2 _ => ?_
      have fits : rest2.length ≤ count := by omega
      refine ((finallyClause_reads place depth).abreast alike (.inr rfl) fits).bind
        fun cleanup left leftToo moved => ?_
      dsimp only
      rw [isNone_relocateElse]
      split
      · exact .error _ _
      · exact .ok (Stmt.attempt location body handlers otherwise cleanup) moved
    | function name parameters =>
      refine (body_abreast alike .function _ _ _ short).bind fun body left leftToo moved => ?_
      exact .ok (Stmt.functionDef location name parameters body) moved
    | klass name base =>
      refine (body_abreast alike .klass _ _ _ short).bind fun body left leftToo moved => ?_
      exact .ok (Stmt.classDef location name base body) moved
    | elseIf | otherwise | handle | cleanup => exact .error _ _

end

theorem sequences_alike (move : Location → Location) (count : Nat) : SequencesAlike move count := by
  induction count with
  | zero => exact fun _ _ _ short => absurd short (Nat.not_lt_zero _)
  | succ count alike =>
    intro place depth lines short
    cases lines with
    | nil =>
      rw [List.map_nil, sequence]
      exact unused_abreast [] []
    | cons line rest =>
      rw [List.map_cons, sequence, sequence]
      rw [List.length_cons] at short
      change Abreast _ _ (if line.depth < depth then _ else if depth < line.depth then _ else _)
        (if line.depth < depth then _ else if depth < line.depth then _ else _)
      split
      · exact unused_abreast [] (line :: rest)
      split
      · exact .error _ _
      have start : Abreast (Stmt.relocate move) (Moved move) (statement place line rest)
          (statement place (line.relocate move) (rest.map (Line.relocate move))) :=
        statement_abreast alike place line (Nat.lt_of_succ_lt_succ short)
      generalize statement place line rest = given at start ⊢
      generalize statement place (line.relocate move) (rest.map (Line.relocate move)) = givenToo
        at start ⊢
      cases start with
      | error => exact .error _ _
      | @ok first middle middleToo moved =>
        obtain ⟨middle, bound⟩ := middle
        obtain ⟨middleToo, boundToo⟩ := middleToo
        obtain rfl : middleToo = middle.map (Line.relocate move) := moved
        have further := alike place depth middle (by omega)
        dsimp only
        generalize sequence place depth middle = given at further ⊢
        generalize sequence place depth (middle.map (Line.relocate move)) = givenToo at further ⊢
        cases further with
        | error => exact .error _ _
        | ok others moved => exact .ok (first :: others) moved

/-- The statements of moved lines are the moved statements. -/
theorem group_parallel (lines : List Line) :
    Parallel (Stmt.relocateAll move) (group lines) (group (lines.map (Line.relocate move))) := by
  cases lines with
  | nil => exact .ok []
  | cons first rest =>
    have abreast := sequences_alike move _ .top 0 (first :: rest) (Nat.lt_succ_self _)
    rw [List.map_cons] at abreast ⊢
    rw [group, group]
    change Parallel _ (if first.depth ≠ 0 then _ else _) (if first.depth ≠ 0 then _ else _)
    split
    · exact .error _ _
    · generalize sequence .top 0 (first :: rest) = given at abreast ⊢
      generalize sequence .top 0 (first.relocate move :: rest.map (Line.relocate move)) = givenToo
        at abreast ⊢
      cases abreast with
      | error => exact .error _ _
      | ok statements => exact .ok statements

end Block

/-- Texts with spread streams are both refused, or the programs are the same up to their places. -/
theorem Program.parse_parallel (still : move default = default) {file text other : String}
    (related : Stream.Spread move (Lexer.stream file text) (Lexer.stream file other)) :
    Parallel (Program.relocate move) (Program.parse file text) (Program.parse file other) := by
  obtain ⟨same, faults⟩ := Line.readAll_spread still related
  unfold Program.parse
  generalize Line.readAll (Lexer.stream file text) = given at same faults ⊢
  generalize Line.readAll (Lexer.stream file other) = givenToo at same faults ⊢
  obtain ⟨lines, error⟩ := given
  obtain ⟨linesToo, errorToo⟩ := givenToo
  cases error with
  | some error =>
    obtain ⟨errorToo, rfl⟩ := Option.isSome_iff_exists.mp faults
    exact .error _ _
  | none =>
    cases errorToo with
    | some => cases faults
    | none =>
      dsimp only at same ⊢
      rw [same]
      have grouped : Parallel (Program.relocate move) (Block.group (lines.filterMap id))
          (Block.group ((lines.filterMap id).map (Line.relocate move))) :=
        Block.group_parallel (lines.filterMap id)
      generalize Block.group (lines.filterMap id) = given at grouped ⊢
      generalize Block.group ((lines.filterMap id).map (Line.relocate move)) = givenToo
        at grouped ⊢
      cases grouped with
      | ok statements => exact .ok statements
      | error => exact .error _ _

end Offside
