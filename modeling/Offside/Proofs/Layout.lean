/-
This file proves that grouping lines into blocks and writing blocks as lines undo
each other. A list of statements is laid out at a depth: every statement starts
with a line of that depth, the lines of a body follow their header at one depth
that is greater, and the clauses of a statement stand at the depth of its header.
How much deeper a body stands is open, so this is a relation and not a function.
`flatten` is the function for a plan, which says how much deeper each body stands;
a layout is the same as the lines under some plan.

Grouping succeeds on a list of lines with some statements exactly if the lines
are a layout of the statements at depth zero and the statements are well formed:
no body is empty, the clauses of a statement fit together, and `break`,
`continue` and `return` stand where they may.

The functions that group lines share one list of lines that they use up. What one
of them does in one step is said once, as an equivalence, by a lemma about what
it gives and what it leaves; both directions of the main result only use these.
-/

import Offside.Syntax.Block

namespace Offside

/-- The line of a branch. -/
def Branch.location : Branch → Location
  | .mk location _ _ => location

namespace Block

/-! ### Well-formed statements -/

/-- A simple statement may stand in a place. -/
def Place.allows (place : Place) : Simple → Prop
  | .breakLoop => place.inLoop
  | .continueLoop => place.inLoop
  | .returnValue _ => place.inFunction
  | _ => True

/-- Only the last of some handlers may lack a class. -/
def BareLast (handlers : List Handler) : Prop :=
  ∀ handler ∈ handlers.dropLast, ¬ handler.isBare

theorem bareLast_cons {handler : Handler} {rest : List Handler} :
    BareLast (handler :: rest) ↔ (rest ≠ [] → ¬ handler.isBare) ∧ BareLast rest := by
  cases rest <;> simp [BareLast]

mutual

/-- A statement that grouping can give in a place. -/
def WellFormed (place : Place) : Stmt → Prop
  | .simple _ action => place.allows action
  | .choice location branches otherwise =>
    branches.head?.map Branch.location = some location ∧ WellFormedBranches place branches ∧
      WellFormedElse place otherwise
  | .whileLoop _ _ body otherwise =>
    body ≠ [] ∧ WellFormedAll place.loop body ∧ WellFormedElse place otherwise
  | .forLoop _ _ _ body otherwise =>
    body ≠ [] ∧ WellFormedAll place.loop body ∧ WellFormedElse place otherwise
  | .attempt _ body handlers otherwise cleanup =>
    body ≠ [] ∧ WellFormedAll place body ∧ WellFormedHandlers place handlers ∧
      BareLast handlers ∧ WellFormedElse place otherwise ∧ WellFormedElse place cleanup ∧
      (otherwise.isSome → handlers ≠ []) ∧ (handlers = [] → cleanup.isSome)
  | .functionDef _ _ _ body => body ≠ [] ∧ WellFormedAll .function body
  | .classDef _ _ _ body => body ≠ [] ∧ WellFormedAll .klass body

def WellFormedAll (place : Place) : List Stmt → Prop
  | [] => True
  | statement :: rest => WellFormed place statement ∧ WellFormedAll place rest

/-- A block that may be missing, of an `else` or a `finally` clause. -/
def WellFormedElse (place : Place) : Option (List Stmt) → Prop
  | none => True
  | some body => body ≠ [] ∧ WellFormedAll place body

def WellFormedBranches (place : Place) : List Branch → Prop
  | [] => True
  | .mk _ _ body :: rest =>
    body ≠ [] ∧ WellFormedAll place body ∧ WellFormedBranches place rest

def WellFormedHandlers (place : Place) : List Handler → Prop
  | [] => True
  | .mk _ _ _ body :: rest =>
    body ≠ [] ∧ WellFormedAll place body ∧ WellFormedHandlers place rest

end

/-! ### Layouts -/

mutual

/-- Lines that a statement can be written as, the first at the given depth. -/
def LaidOut (depth : Nat) : Stmt → List Line → Prop
  | .simple location action, lines => lines = [⟨depth, location, .simple action⟩]
  | .choice _ branches otherwise, lines =>
    ∃ first second, lines = first ++ second ∧ BranchesLaidOut depth .ifTrue branches first ∧
      ClauseLaidOut depth .otherwise otherwise second
  | .whileLoop location condition body otherwise, lines =>
    ∃ first second, lines = ⟨depth, location, .header (.whileTrue condition)⟩ :: first ++ second ∧
      (∃ inner > depth, AllLaidOut inner body first) ∧
      ClauseLaidOut depth .otherwise otherwise second
  | .forLoop location target iterable body otherwise, lines =>
    ∃ first second,
      lines = ⟨depth, location, .header (.forEach target iterable)⟩ :: first ++ second ∧
      (∃ inner > depth, AllLaidOut inner body first) ∧
      ClauseLaidOut depth .otherwise otherwise second
  | .attempt location body handlers otherwise cleanup, lines =>
    ∃ first second third fourth,
      lines = ⟨depth, location, .header .attempt⟩ :: first ++ (second ++ (third ++ fourth)) ∧
      (∃ inner > depth, AllLaidOut inner body first) ∧
      HandlersLaidOut depth handlers second ∧
      ClauseLaidOut depth .otherwise otherwise third ∧
      ClauseLaidOut depth .cleanup cleanup fourth
  | .functionDef location name parameters body, lines =>
    ∃ first, lines = ⟨depth, location, .header (.function name parameters)⟩ :: first ∧
      ∃ inner > depth, AllLaidOut inner body first
  | .classDef location name base body, lines =>
    ∃ first, lines = ⟨depth, location, .header (.klass name base)⟩ :: first ∧
      ∃ inner > depth, AllLaidOut inner body first

/-- Lines that statements can be written as, each statement starting at the given depth. -/
def AllLaidOut (depth : Nat) : List Stmt → List Line → Prop
  | [], lines => lines = []
  | statement :: rest, lines =>
    ∃ first others, lines = first ++ others ∧ LaidOut depth statement first ∧
      AllLaidOut depth rest others

/-- Lines of a clause that may be missing. Where its header stood in the text is not kept. -/
def ClauseLaidOut (depth : Nat) (header : Header) : Option (List Stmt) → List Line → Prop
  | none, lines => lines = []
  | some body, lines =>
    ∃ location first, lines = ⟨depth, location, .header header⟩ :: first ∧
      ∃ inner > depth, AllLaidOut inner body first

/-- Lines of branches: the first starts with the given header and all others with `elif`. -/
def BranchesLaidOut (depth : Nat) (header : Expr → Header) : List Branch → List Line → Prop
  | [], lines => lines = []
  | .mk location condition body :: rest, lines =>
    ∃ first others,
      lines = ⟨depth, location, .header (header condition)⟩ :: first ++ others ∧
      (∃ inner > depth, AllLaidOut inner body first) ∧
      BranchesLaidOut depth .elseIf rest others

def HandlersLaidOut (depth : Nat) : List Handler → List Line → Prop
  | [], lines => lines = []
  | .mk location class? name body :: rest, lines =>
    ∃ first others,
      lines = ⟨depth, location, .header (.handle class? name)⟩ :: first ++ others ∧
      (∃ inner > depth, AllLaidOut inner body first) ∧ HandlersLaidOut depth rest others

end

/-- Lines of a body whose header stands at the given depth. -/
def BodyLaidOut (depth : Nat) (body : List Stmt) (lines : List Line) : Prop :=
  ∃ inner > depth, AllLaidOut inner body lines

/-! ### What one step of grouping does -/

/-- A step of grouping gives a value and leaves some lines. -/
def Gives {α : Type} {lines : List Line} (step : Except ParseError (α × Rest lines)) (value : α)
    (left : List Line) : Prop :=
  ∃ bound, step = .ok (value, ⟨left, bound⟩)

@[simp]
theorem gives_ok {α : Type} {lines : List Line} {value result : α} {rest : Rest lines}
    {left : List Line} :
    Gives (.ok (value, rest)) result left ↔ value = result ∧ rest.1 = left := by
  constructor
  · rintro ⟨bound, same⟩
    simp only [Except.ok.injEq, Prod.mk.injEq] at same
    exact ⟨same.1, by rw [same.2]⟩
  · rintro ⟨rfl, rfl⟩
    exact ⟨rest.2, rfl⟩

@[simp]
theorem gives_pure {α : Type} {lines : List Line} {value result : α} {rest : Rest lines}
    {left : List Line} :
    Gives (pure (value, rest)) result left ↔ value = result ∧ rest.1 = left :=
  gives_ok

@[simp]
theorem gives_error {α : Type} {lines left : List Line} {value : α} {error : ParseError} :
    ¬ Gives (.error error : Except ParseError (α × Rest lines)) value left := by
  rintro ⟨bound, same⟩
  cases same

@[simp]
theorem gives_failAt {α : Type} {lines left : List Line} {value : α} {location : Location}
    {fault : ParseFault} :
    ¬ Gives (failAt location fault : Except ParseError (α × Rest lines)) value left :=
  gives_error

/-- A step and then another one: the second works on what the first leaves. -/
theorem gives_bind {α β : Type} {lines left : List Line} {before : List Line} {value : β}
    {step : Except ParseError (α × Rest before)}
    {next : α × Rest before → Except ParseError (β × Rest lines)} :
    Gives (step >>= next) value left ↔
      ∃ first middle bound, step = .ok (first, ⟨middle, bound⟩) ∧
        Gives (next (first, ⟨middle, bound⟩)) value left := by
  constructor
  · rintro ⟨bound, success⟩
    obtain ⟨⟨first, middle, further⟩, done, others⟩ := Row.bind_ok success
    exact ⟨first, middle, further, done, bound, others⟩
  · rintro ⟨first, middle, bound, done, further, others⟩
    exact ⟨further, by rw [done]; exact others⟩

/-- A last step whose value is only wrapped. -/
theorem gives_wrap {α β : Type} (wrap : α → β) {lines before left : List Line} {value : β}
    {step : Except ParseError (α × Rest before)} (shorter : before.length ≤ lines.length) :
    Gives (step >>= fun given =>
        pure (wrap given.1, (⟨given.2.1, Nat.le_trans given.2.2 shorter⟩ : Rest lines)))
      value left ↔ ∃ inner, Gives step inner left ∧ value = wrap inner := by
  rw [gives_bind]
  constructor
  · rintro ⟨inner, middle, bound, done, rest⟩
    obtain ⟨rfl, rfl⟩ := gives_pure.mp rest
    exact ⟨inner, ⟨bound, done⟩, rfl⟩
  · rintro ⟨inner, ⟨bound, done⟩, rfl⟩
    exact ⟨inner, left, bound, done, gives_pure.mpr ⟨rfl, rfl⟩⟩

/-- A step and another one on what it leaves, whose values are put together. -/
theorem gives_both {α β γ : Type} (wrap : α → β → γ) {before lines left : List Line} {value : γ}
    {step : Except ParseError (α × Rest before)}
    {next : (middle : List Line) → Except ParseError (β × Rest middle)}
    (shorter : before.length ≤ lines.length) :
    Gives (do
        let (first, ⟨middle, bound⟩) ← step
        let (second, ⟨rest, bound1⟩) ← next middle
        return (wrap first second,
          (⟨rest, Nat.le_trans bound1 (Nat.le_trans bound shorter)⟩ : Rest lines)))
      value left ↔
      ∃ first middle second, Gives step first middle ∧ Gives (next middle) second left ∧
        value = wrap first second := by
  rw [gives_bind]
  constructor
  · rintro ⟨first, middle, bound, done, given⟩
    obtain ⟨second, further, rfl⟩ := (gives_wrap (wrap first) (Nat.le_trans bound shorter)).mp given
    exact ⟨first, middle, second, ⟨bound, done⟩, further, rfl⟩
  · rintro ⟨first, middle, second, ⟨bound, done⟩, further, rfl⟩
    exact ⟨first, middle, bound, done,
      (gives_wrap (wrap first) (Nat.le_trans bound shorter)).mpr ⟨second, further, rfl⟩⟩

theorem sequence_nil (place : Place) (depth : Nat) {statements : List Stmt} {left : List Line} :
    Gives (sequence place depth []) statements left ↔ statements = [] ∧ left = [] := by
  rw [sequence, gives_ok]
  simp [eq_comm]

theorem sequence_cons (place : Place) (depth : Nat) {line : Line} {lines : List Line}
    {statements : List Stmt} {left : List Line} :
    Gives (sequence place depth (line :: lines)) statements left ↔
      (line.depth < depth ∧ statements = [] ∧ left = line :: lines) ∨
      (line.depth = depth ∧ ∃ first middle others,
        Gives (statement place line lines) first middle ∧
        Gives (sequence place depth middle) others left ∧ statements = first :: others) := by
  rw [sequence]
  by_cases less : line.depth < depth
  · rw [if_pos less, gives_ok]
    constructor
    · rintro ⟨rfl, rfl⟩
      exact .inl ⟨less, rfl, rfl⟩
    · rintro (⟨-, rfl, rfl⟩ | ⟨same, -⟩)
      · exact ⟨rfl, rfl⟩
      · omega
  · rw [if_neg less]
    by_cases greater : depth < line.depth
    · rw [if_pos greater]
      constructor
      · exact fun given => absurd given gives_failAt
      · rintro (⟨smaller, -⟩ | ⟨same, -⟩) <;> omega
    · rw [if_neg greater]
      constructor
      · intro given
        refine .inr ⟨by omega, ?_⟩
        split at given
        next => exact absurd given gives_error
        next first middle bound stepDone =>
          split at given
          next => exact absurd given gives_error
          next others rest bound' othersDone =>
            obtain ⟨rfl, rfl⟩ := gives_ok.mp given
            exact ⟨first, middle, others, ⟨bound, stepDone⟩, ⟨bound', othersDone⟩, rfl⟩
      · rintro (⟨smaller, -⟩ | ⟨-, first, middle, others, ⟨bound, stepDone⟩, ⟨bound', othersDone⟩, rfl⟩)
        · omega
        · rw [stepDone]
          simp only [othersDone]
          exact gives_ok.mpr ⟨rfl, rfl⟩

/-- A body is a sequence at the depth of its first line, which is deeper than its header; the
line after it is not. -/
theorem body_gives (place : Place) (line : Line) (header : Header) {lines : List Line}
    {statements : List Stmt} {left : List Line} :
    Gives (body place line header lines) statements left ↔
      ∃ first rest, lines = first :: rest ∧ line.depth < first.depth ∧
        Gives (sequence place first.depth lines) statements left ∧
        ∀ after ∈ left.head?, after.depth ≤ line.depth := by
  cases lines with
  | nil => simp [body]
  | cons first rest =>
    rw [body]
    by_cases shallow : first.depth ≤ line.depth
    · rw [if_pos shallow]
      refine iff_of_false gives_failAt ?_
      rintro ⟨_, _, same, deeper, -⟩
      cases same
      omega
    · rw [if_neg shallow]
      constructor
      · intro given
        refine ⟨first, rest, rfl, by omega, ?_⟩
        split at given
        next => exact absurd given gives_error
        next done =>
          obtain ⟨rfl, rfl⟩ := gives_ok.mp given
          exact ⟨⟨_, done⟩, by simp⟩
        next after others bound done =>
          split at given
          next => exact absurd given gives_failAt
          next notDeeper =>
            obtain ⟨rfl, rfl⟩ := gives_ok.mp given
            exact ⟨⟨_, done⟩, by simpa using notDeeper⟩
      · rintro ⟨_, _, same, -, ⟨bound, done⟩, atMost⟩
        cases same
        rw [done]
        cases left with
        | nil => exact gives_ok.mpr ⟨rfl, rfl⟩
        | cons after others =>
          have notDeeper : ¬ line.depth < after.depth := by
            have := atMost after rfl
            omega
          simp only [if_neg notDeeper]
          exact gives_ok.mpr ⟨rfl, rfl⟩

theorem headerAt?_eq_some {line : Line} {depth : Nat} {header : Header} :
    Line.headerAt? line depth = some header ↔ line = ⟨depth, line.location, .header header⟩ := by
  obtain ⟨found, location, content⟩ := line
  unfold Line.headerAt?
  by_cases same : found = depth
  · subst same
    cases content <;> simp
  · simp [same]

/-- What reading a clause that may be missing gives: the block after its header, or nothing if the
next line is another one. -/
def GivesClause (place : Place) (depth : Nat) (header : Header) (lines : List Line)
    (found : Option (List Stmt)) (left : List Line) : Prop :=
  (∃ location rest block, lines = ⟨depth, location, .header header⟩ :: rest ∧
    Gives (body place ⟨depth, location, .header header⟩ header rest) block left ∧
    found = some block) ∨
  (nextHeader? depth lines ≠ some header ∧ found = none ∧ left = lines)

theorem ReadsClause.gives {place : Place} {depth : Nat} {header : Header}
    {clause : (lines : List Line) → Except ParseError (Option (List Stmt) × Rest lines)}
    (reads : ReadsClause place depth header clause) {lines : List Line}
    {found : Option (List Stmt)} {left : List Line} :
    Gives (clause lines) found left ↔ GivesClause place depth header lines found left := by
  by_cases next : nextHeader? depth lines = some header
  · cases lines with
    | nil => simp [nextHeader?] at next
    | cons line rest =>
      have isHeader : Line.headerAt? line depth = some header := next
      rw [reads.stands isHeader, gives_wrap some (by simp)]
      have form := headerAt?_eq_some.mp isHeader
      constructor
      · rintro ⟨block, given, rfl⟩
        exact .inl ⟨line.location, rest, block, by rw [← form], by rwa [← form], rfl⟩
      · rintro (⟨location, others, block, same, given, rfl⟩ | ⟨differs, -⟩)
        · obtain ⟨rfl, rfl⟩ := List.cons.inj same
          exact ⟨block, given, rfl⟩
        · exact absurd next differs
  · rw [reads.missing next, gives_ok]
    constructor
    · rintro ⟨rfl, rfl⟩
      exact .inr ⟨next, rfl, rfl⟩
    · rintro (⟨location, rest, block, rfl, -⟩ | ⟨-, rfl, rfl⟩)
      · exact absurd (by simp [nextHeader?, headerAt?_eq_some]) next
      · exact ⟨rfl, rfl⟩

/-- After `try` an `else` clause is refused if there is no handler before it. -/
theorem attemptElse_gives (place : Place) (depth : Nat) (unhandled : Bool) {lines : List Line}
    {found : Option (List Stmt)} {left : List Line} :
    Gives (attemptElse place depth unhandled lines) found left ↔
      GivesClause place depth .otherwise lines found left ∧ (found.isSome → unhandled = false) := by
  cases unhandled with
  | false =>
    simp only [implies_true, and_true]
    exact (attemptElse_reads place depth).gives
  | true =>
    by_cases next : nextHeader? depth lines = some .otherwise
    · have refused : ¬ Gives (attemptElse place depth true lines) found left := by
        cases lines with
        | nil => simp [nextHeader?] at next
        | cons line rest =>
          rw [attemptElse_refused place next]
          exact gives_failAt
      refine iff_of_false refused ?_
      rintro ⟨⟨location, rest, block, -, -, rfl⟩ | ⟨differs, -⟩, handled⟩
      · exact absurd (handled rfl) (by simp)
      · exact differs next
    · rw [attemptElse_of_ne place true next, gives_ok]
      constructor
      · rintro ⟨rfl, rfl⟩
        exact ⟨.inr ⟨next, rfl, rfl⟩, by simp⟩
      · rintro ⟨⟨location, rest, block, -, -, rfl⟩ | ⟨-, rfl, rfl⟩, handled⟩
        · exact absurd (handled rfl) (by simp)
        · exact ⟨rfl, rfl⟩

/-- The `elif` clauses end at the first line that is none. -/
theorem branches_gives (place : Place) (depth : Nat) {lines : List Line} {found : List Branch}
    {left : List Line} :
    Gives (branches place depth lines) found left ↔
      (∃ location condition rest block middle others,
        lines = ⟨depth, location, .header (.elseIf condition)⟩ :: rest ∧
        Gives (body place ⟨depth, location, .header (.elseIf condition)⟩ (.elseIf condition) rest)
          block middle ∧
        Gives (branches place depth middle) others left ∧
        found = .mk location condition block :: others) ∨
      ((∀ condition, nextHeader? depth lines ≠ some (.elseIf condition)) ∧
        found = [] ∧ left = lines) := by
  by_cases next : ∃ condition, nextHeader? depth lines = some (.elseIf condition)
  · obtain ⟨condition, next⟩ := next
    cases lines with
    | nil => simp [nextHeader?] at next
    | cons line rest =>
      have isHeader : Line.headerAt? line depth = some (.elseIf condition) := next
      have form := headerAt?_eq_some.mp isHeader
      rw [branches]
      simp only [isHeader]
      refine (gives_both (fun block others => Branch.mk line.location condition block :: others)
        (Nat.le_succ rest.length)).trans ⟨?_, ?_⟩
      · rintro ⟨block, middle, others, given, further, rfl⟩
        exact .inl ⟨line.location, condition, rest, block, middle, others, by rw [← form],
          by rwa [← form], further, rfl⟩
      · rintro (⟨location, _, _, block, middle, others, same, given, further, rfl⟩ |
          ⟨differs, -⟩)
        · cases same
          cases isHeader.symm.trans (headerAt?_eq_some.mpr rfl)
          exact ⟨block, middle, others, given, further, rfl⟩
        · exact absurd next (differs condition)
  · have skipped : Gives (branches place depth lines) found left ↔ found = [] ∧ left = lines := by
      cases lines with
      | nil => rw [branches, gives_ok]; simp [eq_comm]
      | cons line rest =>
        rw [branches]
        split
        next condition isHeader => exact absurd ⟨condition, isHeader⟩ next
        next => simp [eq_comm]
    rw [skipped]
    constructor
    · rintro ⟨rfl, rfl⟩
      exact .inr ⟨fun condition found => next ⟨condition, found⟩, rfl, rfl⟩
    · rintro (⟨location, condition, rest, block, middle, others, rfl, -⟩ | ⟨-, same⟩)
      · exact absurd ⟨condition, by simp [nextHeader?, headerAt?_eq_some]⟩ next
      · exact same

/-- The `except` clauses end at the first line that is none. None may follow a clause without a
class. -/
theorem handlers_gives (place : Place) (depth : Nat) (bare : Option Location) {lines : List Line}
    {found : List Handler} {left : List Line} :
    Gives (handlers place depth bare lines) found left ↔
      (∃ location class? name rest block middle others,
        lines = ⟨depth, location, .header (.handle class? name)⟩ :: rest ∧ bare = none ∧
        Gives (body place ⟨depth, location, .header (.handle class? name)⟩ (.handle class? name)
          rest) block middle ∧
        Gives (handlers place depth (if class?.isNone then some location else none) middle)
          others left ∧
        found = .mk location class? name block :: others) ∨
      ((∀ class? name, nextHeader? depth lines ≠ some (.handle class? name)) ∧
        found = [] ∧ left = lines) := by
  by_cases next : ∃ class? name, nextHeader? depth lines = some (.handle class? name)
  · obtain ⟨class?, name, next⟩ := next
    cases lines with
    | nil => simp [nextHeader?] at next
    | cons line rest =>
      have isHeader : Line.headerAt? line depth = some (.handle class? name) := next
      have form := headerAt?_eq_some.mp isHeader
      rw [handlers]
      simp only [isHeader]
      cases bare with
      | some location =>
        refine iff_of_false gives_failAt ?_
        rintro (⟨_, _, _, _, _, _, _, -, absent, -⟩ | ⟨differs, -⟩)
        · cases absent
        · exact differs class? name next
      | none =>
        refine (gives_both (fun block others => Handler.mk line.location class? name block :: others)
          (Nat.le_succ rest.length)).trans ⟨?_, ?_⟩
        · rintro ⟨block, middle, others, given, further, rfl⟩
          exact .inl ⟨line.location, class?, name, rest, block, middle, others, by rw [← form], rfl,
            by rwa [← form], further, rfl⟩
        · rintro (⟨location, _, _, _, block, middle, others, same, -, given, further, rfl⟩ |
            ⟨differs, -⟩)
          · cases same
            cases isHeader.symm.trans (headerAt?_eq_some.mpr rfl)
            exact ⟨block, middle, others, given, further, rfl⟩
          · exact absurd next (differs class? name)
  · have skipped : Gives (handlers place depth bare lines) found left ↔
        found = [] ∧ left = lines := by
      cases lines with
      | nil => rw [handlers, gives_ok]; simp [eq_comm]
      | cons line rest =>
        rw [handlers]
        split
        next class? name isHeader => exact absurd ⟨class?, name, isHeader⟩ next
        next => simp [eq_comm]
    rw [skipped]
    constructor
    · rintro ⟨rfl, rfl⟩
      exact .inr ⟨fun class? name found => next ⟨class?, name, found⟩, rfl, rfl⟩
    · rintro (⟨location, class?, name, rest, block, middle, others, rfl, -⟩ | ⟨-, same⟩)
      · exact absurd ⟨class?, name, by simp [nextHeader?, headerAt?_eq_some]⟩ next
      · exact same

theorem simple_eq_ok {place : Place} {location : Location} {action : Simple} {found : Stmt} :
    simple place location action = .ok found ↔
      place.allows action ∧ found = .simple location action := by
  cases action with
  | breakLoop | continueLoop | returnValue =>
    simp only [simple, Place.allows]
    split
    next allowed => simp [allowed, eq_comm]
    next refused => simp [refused, failAt]
  | _ => simp [simple, Place.allows, eq_comm]

theorem statement_simple (place : Place) (depth : Nat) (location : Location) (action : Simple)
    {lines : List Line} {found : Stmt} {left : List Line} :
    Gives (statement place ⟨depth, location, .simple action⟩ lines) found left ↔
      place.allows action ∧ found = .simple location action ∧ left = lines := by
  rw [statement, ← and_assoc, ← simple_eq_ok]
  constructor
  · rintro ⟨bound, success⟩
    obtain ⟨result, done, rest⟩ := Row.bind_ok success
    simp only [pure, Except.pure, Except.ok.injEq, Prod.mk.injEq, Subtype.mk.injEq] at rest
    exact ⟨by rw [done, rest.1], rest.2.symm⟩
  · rintro ⟨done, rfl⟩
    refine ⟨Nat.le_refl _, ?_⟩
    simp only [done]
    rfl

theorem statement_if (place : Place) (depth : Nat) (location : Location) (condition : Expr)
    {lines : List Line} {found : Stmt} {left : List Line} :
    Gives (statement place ⟨depth, location, .header (.ifTrue condition)⟩ lines) found left ↔
      ∃ block rest others rest1 otherwise,
        Gives (body place ⟨depth, location, .header (.ifTrue condition)⟩ (.ifTrue condition) lines)
          block rest ∧
        Gives (branches place depth rest) others rest1 ∧
        GivesClause place depth .otherwise rest1 otherwise left ∧
        found = .choice location (.mk location condition block :: others) otherwise := by
  rw [statement, gives_bind]
  simp only [← (elseClause_reads place depth).gives]
  constructor
  · rintro ⟨block, rest, bound, done, given⟩
    obtain ⟨others, rest1, otherwise, branched, further, rfl⟩ := (gives_both
      (fun others => Stmt.choice location (.mk location condition block :: others)) bound).mp given
    exact ⟨block, rest, others, rest1, otherwise, ⟨bound, done⟩, branched, further, rfl⟩
  · rintro ⟨block, rest, others, rest1, otherwise, ⟨bound, done⟩, branched, further, rfl⟩
    exact ⟨block, rest, bound, done, (gives_both
      (fun others => Stmt.choice location (.mk location condition block :: others)) bound).mpr
        ⟨others, rest1, otherwise, branched, further, rfl⟩⟩

/-- A body and then an `else` clause, as loops have them. -/
theorem gives_body_else (wrap : List Stmt → Option (List Stmt) → Stmt) {place inner : Place}
    {depth : Nat} {line : Line} {header : Header} {lines : List Line} {found : Stmt}
    {left : List Line} :
    Gives (do
        let (block, ⟨rest, bound⟩) ← body inner line header lines
        let (otherwise, ⟨rest1, bound1⟩) ← elseClause place depth rest
        return (wrap block otherwise, (⟨rest1, Nat.le_trans bound1 bound⟩ : Rest lines)))
      found left ↔
      ∃ block rest otherwise, Gives (body inner line header lines) block rest ∧
        GivesClause place depth .otherwise rest otherwise left ∧ found = wrap block otherwise := by
  simp only [← (elseClause_reads place depth).gives]
  exact gives_both wrap (Nat.le_refl _)

theorem statement_while (place : Place) (depth : Nat) (location : Location) (condition : Expr)
    {lines : List Line} {found : Stmt} {left : List Line} :
    Gives (statement place ⟨depth, location, .header (.whileTrue condition)⟩ lines) found left ↔
      ∃ block rest otherwise,
        Gives (body place.loop ⟨depth, location, .header (.whileTrue condition)⟩
          (.whileTrue condition) lines) block rest ∧
        GivesClause place depth .otherwise rest otherwise left ∧
        found = .whileLoop location condition block otherwise := by
  rw [statement]
  exact gives_body_else (.whileLoop location condition)

theorem statement_for (place : Place) (depth : Nat) (location : Location) (target iterable : Expr)
    {lines : List Line} {found : Stmt} {left : List Line} :
    Gives (statement place ⟨depth, location, .header (.forEach target iterable)⟩ lines) found left ↔
      ∃ block rest otherwise,
        Gives (body place.loop ⟨depth, location, .header (.forEach target iterable)⟩
          (.forEach target iterable) lines) block rest ∧
        GivesClause place depth .otherwise rest otherwise left ∧
        found = .forLoop location target iterable block otherwise := by
  rw [statement]
  exact gives_body_else (.forLoop location target iterable)

theorem statement_try (place : Place) (depth : Nat) (location : Location) {lines : List Line}
    {found : Stmt} {left : List Line} :
    Gives (statement place ⟨depth, location, .header .attempt⟩ lines) found left ↔
      ∃ block rest caught rest1 otherwise rest2 cleanup,
        Gives (body place ⟨depth, location, .header .attempt⟩ .attempt lines) block rest ∧
        Gives (handlers place depth none rest) caught rest1 ∧
        GivesClause place depth .otherwise rest1 otherwise rest2 ∧
        GivesClause place depth .cleanup rest2 cleanup left ∧
        (otherwise.isSome → caught ≠ []) ∧ (caught = [] → cleanup.isSome) ∧
        found = .attempt location block caught otherwise cleanup := by
  rw [statement]
  constructor
  · intro given
    obtain ⟨block, rest, bound, done, given⟩ := gives_bind.mp given
    obtain ⟨caught, rest1, bound1, done1, given⟩ := gives_bind.mp given
    obtain ⟨otherwise, rest2, bound2, done2, given⟩ := gives_bind.mp given
    obtain ⟨cleanup, rest3, bound3, done3, given⟩ := gives_bind.mp given
    obtain ⟨clause, handled⟩ := (attemptElse_gives place depth _).mp ⟨bound2, done2⟩
    have last := (finallyClause_reads place depth).gives.mp ⟨bound3, done3⟩
    dsimp only at given
    split at given
    next => exact absurd given gives_failAt
    next notAlone =>
      obtain ⟨rfl, rfl⟩ := gives_pure.mp given
      refine ⟨block, rest, caught, rest1, otherwise, rest2, cleanup, ⟨bound, done⟩,
        ⟨bound1, done1⟩, clause, last, ?_, ?_, rfl⟩
      · simpa using handled
      · rintro rfl
        simpa [Option.isSome_iff_ne_none] using notAlone
  · rintro ⟨block, rest, caught, rest1, otherwise, rest2, cleanup, ⟨bound, done⟩, ⟨bound1, done1⟩,
      clause, last, handled, notAlone, rfl⟩
    obtain ⟨bound2, done2⟩ := (attemptElse_gives place depth caught.isEmpty).mpr
      ⟨clause, by simpa using handled⟩
    obtain ⟨bound3, done3⟩ := (finallyClause_reads place depth).gives.mpr last
    refine gives_bind.mpr ⟨block, rest, bound, done, gives_bind.mpr ⟨caught, rest1, bound1, done1,
      gives_bind.mpr ⟨otherwise, rest2, bound2, done2,
        gives_bind.mpr ⟨cleanup, left, bound3, done3, ?_⟩⟩⟩⟩
    have combined : ¬ (caught.isEmpty && cleanup.isNone) = true := by
      simpa [Option.isSome_iff_ne_none] using notAlone
    simp only [if_neg combined]
    exact gives_pure.mpr ⟨rfl, rfl⟩

theorem statement_def (place : Place) (depth : Nat) (location : Location) (name : String)
    (parameters : List Parameter) {lines : List Line} {found : Stmt} {left : List Line} :
    Gives (statement place ⟨depth, location, .header (.function name parameters)⟩ lines) found
      left ↔
      ∃ block, Gives (body .function ⟨depth, location, .header (.function name parameters)⟩
          (.function name parameters) lines) block left ∧
        found = .functionDef location name parameters block := by
  rw [statement]
  exact gives_wrap (Stmt.functionDef location name parameters) (Nat.le_refl _)

theorem statement_class (place : Place) (depth : Nat) (location : Location) (name : String)
    (base : Option Expr) {lines : List Line} {found : Stmt} {left : List Line} :
    Gives (statement place ⟨depth, location, .header (.klass name base)⟩ lines) found left ↔
      ∃ block, Gives (body .klass ⟨depth, location, .header (.klass name base)⟩ (.klass name base)
          lines) block left ∧
        found = .classDef location name base block := by
  rw [statement]
  exact gives_wrap (Stmt.classDef location name base) (Nat.le_refl _)

/-! ### Grouping gives a layout back -/

/-- What sequences of fewer than `count` lines give is laid out in the lines that they use. -/
def SequencesSound (count : Nat) : Prop :=
  ∀ {place : Place} {depth : Nat} {lines : List Line} {statements : List Stmt} {left : List Line},
    lines.length < count → Gives (sequence place depth lines) statements left →
      ∃ taken, lines = taken ++ left ∧ AllLaidOut depth statements taken ∧
        WellFormedAll place statements ∧ ∀ after ∈ left.head?, after.depth < depth

theorem Gives.length_le {α : Type} {lines left : List Line} {value : α}
    {step : Except ParseError (α × Rest lines)} (given : Gives step value left) :
    left.length ≤ lines.length :=
  given.1

section

variable {count : Nat} (sound : SequencesSound count)
include sound

theorem body_sound {place : Place} {line : Line} {header : Header} {lines : List Line}
    {statements : List Stmt} {left : List Line} (short : lines.length < count)
    (given : Gives (body place line header lines) statements left) :
    ∃ taken, lines = taken ++ left ∧ BodyLaidOut line.depth statements taken ∧
      statements ≠ [] ∧ WellFormedAll place statements := by
  obtain ⟨first, rest, rfl, deeper, inner, -⟩ := (body_gives place line header).mp given
  obtain ⟨taken, same, laidOut, wellFormed, ends⟩ := sound short inner
  refine ⟨taken, same, ⟨first.depth, deeper, laidOut⟩, ?_, wellFormed⟩
  -- An empty sequence would leave its own first line, which is not less deep than itself.
  rintro rfl
  obtain rfl : taken = [] := laidOut
  have shallower := ends first (by rw [← List.nil_append left, ← same]; rfl)
  omega

theorem clause_sound {place : Place} {depth : Nat} {header : Header} {lines : List Line}
    {found : Option (List Stmt)} {left : List Line} (short : lines.length < count)
    (given : GivesClause place depth header lines found left) :
    ∃ taken, lines = taken ++ left ∧ ClauseLaidOut depth header found taken ∧
      WellFormedElse place found := by
  obtain ⟨location, rest, block, rfl, inner, rfl⟩ | ⟨-, rfl, rfl⟩ := given
  · rw [List.length_cons] at short
    obtain ⟨taken, rfl, laidOut, nonempty, wellFormed⟩ := body_sound sound (by omega) inner
    exact ⟨_ :: taken, rfl, ⟨location, taken, rfl, laidOut⟩, nonempty, wellFormed⟩
  · exact ⟨[], rfl, rfl, trivial⟩

theorem branches_sound {place : Place} {depth : Nat} {lines : List Line} {found : List Branch}
    {left : List Line} (short : lines.length < count)
    (given : Gives (branches place depth lines) found left) :
    ∃ taken, lines = taken ++ left ∧ BranchesLaidOut depth .elseIf found taken ∧
      WellFormedBranches place found := by
  obtain ⟨location, condition, rest, block, middle, others, rfl, inner, further, rfl⟩ |
    ⟨-, rfl, rfl⟩ := (branches_gives place depth).mp given
  · rw [List.length_cons] at short
    have bound := inner.length_le
    obtain ⟨first, rfl, laidOut, nonempty, wellFormed⟩ := body_sound sound (by omega) inner
    obtain ⟨second, rfl, othersLaidOut, othersWellFormed⟩ := branches_sound (by omega) further
    refine ⟨_ :: first ++ second, by simp, ⟨first, second, rfl, laidOut, othersLaidOut⟩, nonempty,
      wellFormed, othersWellFormed⟩
  · exact ⟨[], rfl, rfl, trivial⟩
termination_by lines.length
decreasing_by
  simp_all only [List.length_cons, List.length_append]
  omega

theorem handlers_sound {place : Place} {depth : Nat} {bare : Option Location} {lines : List Line}
    {found : List Handler} {left : List Line} (short : lines.length < count)
    (given : Gives (handlers place depth bare lines) found left) :
    ∃ taken, lines = taken ++ left ∧ HandlersLaidOut depth found taken ∧
      WellFormedHandlers place found ∧ BareLast found ∧ (bare.isSome → found = []) := by
  obtain ⟨location, class?, name, rest, block, middle, others, rfl, rfl, inner, further, rfl⟩ |
    ⟨-, rfl, rfl⟩ := (handlers_gives place depth bare).mp given
  · rw [List.length_cons] at short
    have bound := inner.length_le
    obtain ⟨first, rfl, laidOut, nonempty, wellFormed⟩ := body_sound sound (by omega) inner
    obtain ⟨second, rfl, othersLaidOut, othersWellFormed, bareLast, noneAfter⟩ :=
      handlers_sound (by omega) further
    refine ⟨_ :: first ++ second, by simp, ⟨first, second, rfl, laidOut, othersLaidOut⟩,
      ⟨nonempty, wellFormed, othersWellFormed⟩, ?_, by simp⟩
    rw [bareLast_cons]
    refine ⟨fun more isBare => more (noneAfter ?_), bareLast⟩
    simp only [Handler.isBare] at isBare
    rw [if_pos isBare, Option.isSome_some]
  · exact ⟨[], rfl, rfl, trivial, by simp [BareLast], fun _ => rfl⟩
termination_by lines.length
decreasing_by
  simp_all only [List.length_cons, List.length_append]
  omega

theorem statement_sound {place : Place} {line : Line} {lines : List Line} {found : Stmt}
    {left : List Line} (short : lines.length < count)
    (given : Gives (statement place line lines) found left) :
    ∃ taken, lines = taken ++ left ∧ LaidOut line.depth found (line :: taken) ∧
      WellFormed place found := by
  obtain ⟨depth, location, content⟩ := line
  cases content with
  | simple action =>
    obtain ⟨allowed, rfl, rfl⟩ := (statement_simple place depth location action).mp given
    exact ⟨[], rfl, rfl, allowed⟩
  | header header =>
    cases header with
    | ifTrue condition =>
      obtain ⟨block, rest, others, rest1, otherwise, inner, further, clause, rfl⟩ :=
        (statement_if place depth location condition).mp given
      have bound := inner.length_le
      have bound1 := further.length_le
      obtain ⟨first, rfl, laidOut, nonempty, wellFormed⟩ := body_sound sound short inner
      obtain ⟨second, rfl, othersLaidOut, othersWellFormed⟩ :=
        branches_sound sound (by omega) further
      obtain ⟨third, rfl, clauseLaidOut, clauseWellFormed⟩ := clause_sound sound (by omega) clause
      refine ⟨first ++ second ++ third, by simp, ?_, ?_⟩
      · exact ⟨_ :: first ++ second, third, by simp, ⟨first, second, rfl, laidOut, othersLaidOut⟩,
          clauseLaidOut⟩
      · exact ⟨rfl, ⟨nonempty, wellFormed, othersWellFormed⟩, clauseWellFormed⟩
    | whileTrue condition =>
      obtain ⟨block, rest, otherwise, inner, clause, rfl⟩ :=
        (statement_while place depth location condition).mp given
      have bound := inner.length_le
      obtain ⟨first, rfl, laidOut, nonempty, wellFormed⟩ := body_sound sound short inner
      obtain ⟨second, rfl, clauseLaidOut, clauseWellFormed⟩ := clause_sound sound (by omega) clause
      exact ⟨first ++ second, by simp, ⟨first, second, by simp, laidOut, clauseLaidOut⟩, nonempty,
        wellFormed, clauseWellFormed⟩
    | forEach target iterable =>
      obtain ⟨block, rest, otherwise, inner, clause, rfl⟩ :=
        (statement_for place depth location target iterable).mp given
      have bound := inner.length_le
      obtain ⟨first, rfl, laidOut, nonempty, wellFormed⟩ := body_sound sound short inner
      obtain ⟨second, rfl, clauseLaidOut, clauseWellFormed⟩ := clause_sound sound (by omega) clause
      exact ⟨first ++ second, by simp, ⟨first, second, by simp, laidOut, clauseLaidOut⟩, nonempty,
        wellFormed, clauseWellFormed⟩
    | attempt =>
      obtain ⟨block, rest, caught, rest1, otherwise, rest2, cleanup, inner, further, clause, last,
        handled, notAlone, rfl⟩ := (statement_try place depth location).mp given
      have bound := inner.length_le
      have bound1 := further.length_le
      obtain ⟨first, rfl, laidOut, nonempty, wellFormed⟩ := body_sound sound short inner
      obtain ⟨second, rfl, handlersLaidOut, handlersWellFormed, bareLast, -⟩ :=
        handlers_sound sound (by omega) further
      obtain ⟨third, rfl, clauseLaidOut, clauseWellFormed⟩ := clause_sound sound (by omega) clause
      simp only [List.length_append] at short
      obtain ⟨fourth, rfl, lastLaidOut, lastWellFormed⟩ := clause_sound sound (by omega) last
      refine ⟨first ++ (second ++ (third ++ fourth)), by simp, ?_, ?_⟩
      · exact ⟨first, second, third, fourth, by simp, laidOut, handlersLaidOut, clauseLaidOut,
          lastLaidOut⟩
      · exact ⟨nonempty, wellFormed, handlersWellFormed, bareLast, clauseWellFormed, lastWellFormed,
          handled, notAlone⟩
    | function name parameters =>
      obtain ⟨block, inner, rfl⟩ := (statement_def place depth location name parameters).mp given
      obtain ⟨first, rfl, laidOut, nonempty, wellFormed⟩ := body_sound sound short inner
      exact ⟨first, rfl, ⟨first, rfl, laidOut⟩, nonempty, wellFormed⟩
    | klass name base =>
      obtain ⟨block, inner, rfl⟩ := (statement_class place depth location name base).mp given
      obtain ⟨first, rfl, laidOut, nonempty, wellFormed⟩ := body_sound sound short inner
      exact ⟨first, rfl, ⟨first, rfl, laidOut⟩, nonempty, wellFormed⟩
    | elseIf | otherwise | handle | cleanup =>
      rw [statement] at given
      exact absurd given gives_failAt

end

/-- What a sequence gives is laid out in the lines that it uses, whatever their number. -/
theorem sequence_sound (count : Nat) : SequencesSound count := by
  induction count with
  | zero => exact fun short => absurd short (Nat.not_lt_zero _)
  | succ count sound =>
    intro place depth lines statements left short given
    cases lines with
    | nil =>
      obtain ⟨rfl, rfl⟩ := (sequence_nil place depth).mp given
      exact ⟨[], rfl, rfl, trivial, by simp⟩
    | cons line lines =>
      rw [List.length_cons] at short
      obtain ⟨less, rfl, rfl⟩ | ⟨rfl, first, middle, others, start, further, rfl⟩ :=
        (sequence_cons place depth).mp given
      · exact ⟨[], rfl, rfl, trivial, by simpa using less⟩
      · have bound := start.length_le
        obtain ⟨taken, rfl, laidOut, wellFormed⟩ := statement_sound sound (by omega) start
        obtain ⟨taken', rfl, othersLaidOut, othersWellFormed, ends⟩ := sound (by omega) further
        exact ⟨line :: taken ++ taken', by simp, ⟨_, _, rfl, laidOut, othersLaidOut⟩,
          ⟨wellFormed, othersWellFormed⟩, ends⟩

/-! ### A layout is grouped to its statements -/

/-- The line is a clause of the statement before it. -/
def IsClause (line : Line) : Prop :=
  match line.content with
  | .header (.elseIf _) => True
  | .header .otherwise => True
  | .header (.handle _ _) => True
  | .header .cleanup => True
  | _ => False

/-- A statement at this depth ends before these lines. -/
def Stops (depth : Nat) (lines : List Line) : Prop :=
  ∀ after ∈ lines.head?, after.depth < depth ∨ after.depth = depth ∧ ¬ IsClause after

/-- The next line is not deeper than this. -/
def Shallow (depth : Nat) (lines : List Line) : Prop :=
  ∀ after ∈ lines.head?, after.depth ≤ depth

theorem Stops.shallow {depth : Nat} {lines : List Line} (stops : Stops depth lines) :
    Shallow depth lines := by
  intro after next
  obtain less | ⟨same, -⟩ := stops after next
  · exact Nat.le_of_lt less
  · exact Nat.le_of_eq same

theorem Stops.nextHeader?_ne {depth : Nat} {lines : List Line} (stops : Stops depth lines)
    {header : Header} (isClause : ∀ location, IsClause ⟨depth, location, .header header⟩) :
    nextHeader? depth lines ≠ some header := by
  intro next
  cases lines with
  | nil => simp [nextHeader?] at next
  | cons line rest =>
    have form := headerAt?_eq_some.mp (show Line.headerAt? line depth = some header from next)
    rw [form] at stops
    obtain less | ⟨-, noClause⟩ := stops _ rfl
    · exact absurd less (Nat.lt_irrefl _)
    · exact noClause (isClause _)

/-- Every statement starts with a line that is no clause. -/
theorem LaidOut.starts {place : Place} {depth : Nat} {statement : Stmt} {lines : List Line}
    (laidOut : LaidOut depth statement lines) (wellFormed : WellFormed place statement) :
    ∃ line rest, lines = line :: rest ∧ line.depth = depth ∧ ¬ IsClause line := by
  cases statement with
  | simple => exact ⟨_, _, laidOut, rfl, id⟩
  | choice location branches otherwise =>
    obtain ⟨first, second, rfl, branchesLaidOut, -⟩ := laidOut
    cases branches with
    | nil => simp [WellFormed] at wellFormed
    | cons branch others =>
      obtain ⟨location, condition, body⟩ := branch
      obtain ⟨block, rest, rfl, -⟩ := branchesLaidOut
      exact ⟨_, _, rfl, rfl, id⟩
  | whileLoop | forLoop =>
    obtain ⟨first, second, rfl, -⟩ := laidOut
    exact ⟨_, _, rfl, rfl, id⟩
  | attempt =>
    obtain ⟨first, second, third, fourth, rfl, -⟩ := laidOut
    exact ⟨_, _, rfl, rfl, id⟩
  | functionDef | classDef =>
    obtain ⟨first, rfl, -⟩ := laidOut
    exact ⟨_, _, rfl, rfl, id⟩

/-- Whatever stands before them, the lines of statements at a depth start with no clause. -/
theorem AllLaidOut.stops {place : Place} {depth : Nat} {statements : List Stmt}
    {lines left : List Line} (laidOut : AllLaidOut depth statements lines)
    (wellFormed : WellFormedAll place statements) (ends : ∀ after ∈ left.head?, after.depth < depth) :
    Stops depth (lines ++ left) := by
  cases statements with
  | nil =>
    obtain rfl : lines = [] := laidOut
    exact fun after next => .inl (ends after next)
  | cons statement rest =>
    obtain ⟨first, others, rfl, start, -⟩ := laidOut
    obtain ⟨line, rest, rfl, same, noClause⟩ := start.starts wellFormed.1
    intro after next
    obtain rfl : line = after := by simpa using next
    exact .inr ⟨same, noClause⟩

/-- A clause that is there comes next, and one that is missing leaves what comes next open. -/
theorem ClauseLaidOut.nextHeader? {depth : Nat} {header : Header} {found : Option (List Stmt)}
    {lines left : List Line} (laidOut : ClauseLaidOut depth header found lines) :
    nextHeader? depth (lines ++ left) =
      if found.isSome then some header else nextHeader? depth left := by
  cases found with
  | none =>
    obtain rfl : lines = [] := laidOut
    rfl
  | some block =>
    obtain ⟨location, first, rfl, -⟩ := laidOut
    exact headerAt?_eq_some.mpr rfl

theorem ClauseLaidOut.shallow {depth : Nat} {header : Header} {found : Option (List Stmt)}
    {lines left : List Line} (laidOut : ClauseLaidOut depth header found lines)
    (shallow : Shallow depth left) : Shallow depth (lines ++ left) := by
  cases found with
  | none =>
    obtain rfl : lines = [] := laidOut
    exact shallow
  | some block =>
    obtain ⟨location, first, rfl, -⟩ := laidOut
    simp [Shallow]

theorem BranchesLaidOut.shallow {depth : Nat} {branches : List Branch} {lines left : List Line}
    (laidOut : BranchesLaidOut depth .elseIf branches lines) (shallow : Shallow depth left) :
    Shallow depth (lines ++ left) := by
  cases branches with
  | nil =>
    obtain rfl : lines = [] := laidOut
    exact shallow
  | cons branch rest =>
    obtain ⟨location, condition, body⟩ := branch
    obtain ⟨first, others, rfl, -⟩ := laidOut
    simp [Shallow]

theorem HandlersLaidOut.shallow {depth : Nat} {handlers : List Handler} {lines left : List Line}
    (laidOut : HandlersLaidOut depth handlers lines) (shallow : Shallow depth left) :
    Shallow depth (lines ++ left) := by
  cases handlers with
  | nil =>
    obtain rfl : lines = [] := laidOut
    exact shallow
  | cons handler rest =>
    obtain ⟨location, class?, name, body⟩ := handler
    obtain ⟨first, others, rfl, -⟩ := laidOut
    simp [Shallow]

/-- A body is grouped if its statements are. -/
theorem body_complete {place : Place} (line : Line) (header : Header) {block : List Stmt}
    {lines left : List Line} (laidOut : BodyLaidOut line.depth block lines)
    (nonempty : block ≠ []) (wellFormed : WellFormedAll place block)
    (shallow : Shallow line.depth left)
    (complete : ∀ {inner}, AllLaidOut inner block lines →
      (∀ after ∈ left.head?, after.depth < inner) →
      Gives (sequence place inner (lines ++ left)) block left) :
    Gives (body place line header (lines ++ left)) block left := by
  obtain ⟨inner, deeper, blockLaidOut⟩ := laidOut
  have ends : ∀ after ∈ left.head?, after.depth < inner :=
    fun after next => Nat.lt_of_le_of_lt (shallow after next) deeper
  have given := complete blockLaidOut ends
  cases block with
  | nil => exact absurd rfl nonempty
  | cons statement rest =>
    obtain ⟨first, others, rfl, start, -⟩ := blockLaidOut
    obtain ⟨top, rest, rfl, rfl, -⟩ := start.starts wellFormed.1
    exact (body_gives place line header).mpr ⟨top, _, rfl, deeper, given, shallow⟩

mutual

theorem statement_complete (place : Place) (depth : Nat) : (statement : Stmt) → (line : Line) →
    (lines left : List Line) → LaidOut depth statement (line :: lines) →
    WellFormed place statement → Stops depth left →
    Gives (Block.statement place line (lines ++ left)) statement left
  | .simple location action, line, lines, left, laidOut, allowed, _ => by
    obtain ⟨rfl, rfl⟩ := List.cons.inj laidOut
    exact (statement_simple place depth location action).mpr ⟨allowed, rfl, rfl⟩
  | .choice _ [] _, _, _, _, _, wellFormed, _ => by simp [WellFormed] at wellFormed
  | .choice location (.mk _ condition block :: rest) otherwise, line, lines, left, laidOut,
      wellFormed, stops => by
    obtain ⟨_, second, same, ⟨first, others, rfl, bodyLaidOut, othersLaidOut⟩, clauseLaidOut⟩ :=
      laidOut
    obtain ⟨sameLocation, ⟨nonempty, bodyWellFormed, othersWellFormed⟩, clauseWellFormed⟩ :=
      wellFormed
    obtain rfl : _ = location := by simpa [Branch.location] using sameLocation
    simp only [List.cons_append, List.append_assoc, List.cons.injEq] at same
    obtain ⟨rfl, rfl⟩ := same
    have shallow := clauseLaidOut.shallow stops.shallow
    have noBranch (condition) : nextHeader? depth (second ++ left) ≠ some (.elseIf condition) := by
      rw [clauseLaidOut.nextHeader?]
      split
      · simp
      · exact stops.nextHeader?_ne fun _ => trivial
    rw [List.append_assoc, List.append_assoc]
    refine (statement_if place depth _ condition).mpr ⟨block, others ++ (second ++ left), rest,
      second ++ left, otherwise, ?_, ?_, ?_, rfl⟩
    · exact body_complete _ _ bodyLaidOut nonempty bodyWellFormed (othersLaidOut.shallow shallow)
        fun laidOut ends => sequence_complete place _ block _ _ laidOut bodyWellFormed ends
    · exact branches_complete place depth rest others _ othersLaidOut othersWellFormed shallow
        noBranch
    · exact clause_complete place depth .otherwise otherwise second left clauseLaidOut
        clauseWellFormed stops.shallow (stops.nextHeader?_ne fun _ => trivial)
  | .whileLoop location condition block otherwise, line, lines, left, laidOut, wellFormed,
      stops => by
    obtain ⟨first, second, same, bodyLaidOut, clauseLaidOut⟩ := laidOut
    obtain ⟨nonempty, bodyWellFormed, clauseWellFormed⟩ := wellFormed
    simp only [List.cons_append, List.cons.injEq] at same
    obtain ⟨rfl, rfl⟩ := same
    refine (statement_while place depth location condition).mpr ⟨block, second ++ left, otherwise,
      ?_, ?_, rfl⟩
    · rw [List.append_assoc]
      exact body_complete _ _ bodyLaidOut nonempty bodyWellFormed
        (clauseLaidOut.shallow stops.shallow)
        fun laidOut ends => sequence_complete place.loop _ block _ _ laidOut bodyWellFormed ends
    · exact clause_complete place depth .otherwise otherwise second left clauseLaidOut
        clauseWellFormed stops.shallow (stops.nextHeader?_ne fun _ => trivial)
  | .forLoop location target iterable block otherwise, line, lines, left, laidOut, wellFormed,
      stops => by
    obtain ⟨first, second, same, bodyLaidOut, clauseLaidOut⟩ := laidOut
    obtain ⟨nonempty, bodyWellFormed, clauseWellFormed⟩ := wellFormed
    simp only [List.cons_append, List.cons.injEq] at same
    obtain ⟨rfl, rfl⟩ := same
    refine (statement_for place depth location target iterable).mpr ⟨block, second ++ left,
      otherwise, ?_, ?_, rfl⟩
    · rw [List.append_assoc]
      exact body_complete _ _ bodyLaidOut nonempty bodyWellFormed
        (clauseLaidOut.shallow stops.shallow)
        fun laidOut ends => sequence_complete place.loop _ block _ _ laidOut bodyWellFormed ends
    · exact clause_complete place depth .otherwise otherwise second left clauseLaidOut
        clauseWellFormed stops.shallow (stops.nextHeader?_ne fun _ => trivial)
  | .attempt location block handlers otherwise cleanup, line, lines, left, laidOut, wellFormed,
      stops => by
    obtain ⟨first, second, third, fourth, same, bodyLaidOut, handlersLaidOut, clauseLaidOut,
      lastLaidOut⟩ := laidOut
    obtain ⟨nonempty, bodyWellFormed, handlersWellFormed, bareLast, clauseWellFormed,
      lastWellFormed, handled, notAlone⟩ := wellFormed
    simp only [List.cons_append, List.cons.injEq] at same
    obtain ⟨rfl, rfl⟩ := same
    have lastShallow := lastLaidOut.shallow stops.shallow
    have shallow := clauseLaidOut.shallow lastShallow
    have noElse : nextHeader? depth (fourth ++ left) ≠ some .otherwise := by
      rw [lastLaidOut.nextHeader?]
      split
      · simp
      · exact stops.nextHeader?_ne fun _ => trivial
    have noHandler (class? name) :
        nextHeader? depth (third ++ (fourth ++ left)) ≠ some (.handle class? name) := by
      rw [clauseLaidOut.nextHeader?, lastLaidOut.nextHeader?]
      split
      · simp
      · split
        · simp
        · exact stops.nextHeader?_ne fun _ => trivial
    rw [List.append_assoc, List.append_assoc, List.append_assoc]
    refine (statement_try place depth location).mpr ⟨block,
      second ++ (third ++ (fourth ++ left)), handlers, third ++ (fourth ++ left), otherwise,
      fourth ++ left, cleanup, ?_, ?_, ?_, ?_, handled, notAlone, rfl⟩
    · exact body_complete _ _ bodyLaidOut nonempty bodyWellFormed (handlersLaidOut.shallow shallow)
        fun laidOut ends => sequence_complete place _ block _ _ laidOut bodyWellFormed ends
    · exact handlers_complete place depth handlers second _ handlersLaidOut handlersWellFormed
        bareLast shallow noHandler
    · exact clause_complete place depth .otherwise otherwise third _ clauseLaidOut clauseWellFormed
        lastShallow noElse
    · exact clause_complete place depth .cleanup cleanup fourth left lastLaidOut lastWellFormed
        stops.shallow (stops.nextHeader?_ne fun _ => trivial)
  | .functionDef location name parameters block, line, lines, left, laidOut, wellFormed, stops => by
    obtain ⟨first, same, bodyLaidOut⟩ := laidOut
    obtain ⟨rfl, rfl⟩ := List.cons.inj same
    refine (statement_def place depth location name parameters).mpr ⟨block, ?_, rfl⟩
    exact body_complete _ _ bodyLaidOut wellFormed.1 wellFormed.2 stops.shallow
      fun laidOut ends => sequence_complete .function _ block _ _ laidOut wellFormed.2 ends
  | .classDef location name base block, line, lines, left, laidOut, wellFormed, stops => by
    obtain ⟨first, same, bodyLaidOut⟩ := laidOut
    obtain ⟨rfl, rfl⟩ := List.cons.inj same
    refine (statement_class place depth location name base).mpr ⟨block, ?_, rfl⟩
    exact body_complete _ _ bodyLaidOut wellFormed.1 wellFormed.2 stops.shallow
      fun laidOut ends => sequence_complete .klass _ block _ _ laidOut wellFormed.2 ends

theorem sequence_complete (place : Place) (depth : Nat) : (statements : List Stmt) →
    (lines left : List Line) → AllLaidOut depth statements lines →
    WellFormedAll place statements → (∀ after ∈ left.head?, after.depth < depth) →
    Gives (sequence place depth (lines ++ left)) statements left
  | [], lines, left, laidOut, _, ends => by
    obtain rfl : lines = [] := laidOut
    cases left with
    | nil => exact (sequence_nil place depth).mpr ⟨rfl, rfl⟩
    | cons after rest => exact (sequence_cons place depth).mpr (.inl ⟨ends after rfl, rfl, rfl⟩)
  | statement :: rest, lines, left, laidOut, wellFormed, ends => by
    obtain ⟨first, others, rfl, start, othersLaidOut⟩ := laidOut
    obtain ⟨line, lines, rfl, same, -⟩ := start.starts wellFormed.1
    rw [List.append_assoc]
    exact (sequence_cons place depth).mpr (.inr ⟨same, statement, others ++ left, rest,
      statement_complete place depth statement line lines _ start wellFormed.1
        (othersLaidOut.stops wellFormed.2 ends),
      sequence_complete place depth rest others left othersLaidOut wellFormed.2 ends, rfl⟩)

theorem clause_complete (place : Place) (depth : Nat) (header : Header) :
    (found : Option (List Stmt)) → (lines left : List Line) →
    ClauseLaidOut depth header found lines → WellFormedElse place found → Shallow depth left →
    nextHeader? depth left ≠ some header →
    GivesClause place depth header (lines ++ left) found left
  | none, lines, left, laidOut, _, _, differs => by
    obtain rfl : lines = [] := laidOut
    exact .inr ⟨differs, rfl, rfl⟩
  | some block, lines, left, laidOut, wellFormed, shallow, _ => by
    obtain ⟨location, first, rfl, bodyLaidOut⟩ := laidOut
    exact .inl ⟨location, first ++ left, block, rfl, body_complete _ _ bodyLaidOut wellFormed.1
      wellFormed.2 shallow
      (fun laidOut ends => sequence_complete place _ block _ _ laidOut wellFormed.2 ends), rfl⟩

theorem branches_complete (place : Place) (depth : Nat) : (branches : List Branch) →
    (lines left : List Line) → BranchesLaidOut depth .elseIf branches lines →
    WellFormedBranches place branches → Shallow depth left →
    (∀ condition, nextHeader? depth left ≠ some (.elseIf condition)) →
    Gives (Block.branches place depth (lines ++ left)) branches left
  | [], lines, left, laidOut, _, _, differs => by
    obtain rfl : lines = [] := laidOut
    exact (branches_gives place depth).mpr (.inr ⟨differs, rfl, rfl⟩)
  | .mk location condition block :: rest, lines, left, laidOut, wellFormed, shallow, differs => by
    obtain ⟨first, others, rfl, bodyLaidOut, othersLaidOut⟩ := laidOut
    obtain ⟨nonempty, bodyWellFormed, othersWellFormed⟩ := wellFormed
    rw [List.append_assoc]
    exact (branches_gives place depth).mpr (.inl ⟨location, condition, first ++ (others ++ left),
      block, others ++ left, rest, rfl,
      body_complete _ _ bodyLaidOut nonempty bodyWellFormed (othersLaidOut.shallow shallow)
        (fun laidOut ends => sequence_complete place _ block _ _ laidOut bodyWellFormed ends),
      branches_complete place depth rest others left othersLaidOut othersWellFormed shallow differs,
      rfl⟩)

theorem handlers_complete (place : Place) (depth : Nat) : (handlers : List Handler) →
    (lines left : List Line) → HandlersLaidOut depth handlers lines →
    WellFormedHandlers place handlers → BareLast handlers → Shallow depth left →
    (∀ class? name, nextHeader? depth left ≠ some (.handle class? name)) →
    Gives (Block.handlers place depth none (lines ++ left)) handlers left
  | [], lines, left, laidOut, _, _, _, differs => by
    obtain rfl : lines = [] := laidOut
    exact (handlers_gives place depth none).mpr (.inr ⟨differs, rfl, rfl⟩)
  | .mk location class? name block :: rest, lines, left, laidOut, wellFormed, bareLast, shallow,
      differs => by
    obtain ⟨first, others, rfl, bodyLaidOut, othersLaidOut⟩ := laidOut
    obtain ⟨nonempty, bodyWellFormed, othersWellFormed⟩ := wellFormed
    obtain ⟨notBare, othersBareLast⟩ := bareLast_cons.mp bareLast
    rw [List.append_assoc]
    refine (handlers_gives place depth none).mpr (.inl ⟨location, class?, name,
      first ++ (others ++ left), block, others ++ left, rest, rfl, rfl, ?_, ?_, rfl⟩)
    · exact body_complete _ _ bodyLaidOut nonempty bodyWellFormed (othersLaidOut.shallow shallow)
        fun laidOut ends => sequence_complete place _ block _ _ laidOut bodyWellFormed ends
    · by_cases isBare : class?.isNone
      · obtain rfl : rest = [] := by
          cases rest with
          | nil => rfl
          | cons => exact absurd isBare (notBare (by simp))
        obtain rfl : others = [] := othersLaidOut
        exact (handlers_gives place depth _).mpr (.inr ⟨differs, rfl, rfl⟩)
      · rw [if_neg isBare]
        exact handlers_complete place depth rest others left othersLaidOut othersWellFormed
          othersBareLast shallow differs

end

/-! ### The whole file -/

/-- Grouping gives some statements exactly for the layouts of these statements at depth zero, if
they are well formed at all. -/
theorem group_eq_ok {lines : List Line} {program : List Stmt} :
    group lines = .ok program ↔ AllLaidOut 0 program lines ∧ WellFormedAll .top program := by
  constructor
  · intro grouped
    cases lines with
    | nil =>
      obtain rfl : [] = program := by simpa [group] using grouped
      exact ⟨rfl, trivial⟩
    | cons first rest =>
      rw [group] at grouped
      split at grouped
      · simp [failAt] at grouped
      · obtain ⟨⟨found, left, bound⟩, done, same⟩ := Row.bind_ok grouped
        obtain rfl : found = program := by simpa [pure, Except.pure] using same
        obtain ⟨taken, form, laidOut, wellFormed, ends⟩ :=
          sequence_sound _ (Nat.lt_succ_self _) ⟨bound, done⟩
        cases left with
        | nil => exact ⟨by rwa [form, List.append_nil], wellFormed⟩
        | cons after _ => exact absurd (ends after rfl) (Nat.not_lt_zero _)
  · rintro ⟨laidOut, wellFormed⟩
    have given := sequence_complete .top 0 program lines [] laidOut wellFormed (by simp)
    rw [List.append_nil] at given
    obtain ⟨bound, done⟩ := given
    cases lines with
    | nil =>
      obtain ⟨rfl, -⟩ := (sequence_nil .top 0).mp ⟨bound, done⟩
      rfl
    | cons first rest =>
      have shallow : first.depth = 0 := by
        have stops : Stops 0 (first :: rest ++ []) := laidOut.stops wellFormed (by simp)
        obtain less | ⟨same, -⟩ := stops first rfl
        · exact absurd less (Nat.not_lt_zero _)
        · exact same
      rw [group, if_neg (by simpa using shallow), done]
      rfl

/-! ### Writing statements as lines -/

/-- What is open when a block is written as lines. -/
structure Choice where
  /-- By how much the block stands deeper than it has to. -/
  extra : Nat
  /-- Where the header of an `else` or `finally` block is, which its statement does not keep. -/
  header : Location

/-- A choice for every block of some statements. A block is found by the turns on the way to it. -/
abbrev Plan := List Nat → Choice

namespace Plan

/-- The choices past a turn. -/
def past (plan : Plan) (turn : Nat) : Plan :=
  fun path => plan (turn :: path)

/-- The depth of a block whose header stands at the given depth. -/
def inner (plan : Plan) (depth : Nat) : Nat :=
  depth + 1 + (plan []).extra

theorem lt_inner (plan : Plan) (depth : Nat) : depth < plan.inner depth := by
  simp only [inner]
  omega

/-- The plan with this choice at its start and these plans past each turn. -/
def join (choice : Choice) (plans : List Plan) : Plan
  | [] => choice
  | turn :: path => (plans[turn]?.map (· path)).getD choice

@[simp]
theorem past_join (choice : Choice) (plans : List Plan) {turn : Nat} (bound : turn < plans.length) :
    (join choice plans).past turn = plans[turn] := by
  funext path
  simp [past, join, bound]

/-- The same plan with another choice at its start. -/
def start (plan : Plan) (choice : Choice) : Plan
  | [] => choice
  | turn :: path => plan (turn :: path)

@[simp]
theorem past_start (plan : Plan) (choice : Choice) (turn : Nat) :
    (plan.start choice).past turn = plan.past turn :=
  rfl

end Plan

mutual

/-- The lines of a statement at a depth, under a plan for the blocks in it. -/
def flatten (plan : Plan) (depth : Nat) : Stmt → List Line
  | .simple location action => [⟨depth, location, .simple action⟩]
  | .choice _ branches otherwise =>
    flattenBranches (plan.past 0) depth .ifTrue branches ++
      flattenClause (plan.past 1) depth .otherwise otherwise
  | .whileLoop location condition body otherwise =>
    ⟨depth, location, .header (.whileTrue condition)⟩ ::
      flattenAll (plan.past 0) ((plan.past 0).inner depth) body ++
      flattenClause (plan.past 1) depth .otherwise otherwise
  | .forLoop location target iterable body otherwise =>
    ⟨depth, location, .header (.forEach target iterable)⟩ ::
      flattenAll (plan.past 0) ((plan.past 0).inner depth) body ++
      flattenClause (plan.past 1) depth .otherwise otherwise
  | .attempt location body handlers otherwise cleanup =>
    ⟨depth, location, .header .attempt⟩ ::
      flattenAll (plan.past 0) ((plan.past 0).inner depth) body ++
      (flattenHandlers (plan.past 1) depth handlers ++
        (flattenClause (plan.past 2) depth .otherwise otherwise ++
          flattenClause (plan.past 3) depth .cleanup cleanup))
  | .functionDef location name parameters body =>
    ⟨depth, location, .header (.function name parameters)⟩ ::
      flattenAll plan (plan.inner depth) body
  | .classDef location name base body =>
    ⟨depth, location, .header (.klass name base)⟩ :: flattenAll plan (plan.inner depth) body

/-- The lines of statements, one after the other and all at one depth. -/
def flattenAll (plan : Plan) (depth : Nat) : List Stmt → List Line
  | [] => []
  | statement :: rest =>
    flatten (plan.past 0) depth statement ++ flattenAll (plan.past 1) depth rest

def flattenClause (plan : Plan) (depth : Nat) (header : Header) : Option (List Stmt) → List Line
  | none => []
  | some body =>
    ⟨depth, (plan []).header, .header header⟩ :: flattenAll plan (plan.inner depth) body

def flattenBranches (plan : Plan) (depth : Nat) (header : Expr → Header) :
    List Branch → List Line
  | [] => []
  | .mk location condition body :: rest =>
    ⟨depth, location, .header (header condition)⟩ ::
      flattenAll (plan.past 0) ((plan.past 0).inner depth) body ++
      flattenBranches (plan.past 1) depth .elseIf rest

def flattenHandlers (plan : Plan) (depth : Nat) : List Handler → List Line
  | [] => []
  | .mk location class? name body :: rest =>
    ⟨depth, location, .header (.handle class? name)⟩ ::
      flattenAll (plan.past 0) ((plan.past 0).inner depth) body ++
      flattenHandlers (plan.past 1) depth rest

end

mutual

/-- Under every plan, the lines of a statement are a layout of it. -/
theorem flatten_laidOut (plan : Plan) (depth : Nat) : (statement : Stmt) →
    LaidOut depth statement (flatten plan depth statement)
  | .simple _ _ => rfl
  | .choice _ branches otherwise =>
    ⟨_, _, rfl, flattenBranches_laidOut _ depth .ifTrue branches,
      flattenClause_laidOut _ depth .otherwise otherwise⟩
  | .whileLoop _ _ body otherwise =>
    ⟨_, _, rfl, ⟨_, Plan.lt_inner _ depth, flattenAll_laidOut _ _ body⟩,
      flattenClause_laidOut _ depth .otherwise otherwise⟩
  | .forLoop _ _ _ body otherwise =>
    ⟨_, _, rfl, ⟨_, Plan.lt_inner _ depth, flattenAll_laidOut _ _ body⟩,
      flattenClause_laidOut _ depth .otherwise otherwise⟩
  | .attempt _ body handlers otherwise cleanup =>
    ⟨_, _, _, _, rfl, ⟨_, Plan.lt_inner _ depth, flattenAll_laidOut _ _ body⟩,
      flattenHandlers_laidOut _ depth handlers,
      flattenClause_laidOut _ depth .otherwise otherwise,
      flattenClause_laidOut _ depth .cleanup cleanup⟩
  | .functionDef _ _ _ body =>
    ⟨_, rfl, _, Plan.lt_inner plan depth, flattenAll_laidOut plan _ body⟩
  | .classDef _ _ _ body =>
    ⟨_, rfl, _, Plan.lt_inner plan depth, flattenAll_laidOut plan _ body⟩

theorem flattenAll_laidOut (plan : Plan) (depth : Nat) : (statements : List Stmt) →
    AllLaidOut depth statements (flattenAll plan depth statements)
  | [] => rfl
  | statement :: rest =>
    ⟨_, _, rfl, flatten_laidOut _ depth statement, flattenAll_laidOut _ depth rest⟩

theorem flattenClause_laidOut (plan : Plan) (depth : Nat) (header : Header) :
    (found : Option (List Stmt)) →
    ClauseLaidOut depth header found (flattenClause plan depth header found)
  | none => rfl
  | some body =>
    ⟨_, _, rfl, _, Plan.lt_inner plan depth, flattenAll_laidOut plan _ body⟩

theorem flattenBranches_laidOut (plan : Plan) (depth : Nat) (header : Expr → Header) :
    (branches : List Branch) →
    BranchesLaidOut depth header branches (flattenBranches plan depth header branches)
  | [] => rfl
  | .mk _ _ body :: rest =>
    ⟨_, _, rfl, ⟨_, Plan.lt_inner _ depth, flattenAll_laidOut _ _ body⟩,
      flattenBranches_laidOut _ depth .elseIf rest⟩

theorem flattenHandlers_laidOut (plan : Plan) (depth : Nat) : (handlers : List Handler) →
    HandlersLaidOut depth handlers (flattenHandlers plan depth handlers)
  | [] => rfl
  | .mk _ _ _ body :: rest =>
    ⟨_, _, rfl, ⟨_, Plan.lt_inner _ depth, flattenAll_laidOut _ _ body⟩,
      flattenHandlers_laidOut _ depth rest⟩

end

/-- The choice at the start of a plan is for the block itself and not for what is in it. -/
@[simp]
theorem flattenAll_start (plan : Plan) (choice : Choice) (depth : Nat) (statements : List Stmt) :
    flattenAll (plan.start choice) depth statements = flattenAll plan depth statements := by
  cases statements <;> simp [flattenAll]

/-- A plan for the statements of a block gives one for the block. -/
theorem BodyLaidOut.exists_plan {depth : Nat} {block : List Stmt} {lines : List Line}
    (laidOut : BodyLaidOut depth block lines) (location : Location)
    (found : ∀ {inner}, AllLaidOut inner block lines → ∃ plan, flattenAll plan inner block = lines) :
    ∃ plan : Plan, (plan []).header = location ∧
      flattenAll plan (plan.inner depth) block = lines := by
  obtain ⟨inner, deeper, blockLaidOut⟩ := laidOut
  obtain ⟨plan, rfl⟩ := found blockLaidOut
  refine ⟨plan.start ⟨inner - (depth + 1), location⟩, rfl, ?_⟩
  have same : (plan.start ⟨inner - (depth + 1), location⟩).inner depth = inner := by
    simp only [Plan.inner, Plan.start]
    omega
  rw [same, flattenAll_start]

mutual

/-- Every layout of a statement is its lines under some plan. -/
theorem LaidOut.exists_plan {depth : Nat} : (statement : Stmt) → {lines : List Line} →
    LaidOut depth statement lines → ∃ plan, flatten plan depth statement = lines
  | .simple _ _, _, laidOut => ⟨fun _ => ⟨0, default⟩, laidOut.symm⟩
  | .choice location branches otherwise, _, laidOut => by
    obtain ⟨first, second, rfl, branchesLaidOut, clauseLaidOut⟩ := laidOut
    obtain ⟨firstPlan, rfl⟩ := BranchesLaidOut.exists_plan branches branchesLaidOut
    obtain ⟨secondPlan, rfl⟩ := ClauseLaidOut.exists_plan otherwise clauseLaidOut
    exact ⟨.join ⟨0, location⟩ [firstPlan, secondPlan], by simp [flatten]⟩
  | .whileLoop location condition block otherwise, _, laidOut => by
    obtain ⟨first, second, rfl, bodyLaidOut, clauseLaidOut⟩ := laidOut
    obtain ⟨firstPlan, -, rfl⟩ :=
      BodyLaidOut.exists_plan bodyLaidOut location (AllLaidOut.exists_plan block)
    obtain ⟨secondPlan, rfl⟩ := ClauseLaidOut.exists_plan otherwise clauseLaidOut
    exact ⟨.join ⟨0, location⟩ [firstPlan, secondPlan], by simp [flatten]⟩
  | .forLoop location target iterable block otherwise, _, laidOut => by
    obtain ⟨first, second, rfl, bodyLaidOut, clauseLaidOut⟩ := laidOut
    obtain ⟨firstPlan, -, rfl⟩ :=
      BodyLaidOut.exists_plan bodyLaidOut location (AllLaidOut.exists_plan block)
    obtain ⟨secondPlan, rfl⟩ := ClauseLaidOut.exists_plan otherwise clauseLaidOut
    exact ⟨.join ⟨0, location⟩ [firstPlan, secondPlan], by simp [flatten]⟩
  | .attempt location block handlers otherwise cleanup, _, laidOut => by
    obtain ⟨first, second, third, fourth, rfl, bodyLaidOut, handlersLaidOut, clauseLaidOut,
      lastLaidOut⟩ := laidOut
    obtain ⟨firstPlan, -, rfl⟩ :=
      BodyLaidOut.exists_plan bodyLaidOut location (AllLaidOut.exists_plan block)
    obtain ⟨secondPlan, rfl⟩ := HandlersLaidOut.exists_plan handlers handlersLaidOut
    obtain ⟨thirdPlan, rfl⟩ := ClauseLaidOut.exists_plan otherwise clauseLaidOut
    obtain ⟨fourthPlan, rfl⟩ := ClauseLaidOut.exists_plan cleanup lastLaidOut
    exact ⟨.join ⟨0, location⟩ [firstPlan, secondPlan, thirdPlan, fourthPlan], by simp [flatten]⟩
  | .functionDef location _ _ block, _, laidOut => by
    obtain ⟨first, rfl, bodyLaidOut⟩ := laidOut
    obtain ⟨plan, -, rfl⟩ :=
      BodyLaidOut.exists_plan bodyLaidOut location (AllLaidOut.exists_plan block)
    exact ⟨plan, rfl⟩
  | .classDef location _ _ block, _, laidOut => by
    obtain ⟨first, rfl, bodyLaidOut⟩ := laidOut
    obtain ⟨plan, -, rfl⟩ :=
      BodyLaidOut.exists_plan bodyLaidOut location (AllLaidOut.exists_plan block)
    exact ⟨plan, rfl⟩

theorem AllLaidOut.exists_plan {depth : Nat} : (statements : List Stmt) → {lines : List Line} →
    AllLaidOut depth statements lines → ∃ plan, flattenAll plan depth statements = lines
  | [], _, laidOut => ⟨fun _ => ⟨0, default⟩, laidOut.symm⟩
  | statement :: rest, _, laidOut => by
    obtain ⟨first, others, rfl, statementLaidOut, restLaidOut⟩ := laidOut
    obtain ⟨firstPlan, rfl⟩ := LaidOut.exists_plan statement statementLaidOut
    obtain ⟨secondPlan, rfl⟩ := AllLaidOut.exists_plan rest restLaidOut
    exact ⟨.join ⟨0, default⟩ [firstPlan, secondPlan], by simp [flattenAll]⟩

theorem ClauseLaidOut.exists_plan {depth : Nat} {header : Header} :
    (found : Option (List Stmt)) → {lines : List Line} →
    ClauseLaidOut depth header found lines → ∃ plan, flattenClause plan depth header found = lines
  | none, _, laidOut => ⟨fun _ => ⟨0, default⟩, laidOut.symm⟩
  | some block, _, laidOut => by
    obtain ⟨location, first, rfl, bodyLaidOut⟩ := laidOut
    obtain ⟨plan, rfl, rfl⟩ :=
      BodyLaidOut.exists_plan bodyLaidOut location (AllLaidOut.exists_plan block)
    exact ⟨plan, rfl⟩

theorem BranchesLaidOut.exists_plan {depth : Nat} {header : Expr → Header} :
    (branches : List Branch) → {lines : List Line} →
    BranchesLaidOut depth header branches lines →
    ∃ plan, flattenBranches plan depth header branches = lines
  | [], _, laidOut => ⟨fun _ => ⟨0, default⟩, laidOut.symm⟩
  | .mk location _ block :: rest, _, laidOut => by
    obtain ⟨first, others, rfl, bodyLaidOut, restLaidOut⟩ := laidOut
    obtain ⟨firstPlan, -, rfl⟩ :=
      BodyLaidOut.exists_plan bodyLaidOut location (AllLaidOut.exists_plan block)
    obtain ⟨secondPlan, rfl⟩ := BranchesLaidOut.exists_plan rest restLaidOut
    exact ⟨.join ⟨0, location⟩ [firstPlan, secondPlan], by simp [flattenBranches]⟩

theorem HandlersLaidOut.exists_plan {depth : Nat} : (handlers : List Handler) →
    {lines : List Line} → HandlersLaidOut depth handlers lines →
    ∃ plan, flattenHandlers plan depth handlers = lines
  | [], _, laidOut => ⟨fun _ => ⟨0, default⟩, laidOut.symm⟩
  | .mk location _ _ block :: rest, _, laidOut => by
    obtain ⟨first, others, rfl, bodyLaidOut, restLaidOut⟩ := laidOut
    obtain ⟨firstPlan, -, rfl⟩ :=
      BodyLaidOut.exists_plan bodyLaidOut location (AllLaidOut.exists_plan block)
    obtain ⟨secondPlan, rfl⟩ := HandlersLaidOut.exists_plan rest restLaidOut
    exact ⟨.join ⟨0, location⟩ [firstPlan, secondPlan], by simp [flattenHandlers]⟩

end

/-- Grouping and flattening undo each other: lines are grouped to some statements exactly if the
statements are well formed and the lines are theirs at depth zero, under some plan. -/
theorem group_eq_ok_iff_flattenAll (lines : List Line) (program : List Stmt) :
    group lines = .ok program ↔
      WellFormedAll .top program ∧ ∃ plan, flattenAll plan 0 program = lines := by
  rw [group_eq_ok, and_comm]
  refine and_congr_right fun _ => ⟨AllLaidOut.exists_plan program, ?_⟩
  rintro ⟨plan, rfl⟩
  exact flattenAll_laidOut plan 0 program

end Block

end Offside
