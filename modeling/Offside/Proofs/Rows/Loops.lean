/-
This file compares the two words that may stand between the targets and the source of a
loop. With `of` the reader stops at the word and reads the source as a list of its own.
With `in` it reads on, and the source is what it finds on the right of a membership test
that ends the list of targets.

So the two agree exactly if the source is one expression whose operators all bind tighter
than `in` does. Then header and rest are the same; otherwise `in` is refused, although the
header with `of` is read. Up to the word the same tokens are read alike. From it on, the
row of the source is the same with the last target and the word in front, and the grammar
of rows tells what becomes of it.
-/

import Offside.Proofs.Rows.Consumption
import Offside.Proofs.Rows.Membership
import Offside.Proofs.Targets

namespace Offside

namespace Row

/-! ### Rows with the same beginning -/

section Beginnings

variable {stop : List Kind} {pending : List Pending} {row items : List Item} {tokens : List Token}
  {head : Token} {rest left : Stream}

/-- Collecting stops before one of the first tokens, or goes through all of them, whatever comes
behind them. -/
theorem collect_after
    (collected : collect stop pending row (.after tokens (.token head rest)) = .ok (items, left)) :
    (∃ used next kept, tokens = used ++ next :: kept ∧
      left = .after (next :: kept) (.token head rest) ∧ ∀ head' rest',
        collect stop pending row (.after tokens (.token head' rest')) =
          .ok (items, .after (next :: kept) (.token head' rest'))) ∨
    ∃ pending' row', ∀ head' rest',
      collect stop pending row (.after tokens (.token head' rest')) =
        collect stop pending' row' (.token head' rest') := by
  induction tokens generalizing pending row with
  | nil => exact .inr ⟨pending, row, fun _ _ => rfl⟩
  | cons first tokens inductionHypothesis =>
    have turns (head' : Token) (rest' : Stream) :=
      collect_turn stop pending row first (.after tokens (.token head' rest'))
    have turned := turns head rest
    rw [← Stream.after_cons, collected] at turned
    cases same : turn stop pending row first with
    | stop =>
      rw [same] at turned turns
      cases turned
      exact .inl ⟨[], first, tokens, rfl, rfl, turns⟩
    | fault =>
      rw [same] at turned
      obtain ⟨error, fault⟩ := turned
      cases fault
    | go pending' row' =>
      rw [same] at turned turns
      have goesOn (head' : Token) (rest' : Stream) :
          collect stop pending row (.after (first :: tokens) (.token head' rest')) =
            collect stop pending' row' (.after tokens (.token head' rest')) := by
        refine (turns head' rest').trans ?_
        rw [Reading.ahead_after]
        rfl
      obtain ⟨used, next, kept, rfl, found, others⟩ | ⟨pending', row', others⟩ :=
        inductionHypothesis ((goesOn head rest).symm.trans collected)
      · exact .inl ⟨first :: used, next, kept, rfl, found,
          fun head' rest' => (goesOn head' rest').trans (others head' rest')⟩
      · exact .inr ⟨pending', row',
          fun head' rest' => (goesOn head' rest').trans (others head' rest')⟩

end Beginnings

/-! ### A row behind other entries -/

/-- The outermost row that is set aside goes on behind these entries. Rows are reversed. -/
def settle (base : List Item) : List Pending → List Pending
  | [] => []
  | [outermost] => [⟨outermost.opening, outermost.before ++ base⟩]
  | inner :: second :: outer => inner :: settle base (second :: outer)

/-- The current row goes on behind these entries if it is the outermost one. -/
def behind (base : List Item) (pending : List Pending) (row : List Item) : List Item :=
  if pending.isEmpty then row ++ base else row

/-- A turn that finds no fault is the same turn of rows that go on behind these entries. -/
inductive Turn.Carries (base : List Item) : Turn → Turn → Prop
  | stop : Turn.Carries base .stop .stop
  | go (pending : List Pending) (row : List Item) :
    Turn.Carries base (.go pending row) (.go (settle base pending) (behind base pending row))
  | fault (turn : Turn) : Turn.Carries base .fault turn

section Behind

-- What stands in front ends in `in`, so an operand may follow and is none of an attribute.
variable {location : Location} {front base : List Item}
  (ends : base = .token ⟨.keyword .inWord, location⟩ :: front)

theorem isEmpty_settle (pending : List Pending) :
    (settle base pending).isEmpty = pending.isEmpty := by
  obtain _ | ⟨inner, _ | ⟨second, outer⟩⟩ := pending <;> rfl

theorem settle_cons (inner : Pending) (pending : List Pending) :
    settle base (inner :: pending) =
      ⟨inner.opening, behind base pending inner.before⟩ :: settle base pending := by
  cases pending <;> rfl

theorem behind_token (pending : List Pending) (row : List Item) (token : Token) :
    .token token :: behind base pending row = behind base pending (.token token :: row) := by
  cases pending <;> rfl

include ends

theorem wantsName_behind (pending : List Pending) (row : List Item) :
    wantsName (behind base pending row) = wantsName row := by
  subst ends
  cases pending with
  | cons => rfl
  | nil =>
    obtain _ | ⟨expression | ⟨lexeme, place⟩, rest⟩ := row
    · rfl
    · rfl
    · simp only [behind, List.isEmpty_nil, if_true, List.cons_append, wantsName]
      split <;> split <;> simp_all

theorem addOperand_behind {pending : List Pending} {row extended : List Item} {operand : Expr}
    {name : String} (added : addOperand row operand name = .ok extended) :
    addOperand (behind base pending row) operand name = .ok (behind base pending extended) := by
  subst ends
  cases pending with
  | cons => exact added
  | nil =>
    unfold addOperand at added
    split at added
    next =>
      cases added
      rfl
    next => cases added
    next noAttribute noPoint =>
      cases added
      obtain _ | ⟨item, rest⟩ := row
      · rfl
      · obtain expression | ⟨lexeme, place⟩ := item
        · rfl
        · have other : lexeme ≠ .symbol .dot := by
            rintro rfl
            exact noPoint place rest rfl
          simp only [behind, List.isEmpty_nil, if_true, List.cons_append, addOperand]
          split
          next same =>
            cases (List.cons.inj same).1
            exact absurd rfl other
          next same =>
            cases (List.cons.inj same).1
            exact absurd rfl other
          next => rfl

theorem closeGroup_behind {pending : List Pending} {inner : Pending} {row resumed : List Item}
    (closed : closeGroup inner row = .ok resumed) :
    closeGroup ⟨inner.opening, behind base pending inner.before⟩ row =
      .ok (behind base pending resumed) := by
  subst ends
  cases pending with
  | cons => exact closed
  | nil =>
    obtain ⟨opening, before⟩ := inner
    obtain _ | ⟨expression | token, before⟩ := before
    all_goals
      obtain ⟨group, made, last⟩ := bind_ok closed
      cases last
      simp only [behind, List.isEmpty_nil, if_true, List.cons_append, List.nil_append, closeGroup,
        made]
      rfl

theorem turn_behind (stop : List Kind) (pending : List Pending) (row : List Item) (head : Token) :
    (turn stop pending row head).Carries base
      (turn stop (settle base pending) (behind base pending row) head) := by
  unfold turn
  rw [wantsName_behind ends, isEmpty_settle]
  by_cases stops : (pending.isEmpty && stop.contains head.kind) = true
  · rw [if_pos stops, if_pos stops]
    exact .stop
  rw [if_neg stops, if_neg stops]
  by_cases unnamed : (wantsName row && decide (head.kind ≠ .identifier)) = true
  · rw [if_pos unnamed, if_pos unnamed]
    exact .fault _
  rw [if_neg unnamed, if_neg unnamed]
  cases role head with
  | lineBreak =>
    cases pending with
    | nil => exact .stop
    | cons inner outer => exact .go (inner :: outer) row
  | fileEnd =>
    cases pending with
    | nil => exact .stop
    | cons => exact .fault _
  | opens bracket =>
    have opened := @Turn.Carries.go base (⟨⟨bracket, head.location⟩, row⟩ :: pending) []
    rw [settle_cons] at opened
    exact opened
  | closes bracket =>
    cases pending with
    | nil => exact .stop
    | cons inner outer =>
      rw [settle_cons]
      dsimp only
      by_cases same : inner.opening.bracket = bracket
      · rw [if_pos same, if_pos same]
        cases closed : closeGroup inner row.reverse with
        | ok resumed =>
          have resumes : closeGroup ⟨inner.opening, behind base outer inner.before⟩ row.reverse =
              .ok (behind base outer resumed) := closeGroup_behind ends closed
          rw [show behind base (inner :: outer) row = row from rfl, resumes]
          exact .go outer resumed
        | error => exact .fault _
      · rw [if_neg same]
        exact .fault _
  | operand operand =>
    cases operand with
    | error => exact .fault _
    | ok operand =>
      dsimp only [Bind.bind, Except.bind]
      cases added : addOperand row operand head.lexeme.literal with
      | ok extended =>
        rw [addOperand_behind ends added]
        exact .go pending extended
      | error => exact .fault _
  | joins =>
    dsimp only
    rw [behind_token]
    exact .go pending (.token head :: row)
  | divides =>
    cases pending with
    | nil =>
      rw [show settle base [] = [] from rfl]
      dsimp only
      by_cases isComma : head.lexeme = .symbol .comma
      · rw [if_pos isComma, if_pos isComma]
        exact .go [] (.token head :: row)
      · rw [if_neg isComma, if_neg isComma]
        exact .stop
    | cons inner outer =>
      have goesOn := @Turn.Carries.go base (inner :: outer) (.token head :: row)
      rw [settle_cons] at goesOn ⊢
      dsimp only
      by_cases parts : separates inner.opening.bracket head.lexeme = true
      · rw [if_pos parts, if_pos parts]
        exact goesOn
      · rw [if_neg parts]
        exact .fault _

end Behind

/-- Collecting only stops outside of brackets. -/
theorem pending_of_stop {stop : List Kind} {pending : List Pending} {row : List Item} {head : Token}
    (stops : turn stop pending row head = .stop) : pending = [] := by
  cases pending with
  | nil => rfl
  | cons inner outer =>
    unfold turn at stops
    simp only [List.isEmpty_cons, Bool.false_and, Bool.false_eq_true, if_false] at stops
    split at stops
    · cases stops
    split at stops
    case h_4 =>
      split at stops
      · cases closed : closeGroup inner row.reverse <;> rw [closed] at stops <;> cases stops
      · cases stops
    case h_5 operand _ =>
      cases added : operand >>= fun operand => addOperand row operand head.lexeme.literal <;>
        rw [added] at stops <;> cases stops
    case h_7 => split at stops <;> cases stops
    all_goals cases stops

/-- Stopping at `of` too changes no turn that finds no fault. -/
theorem turn_of {pending : List Pending} {row : List Item} {head : Token}
    (noFault : turn [.symbol .comma] pending row head ≠ .fault) :
    turn [.symbol .comma, .keyword .ofWord] pending row head =
      turn [.symbol .comma] pending row head := by
  by_cases isOf : pending = [] ∧ head.kind = .keyword .ofWord
  · obtain ⟨rfl, isOf⟩ := isOf
    obtain ⟨lexeme, location⟩ := head
    obtain rfl : lexeme = .keyword .ofWord := by
      cases lexeme <;> cases isOf
      rfl
    have stops : turn [.symbol .comma, .keyword .ofWord] [] row ⟨.keyword .ofWord, location⟩ =
        .stop := rfl
    rw [stops]
    cases wants : wantsName row with
    | true =>
      refine absurd ?_ noFault
      simp [turn, wants, Token.kind, Lexeme.kind]
    | false =>
      simp [turn, wants, Token.kind, Lexeme.kind]
      rfl
  · have same : (pending.isEmpty && [Kind.symbol .comma, .keyword .ofWord].contains head.kind) =
        (pending.isEmpty && [Kind.symbol .comma].contains head.kind) := by
      cases pending with
      | nil =>
        have other : head.kind ≠ .keyword .ofWord := fun same => isOf ⟨rfl, same⟩
        simp [other]
      | cons => rfl
    unfold turn
    rw [same]

/-- What is collected on its own is collected behind other entries. -/
theorem collect_behind {location : Location} {front base : List Item}
    (ends : base = .token ⟨.keyword .inWord, location⟩ :: front) {pending : List Pending}
    {row items : List Item} {stream left : Stream} {next : Token}
    (collected : collect [.symbol .comma] pending row stream = .ok (items, .token next left)) :
    collect [.symbol .comma, .keyword .ofWord] (settle base pending) (behind base pending row)
      stream = .ok (base.reverse ++ items, .token next left) := by
  induction stream generalizing pending row with
  | ended => cases collected
  | failed => cases collected
  | token head rest inductionHypothesis =>
    have turned := collect_turn [.symbol .comma] pending row head rest
    have turnedBehind := collect_turn [.symbol .comma, .keyword .ofWord] (settle base pending)
      (behind base pending row) head rest
    rw [collected] at turned
    have noFault : turn [.symbol .comma] pending row head ≠ .fault := by
      intro fault
      rw [fault] at turned
      obtain ⟨_, impossible⟩ := turned
      cases impossible
    have carries := turn_behind ends [.symbol .comma, .keyword .ofWord] pending row head
    rw [turn_of noFault] at carries
    cases same : turn [.symbol .comma] pending row head with
    | fault => exact absurd same noFault
    | stop =>
      obtain rfl := pending_of_stop same
      rw [same] at turned carries
      generalize turned' : turn [.symbol .comma, .keyword .ofWord] (settle base [])
        (behind base [] row) head = other at carries turnedBehind
      cases carries
      cases turned
      refine turnedBehind.trans ?_
      simp [behind]
    | go pending' row' =>
      rw [same] at turned carries
      generalize turned' : turn [.symbol .comma, .keyword .ofWord] (settle base pending)
        (behind base pending row) head = other at carries turnedBehind
      cases carries
      refine turnedBehind.trans ?_
      obtain ⟨_, ready, goesOn⟩ := bind_ok turned.symm
      rw [ready]
      exact inductionHypothesis goesOn

end Row

namespace Line

open Reading

/-! ### The targets of a loop -/

/-- One target, up to a comma or `of`. -/
def loopTarget : Reading Expr :=
  expression [.symbol .comma, .keyword .ofWord]

/-- The targets of a loop behind those read already, which are given from their end. -/
def loopTargetsAfter (done : List Expr) : Reading (List Expr × Bool) :=
  commaSeparated (fun _ => loopTarget) (fun _ => false) done

/-- The targets of a loop up to the word behind them. -/
def loopTargets : Reading (List Expr × Bool) :=
  loopTargetsAfter []

/-- A target and a comma are read before the other targets. -/
theorem consumes_behind_comma {done : List Expr} {value : Expr} {stream left : Stream}
    {location : Location} {tokens : List Token} {next : Token} {rest : Stream}
    {result : List Expr × Bool}
    (first : Consumes loopTarget stream value
      (.token ⟨.symbol .comma, location⟩ (.after tokens (.token next rest)))) :
    Consumes (loopTargetsAfter done) stream result left ↔
      Consumes (loopTargetsAfter (value :: done)) (.after tokens (.token next rest)) result
        left := by
  obtain ⟨head, tail, same⟩ := Stream.exists_after tokens next rest
  rw [same] at first ⊢
  refine consumes_commaSeparated_iff.trans ⟨?_, fun consumes =>
    ⟨value, _, first, .inl ⟨location, head, tail, rfl, consumes⟩⟩⟩
  rintro ⟨again, middle, firstAgain, goesOn⟩
  obtain ⟨rfl, rfl⟩ := first.unique firstAgain
  obtain ⟨_, _, _, split, consumes⟩ | ⟨_, ended, -⟩ | ⟨noComma, -⟩ := goesOn
  · cases split
    exact consumes
  · cases ended
  · exact absurd rfl (noComma _ _)

section Targets

variable {word : Token} (isOf : word.lexeme = .keyword .ofWord) {rest : Stream}

include isOf

/-- Where targets end at `of`, the last of them is what a row holds then; whatever else comes in its
place is collected behind that row. -/
theorem exists_last_row {tokens : List Token} {done : List Expr} {result : List Expr × Bool}
    (reads : Consumes (loopTargetsAfter done) (.after tokens (.token word rest)) result
      (.token word rest)) :
    ∃ init last row, result = (init ++ [last], false) ∧ Ladder.Unbroken row.reverse ∧
      Ladder.reduce row.reverse = .ok last ∧
      ∀ next rest' result' left, Consumes (loopTargetsAfter done)
          (.after tokens (.token next rest')) result' left ↔
        ∃ items value middle, Row.collect [.symbol .comma, .keyword .ofWord] [] row
            (.token next rest') = .ok (items, middle) ∧ Ladder.reduce items = .ok value ∧
          GoesOn (fun _ => loopTarget) (value :: init.reverse) middle result' left := by
  induction size : tokens.length using Nat.strongRecOn generalizing tokens done with
  | ind count inductionHypothesis =>
    obtain ⟨value, middle, itemRead, goesOn⟩ := consumes_commaSeparated_iff.mp reads
    obtain ⟨items, collected, reduced⟩ := consumes_expression_iff.mp itemRead
    obtain ⟨used, next, kept, rfl, rfl, others⟩ | ⟨pending, row, others⟩ :=
      Row.collect_after collected
    · -- The first target ends before the word, so at a comma.
      obtain ⟨location, second, rest', same, moreRead⟩ | ⟨location, same, -⟩ | ⟨-, -, same⟩ :=
        goesOn
      · obtain ⟨rfl, behind⟩ := Stream.token.inj same
        rw [← behind] at moreRead
        have shorter : kept.length < count := by
          rw [← size, List.length_append, List.length_cons]
          omega
        obtain ⟨init, last, row, found, unbroken, lastReduced, further⟩ :=
          inductionHypothesis _ shorter moreRead rfl
        refine ⟨init, last, row, found, unbroken, lastReduced, fun next' rest' result' left => ?_⟩
        rw [← further]
        have first := consumes_expression_iff.mpr ⟨items, others next' rest', reduced⟩
        exact consumes_behind_comma first
      · obtain ⟨head, tail, notEnded⟩ := Stream.exists_after kept word rest
        cases notEnded.symm.trans (Stream.token.inj same).2
      · have sizes := congrArg Stream.size same
        simp only [Stream.after_cons, Stream.size, Stream.size_after] at sizes
        omega
    · -- The row of the first target goes up to the word.
      have unbroken := Row.unbroken_of_collect collected (List.forall_mem_nil _)
        (List.forall_mem_nil _)
      have turned := Row.collect_turn [.symbol .comma, .keyword .ofWord] pending row word rest
      rw [← others, collected] at turned
      cases same : Row.turn [.symbol .comma, .keyword .ofWord] pending row word with
      | fault =>
        rw [same] at turned
        obtain ⟨_, impossible⟩ := turned
        cases impossible
      | go pending' row' =>
        rw [same] at turned
        obtain ⟨_, -, further⟩ := Row.bind_ok turned.symm
        have shorter := Nat.le_trans goesOn.size_le (Row.size_of_collect further)
        exact absurd shorter (Nat.not_succ_le_self _)
      | stop =>
        obtain rfl := Row.pending_of_stop same
        rw [same] at turned
        cases turned
        obtain ⟨location, second, rest', isComma, -⟩ | ⟨location, isComma, -⟩ | ⟨-, rfl, -⟩ :=
          goesOn
        · cases isComma
          cases isOf
        · cases isComma
          cases isOf
        · refine ⟨done.reverse, value, row, by rw [List.reverse_cons], unbroken, reduced,
            fun next' rest' result' left => ?_⟩
          rw [loopTargetsAfter, consumes_commaSeparated_iff, List.reverse_reverse]
          simp only [loopTarget, consumes_expression_iff, others]
          constructor
          · rintro ⟨value, middle, ⟨items, row, reduces⟩, goesOn⟩
            exact ⟨items, value, middle, row, reduces, goesOn⟩
          · rintro ⟨items, value, middle, row, reduces, goesOn⟩
            exact ⟨value, middle, ⟨items, row, reduces⟩, goesOn⟩

end Targets

/-! ### The header of a loop -/

/-- Several targets form a tuple. -/
def bundle (location : Location) : List Expr → Expr
  | [target] => target
  | targets => .tuple location targets

theorem isTarget_of_bundle {location : Location} {targets : List Expr}
    (isTarget : (bundle location targets).isTarget = true) :
    ∀ target ∈ targets, target.isTarget = true := by
  obtain _ | ⟨first, _ | ⟨second, others⟩⟩ := targets
  · simp
  · exact List.forall_mem_singleton.mpr isTarget
  · exact Expr.untargetableIn?_eq_none.mp (Option.isNone_iff_eq_none.mp isTarget)

theorem checkTarget_eq_ok_iff {target : Expr} :
    target.checkTarget = .ok () ↔ target.isTarget = true := by
  rw [Expr.checkTarget, Expr.isTarget]
  cases target.untargetable? with
  | none => exact iff_of_true rfl rfl
  | some => exact iff_of_false (by rintro ⟨⟩) (by simp)

/-- The end of a loop's clause, once its targets and its source are told apart. -/
def finishLoop (location : Location) (parts : List Expr × Expr) : Reading (Expr × Expr) := do
  lift (bundle location parts.1).checkTarget
  return (bundle location parts.1, parts.2)

theorem loopClause_eq : loopClause = (do
    let location ← here
    let found ← loopTargets
    if ← isNext (.keyword .ofWord) then
      advance
      let source ← expressionList []
      finishLoop location (found.1, source)
    else match found.1.reverse with
      | .binary _ .member last source :: before =>
        finishLoop location ((last :: before).reverse, source)
      | _ => fail location .noLoopSource) := by
  have returned {α β : Type} (value : α) (next : α → Reading β) :
      (pure value : Reading α) >>= next = next value :=
    funext fun _ => bind_of_unread rfl
  refine congrArg (here >>= ·) (funext fun location => ?_)
  refine congrArg (loopTargets >>= ·) (funext fun found => ?_)
  refine congrArg (isNext _ >>= ·) (funext fun isOf => ?_)
  cases isOf with
  | true =>
    refine congrArg (advance >>= ·) (funext fun _ => ?_)
    refine congrArg (expressionList [] >>= ·) (funext fun source => ?_)
    exact returned _ _
  | false =>
    rw [if_neg Bool.false_ne_true, if_neg Bool.false_ne_true]
    by_cases isTest : ∃ place last source before,
        found.1.reverse = .binary place .member last source :: before
    · obtain ⟨place, last, source, before, same⟩ := isTest
      rw [same]
      exact returned _ _
    · have noTest {α : Type} (parts : Expr → Expr → List Expr → α) (without : α) :
          (match found.1.reverse with
            | .binary _ .member last source :: before => parts last source before
            | _ => without) = without := by
        split
        next same => exact absurd ⟨_, _, _, _, same⟩ isTest
        next => rfl
      refine (noTest _ _).trans (Eq.trans ?_ (noTest _ _).symm)
      rfl

theorem consumes_finishLoop_iff {location : Location} {targets : List Expr}
    {source target iterable : Expr} {stream left : Stream} :
    Consumes (finishLoop location (targets, source)) stream (target, iterable) left ↔
      (target = bundle location targets ∧ target.isTarget = true) ∧ iterable = source ∧
        left = stream := by
  rw [finishLoop, consumes_bind_iff]
  constructor
  · rintro ⟨_, middle, checked, last⟩
    obtain ⟨isTarget, rfl⟩ := consumes_lift_iff.mp checked
    obtain ⟨same, rfl⟩ := consumes_pure_iff.mp last
    cases same
    exact ⟨⟨rfl, checkTarget_eq_ok_iff.mp isTarget⟩, rfl, rfl⟩
  · rintro ⟨⟨rfl, isTarget⟩, rfl, rfl⟩
    exact ⟨(), left, consumes_lift_iff.mpr ⟨checkTarget_eq_ok_iff.mpr isTarget, rfl⟩,
      consumes_pure _ _⟩

/-- The clause of a loop whose targets end at this token. -/
theorem consumes_loopClause_iff {first : Token} {others left : Stream} {target source : Expr}
    {found : List Expr × Bool} {word : Token} {rest : Stream}
    (targets : Consumes loopTargets (.token first others) found (.token word rest)) :
    Consumes loopClause (.token first others) (target, source) left ↔
      (if word.kind = .keyword .ofWord then
        ahead rest = .ok () ∧ Consumes (expressionList []) rest source left ∧
          target = bundle first.location found.1
      else left = .token word rest ∧ ∃ location last before,
        found.1 = before ++ [.binary location .member last source] ∧
          target = bundle first.location (before ++ [last])) ∧ target.isTarget = true := by
  rw [loopClause_eq]
  constructor
  · intro consumes
    obtain ⟨_, _, looked, consumes⟩ := consumes_bind_iff.mp consumes
    obtain ⟨rfl, rfl⟩ := (consumes_here first others).unique looked
    obtain ⟨_, _, read, consumes⟩ := consumes_bind_iff.mp consumes
    obtain ⟨rfl, rfl⟩ := targets.unique read
    obtain ⟨_, _, asked, consumes⟩ := consumes_bind_iff.mp consumes
    obtain ⟨rfl, rfl⟩ := (consumes_isNext _ word rest).unique asked
    by_cases isOf : word.kind = .keyword .ofWord
    · rw [decide_eq_true isOf, if_pos rfl] at consumes
      obtain ⟨_, _, advanced, further⟩ := consumes_bind_iff.mp consumes
      obtain ⟨ready, rfl⟩ := consumes_advance_iff.mp advanced
      obtain ⟨_, _, sourceRead, finished⟩ := consumes_bind_iff.mp further
      obtain ⟨⟨rfl, isTarget⟩, rfl, rfl⟩ := consumes_finishLoop_iff.mp finished
      rw [if_pos isOf]
      exact ⟨⟨ready, sourceRead, rfl⟩, isTarget⟩
    · rw [decide_eq_false isOf, if_neg Bool.false_ne_true] at consumes
      split at consumes
      next location last _ before same =>
        obtain ⟨⟨rfl, isTarget⟩, rfl, rfl⟩ := consumes_finishLoop_iff.mp consumes
        rw [List.reverse_eq_iff] at same
        rw [if_neg isOf]
        refine ⟨⟨rfl, location, last, before.reverse, ?_, ?_⟩, isTarget⟩
        · rw [same, List.reverse_cons]
        · rw [List.reverse_cons]
      next => exact absurd consumes not_consumes_fail
  · rintro ⟨how, isTarget⟩
    refine (consumes_here first others).bind (targets.bind ((consumes_isNext _ word rest).bind ?_))
    by_cases isOf : word.kind = .keyword .ofWord
    · rw [if_pos isOf] at how
      obtain ⟨ready, sourceRead, rfl⟩ := how
      rw [decide_eq_true isOf, if_pos rfl]
      exact (consumes_advance ready).bind (sourceRead.bind
        (consumes_finishLoop_iff.mpr ⟨⟨rfl, isTarget⟩, rfl, rfl⟩))
    · rw [if_neg isOf] at how
      obtain ⟨rfl, location, last, before, same, rfl⟩ := how
      rw [decide_eq_false isOf, if_neg Bool.false_ne_true, same, List.reverse_append,
        List.reverse_singleton, List.singleton_append]
      refine consumes_finishLoop_iff.mpr ⟨⟨?_, isTarget⟩, rfl, rfl⟩
      rw [List.reverse_cons, List.reverse_reverse]

theorem consumes_readContent_iff {first : Token} (isFor : first.lexeme = .keyword .forWord)
    {stream left : Stream} {content : Content} :
    Consumes (readContent first) (.token first stream) content left ↔
      ahead stream = .ok () ∧ ∃ target source middle,
        Consumes loopClause stream (target, source) middle ∧ Consumes headerEnd middle () left ∧
          content = .header (.forEach target source) := by
  have known : readContent first = (do
      advance
      let header ← (fun parts => .forEach parts.1 parts.2) <$> loopClause
      headerEnd
      return .header header) := by
    rw [readContent, isFor]
    rfl
  rw [known]
  constructor
  · intro consumes
    obtain ⟨_, _, advanced, further⟩ := consumes_bind_iff.mp consumes
    obtain ⟨ready, rfl⟩ := consumes_advance_iff.mp advanced
    obtain ⟨_, middle, header, last⟩ := consumes_bind_iff.mp further
    obtain ⟨⟨target, source⟩, clause, rfl⟩ := consumes_map_iff.mp header
    obtain ⟨_, _, ends, returned⟩ := consumes_bind_iff.mp last
    obtain ⟨rfl, rfl⟩ := consumes_pure_iff.mp returned
    exact ⟨ready, target, source, middle, clause, ends, rfl⟩
  · rintro ⟨ready, target, source, middle, clause, ends, rfl⟩
    exact (consumes_advance ready).bind ((consumes_map_iff.mpr ⟨_, clause, rfl⟩).bind
      (ends.bind (consumes_pure _ _)))

/-- A header ends in a colon. -/
theorem colon_of_headerEnd {middle left : Stream} (ends : Consumes headerEnd middle () left) :
    ∃ next rest, middle = .token next rest ∧ next.lexeme = .symbol .colon := by
  obtain ⟨_, _, expected, -⟩ := consumes_bind_iff.mp ends
  obtain ⟨found, _, looked, consumes⟩ := consumes_bind_iff.mp expected
  cases middle with
  | token next rest =>
    obtain ⟨rfl, rfl⟩ := (consumes_peek next rest).unique looked
    dsimp only at consumes
    split at consumes
    next same =>
      refine ⟨next, rest, rfl, ?_⟩
      obtain ⟨lexeme, location⟩ := next
      cases lexeme <;> cases same
      rfl
    next => exact absurd consumes not_consumes_fail
  | failed | ended =>
    obtain ⟨_, same⟩ := looked
    cases same
    exact absurd consumes not_consumes_fail

/-- The source of a loop is one expression, and what binds as loosely as `in` stands in brackets. -/
def Tight (stream : Stream) : Prop :=
  ∃ items next rest, Row.collect [.symbol .comma] [] [] stream = .ok (items, .token next rest) ∧
    next.lexeme ≠ .symbol .comma ∧
      ∀ piece ∈ Ladder.written items, Ladder.Precedes .member piece

/-- The row of the first expression of a source. It is all there is if no comma follows. -/
theorem exists_first_row {stream left : Stream} {source : Expr}
    (consumes : Consumes (expressionList []) stream source left) :
    ∃ items middle value, Row.collect [.symbol .comma] [] [] stream = .ok (items, middle) ∧
      Ladder.reduce items = .ok value ∧
      ((∃ location rest, middle = .token ⟨.symbol .comma, location⟩ rest) ∨
        left = middle ∧ source = value) := by
  obtain ⟨_, _, looked, further⟩ := consumes_bind_iff.mp consumes
  obtain ⟨location, place⟩ := exists_here stream
  obtain ⟨rfl, rfl⟩ := (place _ _).mp looked
  obtain ⟨found, behind, ⟨bound, read⟩, last⟩ := consumes_bind_iff.mp further
  cases lists_of_commaSeparated read with
  | @last _ _ _ value shorter itemRead =>
    obtain ⟨items, collected, reduced⟩ := consumes_expression_iff.mp ⟨shorter, itemRead⟩
    obtain ⟨same, rest⟩ := consumes_pure_iff.mp last
    exact ⟨items, behind, value, collected, reduced, .inr ⟨rest, same⟩⟩
  | @closed _ _ _ value comma shorter itemRead | @more _ _ _ _ value comma _ _ shorter itemRead =>
    obtain ⟨items, collected, reduced⟩ := consumes_expression_iff.mp ⟨shorter, itemRead⟩
    exact ⟨items, _, value, collected, reduced, .inl ⟨comma, _, rfl⟩⟩

/-- The targets of a loop are read first. -/
theorem exists_targets {stream left : Stream} {clause : Expr × Expr}
    (consumes : Consumes loopClause stream clause left) :
    ∃ found middle, Consumes loopTargets stream found middle ∧ left.size ≤ middle.size := by
  rw [loopClause_eq] at consumes
  obtain ⟨_, _, looked, further⟩ := consumes_bind_iff.mp consumes
  obtain ⟨location, place⟩ := exists_here stream
  obtain ⟨rfl, rfl⟩ := (place _ _).mp looked
  obtain ⟨found, middle, targets, last⟩ := consumes_bind_iff.mp further
  exact ⟨found, middle, targets, last.size_le⟩

/-- A loop has targets before `of`. -/
theorem not_consumes_loopTargets {word : Token} (isOf : word.lexeme = .keyword .ofWord)
    {rest left : Stream} {found : List Expr × Bool} :
    ¬Consumes loopTargets (.token word rest) found left := by
  obtain ⟨lexeme, location⟩ := word
  obtain rfl : lexeme = .keyword .ofWord := isOf
  intro targets
  obtain ⟨value, middle, first, -⟩ := consumes_commaSeparated_iff.mp targets
  obtain ⟨items, collected, reduced⟩ := consumes_expression_iff.mp first
  have turned := Row.collect_turn [.symbol .comma, .keyword .ofWord] [] []
    ⟨.keyword .ofWord, location⟩ rest
  rw [collected] at turned
  cases turned
  obtain ⟨derivation, yields, -⟩ := Ladder.derivation_of_foldAll reduced
  exact absurd yields derivation.yield_ne_nil

/-- A loop with `of` that ends in a colon has its targets before the word, and the row of its source
starts behind it. With `in` this row is collected behind the last target. -/
theorem exists_source_row {ofWord head : Token} (isOf : ofWord.lexeme = .keyword .ofWord)
    {tokens : List Token} {rest middle left : Stream} {found : List Expr × Bool}
    {target source : Expr}
    (targets : Consumes loopTargets (.token head (.after tokens (.token ofWord rest))) found
      (.token ofWord rest))
    (clause : Consumes loopClause (.token head (.after tokens (.token ofWord rest)))
      (target, source) middle)
    (ends : Consumes headerEnd middle () left) :
    ∃ init last, target = bundle head.location (init ++ [last]) ∧ target.isTarget = true ∧
      ∃ items value next after,
        Row.collect [.symbol .comma] [] [] rest = .ok (items, .token next after) ∧
        Ladder.reduce items = .ok value ∧
        (next.lexeme ≠ .symbol .comma → middle = .token next after ∧ source = value) ∧
        ∀ location result left, Consumes loopTargets
            (.token head (.after tokens (.token ⟨.keyword .inWord, location⟩ rest))) result left ↔
          ∃ test, Ladder.reduce (.operand last :: .token ⟨.keyword .inWord, location⟩ :: items) =
              .ok test ∧
            GoesOn (fun _ => loopTarget) (test :: init.reverse) (.token next after) result
              left := by
  rw [← Stream.after_cons] at targets
  obtain ⟨init, last, row, rfl, unbroken, lastReduced, further⟩ := exists_last_row isOf targets
  have parts := (consumes_loopClause_iff targets).mp clause
  rw [if_pos (show ofWord.kind = .keyword .ofWord by rw [Token.kind, isOf]; rfl)] at parts
  obtain ⟨⟨ready, sourceRead, rfl⟩, isTarget⟩ := parts
  have lastIsTarget := isTarget_of_bundle isTarget last (by simp)
  obtain rfl : row = [.operand last] := List.reverse_eq_iff.mp (Ladder.row_of_not_isOperation
    unbroken lastReduced (Expr.not_isOperation_of_isTarget lastIsTarget))
  obtain ⟨items, behind, value, collected, reduced, whole⟩ := exists_first_row sourceRead
  obtain ⟨next, after, rfl⟩ : ∃ next after, behind = .token next after := by
    obtain ⟨location, after, same⟩ | ⟨same, -⟩ := whole
    · exact ⟨_, _, same⟩
    · obtain ⟨next, after, same', -⟩ := colon_of_headerEnd ends
      exact ⟨next, after, same.symm.trans same'⟩
  refine ⟨init, last, rfl, isTarget, items, value, next, after, collected, reduced, ?_, ?_⟩
  · intro noComma
    obtain ⟨location, after, same⟩ | same := whole
    · cases same
      exact absurd rfl noComma
    · exact same
  · intro location result left
    have together : Row.collect [.symbol .comma, .keyword .ofWord] [] [.operand last]
        (.token ⟨.keyword .inWord, location⟩ rest) =
          .ok (.operand last :: .token ⟨.keyword .inWord, location⟩ :: items,
            .token next after) := by
      have turned := Row.collect_turn [.symbol .comma, .keyword .ofWord] [] [.operand last]
        ⟨.keyword .inWord, location⟩ rest
      refine turned.trans ?_
      rw [ready]
      have ends : [.token ⟨.keyword .inWord, location⟩, .operand last] =
          Item.token ⟨.keyword .inWord, location⟩ :: [.operand last] := rfl
      exact Row.collect_behind ends collected
    refine (further _ _ _ _).trans ⟨?_, ?_⟩
    · rintro ⟨_, test, _, collectedToo, reducedToo, goesOn⟩
      cases together.symm.trans collectedToo
      exact ⟨test, reducedToo, goesOn⟩
    · rintro ⟨test, reducedToo, goesOn⟩
      exact ⟨_, test, _, together, reducedToo, goesOn⟩

/-! ### Loops over two names -/

/-- What is left of a header behind its source. -/
def afterSource : Stream :=
  .token ⟨.symbol .colon, default⟩ (.token ⟨.endOfLine, default⟩ .ended)

/-- The tokens of `a + b:`, or the like with another operator. -/
def twoNames (operator : Lexeme) : Stream :=
  .after [⟨.identifier "a", default⟩, ⟨operator, default⟩, ⟨.identifier "b", default⟩] afterSource

/-- The tokens of `for x of a + b:`, or the like with another word and another operator. -/
def overTwoNames (word : Keyword) (operator : Lexeme) : Stream :=
  .token ⟨.keyword .forWord, default⟩ (.after [⟨.identifier "x", default⟩]
    (.token ⟨.keyword word, default⟩ (twoNames operator)))

theorem consumes_oneTarget (rest : Stream) :
    Consumes loopTargets (.after [⟨.identifier "x", default⟩]
        (.token ⟨.keyword .ofWord, default⟩ rest))
      ([.name default "x"], false) (.token ⟨.keyword .ofWord, default⟩ rest) :=
  consumes_commaSeparated (consumes_expression_iff.mpr ⟨_, rfl, Ladder.reduce_operand _⟩)
    (by decide)

section TwoNames

variable (lexeme : Lexeme) {operator : BinaryOperator} {stage : Nat}
  (collected : Row.collect [.symbol .comma] [] [] (twoNames lexeme) =
    .ok ([.operand (.name default "a"), .token ⟨lexeme, default⟩, .operand (.name default "b")],
      afterSource))
  (alone : Ladder.pieceOf true ⟨lexeme, default⟩ = .binary operator default)

include collected alone

theorem tight_twoNames : Tight (twoNames lexeme) ↔
    Ladder.Precedes .member (.binary operator default) := by
  constructor
  · rintro ⟨items, next, rest, again, -, tight⟩
    cases collected.symm.trans again
    exact tight _ (by simp [Ladder.written_binary alone])
  · intro precedes
    refine ⟨_, _, _, collected, by decide, ?_⟩
    rw [Ladder.written_binary alone]
    have operand (expression : Expr) : Ladder.Precedes .member (.operand expression) :=
      fun _ impossible => by cases impossible
    exact List.forall_mem_cons.mpr ⟨operand _, List.forall_mem_cons.mpr
      ⟨precedes, List.forall_mem_singleton.mpr (operand _)⟩⟩

theorem consumes_overTwoNames (rung : ladder[stage]? = some (.binary operator))
    (notPower : operator ≠ .power) :
    ∃ content, Consumes (readContent ⟨.keyword .forWord, default⟩) (overTwoNames .ofWord lexeme)
      content .ended := by
  have found := consumes_expression_iff.mpr
    ⟨_, collected, Ladder.reduce_binary alone rung notPower⟩
  have list : Consumes (expressionList []) (twoNames lexeme) _ afterSource :=
    (consumes_here _ _).bind ((consumes_commaSeparated found (by decide)).bind (consumes_pure _ _))
  have colon : Consumes headerEnd afterSource () .ended := ⟨Nat.zero_le _, rfl⟩
  exact ⟨_, (consumes_readContent_iff rfl).mpr ⟨rfl, _, _, _, (consumes_loopClause_iff
    (consumes_oneTarget (twoNames lexeme))).mpr ⟨⟨rfl, list, rfl⟩, rfl⟩, colon, rfl⟩⟩

end TwoNames

/-! ### Both words -/

/-- The header of a loop reads alike with `of` and with `in` if its source is one expression of
operators that bind tighter than `in` does, and is refused with `in` otherwise. -/
theorem loop_words_interchangeable {first ofWord inWord : Token} {tokens : List Token}
    {rest left : Stream} {found : List Expr × Bool} {content : Content}
    (isFor : first.lexeme = .keyword .forWord)
    (isOf : ofWord.lexeme = .keyword .ofWord) (isIn : inWord.lexeme = .keyword .inWord)
    (targets : Consumes loopTargets (.after tokens (.token ofWord rest)) found
      (.token ofWord rest))
    (reads : Consumes (readContent first)
      (.token first (.after tokens (.token ofWord rest))) content left) :
    (Tight rest → Consumes (readContent first)
      (.token first (.after tokens (.token inWord rest))) content left) ∧
    ∀ other otherLeft, Consumes (readContent first)
      (.token first (.after tokens (.token inWord rest))) other otherLeft →
        Tight rest ∧ other = content ∧ otherLeft = left := by
  obtain ⟨-, target, source, middle, clause, ends, rfl⟩ := (consumes_readContent_iff isFor).mp reads
  cases tokens with
  | nil => exact absurd targets (not_consumes_loopTargets isOf)
  | cons head tokens =>
  obtain ⟨init, last, rfl, isTarget, items, value, next, after, collected, reduced, whole,
    inTargets⟩ := exists_source_row isOf targets clause ends
  obtain ⟨lexeme, location⟩ := inWord
  obtain rfl : lexeme = .keyword .inWord := isIn
  constructor
  · rintro ⟨_, _, _, again, noComma, tight⟩
    cases collected.symm.trans again
    obtain ⟨rfl, rfl⟩ := whole noComma
    obtain ⟨_, _, same, colon⟩ := colon_of_headerEnd ends
    cases same
    have testReduced :
        Ladder.reduce (.operand last :: .token ⟨.keyword .inWord, location⟩ :: items) =
          .ok (.binary location .member last source) := Ladder.reduce_member rfl reduced tight
    have found := (inTargets location _ _).mpr ⟨_, testReduced, .inr (.inr ⟨?_, rfl, rfl⟩)⟩
    · refine (consumes_readContent_iff isFor).mpr
        ⟨Reading.ahead_after _ _ _, _, _, _, ?_, ends, rfl⟩
      refine (consumes_loopClause_iff found).mpr ⟨?_, isTarget⟩
      rw [if_neg]
      · exact ⟨rfl, location, last, init, by rw [List.reverse_cons, List.reverse_reverse], rfl⟩
      · rw [Token.kind, colon]
        rintro ⟨⟩
    · rintro _ _ ⟨⟩
      cases colon
  · intro other otherLeft readsToo
    obtain ⟨-, otherTarget, otherSource, otherMiddle, otherClause, otherEnds, rfl⟩ :=
      (consumes_readContent_iff isFor).mp readsToo
    obtain ⟨otherFound, behind, found, shorter⟩ := exists_targets otherClause
    obtain ⟨test, testReduced, goesOn⟩ := (inTargets _ _ _).mp found
    have isOperation := Ladder.isOperation_of_reduce_member rfl testReduced
    obtain ⟨word, others, rfl⟩ : ∃ word others, behind = .token word others := by
      obtain ⟨_, _, rfl, -⟩ := colon_of_headerEnd otherEnds
      cases behind with
      | token word others => exact ⟨word, others, rfl⟩
      | failed | ended => exact absurd shorter (Nat.not_succ_le_zero _)
    obtain ⟨how, otherIsTarget⟩ := (consumes_loopClause_iff found).mp otherClause
    obtain ⟨_, _, _, -, more⟩ | ⟨_, _, -, impossible⟩ | ⟨noComma, rfl, same⟩ := goesOn
    · -- The membership test is a target before the last one.
      obtain ⟨further, some, same⟩ := more.commaSeparated_prefix
      obtain ⟨targets, rfl, inside⟩ : ∃ targets, otherTarget = bundle head.location targets ∧
          test ∈ targets := by
        rw [same] at how
        split at how
        · exact ⟨_, how.2.2, by simp⟩
        · obtain ⟨-, _, _, before, parts, rfl⟩ := how
          have without := congrArg List.dropLast parts
          rw [List.dropLast_concat, List.dropLast_append_of_ne_nil some] at without
          exact ⟨_, rfl, by simp [← without]⟩
      rw [Expr.not_isOperation_of_isTarget (isTarget_of_bundle otherIsTarget test inside)]
        at isOperation
      cases isOperation
    · cases impossible
    · obtain ⟨rfl, rfl⟩ := whole fun isComma => noComma next.location after (by rw [← isComma])
      obtain ⟨_, _, colonNext, colon⟩ := colon_of_headerEnd ends
      cases colonNext
      cases same
      rw [if_neg (by rw [Token.kind, colon]; rintro ⟨⟩)] at how
      obtain ⟨rfl, _, otherLast, before, parts, rfl⟩ := how
      rw [List.reverse_cons, List.reverse_reverse] at parts
      obtain ⟨rfl, single⟩ := List.append_inj' parts rfl
      cases single
      have otherLastIsTarget := isTarget_of_bundle otherIsTarget otherLast (by simp)
      obtain ⟨rfl, sourceReduced, tight⟩ := Ladder.tight_of_reduce_member rfl testReduced
        (Expr.not_isOperation_of_isTarget otherLastIsTarget)
      cases reduced.symm.trans sourceReduced
      exact ⟨⟨items, next, after, collected, by rw [colon]; rintro ⟨⟩, tight⟩, rfl,
        (ends.unique otherEnds).2.symm⟩

/-- A loop over a sum is read with `in`, one over a disjunction is not. -/
theorem sum_read_and_disjunction_refused :
    (∃ content, Consumes (readContent ⟨.keyword .forWord, default⟩)
      (overTwoNames .inWord (.symbol .plus)) content .ended) ∧
    ∀ content left, ¬Consumes (readContent ⟨.keyword .forWord, default⟩)
      (overTwoNames .inWord (.keyword .orWord)) content left := by
  constructor
  · have rung : ladder[5]? = some (.binary .plus) := rfl
    obtain ⟨content, sum⟩ := consumes_overTwoNames (.symbol .plus) rfl rfl rung (by decide)
    have tight := (tight_twoNames (.symbol .plus) rfl rfl).mpr (by rintro _ ⟨⟩; decide)
    exact ⟨content, (loop_words_interchangeable rfl rfl rfl (consumes_oneTarget _) sum).1 tight⟩
  · intro content left reads
    have rung : ladder[19]? = some (.binary .or) := rfl
    obtain ⟨_, disjunction⟩ := consumes_overTwoNames (.keyword .orWord) rfl rfl rung (by decide)
    obtain ⟨tight, -⟩ := (loop_words_interchangeable rfl rfl rfl (consumes_oneTarget _)
      disjunction).2 content left reads
    have loose := (tight_twoNames (.keyword .orWord) rfl rfl).mp tight (.binary .or) rfl
    exact absurd loose (by decide)

end Line

end Offside
