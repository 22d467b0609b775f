/-
This file compares how two streams are read that differ in two ways: the tokens of the second
stand at moved places, and blank lines may have been added behind the ends of its lines. The
lines that are read are the same up to their places. Inside of brackets the added tokens are
passed over like every end of a line, and between two lines they make a blank line, which is
nothing.

A blank line is an empty indentation and an end of a line. It is added behind an end of a line,
so a reader that has not used up that end never sees it. After the end only the next line is
read, and there the first stream may be one blank line behind the second.
-/

import Offside.Proofs.Moving.Expressions

namespace Offside

variable {move : Location → Location}

/-! ### Spread streams -/

/-- The second stream is the first at moved places, with a blank line added behind some ends of
lines. Neither breaks off in a fault. -/
inductive Stream.Spread (move : Location → Location) : Stream → Stream → Prop where
  | ended : Spread move .ended .ended
  | token (head : Token) {rest moved : Stream} (others : Spread move rest moved) :
      Spread move (.token head rest) (.token (head.relocate move) moved)
  | blank (location indented closed : Location) {rest moved : Stream}
      (others : Spread move rest moved) :
      Spread move (.token ⟨.endOfLine, location⟩ rest)
        (.token ⟨.endOfLine, move location⟩
          (.token ⟨.indentation "", indented⟩ (.token ⟨.endOfLine, closed⟩ moved)))

/-- What is left of spread streams after the end of a line: the second may go on with an added
blank line. -/
inductive Stream.Resumed (move : Location → Location) : Stream → Stream → Prop where
  | spread {rest moved : Stream} (others : Spread move rest moved) : Resumed move rest moved
  | blank (indented closed : Location) {rest moved : Stream} (others : Spread move rest moved) :
      Resumed move rest (.token ⟨.indentation "", indented⟩ (.token ⟨.endOfLine, closed⟩ moved))

namespace Stream

variable {first second rest : Stream} {head : Token}

/-- Spread streams go on alike behind their first tokens. -/
theorem Spread.cases_token (spread : Spread move (.token head rest) second) :
    ∃ moved, second = .token (head.relocate move) moved ∧ Resumed move rest moved ∧
      (head.lexeme ≠ .endOfLine → Spread move rest moved) := by
  cases spread with
  | token _ others => exact ⟨_, rfl, .spread others, fun _ => others⟩
  | blank _ _ _ others =>
    exact ⟨_, rfl, .blank _ _ others, fun other => absurd rfl other⟩

/-- Spread streams come to the end of the file together. -/
theorem Spread.goesOn (spread : Spread move first second)
    (goesOn : ∀ location rest, first ≠ .token ⟨.endOfFile, location⟩ rest) :
    ∀ location rest, second ≠ .token ⟨.endOfFile, location⟩ rest := by
  rintro location rest rfl
  cases first with
  | ended | failed => cases spread
  | token head others =>
    obtain ⟨moved, same, -, -⟩ := spread.cases_token
    obtain ⟨lexeme, place⟩ := head
    cases lexeme with
    | endOfFile => exact goesOn _ _ rfl
    | _ => cases same

theorem Spread.ahead (spread : Spread move first second) :
    Reading.ahead first = .ok () ∧ Reading.ahead second = .ok () := by
  cases spread <;> exact ⟨rfl, rfl⟩

theorem Resumed.ahead (resumed : Resumed move first second) :
    Reading.ahead first = .ok () ∧ Reading.ahead second = .ok () := by
  cases resumed with
  | spread others => exact others.ahead
  | blank _ _ others => exact ⟨others.ahead.1, rfl⟩

end Stream

/-! ### Steps that leave something -/

/-- Both steps fail, or both give a value and leave a rest: the value of the second step is the
changed one, and the rests are related. -/
inductive Abreast {ε α β σ τ : Type} (change : α → β) (leaves : σ → τ → Prop) :
    Except ε (α × σ) → Except ε (β × τ) → Prop where
  | ok (value : α) {left : σ} {leftToo : τ} (related : leaves left leftToo) :
      Abreast change leaves (.ok (value, left)) (.ok (change value, leftToo))
  | error (first second : ε) : Abreast change leaves (.error first) (.error second)

theorem Abreast.bind {ε α β γ δ σ τ σ' τ' : Type} {change : α → β} {further : γ → δ}
    {leaves : σ → τ → Prop} {leavesThen : σ' → τ' → Prop} {first : Except ε (α × σ)}
    {second : Except ε (β × τ)} {next : α × σ → Except ε (γ × σ')}
    {nextToo : β × τ → Except ε (δ × τ')} (abreast : Abreast change leaves first second)
    (goesOn : ∀ value left leftToo, leaves left leftToo →
      Abreast further leavesThen (next (value, left)) (nextToo (change value, leftToo))) :
    Abreast further leavesThen (first >>= next) (second >>= nextToo) := by
  cases abreast with
  | ok value related => exact goesOn value _ _ related
  | error => exact .error _ _

/-! ### Rows -/

namespace Row

variable {stop : List Kind} {pending pending' : List Pending} {row row' : List Item} {head : Token}

/-- The start or the end of a line changes nothing inside of brackets, and outside of them no row
goes on after it. -/
theorem turn_lineBreak_iff (isBreak : role head = .lineBreak) :
    turn stop pending row head = .go pending' row' ↔
      pending' = pending ∧ row' = row ∧ pending ≠ [] ∧ wantsName row = false := by
  have other : head.kind ≠ .identifier := by
    intro isName
    obtain ⟨lexeme, location⟩ := head
    cases lexeme <;> cases isName
    cases isBreak
  unfold turn
  rw [isBreak]
  cases pending with
  | nil =>
    have never (condition : Prop) [Decidable condition] :
        (if condition then Turn.fault else .stop) ≠ .go pending' row' := by
      split <;> exact nofun
    simp only [List.isEmpty_nil, Bool.true_and, if_true]
    split
    · simp
    · simp [never]
  | cons inner outer =>
    cases wanted : wantsName row with
    | true => simp [other]
    | false =>
      simp only [List.isEmpty_cons, Bool.false_and, Bool.false_eq_true, if_false, Turn.go.injEq]
      simp [eq_comm]

theorem collect_stop {rest : Stream} (turned : turn stop pending row head = .stop) :
    collect stop pending row (.token head rest) = .ok (row.reverse, .token head rest) := by
  have taken := collect_turn stop pending row head rest
  rw [turned] at taken
  exact taken

theorem collect_fault (turned : turn stop pending row head = .fault) (rest : Stream) :
    ∃ error, collect stop pending row (.token head rest) = .error error := by
  have taken := collect_turn stop pending row head rest
  rw [turned] at taken
  exact taken

theorem collect_go {rest : Stream} (turned : turn stop pending row head = .go pending' row')
    (ready : Reading.ahead rest = .ok ()) :
    collect stop pending row (.token head rest) = collect stop pending' row' rest := by
  have taken := collect_turn stop pending row head rest
  rw [turned] at taken
  exact taken.trans (by rw [ready]; rfl)

/-- A row is collected from spread streams alike: inside of brackets the added blank lines are
passed over, and outside of them the row ends before they come. -/
theorem collect_abreast (stop : List Kind) (pending : List Pending) (row : List Item)
    {first second : Stream} (spread : Stream.Spread move first second) :
    Abreast (Row.relocate move) (Stream.Spread move) (collect stop pending row first)
      (collect stop (pending.map (Pending.relocate move)) (Row.relocate move row) second) := by
  induction first generalizing pending row second with
  | failed => cases spread
  | ended =>
    cases spread
    rw [collect, collect, ← List.map_reverse]
    exact .ok row.reverse .ended
  | token head rest inductionHypothesis =>
    obtain ⟨moved, rfl, resumed, -⟩ := spread.cases_token
    have turnedToo := turn_relocate move stop pending row head
    cases turned : turn stop pending row head with
    | stop =>
      rw [turned] at turnedToo
      rw [collect_stop turned, collect_stop turnedToo, ← List.map_reverse]
      exact .ok row.reverse spread
    | fault =>
      rw [turned] at turnedToo
      obtain ⟨error, failed⟩ := collect_fault turned rest
      obtain ⟨errorToo, failedToo⟩ := collect_fault turnedToo moved
      rw [failed, failedToo]
      exact .error _ _
    | go pending' row' =>
      rw [turned] at turnedToo
      rw [collect_go turned resumed.ahead.1, collect_go turnedToo resumed.ahead.2]
      cases spread with
      | token _ others => exact inductionHypothesis pending' row' others
      | blank location indented closed others =>
        obtain ⟨-, -, isOpen, noName⟩ := (turn_lineBreak_iff rfl).mp turnedToo
        obtain ⟨rfl, rfl, -, -⟩ := (turn_lineBreak_iff rfl).mp turned
        have passes (head : Token) (isBreak : role head = .lineBreak) :
            turn stop (pending'.map (Pending.relocate move)) (Row.relocate move row') head =
              .go (pending'.map (Pending.relocate move)) (Row.relocate move row') :=
          (turn_lineBreak_iff isBreak).mpr ⟨rfl, rfl, isOpen, noName⟩
        rw [collect_go (passes ⟨.indentation "", indented⟩ rfl) rfl,
          collect_go (passes ⟨.endOfLine, closed⟩ rfl) others.ahead.2]
        exact inductionHypothesis pending' row' others

end Row

/-! ### Readings -/

namespace Reading

/-- From these streams the two readings end abreast. -/
def AlikeAt {α β : Type} (leaves : Stream → Stream → Prop) (change : α → β) (first : Reading α)
    (second : Reading β) (stream spread : Stream) : Prop :=
  Abreast change (fun left leftToo => leaves left.1 leftToo.1) (first stream) (second spread)

/-- From all spread streams the two readings end abreast. -/
def Alike {α β : Type} (move : Location → Location) (leaves : Stream → Stream → Prop)
    (change : α → β) (first : Reading α) (second : Reading β) : Prop :=
  ∀ stream spread, Stream.Spread move stream spread →
    AlikeAt leaves change first second stream spread

section Steps

variable {α β γ δ : Type} {change : α → β} {further : γ → δ} {leaves : Stream → Stream → Prop}
  {stream spread : Stream} {first : Reading α} {second : Reading β} {next : α → Reading γ}
  {nextToo : β → Reading δ}

theorem AlikeAt.bind (alike : AlikeAt (Stream.Spread move) change first second stream spread)
    (goesOn : ∀ value, Alike move leaves further (next value) (nextToo (change value))) :
    AlikeAt leaves further (first >>= next) (second >>= nextToo) stream spread := by
  unfold AlikeAt at alike ⊢
  simp only [Bind.bind]
  generalize first stream = given at alike ⊢
  generalize second spread = givenToo at alike ⊢
  cases alike with
  | error => exact .error _ _
  | @ok value left leftToo related =>
    have abreast := goesOn value _ _ related
    unfold AlikeAt at abreast
    obtain ⟨left, bound⟩ := left
    obtain ⟨leftToo, boundToo⟩ := leftToo
    dsimp only at abreast ⊢
    generalize next value left = ended at abreast ⊢
    generalize nextToo (change value) leftToo = endedToo at abreast ⊢
    cases abreast with
    | error => exact .error _ _
    | ok result relatedThen => exact .ok result relatedThen

theorem Alike.bind (alike : Alike move (Stream.Spread move) change first second)
    (goesOn : ∀ value, Alike move leaves further (next value) (nextToo (change value))) :
    Alike move leaves further (first >>= next) (second >>= nextToo) :=
  fun _ _ related => (alike _ _ related).bind goesOn

theorem alike_pure (value : α) :
    Alike move (Stream.Spread move) change (pure value) (pure (change value)) :=
  fun _ _ related => .ok value related

/-- A last step that reads nothing and only wraps a value. -/
theorem AlikeAt.map {wrap : α → γ} {wrapToo : β → δ}
    (alike : AlikeAt leaves change first second stream spread)
    (same : ∀ value, wrapToo (change value) = further (wrap value)) :
    AlikeAt leaves further (first >>= fun value => pure (wrap value))
      (second >>= fun value => pure (wrapToo value)) stream spread := by
  unfold AlikeAt at alike ⊢
  simp only [Bind.bind]
  generalize first stream = given at alike ⊢
  generalize second spread = givenToo at alike ⊢
  cases alike with
  | error => exact .error _ _
  | @ok value left leftToo relatedThen =>
    have ended : Abreast further (fun left leftToo => leaves left.1 leftToo.1)
        (.ok (wrap value, left) : Except SourceError (γ × stream.Rest))
        (.ok (further (wrap value), leftToo) : Except SourceError (δ × spread.Rest)) :=
      .ok (wrap value) relatedThen
    rw [← same value] at ended
    exact ended

theorem Alike.map {wrap : α → γ} {wrapToo : β → δ} (alike : Alike move leaves change first second)
    (same : ∀ value, wrapToo (change value) = further (wrap value)) :
    Alike move leaves further (first >>= fun value => pure (wrap value))
      (second >>= fun value => pure (wrapToo value)) :=
  fun _ _ related => (alike _ _ related).map same

theorem alike_fail {location locationToo : Location} {fault faultToo : ParseFault} :
    Alike move leaves further (fail location fault) (fail locationToo faultToo) :=
  fun _ _ _ => .error _ _

theorem alike_lift {result : Except ParseError α} {resultToo : Except ParseError β}
    (parallel : Parallel change result resultToo) :
    Alike move (Stream.Spread move) change (lift result) (lift resultToo) := by
  intro stream spread related
  cases parallel with
  | ok value => exact .ok value related
  | error => exact .error _ _

/-- A step that reads nothing, before a reading from the same streams. -/
theorem alikeAt_lift_bind {result : Except ParseError α} {resultToo : Except ParseError β}
    (parallel : Parallel change result resultToo)
    (goesOn : ∀ value,
      AlikeAt leaves further (next value) (nextToo (change value)) stream spread) :
    AlikeAt leaves further (lift result >>= next) (lift resultToo >>= nextToo) stream spread := by
  cases parallel with
  | error => exact .error _ _
  | ok value =>
    unfold AlikeAt
    rw [bind_of_unread rfl, bind_of_unread rfl]
    exact goesOn value

theorem alike_peek :
    Alike move (Stream.Spread move) (Option.map (Token.relocate move)) peek peek := by
  intro stream spread related
  cases stream with
  | failed => cases related
  | ended =>
    cases related
    exact .ok none .ended
  | token head rest =>
    obtain ⟨moved, rfl, -, -⟩ := related.cases_token
    exact .ok (some head) related

theorem alike_isNext (kind : Kind) :
    Alike move (Stream.Spread move) id (isNext kind) (isNext kind) := by
  refine alike_peek.bind fun token? => ?_
  cases token? with
  | none => exact alike_pure false
  | some token => exact alike_pure (decide (token.kind = kind))

theorem alike_here (still : move default = default) :
    Alike move (Stream.Spread move) move here here := by
  refine alike_peek.bind fun token? => ?_
  cases token? with
  | none =>
    have none : Alike move (Stream.Spread move) move (pure default) (pure (move default)) :=
      alike_pure default
    rwa [still] at none
  | some token => exact alike_pure token.location

theorem alike_nextDisplay : Alike move (Stream.Spread move) id nextDisplay nextDisplay := by
  refine alike_peek.bind fun token? => ?_
  cases token? with
  | none => exact alike_pure ""
  | some token => exact alike_pure token.display

/-- Using up a token that ends no line leaves spread streams. -/
theorem alikeAt_advance {head : Token} {rest spread : Stream} (other : head.lexeme ≠ .endOfLine)
    (related : Stream.Spread move (.token head rest) spread) :
    AlikeAt (Stream.Spread move) id advance advance (.token head rest) spread := by
  obtain ⟨moved, rfl, resumed, others⟩ := related.cases_token
  unfold AlikeAt advance
  dsimp only
  rw [resumed.ahead.1, resumed.ahead.2]
  exact .ok () (others other)

/-- Using up an end of a line leaves streams that may be a blank line apart. -/
theorem alikeAt_advance_line {head : Token} {rest spread : Stream}
    (related : Stream.Spread move (.token head rest) spread) :
    AlikeAt (Stream.Resumed move) id advance advance (.token head rest) spread := by
  obtain ⟨moved, rfl, resumed, -⟩ := related.cases_token
  unfold AlikeAt advance
  dsimp only
  rw [resumed.ahead.1, resumed.ahead.2]
  exact .ok () resumed

/-- A reading that looks at the next token first. -/
theorem alike_peek_bind {next : Option Token → Reading γ} {nextToo : Option Token → Reading δ}
    (present : ∀ head rest spread, Stream.Spread move (.token head rest) spread →
      AlikeAt leaves further (next (some head)) (nextToo (some (head.relocate move)))
        (.token head rest) spread)
    (absent : Alike move leaves further (next none) (nextToo none)) :
    Alike move leaves further (peek >>= next) (peek >>= nextToo) := by
  intro stream spread related
  cases stream with
  | failed => cases related
  | ended =>
    cases related
    unfold AlikeAt
    rw [bind_of_unread rfl, bind_of_unread rfl]
    exact absent _ _ .ended
  | token head rest =>
    obtain ⟨moved, rfl, -, -⟩ := related.cases_token
    unfold AlikeAt
    rw [bind_of_unread rfl, bind_of_unread rfl]
    exact present head rest _ related

/-- A reading that asks for the kind of the next token first. -/
theorem alike_isNext_bind {kind : Kind} {next : Bool → Reading γ} {nextToo : Bool → Reading δ}
    (yes : ∀ head rest spread, head.kind = kind → Stream.Spread move (.token head rest) spread →
      AlikeAt leaves further (next true) (nextToo true) (.token head rest) spread)
    (no : Alike move leaves further (next false) (nextToo false)) :
    Alike move leaves further (isNext kind >>= next) (isNext kind >>= nextToo) := by
  intro stream spread related
  cases stream with
  | failed => cases related
  | ended =>
    cases related
    unfold AlikeAt
    rw [bind_of_unread rfl, bind_of_unread rfl]
    exact no _ _ .ended
  | token head rest =>
    obtain ⟨moved, rfl, -, -⟩ := related.cases_token
    have answer (rest : Stream) (head : Token) : isNext kind (.token head rest) =
        .ok (decide (head.kind = kind), ⟨_, Nat.le_refl _⟩) :=
      rfl
    unfold AlikeAt
    rw [bind_of_unread (answer rest head), bind_of_unread (answer moved (head.relocate move)),
      Token.kind_relocate]
    by_cases same : head.kind = kind
    · rw [decide_eq_true same]
      exact yes head rest _ same related
    · rw [decide_eq_false same]
      exact no _ _ related

theorem ne_endOfLine_of_kind {head : Token} {kind : Kind} (same : head.kind = kind)
    (other : kind ≠ .endOfLine) : head.lexeme ≠ .endOfLine := by
  intro isEnd
  exact other (by rw [← same, Token.kind, isEnd]; rfl)

/-- A token of a kind is used up if it comes next. -/
theorem alike_ifNext {kind : Kind} {yes no : Reading γ} {yesToo noToo : Reading δ}
    (other : kind ≠ .endOfLine) (yesAlike : Alike move leaves further yes yesToo)
    (noAlike : Alike move leaves further no noToo) :
    Alike move leaves further
      (isNext kind >>= fun found => if found = true then advance >>= fun _ => yes else no)
      (isNext kind >>= fun found =>
        if found = true then advance >>= fun _ => yesToo else noToo) := by
  refine alike_isNext_bind (fun head rest spread same related => ?_) noAlike
  exact (alikeAt_advance (ne_endOfLine_of_kind same other) related).bind fun _ => yesAlike

theorem alike_expect {kind : Kind} (other : kind ≠ .endOfLine) :
    Alike move (Stream.Spread move) (Token.relocate move) (expect kind) (expect kind) := by
  refine alike_peek_bind (fun head rest spread related => ?_) alike_fail
  dsimp only
  by_cases same : head.kind = kind
  · rw [if_pos same, if_pos (show (head.relocate move).kind = kind from same)]
    exact (alikeAt_advance (ne_endOfLine_of_kind same other) related).bind fun _ => alike_pure head
  · rw [if_neg same, if_neg (show (head.relocate move).kind ≠ kind from same)]
    exact alike_fail _ _ related

theorem alike_identifier : Alike move (Stream.Spread move) id identifier identifier :=
  (alike_expect (by decide)).map fun _ => rfl

/-- The end of a line is used up, so what is left may be a blank line apart. -/
theorem alike_endOfLine : Alike move (Stream.Resumed move) id endOfLine endOfLine := by
  refine alike_peek_bind (fun head rest spread related => ?_) alike_fail
  obtain ⟨lexeme, location⟩ := head
  cases lexeme with
  | endOfLine => exact alikeAt_advance_line related
  | symbol sign => cases sign <;> exact alike_fail _ _ related
  | _ => exact alike_fail _ _ related

/-- A list of items ends abreast if what is left of the streams is related. -/
theorem listed_abreast (value : α) (done : List α) (trailing : Bool) {stream spread : Stream}
    {left : stream.Rest} {leftToo : spread.Rest}
    (related : Stream.Spread move left.1 leftToo.1) :
    Abreast (Prod.map (List.map change) id)
      (fun (left : stream.Rest) (leftToo : spread.Rest) => Stream.Spread move left.1 leftToo.1)
      (.ok (((value :: done).reverse, trailing), left) : Except SourceError _)
      (.ok (((change value :: done.map change).reverse, trailing), leftToo)) := by
  rw [← List.map_cons, ← List.map_reverse]
  exact .ok ((value :: done).reverse, trailing) related

/-- Items with commas between them are read alike if each of them is. -/
theorem alike_commaSeparated {item : List α → Reading α} {itemToo : List β → Reading β}
    {ends : Token → Bool}
    (itemAlike : ∀ done, Alike move (Stream.Spread move) change (item done)
      (itemToo (done.map change)))
    (endsAlike : ∀ token, ends (token.relocate move) = ends token) (done : List α) :
    Alike move (Stream.Spread move) (Prod.map (List.map change) id) (commaSeparated item ends done)
      (commaSeparated itemToo ends (done.map change)) := by
  intro stream spread related
  induction size : stream.size using Nat.strongRecOn generalizing stream spread done with
  | ind count inductionHypothesis =>
    have abreast := itemAlike done _ _ related
    unfold AlikeAt at abreast ⊢
    unfold commaSeparated
    generalize item done stream = given at abreast ⊢
    generalize itemToo (done.map change) spread = givenToo at abreast ⊢
    cases abreast with
    | error => exact .error _ _
    | @ok value left leftToo relatedThen =>
      obtain ⟨left, bound⟩ := left
      obtain ⟨leftToo, boundToo⟩ := leftToo
      cases left with
      | failed => cases relatedThen
      | ended =>
        cases relatedThen
        exact listed_abreast value done false .ended
      | token head after =>
        obtain ⟨afterToo, rfl, resumed, others⟩ := Stream.Spread.cases_token relatedThen
        obtain ⟨lexeme, location⟩ := head
        cases lexeme with
        | symbol sign =>
          cases sign with
          | comma =>
            have relatedAfter := others nofun
            have ready := relatedAfter.ahead
            have shorter : after.size < count := size ▸ Nat.lt_of_succ_le bound
            dsimp only [Token.relocate]
            rw [ready.1, ready.2]
            cases after with
            | failed => cases relatedAfter
            | ended =>
              cases relatedAfter
              exact listed_abreast value done true .ended
            | token next rest =>
              obtain ⟨moved, rfl, -, -⟩ := relatedAfter.cases_token
              dsimp only
              by_cases atEnd : ends next
              · rw [if_pos atEnd, if_pos ((endsAlike next).trans atEnd)]
                exact listed_abreast value done true relatedAfter
              · have atEndToo : ¬ends (next.relocate move) = true := by rwa [endsAlike]
                have more := inductionHypothesis _ shorter (value :: done) _ _ relatedAfter rfl
                rw [if_neg atEnd, if_neg atEndToo]
                unfold AlikeAt at more
                rw [List.map_cons] at more
                generalize commaSeparated item ends (value :: done) (.token next rest) = given
                  at more ⊢
                generalize commaSeparated itemToo ends (change value :: done.map change)
                  (.token (next.relocate move) moved) = givenToo at more ⊢
                cases more with
                | error => exact .error _ _
                | ok result relatedLast => exact .ok result relatedLast
          | _ => exact listed_abreast value done false relatedThen
        | _ => exact listed_abreast value done false relatedThen

end Steps

theorem alike_row (stop : List Kind) :
    Alike move (Stream.Spread move) (Row.relocate move) (row stop) (row stop) := by
  intro stream spread related
  have abreast : Abreast (Row.relocate move) (Stream.Spread move) (Row.collect stop [] [] stream)
      (Row.collect stop [] [] spread) :=
    Row.collect_abreast stop [] [] related
  unfold AlikeAt row
  split
  next items left collected =>
    rw [collected] at abreast
    split
    next itemsToo leftToo collectedToo =>
      rw [collectedToo] at abreast
      cases abreast with
      | ok _ relatedThen => exact .ok items relatedThen
    next failed =>
      rw [failed] at abreast
      cases abreast
  next failed =>
    rw [failed] at abreast
    split
    next collectedToo =>
      rw [collectedToo] at abreast
      cases abreast
    · exact .error _ _

variable (still : move default = default)
include still

theorem alike_expression (stop : List Kind) :
    Alike move (Stream.Spread move) (Expr.relocate move) (expression stop) (expression stop) := by
  refine (alike_here still).bind fun location => (alike_row stop).bind fun items => ?_
  cases items with
  | nil => exact alike_nextDisplay.bind fun _ => alike_fail
  | cons item items => exact alike_lift (Ladder.reduce_parallel (item :: items))

theorem alike_expressionList (stop : List Kind) :
    Alike move (Stream.Spread move) (Expr.relocate move) (expressionList stop)
      (expressionList stop) := by
  refine (alike_here still).bind fun location => ?_
  refine (alike_commaSeparated (fun _ => alike_expression still _) (fun _ => rfl) []).bind
    fun found => ?_
  match found with
  | ([], trailing) => exact alike_pure (Expr.tuple location [])
  | ([element], false) => exact alike_pure element
  | ([element], true) => exact alike_pure (Expr.tuple location [element])
  | (first :: second :: rest, trailing) =>
    have several : Alike move (Stream.Spread move) (Expr.relocate move)
        (pure (.tuple location (first :: second :: rest)))
        (pure (Expr.relocate move (.tuple location (first :: second :: rest)))) :=
      alike_pure _
    rw [Expr.relocate, Expr.relocateAll_eq_map] at several
    exact several

omit still in
theorem alike_dottedName : Alike move (Stream.Spread move) id dottedName dottedName := by
  intro stream spread related
  induction size : stream.size using Nat.strongRecOn generalizing stream spread with
  | ind count inductionHypothesis =>
    have abreast := alike_identifier _ _ related
    unfold AlikeAt at abreast ⊢
    unfold dottedName
    generalize identifier stream = given at abreast ⊢
    generalize identifier spread = givenToo at abreast ⊢
    cases abreast with
    | error => exact .error _ _
    | @ok name left leftToo relatedThen =>
      obtain ⟨left, bound⟩ := left
      obtain ⟨leftToo, boundToo⟩ := leftToo
      have last : Abreast id
          (fun (left : stream.Rest) (leftToo : spread.Rest) => Stream.Spread move left.1 leftToo.1)
          (.ok ([name], ⟨left, bound⟩) : Except SourceError _)
          (.ok ([name], ⟨leftToo, boundToo⟩)) :=
        .ok [name] relatedThen
      cases left with
      | failed => cases relatedThen
      | ended =>
        cases relatedThen
        exact last
      | token head after =>
        obtain ⟨afterToo, rfl, -, others⟩ := Stream.Spread.cases_token relatedThen
        obtain ⟨lexeme, location⟩ := head
        cases lexeme with
        | symbol sign =>
          cases sign with
          | dot =>
            have relatedAfter := others nofun
            have ready := relatedAfter.ahead
            have more := inductionHypothesis _ (size ▸ Nat.lt_of_succ_le bound) _ _ relatedAfter rfl
            dsimp only [Token.relocate]
            rw [ready.1, ready.2]
            unfold AlikeAt at more
            dsimp only
            generalize dottedName after = given at more ⊢
            generalize dottedName afterToo = givenToo at more ⊢
            cases more with
            | error => exact .error _ _
            | ok path relatedLast => exact .ok (name :: path) relatedLast
          | _ => exact last
        | _ => exact last

end Reading

end Offside
