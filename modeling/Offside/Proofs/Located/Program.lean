/-
This file proves that every text parses to a program or to a fault at one of its own
lines. The lines of the tokens are those of the text, because a line number only grows
with the line breaks that are passed. From then on no place is made up: whatever is
recorded or reported stands at the line of a token.

For that the reader must never run past the last token, where there is no line to take.
A stream always ends in the token for the end of the file or in a fault. No reader uses
up that token, and a fault in the characters is reported by the step that looks ahead at
it, so a reader that goes on always has a token before it.
-/

import Offside.Proofs.Lexing.Spans
import Offside.Proofs.Lines
import Offside.Proofs.Located.Expressions
import Offside.Proofs.Watch

namespace Offside

/-- The fault is reported at a good line. -/
def SourceError.At (good : Location → Prop) (error : SourceError) : Prop :=
  ∃ location, error.location? = some location ∧ good location

variable {good : Location → Prop}

/-! ### Streams -/

/-- Every token stands at a good line, and the stream ends in the end of the file or in a fault at
a good line. -/
def Stream.Located (good : Location → Prop) : Stream → Prop
  | .ended => False
  | .failed error => good error.location
  | .token head rest => good head.location ∧ (head.kind = .endOfFile ∨ rest.Located good)

/-- A located stream that has a token of some kind before it. -/
def Stream.Ready (good : Location → Prop) (kinds : Kind → Prop) : Stream → Prop
  | .token head rest => kinds head.kind ∧ (Stream.token head rest).Located good
  | _ => False

/-- Any kind of token. -/
def anyKind (_ : Kind) : Prop :=
  True

theorem Stream.Ready.mono {kinds others : Kind → Prop} {stream : Stream}
    (ready : stream.Ready good kinds) (more : ∀ kind, kinds kind → others kind) :
    stream.Ready good others := by
  cases stream with
  | token head rest => exact ⟨more _ ready.1, ready.2⟩
  | failed | ended => exact ready

theorem Stream.Ready.any {kinds : Kind → Prop} {stream : Stream}
    (ready : stream.Ready good kinds) : stream.Ready good anyKind :=
  ready.mono fun _ _ => trivial

theorem Stream.Ready.located {kinds : Kind → Prop} {stream : Stream}
    (ready : stream.Ready good kinds) : stream.Located good := by
  cases stream with
  | token head rest => exact ready.2
  | failed | ended => exact ready.elim

theorem Stream.Located.rest {head : Token} {rest : Stream}
    (located : (Stream.token head rest).Located good) (goesOn : head.kind ≠ .endOfFile) :
    rest.Located good :=
  located.2.resolve_left goesOn

/-- Looking ahead leaves a token to read. -/
theorem ahead_lands {rest : Stream} (located : rest.Located good) :
    Lands (SourceError.At good) (Reading.ahead rest) fun _ => rest.Ready good anyKind := by
  cases rest with
  | token head rest => exact ⟨trivial, located⟩
  | failed error => exact ⟨error.location, rfl, located⟩
  | ended => exact located.elim

/-! ### Rows -/

namespace Row

theorem orFault_lands {α : Type} {step : Except ParseError α} {property : α → Prop}
    (lands : Lands (ParseError.At good) step property) :
    Lands (SourceError.At good) (orFault step) property := by
  cases step with
  | error => exact lands
  | ok value => exact lands

theorem addOperand_lands {row : List Item} {operand : Expr} {name : String}
    (located : LocatedRow good row) (operandLocated : operand.Located good) :
    Lands (ParseError.At good) (addOperand row operand name) (LocatedRow good) := by
  unfold addOperand
  split
  next location object before =>
    obtain ⟨pointGood, others⟩ := locatedRow_cons.mp located
    obtain ⟨objectLocated, beforeLocated⟩ := locatedRow_cons.mp others
    exact locatedRow_cons.mpr ⟨⟨pointGood.1, objectLocated⟩, beforeLocated⟩
  · exact lands_failAt (locatedRow_cons.mp located).1.1
  · exact locatedRow_cons.mpr ⟨operandLocated, located⟩

/-- A bracket that is still open stands at a good line, and so does the row set aside at it. -/
def Pending.Located (good : Location → Prop) (pending : Pending) : Prop :=
  good pending.opening.location ∧ LocatedRow good pending.before

theorem closeGroup_lands {pending : Pending} {inner : List Item} (located : pending.Located good)
    (innerLocated : LocatedRow good inner) :
    Lands (ParseError.At good) (closeGroup pending inner) (LocatedRow good) := by
  obtain ⟨isGood, beforeLocated⟩ := located
  unfold closeGroup
  split
  next object before same =>
    rw [same] at beforeLocated
    obtain ⟨objectLocated, beforeLocated⟩ := locatedRow_cons.mp beforeLocated
    refine (Group.close_lands isGood (fun _ found => ?_) innerLocated).bind
      fun group groupLocated => ?_
    · cases found
      exact objectLocated
    · exact locatedRow_cons.mpr ⟨groupLocated, beforeLocated⟩
  · refine (Group.close_lands isGood (fun _ found => ?_) innerLocated).bind
      fun group groupLocated => ?_
    · cases found
    · exact locatedRow_cons.mpr ⟨groupLocated, beforeLocated⟩

theorem kind_ne_of_role {token : Token} (goesOn : role token ≠ .fileEnd) :
    token.kind ≠ .endOfFile := by
  intro same
  refine goesOn ?_
  obtain ⟨lexeme, location⟩ := token
  cases lexeme <;> first | rfl | cases same

theorem misplaced_lands {α : Type} {pending : Pending} {token : Token} {rest : Stream}
    {property : α → Prop} (located : pending.Located good) (isGood : good token.location) :
    Lands (SourceError.At good) (misplaced pending token rest) property := by
  unfold misplaced
  split
  · exact ⟨token.location, rfl, isGood⟩
  · exact ⟨pending.opening.location, rfl, located.1⟩

/-- A row ends at a token, with all its entries at good lines. -/
theorem collect_lands (stop : List Kind) {pending : List Pending} {row : List Item}
    {stream : Stream} (ready : stream.Ready good anyKind) (located : LocatedRow good row)
    (pendingLocated : ∀ inner ∈ pending, inner.Located good) :
    Lands (SourceError.At good) (collect stop pending row stream) fun result =>
      LocatedRow good result.1 ∧ result.2.Ready good anyKind := by
  induction stream generalizing pending row with
  | ended | failed => exact ready.elim
  | token head rest inductionHypothesis =>
    have isGood : good head.location := ready.2.1
    have ends : Lands (SourceError.At good)
        (.ok (row.reverse, Stream.token head rest) : Except SourceError _) fun result =>
          LocatedRow good result.1 ∧ result.2.Ready good anyKind :=
      ⟨located.mono fun _ found => List.mem_reverse.mp found, ready⟩
    -- Whatever goes on has not come to the end of the file, so the rest is located too.
    have further (goesOn : role head ≠ .fileEnd) {next : Unit → Except SourceError (List Item × Stream)}
        (nextLands : rest.Ready good anyKind → Lands (SourceError.At good) (next ()) fun result =>
          LocatedRow good result.1 ∧ result.2.Ready good anyKind) :
        Lands (SourceError.At good) (Reading.ahead rest >>= next) fun result =>
          LocatedRow good result.1 ∧ result.2.Ready good anyKind :=
      (ahead_lands (ready.located.rest (kind_ne_of_role goesOn))).bind fun _ => nextLands
    have joins (goesOn : role head ≠ .fileEnd) (noBreak : role head ≠ .lineBreak) :
        Lands (SourceError.At good) (Reading.ahead rest >>= fun _ =>
          collect stop pending (.token head :: row) rest) fun result =>
            LocatedRow good result.1 ∧ result.2.Ready good anyKind :=
      further goesOn fun restReady =>
        inductionHypothesis restReady
          (locatedRow_cons.mpr ⟨⟨isGood, isBreak_of_role noBreak⟩, located⟩) pendingLocated
    unfold collect
    split
    · exact ends
    · split
      · exact ⟨head.location, rfl, isGood⟩
      · split
        next known =>
          split
          · exact ends
          · exact further (by simp [known]) fun restReady =>
              inductionHypothesis restReady located pendingLocated
        · split
          · exact ends
          next inner innermost =>
            exact ⟨inner.opening.location, rfl,
              (pendingLocated inner (List.mem_of_mem_head? innermost)).1⟩
        next bracket known =>
          refine further (by simp [known]) fun restReady => ?_
          refine inductionHypothesis restReady (fun _ found => by cases found) ?_
          exact List.forall_mem_cons.mpr ⟨⟨isGood, located⟩, pendingLocated⟩
        next bracket known =>
          split
          · exact ends
          next inner innermost =>
            have inside : inner ∈ pending := List.mem_of_mem_head? innermost
            split
            · refine further (by simp [known]) fun restReady => ?_
              refine (orFault_lands (closeGroup_lands (pendingLocated inner inside)
                (located.mono fun _ found => List.mem_reverse.mp found))).bind
                  fun resumed resumedLocated => ?_
              exact inductionHypothesis restReady resumedLocated
                fun other found => pendingLocated other (List.mem_of_mem_tail found)
            · exact ⟨head.location, rfl, isGood⟩
        next operand known =>
          refine (orFault_lands (Group.operand?_lands isGood (operand?_of_role known))).bind
            fun operand operandLocated => ?_
          refine further (by simp [known]) fun restReady => ?_
          refine (orFault_lands (addOperand_lands located operandLocated)).bind
            fun extended extendedLocated => ?_
          exact inductionHypothesis restReady extendedLocated pendingLocated
        next known => exact joins (by simp [known]) (by simp [known])
        next known =>
          split
          · split
            · exact joins (by simp [known]) (by simp [known])
            · exact ends
          next inner innermost =>
            split
            · exact joins (by simp [known]) (by simp [known])
            · exact misplaced_lands (pendingLocated inner (List.mem_of_mem_head? innermost)) isGood

end Row

/-! ### Reading -/

namespace Reading

/-- Reading a located stream with a token of some kind before it leaves a located stream with a
token before it, and gives a value with this property or a fault at a good line. -/
def Places {α : Type} (good : Location → Prop) (kinds : Kind → Prop) (reading : Reading α)
    (property : α → Prop) : Prop :=
  ∀ stream, stream.Ready good kinds → Lands (SourceError.At good) (reading stream) fun result =>
    property result.1 ∧ result.2.1.Ready good anyKind

variable {α β : Type} {kinds : Kind → Prop} {property : α → Prop} {result : β → Prop}

theorem Places.among {reading : Reading α} (places : Places good anyKind reading property) :
    Places good kinds reading property :=
  fun stream ready => places stream ready.any

theorem places_pure {value : α} (holds : property value) :
    Places good kinds (pure value) property :=
  fun _ ready => ⟨holds, ready.any⟩

theorem Places.bind {first : Reading α} {next : α → Reading β}
    (places : Places good kinds first property)
    (nextPlaces : ∀ value, property value → Places good anyKind (next value) result) :
    Places good kinds (first >>= next) result := by
  intro stream ready
  have firstLands := places stream ready
  simp only [Bind.bind]
  split
  next error failed =>
    rw [failed] at firstLands
    exact firstLands
  next value middle bound done =>
    rw [done] at firstLands
    have nextLands := nextPlaces value firstLands.1 middle firstLands.2
    split
    next error failed =>
      rw [failed] at nextLands
      exact nextLands
    next last rest further lastDone =>
      rw [lastDone] at nextLands
      exact nextLands

theorem Places.map {first : Reading α} {change : α → β} (places : Places good kinds first property)
    (changed : ∀ value, property value → result (change value)) :
    Places good kinds (change <$> first) result :=
  places.bind fun value holds => places_pure (changed value holds)

theorem places_fail {location : Location} {fault : ParseFault} (isGood : good location) :
    Places good kinds (fail location fault) property :=
  fun _ _ => ⟨location, rfl, isGood⟩

theorem places_lift {step : Except ParseError α} (lands : Lands (ParseError.At good) step property) :
    Places good kinds (lift step) property := by
  intro stream ready
  unfold lift
  cases step with
  | error => exact lands
  | ok value => exact ⟨lands, ready.any⟩

/-- A step that reads nothing leaves the stream to the next one. -/
theorem lands_of_kept {first : Reading α} {next : α → Reading β} {stream : Stream} {value : α}
    (kept : first stream = .ok (value, ⟨stream, Nat.le_refl _⟩))
    (lands : Lands (SourceError.At good) (next value stream) fun found =>
      result found.1 ∧ found.2.1.Ready good anyKind) :
    Lands (SourceError.At good) ((first >>= next) stream) fun found =>
      result found.1 ∧ found.2.1.Ready good anyKind := by
  simp only [Bind.bind, kept]
  split
  next error failed =>
    rw [failed] at lands
    exact lands
  next last rest further done =>
    rw [done] at lands
    exact lands

theorem places_pure_then {value : α} {next : α → Reading β}
    (nextPlaces : Places good kinds (next value) result) :
    Places good kinds (pure value >>= next) result :=
  fun stream ready => lands_of_kept rfl (nextPlaces stream ready)

theorem places_lift_then {step : Except ParseError α} {next : α → Reading β}
    (lands : Lands (ParseError.At good) step property)
    (nextPlaces : ∀ value, property value → Places good kinds (next value) result) :
    Places good kinds (lift step >>= next) result := by
  intro stream ready
  cases step with
  | error => exact lands
  | ok value => exact lands_of_kept rfl (nextPlaces value lands stream ready)

/-- Looking at the next token tells what kind it has. -/
theorem places_peek {next : Option Token → Reading β}
    (nextPlaces : ∀ token, good token.location →
      Places good (· = token.kind) (next (some token)) result) :
    Places good kinds (peek >>= next) result := by
  intro stream ready
  cases stream with
  | ended | failed => exact ready.elim
  | token head rest =>
    exact lands_of_kept rfl (nextPlaces head ready.2.1 (.token head rest) ⟨rfl, ready.2⟩)

theorem places_isNext {kind : Kind} {next : Bool → Reading β}
    (taken : Places good (· = kind) (next true) result)
    (otherwise : Places good anyKind (next false) result) :
    Places good kinds (isNext kind >>= next) result := by
  intro stream ready
  cases stream with
  | ended | failed => exact ready.elim
  | token head rest =>
    have value : isNext kind (.token head rest) =
        .ok (decide (head.kind = kind), ⟨.token head rest, Nat.le_refl _⟩) := rfl
    refine lands_of_kept value ?_
    by_cases same : head.kind = kind
    · rw [decide_eq_true same]
      exact taken _ ⟨same, ready.2⟩
    · rw [decide_eq_false same]
      exact otherwise _ ready.any

theorem places_here : Places good kinds here good :=
  places_peek fun _ isGood => places_pure isGood

theorem places_nextDisplay : Places good kinds nextDisplay fun _ => True :=
  places_peek fun _ _ => places_pure trivial

/-- Using up a token that is not the last one leaves another. -/
theorem places_advance (goesOn : ∀ kind, kinds kind → kind ≠ .endOfFile) :
    Places good kinds advance fun _ => True := by
  intro stream ready
  cases stream with
  | ended | failed => exact ready.elim
  | token head rest =>
    have lands := ahead_lands (ready.located.rest (goesOn _ ready.1))
    unfold advance
    dsimp only
    split
    next done =>
      rw [done] at lands
      exact ⟨trivial, lands⟩
    next error failed =>
      rw [failed] at lands
      exact lands

theorem places_advance_then {next : Unit → Reading β}
    (goesOn : ∀ kind, kinds kind → kind ≠ .endOfFile)
    (nextPlaces : Places good anyKind (next ()) result) :
    Places good kinds (advance >>= next) result :=
  (places_advance goesOn).bind fun _ _ => nextPlaces

theorem places_expect {kind : Kind} (goesOn : kind ≠ .endOfFile) :
    Places good kinds (expect kind) fun token => good token.location := by
  refine places_peek fun token isGood => ?_
  dsimp only
  split
  next same =>
    refine places_advance_then (fun _ found => ?_) (places_pure isGood)
    rw [found, same]
    exact goesOn
  · exact places_fail isGood

theorem places_identifier : Places good kinds identifier fun _ => True :=
  (places_expect (by simp)).map fun _ _ => trivial

theorem places_endOfLine : Places good kinds endOfLine fun _ => True := by
  refine places_peek fun token isGood => ?_
  split
  next same =>
    cases same
    exact places_advance fun _ found => by simp [found, Token.kind, Lexeme.kind]
  next other =>
    cases other
    split <;> exact places_fail isGood
  next none => cases none

theorem places_row (stop : List Kind) : Places good kinds (row stop) (LocatedRow good) := by
  intro stream ready
  have noEntry : LocatedRow good [] := fun _ found => by cases found
  have noBracket : ∀ inner ∈ ([] : List Row.Pending), inner.Located good :=
    fun _ found => by cases found
  have lands := Row.collect_lands stop ready.any noEntry noBracket
  unfold row
  split
  next items rest collected =>
    rw [collected] at lands
    exact lands
  next error failed =>
    rw [failed] at lands
    exact lands

theorem places_expression (stop : List Kind) :
    Places good kinds (expression stop) (Expr.Located good) := by
  refine places_here.bind fun location isGood => (places_row stop).bind fun items located => ?_
  split
  · exact places_nextDisplay.bind fun _ _ => places_fail isGood
  next inhabited => exact places_lift (Ladder.reduce_lands inhabited located)

theorem Lists.ne_nil {item : List α → Reading α} {ends : Token → Bool} {done : List α}
    {stream left : Stream} {result : List α × Bool}
    (lists : Lists item ends done stream result left) : result.1 ≠ [] := by
  induction lists with
  | last | closed => simp
  | more _ _ _ othersInhabited => exact othersInhabited

/-- A list of items with commas between them has at least one. -/
theorem commaSeparated_ne_nil {item : List α → Reading α} {ends : Token → Bool} {done : List α}
    {stream : Stream} :
    Yields (commaSeparated item ends done stream) fun found => found.1.1 ≠ [] :=
  fun _ success => (lists_of_commaSeparated success).ne_nil

theorem places_commaSeparated {item : List α → Reading α} {ends : Token → Bool} {done : List α}
    (itemPlaces : ∀ before, Places good anyKind (item before) property)
    (doneHolds : ∀ value ∈ done, property value) :
    Places good kinds (commaSeparated item ends done) fun found =>
      ∀ value ∈ found.1, property value := by
  refine Places.among fun stream ready => ?_
  obtain ⟨size, sized⟩ : ∃ size, stream.size = size := ⟨_, rfl⟩
  induction size using Nat.strongRecOn generalizing stream done with
  | ind size inductionHypothesis =>
    have extended {value : α} (holds : property value) : ∀ other ∈ value :: done, property other :=
      List.forall_mem_cons.mpr ⟨holds, doneHolds⟩
    have reversed {value : α} (holds : property value) :
        ∀ other ∈ (value :: done).reverse, property other :=
      fun other found => extended holds other (List.mem_reverse.mp found)
    have itemLands := itemPlaces done stream ready
    unfold commaSeparated
    split
    next error failed =>
      rw [failed] at itemLands
      exact itemLands
    next value location after bound itemRead =>
      rw [itemRead] at itemLands
      obtain ⟨holds, commaReady⟩ := itemLands
      have aheadLands := ahead_lands (commaReady.located.rest (by simp [Token.kind, Lexeme.kind]))
      split
      next error failed =>
        rw [failed] at aheadLands
        exact aheadLands
      next done =>
        rw [done] at aheadLands
        cases after with
        | token next rest =>
          dsimp only
          split
          · exact ⟨reversed holds, aheadLands⟩
          · have shorter : (Stream.token next rest).size < size := by
              rw [← sized]
              exact Nat.lt_of_succ_le bound
            have others := inductionHypothesis _ shorter (extended holds) (.token next rest) aheadLands rfl
            split
            next error failed =>
              rw [failed] at others
              exact others
            next more left further moreRead =>
              rw [moreRead] at others
              exact others
        | failed | ended => exact aheadLands.elim
    next value rest _ itemRead =>
      rw [itemRead] at itemLands
      exact ⟨reversed itemLands.1, itemLands.2⟩

theorem places_expressionList (stop : List Kind) :
    Places good kinds (expressionList stop) (Expr.Located good) := by
  refine places_here.bind fun location isGood => ?_
  refine (places_commaSeparated (fun _ => places_expression _) (by simp)).bind fun found all => ?_
  dsimp only
  split
  next element same _ =>
    rw [same] at all
    exact places_pure (all element List.mem_cons_self)
  · exact places_pure ⟨isGood, Expr.locatedAll_iff.mpr all⟩

theorem places_dottedName : Places good kinds dottedName fun _ => True := by
  refine Places.among fun stream ready => ?_
  obtain ⟨size, sized⟩ : ∃ size, stream.size = size := ⟨_, rfl⟩
  induction size using Nat.strongRecOn generalizing stream with
  | ind size inductionHypothesis =>
    have nameLands := places_identifier stream ready
    unfold dottedName
    split
    next error failed =>
      rw [failed] at nameLands
      exact nameLands
    next name location after bound nameRead =>
      rw [nameRead] at nameLands
      have aheadLands := ahead_lands (nameLands.2.located.rest (by simp [Token.kind, Lexeme.kind]))
      split
      next error failed =>
        rw [failed] at aheadLands
        exact aheadLands
      next done =>
        rw [done] at aheadLands
        have shorter : after.size < size := by
          rw [← sized]
          exact Nat.lt_of_succ_le bound
        have others := inductionHypothesis _ shorter _ aheadLands rfl
        split
        next error failed =>
          rw [failed] at others
          exact others
        next path rest further pathRead =>
          rw [pathRead] at others
          exact others
    next name rest _ nameRead =>
      rw [nameRead] at nameLands
      exact nameLands

end Reading

/-! ### Lines -/

namespace Line

open Reading

variable {kinds : Kind → Prop}

theorem places_headerEnd : Places good kinds headerEnd fun _ => True :=
  (places_expect (by simp)).bind fun _ _ => places_endOfLine

theorem places_handlerClass : Places good kinds handlerClass fun _ => True := by
  refine places_isNext (places_pure trivial) ?_
  refine (places_expression _).bind fun class? _ => ?_
  refine places_isNext ?_ (places_pure trivial)
  refine places_advance_then (by simp) ?_
  exact places_identifier.bind fun _ _ => places_pure trivial

theorem places_loopTarget {location : Location} (isGood : good location)
    (parts : List Expr × Expr) (located : ∀ target ∈ parts.1, target.Located good) :
    Places good kinds (do
      let (targets, iterable) := parts
      let target := match targets with
        | [target] => target
        | targets => .tuple location targets
      lift target.checkTarget
      return (target, iterable)) fun _ => True := by
  obtain ⟨targets, iterable⟩ := parts
  refine (places_lift (Expr.Located.checkTarget ?_)).bind fun _ _ => places_pure trivial
  split
  · exact located _ List.mem_cons_self
  · exact ⟨isGood, Expr.locatedAll_iff.mpr located⟩

theorem places_loopClause : Places good kinds loopClause fun _ => True := by
  refine places_here.bind fun location isGood => ?_
  refine (places_commaSeparated (fun _ => places_expression _) (by simp)).bind fun found all => ?_
  refine places_isNext ?_ ?_
  · refine places_advance_then (by simp) ?_
    refine (places_expressionList _).bind fun iterable _ => ?_
    exact places_pure_then (places_loopTarget isGood (found.1, iterable) all)
  · rw [if_neg Bool.false_ne_true]
    split
    next last source before same =>
      have allReversed : ∀ target ∈ found.1.reverse, target.Located good :=
        fun target inside => all target (List.mem_reverse.mp inside)
      rw [same, List.forall_mem_cons] at allReversed
      obtain ⟨lastLocated, beforeLocated⟩ := allReversed
      refine places_pure_then (places_loopTarget isGood ((last :: before).reverse, source) ?_)
      intro target inside
      obtain rfl | inside := List.mem_cons.mp (List.mem_reverse.mp inside)
      · exact lastLocated.2.1
      · exact beforeLocated target inside
    · exact (places_fail isGood).bind fun _ (impossible : False) => impossible.elim

theorem places_parameter (before : List Parameter) :
    Places good kinds (parameter before) fun _ => True := by
  refine places_here.bind fun location isGood => places_identifier.bind fun name _ => ?_
  split
  · exact places_fail isGood
  · refine places_isNext ?_ ?_
    · refine places_advance_then (by simp) ?_
      exact (places_expression _).bind fun _ _ => places_pure trivial
    · rw [if_neg Bool.false_ne_true]
      split
      · exact places_fail isGood
      · exact places_pure trivial

theorem places_closing {α : Type} (found : α) :
    Places good kinds (do
      let _ ← expect (.symbol .closeParen)
      return found) fun _ => True :=
  (places_expect (by simp)).bind fun _ _ => places_pure trivial

theorem places_parameters : Places good kinds parameters fun _ => True := by
  refine (places_expect (by simp)).bind fun _ _ => places_isNext ?_ ?_
  · exact places_pure_then (places_closing _)
  · exact (Places.map (places_commaSeparated places_parameter (by simp)) fun _ _ => trivial).bind
      fun found (_ : True) => places_closing found

theorem places_baseClass : Places good kinds baseClass fun _ => True := by
  refine places_isNext ?_ (places_pure trivial)
  refine places_advance_then (by simp) (places_isNext ?_ ?_)
  · exact places_pure_then (places_closing _)
  · exact (Places.map (places_expression _) fun _ _ => trivial).bind
      fun found (_ : True) => places_closing found

theorem places_optionalValue : Places good kinds optionalValue fun _ => True := by
  refine places_isNext (places_pure trivial) ?_
  exact (places_expressionList _).bind fun _ _ => places_pure trivial

theorem places_deletion {location : Location} (isGood : good location) :
    Places good kinds (deletion location) fun _ => True := by
  refine (places_expressionList _).bind fun target _ => ?_
  split
  · exact places_pure trivial
  · exact places_fail isGood

theorem places_moduleImport : Places good kinds moduleImport fun _ => True := by
  refine places_dottedName.bind fun path _ => places_isNext ?_ (places_pure trivial)
  refine places_advance_then (by simp) ?_
  exact places_identifier.bind fun _ _ => places_pure trivial

theorem places_importedName : Places good kinds importedName fun _ => True := by
  refine places_peek fun token isGood => ?_
  split
  next location same =>
    cases same
    exact places_fail isGood
  · exact places_identifier

theorem places_namesImport : Places good kinds namesImport fun _ => True := by
  refine places_dottedName.bind fun path _ => (places_expect (by simp)).bind fun _ _ => ?_
  refine places_isNext (places_advance_then (by simp) (places_pure trivial)) ?_
  exact (places_commaSeparated (fun _ => places_importedName) (by simp)).bind
    fun _ _ => places_pure trivial

theorem places_expressionOrAssignment : Places good kinds expressionOrAssignment fun _ => True := by
  refine (places_expressionList _).bind fun first located => places_isNext ?_ (places_pure trivial)
  refine places_lift_then (Expr.Located.checkTarget located) fun _ _ => ?_
  refine places_advance_then (by simp) ?_
  exact (places_expressionList _).bind fun _ _ => places_pure trivial

theorem places_header? {word : Keyword} {rest : Reading Header}
    (found : header? word = some rest) : Places good kinds rest fun _ => True := by
  unfold header? at found
  split at found <;> cases found
  · exact (places_expression _).map fun _ _ => trivial
  · exact (places_expression _).map fun _ _ => trivial
  · exact (places_expression _).map fun _ _ => trivial
  · exact places_pure trivial
  · exact places_pure trivial
  · exact places_pure trivial
  · exact places_handlerClass.map fun _ _ => trivial
  · exact places_loopClause.map fun _ _ => trivial
  · exact places_identifier.bind fun _ _ => places_parameters.bind fun _ _ => places_pure trivial
  · exact places_identifier.bind fun _ _ => places_baseClass.bind fun _ _ => places_pure trivial

theorem places_statement? {location : Location} {word : Keyword} {rest : Reading Simple}
    (isGood : good location) (found : statement? location word = some rest) :
    Places good kinds rest fun _ => True := by
  unfold statement? at found
  split at found <;> cases found
  · exact places_pure trivial
  · exact places_pure trivial
  · exact places_pure trivial
  · exact places_optionalValue.map fun _ _ => trivial
  · exact places_optionalValue.map fun _ _ => trivial
  · exact places_deletion isGood
  · exact places_moduleImport
  · exact places_namesImport

/-- A word is never the end of the file, so it can be used up. -/
theorem places_readContent {first : Token} (isGood : good first.location) :
    Places good (· = first.kind) (readContent first) fun _ => True := by
  have goesOn {word : Keyword} (isWord : first.lexeme.keyword? = some word) :
      ∀ kind, kind = first.kind → kind ≠ .endOfFile := by
    intro kind isKind isEnd
    cases isEnd.symm.trans (isKind.trans (Token.kind_of_keyword? isWord))
  unfold readContent
  dsimp only
  split
  next rest found =>
    obtain ⟨word, isWord, known⟩ := Option.bind_eq_some_iff.mp found
    refine places_advance_then (goesOn isWord) ((places_header? known).bind fun _ _ => ?_)
    exact places_headerEnd.bind fun _ _ => places_pure trivial
  next rest _ found =>
    obtain ⟨word, isWord, known⟩ := Option.bind_eq_some_iff.mp found
    refine places_advance_then (goesOn isWord)
      ((places_statement? isGood known).bind fun _ _ => ?_)
    exact places_endOfLine.bind fun _ _ => places_pure trivial
  · refine places_expressionOrAssignment.bind fun _ _ => ?_
    exact places_endOfLine.bind fun _ _ => places_pure trivial

theorem places_afterIndentation (depth : Nat) :
    Places good kinds (afterIndentation depth) fun found =>
      ∀ line ∈ found, good line.location := by
  refine places_peek fun token isGood => ?_
  split
  next same =>
    cases same
    refine places_advance_then (fun _ found => ?_) (places_pure (by simp))
    simp [found, Token.kind, Lexeme.kind]
  next same =>
    cases same
    exact (places_readContent isGood).bind fun _ _ => places_pure (by simpa using isGood)
  next none => cases none

theorem read_lands {stream : Stream} (located : stream.Located good) :
    Lands (SourceError.At good) (read stream) fun found =>
      (∀ line ∈ found.1, good line.location) ∧ found.2.1.Ready good anyKind := by
  unfold read
  split
  next blanks location rest =>
    refine (ahead_lands (located.rest (by simp [Token.kind, Lexeme.kind]))).bind
      fun _ restReady => ?_
    exact Lands.bind (places_afterIndentation blanks.length rest restReady) fun found holds => holds
  next head rest _ => exact ⟨head.location, rfl, located.1⟩
  next error => exact ⟨error.location, rfl, located⟩
  · exact located.elim

/-- Every line of a text starts at a good line, and the fault that ends the reading is at one. -/
theorem readAll_located {stream : Stream} (located : stream.Located good) :
    (∀ line, some line ∈ (readAll stream).1 → good line.location) ∧
      ∀ error ∈ (readAll stream).2, SourceError.At good error := by
  fun_induction readAll stream with
  | case1 => exact ⟨by simp, by simp⟩
  | case2 stream notEnd error failed =>
    have lands := read_lands located
    rw [failed] at lands
    exact ⟨by simp, fun other found => Option.some.inj found ▸ lands⟩
  | case3 stream notEnd first rest shorter done lines error others inductionHypothesis =>
    have lands := read_lands located
    rw [done] at lands
    obtain ⟨linesLocated, errorLocated⟩ := inductionHypothesis lands.2.located
    rw [others] at linesLocated errorLocated
    refine ⟨fun line found => ?_, errorLocated⟩
    obtain same | found := List.mem_cons.mp found
    · exact lands.1 line same.symm
    · exact linesLocated line found

end Line

/-! ### Blocks -/

/-- A statement starts at a good line. -/
def Stmt.StartsAt (good : Location → Prop) (statement : Stmt) : Prop :=
  good statement.location

namespace Block

def LocatedLines (good : Location → Prop) (lines : List Line) : Prop :=
  ∀ line ∈ lines, good line.location

theorem locatedLines_cons {line : Line} {lines : List Line} :
    LocatedLines good (line :: lines) ↔ good line.location ∧ LocatedLines good lines :=
  List.forall_mem_cons

/-- What is grouped has this property and leaves good lines. -/
def Groups {α : Type} {lines : List Line} (good : Location → Prop)
    (step : Except ParseError (α × Rest lines)) (property : α → Prop) : Prop :=
  Lands (ParseError.At good) step fun found => property found.1 ∧ LocatedLines good found.2.1

theorem groups_failAt {α : Type} {lines : List Line} {location : Location} {fault : ParseFault}
    {property : α → Prop} (isGood : good location) :
    Groups good (failAt location fault : Except ParseError (α × Rest lines)) property :=
  ⟨location, rfl, isGood⟩

theorem Groups.bind {α β : Type} {lines before : List Line}
    {step : Except ParseError (α × Rest before)}
    {next : α × Rest before → Except ParseError (β × Rest lines)} {property : α → Prop}
    {result : β → Prop} (groups : Groups good step property)
    (nextGroups : ∀ value rest bound, property value → LocatedLines good rest →
      Groups good (next (value, ⟨rest, bound⟩)) result) : Groups good (step >>= next) result :=
  Lands.bind groups fun (value, ⟨rest, bound⟩) found =>
    nextGroups value rest bound found.1 found.2

/-- Sequences of fewer than `count` lines give statements at good lines. -/
def SequencesGroup (good : Location → Prop) (count : Nat) : Prop :=
  ∀ (place : Place) (depth : Nat) {lines : List Line}, lines.length < count →
    LocatedLines good lines →
      Groups good (sequence place depth lines) (Stmt.EverywhereAll (Stmt.Stands good))

theorem simple_lands {place : Place} {location : Location} {action : Simple}
    (isGood : good location) :
    Lands (ParseError.At good) (simple place location action)
      (Stmt.Everywhere (Stmt.Stands good)) := by
  have stands (action : Simple) : (Stmt.simple location action).Stands good :=
    List.forall_mem_singleton.mpr isGood
  unfold simple
  split
  any_goals split
  all_goals first | exact stands _ | exact ⟨location, rfl, isGood⟩

section

variable {count : Nat} (sequences : SequencesGroup good count)
include sequences

theorem groups_body {place : Place} {line : Line} {header : Header} {lines : List Line}
    (short : lines.length < count) (located : LocatedLines good lines)
    (isGood : good line.location) :
    Groups good (body place line header lines) (Stmt.EverywhereAll (Stmt.Stands good)) := by
  unfold body
  split
  · exact groups_failAt isGood
  next first rest =>
    split
    · exact groups_failAt (locatedLines_cons.mp located).1
    · have groups := sequences place first.depth short located
      split
      next error failed =>
        rw [failed] at groups
        exact groups
      next statements bound done =>
        rw [done] at groups
        exact groups
      next statements after left bound done =>
        rw [done] at groups
        split
        · exact groups_failAt (locatedLines_cons.mp groups.2).1
        · exact groups

theorem ReadsClause.groups {place : Place} {depth : Nat} {header : Header}
    {clause : (lines : List Line) → Except ParseError (Option (List Stmt) × Rest lines)}
    (reads : ReadsClause place depth header clause) {lines : List Line}
    (short : lines.length < count) (located : LocatedLines good lines) :
    Groups good (clause lines) (Stmt.EverywhereElse (Stmt.Stands good)) := by
  by_cases next : nextHeader? depth lines = some header
  · cases lines with
    | nil => simp [nextHeader?] at next
    | cons line rest =>
      obtain ⟨isGood, restLocated⟩ := locatedLines_cons.mp located
      rw [reads.stands next]
      exact (groups_body sequences (Nat.lt_of_succ_lt short) restLocated isGood).bind
        fun _ _ _ blockHolds leftLocated => ⟨blockHolds, leftLocated⟩
  · rw [reads.missing next]
    exact ⟨trivial, located⟩

theorem groups_attemptElse {place : Place} {depth : Nat} {unhandled : Bool} {lines : List Line}
    (short : lines.length < count) (located : LocatedLines good lines) :
    Groups good (attemptElse place depth unhandled lines)
      (Stmt.EverywhereElse (Stmt.Stands good)) := by
  cases unhandled with
  | false => exact (attemptElse_reads place depth).groups sequences short located
  | true =>
    by_cases next : nextHeader? depth lines = some .otherwise
    · cases lines with
      | nil => simp [nextHeader?] at next
      | cons line rest =>
        rw [attemptElse_refused place next]
        exact groups_failAt (locatedLines_cons.mp located).1
    · rw [attemptElse_of_ne place true next]
      exact ⟨trivial, located⟩

theorem groups_branches {place : Place} {depth : Nat} {lines : List Line}
    (short : lines.length < count) (located : LocatedLines good lines) :
    Groups good (branches place depth lines) fun found =>
      Branch.EverywhereAll (Stmt.Stands good) found ∧
        ∀ branch ∈ found, good branch.location := by
  unfold branches
  split
  · exact ⟨⟨trivial, List.forall_mem_nil _⟩, located⟩
  next first rest =>
    split
    · obtain ⟨firstGood, restLocated⟩ := locatedLines_cons.mp located
      rw [List.length_cons] at short
      refine (groups_body sequences (by omega) restLocated firstGood).bind
        fun block middle bound blockHolds middleLocated => ?_
      exact (groups_branches (by omega) middleLocated).bind
        fun _ _ _ othersHold leftLocated =>
          ⟨⟨⟨blockHolds, othersHold.1⟩, List.forall_mem_cons.mpr ⟨firstGood, othersHold.2⟩⟩,
            leftLocated⟩
    · exact ⟨⟨trivial, List.forall_mem_nil _⟩, located⟩
termination_by lines.length
decreasing_by simp_all

theorem groups_handlers {place : Place} {depth : Nat} {bare : Option Location} {lines : List Line}
    (short : lines.length < count) (located : LocatedLines good lines)
    (bareGood : ∀ location ∈ bare, good location) :
    Groups good (handlers place depth bare lines) fun found =>
      Handler.EverywhereAll (Stmt.Stands good) found ∧
        ∀ handler ∈ found, good handler.location := by
  unfold handlers
  split
  · exact ⟨⟨trivial, List.forall_mem_nil _⟩, located⟩
  next first rest =>
    obtain ⟨firstGood, restLocated⟩ := locatedLines_cons.mp located
    split
    · split
      next location => exact groups_failAt (bareGood location rfl)
      · rw [List.length_cons] at short
        refine (groups_body sequences (by omega) restLocated firstGood).bind
          fun block middle bound blockHolds middleLocated => ?_
        refine (groups_handlers (by omega) middleLocated fun location found => ?_).bind
          fun _ _ _ othersHold leftLocated =>
            ⟨⟨⟨blockHolds, othersHold.1⟩, List.forall_mem_cons.mpr ⟨firstGood, othersHold.2⟩⟩,
              leftLocated⟩
        split at found
        · exact Option.some.inj found ▸ firstGood
        · cases found
    · exact ⟨⟨trivial, List.forall_mem_nil _⟩, located⟩
termination_by lines.length
decreasing_by simp_all

theorem groups_statement (place : Place) {line : Line} {lines : List Line}
    (short : lines.length < count) (located : LocatedLines good lines)
    (isGood : good line.location) :
    Groups good (statement place line lines) (Stmt.Everywhere (Stmt.Stands good)) := by
  have single : ∀ location ∈ [line.location], good location := List.forall_mem_singleton.mpr isGood
  unfold statement
  split
  · exact (simple_lands isGood).bind fun found holds => ⟨holds, located⟩
  next header _ =>
    split
    · refine (groups_body sequences short located isGood).bind
        fun block rest bound blockHolds restLocated => ?_
      refine (groups_branches sequences (by omega) restLocated).bind
        fun others rest1 bound1 othersHold rest1Located => ?_
      exact ((elseClause_reads _ _).groups sequences (by omega) rest1Located).bind
        fun _ _ _ otherwiseHolds leftLocated =>
          ⟨⟨List.forall_mem_cons.mpr ⟨isGood, List.forall_mem_map.mpr
            (List.forall_mem_cons.mpr ⟨isGood, othersHold.2⟩)⟩, ⟨blockHolds, othersHold.1⟩,
              otherwiseHolds⟩, leftLocated⟩
    · refine (groups_body sequences short located isGood).bind
        fun block rest bound blockHolds restLocated => ?_
      exact ((elseClause_reads _ _).groups sequences (by omega) restLocated).bind
        fun _ _ _ otherwiseHolds leftLocated => ⟨⟨single, blockHolds, otherwiseHolds⟩, leftLocated⟩
    · refine (groups_body sequences short located isGood).bind
        fun block rest bound blockHolds restLocated => ?_
      exact ((elseClause_reads _ _).groups sequences (by omega) restLocated).bind
        fun _ _ _ otherwiseHolds leftLocated => ⟨⟨single, blockHolds, otherwiseHolds⟩, leftLocated⟩
    · refine (groups_body sequences short located isGood).bind
        fun block rest bound blockHolds restLocated => ?_
      refine (groups_handlers sequences (by omega) restLocated (by simp)).bind
        fun handlers rest1 bound1 handlersHold rest1Located => ?_
      refine (groups_attemptElse sequences (by omega) rest1Located).bind
        fun otherwise rest2 bound2 otherwiseHolds rest2Located => ?_
      refine ((finallyClause_reads _ _).groups sequences (by omega) rest2Located).bind
        fun cleanup rest3 bound3 cleanupHolds rest3Located => ?_
      dsimp only
      split
      · exact groups_failAt isGood
      · exact ⟨⟨List.forall_mem_cons.mpr ⟨isGood, List.forall_mem_map.mpr handlersHold.2⟩,
          blockHolds, handlersHold.1, otherwiseHolds, cleanupHolds⟩, rest3Located⟩
    · exact (groups_body sequences short located isGood).bind
        fun _ _ _ blockHolds leftLocated => ⟨⟨single, blockHolds⟩, leftLocated⟩
    · exact (groups_body sequences short located isGood).bind
        fun _ _ _ blockHolds leftLocated => ⟨⟨single, blockHolds⟩, leftLocated⟩
    any_goals exact groups_failAt isGood

end

theorem groups_sequence (count : Nat) : SequencesGroup good count := by
  induction count with
  | zero => exact fun _ _ _ short => absurd short (Nat.not_lt_zero _)
  | succ count sequences =>
    intro place depth lines short located
    unfold sequence
    split
    · exact ⟨trivial, located⟩
    next line rest =>
      obtain ⟨isGood, restLocated⟩ := locatedLines_cons.mp located
      rw [List.length_cons] at short
      split
      · exact ⟨trivial, located⟩
      · split
        · exact groups_failAt isGood
        · have first := groups_statement sequences place (Nat.lt_of_succ_lt_succ short)
            restLocated isGood
          split
          next error failed =>
            rw [failed] at first
            exact first
          next statement middle bound done =>
            rw [done] at first
            have fewer : middle.length < count := by omega
            have others := sequences place depth fewer first.2
            split
            next error failed =>
              rw [failed] at others
              exact others
            next more left bound1 moreDone =>
              rw [moreDone] at others
              exact ⟨⟨first.1, others.1⟩, others.2⟩

theorem group_lands {lines : List Line} (located : LocatedLines good lines) :
    Lands (ParseError.At good) (group lines) (Stmt.EverywhereAll (Stmt.Stands good)) := by
  unfold group
  split
  · trivial
  next first rest =>
    split
    · exact ⟨first.location, rfl, (locatedLines_cons.mp located).1⟩
    · exact Lands.bind (groups_sequence ((first :: rest).length + 1) .top 0 (Nat.lt_succ_self _) located)
        fun _ found => found.1

end Block

/-! ### Tokens -/

/-- A line of a file of which so many are known. -/
def Location.Within (file : String) (last : Nat) (location : Location) : Prop :=
  location.file = file ∧ 1 ≤ location.line ∧ location.line ≤ last

namespace Lexer

/-- A fault in a string is noticed between the line where the string starts and the last line of the
text. -/
theorem line_of_readString {quotes : Quotes} {opened line faultLine : Nat} {value text : List Char}
    {fault : LexFault} (before : opened ≤ line)
    (failed : readString quotes opened line value text = .error (fault, faultLine)) :
    opened ≤ faultLine ∧ faultLine ≤ line + text.count '\n' := by
  fun_induction readString quotes opened line value text with
  | case1 | case2 | case5 | case7 =>
    cases failed
    omega
  | case3 line value c rest decoded known inductionHypothesis =>
    have further := inductionHypothesis before failed
    simp only [List.count_cons]
    omega
  | case4 line value c rest unknown =>
    cases failed
    rw [lineAfter_eq]
    simp only [List.count_cons, List.count_nil]
    omega
  | case6 => cases failed
  | case8 line value c rest _ _ _ _ _ inductionHypothesis =>
    have further := inductionHypothesis (by rw [lineAfter_eq]; omega) failed
    rw [lineAfter_eq] at further
    simp only [List.count_cons, List.count_nil] at further ⊢
    omega

theorem line_of_take {line faultLine : Nat} {c : Char} {rest : List Char} {fault : LexFault}
    (failed : take line c rest = .error (fault, faultLine)) :
    line ≤ faultLine ∧ faultLine ≤ line + (c :: rest).count '\n' := by
  unfold take at failed
  split at failed
  · cases failed
    omega
  · split at failed
    · dsimp only at failed
      split at failed
      · cases failed
      next read =>
        cases failed
        have inside := line_of_readString (Nat.le_refl _) read
        have whole := congrArg (List.count '\n') (openQuotes_eq c rest).2
        rw [List.count_append] at whole
        omega
    · split at failed
      · cases failed
      · split at failed
        · split at failed
          · cases failed
          · cases failed
            omega
        · split at failed
          · cases failed
          · cases failed
            omega

/-- The tokens of a text stand at its own lines: the line only moves on over line breaks that are
used up. -/
theorem located_scan {file : String} {last : Nat} {marker : Option Char} {line : Nat}
    {text : List Char} (first : 1 ≤ line) (inside : line + text.count '\n' ≤ last) :
    (scan file marker line text).Located (Location.Within file last) := by
  have within {line : Nat} (first : 1 ≤ line) (inside : line ≤ last) :
      (Location.mk file line).Within file last := ⟨rfl, first, inside⟩
  have dropped {line : Nat} (skips : Char → Bool) {c : Char} {rest : List Char}
      (inside : line + (c :: rest).count '\n' ≤ last) :
      line + [c].count '\n' + (rest.dropWhile skips).count '\n' ≤ last := by
    have fewer : (rest.dropWhile skips).count '\n' ≤ rest.count '\n' :=
      (List.dropWhile_sublist skips).count_le _
    have cut : ([c] ++ rest).count '\n' = [c].count '\n' + rest.count '\n' := List.count_append
    rw [List.singleton_append] at cut
    omega
  fun_induction scan file marker line text with
  | case1 marker line =>
    have here := within first inside
    exact ⟨here, .inr ⟨here, .inl rfl⟩⟩
  | case2 marker line c rest isBlank inductionHypothesis =>
    exact inductionHypothesis first (Nat.le_trans (Nat.add_le_add_left
      ((List.sublist_cons_self c rest).count_le _) _) inside)
  | case3 marker line rest carriage => exact within first (Nat.le_of_add_right_le inside)
  | case4 marker line rest noCarriage _ inductionHypothesis =>
    have further : line + ['#'].count '\n' + (afterComment rest).count '\n' ≤ last :=
      dropped _ inside
    exact inductionHypothesis first (by omega)
  | case5 marker line rest _ _ inductionHypothesis =>
    have further := dropped isIndent inside
    rw [List.count_singleton_self] at further
    refine ⟨within first (Nat.le_of_add_right_le inside), .inr ?_⟩
    dsimp only
    split
    · exact ⟨within (by omega) (by omega), .inr (inductionHypothesis (by omega) further)⟩
    · exact within (by omega) (by omega)
  | case6 marker line c rest _ _ _ taken success inductionHypothesis =>
    obtain ⟨span, -, cut, -, lines⟩ := spells_of_take success
    rw [cut, List.count_append] at inside
    refine ⟨within first (by omega), .inr (inductionHypothesis ?_ ?_)⟩
    · omega
    · omega
  | case7 marker line c rest _ _ _ fault faultLine failed =>
    have between := line_of_take failed
    exact within (by omega) (by omega)

theorem located_stream (file text : String) :
    (stream file text).Located (Location.Within file (text.splitOn "\n").length) := by
  rw [length_splitOn_newline]
  have start : (Location.mk file 1).Within file (text.toList.count '\n' + 1) :=
    ⟨rfl, Nat.le_refl _, Nat.le_add_left _ _⟩
  have fewer : (text.toList.dropWhile isIndent).count '\n' ≤ text.toList.count '\n' :=
    (List.dropWhile_sublist _).count_le _
  unfold stream streamFrom
  dsimp only
  split
  · exact ⟨start, .inr (located_scan (Nat.le_refl _) (by omega))⟩
  · exact start

end Lexer

/-! ### Whole programs -/

namespace Program

/-- Every line that a statement of a program records is a line of its text, and a text that is no
program is refused at one of its lines. -/
theorem parse_stands (file text : String) :
    Lands (SourceError.At (Location.Within file (text.splitOn "\n").length)) (parse file text)
      (Stmt.EverywhereAll (Stmt.Stands (Location.Within file (text.splitOn "\n").length))) := by
  have read := Line.readAll_located (Lexer.located_stream file text)
  unfold parse
  split
  next error failed =>
    rw [failed] at read
    exact read.2 error rfl
  next lines done =>
    rw [done] at read
    have located : Block.LocatedLines (Location.Within file (text.splitOn "\n").length)
        (lines.filterMap id) := by
      intro line inside
      obtain ⟨found, present, rfl⟩ := List.mem_filterMap.mp inside
      exact read.1 line present
    have groups := Block.group_lands located
    split
    next statements grouped =>
      rw [grouped] at groups
      exact groups
    next error failed =>
      rw [failed] at groups
      exact groups

/-- Every statement of a program starts at a line of its text. -/
theorem parse_lands (file text : String) :
    Lands (SourceError.At (Location.Within file (text.splitOn "\n").length)) (parse file text)
      (Stmt.EverywhereAll (Stmt.StartsAt (Location.Within file (text.splitOn "\n").length))) := by
  have lands := parse_stands file text
  cases parsed : parse file text with
  | error error =>
    rw [parsed] at lands
    exact lands
  | ok program =>
    rw [parsed] at lands
    exact Stmt.EverywhereAll.mono lands fun statement stands =>
      stands _ statement.location_mem_headers

/-- Parsing a text comes to an end in a program or in a fault at one of the lines of the text. On the
way nothing is folded that is empty, which is the only thing without a line: a row that is read has
no line breaks, which folding would leave out. And whatever is picked from a row by its number is
there: the one element of a group without commas, the two first parts of a group with a colon, and
the first item of a list with commas. -/
theorem parse_total (file text : String) :
    (match parse file text with
      | .ok program =>
        Stmt.EverywhereAll (fun statement =>
          statement.location.Within file (text.splitOn "\n").length) program
      | .error error =>
        ∃ location, error.location? = some location ∧
          location.Within file (text.splitOn "\n").length) ∧
      (∀ row fault, Ladder.reduce row = .error ⟨fault, none⟩ → Ladder.withoutBreaks row = []) ∧
      (∀ stop stream items left, Row.collect stop [] [] stream = .ok (items, left) →
        Ladder.withoutBreaks items = items) ∧
      (∀ opening row found, row ≠ [] → Group.holds row (.symbol .comma) = false →
        Group.elements opening row = .ok found → ∃ element, found = [element]) ∧
      (∀ row, Group.holds row (.symbol .colon) = true →
        ∃ first second others, Group.split (.symbol .colon) row = first :: second :: others) ∧
      ∀ (item : List Expr → Reading Expr) ends stream found,
        Reading.commaSeparated item ends [] stream = .ok found → found.1.1 ≠ [] := by
  refine ⟨?_, ?_, ?_, ?_, ?_, ?_⟩
  · have lands := parse_lands file text
    split
    next program parsed =>
      rw [parsed] at lands
      exact lands
    next error failed =>
      rw [failed] at lands
      exact lands
  · intro row fault failed
    by_contra inhabited
    have everywhere : LocatedRow (fun _ => True) (Ladder.withoutBreaks row) :=
      locatedRow_of_forall (fun _ => trivial) (Ladder.unbroken_withoutBreaks row)
    have lands := Ladder.reduce_lands inhabited everywhere
    rw [Ladder.reduce_withoutBreaks, failed] at lands
    obtain ⟨location, same, -⟩ := lands
    cases same
  · intro stop stream items left collected
    exact (Row.unbroken_of_collect collected (List.forall_mem_nil _)
      (List.forall_mem_nil _)).withoutBreaks_eq
  · intro opening row found inhabited single done
    exact List.length_eq_one_iff.mp (Group.length_elements inhabited single found done)
  · intro row present
    have two := Group.two_le_length_split present
    match parts : Group.split (.symbol .colon) row with
    | [] | [_] => simp [parts] at two
    | first :: second :: others => exact ⟨first, second, others, rfl⟩
  · exact fun item ends stream found => Reading.commaSeparated_ne_nil found

end Program

end Offside
