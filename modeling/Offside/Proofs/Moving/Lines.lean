/-
This file compares the lines that are read from spread streams. They are the same lines at moved
places, but for blank ones, and a fault is found in both streams or in none.
-/

import Offside.Proofs.Moving.Streams

namespace Offside

variable {move : Location → Location}

/-! ### Moved lines -/

def Parameter.relocate (move : Location → Location) (parameter : Parameter) : Parameter :=
  ⟨parameter.name, parameter.default.map (Expr.relocate move)⟩

def Simple.relocate (move : Location → Location) : Simple → Simple
  | .expression value => .expression (value.relocate move)
  | .assign target value => .assign (target.relocate move) (value.relocate move)
  | .pass => .pass
  | .breakLoop => .breakLoop
  | .continueLoop => .continueLoop
  | .returnValue value => .returnValue (value.map (Expr.relocate move))
  | .raiseValue value => .raiseValue (value.map (Expr.relocate move))
  | .delete target => .delete (target.relocate move)
  | .importModule path newName => .importModule path newName
  | .importNames path names => .importNames path names

def Header.relocate (move : Location → Location) : Header → Header
  | .ifTrue condition => .ifTrue (condition.relocate move)
  | .elseIf condition => .elseIf (condition.relocate move)
  | .otherwise => .otherwise
  | .whileTrue condition => .whileTrue (condition.relocate move)
  | .forEach target iterable => .forEach (target.relocate move) (iterable.relocate move)
  | .attempt => .attempt
  | .handle class? name => .handle (class?.map (Expr.relocate move)) name
  | .cleanup => .cleanup
  | .function name parameters => .function name (parameters.map (Parameter.relocate move))
  | .klass name base => .klass name (base.map (Expr.relocate move))

def Content.relocate (move : Location → Location) : Content → Content
  | .header inner => .header (inner.relocate move)
  | .simple inner => .simple (inner.relocate move)

/-- The same line at moved places. -/
def Line.relocate (move : Location → Location) (line : Line) : Line :=
  ⟨line.depth, move line.location, line.content.relocate move⟩

namespace Line

open Reading

theorem alike_headerEnd : Alike move (Stream.Resumed move) id headerEnd headerEnd :=
  (alike_expect (by decide)).bind fun _ => alike_endOfLine

section Parts

variable (still : move default = default)
include still

/-! ### Headers, after their first word -/

theorem alike_handlerClass :
    Alike move (Stream.Spread move) (Prod.map (Option.map (Expr.relocate move)) id) handlerClass
      handlerClass := by
  refine (alike_isNext _).bind fun isBare => ?_
  cases isBare with
  | true => exact alike_pure (none, none)
  | false =>
    refine (alike_expression still _).bind fun class? => ?_
    refine alike_ifNext (by decide) ?_ (alike_pure (some class?, none))
    exact alike_identifier.map fun _ => rfl

omit still in
/-- The target of a loop is made of the targets before the source. -/
theorem alike_loopTarget (location : Location) (parts : List Expr × Expr) :
    Alike move (Stream.Spread move) (Prod.map (Expr.relocate move) (Expr.relocate move))
      (do
        let (targets, iterable) := parts
        let target := match targets with
          | [target] => target
          | targets => .tuple location targets
        lift target.checkTarget
        return (target, iterable))
      (do
        let (targets, iterable) :=
          (parts.1.map (Expr.relocate move), parts.2.relocate move)
        let target := match targets with
          | [target] => target
          | targets => .tuple (move location) targets
        lift target.checkTarget
        return (target, iterable)) := by
  obtain ⟨targets, iterable⟩ := parts
  have checked (target : Expr) : Alike move (Stream.Spread move)
      (Prod.map (Expr.relocate move) (Expr.relocate move))
      (lift target.checkTarget >>= fun _ => pure (target, iterable))
      (lift (target.relocate move).checkTarget >>= fun _ =>
        pure (target.relocate move, iterable.relocate move)) :=
    (alike_lift target.checkTarget_parallel).bind fun _ => alike_pure (target, iterable)
  match targets with
  | [] => exact checked (.tuple location [])
  | [target] => exact checked target
  | first :: second :: rest =>
    have several := checked (.tuple location (first :: second :: rest))
    rw [Expr.relocate, Expr.relocateAll_eq_map] at several
    exact several

theorem alike_loopClause :
    Alike move (Stream.Spread move) (Prod.map (Expr.relocate move) (Expr.relocate move)) loopClause
      loopClause := by
  refine (alike_here still).bind fun location => ?_
  refine (alike_commaSeparated (fun _ => alike_expression still _) (fun _ => rfl) []).bind
    fun found => ?_
  have parts (targets : List Expr) (iterable : Expr) : Alike move (Stream.Spread move)
      (Prod.map (List.map (Expr.relocate move)) (Expr.relocate move)) (pure (targets, iterable))
      (pure (targets.map (Expr.relocate move), iterable.relocate move)) :=
    alike_pure (targets, iterable)
  refine alike_ifNext (by decide) ?_ ?_
  · exact (alike_expressionList still _).bind fun iterable =>
      (parts found.1 iterable).bind (alike_loopTarget location)
  · dsimp only [Prod.map_fst]
    rw [← List.map_reverse]
    have fails : Alike move (Stream.Spread move)
        (Prod.map (List.map (Expr.relocate move)) (Expr.relocate move))
        (fail location .noLoopSource) (fail (move location) .noLoopSource) :=
      alike_fail
    generalize found.1.reverse = backwards
    cases backwards with
    | nil => exact fails.bind (alike_loopTarget location)
    | cons first before =>
      cases first with
      | binary _ operator last source =>
        cases operator with
        | member =>
          have taken := parts (last :: before).reverse source
          rw [List.map_reverse] at taken
          exact taken.bind (alike_loopTarget location)
        | _ => exact fails.bind (alike_loopTarget location)
      | _ => exact fails.bind (alike_loopTarget location)

theorem alike_parameter (before : List Parameter) :
    Alike move (Stream.Spread move) (Parameter.relocate move) (parameter before)
      (parameter (before.map (Parameter.relocate move))) := by
  have named (name : String) : (before.map (Parameter.relocate move)).any (·.name = name) =
      before.any (·.name = name) :=
    List.any_map
  have defaulted : (before.map (Parameter.relocate move)).any (·.default.isSome) =
      before.any (·.default.isSome) := by
    rw [List.any_map]
    exact List.any_congr rfl fun parameter => Option.isSome_map
  refine (alike_here still).bind fun location => alike_identifier.bind fun name => ?_
  dsimp only [id_eq]
  rw [named name, defaulted]
  by_cases twice : before.any (·.name = name)
  · rw [if_pos twice, if_pos twice]
    exact alike_fail
  · rw [if_neg twice, if_neg twice]
    refine alike_ifNext (by decide) ?_ ?_
    · exact (alike_expression still _).map fun _ => rfl
    · split
      · exact alike_fail
      · exact alike_pure (Parameter.mk name none)

theorem alike_parameters :
    Alike move (Stream.Spread move) (List.map (Parameter.relocate move)) parameters parameters := by
  have closed (found : List Parameter) : Alike move (Stream.Spread move)
      (List.map (Parameter.relocate move))
      (expect (.symbol .closeParen) >>= fun _ => pure found)
      (expect (.symbol .closeParen) >>= fun _ => pure (found.map (Parameter.relocate move))) :=
    (alike_expect (by decide)).map fun _ => rfl
  refine (alike_expect (by decide)).bind fun _ => (alike_isNext _).bind fun isEmpty => ?_
  cases isEmpty with
  | true => exact Alike.bind (alike_pure []) closed
  | false =>
    have found : Alike move (Stream.Spread move) (Prod.map (List.map (Parameter.relocate move)) id)
        (commaSeparated parameter (·.kind = .symbol .closeParen) [])
        (commaSeparated parameter (·.kind = .symbol .closeParen) []) :=
      alike_commaSeparated (alike_parameter still) (fun _ => rfl) []
    exact Alike.bind (found.map fun _ => rfl) closed

theorem alike_baseClass :
    Alike move (Stream.Spread move) (Option.map (Expr.relocate move)) baseClass baseClass := by
  have closed (base : Option Expr) : Alike move (Stream.Spread move)
      (Option.map (Expr.relocate move))
      (expect (.symbol .closeParen) >>= fun _ => pure base)
      (expect (.symbol .closeParen) >>= fun _ => pure (base.map (Expr.relocate move))) :=
    (alike_expect (by decide)).map fun _ => rfl
  refine alike_ifNext (by decide) ?_ (alike_pure none)
  refine (alike_isNext _).bind fun isEmpty => ?_
  cases isEmpty with
  | true => exact Alike.bind (alike_pure none) closed
  | false => exact Alike.bind ((alike_expression still _).map fun _ => rfl) closed

/-! ### Simple statements, after their first word -/

theorem alike_optionalValue :
    Alike move (Stream.Spread move) (Option.map (Expr.relocate move)) optionalValue
      optionalValue := by
  refine (alike_isNext _).bind fun isEmpty => ?_
  cases isEmpty with
  | true => exact alike_pure none
  | false => exact (alike_expressionList still _).map fun _ => rfl

theorem alike_deletion (location : Location) :
    Alike move (Stream.Spread move) (Simple.relocate move) (deletion location)
      (deletion (move location)) := by
  refine (alike_expressionList still _).bind fun target => ?_
  rw [Expr.isTarget_relocate]
  split
  · exact alike_pure (Simple.delete target)
  · exact alike_fail

omit still in
theorem alike_moduleImport :
    Alike move (Stream.Spread move) (Simple.relocate move) moduleImport moduleImport := by
  refine alike_dottedName.bind fun path => ?_
  refine alike_ifNext (by decide) ?_ (alike_pure (Simple.importModule path none))
  exact alike_identifier.map fun _ => rfl

omit still in
theorem alike_importedName : Alike move (Stream.Spread move) id importedName importedName := by
  refine alike_peek_bind (fun head rest spread related => ?_) alike_identifier
  obtain ⟨lexeme, location⟩ := head
  cases lexeme with
  | symbol sign =>
    cases sign with
    | times => exact alike_fail _ _ related
    | _ => exact alike_identifier _ _ related
  | _ => exact alike_identifier _ _ related

omit still in
theorem alike_namesImport :
    Alike move (Stream.Spread move) (Simple.relocate move) namesImport namesImport := by
  refine alike_dottedName.bind fun path => (alike_expect (by decide)).bind fun _ => ?_
  refine alike_ifNext (by decide) (alike_pure (Simple.importNames path none)) ?_
  refine (alike_commaSeparated (fun _ => alike_importedName) (fun _ => rfl) []).bind
    fun found => ?_
  have same : Prod.map (List.map id) id found = found := by
    rw [List.map_id_fun, Prod.map_id]
    rfl
  rw [same]
  exact alike_pure (Simple.importNames path (some found.1))

theorem alike_expressionOrAssignment :
    Alike move (Stream.Spread move) (Simple.relocate move) expressionOrAssignment
      expressionOrAssignment := by
  refine (alike_expressionList still _).bind fun first => ?_
  refine alike_isNext_bind (fun head rest spread same related => ?_)
    (alike_pure (Simple.expression first))
  refine alikeAt_lift_bind first.checkTarget_parallel fun _ => ?_
  refine (alikeAt_advance (ne_endOfLine_of_kind same (by decide)) related).bind fun _ => ?_
  exact (alike_expressionList still _).map fun _ => rfl

/-! ### Whole lines -/

theorem alike_header {word : Keyword} {rest : Reading Header} (found : header? word = some rest) :
    Alike move (Stream.Spread move) (Header.relocate move) rest rest := by
  unfold header? at found
  split at found <;> cases found
  · exact (alike_expression still _).map fun _ => rfl
  · exact (alike_expression still _).map fun _ => rfl
  · exact (alike_expression still _).map fun _ => rfl
  · exact alike_pure Header.otherwise
  · exact alike_pure Header.attempt
  · exact alike_pure Header.cleanup
  · exact (alike_handlerClass still).map fun _ => rfl
  · exact (alike_loopClause still).map fun _ => rfl
  · exact alike_identifier.bind fun name => (alike_parameters still).map fun _ => rfl
  · exact alike_identifier.bind fun name => (alike_baseClass still).map fun _ => rfl

theorem alike_statement {location : Location} {word : Keyword} {rest : Reading Simple}
    (found : statement? location word = some rest) : ∃ restToo,
      statement? (move location) word = some restToo ∧
        Alike move (Stream.Spread move) (Simple.relocate move) rest restToo := by
  unfold statement? at found
  split at found <;> cases found
  · exact ⟨_, rfl, alike_pure Simple.pass⟩
  · exact ⟨_, rfl, alike_pure Simple.breakLoop⟩
  · exact ⟨_, rfl, alike_pure Simple.continueLoop⟩
  · exact ⟨_, rfl, (alike_optionalValue still).map fun _ => rfl⟩
  · exact ⟨_, rfl, (alike_optionalValue still).map fun _ => rfl⟩
  · exact ⟨_, rfl, alike_deletion still location⟩
  · exact ⟨_, rfl, alike_moduleImport⟩
  · exact ⟨_, rfl, alike_namesImport⟩

omit still in
theorem statement?_eq_none {location other : Location} {word : Keyword}
    (missing : statement? location word = none) : statement? other word = none := by
  cases word <;> first | rfl | cases missing

/-- A line is read alike up to its end, which is used up. -/
theorem alikeAt_readContent {first : Token} {rest spread : Stream}
    (inLine : first.lexeme ≠ .endOfLine)
    (related : Stream.Spread move (.token first rest) spread) :
    AlikeAt (Stream.Resumed move) (Content.relocate move) (readContent first)
      (readContent (first.relocate move)) (.token first rest) spread := by
  have simple : Alike move (Stream.Resumed move) (Content.relocate move)
      (expressionOrAssignment >>= fun statement => endOfLine >>= fun _ =>
        pure (.simple statement))
      (expressionOrAssignment >>= fun statement => endOfLine >>= fun _ =>
        pure (.simple statement)) :=
    (alike_expressionOrAssignment still).bind fun statement => alike_endOfLine.map fun _ => rfl
  unfold readContent
  dsimp only [Token.lexeme_relocate, Token.location_relocate]
  cases first.lexeme.keyword? with
  | none => exact simple _ _ related
  | some word =>
    dsimp only [Option.bind_some]
    cases found : header? word with
    | some header =>
      refine (alikeAt_advance inLine related).bind fun _ => ?_
      refine (alike_header still found).bind fun header => ?_
      exact alike_headerEnd.map fun _ => rfl
    | none =>
      cases starts : statement? first.location word with
      | some statement =>
        obtain ⟨statementToo, startsToo, alike⟩ := alike_statement still starts
        rw [startsToo]
        refine (alikeAt_advance inLine related).bind fun _ => ?_
        exact alike.bind fun statement => alike_endOfLine.map fun _ => rfl
      | none =>
        rw [statement?_eq_none starts]
        exact simple _ _ related

theorem alike_afterIndentation (depth : Nat) :
    Alike move (Stream.Resumed move) (Option.map (Line.relocate move)) (afterIndentation depth)
      (afterIndentation depth) := by
  refine alike_peek_bind (fun head rest spread related => ?_)
    (fun _ _ related => .ok none (.spread related))
  have reads (inLine : head.lexeme ≠ .endOfLine) : AlikeAt (Stream.Resumed move)
      (Option.map (Line.relocate move))
      (readContent head >>= fun content => pure (some ⟨depth, head.location, content⟩))
      (readContent (head.relocate move) >>= fun content =>
        pure (some ⟨depth, move head.location, content⟩)) (.token head rest) spread :=
    (alikeAt_readContent still inLine related).map fun _ => rfl
  obtain ⟨lexeme, location⟩ := head
  cases lexeme with
  | endOfLine => exact (alikeAt_advance_line related).map fun _ => rfl
  | _ => exact reads nofun

theorem read_abreast {stream spread : Stream} (related : Stream.Spread move stream spread) :
    Abreast (Option.map (Line.relocate move))
      (fun left leftToo => Stream.Resumed move left.1 leftToo.1) (read stream) (read spread) := by
  cases stream with
  | failed => cases related
  | ended =>
    cases related
    exact .error _ _
  | token head rest =>
    obtain ⟨moved, rfl, -, others⟩ := related.cases_token
    obtain ⟨lexeme, location⟩ := head
    cases lexeme with
    | indentation blanks =>
      have relatedAfter := others nofun
      have abreast := alike_afterIndentation still blanks.length _ _ relatedAfter
      unfold AlikeAt at abreast
      dsimp only [Token.relocate]
      unfold read
      dsimp only
      rw [relatedAfter.ahead.1, relatedAfter.ahead.2]
      exact abreast.bind fun line left leftToo resumed => .ok line resumed
    | _ => exact .error _ _

end Parts

/-- Reading goes on line by line up to the end of the file. -/
theorem readAll_eq {stream : Stream}
    (goesOn : ∀ location rest, stream ≠ .token ⟨.endOfFile, location⟩ rest) :
    readAll stream = match read stream with
      | .error error => ([], some error)
      | .ok (line, rest) => (line :: (readAll rest.1).1, (readAll rest.1).2) := by
  rw [readAll]
  · split
    next failed => rw [failed]
    next done => rw [done]
  · exact goesOn

theorem readAll_blank {rest : Stream} (indented closed : Location)
    (ready : ahead rest = .ok ()) :
    readAll (.token ⟨.indentation "", indented⟩ (.token ⟨.endOfLine, closed⟩ rest)) =
      (none :: (readAll rest).1, (readAll rest).2) := by
  have blank : read (.token ⟨.indentation "", indented⟩ (.token ⟨.endOfLine, closed⟩ rest)) =
      .ok (none, ⟨rest, Nat.lt_succ_of_lt (Nat.lt_succ_self _)⟩) := by
    have passed : afterIndentation "".length (.token ⟨.endOfLine, closed⟩ rest) =
        .ok (none, ⟨rest, Nat.le_succ _⟩) := by
      unfold afterIndentation
      rw [bind_of_unread rfl]
      simp only [Bind.bind, advance, ready]
      rfl
    unfold read
    dsimp only
    rw [passed]
    rfl
  have goesOn (location : Location) (others : Stream) :
      Stream.token ⟨.indentation "", indented⟩ (.token ⟨.endOfLine, closed⟩ rest) ≠
        .token ⟨.endOfFile, location⟩ others := by
    rintro ⟨⟩
  rw [readAll_eq goesOn, blank]

/-- The lines of spread streams are the same but for blank ones and their places, and a fault ends
both or none. -/
theorem readAll_spread (still : move default = default) {stream spread : Stream}
    (related : Stream.Spread move stream spread) :
    (readAll spread).1.filterMap id =
        ((readAll stream).1.filterMap id).map (Line.relocate move) ∧
      (readAll spread).2.isSome = (readAll stream).2.isSome := by
  induction size : stream.size using Nat.strongRecOn generalizing stream spread with
  | ind count inductionHypothesis =>
    by_cases atEnd : ∃ location rest, stream = .token ⟨.endOfFile, location⟩ rest
    · obtain ⟨location, rest, rfl⟩ := atEnd
      obtain ⟨moved, rfl, -, -⟩ := related.cases_token
      unfold readAll
      exact ⟨rfl, rfl⟩
    · have goesOn (location : Location) (rest : Stream) :
          stream ≠ .token ⟨.endOfFile, location⟩ rest :=
        fun same => atEnd ⟨location, rest, same⟩
      have abreast := read_abreast still related
      rw [readAll_eq goesOn, readAll_eq (related.goesOn goesOn)]
      generalize read stream = given at abreast ⊢
      generalize read spread = givenToo at abreast ⊢
      cases abreast with
      | error => exact ⟨rfl, rfl⟩
      | @ok line left leftToo resumed =>
        obtain ⟨left, shorter⟩ := left
        obtain ⟨leftToo, shorterToo⟩ := leftToo
        dsimp only at resumed ⊢
        have lines {moved : Stream} (others : Stream.Spread move left moved) :
            (line.map (Line.relocate move) :: (readAll moved).1).filterMap id =
                ((line :: (readAll left).1).filterMap id).map (Line.relocate move) ∧
              (readAll moved).2.isSome = (readAll left).2.isSome := by
          obtain ⟨same, faults⟩ := inductionHypothesis _ (size ▸ shorter) others rfl
          refine ⟨?_, faults⟩
          cases line with
          | none => exact same
          | some line => exact congrArg (Line.relocate move line :: ·) same
        cases resumed with
        | spread others => exact lines others
        | blank indented closed others =>
          rw [readAll_blank indented closed others.ahead.2]
          obtain ⟨same, faults⟩ := lines others
          refine ⟨?_, faults⟩
          rw [← same]
          cases line <;> rfl

end Line

end Offside
