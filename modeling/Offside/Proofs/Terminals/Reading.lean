/-
This file proves that reading an expression from a stream keeps its terminals. What has
been read and what is left of the stream together have the terminals that there were, at
every point of the reading.

Rows are the difficult part. While a row is collected, the terminals are in three places:
in the rows that are set aside at open brackets, in the row itself, and in the stream. One
token moves some of them from the last place to the others, and closing a bracket moves
those of a whole row into one operand. Braces that are closed right behind an operand would
drop it, so the stream must hold no such braces. Whether an operand stands before a brace
can be told from the tokens alone: it is the end of an operand that stands there, on the
same line or, inside of brackets, on an earlier one.
-/

import Offside.Proofs.Terminals.Groups

namespace Offside

/-! ### Streams -/

/-- The terminals of the tokens of a stream. -/
def Stream.terminals (stream : Stream) : List Terminal :=
  stream.tokens.flatMap fun token => token.lexeme.terminals

/-- The stream breaks off in a fault or ends right behind the token that ends a file. -/
def Stream.Closed : Stream → Prop
  | .ended => False
  | .failed _ => True
  | .token head rest => if head.lexeme = .endOfFile then rest = .ended else rest.Closed

/-- No opening brace comes right after the end of an operand. The ends of lines count as nothing
inside of brackets. -/
def bracesApart (depth : Nat) (afterOperand : Bool) : List Token → Bool
  | [] => true
  | token :: rest =>
    match Row.role token with
    | .lineBreak => bracesApart depth (afterOperand && depth != 0) rest
    | .opens bracket => !(bracket == .brace && afterOperand) && bracesApart (depth + 1) false rest
    | .closes _ => bracesApart (depth - 1) true rest
    | .operand _ => bracesApart depth true rest
    | _ => bracesApart depth false rest

namespace Row

/-! ### What a token does to the terminals -/

/-- The last entry of a reversed row is an operand. -/
def endsOperand : List Item → Bool
  | .operand _ :: _ => true
  | _ => false

/-- The terminals of the rows that are set aside, the outermost row first. -/
def heldTerminals : List Pending → List Terminal
  | [] => []
  | inner :: outer => heldTerminals outer ++ rowTerminals inner.before.reverse

/-- The tokens that are left hold no brace right after an operand, given the rows that have been
collected, and no brace was opened right after one. -/
def Apart (pending : List Pending) (row : List Item) (tokens : List Token) : Prop :=
  (∃ depth afterOperand, bracesApart depth afterOperand tokens = true ∧ pending.length ≤ depth ∧
    (endsOperand row = true → afterOperand = true)) ∧
  ∀ inner ∈ pending, inner.opening.bracket = .brace → endsOperand inner.before = false

theorem terminals_of_role {token : Token} (other : ∀ operand, role token ≠ .operand operand) :
    token.lexeme.terminals = [] := by
  obtain ⟨lexeme, location⟩ := token
  cases lexeme with
  | identifier | number | string | boolean => exact absurd rfl (other _)
  | keyword word =>
    by_cases isNone : word = .noneWord
    · rw [isNone] at other
      exact absurd rfl (other _)
    · simp [Lexeme.terminals, isNone]
  | indentation | endOfLine | endOfFile | symbol => rfl

theorem terminals_of_role_operand {token : Token} {operand : Expr}
    (isOperand : role token = .operand (.ok operand)) :
    operand.terminals = token.lexeme.terminals :=
  Group.operand?_terminals (operand?_of_role isOperand) operand rfl

/-- A closed group takes the place of the operand before it, whose terminals it has if it is not in
braces. -/
theorem closeGroup_terminals {inner : Pending} {row resumed : List Item}
    (apart : inner.opening.bracket = .brace → endsOperand inner.before = false)
    (closed : closeGroup inner row = .ok resumed) :
    rowTerminals resumed.reverse = rowTerminals inner.before.reverse ++ rowTerminals row := by
  unfold closeGroup at closed
  split at closed
  next object before same =>
    obtain ⟨group, made, last⟩ := bind_ok closed
    cases last
    have noBrace : inner.opening.bracket = .brace → some object = none := by
      intro isBrace
      have ends := apart isBrace
      rw [same] at ends
      cases ends
    rw [same, List.reverse_cons, rowTerminals_append, List.reverse_cons, rowTerminals_append,
      rowTerminals_operand, Group.close_terminals _ _ _ noBrace group made]
    simp
  next =>
    obtain ⟨group, made, last⟩ := bind_ok closed
    cases last
    rw [List.reverse_cons, rowTerminals_append, rowTerminals_operand,
      Group.close_terminals _ _ _ (fun _ => rfl) group made]
    simp

/-- A group in braces takes the place of the operand before it without having its terminals. -/
theorem closeGroup_terminals_of_brace {inner : Pending} {object : Expr}
    {before row resumed : List Item} (isBrace : inner.opening.bracket = .brace)
    (follows : inner.before = .operand object :: before)
    (closed : closeGroup inner row = .ok resumed) :
    rowTerminals resumed.reverse = rowTerminals before.reverse ++ rowTerminals row := by
  rw [closeGroup, follows] at closed
  obtain ⟨group, made, last⟩ := bind_ok closed
  cases last
  simp only [Group.close, isBrace] at made
  rw [List.reverse_cons, rowTerminals_append, rowTerminals_operand,
    Group.braceDisplay_terminals _ _ group made]
  simp

/-- An operand is added at the end, or as the name of an attribute. -/
theorem addOperand_terminals {row extended : List Item} {operand : Expr} {name : String}
    (named : wantsName row = true → operand.terminals = [.name name])
    (added : addOperand row operand name = .ok extended) :
    rowTerminals extended.reverse = rowTerminals row.reverse ++ operand.terminals := by
  unfold addOperand at added
  split at added
  next =>
    cases added
    rw [named rfl]
    simp [Expr.terminals]
  next => cases added
  next =>
    cases added
    simp

variable {head : Token} {pending pending' : List Pending} {row row' : List Item}

/-- A token moves its terminals into the rows and loses none that are there. -/
theorem Shifts.terminals (shifts : Shifts head pending row pending' row') {tokens : List Token}
    (apart : Apart pending row tokens) :
    heldTerminals pending ++ (rowTerminals row.reverse ++ head.lexeme.terminals) =
      heldTerminals pending' ++ rowTerminals row'.reverse := by
  have silent {other : Role} (isOther : role head = other)
      (noOperand : ∀ operand, other ≠ .operand operand) : head.lexeme.terminals = [] :=
    terminals_of_role fun operand same => noOperand operand (isOther.symm.trans same)
  cases shifts with
  | lineBreak isBreak _ => rw [silent isBreak (by simp), List.append_nil]
  | opens isOpener =>
    rw [silent isOpener (by simp), List.append_nil, heldTerminals]
    simp
  | closes isCloser closed =>
    rw [silent isCloser (by simp), List.append_nil, heldTerminals,
      closeGroup_terminals (apart.2 _ List.mem_cons_self) closed, List.append_assoc]
  | operand isOperand named added =>
    have same := terminals_of_role_operand isOperand
    rw [addOperand_terminals (fun wants => ?_) added, same]
    rw [same]
    obtain ⟨lexeme, location⟩ := head
    cases lexeme with
    | identifier => rfl
    | _ => cases named wants
  | keeps isOther =>
    have noTerminals : head.lexeme.terminals = [] := by
      obtain isJoint | isDivider := isOther
      · exact silent isJoint (by simp)
      · exact silent isDivider (by simp)
    rw [noTerminals, List.append_nil, List.reverse_cons, rowTerminals_append]
    simp

/-- Where the tokens keep braces apart from operands, they go on doing so behind a token. -/
theorem Shifts.apart (shifts : Shifts head pending row pending' row') {tokens : List Token}
    (apart : Apart pending row (head :: tokens)) : Apart pending' row' tokens := by
  obtain ⟨⟨depth, afterOperand, apart, deep, ends⟩, held⟩ := apart
  rw [bracesApart] at apart
  cases shifts with
  | lineBreak isBreak inside =>
    rw [isBreak] at apart
    have nonzero : (depth != 0) = true := by
      rw [bne_iff_ne]
      have positive := List.length_pos_iff.mpr inside
      omega
    refine ⟨⟨depth, _, apart, deep, fun isOperand => ?_⟩, held⟩
    rw [ends isOperand, nonzero]
    rfl
  | @opens _ _ bracket isOpener =>
    rw [isOpener] at apart
    simp only [Bool.and_eq_true, Bool.not_eq_true', Bool.and_eq_false_iff] at apart
    refine ⟨⟨depth + 1, false, apart.2, ?_, fun impossible => ?_⟩,
      List.forall_mem_cons.mpr ⟨?_, held⟩⟩
    · rw [List.length_cons]
      omega
    · cases impossible
    · intro isBrace
      rw [Bool.eq_false_iff]
      intro isOperand
      obtain other | other := apart.1
      · rw [beq_eq_false_iff_ne] at other
        exact other isBrace
      · rw [ends isOperand] at other
        cases other
  | closes isCloser closed =>
    rw [isCloser] at apart
    rw [List.forall_mem_cons] at held
    refine ⟨⟨depth - 1, true, apart, ?_, fun _ => rfl⟩, held.2⟩
    rw [List.length_cons] at deep
    omega
  | operand isOperand _ _ =>
    rw [isOperand] at apart
    exact ⟨⟨depth, true, apart, deep, fun _ => rfl⟩, held⟩
  | keeps isOther =>
    have goesOn : bracesApart depth false tokens = true := by
      obtain isJoint | isDivider := isOther
      · rwa [isJoint] at apart
      · rwa [isDivider] at apart
    refine ⟨⟨depth, false, goesOn, deep, fun impossible => ?_⟩, held⟩
    cases impossible

end Row

/-! ### Reading -/

/-- What is left of a stream after some terminals were read from it. The terminals are the ones that
the stream has more, if it keeps braces apart from operands. -/
def Passes (stream rest : Stream) (found : List Terminal) : Prop :=
  stream.Closed → (rest.Closed ∧ rest.fault? = stream.fault?) ∧
    (Row.Apart [] [] stream.tokens →
      Row.Apart [] [] rest.tokens ∧ stream.terminals = found ++ rest.terminals)

theorem Passes.refl (stream : Stream) : Passes stream stream [] :=
  fun closed => ⟨⟨closed, rfl⟩, fun apart => ⟨apart, rfl⟩⟩

theorem Passes.trans {stream middle rest : Stream} {first second : List Terminal}
    (passes : Passes stream middle first) (further : Passes middle rest second) :
    Passes stream rest (first ++ second) := by
  intro closed
  obtain ⟨⟨middleClosed, middleFault⟩, middleApart⟩ := passes closed
  obtain ⟨⟨restClosed, restFault⟩, restApart⟩ := further middleClosed
  refine ⟨⟨restClosed, restFault.trans middleFault⟩, fun apart => ?_⟩
  obtain ⟨apart, same⟩ := middleApart apart
  obtain ⟨apart, others⟩ := restApart apart
  exact ⟨apart, by rw [same, others, List.append_assoc]⟩

theorem closed_of_token {head : Token} {rest : Stream} (notEnd : head.lexeme ≠ .endOfFile)
    (closed : (Stream.token head rest).Closed) : rest.Closed := by
  rwa [Stream.Closed, if_neg notEnd] at closed

theorem terminals_token (head : Token) (rest : Stream) :
    (Stream.token head rest).terminals = head.lexeme.terminals ++ rest.terminals :=
  List.flatMap_cons

/-- Behind any token, the tokens that are left keep braces apart from operands if all did. -/
theorem apart_of_token {head : Token} {tokens : List Token}
    (apart : Row.Apart [] [] (head :: tokens)) : Row.Apart [] [] tokens := by
  obtain ⟨⟨depth, afterOperand, apart, -⟩, held⟩ := apart
  have goesOn : ∃ depth afterOperand, bracesApart depth afterOperand tokens = true := by
    rw [bracesApart] at apart
    split at apart
    any_goals exact ⟨_, _, apart⟩
    rw [Bool.and_eq_true] at apart
    exact ⟨_, _, apart.2⟩
  obtain ⟨depth, afterOperand, goesOn⟩ := goesOn
  refine ⟨⟨depth, afterOperand, goesOn, Nat.zero_le _, fun impossible => ?_⟩, held⟩
  cases impossible

theorem passes_token {head : Token} (notEnd : head.lexeme ≠ .endOfFile) (rest : Stream) :
    Passes (.token head rest) rest head.lexeme.terminals :=
  fun closed => ⟨⟨closed_of_token notEnd closed, rfl⟩, fun apart =>
    ⟨apart_of_token apart, terminals_token head rest⟩⟩

/-- Collecting a row passes its terminals, together with those of the rows that it starts with. -/
theorem Row.collect_terminals {stop : List Kind} {pending : List Pending} {row items : List Item}
    {stream rest : Stream} (collected : collect stop pending row stream = .ok (items, rest))
    (closed : stream.Closed) :
    (rest.Closed ∧ rest.fault? = stream.fault?) ∧
      (Apart pending row stream.tokens →
        Apart [] [] rest.tokens ∧
          heldTerminals pending ++ (rowTerminals row.reverse ++ stream.terminals) =
            rowTerminals items ++ rest.terminals) := by
  induction stream generalizing pending row with
  | ended => exact closed.elim
  | failed => cases collected
  | token head others inductionHypothesis =>
    obtain ⟨rfl, same⟩ | ⟨notEnd, pending', row', shifts, goesOn⟩ := collect_cases collected
    · cases same
      refine ⟨⟨closed, rfl⟩, fun apart => ⟨?_, rfl⟩⟩
      obtain ⟨⟨depth, afterOperand, apart, deep, -⟩, held⟩ := apart
      refine ⟨⟨depth, afterOperand, apart, deep, fun impossible => ?_⟩, held⟩
      cases impossible
    · obtain ⟨restClosed, conserves⟩ := inductionHypothesis goesOn (closed_of_token notEnd closed)
      refine ⟨restClosed, fun apart => ?_⟩
      obtain ⟨restApart, same⟩ := conserves (shifts.apart apart)
      refine ⟨restApart, ?_⟩
      rw [terminals_token, ← same, ← List.append_assoc (heldTerminals pending'),
        ← shifts.terminals apart]
      simp only [List.append_assoc]

namespace Reading

/-- Reading goes on after some terminals were read and has read those of the value behind them. -/
def ConservesFrom {α : Type} (stream : Stream) (before : List Terminal) (reading : Reading α)
    (after : α → List Terminal) : Prop :=
  ∀ value rest, reading stream = .ok (value, rest) →
    ∃ found, after value = before ++ found ∧ Passes stream rest.1 found

/-- The same for whatever stream. -/
def Conserves {α : Type} (before : List Terminal) (reading : Reading α)
    (after : α → List Terminal) : Prop :=
  ∀ stream, ConservesFrom stream before reading after

section Combining

variable {α β : Type} {stream : Stream} {before : List Terminal} {middle : α → List Terminal}
  {after : β → List Terminal} {first : Reading α} {next : α → Reading β}

theorem conserves_pure {value : α} (same : middle value = before) :
    Conserves before (pure value) middle := by
  rintro stream _ _ ⟨⟩
  exact ⟨[], by rw [same, List.append_nil], .refl stream⟩

theorem ConservesFrom.bind (conserves : ConservesFrom stream before first middle)
    (further : ∀ value, Conserves (middle value) (next value) after) :
    ConservesFrom stream before (first >>= next) after := by
  intro final rest success
  simp only [Bind.bind] at success
  split at success
  · cases success
  next value inner bound done =>
    split at success
    · cases success
    next last rest further' lastDone =>
      cases success
      obtain ⟨found, same, passes⟩ := conserves value _ done
      obtain ⟨others, lastSame, lastPasses⟩ := further value inner final _ lastDone
      exact ⟨found ++ others, by rw [lastSame, same, List.append_assoc], passes.trans lastPasses⟩

theorem Conserves.bind (conserves : Conserves before first middle)
    (further : ∀ value, Conserves (middle value) (next value) after) :
    Conserves before (first >>= next) after :=
  fun stream => (conserves stream).bind further

theorem Conserves.map {change : α → β} (conserves : Conserves before first middle)
    (changed : ∀ value, after (change value) = middle value) :
    Conserves before (change <$> first) after :=
  conserves.bind fun value => conserves_pure (changed value)

/-- What was read before does not matter. -/
theorem Conserves.frame (conserves : Conserves [] first middle) :
    Conserves before first fun value => before ++ middle value := by
  intro stream value rest success
  obtain ⟨found, same, passes⟩ := conserves stream value rest success
  exact ⟨found, congrArg (before ++ ·) same, passes⟩

theorem conserves_fail {location : Location} {fault : ParseFault} :
    Conserves before (fail location fault) middle := by
  rintro _ _ _ ⟨⟩

/-- A step that leaves the stream as it is. -/
theorem bind_of_unread {value : α} (unread : first stream = .ok (value, ⟨stream, Nat.le_refl _⟩)) :
    (first >>= next) stream = next value stream := by
  simp only [Bind.bind, unread]
  split
  next failed => exact failed.symm
  next done => exact done.symm

theorem ConservesFrom.lift_bind {result : Except ParseError α}
    (further : ∀ value, ConservesFrom stream before (next value) after) :
    ConservesFrom stream before (lift result >>= next) after := by
  intro final rest success
  cases result with
  | error => cases success
  | ok value =>
    rw [bind_of_unread rfl] at success
    exact further value final rest success

theorem conserves_lift {result : Except ParseError α} (same : ∀ value, result = .ok value →
    middle value = before) : Conserves before (lift result) middle := by
  intro stream value rest success
  cases result with
  | error => cases success
  | ok =>
    cases success
    exact ⟨[], by rw [same value rfl, List.append_nil], .refl stream⟩

theorem conserves_peek : Conserves before peek fun _ => before := by
  intro stream value rest success
  cases stream <;> cases success <;> exact ⟨[], (List.append_nil before).symm, .refl _⟩

theorem conserves_here : Conserves before here fun _ => before := by
  refine conserves_peek.bind fun next => ?_
  split <;> exact conserves_pure rfl

theorem conserves_nextDisplay : Conserves before nextDisplay fun _ => before :=
  conserves_peek.bind fun _ => conserves_pure rfl

theorem conserves_isNext {kind : Kind} : Conserves before (isNext kind) fun _ => before :=
  conserves_peek.bind fun _ => conserves_pure rfl

/-- The next token is looked at. -/
theorem conservesFrom_peek {next : Option Token → Reading β}
    (present : ∀ head rest, stream = .token head rest →
      ConservesFrom stream before (next (some head)) after)
    (absent : ConservesFrom stream before (next none) after) :
    ConservesFrom stream before (peek >>= next) after := by
  intro final rest success
  cases stream with
  | token head others =>
    rw [bind_of_unread rfl] at success
    exact present head others rfl final rest success
  | failed | ended =>
    rw [bind_of_unread rfl] at success
    exact absent final rest success

theorem conservesFrom_advance {head : Token} (notEnd : head.lexeme ≠ .endOfFile) (rest : Stream)
    (before : List Terminal) :
    ConservesFrom (.token head rest) before advance fun _ => before ++ head.lexeme.terminals := by
  intro value left success
  unfold advance at success
  dsimp only at success
  split at success
  next =>
    cases success
    exact ⟨_, rfl, passes_token notEnd rest⟩
  next => cases success

/-! ### Tokens of a kind -/

/-- Tokens of this kind have no terminals and do not end the file. -/
def Silent (kind : Kind) : Prop :=
  ∀ lexeme : Lexeme, lexeme.kind = kind → lexeme.terminals = [] ∧ lexeme ≠ .endOfFile

theorem silent_symbol (sign : Symbol) : Silent (.symbol sign) := by
  intro lexeme same
  cases lexeme <;> cases same
  exact ⟨rfl, by simp⟩

theorem silent_keyword {word : Keyword} (other : word ≠ .noneWord) : Silent (.keyword word) := by
  intro lexeme same
  cases lexeme <;> cases same
  exact ⟨by simp [Lexeme.terminals, other], by simp⟩

theorem silent_endOfLine : Silent .endOfLine := by
  intro lexeme same
  cases lexeme <;> cases same
  exact ⟨rfl, by simp⟩

theorem conservesFrom_advance_silent {kind : Kind} {head : Token} (silent : Silent kind)
    (same : head.kind = kind) (rest : Stream) :
    ConservesFrom (.token head rest) before advance fun _ => before := by
  obtain ⟨noTerminals, notEnd⟩ := silent head.lexeme same
  have conserves := conservesFrom_advance notEnd rest before
  rwa [noTerminals, List.append_nil] at conserves

/-- The next token has the kind that was asked for if the answer is yes. -/
theorem conservesFrom_isNext {kind : Kind} {next : Bool → Reading β}
    (yes : ∀ head rest, stream = .token head rest → head.kind = kind →
      ConservesFrom stream before (next true) after)
    (no : ConservesFrom stream before (next false) after) :
    ConservesFrom stream before (isNext kind >>= next) after := by
  intro final rest success
  cases stream with
  | token head others =>
    have answer : isNext kind (.token head others) =
        .ok (decide (head.kind = kind), ⟨_, Nat.le_refl _⟩) :=
      rfl
    rw [bind_of_unread answer] at success
    by_cases same : head.kind = kind
    · rw [decide_eq_true same] at success
      exact yes head others rfl same final rest success
    · rw [decide_eq_false same] at success
      exact no final rest success
  | failed | ended =>
    rw [bind_of_unread rfl] at success
    exact no final rest success

/-- A token of a kind without terminals is used up if it comes next. -/
theorem conserves_ifNext {kind : Kind} {yes no : Reading β} (silent : Silent kind)
    (yesConserves : Conserves before yes after) (noConserves : Conserves before no after) :
    Conserves before
      (isNext kind >>= fun found => if found = true then advance >>= fun _ => yes else no)
      after := by
  intro stream
  refine conservesFrom_isNext (fun head rest isToken same => ?_) (noConserves stream)
  rw [isToken]
  exact (conservesFrom_advance_silent silent same rest).bind fun _ => yesConserves

/-- A token that is asked for is used up. -/
theorem conserves_expect {kind : Kind} {after : Token → List Terminal}
    (used : ∀ token : Token, token.kind = kind →
      token.lexeme ≠ .endOfFile ∧ after token = before ++ token.lexeme.terminals) :
    Conserves before (expect kind) after := by
  intro stream
  refine conservesFrom_peek (fun head rest isToken => ?_) (conserves_fail _)
  dsimp only
  split
  next same =>
    obtain ⟨notEnd, terminals⟩ := used head same
    rw [isToken]
    exact (conservesFrom_advance notEnd rest before).bind fun _ => conserves_pure terminals
  next => exact conserves_fail _

theorem conserves_expect_silent {kind : Kind} (silent : Silent kind) :
    Conserves before (expect kind) fun _ => before := by
  refine conserves_expect fun token same => ?_
  obtain ⟨noTerminals, notEnd⟩ := silent token.lexeme same
  exact ⟨notEnd, by rw [noTerminals, List.append_nil]⟩

theorem conserves_identifier : Conserves before identifier fun name => before ++ [.name name] := by
  have expected : Conserves before (expect .identifier)
      fun token => before ++ [.name token.lexeme.literal] := by
    refine conserves_expect fun token same => ?_
    obtain ⟨lexeme, location⟩ := token
    cases lexeme <;> cases same
    exact ⟨by simp, rfl⟩
  exact expected.bind fun token => conserves_pure rfl

theorem conserves_endOfLine : Conserves before endOfLine fun _ => before := by
  intro stream
  refine conservesFrom_peek (fun head rest isToken => ?_) (conserves_fail _)
  split
  next isEnd =>
    cases isEnd
    rw [isToken]
    exact conservesFrom_advance_silent silent_endOfLine rfl rest
  next => split <;> exact conserves_fail _
  next => exact conserves_fail _

/-! ### Lists -/

variable {terminals : α → List Terminal}

theorem Lists.conserves {item : List α → Reading α} {ends : Token → Bool} {done : List α}
    {stream left : Stream} {result : List α × Bool}
    (lists : Lists item ends done stream result left)
    (itemConserves : ∀ done, Conserves [] (item done) terminals) :
    ∃ found, result.1.flatMap terminals = done.reverse.flatMap terminals ++ found ∧
      Passes stream left found := by
  have extended (done : List α) (value : α) : (value :: done).reverse.flatMap terminals =
      done.reverse.flatMap terminals ++ terminals value := by
    rw [List.reverse_cons, List.flatMap_append, List.flatMap_cons, List.flatMap_nil,
      List.append_nil]
  have passesComma {stream after : Stream} {location : Location} {found : List Terminal}
      (passes : Passes stream (.token ⟨.symbol .comma, location⟩ after) found) :
      Passes stream after found := by
    have further := passes.trans (passes_token (by simp) after)
    rwa [show (Lexeme.symbol .comma).terminals = [] from rfl, List.append_nil] at further
  induction lists with
  | @last done _ _ value _ itemRead =>
    obtain ⟨first, same, passes⟩ := itemConserves done _ _ _ itemRead
    exact ⟨first, (extended done value).trans (congrArg (_ ++ ·) same), passes⟩
  | @closed done _ _ value _ _ itemRead =>
    obtain ⟨first, same, passes⟩ := itemConserves done _ _ _ itemRead
    exact ⟨first, (extended done value).trans (congrArg (_ ++ ·) same), passesComma passes⟩
  | @more done _ _ _ value _ _ _ _ itemRead _ _ othersConserve =>
    obtain ⟨first, same, passes⟩ := itemConserves done _ _ _ itemRead
    obtain ⟨others, othersSame, othersPass⟩ := othersConserve
    refine ⟨first ++ others, ?_, (passesComma passes).trans othersPass⟩
    rw [othersSame, extended, same, List.nil_append, List.append_assoc]

/-- Items with commas between them. -/
theorem conserves_commaSeparated {item : List α → Reading α} {ends : Token → Bool} {done : List α}
    (itemConserves : ∀ done, Conserves [] (item done) terminals) :
    Conserves (done.reverse.flatMap terminals) (commaSeparated item ends done)
      fun found => found.1.flatMap terminals :=
  fun _ _ _ success => (lists_of_commaSeparated success).conserves itemConserves

end Combining

/-! ### Expressions -/

theorem conserves_row (stop : List Kind) : Conserves [] (row stop) rowTerminals := by
  intro stream items rest success
  unfold row at success
  split at success
  next found left collected =>
    cases success
    refine ⟨rowTerminals items, rfl, fun closed => ?_⟩
    obtain ⟨leftClosed, conserves⟩ := Row.collect_terminals collected closed
    exact ⟨leftClosed, fun apart => conserves apart⟩
  next => cases success

theorem conserves_expression (stop : List Kind) :
    Conserves [] (expression stop) Expr.terminals := by
  refine conserves_here.bind fun location => (conserves_row stop).bind fun items => ?_
  split
  · exact conserves_nextDisplay.bind fun _ => conserves_fail
  · exact conserves_lift fun _ => Ladder.terminals_of_reduce

theorem conserves_expressionList (stop : List Kind) :
    Conserves [] (expressionList stop) Expr.terminals := by
  refine conserves_here.bind fun location => ?_
  refine (conserves_commaSeparated fun _ => conserves_expression _).bind fun found => ?_
  dsimp only
  split
  next element same _ =>
    rw [same]
    exact conserves_pure (List.append_nil _).symm
  next => exact conserves_pure (Expr.terminalsOf_eq _)

/-- Names with points between them. -/
theorem conserves_dottedName : Conserves [] dottedName fun path => path.map Terminal.name := by
  have conservesName : Conserves [] identifier fun name => [.name name] := conserves_identifier
  intro stream
  induction size : stream.size using Nat.strongRecOn generalizing stream with
  | ind size inductionHypothesis =>
    intro path left success
    unfold dottedName at success
    split at success
    · cases success
    next name location after bound nameRead =>
      obtain ⟨first, same, passes⟩ := conservesName stream _ _ nameRead
      have passesPoint : Passes stream after first := by
        have further := passes.trans (passes_token (by simp) after)
        rwa [show (Lexeme.symbol .dot).terminals = [] from rfl, List.append_nil] at further
      split at success
      · cases success
      · split at success
        · cases success
        next others rest further othersRead =>
          cases success
          obtain ⟨more, moreSame, morePasses⟩ := inductionHypothesis _
            (by rw [← size]; exact Nat.lt_of_succ_le bound) after rfl others ⟨_, further⟩ othersRead
          refine ⟨first ++ more, ?_, passesPoint.trans morePasses⟩
          rw [List.nil_append] at same moreSame ⊢
          rw [← same, ← moreSame]
          rfl
    next name rest _ nameRead =>
      cases success
      exact conservesName stream _ _ nameRead

end Reading

end Offside
