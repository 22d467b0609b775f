/-
This file proves that parsing lets no target through that cannot be assigned to.
There are four places where something is assigned or deleted: an assignment, the
header of a `for` loop, the clause of a comprehension, and `del`. Each of them checks
its target when it is read. An expression is sound if this holds for every
comprehension in it, and a statement is sound if it holds for everything in it.

Reading an expression goes through many hands: tokens become operands, operands are
collected in rows, rows are folded, cut and closed into groups, and expressions end up
in lines and blocks. Every step gives sound parts if it is given sound ones, and the
check of a target is made by exactly the steps that need it.
-/

import Offside.Proofs.Layout
import Offside.Proofs.Precedence

namespace Offside

namespace Expr

/-! ### Targets -/

theorem untargetableIn?_eq_none {elements : List Expr} :
    untargetableIn? elements = Option.none ↔ ∀ element ∈ elements, element.isTarget := by
  induction elements with
  | nil => simp [untargetableIn?]
  | cons first rest inductionHypothesis =>
    rw [untargetableIn?, List.forall_mem_cons, ← inductionHypothesis, isTarget]
    cases first.untargetable? <;> simp

theorem isTarget_parenthesized (location : Location) (inner : Expr) :
    isTarget (.parenthesized location inner) = inner.isTarget := by
  rw [isTarget, untargetable?, isTarget]

theorem isTarget_tuple (location : Location) (elements : List Expr) :
    isTarget (.tuple location elements) ↔ ∀ element ∈ elements, element.isTarget := by
  rw [isTarget, untargetable?, Option.isNone_iff_eq_none, untargetableIn?_eq_none]

theorem isTarget_list (location : Location) (elements : List Expr) :
    isTarget (.list location elements) ↔ ∀ element ∈ elements, element.isTarget := by
  rw [isTarget, untargetable?, Option.isNone_iff_eq_none, untargetableIn?_eq_none]

/-! ### Sound expressions -/

mutual

/-- Wherever an expression assigns, it assigns to a target. -/
def Sound : Expr → Prop
  | .parenthesized _ inner => inner.Sound
  | .tuple _ elements => SoundAll elements
  | .list _ elements => SoundAll elements
  | .set _ elements => SoundAll elements
  | .dict _ entries => SoundEntries entries
  | .call _ callee positional named => callee.Sound ∧ SoundAll positional ∧ SoundNamed named
  | .attribute _ object _ => object.Sound
  | .index _ object inner => object.Sound ∧ inner.Sound
  | .slice _ object start stop step => object.Sound ∧ start.Sound ∧ stop.Sound ∧ step.Sound
  | .binary _ _ left right => left.Sound ∧ right.Sound
  | .unary _ _ operand => operand.Sound
  | .comprehension _ output target source filter =>
    output.Sound ∧ target.Sound ∧ target.isTarget ∧ source.Sound ∧ SoundFilter filter
  | _ => True

def SoundAll : List Expr → Prop
  | [] => True
  | first :: rest => first.Sound ∧ SoundAll rest

def SoundEntries : List (Expr × Expr) → Prop
  | [] => True
  | (key, value) :: rest => key.Sound ∧ value.Sound ∧ SoundEntries rest

def SoundNamed : List (String × Expr) → Prop
  | [] => True
  | (_, value) :: rest => value.Sound ∧ SoundNamed rest

def SoundFilter : Option Expr → Prop
  | .none => True
  | some condition => condition.Sound

end

theorem soundAll_iff {elements : List Expr} :
    SoundAll elements ↔ ∀ element ∈ elements, element.Sound := by
  induction elements with
  | nil => simp [SoundAll]
  | cons first rest inductionHypothesis => simp [SoundAll, inductionHypothesis]

theorem soundEntries_iff {entries : List (Expr × Expr)} :
    SoundEntries entries ↔ ∀ entry ∈ entries, entry.1.Sound ∧ entry.2.Sound := by
  induction entries with
  | nil => simp [SoundEntries]
  | cons first rest inductionHypothesis => simp [SoundEntries, inductionHypothesis, and_assoc]

theorem soundNamed_iff {named : List (String × Expr)} :
    SoundNamed named ↔ ∀ entry ∈ named, entry.2.Sound := by
  induction named with
  | nil => simp [SoundNamed]
  | cons first rest inductionHypothesis => simp [SoundNamed, inductionHypothesis]

end Expr

/-! ### What a step gives -/

/-- Whatever a step gives has this property. -/
def Yields {ε α : Type} (step : Except ε α) (property : α → Prop) : Prop :=
  ∀ value, step = .ok value → property value

theorem yields_ok {ε α : Type} {value : α} {property : α → Prop} (holds : property value) :
    Yields (.ok value : Except ε α) property := by
  rintro _ ⟨⟩
  exact holds

theorem yields_error {ε α : Type} {error : ε} {property : α → Prop} :
    Yields (.error error : Except ε α) property := by
  rintro _ ⟨⟩

theorem yields_failAt {α : Type} {location : Location} {fault : ParseFault} {property : α → Prop} :
    Yields (Ladder.failAt location fault) property :=
  yields_error

theorem Yields.bind {ε α β : Type} {first : Except ε α} {next : α → Except ε β}
    {property : α → Prop} {result : β → Prop} (yields : Yields first property)
    (nextYields : ∀ value, property value → Yields (next value) result) :
    Yields (first >>= next) result := by
  intro final success
  obtain ⟨value, done, rest⟩ := Row.bind_ok success
  exact nextYields value (yields value done) final rest

theorem yields_failAt_bind {α β : Type} {location : Location} {fault : ParseFault}
    {next : α → Except ParseError β} {property : β → Prop} :
    Yields (Ladder.failAt location fault >>= next) property :=
  yields_failAt.bind fun _ (impossible : False) => impossible.elim

theorem Yields.map {ε α β : Type} {first : Except ε α} {change : α → β}
    {property : α → Prop} {result : β → Prop} (yields : Yields first property)
    (changed : ∀ value, property value → result (change value)) :
    Yields (change <$> first) result := by
  cases first with
  | error => exact yields_error
  | ok value => exact yields_ok (changed value (yields value rfl))

theorem yields_mapM {ε α β : Type} {step : α → Except ε β} {property : β → Prop}
    {elements : List α} (yields : ∀ element ∈ elements, Yields (step element) property) :
    Yields (elements.mapM step) fun values => ∀ value ∈ values, property value := by
  induction elements with
  | nil => exact yields_ok (by simp)
  | cons element rest inductionHypothesis =>
    rw [List.forall_mem_cons] at yields
    rw [List.mapM_cons]
    refine yields.1.bind fun value holds => ?_
    refine (inductionHypothesis yields.2).bind fun values all => ?_
    exact yields_ok (List.forall_mem_cons.mpr ⟨holds, all⟩)

/-! ### Folding -/

/-- Every operand of a row is sound. -/
def SoundRow (row : List Item) : Prop :=
  ∀ expression, Item.operand expression ∈ row → expression.Sound

namespace Ladder

/-- Reading tokens as operators changes no operand. -/
theorem mem_of_mem_pieces {afterOperand : Bool} {row : List Item} {expression : Expr}
    (found : Piece.operand expression ∈ pieces afterOperand row) :
    Item.operand expression ∈ row := by
  have notOperand (token : Token) (afterOperand : Bool) :
      Piece.operand expression ≠ pieceOf afterOperand token := by
    unfold pieceOf
    split
    · simp
    · split
      · simp
      · split <;> simp
  fun_induction pieces afterOperand row with
  | case1 => simp at found
  | case2 afterOperand first rest inductionHypothesis => grind
  | case3 afterOperand first second rest operator fused inductionHypothesis => grind
  | case4 afterOperand first second rest fused inductionHypothesis => grind
  | case5 afterOperand first rest notToken inductionHypothesis => grind

theorem Signed.sound {signed : Signed}
    (operands : ∀ expression, Piece.operand expression ∈ signed.yield → expression.Sound) :
    signed.tree.Sound := by
  induction signed with
  | operand expression => exact operands expression (by simp [yield])
  | sign location inner inductionHypothesis =>
    exact inductionHypothesis fun expression found => operands expression (by simp [yield, found])

/-- A derivation adds operators to its operands and nothing else. -/
theorem Derivation.sound {level : Nat} {derivation : Derivation level}
    (operands : ∀ expression, Piece.operand expression ∈ derivation.yield → expression.Sound) :
    derivation.tree.Sound := by
  induction derivation with
  | operand expression => exact operands expression (by simp [yield])
  | climb inner inductionHypothesis => exact inductionHypothesis operands
  | power location left right inductionHypothesis =>
    refine ⟨inductionHypothesis fun expression found => ?_, Signed.sound fun expression found => ?_⟩
    · exact operands expression (by simp [yield, found])
    · exact operands expression (by simp [yield, found])
  | binary operator rung notPower location left right leftHypothesis rightHypothesis =>
    refine ⟨leftHypothesis fun expression found => ?_, rightHypothesis fun expression found => ?_⟩
    · exact operands expression (by simp [yield, found])
    · exact operands expression (by simp [yield, found])
  | unary operator rung location inner inductionHypothesis =>
    exact inductionHypothesis fun expression found => operands expression (by simp [yield, found])

theorem reduce_yields {row : List Item} (sound : SoundRow row) :
    Yields (reduce row) Expr.Sound := by
  intro expression reduced
  obtain ⟨derivation, yields, rfl⟩ := derivation_of_foldAll reduced
  refine Derivation.sound fun operand found => sound operand ?_
  rw [yields] at found
  exact (List.mem_filter.mp (mem_of_mem_pieces found)).1

end Ladder

/-! ### Groups -/

theorem SoundRow.mono {row part : List Item} (sound : SoundRow row) (inside : part ⊆ row) :
    SoundRow part :=
  fun expression found => sound expression (inside found)

/-- A checked target is one. -/
theorem checkTarget_yields (target : Expr) :
    Yields target.checkTarget fun _ => target.isTarget := by
  unfold Expr.checkTarget
  split
  · exact yields_failAt
  next checked => exact yields_ok (by simp [Expr.isTarget, checked])

namespace Group

/-- Cutting a row takes no entry from anywhere else. -/
theorem subset_of_mem_split {separator : Lexeme} {row segment : List Item}
    (found : segment ∈ split separator row) : segment ⊆ row := by
  induction row generalizing segment with
  | nil => simp_all [split]
  | cons item rest inductionHypothesis =>
    rw [split] at found
    split at found
    · obtain rfl | found := List.mem_cons.mp found
      · exact List.nil_subset _
      · exact List.subset_cons_of_subset _ (inductionHypothesis found)
    · cases segments : split separator rest with
      | nil => simp_all
      | cons first others =>
        rw [segments] at found inductionHypothesis
        obtain rfl | found := List.mem_cons.mp found
        · exact List.cons_subset_cons _ (inductionHypothesis List.mem_cons_self)
        · exact List.subset_cons_of_subset _ (inductionHypothesis (List.mem_cons_of_mem _ found))

theorem subset_of_mem_commaSegments {row segment : List Item}
    (found : segment ∈ commaSegments row) : segment ⊆ row := by
  unfold commaSegments at found
  dsimp only at found
  split at found
  · exact subset_of_mem_split (List.dropLast_subset _ found)
  · exact subset_of_mem_split found

theorem subset_of_cutAt? {marks : Item → Bool} {row before after : List Item} {found : Item}
    (cut : cutAt? marks row = some (before, found, after)) : before ⊆ row ∧ after ⊆ row := by
  induction row generalizing before after found with
  | nil => simp [cutAt?] at cut
  | cons item rest inductionHypothesis =>
    rw [cutAt?] at cut
    split at cut
    · cases cut
      exact ⟨List.nil_subset _, List.subset_cons_self _ _⟩
    · obtain ⟨⟨inner, first, last⟩, innerCut, same⟩ := Option.map_eq_some_iff.mp cut
      cases same
      obtain ⟨beforeInside, afterInside⟩ := inductionHypothesis innerCut
      exact ⟨List.cons_subset_cons _ beforeInside, List.subset_cons_of_subset _ afterInside⟩

variable {opening : Opening} {row : List Item}

theorem elements_yields (sound : SoundRow row) : Yields (elements opening row) Expr.SoundAll := by
  unfold elements
  split
  · exact yields_ok trivial
  · intro values done
    refine Expr.soundAll_iff.mpr (yields_mapM (fun segment found => ?_) values done)
    split
    · exact yields_failAt
    · exact Ladder.reduce_yields (sound.mono (subset_of_mem_commaSegments found))

theorem parenthesized_yields (sound : SoundRow row) :
    Yields (parenthesized opening row) Expr.Sound := by
  refine (elements_yields sound).bind fun inner all => ?_
  split
  · split
    · exact yields_ok all
    · exact yields_ok all.1
  · exact yields_ok all

/-- The clause of a comprehension is checked to start with a target. -/
theorem membership_yields {word : Item} {output : Expr} {clause : List Item} {filter : Option Expr}
    (outputSound : output.Sound) (clauseSound : SoundRow clause)
    (filterSound : Expr.SoundFilter filter) :
    Yields (do
      if clause.isEmpty then Ladder.failAt word.location .noComprehensionMembership
      match ← Ladder.reduce clause with
      | .binary _ .member target source =>
        target.checkTarget
        .ok (.comprehension opening.location output target source filter)
      | _ => Ladder.failAt word.location .noComprehensionMembership) Expr.Sound := by
  dsimp only
  by_cases noClause : clause.isEmpty
  · rw [if_pos noClause]
    exact yields_failAt_bind
  · rw [if_neg noClause]
    refine (Ladder.reduce_yields clauseSound).bind fun membership membershipSound => ?_
    split
    · refine (checkTarget_yields _).bind fun _ isTarget => ?_
      exact yields_ok ⟨outputSound, membershipSound.1, isTarget, membershipSound.2, filterSound⟩
    · exact yields_failAt

theorem comprehension_yields {output clause : List Item} {word : Item} (outputSound : SoundRow output)
    (clauseSound : SoundRow clause) :
    Yields (comprehension opening output word clause) Expr.Sound := by
  unfold comprehension
  dsimp only
  by_cases noOutput : output.isEmpty
  · rw [if_pos noOutput]
    exact yields_failAt_bind
  · rw [if_neg noOutput]
    refine (Ladder.reduce_yields outputSound).bind fun output outputSound => ?_
    split
    · exact yields_failAt_bind
    next before _ condition _ found =>
      obtain ⟨beforeInside, conditionInside⟩ := subset_of_cutAt? found
      have filtered : Yields ((fun filter => (before, some filter)) <$> Ladder.reduce condition)
          fun parts => SoundRow parts.1 ∧ Expr.SoundFilter parts.2 :=
        (Ladder.reduce_yields (clauseSound.mono conditionInside)).map
          fun filter filterSound => ⟨clauseSound.mono beforeInside, filterSound⟩
      exact filtered.bind fun parts partsSound =>
        membership_yields outputSound partsSound.1 partsSound.2
    · exact membership_yields outputSound clauseSound trivial

theorem squareDisplay_yields (sound : SoundRow row) :
    Yields (squareDisplay opening row) Expr.Sound := by
  unfold squareDisplay
  split
  next output word clause found =>
    obtain ⟨outputInside, clauseInside⟩ := subset_of_cutAt? found
    exact comprehension_yields (sound.mono outputInside) (sound.mono clauseInside)
  · exact (elements_yields sound).map fun _ all => all

theorem entry_yields (sound : SoundRow row) :
    Yields (entry opening row) fun entry => entry.1.Sound ∧ entry.2.Sound := by
  unfold entry
  split
  next key value parts =>
    have inside {part : List Item} (found : part ∈ [key, value]) : part ⊆ row :=
      subset_of_mem_split (by rw [parts]; exact found)
    split
    · exact yields_failAt
    · refine (Ladder.reduce_yields (sound.mono (inside (by simp)))).bind fun key keySound => ?_
      refine (Ladder.reduce_yields (sound.mono (inside (by simp)))).bind fun value valueSound => ?_
      exact yields_ok ⟨keySound, valueSound⟩
  · exact yields_failAt

theorem braceDisplay_yields (sound : SoundRow row) :
    Yields (braceDisplay opening row) Expr.Sound := by
  unfold braceDisplay
  split
  · exact yields_ok trivial
  · split
    · refine Yields.map (yields_mapM fun segment found => ?_) fun _ all =>
        Expr.soundEntries_iff.mpr all
      exact entry_yields (sound.mono (subset_of_mem_commaSegments found))
    · exact (elements_yields sound).map fun _ all => all

theorem argumentValue_yields {location : Location} {before : String} (sound : SoundRow row) :
    Yields (argumentValue location before row) Expr.Sound := by
  unfold argumentValue
  split
  · exact yields_failAt
  · split
    · exact yields_failAt
    · exact Ladder.reduce_yields sound

theorem arguments_yields {positional : List Expr} {named : List (String × Expr)}
    {segments : List (List Item)} (positionalSound : Expr.SoundAll positional)
    (namedSound : Expr.SoundNamed named) (sound : ∀ segment ∈ segments, SoundRow segment) :
    Yields (arguments opening positional named segments) fun found =>
      Expr.SoundAll found.1 ∧ Expr.SoundNamed found.2 := by
  induction segments generalizing positional named with
  | nil =>
    refine yields_ok ⟨Expr.soundAll_iff.mpr ?_, Expr.soundNamed_iff.mpr ?_⟩
    · simpa using Expr.soundAll_iff.mp positionalSound
    · simpa using Expr.soundNamed_iff.mp namedSound
  | cons segment rest inductionHypothesis =>
    rw [List.forall_mem_cons] at sound
    obtain ⟨segmentSound, restSound⟩ := sound
    cases segment with
    | nil => exact yields_failAt
    | cons first following =>
      unfold arguments
      dsimp only
      split
      · split
        · refine (argumentValue_yields (segmentSound.mono ?_)).bind fun value valueSound => ?_
          · simp
          · exact inductionHypothesis positionalSound ⟨valueSound, namedSound⟩ restSound
        · exact yields_failAt
      · split
        · refine (argumentValue_yields segmentSound).bind fun value valueSound => ?_
          exact inductionHypothesis ⟨valueSound, positionalSound⟩ namedSound restSound
        · exact yields_failAt

theorem call_yields {callee : Expr} (calleeSound : callee.Sound) (sound : SoundRow row) :
    Yields (call opening callee row) Expr.Sound := by
  unfold call
  split
  · exact yields_ok ⟨calleeSound, trivial, trivial⟩
  · have noneSound : Expr.SoundAll [] ∧ Expr.SoundNamed [] := ⟨trivial, trivial⟩
    refine (arguments_yields noneSound.1 noneSound.2 fun segment found => ?_).bind
      fun found foundSound => ?_
    · exact sound.mono (subset_of_mem_commaSegments found)
    · exact yields_ok ⟨calleeSound, foundSound⟩

theorem bound_yields (sound : SoundRow row) : Yields (bound opening row) Expr.Sound := by
  unfold bound
  split
  · exact yields_ok trivial
  · exact Ladder.reduce_yields sound

theorem subscript_yields {object : Expr} (objectSound : object.Sound) (sound : SoundRow row) :
    Yields (subscript opening object row) Expr.Sound := by
  have bound {part : List Item} (found : part ∈ split (.symbol .colon) row) :
      Yields (bound opening part) Expr.Sound :=
    bound_yields (sound.mono (subset_of_mem_split found))
  unfold subscript
  split
  · exact yields_failAt
  · split
    · split
      next start stop parts =>
        rw [parts] at bound
        refine (bound (by simp)).bind fun start startSound => ?_
        refine (bound (by simp)).bind fun stop stopSound => ?_
        exact yields_ok ⟨objectSound, startSound, stopSound, trivial⟩
      next start stop step parts =>
        rw [parts] at bound
        refine (bound (by simp)).bind fun start startSound => ?_
        refine (bound (by simp)).bind fun stop stopSound => ?_
        refine (bound (by simp)).bind fun step stepSound => ?_
        exact yields_ok ⟨objectSound, startSound, stopSound, stepSound⟩
      · exact yields_failAt
    · refine (elements_yields sound).bind fun indices all => ?_
      split
      · split
        · exact yields_ok ⟨objectSound, all⟩
        · exact yields_ok ⟨objectSound, all.1⟩
      · exact yields_ok ⟨objectSound, all⟩

theorem close_yields {before : Option Expr} (beforeSound : ∀ object ∈ before, object.Sound)
    (sound : SoundRow row) : Yields (close opening before row) Expr.Sound := by
  unfold close
  split
  · exact call_yields (beforeSound _ rfl) sound
  · exact parenthesized_yields sound
  · exact subscript_yields (beforeSound _ rfl) sound
  · exact squareDisplay_yields sound
  · exact braceDisplay_yields sound

/-- The operand that a single token is assigns nothing. -/
theorem operand?_yields {token : Token} {operand : Except ParseError Expr}
    (found : operand? token = some operand) : Yields operand Expr.Sound := by
  unfold operand? at found
  split at found
  any_goals
    cases found
    exact yields_ok trivial
  · cases found
    unfold numeral
    split <;> split
    any_goals exact yields_ok trivial
    any_goals exact yields_failAt
  · cases found

end Group

/-! ### Rows -/

theorem SoundRow.cons_operand {row : List Item} {expression : Expr} (sound : SoundRow row)
    (expressionSound : expression.Sound) : SoundRow (.operand expression :: row) := by
  intro other found
  obtain same | found := List.mem_cons.mp found
  · cases same
    exact expressionSound
  · exact sound other found

theorem SoundRow.cons_token {row : List Item} {token : Token} (sound : SoundRow row) :
    SoundRow (.token token :: row) := by
  intro other found
  obtain same | found := List.mem_cons.mp found
  · cases same
  · exact sound other found

theorem SoundRow.reverse {row : List Item} (sound : SoundRow row) : SoundRow row.reverse :=
  sound.mono fun _ found => List.mem_reverse.mp found

namespace Row

theorem addOperand_yields {row : List Item} {operand : Expr} {name : String} (sound : SoundRow row)
    (operandSound : operand.Sound) : Yields (addOperand row operand name) SoundRow := by
  unfold addOperand
  split
  next location object before =>
    refine yields_ok (SoundRow.cons_operand ?_ ?_)
    · exact sound.mono (by simp)
    · exact sound object (by simp)
  · exact yields_failAt
  · exact yields_ok (sound.cons_operand operandSound)

theorem closeGroup_yields {pending : Pending} {inner : List Item}
    (beforeSound : SoundRow pending.before) (innerSound : SoundRow inner) :
    Yields (closeGroup pending inner) SoundRow := by
  unfold closeGroup
  split
  next object before same =>
    rw [same] at beforeSound
    refine (Group.close_yields (fun _ found => ?_) innerSound).bind fun group groupSound => ?_
    · cases found
      exact beforeSound object List.mem_cons_self
    · exact yields_ok ((beforeSound.mono (List.subset_cons_self _ _)).cons_operand groupSound)
  · refine (Group.close_yields (fun _ found => ?_) innerSound).bind fun group groupSound => ?_
    · cases found
    · exact yields_ok (beforeSound.cons_operand groupSound)

/-- A token moves into the rows without making them unsound. -/
theorem Shifts.sound {head : Token} {pending pending' : List Pending} {row row' : List Item}
    (shifts : Shifts head pending row pending' row') (rowSound : SoundRow row)
    (heldSound : ∀ inner ∈ pending, SoundRow inner.before) :
    SoundRow row' ∧ ∀ inner ∈ pending', SoundRow inner.before := by
  cases shifts with
  | lineBreak => exact ⟨rowSound, heldSound⟩
  | opens =>
    refine ⟨fun _ found => ?_, ?_⟩
    · cases found
    · exact List.forall_mem_cons.mpr ⟨rowSound, heldSound⟩
  | closes _ closed =>
    rw [List.forall_mem_cons] at heldSound
    exact ⟨closeGroup_yields heldSound.1 rowSound.reverse _ closed, heldSound.2⟩
  | operand isOperand _ added =>
    have operandSound := Group.operand?_yields (operand?_of_role isOperand) _ rfl
    exact ⟨addOperand_yields rowSound operandSound _ added, heldSound⟩
  | keeps => exact ⟨rowSound.cons_token, heldSound⟩

/-- Collecting a row gives sound operands, because all rows that are set aside have sound ones. -/
theorem collect_yields {stop : List Kind} {pending : List Pending} {row : List Item}
    {stream : Stream} (rowSound : SoundRow row)
    (heldSound : ∀ inner ∈ pending, SoundRow inner.before) :
    Yields (collect stop pending row stream) fun result => SoundRow result.1 := by
  intro result collected
  induction stream generalizing pending row with
  | ended =>
    cases collected
    exact rowSound.reverse
  | failed => cases collected
  | token head rest inductionHypothesis =>
    obtain ⟨-, rfl⟩ | ⟨-, pending', row', shifts, goesOn⟩ := collect_cases collected
    · exact rowSound.reverse
    · obtain ⟨rowSound, heldSound⟩ := shifts.sound rowSound heldSound
      exact inductionHypothesis rowSound heldSound goesOn

end Row

/-! ### Reading -/

namespace Reading

/-- Whatever is read has this property. -/
def Reads {α : Type} (reading : Reading α) (property : α → Prop) : Prop :=
  ∀ stream, Yields (reading stream) fun result => property result.1

variable {α β : Type} {property : α → Prop} {result : β → Prop}

theorem reads_pure {value : α} (holds : property value) : Reads (pure value) property :=
  fun _ => yields_ok holds

theorem Reads.bind {first : Reading α} {next : α → Reading β} (reads : Reads first property)
    (nextReads : ∀ value, property value → Reads (next value) result) :
    Reads (first >>= next) result := by
  intro stream final success
  simp only [Bind.bind] at success
  split at success
  · cases success
  next value middle bound done =>
    split at success
    · cases success
    next last rest further lastDone =>
      cases success
      exact nextReads value (reads stream _ done) middle _ lastDone

/-- A step whose value does not matter. -/
theorem reads_then {first : Reading α} {next : α → Reading β}
    (nextReads : ∀ value, Reads (next value) result) : Reads (first >>= next) result :=
  Reads.bind (fun _ _ _ => trivial) fun value (_ : True) => nextReads value

theorem Reads.map {first : Reading α} {change : α → β} (reads : Reads first property)
    (changed : ∀ value, property value → result (change value)) : Reads (change <$> first) result :=
  Reads.bind reads fun value holds => reads_pure (changed value holds)

theorem reads_fail {location : Location} {fault : ParseFault} :
    Reads (fail location fault) property :=
  fun _ => yields_error

theorem reads_lift {step : Except ParseError α} (yields : Yields step property) :
    Reads (lift step) property := by
  intro stream
  unfold lift
  cases step with
  | error => exact yields_error
  | ok value => exact yields_ok (yields value rfl)

theorem expression_reads (stop : List Kind) : Reads (expression stop) Expr.Sound := by
  have rowReads : Reads (row stop) SoundRow := by
    intro stream found done
    unfold row at done
    split at done
    next items rest collected =>
      cases done
      exact Row.collect_yields (fun _ found => by cases found) (fun _ found => by cases found) _
        collected
    · cases done
  refine reads_then fun location => rowReads.bind fun items itemsSound => ?_
  split
  · exact reads_then fun _ => reads_fail
  · exact reads_lift (Ladder.reduce_yields itemsSound)

theorem Lists.forall_mem {item : List α → Reading α} {ends : Token → Bool} {done : List α}
    {stream left : Stream} {result : List α × Bool}
    (lists : Lists item ends done stream result left)
    (itemReads : ∀ before, Reads (item before) property)
    (doneHolds : ∀ value ∈ done, property value) : ∀ value ∈ result.1, property value := by
  have extended {done : List α} {value : α} (holds : property value)
      (doneHolds : ∀ other ∈ done, property other) : ∀ other ∈ value :: done, property other :=
    List.forall_mem_cons.mpr ⟨holds, doneHolds⟩
  induction lists with
  | last itemRead | closed itemRead =>
    intro other found
    exact extended (itemReads _ _ _ itemRead) doneHolds other (List.mem_reverse.mp found)
  | more itemRead _ _ othersHold =>
    exact othersHold (extended (itemReads _ _ _ itemRead) doneHolds)

/-- Every item of a list with commas is read in the same way. -/
theorem commaSeparated_reads {item : List α → Reading α} {ends : Token → Bool} {done : List α}
    (itemReads : ∀ before, Reads (item before) property)
    (doneHolds : ∀ value ∈ done, property value) :
    Reads (commaSeparated item ends done) fun found => ∀ value ∈ found.1, property value :=
  fun _ _ success => (lists_of_commaSeparated success).forall_mem itemReads doneHolds

theorem expressionList_reads (stop : List Kind) : Reads (expressionList stop) Expr.Sound := by
  refine reads_then fun location => ?_
  refine (commaSeparated_reads (fun _ => expression_reads _) (by simp)).bind fun found all => ?_
  dsimp only
  split
  next element same _ =>
    rw [same] at all
    exact reads_pure (all element List.mem_cons_self)
  · exact reads_pure (Expr.soundAll_iff.mpr all)

end Reading

/-! ### Lines -/

/-- The default of a parameter is sound, if there is one. -/
def Parameter.Sound (parameter : Parameter) : Prop :=
  ∀ default ∈ parameter.default, default.Sound

/-- A simple statement assigns and deletes targets only. -/
def Simple.Sound : Simple → Prop
  | .expression value => value.Sound
  | .assign target value => target.Sound ∧ target.isTarget ∧ value.Sound
  | .returnValue value => ∀ expression ∈ value, expression.Sound
  | .raiseValue value => ∀ expression ∈ value, expression.Sound
  | .delete target => target.Sound ∧ target.isTarget
  | _ => True

/-- A header assigns targets only. -/
def Header.Sound : Header → Prop
  | .ifTrue condition => condition.Sound
  | .elseIf condition => condition.Sound
  | .whileTrue condition => condition.Sound
  | .forEach target iterable => target.Sound ∧ target.isTarget ∧ iterable.Sound
  | .handle class? _ => ∀ expression ∈ class?, expression.Sound
  | .function _ parameters => ∀ parameter ∈ parameters, parameter.Sound
  | .klass _ base => ∀ expression ∈ base, expression.Sound
  | _ => True

def Content.Sound : Content → Prop
  | .header inner => inner.Sound
  | .simple inner => inner.Sound

namespace Line

open Reading

theorem handlerClass_reads :
    Reads handlerClass fun found => ∀ expression ∈ found.1, expression.Sound := by
  refine reads_then fun isBare => ?_
  split
  · exact reads_pure (by simp)
  · refine (expression_reads _).bind fun class? classSound => reads_then fun hasName => ?_
    have sound : ∀ expression ∈ some class?, expression.Sound := by simpa using classSound
    split
    · exact reads_then fun _ => reads_then fun name => reads_pure sound
    · exact reads_pure sound

/-- The target of a loop is checked after the source was split off from it. -/
theorem loopTarget_reads (location : Location) (parts : List Expr × Expr) :
    (∀ target ∈ parts.1, target.Sound) ∧ parts.2.Sound →
    Reads (do
      let (targets, iterable) := parts
      let target := match targets with
        | [target] => target
        | targets => .tuple location targets
      lift target.checkTarget
      return (target, iterable)) fun found =>
        found.1.Sound ∧ found.1.isTarget ∧ found.2.Sound := by
  obtain ⟨targets, iterable⟩ := parts
  rintro ⟨targetsSound, iterableSound⟩
  refine (reads_lift (checkTarget_yields _)).bind fun _ isTarget => ?_
  refine reads_pure ⟨?_, isTarget, iterableSound⟩
  split
  · exact targetsSound _ List.mem_cons_self
  · exact Expr.soundAll_iff.mpr targetsSound

theorem loopClause_reads :
    Reads loopClause fun found => found.1.Sound ∧ found.1.isTarget ∧ found.2.Sound := by
  refine reads_then fun location => ?_
  refine (commaSeparated_reads (fun _ => expression_reads _) (by simp)).bind fun found all => ?_
  refine reads_then fun hasWord => ?_
  split
  · refine reads_then fun _ => (expressionList_reads _).bind fun iterable iterableSound => ?_
    exact Reads.bind (reads_pure ⟨all, iterableSound⟩) (loopTarget_reads location)
  · split
    next last source before same =>
      have allReversed : ∀ target ∈ found.1.reverse, target.Sound :=
        fun target inside => all target (List.mem_reverse.mp inside)
      rw [same, List.forall_mem_cons] at allReversed
      obtain ⟨lastSound, beforeSound⟩ := allReversed
      refine Reads.bind (reads_pure ⟨fun target inside => ?_, lastSound.2⟩)
        (loopTarget_reads location)
      obtain rfl | inside := List.mem_cons.mp (List.mem_reverse.mp inside)
      · exact lastSound.1
      · exact beforeSound target inside
    · exact Reads.bind reads_fail (loopTarget_reads location)

theorem parameter_reads (before : List Parameter) :
    Reads (parameter before) Parameter.Sound := by
  refine reads_then fun location => reads_then fun name => ?_
  split
  · exact reads_fail
  · refine reads_then fun hasDefault => ?_
    split
    · refine reads_then fun _ => (expression_reads _).bind fun value valueSound => ?_
      exact reads_pure (by simpa [Parameter.Sound] using valueSound)
    · split
      · exact reads_fail
      · exact reads_pure (by simp [Parameter.Sound])

theorem parameters_reads :
    Reads parameters fun found => ∀ parameter ∈ found, parameter.Sound := by
  have closed (found : List Parameter) (all : ∀ parameter ∈ found, parameter.Sound) :
      Reads (do
        let _ ← expect (.symbol .closeParen)
        return found) fun found => ∀ parameter ∈ found, parameter.Sound :=
    reads_then fun _ => reads_pure all
  refine reads_then fun _ => reads_then fun isEmpty => ?_
  split
  · exact Reads.bind (reads_pure (by simp)) closed
  · refine Reads.bind (Reads.map (commaSeparated_reads parameter_reads (by simp)) ?_) closed
    exact fun _ all => all

theorem baseClass_reads :
    Reads baseClass fun found => ∀ expression ∈ found, expression.Sound := by
  have closed (found : Option Expr) (sound : ∀ expression ∈ found, expression.Sound) :
      Reads (do
        let _ ← expect (.symbol .closeParen)
        return found) fun found => ∀ expression ∈ found, expression.Sound :=
    reads_then fun _ => reads_pure sound
  refine reads_then fun hasBase => ?_
  split
  · refine reads_then fun _ => reads_then fun isEmpty => ?_
    split
    · exact Reads.bind (reads_pure (by simp)) closed
    · refine Reads.bind (Reads.map (expression_reads _) ?_) closed
      exact fun _ sound => by simpa using sound
  · exact reads_pure (by simp)

theorem optionalValue_reads :
    Reads optionalValue fun found => ∀ expression ∈ found, expression.Sound := by
  refine reads_then fun isEmpty => ?_
  split
  · exact reads_pure (by simp)
  · exact (expressionList_reads _).bind fun value valueSound => reads_pure (by simpa using valueSound)

theorem deletion_reads (location : Location) : Reads (deletion location) Simple.Sound := by
  refine (expressionList_reads _).bind fun target targetSound => ?_
  split
  next isTarget => exact reads_pure ⟨targetSound, isTarget⟩
  · exact reads_fail

theorem moduleImport_reads : Reads moduleImport Simple.Sound := by
  refine reads_then fun path => reads_then fun hasName => ?_
  split
  · exact reads_then fun _ => reads_then fun name => reads_pure trivial
  · exact reads_pure trivial

theorem namesImport_reads : Reads namesImport Simple.Sound := by
  refine reads_then fun path => reads_then fun _ => reads_then fun isStar => ?_
  split
  · exact reads_then fun _ => reads_pure trivial
  · exact reads_then fun found => reads_pure trivial

/-- The left side of an assignment is checked before the right side is read. -/
theorem expressionOrAssignment_reads : Reads expressionOrAssignment Simple.Sound := by
  refine (expressionList_reads _).bind fun first firstSound => reads_then fun isAssignment => ?_
  split
  · refine (reads_lift (checkTarget_yields first)).bind fun _ isTarget => reads_then fun _ => ?_
    refine (expressionList_reads _).bind fun value valueSound => ?_
    exact reads_pure ⟨firstSound, isTarget, valueSound⟩
  · exact reads_pure firstSound

theorem header?_reads {word : Keyword} {rest : Reading Header} (found : header? word = some rest) :
    Reads rest Header.Sound := by
  unfold header? at found
  split at found <;> cases found
  · exact (expression_reads _).map fun _ sound => sound
  · exact (expression_reads _).map fun _ sound => sound
  · exact (expression_reads _).map fun _ sound => sound
  · exact reads_pure trivial
  · exact reads_pure trivial
  · exact reads_pure trivial
  · exact handlerClass_reads.map fun _ sound => sound
  · exact loopClause_reads.map fun _ sound => sound
  · exact reads_then fun name => parameters_reads.bind fun _ sound => reads_pure sound
  · exact reads_then fun name => baseClass_reads.bind fun _ sound => reads_pure sound

theorem statement?_reads {location : Location} {word : Keyword} {rest : Reading Simple}
    (found : statement? location word = some rest) : Reads rest Simple.Sound := by
  unfold statement? at found
  split at found <;> cases found
  · exact reads_pure trivial
  · exact reads_pure trivial
  · exact reads_pure trivial
  · exact optionalValue_reads.map fun _ sound => sound
  · exact optionalValue_reads.map fun _ sound => sound
  · exact deletion_reads location
  · exact moduleImport_reads
  · exact namesImport_reads

theorem readContent_reads (first : Token) : Reads (readContent first) Content.Sound := by
  unfold readContent
  dsimp only
  split
  next rest found =>
    obtain ⟨word, -, known⟩ := Option.bind_eq_some_iff.mp found
    refine reads_then fun _ => (header?_reads known).bind fun header headerSound => ?_
    exact reads_then fun _ => reads_pure headerSound
  next rest _ found =>
    obtain ⟨word, -, known⟩ := Option.bind_eq_some_iff.mp found
    refine reads_then fun _ => (statement?_reads known).bind fun statement statementSound => ?_
    exact reads_then fun _ => reads_pure statementSound
  · refine expressionOrAssignment_reads.bind fun statement statementSound => ?_
    exact reads_then fun _ => reads_pure statementSound

theorem afterIndentation_reads (depth : Nat) :
    Reads (afterIndentation depth) fun found => ∀ line ∈ found, line.content.Sound := by
  refine reads_then fun next => ?_
  split
  · exact reads_then fun _ => reads_pure (by simp)
  · exact (readContent_reads _).bind fun content contentSound => reads_pure (by simpa using contentSound)
  · exact reads_pure (by simp)

theorem read_yields (stream : Stream) :
    Yields (read stream) fun found => ∀ line ∈ found.1, line.content.Sound := by
  unfold read
  split
  next blanks location rest =>
    refine Yields.bind (fun _ _ => trivial) fun _ (_ : True) => ?_
    exact Yields.bind (afterIndentation_reads blanks.length rest) fun found sound => yields_ok sound
  · exact yields_error
  · exact yields_error
  · exact yields_error

/-- Every line of a text is sound. -/
theorem sound_of_readAll {stream : Stream} {line : Line}
    (found : some line ∈ (readAll stream).1) : line.content.Sound := by
  fun_induction readAll stream with
  | case1 => simp at found
  | case2 => simp at found
  | case3 stream notEnd first rest shorter done lines error others inductionHypothesis =>
    rw [others] at inductionHypothesis
    obtain same | found := List.mem_cons.mp found
    · exact read_yields stream _ done line same.symm
    · exact inductionHypothesis found

end Line

/-! ### Statements -/

mutual

/-- A statement assigns and deletes targets only. -/
def Stmt.Sound : Stmt → Prop
  | .simple _ action => action.Sound
  | .choice _ branches otherwise => Branch.SoundAll branches ∧ Stmt.SoundElse otherwise
  | .whileLoop _ condition body otherwise =>
    condition.Sound ∧ Stmt.SoundAll body ∧ Stmt.SoundElse otherwise
  | .forLoop _ target iterable body otherwise =>
    (target.Sound ∧ target.isTarget ∧ iterable.Sound) ∧ Stmt.SoundAll body ∧
      Stmt.SoundElse otherwise
  | .attempt _ body handlers otherwise cleanup =>
    Stmt.SoundAll body ∧ Handler.SoundAll handlers ∧ Stmt.SoundElse otherwise ∧
      Stmt.SoundElse cleanup
  | .functionDef _ _ parameters body =>
    (∀ parameter ∈ parameters, parameter.Sound) ∧ Stmt.SoundAll body
  | .classDef _ _ base body => (∀ expression ∈ base, expression.Sound) ∧ Stmt.SoundAll body

def Stmt.SoundAll : List Stmt → Prop
  | [] => True
  | first :: rest => first.Sound ∧ Stmt.SoundAll rest

def Stmt.SoundElse : Option (List Stmt) → Prop
  | none => True
  | some body => Stmt.SoundAll body

def Branch.SoundAll : List Branch → Prop
  | [] => True
  | .mk _ condition body :: rest => condition.Sound ∧ Stmt.SoundAll body ∧ Branch.SoundAll rest

def Handler.SoundAll : List Handler → Prop
  | [] => True
  | .mk _ class? _ body :: rest =>
    (∀ expression ∈ class?, expression.Sound) ∧ Stmt.SoundAll body ∧ Handler.SoundAll rest

end

namespace Block

/-- Every one of some lines is sound. -/
def SoundLines (lines : List Line) : Prop :=
  ∀ line ∈ lines, line.content.Sound

theorem soundLines_cons {line : Line} {lines : List Line} :
    SoundLines (line :: lines) ↔ line.content.Sound ∧ SoundLines lines :=
  List.forall_mem_cons

theorem soundLines_append {first second : List Line} :
    SoundLines (first ++ second) ↔ SoundLines first ∧ SoundLines second :=
  List.forall_mem_append

mutual

/-- Statements that are laid out in sound lines are sound. -/
theorem LaidOut.sound {depth : Nat} : (statement : Stmt) → {lines : List Line} →
    LaidOut depth statement lines → SoundLines lines → statement.Sound
  | .simple _ _, _, laidOut, sound => by
    obtain rfl := laidOut
    exact (soundLines_cons.mp sound).1
  | .choice _ branches otherwise, _, laidOut, sound => by
    obtain ⟨first, second, rfl, branchesLaidOut, clauseLaidOut⟩ := laidOut
    obtain ⟨firstSound, secondSound⟩ := soundLines_append.mp sound
    exact ⟨BranchesLaidOut.sound branches (fun _ => id) branchesLaidOut firstSound,
      ClauseLaidOut.sound otherwise clauseLaidOut secondSound⟩
  | .whileLoop _ _ body otherwise, _, laidOut, sound => by
    obtain ⟨first, second, rfl, ⟨_, -, bodyLaidOut⟩, clauseLaidOut⟩ := laidOut
    simp only [List.cons_append, soundLines_cons, soundLines_append] at sound
    obtain ⟨conditionSound, firstSound, secondSound⟩ := sound
    exact ⟨conditionSound, AllLaidOut.sound body bodyLaidOut firstSound,
      ClauseLaidOut.sound otherwise clauseLaidOut secondSound⟩
  | .forLoop _ _ _ body otherwise, _, laidOut, sound => by
    obtain ⟨first, second, rfl, ⟨_, -, bodyLaidOut⟩, clauseLaidOut⟩ := laidOut
    simp only [List.cons_append, soundLines_cons, soundLines_append] at sound
    obtain ⟨headerSound, firstSound, secondSound⟩ := sound
    exact ⟨headerSound, AllLaidOut.sound body bodyLaidOut firstSound,
      ClauseLaidOut.sound otherwise clauseLaidOut secondSound⟩
  | .attempt _ body handlers otherwise cleanup, _, laidOut, sound => by
    obtain ⟨first, second, third, fourth, rfl, ⟨_, -, bodyLaidOut⟩, handlersLaidOut, clauseLaidOut,
      lastLaidOut⟩ := laidOut
    simp only [List.cons_append, soundLines_cons, soundLines_append] at sound
    obtain ⟨-, firstSound, secondSound, thirdSound, fourthSound⟩ := sound
    exact ⟨AllLaidOut.sound body bodyLaidOut firstSound,
      HandlersLaidOut.sound handlers handlersLaidOut secondSound,
      ClauseLaidOut.sound otherwise clauseLaidOut thirdSound,
      ClauseLaidOut.sound cleanup lastLaidOut fourthSound⟩
  | .functionDef _ _ _ body, _, laidOut, sound => by
    obtain ⟨first, rfl, _, -, bodyLaidOut⟩ := laidOut
    obtain ⟨headerSound, firstSound⟩ := soundLines_cons.mp sound
    exact ⟨headerSound, AllLaidOut.sound body bodyLaidOut firstSound⟩
  | .classDef _ _ _ body, _, laidOut, sound => by
    obtain ⟨first, rfl, _, -, bodyLaidOut⟩ := laidOut
    obtain ⟨headerSound, firstSound⟩ := soundLines_cons.mp sound
    exact ⟨headerSound, AllLaidOut.sound body bodyLaidOut firstSound⟩

theorem AllLaidOut.sound {depth : Nat} : (statements : List Stmt) → {lines : List Line} →
    AllLaidOut depth statements lines → SoundLines lines → Stmt.SoundAll statements
  | [], _, _, _ => trivial
  | statement :: rest, _, laidOut, sound => by
    obtain ⟨first, others, rfl, statementLaidOut, restLaidOut⟩ := laidOut
    obtain ⟨firstSound, othersSound⟩ := soundLines_append.mp sound
    exact ⟨LaidOut.sound statement statementLaidOut firstSound,
      AllLaidOut.sound rest restLaidOut othersSound⟩

theorem ClauseLaidOut.sound {depth : Nat} {header : Header} : (found : Option (List Stmt)) →
    {lines : List Line} → ClauseLaidOut depth header found lines → SoundLines lines →
    Stmt.SoundElse found
  | none, _, _, _ => trivial
  | some body, _, laidOut, sound => by
    obtain ⟨_, first, rfl, _, -, bodyLaidOut⟩ := laidOut
    exact AllLaidOut.sound body bodyLaidOut (soundLines_cons.mp sound).2

theorem BranchesLaidOut.sound {depth : Nat} {header : Expr → Header} : (branches : List Branch) →
    {lines : List Line} → (∀ condition, (header condition).Sound → condition.Sound) →
    BranchesLaidOut depth header branches lines → SoundLines lines → Branch.SoundAll branches
  | [], _, _, _, _ => trivial
  | .mk _ condition body :: rest, _, holds, laidOut, sound => by
    obtain ⟨first, others, rfl, ⟨_, -, bodyLaidOut⟩, restLaidOut⟩ := laidOut
    simp only [List.cons_append, soundLines_cons, soundLines_append] at sound
    obtain ⟨conditionSound, firstSound, othersSound⟩ := sound
    exact ⟨holds condition conditionSound, AllLaidOut.sound body bodyLaidOut firstSound,
      BranchesLaidOut.sound rest (fun _ => id) restLaidOut othersSound⟩

theorem HandlersLaidOut.sound {depth : Nat} : (handlers : List Handler) → {lines : List Line} →
    HandlersLaidOut depth handlers lines → SoundLines lines → Handler.SoundAll handlers
  | [], _, _, _ => trivial
  | .mk _ _ _ body :: rest, _, laidOut, sound => by
    obtain ⟨first, others, rfl, ⟨_, -, bodyLaidOut⟩, restLaidOut⟩ := laidOut
    simp only [List.cons_append, soundLines_cons, soundLines_append] at sound
    obtain ⟨headerSound, firstSound, othersSound⟩ := sound
    exact ⟨headerSound, AllLaidOut.sound body bodyLaidOut firstSound,
      HandlersLaidOut.sound rest restLaidOut othersSound⟩

end

end Block

/-- A program that parsing gives is well formed and assigns and deletes targets only. -/
theorem Program.parse_yields (file text : String) :
    Yields (parse file text) fun program =>
      Block.WellFormedAll .top program ∧ Stmt.SoundAll program := by
  intro program parsed
  unfold parse at parsed
  split at parsed
  · cases parsed
  next lines read =>
    split at parsed
    next statements grouped =>
      cases parsed
      obtain ⟨laidOut, wellFormed⟩ := Block.group_eq_ok.mp grouped
      refine ⟨wellFormed, Block.AllLaidOut.sound _ laidOut fun line inside => ?_⟩
      obtain ⟨found, present, rfl⟩ := List.mem_filterMap.mp inside
      have onLine : some line ∈ (Line.readAll (Lexer.stream file text)).1 := by
        rw [read]
        exact present
      exact Line.sound_of_readAll onLine
    · cases parsed

end Offside
