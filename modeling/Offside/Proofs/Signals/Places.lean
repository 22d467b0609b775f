/-
This file relates where a statement stands in a program to where a run stands that has come
to it. Which loop a `break` is meant for is said by the program alone: it is the innermost
one whose body it stands in, and the `else` block of a loop is not part of its body. In a
run the same loop is the innermost one among the layers around the statement. And what
parsing allowed for at the place of the statement says whether there is such a loop.
-/

import Offside.Proofs.Soundness
import Offside.Proofs.Signals.Layers

namespace Offside

/-! ### Where signals are meant to go -/

/-- The statement gives a signal to a loop around it. -/
def Simple.isForLoop : Simple → Bool
  | .breakLoop => true
  | .continueLoop => true
  | _ => false

mutual

/-- The statements inside of a statement whose signals are for a loop around it. A loop takes up
those of its body, and nothing leaves a function or a class. -/
def Stmt.loose : Stmt → List Stmt
  | .simple location action => if action.isForLoop then [.simple location action] else []
  | .choice _ branches otherwise => Branch.loose branches ++ Stmt.looseElse otherwise
  | .whileLoop _ _ _ otherwise => Stmt.looseElse otherwise
  | .forLoop _ _ _ _ otherwise => Stmt.looseElse otherwise
  | .attempt _ body handlers otherwise cleanup =>
    Stmt.looseAll body ++ (Handler.loose handlers ++
      (Stmt.looseElse otherwise ++ Stmt.looseElse cleanup))
  | .functionDef _ _ _ _ => []
  | .classDef _ _ _ _ => []

def Stmt.looseAll : List Stmt → List Stmt
  | [] => []
  | first :: rest => first.loose ++ Stmt.looseAll rest

def Stmt.looseElse : Option (List Stmt) → List Stmt
  | none => []
  | some body => Stmt.looseAll body

def Branch.loose : List Branch → List Stmt
  | [] => []
  | .mk _ _ body :: rest => Stmt.looseAll body ++ Branch.loose rest

def Handler.loose : List Handler → List Stmt
  | [] => []
  | .mk _ _ _ body :: rest => Stmt.looseAll body ++ Handler.loose rest

end

/-- A block of a program that runs in a scope of its own, with the place of its statements. -/
inductive Program.Body (program : List Stmt) : Block.Place → List Stmt → Prop
  | module : Body program .top program
  | function {location : Location} {name : String} {parameters : List Parameter}
      {body : List Stmt} :
    .functionDef location name parameters body ∈ Stmt.partsAll program → Body program .function body
  | klass {location : Location} {name : String} {base : Option Expr} {body : List Stmt} :
    .classDef location name base body ∈ Stmt.partsAll program → Body program .klass body

/-! ### Checked statements -/

/-- The statement went through the checks of parsing, wherever it stands. -/
def Stmt.Checked (statement : Stmt) : Prop :=
  ∃ place, Block.WellFormed place statement ∧ statement.Sound

mutual

theorem Stmt.everywhere_checked {place : Block.Place} : (statement : Stmt) →
    Block.WellFormed place statement → statement.Sound → statement.Everywhere Stmt.Checked
  | .simple _ _, wellFormed, sound => ⟨place, wellFormed, sound⟩
  | .choice _ branches otherwise, wellFormed, sound =>
    ⟨⟨place, wellFormed, sound⟩, Branch.everywhereAll_checked branches wellFormed.2.1 sound.1,
      Stmt.everywhereElse_checked otherwise wellFormed.2.2 sound.2⟩
  | .whileLoop _ _ body otherwise, wellFormed, sound =>
    ⟨⟨place, wellFormed, sound⟩, Stmt.everywhereAll_checked body wellFormed.2.1 sound.2.1,
      Stmt.everywhereElse_checked otherwise wellFormed.2.2 sound.2.2⟩
  | .forLoop _ _ _ body otherwise, wellFormed, sound =>
    ⟨⟨place, wellFormed, sound⟩, Stmt.everywhereAll_checked body wellFormed.2.1 sound.2.1,
      Stmt.everywhereElse_checked otherwise wellFormed.2.2 sound.2.2⟩
  | .attempt _ body handlers otherwise cleanup, wellFormed, sound =>
    ⟨⟨place, wellFormed, sound⟩, Stmt.everywhereAll_checked body wellFormed.2.1 sound.1,
      Handler.everywhereAll_checked handlers wellFormed.2.2.1 sound.2.1,
      Stmt.everywhereElse_checked otherwise wellFormed.2.2.2.2.1 sound.2.2.1,
      Stmt.everywhereElse_checked cleanup wellFormed.2.2.2.2.2.1 sound.2.2.2⟩
  | .functionDef _ _ _ body, wellFormed, sound =>
    ⟨⟨place, wellFormed, sound⟩, Stmt.everywhereAll_checked body wellFormed.2 sound.2⟩
  | .classDef _ _ _ body, wellFormed, sound =>
    ⟨⟨place, wellFormed, sound⟩, Stmt.everywhereAll_checked body wellFormed.2 sound.2⟩

theorem Stmt.everywhereAll_checked {place : Block.Place} : (statements : List Stmt) →
    Block.WellFormedAll place statements → Stmt.SoundAll statements →
    Stmt.EverywhereAll Stmt.Checked statements
  | [], _, _ => trivial
  | first :: rest, wellFormed, sound =>
    ⟨Stmt.everywhere_checked first wellFormed.1 sound.1,
      Stmt.everywhereAll_checked rest wellFormed.2 sound.2⟩

theorem Stmt.everywhereElse_checked {place : Block.Place} : (block : Option (List Stmt)) →
    Block.WellFormedElse place block → Stmt.SoundElse block →
    Stmt.EverywhereElse Stmt.Checked block
  | none, _, _ => trivial
  | some body, wellFormed, sound => Stmt.everywhereAll_checked body wellFormed.2 sound

theorem Branch.everywhereAll_checked {place : Block.Place} : (branches : List Branch) →
    Block.WellFormedBranches place branches → Branch.SoundAll branches →
    Branch.EverywhereAll Stmt.Checked branches
  | [], _, _ => trivial
  | .mk _ _ body :: rest, wellFormed, sound =>
    ⟨Stmt.everywhereAll_checked body wellFormed.2.1 sound.2.1,
      Branch.everywhereAll_checked rest wellFormed.2.2 sound.2.2⟩

theorem Handler.everywhereAll_checked {place : Block.Place} : (handlers : List Handler) →
    Block.WellFormedHandlers place handlers → Handler.SoundAll handlers →
    Handler.EverywhereAll Stmt.Checked handlers
  | [], _, _ => trivial
  | .mk _ _ _ body :: rest, wellFormed, sound =>
    ⟨Stmt.everywhereAll_checked body wellFormed.2.1 sound.2.1,
      Handler.everywhereAll_checked rest wellFormed.2.2 sound.2.2⟩

end

theorem Program.parse_checked {file text : String} {program : List Stmt}
    (parsed : Program.parse file text = .ok program) {part : Stmt}
    (inside : part ∈ Stmt.partsAll program) : part.Checked := by
  obtain ⟨wellFormed, sound⟩ := Program.parse_yields file text program parsed
  exact (Stmt.everywhereAll_iff program).mp
    (Stmt.everywhereAll_checked program wellFormed sound) part inside

theorem Program.Body.wellFormed {file text : String} {program body : List Stmt}
    {place : Block.Place} (parsed : Program.parse file text = .ok program)
    (isBody : Program.Body program place body) : Block.WellFormedAll place body := by
  cases isBody with
  | module => exact (Program.parse_yields file text program parsed).1
  | function inside =>
    obtain ⟨_, wellFormed, -⟩ := Program.parse_checked parsed inside
    exact wellFormed.2
  | klass inside =>
    obtain ⟨_, wellFormed, -⟩ := Program.parse_checked parsed inside
    exact wellFormed.2

namespace Looping

variable (looping : Looping)

theorem loose_statement : looping.statement.loose = Stmt.looseElse looping.otherwise := by
  cases looping <;> simp [statement, otherwise, Stmt.loose]

theorem parts_statement : looping.statement.parts =
    looping.statement :: (Stmt.partsAll looping.body ++ Stmt.partsElse looping.otherwise) := by
  cases looping <;> simp [statement, body, otherwise, Stmt.parts]

theorem sizeOf_statement :
    sizeOf looping.body + sizeOf looping.otherwise < sizeOf looping.statement := by
  cases looping <;> simp [statement, body, otherwise]

end Looping

namespace Exec

variable {machine : Machine} {env : Env} {before here : World} {block : List Stmt}
  {layers : List Layer}

/-! ### Blocks and their statements -/

/-- A block is inside of something that has these loose statements, these parts and this size. -/
structure Inside (block loose parts : List Stmt) (size : Nat) : Prop where
  loose : Stmt.looseAll block ⊆ loose
  parts : Stmt.partsAll block ⊆ parts
  size : sizeOf block < size

theorem Inside.mono {loose wider parts more : List Stmt} {size larger : Nat}
    (inside : Inside block loose parts size) (looseWider : loose ⊆ wider) (partsMore : parts ⊆ more)
    (sizeLarger : size ≤ larger) : Inside block wider more larger :=
  ⟨List.Subset.trans inside.loose looseWider, List.Subset.trans inside.parts partsMore,
    Nat.lt_of_lt_of_le inside.size sizeLarger⟩

theorem Chooses.inside {otherwise : Option (List Stmt)} {branches : List Branch}
    (chooses : Chooses machine env otherwise branches before block here) :
    Inside block (Branch.loose branches ++ Stmt.looseElse otherwise)
      (Branch.parts branches ++ Stmt.partsElse otherwise)
      (sizeOf branches + sizeOf otherwise) := by
  induction chooses with
  | here => exact ⟨by simp [Branch.loose], by simp [Branch.parts], by simp; omega⟩
  | later _ _ inductionHypothesis =>
    refine inductionHypothesis.mono ?_ ?_ ?_
    · simp [Branch.loose]
    · simp [Branch.parts]
    · simp
  | otherwise known =>
    exact ⟨by simp [known, Stmt.looseElse], by simp [known, Stmt.partsElse], by simp [known]; omega⟩

theorem Chooses.wellFormed {place : Block.Place} {otherwise : Option (List Stmt)}
    {branches : List Branch} (chooses : Chooses machine env otherwise branches before block here)
    (wellFormed : Block.WellFormedBranches place branches)
    (elseWellFormed : Block.WellFormedElse place otherwise) : Block.WellFormedAll place block := by
  induction chooses with
  | here => exact wellFormed.2.1
  | later _ _ inductionHypothesis => exact inductionHypothesis wellFormed.2.2
  | otherwise known =>
    rw [known] at elseWellFormed
    exact elseWellFormed.2

theorem Catches.inside {id : RaisedId} {handlers : List Handler} {name : Option String}
    (catches : Catches machine env id handlers before name block here) :
    Inside block (Handler.loose handlers) (Handler.parts handlers) (sizeOf handlers) := by
  induction catches with
  | here => exact ⟨by simp [Handler.loose], by simp [Handler.parts], by simp; omega⟩
  | later _ _ inductionHypothesis =>
    refine inductionHypothesis.mono ?_ ?_ ?_
    · simp [Handler.loose]
    · simp [Handler.parts]
    · simp

theorem Catches.wellFormed {place : Block.Place} {id : RaisedId} {handlers : List Handler}
    {name : Option String} (catches : Catches machine env id handlers before name block here)
    (wellFormed : Block.WellFormedHandlers place handlers) : Block.WellFormedAll place block := by
  induction catches with
  | here => exact wellFormed.2.1
  | later _ _ inductionHypothesis => exact inductionHypothesis wellFormed.2.2

theorem EntersAttempt.inside {location : Location} {body : List Stmt} {handlers : List Handler}
    {otherwise cleanup : Option (List Stmt)}
    (enters : EntersAttempt machine env body handlers otherwise before block here layers) :
    Inside block (Stmt.attempt location body handlers otherwise cleanup).loose
      (Stmt.attempt location body handlers otherwise cleanup).parts
      (sizeOf (Stmt.attempt location body handlers otherwise cleanup)) := by
  cases enters with
  | body =>
    refine ⟨fun part inside => ?_, fun part inside => ?_, ?_⟩
    · simp [Stmt.loose, inside]
    · simp [Stmt.parts, inside]
    · simp
      omega
  | handler _ catches _ =>
    refine catches.inside.mono (fun part inside => ?_) (fun part inside => ?_) ?_
    · simp [Stmt.loose, inside]
    · simp [Stmt.parts, inside]
    · simp
      omega
  | otherwise _ known =>
    refine ⟨fun part inside => ?_, fun part inside => ?_, ?_⟩
    · simp [Stmt.loose, known, Stmt.looseElse, inside]
    · simp [Stmt.parts, known, Stmt.partsElse, inside]
    · simp [known]
      omega

theorem Starts.statement_eq {statement : Stmt} {looping : Looping}
    (starts : Starts machine env statement before looping here) :
    looping.statement = statement := by
  cases starts <;> rfl

theorem inside_otherwise {looping : Looping} (known : looping.otherwise = some block) :
    Inside block looping.statement.loose looping.statement.parts (sizeOf looping.statement) := by
  have smaller := looping.sizeOf_statement
  rw [looping.loose_statement, looping.parts_statement]
  rw [known] at smaller ⊢
  refine ⟨fun part inside => inside, fun part inside => ?_, ?_⟩
  · exact List.mem_cons_of_mem _ (List.mem_append_right _ inside)
  · simp at smaller
    omega

/-- A block of a statement is inside of the statement with all that it has for loops, or it is the
body of a loop. -/
theorem Enters.inside {statement : Stmt}
    (enters : Enters machine env statement before block here layers) :
    (layers.findSome? Layer.looping? = none ∧
      Inside block statement.loose statement.parts (sizeOf statement)) ∨
    ∃ looping left, layers = [.round looping left] ∧ looping.statement = statement ∧
      block = looping.body := by
  have guards (cleanup : Option (List Stmt)) :
      (Layer.guards cleanup).findSome? Layer.looping? = none := by
    cases cleanup <;> rfl
  cases enters with
  | branch chooses =>
    refine .inl ⟨rfl, chooses.inside.mono (List.Subset.refl _) (List.subset_cons_self _ _) ?_⟩
    simp
  | @round _ _ looping _ left _ _ starts =>
    exact .inr ⟨looping, left, rfl, starts.statement_eq, rfl⟩
  | loopElse starts _ _ known =>
    rw [← starts.statement_eq]
    exact .inl ⟨rfl, inside_otherwise known⟩
  | attempt enters =>
    refine .inl ⟨?_, enters.inside⟩
    rw [List.findSome?_append, guards]
    cases enters <;> rfl
  | cleanup =>
    refine .inl ⟨rfl, fun part inside => ?_, fun part inside => ?_, ?_⟩
    · simp [Stmt.loose, Stmt.looseElse, inside]
    · simp [Stmt.parts, Stmt.partsElse, inside]
    · simp
      omega

theorem Enters.sizeOf_lt {statement : Stmt}
    (enters : Enters machine env statement before block here layers) :
    sizeOf block < sizeOf statement := by
  obtain ⟨-, inside⟩ | ⟨looping, _, -, rfl, rfl⟩ := enters.inside
  · exact inside.size
  · have smaller := looping.sizeOf_statement
    omega

theorem Enters.parts_subset {statement : Stmt}
    (enters : Enters machine env statement before block here layers) :
    Stmt.partsAll block ⊆ statement.parts := by
  obtain ⟨-, inside⟩ | ⟨looping, _, -, rfl, rfl⟩ := enters.inside
  · exact inside.parts
  · rw [looping.parts_statement]
    exact fun part inside => List.mem_cons_of_mem _ (List.mem_append_left _ inside)

/-- The innermost loop that a run is inside of is the one that a statement's signals for loops are
meant for. -/
theorem ComesTo.innermost {target : Stmt}
    (comesTo : ComesTo machine env block before target here layers) (own : target ∈ target.loose) :
    match layers.findSome? Layer.looping? with
    | none => target ∈ Stmt.looseAll block
    | some looping => looping.statement ∈ Stmt.partsAll block ∧
        target ∈ Stmt.looseAll looping.body := by
  induction comesTo with
  | first => exact List.mem_append_left _ own
  | later _ _ _ inductionHypothesis =>
    have found := inductionHypothesis own
    revert found
    split
    · exact fun found => List.mem_append_right _ found
    · exact fun found => ⟨List.mem_append_right _ found.1, found.2⟩
  | @inside statement rest _ _ inner _ outer _ _ nearer _ enters _ inductionHypothesis =>
    have found := inductionHypothesis own
    rw [List.findSome?_append]
    cases near : nearer.findSome? Layer.looping? with
    | some looping =>
      rw [near] at found
      exact ⟨List.mem_append_left _ (enters.parts_subset found.1), found.2⟩
    | none =>
      rw [near] at found
      obtain ⟨none, inside⟩ | ⟨looping, left, rfl, same, rfl⟩ := enters.inside
      · rw [List.findSome?_append, none]
        exact List.mem_append_left _ (inside.loose found)
      · refine ⟨List.mem_append_left _ ?_, found⟩
        rw [← same, looping.parts_statement]
        exact List.mem_cons_self

/-! ### Places -/

theorem Starts.wellFormed {place : Block.Place} {statement : Stmt} {looping : Looping}
    (starts : Starts machine env statement before looping here)
    (wellFormed : Block.WellFormed place statement) :
    Block.WellFormedAll place.loop looping.body ∧ Block.WellFormedElse place looping.otherwise := by
  cases starts <;> exact wellFormed.2

/-- What a place allows for that a run comes to from another place, through some layers. -/
structure Within (place : Block.Place) (layers : List Layer) (inner : Block.Place) : Prop where
  inFunction : inner.inFunction = place.inFunction
  inLoop : inner.inLoop → place.inLoop ∨ (layers.findSome? Layer.looping?).isSome

theorem Within.self (place : Block.Place) (layers : List Layer) : Within place layers place :=
  ⟨rfl, .inl⟩

theorem EntersAttempt.wellFormed {place : Block.Place} {body : List Stmt} {handlers : List Handler}
    {otherwise : Option (List Stmt)}
    (enters : EntersAttempt machine env body handlers otherwise before block here layers)
    (wellFormed : Block.WellFormedAll place body)
    (handlersWellFormed : Block.WellFormedHandlers place handlers)
    (elseWellFormed : Block.WellFormedElse place otherwise) : Block.WellFormedAll place block := by
  cases enters with
  | body => exact wellFormed
  | handler _ catches _ => exact catches.wellFormed handlersWellFormed
  | otherwise _ known =>
    rw [known] at elseWellFormed
    exact elseWellFormed.2

theorem Enters.wellFormed {place : Block.Place} {statement : Stmt}
    (enters : Enters machine env statement before block here layers)
    (wellFormed : Block.WellFormed place statement) :
    ∃ inner, Within place layers inner ∧ Block.WellFormedAll inner block := by
  cases enters with
  | branch chooses =>
    exact ⟨place, .self _ _, chooses.wellFormed wellFormed.2.1 wellFormed.2.2⟩
  | round starts =>
    exact ⟨place.loop, ⟨rfl, fun _ => .inr rfl⟩, (starts.wellFormed wellFormed).1⟩
  | loopElse starts _ _ known =>
    have elseWellFormed := (starts.wellFormed wellFormed).2
    rw [known] at elseWellFormed
    exact ⟨place, .self _ _, elseWellFormed.2⟩
  | attempt enters =>
    exact ⟨place, .self _ _, enters.wellFormed wellFormed.2.1 wellFormed.2.2.1
      wellFormed.2.2.2.2.1⟩
  | cleanup => exact ⟨place, .self _ _, wellFormed.2.2.2.2.2.1.2⟩

theorem ComesTo.wellFormed {place : Block.Place} {target : Stmt}
    (comesTo : ComesTo machine env block before target here layers)
    (wellFormed : Block.WellFormedAll place block) :
    ∃ inner, Within place layers inner ∧ Block.WellFormed inner target := by
  induction comesTo generalizing place with
  | first => exact ⟨place, .self _ _, wellFormed.1⟩
  | later _ _ _ inductionHypothesis => exact inductionHypothesis wellFormed.2
  | inside _ enters _ inductionHypothesis =>
    obtain ⟨middle, within, blockWellFormed⟩ := enters.wellFormed wellFormed.1
    obtain ⟨inner, nearer, targetWellFormed⟩ := inductionHypothesis blockWellFormed
    refine ⟨inner, ⟨nearer.inFunction.trans within.inFunction, fun inLoop => ?_⟩,
      targetWellFormed⟩
    rw [List.findSome?_append, List.findSome?_append, Option.isSome_or, Option.isSome_or]
    obtain inLoop | known := nearer.inLoop inLoop
    · obtain inLoop | known := within.inLoop inLoop
      · exact .inl inLoop
      · simp [known]
    · simp [known]

end Exec

end Offside
