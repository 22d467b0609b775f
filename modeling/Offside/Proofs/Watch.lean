/-
This file says what is carried along every run. Parsing checks the bodies of functions,
and a function may be called much later, so one part of it is that every function on the
heap that is written in the language was checked. Only the definition of a function puts
new code on the heap; all other changes of the world keep the code that there is.

Another part is for statements about more than the rules of the interpreter. It is a
watch on the source texts that are loaded, for code in which every statement has some
form. It says what is known between the steps of a run, and what is known when a step
has failed, where a text that was refused may have changed things.
-/

import Offside.Proofs.Conduct.Evaluation
import Offside.Proofs.Layout

namespace Offside

/-! ### Statements everywhere in a program -/

mutual

/-- A statement and all statements inside of it have a property. -/
def Stmt.Everywhere (property : Stmt → Prop) : Stmt → Prop
  | .simple location action => property (.simple location action)
  | .choice location branches otherwise =>
    property (.choice location branches otherwise) ∧ Branch.EverywhereAll property branches ∧
      Stmt.EverywhereElse property otherwise
  | .whileLoop location condition body otherwise =>
    property (.whileLoop location condition body otherwise) ∧ Stmt.EverywhereAll property body ∧
      Stmt.EverywhereElse property otherwise
  | .forLoop location target iterable body otherwise =>
    property (.forLoop location target iterable body otherwise) ∧
      Stmt.EverywhereAll property body ∧ Stmt.EverywhereElse property otherwise
  | .attempt location body handlers otherwise cleanup =>
    property (.attempt location body handlers otherwise cleanup) ∧
      Stmt.EverywhereAll property body ∧ Handler.EverywhereAll property handlers ∧
      Stmt.EverywhereElse property otherwise ∧ Stmt.EverywhereElse property cleanup
  | .functionDef location name parameters body =>
    property (.functionDef location name parameters body) ∧ Stmt.EverywhereAll property body
  | .classDef location name base body =>
    property (.classDef location name base body) ∧ Stmt.EverywhereAll property body

def Stmt.EverywhereAll (property : Stmt → Prop) : List Stmt → Prop
  | [] => True
  | first :: rest => first.Everywhere property ∧ Stmt.EverywhereAll property rest

def Stmt.EverywhereElse (property : Stmt → Prop) : Option (List Stmt) → Prop
  | none => True
  | some body => Stmt.EverywhereAll property body

def Branch.EverywhereAll (property : Stmt → Prop) : List Branch → Prop
  | [] => True
  | .mk _ _ body :: rest => Stmt.EverywhereAll property body ∧ Branch.EverywhereAll property rest

def Handler.EverywhereAll (property : Stmt → Prop) : List Handler → Prop
  | [] => True
  | .mk _ _ _ body :: rest => Stmt.EverywhereAll property body ∧ Handler.EverywhereAll property rest

end

theorem Stmt.Everywhere.self {property : Stmt → Prop} {statement : Stmt}
    (everywhere : statement.Everywhere property) : property statement := by
  cases statement with
  | simple => exact everywhere
  | _ => exact everywhere.1

mutual

/-- A statement and all statements inside of it. -/
def Stmt.parts : Stmt → List Stmt
  | .simple location action => [.simple location action]
  | .choice location branches otherwise =>
    .choice location branches otherwise :: (Branch.parts branches ++ Stmt.partsElse otherwise)
  | .whileLoop location condition body otherwise =>
    .whileLoop location condition body otherwise :: (Stmt.partsAll body ++ Stmt.partsElse otherwise)
  | .forLoop location target iterable body otherwise =>
    .forLoop location target iterable body otherwise ::
      (Stmt.partsAll body ++ Stmt.partsElse otherwise)
  | .attempt location body handlers otherwise cleanup =>
    .attempt location body handlers otherwise cleanup ::
      (Stmt.partsAll body ++ (Handler.parts handlers ++
        (Stmt.partsElse otherwise ++ Stmt.partsElse cleanup)))
  | .functionDef location name parameters body =>
    .functionDef location name parameters body :: Stmt.partsAll body
  | .classDef location name base body => .classDef location name base body :: Stmt.partsAll body

/-- All statements of a program. -/
def Stmt.partsAll : List Stmt → List Stmt
  | [] => []
  | first :: rest => first.parts ++ Stmt.partsAll rest

def Stmt.partsElse : Option (List Stmt) → List Stmt
  | none => []
  | some body => Stmt.partsAll body

def Branch.parts : List Branch → List Stmt
  | [] => []
  | .mk _ _ body :: rest => Stmt.partsAll body ++ Branch.parts rest

def Handler.parts : List Handler → List Stmt
  | [] => []
  | .mk _ _ _ body :: rest => Stmt.partsAll body ++ Handler.parts rest

end

mutual

theorem Stmt.everywhere_iff {property : Stmt → Prop} : (statement : Stmt) →
    (statement.Everywhere property ↔ ∀ part ∈ statement.parts, property part)
  | .simple _ _ => by simp [Stmt.Everywhere, Stmt.parts]
  | .choice _ branches otherwise => by
    simp [Stmt.Everywhere, Stmt.parts, Branch.everywhereAll_iff branches,
      Stmt.everywhereElse_iff otherwise, or_imp, forall_and]
  | .whileLoop _ _ body otherwise => by
    simp [Stmt.Everywhere, Stmt.parts, Stmt.everywhereAll_iff body,
      Stmt.everywhereElse_iff otherwise, or_imp, forall_and]
  | .forLoop _ _ _ body otherwise => by
    simp [Stmt.Everywhere, Stmt.parts, Stmt.everywhereAll_iff body,
      Stmt.everywhereElse_iff otherwise, or_imp, forall_and]
  | .attempt _ body handlers otherwise cleanup => by
    simp [Stmt.Everywhere, Stmt.parts, Stmt.everywhereAll_iff body,
      Handler.everywhereAll_iff handlers, Stmt.everywhereElse_iff otherwise,
      Stmt.everywhereElse_iff cleanup, or_imp, forall_and]
  | .functionDef _ _ _ body => by
    simp [Stmt.Everywhere, Stmt.parts, Stmt.everywhereAll_iff body]
  | .classDef _ _ _ body => by
    simp [Stmt.Everywhere, Stmt.parts, Stmt.everywhereAll_iff body]

/-- A property holds everywhere in a program if all statements of the program have it. -/
theorem Stmt.everywhereAll_iff {property : Stmt → Prop} : (statements : List Stmt) →
    (Stmt.EverywhereAll property statements ↔
      ∀ part ∈ Stmt.partsAll statements, property part)
  | [] => by simp [Stmt.EverywhereAll, Stmt.partsAll]
  | first :: rest => by
    simp [Stmt.EverywhereAll, Stmt.partsAll, Stmt.everywhere_iff first,
      Stmt.everywhereAll_iff rest, or_imp, forall_and]

theorem Stmt.everywhereElse_iff {property : Stmt → Prop} : (block : Option (List Stmt)) →
    (Stmt.EverywhereElse property block ↔ ∀ part ∈ Stmt.partsElse block, property part)
  | none => by simp [Stmt.EverywhereElse, Stmt.partsElse]
  | some body => by simp [Stmt.EverywhereElse, Stmt.partsElse, Stmt.everywhereAll_iff body]

theorem Branch.everywhereAll_iff {property : Stmt → Prop} : (branches : List Branch) →
    (Branch.EverywhereAll property branches ↔ ∀ part ∈ Branch.parts branches, property part)
  | [] => by simp [Branch.EverywhereAll, Branch.parts]
  | .mk _ _ body :: rest => by
    simp [Branch.EverywhereAll, Branch.parts, Stmt.everywhereAll_iff body,
      Branch.everywhereAll_iff rest, or_imp, forall_and]

theorem Handler.everywhereAll_iff {property : Stmt → Prop} : (handlers : List Handler) →
    (Handler.EverywhereAll property handlers ↔ ∀ part ∈ Handler.parts handlers, property part)
  | [] => by simp [Handler.EverywhereAll, Handler.parts]
  | .mk _ _ _ body :: rest => by
    simp [Handler.EverywhereAll, Handler.parts, Stmt.everywhereAll_iff body,
      Handler.everywhereAll_iff rest, or_imp, forall_and]

end

mutual

/-- What holds everywhere in a statement holds everywhere in each of its parts. -/
theorem Stmt.Everywhere.parts {property : Stmt → Prop} : {statement : Stmt} →
    statement.Everywhere property → statement.Everywhere (·.Everywhere property)
  | .simple _ _, everywhere => everywhere
  | .choice _ _ _, everywhere =>
    ⟨everywhere, Branch.EverywhereAll.parts everywhere.2.1,
      Stmt.EverywhereElse.parts everywhere.2.2⟩
  | .whileLoop _ _ _ _, everywhere =>
    ⟨everywhere, Stmt.EverywhereAll.parts everywhere.2.1,
      Stmt.EverywhereElse.parts everywhere.2.2⟩
  | .forLoop _ _ _ _ _, everywhere =>
    ⟨everywhere, Stmt.EverywhereAll.parts everywhere.2.1,
      Stmt.EverywhereElse.parts everywhere.2.2⟩
  | .attempt _ _ _ _ _, everywhere =>
    ⟨everywhere, Stmt.EverywhereAll.parts everywhere.2.1,
      Handler.EverywhereAll.parts everywhere.2.2.1,
      Stmt.EverywhereElse.parts everywhere.2.2.2.1, Stmt.EverywhereElse.parts everywhere.2.2.2.2⟩
  | .functionDef _ _ _ _, everywhere => ⟨everywhere, Stmt.EverywhereAll.parts everywhere.2⟩
  | .classDef _ _ _ _, everywhere => ⟨everywhere, Stmt.EverywhereAll.parts everywhere.2⟩

theorem Stmt.EverywhereAll.parts {property : Stmt → Prop} : {statements : List Stmt} →
    Stmt.EverywhereAll property statements →
    Stmt.EverywhereAll (·.Everywhere property) statements
  | [], _ => trivial
  | _ :: _, everywhere =>
    ⟨Stmt.Everywhere.parts everywhere.1, Stmt.EverywhereAll.parts everywhere.2⟩

theorem Stmt.EverywhereElse.parts {property : Stmt → Prop} : {block : Option (List Stmt)} →
    Stmt.EverywhereElse property block → Stmt.EverywhereElse (·.Everywhere property) block
  | none, _ => trivial
  | some _, everywhere => Stmt.EverywhereAll.parts everywhere

theorem Branch.EverywhereAll.parts {property : Stmt → Prop} : {branches : List Branch} →
    Branch.EverywhereAll property branches →
    Branch.EverywhereAll (·.Everywhere property) branches
  | [], _ => trivial
  | .mk _ _ _ :: _, everywhere =>
    ⟨Stmt.EverywhereAll.parts everywhere.1, Branch.EverywhereAll.parts everywhere.2⟩

theorem Handler.EverywhereAll.parts {property : Stmt → Prop} : {handlers : List Handler} →
    Handler.EverywhereAll property handlers →
    Handler.EverywhereAll (·.Everywhere property) handlers
  | [], _ => trivial
  | .mk _ _ _ _ :: _, everywhere =>
    ⟨Stmt.EverywhereAll.parts everywhere.1, Handler.EverywhereAll.parts everywhere.2⟩

end

theorem Stmt.everywhereAll_of_mem {property : Stmt → Prop} {statements : List Stmt}
    (everywhere : ∀ statement ∈ statements, statement.Everywhere property) :
    Stmt.EverywhereAll property statements := by
  induction statements with
  | nil => trivial
  | cons first rest inductionHypothesis =>
    rw [List.forall_mem_cons] at everywhere
    exact ⟨everywhere.1, inductionHypothesis everywhere.2⟩

/-- What is true of all statements is true of those of a program. -/
theorem Stmt.everywhere_of_forall {property : Stmt → Prop}
    (always : ∀ statement, property statement) (statement : Stmt) :
    statement.Everywhere property :=
  statement.everywhere_iff.mpr fun part _ => always part

theorem Stmt.everywhereAll_of_forall {property : Stmt → Prop}
    (always : ∀ statement, property statement) (statements : List Stmt) :
    Stmt.EverywhereAll property statements :=
  (Stmt.everywhereAll_iff statements).mpr fun part _ => always part

theorem Stmt.EverywhereAll.mono {property weaker : Stmt → Prop} {statements : List Stmt}
    (everywhere : Stmt.EverywhereAll property statements)
    (implies : ∀ statement, property statement → weaker statement) :
    Stmt.EverywhereAll weaker statements :=
  (Stmt.everywhereAll_iff statements).mpr fun part inside =>
    implies part ((Stmt.everywhereAll_iff statements).mp everywhere part inside)

/-! ### Lines of statements -/

/-- The lines that a statement records in exceptions: its own, and those of its conditions and
`except` clauses. The statements of its blocks record their own. -/
def Stmt.headers : Stmt → List Location
  | .choice location branches _ => location :: branches.map Branch.location
  | .attempt location _ handlers _ _ => location :: handlers.map Handler.location
  | statement => [statement.location]

/-- Every line that a statement records has a property. -/
def Stmt.Stands (placed : Location → Prop) (statement : Stmt) : Prop :=
  ∀ location ∈ statement.headers, placed location

theorem Stmt.location_mem_headers (statement : Stmt) : statement.location ∈ statement.headers := by
  cases statement <;> exact List.mem_cons_self

theorem Stmt.stands_of_forall {placed : Location → Prop} (always : ∀ location, placed location)
    (statement : Stmt) : statement.Stands placed :=
  fun location _ => always location

/-! ### The invariant -/

/-- The failure is a broken rule of the interpreter. -/
def Failure.IsInternal : Failure → Prop
  | .internal _ _ => True
  | _ => False

/-- A function whose definition went through the checks of parsing. -/
def Definition.Sound (definition : Definition) : Prop :=
  Block.WellFormedAll .function definition.body ∧ Stmt.SoundAll definition.body

namespace World

/-- Every function on the heap that is written in the language has a property. -/
def Defines (property : Definition → Prop) (world : World) : Prop :=
  ∀ (ref : Ref) (function : Function) (definition : Definition) (closure : Env)
    (defaults : List (String × Ref)), (world.object ref).function = some function →
    function.code = .written definition closure defaults → property definition

/-- Every function on the heap that is written in the language was checked. -/
def Sound (world : World) : Prop :=
  world.Defines Definition.Sound

section Defines

variable {property : Definition → Prop} {before after : World}

theorem Defines.of_objects (defines : before.Defines property)
    (same : after.objects = before.objects) : after.Defines property := by
  intro ref function definition closure defaults found code
  rw [World.object, same] at found
  exact defines ref function definition closure defaults found code

/-- A quiet change brings no new code. -/
theorem Defines.of_quiet (defines : before.Defines property) (quiet : before.Quiet after) :
    after.Defines property := by
  intro ref function definition closure defaults found code
  obtain ⟨earlier, model, known, same⟩ := quiet.code ref function found
  exact defines earlier model definition closure defaults known (same ▸ code)

/-- One more function with the property. -/
theorem Defines.push {object : Object} (defines : before.Defines property)
    (given : ∀ (function : Function) (definition : Definition) (closure : Env)
      (defaults : List (String × Ref)), object.function = some function →
      function.code = .written definition closure defaults → property definition) :
    { before with objects := before.objects.push object }.Defines property := by
  intro ref function definition closure defaults known code
  by_cases last : ref.index = before.objects.size
  · simp only [World.object, Array.getD_eq_getD_getElem?, last, Array.getElem?_push_size,
      Option.getD_some] at known
    exact given function definition closure defaults known code
  · simp only [World.object, Array.getD_eq_getD_getElem?, Array.getElem?_push, if_neg last] at known
    refine defines ref function definition closure defaults ?_ code
    rw [World.object, Array.getD_eq_getD_getElem?]
    exact known

end Defines

/-- A change that concerns neither objects nor source texts nor files: it may change what belongs to
calls, handlers, exceptions and modules. -/
structure Aside (before after : World) : Prop where
  objects : after.objects = before.objects
  sources : after.sources = before.sources
  files : after.host.files = before.host.files

end World

/-- Every file that is a program has only statements of some form. -/
def Files.Fits (fits : Stmt → Prop) (files : Files) : Prop :=
  ∀ (path text : String) (program : List Stmt), files.read path = .ok text →
    Program.parse path text = .ok program → Stmt.EverywhereAll fits program

/-- All code that a run may come to has only statements of some form. -/
structure World.Fits (fits : Stmt → Prop) (world : World) : Prop where
  functions : world.Defines fun definition => Stmt.EverywhereAll fits definition.body
  files : world.host.files.Fits fits

/-- The lines of the source texts that were loaded, by file. -/
abbrev Sources := List (String × List String)

/-- What is followed along a run of code with statements of some form: a property of the source
texts that were loaded, and the failures that may then end a step. Only a text that is refused may
end it without the property, and then no cleanup is to go on after it. -/
structure Watch where
  fits : Stmt → Prop
  holds : Sources → Prop
  allows : Failure → Sources → Prop
  parsed : ∀ {world : World} {file text : String} {program : List Stmt}, holds world.sources →
    Program.parse file text = .ok program → holds (world.rememberSource file text).sources
  refused : ∀ {world : World} {file text : String} {error : SourceError}, holds world.sources →
    Program.parse file text = .error error →
    allows (.source error) (world.rememberSource file text).sources
  other : ∀ {failure : Failure} {sources : Sources}, holds sources →
    (∀ error, failure ≠ .source error) → allows failure sources
  caught : ∀ {id : RaisedId} {sources : Sources},
    allows (.raised id) sources → holds sources
  cleanup : ∀ {location : Location} {body : List Stmt} {handlers : List Handler}
    {otherwise : Option (List Stmt)} {block : List Stmt},
    fits (.attempt location body handlers otherwise (some block)) →
    ∀ (failure : Failure) (sources : Sources),
      allows failure sources ↔ holds sources

/-- Nothing is watched. -/
def Watch.idle : Watch where
  fits _ := True
  holds _ := True
  allows _ _ := True
  parsed _ _ := trivial
  refused _ _ := trivial
  other _ _ := trivial
  caught _ := trivial
  cleanup _ _ _ := Iff.rfl

section Kept

variable {watch : Watch}

/-- What holds between the steps of a run that is watched. -/
structure World.Kept (watch : Watch) (world : World) : Prop where
  sound : world.Sound
  fits : world.Fits watch.fits
  watched : watch.holds world.sources

/-- What holds when a step of a run that is watched has failed. -/
structure World.Failed (watch : Watch) (failure : Failure) (world : World) : Prop where
  sound : world.Sound
  fits : world.Fits watch.fits
  watched : watch.allows failure world.sources
  within : ¬ failure.IsInternal

/-- Functions stay checked, and no rule of the interpreter is broken. -/
def soundness (watch : Watch) : Rule where
  holds := World.Kept watch
  allows := World.Failed watch

namespace World

variable {failure : Failure} {before after : World}

theorem Fits.of_quiet {fits : Stmt → Prop} (given : before.Fits fits)
    (quiet : before.Quiet after) : after.Fits fits :=
  ⟨given.functions.of_quiet quiet, quiet.files ▸ given.files⟩

theorem Fits.of_aside {fits : Stmt → Prop} (given : before.Fits fits)
    (aside : before.Aside after) : after.Fits fits :=
  ⟨given.functions.of_objects aside.objects, aside.files ▸ given.files⟩

theorem Kept.of_quiet (kept : before.Kept watch) (quiet : before.Quiet after) :
    after.Kept watch :=
  ⟨kept.sound.of_quiet quiet, kept.fits.of_quiet quiet, quiet.sources ▸ kept.watched⟩

theorem Kept.of_aside (kept : before.Kept watch) (aside : before.Aside after) :
    after.Kept watch :=
  ⟨kept.sound.of_objects aside.objects, kept.fits.of_aside aside, aside.sources ▸ kept.watched⟩

theorem Failed.of_quiet (failed : before.Failed watch failure) (quiet : before.Quiet after) :
    after.Failed watch failure :=
  ⟨failed.sound.of_quiet quiet, failed.fits.of_quiet quiet, quiet.sources ▸ failed.watched,
    failed.within⟩

theorem Failed.of_aside (failed : before.Failed watch failure) (aside : before.Aside after) :
    after.Failed watch failure :=
  ⟨failed.sound.of_objects aside.objects, failed.fits.of_aside aside,
    aside.sources ▸ failed.watched, failed.within⟩

/-- A failure that is no refused text does no harm to what is watched. -/
theorem Kept.failed {world : World} (kept : world.Kept watch) (within : ¬ failure.IsInternal)
    (other : ∀ error, failure ≠ .source error) : world.Failed watch failure :=
  ⟨kept.sound, kept.fits, watch.other kept.watched other, within⟩

/-- A text that parses is one more text like those that were loaded. -/
theorem Kept.remembered {world : World} {file text : String} {program : List Stmt}
    (kept : world.Kept watch) (parsed : Program.parse file text = .ok program) :
    (world.rememberSource file text).Kept watch :=
  ⟨kept.sound.of_objects rfl, ⟨kept.fits.functions.of_objects rfl, kept.fits.files⟩,
    watch.parsed kept.watched parsed⟩

theorem Kept.refused {world : World} {file text : String} {error : SourceError}
    (kept : world.Kept watch) (refused : Program.parse file text = .error error) :
    (world.rememberSource file text).Failed watch (.source error) :=
  ⟨kept.sound.of_objects rfl, ⟨kept.fits.functions.of_objects rfl, kept.fits.files⟩,
    watch.refused kept.watched refused, id⟩

theorem Kept.raised {world : World} (kept : world.Kept watch) (id : RaisedId) :
    world.Failed watch (.raised id) := by
  refine kept.failed (fun impossible => impossible) fun error same => ?_
  cases same

theorem Kept.fatal {world : World} {failure : Failure} (kept : world.Kept watch)
    (fatal : failure.isFatal) : world.Failed watch failure := by
  refine kept.failed (fun internal => ?_) fun error same => ?_
  · cases failure with
    | internal => cases fatal
    | _ => exact internal
  · subst same
    cases fatal

/-- Without a watch it only matters that the functions were checked. -/
theorem Sound.kept {world : World} (sound : world.Sound) : world.Kept .idle where
  sound := sound
  fits := by
    refine ⟨fun _ _ definition _ _ _ _ => ?_, fun _ _ program _ _ => ?_⟩
    · exact Stmt.everywhereAll_of_forall (fun _ => trivial) definition.body
    · exact Stmt.everywhereAll_of_forall (fun _ => trivial) program
  watched := trivial

theorem Failed.caught {world : World} {id : RaisedId} (failed : world.Failed watch (.raised id)) :
    world.Kept watch :=
  ⟨failed.sound, failed.fits, watch.caught failed.watched⟩

end World

end Kept

end Offside
