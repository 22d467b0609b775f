/-
This file follows what runs do to modules. Almost everything that a run does has nothing
to do with them: the registry stays as it is, and no name is announced. Such a change is
calm. A course is a relation between the world before and the world after that goes on
from step to step and that calm changes keep to. Then only imports have to be looked at:
if they keep to a course when the machine does, every run keeps to it, because for all
else a course is a trail.

It does not matter how a step ends. A failure may be caught, so what is known of the world
after a step has to be known after a failure as well.
-/

import Offside.Proofs.Passage.Trail

namespace Offside

/-! ### Courses -/

/-- A change that concerns no module. -/
structure World.Calm (before after : World) : Prop where
  lasts : before.Lasts after
  registry : after.registry = before.registry
  pending : ∀ (space : SpaceId) (name : String), after.isPending space name = true →
    before.isPending space name = true
  tabled : before.ModulesTabled → after.ModulesTabled

theorem World.Calm.of_same {before after : World} (registry : after.registry = before.registry)
    (objects : after.objects = before.objects) (spaces : after.spaces = before.spaces) :
    before.Calm after := by
  refine ⟨.of_same objects spaces, registry, fun space name => ?_, fun tabled => ?_⟩
  · rw [isPending, namespaceAt, spaces]
    exact id
  · exact tabled.of_same objects (congrArg _ spaces.symm).le

/-- An object that is no module may come with new code. -/
theorem World.calm_push (world : World) {object : Object}
    (other : object.class_ ≠ BuiltinClass.moduleType.ref) :
    world.Calm { world with objects := world.objects.push object } :=
  ⟨.push world object, rfl, fun _ _ => id, fun tabled => tabled.push fun _ isModule =>
    absurd isModule other⟩

theorem World.Calm.not_pending {before after : World} (calm : before.Calm after) {space : SpaceId}
    {name : String} (settled : before.isPending space name = false) :
    after.isPending space name = false := by
  rw [← Bool.not_eq_true] at settled ⊢
  exact fun waits => settled (calm.pending space name waits)

theorem World.Quiet.calm {before after : World} (quiet : before.Quiet after) :
    before.Calm after :=
  ⟨quiet.lasts, quiet.registry, quiet.pending, quiet.tabled⟩

theorem World.calm_link (world : World) (id below : RaisedId) :
    world.Calm (world.link id below) := by
  unfold World.link
  split <;> exact .of_same rfl rfl rfl

/-- A relation between the world before and the world after that goes on from step to step. -/
structure Course where
  leads : World → World → Prop
  refl : ∀ world, leads world world
  trans : ∀ {before middle after}, leads before middle → leads middle after → leads before after
  calm : ∀ {before after : World}, before.Calm after → leads before after

namespace Course

open Exec

variable (course : Course)

/-- However a step ends, the world after it is one that the course leads to. -/
def Follows {α : Type} (step : Exec α) : Prop :=
  ∀ world, course.leads world (World.leftBy (step world))

variable {course} {α β : Type}

theorem Follows.of_ok {step : Exec α} (follows : course.Follows step) {world after : World}
    {value : α} (done : step world = .ok value after) : course.leads world after := by
  have led := follows world
  rwa [done] at led

theorem Follows.of_error {step : Exec α} (follows : course.Follows step) {world after : World}
    {failure : Failure} (failed : step world = .error failure after) :
    course.leads world after := by
  have led := follows world
  rwa [failed] at led

theorem follows_pure (value : α) : course.Follows (pure value) :=
  course.refl

theorem follows_throw (failure : Failure) : course.Follows (throw failure : Exec α) :=
  course.refl

theorem follows_bind {step : Exec α} {next : α → Exec β} (follows : course.Follows step)
    (nextFollows : ∀ value, course.Follows (next value)) : course.Follows (step >>= next) := by
  intro world
  cases done : step world with
  | ok value after =>
    rw [bind_of_ok done]
    exact course.trans (follows.of_ok done) (nextFollows value after)
  | error failure after =>
    rw [bind_of_error done]
    exact follows.of_error done

theorem follows_read {view : World → α} {next : α → Exec β}
    (nextFollows : ∀ value, course.Follows (next value)) :
    course.Follows (read view >>= next) :=
  fun world => nextFollows (view world) world

theorem follows_change {step : World → World} (calm : ∀ world : World, world.Calm (step world)) :
    course.Follows (change step) :=
  fun world => course.calm (calm world)

theorem follows_tryCatch {step : Exec α} {handler : Failure → Exec α}
    (follows : course.Follows step) (handlerFollows : ∀ failure, course.Follows (handler failure)) :
    course.Follows (tryCatch step handler : Exec α) := by
  intro world
  cases done : step world with
  | ok value after =>
    rw [tryCatch_ok done]
    exact follows.of_ok done
  | error failure after =>
    rw [tryCatch_error done]
    exact course.trans (follows.of_error done) (handlerFollows failure after)

theorem follows_attempt {step : Exec α} (follows : course.Follows step) :
    course.Follows (attempt step) :=
  follows_tryCatch (follows_bind follows fun _ => follows_pure _) fun _ => follows_pure _

theorem follows_traced {step : Exec α} (follows : course.Follows step) (location : Location)
    (env : Env) : course.Follows (traced location env step) := by
  refine follows_tryCatch follows fun failure => ?_
  cases failure with
  | raised id =>
    exact follows_bind (follows_change fun _ => .of_same rfl rfl rfl) fun _ => follows_throw _
  | _ => exact follows_throw _

theorem follows_forM {step : α → Exec PUnit} (elements : List α)
    (follows : ∀ element ∈ elements, course.Follows (step element)) :
    course.Follows (elements.forM step) := by
  induction elements with
  | nil => exact follows_pure _
  | cons element rest inductionHypothesis =>
    rw [List.forall_mem_cons] at follows
    exact follows_bind follows.1 fun _ => inductionHypothesis follows.2

/-! ### Courses as trails -/

/-- A course does not mind what a run does to exceptions, calls and code. -/
def trail (course : Course) : Trail where
  leads := course.leads
  refl := course.refl
  trans := course.trans
  quiet quiet := course.calm quiet.calm
  recording _ _ _ := course.calm (.of_same rfl rfl rfl)
  linking world id below := course.calm (world.calm_link id below)
  handled {world after id} led := by
    have handles : world.Calm { world with handling := some id } := .of_same rfl rfl rfl
    have restores : after.Calm { after with handling := world.handling } := .of_same rfl rfl rfl
    exact course.trans (course.calm handles) (course.trans led (course.calm restores))
  called {world after} _ led := by
    have enters : world.Calm (world.enterCall.noteCall .entered) := .of_same rfl rfl rfl
    have leaves : after.Calm (after.leaveCall.noteCall .left) := .of_same rfl rfl rfl
    exact course.trans (course.calm enters) (course.trans led (course.calm leaves))
  defining world _ isFunction := by
    refine course.calm (world.calm_push ?_)
    rw [isFunction]
    decide
  loading _ _ _ := course.calm (.of_same rfl rfl rfl)

theorem Follows.ends {step : Exec α} (follows : course.Follows step) (world : World) :
    course.trail.passage.Ends course.trail.passage.raised world (step world) := by
  cases done : step world with
  | ok value after => exact .ok (follows.of_ok done)
  | error failure after =>
    refine .error (follows.of_error done) ?_
    cases failure <;> trivial

end Course

/-! ### Machines -/

/-- The calls and runs of a machine keep to a course. -/
structure Machine.Follows (machine : Machine) (course : Course) : Prop where
  call : ∀ callee arguments named, course.Follows (machine.call callee arguments named)
  run : ∀ statements env, course.Follows (machine.run statements env)

/-- Imports keep to a course when the machine does. -/
structure Course.CoversImports (course : Course) : Prop where
  load : ∀ {machine : Machine}, machine.Follows course →
    ∀ name directory, course.Follows (Exec.load machine name directory)
  importModule : ∀ {machine : Machine}, machine.Follows course →
    ∀ env location path newName,
      course.Follows (Exec.importModule machine env location path newName)
  importNames : ∀ {machine : Machine}, machine.Follows course →
    ∀ env location path names, course.Follows (Exec.importNames machine env location path names)

theorem Machine.Keeps.follows {course : Course} {machine : Machine}
    (keeps : machine.Keeps course.trail.passage) : machine.Follows course where
  call callee arguments named _ := (keeps.call callee arguments named trivial).leftBy
  run statements env _ := (keeps.run env trivial
    (Stmt.everywhereAll_of_forall (Stmt.stands_of_forall fun _ => trivial) statements)).leftBy

theorem Course.CoversImports.passage {course : Course} (imports : course.CoversImports) :
    course.trail.passage.CoversImports where
  importModule keeps env location path newName world _ _ :=
    (imports.importModule keeps.follows env location path newName).ends world
  importNames keeps env location path names world _ _ :=
    (imports.importNames keeps.follows env location path names).ends world

namespace Machine.Follows

open Exec Course

variable {course : Course} {machine : Machine} (follows : machine.Follows course)

theorem follows_alloc {object : Object} (other : object.class_ ≠ BuiltinClass.moduleType.ref) :
    course.Follows (alloc object) :=
  fun world => course.calm (world.calm_push other)

include follows

theorem keeps : machine.Keeps course.trail.passage where
  call callee arguments named world _ := (follows.call callee arguments named).ends world
  run env world _ _ := (follows.run _ env).ends world

/-- What keeps to every conduct keeps to the course. -/
theorem of_obeys {α : Type} {step : Exec α}
    (obeys : ∀ origin, (follows.keeps.conduct origin).Obeys step) : course.Follows step :=
  fun _ => (follows.keeps.ends_of_obeys trivial obeys).leftBy

theorem follows_complain {α : Type} (complaint : Complaint) :
    course.Follows (complain complaint : Exec α) :=
  fun _ => (follows.keeps.ends_complain trivial complaint).leftBy

theorem follows_newComplaint (complaint : Complaint) :
    course.Follows (newComplaint complaint) := by
  intro world
  have ended : course.trail.passage.Ends course.trail.passage.raised world _ :=
    follows.keeps.ends_newComplaint trivial complaint
  exact ended.leftBy

theorem follows_runPath (path : String) (space : SpaceId) :
    course.Follows (runPath machine path space) :=
  fun _ => (follows.keeps.ends_runPath trivial path space).leftBy

theorem follows_startText (file text : String) :
    course.Follows (startText machine file text) := by
  intro world
  obtain ⟨outcome, after, done, led, -⟩ :=
    follows.keeps.startText_spec trivial (trivial : course.trail.passage.given file text)
  rw [done]
  exact led

theorem follows_startImport (imports : course.CoversImports) (name : String) :
    course.Follows (startImport machine name) := by
  refine follows_bind (follows_attempt (imports.load follows name ".")) fun ended => ?_
  split
  · exact follows_read fun object => follows_pure _
  · exact follows_bind (follows.follows_newComplaint _) fun id => follows_pure _
  · exact follows_pure _

theorem follows_report (failure : Failure) : course.Follows (report machine failure) :=
  fun _ => (follows.keeps.ends_report trivial failure).leftBy

end Machine.Follows

/-! ### Calm steps -/

/-- Nothing concerns modules. -/
def Course.still : Course where
  leads := World.Calm
  refl _ := .of_same rfl rfl rfl
  trans first last := ⟨first.lasts.trans last.lasts, last.registry.trans first.registry,
    fun space name waits => first.pending space name (last.pending space name waits),
    last.tabled ∘ first.tabled⟩
  calm calm := calm

/-! ### Runs -/

/-- A machine without fuel does nothing at all. -/
theorem Machine.zero_follows (course : Course) : (Machine.ofFuel 0).Follows course :=
  ⟨fun _ _ _ => Course.follows_throw _, fun _ _ => Course.follows_throw _⟩

/-- What keeps to every conduct is calm. -/
theorem Course.still_of_obeys {α : Type} {step : Exec α}
    (obeys : ∀ conduct : Conduct (Machine.ofFuel 0), conduct.Obeys step) :
    Course.still.Follows step :=
  (Machine.zero_follows Course.still).of_obeys fun _ => obeys _

/-- A calm step keeps to every course. -/
theorem Course.Follows.of_still {α : Type} {course : Course} {step : Exec α}
    (still : Course.still.Follows step) : course.Follows step :=
  fun world => course.calm (still world)

/-- Every run keeps to a course if imports do. -/
theorem Machine.ofFuel_follows {course : Course} (imports : course.CoversImports) (fuel : Nat) :
    (Machine.ofFuel fuel).Follows course :=
  (Machine.ofFuel_keeps imports.passage fuel).follows

end Offside
