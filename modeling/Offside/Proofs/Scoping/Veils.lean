/-
This file is about what the functions of a program can see. A function keeps the scope that
it is defined in, less the bodies of classes around it. That this leaves no class body at all
is not said by the function alone: only the innermost frames are left out, so the body of a
class must never stand further out.

A flag on a frame would say little if its table could be reached by another frame, so tables
are followed as well. A veil hides some tables from functions. When the body of a class
begins, its new table is hidden, and it stays hidden whatever is run from then on.
-/

import Offside.Eval.Interpreter
import Offside.Proofs.Conduct.Basic

namespace Offside

/-! ### Closures -/

/-- The scopes that functions written in the language keep have a property. -/
def World.Closes (property : Env → Prop) (world : World) : Prop :=
  ∀ (ref : Ref) (function : Function) (definition : Definition) (closure : Env)
    (defaults : List (String × Ref)), (world.object ref).function = some function →
    function.code = .written definition closure defaults → property closure

theorem World.Closes.mono {property weaker : Env → Prop} {world : World}
    (closes : world.Closes property) (implies : ∀ closure, property closure → weaker closure) :
    world.Closes weaker :=
  fun ref function definition closure defaults found code =>
    implies closure (closes ref function definition closure defaults found code)

theorem World.Closes.of_quiet {property : Env → Prop} {before after : World}
    (closes : before.Closes property) (quiet : before.Quiet after) : after.Closes property := by
  intro ref function definition closure defaults found code
  obtain ⟨earlier, model, known, same⟩ := quiet.code ref function found
  exact closes earlier model definition closure defaults known (same ▸ code)

/-- Nothing but the objects says what functions keep. -/
theorem World.Closes.of_objects {property : Env → Prop} {before after : World}
    (closes : before.Closes property) (same : after.objects = before.objects) :
    after.Closes property := by
  intro ref function definition closure defaults found code
  rw [object, same] at found
  exact closes ref function definition closure defaults found code

theorem World.Closes.push {property : Env → Prop} {world : World} (closes : world.Closes property)
    {new : Object}
    (newCloses : ∀ function definition closure defaults, new.function = some function →
      function.code = .written definition closure defaults → property closure) :
    World.Closes property { world with objects := world.objects.push new } := by
  intro ref function definition closure defaults found code
  by_cases last : ref.index = world.objects.size
  · refine newCloses function definition closure defaults ?_ code
    simpa [object, Array.getElem?_push, last] using found
  · refine closes ref function definition closure defaults ?_ code
    simpa [object, Array.getElem?_push, last] using found

/-! ### Veils -/

/-- Tables that functions are not to see. Those that are not made yet are not among them. -/
structure Veil where
  hides : SpaceId → Prop
  /-- How many tables there are at least. -/
  count : Nat
  bounded : ∀ space, hides space → space.index < count
  builtins : builtinsSpace.index < count ∧ ¬ hides builtinsSpace

namespace Veil

/-- The same veil when more tables are made. -/
def later (veil : Veil) (count : Nat) (more : veil.count ≤ count) : Veil where
  hides := veil.hides
  count := count
  bounded space hidden := (veil.bounded space hidden).trans_le more
  builtins := ⟨veil.builtins.1.trans_le more, veil.builtins.2⟩

/-- The next table that is made is hidden as well. -/
def hideNext (veil : Veil) : Veil where
  hides space := veil.hides space ∨ space.index = veil.count
  count := veil.count + 1
  bounded space hidden := by
    obtain hidden | same := hidden
    · exact (veil.bounded space hidden).trans (Nat.lt_succ_self _)
    · exact same ▸ Nat.lt_succ_self _
  builtins := ⟨veil.builtins.1.trans (Nat.lt_succ_self _), fun hidden =>
    hidden.elim veil.builtins.2 (Nat.ne_of_lt veil.builtins.1)⟩

/-- A function may see the frame: it is of no class body, and its table is one of the first few and
not hidden. -/
structure Shows (veil : Veil) (count : Nat) (frame : Frame) : Prop where
  scope : frame.isClassBody = false
  shown : ¬ veil.hides frame.space
  there : frame.space.index < count

theorem Shows.mono {veil : Veil} {count more : Nat} {frame : Frame} (seen : veil.Shows count frame)
    (le : count ≤ more) : veil.Shows more frame :=
  ⟨seen.scope, seen.shown, seen.there.trans_le le⟩

theorem Shows.later {veil : Veil} {count made : Nat} {frame : Frame} (seen : veil.Shows made frame)
    (more : veil.count ≤ count) : (veil.later count more).Shows made frame :=
  ⟨seen.scope, seen.shown, seen.there⟩

/-- A table that was there before is not the next one. -/
theorem Shows.hideNext {veil : Veil} {frame : Frame} (seen : veil.Shows veil.count frame) :
    veil.hideNext.Shows veil.hideNext.count frame where
  scope := seen.scope
  shown hidden := hidden.elim seen.shown (Nat.ne_of_lt seen.there)
  there := seen.there.trans (Nat.lt_succ_self _)

/-- Functions see nothing that is hidden. -/
structure Covers (veil : Veil) (world : World) : Prop where
  made : veil.count ≤ world.spaces.size
  closures : world.Closes fun closure => ∀ frame ∈ closure, veil.Shows world.spaces.size frame

/-- Statements may run in the scope: a function that is defined there will see nothing that is
hidden. -/
structure Admits (veil : Veil) (env : Env) : Prop where
  nonempty : env ≠ []
  closure : ∀ frame ∈ env.closure, veil.Shows veil.count frame

/-- A step keeps what is hidden out of sight, however it ends. -/
def Keeps {α : Type} (veil : Veil) (step : Exec α) : Prop :=
  ∀ world, veil.Covers world → veil.Covers (World.leftBy (step world))

variable {veil : Veil} {world after : World}

/-! #### Scopes of statements -/

theorem admits_moduleEnv {space : SpaceId} (shown : ¬ veil.hides space)
    (there : space.index < veil.count) : veil.Admits (moduleEnv space) where
  nonempty := List.cons_ne_nil _ _
  closure := by
    intro frame inside
    obtain rfl | inside := List.mem_cons.mp inside
    · exact ⟨rfl, shown, there⟩
    · obtain rfl := List.mem_singleton.mp inside
      exact ⟨rfl, veil.builtins.2, veil.builtins.1⟩

/-- The frame of a call stands on the scope that the function keeps. -/
theorem admits_call {space : SpaceId} {closure : Env} (name : String)
    (shown : ¬ veil.hides space) (there : space.index < veil.count)
    (closureShown : ∀ frame ∈ closure, veil.Shows veil.count frame) :
    veil.Admits (⟨space, name, false⟩ :: closure) where
  nonempty := List.cons_ne_nil _ _
  closure := by
    have same : Env.closure (⟨space, name, false⟩ :: closure) = ⟨space, name, false⟩ :: closure := by
      cases closure <;> rfl
    rw [same]
    exact List.forall_mem_cons.mpr ⟨⟨rfl, shown, there⟩, closureShown⟩

theorem Admits.later {env : Env} (admits : veil.Admits env) {count : Nat}
    (more : veil.count ≤ count) : (veil.later count more).Admits env :=
  ⟨admits.nonempty, fun frame inside => ((admits.closure frame inside).mono more).later more⟩

/-- Other scopes go on as they were when the body of a class begins. -/
theorem Admits.hideNext {env : Env} (admits : veil.Admits env) : veil.hideNext.Admits env :=
  ⟨admits.nonempty, fun frame inside => (admits.closure frame inside).hideNext⟩

/-- What is defined in the body of a class sees what the class sees. -/
theorem Admits.classBody {env : Env} (admits : veil.Admits env) (name : String) :
    veil.hideNext.Admits (⟨⟨veil.count⟩, name, true⟩ :: env) where
  nonempty := List.cons_ne_nil _ _
  closure := by
    obtain ⟨frame, outer, rfl⟩ := List.exists_cons_of_ne_nil admits.nonempty
    exact admits.hideNext.closure

/-! #### Worlds behind a veil -/

theorem Covers.later (covers : veil.Covers world) {count : Nat} (more : veil.count ≤ count)
    (made : count ≤ world.spaces.size) : (veil.later count more).Covers world :=
  ⟨made, covers.closures.mono fun _ shown frame inside => (shown frame inside).later more⟩

/-- What is hidden later is hidden now. -/
theorem Covers.of_later {count : Nat} {more : veil.count ≤ count}
    (covers : (veil.later count more).Covers world) : veil.Covers world :=
  ⟨more.trans covers.made, covers.closures.mono fun _ shown frame inside =>
    ⟨(shown frame inside).scope, (shown frame inside).shown, (shown frame inside).there⟩⟩

theorem Covers.of_hideNext (covers : veil.hideNext.Covers world) : veil.Covers world :=
  ⟨(Nat.le_succ _).trans covers.made, covers.closures.mono fun _ shown frame inside =>
    ⟨(shown frame inside).scope, fun hidden => (shown frame inside).shown (.inl hidden),
      (shown frame inside).there⟩⟩

theorem Covers.of_quiet (covers : veil.Covers world) (quiet : world.Quiet after) :
    veil.Covers after where
  made := covers.made.trans quiet.lasts.spaces
  closures := (covers.closures.of_quiet quiet).mono fun _ shown frame inside =>
    (shown frame inside).mono quiet.lasts.spaces

/-- A change that makes no code and takes away no table. -/
theorem Covers.of_objects (covers : veil.Covers world) (same : after.objects = world.objects)
    (tables : world.spaces.size ≤ after.spaces.size) : veil.Covers after where
  made := covers.made.trans tables
  closures := (covers.closures.of_objects same).mono fun _ shown frame inside =>
    (shown frame inside).mono tables

/-- A table that is made from now on is not hidden. -/
theorem not_hides {space : SpaceId} (later : veil.count ≤ space.index) : ¬ veil.hides space :=
  fun hidden => absurd later (Nat.not_le_of_lt (veil.bounded space hidden))

theorem Covers.pushSpace (covers : veil.Covers world) (table : Namespace)
    (more : veil.count ≤ world.spaces.size + 1) :
    (veil.later (world.spaces.size + 1) more).Covers
      { world with spaces := world.spaces.push table } := by
  have there : veil.Covers { world with spaces := world.spaces.push table } :=
    covers.of_objects rfl (by simp)
  exact there.later more (by simp)

/-- A new table is in no scope that a function keeps, so it can be hidden from the start. -/
theorem Covers.pushHidden (covers : veil.Covers world) (table : Namespace) :
    (veil.later world.spaces.size covers.made).hideNext.Covers
      { world with spaces := world.spaces.push table } where
  made := by simp [hideNext, Veil.later]
  closures := (covers.closures.of_objects rfl).mono fun _ shown frame inside => by
    have earlier : (veil.later world.spaces.size covers.made).Shows
        (veil.later world.spaces.size covers.made).count frame :=
      (shown frame inside).later covers.made
    simpa [Veil.hideNext, Veil.later] using earlier.hideNext

/-! #### Steps -/

section Steps

variable {α β : Type}

theorem Keeps.of_ok {step : Exec α} (keeps : veil.Keeps step) {value : α}
    (done : step world = .ok value after) (covers : veil.Covers world) : veil.Covers after := by
  have kept := keeps world covers
  rwa [done] at kept

theorem Keeps.of_error {step : Exec α} (keeps : veil.Keeps step) {failure : Failure}
    (failed : step world = .error failure after) (covers : veil.Covers world) :
    veil.Covers after := by
  have kept := keeps world covers
  rwa [failed] at kept

theorem keeps_pure (value : α) : veil.Keeps (pure value) :=
  fun _ covers => covers

theorem keeps_throw (failure : Failure) : veil.Keeps (throw failure : Exec α) :=
  fun _ covers => covers

theorem Keeps.bind {step : Exec α} {next : α → Exec β} (keeps : veil.Keeps step)
    (nextKeeps : ∀ value, veil.Keeps (next value)) : veil.Keeps (step >>= next) := by
  intro world covers
  cases done : step world with
  | ok value after =>
    rw [Exec.bind_of_ok done]
    exact nextKeeps value after (keeps.of_ok done covers)
  | error failure after =>
    rw [Exec.bind_of_error done]
    exact keeps.of_error done covers

theorem keeps_read {view : World → α} {next : α → Exec β}
    (nextKeeps : ∀ value, veil.Keeps (next value)) : veil.Keeps (Exec.read view >>= next) :=
  fun world => nextKeeps (view world) world

theorem keeps_change {step : World → World} (same : ∀ world, (step world).objects = world.objects)
    (tables : ∀ world, world.spaces.size ≤ (step world).spaces.size) :
    veil.Keeps (Exec.change step) :=
  fun world covers => covers.of_objects (same world) (tables world)

/-- The one step that puts new code on the heap. -/
theorem keeps_alloc {object : Object}
    (shown : ∀ function definition closure defaults, object.function = some function →
      function.code = .written definition closure defaults →
      ∀ frame ∈ closure, veil.Shows veil.count frame) : veil.Keeps (Exec.alloc object) := by
  intro world covers
  refine ⟨covers.made, covers.closures.push fun function definition closure defaults known code => ?_⟩
  exact fun frame inside =>
    (shown function definition closure defaults known code frame inside).mono covers.made

theorem Keeps.tryCatch {step : Exec α} {handler : Failure → Exec α} (keeps : veil.Keeps step)
    (handlerKeeps : ∀ failure, veil.Keeps (handler failure)) :
    veil.Keeps (tryCatch step handler : Exec α) := by
  intro world covers
  cases done : step world with
  | ok value after =>
    rw [Exec.tryCatch_ok done]
    exact keeps.of_ok done covers
  | error failure after =>
    rw [Exec.tryCatch_error done]
    exact handlerKeeps failure after (keeps.of_error done covers)

theorem Keeps.thenAlways {step : Exec α} (keeps : veil.Keeps step) {last : World → World}
    (same : ∀ world, (last world).objects = world.objects)
    (tables : ∀ world, world.spaces.size ≤ (last world).spaces.size) :
    veil.Keeps (Exec.thenAlways step last) := by
  intro world covers
  unfold Exec.thenAlways
  cases done : step world with
  | ok value after => exact (keeps.of_ok done covers).of_objects (same after) (tables after)
  | error failure after => exact (keeps.of_error done covers).of_objects (same after) (tables after)

theorem Keeps.settle {step : Exec α} (keeps : veil.Keeps step) : veil.Keeps (Exec.settle step) := by
  intro world covers
  cases done : step world with
  | ok value after =>
    rw [Exec.settle_ok done]
    exact keeps.of_ok done covers
  | error failure after =>
    rw [Exec.settle_error done]
    split <;> exact keeps.of_error done covers

theorem Keeps.traced {step : Exec α} (keeps : veil.Keeps step) (location : Location) (env : Env) :
    veil.Keeps (Exec.traced location env step) := by
  refine keeps.tryCatch fun failure => ?_
  cases failure with
  | raised id =>
    have recorded : veil.Keeps (Exec.addTrace id location env.label) :=
      keeps_change (fun _ => rfl) fun _ => Nat.le_refl _
    exact recorded.bind fun _ => keeps_throw _
  | _ => exact keeps_throw _

theorem keeps_release (outcome : Except Failure α) : veil.Keeps (Exec.release outcome) := by
  cases outcome with
  | ok value => exact keeps_pure value
  | error failure => exact keeps_throw failure

theorem keeps_forM {step : α → Exec PUnit} (elements : List α)
    (keeps : ∀ element, veil.Keeps (step element)) : veil.Keeps (elements.forM step) := by
  induction elements with
  | nil => exact keeps_pure _
  | cons element rest inductionHypothesis => exact (keeps element).bind fun _ => inductionHypothesis

theorem keeps_repeatUntil {σ : Type} {round : σ → Exec (Except σ α)}
    (keeps : ∀ state, veil.Keeps (round state)) (budget : Nat) (state : σ) :
    veil.Keeps (Exec.repeatUntil round budget state) := by
  induction budget generalizing state with
  | zero => exact keeps_throw _
  | succ budget inductionHypothesis =>
    refine (keeps state).bind fun outcome => ?_
    cases outcome with
    | ok result => exact keeps_pure result
    | error state => exact inductionHypothesis state

/-- A step that makes the table of a class body, which is hidden from then on. -/
theorem keeps_newSpace {table : Namespace} {next : SpaceId → Exec α}
    (nextKeeps : ∀ count more, (veil.later count more).hideNext.Keeps (next ⟨count⟩)) :
    veil.Keeps (Exec.newSpace table >>= next) :=
  fun _ covers => (nextKeeps _ covers.made _ (covers.pushHidden table)).of_hideNext.of_later

/-- A step that makes the table of any other frame. -/
theorem keeps_newFrame {table : Namespace} {next : SpaceId → Exec α}
    (nextKeeps : ∀ count more, veil.count ≤ count →
      (veil.later (count + 1) more).Keeps (next ⟨count⟩)) :
    veil.Keeps (Exec.newSpace table >>= next) :=
  fun _ covers => (nextKeeps _ (covers.made.trans (Nat.le_succ _)) covers.made _
    (covers.pushSpace table _)).of_later

end Steps

end Veil

end Offside
