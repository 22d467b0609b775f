/-
This file says what reading a name gives while it is pending. A scope takes notice of it: where
the first table that knows the name has it pending, the name is an import error, even if the
table still binds it to an earlier value. The other ways to a table do not look at what is
pending. An attribute of a module and a name in an import from a module give what the table
binds. Where it binds nothing they fail as they do for any name that is missing: the one with
an attribute error, the other with an import error. An import from a module that has not
finished itself reads nothing, and only makes its own names pending.
-/

import Offside.Proofs.Raising
import Offside.Proofs.Modules.Deferring

namespace Offside

/-! ### Scopes -/

/-- The table is the first one of the scope that knows the name. -/
def World.Nearest (world : World) (env : Env) (space : SpaceId) (name : String) : Prop :=
  ∃ (inner : Env) (frame : Frame) (outer : Env), env = inner ++ frame :: outer ∧
    frame.space = space ∧
    (∀ other ∈ inner, (world.namespaceAt other.space).meaning? name = none) ∧
    (world.namespaceAt space).meaning? name ≠ none

theorem World.Nearest.meaning {world : World} {env : Env} {space : SpaceId} {name : String}
    (nearest : world.Nearest env space name) (waits : world.isPending space name = true) :
    world.meaning env name = .pending := by
  obtain ⟨inner, frame, outer, rfl, rfl, unknown, -⟩ := nearest
  have here : (world.namespaceAt frame.space).meaning? name = some .pending :=
    if_pos waits
  rw [World.meaning, List.findSome?_append, List.findSome?_eq_none_iff.mpr unknown,
    Option.none_or, List.findSome?_cons, here]
  rfl

namespace Exec

variable {machine : Machine} {env : Env} {name : String} {world : World} {location : Location}

/-- A name that is pending is an import error in a scope, whatever it is bound to. -/
theorem evaluate_name_of_pending {space : SpaceId} (nearest : world.Nearest env space name)
    (waits : world.isPending space name = true) :
    Raises (evaluate machine env (.name location name)) world .importError
      ("cannot use name " ++ Complaint.named name ++
        " before its circular import has completed") := by
  have complains : evaluate machine env (.name location name) world =
      (complain (.pendingName name) : Exec Ref) world := by
    rw [evaluate, lookupName, read_bind, nearest.meaning waits]
  exact (raises_complain rfl world).of_eq complains

end Exec

/-! ### Attributes -/

/-- The step ends as an attribute of a module does: with what the table of the module binds, else
with what its class has, else with an attribute error. -/
def World.ReadsAttribute (world : World) (module_ : Ref) (name : String) (step : Exec Ref)
    (before : World) : Prop :=
  match world.ownAttribute? module_ name, world.lookup module_ name with
  | some value, _ => step before = .ok value world
  | none, some found => step before = found.toRef world
  | none, none => ∃ label : String, Exec.Raises step before .attributeError
      ("module " ++ Complaint.named label ++ " has no attribute " ++ Complaint.named name)

namespace Exec

variable {machine : Machine} {env : Env} {name : String} {world before : World} {module_ : Ref}
  {location : Location}

/-- An attribute that the object itself has is what its table binds. -/
theorem getAttribute_of_own {ref value : Ref} (present : ref ≠ vacantRef)
    (own : world.ownAttribute? ref name = some value) :
    getAttribute ref name world = .ok value world := by
  rw [getAttribute, bind_of_ok (checkPresent_of_ne present world), read_bind, World.lookup, own]
  rfl

theorem evaluate_attribute_of_module {object : Expr}
    (evaluated : evaluate machine env object before = .ok module_ world)
    (class_ : (world.object module_).class_ = BuiltinClass.moduleType.ref)
    (present : module_ ≠ vacantRef) :
    world.ReadsAttribute module_ name (evaluate machine env (.attribute location object name))
      before := by
  have reads : evaluate machine env (.attribute location object name) before =
      getAttribute module_ name world := by
    rw [evaluate]
    exact bind_of_ok evaluated
  unfold World.ReadsAttribute
  split
  next value own => exact reads.trans (getAttribute_of_own present own)
  next found _ inherited =>
    rw [getAttribute, bind_of_ok (checkPresent_of_ne present world), read_bind, inherited] at reads
    exact reads
  next _ nothing =>
    rw [getAttribute, bind_of_ok (checkPresent_of_ne present world), read_bind, nothing] at reads
    dsimp only at reads
    rw [read_bind, class_, beq_self_eq_true, if_pos rfl] at reads
    have worded (label : String) : (Complaint.moduleAttribute label name).message = some _ := rfl
    exact ⟨_, (raises_complain (worded _) world).of_eq reads⟩

end Exec

/-! ### Imports of names -/

namespace Exec

variable {env : Env} {world : World} {module_ : Ref} {path names : List String}

/-- The first name that the module does not bind ends the import with an error. -/
theorem bindNames_of_missing {missing : String}
    (first : names.find? (fun name => (world.ownAttribute? module_ name).isNone) = some missing) :
    Raises (bindNames env path module_ names) world .importError
      ("cannot import name " ++ Complaint.named missing ++ " from " ++
        Complaint.named (dotted path)) := by
  induction names generalizing world with
  | nil => cases first
  | cons name rest inductionHypothesis =>
    cases known : world.ownAttribute? module_ name with
    | none =>
      obtain rfl : name = missing := by simpa [known] using first
      have complains : bindNames env path module_ (name :: rest) world =
          (complain (.nameNotInModule name (dotted path)) : Exec Unit) world := by
        rw [bindNames, read_bind, known]
      exact (raises_complain rfl world).of_eq complains
    | some value =>
      obtain ⟨middle, bound⟩ : ∃ middle, bindName env name value world = .ok () middle := by
        cases env <;> exact ⟨_, rfl⟩
      have same := ownAttribute?_of_bindName known bound
      have continues : bindNames env path module_ (name :: rest) world =
          bindNames env path module_ rest middle := by
        rw [bindNames, read_bind, known]
        exact bind_of_ok bound
      refine (inductionHypothesis ?_).of_eq continues
      simpa [known, same] using first

theorem bindNames_of_bound (env : Env) (path : List String)
    (bound : ∀ name ∈ names, (world.ownAttribute? module_ name).isSome = true) :
    ∃ after, bindNames env path module_ names world = .ok () after := by
  induction names generalizing world with
  | nil => exact ⟨world, rfl⟩
  | cons name rest inductionHypothesis =>
    rw [List.forall_mem_cons] at bound
    obtain ⟨value, known⟩ := Option.isSome_iff_exists.mp bound.1
    obtain ⟨middle, bindDone⟩ : ∃ middle, bindName env name value world = .ok () middle := by
      cases env <;> exact ⟨_, rfl⟩
    have same := ownAttribute?_of_bindName known bindDone
    have later : ∀ other ∈ rest, (middle.ownAttribute? module_ other).isSome = true := by
      intro other inside
      rw [same]
      exact bound.2 other inside
    obtain ⟨after, done⟩ := inductionHypothesis later
    refine ⟨after, ?_⟩
    rw [bindNames, read_bind, known]
    exact (bind_of_ok bindDone).trans done

/-- Announced names are pending, and every table binds what it bound before. -/
theorem announceAll_announces (env : Env) (names : List String) (world : World) :
    ∃ after, announceAll env names world = .ok () after ∧
      (∀ space name, (after.namespaceAt space).get? name = (world.namespaceAt space).get? name) ∧
      ∀ frame ∈ env.head?, frame.space.index < world.spaces.size → ∀ name,
        after.isPending frame.space name =
          (decide (name ∈ names) || world.isPending frame.space name) := by
  induction names generalizing world with
  | nil => exact ⟨world, rfl, fun _ _ => rfl, fun _ _ _ _ => by simp⟩
  | cons first rest inductionHypothesis =>
    cases env with
    | nil =>
      obtain ⟨after, done, same, -⟩ := inductionHypothesis world
      exact ⟨after, done, same, by simp⟩
    | cons frame outer =>
      let middle : World := { world with
        spaces := world.spaces.modify frame.space.index (·.announce first) }
      obtain ⟨after, done, same, waits⟩ := inductionHypothesis middle
      refine ⟨after, done, fun space name => (same space name).trans ?_, ?_⟩
      · by_cases here : space = frame.space
        · subst here
          by_cases bound : frame.space.index < world.spaces.size
          · rw [World.namespaceAt_modify bound]
            rfl
          · rw [World.namespaceAt_modify_of_le (Nat.not_lt.mp bound),
              World.namespaceAt_of_le (Nat.not_lt.mp bound)]
        · rw [World.namespaceAt_modify_of_ne here]
      · rintro _ ⟨⟩ bound name
        have middleWaits : middle.isPending frame.space name =
            (name == first || world.isPending frame.space name) := by
          rw [World.isPending, World.namespaceAt_modify bound, Namespace.isPending_announce]
          rfl
        rw [waits frame rfl (by simpa [middle] using bound) name, middleWaits]
        by_cases isFirst : name = first <;> by_cases inside : name ∈ rest <;>
          simp [isFirst, inside]

end Exec

/-- The step ends as an import of names from an unfinished module does: the names are pending, and
every table binds what it bound before. -/
def World.DefersNames (world : World) (env : Env) (names : List String) (step : Exec Unit)
    (before : World) : Prop :=
  ∃ after, step before = .ok () after ∧
    (∀ space name, (after.namespaceAt space).get? name = (world.namespaceAt space).get? name) ∧
    ∀ frame ∈ env.head?, frame.space.index < world.spaces.size → ∀ name ∈ names,
      after.isPending frame.space name = true

/-- The step ends as an import of names from a loaded module does: it gives each name what the
table of the module binds, or fails at the first name that is not bound there. -/
def World.ReadsNames (world : World) (module_ : Ref) (env : Env) (path names : List String)
    (step : Exec Unit) (before : World) : Prop :=
  match names.find? fun name => (world.ownAttribute? module_ name).isNone with
  | some missing => Exec.Raises step before .importError
      ("cannot import name " ++ Complaint.named missing ++ " from " ++
        Complaint.named (dotted path))
  | none => ∃ after, step before = .ok () after ∧
      ∀ frame ∈ env.head?, frame.space.index < world.spaces.size → ∀ name ∈ names,
        (after.namespaceAt frame.space).get? name = world.ownAttribute? module_ name

namespace Exec

variable {machine : Machine} {env : Env} {world before : World} {module_ : Ref}
  {location : Location} {path names : List String}

theorem importNames_ready
    (loaded : load machine (dotted path)
      (Path.directory before.host.files.working location.file) before =
        .ok (.ready module_) world) :
    world.ReadsNames module_ env path names (importNames machine env location path (some names))
      before := by
  have binds : importNames machine env location path (some names) before =
      bindNames env path module_ names world := by
    rw [importNames, directoryOf, read_bind]
    exact bind_of_ok loaded
  unfold World.ReadsNames
  split
  next missing first => exact (bindNames_of_missing first).of_eq binds
  next bound =>
    have bound (name : String) (inside : name ∈ names) :
        (world.ownAttribute? module_ name).isSome = true := by
      simpa [Option.isSome_iff_ne_none] using List.find?_eq_none.mp bound name inside
    obtain ⟨after, done⟩ := bindNames_of_bound env path bound
    refine ⟨after, binds.trans done, fun frame head here name inside => ?_⟩
    obtain ⟨outer, rfl⟩ := List.head?_eq_some_iff.mp head
    exact ((bindNames_binds done here).2 name).trans (if_pos inside)

theorem importNames_unfinished {place job : String}
    (waiting : load machine (dotted path)
      (Path.directory before.host.files.working location.file) before =
        .ok (.unfinished place job) world) :
    world.DefersNames env names (importNames machine env location path (some names)) before := by
  have announces : importNames machine env location path (some names) before =
      (announceAll env names >>= fun _ =>
        postpone place (.bindNames env path names location)) world := by
    rw [importNames, directoryOf, read_bind]
    exact bind_of_ok waiting
  obtain ⟨after, done, same, waits⟩ := announceAll_announces env names world
  refine ⟨_, announces.trans (bind_of_ok done), same, fun frame head bound name inside => ?_⟩
  have here := waits frame head bound name
  rw [decide_eq_true inside, Bool.true_or] at here
  exact here

end Exec

/-! ### The main result -/

namespace World

/-- How a pending name is read, in a world that a session leads to. In a scope it is an import
error. As an attribute of a module, and in an import from a module that is loaded, it is what the
table binds, which is the value from before the name was announced. Where the table binds nothing,
the one is an attribute error and the other an import error. An import from a module that has not
finished reads nothing. -/
theorem Lasts.pending_read {host : Host} {searchPath : List String} {world : World}
    (begun : (bare host searchPath).Lasts world) {space : SpaceId} {name : String}
    (waits : world.isPending space name = true) :
    (∀ (machine : Machine) (env : Env) (location : Location), world.Nearest env space name →
      Exec.Raises (Exec.evaluate machine env (.name location name)) world .importError
        ("cannot use name " ++ Complaint.named name ++
          " before its circular import has completed")) ∧
    (∀ module_ : Ref, (world.object module_).class_ = BuiltinClass.moduleType.ref →
      (world.object module_).space = some space →
      (∀ (machine : Machine) (env : Env) (location : Location) (object : Expr) (before : World),
        Exec.evaluate machine env object before = .ok module_ world →
        world.ReadsAttribute module_ name
          (Exec.evaluate machine env (.attribute location object name)) before) ∧
      ∀ (machine : Machine) (env : Env) (location : Location) (path names : List String)
        (before : World), name ∈ names →
        Exec.load machine (dotted path)
          (Path.directory before.host.files.working location.file) before =
            .ok (.ready module_) world →
        world.ReadsNames module_ env path names
          (Exec.importNames machine env location path (some names)) before) ∧
    ∀ (machine : Machine) (env : Env) (location : Location) (path names : List String)
      (before : World) (place job : String), name ∈ names →
      Exec.load machine (dotted path)
        (Path.directory before.host.files.working location.file) before =
          .ok (.unfinished place job) world →
      world.DefersNames env names
        (Exec.importNames machine env location path (some names)) before :=
  ⟨fun _ _ _ nearest => Exec.evaluate_name_of_pending nearest waits,
    fun _ class_ _ =>
      ⟨fun _ _ _ _ _ evaluated =>
        Exec.evaluate_attribute_of_module evaluated class_ (begun.ne_vacantRef class_),
      fun _ _ _ _ _ _ _ loaded => Exec.importNames_ready loaded⟩,
    fun _ _ _ _ _ _ _ _ _ waiting => Exec.importNames_unfinished waiting⟩

/-- A module has a name pending that it bound before. In its scope the name is an import error, and
as an attribute it is the value from before. -/
theorem bare_pending_read :
    let host : Host :=
      { files := ⟨"/", []⟩
        input := ""
        output := "" }
    let start := bare host []
    let module_ : Ref := ⟨start.objects.size⟩
    let own : Frame := ⟨⟨start.spaces.size⟩, "", false⟩
    let other : Frame := ⟨⟨start.spaces.size + 1⟩, "", false⟩
    let world : World := { start with
      objects := start.objects.push ⟨BuiltinClass.moduleType.ref, some own.space, .empty, none⟩
      spaces := (start.spaces.push ((Namespace.empty.set "a" trueRef).announce "a")).push
        (Namespace.empty.set "b" module_) }
    let line : Location := ⟨"/main", 1⟩
    Exec.Raises (Exec.evaluate .standard [own] (.name line "a")) world .importError
      ("cannot use name " ++ Complaint.named "a" ++
        " before its circular import has completed") ∧
    Exec.evaluate .standard [other] (.attribute line (.name line "b") "a") world =
      .ok trueRef world := by
  intro host start module_ own other world line
  have begun : start.Lasts world := by
    refine (Lasts.push start _).trans ⟨Nat.le_refl _, ?_, fun _ _ => rfl, fun _ _ => id⟩
    rw [Array.size_push, Array.size_push]
    exact (Nat.le_succ _).trans (Nat.le_succ _)
  have waits : world.isPending own.space "a" = true := by
    decide +kernel
  obtain ⟨inScope, read, -⟩ := begun.pending_read waits
  have nearest : world.Nearest [own] own.space "a" :=
    ⟨[], _, [], rfl, rfl, by simp, by decide +kernel⟩
  have object : world.object module_ =
      ⟨BuiltinClass.moduleType.ref, some own.space, .empty, none⟩ := by
    simp [world, module_, World.object]
  have found : Exec.evaluate .standard [other] (.name line "b") world = .ok module_ world := by
    have means : world.meaning [other] "b" = .bound module_ := by decide +kernel
    rw [Exec.evaluate, Exec.lookupName, Exec.read_bind, means]
    rfl
  have bound : world.ownAttribute? module_ "a" = some trueRef := by
    decide +kernel
  have ended := (read module_ (by rw [object]) (by rw [object])).1 _ _ line _ _ found
  rw [ReadsAttribute, bound] at ended
  exact ⟨inScope _ _ _ nearest, ended⟩

end World

end Offside
