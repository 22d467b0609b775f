/-
This file proves that dotted imports accumulate. Import statements without new names bind modules
under paths, at once or when the module they wait for has finished, and a path that was bound
keeps leading to its module.

Three things spoil this, and all of them are about the order of the statements. The beginning
of a longer path may be imported after it: then the package there, with all below it, makes room
for the module of the shorter path. A path may have to wait while another one with the same
first part is bound already: then the first part is pending, and a new package takes its place.
And two names may stand in one place, if a module is known under two names. Where this is
excluded, each path keeps leading to the module that was loaded for it.
-/

import Offside.Proofs.Modules.Dotted

namespace Offside

namespace World

/-! ### Paths that were bound -/

/-- What is known of a world in which modules were bound under paths in a scope. -/
structure Collects (world : World) (frame : Frame) (outer : Env)
    (done : List (List String × Ref)) : Prop where
  begun : ∃ host searchPath, (bare host searchPath).Lasts world
  modules : world.ModulesHoused
  bound : frame.space.index < world.spaces.size
  tree : world.Tree (frame :: outer) (done.map Prod.fst)
  latest : ∀ path module_, done.lookup path = some module_ →
    world.Node (frame :: outer) path module_

namespace Collects

variable {before after : World} {frame : Frame} {outer : Env} {done : List (List String × Ref)}
  {path : List String} {module_ : Ref}

theorem mentioned_of_lookup {path : List String} {module_ : Ref}
    (found : done.lookup path = some module_) (nonempty : path ≠ []) :
    Mentioned (done.map Prod.fst) path := by
  obtain ⟨earlier, later, rfl, -⟩ := List.lookup_eq_some_iff.mp found
  exact ⟨nonempty, path, by simp, List.prefix_refl path⟩

/-- What assigns to none of the names changes the meaning of none. -/
theorem leave (collects : before.Collects frame outer done)
    (led : Course.housing.leads before after)
    (leaves : before.Leaves (frame :: outer) (Mentioned (done.map Prod.fst)) after) :
    after.Collects frame outer done where
  begun := by
    obtain ⟨host, searchPath, begun⟩ := collects.begun
    exact ⟨host, searchPath, begun.trans led.1⟩
  modules := led.2 collects.modules
  bound := collects.bound.trans_le led.1.spaces
  tree := collects.tree.leave led.1 leaves
  latest path module_ found := by
    have node := collects.latest path module_ found
    exact node.leave led.1 leaves (fun path last nonempty longer =>
      longer.shorten nonempty (List.prefix_append _ _)) collects.tree
      (mentioned_of_lookup found (ne_nil_of_denoted node.denoted))

/-- A binding under a path keeps what the other names mean. -/
theorem bind (collects : before.Collects frame outer done) (nonempty : path ≠ [])
    (clear : before.Clear (frame :: outer) (done.map Prod.fst) path module_)
    (housed : before.Housed module_)
    (executed : Exec.bindModule (frame :: outer) path none module_ before = .ok () after) :
    after.Collects frame outer ((path, module_) :: done) := by
  obtain ⟨_, succeeded, binds⟩ :=
    bindModule_succeeds nonempty clear collects.tree collects.bound housed
  cases succeeded.symm.trans executed
  have calm : before.Calm after := (Course.still_of_obeys fun conduct =>
    conduct.obeys_bindModule (frame :: outer) path none module_).of_ok executed
  have keep {name : List String} {ref : Ref} (mentioned : Mentioned (done.map Prod.fst) name)
      (other : name ≠ path) (node : before.Node (frame :: outer) name ref) :
      after.Node (frame :: outer) name ref := by
    refine node.leave binds.lasts (.of_calm calm binds.bindings) ?_
      (fun _ spared => collects.tree _ spared.1) ⟨mentioned, fun same => absurd same other⟩
    rintro shorter last shorterNonempty ⟨longer, -⟩
    refine ⟨longer.shorten shorterNonempty (List.prefix_append _ _), ?_⟩
    rintro rfl
    obtain ⟨-, whole, listed, isPrefix⟩ := longer
    refine clear.whole whole listed ((List.prefix_append _ _).trans isPrefix) fun same => ?_
    have length := isPrefix.length_le
    rw [← same, List.length_append, List.length_singleton] at length
    exact Nat.not_succ_le_self _ length
  refine ⟨?_, (Course.housing.calm calm).2 collects.modules,
    collects.bound.trans_le calm.lasts.spaces, fun name mentioned => ?_,
    fun other known found => ?_⟩
  · obtain ⟨host, searchPath, begun⟩ := collects.begun
    exact ⟨host, searchPath, begun.trans calm.lasts⟩
  · rw [List.map_cons, mentioned_cons] at mentioned
    rcases mentioned with mentioned | mentioned
    · exact binds.nodes name mentioned
    · by_cases isPath : name = path
      · exact ⟨module_, isPath ▸ binds.node⟩
      · obtain ⟨ref, node⟩ := collects.tree name mentioned
        exact ⟨ref, keep mentioned isPath node⟩
  · rw [List.lookup_cons] at found
    by_cases isPath : other = path
    · subst isPath
      rw [beq_self_eq_true] at found
      cases found
      exact binds.node
    · rw [beq_false_of_ne isPath] at found
      have node := collects.latest other known found
      exact keep (mentioned_of_lookup found (ne_nil_of_denoted node.denoted)) isPath node

/-- A binding that was deferred is carried out, if nothing is in the way. -/
theorem carryOut_succeeds (collects : before.Collects frame outer done) (nonempty : path ≠ [])
    (clear : before.Clear (frame :: outer) (done.map Prod.fst) path module_) {place : String}
    (loaded : before.registry.loaded? place = some module_) :
    ∃ after, Exec.carryOut place module_ (.bindModule (frame :: outer) path none) before =
        .ok () after ∧
      ∀ other, after.registry.loaded? other = before.registry.loaded? other := by
  obtain ⟨bound, executed, -⟩ := bindModule_succeeds nonempty clear collects.tree collects.bound
    (collects.modules place module_ loaded)
  obtain ⟨_, _, carried⟩ | ⟨_, _, failed, -⟩ := Exec.carryOut_cases place module_
    (.bindModule (frame :: outer) path none) before
  · exact ⟨_, carried, fun _ => rfl⟩
  · cases failed.symm.trans executed

end Collects

/-! ### Sequences of imports -/

/-- A world in which import statements of one scope were executed, and the paths that were bound
so far with the modules that were loaded for them, the latest first. -/
inductive Imported (frame : Frame) (outer : Env) : World → List (List String × Ref) → Prop
  /-- A session leads to the world before the first statement. -/
  | start {origin world : World} (reached : origin.Reached)
    (led : Course.housing.leads origin world)
    (bound : frame.space.index < world.spaces.size) : Imported frame outer world []
  /-- A statement finds or loads a module and binds it. -/
  | executed {before middle after : World} {done : List (List String × Ref)} {fuel : Nat}
    {location : Location} {path : List String} {module_ : Ref}
    (earlier : Imported frame outer before done) (nonempty : path ≠ [])
    (loaded : Exec.load (.ofFuel fuel) (dotted path)
      (Path.directory before.host.files.working location.file) before =
        .ok (.ready module_) middle)
    (leaves : before.Leaves (frame :: outer) (Mentioned (done.map Prod.fst)) middle)
    (clear : middle.Clear (frame :: outer) (done.map Prod.fst) path module_)
    (succeeded : Exec.importModule (.ofFuel fuel) (frame :: outer) location path none before =
      .ok () after) :
    Imported frame outer after ((path, module_) :: done)
  /-- A statement waits for a module that has not finished. No path with the same first part was
  bound before. -/
  | deferred {before middle after : World} {done : List (List String × Ref)} {fuel : Nat}
    {location : Location} {path : List String} {place job : String}
    (earlier : Imported frame outer before done) (nonempty : path ≠ [])
    (waiting : Exec.load (.ofFuel fuel) (dotted path)
      (Path.directory before.host.files.working location.file) before =
        .ok (.unfinished place job) middle)
    (fresh : ∀ other ∈ done.map Prod.fst, other.head? ≠ path.head?)
    (succeeded : Exec.importModule (.ofFuel fuel) (frame :: outer) location path none before =
      .ok () after) :
    Imported frame outer after done
  /-- The module that a statement waited for has finished, and is bound. -/
  | settled {before after : World} {done : List (List String × Ref)} {path : List String}
    {place : String} {module_ : Ref}
    (earlier : Imported frame outer before done) (nonempty : path ≠ [])
    (loaded : before.registry.loaded? place = some module_)
    (clear : before.Clear (frame :: outer) (done.map Prod.fst) path module_)
    (succeeded : Exec.carryOut place module_ (.bindModule (frame :: outer) path none) before =
      .ok () after) :
    Imported frame outer after ((path, module_) :: done)
  /-- Anything else that does not assign to the names. -/
  | meanwhile {before after : World} {done : List (List String × Ref)}
    (earlier : Imported frame outer before done) (led : Course.housing.leads before after)
    (leaves : before.Leaves (frame :: outer) (Mentioned (done.map Prod.fst)) after) :
    Imported frame outer after done

/-- An import that waits makes no part of a path with another beginning pending. -/
theorem leaves_of_deferred {before middle after : World} {machine : Machine} {frame : Frame}
    {outer : Env} {paths : List (List String)} {location : Location} {path : List String}
    {place job : String} (nonempty : path ≠ [])
    (waiting : Exec.load machine (dotted path)
      (Path.directory before.host.files.working location.file) before =
        .ok (.unfinished place job) middle)
    (fresh : ∀ other ∈ paths, other.head? ≠ path.head?)
    (bound : frame.space.index < before.spaces.size)
    (succeeded : Exec.importModule machine (frame :: outer) location path none before =
      .ok () after) :
    before.Leaves (frame :: outer) (Mentioned paths) after := by
  obtain ⟨rfl, -⟩ := Exec.load_eq_unfinished waiting
  obtain ⟨announced, done, same, waits⟩ := Exec.announceAll_announces (frame :: outer)
    [Exec.importedName path none] middle
  rw [Exec.importModule, Exec.directoryOf, Exec.read_bind, Exec.bind_of_ok waiting] at succeeded
  cases ((Exec.bind_of_ok done).symm.trans succeeded)
  refine ⟨fun name space last _ _ => same space last, ?_⟩
  rintro first ⟨-, other, listed, isPrefix⟩ _ ⟨⟩ late
  have different : first ≠ Exec.importedName path none := by
    rintro rfl
    refine fresh other listed ?_
    obtain ⟨rest, rfl⟩ := isPrefix
    cases path with
    | nil => exact absurd rfl nonempty
    | cons start others => rfl
  have early := (waits frame rfl bound first).symm.trans late
  simpa [different] using early

theorem Imported.collects {world : World} {frame : Frame} {outer : Env}
    {done : List (List String × Ref)} (imported : Imported frame outer world done) :
    world.Collects frame outer done := by
  induction imported with
  | start reached led bound =>
    obtain ⟨host, searchPath, begun⟩ :=
      Trail.lasting_forSessions.exists_leads_of_reached reached
    refine ⟨⟨host, searchPath, begun.trans led.1⟩, led.2 reached.modules_housed, bound, ?_, ?_⟩
    · rintro name ⟨-, path, listed, -⟩
      cases listed
    · intro path module_ found
      cases found
  | @executed _ _ _ _ fuel _ _ _ earlier nonempty loaded leaves clear succeeded
      inductionHypothesis =>
    have follows := Machine.ofFuel_housing fuel
    have led := (Exec.follows_load_housing follows _ _).of_ok loaded
    have housed := Exec.housed_of_load follows inductionHypothesis.modules loaded
    rw [Exec.importModule, Exec.directoryOf, Exec.read_bind, Exec.bind_of_ok loaded] at succeeded
    exact (inductionHypothesis.leave led leaves).bind nonempty clear housed succeeded
  | deferred earlier nonempty waiting fresh succeeded inductionHypothesis =>
    have led := (Exec.housing_coversImports.importModule (Machine.ofFuel_housing _) _ _ _ _).of_ok
      succeeded
    exact inductionHypothesis.leave led (leaves_of_deferred nonempty waiting fresh
      inductionHypothesis.bound succeeded)
  | settled earlier nonempty loaded clear succeeded inductionHypothesis =>
    obtain ⟨bound, executed, carried⟩ | ⟨failure, bound, -, failed⟩ :=
      Exec.carryOut_cases _ _ _ _
    · cases carried.symm.trans succeeded
      have housed := inductionHypothesis.modules _ _ loaded
      refine (inductionHypothesis.bind nonempty clear housed executed).leave ?_
        ⟨fun _ _ _ _ _ => rfl, fun _ _ _ _ => id⟩
      rw [← ((Exec.still_settleDeferred _ _).of_ok executed).registry]
      exact Exec.housing_register bound _ fun _ => rfl
    · cases failed.symm.trans succeeded
  | meanwhile earlier led leaves inductionHypothesis => exact inductionHypothesis.leave led leaves

/-- Dotted imports accumulate. Whatever import statements of one scope are executed, at once or
when the module that they wait for has finished, and whatever happens meanwhile that does not
assign to the names: if nothing is in the way of the bindings, every path that was imported
evaluates to the module that was loaded for it. -/
theorem Imported.evaluate_latest {world : World} {frame : Frame} {outer : Env}
    {done : List (List String × Ref)} (imported : Imported frame outer world done)
    {first : String} {rest : List String} {module_ : Ref}
    (latest : done.lookup (first :: rest) = some module_) (machine : Machine)
    (location : Location) :
    Exec.evaluate machine (frame :: outer) (.dotted location first rest) world =
      .ok module_ world := by
  have collects := imported.collects
  obtain ⟨host, searchPath, begun⟩ := collects.begun
  exact (collects.latest _ _ latest).evaluate begun collects.tree machine location
    (Collects.mentioned_of_lookup latest (List.cons_ne_nil first rest))

/-- A session leads to a world with an empty scope and two modules. -/
theorem Reached.exists_imported {start : World} (reached : start.Reached) :
    ∃ (world : World) (frame : Frame) (outerModule innerModule : Ref),
      Imported frame [] world [] ∧ world.registry.loaded? "/pkg" = some outerModule ∧
      world.registry.loaded? "/pkg/inner" = some innerModule := by
  let outerObject : Object :=
    ⟨BuiltinClass.moduleType.ref, some ⟨start.spaces.size + 1⟩, .empty, none⟩
  let innerObject : Object :=
    ⟨BuiltinClass.moduleType.ref, some ⟨start.spaces.size + 2⟩, .empty, none⟩
  let outerModule : Ref := ⟨start.objects.size⟩
  let innerModule : Ref := ⟨(start.objects.push outerObject).size⟩
  let world : World := { start with
    objects := (start.objects.push outerObject).push innerObject
    spaces := ((start.spaces.push .empty).push .empty).push .empty
    registry := ⟨[("/pkg", outerModule), ("/pkg/inner", innerModule)], [], []⟩ }
  have spaces : world.spaces.size = start.spaces.size + 3 := by simp [world]
  have outerHoused : world.Housed outerModule := by
    have object : world.object outerModule = outerObject := by
      simp [world, outerModule, World.object, Array.getElem_push]
    exact ⟨by rw [object], _, by rw [object], by rw [spaces]; simp⟩
  have innerHoused : world.Housed innerModule := by
    have object : world.object innerModule = innerObject := by
      simp [world, innerModule, World.object, Array.getElem_push]
    exact ⟨by rw [object], _, by rw [object], by rw [spaces]; simp⟩
  have led : Course.housing.leads start world := by
    refine ⟨(Lasts.push start outerObject).trans ((Lasts.push _ innerObject).trans
      ⟨Nat.le_refl _, ?_, fun _ _ => rfl, fun _ _ => id⟩), fun _ path module_ => ?_⟩
    · exact (Nat.le_add_right _ 3).trans (Nat.le_of_eq spaces.symm)
    change List.lookup path [("/pkg", outerModule), ("/pkg/inner", innerModule)] = _ → _
    rw [List.lookup_cons, List.lookup_cons]
    split
    · rintro ⟨⟩
      exact outerHoused
    · split
      · rintro ⟨⟩
        exact innerHoused
      · rintro ⟨⟩
  exact ⟨world, ⟨⟨start.spaces.size⟩, "", false⟩, outerModule, innerModule,
    .start reached led (by rw [spaces]; simp), rfl, rfl⟩

/-- A module and another one below it are bound in an empty scope. -/
theorem imported_evaluate_latest :
    ∃ (world : World) (frame : Frame) (outerModule innerModule : Ref),
      Imported frame [] world [(["pkg", "inner"], innerModule), (["pkg"], outerModule)] ∧
      Exec.evaluate .standard [frame] (.dotted ⟨"/main", 1⟩ "pkg" []) world =
        .ok outerModule world ∧
      Exec.evaluate .standard [frame] (.dotted ⟨"/main", 1⟩ "pkg" ["inner"]) world =
        .ok innerModule world := by
  let host : Host :=
    { files := ⟨"/", []⟩
      input := ""
      output := "" }
  obtain ⟨start, frame, outerModule, innerModule, begun, outerLoaded, innerLoaded⟩ :=
    (Reached.beginning host []).exists_imported
  have outerClear : start.Clear [frame] [] ["pkg"] outerModule := by
    refine ⟨fun name other space last named otherNamed _ _ => ?_, fun name _ named other => ?_,
      fun _ listed => by cases listed⟩
    · rw [named.eq_singleton, otherNamed.eq_singleton]
    · exact absurd named.eq_singleton other
  obtain ⟨middle, outerBound, kept⟩ :=
    begun.collects.carryOut_succeeds (by simp) outerClear outerLoaded
  have first : Imported frame [] middle [(["pkg"], outerModule)] :=
    begun.settled (by simp) outerLoaded outerClear outerBound
  have two {name : List String} (named : Mentioned [["pkg", "inner"], ["pkg"]] name) :
      name = ["pkg"] ∨ name = ["pkg", "inner"] := by
    rcases mentioned_cons.mp named with ⟨nonempty, _, listed, isPrefix⟩ | named
    · rw [List.mem_singleton.mp listed] at isPrefix
      have shorter : name = ["pkg"] ++ ["inner"] ∨ name <+: ["pkg"] :=
        List.prefix_concat_iff.mp isPrefix
      rcases shorter with whole | shorter
      · exact .inr whole
      · exact .inl (Mentioned.eq_singleton ⟨nonempty, _, List.mem_singleton_self _, shorter⟩)
    · exact .inl named.eq_singleton
  have innerClear : middle.Clear [frame] [["pkg"]] ["pkg", "inner"] innerModule := by
    refine ⟨fun name other space last named otherNamed stands otherStands => ?_,
      fun name _ named other unknown => ?_, fun longer listed isPrefix => ?_⟩
    · have same := stands.getLast?.trans otherStands.getLast?.symm
      rcases two named with rfl | rfl <;> rcases two otherNamed with rfl | rfl <;>
        first | rfl | exact absurd same (by decide)
    · rcases two (mentioned_cons.mpr (.inl named)) with rfl | rfl
      · exact absurd (Mentioned.self (by simp)) unknown
      · exact absurd rfl other
    · rw [List.mem_singleton.mp listed] at isPrefix
      exact absurd isPrefix.length_le (by decide)
  obtain ⟨world, innerBound, -⟩ :=
    first.collects.carryOut_succeeds (by simp) innerClear ((kept _).trans innerLoaded)
  have second := first.settled (by simp) ((kept _).trans innerLoaded) innerClear innerBound
  exact ⟨world, frame, outerModule, innerModule, second, second.evaluate_latest rfl _ _,
    second.evaluate_latest rfl _ _⟩

end World

end Offside
