/-
This file shows that the world in which a session begins is intact: every built-in class
has the methods that it lists, and the single values and the object of vacant cells are
there. The classes are filled one after the other, and filling one touches its own table
and that of the built-in names and nothing else, so what holds of a class once it is filled
holds to the end.
-/

import Offside.Proofs.Literal.Evaluation

namespace Offside

/-! ### Filling -/

namespace World

/-- Everything that there was is still there and as it was, some tables of names apart. -/
structure Extends (touched : List SpaceId) (before after : World) : Prop where
  objects : before.objects.size ≤ after.objects.size
  object : ∀ ref : Ref, ref.index < before.objects.size → after.object ref = before.object ref
  spaces : before.spaces.size ≤ after.spaces.size
  space : ∀ space : SpaceId, space.index < before.spaces.size → space ∉ touched →
    after.namespaceAt space = before.namespaceAt space

namespace Extends

variable {touched : List SpaceId} {before middle after : World}

theorem refl (world : World) : Extends touched world world :=
  ⟨Nat.le_refl _, fun _ _ => rfl, Nat.le_refl _, fun _ _ _ => rfl⟩

theorem trans (first : before.Extends touched middle) (last : middle.Extends touched after) :
    before.Extends touched after where
  objects := first.objects.trans last.objects
  object ref bound := by rw [last.object ref (bound.trans_le first.objects), first.object ref bound]
  spaces := first.spaces.trans last.spaces
  space space bound other := by
    rw [last.space space (bound.trans_le first.spaces) other, first.space space bound other]

theorem weaken {more : List SpaceId} (extends_ : before.Extends touched after)
    (subset : touched ⊆ more) : before.Extends more after :=
  { extends_ with space := fun space bound other =>
      extends_.space space bound fun listed => other (subset listed) }

theorem push (world : World) (new : Object) :
    world.Extends touched { world with objects := world.objects.push new } := by
  refine ⟨by simp, fun ref bound => ?_, Nat.le_refl _, fun _ _ _ => rfl⟩
  simp [World.object, Array.getElem?_push, Nat.ne_of_lt bound]

theorem pushSpace (world : World) (new : Namespace) :
    world.Extends touched { world with spaces := world.spaces.push new } := by
  refine ⟨Nat.le_refl _, fun _ _ => rfl, by simp, fun space bound _ => ?_⟩
  simp [namespaceAt, Array.getElem?_push, Nat.ne_of_lt bound]

theorem modifySpace (world : World) {space : SpaceId} (step : Namespace → Namespace)
    (listed : space ∈ touched) :
    world.Extends touched { world with spaces := world.spaces.modify space.index step } := by
  refine ⟨Nat.le_refl _, fun _ _ => rfl, by simp, fun other bound untouched => ?_⟩
  refine namespaceAt_modify_of_ne (fun same => untouched ?_) step
  rw [same]
  exact listed

end Extends

theorem RunsMethod.extend {touched : List SpaceId} {before after : World} {function : Ref}
    {builtin : BuiltinClass} {name : String} {method : Method}
    (runs : before.RunsMethod function builtin name method)
    (extends_ : before.Extends touched after) :
    after.RunsMethod function builtin name method := by
  have same := extends_.object function runs.bound
  exact ⟨by rw [same, runs.class_], by rw [same, runs.code]⟩

/-- The table of a class has these methods of it. -/
def HasMethods (world : World) (builtin : BuiltinClass) (methods : List (String × Method)) : Prop :=
  ∀ name method, (name, method) ∈ methods → ∃ function : Ref,
    (world.namespaceAt builtin.space).get? name = some function ∧
      world.RunsMethod function builtin name method

theorem HasMethods.extend {touched : List SpaceId} {before after : World} {builtin : BuiltinClass}
    {methods : List (String × Method)} (has : before.HasMethods builtin methods)
    (extends_ : before.Extends touched after) (bound : builtin.space.index < before.spaces.size)
    (other : builtin.space ∉ touched) : after.HasMethods builtin methods := by
  intro name method listed
  obtain ⟨function, found, runs⟩ := has name method listed
  refine ⟨function, ?_, runs.extend extends_⟩
  rw [extends_.space _ bound other]
  exact found

/-- The table of a class has the methods of the class, its name, its base, and nothing else. -/
structure Filled (world : World) (builtin : BuiltinClass) : Prop where
  methods : world.HasMethods builtin builtin.methods
  others : ∀ name ∉ builtin.methods.map Prod.fst, name ≠ "__name__" →
    (world.namespaceAt builtin.space).get? name =
      if name = "__base__" then builtin.base?.map BuiltinClass.ref else none

theorem Filled.extend {touched : List SpaceId} {before after : World} {builtin : BuiltinClass}
    (filled : before.Filled builtin) (extends_ : before.Extends touched after)
    (bound : builtin.space.index < before.spaces.size) (other : builtin.space ∉ touched) :
    after.Filled builtin where
  methods := filled.methods.extend extends_ bound other
  others := by
    rw [extends_.space _ bound other]
    exact filled.others

end World

namespace Exec

open World

/-- A step that succeeds and touches only these tables. -/
def Extending {α : Type} (touched : List SpaceId) (step : Exec α) (world : World) (value : α)
    (after : World) : Prop :=
  step world = .ok value after ∧ world.Extends touched after

theorem newNative_extends (name : String) (native : Native) (world : World) :
    ∃ function after, Extending [] (newNative name native) world function after ∧
      (after.object function).class_ = BuiltinClass.function.ref ∧
      (after.object function).function = some ⟨name, .native native, []⟩ := by
  refine ⟨_, _, ⟨rfl, (Extends.pushSpace world .empty).trans (.push _ _)⟩, ?_, ?_⟩ <;>
    simp [World.object]

/-- One method after the other gets into the table of a class, and stays there because no other
method has its name. -/
theorem fillMethods {builtin : BuiltinClass} : ∀ (methods : List (String × Method)) (world : World),
    (methods.map Prod.fst).Nodup → builtin.space.index < world.spaces.size →
    ∃ after, Extending [builtin.space] (methods.forM (fillMethod builtin)) world () after ∧
      after.HasMethods builtin methods ∧
      ∀ name ∉ methods.map Prod.fst,
        (after.namespaceAt builtin.space).get? name = (world.namespaceAt builtin.space).get? name
  | [], world, _, _ => ⟨world, ⟨rfl, .refl world⟩, by simp [HasMethods], fun _ _ => rfl⟩
  | (name, method) :: rest, world, different, bound => by
    obtain ⟨new, others⟩ := List.nodup_cons.mp different
    obtain ⟨function, early, ⟨made, extendsEarly⟩, class_, code⟩ :=
      newNative_extends name (.method builtin name method) world
    have earlyBound : builtin.space.index < early.spaces.size := bound.trans_le extendsEarly.spaces
    have untouched : early.namespaceAt builtin.space = world.namespaceAt builtin.space :=
      extendsEarly.space _ bound List.not_mem_nil
    let middle : World := { early with
      spaces := early.spaces.modify builtin.space.index (·.set name function) }
    have extendsMiddle : early.Extends [builtin.space] middle :=
      .modifySpace early _ List.mem_cons_self
    have table : middle.namespaceAt builtin.space =
        (early.namespaceAt builtin.space).set name function :=
      namespaceAt_modify earlyBound _
    have runs : middle.RunsMethod function builtin name method := ⟨class_, code⟩
    obtain ⟨after, ⟨filled, extendsRest⟩, has, unnamed⟩ := fillMethods rest middle others
      (earlyBound.trans_le extendsMiddle.spaces)
    have extendsAll := (extendsEarly.weaken (List.nil_subset _)).trans
      (extendsMiddle.trans extendsRest)
    refine ⟨after, ⟨?_, extendsAll⟩, ?_, ?_⟩
    · have stored : fillMethod builtin (name, method) world = .ok () middle := bind_of_ok made
      change (fillMethod builtin (name, method) >>= fun _ => _) world = _
      rw [bind_of_ok stored]
      exact filled
    · intro found candidate listed
      obtain same | listed := List.mem_cons.mp listed
      · cases same
        refine ⟨function, ?_, runs.extend extendsRest⟩
        rw [unnamed name new, table, Namespace.get?_set, if_pos rfl]
      · exact has found candidate listed
    · intro found absent
      rw [List.map_cons, List.mem_cons, not_or] at absent
      rw [unnamed found absent.2, table, Namespace.get?_set, if_neg absent.1, untouched]

theorem extending_modifySpace {touched : List SpaceId} {space : SpaceId} (listed : space ∈ touched)
    (step : Namespace → Namespace) (world : World) :
    ∃ after, Extending touched (modifySpace space step) world () after :=
  ⟨_, rfl, .modifySpace world step listed⟩

theorem Extending.bind {α β : Type} {touched : List SpaceId} {first : Exec α} {next : α → Exec β}
    {before middle after : World} {value : α} {result : β}
    (extending : Extending touched first before value middle)
    (extendingNext : Extending touched (next value) middle result after) :
    Extending touched (first >>= next) before result after :=
  ⟨(bind_of_ok extending.1).trans extendingNext.1, extending.2.trans extendingNext.2⟩

/-- The number of tables that there are from the start. -/
theorem space_index_le (builtin : BuiltinClass) :
    builtin.space.index ≤ BuiltinClass.all.length := by
  cases builtin <;> decide

theorem space_ne_builtinsSpace (builtin : BuiltinClass) : builtin.space ≠ builtinsSpace := by
  cases builtin <;> decide

/-- Every class has a table of its own: the tables stand in the order of the classes. -/
theorem space_injective : Function.Injective BuiltinClass.space := by
  have placed (builtin : BuiltinClass) :
      BuiltinClass.all[builtin.space.index - 1]? = some builtin := by
    cases builtin <;> rfl
  intro first second same
  refine Option.some.inj ?_
  rw [← placed first, ← placed second, same]

theorem methods_nodup (builtin : BuiltinClass) : (builtin.methods.map Prod.fst).Nodup := by
  cases builtin <;> decide

/-- What is left to do for a class once it has its name and its base. -/
theorem finishClass (builtin : BuiltinClass) {world : World}
    (bound : BuiltinClass.all.length < world.spaces.size) :
    ∃ after, Extending [builtin.space, builtinsSpace] (do
        builtin.methods.forM (fillMethod builtin)
        if builtin.isGlobal then modifySpace builtinsSpace (·.set builtin.name builtin.ref))
        world () after ∧ after.HasMethods builtin builtin.methods ∧
      ∀ name ∉ builtin.methods.map Prod.fst,
        (after.namespaceAt builtin.space).get? name =
          (world.namespaceAt builtin.space).get? name := by
  have inside : builtin.space.index < world.spaces.size := (space_index_le builtin).trans_lt bound
  obtain ⟨filled, ⟨fills, extendsFilled⟩, has, unnamed⟩ :=
    fillMethods builtin.methods world (methods_nodup builtin) inside
  have first : Extending [builtin.space, builtinsSpace] _ world () filled :=
    ⟨fills, extendsFilled.weaken (by simp)⟩
  cases builtin.isGlobal with
  | false => exact ⟨filled, first.bind ⟨rfl, .refl filled⟩, has, unnamed⟩
  | true =>
    have listed : builtinsSpace ∈ [builtinsSpace] := List.mem_cons_self
    have apart : builtin.space ∉ [builtinsSpace] := by simpa using space_ne_builtinsSpace builtin
    have filledInside := inside.trans_le extendsFilled.spaces
    obtain ⟨after, named, extendsNamed⟩ :=
      extending_modifySpace listed (·.set builtin.name builtin.ref) filled
    refine ⟨after, first.bind ⟨named, extendsNamed.weaken (by simp)⟩,
      has.extend extendsNamed filledInside apart, fun name other => ?_⟩
    rw [extendsNamed.space _ filledInside apart, unnamed name other]

theorem fillClass_extends (builtin : BuiltinClass) {world : World}
    (bound : BuiltinClass.all.length < world.spaces.size)
    (unfilled : world.namespaceAt builtin.space = .empty) :
    ∃ after, Extending [builtin.space, builtinsSpace] (fillClass builtin) world () after ∧
      after.Filled builtin := by
  have ownSpace : builtin.space ∈ [builtin.space, builtinsSpace] := List.mem_cons_self
  have inside : builtin.space.index < world.spaces.size := (space_index_le builtin).trans_lt bound
  let text : Object := ⟨BuiltinClass.str.ref, none, .str builtin.name, none⟩
  let early : World := { world with objects := world.objects.push text }
  have made : Extending [builtin.space, builtinsSpace] (newStr builtin.name) world
      ⟨world.objects.size⟩ early := ⟨rfl, .push world text⟩
  let named : World := { early with
    spaces := early.spaces.modify builtin.space.index (·.set "__name__" ⟨world.objects.size⟩) }
  have naming : Extending [builtin.space, builtinsSpace]
      (modifySpace builtin.space (·.set "__name__" ⟨world.objects.size⟩)) early () named :=
    ⟨rfl, .modifySpace early _ ownSpace⟩
  have namedTable : named.namespaceAt builtin.space =
      Namespace.empty.set "__name__" ⟨world.objects.size⟩ := by
    have earlyInside : builtin.space.index < early.spaces.size := inside
    exact (namespaceAt_modify earlyInside _).trans (congrArg (Namespace.set · _ _) unfilled)
  have namedBound : BuiltinClass.all.length < named.spaces.size :=
    bound.trans_le (made.2.trans naming.2).spaces
  rw [fillClass]
  cases based : builtin.base? with
  | none =>
    obtain ⟨after, finishing, has, unnamed⟩ := finishClass builtin namedBound
    refine ⟨after, made.bind (naming.bind finishing), has, fun name other unnamedToo => ?_⟩
    rw [unnamed name other, namedTable, Namespace.get?_set, if_neg unnamedToo, based,
      Option.map_none, ite_self]
    rfl
  | some base =>
    let basing : World := { named with
      spaces := named.spaces.modify builtin.space.index (·.set "__base__" base.ref) }
    have bases : Extending [builtin.space, builtinsSpace]
        (modifySpace builtin.space (·.set "__base__" base.ref)) named () basing :=
      ⟨rfl, .modifySpace named _ ownSpace⟩
    have basedTable : basing.namespaceAt builtin.space =
        (named.namespaceAt builtin.space).set "__base__" base.ref :=
      namespaceAt_modify (inside.trans_le (made.2.trans naming.2).spaces) _
    obtain ⟨after, finishing, has, unnamed⟩ :=
      finishClass builtin (namedBound.trans_le bases.2.spaces)
    refine ⟨after, made.bind (naming.bind (bases.bind finishing)), has,
      fun name other unnamedToo => ?_⟩
    rw [unnamed name other, basedTable, Namespace.get?_set, namedTable, Namespace.get?_set,
      if_neg unnamedToo, based]
    rfl

/-- Classes that are filled one after the other do not disturb each other. -/
theorem fillClasses : ∀ (classes : List BuiltinClass) {world : World}, classes.Nodup →
    BuiltinClass.all.length < world.spaces.size →
    (∀ builtin ∈ classes, world.namespaceAt builtin.space = .empty) →
    ∃ after, Extending (builtinsSpace :: classes.map BuiltinClass.space) (classes.forM fillClass)
        world () after ∧ ∀ builtin ∈ classes, after.Filled builtin
  | [], world, _, _, _ => ⟨world, ⟨rfl, .refl world⟩, by simp⟩
  | first :: rest, world, different, bound, unfilled => by
    obtain ⟨new, others⟩ := List.nodup_cons.mp different
    obtain ⟨middle, filling, filled⟩ :=
      fillClass_extends first bound (unfilled first List.mem_cons_self)
    have middleBound := bound.trans_le filling.2.spaces
    have stillUnfilled : ∀ builtin ∈ rest, middle.namespaceAt builtin.space = .empty := by
      intro builtin listed
      refine (filling.2.space _ ((space_index_le builtin).trans_lt bound) ?_).trans
        (unfilled builtin (List.mem_cons_of_mem _ listed))
      simp only [List.mem_cons, List.not_mem_nil, or_false, not_or]
      refine ⟨fun same => new ?_, space_ne_builtinsSpace builtin⟩
      rw [← space_injective same]
      exact listed
    obtain ⟨after, fillingRest, filledRest⟩ := fillClasses rest others middleBound stillUnfilled
    have all : Extending (builtinsSpace :: (first :: rest).map BuiltinClass.space)
        ((first :: rest).forM fillClass) world () after :=
      Extending.bind ⟨filling.1, filling.2.weaken (by simp)⟩
        ⟨fillingRest.1, fillingRest.2.weaken (by simp)⟩
    refine ⟨after, all, List.forall_mem_cons.mpr ⟨filled.extend fillingRest.2 ?_ ?_, filledRest⟩⟩
    · exact (space_index_le first).trans_lt middleBound
    · rw [List.mem_cons, not_or]
      refine ⟨space_ne_builtinsSpace first, fun listed => new ?_⟩
      obtain ⟨other, member, same⟩ := List.mem_map.mp listed
      rw [← space_injective same]
      exact member

theorem fillFunctions : ∀ (functions : List FreeFunction) (world : World),
    ∃ after, Extending [builtinsSpace] (functions.forM fun function => do
        let ref ← newNative function.name (.free function)
        modifySpace builtinsSpace (·.set function.name ref)) world () after
  | [], world => ⟨world, rfl, .refl world⟩
  | first :: rest, world => by
    obtain ⟨ref, early, making, -⟩ := newNative_extends first.name (.free first) world
    have listed : builtinsSpace ∈ [builtinsSpace] := List.mem_cons_self
    obtain ⟨middle, naming⟩ := extending_modifySpace listed (·.set first.name ref) early
    obtain ⟨after, others⟩ := fillFunctions rest middle
    have making : Extending [builtinsSpace] (newNative first.name (.free first)) world ref early :=
      ⟨making.1, making.2.weaken (by simp)⟩
    exact ⟨after, (making.bind naming).bind others⟩

end Exec

/-! ### The beginning -/

namespace World

open Exec

theorem mem_all (builtin : BuiltinClass) : builtin ∈ BuiltinClass.all := by
  cases builtin <;> decide

/-- What the beginning adds to a world in which nothing has a name yet. -/
theorem beginning_extends (host : Host) (searchPath : List String) :
    (bare host searchPath).Extends (builtinsSpace :: BuiltinClass.all.map BuiltinClass.space)
        (beginning host searchPath) ∧
      ∀ builtin : BuiltinClass, (beginning host searchPath).Filled builtin := by
  have bound : BuiltinClass.all.length < (bare host searchPath).spaces.size := by
    rw [bare, Array.size_replicate]
    exact Nat.lt_succ_self _
  have unfilled (builtin : BuiltinClass) (_ : builtin ∈ BuiltinClass.all) :
      (bare host searchPath).namespaceAt builtin.space = .empty := by
    cases builtin <;> rfl
  obtain ⟨middle, filling, filledClasses⟩ := fillClasses BuiltinClass.all (by decide) bound unfilled
  obtain ⟨after, naming⟩ := fillFunctions FreeFunction.all middle
  have filled : fillBuiltins (bare host searchPath) = .ok () after :=
    (bind_of_ok filling.1).trans naming.1
  have same : beginning host searchPath = after := by
    rw [beginning, filled]
  rw [same]
  refine ⟨filling.2.trans (naming.2.weaken (by simp)), fun builtin => ?_⟩
  refine (filledClasses builtin (mem_all builtin)).extend naming.2 ?_ ?_
  · exact (space_index_le builtin).trans_lt (bound.trans_le filling.2.spaces)
  · simpa using space_ne_builtinsSpace builtin

/-- The classes, the single values and what vacant cells hold stay as they were made. -/
theorem beginning_object (host : Host) (searchPath : List String) {ref : Ref}
    (bound : ref.index < bareObjects.size) :
    (beginning host searchPath).object ref = bareObjects.getD ref.index default :=
  (beginning_extends host searchPath).1.object ref bound

/-- The world in which a session begins is intact. -/
theorem beginning_intact (host : Host) (searchPath : List String) :
    (beginning host searchPath).Intact where
  class_ builtin := by
    rw [beginning_object]
    · cases builtin <;> rfl
    · cases builtin <;> decide
  method builtin := ((beginning_extends host searchPath).2 builtin).methods
  vacant := beginning_object host searchPath (by decide)

/-- The single values are there from the beginning. -/
theorem beginning_keeps (host : Host) (searchPath : List String) (singles : List Single) :
    (beginning host searchPath).Keeps singles := by
  intro single _
  refine .of_object ?_
  rw [beginning_object host searchPath (single.ref_lt_vacantRef.trans (by decide))]
  cases single with
  | none => rfl
  | truth value => cases value <;> rfl

end World

end Offside
