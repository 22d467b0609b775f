/-
This file says what putting a module at the end of a dotted name does to the world. The names
that already mean modules are walked, and at the first one that does not a package is made. It
is new and holds no module yet, so from there on one package after the other is made, and
nothing but new tables is written. In the tables that were there before, only the place where
the walk left off is written.

So the names lead to the module afterwards, with one exception: modules may be attributes of
themselves and of each other, and then the place that is written last may be one that the walk
passed before. That place has the last name, so the walk comes to the module earlier.
-/

import Offside.Proofs.Modules.Cache

namespace Offside

/-! ### Binding a name in a table -/

namespace World

/-- Binds a name in a table. -/
def put (world : World) (space : SpaceId) (name : String) (value : Ref) : World :=
  { world with spaces := world.spaces.modify space.index (·.set name value) }

variable {world : World} {space other : SpaceId} {name last : String} {value : Ref}

theorem calm_put (world : World) (space : SpaceId) (name : String) (value : Ref) :
    world.Calm (world.put space name value) :=
  (Course.still_of_obeys fun conduct => conduct.obeys_modifySpace_set space name value :
    Course.still.Follows (Exec.modifySpace space (·.set name value))).of_ok rfl

theorem lasts_put (world : World) (space : SpaceId) (name : String) (value : Ref) :
    world.Lasts (world.put space name value) :=
  (world.calm_put space name value).lasts

theorem namespaceAt_put_of_ne (different : other ≠ space) :
    (world.put space name value).namespaceAt other = world.namespaceAt other :=
  namespaceAt_modify_of_ne different _

/-- Binding a name in a namespace that does not exist changes none. -/
theorem namespaceAt_put_of_le (outside : world.spaces.size ≤ space.index) :
    (world.put space name value).namespaceAt space = world.namespaceAt space := by
  rw [put, namespaceAt_modify_of_le outside, namespaceAt_of_le outside]

theorem get?_put (bound : space.index < world.spaces.size) :
    ((world.put space name value).namespaceAt space).get? last =
      if last = name then some value else (world.namespaceAt space).get? last := by
  rw [put, namespaceAt_modify bound, Namespace.get?_set]

/-- Other places keep what they bind. -/
theorem get?_put_of_ne (different : ¬ (other = space ∧ last = name)) :
    ((world.put space name value).namespaceAt other).get? last =
      (world.namespaceAt other).get? last := by
  by_cases here : other = space
  · subst here
    have apart : last ≠ name := fun same => different ⟨rfl, same⟩
    by_cases bound : other.index < world.spaces.size
    · rw [get?_put bound, if_neg apart]
    · rw [namespaceAt_put_of_le (Nat.not_lt.mp bound)]
  · rw [namespaceAt_put_of_ne here]

theorem ownAttribute?_put {ref : Ref} (held : (world.object ref).space = some space)
    (bound : space.index < world.spaces.size) :
    (world.put space name value).ownAttribute? ref name = some value := by
  have same : (world.put space name value).object ref = world.object ref := rfl
  rw [ownAttribute?, attributes, same, held]
  exact (get?_put bound).trans (if_pos rfl)

theorem ownAttribute?_of_space {ref : Ref} (held : (world.object ref).space = some space) :
    world.ownAttribute? ref name = (world.namespaceAt space).get? name := by
  rw [ownAttribute?, attributes, held]

/-- An object that has an attribute has a table. -/
theorem exists_space_of_own {ref : Ref} (own : world.ownAttribute? ref name = some value) :
    ∃ space, (world.object ref).space = some space ∧
      (world.namespaceAt space).get? name = some value := by
  rw [ownAttribute?, attributes] at own
  cases held : (world.object ref).space with
  | none =>
    rw [held] at own
    cases own
  | some space =>
    rw [held] at own
    exact ⟨space, rfl, own⟩

theorem bound_of_isModule {ref : Ref} (isModule : Exec.isModule world ref = true) :
    ref.index < world.objects.size := by
  by_contra outside
  have absent : world.object ref = default := by
    rw [object, Array.getD_eq_getD_getElem?, Array.getElem?_eq_none (Nat.not_lt.mp outside)]
    rfl
  rw [Exec.isModule, absent] at isModule
  exact absurd isModule (by decide)

/-- What names mean one after the other, each as an attribute of what comes before. -/
def below? (world : World) (found : Option Ref) (names : List String) : Option Ref :=
  names.foldl (fun found name => found.bind (world.ownAttribute? · name)) found

theorem below?_cons (found : Option Ref) (first : String) (rest : List String) :
    world.below? found (first :: rest) =
      world.below? (found.bind (world.ownAttribute? · first)) rest :=
  rfl

theorem below?_concat (found : Option Ref) (names : List String) (last : String) :
    world.below? found (names ++ [last]) =
      (world.below? found names).bind (world.ownAttribute? · last) := by
  rw [below?, List.foldl_concat]
  rfl

/-- From the value of its first part on, the parts of a dotted name lead to a module. If the last
part stands further to the front as well, they may do so up to there already. -/
def Arrives (world : World) (value? : Option Ref) (first : String) (rest : List String)
    (module_ : Ref) : Prop :=
  ∃ names, names <+: rest ∧ (first :: names).getLast? = (first :: rest).getLast? ∧
    world.below? value? names = some module_

/-- A dotted name with a last part of its own leads to the module as a whole. -/
theorem Arrives.whole {value? : Option Ref} {first : String} {front : List String} {module_ : Ref}
    (arrives : world.Arrives value? first (front ++ [last]) module_) (own : last ∉ first :: front) :
    world.below? value? (front ++ [last]) = some module_ := by
  obtain ⟨names, isPrefix, ends, leads⟩ := arrives
  obtain rfl | shorter := List.prefix_concat_iff.mp isPrefix
  · exact leads
  · have isLast : last ∈ first :: names := by
      refine List.mem_of_getLast? (ends.trans ?_)
      rw [← List.cons_append, List.getLast?_concat]
    exact absurd ((List.cons_prefix_cons.mpr ⟨rfl, shorter⟩).subset isLast) own

/-- Below an object the names lead to a module, over modules with tables. -/
structure LeadsTo (world : World) (parent : Ref) (names : List String) (module_ : Ref) : Prop where
  found : world.below? (some parent) names = some module_
  housed : ∀ shorter, shorter ≠ [] → shorter ≠ names → shorter <+: names →
    ∃ ref, world.below? (some parent) shorter = some ref ∧ world.Housed ref

theorem LeadsTo.single {parent module_ : Ref}
    (own : world.ownAttribute? parent name = some module_) :
    world.LeadsTo parent [name] module_ where
  found := own
  housed := by
    rintro (_ | ⟨first, shorter⟩) nonempty onTheWay isPrefix
    · exact absurd rfl nonempty
    · obtain ⟨rfl, isEmpty⟩ := List.cons_prefix_cons.mp isPrefix
      exact absurd (congrArg _ (List.prefix_nil.mp isEmpty)) onTheWay

theorem LeadsTo.cons {parent child module_ : Ref} {names : List String}
    (childHoused : world.Housed child) (own : world.ownAttribute? parent name = some child)
    (leads : world.LeadsTo child names module_) :
    world.LeadsTo parent (name :: names) module_ := by
  have below (rest : List String) :
      world.below? (some parent) (name :: rest) = world.below? (some child) rest := by
    rw [below?_cons, Option.bind_some, own]
  refine ⟨(below names).trans leads.found, ?_⟩
  rintro (_ | ⟨first, shorter⟩) nonempty onTheWay isPrefix
  · exact absurd rfl nonempty
  · obtain ⟨rfl, rest⟩ := List.cons_prefix_cons.mp isPrefix
    rw [below]
    by_cases isEmpty : shorter = []
    · rw [isEmpty]
      exact ⟨child, rfl, childHoused⟩
    · exact leads.housed shorter isEmpty (fun same => onTheWay (congrArg _ same)) rest

theorem Housed.tabled {ref : Ref} (housed : world.Housed ref) : world.Tabled ref := by
  obtain ⟨space, held, bound⟩ := housed.table
  intro other shared
  cases held.symm.trans shared
  exact bound

theorem ModulesTabled.module (tabled : world.ModulesTabled) {ref : Ref}
    (isModule : Exec.isModule world ref = true) : world.Tabled ref :=
  tabled ref (beq_iff_eq.mp isModule)

/-- No attribute of the object is a module. -/
def Barren (world : World) (ref : Ref) : Prop :=
  ∀ name value, world.ownAttribute? ref name = some value → Exec.isModule world value = false

theorem Barren.put {ref : Ref} (barren : world.Barren ref)
    (held : (world.object ref).space = some other) (different : other ≠ space) :
    (world.put space name value).Barren ref := by
  intro last child own
  rw [ownAttribute?_of_space ((world.lasts_put space name value).space _ _ held),
    namespaceAt_put_of_ne different, ← ownAttribute?_of_space held] at own
  exact barren last child own

end World

namespace Exec

open World

variable {world : World} {space : SpaceId} {name : String} {value : Ref}

theorem setAttribute_of_space {ref : Ref} (held : (world.object ref).space = some space) :
    setAttribute ref name value world = .ok () (world.put space name value) := by
  have found : spaceOf ref world = .ok space world := by
    rw [spaceOf, read_bind, held]
    rfl
  rw [setAttribute]
  exact bind_of_ok found

/-- An object gets an attribute in its table, or in a new table if it had none. -/
theorem setAttribute_succeeds {ref : Ref} (there : ref.index < world.objects.size)
    (tabled : world.Tabled ref) (name : String) (value : Ref) :
    ∃ after space, setAttribute ref name value world = .ok () after ∧ world.Lasts after ∧
      (after.object ref).space = some space ∧ (after.namespaceAt space).get? name = some value ∧
      ((world.object ref).space = some space ∨ world.spaces.size ≤ space.index) ∧
      (∀ other, isModule after other = isModule world other) ∧
      ∀ (other : SpaceId) (last : String), other.index < world.spaces.size →
        ¬ ((world.object ref).space = some other ∧ last = name) →
        (after.namespaceAt other).get? last = (world.namespaceAt other).get? last := by
  have still : Course.still.Follows (setAttribute ref name value) :=
    Course.still_of_obeys fun conduct => conduct.obeys_setAttribute ref name value
  cases held : (world.object ref).space with
  | some space =>
    have bound := tabled space held
    have done : setAttribute ref name value world = .ok () (world.put space name value) :=
      setAttribute_of_space held
    have lasts := (still.of_ok done).lasts
    refine ⟨_, space, done, lasts, lasts.space _ _ held, (get?_put bound).trans (if_pos rfl),
      .inl rfl, fun _ => rfl, fun other last _ different => ?_⟩
    exact get?_put_of_ne fun ⟨same, isName⟩ => different ⟨congrArg some same.symm, isName⟩
  | none =>
    let space : SpaceId := ⟨world.spaces.size⟩
    let furnished : World :=
      { world with
        spaces := world.spaces.push .empty
        objects :=
          world.objects.modify ref.index fun object => { object with space := some space } }
    have found : spaceOf ref world = .ok space furnished := by
      rw [spaceOf, read_bind, held]
      rfl
    have done : setAttribute ref name value world = .ok () (furnished.put space name value) := by
      rw [setAttribute]
      exact bind_of_ok found
    have inside : space.index < furnished.spaces.size := by simp [furnished, space]
    have given : (furnished.object ref).space = some space := by
      simp [furnished, object, Array.getElem_modify, there]
    have class_ (other : Ref) : (furnished.object other).class_ = (world.object other).class_ := by
      simp only [furnished, object, Array.getD_eq_getD_getElem?, Array.getElem?_modify]
      split
      · cases world.objects[other.index]? <;> rfl
      · rfl
    refine ⟨_, space, done, (still.of_ok done).lasts, given, (get?_put inside).trans (if_pos rfl),
      .inr (Nat.le_refl _), fun other => congrArg (· == _) (class_ other),
      fun other last old _ => ?_⟩
    have different : other ≠ space := fun same => by simp [same, space] at old
    rw [namespaceAt_put_of_ne different]
    simp [furnished, namespaceAt, Array.getElem?_push, Nat.ne_of_lt old]

/-- A package is a new module with a new table, in which nothing but its name is bound. -/
theorem newPackage_succeeds (path : List String) (world : World) :
    ∃ package after, newPackage path world = .ok package after ∧ world.Lasts after ∧
      (∀ space : SpaceId, space.index < world.spaces.size →
        after.namespaceAt space = world.namespaceAt space) ∧
      (∀ ref : Ref, ref.index < world.objects.size → after.object ref = world.object ref) ∧
      (after.object package).class_ = BuiltinClass.moduleType.ref ∧
      (∃ space : SpaceId, (after.object package).space = some space ∧
        space.index = world.spaces.size ∧ space.index < after.spaces.size) ∧
      after.Barren package := by
  let space : SpaceId := ⟨world.spaces.size⟩
  let named : World := { world with spaces := world.spaces.push .empty }
  let text : Object := ⟨BuiltinClass.str.ref, none, .str (dotted path), none⟩
  let worded : World := { named with objects := named.objects.push text }
  let message : Ref := ⟨world.objects.size⟩
  let bound : World := worded.put space "__name__" message
  let package : Object := ⟨BuiltinClass.moduleType.ref, some space, .empty, none⟩
  let after : World := { bound with objects := bound.objects.push package }
  have inside : space.index < worded.spaces.size := by simp [worded, named, space]
  have empty : named.namespaceAt space = .empty := by simp [named, space, namespaceAt]
  have made : newPackage path world = .ok ⟨bound.objects.size⟩ after := by
    have unnamed : ((named.namespaceAt space).get? "__name__").isNone = true := by
      rw [empty]
      rfl
    unfold newPackage newModule
    change (ite _ _ _ : Exec Ref) named = _
    rw [if_pos unnamed]
    rfl
  have lasts : world.Lasts after := by
    have early : world.Lasts named := .of_objects rfl (by simp [named])
    exact early.trans ((Lasts.push named text).trans
      ((worded.lasts_put space "__name__" message).trans (.push bound package)))
  have found : after.object ⟨bound.objects.size⟩ = package := by
    simp [after, World.object]
  have isText : after.object message = text := by
    simp [after, bound, put, worded, named, message, World.object, Array.getElem_push]
  refine ⟨_, after, made, lasts, fun other there => ?_, fun ref old => ?_, by rw [found],
    ⟨space, by rw [found], rfl, ?_⟩, fun name value own => ?_⟩
  · have different : other ≠ space := fun same => by simp [same, space] at there
    change bound.namespaceAt other = _
    rw [namespaceAt_put_of_ne different]
    simp [worded, named, namespaceAt, Array.getElem?_push, Nat.ne_of_lt there]
  · simp [after, bound, put, worded, named, World.object, Array.getElem?_push, Nat.ne_of_lt old,
      Nat.ne_of_lt (Nat.lt_succ_of_lt old)]
  · exact inside.trans_le (Nat.le_of_eq Array.size_modify.symm)
  · have held : (after.object ⟨bound.objects.size⟩).space = some space := by rw [found]
    rw [ownAttribute?_of_space held] at own
    change (bound.namespaceAt space).get? name = _ at own
    rw [get?_put inside] at own
    split at own
    · cases own
      rw [isModule, isText]
      rfl
    · change (named.namespaceAt space).get? name = _ at own
      rw [empty] at own
      cases own

theorem childModule_known {parent child : Ref} {path : List String}
    (known : world.ownAttribute? parent name = some child) (housed : isModule world child = true) :
    childModule parent path name world = .ok child world := by
  rw [childModule, read_bind, known, Option.filter_some, if_pos housed]
  rfl

theorem childModule_new {parent package : Ref} {path : List String} {middle after : World}
    (unknown : ∀ child, world.ownAttribute? parent name = some child →
      isModule world child = false)
    (made : newPackage path world = .ok package middle)
    (given : setAttribute parent name package middle = .ok () after) :
    childModule parent path name world = .ok package after := by
  have known : (world.ownAttribute? parent name).filter (isModule world) = none := by
    rw [Option.filter_eq_none_iff]
    intro child own
    rw [unknown child own]
    exact Bool.false_ne_true
  rw [childModule, read_bind, known]
  dsimp only
  rw [bind_of_ok made, bind_of_ok given]
  rfl

/-- A package was made for a name of an object. It is a module with a new table, in which no module
is bound. Of the places that there were, only that of the name is written. -/
structure Plants (world : World) (parent : Ref) (name : String) (package : Ref) (after : World) :
    Prop where
  lasts : world.Lasts after
  housed : after.Housed package
  new : ∀ table : SpaceId, (after.object package).space = some table →
    world.spaces.size ≤ table.index
  barren : after.Barren package
  linked : ∃ space : SpaceId, (after.object parent).space = some space ∧
    (after.namespaceAt space).get? name = some package ∧ (after.object package).space ≠ some space
  kept : ∀ (other : SpaceId) (last : String), other.index < world.spaces.size →
    ¬ ((world.object parent).space = some other ∧ last = name) →
    (after.namespaceAt other).get? last = (world.namespaceAt other).get? last

/-- Where a name does not mean a module, a package is made for it. -/
theorem childModule_plants {parent : Ref} (path : List String)
    (there : parent.index < world.objects.size) (tabled : world.Tabled parent)
    (unknown : ∀ child, world.ownAttribute? parent name = some child →
      isModule world child = false) :
    ∃ package after, childModule parent path name world = .ok package after ∧
      Plants world parent name package after := by
  obtain ⟨package, middle, made, lasts, kept, same, class_, ⟨table, tableHeld, new, tableBound⟩,
    barren⟩ := newPackage_succeeds path world
  have middleTabled : middle.Tabled parent := by
    intro space held
    rw [same parent there] at held
    exact (tabled space held).trans_le lasts.spaces
  obtain ⟨after, space, given, linkedLasts, held, bound, where_, sameModules, linkedKept⟩ :=
    setAttribute_succeeds (there.trans_le lasts.objects) middleTabled name package
  rw [same parent there] at where_ linkedKept
  -- The table of the package is not that of the object above it.
  have apart : (world.object parent).space ≠ some table := fun shared => by
    have old := tabled table shared
    rw [new] at old
    exact Nat.lt_irrefl _ old
  have housed : middle.Housed package := ⟨class_, table, tableHeld, tableBound⟩
  have tableAfter := linkedLasts.space package table tableHeld
  refine ⟨package, after, childModule_new unknown made given, lasts.trans linkedLasts,
    housed.last linkedLasts, fun other shared => ?_, fun last child own => ?_,
    ⟨space, held, bound, fun shared => ?_⟩, fun other last old different => ?_⟩
  · cases tableAfter.symm.trans shared
    exact new.ge
  · rw [ownAttribute?_of_space tableAfter, linkedKept table last tableBound fun here =>
      apart here.1, ← ownAttribute?_of_space tableHeld] at own
    exact (sameModules child).trans (barren last child own)
  · cases tableAfter.symm.trans shared
    obtain shared | further := where_
    · exact apart shared
    · exact Nat.lt_irrefl _ (tableBound.trans_le further)
  · rw [linkedKept other last (old.trans_le lasts.spaces) different, kept other old]

/-- Where a name does not mean a module, a package is made, and so on below it. Of the places that
there were, only that of the name is written. -/
theorem graft_unknown (module_ : Ref) (walked : List String) {first : String}
    (rest : List String) {parent : Ref} {world : World}
    (there : parent.index < world.objects.size) (tabled : world.Tabled parent)
    (unknown : ∀ child, world.ownAttribute? parent first = some child →
      isModule world child = false) :
    ∃ after, graft parent walked module_ (first :: rest) world = .ok () after ∧
      world.Lasts after ∧ after.LeadsTo parent (first :: rest) module_ ∧
      ∀ (other : SpaceId) (last : String), other.index < world.spaces.size →
        ¬ ((world.object parent).space = some other ∧ last = first) →
        (after.namespaceAt other).get? last = (world.namespaceAt other).get? last := by
  induction rest generalizing first parent walked world with
  | nil =>
    obtain ⟨after, space, given, lasts, held, bound, -, -, kept⟩ :=
      setAttribute_succeeds there tabled first module_
    exact ⟨after, given, lasts, .single ((ownAttribute?_of_space held).trans bound), kept⟩
  | cons second rest inductionHypothesis =>
    obtain ⟨package, linked, made, plants⟩ :=
      childModule_plants (walked ++ [first]) there tabled unknown
    obtain ⟨after, grafted, grown, leads, untouched⟩ := inductionHypothesis (walked ++ [first])
      plants.housed.bound plants.housed.tabled (plants.barren second)
    obtain ⟨space, held, bound, apart⟩ := plants.linked
    have own : after.ownAttribute? parent first = some package := by
      rw [ownAttribute?_of_space (grown.space _ _ held),
        untouched space first (bound_of_get? bound) fun here => apart here.1, bound]
    refine ⟨after, (bind_of_ok made).trans grafted, plants.lasts.trans grown,
      .cons (plants.housed.last grown) own leads, fun other last old different => ?_⟩
    have fresh : (linked.object package).space ≠ some other := fun shared =>
      Nat.lt_irrefl _ (old.trans_le (plants.new other shared))
    rw [untouched other last (old.trans_le plants.lasts.spaces) fun here => fresh here.1,
      plants.kept other last old different]

/-- Below a module the names lead to what was put at their end, or those up to an earlier one that
is the last name as well. A place that holds a module keeps it, unless it has the last name and holds
what was put there. -/
theorem graft_arrives (module_ : Ref) (walked : List String) (first : String)
    (rest : List String) {parent : Ref} {world : World} (isParent : isModule world parent = true)
    (tabled : world.ModulesTabled) :
    ∃ after, graft parent walked module_ (first :: rest) world = .ok () after ∧
      world.Lasts after ∧
      (∃ names, names ≠ [] ∧ names <+: first :: rest ∧
        names.getLast? = (first :: rest).getLast? ∧
        after.below? (some parent) names = some module_) ∧
      ∀ (space : SpaceId) (name : String) (value : Ref),
        (world.namespaceAt space).get? name = some value → isModule world value = true →
        (after.namespaceAt space).get? name = some value ∨
          (first :: rest).getLast? = some name ∧
            (after.namespaceAt space).get? name = some module_ := by
  induction rest generalizing first parent walked with
  | nil =>
    obtain ⟨after, space, given, lasts, held, bound, -, -, kept⟩ :=
      setAttribute_succeeds (bound_of_isModule isParent) (tabled.module isParent) first module_
    refine ⟨after, given, lasts, ⟨[first], by simp, List.prefix_refl _, rfl,
      (ownAttribute?_of_space held).trans bound⟩, fun other name value known _ => ?_⟩
    by_cases here : (world.object parent).space = some other ∧ name = first
    · obtain ⟨shared, rfl⟩ := here
      cases held.symm.trans (lasts.space parent other shared)
      exact .inr ⟨rfl, bound⟩
    · exact .inl ((kept other name (bound_of_get? known) here).trans known)
  | cons second rest inductionHypothesis =>
    by_cases known : ∃ child, world.ownAttribute? parent first = some child ∧
        isModule world child = true
    · obtain ⟨child, own, isChild⟩ := known
      obtain ⟨after, grafted, lasts, ⟨names, inhabited, isPrefix, last, leads⟩, places⟩ :=
        inductionHypothesis (walked ++ [first]) second isChild
      obtain ⟨space, held, stored⟩ := exists_space_of_own own
      have heldAfter := lasts.space parent space held
      refine ⟨after, (bind_of_ok (childModule_known own isChild)).trans grafted, lasts, ?_, ?_⟩
      · obtain still | ⟨isLast, put⟩ := places space first child stored isChild
        · refine ⟨first :: names, by simp, List.cons_prefix_cons.mpr ⟨rfl, isPrefix⟩, ?_, ?_⟩
          · rw [List.getLast?_cons, last, List.getLast?_cons (a := first)]
          · rw [World.below?_cons, Option.bind_some, ownAttribute?_of_space heldAfter, still, leads]
        · refine ⟨[first], by simp, by simp, ?_, (ownAttribute?_of_space heldAfter).trans put⟩
          rw [List.getLast?_cons_cons, isLast]
          rfl
      · exact fun other name value => by
          rw [List.getLast?_cons_cons]
          exact places other name value
    · have unknown (child : Ref) (own : world.ownAttribute? parent first = some child) :
          isModule world child = false := by
        by_contra isChild
        exact known ⟨child, own, (Bool.not_eq_false _).mp isChild⟩
      obtain ⟨after, grafted, lasts, leads, kept⟩ := graft_unknown module_ walked (second :: rest)
        (bound_of_isModule isParent) (tabled.module isParent) unknown
      refine ⟨after, grafted, lasts,
        ⟨first :: second :: rest, by simp, List.prefix_refl _, rfl, leads.found⟩,
        fun other name value stored isValue => .inl ?_⟩
      refine (kept other name (bound_of_get? stored) ?_).trans stored
      rintro ⟨held, rfl⟩
      have isOther := unknown value ((ownAttribute?_of_space held).trans stored)
      rw [isValue] at isOther
      cases isOther

/-- The first part of a dotted name means a module, at least once there is a package for it. -/
theorem rootModule_succeeds (env : Env) (first : String) (world : World) :
    ∃ root after, rootModule env first world = .ok root after ∧
      isModule after root = true := by
  have made : ∃ root after, newPackage [first] world = .ok root after ∧
      isModule after root = true := by
    obtain ⟨package, after, done, -, -, -, class_, -⟩ := newPackage_succeeds [first] world
    exact ⟨package, after, done, beq_iff_eq.mpr class_⟩
  rw [rootModule, read_bind]
  cases world.meaning env first with
  | bound value =>
    dsimp only
    cases known : isModule world value with
    | true => exact ⟨value, world, rfl, known⟩
    | false => exact made
  | pending | undefined => exact made

/-- A module that was bound under a dotted name is what the name leads to. -/
theorem bindModule_arrives {frame : Frame} (outer : Env) (first second : String)
    (rest : List String) (module_ : Ref) {world : World}
    (bound : frame.space.index < world.spaces.size)
    (tabled : world.ModulesTabled) :
    ∃ after,
      bindModule (frame :: outer) (first :: second :: rest) none module_ world = .ok () after ∧
        after.Arrives ((after.namespaceAt frame.space).get? first) first (second :: rest)
          module_ := by
  obtain ⟨root, middle, found, isRoot⟩ := rootModule_succeeds (frame :: outer) first world
  let rooted : World := middle.put frame.space first root
  have calm : world.Calm middle := (Course.still_of_obeys fun conduct =>
    conduct.obeys_rootModule (frame :: outer) first).of_ok found
  have rootIsModule : isModule rooted root = true := isRoot
  have rootedTabled : rooted.ModulesTabled :=
    (middle.calm_put frame.space first root).tabled (calm.tabled tabled)
  obtain ⟨after, grafted, -, ⟨names, -, isPrefix, last, leads⟩, places⟩ :=
    graft_arrives module_ [first] second rest rootIsModule rootedTabled
  refine ⟨after, (bind_of_ok found).trans grafted, ?_⟩
  have stored : (rooted.namespaceAt frame.space).get? first = some root :=
    (get?_put (bound.trans_le calm.lasts.spaces)).trans (if_pos rfl)
  obtain kept | ⟨isLast, put⟩ := places frame.space first root stored isRoot
  · rw [kept]
    refine ⟨names, isPrefix, ?_, leads⟩
    rw [List.getLast?_cons, last, List.getLast?_cons (a := first)]
  · rw [put]
    refine ⟨[], List.nil_prefix, ?_, rfl⟩
    rw [List.getLast?_cons_cons, isLast]
    rfl

end Exec

end Offside
