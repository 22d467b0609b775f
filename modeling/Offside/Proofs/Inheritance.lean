/-
This file shows that looking up an attribute, which walks from class to class each time,
finds the same as one table that is filled once. The table starts with the object's own
attributes. Then the classes add theirs, the closest class first; nothing that is there
already gives way, the two names that describe a class are left out, and functions become
methods of the object.

An ancestor comes late in that table. So whatever it gains or changes, what the object
itself or a class closer to it says stays as it was.

Programs can change the base of a class, also into a circle. There is a table only where
the bases come to an end, and there the limit of the walk is never reached: all classes on
the way but the last one have a base of their own, so they are in the heap, and none of
them comes twice.
-/

import Offside.Eval.Beginning
import Offside.Proofs.Conduct.Basic

namespace Offside

namespace World

/-! ### Chains of bases -/

/-- The classes from this one on, each followed by its base, up to one without a base. -/
inductive BaseChain (world : World) : Ref → List Ref → Prop where
  | last {class_ : Ref} (ends : world.base? class_ = none) : BaseChain world class_ [class_]
  | extend {class_ base : Ref} {rest : List Ref} (extends_ : world.base? class_ = some base)
      (chain : BaseChain world base rest) : BaseChain world class_ (class_ :: rest)

section Chains

variable {world : World} {class_ : Ref} {classes : List Ref}

/-- A class with a base has an attribute, so it is an object of the heap. -/
theorem bound_of_base? {base : Ref} (extends_ : world.base? class_ = some base) :
    class_.index < world.objects.size := by
  cases held : (world.object class_).space with
  | some space => exact bound_of_space held
  | none =>
    rw [base?, ownAttribute?, attributes, held] at extends_
    cases extends_

/-- There are no more different objects than the heap has. -/
theorem length_le_of_bound {size : Nat} {refs : List Ref} (distinct : refs.Nodup)
    (bounded : ∀ ref ∈ refs, ref.index < size) : refs.length ≤ size := by
  have indices : (refs.map Ref.index).Nodup :=
    distinct.map fun ⟨_⟩ ⟨_⟩ same => congrArg Ref.mk same
  have inside : refs.map Ref.index ⊆ List.range size := by
    intro index found
    obtain ⟨ref, listed, rfl⟩ := List.mem_map.mp found
    exact List.mem_range.mpr (bounded ref listed)
  simpa using (indices.subperm inside).length_le

namespace BaseChain

theorem unique (chain : world.BaseChain class_ classes) {others : List Ref}
    (other : world.BaseChain class_ others) : classes = others := by
  induction chain generalizing others with
  | last ends =>
    cases other with
    | last => rfl
    | extend extends_ => cases ends.symm.trans extends_
  | extend extends_ _ inductionHypothesis =>
    cases other with
    | last ends => cases ends.symm.trans extends_
    | extend same rest =>
      obtain rfl := Option.some.inj (extends_.symm.trans same)
      rw [inductionHypothesis rest]

/-- From each class on it, the rest of a chain is the chain of that class. -/
theorem of_append {before after : List Ref} {middle : Ref}
    (chain : world.BaseChain class_ (before ++ middle :: after)) :
    world.BaseChain middle (middle :: after) := by
  induction before generalizing class_ with
  | nil =>
    cases chain with
    | last ends => exact .last ends
    | extend extends_ rest => exact .extend extends_ rest
  | cons first before inductionHypothesis =>
    rw [List.cons_append] at chain
    generalize same : before ++ middle :: after = rest at chain
    cases chain with
    | last => simp at same
    | extend _ rest => exact inductionHypothesis (same ▸ rest)

/-- A chain that comes to an end does not pass a class twice: it would go on from there as it went
on the first time. -/
theorem nodup (chain : world.BaseChain class_ classes) : classes.Nodup := by
  induction chain with
  | last => exact List.nodup_singleton _
  | @extend class_ base rest extends_ chain inductionHypothesis =>
    refine List.nodup_cons.mpr ⟨fun again => ?_, inductionHypothesis⟩
    obtain ⟨before, after, rfl⟩ := List.append_of_mem again
    have same := congrArg List.length ((BaseChain.extend extends_ chain).unique chain.of_append)
    simp only [List.length_cons, List.length_append] at same
    omega

theorem bound_dropLast (chain : world.BaseChain class_ classes) :
    ∀ member ∈ classes.dropLast, member.index < world.objects.size := by
  induction chain with
  | last => exact fun _ inside => by cases inside
  | @extend class_ base rest extends_ chain inductionHypothesis =>
    have more : rest ≠ [] := by cases chain <;> exact List.cons_ne_nil _ _
    rw [List.dropLast_cons_of_ne_nil more, List.forall_mem_cons]
    exact ⟨bound_of_base? extends_, inductionHypothesis⟩

theorem length_le (chain : world.BaseChain class_ classes) :
    classes.length ≤ world.objects.size + 1 := by
  have short := length_le_of_bound
    (chain.nodup.sublist (List.dropLast_sublist classes)) chain.bound_dropLast
  rw [List.length_dropLast] at short
  omega

theorem chainFrom_eq (chain : world.BaseChain class_ classes) {fuel : Nat}
    (enough : classes.length ≤ fuel) : world.chainFrom fuel class_ = classes := by
  induction chain generalizing fuel with
  | last ends =>
    obtain ⟨fuel, rfl⟩ := Nat.exists_eq_add_one.mpr enough
    rw [chainFrom, ends]
  | extend extends_ _ inductionHypothesis =>
    obtain ⟨fuel, rfl⟩ := Nat.exists_eq_add_one.mpr (Nat.zero_lt_of_lt enough)
    rw [chainFrom, extends_]
    exact congrArg _ (inductionHypothesis (Nat.le_of_succ_le_succ enough))

/-- The walk along the bases passes all of them. -/
theorem chain_eq (chain : world.BaseChain class_ classes) : world.chain class_ = classes :=
  chain.chainFrom_eq chain.length_le

end BaseChain

end Chains

/-! ### The table of all attributes -/

deriving instance DecidableEq for Found

/-- Adds what the object finds under an entry of one of its classes, unless the entry describes the
class or the table has the name. A function that is not a class becomes a method. -/
def addInherited (world : World) (receiver : Ref) (table : List (String × Found))
    (entry : String × Ref) : List (String × Found) :=
  if isClassMarker entry.1 ∨ (table.lookup entry.1).isSome then table
  else
    let found := if (world.object entry.2).function.isSome ∧ ¬ world.isClass entry.2
      then Found.method entry.2 receiver
      else Found.value entry.2
    table ++ [(entry.1, found)]

/-- Adds the entries of a class. -/
def addClass (world : World) (receiver : Ref) (table : List (String × Found)) (class_ : Ref) :
    List (String × Found) :=
  (world.attributes class_).store.foldl (world.addInherited receiver) table

/-- All attributes of an object with these classes: its own ones, and those that each class adds,
one class after the other. -/
def flattened (world : World) (ref : Ref) (classes : List Ref) : List (String × Found) :=
  classes.foldl (world.addClass ref)
    ((world.attributes ref).store.map fun entry => (entry.1, Found.value entry.2))

section Flattening

variable (world : World) (receiver : Ref) (table : List (String × Found)) (name : String)

/-- What the object finds under a name, if a class gives it this value. -/
def inherited? (value : Option Ref) : Option Found :=
  if isClassMarker name then none else value.map (world.bindTo · receiver)

theorem inherited?_or (first second : Option Ref) :
    (world.inherited? receiver name first).or (world.inherited? receiver name second) =
      world.inherited? receiver name (first.or second) := by
  unfold inherited?
  cases isClassMarker name <;> cases first <;> rfl

theorem lookup_addInherited (entry : String × Ref) :
    (world.addInherited receiver table entry).lookup name = (table.lookup name).or
      (world.inherited? receiver name (if name = entry.1 then some entry.2 else none)) := by
  have bound : (if (world.object entry.2).function.isSome ∧ ¬ world.isClass entry.2
      then Found.method entry.2 receiver else Found.value entry.2) =
      world.bindTo entry.2 receiver := by
    simp [bindTo]
  unfold addInherited inherited?
  rw [bound]
  by_cases skipped : isClassMarker entry.1 ∨ (table.lookup entry.1).isSome
  · rw [if_pos skipped]
    by_cases here : name = entry.1
    · subst here
      obtain marker | present := skipped
      · rw [if_pos marker, Option.or_none]
      · rw [Option.or_of_isSome present]
    · simp [here]
  · have unmarked : ¬ isClassMarker entry.1 := fun marker => skipped (.inl marker)
    rw [if_neg skipped, List.lookup_append]
    by_cases here : name = entry.1
    · subst here
      simp [unmarked]
    · simp [here, List.lookup_cons, beq_false_of_ne here]

theorem lookup_addEntries (entries : List (String × Ref)) :
    (entries.foldl (world.addInherited receiver) table).lookup name = (table.lookup name).or
      (world.inherited? receiver name (entries.lookup name)) := by
  induction entries generalizing table with
  | nil => simp [inherited?]
  | cons entry rest inductionHypothesis =>
    have found : (entry :: rest).lookup name =
        (if name = entry.1 then some entry.2 else none).or (rest.lookup name) := by
      rw [List.lookup_cons]
      by_cases here : name = entry.1
      · simp [here]
      · simp [here, beq_false_of_ne here]
    rw [List.foldl_cons, inductionHypothesis, lookup_addInherited, Option.or_assoc, inherited?_or,
      found]

theorem lookup_addClasses (classes : List Ref) :
    (classes.foldl (world.addClass receiver) table).lookup name = (table.lookup name).or
      (world.inherited? receiver name (world.firstIn classes name)) := by
  induction classes generalizing table with
  | nil => simp [inherited?, firstIn]
  | cons class_ rest inductionHypothesis =>
    have first : world.firstIn (class_ :: rest) name =
        (world.ownAttribute? class_ name).or (world.firstIn rest name) := by
      rw [firstIn, List.findSome?_cons]
      cases world.ownAttribute? class_ name <;> rfl
    rw [List.foldl_cons, inductionHypothesis, addClass, lookup_addEntries, Option.or_assoc,
      inherited?_or, first]
    rfl

theorem lookup_flattened (ref : Ref) (classes : List Ref) :
    (world.flattened ref classes).lookup name = ((world.ownAttribute? ref name).map .value).or
      (world.inherited? ref name (world.firstIn classes name)) := by
  have own (entries : List (String × Ref)) :
      (entries.map fun entry => (entry.1, Found.value entry.2)).lookup name =
        (entries.lookup name).map .value := by
    induction entries with
    | nil => rfl
    | cons entry rest inductionHypothesis =>
      rw [List.map_cons, List.lookup_cons, List.lookup_cons, inductionHypothesis]
      cases name == entry.1 <;> rfl
  rw [flattened, lookup_addClasses, own]
  rfl

variable {world}

theorem lookup_of_not_isClass {ref : Ref} (plain : world.isClass ref = false) :
    world.lookup ref name = ((world.ownAttribute? ref name).map .value).or
      (world.inherited? ref name
        (world.firstIn (world.chain (world.object ref).class_) name)) := by
  rw [lookup, inherited?, plain]
  cases world.ownAttribute? ref name <;> rfl

end Flattening

/-! ### Changes of an ancestor -/

/-- The two objects keep their attributes apart: where the first one has a table, it is not the
table of the other. -/
def KeepApart (world : World) (owner other : Ref) : Prop :=
  owner ≠ other ∧ ∀ space, (world.object owner).space = some space →
    space.index < world.spaces.size ∧ (world.object other).space ≠ some space

/-- These owners still have the attributes that they had, and every object is of the kind that it
was of. -/
structure Spares (before after : World) (owners : List Ref) : Prop where
  objects : before.objects.size ≤ after.objects.size
  kinds : ∀ ref : Ref, (after.object ref).class_ = (before.object ref).class_ ∧
    (after.object ref).function = (before.object ref).function
  own : ∀ owner ∈ owners, after.attributes owner = before.attributes owner

section Changes

variable {before after : World} {ref ancestor : Ref} {closer farther : List Ref} {name : String}

theorem firstIn_congr {classes : List Ref}
    (same : ∀ class_ ∈ classes,
      after.ownAttribute? class_ name = before.ownAttribute? class_ name) :
    after.firstIn classes name = before.firstIn classes name := by
  induction classes with
  | nil => rfl
  | cons class_ rest inductionHypothesis =>
    obtain ⟨sameHere, sameThere⟩ := List.forall_mem_cons.mp same
    have inRest := inductionHypothesis sameThere
    simp only [firstIn, List.findSome?_cons] at inRest ⊢
    rw [sameHere, inRest]

namespace Spares

theorem isClass {owners : List Ref} (spares : before.Spares after owners) (ref : Ref) :
    after.isClass ref = before.isClass ref := by
  rw [World.isClass, World.isClass, (spares.kinds ref).1]

theorem bindTo {owners : List Ref} (spares : before.Spares after owners) (value receiver : Ref) :
    after.bindTo value receiver = before.bindTo value receiver := by
  rw [World.bindTo, World.bindTo, spares.isClass, (spares.kinds value).2]

theorem ownAttribute? {owners : List Ref} (spares : before.Spares after owners) {owner : Ref}
    (inside : owner ∈ owners) (name : String) :
    after.ownAttribute? owner name = before.ownAttribute? owner name := by
  rw [World.ownAttribute?, World.ownAttribute?, spares.own owner inside]

/-- Where the classes closer than an ancestor are spared, the walk still begins with them. -/
theorem chainFrom_append (spares : before.Spares after closer) {class_ : Ref}
    (chain : before.BaseChain class_ (closer ++ ancestor :: farther)) {fuel : Nat}
    (enough : closer.length ≤ fuel) : ∃ rest, after.chainFrom fuel class_ = closer ++ rest := by
  induction closer generalizing class_ fuel with
  | nil => exact ⟨_, rfl⟩
  | cons first closer inductionHypothesis =>
    obtain ⟨fuel, rfl⟩ := Nat.exists_eq_add_one.mpr (Nat.zero_lt_of_lt enough)
    rw [List.cons_append] at chain
    generalize split : closer ++ ancestor :: farther = others at chain
    cases chain with
    | last => simp at split
    | @extend _ base _ extends_ chain =>
      have still : after.base? first = some base := by
        rw [← extends_, base?, base?, spares.ownAttribute? List.mem_cons_self]
        simp only [spares.isClass]
      obtain ⟨rest, walked⟩ := inductionHypothesis
        ⟨spares.objects, spares.kinds, (List.forall_mem_cons.mp spares.own).2⟩ (split ▸ chain)
        (Nat.le_of_succ_le_succ enough)
      refine ⟨rest, ?_⟩
      rw [chainFrom, still]
      exact congrArg (first :: ·) walked

/-- What an object or a class closer than an ancestor says is found as before, if those are
spared. -/
theorem lookup (spares : before.Spares after (ref :: closer)) (plain : before.isClass ref = false)
    (chain : before.BaseChain (before.object ref).class_ (closer ++ ancestor :: farther))
    (defined : ∃ owner ∈ ref :: closer, (before.ownAttribute? owner name).isSome) :
    after.lookup ref name = before.lookup ref name := by
  obtain ⟨sparesRef, sparesCloser⟩ := List.forall_mem_cons.mp spares.own
  have short : closer.length ≤ after.objects.size + 1 := by
    have bounded := chain.length_le
    rw [List.length_append, List.length_cons] at bounded
    have larger := spares.objects
    omega
  obtain ⟨rest, walked⟩ := chainFrom_append ⟨spares.objects, spares.kinds, sparesCloser⟩ chain short
  have said : after.firstIn closer name = before.firstIn closer name :=
    firstIn_congr fun owner inside => spares.ownAttribute? (List.mem_cons_of_mem _ inside) name
  rw [lookup_of_not_isClass name plain, chain.chain_eq,
    lookup_of_not_isClass name ((spares.isClass ref).trans plain), (spares.kinds ref).1,
    World.chain, walked, spares.ownAttribute? List.mem_cons_self]
  obtain ⟨owner, inside, has⟩ := defined
  obtain rfl | inside := List.mem_cons.mp inside
  · obtain ⟨value, own⟩ := Option.isSome_iff_exists.mp has
    rw [own]
    rfl
  · obtain ⟨value, first⟩ : ∃ value, before.firstIn closer name = some value :=
      Option.isSome_iff_exists.mp (List.findSome?_isSome_iff.mpr ⟨owner, inside, has⟩)
    have foundAfter : after.firstIn (closer ++ rest) name = some value := by
      rw [firstIn, List.findSome?_append, ← firstIn, said, first]
      rfl
    have foundBefore : before.firstIn (closer ++ ancestor :: farther) name = some value := by
      rw [firstIn, List.findSome?_append, ← firstIn, first]
      rfl
    rw [foundAfter, foundBefore]
    simp only [inherited?, Option.map_some, spares.bindTo]

end Spares

theorem attributes_congr {owner : Ref} (object : after.object owner = before.object owner)
    (spaces : ∀ space, (before.object owner).space = some space →
      after.namespaceAt space = before.namespaceAt space) :
    after.attributes owner = before.attributes owner := by
  rw [attributes, attributes, object]
  cases held : (before.object owner).space with
  | none => rfl
  | some space => exact spaces space held

theorem object_setSpace (world : World) (other : Ref) (space : SpaceId) (ref : Ref) :
    let after : World := { world with
      objects := world.objects.modify other.index fun object =>
        { object with space := some space } }
    (after.object ref).class_ = (world.object ref).class_ ∧
      (after.object ref).function = (world.object ref).function ∧
      (ref ≠ other → after.object ref = world.object ref) := by
  obtain ⟨index⟩ := ref
  obtain ⟨changed⟩ := other
  simp only [object, Array.getD_eq_getD_getElem?, Array.getElem?_modify, ne_eq, Ref.mk.injEq]
  by_cases here : changed = index
  · subst here
    rw [if_pos rfl]
    cases world.objects[changed]? with
    | none => exact ⟨rfl, rfl, fun different => absurd rfl different⟩
    | some object => exact ⟨rfl, rfl, fun different => absurd rfl different⟩
  · rw [if_neg here]
    exact ⟨rfl, rfl, fun _ => rfl⟩

/-- Making room for the attributes of an object spares all owners that keep theirs apart from it,
and none of them has the room. -/
theorem spares_spaceOf {world : World} {other : Ref} {owners : List Ref}
    (apart : ∀ owner ∈ owners, world.KeepApart owner other) :
    ∃ room after, Exec.spaceOf other world = .ok room after ∧ world.Spares after owners ∧
      ∀ owner ∈ owners, ∀ space, (after.object owner).space = some space → space ≠ room := by
  cases held : (world.object other).space with
  | some room =>
    refine ⟨room, world, ?_, ⟨Nat.le_refl _, fun _ => ⟨rfl, rfl⟩, fun _ _ => rfl⟩,
      fun owner inside space own same => ((apart owner inside).2 space own).2 (same ▸ held)⟩
    rw [Exec.spaceOf, Exec.read_bind, held]
    rfl
  | none =>
    let fresh : SpaceId := ⟨world.spaces.size⟩
    let roomy : World := { world with spaces := world.spaces.push .empty }
    let after : World := { roomy with
      objects := roomy.objects.modify other.index fun object =>
        { object with space := some fresh } }
    have kinds (ref : Ref) := object_setSpace roomy other fresh ref
    have kept : ∀ owner ∈ owners, after.object owner = world.object owner := fun owner inside =>
      (kinds owner).2.2 (apart owner inside).1
    refine ⟨fresh, after, ?_, ⟨by simp [after, roomy], fun ref => ⟨(kinds ref).1, (kinds ref).2.1⟩,
      fun owner inside => ?_⟩, fun owner inside space own same => ?_⟩
    · rw [Exec.spaceOf, Exec.read_bind, held]
      rfl
    · refine attributes_congr (kept owner inside) fun space own => ?_
      have bound := ((apart owner inside).2 space own).1
      simp [namespaceAt, after, roomy, Array.getElem?_push, Nat.ne_of_lt bound]
    · rw [kept owner inside] at own
      have bound := ((apart owner inside).2 space own).1
      rw [same] at bound
      exact Nat.lt_irrefl _ bound

/-- Giving an object an attribute spares all owners that keep theirs apart from it. -/
theorem spares_setAttribute {world : World} {other : Ref} {owners : List Ref}
    (apart : ∀ owner ∈ owners, world.KeepApart owner other) (key : String) (value : Ref) :
    ∃ after, Exec.setAttribute other key value world = .ok () after ∧
      world.Spares after owners := by
  obtain ⟨room, middle, made, spares, others⟩ := spares_spaceOf apart
  refine ⟨{ middle with spaces := middle.spaces.modify room.index (·.set key value) }, ?_,
    spares.objects, spares.kinds, fun owner inside => ?_⟩
  · rw [Exec.setAttribute, Exec.bind_of_ok made]
    rfl
  · rw [← spares.own owner inside]
    exact attributes_congr rfl fun space own =>
      namespaceAt_modify_of_ne (others owner inside space own) _

/-- Looking up an attribute finds what the table of all attributes holds, for an object that is not
a class, if the bases of its class come to an end. So a name that the object or a class closer than
an ancestor defines is found as before after the ancestor gained or changed an attribute, as long
as the ancestor's attributes are not kept in the same place as theirs. -/
theorem lookup_eq_flattened {world : World} {ref : Ref} {classes : List Ref}
    (plain : world.isClass ref = false)
    (chain : world.BaseChain (world.object ref).class_ classes) :
    (∀ name, world.lookup ref name = (world.flattened ref classes).lookup name) ∧
    ∀ closer ancestor farther, classes = closer ++ ancestor :: farther →
      (∀ owner ∈ ref :: closer, world.KeepApart owner ancestor) →
      ∀ key value, ∃ after, Exec.setAttribute ancestor key value world = .ok () after ∧
        ∀ name, (∃ owner ∈ ref :: closer, (world.ownAttribute? owner name).isSome) →
          after.lookup ref name = world.lookup ref name := by
  refine ⟨fun name => ?_, ?_⟩
  · rw [lookup_of_not_isClass name plain, lookup_flattened, chain.chain_eq]
  · rintro closer ancestor farther rfl apart key value
    obtain ⟨after, done, spares⟩ := spares_setAttribute apart key value
    exact ⟨after, done, fun name defined => spares.lookup plain chain defined⟩

/-- An object with an attribute of its own, of a class that overrides a method of its base. The
method that it finds stays the same when the base changes it. -/
theorem overridden_method_kept :
    let start := bare { files := ⟨"/", []⟩, input := "", output := "" } []
    let ancestor : Ref := ⟨29⟩
    let class_ : Ref := ⟨30⟩
    let ref : Ref := ⟨31⟩
    let code : Function := ⟨"greet", .written ⟨[⟨"self", none⟩], []⟩ [] [], []⟩
    let world : World := { start with
      objects := start.objects ++ #[⟨BuiltinClass.klass.ref, some ⟨26⟩, .empty, none⟩,
        ⟨BuiltinClass.klass.ref, some ⟨27⟩, .empty, none⟩, ⟨class_, some ⟨28⟩, .empty, none⟩,
        ⟨BuiltinClass.function.ref, none, .empty, some code⟩]
      spaces := start.spaces ++ #[
        .setAll .empty [("greet", trueRef), ("title", trueRef), ("kind", trueRef)],
        .setAll .empty [("__base__", ancestor), ("greet", ⟨32⟩)], .set .empty "title" noneRef] }
    (world.isClass ref = false ∧ world.BaseChain class_ [class_, ancestor] ∧
      ∀ owner ∈ [ref, class_], world.KeepApart owner ancestor) ∧
    world.lookup ref "greet" = some (.method ⟨32⟩ ref) ∧
    world.lookup ref "title" = some (.value noneRef) ∧
    world.lookup ref "kind" = some (.value trueRef) ∧
    world.lookup ref "__base__" = none ∧
    ∃ after, Exec.setAttribute ancestor "greet" noneRef world = .ok () after ∧
      after.lookup ref "greet" = some (.method ⟨32⟩ ref) := by
  intro start ancestor class_ ref code world
  have plain : world.isClass ref = false := by decide
  have chain : world.BaseChain (world.object ref).class_ [class_, ancestor] :=
    .extend (show world.base? class_ = some ancestor by decide)
      (.last (show world.base? ancestor = none by decide))
  have apart : ∀ owner ∈ [ref, class_], world.KeepApart owner ancestor := by
    refine List.forall_mem_cons.mpr ⟨⟨by decide, fun space own => ?_⟩,
      List.forall_mem_singleton.mpr ⟨by decide, fun space own => ?_⟩⟩
    · obtain rfl : ⟨28⟩ = space := Option.some.inj own
      decide
    · obtain rfl : ⟨27⟩ = space := Option.some.inj own
      decide
  obtain ⟨flat, unchanged⟩ := lookup_eq_flattened plain chain
  obtain ⟨after, done, same⟩ := unchanged [class_] ancestor [] rfl apart "greet" noneRef
  have greet : world.lookup ref "greet" = some (.method ⟨32⟩ ref) :=
    (flat "greet").trans (by decide +kernel)
  refine ⟨⟨plain, chain, apart⟩, greet, (flat "title").trans (by decide +kernel),
    (flat "kind").trans (by decide +kernel), (flat "__base__").trans (by decide +kernel), after,
    done, ?_⟩
  exact (same "greet" ⟨class_, by simp, by decide⟩).trans greet

end Changes

end World

end Offside
