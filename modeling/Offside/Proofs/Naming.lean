/-
This file tells what a table of names shows from the changes that were made to it. From an
empty table on, names are bound, unbound and announced in any order and any number of
times. Each kind of change touches a part of the table only: unbinding a name does not
settle it, and announcing a name does not unbind it, so that a name can be bound and
pending at once.

The latest change of two kinds decides. A name has the value of the latest change that
bound it, if it was not unbound after that. It is pending if the latest change that bound
or announced it has announced it. And its place among the names is that of the latest
change that bound it while it was not bound.

A scope is a chain of such tables. The first one in which a name is pending or bound
decides what the name means there.
-/

import Mathlib.Data.List.Induction
import Mathlib.Data.List.Nodup
import Offside.Proofs.Raising

namespace Offside

namespace Namespace

/-! ### Changes of a table -/

/-- A change of a table of names. -/
inductive Change where
  | set (name : String) (value : Ref)
  | erase (name : String)
  | announce (name : String)
deriving Repr, DecidableEq

namespace Change

def apply (table : Namespace) : Change → Namespace
  | .set name value => table.set name value
  | .erase name => table.erase name
  | .announce name => table.announce name

/-- The change binds or unbinds the name. -/
def rebinds (name : String) : Change → Bool
  | .set other _ => other == name
  | .erase other => other == name
  | .announce _ => false

/-- The change announces the name, or settles it because it binds it. -/
def marks (name : String) : Change → Bool
  | .set other _ => other == name
  | .erase _ => false
  | .announce other => other == name

end Change

/-- The table that the changes make of an empty one. -/
def after (changes : List Change) : Namespace :=
  changes.foldl Change.apply .empty

/-- The latest of the changes that is of this kind. -/
def latest? (kind : Change → Bool) (changes : List Change) : Option Change :=
  changes.reverse.find? kind

section Step

variable {changes : List Change} {change : Change} {kind : Change → Bool}

theorem after_concat : after (changes ++ [change]) = change.apply (after changes) :=
  List.foldl_append

theorem latest?_concat :
    latest? kind (changes ++ [change]) =
      if kind change then some change else latest? kind changes := by
  rw [latest?, List.reverse_append, List.reverse_singleton, List.singleton_append, List.find?_cons]
  cases kind change <;> rfl

end Step

/-! ### The parts of a table agree -/

/-- The names are told apart, and are those that have a value. -/
structure Consistent (table : Namespace) : Prop where
  nodup : table.names.Nodup
  mem_iff : ∀ name, name ∈ table.names ↔ (table.get? name).isSome

namespace Consistent

variable {table : Namespace}

theorem empty : Namespace.empty.Consistent :=
  ⟨.nil, fun _ => ⟨nofun, nofun⟩⟩

theorem not_mem (consistent : table.Consistent) {name : String}
    (unbound : table.get? name = none) : name ∉ table.names := by
  rw [consistent.mem_iff, unbound]
  exact Bool.false_ne_true

theorem set (consistent : table.Consistent) (name : String) (value : Ref) :
    (table.set name value).Consistent := by
  cases found : table.get? name with
  | some bound =>
    have names : (table.set name value).names = table.names := by rw [names_set, found]; rfl
    refine ⟨names ▸ consistent.nodup, fun other => ?_⟩
    rw [names, consistent.mem_iff, get?_set]
    split
    next same => simp [same, found]
    next => rfl
  | none =>
    have names : (table.set name value).names = table.names ++ [name] := by
      rw [names_set, found]; rfl
    refine ⟨?_, fun other => ?_⟩
    · rw [names, List.nodup_append]
      refine ⟨consistent.nodup, List.pairwise_singleton _ _, fun other listed last isLast same => ?_⟩
      rw [List.mem_singleton] at isLast
      rw [same, isLast] at listed
      exact consistent.not_mem found listed
    · rw [names, List.mem_append, List.mem_singleton, consistent.mem_iff, get?_set]
      split
      next same => simp [same]
      next different => simp [different]

theorem erase (consistent : table.Consistent) (name : String) : (table.erase name).Consistent := by
  cases found : table.get? name with
  | none => rwa [erase_of_unbound found]
  | some bound =>
    have names := names_erase_of_bound (Option.isSome_of_eq_some found)
    refine ⟨names ▸ consistent.nodup.filter _, fun other => ?_⟩
    rw [names, List.mem_filter, consistent.mem_iff, get?_erase, bne_iff_ne]
    split
    next same => simp [same]
    next different => simp [different]

theorem announce (consistent : table.Consistent) (name : String) :
    (table.announce name).Consistent :=
  ⟨consistent.nodup, consistent.mem_iff⟩

end Consistent

/-- Nothing is left out of the entries, and they come in the order of the names. -/
theorem Consistent.map_fst_entries {table : Namespace} (consistent : table.Consistent) :
    table.entries.map Prod.fst = table.names := by
  rw [entries, List.map_filterMap]
  have shown : ∀ name ∈ table.names,
      ((table.get? name).map (name, ·)).map Prod.fst = some name := by
    intro name listed
    obtain ⟨value, found⟩ := Option.isSome_iff_exists.mp ((consistent.mem_iff name).mp listed)
    rw [found]
    rfl
  calc
    _ = table.names.filterMap some := List.filterMap_congr shown
    _ = table.names := List.filterMap_some

theorem consistent_after (changes : List Change) : (after changes).Consistent := by
  induction changes using List.reverseRecOn with
  | nil => exact .empty
  | append_singleton changes change inductionHypothesis =>
    rw [after_concat]
    cases change with
    | set name value => exact inductionHypothesis.set name value
    | erase name => exact inductionHypothesis.erase name
    | announce name => exact inductionHypothesis.announce name

/-! ### Values and marks -/

theorem get?_after (changes : List Change) (name : String) (value : Ref) :
    (after changes).get? name = some value ↔
      latest? (Change.rebinds name) changes = some (.set name value) := by
  induction changes using List.reverseRecOn with
  | nil => exact ⟨nofun, nofun⟩
  | append_singleton changes change inductionHypothesis =>
    rw [after_concat, latest?_concat]
    cases change with
    | set other bound =>
      rw [Change.apply, get?_set, Change.rebinds]
      by_cases same : name = other
      · simp [same]
      · rw [if_neg same, if_neg (by simpa using Ne.symm same), inductionHypothesis]
    | erase other =>
      rw [Change.apply, get?_erase, Change.rebinds]
      by_cases same : name = other
      · simp [same]
      · rw [if_neg same, if_neg (by simpa using Ne.symm same), inductionHypothesis]
    | announce other => exact inductionHypothesis

theorem isPending_after (changes : List Change) (name : String) :
    (after changes).isPending name = true ↔
      latest? (Change.marks name) changes = some (.announce name) := by
  induction changes using List.reverseRecOn with
  | nil => exact ⟨nofun, nofun⟩
  | append_singleton changes change inductionHypothesis =>
    rw [after_concat, latest?_concat]
    cases change with
    | set other bound =>
      rw [Change.apply, Change.marks]
      by_cases same : name = other
      · subst same
        simp [isPending_set]
      · rw [isPending_set_of_ne _ same, if_neg (by simpa using Ne.symm same), inductionHypothesis]
    | erase other =>
      rw [Change.apply, isPending, pending_erase]
      exact inductionHypothesis
    | announce other =>
      rw [Change.apply, isPending_announce, Change.marks]
      by_cases same : name = other
      · simp [same]
      · rw [beq_false_of_ne same, Bool.false_or, if_neg (by simpa using Ne.symm same),
          inductionHypothesis]

/-! ### The order of the names -/

/-- The change at this place binds the name, and the changes before it have left it unbound. -/
def BindsAnew (changes : List Change) (name : String) (place : Nat) : Prop :=
  (∃ value, changes[place]? = some (.set name value)) ∧
    ∀ found, latest? (Change.rebinds name) (changes.take place) ≠ some (.set name found)

/-- The latest change that binds the name anew is at this place. -/
structure AddedAt (changes : List Change) (name : String) (place : Nat) : Prop where
  anew : BindsAnew changes name place
  latest : ∀ other, BindsAnew changes name other → other ≤ place

/-- The first name was added before the second one. -/
def AddedBefore (changes : List Change) (first second : String) : Prop :=
  ∃ early late, AddedAt changes first early ∧ AddedAt changes second late ∧ early < late

/-- Every name of the table was added at some place, and the names are in the order of these
places. -/
structure InOrder (changes : List Change) : Prop where
  added : ∀ name ∈ (after changes).names, ∃ place, AddedAt changes name place
  ordered : (after changes).names.Pairwise (AddedBefore changes)

section Order

variable {changes : List Change} {change : Change} {name : String} {place : Nat}

theorem BindsAnew.lt_length (anew : BindsAnew changes name place) : place < changes.length := by
  obtain ⟨⟨value, found⟩, -⟩ := anew
  exact (List.getElem?_eq_some_iff.mp found).1

theorem bindsAnew_concat_of_lt (within : place < changes.length) :
    BindsAnew (changes ++ [change]) name place ↔ BindsAnew changes name place := by
  rw [BindsAnew, BindsAnew, List.getElem?_append_left within,
    List.take_append_of_le_length (Nat.le_of_lt within)]

/-- The last change binds a name anew if the table behind the others does not bind it. -/
theorem bindsAnew_concat_length :
    BindsAnew (changes ++ [change]) name changes.length ↔
      (∃ value, change = .set name value) ∧ (after changes).get? name = none := by
  rw [BindsAnew, List.getElem?_concat_length, List.take_left, Option.eq_none_iff_forall_ne_some]
  simp only [Option.some.injEq, ne_eq, get?_after]

/-- A change that does not bind the name anew leaves the place where it was added. -/
theorem AddedAt.concat (added : AddedAt changes name place)
    (kept : ∀ value, change = .set name value → (after changes).get? name ≠ none) :
    AddedAt (changes ++ [change]) name place := by
  refine ⟨(bindsAnew_concat_of_lt added.anew.lt_length).mpr added.anew, fun other anew => ?_⟩
  have within := anew.lt_length
  rw [List.length_append, List.length_singleton] at within
  obtain before | rfl := Nat.lt_succ_iff_lt_or_eq.mp within
  · exact added.latest other ((bindsAnew_concat_of_lt before).mp anew)
  · obtain ⟨⟨value, same⟩, unbound⟩ := bindsAnew_concat_length.mp anew
    exact absurd unbound (kept value same)

theorem addedAt_length (unbound : (after changes).get? name = none) (value : Ref) :
    AddedAt (changes ++ [.set name value]) name changes.length := by
  refine ⟨bindsAnew_concat_length.mpr ⟨⟨value, rfl⟩, unbound⟩, fun other anew => ?_⟩
  have within := anew.lt_length
  rw [List.length_append, List.length_singleton] at within
  exact Nat.le_of_lt_succ within

/-- A change that brings no new name leaves the order of those that stay. -/
theorem InOrder.concat (inOrder : InOrder changes)
    (fewer : (after (changes ++ [change])).names.Sublist (after changes).names) :
    InOrder (changes ++ [change]) := by
  have kept {name : String} {place : Nat} (added : AddedAt changes name place) :
      AddedAt (changes ++ [change]) name place := by
    -- A name that the change binds is listed behind it, and so it was listed before.
    refine added.concat ?_
    rintro value rfl unbound
    have listed : name ∈ (after (changes ++ [.set name value])).names := by
      rw [(consistent_after _).mem_iff, after_concat, Change.apply, get?_set, if_pos rfl]
      rfl
    exact (consistent_after changes).not_mem unbound (fewer.subset listed)
  refine ⟨fun name listed => ?_, ?_⟩
  · obtain ⟨place, added⟩ := inOrder.added name (fewer.subset listed)
    exact ⟨place, kept added⟩
  · refine (inOrder.ordered.sublist fewer).imp fun ⟨early, late, first, second, less⟩ => ?_
    exact ⟨early, late, kept first, kept second, less⟩

/-- A name that is bound anew comes behind all others. -/
theorem InOrder.concat_set (inOrder : InOrder changes)
    (unbound : (after changes).get? name = none) (value : Ref) :
    InOrder (changes ++ [.set name value]) := by
  have names : (after (changes ++ [.set name value])).names = (after changes).names ++ [name] := by
    rw [after_concat, Change.apply, names_set, unbound]
    rfl
  have last := addedAt_length unbound value
  have kept {other : String} (listed : other ∈ (after changes).names) {place : Nat}
      (added : AddedAt changes other place) :
      AddedAt (changes ++ [.set name value]) other place := by
    refine added.concat ?_
    rintro _ same -
    cases same
    exact (consistent_after changes).not_mem unbound listed
  refine ⟨?_, ?_⟩
  · rw [names, List.forall_mem_append, List.forall_mem_singleton]
    refine ⟨fun other listed => ?_, _, last⟩
    obtain ⟨place, added⟩ := inOrder.added other listed
    exact ⟨place, kept listed added⟩
  · rw [names, List.pairwise_append]
    refine ⟨inOrder.ordered.imp_of_mem ?_, List.pairwise_singleton _ _, fun other listed => ?_⟩
    · rintro first second firstListed secondListed ⟨early, late, firstAdded, secondAdded, less⟩
      exact ⟨early, late, kept firstListed firstAdded, kept secondListed secondAdded, less⟩
    · obtain ⟨place, added⟩ := inOrder.added other listed
      rw [List.forall_mem_singleton]
      exact ⟨place, _, kept listed added, last, added.anew.lt_length⟩

end Order

theorem inOrder_after (changes : List Change) : InOrder changes := by
  induction changes using List.reverseRecOn with
  | nil => exact ⟨List.forall_mem_nil _, .nil⟩
  | append_singleton changes change inductionHypothesis =>
    cases change with
    | set name value =>
      cases found : (after changes).get? name with
      | none => exact inductionHypothesis.concat_set found value
      | some bound =>
        have same : (after (changes ++ [.set name value])).names = (after changes).names := by
          rw [after_concat, Change.apply, names_set, found]
          rfl
        exact inductionHypothesis.concat (by rw [same])
    | erase name =>
      refine inductionHypothesis.concat ?_
      rw [after_concat, Change.apply]
      exact names_erase_sublist _ name
    | announce name =>
      have same : (after (changes ++ [.announce name])).names = (after changes).names := by
        rw [after_concat]
        rfl
      exact inductionHypothesis.concat (by rw [same])

end Namespace

/-! ### Scopes -/

/-- The name is pending or bound in the table. -/
def Namespace.knows (table : Namespace) (name : String) : Bool :=
  table.isPending name || (table.get? name).isSome

/-- Looking a name up ends as its meaning says. -/
theorem Exec.lookupName_eq (env : Env) (name : String) (world : World) :
    lookupName env name world =
      (match world.meaning env name with
        | .bound value => pure value
        | .pending => complain (.pendingName name)
        | .undefined => complain (.undefinedName name) : Exec Ref) world :=
  rfl

namespace World

/-- What a name means where the given table, if any, is the first of the scope to know it, and how
looking it up ends there. -/
def DecidedBy (world : World) (env : Env) (name : String) : Option Namespace → Prop
  | none =>
    world.meaning env name = .undefined ∧
      Exec.Raises (Exec.lookupName env name) world .nameError
        ("name " ++ Complaint.named name ++ " is not defined")
  | some table =>
    if table.isPending name then
      world.meaning env name = .pending ∧
        Exec.Raises (Exec.lookupName env name) world .importError
          ("cannot use name " ++ Complaint.named name ++
            " before its circular import has completed")
    else
      ∃ value, table.get? name = some value ∧ world.meaning env name = .bound value ∧
        Exec.lookupName env name world = .ok value world

theorem isSome_meaning? (table : Namespace) (name : String) :
    (table.meaning? name).isSome = table.knows name := by
  rw [Namespace.meaning?, Namespace.knows]
  split
  next waits => rw [waits]; rfl
  next settled => rw [Option.isSome_map, Bool.eq_false_of_not_eq_true settled, Bool.false_or]

/-- A scope asks the first of its tables that knows the name, and no other one. -/
theorem meaning_eq_find? (world : World) (env : Env) (name : String) :
    world.meaning env name =
      (((env.map fun frame => world.namespaceAt frame.space).find? (·.knows name)).bind
        (·.meaning? name)).getD .undefined := by
  rw [World.meaning]
  congr 1
  induction env with
  | nil => rfl
  | cons frame outer inductionHypothesis =>
    rw [List.findSome?_cons, List.map_cons, List.find?_cons]
    have knows := isSome_meaning? (world.namespaceAt frame.space) name
    cases means : (world.namespaceAt frame.space).meaning? name with
    | none =>
      rw [means] at knows
      rw [← knows]
      exact inductionHypothesis
    | some meaning =>
      rw [means] at knows
      rw [← knows]
      exact means.symm

/-- What a name means is decided by the first table of the scope that knows it. -/
theorem decidedBy_first (world : World) (env : Env) (name : String) :
    world.DecidedBy env name
      ((env.map fun frame => world.namespaceAt frame.space).find? (·.knows name)) := by
  have means := meaning_eq_find? world env name
  have looks := Exec.lookupName_eq env name world
  cases found : (env.map fun frame => world.namespaceAt frame.space).find? (·.knows name) with
  | none =>
    rw [found] at means
    rw [means] at looks
    exact ⟨means, (Exec.raises_complain rfl world).of_eq looks⟩
  | some table =>
    have knows := List.find?_some found
    rw [found, Option.bind_some, Namespace.meaning?] at means
    rw [DecidedBy]
    split
    next waits =>
      rw [if_pos waits] at means
      rw [means] at looks
      exact ⟨means, (Exec.raises_complain rfl world).of_eq looks⟩
    next settled =>
      rw [Namespace.knows, Bool.eq_false_of_not_eq_true settled, Bool.false_or,
        Option.isSome_iff_exists] at knows
      obtain ⟨value, bound⟩ := knows
      rw [if_neg settled, bound] at means
      rw [means] at looks
      exact ⟨value, bound, means, looks⟩

end World

/-- A table shows the changes that were made to it. Its names are told apart, are those that its
store gives a value, and are in the order in which they were added; a name has the value of the
latest change that bound it, if it was not unbound after that; and it is pending if the latest
change that bound or announced it has announced it. In a scope the first table in which a name is
pending or bound decides what the name means. -/
theorem Namespace.follows_changes (changes : List Namespace.Change) :
    (after changes).names.Nodup ∧
    (∀ name, name ∈ (after changes).names ↔ ((after changes).store.lookup name).isSome) ∧
    InOrder changes ∧
    (∀ name value, (after changes).get? name = some value ↔
      latest? (Change.rebinds name) changes = some (.set name value)) ∧
    (∀ name, (after changes).isPending name = true ↔
      latest? (Change.marks name) changes = some (.announce name)) ∧
    ∀ (world : World) (env : Env) (name : String), world.DecidedBy env name
      ((env.map fun frame => world.namespaceAt frame.space).find? (·.knows name)) :=
  ⟨(consistent_after changes).nodup, (consistent_after changes).mem_iff, inOrder_after changes,
    get?_after changes, isPending_after changes, World.decidedBy_first⟩

/-- Binding a name again keeps its place, and it comes last if it was unbound before. Unbinding a
name that is not bound changes nothing, and unbinding a pending one leaves it pending. -/
example :
    (Namespace.after [.set "a" ⟨1⟩, .set "b" ⟨2⟩, .set "c" ⟨3⟩, .announce "a", .erase "a",
      .set "b" ⟨4⟩, .set "a" ⟨5⟩, .announce "b", .announce "d", .erase "b", .erase "d"]) =
      ⟨["c", "a"], [("c", ⟨3⟩), ("a", ⟨5⟩)], ["d", "b"]⟩ := by
  decide

end Offside
