/-
This file says when two values are equal. Truth values count as one and zero, so they
equal the integers one and zero, wherever they stand, except as keys: a key stands for
itself alone. Sequences are equal element by element. A dict is equal to one of the same
size that has an equal value under each of its keys, and a set to one of the same size
that has each of its elements.

Only one inclusion is asked of dicts and sets. Together with the sizes it gives the other
one, because no key stands twice; this makes equality symmetric. With that it is an
equivalence, it does not see the order in which entries were made, and equal values that
can be hashed have the same hash.
-/

import Mathlib.Data.List.Nodup
import Mathlib.Data.List.Perm.Subperm
import Offside.Proofs.Literal.Evaluation

namespace Offside

namespace Literal

/-! ### Induction over values -/

/-- What holds of a value if it holds of its parts holds of all values. -/
@[elab_as_elim]
theorem induct {motive : Literal → Prop} (none : motive .none)
    (bool : ∀ value, motive (.bool value)) (int : ∀ value, motive (.int value))
    (str : ∀ value, motive (.str value))
    (list : ∀ elements, (∀ element ∈ elements, motive element) → motive (.list elements))
    (tuple : ∀ elements, (∀ element ∈ elements, motive element) → motive (.tuple elements))
    (dict : ∀ entries, (∀ entry ∈ entries, motive entry.1 ∧ motive entry.2) →
      motive (.dict entries))
    (set : ∀ elements, (∀ element ∈ elements, motive element) → motive (.set elements))
    (literal : Literal) : motive literal :=
  @Literal.rec motive (fun elements => ∀ element ∈ elements, motive element)
    (fun entries => ∀ entry ∈ entries, motive entry.1 ∧ motive entry.2)
    (fun entry => motive entry.1 ∧ motive entry.2)
    none bool int str list tuple dict set
    (List.forall_mem_nil _) (fun _ _ first rest => List.forall_mem_cons.mpr ⟨first, rest⟩)
    (List.forall_mem_nil _) (fun _ _ first rest => List.forall_mem_cons.mpr ⟨first, rest⟩)
    (fun _ _ => .intro) literal

/-! ### Values that can exist -/

mutual

/-- Keys of dicts and elements of sets can be hashed, and none stands twice. -/
def Consistent : Literal → Prop
  | .list elements => ConsistentAll elements
  | .tuple elements => ConsistentAll elements
  | .dict entries => ConsistentEntries entries ∧ (entries.map Prod.fst).Nodup
  | .set elements => HashableAll elements ∧ elements.Nodup
  | _ => True

def ConsistentAll : List Literal → Prop
  | [] => True
  | first :: rest => first.Consistent ∧ ConsistentAll rest

def ConsistentEntries : List (Literal × Literal) → Prop
  | [] => True
  | (key, value) :: rest => key.Hashable ∧ value.Consistent ∧ ConsistentEntries rest

end

attribute [simp] Consistent ConsistentAll ConsistentEntries

theorem consistentAll_iff (elements : List Literal) :
    ConsistentAll elements ↔ ∀ element ∈ elements, element.Consistent := by
  induction elements with
  | nil => simp [ConsistentAll]
  | cons first rest inductionHypothesis => simp [ConsistentAll, inductionHypothesis]

theorem consistentEntries_iff (entries : List (Literal × Literal)) :
    ConsistentEntries entries ↔
      ∀ entry ∈ entries, entry.1.Hashable ∧ entry.2.Consistent := by
  induction entries with
  | nil => simp [ConsistentEntries]
  | cons first rest inductionHypothesis =>
    rw [ConsistentEntries, inductionHypothesis, List.forall_mem_cons, and_assoc]

theorem depth_le_depthAll {elements : List Literal} :
    ∀ element ∈ elements, element.depth ≤ depthAll elements := by
  induction elements with
  | nil => exact List.forall_mem_nil _
  | cons first rest inductionHypothesis =>
    exact List.forall_mem_cons.mpr ⟨Nat.le_max_left _ _, fun element inside =>
      Nat.le_trans (inductionHypothesis element inside) (Nat.le_max_right _ _)⟩

theorem depth_le_depthEntries {entries : List (Literal × Literal)} :
    ∀ entry ∈ entries, entry.2.depth ≤ depthEntries entries := by
  induction entries with
  | nil => exact List.forall_mem_nil _
  | cons first rest inductionHypothesis =>
    exact List.forall_mem_cons.mpr
      ⟨Nat.le_trans (Nat.le_max_right _ _) (Nat.le_max_left _ _), fun entry inside =>
        Nat.le_trans (inductionHypothesis entry inside) (Nat.le_max_right _ _)⟩

/-! ### Equality -/

/-- The number that a value counts as. -/
def number? : Literal → Option Int64
  | .bool value => some (if value then 1 else 0)
  | .int value => some value
  | _ => Option.none

/-- The elements of a list or tuple. -/
def elements? : Literal → Option (List Literal)
  | .list elements => some elements
  | .tuple elements => some elements
  | _ => Option.none

theorem Consistent.elements? {literal : Literal} {elements : List Literal}
    (consistent : literal.Consistent) (sequence : literal.elements? = some elements) :
    ∀ element ∈ elements, element.Consistent := by
  rw [← consistentAll_iff]
  cases literal with
  | list | tuple =>
    cases sequence
    exact consistent
  | _ => cases sequence

mutual

/-- The values are equal. -/
def Same : Literal → Literal → Prop
  | .none, other => other = .none
  | .bool value, other => other.number? = some (if value then 1 else 0)
  | .int value, other => other.number? = some value
  | .str value, other => other = .str value
  | .list elements, other => ∃ others, other = .list others ∧ SameAll elements others
  | .tuple elements, other => ∃ others, other = .tuple others ∧ SameAll elements others
  | .dict entries, other => ∃ others, other = .dict others ∧ entries.length = others.length ∧
      SameEntries others entries
  | .set elements, other => ∃ others, other = .set others ∧ elements.length = others.length ∧
      elements ⊆ others

def SameAll : List Literal → List Literal → Prop
  | [], others => others = []
  | first :: rest, others => ∃ other remaining, others = other :: remaining ∧ first.Same other ∧
      SameAll rest remaining

/-- Under each key of the entries there is an equal value among the others. -/
def SameEntries (others : List (Literal × Literal)) : List (Literal × Literal) → Prop
  | [] => True
  | (key, value) :: rest =>
    (∃ other, (key, other) ∈ others ∧ value.Same other) ∧ SameEntries others rest

end

attribute [simp] Same SameAll SameEntries

theorem sameAll_iff (elements : List Literal) : ∀ others : List Literal,
    SameAll elements others ↔ List.Forall₂ Same elements others := by
  induction elements with
  | nil => simp [SameAll]
  | cons first rest inductionHypothesis =>
    intro others
    cases others with
    | nil => simp [SameAll]
    | cons other remaining => simp [SameAll, inductionHypothesis]

theorem sameEntries_iff (others entries : List (Literal × Literal)) :
    SameEntries others entries ↔
      ∀ entry ∈ entries, ∃ other, (entry.1, other) ∈ others ∧ entry.2.Same other := by
  induction entries with
  | nil => simp [SameEntries]
  | cons first rest inductionHypothesis =>
    rw [SameEntries, inductionHypothesis, List.forall_mem_cons]

/-- The two ways to make a value of elements in order. -/
inductive Ordered : (List Literal → Literal) → Prop where
  | list : Ordered .list
  | tuple : Ordered .tuple

namespace Ordered

variable {build : List Literal → Literal} (ordered : Ordered build)

include ordered

theorem consistent_iff (elements : List Literal) :
    (build elements).Consistent ↔ ∀ element ∈ elements, element.Consistent := by
  cases ordered <;> rw [Consistent, consistentAll_iff]

theorem same_iff (elements : List Literal) (other : Literal) :
    (build elements).Same other ↔ ∃ others, other = build others ∧
      List.Forall₂ Same elements others := by
  cases ordered <;> simp only [Same, sameAll_iff]

end Ordered

/-- The dicts have the same size, and one has an equal value under each key of the other. -/
theorem same_dict_iff (entries others : List (Literal × Literal)) :
    (dict entries).Same (.dict others) ↔ entries.length = others.length ∧
      ∀ entry ∈ entries, ∃ other, (entry.1, other) ∈ others ∧ entry.2.Same other := by
  rw [Same, ← sameEntries_iff]
  simp

theorem same_set_iff (elements others : List Literal) :
    (set elements).Same (.set others) ↔ elements.length = others.length ∧ elements ⊆ others := by
  rw [Same]
  simp

/-- A number is equal to what counts as the same number. -/
theorem same_of_number? {literal : Literal} {value : Int64} (counts : literal.number? = some value)
    (other : Literal) : literal.Same other ↔ other.number? = some value := by
  cases literal with
  | bool => cases counts; rw [Same]
  | int => cases counts; rw [Same]
  | _ => cases counts

/-! ### An equivalence -/

/-- Elements turn around one by one. -/
theorem forall₂_symm {elements others : List Literal}
    (each : ∀ element ∈ elements, ∀ other, element.Consistent → other.Consistent →
      element.Same other → other.Same element)
    (consistent : ∀ element ∈ elements, element.Consistent)
    (otherConsistent : ∀ other ∈ others, other.Consistent)
    (same : List.Forall₂ Same elements others) : List.Forall₂ Same others elements := by
  induction same with
  | nil => exact .nil
  | cons first rest inductionHypothesis =>
    rw [List.forall_mem_cons] at each consistent otherConsistent
    exact .cons (each.1 _ consistent.1 otherConsistent.1 first)
      (inductionHypothesis each.2 consistent.2 otherConsistent.2)

theorem forall₂_trans {elements others last : List Literal}
    (each : ∀ element ∈ elements, ∀ other last : Literal, element.Same other → other.Same last →
      element.Same last)
    (first : List.Forall₂ Same elements others) (second : List.Forall₂ Same others last) :
    List.Forall₂ Same elements last := by
  induction first generalizing last with
  | nil => exact second
  | cons head tail inductionHypothesis =>
    cases second with
    | cons next rest =>
      rw [List.forall_mem_cons] at each
      exact .cons (each.1 _ _ head next) (inductionHypothesis each.2 rest)

section Ordered

variable {build : List Literal → Literal} (ordered : Ordered build) {elements : List Literal}

include ordered

theorem Ordered.same_refl (each : ∀ element ∈ elements, element.Same element) :
    (build elements).Same (build elements) :=
  (ordered.same_iff _ _).mpr ⟨elements, rfl, List.forall₂_same.mpr each⟩

theorem Ordered.same_symm {other : Literal}
    (each : ∀ element ∈ elements, ∀ {other : Literal}, element.Consistent → other.Consistent →
      element.Same other → other.Same element)
    (consistent : (build elements).Consistent) (otherConsistent : other.Consistent)
    (same : (build elements).Same other) : other.Same (build elements) := by
  obtain ⟨others, rfl, parts⟩ := (ordered.same_iff _ _).mp same
  rw [ordered.consistent_iff] at consistent otherConsistent
  exact (ordered.same_iff _ _).mpr ⟨elements, rfl, forall₂_symm
    (fun element inside _ => each element inside) consistent otherConsistent parts⟩

theorem Ordered.same_trans {other last : Literal}
    (each : ∀ element ∈ elements, ∀ {other last : Literal}, element.Same other → other.Same last →
      element.Same last)
    (first : (build elements).Same other) (second : other.Same last) :
    (build elements).Same last := by
  obtain ⟨others, rfl, parts⟩ := (ordered.same_iff _ _).mp first
  obtain ⟨lasts, rfl, otherParts⟩ := (ordered.same_iff _ _).mp second
  exact (ordered.same_iff _ _).mpr ⟨lasts, rfl, forall₂_trans
    (fun element inside _ _ => each element inside) parts otherParts⟩

end Ordered

theorem Same.refl (literal : Literal) : literal.Same literal := by
  induction literal using Literal.induct with
  | none => rw [Same]
  | bool value => rw [Same, number?]
  | int value => rw [Same, number?]
  | str value => rw [Same]
  | list elements inductionHypothesis =>
    exact Ordered.list.same_refl inductionHypothesis
  | tuple elements inductionHypothesis =>
    exact Ordered.tuple.same_refl inductionHypothesis
  | dict entries inductionHypothesis =>
    rw [same_dict_iff]
    exact ⟨rfl, fun entry inside => ⟨entry.2, inside, (inductionHypothesis entry inside).2⟩⟩
  | set elements => exact (same_set_iff _ _).mpr ⟨rfl, List.Subset.refl _⟩

/-- What is different and as much as all there is, is all there is. -/
theorem subset_of_length {α : Type} {some all : List α} (distinct : some.Nodup)
    (inside : some ⊆ all) (lengths : some.length = all.length) : all ⊆ some :=
  ((List.subperm_of_subset distinct inside).perm_of_length_le lengths.ge).symm.subset

/-- A dict of the same size that has all the keys of another one has no others. So an entry of the
one belongs to an entry of the other, and there is only one value under its key. -/
theorem exists_partner {entries others : List (Literal × Literal)}
    (distinct : (entries.map Prod.fst).Nodup) (otherDistinct : (others.map Prod.fst).Nodup)
    (lengths : entries.length = others.length)
    (paired : ∀ entry ∈ entries, ∃ other, (entry.1, other) ∈ others ∧ entry.2.Same other) :
    ∀ other ∈ others, ∃ entry ∈ entries, entry.1 = other.1 ∧ entry.2.Same other.2 := by
  have keysInside : entries.map Prod.fst ⊆ others.map Prod.fst := by
    intro key listed
    obtain ⟨entry, inside, rfl⟩ := List.mem_map.mp listed
    obtain ⟨other, found, -⟩ := paired entry inside
    exact List.mem_map.mpr ⟨_, found, rfl⟩
  have noOthers : others.map Prod.fst ⊆ entries.map Prod.fst :=
    subset_of_length distinct keysInside (by simp [lengths])
  intro other inside
  obtain ⟨entry, entryInside, sameKey⟩ := List.mem_map.mp (noOthers (List.mem_map_of_mem inside))
  obtain ⟨partner, partnerInside, same⟩ := paired entry entryInside
  obtain rfl : (entry.1, partner) = other :=
    List.inj_on_of_nodup_map otherDistinct partnerInside inside sameKey
  exact ⟨entry, entryInside, rfl, same⟩

theorem Same.symm {literal : Literal} : ∀ {other : Literal}, literal.Consistent →
    other.Consistent → literal.Same other → other.Same literal := by
  induction literal using Literal.induct with
  | none =>
    intro other _ _ same
    rw [Same] at same
    rw [same, Same]
  | bool value =>
    intro other _ _ same
    rw [Same] at same
    rw [same_of_number? same, number?]
  | int value =>
    intro other _ _ same
    rw [Same] at same
    rw [same_of_number? same, number?]
  | str value =>
    intro other _ _ same
    rw [Same] at same
    rw [same, Same]
  | list elements inductionHypothesis => exact Ordered.list.same_symm inductionHypothesis
  | tuple elements inductionHypothesis => exact Ordered.tuple.same_symm inductionHypothesis
  | dict entries inductionHypothesis =>
    intro other consistent otherConsistent same
    obtain ⟨others, rfl, -⟩ : ∃ others, other = .dict others ∧ _ := by rwa [Same] at same
    rw [same_dict_iff] at same ⊢
    rw [Consistent, consistentEntries_iff] at consistent otherConsistent
    refine ⟨same.1.symm, fun other inside => ?_⟩
    obtain ⟨entry, entryInside, sameKey, sameValue⟩ :=
      exists_partner consistent.2 otherConsistent.2 same.1 same.2 other inside
    refine ⟨entry.2, sameKey ▸ entryInside, ?_⟩
    exact (inductionHypothesis entry entryInside).2 (consistent.1 entry entryInside).2
      (otherConsistent.1 other inside).2 sameValue
  | set elements =>
    intro other consistent otherConsistent same
    obtain ⟨others, rfl, -⟩ : ∃ others, other = .set others ∧ _ := by rwa [Same] at same
    rw [same_set_iff] at same ⊢
    rw [Consistent] at consistent
    exact ⟨same.1.symm, subset_of_length consistent.2 same.2 same.1⟩

theorem Same.trans {literal : Literal} : ∀ {other last : Literal}, literal.Same other →
    other.Same last → literal.Same last := by
  induction literal using Literal.induct with
  | none =>
    intro other last first second
    rw [Same] at first
    rwa [first] at second
  | bool value =>
    intro other last first second
    rw [Same] at first ⊢
    rwa [same_of_number? first] at second
  | int value =>
    intro other last first second
    rw [Same] at first ⊢
    rwa [same_of_number? first] at second
  | str value =>
    intro other last first second
    rw [Same] at first
    rwa [first] at second
  | list elements inductionHypothesis => exact Ordered.list.same_trans inductionHypothesis
  | tuple elements inductionHypothesis => exact Ordered.tuple.same_trans inductionHypothesis
  | dict entries inductionHypothesis =>
    intro other last first second
    obtain ⟨others, rfl, -⟩ : ∃ others, other = .dict others ∧ _ := by rwa [Same] at first
    obtain ⟨lasts, rfl, -⟩ : ∃ lasts, last = .dict lasts ∧ _ := by rwa [Same] at second
    rw [same_dict_iff] at first second ⊢
    refine ⟨first.1.trans second.1, fun entry inside => ?_⟩
    obtain ⟨other, found, same⟩ := first.2 entry inside
    obtain ⟨last, foundLast, sameLast⟩ := second.2 _ found
    exact ⟨last, foundLast, (inductionHypothesis entry inside).2 same sameLast⟩
  | set elements =>
    intro other last first second
    obtain ⟨others, rfl, -⟩ : ∃ others, other = .set others ∧ _ := by rwa [Same] at first
    obtain ⟨lasts, rfl, -⟩ : ∃ lasts, last = .set lasts ∧ _ := by rwa [Same] at second
    rw [same_set_iff] at first second ⊢
    exact ⟨first.1.trans second.1, List.Subset.trans first.2 second.2⟩

/-! ### The order of insertion -/

/-- The values are dicts or sets that were filled in different orders. -/
inductive Reordered : Literal → Literal → Prop where
  | dict {entries others : List (Literal × Literal)} (order : entries.Perm others) :
      Reordered (.dict entries) (.dict others)
  | set {elements others : List Literal} (order : elements.Perm others) :
      Reordered (.set elements) (.set others)

theorem Reordered.same {literal other : Literal} (reordered : literal.Reordered other) :
    literal.Same other := by
  cases reordered with
  | dict order =>
    rw [same_dict_iff]
    exact ⟨order.length_eq, fun entry inside => ⟨entry.2, order.subset inside, .refl _⟩⟩
  | set order => exact (same_set_iff _ _).mpr ⟨order.length_eq, order.subset⟩

theorem Reordered.symm {literal other : Literal} (reordered : literal.Reordered other) :
    other.Reordered literal := by
  cases reordered with
  | dict order => exact .dict order.symm
  | set order => exact .set order.symm

/-! ### Hashes -/

/-- A number is hashed as itself, also if it is a truth value. -/
theorem hash_of_number? {literal : Literal} {value : Int64}
    (counts : literal.number? = some value) : literal.hash = value.toUInt64 := by
  cases literal with
  | bool truth => cases truth <;> cases counts <;> rfl
  | int => cases counts; rfl
  | _ => cases counts

theorem hashAll_of_forall₂ {elements others : List Literal}
    (same : List.Forall₂ (fun element other => element.hash = other.hash) elements others) :
    ∀ start : UInt64, hashAll start elements = hashAll start others := by
  induction same with
  | nil => exact fun _ => rfl
  | cons first _ inductionHypothesis =>
    intro start
    rw [hashAll, hashAll, first, inductionHypothesis]

/-- Equal values have the same hash. -/
theorem Same.hash_eq {literal : Literal} : ∀ {other : Literal}, literal.Hashable →
    literal.Same other → literal.hash = other.hash := by
  induction literal using Literal.induct with
  | none =>
    intro other _ same
    rw [Same] at same
    rw [same]
  | bool value =>
    intro other _ same
    rw [Same] at same
    rw [hash_of_number? same, hash_of_number? rfl]
  | int value =>
    intro other _ same
    rw [Same] at same
    rw [hash_of_number? same, hash_of_number? rfl]
  | str value =>
    intro other _ same
    rw [Same] at same
    rw [same]
  | tuple elements inductionHypothesis =>
    intro other hashable same
    obtain ⟨others, rfl, parts⟩ := (Ordered.tuple.same_iff _ _).mp same
    rw [Hashable, hashableAll_iff] at hashable
    rw [Literal.hash, Literal.hash]
    exact hashAll_of_forall₂ (List.forall₂_iff_zip.mpr ⟨parts.length_eq,
      fun {element other} inside => inductionHypothesis element (List.of_mem_zip inside).1
        (hashable element (List.of_mem_zip inside).1) ((List.forall₂_iff_zip.mp parts).2 inside)⟩) _
  | list => exact fun hashable => hashable.elim
  | dict => exact fun hashable => hashable.elim
  | set => exact fun hashable => hashable.elim

end Literal

end Offside
