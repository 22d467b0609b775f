/-
This file proves that dicts refine lists of pairs, whatever is done to them. One dict is
made, and then keys are stored and removed, dicts are cleared and copied, in any order and
any number of times; a copy can be worked on like the dict that it was made from. After
every such sequence each dict shows the pairs of its list, and its entries, its buckets and
its number of entries agree with each other.

One operation takes the dicts and their lists to dicts and lists that agree again, because
all dicts but the one concerned are untouched, and their lists are too.
-/

import Mathlib.Data.List.Forall2
import Offside.Eval.Beginning
import Offside.Proofs.Mapping.Dicts

namespace Offside

open Exec Library

/-- An operation on the dicts that were made so far, which are told by their numbers. -/
inductive DictOperation where
  | insert (dict : Nat) (key value : Ref)
  | remove (dict : Nat) (key : Ref)
  | clear (dict : Nat)
  /-- The copy gets the next number. -/
  | copy (dict : Nat)

namespace DictOperation

def key? : DictOperation → Option Ref
  | .insert _ key _ => some key
  | .remove _ key => some key
  | _ => none

/-- Does an operation to the dicts of the heap. There may be no dict with the number. -/
def perform (dicts : List Ref) : DictOperation → Exec (List Ref)
  | .insert dict key value => do
    dicts[dict]?.forM (dictStore · key value)
    return dicts
  | .remove dict key => do
    dicts[dict]?.forM fun self => discard (tableRemove self key)
    return dicts
  | .clear dict => do
    dicts[dict]?.forM fun self => discard (dictClear self)
    return dicts
  | .copy dict => do
    match dicts[dict]? with
    | some self => return dicts ++ [← dictCopy self]
    | none => return dicts

/-- Does an operation to lists of pairs. -/
def follow (same : Ref → Ref → Bool) (lists : List (List (Ref × Ref))) :
    DictOperation → List (List (Ref × Ref))
  | .insert dict key value => lists.modify dict (Pairs.insert same key value)
  | .remove dict key => lists.modify dict (Pairs.remove same key)
  | .clear dict => lists.modify dict fun _ => []
  | .copy dict => lists ++ lists[dict]?.toList

/-- Does operations one after the other, beginning with one new dict. -/
def performAll (operations : List DictOperation) : Exec (List Ref) := do
  operations.foldlM perform [← newDict]

/-- Does operations one after the other, beginning with one empty list. -/
def followAll (same : Ref → Ref → Bool) (operations : List DictOperation) :
    List (List (Ref × Ref)) :=
  operations.foldl (follow same) [[]]

end DictOperation

namespace World

/-- The object is a dict in good order that shows the given pairs: under each key that there was
at the start, in number, by its keys and by its entries. -/
structure Shows (start world : World) (dict : Ref) (table : Table SlotId)
    (pairs : List (Ref × Ref)) : Prop where
  held : world.payload dict = .dict table
  inOrder : table.links.WellFormed
  hashed : ∀ entry ∈ table.entries.toList, entry.hash = world.keyHash entry.key
  keysDiffer : table.entries.toList.Pairwise fun first second =>
    world.keyEqual first.key second.key = false
  lookup : ∀ ref, start.IsPlainKey ref →
    (world.tableGet? table ref).map world.slot = Pairs.lookup start.keyEqual ref pairs
  size : table.size = pairs.length
  keys : table.keys.toList = pairs.map Prod.fst
  entries : table.entries.toList.map (fun entry => (entry.key, world.slot entry.value)) = pairs

variable {start world after : World} {dicts : List Ref}

theorem family_nil (start : World) : start.Family start [] where
  spares := ⟨Nat.le_refl _, fun _ _ => rfl⟩
  distinct := .nil
  newer := by simp
  isDict := by simp
  proper := by simp
  slotsApart := by simp

/-- Changing one dict changes one list. -/
theorem Became.map_pairs (family : start.Family world dicts) {number : Nat} {dict : Ref}
    (found : dicts[number]? = some dict) (step : List (Ref × Ref) → List (Ref × Ref))
    (became : start.Became world after dicts dict (step (world.dictPairs dict))) :
    dicts.map after.dictPairs = (dicts.map world.dictPairs).modify number step := by
  refine List.ext_getElem? fun place => ?_
  rw [List.getElem?_map, List.getElem?_modify, List.getElem?_map]
  cases there : dicts[place]? with
  | none => split <;> rfl
  | some other =>
    split
    · next same =>
      obtain rfl : dict = other := by
        rw [same, there] at found
        exact (Option.some.inj found).symm
      exact congrArg some became.pairs
    · next apart =>
      have different : other ≠ dict := by
        rintro rfl
        have bound : number < dicts.length := (List.getElem?_eq_some_iff.mp found).1
        exact apart ((List.getElem?_inj bound family.distinct).mp (found.trans there.symm))
      exact congrArg some (became.others other (List.mem_of_getElem? there) different).pairs

theorem untouched_map_pairs (untouched : ∀ other ∈ dicts, world.Untouched after other) :
    dicts.map after.dictPairs = dicts.map world.dictPairs :=
  List.map_congr_left fun other inside => (untouched other inside).pairs

/-- One operation on the dicts is one on their lists. -/
theorem Family.perform (family : start.Family world dicts) (operation : DictOperation)
    (keyed : ∀ ref ∈ operation.key?, start.IsPlainKey ref) :
    ∃ dictsAfter after, operation.perform dicts world = .ok dictsAfter after ∧
      start.Family after dictsAfter ∧
      dictsAfter.map after.dictPairs =
        operation.follow start.keyEqual (dicts.map world.dictPairs) := by
  -- An operation on a dict that is not there changes nothing.
  have absent {number : Nat} (missing : dicts[number]? = none)
      (step : List (Ref × Ref) → List (Ref × Ref)) :
      dicts.map world.dictPairs = (dicts.map world.dictPairs).modify number step := by
    rw [List.modify_eq_self]
    simpa using missing
  cases operation with
  | insert number key value =>
    cases found : dicts[number]? with
    | none =>
      exact ⟨dicts, world, by rw [DictOperation.perform, found]; rfl, family, absent found _⟩
    | some dict =>
      obtain ⟨known, denoted⟩ := (keyed key rfl).exists_key
      obtain ⟨after, stored, became⟩ :=
        family.dictStore_became (List.mem_of_getElem? found) denoted value
      refine ⟨dicts, after, ?_, became.family, became.map_pairs family found⟩
      rw [DictOperation.perform, found]
      exact bind_of_ok stored
  | remove number key =>
    cases found : dicts[number]? with
    | none =>
      exact ⟨dicts, world, by rw [DictOperation.perform, found]; rfl, family, absent found _⟩
    | some dict =>
      obtain ⟨known, denoted⟩ := (keyed key rfl).exists_key
      obtain ⟨wasThere, after, removed, became⟩ :=
        family.tableRemove_became (List.mem_of_getElem? found) denoted
      refine ⟨dicts, after, ?_, became.family, became.map_pairs family found⟩
      rw [DictOperation.perform, found]
      exact bind_of_ok (discard_of_ok removed)
  | clear number =>
    cases found : dicts[number]? with
    | none =>
      exact ⟨dicts, world, by rw [DictOperation.perform, found]; rfl, family, absent found _⟩
    | some dict =>
      obtain ⟨after, cleared, became⟩ := family.dictClear_became (List.mem_of_getElem? found)
      refine ⟨dicts, after, ?_, became.family, became.map_pairs family found fun _ => []⟩
      rw [DictOperation.perform, found]
      exact bind_of_ok (discard_of_ok cleared)
  | copy number =>
    cases found : dicts[number]? with
    | none =>
      refine ⟨dicts, world, ?_, family, ?_⟩
      · rw [DictOperation.perform, found]
        rfl
      · rw [DictOperation.follow, List.getElem?_map, found]
        exact (List.append_nil _).symm
    | some dict =>
      obtain ⟨copy, after, copied, familyAfter, pairs, untouched⟩ :=
        family.dictCopy_family (List.mem_of_getElem? found)
      refine ⟨dicts ++ [copy], after, ?_, familyAfter, ?_⟩
      · rw [DictOperation.perform, found]
        exact bind_of_ok copied
      · rw [DictOperation.follow, List.getElem?_map, found, List.map_append, List.map_singleton,
          pairs, untouched_map_pairs untouched]
        rfl

/-- Many operations on the dicts are as many on their lists. -/
theorem Family.performAll {operations : List DictOperation}
    (keyed : ∀ operation ∈ operations, ∀ ref ∈ operation.key?, start.IsPlainKey ref) :
    ∀ {world : World} {dicts : List Ref}, start.Family world dicts →
      ∃ dictsAfter after, operations.foldlM DictOperation.perform dicts world =
          .ok dictsAfter after ∧
        start.Family after dictsAfter ∧
        dictsAfter.map after.dictPairs =
          operations.foldl (DictOperation.follow start.keyEqual) (dicts.map world.dictPairs) := by
  induction operations with
  | nil => exact fun family => ⟨_, _, rfl, family, rfl⟩
  | cons operation rest inductionHypothesis =>
    intro world dicts family
    rw [List.forall_mem_cons] at keyed
    obtain ⟨dictsMiddle, middle, first, familyMiddle, pairs⟩ := family.perform operation keyed.1
    obtain ⟨dictsAfter, after, others, familyAfter, pairsAfter⟩ :=
      inductionHypothesis keyed.2 familyMiddle
    refine ⟨dictsAfter, after, ?_, familyAfter, ?_⟩
    · rw [List.foldlM_cons]
      exact (bind_of_ok first).trans others
    · rw [pairsAfter, pairs]
      rfl

/-- Keys that there were at the start are compared as they were. -/
theorem Family.keyEqual_eq (family : start.Family world dicts) {first second : Key}
    {ref other : Ref} (denoted : first.Denoted start ref)
    (otherDenoted : second.Denoted start other) : world.keyEqual ref other = start.keyEqual ref other := by
  rw [Bool.eq_iff_iff, keyEqual_iff denoted otherDenoted,
    keyEqual_iff (Key.Denoted.spared family.spares first denoted)
      (Key.Denoted.spared family.spares second otherDenoted)]

theorem Family.shows (family : start.Family world dicts) {dict : Ref} (inside : dict ∈ dicts) :
    ∃ table, start.Shows world dict table (world.dictPairs dict) := by
  obtain ⟨table, held⟩ := family.isDict dict inside
  have entries : world.dictEntries dict = table.entries.toList := dictEntries_of_payload held
  have proper := family.proper dict inside
  have pairs : world.dictPairs dict =
      table.entries.toList.map fun entry => (entry.key, world.slot entry.value) := by
    rw [dictPairs, entries]
  refine ⟨table, held, table.wellFormed, fun entry stored => ?_, ?_, fun ref plain => ?_, ?_, ?_,
    pairs.symm⟩
  · obtain ⟨key, denoted, hash⟩ := proper.keyed entry (entries ▸ stored)
    rw [hash, keyHash_key (Key.Denoted.spared family.spares key denoted)]
  · rw [← entries]
    refine proper.keysDiffer.imp_of_mem fun firstStored secondStored differ => ?_
    obtain ⟨first, firstDenoted, -⟩ := proper.keyed _ firstStored
    obtain ⟨second, secondDenoted, -⟩ := proper.keyed _ secondStored
    rw [family.keyEqual_eq firstDenoted secondDenoted, differ]
  · obtain ⟨key, denoted⟩ := plain.exists_key
    exact family.lookup_eq inside held denoted
  · rw [pairs, List.length_map, Table.size_eq, Array.length_toList]
  · rw [pairs, List.map_map, Table.keys, Array.toList_map]
    rfl

/-- After every sequence of operations each dict is in good order and shows its list. -/
theorem dicts_refine_pairs (start : World) (operations : List DictOperation)
    (keyed : ∀ operation ∈ operations, ∀ ref ∈ operation.key?, start.IsPlainKey ref) :
    ∃ dicts after, DictOperation.performAll operations start = .ok dicts after ∧
      List.Forall₂ (fun dict pairs => ∃ table, start.Shows after dict table pairs) dicts
        (DictOperation.followAll start.keyEqual operations) := by
  obtain ⟨first, middle, made, familyMiddle, -, empty, -⟩ := (family_nil start).newDict_family
  obtain ⟨dicts, after, performed, family, pairs⟩ := Family.performAll keyed familyMiddle
  refine ⟨dicts, after, (bind_of_ok made).trans performed, ?_⟩
  have lists : dicts.map after.dictPairs = DictOperation.followAll start.keyEqual operations := by
    rw [pairs, List.nil_append, List.map_singleton, empty]
    rfl
  rw [← lists, List.forall₂_map_right_iff, List.forall₂_same]
  exact fun dict inside => family.shows inside

/-- A key is stored twice, before and after a copy is made, and then removed from the copy and
stored again behind another key. -/
theorem bare_dicts_refine_pairs :
    let start := bare { files := ⟨"/", []⟩, input := "", output := "" } []
    let operations : List DictOperation :=
      [.insert 0 noneRef trueRef, .copy 0, .insert 0 noneRef falseRef, .insert 1 trueRef noneRef,
        .remove 1 noneRef, .insert 1 noneRef noneRef]
    (∀ operation ∈ operations, ∀ ref ∈ operation.key?, start.IsPlainKey ref) ∧
    DictOperation.followAll start.keyEqual operations =
      [[(noneRef, falseRef)], [(trueRef, noneRef), (noneRef, noneRef)]] ∧
    ∃ dicts after, DictOperation.performAll operations start = .ok dicts after ∧
      List.Forall₂ (fun dict pairs => ∃ table, start.Shows after dict table pairs) dicts
        (DictOperation.followAll start.keyEqual operations) := by
  intro start operations
  have absent : start.IsPlainKey noneRef := .single (by decide) trivial
  have truth : start.IsPlainKey trueRef := .single (by decide) trivial
  have keyed : ∀ operation ∈ operations, ∀ ref ∈ operation.key?, start.IsPlainKey ref := by
    simp [operations, DictOperation.key?, absent, truth]
  exact ⟨keyed, rfl, dicts_refine_pairs start operations keyed⟩

end World

end Offside
