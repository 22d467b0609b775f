/-
This file holds the tables behind dicts and sets: entries in insertion order,
found by key. Two keys are the same key when they have the same hash and are
equal; both notions are given by the caller, because they depend on what the
keys refer to.

What an entry holds besides its key is left open: the entry of a dict names the
place of its value, so that a value can be replaced without touching the entries,
and the entry of a set holds nothing else.

A table is made of linked nodes that agree with their buckets, and no other nodes
are ever a table. So what a table does can be said by its entries alone: adding
puts an entry behind all others, removing takes out the first entry of the key, and
finding goes through the entries in order.
-/

import Offside.Value.Links

namespace Offside

/-- Entries in insertion order. -/
structure Table (α : Type) where
  links : Table.Links α
  wellFormed : links.WellFormed

namespace Table

variable {α : Type}

/-- When two keys are the same key, apart from their hashes. -/
abbrev KeyEqual := Ref → Ref → Bool

def empty : Table α := ⟨.empty, [], Links.empty_inOrder⟩

instance : Inhabited (Table α) := ⟨empty⟩

def size (table : Table α) : Nat := table.links.count

/-- The entries, from the oldest to the newest. -/
def entries (table : Table α) : Array (Entry α) :=
  (table.links.walk table.links.count table.links.head).toArray

/-- The entry holds this key. -/
def Entry.holds (same : KeyEqual) (hash : UInt64) (key : Ref) (entry : Entry α) : Bool :=
  entry.hash == hash && same entry.key key

/-- The place of a key, by which its entry can be removed. -/
def place? (same : KeyEqual) (table : Table α) (hash : UInt64) (key : Ref) : Option Nat :=
  table.links.place? same hash key

/-- The entry of a key. -/
def find? (same : KeyEqual) (table : Table α) (hash : UInt64) (key : Ref) : Option (Entry α) :=
  (table.place? same hash key).bind table.links.entryAt?

/-- What the entry of a key holds. -/
def get? (same : KeyEqual) (table : Table α) (hash : UInt64) (key : Ref) : Option α :=
  (table.find? same hash key).map Entry.value

def contains (same : KeyEqual) (table : Table α) (hash : UInt64) (key : Ref) : Bool :=
  (table.find? same hash key).isSome

/-- Adds an entry at the end. -/
def push (table : Table α) (hash : UInt64) (key : Ref) (value : α) : Table α :=
  ⟨table.links.append ⟨hash, key, value⟩,
    table.wellFormed.elim fun _ inOrder => ⟨_, Links.append_inOrder inOrder _⟩⟩

theorem wellFormed_unlink (table : Table α) {place : Nat} {node : Node α}
    (found : table.links.nodes[place]? = some node)
    (live : place ∈ table.links.bucket node.entry.hash) :
    (table.links.unlink place node).WellFormed := by
  obtain ⟨order, inOrder⟩ := table.wellFormed
  rw [inOrder.bucket] at live
  obtain ⟨before, after, rfl⟩ := List.append_of_mem (List.mem_filter.mp live).1
  exact ⟨before ++ after, Links.unlink_inOrder inOrder found⟩

/-- Removes the entry at a place. Where there is none, nothing changes. -/
def remove (table : Table α) (place : Option Nat) : Table α :=
  match place with
  | none => table
  | some place =>
    match found : table.links.nodes[place]? with
    | none => table
    | some node =>
      if live : place ∈ table.links.bucket node.entry.hash then
        ⟨table.links.unlink place node, table.wellFormed_unlink found live⟩
      else table

/-- Adds a key to a table: a present key stays as it is. -/
def add (same : KeyEqual) (table : Table α) (hash : UInt64) (key : Ref) (value : α) : Table α :=
  if table.contains same hash key then table else table.push hash key value

/-- The keys, in order. -/
def keys (table : Table α) : Array Ref := table.entries.map Entry.key

/-! ### What a table does to its entries -/

/-- The entries are those of the nodes in their order. -/
theorem toList_entries {table : Table α} {order : List Nat} (inOrder : table.links.InOrder order) :
    table.entries.toList = order.filterMap table.links.entryAt? := by
  rw [entries, List.toList_toArray, inOrder.count, inOrder.head]
  exact Links.walk_segment inOrder.segment

theorem size_eq (table : Table α) : table.size = table.entries.size := by
  obtain ⟨order, inOrder⟩ := table.wellFormed
  have present (place : Nat) (inside : place ∈ order) :
      (table.links.entryAt? place).isSome = true := by
    rw [Links.entryAt?, Option.isSome_map, Array.getElem?_eq_getElem (inOrder.lt_size inside)]
    rfl
  rw [size, inOrder.count, ← Array.length_toList, toList_entries inOrder,
    List.length_filterMap_eq_countP, List.countP_eq_length.mpr present]

@[simp]
theorem entries_empty : (empty : Table α).entries = #[] :=
  rfl

theorem toList_entries_push (table : Table α) (hash : UInt64) (key : Ref) (value : α) :
    (table.push hash key value).entries.toList = table.entries.toList ++ [⟨hash, key, value⟩] := by
  obtain ⟨order, inOrder⟩ := table.wellFormed
  have pushed : (table.push hash key value).links.InOrder (order ++ [table.links.nodes.size]) :=
    Links.append_inOrder inOrder _
  rw [toList_entries pushed, toList_entries inOrder, List.filterMap_append]
  have older : order.filterMap (table.push hash key value).links.entryAt? =
      order.filterMap table.links.entryAt? :=
    Links.filterMap_append_of_lt _ fun _ => inOrder.lt_size
  have newest : [table.links.nodes.size].filterMap (table.push hash key value).links.entryAt? =
      [⟨hash, key, value⟩] := by
    rw [push, List.filterMap_cons, Links.entryAt?_append, if_pos rfl]
    rfl
  rw [older, newest]

/-- A key is found in its bucket where it would be found among all entries. -/
theorem place?_eq {table : Table α} {order : List Nat} (inOrder : table.links.InOrder order)
    (same : KeyEqual) (hash : UInt64) (key : Ref) :
    table.place? same hash key =
      order.find? fun place => (table.links.entryAt? place).any (Entry.holds same hash key) := by
  rw [place?, Links.place?, inOrder.bucket, List.find?_filter]
  congr 1
  funext place
  rw [Links.hasHash]
  cases table.links.entryAt? place with
  | none => rfl
  | some entry =>
    rw [Option.any_some, Option.any_some, Option.any_some, Entry.holds, Bool.decide_and,
      Bool.decide_eq_true, Bool.decide_eq_true]

theorem find?_eq (same : KeyEqual) (table : Table α) (hash : UInt64) (key : Ref) :
    table.find? same hash key = table.entries.toList.find? (Entry.holds same hash key) := by
  obtain ⟨order, inOrder⟩ := table.wellFormed
  rw [find?, place?_eq inOrder, toList_entries inOrder, List.find?_filterMap]

/-- Removing a key takes out its entry and keeps the order of all others. -/
theorem toList_entries_remove (same : KeyEqual) (table : Table α) (hash : UInt64) (key : Ref) :
    (table.remove (table.place? same hash key)).entries.toList =
      table.entries.toList.eraseP (Entry.holds same hash key) := by
  obtain ⟨order, inOrder⟩ := table.wellFormed
  have listed := toList_entries inOrder
  cases found : table.place? same hash key with
  | none =>
    rw [place?_eq inOrder, List.find?_eq_none] at found
    change table.entries.toList = _
    refine (List.eraseP_of_forall_not fun entry inside holds => ?_).symm
    rw [listed] at inside
    obtain ⟨place, placeInside, isEntry⟩ := List.mem_filterMap.mp inside
    exact found place placeInside (by rw [isEntry]; exact holds)
  | some place =>
    rw [place?_eq inOrder, List.find?_eq_some_iff_append] at found
    obtain ⟨here, before, after, rfl, noneBefore⟩ := found
    cases node? : table.links.nodes[place]? with
    | none => simp [Links.entryAt?, node?] at here
    | some node =>
      have entry : table.links.entryAt? place = some node.entry := by
        rw [Links.entryAt?, node?]
        rfl
      rw [entry, Option.any_some] at here
      have live : place ∈ table.links.bucket node.entry.hash := by
        rw [inOrder.bucket, List.mem_filter, Links.hasHash, entry]
        exact ⟨by simp, by simp⟩
      have removed : (table.remove (some place)).links = table.links.unlink place node := by
        rw [remove]
        split
        next none => simp [node?] at none
        next other same =>
          obtain rfl : node = other := by simpa [node?] using same
          rw [dif_pos live]
      have left : (table.remove (some place)).links.InOrder (before ++ after) :=
        removed ▸ Links.unlink_inOrder inOrder node?
      have kept : (table.remove (some place)).links.entryAt? = table.links.entryAt? := by
        funext other
        rw [removed, Links.entryAt?_unlink]
      rw [toList_entries left, kept, listed, List.filterMap_append, List.filterMap_append,
        List.filterMap_cons, entry, List.eraseP_append_right, List.eraseP_cons_of_pos here]
      intro other inside holds
      obtain ⟨earlier, earlierInside, isEntry⟩ := List.mem_filterMap.mp inside
      have absent := noneBefore earlier earlierInside
      rw [isEntry, Option.any_some, holds] at absent
      cases absent

end Table

end Offside
