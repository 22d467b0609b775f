/-
This file relates the objects of a heap that stand for values to the values as keys and
as operands. An object that stands for a value has the class of the value and holds what
the value is made of, and it stands for no other value. One whose value can be hashed
stands for a key in the sense in which dicts and sets compare keys; so keys are the same
exactly if the values are identical, and what is stored under a key is found by every
object that stands for the same value, and by no other.
-/

import Offside.Proofs.Comparing.Values
import Offside.Proofs.Mapping.Keys

namespace Offside

namespace Literal

/-- The class of a value. -/
def builtin : Literal → BuiltinClass
  | .none => .noneType
  | .bool _ => .bool
  | .int _ => .int
  | .str _ => .str
  | .list _ => .list
  | .tuple _ => .tuple
  | .dict _ => .dict
  | .set _ => .set

/-- A sequence is equal to one of the same kind that is equal element by element. -/
theorem same_of_elements? {literal : Literal} {elements : List Literal}
    (sequence : literal.elements? = some elements) (other : Literal) :
    literal.Same other ↔ literal.builtin = other.builtin ∧
      ∃ others, other.elements? = some others ∧ List.Forall₂ Same elements others := by
  cases literal with
  | list | tuple =>
    cases sequence
    cases other <;> simp [Same, builtin, elements?, sameAll_iff]
  | _ => cases sequence

/-- What has the class of a sequence is one. -/
theorem exists_elements? {literal other : Literal} {elements : List Literal}
    (alike : literal.builtin = other.builtin) (sequence : literal.elements? = some elements) :
    ∃ others, other.elements? = some others := by
  cases literal with
  | list | tuple => cases other <;> first | exact ⟨_, rfl⟩ | cases alike
  | _ => cases sequence

theorem builtin_ne_klass (literal : Literal) : literal.builtin ≠ .klass := by
  cases literal <;> exact nofun

mutual

/-- The key that a value is; what cannot be hashed is none. -/
def key : Literal → Key
  | .bool value => .bool value
  | .int value => .int value
  | .str value => .str value
  | .tuple elements => .tuple (keys elements)
  | _ => .none

def keys : List Literal → List Key
  | [] => []
  | first :: rest => first.key :: keys rest

end

theorem keys_eq_map (elements : List Literal) : keys elements = elements.map key := by
  induction elements with
  | nil => rfl
  | cons first rest inductionHypothesis => rw [keys, inductionHypothesis, List.map_cons]

theorem hashAll_keys {elements : List Literal}
    (each : ∀ element ∈ elements, element.key.hash = element.hash) :
    ∀ start : UInt64, Key.hashAll start (keys elements) = hashAll start elements := by
  induction elements with
  | nil => exact fun _ => rfl
  | cons first rest inductionHypothesis =>
    rw [List.forall_mem_cons] at each
    intro start
    rw [keys, Key.hashAll, hashAll, each.1, inductionHypothesis each.2]

/-- The hash of a value is that of the key. -/
theorem hash_key {literal : Literal} : literal.Hashable → literal.key.hash = literal.hash := by
  induction literal using Literal.induct with
  | tuple elements inductionHypothesis =>
    intro hashable
    rw [Hashable, hashableAll_iff] at hashable
    exact hashAll_keys (fun element inside => inductionHypothesis element inside
      (hashable element inside)) _
  | list => exact fun hashable => hashable.elim
  | dict => exact fun hashable => hashable.elim
  | set => exact fun hashable => hashable.elim
  | _ => exact fun _ => rfl

end Literal

namespace World

variable {allowed : Ref → Prop} {world : World}

/-! ### What values hold -/

/-- The entry is one of a key. -/
structure Keyed {α : Type} (allowed : Ref → Prop) (world : World) (key : Literal)
    (cell : Table.Entry α) : Prop where
  hash : cell.hash = key.hash
  represented : world.RepresentsIn allowed key cell.key

/-- The entry is one of a key and a value. -/
structure Stored (allowed : Ref → Prop) (world : World) (entry : Literal × Literal)
    (cell : Table.Entry SlotId) : Prop extends world.Keyed allowed entry.1 cell where
  bound : cell.value.index < world.slots.size
  value : world.RepresentsIn allowed entry.2 (world.slot cell.value)

theorem representsAll_iff : ∀ {elements : List Literal} {refs : List Ref},
    world.RepresentsAll allowed elements refs ↔
      List.Forall₂ (world.RepresentsIn allowed) elements refs
  | [], [] => by simp [RepresentsAll]
  | [], _ :: _ => by simp [RepresentsAll]
  | _ :: _, [] => by simp [RepresentsAll]
  | _ :: _, _ :: _ => by simp [RepresentsAll, representsAll_iff]

theorem representsKeys_iff : ∀ {elements : List Literal} {cells : List (Table.Entry Unit)},
    world.RepresentsKeys allowed elements cells ↔
      List.Forall₂ (world.Keyed allowed) elements cells
  | [], [] => by simp [RepresentsKeys]
  | [], _ :: _ => by simp [RepresentsKeys]
  | _ :: _, [] => by simp [RepresentsKeys]
  | _ :: _, _ :: _ => by
    rw [RepresentsKeys, representsKeys_iff, List.forall₂_cons]
    exact and_congr_left fun _ => ⟨fun ⟨hash, represented⟩ => ⟨hash, represented⟩,
      fun keyed => ⟨keyed.hash, keyed.represented⟩⟩

theorem representsEntries_iff : ∀ {entries : List (Literal × Literal)}
    {cells : List (Table.Entry SlotId)}, world.RepresentsEntries allowed entries cells ↔
      List.Forall₂ (world.Stored allowed) entries cells
  | [], [] => by simp [RepresentsEntries]
  | [], _ :: _ => by simp [RepresentsEntries]
  | _ :: _, [] => by simp [RepresentsEntries]
  | (_, _) :: _, _ :: _ => by
    rw [RepresentsEntries, representsEntries_iff, List.forall₂_cons, ← and_assoc]
    exact and_congr_left fun _ =>
      ⟨fun ⟨⟨hash, represented⟩, bound, value⟩ => ⟨⟨hash, represented⟩, bound, value⟩,
        fun stored => ⟨⟨stored.hash, stored.represented⟩, stored.bound, stored.value⟩⟩

/-- What an object holds that stands for a value. -/
inductive Holding (allowed : Ref → Prop) (world : World) : Literal → Payload → Prop where
  | none : Holding allowed world .none .none
  | bool (value : Bool) : Holding allowed world (.bool value) (.bool value)
  | int (value : Int64) : Holding allowed world (.int value) (.int value)
  | str (value : String) : Holding allowed world (.str value) (.str value)
  | list {elements : List Literal} {id : BufferId}
      (parts : List.Forall₂ (world.RepresentsIn allowed) elements
        (world.buffer id).cells.toList) :
      Holding allowed world (.list elements) (.list id)
  | tuple {elements : List Literal} {cells : Array Ref}
      (parts : List.Forall₂ (world.RepresentsIn allowed) elements cells.toList) :
      Holding allowed world (.tuple elements) (.tuple cells)
  | dict {entries : List (Literal × Literal)} {table : Table SlotId}
      (parts : List.Forall₂ (world.Stored allowed) entries table.entries.toList) :
      Holding allowed world (.dict entries) (.dict table)
  | set {elements : List Literal} {table : Table Unit}
      (parts : List.Forall₂ (world.Keyed allowed) elements table.entries.toList) :
      Holding allowed world (.set elements) (.set table)

/-- An object that stands for a value is plain and holds what the value is made of. -/
theorem RepresentsIn.holding {literal : Literal} {ref : Ref}
    (represented : world.RepresentsIn allowed literal ref) :
    ∃ payload, world.Plain ref literal.builtin payload ∧
      world.Holding allowed literal payload := by
  cases literal with
  | none => exact ⟨_, represented.2.2, .none⟩
  | bool value => exact ⟨_, represented.2.2, .bool value⟩
  | int value => exact ⟨_, represented.2, .int value⟩
  | str value => exact ⟨_, represented.2, .str value⟩
  | list elements =>
    obtain ⟨-, id, plain, -, parts⟩ := represented
    exact ⟨_, plain, .list (representsAll_iff.mp parts)⟩
  | tuple elements =>
    obtain ⟨-, cells, plain, parts⟩ := represented
    exact ⟨_, plain, .tuple (representsAll_iff.mp parts)⟩
  | dict entries =>
    obtain ⟨-, table, plain, parts⟩ := represented
    exact ⟨_, plain, .dict (representsEntries_iff.mp parts)⟩
  | set elements =>
    obtain ⟨-, table, plain, parts⟩ := represented
    exact ⟨_, plain, .set (representsKeys_iff.mp parts)⟩

/-! ### One value only -/

/-- Where each stands for one thing only, all together stand for one list of things only. -/
theorem eq_of_forall₂ {α β : Type} {Fits : α → β → Prop} {parts others : List α} {all : List β}
    (fits : List.Forall₂ Fits parts all) (otherFits : List.Forall₂ Fits others all)
    (each : ∀ part ∈ parts, ∀ {other one}, Fits part one → Fits other one → part = other) :
    parts = others := by
  induction fits generalizing others with
  | nil =>
    cases otherFits
    rfl
  | cons head _ inductionHypothesis =>
    rw [List.forall_mem_cons] at each
    cases otherFits with
    | cons otherHead otherTail =>
      rw [each.1 head otherHead, inductionHypothesis otherTail each.2]

/-- An object that stands for two values holds what either is made of. -/
theorem RepresentsIn.holdings {literal other : Literal} {ref : Ref}
    (represented : world.RepresentsIn allowed literal ref)
    (otherRepresented : world.RepresentsIn allowed other ref) :
    ∃ payload, world.Holding allowed literal payload ∧ world.Holding allowed other payload := by
  obtain ⟨payload, plain, holding⟩ := represented.holding
  obtain ⟨_, otherPlain, otherHolding⟩ := otherRepresented.holding
  cases plain.payload.symm.trans otherPlain.payload
  exact ⟨payload, holding, otherHolding⟩

/-- An object stands for one value only. -/
theorem RepresentsIn.unique {literal : Literal} : ∀ {other : Literal} {ref : Ref},
    world.RepresentsIn allowed literal ref → world.RepresentsIn allowed other ref →
    literal = other := by
  induction literal using Literal.induct with
  | none | bool | int | str =>
    intro other ref represented otherRepresented
    obtain ⟨payload, holding, otherHolding⟩ := represented.holdings otherRepresented
    cases holding
    cases otherHolding
    rfl
  | list elements inductionHypothesis | tuple elements inductionHypothesis =>
    intro other ref represented otherRepresented
    obtain ⟨payload, holding, otherHolding⟩ := represented.holdings otherRepresented
    cases holding
    cases otherHolding
    next parts _ otherParts => rw [eq_of_forall₂ parts otherParts inductionHypothesis]
  | dict entries inductionHypothesis =>
    intro other ref represented otherRepresented
    obtain ⟨payload, holding, otherHolding⟩ := represented.holdings otherRepresented
    cases holding with | dict parts =>
    cases otherHolding with | dict otherParts =>
    rw [eq_of_forall₂ parts otherParts fun entry inside _ _ stored otherStored => Prod.ext
      ((inductionHypothesis entry inside).1 stored.represented otherStored.represented)
      ((inductionHypothesis entry inside).2 stored.value otherStored.value)]
  | set elements inductionHypothesis =>
    intro other ref represented otherRepresented
    obtain ⟨payload, holding, otherHolding⟩ := represented.holdings otherRepresented
    cases holding with | set parts =>
    cases otherHolding with | set otherParts =>
    rw [eq_of_forall₂ parts otherParts fun element inside _ _ keyed otherKeyed =>
      inductionHypothesis element inside keyed.represented otherKeyed.represented]

/-! ### Keys -/

theorem denotedAll_iff : ∀ {keys : List Key} {refs : List Ref},
    Key.DenotedAll world keys refs ↔ List.Forall₂ (Key.Denoted world) keys refs
  | [], [] => by simp [Key.DenotedAll]
  | [], _ :: _ => by simp [Key.DenotedAll]
  | _ :: _, [] => by simp [Key.DenotedAll]
  | _ :: _, _ :: _ => by simp [Key.DenotedAll, denotedAll_iff]

/-- A value that can be hashed is a key. -/
theorem RepresentsIn.denoted {literal : Literal} : ∀ {ref : Ref}, literal.Hashable →
    world.RepresentsIn allowed literal ref → literal.key.Denoted world ref := by
  induction literal using Literal.induct with
  | none => exact fun _ represented => represented.2.2.payload
  | bool value => exact fun _ represented => represented.2.2.payload
  | int value => exact fun _ represented => represented.2.payload
  | str value => exact fun _ represented => represented.2.payload
  | tuple elements inductionHypothesis =>
    intro ref hashable represented
    obtain ⟨-, cells, plain, parts⟩ := represented
    refine ⟨cells, plain.payload, ?_⟩
    rw [Literal.Hashable, Literal.hashableAll_iff] at hashable
    rw [representsAll_iff] at parts
    rw [Literal.keys_eq_map, denotedAll_iff, List.forall₂_map_left_iff]
    exact List.forall₂_iff_zip.mpr ⟨parts.length_eq, fun {element ref} inside =>
      inductionHypothesis element (List.of_mem_zip inside).1
        (hashable element (List.of_mem_zip inside).1) ((List.forall₂_iff_zip.mp parts).2 inside)⟩
  | list => exact fun hashable => hashable.elim
  | dict => exact fun hashable => hashable.elim
  | set => exact fun hashable => hashable.elim

section SameKey

variable {literal other : Literal} {first second : Ref}

theorem keyHash_eq_hash (hashable : literal.Hashable)
    (represented : world.RepresentsIn allowed literal first) :
    world.keyHash first = literal.hash := by
  rw [keyHash_key (represented.denoted hashable), Literal.hash_key hashable]

/-- Keys are the same exactly if their values are identical. -/
theorem keyEqual_literal_iff (hashable : literal.Hashable) (otherHashable : other.Hashable)
    (represented : world.RepresentsIn allowed literal first)
    (otherRepresented : world.RepresentsIn allowed other second) :
    world.keyEqual first second = true ↔ literal = other := by
  refine ⟨eq_of_keyEqualWithin _ hashable otherHashable represented otherRepresented, ?_⟩
  rintro rfl
  exact (keyEqual_iff (represented.denoted hashable) (otherRepresented.denoted hashable)).mpr rfl

end SameKey

/-! ### Entries -/

theorem Keyed.holds_iff {α : Type} {key literal : Literal} {cell : Table.Entry α} {ref : Ref}
    (keyed : world.Keyed allowed key cell) (keyHashable : key.Hashable)
    (hashable : literal.Hashable) (represented : world.RepresentsIn allowed literal ref) :
    cell.holds world.keyEqual (world.keyHash ref) ref = true ↔ key = literal := by
  rw [Table.Entry.holds, Bool.and_eq_true, keyHash_eq_hash hashable represented, keyed.hash,
    keyEqual_literal_iff keyHashable hashable keyed.represented represented, beq_iff_eq]
  exact ⟨And.right, fun same => ⟨congrArg Literal.hash same, same⟩⟩

/-- Among entries a key finds the one for its value, if there is one. -/
theorem find?_of_keyed {α β : Type} {Fits : β → Table.Entry α → Prop} (name : β → Literal)
    (keyed : ∀ {part cell}, Fits part cell → world.Keyed allowed (name part) cell)
    {literal : Literal} {ref : Ref} (hashable : literal.Hashable)
    (represented : world.RepresentsIn allowed literal ref) {parts : List β}
    {cells : List (Table.Entry α)} (fits : List.Forall₂ Fits parts cells)
    (partsHashable : ∀ part ∈ parts, (name part).Hashable) :
    (∃ part ∈ parts, ∃ cell, name part = literal ∧ Fits part cell ∧
      cells.find? (Table.Entry.holds world.keyEqual (world.keyHash ref) ref) = some cell) ∨
    (∀ part ∈ parts, name part ≠ literal) ∧
      cells.find? (Table.Entry.holds world.keyEqual (world.keyHash ref) ref) = none := by
  induction fits with
  | nil => exact .inr ⟨by simp, rfl⟩
  | @cons part cell parts cells head tail inductionHypothesis =>
    rw [List.forall_mem_cons] at partsHashable
    have here := (keyed head).holds_iff partsHashable.1 hashable represented
    by_cases same : name part = literal
    · rw [List.find?_cons_of_pos (here.mpr same)]
      exact .inl ⟨part, List.mem_cons_self, cell, same, head, rfl⟩
    · rw [List.find?_cons_of_neg (same ∘ here.mp)]
      obtain ⟨found, inside, rest⟩ | ⟨absent, nothing⟩ := inductionHypothesis partsHashable.2
      · exact .inl ⟨found, List.mem_cons_of_mem _ inside, rest⟩
      · exact .inr ⟨List.forall_mem_cons.mpr ⟨same, absent⟩, nothing⟩

end World

end Offside
