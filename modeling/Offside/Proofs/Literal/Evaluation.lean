/-
This file shows that the tree of a literal, evaluated in whatever scope, gives an object that
stands for the value of the literal. Evaluation looks no name up; all that it relies on is
the sign of a negative integer, which is a method of its class, and the objects of the
absent value and of the truth values, of which there is one each.

Everything else that takes part in the result is new. That matters for dicts. The object of a
dict is made first and filled while its keys and values are evaluated, and the keys and
values that are in it already must not be touched by this. They are not, because they are
newer than the dict.

A key is hashed by following references, to a depth that the size of the heap bounds. The
bound is never met: what a value is nested in is made after it, so the heap has more
objects than the value has levels.
-/

import Offside.Proofs.Exactness
import Offside.Proofs.Literal.Keys
import Offside.Proofs.Literal.Writing

namespace Offside

/-! ### Single values -/

/-- A value that has one object in the whole heap. -/
inductive Single where
  | none
  | truth (value : Bool)

namespace Single

def ref : Single → Ref
  | .none => noneRef
  | .truth value => truthRef value

def builtin : Single → BuiltinClass
  | .none => .noneType
  | .truth _ => .bool

def payload : Single → Payload
  | .none => .none
  | .truth value => .bool value

theorem ref_lt_vacantRef (single : Single) : single.ref.index < vacantRef.index := by
  cases single with
  | none => decide
  | truth value => cases value <;> decide

theorem payload_ne_empty (single : Single) : single.payload ≠ .empty := by
  cases single <;> simp [payload]

end Single

namespace Literal

mutual

/-- The single values in a literal. -/
def singles : Literal → List Single
  | .none => [.none]
  | .bool value => [.truth value]
  | .list elements => singlesOf elements
  | .tuple elements => singlesOf elements
  | .dict entries => singlesOfEntries entries
  | .set elements => singlesOf elements
  | _ => []

def singlesOf : List Literal → List Single
  | [] => []
  | first :: rest => first.singles ++ singlesOf rest

def singlesOfEntries : List (Literal × Literal) → List Single
  | [] => []
  | (key, value) :: rest => key.singles ++ value.singles ++ singlesOfEntries rest

end

theorem hashableAll_iff (elements : List Literal) :
    HashableAll elements ↔ ∀ element ∈ elements, element.Hashable := by
  induction elements with
  | nil => simp [HashableAll]
  | cons first rest inductionHypothesis => simp [HashableAll, inductionHypothesis]

theorem WellFormedEntries.hashable {entries : List (Literal × Literal)}
    (wellFormed : WellFormedEntries entries) : ∀ key ∈ entries.map Prod.fst, key.Hashable := by
  induction entries with
  | nil => simp
  | cons entry rest inductionHypothesis =>
    obtain ⟨-, hashable, -, restFormed⟩ := wellFormed
    rw [List.map_cons, List.forall_mem_cons]
    exact ⟨hashable, inductionHypothesis restFormed⟩

end Literal

namespace World

/-- The objects of single values are as they were made. -/
def Keeps (world : World) (singles : List Single) : Prop :=
  ∀ single ∈ singles, world.Plain single.ref single.builtin single.payload

theorem Keeps.grow {changed : Ref → Prop} {before after : World} {singles : List Single}
    (keeps : before.Keeps singles) (grows : before.GrowsBut changed after)
    (unchanged : ∀ single : Single, ¬ changed single.ref) : after.Keeps singles :=
  fun single found =>
    (keeps single found).grow single.payload_ne_empty grows (unchanged single)

theorem keeps_append {world : World} {first second : List Single} :
    world.Keeps (first ++ second) ↔ world.Keeps first ∧ world.Keeps second :=
  List.forall_mem_append

section Singles

variable {allowed : Ref → Prop} {world : World}

mutual

/-- Where an object stands for a value, the single values in it are as they were made. -/
theorem RepresentsIn.keeps : ∀ (literal : Literal) {ref : Ref},
    world.RepresentsIn allowed literal ref → world.Keeps literal.singles
  | .none, _, represented => by
    obtain ⟨rfl, -, plain⟩ := represented
    exact List.forall_mem_singleton.mpr plain
  | .bool _, _, represented => by
    obtain ⟨rfl, -, plain⟩ := represented
    exact List.forall_mem_singleton.mpr plain
  | .int _, _, _ => List.forall_mem_nil _
  | .str _, _, _ => List.forall_mem_nil _
  | .list elements, _, represented => by
    obtain ⟨-, _, -, -, parts⟩ := represented
    exact RepresentsAll.keeps elements parts
  | .tuple elements, _, represented => by
    obtain ⟨-, _, -, parts⟩ := represented
    exact RepresentsAll.keeps elements parts
  | .dict entries, _, represented => by
    obtain ⟨-, _, -, parts⟩ := represented
    exact RepresentsEntries.keeps entries parts
  | .set elements, _, represented => by
    obtain ⟨-, _, -, parts⟩ := represented
    exact RepresentsKeys.keeps elements parts

theorem RepresentsAll.keeps : ∀ (elements : List Literal) {refs : List Ref},
    world.RepresentsAll allowed elements refs → world.Keeps (Literal.singlesOf elements)
  | [], [], _ => List.forall_mem_nil _
  | first :: rest, _ :: _, represented =>
    keeps_append.mpr
      ⟨RepresentsIn.keeps first represented.1, RepresentsAll.keeps rest represented.2⟩

theorem RepresentsEntries.keeps : ∀ (entries : List (Literal × Literal))
    {cells : List (Table.Entry SlotId)},
    world.RepresentsEntries allowed entries cells → world.Keeps (Literal.singlesOfEntries entries)
  | [], [], _ => List.forall_mem_nil _
  | (key, value) :: rest, _ :: _, ⟨⟨_, keyHeld⟩, ⟨_, valueHeld⟩, others⟩ =>
    keeps_append.mpr ⟨keeps_append.mpr
      ⟨RepresentsIn.keeps key keyHeld, RepresentsIn.keeps value valueHeld⟩,
      RepresentsEntries.keeps rest others⟩

theorem RepresentsKeys.keeps : ∀ (elements : List Literal) {cells : List (Table.Entry Unit)},
    world.RepresentsKeys allowed elements cells → world.Keeps (Literal.singlesOf elements)
  | [], [], _ => List.forall_mem_nil _
  | key :: rest, _ :: _, ⟨⟨_, keyHeld⟩, others⟩ =>
    keeps_append.mpr ⟨RepresentsIn.keeps key keyHeld, RepresentsKeys.keeps rest others⟩

end

/-! ### Parts of tables -/

theorem RepresentsKeys.concat : ∀ {elements : List Literal} {cells : List (Table.Entry Unit)}
    {key : Literal} {cell : Table.Entry Unit},
    world.RepresentsKeys allowed elements cells →
    cell.hash = key.hash ∧ world.RepresentsIn allowed key cell.key →
    world.RepresentsKeys allowed (elements ++ [key]) (cells ++ [cell])
  | [], [], _, _, _, last => ⟨last, trivial⟩
  | _ :: _, _ :: _, _, _, represented, last =>
    ⟨represented.1, RepresentsKeys.concat represented.2 last⟩

theorem RepresentsEntries.concat : ∀ {entries : List (Literal × Literal)}
    {cells : List (Table.Entry SlotId)} {key value : Literal} {cell : Table.Entry SlotId},
    world.RepresentsEntries allowed entries cells →
    cell.hash = key.hash ∧ world.RepresentsIn allowed key cell.key →
    cell.value.index < world.slots.size ∧
      world.RepresentsIn allowed value (world.slot cell.value) →
    world.RepresentsEntries allowed (entries ++ [(key, value)]) (cells ++ [cell])
  | [], [], _, _, _, _, keyHeld, valueHeld => ⟨keyHeld, valueHeld, trivial⟩
  | _ :: _, _ :: _, _, _, _, represented, keyHeld, valueHeld =>
    ⟨represented.1, represented.2.1, RepresentsEntries.concat represented.2.2 keyHeld valueHeld⟩

theorem RepresentsKeys.key_of_mem : ∀ {elements : List Literal} {cells : List (Table.Entry Unit)},
    world.RepresentsKeys allowed elements cells → ∀ cell ∈ cells, ∃ key ∈ elements,
      world.RepresentsIn allowed key cell.key
  | [], [], _, _, impossible => by cases impossible
  | key :: rest, cell :: cells, ⟨⟨_, keyHeld⟩, others⟩, found, member => by
    obtain rfl | member := List.mem_cons.mp member
    · exact ⟨key, List.mem_cons_self, keyHeld⟩
    · obtain ⟨key, listed, held⟩ := RepresentsKeys.key_of_mem others found member
      exact ⟨key, List.mem_cons_of_mem _ listed, held⟩

theorem RepresentsEntries.key_of_mem : ∀ {entries : List (Literal × Literal)}
    {cells : List (Table.Entry SlotId)}, world.RepresentsEntries allowed entries cells →
    ∀ cell ∈ cells, ∃ key ∈ entries.map Prod.fst, world.RepresentsIn allowed key cell.key
  | [], [], _, _, impossible => by cases impossible
  | (key, _) :: rest, cell :: cells, ⟨⟨_, keyHeld⟩, _, others⟩, found, member => by
    obtain rfl | member := List.mem_cons.mp member
    · exact ⟨key, List.mem_cons_self, keyHeld⟩
    · obtain ⟨key, listed, held⟩ := RepresentsEntries.key_of_mem others found member
      exact ⟨key, List.mem_cons_of_mem _ listed, held⟩

end Singles

/-! ### New objects -/

/-- The object was made after this many others, or it is that of a single value. -/
def Fresh (start : Nat) (ref : Ref) : Prop :=
  start ≤ ref.index ∨ ∃ single : Single, ref = single.ref

theorem Fresh.mono {start earlier : Nat} {ref : Ref} (fresh : Fresh start ref)
    (before : earlier ≤ start) : Fresh earlier ref :=
  fresh.imp before.trans id

theorem Plain.of_object {world : World} {ref : Ref} {builtin : BuiltinClass} {payload : Payload}
    (found : world.object ref = ⟨builtin.ref, none, payload, none⟩) :
    world.Plain ref builtin payload := by
  refine ⟨?_, ?_, ?_, ?_⟩
  · rw [found]
  · rw [World.payload, found]
  · rw [World.attributes, found]
    rfl
  · rw [found]

/-- A value is made with neither attributes nor code. -/
theorem plain_push (world : World) (builtin : BuiltinClass) (payload : Payload) :
    World.Plain { world with
      objects := world.objects.push ⟨builtin.ref, none, payload, none⟩ }
      ⟨world.objects.size⟩ builtin payload :=
  .of_object (by simp [World.object])

/-- The object stands for the value, and what takes part in this was made between the two worlds. -/
structure Made (before : World) (literal : Literal) (ref : Ref) (after : World) : Prop where
  grows : before.Grows after
  represents : after.RepresentsIn (Fresh before.objects.size) literal ref
  deep : before.objects.size + literal.depth ≤ after.objects.size

theorem Intact.single_lt {world : World} (intact : world.Intact) (single : Single) :
    single.ref.index < world.objects.size :=
  single.ref_lt_vacantRef.trans intact.bound_vacant

/-- What was made later than an object is not that object. -/
theorem Fresh.ne {start : Nat} {ref old : Ref} (fresh : Fresh start ref) (older : old.index < start)
    (other : ∀ single : Single, single.ref ≠ old) : ref ≠ old := by
  rintro rfl
  obtain later | ⟨single, same⟩ := fresh
  · exact absurd older (Nat.not_lt.mpr later)
  · exact other single same.symm

theorem RepresentsIn.present {allowed : Ref → Prop} {world : World} (intact : world.Intact) :
    ∀ {literal : Literal} {ref : Ref}, world.RepresentsIn allowed literal ref → ref ≠ vacantRef
  | .none, _, ⟨_, _, plain⟩ => intact.present_of_plain plain (by simp)
  | .bool _, _, ⟨_, _, plain⟩ => intact.present_of_plain plain (by simp)
  | .int _, _, ⟨_, plain⟩ => intact.present_of_plain plain (by simp)
  | .str _, _, ⟨_, plain⟩ => intact.present_of_plain plain (by simp)
  | .list _, _, ⟨_, _, plain, _⟩ => intact.present_of_plain plain (by simp)
  | .tuple _, _, ⟨_, _, plain, _⟩ => intact.present_of_plain plain (by simp)
  | .dict _, _, ⟨_, _, plain, _⟩ => intact.present_of_plain plain (by simp)
  | .set _, _, ⟨_, _, plain, _⟩ => intact.present_of_plain plain (by simp)

end World

namespace Exec

open World Library

/-! ### Integers -/

theorem made_int (world : World) (value : Int64) :
    world.Made (.int value) ⟨world.objects.size⟩
      { world with
        objects := world.objects.push ⟨BuiltinClass.int.ref, none, .int value, none⟩ } where
  grows := .push world _
  represents := ⟨.inl (Nat.le_refl _), plain_push world .int (.int value)⟩
  deep := by simp [Literal.depth]

theorem numberNeg_of_int {world : World} {ref : Ref} {value negated : Int64}
    (held : world.payload ref = .int value) (fits : Number.neg? value = some negated) :
    numberNeg ref world = newInt negated world := by
  rw [numberNeg, numericUnary, numericOf?, read_bind, held]
  simp only [Numeric.ofPayload?, integerResult, fits]

/-- The sign before an integer is a method of its class. -/
theorem negate_of_int {fuel : Nat} {world : World} {ref : Ref} {value negated : Int64}
    (intact : world.Intact) (plain : world.Plain ref .int (.int value))
    (fits : Number.neg? value = some negated) :
    negate (.ofFuel (fuel + 1)) ref world = newInt negated world := by
  have listed : ("__neg__", Method.numberNeg) ∈ BuiltinClass.int.methods := by decide
  have invoked : invoke? (.ofFuel (fuel + 1)) ref "__neg__" [] world = .ok (some _) _ :=
    invoke_method intact plain (by simp) (by simp) listed (by decide)
      fun _ => numberNeg_of_int plain.payload fits
  rw [negate, bind_of_ok invoked]
  rfl

theorem neg?_ofNat {value : Int64} {n : Nat} (written : value.toInt ≠ Number.least)
    (same : value.toInt = .negSucc n) : Number.neg? (Int64.ofNat (n + 1)) = some value := by
  have low : Number.least ≤ value.toInt := Int64.le_toInt value
  rw [same] at written low
  simp only [Number.least] at written low
  have positive : (Int64.ofNat (n + 1)).toInt = n + 1 := Int64.toInt_ofNat_of_lt (by omega)
  rw [Number.neg?_eq, positive, Number.fit?, if_pos]
  · rw [← Int64.ofInt_toInt value, same]
    rfl
  · simp only [Number.least, Number.greatest]
    omega

/-- The tree of a negative integer is a sign before a numeral, and evaluating it leaves the object
of the numeral behind. -/
theorem evaluates_int (env : Env) (location : Location) {fuel : Nat} {world : World} {value : Int64}
    (written : value.toInt ≠ Number.least) (intact : world.Intact) :
    ∃ ref after, evaluate (.ofFuel (fuel + 1)) env (Literal.treeOfInt location value) world =
      .ok ref after ∧ world.Made (.int value) ref after := by
  unfold Literal.treeOfInt
  cases same : value.toInt with
  | ofNat n => exact ⟨_, _, rfl, made_int world value⟩
  | negSucc n =>
    let numeral : Object := ⟨BuiltinClass.int.ref, none, .int (Int64.ofNat (n + 1)), none⟩
    let middle : World := { world with objects := world.objects.push numeral }
    have grows : world.Grows middle := .push world numeral
    have negated : negate (.ofFuel (fuel + 1)) ⟨world.objects.size⟩ middle = newInt value middle :=
      negate_of_int (intact.grow grows fun _ impossible => impossible.elim)
        (plain_push world .int (.int (Int64.ofNat (n + 1)))) (neg?_ofNat written same)
    have made := made_int middle value
    refine ⟨_, _, negated, grows.trans made.grows, ?_, ?_⟩
    · exact RepresentsIn.grow (.refl _) (fun _ fresh => ⟨fresh.mono grows.objects, id⟩) _
        made.represents
    · exact grows.objects.trans made.deep

/-! ### Keys -/

section Keys

variable {allowed : Ref → Prop} {world : World} {literal : Literal} {ref : Ref}
  (hashable : literal.Hashable) (represented : world.RepresentsIn allowed literal ref)

include hashable represented

theorem checkHashable_literal (intact : world.Intact) : checkHashable ref world = .ok () world := by
  have accepted : world.isHashable ref = true :=
    isHashableWithin_literal literal _ hashable represented
  rw [checkHashable, bind_of_ok (checkPresent_of_ne (represented.present intact) world), read_bind,
    accepted, if_pos rfl]
  rfl

theorem keyHash_literal (deep : literal.depth ≤ world.objects.size) :
    world.keyHash ref = literal.hash :=
  keyHashWithin_literal literal _ hashable (Nat.lt_succ_of_le deep) represented

end Keys

/-- Different values all get into the table of a set. -/
theorem addKeys_literals {allowed : Ref → Prop} {world : World} (intact : world.Intact) :
    ∀ (elements done : List Literal) {refs : List Ref} {table : Table Unit},
    (∀ element ∈ done ++ elements, element.Hashable) → (done ++ elements).Nodup →
    Literal.depthAll elements ≤ world.objects.size →
    world.RepresentsKeys allowed done table.entries.toList →
    world.RepresentsAll allowed elements refs →
    ∃ filled, addKeys table refs world = .ok filled world ∧
      world.RepresentsKeys allowed (done ++ elements) filled.entries.toList
  | [], done, [], table, _, _, _, keys, _ => by
    refine ⟨table, rfl, ?_⟩
    rw [List.append_nil]
    exact keys
  | first :: rest, done, ref :: refs, table, hashable, different, deep, keys, parts => by
    have apart : done ++ first :: rest = (done ++ [first]) ++ rest := by simp
    have firstHashable : first.Hashable := hashable first (by simp)
    have hash := keyHash_literal firstHashable parts.1 ((Nat.le_max_left _ _).trans deep)
    have absent : table.find? world.keyEqual (world.keyHash ref) ref = none := by
      refine tableGet?_of_new firstHashable parts.1 fun cell member => ?_
      obtain ⟨key, listed, held⟩ := keys.key_of_mem cell member
      refine ⟨key, hashable key (List.mem_append_left _ listed), ?_, held⟩
      rintro rfl
      exact (List.nodup_append.mp different).2.2 key listed key List.mem_cons_self rfl
    have added : world.tableAdd table ref = table.push first.hash ref () := by
      rw [tableAdd, Table.add, Table.contains, absent, hash]
      rfl
    have extended : world.RepresentsKeys allowed (done ++ [first])
        (table.push first.hash ref ()).entries.toList := by
      rw [Table.toList_entries_push]
      exact keys.concat ⟨rfl, parts.1⟩
    rw [apart] at hashable different ⊢
    obtain ⟨filled, others, represents⟩ := addKeys_literals intact rest (done ++ [first]) hashable
      different ((Nat.le_max_right _ _).trans deep) extended parts.2
    refine ⟨filled, ?_, represents⟩
    rw [addKeys, bind_of_ok (checkHashable_literal firstHashable parts.1 intact), read_bind, added]
    exact others

/-! ### Dicts -/

end Exec

namespace World

/-- The object is a dict with these entries, all of which were made after so many objects. -/
def Fills (world : World) (start : Nat) (dict : Ref) (entries : List (Literal × Literal)) : Prop :=
  ∃ table : Table SlotId, world.Plain dict .dict (.dict table) ∧
    world.RepresentsEntries (Fresh start) entries table.entries.toList

theorem Fills.grow {before after : World} {start : Nat} {dict : Ref}
    {entries : List (Literal × Literal)} (fills : before.Fills start dict entries)
    (grows : before.Grows after) : after.Fills start dict entries := by
  obtain ⟨table, plain, parts⟩ := fills
  exact ⟨table, plain.grow (by simp) grows id,
    RepresentsEntries.grow grows (fun _ fresh => ⟨fresh, id⟩) entries parts⟩

end World

namespace Exec

open World Library

theorem plain_pushEntry {world : World} {dict : Ref} {table : Table SlotId}
    (plain : world.Plain dict .dict (.dict table)) (code : UInt64) (key : Ref) (slot : SlotId) :
    ∃ after, pushEntry dict code key slot world = .ok () after ∧ world.GrowsBut (· = dict) after ∧
      after.Plain dict .dict (.dict (table.push code key slot)) ∧ after.slots = world.slots := by
  refine ⟨_, rfl, .modify world dict _, ?_, rfl⟩
  have bound : dict.index < world.objects.size := plain.bound (by simp)
  have found : world.object dict =
      ⟨BuiltinClass.dict.ref, (world.object dict).space, .dict table, none⟩ := by
    rw [← plain.class_, ← plain.payload, ← plain.function]
    rfl
  have changed (step : Object → Object) :
      World.object { world with objects := world.objects.modify dict.index step } dict =
        step (world.object dict) := by
    simp [World.object, Array.getElem_modify, bound]
  refine ⟨?_, ?_, ?_, ?_⟩
  · rw [changed, found]
  · rw [World.payload, changed, found]
  · rw [World.attributes, changed, found]
    exact plain.attributes
  · rw [changed, found]

/-- A new key gets an entry of its own at the end of a dict. -/
theorem dictStore_literal {world : World} {start : Nat} {dict keyRef valueRef : Ref}
    {done : List (Literal × Literal)} {key value : Literal}
    (fills : world.Fills start dict done) (unchanged : ∀ ref, Fresh start ref → ref ≠ dict)
    (hashable : ∀ other ∈ key :: done.map Prod.fst, other.Hashable) (new : key ∉ done.map Prod.fst)
    (deep : key.depth ≤ world.objects.size) (keyHeld : world.RepresentsIn (Fresh start) key keyRef)
    (valueHeld : world.RepresentsIn (Fresh start) value valueRef) :
    ∃ after, dictStore dict keyRef valueRef world = .ok () after ∧ world.GrowsBut (· = dict) after ∧
      after.Fills start dict (done ++ [(key, value)]) := by
  obtain ⟨table, plain, parts⟩ := fills
  rw [List.forall_mem_cons] at hashable
  have absent : table.find? world.keyEqual (world.keyHash keyRef) keyRef = none := by
    refine tableGet?_of_new hashable.1 keyHeld fun cell member => ?_
    obtain ⟨other, listed, held⟩ := parts.key_of_mem cell member
    refine ⟨other, hashable.2 other listed, ?_, held⟩
    rintro rfl
    exact new listed
  let middle : World := { world with slots := world.slots.push valueRef }
  have grows : world.Grows middle := .pushSlot world valueRef
  have hash : middle.keyHash keyRef = key.hash :=
    keyHash_literal hashable.1
      (RepresentsIn.grow grows (fun _ fresh => ⟨fresh, id⟩) key keyHeld) deep
  obtain ⟨after, pushed, growsOn, filled, slots⟩ :=
    plain_pushEntry (plain.grow (by simp) grows id) key.hash keyRef ⟨world.slots.size⟩
  have growsAll : world.GrowsBut (· = dict) after :=
    (grows.weaken fun _ _ impossible => impossible.elim).trans growsOn
  have keep {literal : Literal} {ref : Ref} (held : world.RepresentsIn (Fresh start) literal ref) :
      after.RepresentsIn (Fresh start) literal ref :=
    RepresentsIn.grow growsAll (fun ref fresh => ⟨fresh, unchanged ref fresh⟩) literal held
  refine ⟨after, ?_, growsAll, _, filled, ?_⟩
  · have missing : slotOf? dict keyRef world = .ok none world := by
      rw [slotOf?, read, plain.payload]
      dsimp only
      rw [tableGet?, Table.get?, absent]
      rfl
    rw [dictStore, bind_of_ok missing]
    change pushEntry dict (middle.keyHash keyRef) keyRef ⟨world.slots.size⟩ middle = _
    rw [hash, pushed]
  · rw [Table.toList_entries_push]
    refine RepresentsEntries.concat (RepresentsEntries.grow growsAll
      (fun ref fresh => ⟨fresh, unchanged ref fresh⟩) done parts) ⟨rfl, keep keyHeld⟩ ⟨?_, ?_⟩
    · rw [slots]
      simp [middle]
    · have found : after.slot ⟨world.slots.size⟩ = valueRef := by
        simp [World.slot, slots, middle]
      rw [found]
      exact keep valueHeld

/-! ### Literals -/

section Evaluating

variable (env : Env) (location : Location)

mutual

/-- The tree of a literal gives a new object that stands for the value. -/
theorem evaluates_literal : ∀ (literal : Literal) (fuel : Nat) {world : World},
    literal.WellFormed → world.Intact → world.Keeps literal.singles →
    ∃ ref after, evaluate (.ofFuel (fuel + 1)) env (literal.tree location) world = .ok ref after ∧
      world.Made literal ref after
  | .none, fuel, world, _, _, keeps =>
    ⟨noneRef, world, rfl, .refl world,
      ⟨rfl, .inr ⟨.none, rfl⟩, keeps .none List.mem_cons_self⟩, Nat.le_refl _⟩
  | .bool value, fuel, world, _, _, keeps =>
    ⟨truthRef value, world, rfl, .refl world,
      ⟨rfl, .inr ⟨.truth value, rfl⟩, keeps (.truth value) List.mem_cons_self⟩, Nat.le_refl _⟩
  | .int value, fuel, world, written, intact, _ => evaluates_int env location written intact
  | .str value, fuel, world, _, _, _ =>
    ⟨_, _, rfl, .push world _, ⟨.inl (Nat.le_refl _), plain_push world .str (.str value)⟩,
      by simp [Literal.depth]⟩
  | .list elements, fuel, world, wellFormed, intact, keeps => by
    obtain ⟨refs, middle, evaluated, grows, parts, deep⟩ :=
      evaluates_elements elements fuel wellFormed intact keeps
    let wide : World := { middle with buffers := middle.buffers.push (.exact refs.toArray) }
    let new : Object := ⟨BuiltinClass.list.ref, none, .list ⟨middle.buffers.size⟩, none⟩
    let after : World := { wide with objects := wide.objects.push new }
    have growsOn : middle.Grows after :=
      (GrowsBut.pushBuffer middle (.exact refs.toArray)).trans (.push wide new)
    have cells : (after.buffer ⟨middle.buffers.size⟩).cells.toList = refs := by
      simp [after, wide, World.buffer, Buffer.exact]
    refine ⟨⟨middle.objects.size⟩, after, bind_of_ok evaluated, grows.trans growsOn, ?_, ?_⟩
    · refine ⟨.inl grows.objects, _, plain_push wide .list _, by simp [after, wide], ?_⟩
      rw [cells]
      exact RepresentsAll.grow growsOn (fun _ fresh => ⟨fresh, id⟩) elements parts
    · simp only [after, wide, Literal.depth, Array.size_push]
      omega
  | .tuple elements, fuel, world, wellFormed, intact, keeps => by
    obtain ⟨refs, middle, evaluated, grows, parts, deep⟩ :=
      evaluates_elements elements fuel wellFormed intact keeps
    let new : Object := ⟨BuiltinClass.tuple.ref, none, .tuple refs.toArray, none⟩
    have growsOn : middle.Grows { middle with objects := middle.objects.push new } :=
      .push middle new
    refine ⟨⟨middle.objects.size⟩, _, bind_of_ok evaluated, grows.trans growsOn, ?_, ?_⟩
    · exact ⟨.inl grows.objects, _, plain_push middle .tuple _,
        RepresentsAll.grow growsOn (fun _ fresh => ⟨fresh, id⟩) elements parts⟩
    · simp only [Literal.depth, Array.size_push]
      omega
  | .dict entries, fuel, world, wellFormed, intact, keeps => by
    let empty : Object := ⟨BuiltinClass.dict.ref, none, .dict .empty, none⟩
    let middle : World := { world with objects := world.objects.push empty }
    have grows : world.Grows middle := .push world empty
    have size : middle.objects.size = world.objects.size + 1 := Array.size_push _
    have fills : middle.Fills middle.objects.size ⟨world.objects.size⟩ [] :=
      ⟨.empty, plain_push world .dict (.dict .empty), trivial⟩
    have unchanged (ref : Ref) (fresh : Fresh middle.objects.size ref) :
        ref ≠ ⟨world.objects.size⟩ :=
      fresh.ne (by simp [size]) fun single same => absurd (intact.single_lt single) (by simp [same])
    obtain ⟨after, evaluated, growsOn, ⟨table, plain, parts⟩, deep⟩ :=
      evaluates_entries entries fuel [] wellFormed.1 (by simp) wellFormed.2
        (intact.grow grows fun _ impossible => impossible.elim)
        (keeps.grow grows fun _ => id) (Nat.le_refl _) unchanged fills
    refine ⟨⟨world.objects.size⟩, after, bind_of_ok evaluated, ?_, ?_, ?_⟩
    · have growsAll : world.GrowsBut (· = ⟨world.objects.size⟩) after :=
        (grows.weaken fun _ _ impossible => impossible.elim).trans growsOn
      exact growsAll.weaken fun ref older same => absurd older (by simp [same])
    · exact ⟨.inl (Nat.le_refl _), table, plain, RepresentsEntries.grow (.refl after)
        (fun _ fresh => ⟨fresh.mono grows.objects, id⟩) entries parts⟩
    · simp only [Literal.depth]
      omega
  | .set elements, fuel, world, ⟨_, wellFormed, hashable, different⟩, intact, keeps => by
    obtain ⟨refs, middle, evaluated, grows, parts, deep⟩ :=
      evaluates_elements elements fuel wellFormed intact keeps
    have noKeys : middle.RepresentsKeys (Fresh world.objects.size) []
        (.empty : Table Unit).entries.toList := trivial
    obtain ⟨table, added, keys⟩ := addKeys_literals
      (intact.grow grows fun _ impossible => impossible.elim) elements []
      ((Literal.hashableAll_iff elements).mp hashable) different
      ((Nat.le_add_left _ _).trans deep) noKeys parts
    let new : Object := ⟨BuiltinClass.set.ref, none, .set table, none⟩
    have growsOn : middle.Grows { middle with objects := middle.objects.push new } :=
      .push middle new
    refine ⟨⟨middle.objects.size⟩, _, (bind_of_ok evaluated).trans (bind_of_ok added),
      grows.trans growsOn, ?_, ?_⟩
    · exact ⟨.inl grows.objects, _, plain_push middle .set _,
        RepresentsKeys.grow growsOn (fun _ fresh => ⟨fresh, id⟩) elements keys⟩
    · simp only [Literal.depth, Array.size_push]
      omega

theorem evaluates_elements : ∀ (elements : List Literal) (fuel : Nat) {world : World},
    Literal.WellFormedAll elements → world.Intact → world.Keeps (Literal.singlesOf elements) →
    ∃ refs after, evaluateAll (.ofFuel (fuel + 1)) env (Literal.trees location elements) world =
        .ok refs after ∧ world.Grows after ∧
      after.RepresentsAll (Fresh world.objects.size) elements refs ∧
      world.objects.size + Literal.depthAll elements ≤ after.objects.size
  | [], fuel, world, _, _, _ => ⟨[], world, rfl, .refl world, trivial, Nat.le_refl _⟩
  | first :: rest, fuel, world, wellFormed, intact, keeps => by
    obtain ⟨keepsFirst, keepsRest⟩ := keeps_append.mp keeps
    obtain ⟨ref, middle, evaluated, made⟩ :=
      evaluates_literal first fuel wellFormed.1 intact keepsFirst
    obtain ⟨refs, after, others, grows, parts, deep⟩ := evaluates_elements rest fuel wellFormed.2
      (intact.grow made.grows fun _ impossible => impossible.elim)
      (keepsRest.grow made.grows fun _ => id)
    refine ⟨ref :: refs, after, ?_, made.grows.trans grows, ⟨?_, ?_⟩, ?_⟩
    · rw [Literal.trees, evaluateAll, bind_of_ok evaluated, bind_of_ok others]
      rfl
    · exact RepresentsIn.grow grows (fun _ fresh => ⟨fresh, id⟩) first made.represents
    · exact RepresentsAll.grow (.refl after)
        (fun _ fresh => ⟨fresh.mono made.grows.objects, id⟩) rest parts
    · have deepFirst := made.deep
      have larger := grows.objects
      simp only [Literal.depthAll]
      omega

theorem evaluates_entries : ∀ (entries : List (Literal × Literal)) (fuel : Nat)
    (done : List (Literal × Literal)) {world : World} {start : Nat} {dict : Ref},
    Literal.WellFormedEntries entries → (∀ key ∈ done.map Prod.fst, key.Hashable) →
    ((done ++ entries).map Prod.fst).Nodup → world.Intact →
    world.Keeps (Literal.singlesOfEntries entries) → start ≤ world.objects.size →
    (∀ ref, Fresh start ref → ref ≠ dict) → world.Fills start dict done →
    ∃ after, evaluateEntries (.ofFuel (fuel + 1)) env dict
        (Literal.treesOfEntries location entries) world = .ok () after ∧
      world.GrowsBut (· = dict) after ∧ after.Fills start dict (done ++ entries) ∧
      world.objects.size + Literal.depthEntries entries ≤ after.objects.size
  | [], fuel, done, world, start, dict, _, _, _, _, _, _, _, fills =>
    ⟨world, rfl, .refl world, by rw [List.append_nil]; exact fills, Nat.le_refl _⟩
  | (key, value) :: rest, fuel, done, world, start, dict, wellFormed, hashable, different, intact,
      keeps, started, unchanged, fills => by
    obtain ⟨keyFormed, keyHashable, valueFormed, restFormed⟩ := wellFormed
    obtain ⟨keepsPair, keepsRest⟩ := keeps_append.mp keeps
    obtain ⟨keepsKey, keepsValue⟩ := keeps_append.mp keepsPair
    obtain ⟨keyRef, early, keyEvaluated, keyMade⟩ :=
      evaluates_literal key fuel keyFormed intact keepsKey
    have intactEarly := intact.grow keyMade.grows fun _ impossible => impossible.elim
    obtain ⟨valueRef, late, valueEvaluated, valueMade⟩ := evaluates_literal value fuel valueFormed
      intactEarly (keepsValue.grow keyMade.grows fun _ => id)
    have grows : world.Grows late := keyMade.grows.trans valueMade.grows
    have keyHeld : early.RepresentsIn (Fresh start) key keyRef :=
      RepresentsIn.grow (.refl early) (fun _ fresh => ⟨fresh.mono started, id⟩) key
        keyMade.represents
    have keyHeldLate : late.RepresentsIn (Fresh start) key keyRef :=
      RepresentsIn.grow valueMade.grows (fun _ fresh => ⟨fresh, id⟩) key keyHeld
    have startedEarly := started.trans keyMade.grows.objects
    have valueHeld : late.RepresentsIn (Fresh start) value valueRef :=
      RepresentsIn.grow (.refl late) (fun _ fresh => ⟨fresh.mono startedEarly, id⟩) value
        valueMade.represents
    have new : key ∉ done.map Prod.fst := by
      rw [List.map_append, List.nodup_append] at different
      exact fun listed => different.2.2 key listed key List.mem_cons_self rfl
    have deepKey : key.depth ≤ late.objects.size :=
      (Nat.le_add_left _ _).trans (keyMade.deep.trans valueMade.grows.objects)
    obtain ⟨stored, store, growsStore, fillsStored⟩ :=
      dictStore_literal (fills.grow grows) unchanged
      (List.forall_mem_cons.mpr ⟨keyHashable, hashable⟩) new deepKey keyHeldLate valueHeld
    have growsStored : world.GrowsBut (· = dict) stored :=
      (grows.weaken fun _ _ impossible => impossible.elim).trans growsStore
    have intactStored : stored.Intact := by
      obtain ⟨table, plain, -⟩ := fills
      refine intact.grow growsStored fun ref same => ⟨.dict, .dict table, ?_, by simp⟩
      rw [same]
      exact plain
    have keepsStored := keepsRest.grow growsStored fun single => unchanged _ (.inr ⟨single, rfl⟩)
    have hashableStored : ∀ other ∈ (done ++ [(key, value)]).map Prod.fst, other.Hashable := by
      simpa [or_imp, forall_and, keyHashable] using hashable
    have apart : done ++ (key, value) :: rest = (done ++ [(key, value)]) ++ rest := by simp
    rw [apart] at different ⊢
    obtain ⟨after, others, growsRest, fillsAll, deep⟩ := evaluates_entries rest fuel
      (done ++ [(key, value)]) restFormed hashableStored different intactStored keepsStored
      (started.trans growsStored.objects) unchanged fillsStored
    refine ⟨after, ?_, growsStored.trans growsRest, fillsAll, ?_⟩
    · rw [Literal.treesOfEntries, evaluateEntries, bind_of_ok keyEvaluated,
        bind_of_ok (checkHashable_literal keyHashable keyHeld intactEarly),
        bind_of_ok valueEvaluated, bind_of_ok store]
      exact others
    · have deepEarly := keyMade.deep
      have deepValue := valueMade.deep
      have larger := growsStore.objects
      have largerLater := growsRest.objects
      have largerValue := valueMade.grows.objects
      simp only [Literal.depthEntries]
      omega

end

end Evaluating

end Exec

end Offside
