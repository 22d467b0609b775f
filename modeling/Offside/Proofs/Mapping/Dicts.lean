/-
This file says what each operation on a dict does to the dicts of the heap. A dict is a
table of linked entries with their values in slots of the heap, and several of them can be
alive at once. Seen from outside a dict is a list of pairs: a new key is added at the end, a
key that is there keeps its place and itself when its value is replaced, and a key that is
removed and stored again comes last.

What is carried along is that the slots of all entries are different, within a dict and
between dicts, and that the keys of a dict are different keys. Then the one slot that is
written when a value is replaced belongs to the one entry of the key, and whatever is done
to one dict, all others keep their pairs.
-/

import Mathlib.Data.List.Find
import Offside.Library.Mappings
import Offside.Proofs.Mapping.Keys

namespace Offside

/-! ### Lists of pairs -/

namespace Pairs

variable (same : Ref → Ref → Bool)

/-- Puts a value under a key. -/
def insert (key value : Ref) : List (Ref × Ref) → List (Ref × Ref)
  | [] => [(key, value)]
  | (present, old) :: rest =>
    if same present key then (present, value) :: rest else (present, old) :: insert key value rest

def remove (key : Ref) (pairs : List (Ref × Ref)) : List (Ref × Ref) :=
  pairs.eraseP (same ·.1 key)

def lookup (key : Ref) (pairs : List (Ref × Ref)) : Option Ref :=
  (pairs.find? (same ·.1 key)).map Prod.snd

variable {same}

theorem insert_of_absent {key value : Ref} {pairs : List (Ref × Ref)}
    (absent : ∀ pair ∈ pairs, same pair.1 key = false) :
    insert same key value pairs = pairs ++ [(key, value)] := by
  induction pairs with
  | nil => rfl
  | cons pair rest inductionHypothesis =>
    rw [List.forall_mem_cons] at absent
    rw [insert, absent.1, inductionHypothesis absent.2]
    rfl

theorem insert_of_present {key value present old : Ref} {before after : List (Ref × Ref)}
    (absent : ∀ pair ∈ before, same pair.1 key = false) (found : same present key = true) :
    insert same key value (before ++ (present, old) :: after) =
      before ++ (present, value) :: after := by
  induction before with
  | nil =>
    rw [List.nil_append, insert, found]
    rfl
  | cons pair rest inductionHypothesis =>
    rw [List.forall_mem_cons] at absent
    rw [List.cons_append, insert, absent.1, inductionHypothesis absent.2]
    rfl

/-- Pairs with different keys are added one after the other. -/
theorem foldl_insert {pairs : List (Ref × Ref)} : ∀ {found : List (Ref × Ref)},
    (found ++ pairs).Pairwise (fun first second => same first.1 second.1 = false) →
    pairs.foldl (fun found pair => insert same pair.1 pair.2 found) found = found ++ pairs := by
  induction pairs with
  | nil => simp
  | cons pair rest inductionHypothesis =>
    intro found differ
    have absent (earlier : Ref × Ref) (inside : earlier ∈ found) :
        same earlier.1 pair.1 = false :=
      (List.pairwise_append.mp differ).2.2 earlier inside pair List.mem_cons_self
    rw [List.append_cons] at differ
    rw [List.foldl_cons, insert_of_absent absent, inductionHypothesis differ, ← List.append_cons]

/-- Elements that tell their keys are removed like the pairs that they stand for. -/
theorem remove_map {α : Type} {key : Ref} {elements : List α} {holds : α → Bool}
    {pair : α → Ref × Ref}
    (agree : ∀ element ∈ elements, holds element = same (pair element).1 key) :
    (elements.eraseP holds).map pair = remove same key (elements.map pair) := by
  induction elements with
  | nil => rfl
  | cons element rest inductionHypothesis =>
    rw [List.forall_mem_cons] at agree
    have later := inductionHypothesis agree.2
    rw [remove] at later
    rw [remove, List.map_cons, List.eraseP_cons, List.eraseP_cons, agree.1, ← later]
    cases same (pair element).1 key <;> rfl

end Pairs

/-! ### Dicts on the heap -/

/-- Entries whose keys are different and whose values are in different slots, of which there are so
many. -/
structure Table.Proper (start : World) (slots : Nat) (entries : List (Table.Entry SlotId)) :
    Prop where
  keyed : ∀ entry ∈ entries, ∃ key : Key, key.Denoted start entry.key ∧ entry.hash = key.hash
  keysDiffer : entries.Pairwise fun first second => start.keyEqual first.key second.key = false
  slotsBound : ∀ entry ∈ entries, entry.value.index < slots
  slotsDiffer : entries.Pairwise fun first second => first.value ≠ second.value

namespace Table.Proper

variable {start : World} {slots : Nat} {entries : List (Table.Entry SlotId)}

theorem nil : Proper start slots [] :=
  ⟨by simp, .nil, by simp, .nil⟩

theorem sublist (proper : Proper start slots entries) {fewer : List (Table.Entry SlotId)}
    (sublist : fewer.Sublist entries) : Proper start slots fewer :=
  ⟨fun entry inside => proper.keyed entry (sublist.subset inside),
    proper.keysDiffer.sublist sublist,
    fun entry inside => proper.slotsBound entry (sublist.subset inside),
    proper.slotsDiffer.sublist sublist⟩

theorem mono (proper : Proper start slots entries) {more : Nat} (fits : slots ≤ more) :
    Proper start more entries :=
  { proper with
    slotsBound := fun entry inside => Nat.lt_of_lt_of_le (proper.slotsBound entry inside) fits }

/-- A new key comes with a new slot. -/
theorem concat (proper : Proper start slots entries) {key : Key} {ref : Ref}
    (denoted : key.Denoted start ref)
    (absent : ∀ entry ∈ entries, start.keyEqual entry.key ref = false) :
    Proper start (slots + 1) (entries ++ [⟨key.hash, ref, ⟨slots⟩⟩]) where
  keyed := List.forall_mem_append.mpr ⟨proper.keyed, by simpa using ⟨key, denoted, rfl⟩⟩
  keysDiffer := List.pairwise_append.mpr ⟨proper.keysDiffer, by simp, by simpa using absent⟩
  slotsBound := List.forall_mem_append.mpr ⟨(proper.mono (Nat.le_succ slots)).slotsBound, by simp⟩
  slotsDiffer := by
    refine List.pairwise_append.mpr ⟨proper.slotsDiffer, by simp, fun entry inside new isNew => ?_⟩
    have older := proper.slotsBound entry inside
    rw [List.mem_singleton.mp isNew]
    intro same
    rw [same] at older
    exact Nat.lt_irrefl _ older

end Table.Proper

namespace World

/-- The entries of a dict. -/
def dictEntries (world : World) (dict : Ref) : List (Table.Entry SlotId) :=
  match world.payload dict with
  | .dict table => table.entries.toList
  | _ => []

/-- The pairs of a dict. -/
def dictPairs (world : World) (dict : Ref) : List (Ref × Ref) :=
  (world.dictEntries dict).map fun entry => (entry.key, world.slot entry.value)

theorem dictEntries_of_payload {world : World} {dict : Ref} {table : Table SlotId}
    (held : world.payload dict = .dict table) : world.dictEntries dict = table.entries.toList := by
  rw [dictEntries, held]

/-- Dicts that were made since the start, with different slots for all their values. -/
structure Family (start world : World) (dicts : List Ref) : Prop where
  spares : Key.Spares start world
  distinct : dicts.Nodup
  newer : ∀ dict ∈ dicts, start.objects.size ≤ dict.index
  isDict : ∀ dict ∈ dicts, ∃ table, world.payload dict = .dict table
  proper : ∀ dict ∈ dicts, Table.Proper start world.slots.size (world.dictEntries dict)
  slotsApart : ∀ dict ∈ dicts, ∀ other ∈ dicts, dict ≠ other → ∀ entry ∈ world.dictEntries dict,
    ∀ otherEntry ∈ world.dictEntries other, entry.value ≠ otherEntry.value

/-- A dict keeps its entries and their values. -/
def Untouched (before after : World) (dict : Ref) : Prop :=
  after.payload dict = before.payload dict ∧
    ∀ entry ∈ before.dictEntries dict, after.slot entry.value = before.slot entry.value

theorem entries_of_payload_eq {before after : World} {dict : Ref}
    (kept : after.payload dict = before.payload dict) :
    after.dictEntries dict = before.dictEntries dict := by
  rw [dictEntries, kept, dictEntries]

theorem Untouched.pairs {before after : World} {dict : Ref}
    (untouched : before.Untouched after dict) : after.dictPairs dict = before.dictPairs dict := by
  rw [dictPairs, entries_of_payload_eq untouched.1, dictPairs]
  exact List.map_congr_left fun entry inside => by rw [untouched.2 entry inside]

theorem Untouched.trans {before middle after : World} {dict : Ref}
    (first : before.Untouched middle dict) (last : middle.Untouched after dict) :
    before.Untouched after dict := by
  refine ⟨last.1.trans first.1, fun entry inside => ?_⟩
  rw [← first.2 entry inside]
  exact last.2 entry (by rwa [entries_of_payload_eq first.1])

/-! ### Finding a key -/

section Finding

variable {start world : World} {dicts : List Ref}

/-- The entry of a key can be told by the key alone: the hash agrees for the same keys. -/
theorem holds_eq (spares : Key.Spares start world) {key stored : Key} {ref : Ref}
    {entry : Table.Entry SlotId} (denoted : key.Denoted start ref)
    (storedDenoted : stored.Denoted start entry.key) (hash : entry.hash = stored.hash) :
    entry.holds world.keyEqual (world.keyHash ref) ref = start.keyEqual entry.key ref := by
  have known : world.keyHash ref = key.hash := keyHash_key (Key.Denoted.spared spares key denoted)
  have equal : world.keyEqual entry.key ref = start.keyEqual entry.key ref := by
    rw [Bool.eq_iff_iff, keyEqual_iff (Key.Denoted.spared spares stored storedDenoted)
      (Key.Denoted.spared spares key denoted), keyEqual_iff storedDenoted denoted]
  rw [Table.Entry.holds, known, hash, equal]
  by_cases sameKey : start.keyEqual entry.key ref = true
  · rw [sameKey, (keyEqual_iff storedDenoted denoted).mp sameKey]
    simp
  · rw [Bool.not_eq_true] at sameKey
    rw [sameKey, Bool.and_false]

theorem Family.holds_eq (family : start.Family world dicts) {dict : Ref} (inside : dict ∈ dicts)
    {key : Key} {ref : Ref} (denoted : key.Denoted start ref) {entry : Table.Entry SlotId}
    (stored : entry ∈ world.dictEntries dict) :
    entry.holds world.keyEqual (world.keyHash ref) ref = start.keyEqual entry.key ref := by
  obtain ⟨storedKey, storedDenoted, hash⟩ := (family.proper dict inside).keyed entry stored
  exact World.holds_eq family.spares denoted storedDenoted hash

theorem Family.find?_eq (family : start.Family world dicts) {dict : Ref} (inside : dict ∈ dicts)
    {table : Table SlotId} (held : world.payload dict = .dict table) {key : Key} {ref : Ref}
    (denoted : key.Denoted start ref) :
    table.find? world.keyEqual (world.keyHash ref) ref =
      (world.dictEntries dict).find? (start.keyEqual ·.key ref) := by
  rw [Table.find?_eq, ← dictEntries_of_payload held]
  exact List.find?_congr fun entry stored => family.holds_eq inside denoted stored

/-- What is found under a key is what the list of the pairs has under it. -/
theorem Family.lookup_eq (family : start.Family world dicts) {dict : Ref} (inside : dict ∈ dicts)
    {table : Table SlotId} (held : world.payload dict = .dict table) {key : Key} {ref : Ref}
    (denoted : key.Denoted start ref) :
    (world.tableGet? table ref).map world.slot =
      Pairs.lookup start.keyEqual ref (world.dictPairs dict) := by
  rw [tableGet?, Table.get?, family.find?_eq inside held denoted, Pairs.lookup, dictPairs,
    List.find?_map, Option.map_map, Option.map_map]
  rfl

theorem Family.slotOf?_eq (family : start.Family world dicts) {dict : Ref} (inside : dict ∈ dicts)
    {key : Key} {ref : Ref} (denoted : key.Denoted start ref) :
    Library.slotOf? dict ref world =
      .ok (((world.dictEntries dict).find? (start.keyEqual ·.key ref)).map Table.Entry.value)
        world := by
  obtain ⟨table, held⟩ := family.isDict dict inside
  rw [Library.slotOf?, Exec.read, held]
  dsimp only
  rw [tableGet?, Table.get?, family.find?_eq inside held denoted]

end Finding

/-! ### Changing one dict -/

/-- One dict has new entries; all others, and all values that there were, are as before. -/
structure Replaces (before after : World) (dict : Ref) (table : Table SlotId) : Prop where
  held : after.payload dict = .dict table
  others : ∀ other, other ≠ dict → after.payload other = before.payload other
  objects : after.objects.size = before.objects.size
  slots : before.slots.size ≤ after.slots.size
  kept : ∀ slot : SlotId, slot.index < before.slots.size → after.slot slot = before.slot slot

theorem bound_of_dict {world : World} {dict : Ref} {table : Table SlotId}
    (held : world.payload dict = .dict table) : dict.index < world.objects.size := by
  by_contra outside
  rw [payload, object, Array.getD_eq_getD_getElem?,
    Array.getElem?_eq_none (Nat.le_of_not_lt outside)] at held
  cases held

theorem modifyObject_replaces {world : World} {dict : Ref} {old table : Table SlotId}
    (held : world.payload dict = .dict old) {step : Object → Object}
    (replaced : (step (world.object dict)).payload = .dict table) :
    ∃ after, Exec.modifyObject dict step world = .ok () after ∧ world.Replaces after dict table ∧
      after.slots = world.slots := by
  refine ⟨_, rfl, ⟨?_, fun other different => ?_, ?_, Nat.le_refl _, fun _ _ => rfl⟩, rfl⟩
  · rw [← replaced]
    simp [payload, object, Array.getElem_modify, bound_of_dict held]
  · simp [payload, object, Array.getElem?_modify, index_ne_of_ne different]
  · simp

/-- A new slot belongs to no entry yet. -/
theorem Replaces.ofNewSlot {world after : World} {dict value : Ref} {table : Table SlotId}
    (replaces : Replaces { world with slots := world.slots.push value } after dict table) :
    world.Replaces after dict table where
  held := replaces.held
  others := replaces.others
  objects := replaces.objects
  slots := Nat.le_trans (by simp) replaces.slots
  kept slot bound := by
    rw [replaces.kept slot (by simp; omega)]
    simp [World.slot, Array.getElem?_push, Nat.ne_of_lt bound]

theorem discard_of_ok {α : Type} {step : Exec α} {world after : World} {value : α}
    (done : step world = .ok value after) : (discard step : Exec Unit) world = .ok () after := by
  change EStateM.map _ step world = _
  rw [EStateM.map, done]

section Replacing

open Library

variable {world : World} {dict : Ref} {table : Table SlotId}

theorem pushEntry_replaces (held : world.payload dict = .dict table) (code : UInt64) (key : Ref)
    (slot : SlotId) :
    ∃ after, pushEntry dict code key slot world = .ok () after ∧
      world.Replaces after dict (table.push code key slot) ∧ after.slots = world.slots := by
  refine modifyObject_replaces held ?_
  rw [payload] at held
  generalize world.object dict = object at held
  cases object
  cases held
  rfl

theorem removeEntry_replaces (held : world.payload dict = .dict table) (place : Option Nat) :
    ∃ after, removeEntry dict place world = .ok () after ∧
      world.Replaces after dict (table.remove place) ∧ after.slots = world.slots := by
  refine modifyObject_replaces held ?_
  rw [payload] at held
  generalize world.object dict = object at held
  cases object
  cases held
  rfl

theorem dictTable_of_payload (held : world.payload dict = .dict table) :
    dictTable dict world = .ok table world := by
  rw [dictTable, Exec.read_bind, held]
  rfl

end Replacing

namespace Family

variable {start world after : World} {dicts : List Ref} {dict : Ref} {table : Table SlotId}

theorem spares_replaces (family : start.Family world dicts) (inside : dict ∈ dicts)
    (replaces : world.Replaces after dict table) : Key.Spares start after := by
  refine ⟨family.spares.1.trans (Nat.le_of_eq replaces.objects.symm), fun ref bound => ?_⟩
  have different : ref ≠ dict := by
    rintro rfl
    exact Nat.not_le.mpr bound (family.newer ref inside)
  rw [replaces.others ref different, family.spares.2 ref bound]

/-- Entries that have their slots from before, or new ones, are apart from all other dicts. -/
theorem replace (family : start.Family world dicts) (inside : dict ∈ dicts)
    (replaces : world.Replaces after dict table)
    (proper : Table.Proper start after.slots.size table.entries.toList)
    (own : ∀ entry ∈ table.entries.toList,
      entry ∈ world.dictEntries dict ∨ world.slots.size ≤ entry.value.index) :
    start.Family after dicts := by
  have entries : after.dictEntries dict = table.entries.toList :=
    dictEntries_of_payload replaces.held
  have kept {other : Ref} (different : other ≠ dict) :
      after.dictEntries other = world.dictEntries other :=
    entries_of_payload_eq (replaces.others other different)
  -- A slot of another dict was there before, and belonged to no entry of this one.
  have apart {other : Ref} (otherInside : other ∈ dicts) (different : other ≠ dict)
      {entry otherEntry : Table.Entry SlotId} (stored : entry ∈ table.entries.toList)
      (otherStored : otherEntry ∈ world.dictEntries other) : entry.value ≠ otherEntry.value := by
    obtain old | new := own entry stored
    · exact family.slotsApart dict inside other otherInside different.symm entry old otherEntry
        otherStored
    · intro same
      have bound := (family.proper other otherInside).slotsBound otherEntry otherStored
      rw [same] at new
      exact Nat.not_le.mpr bound new
  refine ⟨family.spares_replaces inside replaces, family.distinct, family.newer, ?_, ?_, ?_⟩
  · intro other otherInside
    by_cases same : other = dict
    · exact ⟨table, same ▸ replaces.held⟩
    · rw [replaces.others other same]
      exact family.isDict other otherInside
  · intro other otherInside
    by_cases same : other = dict
    · rwa [same, entries]
    · rw [kept same]
      exact (family.proper other otherInside).mono replaces.slots
  · intro first firstInside second secondInside different entry stored otherEntry otherStored
    by_cases isFirst : first = dict
    · have isSecond : second ≠ dict := fun same => different (isFirst.trans same.symm)
      rw [isFirst, entries] at stored
      rw [kept isSecond] at otherStored
      exact apart secondInside isSecond stored otherStored
    · rw [kept isFirst] at stored
      by_cases isSecond : second = dict
      · rw [isSecond, entries] at otherStored
        exact (apart firstInside isFirst otherStored stored).symm
      · rw [kept isSecond] at otherStored
        exact family.slotsApart first firstInside second secondInside different entry stored
          otherEntry otherStored

theorem untouched_replaces (family : start.Family world dicts)
    (replaces : world.Replaces after dict table) {other : Ref} (inside : other ∈ dicts)
    (different : other ≠ dict) : world.Untouched after other :=
  ⟨replaces.others other different, fun entry stored =>
    replaces.kept entry.value ((family.proper other inside).slotsBound entry stored)⟩

end Family

/-- One dict has come to have the given pairs; all others have theirs. -/
structure Became (start before after : World) (dicts : List Ref) (dict : Ref)
    (pairs : List (Ref × Ref)) : Prop where
  family : start.Family after dicts
  pairs : after.dictPairs dict = pairs
  others : ∀ other ∈ dicts, other ≠ dict → before.Untouched after other

namespace Family

open Library

variable {start world after : World} {dicts : List Ref} {dict : Ref} {table : Table SlotId}

theorem became (family : start.Family world dicts) (inside : dict ∈ dicts)
    (replaces : world.Replaces after dict table)
    (proper : Table.Proper start after.slots.size table.entries.toList)
    (own : ∀ entry ∈ table.entries.toList,
      entry ∈ world.dictEntries dict ∨ world.slots.size ≤ entry.value.index) :
    start.Became world after dicts dict
      (table.entries.toList.map fun entry => (entry.key, after.slot entry.value)) where
  family := family.replace inside replaces proper own
  pairs := by rw [dictPairs, dictEntries_of_payload replaces.held]
  others _ otherInside different := family.untouched_replaces replaces otherInside different

/-- Fewer entries are a dict with fewer pairs. -/
theorem became_sublist (family : start.Family world dicts) (inside : dict ∈ dicts)
    (replaces : world.Replaces after dict table) (slots : after.slots = world.slots)
    (fewer : table.entries.toList.Sublist (world.dictEntries dict)) :
    start.Became world after dicts dict
      (table.entries.toList.map fun entry => (entry.key, world.slot entry.value)) := by
  have kept : after.slot = world.slot := by
    funext slot
    rw [World.slot, slots, World.slot]
  rw [← kept]
  exact family.became inside replaces (slots ▸ (family.proper dict inside).sublist fewer)
    fun entry stored => .inl (fewer.subset stored)

/-! ### What each operation does -/

/-- The value of a key that is there is replaced where it is. -/
theorem setSlot_entry (family : start.Family world dicts) (inside : dict ∈ dicts) {ref : Ref}
    (value : Ref) {entry : Table.Entry SlotId}
    (found : (world.dictEntries dict).find? (start.keyEqual ·.key ref) = some entry) :
    ∃ after, Exec.setSlot entry.value value world = .ok () after ∧
      start.Became world after dicts dict
        (Pairs.insert start.keyEqual ref value (world.dictPairs dict)) := by
  refine ⟨_, rfl, ?_⟩
  let after : World :=
    { world with slots := world.slots.setIfInBounds entry.value.index value }
  obtain ⟨isKey, earlier, later, entries, absent⟩ := List.find?_eq_some_iff_append.mp found
  have proper := family.proper dict inside
  have stored : entry ∈ world.dictEntries dict := List.mem_of_find?_eq_some found
  have here : after.slot entry.value = value := by
    simp [after, World.slot, proper.slotsBound entry stored]
  have elsewhere {slot : SlotId} (different : slot ≠ entry.value) :
      after.slot slot = world.slot slot := by
    have apart : entry.value.index ≠ slot.index := fun same => different (by
      cases slot
      rw [SlotId.mk.injEq]
      exact same.symm)
    simp [after, World.slot, apart]
  refine ⟨⟨family.spares, family.distinct, family.newer, family.isDict, fun other otherInside => ?_,
    family.slotsApart⟩, ?_, fun other otherInside different => ⟨rfl, fun otherEntry held => ?_⟩⟩
  · exact (family.proper other otherInside).mono (Nat.le_of_eq (Array.size_setIfInBounds ..).symm)
  · obtain ⟨-, slotsLater, slotsEarlier⟩ := List.pairwise_append.mp (entries ▸ proper.slotsDiffer)
    have keptEarlier : earlier.map (fun entry => (entry.key, after.slot entry.value)) =
        earlier.map fun entry => (entry.key, world.slot entry.value) :=
      List.map_congr_left fun other among => by
        rw [elsewhere (slotsEarlier other among entry List.mem_cons_self)]
    have keptLater : later.map (fun entry => (entry.key, after.slot entry.value)) =
        later.map fun entry => (entry.key, world.slot entry.value) :=
      List.map_congr_left fun other among => by
        rw [elsewhere (Ne.symm ((List.pairwise_cons.mp slotsLater).1 other among))]
    change (world.dictEntries dict).map (fun entry => (entry.key, after.slot entry.value)) = _
    rw [dictPairs, entries, List.map_append, List.map_append, List.map_cons, List.map_cons, here,
      keptEarlier, keptLater, Pairs.insert_of_present _ isKey]
    simpa using absent
  · exact elsewhere (family.slotsApart other otherInside dict inside different otherEntry held entry
      stored)

/-- A new key gets an entry at the end with a new slot. -/
theorem pushEntry_new (family : start.Family world dicts) (inside : dict ∈ dicts) {key : Key}
    {ref : Ref} (denoted : key.Denoted start ref) (value : Ref)
    (missing : (world.dictEntries dict).find? (start.keyEqual ·.key ref) = none) :
    ∃ after, pushEntry dict key.hash ref ⟨world.slots.size⟩
        { world with slots := world.slots.push value } = .ok () after ∧
      start.Became world after dicts dict
        (Pairs.insert start.keyEqual ref value (world.dictPairs dict)) := by
  obtain ⟨table, held⟩ := family.isDict dict inside
  have entries : world.dictEntries dict = table.entries.toList := dictEntries_of_payload held
  have proper := family.proper dict inside
  have absent : ∀ entry ∈ world.dictEntries dict, start.keyEqual entry.key ref = false := by
    simpa using missing
  let middle : World := { world with slots := world.slots.push value }
  obtain ⟨after, pushed, replacesMiddle, slots⟩ :=
    pushEntry_replaces (show middle.payload dict = .dict table from held) key.hash ref
      ⟨world.slots.size⟩
  have replaces : world.Replaces after dict _ := replacesMiddle.ofNewSlot
  have here : after.slot ⟨world.slots.size⟩ = value := by simp [World.slot, slots, middle]
  have kept : (world.dictEntries dict).map (fun entry => (entry.key, after.slot entry.value)) =
      world.dictPairs dict :=
    List.map_congr_left fun entry stored => by
      rw [replaces.kept entry.value (proper.slotsBound entry stored)]
  have became := family.became inside replaces
    (by
      rw [Table.toList_entries_push, ← entries, slots, Array.size_push]
      exact proper.concat denoted absent)
    (by
      rw [Table.toList_entries_push, ← entries]
      exact List.forall_mem_append.mpr ⟨fun _ => .inl, by simp⟩)
  rw [Table.toList_entries_push, ← entries, List.map_append, kept, List.map_singleton, here]
    at became
  refine ⟨after, pushed, ?_⟩
  rw [Pairs.insert_of_absent]
  · exact became
  · simpa [dictPairs] using absent

theorem dictStore_became (family : start.Family world dicts) (inside : dict ∈ dicts) {key : Key}
    {ref : Ref} (denoted : key.Denoted start ref) (value : Ref) :
    ∃ after, dictStore dict ref value world = .ok () after ∧
      start.Became world after dicts dict
        (Pairs.insert start.keyEqual ref value (world.dictPairs dict)) := by
  have slot? := family.slotOf?_eq inside denoted
  cases found : (world.dictEntries dict).find? (start.keyEqual ·.key ref) with
  | some entry =>
    rw [found] at slot?
    obtain ⟨after, stored, became⟩ := family.setSlot_entry inside value found
    exact ⟨after, (Exec.bind_of_ok slot?).trans stored, became⟩
  | none =>
    rw [found] at slot?
    obtain ⟨after, pushed, became⟩ := family.pushEntry_new inside denoted value found
    refine ⟨after, (Exec.bind_of_ok slot?).trans ?_, became⟩
    have spares : Key.Spares start { world with slots := world.slots.push value } := family.spares
    rw [← keyHash_key (Key.Denoted.spared spares key denoted)] at pushed
    exact pushed

theorem tableRemove_became (family : start.Family world dicts) (inside : dict ∈ dicts) {key : Key}
    {ref : Ref} (denoted : key.Denoted start ref) :
    ∃ wasThere after, tableRemove dict ref world = .ok wasThere after ∧
      start.Became world after dicts dict
        (Pairs.remove start.keyEqual ref (world.dictPairs dict)) := by
  obtain ⟨table, held⟩ := family.isDict dict inside
  have located : locate dict ref world = .ok (world.tablePlace? table ref) world := by
    rw [locate, Exec.read, held]
  obtain ⟨after, removed, replaces, slots⟩ :=
    removeEntry_replaces held (world.tablePlace? table ref)
  have entries := Table.toList_entries_remove world.keyEqual table (world.keyHash ref) ref
  rw [← dictEntries_of_payload held] at entries
  have became := family.became_sublist inside replaces slots (by
    rw [tablePlace?, entries]
    exact List.eraseP_sublist)
  rw [tablePlace?, entries,
    Pairs.remove_map fun entry stored => family.holds_eq inside denoted stored] at became
  exact ⟨_, after, (Exec.bind_of_ok located).trans (Exec.bind_of_ok removed), became⟩

theorem dictClear_became (family : start.Family world dicts) (inside : dict ∈ dicts) :
    ∃ after, dictClear dict world = .ok noneRef after ∧ start.Became world after dicts dict [] := by
  obtain ⟨table, held⟩ := family.isDict dict inside
  obtain ⟨after, cleared, replaces, slots⟩ : ∃ after,
      Exec.setPayload dict (.dict .empty) world = .ok () after ∧
        world.Replaces after dict .empty ∧ after.slots = world.slots :=
    modifyObject_replaces held rfl
  have read := discard_of_ok (dictTable_of_payload held)
  refine ⟨after, (Exec.bind_of_ok read).trans (Exec.bind_of_ok cleared), ?_⟩
  exact family.became_sublist inside replaces slots (List.nil_sublist _)

/-- A new dict has no pairs, and the others have theirs. -/
theorem newDict_family (family : start.Family world dicts) :
    ∃ dict after, Exec.newDict world = .ok dict after ∧ start.Family after (dicts ++ [dict]) ∧
      dict ∉ dicts ∧ after.dictPairs dict = [] ∧ ∀ other ∈ dicts, world.Untouched after other := by
  let dict : Ref := ⟨world.objects.size⟩
  let after : World := { world with
    objects := world.objects.push ⟨BuiltinClass.dict.ref, none, .dict .empty, none⟩ }
  have held : after.payload dict = .dict .empty := by simp [after, dict, payload, object]
  have empty : after.dictEntries dict = [] := dictEntries_of_payload held
  have older {ref : Ref} (bound : ref.index < world.objects.size) :
      after.payload ref = world.payload ref := by
    simp [after, payload, object, Array.getElem?_push, Nat.ne_of_lt bound]
  have kept {other : Ref} (inside : other ∈ dicts) : after.payload other = world.payload other :=
    older (bound_of_dict (family.isDict other inside).choose_spec)
  have new : dict ∉ dicts := fun inside =>
    Nat.lt_irrefl _ (bound_of_dict (family.isDict dict inside).choose_spec)
  have entries {other : Ref} (inside : other ∈ dicts) :
      after.dictEntries other = world.dictEntries other := entries_of_payload_eq (kept inside)
  refine ⟨dict, after, rfl, ⟨?_, ?_, ?_, ?_, ?_, ?_⟩, new, by rw [dictPairs, empty]; rfl,
    fun other inside => ⟨kept inside, fun _ _ => rfl⟩⟩
  · refine ⟨family.spares.1.trans (by simp [after]), fun ref bound => ?_⟩
    rw [older (bound.trans_le family.spares.1), family.spares.2 ref bound]
  · exact List.nodup_append.mpr ⟨family.distinct, by simp, by grind⟩
  · exact List.forall_mem_append.mpr ⟨family.newer, by simpa [dict] using family.spares.1⟩
  · refine List.forall_mem_append.mpr ⟨fun other inside => ?_, by simpa using ⟨_, held⟩⟩
    rw [kept inside]
    exact family.isDict other inside
  · refine List.forall_mem_append.mpr ⟨fun other inside => ?_, ?_⟩
    · rw [entries inside]
      exact family.proper other inside
    · rw [List.forall_mem_singleton, empty]
      exact .nil
  · intro first firstInside second secondInside different entry stored otherEntry otherStored
    rw [List.mem_append, List.mem_singleton] at firstInside secondInside
    obtain firstInside | rfl := firstInside
    · obtain secondInside | rfl := secondInside
      · rw [entries firstInside] at stored
        rw [entries secondInside] at otherStored
        exact family.slotsApart first firstInside second secondInside different entry stored
          otherEntry otherStored
      · rw [empty] at otherStored
        cases otherStored
    · rw [empty] at stored
      cases stored

/-- Entries of one dict are entered into another one by one, with the values that they had. -/
theorem storeEntries_became {source : Ref} (sourceInside : source ∈ dicts) (inside : dict ∈ dicts)
    (different : source ≠ dict) (entries : List (Table.Entry SlotId)) : ∀ {world : World},
    start.Family world dicts → entries ⊆ world.dictEntries source →
    ∃ after, (entries.forM fun entry => do dictStore dict entry.key (← valueOf entry) : Exec Unit)
        world = .ok () after ∧
      start.Became world after dicts dict
        ((entries.map fun entry => (entry.key, world.slot entry.value)).foldl
          (fun found pair => Pairs.insert start.keyEqual pair.1 pair.2 found)
          (world.dictPairs dict)) := by
  induction entries with
  | nil =>
    intro world family _
    exact ⟨world, rfl, family, rfl, fun _ _ _ => ⟨rfl, fun _ _ => rfl⟩⟩
  | cons entry rest inductionHypothesis =>
    intro world family among
    obtain ⟨stored, restAmong⟩ := List.cons_subset.mp among
    obtain ⟨key, denoted, -⟩ := (family.proper source sourceInside).keyed entry stored
    obtain ⟨middle, first, became⟩ :=
      family.dictStore_became inside denoted (world.slot entry.value)
    have kept := became.others source sourceInside different
    obtain ⟨after, others, becameRest⟩ := inductionHypothesis became.family
      (by rwa [entries_of_payload_eq kept.1])
    refine ⟨after, (Exec.bind_of_ok first).trans others, becameRest.family, ?_,
      fun other otherInside apart => (became.others other otherInside apart).trans
        (becameRest.others other otherInside apart)⟩
    have values : rest.map (fun entry => (entry.key, middle.slot entry.value)) =
        rest.map fun entry => (entry.key, world.slot entry.value) :=
      List.map_congr_left fun other otherAmong => by rw [kept.2 other (restAmong otherAmong)]
    rw [becameRest.pairs, became.pairs, values]
    rfl

/-- A copy has the pairs of the dict that it was made from. -/
theorem dictCopy_family (family : start.Family world dicts) (inside : dict ∈ dicts) :
    ∃ copy after, dictCopy dict world = .ok copy after ∧ start.Family after (dicts ++ [copy]) ∧
      after.dictPairs copy = world.dictPairs dict ∧
      ∀ other ∈ dicts, world.Untouched after other := by
  obtain ⟨table, held⟩ := family.isDict dict inside
  have listed : world.dictEntries dict = table.entries.toList := dictEntries_of_payload held
  obtain ⟨copy, middle, made, familyMiddle, new, empty, untouched⟩ := family.newDict_family
  have kept := untouched dict inside
  obtain ⟨after, stored, became⟩ := storeEntries_became
    (List.mem_append_left [copy] inside) (List.mem_append_right dicts List.mem_cons_self)
    (fun same => new (same ▸ inside)) table.entries.toList familyMiddle
    (by rw [entries_of_payload_eq kept.1, listed]; exact List.Subset.refl _)
  have storedAll : storeEntries copy table middle = .ok () after := by
    have asList := List.forM_toArray table.entries.toList
      fun entry => (do dictStore copy entry.key (← valueOf entry) : Exec Unit)
    rw [Array.toArray_toList] at asList
    rw [storeEntries, Array.forM_eq_forM, asList]
    exact stored
  refine ⟨copy, after, ?_, became.family, ?_, fun other otherInside => ?_⟩
  · exact (Exec.bind_of_ok (dictTable_of_payload held)).trans
      ((Exec.bind_of_ok made).trans (Exec.bind_of_ok storedAll))
  · have pairs : (table.entries.toList.map fun entry => (entry.key, middle.slot entry.value)) =
        world.dictPairs dict := by
      rw [← kept.pairs, dictPairs, entries_of_payload_eq kept.1, listed]
    have differ : ([] ++ world.dictPairs dict).Pairwise
        (fun first second : Ref × Ref => start.keyEqual first.1 second.1 = false) :=
      List.pairwise_map.mpr (family.proper dict inside).keysDiffer
    rw [became.pairs, empty, pairs, Pairs.foldl_insert differ, List.nil_append]
  · exact (untouched other otherInside).trans
      (became.others other (List.mem_append_left _ otherInside)
        fun same => new (same ▸ otherInside))

end Family

end World

end Offside
