/-
This file says when keys that are equal have the same hash. An integer and a
floating-point number are one key if rounding the integer gives that number. So
several integers are one key with the same number, and only one of them can have its
hash: the integer that the number is. That integer must have no more than 53
significant bits, and it must not be the least integer, because its opposite is taken
for too large.

With every other pair of keys the hash follows. It follows through tuples as well, and
then a table that holds the one key finds it when it is asked for the other.
-/

import Mathlib.Data.List.Forall2
import Mathlib.Data.List.Zip
import Offside.Proofs.Hashing.Rounding
import Offside.Proofs.Items.Lists

namespace Offside

namespace Number

open Float.Model (Format UnpackedFloat)
open Float.Model.UnpackedFloat (Sign)

/-! ### Hashes of numbers -/

theorem Double.eq_of_isZero {number : Double} (zero : IsZero (parts number.toFloat)) :
    number = ⟨0⟩ ∨ number = ⟨signBit⟩ := by
  have bits := pack_parts fun none => nomatch none ▸ zero
  generalize parts number.toFloat = unpacked at zero bits
  obtain ⟨sign⟩ := zero
  cases sign with
  | positive => exact .inl (eq_of_bits (bits.symm.trans rfl))
  | negative => exact .inr (eq_of_bits (bits.symm.trans rfl))

/-- Both zeros have the hash of the integer. -/
theorem hashFloat_of_isZero {number : Double} (zero : IsZero (parts number.toFloat)) :
    hashFloat number = 0 := by
  obtain rfl | rfl := Double.eq_of_isZero zero <;> decide +kernel

theorem Holds.pos {sign : Sign} {near : Nat} {unpacked : UnpackedFloat}
    (holds : Holds sign near unpacked) : 0 < near := by
  obtain @⟨m, e, _, nonzero, -, -, -, -, whole⟩ := holds
  have positive : 0 < near * 2 ^ (-e).toNat := whole ▸ Nat.mul_pos nonzero (Nat.two_pow_pos _)
  exact Nat.pos_of_mul_pos_right positive

theorem natAbs_apply (sign : Sign) (near : Nat) : (sign.apply near).natAbs = near := by
  cases sign with
  | negative => exact Int.natAbs_neg near
  | positive => rfl

theorem signOf_apply (value : Int64) :
    (signOf value).apply value.toInt.natAbs = value.toInt := by
  have zero : (0 : Int64).toInt = 0 := rfl
  by_cases negative : value < 0
  · rw [signOf, if_pos negative]
    rw [Int64.lt_iff_toInt_lt, zero] at negative
    change -(value.toInt.natAbs : Int) = value.toInt
    omega
  · rw [signOf, if_neg negative]
    rw [Int64.lt_iff_toInt_lt, zero] at negative
    change (value.toInt.natAbs : Int) = value.toInt
    omega

theorem signOf_eq {value : Int64} {sign : Sign} {near : Nat} (positive : 0 < near)
    (is : value.toInt = sign.apply near) : signOf value = sign := by
  have applied := signOf_apply value
  rw [is, natAbs_apply] at applied
  generalize signOf value = other at applied
  cases other <;> cases sign <;> first | rfl | (simp [Sign.apply] at applied; omega)

/-- A floating-point number is this integer, and is not too large to be taken for one. -/
def IsExact (value : Int64) : Prop :=
  Short value.toInt.natAbs ∧ value ≠ .minValue

/-- A whole number that is not too large has the hash of that integer. -/
theorem Holds.hash_eq_iff {number : Double} {sign : Sign} {near : Nat}
    (holds : Holds sign near (parts number.toFloat)) (inside : near < 2 ^ 63) (value : Int64) :
    hashFloat number = value.toUInt64 ↔ value.toInt = sign.apply near := by
  generalize known : intOfFloat number.toFloat = whole
  have is : whole.toInt = sign.apply near := known ▸ holds.toInt_intOfFloat inside
  have size : whole.toInt.natAbs = near := is ▸ natAbs_apply sign near
  have nonzero : whole ≠ 0 := by
    rintro rfl
    exact absurd size.symm (Nat.ne_of_gt holds.pos)
  obtain ⟨again, againHolds, -, exactly⟩ := exists_holds_floatOfInt nonzero
  rw [signOf_eq holds.pos is, exactly (size ▸ holds.short), size] at againHolds
  have below := (holds.abs.lt_limit_iff (Nat.le_of_lt inside)).mpr inside
  have hash : hashFloat number = whole.toUInt64 := by
    rw [hashFloat, known]
    exact if_pos (by rw [holds.beq againHolds, decide_eq_true below]; rfl)
  rw [hash, ← is, Int64.toInt_inj]
  exact ⟨fun same => congrArg UInt64.toInt64 same.symm,
    fun same => congrArg Int64.toUInt64 same.symm⟩

/-- A number that is too large for an integer is hashed by its bits. -/
theorem Holds.hash_limit {number : Double} {sign : Sign}
    (holds : Holds sign (2 ^ 63) (parts number.toFloat)) :
    hashFloat number = 0x43e0000000000000 ∨ hashFloat number = 0xc3e0000000000000 := by
  have above : ¬ number.toFloat.abs < 9223372036854775808.0 := fun below =>
    absurd ((holds.abs.lt_limit_iff (Nat.le_refl _)).mp below) (Nat.lt_irrefl _)
  have bits : hashFloat number = number.bits := by
    rw [hashFloat]
    exact if_neg (by simp [above])
  rw [bits]
  have limit : Holds sign (2 ^ 63) (.finite sign (2 ^ 52) 11 (by decide)) :=
    .finite sign (by decide) (by decide) (by decide) (by decide) (by decide) rfl
  have same := holds.unique limit
  have packed := Double.pack_parts (by rw [same]; nofun)
  rw [same] at packed
  cases sign with
  | positive => exact .inl (UInt64.toBitVec_inj.mp (packed.symm.trans (by decide +kernel)))
  | negative => exact .inr (UInt64.toBitVec_inj.mp (packed.symm.trans (by decide +kernel)))

/-- An integer and the floating-point number nearest to it have one hash exactly if they are the
same number and it is not too large. -/
theorem hashFloat_eq_iff {value : Int64} {number : Double}
    (same : (floatOfInt value == number.toFloat) = true) :
    hashFloat number = value.toUInt64 ↔ IsExact value := by
  obtain ⟨-, alike⟩ := compare_eq_eq ((beq_iff _ _).mp same)
  by_cases zero : value = 0
  · subst zero
    have origin : IsZero (parts (floatOfInt 0)) := .zero _
    have isZero : IsZero (parts number.toFloat) :=
      alike.elim (fun equal => equal ▸ origin) And.right
    exact iff_of_true (hashFloat_of_isZero isZero) ⟨⟨0, 0, by decide, rfl⟩, by decide⟩
  obtain ⟨near, intHolds, limited, exactly⟩ := exists_holds_floatOfInt zero
  have holds : Holds (signOf value) near (parts number.toFloat) := by
    obtain equal | ⟨isZero, -⟩ := alike
    · exact equal ▸ intHolds
    · generalize parts (floatOfInt value) = unpacked at isZero intHolds
      cases isZero
      cases intHolds
  obtain inside | rfl := Nat.lt_or_eq_of_le limited
  · rw [holds.hash_eq_iff inside]
    constructor
    · intro is
      have size : value.toInt.natAbs = near := is ▸ natAbs_apply _ _
      refine ⟨size ▸ holds.short, ?_⟩
      rintro rfl
      exact absurd (size ▸ inside) (by decide)
    · rintro ⟨short, -⟩
      rw [exactly short, signOf_apply]
  · refine iff_of_false (fun hash => ?_) fun ⟨short, notLeast⟩ => ?_
    · obtain bits | bits := holds.hash_limit <;> rw [bits] at hash
      · obtain rfl : 0x43e0000000000000 = value := congrArg UInt64.toInt64 hash
        exact absurd (exactly ⟨0x21f, 53, by decide, by decide⟩) (by decide)
      · obtain rfl : -0x3c20000000000000 = value := congrArg UInt64.toInt64 hash
        exact absurd (exactly ⟨0x1e1, 53, by decide, by decide⟩) (by decide)
    · refine notLeast (Int64.toInt_inj.mp ?_)
      have size := exactly short
      have upper := value.toInt_lt
      have least : Int64.minValue.toInt = -2 ^ 63 := rfl
      omega

theorem beq_symm {first second : Float} (same : (first == second) = true) :
    (second == first) = true := by
  rw [beq_iff] at same ⊢
  obtain ⟨-, alike | zeros⟩ := compare_eq_eq same
  · rwa [alike] at same ⊢
  · generalize parts first = one at zeros
    generalize parts second = other at zeros
    obtain ⟨⟨_⟩, ⟨_⟩⟩ := zeros
    rfl

end Number

namespace World

open Number (Double IsExact floatOfInt)

variable {world : World} {first second : Ref}

/-! ### Equal keys -/

/-- An integer stands in one key where the other one has a floating-point number, and the integer
is not exact. -/
inductive Diverges (world : World) : Ref → Ref → Prop where
  | left {first second : Ref} {value : Int64} {number : Double}
      (isInt : world.payload first = .int value) (isFloat : world.payload second = .float number)
      (inexact : ¬ IsExact value) : Diverges world first second
  | right {first second : Ref} {value : Int64} {number : Double}
      (isFloat : world.payload first = .float number) (isInt : world.payload second = .int value)
      (inexact : ¬ IsExact value) : Diverges world first second
  | tuple {first second left right : Ref} {elements others : Array Ref}
      (held : world.payload first = .tuple elements) (other : world.payload second = .tuple others)
      (inside : (left, right) ∈ elements.toList.zip others.toList)
      (part : Diverges world left right) : Diverges world first second

theorem Diverges.symm (diverges : world.Diverges first second) : world.Diverges second first := by
  induction diverges with
  | left isInt isFloat inexact => exact .right isFloat isInt inexact
  | right isFloat isInt inexact => exact .left isInt isFloat inexact
  | tuple held other inside _ inductionHypothesis =>
    refine .tuple other held ?_ inductionHypothesis
    rw [← List.zip_swap]
    exact List.mem_map_of_mem inside

theorem pairwise_iff_forall₂ {same : Ref → Ref → Bool} {elements others : Array Ref} :
    pairwise same elements others = true ↔
      elements.toList.Forall₂ (fun left right => same left right = true) others.toList := by
  rw [pairwise, List.forall₂_iff_zip, Bool.and_eq_true, beq_iff_eq, ← Array.all_toList,
    Array.toList_zip, List.all_eq_true, Array.length_toList, Array.length_toList, Prod.forall]

/-- Keys with this payload are equal exactly if their payloads are. -/
inductive IsValue : Payload → Prop where
  | none : IsValue .none
  | bool (value : Bool) : IsValue (.bool value)
  | int (value : Int64) : IsValue (.int value)
  | str (text : String) : IsValue (.str text)

/-- Why two objects are the same key. -/
inductive OneKey (world : World) (same : Ref → Ref → Bool) (first second : Ref) : Prop where
  | itself (equal : first = second)
  | value {payload : Payload} (isValue : IsValue payload) (held : world.payload first = payload)
      (otherHeld : world.payload second = payload)
  | rounded {value : Int64} {number : Double} (isInt : world.payload first = .int value)
      (isFloat : world.payload second = .float number)
      (near : (floatOfInt value == number.toFloat) = true)
  | unrounded {number : Double} {value : Int64} (isFloat : world.payload first = .float number)
      (isInt : world.payload second = .int value)
      (near : (number.toFloat == floatOfInt value) = true)
  | float {number other : Double} (held : world.payload first = .float number)
      (otherHeld : world.payload second = .float other)
      (equal : (number.toFloat == other.toFloat) = true)
  | tuple {elements others : Array Ref} (held : world.payload first = .tuple elements)
      (otherHeld : world.payload second = .tuple others)
      (parts : elements.toList.Forall₂ (fun left right => same left right = true) others.toList)

theorem oneKey_of_keyEqualWithin {fuel : Nat}
    (same : world.keyEqualWithin (fuel + 1) first second = true) :
    world.OneKey (world.keyEqualWithin fuel) first second := by
  rw [keyEqualWithin] at same
  split at same
  next held otherHeld => exact .value (.int _) (eq_of_beq same ▸ held) otherHeld
  next isInt isFloat => exact .rounded isInt isFloat same
  next isFloat isInt => exact .unrounded isFloat isInt same
  next held otherHeld => exact .float held otherHeld same
  next held otherHeld => exact .value (.str _) (eq_of_beq same ▸ held) otherHeld
  next held otherHeld => exact .value (.bool _) (eq_of_beq same ▸ held) otherHeld
  next held otherHeld => exact .value .none held otherHeld
  next held otherHeld => exact .tuple held otherHeld (pairwise_iff_forall₂.mp same)
  any_goals cases same
  exact .itself (eq_of_beq same)

theorem keyEqualWithin_symm (fuel : Nat) : ∀ {first second : Ref},
    world.keyEqualWithin fuel first second = true →
      world.keyEqualWithin fuel second first = true := by
  induction fuel with
  | zero => exact fun same => nomatch same
  | succ fuel inductionHypothesis =>
    intro first second same
    cases oneKey_of_keyEqualWithin same with
    | itself equal => exact equal ▸ same
    | value isValue held otherHeld =>
      rw [keyEqualWithin, held, otherHeld]
      cases isValue <;> first | rfl | exact beq_self_eq_true _
    | rounded isInt isFloat near =>
      rw [keyEqualWithin, isInt, isFloat]
      exact Number.beq_symm near
    | unrounded isFloat isInt near =>
      rw [keyEqualWithin, isInt, isFloat]
      exact Number.beq_symm near
    | float held otherHeld equal =>
      rw [keyEqualWithin, held, otherHeld]
      exact Number.beq_symm equal
    | tuple held otherHeld parts =>
      rw [keyEqualWithin, held, otherHeld]
      exact pairwise_iff_forall₂.mpr (parts.imp fun _ _ => inductionHypothesis).flip

/-- Equal keys have one hash, unless they diverge. -/
theorem keyHashWithin_of_keyEqualWithin (fuel : Nat) : ∀ {first second : Ref},
    world.keyEqualWithin fuel first second = true → ¬ world.Diverges first second →
      world.keyHashWithin fuel first = world.keyHashWithin fuel second := by
  induction fuel with
  | zero => exact fun same => nomatch same
  | succ fuel inductionHypothesis =>
    intro first second same agrees
    cases oneKey_of_keyEqualWithin same with
    | itself equal => rw [equal]
    | value isValue held otherHeld =>
      rw [keyHashWithin, keyHashWithin, held, otherHeld]
      cases isValue <;> rfl
    | rounded isInt isFloat near =>
      have exactly := Classical.not_not.mp fun inexact => agrees (.left isInt isFloat inexact)
      rw [keyHashWithin, keyHashWithin, isInt, isFloat]
      exact ((Number.hashFloat_eq_iff near).mpr exactly).symm
    | unrounded isFloat isInt near =>
      have exactly := Classical.not_not.mp fun inexact => agrees (.right isFloat isInt inexact)
      rw [keyHashWithin, keyHashWithin, isInt, isFloat]
      exact (Number.hashFloat_eq_iff (Number.beq_symm near)).mpr exactly
    | float held otherHeld equal =>
      rw [keyHashWithin, keyHashWithin, held, otherHeld]
      obtain rfl | ⟨zero, otherZero⟩ := Number.Double.bits_eq_of_beq equal
      · rfl
      · exact (Number.hashFloat_of_isZero zero).trans (Number.hashFloat_of_isZero otherZero).symm
    | @tuple elements others held otherHeld parts =>
      rw [List.forall₂_iff_zip] at parts
      have hashes : elements.toList.map (world.keyHashWithin fuel) =
          others.toList.map (world.keyHashWithin fuel) := by
        rw [← List.forall₂_eq_eq_eq, List.forall₂_map_left_iff, List.forall₂_map_right_iff]
        exact List.forall₂_iff_zip.mpr ⟨parts.1, fun inside =>
          inductionHypothesis (parts.2 inside) fun part =>
            agrees (.tuple held otherHeld inside part)⟩
      rw [keyHashWithin, keyHashWithin, held, otherHeld]
      dsimp only
      rw [← Array.foldl_toList, ← Array.foldl_toList,
        ← List.foldl_map (f := world.keyHashWithin fuel) (g := hashStep), hashes, List.foldl_map]

/-! ### Finding a key -/

/-- The key was put into the table with its hash. -/
def Stores {α : Type} (world : World) (table : Table α) (key : Ref) : Prop :=
  ∃ entry ∈ table.entries.toList, entry.key = key ∧ entry.hash = world.keyHash key

/-- A table finds a key that is equal to a stored one and has its hash. -/
theorem Stores.contains {α : Type} {table : Table α} (stores : world.Stores table first)
    (same : world.keyEqual first second = true)
    (hashes : world.keyHash first = world.keyHash second) :
    world.tableContains table second = true := by
  obtain ⟨entry, inside, rfl, hash⟩ := stores
  rw [tableContains, Table.contains, Table.find?_eq, List.find?_isSome]
  refine ⟨entry, inside, ?_⟩
  rw [Table.Entry.holds, hash, hashes, same, beq_self_eq_true, Bool.and_self]

theorem contains_add_empty_iff (same : world.keyEqual first second = true) :
    world.tableContains (world.tableAdd .empty first) second = true ↔
      world.keyHash first = world.keyHash second := by
  have added : (world.tableAdd .empty first).entries.toList =
      [⟨world.keyHash first, first, ()⟩] := by
    rw [tableAdd, Table.add, if_neg (by simp [Table.contains, Table.find?_eq]),
      Table.toList_entries_push]
    rfl
  rw [tableContains, Table.contains, Table.find?_eq, added]
  simp [Table.Entry.holds, same]

theorem keyHash_eq_iff {value : Int64} {number : Double}
    (isInt : world.payload first = .int value) (isFloat : world.payload second = .float number)
    (same : world.keyEqual first second = true) :
    world.keyHash first = world.keyHash second ↔ IsExact value := by
  rw [keyEqual, keyEqualWithin, isInt, isFloat] at same
  rw [keyHash, keyHash, keyHashWithin, keyHashWithin, isInt, isFloat, eq_comm]
  exact Number.hashFloat_eq_iff same

/-- Two equal keys have one hash, and a table that holds the one finds it when it is asked for the
other, unless somewhere in the keys an integer that is not exact is equal to a floating-point
number. Such an integer and such a number never have one hash, and of a set that holds the one
nobody finds it who asks for the other. -/
theorem equal_keys_found (same : world.keyEqual first second = true) :
    (¬ world.Diverges first second → world.keyHash first = world.keyHash second ∧
      ∀ {α : Type} (table : Table α),
        (world.Stores table first → world.tableContains table second = true) ∧
        (world.Stores table second → world.tableContains table first = true)) ∧
    ∀ {value : Int64} {number : Double},
      world.payload first = .int value ∧ world.payload second = .float number ∨
        world.payload first = .float number ∧ world.payload second = .int value →
      (world.keyHash first = world.keyHash second ↔ IsExact value) ∧
        (world.tableContains (world.tableAdd .empty first) second = true ↔ IsExact value) := by
  have back : world.keyEqual second first = true := keyEqualWithin_symm _ same
  refine ⟨fun agrees => ?_, fun pair => ?_⟩
  · have hashes := keyHashWithin_of_keyEqualWithin _ same agrees
    exact ⟨hashes, fun table => ⟨fun stores => stores.contains same hashes,
      fun stores => stores.contains back hashes.symm⟩⟩
  · rw [contains_add_empty_iff same, and_self]
    obtain ⟨isInt, isFloat⟩ | ⟨isFloat, isInt⟩ := pair
    · exact keyHash_eq_iff isInt isFloat same
    · rw [eq_comm]
      exact keyHash_eq_iff isInt isFloat back

/-- At the start of a program there is room for an integer and a floating-point number. -/
theorem exists_numbers (value : Int64) (number : Double) :
    ∃ (world : World) (first second : Ref),
      world.payload first = .int value ∧ world.payload second = .float number := by
  let start := beginning { files := ⟨"/", []⟩, input := "", output := "" } []
  let place (offset : Nat) : Ref := ⟨start.objects.size + offset⟩
  let new : Array Object := #[⟨BuiltinClass.int.ref, none, .int value, none⟩,
    ⟨BuiltinClass.float.ref, none, .float number, none⟩]
  let world : World := { start with objects := start.objects ++ new }
  have placed {offset : Nat} {object : Object} (known : new[offset]? = some object) :
      world.object (place offset) = object :=
    object_append start new known
  have first : world.object (place 0) = ⟨BuiltinClass.int.ref, none, .int value, none⟩ := placed rfl
  have second : world.object (place 1) = ⟨BuiltinClass.float.ref, none, .float number, none⟩ :=
    placed rfl
  exact ⟨world, place 0, place 1, congrArg Object.payload first, congrArg Object.payload second⟩

/-- The integer `2 ** 53` and the floating-point number that it is are one key, and a set that holds
the integer finds it when it is asked for the number. -/
theorem even_integer_found :
    ∃ (world : World) (first second : Ref), world.payload first = .int 9007199254740992 ∧
      world.payload second = .float ⟨0x4340000000000000⟩ ∧
      world.keyEqual first second = true ∧ world.keyHash first = world.keyHash second ∧
      world.tableContains (world.tableAdd .empty first) second = true := by
  obtain ⟨world, first, second, isInt, isFloat⟩ :=
    exists_numbers 9007199254740992 ⟨0x4340000000000000⟩
  have same : world.keyEqual first second = true := by
    rw [keyEqual, keyEqualWithin, isInt, isFloat]
    change (floatOfInt 9007199254740992 == Double.toFloat ⟨0x4340000000000000⟩) = true
    decide +kernel
  have exactly : IsExact 9007199254740992 := ⟨⟨1, 53, by decide, by decide⟩, by decide⟩
  obtain ⟨hashes, found⟩ := (equal_keys_found same).2 (.inl ⟨isInt, isFloat⟩)
  exact ⟨world, first, second, isInt, isFloat, same, hashes.mpr exactly, found.mpr exactly⟩

/-- The next integer is rounded to that number as well. It is the same key, but is not found. -/
theorem odd_integer_not_found :
    ∃ (world : World) (first second : Ref), world.payload first = .int 9007199254740993 ∧
      world.payload second = .float ⟨0x4340000000000000⟩ ∧
      world.keyEqual first second = true ∧ world.keyHash first ≠ world.keyHash second ∧
      world.tableContains (world.tableAdd .empty first) second = false := by
  obtain ⟨world, first, second, isInt, isFloat⟩ :=
    exists_numbers 9007199254740993 ⟨0x4340000000000000⟩
  have same : world.keyEqual first second = true := by
    rw [keyEqual, keyEqualWithin, isInt, isFloat]
    change (floatOfInt 9007199254740993 == Double.toFloat ⟨0x4340000000000000⟩) = true
    decide +kernel
  have inexact : ¬ IsExact 9007199254740993 := fun exactly =>
    absurd (exactly.1.dvd (k := 1) (by decide)) (by decide)
  refine ⟨world, first, second, isInt, isFloat, same, ?_⟩
  rw [← Bool.not_eq_true, contains_add_empty_iff same, Ne, keyHash_eq_iff isInt isFloat same]
  exact ⟨inexact, inexact⟩

end World

end Offside
