/-
This file is about values as keys of dicts and sets. Whether an object may be a key, how
it is hashed and which objects are the same key is found out by following references, to a
depth that the size of the heap bounds. For objects that stand for values this comes to
what the values say: their own hash, and the same key only for the same value.

The bound is harmless in one direction only. An object that stands for a value is never
refused, and two objects for different values are never the same key, however little is
looked at; but the hash is that of the value only if all of the value is seen.
-/

import Offside.Proofs.Literal.Heap

namespace Offside

namespace World

variable {allowed : Ref → Prop} {world : World}

/-! ### What may be a key -/

mutual

theorem isHashableWithin_literal : ∀ (literal : Literal) (fuel : Nat) {ref : Ref},
    literal.Hashable → world.RepresentsIn allowed literal ref →
    world.isHashableWithin fuel ref = true
  | _, 0, _, _, _ => by rw [isHashableWithin]
  | .none, fuel + 1, ref, _, represented => by
    rw [isHashableWithin, represented.2.2.payload]
  | .bool value, fuel + 1, ref, _, represented => by
    rw [isHashableWithin, represented.2.2.payload]
  | .int value, fuel + 1, ref, _, represented => by
    rw [isHashableWithin, represented.2.payload]
  | .str value, fuel + 1, ref, _, represented => by
    rw [isHashableWithin, represented.2.payload]
  | .tuple elements, fuel + 1, ref, hashable, represented => by
    obtain ⟨-, cells, plain, parts⟩ := represented
    rw [isHashableWithin, plain.payload]
    dsimp only
    rw [← Array.all_toList]
    exact isHashableWithin_elements elements fuel hashable parts

theorem isHashableWithin_elements : ∀ (elements : List Literal) (fuel : Nat) {refs : List Ref},
    Literal.HashableAll elements → world.RepresentsAll allowed elements refs →
    refs.all (world.isHashableWithin fuel) = true
  | [], _, [], _, _ => rfl
  | first :: rest, fuel, ref :: refs, hashable, represented => by
    rw [List.all_cons, isHashableWithin_literal first fuel hashable.1 represented.1,
      isHashableWithin_elements rest fuel hashable.2 represented.2]
    rfl

end

/-! ### Hashes -/

mutual

theorem keyHashWithin_literal : ∀ (literal : Literal) (fuel : Nat) {ref : Ref},
    literal.Hashable → literal.depth < fuel → world.RepresentsIn allowed literal ref →
    world.keyHashWithin fuel ref = literal.hash
  | _, 0, _, _, enough, _ => absurd enough (Nat.not_lt_zero _)
  | .none, fuel + 1, ref, _, _, represented => by
    rw [keyHashWithin, represented.2.2.payload]
    rfl
  | .bool value, fuel + 1, ref, _, _, represented => by
    rw [keyHashWithin, represented.2.2.payload]
    rfl
  | .int value, fuel + 1, ref, _, _, represented => by
    rw [keyHashWithin, represented.2.payload]
    rfl
  | .str value, fuel + 1, ref, _, _, represented => by
    rw [keyHashWithin, represented.2.payload]
    rfl
  | .tuple elements, fuel + 1, ref, hashable, enough, represented => by
    obtain ⟨-, cells, plain, parts⟩ := represented
    rw [keyHashWithin, plain.payload]
    dsimp only
    rw [← Array.foldl_toList]
    exact keyHashWithin_elements elements fuel hashStart hashable (Nat.lt_of_succ_lt_succ enough)
      parts

theorem keyHashWithin_elements : ∀ (elements : List Literal) (fuel : Nat) (start : UInt64)
    {refs : List Ref}, Literal.HashableAll elements → Literal.depthAll elements < fuel →
    world.RepresentsAll allowed elements refs →
    refs.foldl (fun hash ref => hashStep hash (world.keyHashWithin fuel ref)) start =
      Literal.hashAll start elements
  | [], _, _, [], _, _, _ => rfl
  | first :: rest, fuel, start, ref :: refs, hashable, enough, represented => by
    rw [List.foldl_cons, keyHashWithin_literal first fuel hashable.1
      (Nat.lt_of_le_of_lt (Nat.le_max_left _ _) enough) represented.1, Literal.hashAll]
    exact keyHashWithin_elements rest fuel _ hashable.2
      (Nat.lt_of_le_of_lt (Nat.le_max_right _ _) enough) represented.2

end

/-! ### The same key -/

/-- What a key holds. -/
inductive HoldsKey (allowed : Ref → Prop) (world : World) : Literal → Payload → Prop where
  | none : HoldsKey allowed world .none .none
  | bool (value : Bool) : HoldsKey allowed world (.bool value) (.bool value)
  | int (value : Int64) : HoldsKey allowed world (.int value) (.int value)
  | str (value : String) : HoldsKey allowed world (.str value) (.str value)
  | tuple {elements : List Literal} {cells : Array Ref} (hashable : Literal.HashableAll elements)
      (parts : world.RepresentsAll allowed elements cells.toList) :
      HoldsKey allowed world (.tuple elements) (.tuple cells)

theorem holdsKey {literal : Literal} {ref : Ref} (hashable : literal.Hashable)
    (represented : world.RepresentsIn allowed literal ref) :
    world.HoldsKey allowed literal (world.payload ref) := by
  cases literal with
  | none =>
    rw [represented.2.2.payload]
    exact .none
  | bool value =>
    rw [represented.2.2.payload]
    exact .bool value
  | int value =>
    rw [represented.2.payload]
    exact .int value
  | str value =>
    rw [represented.2.payload]
    exact .str value
  | tuple elements =>
    obtain ⟨-, cells, plain, parts⟩ := represented
    rw [plain.payload]
    exact .tuple hashable parts
  | list => exact hashable.elim
  | dict => exact hashable.elim
  | set => exact hashable.elim

theorem eq_of_pairwise {same : Ref → Ref → Bool}
    (sound : ∀ {left right : Literal} {first second : Ref}, left.Hashable → right.Hashable →
      world.RepresentsIn allowed left first → world.RepresentsIn allowed right second →
      same first second = true → left = right) :
    ∀ {lefts rights : List Literal} {firsts seconds : List Ref},
      Literal.HashableAll lefts → Literal.HashableAll rights →
      world.RepresentsAll allowed lefts firsts → world.RepresentsAll allowed rights seconds →
      firsts.length = seconds.length →
      ((firsts.zip seconds).all fun (first, second) => same first second) = true → lefts = rights
  | [], [], [], [], _, _, _, _, _, _ => rfl
  | [], _ :: _, [], _ :: _, _, _, _, _, lengths, _ => absurd lengths (by simp)
  | _ :: _, [], _ :: _, [], _, _, _, _, lengths, _ => absurd lengths (by simp)
  | left :: lefts, right :: rights, first :: firsts, second :: seconds, hashableLeft,
      hashableRight, representedLeft, representedRight, lengths, equal => by
    rw [List.zip_cons_cons, List.all_cons, Bool.and_eq_true] at equal
    rw [sound hashableLeft.1 hashableRight.1 representedLeft.1 representedRight.1 equal.1,
      eq_of_pairwise sound hashableLeft.2 hashableRight.2 representedLeft.2 representedRight.2
        (Nat.succ.inj lengths) equal.2]

/-- Objects that are the same key stand for the same value. -/
theorem eq_of_keyEqualWithin (fuel : Nat) : ∀ {left right : Literal} {first second : Ref},
    left.Hashable → right.Hashable → world.RepresentsIn allowed left first →
    world.RepresentsIn allowed right second → world.keyEqualWithin fuel first second = true →
    left = right := by
  induction fuel with
  | zero =>
    intro left right first second _ _ _ _ equal
    cases equal
  | succ fuel inductionHypothesis =>
    intro left right first second hashableLeft hashableRight representedLeft representedRight equal
    have holdsLeft := holdsKey hashableLeft representedLeft
    have holdsRight := holdsKey hashableRight representedRight
    rw [keyEqualWithin] at equal
    generalize world.payload first = held at equal holdsLeft
    generalize world.payload second = other at equal holdsRight
    cases holdsLeft with
    | none => cases holdsRight with
      | none => rfl
      | _ => cases equal
    | bool value => cases holdsRight with
      | bool value => rw [eq_of_beq equal]
      | _ => cases equal
    | int value => cases holdsRight with
      | int value => rw [eq_of_beq equal]
      | _ => cases equal
    | str value => cases holdsRight with
      | str value => rw [eq_of_beq equal]
      | _ => cases equal
    | tuple hashable parts => cases holdsRight with
      | tuple hashableOther partsOther =>
        dsimp only at equal
        rw [pairwise, Bool.and_eq_true, ← Array.all_toList, Array.toList_zip] at equal
        rw [eq_of_pairwise inductionHypothesis hashable hashableOther parts partsOther
          (eq_of_beq equal.1) equal.2]
      | _ => cases equal

/-! ### Tables -/

/-- A value whose hash and equality no entry has is not in a table. -/
theorem tableGet?_of_new {α : Type} {table : Table α} {literal : Literal} {ref : Ref}
    (hashable : literal.Hashable) (represented : world.RepresentsIn allowed literal ref)
    (others : ∀ entry ∈ table.entries.toList, ∃ key : Literal, key.Hashable ∧ key ≠ literal ∧
      world.RepresentsIn allowed key entry.key) :
    table.find? world.keyEqual (world.keyHash ref) ref = none := by
  rw [Table.find?_eq, List.find?_eq_none]
  intro entry member holds
  obtain ⟨key, keyHashable, different, keyRepresented⟩ := others entry member
  rw [Table.Entry.holds, Bool.and_eq_true] at holds
  exact different (eq_of_keyEqualWithin _ keyHashable hashable keyRepresented represented holds.2)

end World

end Offside
