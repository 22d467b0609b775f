/-
This file relates floating-point numbers to their bits. A number falls into a sign, a
significand and an exponent, and can be put together from them again, unless it is not a
number. So numbers that compare as equal have the same bits, with one exception: zero is
equal to the zero of the other sign.
-/

import Mathlib
import Offside.Number.Double

namespace Offside.Number

open Float.Model (Format UnpackedFloat)
open Float.Model.UnpackedFloat (Sign packComponents unpackSign unpackExponent unpackMantissa)

/-! ### Bits and their parts -/

theorem toBitVec_ofBitVec (bit : BitVec 1) : (Sign.ofBitVec bit).toBitVec = bit := by
  revert bit
  decide

/-- Bits are put together from their parts. -/
theorem packComponents_unpack {bits : BitVec Format.binary64.numBits}
    {exponent : BitVec Format.binary64.exponentBits}
    {mantissa : BitVec Format.binary64.mantissaBitsWithoutImplicit}
    (isExponent : unpackExponent bits = exponent) (isMantissa : unpackMantissa bits = mantissa) :
    packComponents .binary64 (Sign.ofBitVec (unpackSign bits)) exponent mantissa = bits := by
  subst isExponent isMantissa
  rw [packComponents, toBitVec_ofBitVec, unpackSign, unpackExponent, unpackMantissa]
  simp only [BitVec.extractLsb]
  ext place inside
  grind

theorem unpackSign_packComponents (sign : Sign) (exponent : BitVec 11) (mantissa : BitVec 52) :
    Sign.ofBitVec (unpackSign (packComponents .binary64 sign exponent mantissa)) = sign := by
  rw [unpackSign, packComponents, BitVec.extractLsb,
    BitVec.extractLsb'_append_eq_of_le (by decide), BitVec.extractLsb'_append_eq_of_le (by decide)]
  cases sign <;> rfl

/-- The significand of a number that is not too small starts with a bit that is not written. -/
theorem one_append_toNat (mantissa : BitVec 52) :
    (1#1 ++ mantissa).toNat = 2 ^ 52 + mantissa.toNat := by
  rw [BitVec.toNat_append, ← Nat.shiftLeft_add_eq_or_of_lt mantissa.isLt, Nat.shiftLeft_eq]
  simp

theorem log2_eq {m : Nat} (least : 2 ^ 52 ≤ m) (greatest : m < 2 ^ 53) : m.log2 = 52 :=
  (Nat.log2_eq_iff (by omega)).mpr ⟨least, greatest⟩

/-- A number is put together from its parts. -/
theorem pack_unpack {bits : BitVec Format.binary64.numBits}
    (isNumber : UnpackedFloat.unpack .binary64 bits ≠ .notANumber) :
    UnpackedFloat.pack .binary64 (UnpackedFloat.unpack .binary64 bits) = bits := by
  have bias : Format.binary64.exponentBias = 1023 := rfl
  have width : Format.binary64.mantissaBits = 53 := rfl
  have small : (unpackMantissa bits).toNat < 2 ^ 52 := (unpackMantissa bits).isLt
  have limited : (unpackExponent bits).toNat < 2 ^ 11 := (unpackExponent bits).isLt
  rw [UnpackedFloat.unpack] at isNumber ⊢
  by_cases greatest : unpackExponent bits = -1#_
  · rw [if_pos greatest] at isNumber ⊢
    by_cases none : unpackMantissa bits = 0#_
    · rw [if_pos none]
      exact packComponents_unpack greatest none
    · rw [if_neg none] at isNumber
      exact absurd rfl isNumber
  rw [if_neg greatest]
  by_cases least : unpackExponent bits = 0#_
  · rw [if_pos least]
    by_cases none : unpackMantissa bits = 0#_
    · rw [dif_pos none]
      exact packComponents_unpack least none
    · have isZero : (unpackExponent bits).toNat = 0 := by rw [least]; rfl
      have positive : (unpackMantissa bits).toNat ≠ 0 := fun zero =>
        none (BitVec.toNat_inj.mp (by simpa using zero))
      have biased : ((unpackExponent bits).toNat - ((Format.binary64.exponentBias : Int) +
          Format.binary64.mantissaBitsWithoutImplicit) + 1 + Format.binary64.exponentBias +
          Format.binary64.mantissaBitsWithoutImplicit).toNat = 1 := by
        rw [isZero, bias]
        rfl
      have short : (unpackMantissa bits).toNat.log2 < 52 := (Nat.log2_lt positive).mpr small
      rw [dif_neg none, UnpackedFloat.pack]
      dsimp only
      rw [biased, if_neg (by decide), if_neg (by omega)]
      exact packComponents_unpack least (by rw [BitVec.ofNat_toNat, BitVec.setWidth_eq])
  · have notZero : (unpackExponent bits).toNat ≠ 0 := fun zero =>
      least (BitVec.toNat_inj.mp (by simpa using zero))
    have notGreatest : (unpackExponent bits).toNat ≠ 2 ^ 11 - 1 := fun same =>
      greatest (BitVec.toNat_inj.mp (by simpa using same))
    have biased : ((unpackExponent bits).toNat - ((Format.binary64.exponentBias : Int) +
        Format.binary64.mantissaBitsWithoutImplicit) + Format.binary64.exponentBias +
        Format.binary64.mantissaBitsWithoutImplicit).toNat = (unpackExponent bits).toNat := by
      omega
    have log : (1#1 ++ unpackMantissa bits).toNat.log2 = 52 := by
      rw [one_append_toNat]
      exact log2_eq (by omega) (by omega)
    rw [if_neg least, UnpackedFloat.pack]
    dsimp only
    rw [biased, log, if_neg (by simp only [Format.binary64]; omega), if_pos width.symm]
    refine packComponents_unpack (by rw [BitVec.ofNat_toNat, BitVec.setWidth_eq]) ?_
    rw [one_append_toNat]
    refine BitVec.toNat_inj.mp ?_
    rw [BitVec.toNat_ofNat]
    change _ = (2 ^ 52 + (unpackMantissa bits).toNat) % 2 ^ 52
    omega

/-- A finite number with a significand of full length falls into its parts again. -/
theorem unpack_pack (sign : Sign) {m : Nat} {e : Int} (positive : 0 < m) (least : 2 ^ 52 ≤ m)
    (greatest : m < 2 ^ 53) (lower : -1074 ≤ e) (upper : e ≤ 971) :
    UnpackedFloat.unpack .binary64 (UnpackedFloat.pack .binary64 (.finite sign m e positive)) =
      .finite sign m e positive := by
  have width : Format.binary64.mantissaBits = 53 := rfl
  have biased : (e + Format.binary64.exponentBias +
      Format.binary64.mantissaBitsWithoutImplicit).toNat = (e + 1075).toNat := by
    change (e + (1023 : Nat) + (52 : Nat)).toNat = _
    omega
  have exponent : (BitVec.ofNat 11 (e + 1075).toNat).toNat = (e + 1075).toNat := by
    rw [BitVec.toNat_ofNat, Nat.mod_eq_of_lt (by omega)]
  have notGreatest : BitVec.ofNat 11 (e + 1075).toNat ≠ -1#11 := by
    intro same
    rw [same] at exponent
    simp at exponent
    omega
  have notZero : BitVec.ofNat 11 (e + 1075).toNat ≠ 0#11 := by
    intro same
    rw [same] at exponent
    simp at exponent
    omega
  have mantissa : (1#1 ++ BitVec.ofNat 52 m).toNat = m := by
    rw [one_append_toNat, BitVec.toNat_ofNat]
    omega
  rw [UnpackedFloat.pack]
  dsimp only
  rw [biased, log2_eq least greatest, if_neg (by omega),
    if_pos width.symm, UnpackedFloat.unpack]
  simp only [Float.Model.UnpackedFloat.unpackMantissa_packComponents,
    Float.Model.UnpackedFloat.unpackExponent_packComponents, unpackSign_packComponents]
  rw [if_neg notGreatest, if_neg notZero]
  simp only [mantissa, exponent, UnpackedFloat.finite.injEq, true_and]
  change ((e + 1075).toNat : Int) - ((1023 : Nat) + (52 : Nat)) = e
  omega

/-! ### Equality -/

/-- The parts of a floating-point number. -/
def parts (value : Float) : UnpackedFloat :=
  value.toModel.unpack

/-- Zero of either sign. -/
inductive IsZero : UnpackedFloat → Prop where
  | zero (sign : Sign) : IsZero (.zero sign)

theorem compare_eq_eq {first second : UnpackedFloat}
    (same : first.compare second = some .eq) :
    first ≠ .notANumber ∧ (first = second ∨ IsZero first ∧ IsZero second) := by
  cases first with
  | notANumber => cases same
  | infinity sign =>
    refine ⟨nofun, .inl ?_⟩
    cases second with
    | infinity other => cases sign <;> cases other <;> first | rfl | cases same
    | _ => cases sign <;> cases same
  | zero sign =>
    refine ⟨nofun, .inr ⟨.zero sign, ?_⟩⟩
    cases second with
    | zero other => exact .zero other
    | infinity other => cases other <;> cases same
    | finite other => cases other <;> cases same
    | notANumber => cases same
  | finite sign m e positive =>
    refine ⟨nofun, .inl ?_⟩
    cases second with
    | finite other n k =>
      have alike : e = k ∧ m = n := by
        cases sign <;> cases other <;> simp [UnpackedFloat.compare] at same <;> exact same
      obtain ⟨rfl, rfl⟩ := alike
      cases sign <;> cases other <;> first | rfl | cases same
    | infinity other => cases sign <;> cases other <;> cases same
    | zero other => cases sign <;> cases same
    | notANumber => cases sign <;> cases same

theorem beq_iff (first second : Float) :
    (first == second) = true ↔ (parts first).compare (parts second) = some .eq := by
  change ((parts first).compare (parts second) == some .eq) = true ↔ _
  exact beq_iff_eq

theorem lt_iff (first second : Float) :
    first < second ↔ (parts first).compare (parts second) = some .lt := by
  change decide (((parts first).compare (parts second) == some .lt) = true) = true ↔ _
  rw [decide_eq_true_iff, beq_iff_eq]

namespace Double

theorem parts_toFloat (number : Double) :
    parts number.toFloat = UnpackedFloat.unpack .binary64 number.bits.toBitVec := by
  change UnpackedFloat.unpack .binary64
    (UnpackedFloat.pack .binary64 (UnpackedFloat.unpack .binary64 number.bits.toBitVec)) = _
  by_cases isNumber : UnpackedFloat.unpack .binary64 number.bits.toBitVec = .notANumber
  · rw [isNumber]
    rfl
  · rw [pack_unpack isNumber]

/-- A number has the bits that its parts make up. -/
theorem pack_parts {number : Double} (isNumber : parts number.toFloat ≠ .notANumber) :
    UnpackedFloat.pack .binary64 (parts number.toFloat) = number.bits.toBitVec := by
  rw [parts_toFloat] at isNumber ⊢
  exact pack_unpack isNumber

theorem eq_of_bits {first second : Double} (same : first.bits.toBitVec = second.bits.toBitVec) :
    first = second := by
  cases first
  cases second
  exact congrArg Double.mk (UInt64.toBitVec_inj.mp same)

/-- Equal numbers have the same bits, or both are zero. -/
theorem bits_eq_of_beq {first second : Double}
    (same : (first.toFloat == second.toFloat) = true) :
    first = second ∨ IsZero (parts first.toFloat) ∧ IsZero (parts second.toFloat) := by
  rw [beq_iff] at same
  obtain ⟨isNumber, alike | zeros⟩ := compare_eq_eq same
  · left
    have otherNumber := alike ▸ isNumber
    exact eq_of_bits ((pack_parts isNumber).symm.trans (alike ▸ pack_parts otherNumber))
  · exact .inr zeros

end Double

end Offside.Number
