/-
This file says which floating-point number is nearest to an integer. A significand has 53
bits. An integer that needs no more of them is hit exactly; of any other one as many
lowest bits are given up as it has too many, and the rest is rounded up or stays. Either
way the result is whole, and it does not pass a power of two that the integer does not
pass.

Cutting off the fraction undoes this, and so for an integer that is hit exactly it gives
back that integer.
-/

import Offside.Proofs.Hashing.Doubles

namespace Offside.Number

open Float.Model (Format UnpackedFloat)
open Float.Model.UnpackedFloat (Sign ExtendedMantissa Accuracy roundWithAccuracy
  shiftToTargetExponent shiftToExponent decreaseExponent roundToInt)

/-- A number has 53 significant bits at most. -/
def Short (n : Nat) : Prop :=
  ∃ m k, m < 2 ^ 53 ∧ n = m * 2 ^ k

/-- A significand and an exponent make up a whole number. -/
def IsWhole (m : Nat) (e : Int) (n : Nat) : Prop :=
  m * 2 ^ e.toNat = n * 2 ^ (-e).toNat

/-! ### Shifting -/

theorem repeat_shiftRightOne (em : ExtendedMantissa) (count : Nat) :
    (Nat.repeat ExtendedMantissa.shiftRightOne count em).mantissa = em.mantissa / 2 ^ count := by
  induction count with
  | zero => simp [Nat.repeat]
  | succ count inductionHypothesis =>
    rw [Nat.repeat, ExtendedMantissa.shiftRightOne, inductionHypothesis, Nat.div_div_eq_div_mul,
      Nat.pow_succ]

/-- Bits that are all zero leave nothing behind. -/
theorem repeat_shiftRightOne_of_dvd (n count : Nat) :
    Nat.repeat ExtendedMantissa.shiftRightOne count ⟨n * 2 ^ count, false, false⟩ =
      ⟨n, false, false⟩ := by
  induction count generalizing n with
  | zero => simp [Nat.repeat]
  | succ count inductionHypothesis =>
    have split : n * 2 ^ (count + 1) = n * 2 * 2 ^ count := by
      rw [Nat.pow_succ, Nat.mul_comm (2 ^ count), Nat.mul_assoc]
    rw [Nat.repeat, split, inductionHypothesis]
    simp [ExtendedMantissa.shiftRightOne]

theorem roundedMantissa_bounds (em : ExtendedMantissa) :
    em.mantissa ≤ em.roundedMantissa ∧ em.roundedMantissa ≤ em.mantissa + 1 := by
  obtain ⟨m, round, sticky⟩ := em
  cases round <;> cases sticky <;>
    simp [ExtendedMantissa.roundedMantissa, ExtendedMantissa.accuracy, Accuracy.roundToNearestEven]
  omega

theorem targetExponent_eq {n : Nat} {e : Int} (lower : -1022 ≤ n.log2 + e) :
    Format.binary64.targetExponent (Float.Model.totalExponent n e) = n.log2 + e - 52 := by
  have least : Format.binary64.minExponent = -1074 := rfl
  have width : Format.binary64.mantissaBits = 53 := rfl
  rw [Format.targetExponent, Float.Model.totalExponent, least, width]
  omega

/-- A significand of full length stays as it is. -/
theorem shiftToTargetExponent_self {m : Nat} {e : Int} (least : 2 ^ 52 ≤ m) (greatest : m < 2 ^ 53)
    (lower : -1074 ≤ e) :
    shiftToTargetExponent .binary64 m e .exact = (⟨m, false, false⟩, e) := by
  have log := log2_eq least greatest
  rw [shiftToTargetExponent, targetExponent_eq (by omega), log, shiftToExponent]
  have none : ((52 : Nat) + e - 52 - e).toNat = 0 := by omega
  rw [none]
  exact Prod.ext rfl (Int.add_zero e)

theorem roundWithAccuracy_self (sign : Sign) {m : Nat} {e : Int} (least : 2 ^ 52 ≤ m)
    (greatest : m < 2 ^ 53) (lower : -1074 ≤ e) :
    roundWithAccuracy .binary64 sign m e .exact = .finite sign m e (by omega) := by
  have kept : (⟨m, false, false⟩ : ExtendedMantissa).roundedMantissa = m := rfl
  rw [roundWithAccuracy, shiftToTargetExponent_self least greatest lower]
  dsimp only
  rw [kept, shiftToTargetExponent_self least greatest lower]
  exact dif_neg (show ¬ m = 0 by omega)

theorem ofNat_eq_round {n : Nat} (positive : 0 < n) :
    UnpackedFloat.ofNat .binary64 n = UnpackedFloat.round .binary64 .positive n 0 := by
  have isPositive : compare (n : Int) 0 = .gt := Int.compare_eq_gt.mpr (by omega)
  rw [UnpackedFloat.ofNat, UnpackedFloat.ofInt, UnpackedFloat.normalize, isPositive]
  rfl

/-- An integer of 53 bits at most is made longer and hit exactly. -/
theorem ofNat_of_lt {n : Nat} (positive : 0 < n) (small : n < 2 ^ 53) :
    ∃ (m : Nat) (e : Int) (nonzero : 0 < m),
      UnpackedFloat.ofNat .binary64 n = .finite .positive m e nonzero ∧ 2 ^ 52 ≤ m ∧ m < 2 ^ 53 ∧
        -52 ≤ e ∧ e ≤ 0 ∧ IsWhole m e n := by
  have short : n.log2 < 53 := (Nat.log2_lt (Nat.ne_of_gt positive)).mpr small
  obtain ⟨lower, upper⟩ := (Nat.log2_eq_iff (Nat.ne_of_gt positive)).mp rfl
  have least : 2 ^ 52 ≤ n * 2 ^ (52 - n.log2) := by
    calc 2 ^ 52 = 2 ^ n.log2 * 2 ^ (52 - n.log2) := by rw [← Nat.pow_add]; congr 1; omega
      _ ≤ n * 2 ^ (52 - n.log2) := Nat.mul_le_mul_right _ lower
  have greatest : n * 2 ^ (52 - n.log2) < 2 ^ 53 := by
    calc n * 2 ^ (52 - n.log2) < 2 ^ (n.log2 + 1) * 2 ^ (52 - n.log2) :=
          Nat.mul_lt_mul_of_pos_right upper (Nat.two_pow_pos _)
      _ = 2 ^ 53 := by rw [← Nat.pow_add]; congr 1; omega
  have sized : (0 - ((n.log2 : Int) + 0 - 52)).toNat = 52 - n.log2 := by omega
  refine ⟨n * 2 ^ (52 - n.log2), n.log2 - 52, by omega, ?_, least, greatest, by omega, by omega,
    ?_⟩
  · rw [ofNat_eq_round positive, UnpackedFloat.round, targetExponent_eq (by omega), decreaseExponent]
    dsimp only
    rw [sized, Nat.shiftLeft_eq, roundWithAccuracy_self _ least greatest (by omega)]
    simp
    omega
  · rw [IsWhole, show ((n.log2 : Int) - 52).toNat = 0 by omega,
      show (-((n.log2 : Int) - 52)).toNat = 52 - n.log2 by omega, Nat.pow_zero, Nat.mul_one]

/-- What rounding makes of a significand that may have become one bit too long. -/
theorem exists_shortened {m k : Nat} (least : 2 ^ 52 ≤ m) (greatest : m ≤ 2 ^ 53) :
    ∃ n j : Nat, 0 < n ∧ 2 ^ 52 ≤ n ∧ n < 2 ^ 53 ∧ n * 2 ^ j = m * 2 ^ k ∧
      ∃ em : ExtendedMantissa, em.mantissa = n ∧
        shiftToTargetExponent .binary64 m k .exact = (em, (j : Int)) := by
  obtain short | full := Nat.lt_or_eq_of_le greatest
  · exact ⟨m, k, by omega, least, short, rfl, _, rfl,
      shiftToTargetExponent_self least short (by omega)⟩
  · have log : m.log2 = 53 := by rw [full]; exact Nat.log2_two_pow
    have one : ((53 : Nat) + (k : Int) - 52 - k).toNat = 1 := by omega
    refine ⟨2 ^ 52, k + 1, by decide, Nat.le_refl _, by decide, ?_,
      ExtendedMantissa.shiftRightOne ⟨m, false, false⟩, ?_, ?_⟩
    · rw [full, Nat.pow_succ]
      omega
    · change m / 2 = 2 ^ 52
      omega
    · rw [shiftToTargetExponent, targetExponent_eq (by omega), log, shiftToExponent, one]
      rfl

/-- A longer integer loses its lowest bits, and what is left of it stays or grows by one. -/
theorem exists_ofNat_of_le {n : Nat} (large : 2 ^ 53 ≤ n) :
    ∃ (m k left : Nat) (nonzero : 0 < m),
      UnpackedFloat.ofNat .binary64 n = .finite .positive m k nonzero ∧ 2 ^ 52 ≤ m ∧ m < 2 ^ 53 ∧
        m * 2 ^ k = left * 2 ^ (n.log2 - 52) ∧ left ≤ n / 2 ^ (n.log2 - 52) + 1 ∧
        (2 ^ (n.log2 - 52) ∣ n → left = n / 2 ^ (n.log2 - 52)) := by
  obtain ⟨lower, upper⟩ := (Nat.log2_eq_iff (n := n) (by omega)).mp rfl
  have long : 53 ≤ n.log2 := (Nat.le_log2 (by omega)).mpr large
  generalize known : n.log2 - 52 = k
  have log : n.log2 = 52 + k := by omega
  rw [log] at lower upper
  let em := Nat.repeat ExtendedMantissa.shiftRightOne k ⟨n, false, false⟩
  have quotient : em.mantissa = n / 2 ^ k := repeat_shiftRightOne _ k
  have least : 2 ^ 52 ≤ n / 2 ^ k := by
    rw [Nat.le_div_iff_mul_le (Nat.two_pow_pos k), ← Nat.pow_add]
    exact lower
  have greatest : n / 2 ^ k < 2 ^ 53 := by
    rw [Nat.div_lt_iff_lt_mul (Nat.two_pow_pos k), ← Nat.pow_add]
    rwa [show 53 + k = 52 + k + 1 by omega]
  have bounds := roundedMantissa_bounds em
  rw [quotient] at bounds
  obtain ⟨m, j, nonzero, leastM, greatestM, value, final, mantissa, shifted⟩ :=
    exists_shortened (k := k) (Nat.le_trans least bounds.1) (by omega)
  refine ⟨m, j, em.roundedMantissa, nonzero, ?_, leastM, greatestM, value, bounds.2, ?_⟩
  · have none : (0 - ((n.log2 : Int) + 0 - 52)).toNat = 0 := by omega
    have first : shiftToTargetExponent .binary64 n 0 .exact = (em, (k : Int)) := by
      rw [shiftToTargetExponent, targetExponent_eq (by omega), shiftToExponent,
        show ((n.log2 : Int) + 0 - 52 - 0).toNat = k by omega]
      exact Prod.ext rfl (Int.zero_add _)
    rw [ofNat_eq_round (by omega), UnpackedFloat.round, targetExponent_eq (by omega),
      decreaseExponent]
    dsimp only
    rw [none, Nat.shiftLeft_zero, Int.natCast_zero, Int.sub_zero, roundWithAccuracy, first]
    dsimp only
    rw [shifted]
    subst mantissa
    exact dif_neg (Nat.ne_of_gt nonzero)
  · rintro ⟨whole, rfl⟩
    have exact_ : em = ⟨whole, false, false⟩ := by
      rw [← repeat_shiftRightOne_of_dvd whole k, Nat.mul_comm]
    rw [exact_, Nat.mul_div_cancel_left _ (Nat.two_pow_pos k)]
    rfl

/-! ### The nearest number -/

/-- A floating-point number is this whole number with this sign, and its significand has full
length. -/
inductive Holds : Sign → Nat → UnpackedFloat → Prop where
  | finite (sign : Sign) {m : Nat} {e : Int} {n : Nat} (nonzero : 0 < m) (least : 2 ^ 52 ≤ m)
      (greatest : m < 2 ^ 53) (lower : -52 ≤ e) (upper : e ≤ 11) (whole : IsWhole m e n) :
      Holds sign n (.finite sign m e nonzero)

theorem IsWhole.scaled {m n : Nat} {e : Int} (whole : IsWhole m e n) (lower : -52 ≤ e) :
    m * 2 ^ (e + 52).toNat = n * 2 ^ 52 := by
  have up : (e + 52).toNat = e.toNat + (52 - (-e).toNat) := by omega
  have down : 52 = (-e).toNat + (52 - (-e).toNat) := by omega
  rw [up, Nat.pow_add, ← Nat.mul_assoc, whole, Nat.mul_assoc, ← Nat.pow_add, ← down]

/-- With a significand of full length there is one way only to make up a number. -/
theorem eq_of_scaled {m k : Nat} {a b : Nat} (same : m * 2 ^ a = k * 2 ^ b) (least : 2 ^ 52 ≤ m)
    (greatest : k < 2 ^ 53) : a ≤ b := by
  refine Nat.le_of_not_lt fun further => ?_
  obtain ⟨more, rfl⟩ := Nat.exists_eq_add_of_lt further
  have shifted : m * 2 ^ (more + 1) = k := by
    refine Nat.eq_of_mul_eq_mul_right (Nat.two_pow_pos b) (Eq.trans ?_ same)
    rw [Nat.mul_assoc, ← Nat.pow_add]
    congr 2
    omega
  have doubled : m * 2 ≤ m * 2 ^ (more + 1) :=
    Nat.mul_le_mul_left m (Nat.le_self_pow (Nat.succ_ne_zero more) 2)
  omega

theorem Holds.unique {sign : Sign} {n : Nat} {first second : UnpackedFloat}
    (holds : Holds sign n first) (other : Holds sign n second) : first = second := by
  obtain ⟨nonzero, least, greatest, lower, upper, whole⟩ := holds
  obtain ⟨otherNonzero, otherLeast, otherGreatest, otherLower, otherUpper, otherWhole⟩ := other
  have same := (whole.scaled lower).trans (otherWhole.scaled otherLower).symm
  have exponents := Nat.le_antisymm (eq_of_scaled same least otherGreatest)
    (eq_of_scaled same.symm otherLeast greatest)
  rw [exponents] at same
  have mantissas := Nat.eq_of_mul_eq_mul_right (Nat.two_pow_pos _) same
  rw [UnpackedFloat.finite.injEq]
  exact ⟨rfl, mantissas, by omega⟩

theorem Holds.short {sign : Sign} {n : Nat} {value : UnpackedFloat} (holds : Holds sign n value) :
    Short n := by
  obtain @⟨m, e, _, -, -, greatest, -, -, whole⟩ := holds
  obtain negative | natural := Int.lt_or_le e 0
  · refine ⟨n, 0, ?_, by simp⟩
    have all : m = n * 2 ^ (-e).toNat := by
      rw [← whole, show e.toNat = 0 by omega, Nat.pow_zero, Nat.mul_one]
    exact Nat.lt_of_le_of_lt (all ▸ Nat.le_mul_of_pos_right n (Nat.two_pow_pos _)) greatest
  · refine ⟨m, e.toNat, greatest, ?_⟩
    rw [whole, show (-e).toNat = 0 by omega, Nat.pow_zero, Nat.mul_one]

/-- A long number with few significant bits ends in zeros. -/
theorem Short.dvd {n k : Nat} (short : Short n) (long : 2 ^ (52 + k) ≤ n) : 2 ^ k ∣ n := by
  obtain ⟨m, j, small, rfl⟩ := short
  have enough : 2 ^ (52 + k) < 2 ^ (53 + j) := by
    rw [Nat.pow_add 2 53 j]
    exact Nat.lt_of_le_of_lt long (Nat.mul_lt_mul_of_pos_right small (Nat.two_pow_pos j))
  have fits : k ≤ j := by
    have := (Nat.pow_lt_pow_iff_right (by decide)).mp enough
    omega
  exact Nat.dvd_mul_left_of_dvd (Nat.pow_dvd_pow 2 fits) m

/-- An integer has a nearest number, which is the integer itself if that has no more than 53
significant bits. -/
theorem exists_holds_ofNat {n : Nat} (positive : 0 < n) (limited : n ≤ 2 ^ 63) :
    ∃ near, Holds .positive near (UnpackedFloat.ofNat .binary64 n) ∧ near ≤ 2 ^ 63 ∧
      (Short n → near = n) := by
  obtain small | large := Nat.lt_or_ge n (2 ^ 53)
  · obtain ⟨m, e, nonzero, made, least, greatest, lower, upper, whole⟩ :=
      ofNat_of_lt positive small
    rw [made]
    exact ⟨n, .finite _ nonzero least greatest lower (by omega) whole, limited, fun _ => rfl⟩
  · obtain ⟨m, k, left, nonzero, made, least, greatest, value, bound, exact_⟩ :=
      exists_ofNat_of_le large
    obtain ⟨lower, upper⟩ := (Nat.log2_eq_iff (n := n) (by omega)).mp rfl
    have long : 53 ≤ n.log2 := (Nat.le_log2 (by omega)).mpr large
    have short : n.log2 < 64 := (Nat.log2_lt (by omega)).mpr (by omega)
    generalize known : n.log2 - 52 = j at *
    rw [show n.log2 = 52 + j by omega] at lower upper
    have kept (whole : 2 ^ j ∣ n) : m * 2 ^ k = n := by
      rw [value, exact_ whole, Nat.div_mul_cancel whole]
    have fits : m * 2 ^ k ≤ 2 ^ 63 := by
      obtain ordinary | last : j ≤ 10 ∨ j = 11 := by omega
      · have quotient : n / 2 ^ j < 2 ^ 53 := by
          rw [Nat.div_lt_iff_lt_mul (Nat.two_pow_pos j), ← Nat.pow_add]
          rwa [show 53 + j = 52 + j + 1 by omega]
        calc m * 2 ^ k = left * 2 ^ j := value
          _ ≤ 2 ^ 53 * 2 ^ 10 :=
            Nat.mul_le_mul (by omega) (Nat.pow_le_pow_right (by decide) ordinary)
          _ = 2 ^ 63 := by rw [← Nat.pow_add]
      · subst last
        obtain rfl : n = 2 ^ 63 := Nat.le_antisymm limited lower
        exact Nat.le_of_eq (kept (Nat.pow_dvd_pow 2 (by decide)))
    have few : k ≤ 11 := by
      have enough : 2 ^ (52 + k) ≤ 2 ^ 63 := by
        rw [Nat.pow_add]
        exact Nat.le_trans (Nat.mul_le_mul_right _ least) fits
      have := (Nat.pow_le_pow_iff_right (by decide)).mp enough
      omega
    rw [made]
    refine ⟨m * 2 ^ k, .finite _ nonzero least greatest (by omega) (by omega) ?_, fits,
      fun short => kept (short.dvd lower)⟩
    rw [IsWhole, Int.toNat_natCast, show (-(k : Int)).toNat = 0 by omega, Nat.pow_zero, Nat.mul_one]

/-- A whole number is cut to itself. -/
theorem roundToInt_of_isWhole (sign : Sign) {m n : Nat} {e : Int} (whole : IsWhole m e n) :
    roundToInt sign m e = sign.apply n := by
  have up : (e - 0).toNat = e.toNat := by omega
  have down : (0 - (e - (e.toNat : Int))).toNat = (-e).toNat := by omega
  rw [roundToInt, decreaseExponent, up]
  dsimp only
  rw [shiftToExponent, down]
  change sign.apply (Nat.repeat ExtendedMantissa.shiftRightOne (-e).toNat
    ⟨m <<< e.toNat, false, false⟩).mantissa = _
  rw [repeat_shiftRightOne, Nat.shiftLeft_eq, whole, Nat.mul_div_cancel _ (Nat.two_pow_pos _)]

/-! ### Integers of the language -/

/-- The sign of an integer; zero has none. -/
def signOf (value : Int64) : Sign :=
  if value < 0 then .negative else .positive

theorem toInt_eq (value : Int64) : value.toInt =
    if value.toUInt64.toNat < 2 ^ 63 then (value.toUInt64.toNat : Int)
    else value.toUInt64.toNat - 2 ^ 64 := by
  have asBits : value.toInt = value.toBitVec.toInt := rfl
  rw [asBits, BitVec.toInt_eq_toNat_cond, Int64.toNat_toBitVec]
  split <;> split <;> omega

theorem toNat_neg {value : Int64} (negative : value < 0) :
    (-value).toUInt64.toNat = value.toInt.natAbs := by
  have below := Int64.lt_iff_toInt_lt.mp negative
  have opposite : (-value).toUInt64.toNat = (2 ^ 64 - value.toUInt64.toNat) % 2 ^ 64 :=
    BitVec.toNat_neg value.toBitVec
  have zero : (0 : Int64).toInt = 0 := rfl
  rw [toInt_eq value, zero] at below
  rw [opposite, toInt_eq]
  split at below <;> split <;> omega

theorem toNat_of_nonneg {value : Int64} (natural : ¬ value < 0) :
    value.toUInt64.toNat = value.toInt.natAbs := by
  rw [Int64.lt_iff_toInt_lt] at natural
  have zero : (0 : Int64).toInt = 0 := rfl
  have limited : value.toUInt64.toNat < 2 ^ 64 := value.toUInt64.toNat_lt
  rw [toInt_eq value, zero] at natural
  rw [toInt_eq]
  split at natural <;> split <;> omega

namespace Holds

variable {sign : Sign} {near : Nat} {value : Float} {unpacked : UnpackedFloat}

theorem unpack_pack (holds : Holds sign near unpacked) :
    UnpackedFloat.unpack .binary64 (UnpackedFloat.pack .binary64 unpacked) = unpacked := by
  obtain ⟨nonzero, least, greatest, lower, upper, -⟩ := holds
  exact Number.unpack_pack _ nonzero least greatest (by omega) (by omega)

theorem neg (holds : Holds sign near (parts value)) : Holds (-sign) near (parts (-value)) := by
  have opposite : Holds (-sign) near (parts value).neg := by
    generalize parts value = unpacked at holds
    obtain ⟨nonzero, least, greatest, lower, upper, whole⟩ := holds
    exact .finite _ nonzero least greatest lower upper whole
  change Holds (-sign) near
    (UnpackedFloat.unpack .binary64 (UnpackedFloat.pack .binary64 (parts value).neg))
  rwa [opposite.unpack_pack]

theorem abs (holds : Holds sign near (parts value)) : Holds .positive near (parts value.abs) := by
  have size : Holds .positive near (parts value).abs := by
    generalize parts value = unpacked at holds
    obtain ⟨nonzero, least, greatest, lower, upper, whole⟩ := holds
    exact .finite _ nonzero least greatest lower upper whole
  change Holds .positive near
    (UnpackedFloat.unpack .binary64 (UnpackedFloat.pack .binary64 (parts value).abs))
  rwa [size.unpack_pack]

/-- A number is itself. -/
theorem beq (holds : Holds sign near (parts value)) {other : Float}
    (otherHolds : Holds sign near (parts other)) : (value == other) = true := by
  rw [beq_iff, holds.unique otherHolds]
  generalize parts other = unpacked at otherHolds
  obtain ⟨nonzero, -⟩ := otherHolds
  cases sign <;> simp [UnpackedFloat.compare]

theorem toUInt64 (holds : Holds .positive near (parts value)) (limited : near ≤ 2 ^ 63) :
    value.toUInt64.toNat = near := by
  change (parts value).toUInt64.toNat = near
  generalize parts value = unpacked at holds
  obtain ⟨nonzero, -, -, -, -, whole⟩ := holds
  rw [UnpackedFloat.toUInt64, UnpackedFloat.toInt, roundToInt_of_isWhole _ whole]
  change (UInt64.ofNatClamp near).toNat = near
  rw [UInt64.ofNatClamp, dif_pos (Nat.lt_of_le_of_lt limited (by decide))]
  rfl

/-- Only the limit itself is not below it. -/
theorem lt_limit_iff (holds : Holds .positive near (parts value)) (limited : near ≤ 2 ^ 63) :
    value < 9223372036854775808.0 ↔ near < 2 ^ 63 := by
  have limit : parts 9223372036854775808.0 = .finite .positive (2 ^ 52) 11 (by decide) := rfl
  rw [lt_iff, limit]
  generalize parts value = unpacked at holds
  obtain @⟨m, e, _, nonzero, least, greatest, lower, upper, whole⟩ := holds
  obtain rfl | smaller : e = 11 ∨ e < 11 := by omega
  · have all : m * 2 ^ 11 = near := whole.trans (Nat.mul_one near)
    obtain rfl : m = 2 ^ 52 := by omega
    subst all
    exact ⟨nofun, fun below => absurd below (by decide)⟩
  · have exponents : compare e 11 = .lt := Int.compare_eq_lt.mpr smaller
    have below : near * 2 ^ 52 < 2 ^ 63 * 2 ^ 52 := by
      calc near * 2 ^ 52 = m * 2 ^ (e + 52).toNat := (whole.scaled lower).symm
        _ < 2 ^ 53 * 2 ^ (e + 52).toNat :=
          Nat.mul_lt_mul_of_pos_right greatest (Nat.two_pow_pos _)
        _ ≤ 2 ^ 53 * 2 ^ 62 :=
          Nat.mul_le_mul_left _ (Nat.pow_le_pow_right (by decide) (by omega))
        _ = 2 ^ 63 * 2 ^ 52 := (Nat.pow_add 2 53 62).symm.trans (Nat.pow_add 2 63 52)
    refine iff_of_true ?_ (Nat.lt_of_mul_lt_mul_right below)
    rw [UnpackedFloat.compare, exponents]
    rfl

/-- The sign of a number shows in comparing it with zero. -/
theorem lt_zero_iff (holds : Holds sign near (parts value)) :
    value < 0.0 ↔ sign = .negative := by
  have zero : parts 0.0 = .zero .positive := rfl
  rw [lt_iff, zero]
  generalize parts value = unpacked at holds
  obtain ⟨nonzero, -⟩ := holds
  cases sign <;> simp [UnpackedFloat.compare]

/-- Cutting off the fraction of a whole number that is not too large gives that number. -/
theorem toInt_intOfFloat (holds : Holds sign near (parts value)) (inside : near < 2 ^ 63) :
    (intOfFloat value).toInt = sign.apply near := by
  have limited := Nat.le_of_lt inside
  rw [intOfFloat]
  cases sign with
  | negative =>
    have word : (-value).toUInt64.toNat = near := holds.neg.toUInt64 limited
    rw [if_pos (holds.lt_zero_iff.mpr rfl), Int64.toInt_neg, toInt_eq, UInt64.toUInt64_toInt64,
      word, if_pos inside]
    exact Int.bmod_eq_of_le (by omega) (by omega)
  | positive =>
    have word := holds.toUInt64 limited
    rw [if_neg (by rw [holds.lt_zero_iff]; nofun), toInt_eq, UInt64.toUInt64_toInt64, word,
      if_pos inside]
    rfl

end Holds

/-- The number nearest to an integer other than zero has the sign of the integer. It is the integer
itself if that has no more than 53 significant bits. -/
theorem exists_holds_floatOfInt {value : Int64} (nonzero : value ≠ 0) :
    ∃ near, Holds (signOf value) near (parts (floatOfInt value)) ∧ near ≤ 2 ^ 63 ∧
      (Short value.toInt.natAbs → near = value.toInt.natAbs) := by
  have positive : 0 < value.toInt.natAbs :=
    Int.natAbs_pos.mpr fun zero => nonzero (Int64.toInt_inj.mp zero)
  have limited : value.toInt.natAbs ≤ 2 ^ 63 := by
    have lower := value.le_toInt
    have upper := value.toInt_lt
    omega
  obtain ⟨near, holds, fits, exact_⟩ := exists_holds_ofNat positive limited
  refine ⟨near, ?_, fits, exact_⟩
  have converted {word : UInt64} (same : word.toNat = value.toInt.natAbs) :
      Holds .positive near (parts word.toFloat) := by
    change Holds .positive near (UnpackedFloat.unpack .binary64
      (UnpackedFloat.pack .binary64 (UnpackedFloat.ofNat .binary64 word.toNat)))
    rw [same]
    rwa [holds.unpack_pack]
  rw [signOf, floatOfInt]
  by_cases negative : value < 0
  · rw [if_pos negative, if_pos negative]
    exact (converted (toNat_neg negative)).neg
  · rw [if_neg negative, if_neg negative]
    exact converted (toNat_of_nonneg negative)

end Offside.Number
