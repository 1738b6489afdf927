import Mathlib

namespace ParticleSystem.Rounding

open Float.Model (Format UnpackedFloat totalExponent)
open Float.Model.UnpackedFloat

/-- Whether it is a zero of either sign. -/
def isZero : UnpackedFloat → Bool
  | .zero _ => true
  | _ => false

section Packing

variable {format : Format}

theorem isNaN_unpack (bits : BitVec format.numBits) : (unpack format bits).isNaN = true ↔
    unpackExponent bits = -1#(format.exponentBits) ∧
      unpackMantissa bits ≠ 0#(format.mantissaBitsWithoutImplicit) := by
  unfold unpack
  by_cases top : unpackExponent bits = -1#(format.exponentBits)
  · by_cases blank : unpackMantissa bits = 0#(format.mantissaBitsWithoutImplicit)
    · simp [top, blank, isNaN]
    · simp [top, blank, isNaN]
  · simp only [top, if_false, false_and, iff_false]
    split
    · split <;> simp [isNaN]
    · simp [isNaN]

theorem isInf_unpack (bits : BitVec format.numBits) : (unpack format bits).isInf = true ↔
    unpackExponent bits = -1#(format.exponentBits) ∧
      unpackMantissa bits = 0#(format.mantissaBitsWithoutImplicit) := by
  unfold unpack
  by_cases top : unpackExponent bits = -1#(format.exponentBits)
  · by_cases blank : unpackMantissa bits = 0#(format.mantissaBitsWithoutImplicit)
    · simp [top, blank, isInf]
    · simp [top, blank, isInf]
  · simp only [top, if_false, false_and, iff_false]
    split
    · split <;> simp [isInf]
    · simp [isInf]

/-- An exponent that packs into its bits is not the one kept for infinities. -/
theorem exponent_ne_top {exponent : Nat} (fits : exponent + 1 < 2 ^ format.exponentBits) :
    BitVec.ofNat format.exponentBits exponent ≠ -1#(format.exponentBits) := by
  simp only [BitVec.neg_one_eq_allOnes, ne_eq, ← BitVec.toNat_inj, BitVec.toNat_ofNat,
    BitVec.toNat_allOnes]
  rw [Nat.mod_eq_of_lt (by omega)]
  omega

theorem zero_ne_top : 0#(format.exponentBits) ≠ -1#(format.exponentBits) :=
  exponent_ne_top (Nat.one_lt_two_pow format.he.ne')

theorem isZero_unpack (bits : BitVec format.numBits) : isZero (unpack format bits) = true ↔
    unpackExponent bits = 0#(format.exponentBits) ∧
      unpackMantissa bits = 0#(format.mantissaBitsWithoutImplicit) := by
  unfold unpack
  by_cases bottom : unpackExponent bits = 0#(format.exponentBits)
  · by_cases blank : unpackMantissa bits = 0#(format.mantissaBitsWithoutImplicit)
    · simp [bottom, blank, isZero, format.he.ne']
    · simp [bottom, blank, isZero, format.he.ne']
  · simp only [bottom, false_and, iff_false]
    split
    · split <;> simp [isZero]
    · simp [isZero]

@[simp] theorem isNaN_unpack_pack (x : UnpackedFloat) :
    (unpack format (pack format x)).isNaN = x.isNaN := by
  have mantissa := format.hm
  rw [Bool.eq_iff_iff, isNaN_unpack]
  fun_cases pack with
  | case1 =>
    have marked : 1#(format.mantissaBitsWithoutImplicit) <<<
        (format.mantissaBitsWithoutImplicit - 1) ≠ 0#_ := by
      intro blank
      have top := congrArg (BitVec.getLsbD · (format.mantissaBitsWithoutImplicit - 1)) blank
      simp at top
      omega
    simp [packedNaN, marked, isNaN]
  | case2 sign => simp [packedInfinity, isNaN]
  | case3 sign => simp [packedZero, isNaN]
  | case4 sign m e hm biased full => simp [packedInfinity, isNaN]
  | case5 sign m e hm bits biased fits normal =>
    simp [exponent_ne_top (Nat.lt_of_not_le fits), isNaN]
  | case6 sign m e hm bits biased fits subnormal => simp [format.he.ne', isNaN]

private theorem isZero_unpack_pack_infinity (sign : Sign) :
    isZero (unpack format (pack format (.infinity sign))) = false := by
  rw [Bool.eq_false_iff, ne_eq, isZero_unpack, pack, packedInfinity, unpackExponent_packComponents]
  exact fun both => zero_ne_top both.1.symm

private theorem isZero_unpack_pack_finite {sign : Sign} {m : Nat} {e : Int} (hm : 0 < m)
    (short : m < 2 ^ format.mantissaBits) (high : format.minExponent ≤ e) :
    isZero (unpack format (pack format (.finite sign m e hm))) = false := by
  rw [Bool.eq_false_iff, ne_eq, isZero_unpack]
  rintro ⟨exponent, mantissa⟩
  unfold pack at exponent mantissa
  simp only at exponent mantissa
  split at exponent
  · rw [packedInfinity, unpackExponent_packComponents] at exponent
    exact zero_ne_top exponent.symm
  · rename_i fits
    split at exponent
    · rw [unpackExponent_packComponents, ← BitVec.toNat_inj, BitVec.toNat_ofNat] at exponent
      have bias : 1 ≤ 2 ^ (format.exponentBits - 1) := Nat.one_le_two_pow
      rw [Nat.mod_eq_of_lt (by omega)] at exponent
      simp [Format.minExponent, Format.exponentBias, Format.mantissaBits] at high exponent
      omega
    · rename_i subnormal
      rw [if_neg fits, if_neg subnormal, unpackMantissa_packComponents, ← BitVec.toNat_inj,
        BitVec.toNat_ofNat] at mantissa
      have top := Nat.log2_lt hm.ne' |>.mpr short
      have width : format.mantissaBits = 1 + format.mantissaBitsWithoutImplicit := rfl
      have below : m < 2 ^ format.mantissaBitsWithoutImplicit := Nat.log2_lt hm.ne' |>.mp (by omega)
      rw [Nat.mod_eq_of_lt below] at mantissa
      simp at mantissa
      omega

private theorem minExponent_le_of_unpack {bits : BitVec format.numBits} {sign : Sign} {m : Nat}
    {e : Int} {hm : 0 < m} (found : unpack format bits = .finite sign m e hm) :
    format.minExponent ≤ e := by
  have bias : 1 ≤ 2 ^ (format.exponentBits - 1) := Nat.one_le_two_pow
  have width : format.exponentBias + format.mantissaBitsWithoutImplicit + format.minExponent =
      1 := by
    simp [Format.minExponent, Format.exponentBias, Format.mantissaBits]
    omega
  unfold unpack at found
  simp only at found
  split at found
  · split at found <;> cases found
  · split at found
    · split at found
      · cases found
      · cases found
        omega
    · rename_i bottom
      cases found
      have positive : 0 < (unpackExponent bits).toNat := by
        rw [Nat.pos_iff_ne_zero]
        exact fun zero => bottom (BitVec.toNat_inj.mp zero)
      omega

end Packing

section Round

theorem mantissa_shiftRight (m : ExtendedMantissa) (count : Nat) :
    (m >>> count).mantissa = m.mantissa / 2 ^ count := by
  change (count.repeat ExtendedMantissa.shiftRightOne m).mantissa = _
  induction count with
  | zero => simp [Nat.repeat]
  | succ count ih =>
    rw [Nat.repeat, ExtendedMantissa.shiftRightOne, ih, Nat.div_div_eq_div_mul, pow_succ]

theorem le_roundedMantissa (m : ExtendedMantissa) : m.mantissa ≤ m.roundedMantissa := by
  obtain ⟨mantissa, round, sticky⟩ := m
  cases round <;> cases sticky <;>
    simp [ExtendedMantissa.roundedMantissa, ExtendedMantissa.accuracy, Accuracy.roundToNearestEven]

theorem roundedMantissa_le (m : ExtendedMantissa) : m.roundedMantissa ≤ m.mantissa + 1 := by
  obtain ⟨mantissa, round, sticky⟩ := m
  cases round <;> cases sticky <;>
    simp [ExtendedMantissa.roundedMantissa, ExtendedMantissa.accuracy, Accuracy.roundToNearestEven]
  omega

theorem log2_shiftLeft {m : Nat} (nonzero : m ≠ 0) (count : Nat) :
    (m <<< count).log2 = m.log2 + count := by
  induction count with
  | zero => rfl
  | succ count ih =>
    have positive : m <<< count ≠ 0 := by simpa [Nat.shiftLeft_eq] using nonzero
    rw [Nat.shiftLeft_succ, Nat.log2_two_mul positive, ih, Nat.add_assoc]

@[simp] theorem mantissa_ofMantissaAndAccuracy (m : Nat) (accuracy : Accuracy) :
    (ExtendedMantissa.ofMantissaAndAccuracy m accuracy).mantissa = m := by
  unfold ExtendedMantissa.ofMantissaAndAccuracy
  split <;> rfl

variable {format : Format}

/-- Shifted to its target a mantissa becomes short, and stays
positive unless the number is too small. -/
theorem shiftToTargetExponent_fits {m : Nat} {e : Int} (positive : 0 < m)
    (large : format.minExponent ≤ e + m.log2) (accuracy : Accuracy) :
    let shifted := shiftToTargetExponent format m e accuracy
    0 < shifted.1.mantissa ∧ shifted.1.mantissa < 2 ^ format.mantissaBits ∧
    format.minExponent ≤ shifted.2 := by
  have bits : 0 < format.mantissaBits := by simp [Format.mantissaBits]
  have below := Nat.lt_log2_self (n := m)
  have above := Nat.log2_self_le positive.ne'
  simp only [shiftToTargetExponent, shiftToExponent, mantissa_shiftRight,
    mantissa_ofMantissaAndAccuracy, Format.targetExponent, totalExponent]
  generalize count :
    (max ((m.log2 : Int) + 1 + e - format.mantissaBits) format.minExponent - e).toNat = shift
  have small : shift ≤ m.log2 := by omega
  have enough : m.log2 < shift + format.mantissaBits := by omega
  refine ⟨?_, ?_, ?_⟩
  · exact Nat.div_pos ((Nat.pow_le_pow_right two_pos small).trans above) (Nat.two_pow_pos _)
  · rw [Nat.div_lt_iff_lt_mul (Nat.two_pow_pos _), ← pow_add, Nat.add_comm]
    exact below.trans_le (Nat.pow_le_pow_right two_pos enough)
  · omega

private theorem roundWithAccuracy_fits {m : Nat} {e : Int} (positive : 0 < m)
    (large : format.minExponent ≤ e + m.log2) (sign : Sign) (accuracy : Accuracy) :
    ∃ m' e' hm, roundWithAccuracy format sign m e accuracy = .finite sign m' e' hm ∧
      m' < 2 ^ format.mantissaBits ∧ format.minExponent ≤ e' := by
  obtain ⟨first, -, kept⟩ := shiftToTargetExponent_fits positive large accuracy
  obtain ⟨final, short, held⟩ :=
    shiftToTargetExponent_fits (first.trans_le (le_roundedMantissa _))
      (kept.trans (le_add_of_nonneg_right (Int.natCast_nonneg _))) .exact
  exact ⟨_, _, final, dif_neg final.ne', short, held⟩

theorem isZero_unpack_pack_roundWithAccuracy {m : Nat} {e : Int} (positive : 0 < m)
    (large : format.minExponent ≤ e + m.log2) (sign : Sign) (accuracy : Accuracy) :
    isZero (unpack format (pack format (roundWithAccuracy format sign m e accuracy))) = false := by
  obtain ⟨m', e', hm, rounded, short, high⟩ := roundWithAccuracy_fits positive large sign accuracy
  rw [rounded]
  exact isZero_unpack_pack_finite hm short high

private theorem isZero_unpack_pack_round {m : Nat} {e : Int} (positive : 0 < m)
    (high : format.minExponent ≤ e) (sign : Sign) :
    isZero (unpack format (pack format (round format sign m e))) = false := by
  have target : format.minExponent ≤ format.targetExponent (totalExponent m e) := le_max_right ..
  have longer : 0 < m <<< (e - format.targetExponent (totalExponent m e)).toNat := by
    rw [Nat.shiftLeft_eq]
    exact Nat.mul_pos positive (Nat.two_pow_pos _)
  exact isZero_unpack_pack_roundWithAccuracy longer (by omega) sign .exact

@[simp] theorem isNaN_roundWithAccuracy (format : Format) (sign : Sign) (m : Nat) (e : Int)
    (accuracy : Accuracy) :
    (roundWithAccuracy format sign m e accuracy).isNaN = false := by
  unfold roundWithAccuracy
  simp only
  split <;> rfl

@[simp] theorem isNaN_round (format : Format) (sign : Sign) (m : Nat) (e : Int) :
    (round format sign m e).isNaN = false := isNaN_roundWithAccuracy ..

@[simp] theorem isNaN_ofNat (format : Format) (n : Nat) :
    (UnpackedFloat.ofNat format n).isNaN = false := by
  unfold UnpackedFloat.ofNat ofInt UnpackedFloat.normalize
  split
  · simp
  · rfl
  · simp

theorem minExponent_neg (format : Format) : format.minExponent ≤ 0 := by
  have bias : (1 : Int) ≤ 2 ^ (format.exponentBits - 1) := by
    exact_mod_cast Nat.one_le_two_pow (n := format.exponentBits - 1)
  have mantissa := format.hm
  simp [Format.minExponent, Format.mantissaBits]
  omega

theorem isZero_unpack_pack_ofNat {n : Nat} (positive : 0 < n) :
    isZero (unpack format (pack format (UnpackedFloat.ofNat format n))) = false := by
  have sorted : compare (n : Int) 0 = .gt := compare_gt_iff_gt.mpr (by exact_mod_cast positive)
  unfold UnpackedFloat.ofNat ofInt UnpackedFloat.normalize
  rw [sorted]
  exact isZero_unpack_pack_round positive (minExponent_neg format) .positive

end Round

section Operations

variable (format : Format) (x y : UnpackedFloat)

theorem isNaN_neg : x.neg.isNaN = x.isNaN := by
  cases x <;> rfl

theorem isNaN_mul : (mul format x y).isNaN = true ↔
    x.isNaN = true ∨ y.isNaN = true ∨ isZero x = true ∧ y.isInf = true ∨
    x.isInf = true ∧ isZero y = true := by
  cases x <;> cases y <;> simp only [mul, isNaN_roundWithAccuracy] <;> simp [isNaN, isZero, isInf]

theorem isNaN_div : (div format x y).isNaN = true ↔
    x.isNaN = true ∨ y.isNaN = true ∨ isZero x = true ∧ isZero y = true ∨
    x.isInf = true ∧ y.isInf = true := by
  cases x <;> cases y <;> simp only [div, isNaN_roundWithAccuracy] <;> simp [isNaN, isZero, isInf]

@[simp] theorem isNaN_ofScientific (m : Nat) (e : Int) :
    (UnpackedFloat.ofScientific format m e).isNaN = false := by
  unfold UnpackedFloat.ofScientific
  split
  · rfl
  · split
    · rfl
    · split
      · rfl
      · split <;> simp [mul, div]

theorem compare_swap : y.compare x = (x.compare y).map .swap := by
  have exponents (e f : Int) : compare f e = (compare e f).swap := Std.OrientedOrd.eq_swap
  have mantissas (m n : Nat) : compare n m = (compare m n).swap := Std.OrientedOrd.eq_swap
  have signs (s t : Sign) : compare t s = (compare s t).swap := by cases s <;> cases t <;> rfl
  cases x with
  | notANumber => cases y <;> simp [UnpackedFloat.compare]
  | infinity s =>
    cases y <;> cases s <;> simp [UnpackedFloat.compare]
    · exact signs ..
    · exact signs ..
  | zero s =>
    cases y with
    | infinity t => cases t <;> simp [UnpackedFloat.compare]
    | finite t => cases t <;> simp [UnpackedFloat.compare]
    | _ => simp [UnpackedFloat.compare]
  | finite s m e hm =>
    cases y with
    | infinity t => cases s <;> cases t <;> simp [UnpackedFloat.compare]
    | finite t n f hn =>
      cases s <;> cases t <;> simp [UnpackedFloat.compare, Ordering.swap_then, exponents e f,
        mantissas m n]
    | _ => cases s <;> simp [UnpackedFloat.compare]

theorem compare_isSome : (x.compare y).isSome = true ↔ x.isNaN = false ∧ y.isNaN = false := by
  cases x with
  | notANumber => cases y <;> simp [UnpackedFloat.compare, isNaN]
  | infinity s => cases y <;> cases s <;> simp [UnpackedFloat.compare, isNaN]
  | zero s =>
    cases y with
    | infinity t => cases t <;> simp [UnpackedFloat.compare, isNaN]
    | finite t => cases t <;> simp [UnpackedFloat.compare, isNaN]
    | _ => simp [UnpackedFloat.compare, isNaN]
  | finite s m e hm =>
    cases y with
    | infinity t => cases s <;> cases t <;> simp [UnpackedFloat.compare, isNaN]
    | finite t n f hn => cases s <;> cases t <;> simp [UnpackedFloat.compare, isNaN]
    | _ => cases s <;> simp [UnpackedFloat.compare, isNaN]

variable {x y}

theorem le_total (left : x.isNaN = false) (right : y.isNaN = false) (beyond : x.le y = false) :
    y.le x = true := by
  obtain ⟨order, compared⟩ := Option.isSome_iff_exists.mp ((compare_isSome x y).mpr ⟨left, right⟩)
  rw [UnpackedFloat.le, compare_swap x y, compared]
  rw [UnpackedFloat.le, compared] at beyond
  cases order with
  | gt => rfl
  | _ => cases beyond

theorem isNaN_of_le (below : x.le y = true) : x.isNaN = false ∧ y.isNaN = false := by
  apply (compare_isSome x y).mp
  cases compared : x.compare y with
  | none =>
    rw [UnpackedFloat.le, compared] at below
    cases below
  | some order => rfl

/-- A positive whole number is not lost to zero when it is read with the power 10⁰. -/
theorem isZero_unpack_pack_ofScientific {n : Nat} (positive : 0 < n) :
    isZero (unpack format (pack format (UnpackedFloat.ofScientific format n 0))) = false := by
  have long : 0 < n <<< format.mantissaBits * 10 ^ (0 : Int).toNat := by
    rw [Nat.shiftLeft_eq]
    exact Nat.mul_pos (Nat.mul_pos positive (Nat.two_pow_pos _)) (Nat.pow_pos (by decide))
  have wide : format.mantissaBits ≤ (n <<< format.mantissaBits * 10 ^ (0 : Int).toNat).log2 := by
    rw [Nat.le_log2 long.ne', Nat.shiftLeft_eq, Int.toNat_zero, pow_zero, mul_one]
    exact Nat.le_mul_of_pos_left _ positive
  have low := minExponent_neg format
  have power : (0 : Int) ≤ 2 ^ format.exponentBits := Int.pow_nonneg (by decide)
  unfold UnpackedFloat.ofScientific
  rw [dif_neg positive.ne', if_neg (by omega), if_neg (by omega), if_pos le_rfl]
  exact isZero_unpack_pack_roundWithAccuracy long (by omega) _ _

/-- A number that is unpacked is not lost to zero by a factor that only shifts it. -/
theorem isZero_unpack_pack_mul {bits : BitVec format.numBits}
    (number : (unpack format bits).isNaN = false) (nonzero : isZero (unpack format bits) = false)
    (sign : Sign) (count : Nat) (hm : 0 < 2 ^ count) :
    isZero (unpack format (pack format
      (mul format (unpack format bits) (.finite sign (2 ^ count) (-count) hm)))) = false := by
  cases found : unpack format bits with
  | infinity s => exact isZero_unpack_pack_infinity _
  | notANumber =>
    rw [found] at number
    cases number
  | zero s =>
    rw [found] at nonzero
    cases nonzero
  | finite s m e positive =>
    have high := minExponent_le_of_unpack found
    have long : count ≤ (m * 2 ^ count).log2 := by
      rw [Nat.le_log2 (Nat.mul_pos positive hm).ne']
      exact Nat.le_mul_of_pos_left _ positive
    exact isZero_unpack_pack_roundWithAccuracy (Nat.mul_pos positive hm) (by omega) _ _

end Operations

end ParticleSystem.Rounding
