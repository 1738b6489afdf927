import ParticleSystem.Decimal.Reading
import ParticleSystem.Proofs.Scalar.Single

/-!
A numeral that is read stands for a number. Powers of ten are taken at most 308 places at a
time, so each of them is a finite double above zero, and no step multiplies zero by
infinity or divides one infinity by another.
-/

namespace ParticleSystem

open Float.Model (Format UnpackedFloat)
open Rounding (isZero)

namespace Double

variable (x y : Float)

theorem isNaN_mul : (x * y).isNaN = true ↔ x.isNaN = true ∨ y.isNaN = true ∨
    isZero x.toModel.unpack = true ∧ y.isInf = true ∨
    x.isInf = true ∧ isZero y.toModel.unpack = true :=
  (Bool.eq_iff_iff.mp (Rounding.isNaN_unpack_pack _)).trans (Rounding.isNaN_mul ..)

theorem isNaN_div : (x / y).isNaN = true ↔ x.isNaN = true ∨ y.isNaN = true ∨
    isZero x.toModel.unpack = true ∧ isZero y.toModel.unpack = true ∨
    x.isInf = true ∧ y.isInf = true :=
  (Bool.eq_iff_iff.mp (Rounding.isNaN_unpack_pack _)).trans (Rounding.isNaN_div ..)

theorem isNaN_neg : (-x).isNaN = x.isNaN := by
  refine (@Rounding.isNaN_unpack_pack Format.binary64 _).trans ?_
  exact Rounding.isNaN_neg _

/-- Whether it is a finite number other than zero. -/
def Regular (x : Float) : Prop :=
  x.isNaN = false ∧ x.isInf = false ∧ isZero x.toModel.unpack = false

instance (x : Float) : Decidable (Regular x) := inferInstanceAs (Decidable (_ ∧ _ ∧ _))

section PowersOfTen

open Float.Model (totalExponent)
open Float.Model.UnpackedFloat

private theorem isInf_unpack_pack_finite {sign : Sign} {m : Nat} {e : Int} {hm : 0 < m}
    (low : e < 971) :
    (unpack Format.binary64 (pack Format.binary64 (.finite sign m e hm))).isInf = false := by
  have bias : Format.binary64.exponentBias = 1023 := rfl
  have width : Format.binary64.mantissaBitsWithoutImplicit = 52 := rfl
  have bits : (2 : Nat) ^ Format.binary64.exponentBits = 2048 := rfl
  rw [Bool.eq_false_iff, ne_eq, Rounding.isInf_unpack]
  rintro ⟨exponent, -⟩
  unfold pack at exponent
  simp only at exponent
  rw [if_neg (by omega)] at exponent
  split at exponent
  · rw [unpackExponent_packComponents] at exponent
    exact @Rounding.exponent_ne_top Format.binary64 _ (by omega) exponent
  · rw [unpackExponent_packComponents] at exponent
    exact @Rounding.zero_ne_top Format.binary64 exponent

private theorem isInf_unpack_pack_round {m : Nat} {e : Int} (positive : 0 < m) (high : -1074 ≤ e)
    (low : e < 970) (short : m.log2 + e < 1022) :
    (unpack Format.binary64 (pack Format.binary64
      (roundWithAccuracy Format.binary64 .positive m e .exact))).isInf = false := by
  have width : Format.binary64.mantissaBits = 53 := rfl
  have lowest : Format.binary64.minExponent = -1074 := rfl
  obtain ⟨some, fits, -⟩ := @Rounding.shiftToTargetExponent_fits Format.binary64 m e positive
    (by omega) .exact
  have exponent : (shiftToTargetExponent Format.binary64 m e .exact).2 < 970 := by
    simp only [shiftToTargetExponent, shiftToExponent, Format.targetExponent, totalExponent]
    omega
  unfold roundWithAccuracy
  generalize shiftToTargetExponent Format.binary64 m e .exact = first at some fits exponent
  have most : first.1.roundedMantissa ≤ 2 ^ 53 := (Rounding.roundedMantissa_le _).trans fits
  have digits : first.1.roundedMantissa.log2 ≤ 53 := by
    have total := some.trans_le (Rounding.le_roundedMantissa first.1)
    exact Nat.lt_succ_iff.mp ((Nat.log2_lt total.ne').mpr (most.trans_lt (by decide)))
  have second : (shiftToTargetExponent Format.binary64 first.1.roundedMantissa first.2 .exact).2 <
      971 := by
    simp only [shiftToTargetExponent, shiftToExponent, Format.targetExponent, totalExponent]
    omega
  simp only
  split
  · rfl
  · exact isInf_unpack_pack_finite second

private theorem log2_ten_pow {power : Nat} (small : power < 308) : (10 ^ power).log2 < 1021 := by
  rw [Nat.log2_lt (Nat.pow_pos (by decide)).ne']
  calc 10 ^ power
    _ ≤ 10 ^ 307 := Nat.pow_le_pow_right (by decide) (Nat.lt_succ_iff.mp small)
    _ < 2 ^ 1021 := by decide +kernel

/-- Powers of ten that are not exact but stay clear of the largest
number are rounded to numbers in range. -/
theorem ofScientific_rounded {power : Nat} (many : 23 ≤ power) (small : power < 308) :
    Regular (Float.ofScientific 1 false power) := by
  have positive : 0 < 10 ^ power := Nat.pow_pos (by decide)
  have longer : 0 < 1 <<< 53 * 10 ^ power := Nat.mul_pos (by decide) positive
  have digits : (1 <<< 53 * 10 ^ power).log2 = (10 ^ power).log2 + 53 := by
    rw [Nat.mul_comm, Nat.one_shiftLeft, ← Nat.shiftLeft_eq, Rounding.log2_shiftLeft positive.ne']
  have short := log2_ten_pow small
  have lowest : Format.binary64.minExponent = -1074 := rfl
  have read : (Float.ofScientific 1 false power).toModel.unpack =
    unpack Format.binary64 (pack Format.binary64
      (roundWithAccuracy Format.binary64 .positive (1 <<< 53 * 10 ^ power) (-53) .exact)) := by
    have range : (2 : Int) ^ Format.binary64.exponentBits = 2048 := rfl
    have whole : (0 : Int) ≤ power := Int.natCast_nonneg power
    unfold Float.ofScientific
    rw [dif_neg (by omega)]
    change unpack Format.binary64
      (pack Format.binary64 (UnpackedFloat.ofScientific Format.binary64 1 power)) = _
    unfold UnpackedFloat.ofScientific
    rw [dif_neg Nat.one_ne_zero, if_neg (by omega), if_neg (by omega), if_pos whole]
    rfl
  refine ⟨?_, (congrArg isInf read).trans
    (isInf_unpack_pack_round longer (by decide) (by decide) (by omega)), ?_⟩
  · refine (congrArg isNaN read).trans ?_
    rw [Rounding.isNaN_unpack_pack, Rounding.isNaN_roundWithAccuracy]
  · rw [read]
    exact Rounding.isZero_unpack_pack_roundWithAccuracy longer (by omega) .positive .exact

/-- Powers of ten are finite and above zero, up to the last one in range. -/
theorem ofScientific_regular {power : Nat} (small : power ≤ 308) :
    Regular (Float.ofScientific 1 false power) := by
  have exact : ∀ power : Fin 23, Regular (Float.ofScientific 1 false power.val) := by decide +kernel
  have last : Regular (Float.ofScientific 1 false 308) := by decide +kernel
  rcases Nat.lt_or_ge power 23 with few | many
  · exact exact ⟨power, few⟩
  · rcases small.lt_or_eq with less | rfl
    · exact ofScientific_rounded many less
    · exact last

end PowersOfTen

private theorem isNaN_mul_unit {x : Float} {power : Nat} (number : x.isNaN = false)
    (small : power ≤ 308) : (x * Float.ofScientific 1 false power).isNaN = false := by
  obtain ⟨some, finite, nonzero⟩ := ofScientific_regular small
  rw [Bool.eq_false_iff, ne_eq, isNaN_mul, number, some, finite, nonzero]
  simp

theorem isNaN_div_unit {x : Float} {power : Nat} (number : x.isNaN = false) (small : power ≤ 308) :
    (x / Float.ofScientific 1 false power).isNaN = false := by
  obtain ⟨some, finite, nonzero⟩ := ofScientific_regular small
  rw [Bool.eq_false_iff, ne_eq, isNaN_div, number, some, finite, nonzero]
  simp

private theorem isNaN_toFloat (w : UInt64) : w.toFloat.isNaN = false := by
  refine (@Rounding.isNaN_unpack_pack Format.binary64 _).trans ?_
  exact Rounding.isNaN_ofNat Format.binary64 w.toNat

theorem isNaN_ofNat (n : Nat) : (Float.ofNat n).isNaN = false := by
  change (Float.ofScientific n false 0).isNaN = false
  unfold Float.ofScientific
  split
  · have some : (Float.exactlyRepresentablePowersOfTen[0]).isNaN = false := by rfl
    have finite : (Float.exactlyRepresentablePowersOfTen[0]).isInf = false := by rfl
    have nonzero : isZero (Float.exactlyRepresentablePowersOfTen[0]).toModel.unpack = false := by
      rfl
    rw [if_neg Bool.false_ne_true, Bool.eq_false_iff, ne_eq, isNaN_mul, isNaN_toFloat, some,
      finite, nonzero]
    simp
  · exact (@Rounding.isNaN_unpack_pack Format.binary64 _).trans (Rounding.isNaN_ofScientific _ _ _)

end Double

namespace Numeral

private theorem isNaN_scaleDouble? {x scaled : Float} {power : Int} (number : x.isNaN = false)
    (read : scaleDouble? x power = some scaled) : scaled.isNaN = false := by
  fun_induction scaleDouble? x power with
  | case1 x power small unit up product infinite => cases read
  | case2 x power small unit up product finite =>
    obtain rfl := Option.some.inj read
    exact Double.isNaN_mul_unit number small
  | case3 x power small unit down =>
    cases read
    exact Double.isNaN_div_unit number small
  | case4 x power large zero =>
    cases read
    exact number
  | case5 x power large nonzero up => cases read
  | case6 x power large nonzero down ih => exact ih (Double.isNaN_div_unit number le_rfl) read

theorem isNaN_toDouble? {n : Numeral} {x : Float} (read : n.toDouble? = some x) :
    x.isNaN = false := by
  have signed (magnitude : Float) (number : magnitude.isNaN = false) :
      (if n.negative then -magnitude else magnitude).isNaN = false := by
    split
    · rw [Double.isNaN_neg]
      exact number
    · exact number
  unfold toDouble? at read
  cases whole : n.wholeMagnitude? with
  | some m =>
    rw [whole] at read
    obtain rfl := Option.some.inj read
    exact signed _ (Double.isNaN_ofNat m)
  | none =>
    rw [whole] at read
    obtain ⟨magnitude, found, same⟩ := Option.bind_eq_some_iff.mp read
    obtain rfl := Option.some.inj same
    exact signed _ (isNaN_scaleDouble? (Double.isNaN_ofNat _) found)

theorem isNaN_toSingle? {n : Numeral} {x : Float32} (read : n.toSingle? = some x) :
    x.isNaN = false := by
  unfold toSingle? at read
  split at read
  · cases read
    split
    · rw [Single.isNaN_neg]
      exact Single.isNaN_ofNat _
    · exact Single.isNaN_ofNat _
  · obtain ⟨double, found, same⟩ := Option.map_eq_some_iff.mp read
    cases same
    rw [Single.isNaN_ofDouble]
    exact isNaN_toDouble? found

end Numeral

end ParticleSystem
