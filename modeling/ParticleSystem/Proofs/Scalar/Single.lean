import ParticleSystem.Particle
import ParticleSystem.Scalar.Single
import ParticleSystem.Proofs.Scalar.Rounding

namespace ParticleSystem.Single

open Float.Model (Format UnpackedFloat)
open Rounding (isZero)

section Arithmetic

variable (x y : Float32)

theorem isNaN_mul : (x * y).isNaN = true ↔ x.isNaN = true ∨ y.isNaN = true ∨
    isZero (unpack x) = true ∧ y.isInf = true ∨ x.isInf = true ∧ isZero (unpack y) = true :=
  (Bool.eq_iff_iff.mp (Rounding.isNaN_unpack_pack _)).trans (Rounding.isNaN_mul ..)

theorem isNaN_div : (x / y).isNaN = true ↔ x.isNaN = true ∨ y.isNaN = true ∨
    isZero (unpack x) = true ∧ isZero (unpack y) = true ∨ x.isInf = true ∧ y.isInf = true :=
  (Bool.eq_iff_iff.mp (Rounding.isNaN_unpack_pack _)).trans (Rounding.isNaN_div ..)

theorem isNaN_neg : (-x).isNaN = x.isNaN := by
  refine (@Rounding.isNaN_unpack_pack Format.binary32 _).trans ?_
  exact Rounding.isNaN_neg _

/-- Small whole numbers are converted as words and multiplied by the power 10⁰. -/
theorem unpack_unit : unpack Float32.exactlyRepresentablePowersOfTen[0] =
    .finite .positive (2 ^ 23) (-23) (Nat.two_pow_pos 23) := by rfl

theorem isNaN_toFloat32 (w : UInt64) : w.toFloat32.isNaN = false := by
  refine (@Rounding.isNaN_unpack_pack Format.binary32 _).trans ?_
  exact Rounding.isNaN_ofNat Format.binary32 w.toNat

theorem isNaN_ofNat (n : Nat) : (Float32.ofNat n).isNaN = false := by
  change (Float32.ofScientific n false 0).isNaN = false
  unfold Float32.ofScientific
  split
  · have unit : isZero (unpack Float32.exactlyRepresentablePowersOfTen[0]) = false := by
      rw [unpack_unit]
      rfl
    have finite : (Float32.exactlyRepresentablePowersOfTen[0]).isInf = false := by rfl
    have number : (Float32.exactlyRepresentablePowersOfTen[0]).isNaN = false := by rfl
    rw [if_neg Bool.false_ne_true, Bool.eq_false_iff, ne_eq, isNaN_mul, isNaN_toFloat32, unit,
      finite, number]
    simp
  · exact (@Rounding.isNaN_unpack_pack Format.binary32 _).trans (Rounding.isNaN_ofScientific _ _ _)

theorem isZero_ofNat {n : Nat} (positive : 0 < n) : isZero (unpack (Float32.ofNat n)) = false := by
  change isZero (unpack (Float32.ofScientific n false 0)) = false
  unfold Float32.ofScientific
  split
  · rename_i small
    have word : 0 < n.toUInt64.toNat := by
      rw [Nat.toUInt64, UInt64.toNat_ofNat', Nat.mod_eq_of_lt (by omega)]
      exact positive
    have nonzero := @Rounding.isZero_unpack_pack_ofNat Format.binary32 _ word
    rw [if_neg Bool.false_ne_true]
    change isZero (UnpackedFloat.unpack Format.binary32 (UnpackedFloat.pack Format.binary32
      (.mul Format.binary32 (unpack n.toUInt64.toFloat32)
        (unpack Float32.exactlyRepresentablePowersOfTen[0])))) = false
    rw [unpack_unit]
    exact Rounding.isZero_unpack_pack_mul _ (isNaN_toFloat32 _) nonzero .positive 23 _
  · exact Rounding.isZero_unpack_pack_ofScientific Format.binary32 positive

theorem isNaN_ofDouble (z : Float) : (ofDouble z).isNaN = z.isNaN := by
  have unpacked : z.isNaN = z.toModel.unpack.isNaN := rfl
  refine (@Rounding.isNaN_unpack_pack Format.binary32 _).trans ?_
  rw [unpacked]
  split
  · rw [Rounding.isNaN_round, ‹z.toModel.unpack = _›]
    rfl
  · rfl

end Arithmetic

section Order

variable {x y : Float32}

theorem le_iff : x ≤ y ↔ (unpack x).le (unpack y) = true := by
  have decided : x ≤ y ↔ decide (x.toModel ≤ y.toModel) = true := Iff.rfl
  rw [decided, decide_eq_true_iff]
  rfl

theorem lt_iff : x < y ↔ (unpack x).compare (unpack y) = some .lt := by
  have decided : x < y ↔ decide (x.toModel < y.toModel) = true := Iff.rfl
  have compared : x.toModel < y.toModel ↔ ((unpack x).compare (unpack y) == some .lt) = true :=
    Iff.rfl
  rw [decided, decide_eq_true_iff, compared, beq_iff_eq]

theorem le_total (left : x.isNaN = false) (right : y.isNaN = false) (beyond : ¬x ≤ y) : y ≤ x := by
  rw [le_iff, Bool.not_eq_true] at beyond
  exact le_iff.mpr (Rounding.le_total left right beyond)

theorem isNaN_of_le (below : x ≤ y) : x.isNaN = false ∧ y.isNaN = false :=
  Rounding.isNaN_of_le (le_iff.mp below)

theorem isNaN_of_lt (below : x < y) : x.isNaN = false ∧ y.isNaN = false := by
  apply (Rounding.compare_isSome (unpack x) (unpack y)).mp
  rw [lt_iff.mp below]
  rfl

theorem le_of_lt (below : x < y) : x ≤ y := by
  rw [le_iff, UnpackedFloat.le, lt_iff.mp below]
  rfl

theorem unpack_zero : unpack 0 = .zero .positive := by rfl

theorem isZero_of_pos (positive : 0 < x) : isZero (unpack x) = false := by
  have compared := lt_iff.mp positive
  rw [unpack_zero] at compared
  cases found : unpack x with
  | zero sign =>
    rw [found] at compared
    cases compared
  | _ => rfl

theorem le_zero_of_isZero (zero : isZero (unpack x) = true) : x ≤ 0 := by
  rw [le_iff, unpack_zero]
  cases found : unpack x with
  | zero sign => rfl
  | _ =>
    rw [found] at zero
    cases zero

end Order

section Shares

theorem isNaN_clamp {x low high : Float32} (lower : low.isNaN = false) (upper : high.isNaN = false)
    (number : x.isNaN = false) : (Scalar.clamp low high x).isNaN = false := by
  have raised : (if x < low then low else x).isNaN = false := by
    split
    · exact lower
    · exact number
  unfold Scalar.clamp
  generalize (if x < low then low else x) = moved at raised
  simp only
  split
  · exact upper
  · exact raised

private theorem clamp_of_isNaN {x low high : Float32} (none : x.isNaN = true) :
    Scalar.clamp low high x = x := by
  have below : ¬x < low := by
    intro less
    rw [(isNaN_of_lt less).1] at none
    cases none
  have above : ¬high < x := by
    intro less
    rw [(isNaN_of_lt less).2] at none
    cases none
  unfold Scalar.clamp
  simp only
  rw [if_neg below, if_neg above]

theorem isNaN_zero_div {x : Float32} (number : x.isNaN = false)
    (nonzero : isZero (unpack x) = false) : (0 / x).isNaN = false := by
  have none : (0 : Float32).isNaN = false := by rfl
  have finite : (0 : Float32).isInf = false := by rfl
  rw [Bool.eq_false_iff, ne_eq, isNaN_div, none, number, finite, nonzero]
  simp

/-- A new particle has a share of its life behind it that is a number. -/
theorem isNaN_lifeShare {particle : Particle Float32} (lives : 0 < particle.lifetime)
    (new : particle.age = 0) : particle.lifeShare.isNaN = false := by
  unfold Particle.lifeShare
  split
  · rfl
  · apply isNaN_clamp rfl rfl
    rw [new]
    exact isNaN_zero_div (isNaN_of_lt lives).2 (isZero_of_pos lives)

/-- At the start of a loop the share of it that has passed is
a number exactly when the duration is. -/
theorem isNaN_share (duration : Float32) : (Clock.share ⟨0, duration⟩).isNaN = duration.isNaN := by
  unfold Clock.share
  simp only
  split
  · rename_i short
    rw [(isNaN_of_le short).1]
    rfl
  · rename_i long
    cases number : duration.isNaN with
    | false =>
      apply isNaN_clamp rfl rfl
      apply isNaN_zero_div number
      rw [Bool.eq_false_iff]
      exact fun zero => long (le_zero_of_isZero zero)
    | true =>
      have none : (0 / duration).isNaN = true := (isNaN_div 0 duration).mpr (.inr (.inl number))
      exact (congrArg Float32.isNaN (clamp_of_isNaN none)).trans none

end Shares

end ParticleSystem.Single
