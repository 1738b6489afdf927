import ParticleSystem.Proofs.Scalar.Monotone
import ParticleSystem.Proofs.Scalar.Quotient

namespace ParticleSystem.Rounding

open Float.Model (Format UnpackedFloat)
open Float.Model.UnpackedFloat

theorem fits_two_zpow {e : ℤ} (low : -149 ≤ e) : Fits (2 ^ e) := ⟨1, e, by decide, low, by simp⟩

theorem two_zpow_lt {e : ℤ} (high : e < 128) : (2 : ℚ) ^ e < 2 ^ 128 := by
  have power : (2 : ℚ) ^ 128 = 2 ^ (128 : ℤ) := by norm_num
  rw [power]
  exact zpow_lt_zpow_right₀ one_lt_two high

section Signs

variable {q r : ℚ}

theorem Nearest.nonneg (nearest : Nearest q r) (nonneg : 0 ≤ q) : 0 ≤ r :=
  nearest.le_of_ge fits_zero nonneg

theorem Nearest.abs (nearest : Nearest q r) : Nearest |q| |r| := by
  rcases le_or_gt 0 q with nonneg | negative
  · rwa [abs_of_nonneg nonneg, abs_of_nonneg (nearest.nonneg nonneg)]
  · rw [abs_of_neg negative, abs_of_nonpos (nearest.le_of_le fits_zero negative.le)]
    exact nearest.neg

theorem Nearest.same_sign (nearest : Nearest q r) {s : ℚ} (positive : 0 < q * s) : 0 ≤ r * s := by
  rcases pos_and_pos_or_neg_and_neg_of_mul_pos positive with ⟨above, other⟩ | ⟨below, other⟩
  · exact mul_nonneg (nearest.nonneg above.le) other.le
  · exact mul_nonneg_of_nonpos_of_nonpos (nearest.le_of_le fits_zero below.le) other.le

end Signs

private theorem standard_of_rounds {x : UnpackedFloat} {q : ℚ} (rounds : Rounds x q)
    (nonneg : 0 ≤ q) : Standard (unpack Format.binary32 (pack Format.binary32 x)) := by
  obtain ⟨shaped, nearest⟩ := rounds
  have own := nearest.nonneg nonneg
  cases x with
  | notANumber => cases shaped
  | infinity s => cases shaped
  | zero s =>
    rw [unpack_pack_zero]
    trivial
  | finite s m e hm =>
    obtain ⟨short, low, normal⟩ := shaped
    cases s with
    | positive => exact (bits_unpack_pack short low normal).1
    | negative =>
      rw [value_negative] at own
      exact absurd own (neg_lt_zero.mpr (mul_pos (Nat.cast_pos.mpr hm) (two_zpow_pos e))).not_ge

theorem unpack_abs {x : UnpackedFloat} (shaped : Shaped x) :
    Shaped x.abs ∧ value x.abs = |value x| := by
  cases x with
  | notANumber => cases shaped
  | infinity s => cases shaped
  | zero s => exact ⟨trivial, by simp [UnpackedFloat.abs, value]⟩
  | finite s m e hm => exact ⟨shaped, by rw [abs_value_finite]; rfl⟩

end ParticleSystem.Rounding

namespace ParticleSystem.Single

open Float.Model (Format UnpackedFloat)
open Rounding (Fits Nearest Standard isZero)

variable {x y : Float32}

theorem mul_nonneg (left : x.isFinite = true) (right : y.isFinite = true)
    (nonneg : 0 ≤ value x * value y) : 0 ≤ x * y :=
  nonneg_of_standard (Rounding.standard_of_rounds
    (Rounding.rounds_mul (shaped left) (shaped right)) nonneg)

/-- Past the largest single there is only infinity. -/
theorem unpack_of_not_finite (nonneg : 0 ≤ x) (beyond : x.isFinite = false) :
    unpack x = .infinity .positive := by
  have standard := standard_of_nonneg nonneg
  have own : (unpack x).isFinite = false := beyond
  cases found : unpack x with
  | infinity s =>
    rw [found] at standard
    exact congrArg _ standard
  | notANumber =>
    rw [found] at standard
    cases standard
  | _ =>
    rw [found] at own
    cases own

theorem abs_value (finite : x.isFinite = true) :
    x.abs.isFinite = true ∧ value x.abs = |value x| := by
  obtain ⟨shaped, own⟩ := Rounding.unpack_abs (shaped finite)
  have packed : unpack x.abs =
      UnpackedFloat.unpack Format.binary32 (UnpackedFloat.pack Format.binary32 (unpack x).abs) :=
        rfl
  have stores := stores_of_rounds (Rounding.rounds_self shaped) packed
  rw [own] at stores
  exact stores.eq_of_fits (own ▸ shaped.fits) (by rw [abs_abs]; exact abs_value_lt x)

/-- A result whose exact size lies between two singles has a size between them. -/
theorem Stores.size {r : Float32} {q : ℚ} (stores : Stores r q) {low high : ℚ} (fits : Fits low)
    (other : Fits high) (small : high < 2 ^ 128) (below : low ≤ |q|) (above : |q| ≤ high) :
    r.isFinite = true ∧ low ≤ |value r| ∧ |value r| ≤ high := by
  obtain ⟨least, most⟩ := abs_le.mp above
  have finite :=
    stores.finite (-high) high (Rounding.fits_neg other) other (neg_lt_neg small) small least most
  have nearest := (stores.nearest finite).abs
  exact ⟨finite, nearest.le_of_ge fits below, nearest.le_of_le other above⟩

theorem isZero_iff : isZero (unpack x) = true ↔ x.isFinite = true ∧ value x = 0 := by
  have own : x.isFinite = (unpack x).isFinite := rfl
  rw [own, value]
  cases unpack x with
  | zero s => exact iff_of_true rfl ⟨rfl, rfl⟩
  | finite s m e hm =>
    have nonzero : Rounding.value (.finite s m e hm) ≠ 0 := by
      rw [← abs_pos, Rounding.abs_value_finite]
      exact mul_pos (Nat.cast_pos.mpr hm) (Rounding.two_zpow_pos e)
    exact iff_of_false Bool.false_ne_true fun both => nonzero both.2
  | _ => exact iff_of_false Bool.false_ne_true fun both => Bool.false_ne_true both.1

theorem beq_zero_iff : (x == 0) = true ↔ isZero (unpack x) = true := by
  have compared : (x == 0) = (UnpackedFloat.compare (unpack x) (.zero .positive) == some .eq) := rfl
  rw [compared]
  cases unpack x with
  | finite s m e hm => cases s <;> exact iff_of_false Bool.false_ne_true Bool.false_ne_true
  | infinity s => cases s <;> exact iff_of_false Bool.false_ne_true Bool.false_ne_true
  | notANumber => exact iff_of_false Bool.false_ne_true Bool.false_ne_true
  | zero s => exact iff_of_true rfl rfl

theorem Stores.isZero (stores : Stores x 0) : isZero (unpack x) = true :=
  isZero_iff.mpr (stores.eq_of_fits Rounding.fits_zero (by norm_num))

theorem isZero_add (left : isZero (unpack x) = true) (right : isZero (unpack y) = true) :
    isZero (unpack (x + y)) = true := by
  obtain ⟨first, none⟩ := isZero_iff.mp left
  obtain ⟨second, nothing⟩ := isZero_iff.mp right
  have stores := stores_add first second
  rw [none, nothing, add_zero] at stores
  exact stores.isZero

theorem isZero_sub_self (finite : x.isFinite = true) : isZero (unpack (x - x)) = true := by
  have stores := stores_sub finite finite
  rw [sub_self] at stores
  exact stores.isZero

theorem isZero_mul_left (left : isZero (unpack x) = true) (right : y.isFinite = true) :
    isZero (unpack (x * y)) = true := by
  obtain ⟨first, none⟩ := isZero_iff.mp left
  have stores := stores_mul first right
  rw [none, zero_mul] at stores
  exact stores.isZero

theorem isZero_mul_right (left : x.isFinite = true) (right : isZero (unpack y) = true) :
    isZero (unpack (x * y)) = true := by
  obtain ⟨second, none⟩ := isZero_iff.mp right
  have stores := stores_mul left second
  rw [none, mul_zero] at stores
  exact stores.isZero

theorem isZero_of_add (zero : isZero (unpack (x + y)) = true) :
    x.isFinite = true ∧ y.isFinite = true ∧
    (isZero (unpack x) = true ↔ isZero (unpack y) = true) := by
  obtain ⟨finite, none⟩ := isZero_iff.mp zero
  obtain ⟨first, second⟩ := isFinite_of_add finite
  have nearest := (stores_add first second).nearest finite
  rw [none] at nearest
  refine ⟨first, second, ?_⟩
  rw [isZero_iff, isZero_iff, and_iff_right first, and_iff_right second]
  constructor
  · intro nothing
    rw [nothing, zero_add] at nearest
    exact (nearest.eq_of_fits (fits_value second)).symm
  · intro nothing
    rw [nothing, add_zero] at nearest
    exact (nearest.eq_of_fits (fits_value first)).symm

/-- What is finite vanishes against infinity. -/
theorem isZero_div (left : x.isFinite = true) (right : unpack y = .infinity .positive) :
    isZero (unpack (x / y)) = true := by
  have own : (unpack x).isFinite = true := left
  have quotient : unpack (x / y) =
    UnpackedFloat.unpack Format.binary32 (UnpackedFloat.pack Format.binary32
      (UnpackedFloat.div Format.binary32 (unpack x) (unpack y))) := rfl
  rw [quotient, right]
  cases found : unpack x with
  | zero s =>
    simp only [UnpackedFloat.div, Rounding.unpack_pack_zero]
    rfl
  | finite s m e hm =>
    simp only [UnpackedFloat.div, Rounding.unpack_pack_zero]
    rfl
  | _ =>
    rw [found] at own
    cases own

end ParticleSystem.Single
