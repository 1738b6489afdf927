import ParticleSystem.Proofs.Scalar.Nearest
import ParticleSystem.Proofs.Scalar.Single

/-!
The rational numbers that finite numbers stand for. Sums, differences and products are rounded to
the single nearest to the exact result; comparing two numbers compares what they stand for; and a
result is stored as it is unless it is too large.
-/

namespace ParticleSystem.Rounding

open Float.Model (Format UnpackedFloat totalExponent)
open Float.Model.UnpackedFloat

def value : UnpackedFloat → ℚ
  | .finite sign m e _ => sign.apply m * 2 ^ e
  | _ => 0

/-- Whether it is a finite number in the form that is unpacked, were there no largest one. -/
def Shaped : UnpackedFloat → Prop
  | .zero _ => True
  | .finite _ m e _ => m < 2 ^ 24 ∧ -149 ≤ e ∧ (-149 < e → 2 ^ 23 ≤ m)
  | _ => False

theorem abs_value_finite (sign : Sign) (m : Nat) (e : Int) (hm : 0 < m) :
    |value (.finite sign m e hm)| = m * 2 ^ e := by
  have positive : (0 : ℚ) ≤ m * 2 ^ e := mul_nonneg (Nat.cast_nonneg m) (two_zpow_pos e).le
  cases sign with
  | positive => exact abs_of_nonneg positive
  | negative =>
    rw [value, Sign.apply, Int.cast_neg, neg_mul, abs_neg]
    exact abs_of_nonneg positive

theorem Shaped.fits {x : UnpackedFloat} (shaped : Shaped x) : Fits (value x) := by
  cases x with
  | finite sign m e hm =>
    obtain ⟨short, low, -⟩ := shaped
    refine ⟨sign.apply m, e, ?_, low, rfl⟩
    cases sign <;> simp [Sign.apply, abs_neg] <;> exact_mod_cast short
  | _ => exact fits_zero

/-- Whether a number is, but for the bound on its size, the single nearest to a rational. -/
structure Rounds (x : UnpackedFloat) (q : ℚ) : Prop where
  shaped : Shaped x
  nearest : Nearest q (value x)

theorem rounds_self {x : UnpackedFloat} (shaped : Shaped x) : Rounds x (value x) :=
  ⟨shaped, .of_fits shaped.fits⟩

private theorem roundWithAccuracy_eq_zero (sign : Sign) {m count : Nat} {e : Int}
    (target : max (m.log2 + e - 23) (-149) = e + count)
    (none : (whole m >>> count).roundedMantissa = 0) :
    roundWithAccuracy Format.binary32 sign m e .exact = .zero sign := by
  unfold roundWithAccuracy
  rw [shiftToTargetExponent_eq m count target]
  simp only [none, shiftToTargetExponent, shiftToExponent, mantissa_shiftRight,
    mantissa_ofMantissaAndAccuracy, Nat.zero_div, dif_pos]

/-- Rounding is right where the rounded mantissa at the target is. -/
theorem rounds_of_nearest (sign : Sign) {m count : Nat} {e : Int} {q : ℚ} (positive : 0 < m)
    (target : max (m.log2 + e - 23) (-149) = e + count)
    (nearest : Nearest q ((whole m >>> count).roundedMantissa * 2 ^ (e + count : ℤ))) :
    Rounds (roundWithAccuracy Format.binary32 sign m e .exact) (sign.apply 1 * q) := by
  have signed {r : ℚ} {k : ℤ} {f : ℤ} (nearest : Nearest q r) (same : r = k * 2 ^ f) :
      Nearest (sign.apply 1 * q) (sign.apply k * 2 ^ f) := by
    subst same
    cases sign with
    | positive => simpa [Sign.apply] using nearest
    | negative => simpa [Sign.apply] using nearest.neg
  rcases Nat.eq_zero_or_pos (whole m >>> count).roundedMantissa with none | some
  · rw [roundWithAccuracy_eq_zero sign target none]
    rw [none, Nat.cast_zero, zero_mul] at nearest
    have zero := @signed 0 0 0 nearest (by simp)
    refine ⟨trivial, ?_⟩
    cases sign <;> simpa [Sign.apply, value] using zero
  · obtain ⟨m', e', hm', rounded, short, low, normal, own⟩ :=
      roundWithAccuracy_eq sign positive target some
    rw [rounded]
    refine ⟨⟨short, low, normal⟩, signed nearest ?_⟩
    rcases own with ⟨rfl, rfl⟩ | ⟨full, rfl, rfl⟩
    · rfl
    · rw [full, two_zpow_add (e + count) 1]
      push_cast
      ring

theorem rounds_roundWithAccuracy (sign : Sign) {m : Nat} {e : Int} (positive : 0 < m)
    (fine : e ≤ max (m.log2 + e - 23) (-149)) :
    Rounds (roundWithAccuracy Format.binary32 sign m e .exact) (sign.apply m * 2 ^ e) := by
  obtain ⟨count, target⟩ := Int.le.dest fine
  have rounds := rounds_of_nearest sign positive target.symm (nearest_shift positive target.symm)
  have same : (sign.apply 1 * (m * 2 ^ e) : ℚ) = sign.apply m * 2 ^ e := by
    cases sign <;> simp [Sign.apply]
  rwa [same] at rounds

theorem apply_shiftLeft (sign : Sign) (m count : Nat) (e : ℤ) :
    (sign.apply (m <<< count : Nat) : ℚ) * 2 ^ (e - count) = sign.apply m * 2 ^ e := by
  have power : (2 : ℚ) ^ e = 2 ^ count * 2 ^ (e - count) := by
    rw [← zpow_natCast, ← two_zpow_add, add_sub_cancel]
  rw [Nat.shiftLeft_eq, power]
  cases sign <;> (simp only [Sign.apply]; push_cast; ring)

theorem rounds_round (sign : Sign) {m : Nat} (e : Int) (positive : 0 < m) :
    Rounds (round Format.binary32 sign m e) (sign.apply m * 2 ^ e) := by
  unfold UnpackedFloat.round
  simp only [targetExponent_eq, decreaseExponent]
  generalize goal : max (m.log2 + e - 23) (-149) = t
  have longer : 0 < m <<< (e - t).toNat := by
    rw [Nat.shiftLeft_eq]
    exact Nat.mul_pos positive (Nat.two_pow_pos _)
  rw [← apply_shiftLeft sign m (e - t).toNat e]
  refine rounds_roundWithAccuracy sign longer ?_
  rw [log2_shiftLeft positive.ne']
  omega

theorem rounds_normalize (k : ℤ) (e : Int) (sign : Sign) :
    Rounds (UnpackedFloat.normalize Format.binary32 k e sign) (k * 2 ^ e) := by
  unfold UnpackedFloat.normalize
  rcases lt_trichotomy k 0 with less | rfl | more
  · have rounds := rounds_round .negative e (m := (-k).toNat) (by omega)
    have size : (Sign.negative.apply (-k).toNat : ℤ) = k := by
      simp only [Sign.apply]
      omega
    rw [compare_lt_iff_lt.mpr less]
    rwa [size] at rounds
  · rw [compare_eq_iff_eq.mpr rfl, Int.cast_zero, zero_mul]
    exact rounds_self trivial
  · have rounds := rounds_round .positive e (m := k.toNat) (by omega)
    have size : (Sign.positive.apply k.toNat : ℤ) = k := by
      simp only [Sign.apply]
      omega
    rw [compare_gt_iff_gt.mpr more]
    rwa [size] at rounds

section Operations

variable {x y : UnpackedFloat}

private theorem shaped_neg (shaped : Shaped x) : Shaped x.neg := by
  cases x <;> exact shaped

theorem apply_neg (sign : Sign) (k : ℤ) : (-sign).apply k = -sign.apply k := by
  cases sign with
  | positive => rfl
  | negative => exact (neg_neg k).symm

theorem value_neg (x : UnpackedFloat) : value x.neg = -value x := by
  cases x with
  | finite s m e hm =>
    change (((-s).apply m : ℤ) : ℚ) * 2 ^ e = -(s.apply m * 2 ^ e)
    rw [apply_neg, Int.cast_neg, neg_mul]
  | _ => exact neg_zero.symm

theorem sub_eq (format : Format) (x y : UnpackedFloat) : sub format x y = add format x y.neg := by
  cases x with
  | finite s m e hm =>
    cases y with
    | finite t n f hn =>
      simp only [sub, add, UnpackedFloat.neg, apply_neg]
      rfl
    | _ => rfl
  | _ => cases y <;> rfl

theorem rounds_add (left : Shaped x) (right : Shaped y) :
    Rounds (add Format.binary32 x y) (value x + value y) := by
  cases x with
  | notANumber => cases left
  | infinity s => cases left
  | zero s =>
    cases y with
    | notANumber => cases right
    | infinity t => cases right
    | zero t =>
      have none : value (.zero s) + value (.zero t) = 0 := add_zero 0
      rw [none]
      cases s <;> cases t <;> exact rounds_self trivial
    | finite t n f hn =>
      have same : value (.zero s) + value (.finite t n f hn) = value (.finite t n f hn) :=
        zero_add _
      rw [same]
      exact rounds_self right
  | finite s m e hm =>
    cases y with
    | notANumber => cases right
    | infinity t => cases right
    | zero t =>
      have same : value (.finite s m e hm) + value (.zero t) = value (.finite s m e hm) :=
        add_zero _
      rw [same]
      exact rounds_self left
    | finite t n f hn =>
      have aligned (sign : Sign) (k : Nat) {g : ℤ} (spare : min e f ≤ g) :
          (sign.apply (k <<< (g - min e f).toNat : Nat) : ℚ) * 2 ^ min e f =
            sign.apply k * 2 ^ g := by
        have lower : g - (g - min e f).toNat = min e f := by omega
        rw [← apply_shiftLeft sign k (g - min e f).toNat g, lower]
      rw [value, value, ← aligned s m (min_le_left e f), ← aligned t n (min_le_right e f),
        ← add_mul, ← Int.cast_add]
      exact rounds_normalize _ _ _

theorem rounds_sub (left : Shaped x) (right : Shaped y) :
    Rounds (sub Format.binary32 x y) (value x - value y) := by
  rw [sub_eq, sub_eq_add_neg, ← value_neg]
  exact rounds_add left (shaped_neg right)

theorem apply_mul (s t : Sign) (m n : Nat) :
    (s * t).apply (m * n : Nat) = s.apply m * t.apply n := by
  cases s <;> cases t <;> simp [Sign.apply]

theorem rounds_mul (left : Shaped x) (right : Shaped y) :
    Rounds (mul Format.binary32 x y) (value x * value y) := by
  cases x with
  | notANumber => cases left
  | infinity s => cases left
  | zero s =>
    have none : value (.zero s) * value y = 0 := zero_mul _
    rw [none]
    cases y with
    | notANumber => cases right
    | infinity t => cases right
    | _ => exact rounds_self trivial
  | finite s m e hm =>
    cases y with
    | notANumber => cases right
    | infinity t => cases right
    | zero t =>
      have none : value (.finite s m e hm) * value (.zero t) = 0 := mul_zero _
      rw [none]
      exact rounds_self trivial
    | finite t n f hn =>
      obtain ⟨-, low, normal⟩ := left
      obtain ⟨-, low', normal'⟩ := right
      have product : value (.finite s m e hm) * value (.finite t n f hn) =
          (s * t).apply (m * n : Nat) * 2 ^ (e + f) := by
        rw [value, value, apply_mul, two_zpow_add, Int.cast_mul]
        ring
      rw [product]
      refine rounds_roundWithAccuracy (s * t) (Nat.mul_pos hm hn) ?_
      -- with a full mantissa the product is long enough, and
      -- without one both exponents are the lowest
      have long : 2 ^ 23 ≤ m * n → 23 ≤ (m * n).log2 := (Nat.le_log2 (Nat.mul_pos hm hn).ne').mpr
      by_cases first : -149 < e
      · have width := long ((normal first).trans (Nat.le_mul_of_pos_right m hn))
        omega
      by_cases second : -149 < f
      · have width := long ((normal' second).trans (Nat.le_mul_of_pos_left n hm))
        omega
      · omega

/-- A whole number is read, with the power 10⁰, as a longer mantissa that is rounded. -/
theorem rounds_ofScientific (n : Nat) :
    Rounds (UnpackedFloat.ofScientific Format.binary32 n 0) n := by
  rcases Nat.eq_zero_or_pos n with rfl | positive
  · exact rounds_self (x := .zero .positive) trivial
  have longer : 0 < n <<< 24 := by
    rw [Nat.shiftLeft_eq]
    exact Nat.mul_pos positive (Nat.two_pow_pos _)
  have same := apply_shiftLeft .positive n 24 0
  rw [zpow_zero, mul_one] at same
  have width := log2_shiftLeft positive.ne' 24
  have rounds := rounds_roundWithAccuracy .positive (e := 0 - (24 : Nat)) longer (by omega)
  rw [same] at rounds
  have read : UnpackedFloat.ofScientific Format.binary32 n 0 =
      roundWithAccuracy Format.binary32 .positive (n <<< 24) (0 - (24 : Nat)) .exact := by
    have power : (0 : Int) ≤ 2 ^ Format.binary32.exponentBits := by decide
    unfold UnpackedFloat.ofScientific
    rw [dif_neg positive.ne', if_neg (by decide), if_neg (by omega), if_pos le_rfl, mul,
      Int.toNat_zero, pow_zero, mul_one]
    rfl
  rw [read]
  exact rounds

end Operations

theorem magnitude_lt {m n : Nat} {e f : ℤ} (short : m < 2 ^ 24) (low : -149 ≤ e)
    (normal : -149 < f → 2 ^ 23 ≤ n) (less : e < f) : (m * 2 ^ e : ℚ) < n * 2 ^ f := by
  have top : (m : ℚ) < 2 ^ (24 : ℤ) := by exact_mod_cast short
  have bottom : (2 : ℚ) ^ (23 : ℤ) ≤ n := by exact_mod_cast normal (by omega)
  calc (m * 2 ^ e : ℚ)
    _ < 2 ^ (24 : ℤ) * 2 ^ e := mul_lt_mul_of_pos_right top (two_zpow_pos e)
    _ ≤ 2 ^ (23 : ℤ) * 2 ^ f := by
      rw [← two_zpow_add, ← two_zpow_add]
      exact zpow_le_zpow_right₀ one_le_two (by omega)
    _ ≤ n * 2 ^ f := mul_le_mul_of_nonneg_right bottom (two_zpow_pos f).le

theorem compare_magnitude {m n : Nat} {e f : ℤ} (short : m < 2 ^ 24) (low : -149 ≤ e)
    (normal : -149 < e → 2 ^ 23 ≤ m) (short' : n < 2 ^ 24) (low' : -149 ≤ f)
    (normal' : -149 < f → 2 ^ 23 ≤ n) :
    (compare e f).then (compare m n) = compare (m * 2 ^ e : ℚ) (n * 2 ^ f) := by
  rcases lt_trichotomy e f with less | rfl | more
  · rw [compare_lt_iff_lt.mpr less, compare_lt_iff_lt.mpr (magnitude_lt short low normal' less)]
    rfl
  · have scaled {m n : Nat} (less : m < n) : (m * 2 ^ e : ℚ) < n * 2 ^ e :=
      mul_lt_mul_of_pos_right (by exact_mod_cast less) (two_zpow_pos e)
    rw [compare_eq_iff_eq.mpr rfl]
    rcases lt_trichotomy m n with less | rfl | more
    · rw [compare_lt_iff_lt.mpr less, compare_lt_iff_lt.mpr (scaled less)]
      rfl
    · rw [compare_eq_iff_eq.mpr rfl, compare_eq_iff_eq.mpr rfl]
      rfl
    · rw [compare_gt_iff_gt.mpr more, compare_gt_iff_gt.mpr (scaled more)]
      rfl
  · rw [compare_gt_iff_gt.mpr more, compare_gt_iff_gt.mpr (magnitude_lt short' low' normal more)]
    rfl

section Order

variable {x y : UnpackedFloat}

theorem value_positive (m : Nat) (e : Int) (hm : 0 < m) :
    value (.finite .positive m e hm) = m * 2 ^ e :=
  rfl

theorem value_negative (m : Nat) (e : Int) (hm : 0 < m) :
    value (.finite .negative m e hm) = -(m * 2 ^ e) := by
  simp [value, Sign.apply]

theorem compare_eq_value (left : Shaped x) (right : Shaped y) :
    x.compare y = some (compare (value x) (value y)) := by
  have above {m : Nat} {e : Int} (hm : 0 < m) : (0 : ℚ) < m * 2 ^ e :=
    mul_pos (Nat.cast_pos.mpr hm) (two_zpow_pos e)
  cases x with
  | notANumber => cases left
  | infinity s => cases left
  | zero s =>
    cases y with
    | notANumber => cases right
    | infinity t => cases right
    | zero t => exact congrArg some (compare_eq_iff_eq.mpr rfl).symm
    | finite t n f hn =>
      cases t with
      | positive => exact congrArg some (compare_lt_iff_lt.mpr (above hn)).symm
      | negative =>
        rw [value_negative]
        exact congrArg some (compare_gt_iff_gt.mpr (neg_lt_zero.mpr (above hn))).symm
  | finite s m e hm =>
    cases y with
    | notANumber => cases right
    | infinity t => cases right
    | zero t =>
      cases s with
      | positive => exact congrArg some (compare_gt_iff_gt.mpr (above hm)).symm
      | negative =>
        rw [value_negative]
        exact congrArg some (compare_lt_iff_lt.mpr (neg_lt_zero.mpr (above hm))).symm
    | finite t n f hn =>
      obtain ⟨short, low, normal⟩ := left
      obtain ⟨short', low', normal'⟩ := right
      cases s with
      | positive =>
        cases t with
        | positive => exact congrArg some (compare_magnitude short low normal short' low' normal')
        | negative =>
          rw [value_negative]
          exact congrArg some (compare_gt_iff_gt.mpr
            ((neg_lt_zero.mpr (above hn)).trans (above hm))).symm
      | negative =>
        cases t with
        | positive =>
          rw [value_negative]
          exact congrArg some (compare_lt_iff_lt.mpr
            ((neg_lt_zero.mpr (above hm)).trans (above hn))).symm
        | negative =>
          have swapped (p q : ℚ) : (compare p q).swap = compare (-p) (-q) := by
            rcases lt_trichotomy p q with less | rfl | more
            · rw [compare_lt_iff_lt.mpr less, compare_gt_iff_gt.mpr (neg_lt_neg less)]
              rfl
            · rw [compare_eq_iff_eq.mpr rfl, compare_eq_iff_eq.mpr rfl]
              rfl
            · rw [compare_gt_iff_gt.mpr more, compare_lt_iff_lt.mpr (neg_lt_neg more)]
              rfl
          rw [value_negative, value_negative, ← swapped,
            ← compare_magnitude short low normal short' low' normal']
          rfl

theorem eq_of_value_eq (left : Shaped x) (right : Shaped y) (same : value x = value y)
    (nonzero : value x ≠ 0) : x = y := by
  have equal := compare_eq_value left right
  rw [compare_eq_iff_eq.mpr same] at equal
  cases x with
  | finite s m e hm =>
    cases y with
    | finite t n f hn =>
      cases s <;> cases t <;> simp [UnpackedFloat.compare, Ordering.then_eq_eq] at equal
      all_goals
        obtain ⟨rfl, rfl⟩ := equal
        rfl
    | zero t => exact absurd same nonzero
    | _ => cases right
  | zero s => exact absurd rfl nonzero
  | _ => cases left

end Order

section Storing

variable {x : UnpackedFloat} {packed : BitVec Format.binary32.numBits}

private theorem shaped_unpack (finite : (unpack Format.binary32 packed).isFinite = true) :
    Shaped (unpack Format.binary32 packed) := by
  cases found : unpack Format.binary32 packed with
  | zero s => trivial
  | finite s m e hm =>
    obtain ⟨short, low, -, normal⟩ := unpack_finite found
    exact ⟨short, low, normal⟩
  | _ =>
    rw [found] at finite
    cases finite

theorem magnitude_small {m : Nat} {e : ℤ} (short : m < 2 ^ 24) (high : e ≤ 104) :
    (m * 2 ^ e : ℚ) < 2 ^ 128 := by
  have top : (m : ℚ) < 2 ^ 24 := by exact_mod_cast short
  calc (m * 2 ^ e : ℚ)
    _ < 2 ^ 24 * 2 ^ e := mul_lt_mul_of_pos_right top (two_zpow_pos e)
    _ ≤ 2 ^ 24 * 2 ^ (104 : ℤ) :=
      mul_le_mul_of_nonneg_left (zpow_le_zpow_right₀ one_le_two high) (by positivity)
    _ = 2 ^ 128 := by norm_num

private theorem abs_value_unpack_lt (packed : BitVec Format.binary32.numBits) :
    |value (unpack Format.binary32 packed)| < 2 ^ 128 := by
  cases found : unpack Format.binary32 packed with
  | finite s m e hm =>
    obtain ⟨short, -, high, -⟩ := unpack_finite found
    rw [abs_value_finite]
    exact magnitude_small short high
  | _ => simp [value]

theorem unpack_pack_zero (sign : Sign) :
    unpack Format.binary32 (pack Format.binary32 (.zero sign)) = .zero sign := by
  cases sign <;> rfl

private theorem unpack_pack_shaped (shaped : Shaped x) :
    |value x| < 2 ^ 128 ∧ unpack Format.binary32 (pack Format.binary32 x) = x ∨
      2 ^ 128 ≤ |value x| ∧ ∃ sign, unpack Format.binary32 (pack Format.binary32 x) =
        .infinity sign := by
  cases x with
  | notANumber => cases shaped
  | infinity s => cases shaped
  | zero s => exact .inl ⟨by simp [value], unpack_pack_zero s⟩
  | finite s m e hm =>
    obtain ⟨short, low, normal⟩ := shaped
    rw [abs_value_finite]
    rcases le_or_gt e 104 with high | large
    · exact .inl ⟨magnitude_small short high, unpack_pack_finite short low high normal⟩
    · refine .inr ⟨?_, s, unpack_pack_large large⟩
      have full : (2 ^ 23 : ℚ) ≤ m := by exact_mod_cast normal (by omega)
      calc (2 ^ 128 : ℚ)
        _ = 2 ^ 23 * 2 ^ (105 : ℤ) := by norm_num
        _ ≤ 2 ^ 23 * 2 ^ e :=
          mul_le_mul_of_nonneg_left (zpow_le_zpow_right₀ one_le_two large) (by positivity)
        _ ≤ m * 2 ^ e := mul_le_mul_of_nonneg_right full (two_zpow_pos e).le

/-- What is stored as a finite number is one, and so are the numbers it comes from. -/
theorem isFinite_of_unpack_pack
    (finite : (unpack Format.binary32 (pack Format.binary32 x)).isFinite = true) :
    x.isFinite = true := by
  cases x with
  | notANumber =>
    have none := @isNaN_unpack_pack Format.binary32 .notANumber
    cases found : unpack Format.binary32 (pack Format.binary32 .notANumber) with
    | notANumber =>
      rw [found] at finite
      cases finite
    | _ =>
      rw [found] at none
      cases none
  | infinity s =>
    have packed : pack Format.binary32 (.infinity s) = packedInfinity Format.binary32 s := rfl
    rw [packed, unpack_packedInfinity] at finite
    cases finite
  | _ => rfl

theorem isFinite_of_add {format : Format} {x y : UnpackedFloat}
    (finite : (add format x y).isFinite = true) : x.isFinite = true ∧ y.isFinite = true := by
  cases x with
  | notANumber => cases finite
  | infinity s =>
    cases y with
    | infinity t =>
      unfold add at finite
      simp only at finite
      split at finite <;> cases finite
    | _ => cases finite
  | _ =>
    cases y with
    | notANumber => cases finite
    | infinity t => cases finite
    | _ => exact ⟨rfl, rfl⟩

theorem isFinite_of_between {x y z : UnpackedFloat} (low : x.isFinite = true)
    (high : z.isFinite = true) (below : x.le y = true) (above : y.le z = true) :
    y.isFinite = true := by
  cases y with
  | notANumber => cases (isNaN_of_le below).2
  | infinity s =>
    cases s with
    | positive => cases z <;> first | cases above | cases high
    | negative => cases x <;> first | cases below | cases low
  | _ => rfl

theorem isFinite_of_mul {format : Format} {x y : UnpackedFloat}
    (finite : (mul format x y).isFinite = true) : x.isFinite = true ∧ y.isFinite = true := by
  cases x <;> cases y <;> first | exact ⟨rfl, rfl⟩ | cases finite

end Storing

end ParticleSystem.Rounding

namespace ParticleSystem.Single

open Float.Model (Format UnpackedFloat)
open Rounding (Fits Nearest Rounds Shaped)

def value (x : Float32) : ℚ := Rounding.value (unpack x)

theorem value_zero : value 0 = 0 := by
  rw [value, unpack_zero]
  rfl

section Finite

variable {x y : Float32}

theorem shaped (finite : x.isFinite = true) : Shaped (unpack x) := Rounding.shaped_unpack finite

theorem fits_value (finite : x.isFinite = true) : Fits (value x) := (shaped finite).fits

theorem abs_value_lt (x : Float32) : |value x| < 2 ^ 128 := Rounding.abs_value_unpack_lt _

theorem le_iff_value (left : x.isFinite = true) (right : y.isFinite = true) :
    x ≤ y ↔ value x ≤ value y := by
  rw [le_iff, UnpackedFloat.le, Rounding.compare_eq_value (shaped left) (shaped right),
    Option.any_some]
  exact Ordering.ne_gt_iff_isLE.symm.trans compare_le_iff_le

theorem lt_iff_value (left : x.isFinite = true) (right : y.isFinite = true) :
    x < y ↔ value x < value y := by
  rw [lt_iff, Rounding.compare_eq_value (shaped left) (shaped right), Option.some_inj,
    compare_lt_iff_lt]
  rfl

theorem value_of_pos (finite : x.isFinite = true) (positive : 0 < value x) :
    ∃ (m : Nat) (e : ℤ), m < 2 ^ 24 ∧ -149 ≤ e ∧ (-149 < e → 2 ^ 23 ≤ m) ∧ value x = m * 2 ^ e := by
  have shaped := shaped finite
  unfold value at *
  cases found : unpack x with
  | finite s m e hm =>
    rw [found] at shaped positive
    obtain ⟨short, low, normal⟩ := shaped
    cases s with
    | positive => exact ⟨m, e, short, low, normal, rfl⟩
    | negative =>
      rw [Rounding.value_negative] at positive
      exact absurd positive (neg_nonpos.mpr
        (mul_nonneg (Nat.cast_nonneg m) (Rounding.two_zpow_pos e).le)).not_gt
  | _ =>
    rw [found] at positive
    cases positive.ne rfl

theorem isFinite_of_between {z : Float32} (low : x.isFinite = true) (high : z.isFinite = true)
    (below : x ≤ y) (above : y ≤ z) : y.isFinite = true :=
  Rounding.isFinite_of_between low high (le_iff.mp below) (le_iff.mp above)

/-- What is added counts by what it stands for, unless that is zero. -/
theorem add_eq_of_value_eq (left : x.isFinite = true) (right : y.isFinite = true)
    (same : value x = value y) (nonzero : value x ≠ 0) (z : Float32) : z + x = z + y := by
  have equal : unpack x = unpack y :=
    Rounding.eq_of_value_eq (shaped left) (shaped right) same nonzero
  have sum (w : Float32) : z + w =
      .ofModel (.pack (.add Format.binary32 (unpack z) (unpack w))) := rfl
  rw [sum, sum, equal]

end Finite

section Results

variable {x y r : Float32} {u : UnpackedFloat} {q : ℚ}

/-- Whether a single is the nearest to a rational, or infinite where that is too large. -/
structure Stores (r : Float32) (q : ℚ) : Prop where
  finite : ∀ low high, Fits low → Fits high → -2 ^ 128 < low → high < 2 ^ 128 → low ≤ q → q ≤ high →
    r.isFinite = true
  nearest : r.isFinite = true → Nearest q (value r)

theorem stores_of_rounds (rounds : Rounds u q)
    (packed : unpack r = UnpackedFloat.unpack Format.binary32
      (UnpackedFloat.pack Format.binary32 u)) :
    Stores r q := by
  have finite : r.isFinite = (unpack r).isFinite := rfl
  rcases Rounding.unpack_pack_shaped rounds.shaped with ⟨-, kept⟩ | ⟨large, sign, infinite⟩
  · have nearest : Nearest q (value r) := by
      rw [value, packed, kept]
      exact rounds.nearest
    refine ⟨fun _ _ _ _ _ _ _ _ => ?_, fun _ => nearest⟩
    rw [finite, packed, kept]
    cases u with
    | notANumber => cases rounds.shaped
    | infinity s => cases rounds.shaped
    | _ => rfl
  · rw [packed, infinite] at finite
    refine ⟨fun low high fits fits' above below lower upper => ?_,
      fun other => by rw [finite] at other; cases other⟩
    have most := (rounds.nearest.le_of_le fits' upper).trans_lt below
    have least := above.trans_le (rounds.nearest.le_of_ge fits lower)
    exact absurd (abs_lt.mpr ⟨least, most⟩) large.not_gt

theorem stores_add (left : x.isFinite = true) (right : y.isFinite = true) :
    Stores (x + y) (value x + value y) :=
  stores_of_rounds (Rounding.rounds_add (shaped left) (shaped right)) rfl

theorem stores_sub (left : x.isFinite = true) (right : y.isFinite = true) :
    Stores (x - y) (value x - value y) :=
  stores_of_rounds (Rounding.rounds_sub (shaped left) (shaped right)) rfl

theorem stores_mul (left : x.isFinite = true) (right : y.isFinite = true) :
    Stores (x * y) (value x * value y) :=
  stores_of_rounds (Rounding.rounds_mul (shaped left) (shaped right)) rfl

theorem isFinite_of_add (finite : (x + y).isFinite = true) :
    x.isFinite = true ∧ y.isFinite = true :=
  Rounding.isFinite_of_add (Rounding.isFinite_of_unpack_pack finite)

theorem isFinite_of_mul (finite : (x * y).isFinite = true) :
    x.isFinite = true ∧ y.isFinite = true :=
  Rounding.isFinite_of_mul (Rounding.isFinite_of_unpack_pack finite)

/-- A result between two finite singles is rounded to one between them. -/
theorem Stores.between (stores : Stores r q) (left : x.isFinite = true) (right : y.isFinite = true)
    (lower : value x ≤ q) (upper : q ≤ value y) :
    r.isFinite = true ∧ value x ≤ value r ∧ value r ≤ value y := by
  have above := (abs_lt.mp (abs_value_lt x)).1
  have below := (abs_lt.mp (abs_value_lt y)).2
  have finite := stores.finite _ _ (fits_value left) (fits_value right) above below lower upper
  have nearest := stores.nearest finite
  exact ⟨finite, nearest.le_of_ge (fits_value left) lower,
    nearest.le_of_le (fits_value right) upper⟩

theorem Stores.eq_of_fits (stores : Stores r q) (fits : Fits q) (small : |q| < 2 ^ 128) :
    r.isFinite = true ∧ value r = q := by
  obtain ⟨above, below⟩ := abs_lt.mp small
  have finite := stores.finite q q fits fits above below le_rfl le_rfl
  exact ⟨finite, (stores.nearest finite).eq_of_fits fits⟩

end Results

private theorem stores_toFloat32 (w : UInt64) : Stores w.toFloat32 w.toNat := by
  have rounds := Rounding.rounds_normalize w.toNat 0 .positive
  rw [zpow_zero, mul_one] at rounds
  exact stores_of_rounds rounds rfl

theorem value_ofNat {n : Nat} (short : n < 2 ^ 24) :
    (Float32.ofNat n).isFinite = true ∧ value (Float32.ofNat n) = n := by
  have fits := Rounding.fits_natCast short
  have small : |(n : ℚ)| < 2 ^ 128 := by
    rw [Nat.abs_cast]
    exact_mod_cast short.trans (by decide)
  suffices stores : Stores (Float32.ofNat n) n from stores.eq_of_fits fits small
  change Stores (Float32.ofScientific n false 0) n
  unfold Float32.ofScientific
  split
  · have word : n.toUInt64.toNat = n := by
      rw [Nat.toUInt64, UInt64.toNat_ofNat', Nat.mod_eq_of_lt (by omega)]
    obtain ⟨finite, own⟩ := (stores_toFloat32 n.toUInt64).eq_of_fits (by rwa [word]) (by rwa [word])
    have unit : value Float32.exactlyRepresentablePowersOfTen[0] = 1 := by
      rw [value, unpack_unit, Rounding.value_positive]
      norm_num
    have stores := stores_mul finite
      (by rfl : (Float32.exactlyRepresentablePowersOfTen[0]).isFinite = true)
    rw [own, word, unit, mul_one] at stores
    exact stores
  · have packed : unpack ⟨Float32.Model.ofScientific n 0⟩ = UnpackedFloat.unpack Format.binary32
        (UnpackedFloat.pack Format.binary32 (UnpackedFloat.ofScientific Format.binary32 n 0)) := rfl
    exact stores_of_rounds (Rounding.rounds_ofScientific n) packed

end ParticleSystem.Single
