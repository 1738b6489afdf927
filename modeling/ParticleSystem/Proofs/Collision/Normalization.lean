import ParticleSystem.Config.Basic
import ParticleSystem.Proofs.Scalar.Magnitude

/-!
Normals in single precision. A vector is brought to unit length by way of the sum of its squares, so
what counts is that this sum is finite: then the result points the same way and is no shorter than a
quarter, and otherwise it is zero. Smallness does no harm, because a normal that is accepted has a
component beyond the tolerance.
-/

namespace ParticleSystem

open Float.Model (Format UnpackedFloat)
open Rounding (isZero fits_two_zpow two_zpow_add two_zpow_lt two_zpow_pos)
open Single (Stores value)

namespace Single

variable {p q r x : Float32}

theorem value_vectorEpsilon : (Scalar.vectorEpsilon : Float32).isFinite = true ∧
    value Scalar.vectorEpsilon = 8796093 * 2 ^ (-43 : ℤ) := by
  have unpacked : unpack Scalar.vectorEpsilon = .finite .positive 8796093 (-43) (by decide) := by
    rfl
  refine ⟨rfl, ?_⟩
  rw [value, unpacked]
  rfl

theorem value_larger (left : p.isFinite = true) (right : q.isFinite = true) :
    (Scalar.larger p q).isFinite = true ∧ value (Scalar.larger p q) = max (value p) (value q) := by
  unfold Scalar.larger
  split
  · rename_i above
    exact ⟨left, (max_eq_left ((lt_iff_value right left).mp above).le).symm⟩
  · rename_i above
    rw [lt_iff_value right left, not_lt] at above
    exact ⟨right, (max_eq_right above).symm⟩

section Sum

variable {e : ℤ} (low : -149 ≤ e) (first : value p ∈ Set.Icc 0 (2 ^ e))
  (second : value q ∈ Set.Icc 0 (2 ^ e))

theorem two_zpow_double (e : ℤ) : (2 : ℚ) ^ (e + 1) = 2 ^ e + 2 ^ e := by
  rw [zpow_add_one₀ two_ne_zero, mul_two]

theorem mem_Icc_double {part : ℚ} (within : part ∈ Set.Icc 0 ((2 : ℚ) ^ e)) :
    part ∈ Set.Icc 0 ((2 : ℚ) ^ (e + 1)) :=
  ⟨within.1, by linarith [within.2, two_zpow_double e, two_zpow_pos e]⟩

include low first second

theorem add_size (finite : (p + q).isFinite = true) :
    value p ≤ value (p + q) ∧ value q ≤ value (p + q) ∧
    value (p + q) ∈ Set.Icc 0 (2 ^ (e + 1)) := by
  obtain ⟨left, right⟩ := isFinite_of_add finite
  have nearest := (stores_add left right).nearest finite
  have most : value p + value q ≤ 2 ^ (e + 1) := by linarith [first.2, second.2, two_zpow_double e]
  exact ⟨nearest.le_of_ge (fits_value left) (by linarith [second.1]),
    nearest.le_of_ge (fits_value right) (by linarith [first.1]),
    nearest.nonneg (add_nonneg first.1 second.1), nearest.le_of_le (fits_two_zpow (by omega)) most⟩

theorem add_finite (high : e < 127) (left : p.isFinite = true) (right : q.isFinite = true) :
    (p + q).isFinite = true := by
  have most : value p + value q ≤ 2 ^ (e + 1) := by linarith [first.2, second.2, two_zpow_double e]
  exact (stores_add left right).finite 0 _ Rounding.fits_zero (fits_two_zpow (by omega))
    (by norm_num)
    (two_zpow_lt (by omega)) (add_nonneg first.1 second.1) most

end Sum

section Three

variable {e : ℤ} (low : -149 ≤ e) (first : value p ∈ Set.Icc 0 (2 ^ e))
  (second : value q ∈ Set.Icc 0 (2 ^ e)) (third : value r ∈ Set.Icc 0 (2 ^ e))

include low first second third

theorem sum_size (finite : (p + q + r).isFinite = true) :
    value p ≤ value (p + q + r) ∧ value q ≤ value (p + q + r) ∧ value r ≤ value (p + q + r) ∧
      value (p + q + r) ≤ 2 ^ (e + 2) := by
  obtain ⟨left, right, pair⟩ := add_size low first second (isFinite_of_add finite).1
  obtain ⟨both, last, whole⟩ := add_size (by omega) pair (mem_Icc_double third) finite
  have next : e + 2 = e + 1 + 1 := by ring
  rw [next]
  exact ⟨left.trans both, right.trans both, last, whole.2⟩

private theorem sum_finite (high : e < 126) (left : p.isFinite = true) (middle : q.isFinite = true)
    (right : r.isFinite = true) : (p + q + r).isFinite = true := by
  have finite := add_finite low first second (by omega) left middle
  exact add_finite (by omega) (add_size low first second finite).2.2 (mem_Icc_double third)
    (by omega) finite right

end Three

section Component

variable {a : ℤ} (finite : x.isFinite = true) (most : |value x| ≤ 2 ^ (a + 1))

include finite most

theorem square_size (low : -74 ≤ a) (square : (x * x).isFinite = true) :
    value (x * x) ∈ Set.Icc 0 (2 ^ (2 * a + 2)) ∧
    (2 ^ a ≤ |value x| → 2 ^ (2 * a) ≤ value (x * x)) := by
  have nearest := (stores_mul finite finite).nearest square
  have power (e : ℤ) : (2 : ℚ) ^ (2 * e) = 2 ^ e * 2 ^ e := by rw [← two_zpow_add, two_mul]
  have next : 2 * a + 2 = 2 * (a + 1) := by ring
  have size := abs_mul_abs_self (value x)
  refine ⟨⟨nearest.nonneg (mul_self_nonneg _), nearest.le_of_le (fits_two_zpow (by omega)) ?_⟩,
    fun least => nearest.le_of_ge (@fits_two_zpow (2 * a) (by omega)) ?_⟩
  · rw [next, power, ← size]
    exact mul_self_le_mul_self (abs_nonneg _) most
  · rw [power, ← size]
    exact mul_self_le_mul_self (two_zpow_pos a).le least

/-- A component over the length. It keeps its sign, grows to two at most, and is a quarter at least
when it is among the largest. -/
theorem scaled_size (number : r.isFinite = true) (least : 2 ^ (-a - 2) ≤ value r)
    (short : value r ≤ 2 ^ (-a)) :
    (x * r).isFinite = true ∧ |value (x * r)| ≤ 2 ∧ 0 ≤ value (x * r) * value x ∧
      (2 ^ a ≤ |value x| → 1 / 4 ≤ |value (x * r)|) := by
  have stores := stores_mul finite number
  have positive := (two_zpow_pos (-a - 2)).trans_le least
  have size : |value x * value r| = |value x| * value r := by rw [abs_mul, abs_of_pos positive]
  have two : (2 : ℚ) = 2 ^ (a + 1) * 2 ^ (-a) := by
    rw [← two_zpow_add]
    norm_num
  have quarter : (1 / 4 : ℚ) = 2 ^ a * 2 ^ (-a - 2) := by
    rw [← two_zpow_add, add_sub, add_neg_cancel, zero_sub]
    norm_num
  have above : |value x * value r| ≤ 2 := by
    rw [size]
    conv_rhs => rw [two]
    exact mul_le_mul most short positive.le (two_zpow_pos _).le
  have fits : Rounding.Fits 2 := Rounding.fits_natCast (by decide : 2 < 2 ^ 24)
  obtain ⟨done, -, high⟩ := stores.size Rounding.fits_zero fits (by norm_num) (abs_nonneg _) above
  refine ⟨done, high, ?_, fun large => ?_⟩
  · rcases eq_or_ne (value x) 0 with none | some
    · rw [none, mul_zero]
    · apply (stores.nearest done).same_sign
      rw [mul_right_comm]
      exact mul_pos (mul_self_pos.mpr some) positive
  · have small : Rounding.Fits (1 / 4) := ⟨1, -2, by decide, by decide, by norm_num⟩
    refine (stores.size small fits (by norm_num) ?_ above).2.1
    rw [size, quarter]
    exact mul_le_mul large least (two_zpow_pos _).le (abs_nonneg _)

end Component

theorem along_size {n : Float32} {a : ℤ} (low : -20 ≤ a) (high : a < 64)
    (finite : x.isFinite = true) (most : |value x| ≤ 2 ^ (a + 1)) (number : n.isFinite = true)
    (short : |value n| ≤ 2) (same : 0 ≤ value n * value x) :
    (n * x).isFinite = true ∧ value (n * x) ∈ Set.Icc 0 (2 ^ (a + 2)) ∧
      (2 ^ a ≤ |value x| → 1 / 4 ≤ |value n| → 2 ^ (a - 2) ≤ value (n * x)) := by
  have stores := stores_mul number finite
  have two : (2 : ℚ) ^ (a + 2) = 2 * 2 ^ (a + 1) := by
    have next : a + 2 = a + 1 + 1 := by ring
    rw [next, zpow_add_one₀ two_ne_zero, mul_comm]
  have quarter : (2 : ℚ) ^ (a - 2) = 1 / 4 * 2 ^ a := by
    rw [sub_eq_add_neg, two_zpow_add, mul_comm]
    norm_num
  have size : |value n * value x| ≤ 2 ^ (a + 2) := by
    rw [abs_mul, two]
    exact mul_le_mul short most (abs_nonneg _) zero_le_two
  obtain ⟨done, -, above⟩ :=
    stores.size Rounding.fits_zero (fits_two_zpow (by omega)) (two_zpow_lt (by omega))
    (abs_nonneg _) size
  have nearest := stores.nearest done
  have own := nearest.nonneg same
  rw [abs_of_nonneg own] at above
  refine ⟨done, ⟨own, above⟩, fun large steep => nearest.le_of_ge (fits_two_zpow (by omega)) ?_⟩
  rw [← abs_of_nonneg same, abs_mul, quarter]
  exact mul_le_mul steep large (two_zpow_pos a).le (abs_nonneg _)

end Single

namespace Vec3

/-- Whether no component is infinite or no number. -/
structure Finite (v : Vec3 Float32) : Prop where
  x : v.x.isFinite = true
  y : v.y.isFinite = true
  z : v.z.isFinite = true

instance (v : Vec3 Float32) : Decidable v.Finite :=
  decidable_of_iff (v.x.isFinite = true ∧ v.y.isFinite = true ∧ v.z.isFinite = true)
    ⟨fun ⟨x, y, z⟩ => ⟨x, y, z⟩, fun ⟨x, y, z⟩ => ⟨x, y, z⟩⟩

/-- Whether all components are finite and the largest is at least
a power of two and at most twice that. -/
structure Spans (v : Vec3 Float32) (a : ℤ) : Prop where
  finite : v.Finite
  x_most : |value v.x| ≤ 2 ^ (a + 1)
  y_most : |value v.y| ≤ 2 ^ (a + 1)
  z_most : |value v.z| ≤ 2 ^ (a + 1)
  reached : 2 ^ a ≤ |value v.x| ∨ 2 ^ a ≤ |value v.y| ∨ 2 ^ a ≤ |value v.z|

/-- Whether all components are zeros. -/
structure Blank (v : Vec3 Float32) : Prop where
  x : isZero (Single.unpack v.x) = true
  y : isZero (Single.unpack v.y) = true
  z : isZero (Single.unpack v.z) = true

variable {v w : Vec3 Float32} {a : ℤ}

theorem nearZero_iff_value (finite : v.Finite) : v.nearZero = true ↔
    |value v.x| ≤ value Scalar.vectorEpsilon ∧ |value v.y| ≤ value Scalar.vectorEpsilon ∧
      |value v.z| ≤ value Scalar.vectorEpsilon := by
  obtain ⟨x_finite, x_value⟩ := Single.abs_value finite.x
  obtain ⟨y_finite, y_value⟩ := Single.abs_value finite.y
  obtain ⟨z_finite, z_value⟩ := Single.abs_value finite.z
  obtain ⟨inner_finite, inner_value⟩ := Single.value_larger y_finite z_finite
  obtain ⟨outer_finite, outer_value⟩ := Single.value_larger x_finite inner_finite
  have compared := Single.le_iff_value outer_finite Single.value_vectorEpsilon.1
  rw [outer_value, inner_value, x_value, y_value, z_value, max_le_iff, max_le_iff] at compared
  rw [nearZero, decide_eq_true_iff]
  exact compared

private theorem exists_spans (finite : v.Finite) (far : v.nearZero = false) :
    ∃ a, -20 ≤ a ∧ v.Spans a := by
  have least : (2 : ℚ) ^ (-20 : ℤ) ≤ value Scalar.vectorEpsilon := by
    rw [Single.value_vectorEpsilon.2]
    norm_num
  have beyond : value Scalar.vectorEpsilon < max |value v.x| (max |value v.y| |value v.z|) := by
    rw [Bool.eq_false_iff, ne_eq, nearZero_iff_value finite] at far
    rw [lt_max_iff, lt_max_iff]
    by_contra none
    simp only [not_or, not_lt] at none
    exact far none
  obtain ⟨a, start, stop⟩ :=
    exists_mem_Ico_zpow ((two_zpow_pos _).trans_le (least.trans beyond.le)) one_lt_two
  have low : (2 : ℚ) ^ (-20 : ℤ) < 2 ^ (a + 1) := least.trans_lt (beyond.trans stop)
  rw [zpow_lt_zpow_iff_right₀ one_lt_two] at low
  rw [max_lt_iff, max_lt_iff] at stop
  rw [le_max_iff, le_max_iff] at start
  exact ⟨a, by omega, finite, stop.1.le, stop.2.1.le, stop.2.2.le, start⟩

section Spans

variable (spans : v.Spans a) (low : -20 ≤ a) (long : (v.dot v).isFinite = true)

include spans low long

theorem Spans.dot_self :
    a < 64 ∧ (2 ^ a) ^ 2 ≤ value (v.dot v) ∧ value (v.dot v) ≤ (2 ^ (a + 2)) ^ 2 := by
  obtain ⟨pair, z_finite⟩ := Single.isFinite_of_add long
  obtain ⟨x_finite, y_finite⟩ := Single.isFinite_of_add pair
  obtain ⟨x_size, x_large⟩ := Single.square_size spans.finite.x spans.x_most (by omega) x_finite
  obtain ⟨y_size, y_large⟩ := Single.square_size spans.finite.y spans.y_most (by omega) y_finite
  obtain ⟨z_size, z_large⟩ := Single.square_size spans.finite.z spans.z_most (by omega) z_finite
  obtain ⟨x_part, y_part, z_part, most⟩ := Single.sum_size (by omega) x_size y_size z_size long
  have power (e : ℤ) : ((2 : ℚ) ^ e) ^ 2 = 2 ^ (2 * e) := by rw [pow_two, ← two_zpow_add, two_mul]
  have least : (2 : ℚ) ^ (2 * a) ≤ value (v.dot v) := by
    rcases spans.reached with large | large | large
    · exact (x_large large).trans x_part
    · exact (y_large large).trans y_part
    · exact (z_large large).trans z_part
  have top : 2 * (a + 2) = 2 * a + 2 + 2 := by ring
  rw [power, power, top]
  refine ⟨?_, least, most⟩
  have bound : (2 : ℚ) ^ (2 * a) < 2 ^ (128 : ℤ) := by
    have size := least.trans_lt (abs_lt.mp (Single.abs_value_lt (v.dot v))).2
    exact_mod_cast size
  rw [zpow_lt_zpow_iff_right₀ one_lt_two] at bound
  omega

theorem Spans.recip_length : (Scalar.recip v.length).isFinite = true ∧
    2 ^ (-a - 2) ≤ value (Scalar.recip v.length) ∧ value (Scalar.recip v.length) ≤ 2 ^ (-a) := by
  obtain ⟨high, least, most⟩ := spans.dot_self low long
  have positive : 0 < value (v.dot v) := (pow_pos (two_zpow_pos a) 2).trans_le least
  obtain ⟨finite, sides⟩ := Single.sqrt_side positive
  have short := (sides _ (@fits_two_zpow a (by omega)) (two_zpow_pos _).le).1 least
  have long := (sides _ (@fits_two_zpow (a + 2) (by omega)) (two_zpow_pos _).le).2 most
  have root := (two_zpow_pos a).trans_le short
  obtain ⟨whole, one⟩ := Single.value_ofNat (by decide : 1 < 2 ^ 24)
  have stores : Stores (Scalar.recip v.length) (1 / value (v.dot v).sqrt) := by
    have stores := Single.stores_div whole finite root.ne'
    rwa [one, Nat.cast_one] at stores
  have below : (2 : ℚ) ^ (-a - 2) ≤ 1 / value (v.dot v).sqrt := by
    have inverse : (2 : ℚ) ^ (-a - 2) = 1 / 2 ^ (a + 2) := by
      rw [one_div, ← zpow_neg, neg_add']
    rw [inverse]
    exact one_div_le_one_div_of_le root long
  have above : 1 / value (v.dot v).sqrt ≤ (2 : ℚ) ^ (-a) := by
    rw [zpow_neg, ← one_div]
    exact one_div_le_one_div_of_le (two_zpow_pos a) short
  have lower := @fits_two_zpow (-a - 2) (by omega)
  have upper := @fits_two_zpow (-a) (by omega)
  have done := stores.finite _ _ lower upper
    ((by norm_num : (-2 ^ 128 : ℚ) < 0).trans (two_zpow_pos _))
    (two_zpow_lt (by omega)) below above
  exact ⟨done, (stores.nearest done).le_of_ge lower below,
    (stores.nearest done).le_of_le upper above⟩

end Spans

/-- Whether all components are finite and one is no smaller than a quarter. -/
structure Steep (n : Vec3 Float32) : Prop where
  finite : n.Finite
  reached : 1 / 4 ≤ |value n.x| ∨ 1 / 4 ≤ |value n.y| ∨ 1 / 4 ≤ |value n.z|

private theorem Steep.not_nearZero (steep : v.Steep) : v.nearZero = false := by
  have tolerance : value Scalar.vectorEpsilon < 1 / 4 := by
    rw [Single.value_vectorEpsilon.2]
    norm_num
  rw [Bool.eq_false_iff, ne_eq, nearZero_iff_value steep.finite]
  rintro ⟨x, y, z⟩
  rcases steep.reached with large | large | large <;> linarith

/-- What has a finite sum of squares keeps its direction when it is brought to unit length. -/
theorem normalize_steep (finite : v.Finite) (far : v.nearZero = false)
    (long : (v.dot v).isFinite = true) : v.normalize.Steep ∧ 0 < v.normalize.dot v := by
  obtain ⟨a, low, spans⟩ := exists_spans finite far
  have high := (spans.dot_self low long).1
  obtain ⟨number, least, short⟩ := spans.recip_length low long
  obtain ⟨x_finite, x_short, x_same, x_steep⟩ :=
    Single.scaled_size spans.finite.x spans.x_most number least short
  obtain ⟨y_finite, y_short, y_same, y_steep⟩ :=
    Single.scaled_size spans.finite.y spans.y_most number least short
  obtain ⟨z_finite, z_short, z_same, z_steep⟩ :=
    Single.scaled_size spans.finite.z spans.z_most number least short
  refine ⟨⟨⟨x_finite, y_finite, z_finite⟩, spans.reached.imp x_steep (Or.imp y_steep z_steep)⟩, ?_⟩
  obtain ⟨x_number, x_size, x_large⟩ :=
    Single.along_size low high spans.finite.x spans.x_most x_finite x_short x_same
  obtain ⟨y_number, y_size, y_large⟩ :=
    Single.along_size low high spans.finite.y spans.y_most y_finite y_short y_same
  obtain ⟨z_number, z_size, z_large⟩ :=
    Single.along_size low high spans.finite.z spans.z_most z_finite z_short z_same
  have sum := Single.sum_finite (by omega) x_size y_size z_size (by omega) x_number
    y_number z_number
  obtain ⟨x_part, y_part, z_part, -⟩ := Single.sum_size (by omega) x_size y_size z_size sum
  have positive : 0 < value (v.normalize.dot v) := by
    refine (two_zpow_pos (a - 2)).trans_le ?_
    rcases spans.reached with large | large | large
    · exact (x_large large (x_steep large)).trans x_part
    · exact (y_large large (y_steep large)).trans y_part
    · exact (z_large large (z_steep large)).trans z_part
  have zero : value 0 < value (v.normalize.dot v) := by rwa [Single.value_zero]
  exact (Single.lt_iff_value rfl sum).mpr zero

/-- What has too large a sum of squares is brought to zero. -/
theorem normalize_blank (finite : v.Finite) (large : (v.dot v).isFinite = false) :
    v.normalize.Blank := by
  have square {x : Float32} (finite : x.isFinite = true) : 0 ≤ x * x :=
    Single.mul_nonneg finite finite (mul_self_nonneg _)
  have nonneg : 0 ≤ v.dot v :=
    MonotoneAdd.add_nonneg (MonotoneAdd.add_nonneg (square finite.x) (square finite.y))
      (square finite.z)
  have root : Single.unpack v.length = .infinity .positive := by
    have packed : Single.unpack v.length =
      UnpackedFloat.unpack Format.binary32 (UnpackedFloat.pack Format.binary32
        (UnpackedFloat.sqrt Format.binary32 (Single.unpack (v.dot v)))) := rfl
    rw [packed, Single.unpack_of_not_finite nonneg large]
    rfl
  obtain ⟨whole, -⟩ := Single.value_ofNat (by decide : 1 < 2 ^ 24)
  have factor : isZero (Single.unpack (Scalar.recip v.length)) = true :=
    Single.isZero_div whole root
  exact ⟨Single.isZero_mul_right finite.x factor, Single.isZero_mul_right finite.y factor,
    Single.isZero_mul_right finite.z factor⟩

theorem Blank.nearZero (blank : v.Blank) : v.nearZero = true := by
  obtain ⟨x_finite, x_zero⟩ := Single.isZero_iff.mp blank.x
  obtain ⟨y_finite, y_zero⟩ := Single.isZero_iff.mp blank.y
  obtain ⟨z_finite, z_zero⟩ := Single.isZero_iff.mp blank.z
  have tolerance : (0 : ℚ) ≤ value Scalar.vectorEpsilon := by
    rw [Single.value_vectorEpsilon.2]
    positivity
  rw [nearZero_iff_value ⟨x_finite, y_finite, z_finite⟩, x_zero, y_zero, z_zero, abs_zero]
  exact ⟨tolerance, tolerance, tolerance⟩

theorem Blank.dot (blank : v.Blank) (finite : w.Finite) : isZero (Single.unpack (v.dot w)) = true :=
  Single.isZero_add
    (Single.isZero_add (Single.isZero_mul_left blank.x finite.x)
      (Single.isZero_mul_left blank.y finite.y))
    (Single.isZero_mul_left blank.z finite.z)

end Vec3

theorem Single.exists_apart {x : Float32} (finite : x.isFinite = true) :
    ∃ y, y.isFinite = true ∧ (y - x).isFinite = true ∧ 1 ≤ |value (y - x)| := by
  have one : Rounding.Fits 1 := Rounding.fits_natCast (by decide : 1 < 2 ^ 24)
  rcases le_or_gt 1 |value x| with far | near
  · have zero : (0 : Float32).isFinite = true := rfl
    have stores := stores_sub zero finite
    rw [value_zero, zero_sub] at stores
    obtain ⟨done, own⟩ := stores.eq_of_fits (Rounding.fits_neg (fits_value finite))
      (by rw [abs_neg]; exact abs_value_lt x)
    exact ⟨0, zero, done, by rwa [own, abs_neg]⟩
  · obtain ⟨two, own⟩ := value_ofNat (by decide : 2 < 2 ^ 24)
    have stores := stores_sub two finite
    rw [own] at stores
    obtain ⟨above, below⟩ := abs_lt.mp near
    have size : |((2 : ℕ) : ℚ) - value x| = 2 - value x := by
      rw [abs_of_pos (by push_cast; linarith)]
      norm_num
    obtain ⟨done, least, -⟩ := stores.size one (Rounding.fits_natCast (by decide : 3 < 2 ^ 24))
      (by norm_num)
      (by rw [size]; linarith) (by rw [size]; push_cast; linarith)
    exact ⟨Float32.ofNat 2, two, done, least⟩

/-- No product of a number of at least a quarter with one of at least one is lost. -/
theorem Single.not_isZero_mul {x y : Float32} (steep : 1 / 4 ≤ |value x|) (apart : 1 ≤ |value y|) :
    isZero (unpack (x * y)) = false := by
  rw [Bool.eq_false_iff]
  intro zero
  obtain ⟨finite, none⟩ := isZero_iff.mp zero
  obtain ⟨left, right⟩ := isFinite_of_mul finite
  have nearest := ((stores_mul left right).nearest finite).abs
  have small : Rounding.Fits (1 / 4) := ⟨1, -2, by decide, by decide, by norm_num⟩
  have size : 1 / 4 ≤ |value x * value y| := by
    rw [abs_mul]
    calc (1 / 4 : ℚ)
      _ = 1 / 4 * 1 := (mul_one _).symm
      _ ≤ |value x| * |value y| := mul_le_mul steep apart zero_le_one (abs_nonneg _)
  have least := nearest.le_of_ge small size
  rw [none, abs_zero] at least
  norm_num at least

namespace Plane

private theorem exists_off {facing : Plane Float32} (steep : facing.normal.Steep)
    (stands : facing.position.Finite) :
    ∃ point, (point - facing.position).Finite ∧ (facing.signedDistance point == 0) = false := by
  have flat {n x : Float32} (number : n.isFinite = true) (finite : x.isFinite = true) :
      isZero (Single.unpack (n * (x - x))) = true :=
    Single.isZero_mul_right number (Single.isZero_sub_self finite)
  have kept {x : Float32} (finite : x.isFinite = true) : (x - x).isFinite = true :=
    (Single.isZero_iff.mp (Single.isZero_sub_self finite)).1
  have off {point : Vec3 Float32}
      (some : ¬isZero (Single.unpack (facing.signedDistance point)) = true) :
      (facing.signedDistance point == 0) = false := by
    rw [Bool.eq_false_iff, ne_eq, Single.beq_zero_iff]
    exact some
  obtain ⟨normal, reached⟩ := steep
  have x_flat := flat normal.x stands.x
  have y_flat := flat normal.y stands.y
  have z_flat := flat normal.z stands.z
  rcases reached with large | large | large
  · obtain ⟨x, -, number, apart⟩ := Single.exists_apart stands.x
    refine ⟨⟨x, facing.position.y, facing.position.z⟩, ⟨number, kept stands.y, kept stands.z⟩,
      off fun zero => ?_⟩
    have pair := (Single.isZero_of_add zero).2.2.mpr z_flat
    have alone := (Single.isZero_of_add pair).2.2.mpr y_flat
    exact absurd alone (Bool.eq_false_iff.mp (Single.not_isZero_mul large apart))
  · obtain ⟨y, -, number, apart⟩ := Single.exists_apart stands.y
    refine ⟨⟨facing.position.x, y, facing.position.z⟩, ⟨kept stands.x, number, kept stands.z⟩,
      off fun zero => ?_⟩
    have pair := (Single.isZero_of_add zero).2.2.mpr z_flat
    have alone := (Single.isZero_of_add pair).2.2.mp x_flat
    exact absurd alone (Bool.eq_false_iff.mp (Single.not_isZero_mul large apart))
  · obtain ⟨z, -, number, apart⟩ := Single.exists_apart stands.z
    refine ⟨⟨facing.position.x, facing.position.y, z⟩, ⟨kept stands.x, kept stands.y, number⟩,
      off fun zero => ?_⟩
    have alone := (Single.isZero_of_add zero).2.2.mp (Single.isZero_add x_flat y_flat)
    exact absurd alone (Bool.eq_false_iff.mp (Single.not_isZero_mul large apart))

/-- Whether a normal can be worked with in place of the one of a plane: it is
not near zero and points the same way. -/
def Replaces (facing plane : Plane Float32) : Prop :=
  facing.normal.nearZero = false ∧ 0 < facing.normal.dot plane.normal

/-- Whether the distance from a plane tells any point from those on it. -/
def Separates (facing : Plane Float32) : Prop :=
  ∃ point, (point - facing.position).Finite ∧ (facing.signedDistance point == 0) = false

variable {plane : Plane Float32}

/-- A plane that is not degenerate is given a normal that does its work exactly when the squares of
its own do not add up to infinity. -/
theorem normalized_iff (finite : plane.normal.Finite) (far : plane.normal.nearZero = false) :
    ∃ facing, plane.normalized = some facing ∧ facing.position = plane.position ∧
      (facing.Replaces plane ↔ (plane.normal.dot plane.normal).isFinite = true) ∧
      (plane.position.Finite →
        (facing.Separates ↔ (plane.normal.dot plane.normal).isFinite = true)) := by
  refine ⟨{ plane with normal := plane.normal.normalize }, by rw [normalized, far]; rfl, rfl, ?_⟩
  cases long : (plane.normal.dot plane.normal).isFinite with
  | true =>
    obtain ⟨steep, ahead⟩ := Vec3.normalize_steep finite far long
    exact ⟨iff_of_true ⟨steep.not_nearZero, ahead⟩ rfl, fun stands =>
      iff_of_true (exists_off steep stands) rfl⟩
  | false =>
    have blank := Vec3.normalize_blank finite long
    refine ⟨iff_of_false ?_ Bool.false_ne_true, fun _ => iff_of_false ?_ Bool.false_ne_true⟩
    · rintro ⟨usable, -⟩
      rw [blank.nearZero] at usable
      cases usable
    · rintro ⟨point, apart, off⟩
      exact absurd (Single.beq_zero_iff.mpr (blank.dot apart)) (Bool.eq_false_iff.mp off)

end Plane

namespace Config

private theorem not_nearZero_of_valid {α : Type} [Scalar α] {c : Config α} {m : Collision α}
    {plane : Plane α} (valid : c.fault? = none) (used : .collision m ∈ c.modules.update)
    (listed : plane ∈ m.planes) : plane.normal.nearZero = false := by
  unfold fault? at valid
  split at valid
  · cases valid
  · split at valid
    · cases valid
    · rw [Option.map_eq_none_iff, List.find?_eq_none] at valid
      have sound := valid _ used
      rw [degenerate, Bool.not_eq_true, List.any_eq_false] at sound
      exact Bool.eq_false_iff.mpr (sound plane listed)

/-- Every plane that a setup without a fault uses is given a normal, which does the work of its own
exactly when the squares of that one do not add up to infinity. -/
theorem planes_usable_iff {c : Config Float32} {m : Collision Float32} {plane : Plane Float32}
    (valid : c.fault? = none) (used : .collision m ∈ c.modules.update) (listed : plane ∈ m.planes)
    (finite : plane.normal.Finite) :
    ∃ facing, plane.normalized = some facing ∧ facing.position = plane.position ∧
      (facing.Replaces plane ↔ (plane.normal.dot plane.normal).isFinite = true) ∧
      (plane.position.Finite →
        (facing.Separates ↔ (plane.normal.dot plane.normal).isFinite = true)) :=
  Plane.normalized_iff finite (not_nearZero_of_valid valid used listed)

/-- A setup with one floor. -/
def floored (floor : Plane Float32) : Config Float32 :=
  { default with modules := .ofModules [] [.collision { Collision.default with plane₁ := floor }] }

theorem planes_usable_iff_slanted :
    (floored ⟨⟨3, 0, 4⟩, .zero⟩).fault? = none ∧ (⟨3, 0, 4⟩ : Vec3 Float32).Finite ∧
      ∃ facing, Plane.normalized ⟨⟨3, 0, 4⟩, .zero⟩ = some facing ∧
        facing.Replaces ⟨⟨3, 0, 4⟩, .zero⟩ := by
  have valid : (floored ⟨⟨3, 0, 4⟩, .zero⟩).fault? = none := by decide +kernel
  have finite : (⟨3, 0, 4⟩ : Vec3 Float32).Finite := by decide +kernel
  obtain ⟨facing, normalized, -, usable, -⟩ :=
    planes_usable_iff valid (List.mem_singleton.mpr rfl) (List.mem_singleton.mpr rfl) finite
  exact ⟨valid, finite, facing, normalized, usable.mpr (by decide +kernel)⟩

/-- A long normal is accepted, and brought to zero. -/
theorem planes_long_normal_lost :
    let floor : Plane Float32 := ⟨⟨1e20, 0, 0⟩, .zero⟩
    (floored floor).fault? = none ∧ floor.normal.Finite ∧ floor.normalized = some ⟨.zero, .zero⟩ ∧
      ¬Plane.Replaces ⟨.zero, .zero⟩ floor ∧ ¬Plane.Separates ⟨.zero, .zero⟩ := by
  intro floor
  have finite : floor.normal.Finite := by decide +kernel
  have lost : floor.normalized = some ⟨.zero, .zero⟩ := by decide +kernel
  have long : (floor.normal.dot floor.normal).isFinite = false := by decide +kernel
  obtain ⟨facing, normalized, -, replaces, separates⟩ :=
    Plane.normalized_iff finite (by decide +kernel)
  rw [lost] at normalized
  cases normalized
  rw [long] at replaces separates
  exact ⟨by decide +kernel, finite, lost, fun usable => Bool.false_ne_true (replaces.mp usable),
    fun usable => Bool.false_ne_true ((separates (by decide +kernel)).mp usable)⟩

end Config

end ParticleSystem
