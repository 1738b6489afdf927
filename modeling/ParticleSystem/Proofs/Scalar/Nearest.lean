import ParticleSystem.Proofs.Scalar.Addition

namespace ParticleSystem.Rounding

open Float.Model (Format UnpackedFloat totalExponent)
open Float.Model.UnpackedFloat

/-- Whether a rational is a single, were there no largest one: at most 24 binary places, the last of
them no smaller than the smallest unit. -/
def Fits (q : ℚ) : Prop := ∃ k e : ℤ, |k| < 2 ^ 24 ∧ -149 ≤ e ∧ q = k * 2 ^ e

/-- Whether no single is nearer to a rational. -/
structure Nearest (q r : ℚ) : Prop where
  fits : Fits r
  least : ∀ g, Fits g → |r - q| ≤ |g - q|

theorem fits_neg {q : ℚ} (fits : Fits q) : Fits (-q) := by
  obtain ⟨k, e, short, low, rfl⟩ := fits
  exact ⟨-k, e, by rwa [abs_neg], low, by push_cast; ring⟩

theorem fits_zero : Fits 0 := ⟨0, 0, by decide, by decide, by simp⟩

theorem fits_natCast {n : Nat} (short : n < 2 ^ 24) : Fits n :=
  ⟨n, 0, by rw [Nat.abs_cast]; exact_mod_cast short, by decide, by simp⟩

theorem add_le_of_nearer {q r s : ℚ} (less : s < r) (nearer : |r - q| ≤ |s - q|) :
    r + s ≤ 2 * q := by
  by_contra beyond
  have close : |s - q| < r - q := abs_lt.mpr ⟨by linarith, by linarith⟩
  exact (close.trans_le (le_abs_self _)).not_ge nearer

private theorem le_add_of_nearer {q r s : ℚ} (less : s < r) (nearer : |s - q| ≤ |r - q|) :
    2 * q ≤ r + s := by
  by_contra beyond
  have close : |r - q| < q - s := abs_lt.mpr ⟨by linarith, by linarith⟩
  exact (close.trans_le (neg_sub s q ▸ neg_le_abs _)).not_ge nearer

namespace Nearest

variable {p q r s : ℚ}

theorem neg (nearest : Nearest q r) : Nearest (-q) (-r) where
  fits := fits_neg nearest.fits
  least g fits := by
    have own := nearest.least (-g) (fits_neg fits)
    rw [neg_sub_neg, abs_sub_comm]
    rwa [abs_sub_comm (-g), sub_neg_eq_add, add_comm, ← sub_neg_eq_add] at own

theorem of_fits (fits : Fits q) : Nearest q q := ⟨fits, fun g _ => by simp⟩

theorem eq_of_fits (nearest : Nearest q r) (fits : Fits q) : r = q := by
  have own := nearest.least q fits
  rw [sub_self, abs_zero] at own
  exact sub_eq_zero.mp (abs_nonpos_iff.mp own)

theorem mono (first : Nearest p r) (second : Nearest q s) (less : p < q) : r ≤ s := by
  by_contra crossed
  rw [not_le] at crossed
  have upper := add_le_of_nearer crossed (first.least s second.fits)
  have lower := le_add_of_nearer crossed (second.least r first.fits)
  linarith

theorem le_of_le (nearest : Nearest q r) (fits : Fits s) (below : q ≤ s) : r ≤ s := by
  rcases below.lt_or_eq with less | rfl
  · exact nearest.mono (of_fits fits) less
  · exact (nearest.eq_of_fits fits).le

theorem le_of_ge (nearest : Nearest q r) (fits : Fits s) (above : s ≤ q) : s ≤ r := by
  rcases above.lt_or_eq with less | rfl
  · exact (of_fits fits).mono nearest less
  · exact (nearest.eq_of_fits fits).ge

end Nearest

/-- The residual bits of a shifted mantissa tell whether half a unit or more was
dropped, and whether anything else was. -/
private theorem rank_whole_shiftRight (m count : Nat) :
    rank (whole m >>> count) = 2 * (2 * m / 2 ^ count) + min (2 * m % 2 ^ count) 1 := by
  induction count with
  | zero =>
    change rank (whole m) = _
    simp [rank, ExtendedMantissa.ofMantissaAndAccuracy, Nat.mod_one]
    ring
  | succ count ih =>
    rw [shiftRight_add]
    change rank (whole m >>> count).shiftRightOne = _
    rw [rank_shiftRightOne, ih, Nat.pow_succ, ← Nat.div_div_eq_div_mul, Nat.mod_mul]
    generalize 2 * m / 2 ^ count = high
    generalize low : 2 * m % 2 ^ count = rest
    have one : 0 < 2 ^ count := Nat.two_pow_pos count
    generalize 2 ^ count = unit at one
    rcases Nat.mod_two_eq_zero_or_one high with even | odd
    · rw [even]
      omega
    · rw [odd]
      omega

/-- A rounded mantissa is at most half a unit away. -/
theorem roundedMantissa_close (m count : Nat) :
    2 * m ≤ 2 * (whole m >>> count).roundedMantissa * 2 ^ count + 2 ^ count ∧
      2 * (whole m >>> count).roundedMantissa * 2 ^ count ≤ 2 * m + 2 ^ count := by
  have parts := Nat.div_add_mod (2 * m) (2 ^ count)
  have small := Nat.mod_lt (2 * m) (Nat.two_pow_pos count)
  rw [roundedMantissa_eq, mantissa_eq, rank_whole_shiftRight]
  generalize 2 * m / 2 ^ count = high at *
  generalize 2 * m % 2 ^ count = rest at *
  generalize 2 ^ count = unit at *
  generalize rounded : (2 * high + min rest 1 + 1 + (2 * high + min rest 1) / 4 % 2) / 4 = result
  rcases Nat.even_or_odd' high with ⟨half, rfl | rfl⟩
  · obtain rfl : result = half := by omega
    constructor <;> linarith
  · -- above the middle it goes up, at the middle to the even side
    have either : result = half + 1 ∨ result = half ∧ rest = 0 := by omega
    rcases either with rfl | ⟨rfl, rfl⟩ <;> constructor <;> linarith

theorem near_multiple {unit q : ℚ} {k : ℤ} (positive : 0 < unit) (close : 2 * |k * unit - q| ≤ unit)
    (n : ℤ) : |k * unit - q| ≤ |n * unit - q| := by
  rcases eq_or_ne n k with rfl | other
  · exact le_rfl
  · have apart : (1 : ℚ) ≤ |(n : ℚ) - k| := by exact_mod_cast Int.one_le_abs (sub_ne_zero.mpr other)
    have far : unit ≤ |n * unit - k * unit| := by
      rw [← sub_mul, abs_mul, abs_of_pos positive]
      exact le_mul_of_one_le_left positive.le apart
    have way := abs_sub_le (n * unit) q (k * unit)
    rw [abs_sub_comm q] at way
    linarith

theorem two_zpow_pos (e : ℤ) : (0 : ℚ) < 2 ^ e := zpow_pos two_pos e

theorem two_zpow_add (e f : ℤ) : (2 : ℚ) ^ (e + f) = 2 ^ e * 2 ^ f := zpow_add₀ two_ne_zero e f

theorem two_zpow_half (e : ℤ) : (2 : ℚ) ^ e = 2 ^ (e - 1) * 2 := by
  rw [← zpow_add_one₀ two_ne_zero, sub_add_cancel]

theorem zpow_multiple (n : ℤ) {e f : ℤ} (above : e ≤ f) :
    (n : ℚ) * 2 ^ f = (n * 2 ^ (f - e).toNat : ℤ) * 2 ^ e := by
  have exponent : f = (f - e).toNat + e := by omega
  conv_lhs => rw [exponent]
  rw [two_zpow_add, zpow_natCast]
  push_cast
  ring

theorem shift_close (m count : Nat) (e : Int) :
    2 * |((whole m >>> count).roundedMantissa : ℤ) * 2 ^ (e + count : ℤ) - (m * 2 ^ e : ℚ)| ≤
      2 ^ (e + count : ℤ) := by
  obtain ⟨below, above⟩ := roundedMantissa_close m count
  generalize (whole m >>> count).roundedMantissa = rounded at *
  have scaled : (rounded : ℤ) * 2 ^ (e + count : ℤ) - (m * 2 ^ e : ℚ) =
      (rounded * 2 ^ count - m) * 2 ^ e := by
    rw [two_zpow_add, zpow_natCast]
    push_cast
    ring
  have half : 2 * |(rounded * 2 ^ count - m : ℚ)| ≤ 2 ^ count := by
    have below : (2 * m : ℚ) ≤ 2 * rounded * 2 ^ count + 2 ^ count := by exact_mod_cast below
    have above : (2 * rounded * 2 ^ count : ℚ) ≤ 2 * m + 2 ^ count := by exact_mod_cast above
    rw [← abs_two, ← abs_mul, abs_le, abs_two]
    constructor <;> linarith
  rw [scaled, abs_mul, abs_of_pos (two_zpow_pos e), ← mul_assoc, two_zpow_add, zpow_natCast,
    mul_comm (2 ^ e)]
  exact mul_le_mul_of_nonneg_right half (two_zpow_pos e).le

private theorem le_of_close {k t : ℤ} {q : ℚ} (close : 2 * |k * 2 ^ t - q| ≤ 2 ^ t)
    (high : -149 < t → 2 ^ (23 + t) ≤ q) {g : ℚ} (fits : Fits g) : |k * 2 ^ t - q| ≤ |g - q| := by
  obtain ⟨n, f, short, low, rfl⟩ := fits
  rcases le_or_gt t f with coarse | fine
  · -- the other is a multiple of the same unit
    rw [zpow_multiple n coarse]
    exact near_multiple (two_zpow_pos t) close _
  · -- a multiple of the unit lies between the other and the number
    have top := high (by omega)
    have bottom : (n : ℚ) * 2 ^ f ≤ 2 ^ (23 + t) := by
      have bound : (n : ℚ) ≤ 2 ^ (24 : ℤ) := by exact_mod_cast (le_abs_self n).trans short.le
      calc (n : ℚ) * 2 ^ f
        _ ≤ 2 ^ (24 : ℤ) * 2 ^ f := mul_le_mul_of_nonneg_right bound (two_zpow_pos f).le
        _ ≤ 2 ^ (23 + t) := by
          rw [← two_zpow_add]
          exact zpow_le_zpow_right₀ one_le_two (by omega)
    have between : ((2 ^ 23 : ℤ) : ℚ) * 2 ^ t = 2 ^ (23 + t) := by
      rw [two_zpow_add]
      norm_num
    have nearer := near_multiple (two_zpow_pos t) close (2 ^ 23)
    rw [between, abs_of_nonpos (sub_nonpos.mpr top)] at nearer
    rw [abs_of_nonpos (sub_nonpos.mpr (bottom.trans top))]
    linarith

/-- What a mantissa rounds to at its target is the nearest
single to all that it is close enough to. -/
theorem nearest_of_close {m count : Nat} {e : Int} {q : ℚ} (positive : 0 < m)
    (target : max (m.log2 + e - 23) (-149) = e + count)
    (close : 2 * |((whole m >>> count).roundedMantissa : ℤ) * 2 ^ (e + count : ℤ) - q| ≤
      2 ^ (e + count : ℤ))
    (high : -149 < e + count → 2 ^ (23 + (e + count : ℤ)) ≤ q) :
    Nearest q ((whole m >>> count).roundedMantissa * 2 ^ (e + count : ℤ)) := by
  have low : -149 ≤ e + count := target ▸ le_max_right ..
  obtain ⟨most, -⟩ := roundedMantissa_bounds positive target
  generalize (whole m >>> count).roundedMantissa = rounded at *
  refine ⟨?_, fun g fits => le_of_close close high fits⟩
  rcases most.lt_or_eq with short | rfl
  · exact ⟨rounded, e + count, by rw [Nat.abs_cast]; exact_mod_cast short, low, by simp⟩
  · refine ⟨2 ^ 23, e + count + 1, by decide, by omega, ?_⟩
    rw [two_zpow_add (e + count) 1]
    push_cast
    ring

/-- A number that is shifted to a target above the lowest has its leading bit there. -/
theorem leading_le {m count : Nat} {e : Int} (positive : 0 < m)
    (target : max (m.log2 + e - 23) (-149) = e + count) (above : -149 < e + count) :
    (2 : ℚ) ^ (23 + (e + count : ℤ)) ≤ m * 2 ^ e := by
  have leading : (2 : ℚ) ^ m.log2 ≤ m := by exact_mod_cast Nat.log2_self_le positive.ne'
  have exponent : (23 : ℤ) + (e + count) = m.log2 + e := by omega
  rw [exponent, two_zpow_add, zpow_natCast]
  exact mul_le_mul_of_nonneg_right leading (two_zpow_pos e).le

/-- Shifted to its target, a mantissa rounds to the nearest single. -/
theorem nearest_shift {m count : Nat} {e : Int} (positive : 0 < m)
    (target : max (m.log2 + e - 23) (-149) = e + count) :
    Nearest (m * 2 ^ e) ((whole m >>> count).roundedMantissa * 2 ^ (e + count : ℤ)) :=
  nearest_of_close positive target (shift_close m count e) (leading_le positive target)

theorem Fits.units {q : ℚ} (fits : Fits q) : ∃ n : ℤ, q = n * 2 ^ (-149 : ℤ) := by
  obtain ⟨k, e, -, low, rfl⟩ := fits
  exact ⟨_, zpow_multiple k low⟩

section Difference

variable {a b d s p : ℚ}

/-- Of two singles that are close together the difference is one. -/
theorem Nearest.eq_of_small (nearest : Nearest (b - a) d) (low : Fits a) (high : Fits b)
    (ordered : a ≤ b) (small : d < 2 ^ (-125 : ℤ)) : d = b - a := by
  apply nearest.eq_of_fits
  obtain ⟨m, rfl⟩ := low.units
  obtain ⟨n, rfl⟩ := high.units
  rw [← sub_mul, ← Int.cast_sub] at *
  have smallest : 24 + (-149) = (-125 : ℤ) := by norm_num
  rcases lt_or_ge (n - m) (2 ^ 24) with short | long
  · have nonneg : m ≤ n := by exact_mod_cast le_of_mul_le_mul_right ordered (two_zpow_pos _)
    exact ⟨n - m, -149, abs_lt.mpr ⟨by omega, short⟩, le_rfl, rfl⟩
  · have bottom : (2 : ℚ) ^ (-125 : ℤ) ≤ (n - m : ℤ) * 2 ^ (-149 : ℤ) := by
      rw [← smallest, two_zpow_add]
      exact mul_le_mul_of_nonneg_right (by exact_mod_cast long) (two_zpow_pos _).le
    have fits : Fits (2 ^ (-125 : ℤ)) := ⟨1, -125, by decide, by decide, by simp⟩
    exact absurd small (nearest.le_of_ge fits bottom).not_gt

theorem Nearest.pos_of_lt (nearest : Nearest (b - a) d) (low : Fits a) (high : Fits b)
    (less : a < b) : 0 < d := by
  obtain ⟨m, rfl⟩ := low.units
  obtain ⟨n, rfl⟩ := high.units
  rw [← sub_mul, ← Int.cast_sub] at nearest
  have ordered : m < n := by exact_mod_cast lt_of_mul_lt_mul_right less (two_zpow_pos _).le
  have apart : (1 : ℚ) ≤ (n - m : ℤ) := by exact_mod_cast (by omega : 1 ≤ n - m)
  have fits : Fits (2 ^ (-149 : ℤ)) := ⟨1, -149, by decide, le_rfl, by simp⟩
  exact (two_zpow_pos _).trans_le
    (nearest.le_of_ge fits (le_mul_of_one_le_left (two_zpow_pos _).le apart))

/-- Rounding takes a part of a number with a full mantissa for less than all of it. -/
theorem Nearest.lt_of_part {m : Nat} {e : ℤ} (nearest : Nearest (m * 2 ^ e * s) p)
    (short : m < 2 ^ 24) (full : 2 ^ 23 ≤ m) (above : -149 < e) (part : s ≤ 1 - 1 / 2 ^ 24) :
    p < m * 2 ^ e := by
  have unit := two_zpow_pos e
  have least : (2 ^ 23 : ℚ) ≤ m := by exact_mod_cast full
  have scaled : m * 2 ^ e * s ≤ m * 2 ^ e * (1 - 1 / 2 ^ 24) :=
    mul_le_mul_of_nonneg_left part (by positivity)
  rcases full.lt_or_eq with more | rfl
  · -- the number before is nearer
    by_contra reached
    rw [not_lt] at reached
    have before : Fits ((m - 1) * 2 ^ e) :=
      ⟨m - 1, e, abs_lt.mpr ⟨by omega, by omega⟩, above.le, by push_cast; rfl⟩
    have less : ((m : ℚ) - 1) * 2 ^ e < p := by linarith
    have middle := add_le_of_nearer less (nearest.least _ before)
    have strict : (2 ^ 23 : ℚ) < m := by exact_mod_cast more
    have gap := mul_lt_mul_of_pos_right strict unit
    linarith
  · -- the number before has an exponent one lower, and the part is at most that number
    have before : Fits ((2 ^ 24 - 1) * 2 ^ (e - 1)) :=
      ⟨2 ^ 24 - 1, e - 1, by decide, by omega, by norm_num⟩
    have half := two_zpow_half e
    have own : p ≤ (2 ^ 24 - 1) * 2 ^ (e - 1) := by
      apply nearest.le_of_le before
      push_cast at scaled ⊢
      linarith
    have lower := two_zpow_pos (e - 1)
    push_cast
    linarith

end Difference

end ParticleSystem.Rounding
