import ParticleSystem.Proofs.Scalar.Value

/-!
Quotients and roots of singles. Long division and the whole root leave a rest, of which
only its place against half a unit is kept. That much decides on which side of every
finer boundary the exact result lies, so a quotient is rounded to the nearest single, and
a root lies on its side of every single.
-/

namespace ParticleSystem.Rounding

open Float.Model (Format UnpackedFloat totalExponent)
open Float.Model.UnpackedFloat

/-- What is kept of a rest, in quarters of a unit. -/
def quarters : Accuracy → Nat
  | .exact => 0
  | .inexact .lt => 1
  | .inexact .eq => 2
  | .inexact .gt => 3

/-- A mantissa with a rest is one that is two bits longer and has none. -/
private theorem whole_quarters (m : Nat) (rest : Accuracy) :
    whole (4 * m + quarters rest) >>> 2 = ExtendedMantissa.ofMantissaAndAccuracy m rest := by
  change (whole (4 * m + quarters rest)).shiftRightOne.shiftRightOne = _
  rcases rest with _ | (_ | _ | _) <;>
    simp [quarters, ExtendedMantissa.ofMantissaAndAccuracy, ExtendedMantissa.shiftRightOne] <;>
      omega

theorem quarters_lt (rest : Accuracy) : quarters rest < 4 := by
  rcases rest with _ | (_ | _ | _) <;> decide

private theorem log2_quarters {m : Nat} (positive : 0 < m) (rest : Accuracy) :
    (4 * m + quarters rest).log2 = m.log2 + 2 := by
  have short := quarters_lt rest
  have low := Nat.log2_self_le positive.ne'
  have high := Nat.lt_log2_self (n := m)
  rw [Nat.log2_eq_iff (by omega)]
  rw [Nat.pow_succ] at high
  simp only [Nat.pow_succ]
  omega

section Rest

variable {m count : Nat} {e : Int} (rest : Accuracy)

theorem target_quarters (leading : 0 < m ∨ e ≤ -149)
    (target : max (m.log2 + e - 23) (-149) = e + count) :
    max ((4 * m + quarters rest).log2 + (e - 2) - 23) (-149) = e - 2 + (count + 2 : Nat) := by
  rcases Nat.eq_zero_or_pos m with rfl | positive
  · have low : e ≤ -149 := leading.resolve_left (lt_irrefl 0)
    have short := quarters_lt rest
    have none : (0 : Nat).log2 = 0 := Nat.log2_zero
    have few : (4 * 0 + quarters rest).log2 < 2 := by
      interval_cases quarters rest <;> decide
    omega
  · rw [log2_quarters positive]
    omega

private theorem roundWithAccuracy_quarters (sign : Sign) (leading : 0 < m ∨ e ≤ -149)
    (target : max (m.log2 + e - 23) (-149) = e + count) :
    roundWithAccuracy Format.binary32 sign m e rest =
      roundWithAccuracy Format.binary32 sign (4 * m + quarters rest) (e - 2) .exact := by
  have shift : (e + count - e).toNat = count := by omega
  have short : shiftToTargetExponent Format.binary32 m e rest =
      (ExtendedMantissa.ofMantissaAndAccuracy m rest >>> count, e + count) := by
    rw [shiftToTargetExponent, targetExponent_eq, target, shiftToExponent, shift]
  have long : shiftToTargetExponent Format.binary32 (4 * m + quarters rest) (e - 2) .exact =
      (ExtendedMantissa.ofMantissaAndAccuracy m rest >>> count, e + count) := by
    rw [shiftToTargetExponent_eq _ _ (target_quarters rest leading target), Nat.add_comm count,
      shiftRight_add, whole_quarters]
    congr 1
    omega
  unfold roundWithAccuracy
  rw [short, long]

end Rest

/-- Whether two numbers lie on the same side of every multiple of a power of two. -/
def SameSide (e : ℤ) (p q : ℚ) : Prop :=
  ∀ n : ℤ, (n * 2 ^ e ≤ p ↔ n * 2 ^ e ≤ q) ∧ (p ≤ n * 2 ^ e ↔ q ≤ n * 2 ^ e)

theorem two_zpow_quarter (e : ℤ) : (2 : ℚ) ^ e = 4 * 2 ^ (e - 2) := by
  rw [two_zpow_half e, two_zpow_half (e - 1), sub_sub, one_add_one_eq_two]
  ring

private theorem sameSide_of_quarters {e : ℤ} {k : Nat} {p : ℚ}
    (sides : ∀ n : ℤ, (2 * n ≤ k ↔ 2 * (n : ℚ) ≤ p) ∧ (k ≤ 2 * n ↔ p ≤ 2 * (n : ℚ))) :
    SameSide (e - 1) (k * 2 ^ (e - 2)) (p * 2 ^ (e - 2)) := by
  intro n
  have half : (n : ℚ) * 2 ^ (e - 1) = 2 * n * 2 ^ (e - 2) := by
    rw [two_zpow_half (e - 1), sub_sub, one_add_one_eq_two]
    ring
  have unit := two_zpow_pos (e - 2)
  obtain ⟨below, above⟩ := sides n
  rw [half, mul_le_mul_iff_left₀ unit, mul_le_mul_iff_left₀ unit, mul_le_mul_iff_left₀ unit,
    mul_le_mul_iff_left₀ unit, ← below, ← above]
  exact ⟨by exact_mod_cast Iff.rfl, by exact_mod_cast Iff.rfl⟩

namespace SameSide

variable {e f : ℤ} {p q : ℚ}

private theorem coarser (same : SameSide e p q) (above : e ≤ f) : SameSide f p q := by
  intro n
  rw [zpow_multiple n above]
  exact same _

theorem close {k : ℤ} (same : SameSide (e - 1) p q) (close : 2 * |k * 2 ^ e - p| ≤ 2 ^ e) :
    2 * |k * 2 ^ e - q| ≤ 2 ^ e := by
  have within (r : ℚ) : 2 * |k * 2 ^ e - r| ≤ 2 ^ e ↔
      (2 * k - 1 : ℤ) * 2 ^ (e - 1) ≤ r ∧ r ≤ (2 * k + 1 : ℤ) * 2 ^ (e - 1) := by
    rw [two_zpow_half e, ← abs_two, ← abs_mul, abs_le, abs_two]
    push_cast
    constructor <;> rintro ⟨low, high⟩ <;> constructor <;> linarith
  rw [within] at close ⊢
  exact ⟨(same _).1.mp close.1, (same _).2.mp close.2⟩

end SameSide

/-- Rounding with a rest is right for all that the rest does not tell apart. -/
theorem rounds_of_sameSide (sign : Sign) {m : Nat} {e : Int} {rest : Accuracy} {q : ℚ}
    (positive : 0 < 4 * m + quarters rest) (leading : 0 < m ∨ e ≤ -149)
    (fine : e ≤ max (m.log2 + e - 23) (-149))
    (same : SameSide (e - 1) ((4 * m + quarters rest : Nat) * 2 ^ (e - 2)) q) :
    Rounds (roundWithAccuracy Format.binary32 sign m e rest) (sign.apply 1 * q) := by
  obtain ⟨count, target⟩ := Int.le.dest fine
  have longer := target_quarters rest leading target.symm
  rw [roundWithAccuracy_quarters rest sign leading target.symm]
  have boundary : SameSide (e - 2 + (count + 2 : Nat) - 1)
      ((4 * m + quarters rest : Nat) * 2 ^ (e - 2)) q :=
    same.coarser (by omega)
  apply rounds_of_nearest sign positive longer
  apply nearest_of_close positive longer (boundary.close (shift_close _ _ _))
  intro above
  have reached := leading_le positive longer above
  have unit : (2 : ℚ) ^ (23 + (e - 2 + (count + 2 : Nat))) =
      (2 ^ 24 : ℤ) * 2 ^ (e - 2 + (count + 2 : Nat) - 1) := by
    have exponent : 23 + (e - 2 + (count + 2 : Nat)) =
        (24 : ℕ) + (e - 2 + (count + 2 : Nat) - 1) := by
      push_cast
      ring
    rw [exponent, two_zpow_add, zpow_natCast]
    push_cast
    rfl
  rw [unit] at reached ⊢
  exact (boundary _).1.mp reached

/-- The rest of a division tells where it lies against half of the divisor. -/
theorem quarters_accuracyOfFraction {rem b : Nat} (proper : rem < b) (k : ℤ) :
    (2 * k ≤ quarters (accuracyOfFraction rem b) ↔ k * b ≤ 2 * rem) ∧
      (quarters (accuracyOfFraction rem b) ≤ 2 * k ↔ 2 * rem ≤ k * b) := by
  have placed : quarters (accuracyOfFraction rem b) = 0 ∧ rem = 0 ∨
      quarters (accuracyOfFraction rem b) = 1 ∧ 0 < rem ∧ 2 * rem < b ∨
      quarters (accuracyOfFraction rem b) = 2 ∧ 2 * rem = b ∨
      quarters (accuracyOfFraction rem b) = 3 ∧ b < 2 * rem := by
    unfold accuracyOfFraction
    rcases Nat.eq_zero_or_pos rem with rfl | some
    · exact .inl ⟨rfl, rfl⟩
    · rw [if_neg some.ne']
      rcases lt_trichotomy (2 * rem) b with less | same | more
      · exact .inr (.inl ⟨by rw [compare_lt_iff_lt.mpr less]; rfl, some, less⟩)
      · exact .inr (.inr (.inl ⟨by rw [compare_eq_iff_eq.mpr same]; rfl, same⟩))
      · exact .inr (.inr (.inr ⟨by rw [compare_gt_iff_gt.mpr more]; rfl, more⟩))
  generalize quarters (accuracyOfFraction rem b) = rest at *
  -- half units below the quotient and two above it are clear; the
  -- one between them is what the rest tells
  rcases lt_trichotomy k 1 with below | rfl | above
  · have low : k * b ≤ 0 := mul_nonpos_of_nonpos_of_nonneg (by omega) (Int.natCast_nonneg b)
    rcases eq_or_lt_of_le (by omega : k ≤ 0) with rfl | negative
    · omega
    · have less : k * b < 0 := mul_neg_of_neg_of_pos negative (by omega)
      omega
  · omega
  · have high : 2 * (b : ℤ) ≤ k * b := mul_le_mul_of_nonneg_right (by omega) (Int.natCast_nonneg b)
    omega

private theorem sameSide_quotient (a : Nat) {b : Nat} (positive : 0 < b) (e : ℤ) :
    SameSide (e - 1) ((4 * (a / b) + quarters (accuracyOfFraction (a % b) b) : Nat) * 2 ^ (e - 2))
      (a / b * 2 ^ e) := by
  have divisor : (0 : ℚ) < b := by exact_mod_cast positive
  have quotient : (a / b * 2 ^ e : ℚ) = 4 * a / b * 2 ^ (e - 2) := by
    rw [two_zpow_quarter e]
    ring
  have parts : (a : ℤ) = b * (a / b : Nat) + (a % b : Nat) := by
    exact_mod_cast (Nat.div_add_mod a b).symm
  rw [quotient]
  refine sameSide_of_quarters fun n => ?_
  obtain ⟨below, above⟩ :=
    quarters_accuracyOfFraction (Nat.mod_lt a positive) (n - 2 * (a / b : Nat))
  have expand : (n - 2 * (a / b : Nat)) * (b : ℤ) = n * b - 2 * (b * (a / b : Nat)) := by ring
  rw [expand] at below above
  rw [le_div_iff₀ divisor, div_le_iff₀ divisor]
  constructor
  · have whole : (2 * n * b : ℚ) ≤ 4 * a ↔ n * b ≤ 2 * (a : ℤ) := by
      rw [← Int.cast_le (R := ℚ)]
      push_cast
      constructor <;> intro side <;> linarith
    rw [whole]
    omega
  · have whole : (4 * a : ℚ) ≤ 2 * n * b ↔ 2 * (a : ℤ) ≤ n * b := by
      rw [← Int.cast_le (R := ℚ)]
      push_cast
      constructor <;> intro side <;> linarith
    rw [whole]
    omega

theorem apply_div (s t : Sign) : (s / t).apply 1 = s.apply 1 * t.apply 1 := by
  cases s <;> cases t <;> rfl

theorem value_finite (sign : Sign) (m : Nat) (e : Int) (hm : 0 < m) :
    value (.finite sign m e hm) = sign.apply 1 * (m * 2 ^ e) := by
  cases sign <;> simp [value, Sign.apply]

private theorem log2_le_log2_div {a b : Nat} (dividend : 0 < a) (divisor : 0 < b) :
    a.log2 ≤ (a / b).log2 + b.log2 + 1 := by
  have quotient : a / b + 1 ≤ 2 ^ ((a / b).log2 + 1) := Nat.lt_log2_self
  have bound : a < 2 ^ ((a / b).log2 + 1 + (b.log2 + 1)) := by
    calc a
      _ < b * (a / b + 1) := Nat.lt_mul_div_succ a divisor
      _ ≤ 2 ^ (b.log2 + 1) * 2 ^ ((a / b).log2 + 1) := Nat.mul_le_mul Nat.lt_log2_self.le quotient
      _ = 2 ^ ((a / b).log2 + 1 + (b.log2 + 1)) := by rw [← Nat.pow_add, Nat.add_comm]
  have top := (Nat.log2_lt dividend.ne').mpr bound
  omega

private theorem rounds_divCore (sign : Sign) {m n : Nat} (e f : Int) (dividend : 0 < m)
    (divisor : 0 < n) : let core := divCore Format.binary32 m e n f
    Rounds (roundWithAccuracy Format.binary32 sign core.1 core.2.1 core.2.2)
      (sign.apply 1 * (m * 2 ^ e / (n * 2 ^ f))) := by
  have wanted : Format.binary32.targetExponent (totalExponent m e - totalExponent n f) =
      max ((m.log2 : Int) - n.log2 + (e - f) - 24) (-149) := by
    simp only [Format.targetExponent, totalExponent]
    have width : (Format.binary32.mantissaBits : Int) = 24 := rfl
    have lowest : Format.binary32.minExponent = -149 := rfl
    rw [width, lowest]
    omega
  simp only [divCore, wanted]
  generalize target : min (e - f) (max ((m.log2 : Int) - n.log2 + (e - f) - 24) (-149)) = g
  generalize spare : (e - f - g).toNat = shift
  have longer : 0 < m <<< shift := by
    rw [Nat.shiftLeft_eq]
    exact Nat.mul_pos dividend (Nat.two_pow_pos _)
  have quotient : (m * 2 ^ e / (n * 2 ^ f) : ℚ) = (m <<< shift : Nat) / n * 2 ^ g := by
    have exponent : e = shift + g + f := by omega
    rw [exponent, two_zpow_add, two_zpow_add, zpow_natCast, Nat.shiftLeft_eq]
    have unit := (two_zpow_pos f).ne'
    push_cast
    field_simp
  have width := log2_shiftLeft dividend.ne' shift
  have long := log2_le_log2_div longer divisor
  rw [quotient]
  apply rounds_of_sameSide sign _ _ _ (sameSide_quotient _ divisor g)
  · by_contra none
    have exact := (quarters_accuracyOfFraction (Nat.mod_lt (m <<< shift) divisor) 0).2
    have parts := Nat.div_add_mod (m <<< shift) n
    have zero : m <<< shift / n = 0 := by omega
    rw [zero, mul_zero] at parts
    omega
  · rcases Nat.eq_zero_or_pos (m <<< shift / n) with zero | some
    · have short := log2_mono ((Nat.div_eq_zero_iff_lt divisor).mp zero).le
      omega
    · exact .inl some
  · omega

theorem rounds_div {x y : UnpackedFloat} (left : Shaped x) (right : Shaped y)
    (nonzero : value y ≠ 0) : Rounds (div Format.binary32 x y) (value x / value y) := by
  cases y with
  | notANumber => cases right
  | infinity t => cases right
  | zero t => exact absurd rfl nonzero
  | finite t n f hn =>
    cases x with
    | notANumber => cases left
    | infinity s => cases left
    | zero s =>
      have none : value (.zero s) / value (.finite t n f hn) = 0 := zero_div _
      rw [none]
      exact rounds_self trivial
    | finite s m e hm =>
      have rounds := rounds_divCore (s / t) e f hm hn
      have parts : ((s / t).apply 1 * (m * 2 ^ e / (n * 2 ^ f)) : ℚ) =
          value (.finite s m e hm) / value (.finite t n f hn) := by
        rw [value_finite, value_finite, apply_div, Int.cast_mul]
        cases t <;> simp [Sign.apply] <;> ring
      rw [parts] at rounds
      exact rounds

/-- What is left of a number above the square of its whole root, against half a unit. -/
def rootRest (k : Nat) : Accuracy :=
  if k - k.sqrt * k.sqrt = 0 then .exact
  else .inexact (if k - k.sqrt * k.sqrt ≤ k.sqrt then .lt else .gt)

private theorem quarters_rootRest (k n : Nat) :
    (2 * n ≤ 4 * k.sqrt + quarters (rootRest k) ↔ n ^ 2 ≤ 4 * k) ∧
      (4 * k.sqrt + quarters (rootRest k) ≤ 2 * n ↔ 4 * k ≤ n ^ 2) := by
  have least := k.sqrt_le
  have most := k.sqrt_le_add
  unfold rootRest
  generalize root : k.sqrt = r at *
  obtain ⟨rem, rfl⟩ := Nat.le.dest least
  rw [Nat.add_sub_cancel_left]
  have placed : rem = 0 ∧
    quarters (if rem = 0 then .exact else .inexact (if rem ≤ r then .lt else .gt)) = 0 ∨
      0 < rem ∧ rem ≤ r ∧ quarters
        (if rem = 0 then .exact else .inexact (if rem ≤ r then .lt else .gt)) = 1 ∨
      r < rem ∧
        quarters (if rem = 0 then .exact else .inexact (if rem ≤ r then .lt else .gt)) = 3 := by
    split
    · exact .inl ⟨‹_›, rfl⟩
    · split
      · exact .inr (.inl ⟨by omega, ‹_›, rfl⟩)
      · exact .inr (.inr ⟨by omega, rfl⟩)
  generalize quarters (if rem = 0 then .exact else .inexact (if rem ≤ r then .lt else .gt)) =
    rest at *
  -- the half units at and next to the whole root are decided by the rest, all others are clear
  rcases lt_or_ge n (2 * r) with below | above
  · have short : n ^ 2 < 4 * (r * r) := by nlinarith
    omega
  · obtain ⟨more, rfl⟩ := Nat.le.dest above
    have square : (2 * r + more) ^ 2 = 4 * (r * r) + 4 * (r * more) + more * more := by ring
    rw [square]
    rcases more with _ | _ | more
    · omega
    · omega
    · have long : 2 * r ≤ r * (more + 1 + 1) := by nlinarith
      have rest : 4 ≤ (more + 1 + 1) * (more + 1 + 1) := by nlinarith
      omega

/-- A single is a multiple of a unit, or smaller than all that have
their leading bit 23 places above it. -/
private theorem Fits.multiple_or_small {g : ℚ} (fits : Fits g) (t : ℤ) :
    (∃ n : ℤ, g = n * 2 ^ t) ∨ -149 < t ∧ g < 2 ^ (23 + t) := by
  obtain ⟨k, f, short, low, rfl⟩ := fits
  rcases le_or_gt t f with coarse | fine
  · exact .inl ⟨_, zpow_multiple k coarse⟩
  · refine .inr ⟨by omega, ?_⟩
    have bound : (k : ℚ) < 2 ^ (24 : ℤ) := by exact_mod_cast (le_abs_self k).trans_lt short
    calc (k : ℚ) * 2 ^ f
      _ < 2 ^ (24 : ℤ) * 2 ^ f := mul_lt_mul_of_pos_right bound (two_zpow_pos f)
      _ ≤ 2 ^ (23 + t) := by
        rw [← two_zpow_add]
        exact zpow_le_zpow_right₀ one_le_two (by omega)

/-- Whether a number lies on the same side of every single as the root of another one. -/
def RootSide (p x : ℚ) : Prop := ∀ g, Fits g → 0 ≤ g → (g ≤ p ↔ g ^ 2 ≤ x) ∧ (p ≤ g ↔ x ≤ g ^ 2)

/-- The whole root of a mantissa and its rest stand for the root. -/
private theorem rootSide_quarters {k : Nat} {e t : ℤ} (finer : e ≤ t)
    (leading : -149 < t → (2 : ℚ) ^ (23 + t) ≤ k.sqrt * 2 ^ e) :
    RootSide ((4 * k.sqrt + quarters (rootRest k) : Nat) * 2 ^ (e - 2)) (k * (2 ^ e) ^ 2) := by
  have unit := two_zpow_pos (e - 2)
  have full := two_zpow_quarter e
  have multiple {g : ℚ} (nonneg : 0 ≤ g) {n : ℤ} (own : g = n * 2 ^ t) :
      (g ≤ (4 * k.sqrt + quarters (rootRest k) : Nat) * 2 ^ (e - 2) ↔ g ^ 2 ≤ k * (2 ^ e) ^ 2) ∧
        ((4 * k.sqrt + quarters (rootRest k) : Nat) * 2 ^ (e - 2) ≤ g ↔
          k * (2 ^ e) ^ 2 ≤ g ^ 2) := by
    have natural : 0 ≤ n := by
      have sign : (0 : ℚ) ≤ n := nonneg_of_mul_nonneg_left (own ▸ nonneg) (two_zpow_pos t)
      exact_mod_cast sign
    obtain ⟨count, rfl⟩ := Int.eq_ofNat_of_zero_le natural
    have halves : g = (2 * (2 * (count * 2 ^ (t - e).toNat)) : Nat) * 2 ^ (e - 2) := by
      have exponent : t = (t - e).toNat + e := by omega
      rw [own]
      conv_lhs => rw [exponent]
      rw [two_zpow_add, zpow_natCast, full]
      push_cast
      ring
    generalize 2 * (count * 2 ^ (t - e).toNat) = half at halves
    have square : g ^ 2 = (4 * half ^ 2 : Nat) * (2 ^ (e - 2)) ^ 2 := by
      rw [halves]
      push_cast
      ring
    have whole : k * ((2 : ℚ) ^ e) ^ 2 = (4 * (4 * k) : Nat) * (2 ^ (e - 2)) ^ 2 := by
      rw [full]
      push_cast
      ring
    obtain ⟨below, above⟩ := quarters_rootRest k half
    rw [square, whole, halves, mul_le_mul_iff_left₀ unit, mul_le_mul_iff_left₀ unit,
      mul_le_mul_iff_left₀ (pow_pos unit 2), mul_le_mul_iff_left₀ (pow_pos unit 2),
      Nat.cast_le, Nat.cast_le, Nat.cast_le, Nat.cast_le, Nat.mul_le_mul_left_iff four_pos,
      Nat.mul_le_mul_left_iff four_pos]
    exact ⟨below, above⟩
  intro g fits nonneg
  rcases fits.multiple_or_small t with ⟨n, own⟩ | ⟨above, small⟩
  · exact multiple nonneg own
  · -- a multiple of the unit lies between the single and the root
    have power : (2 : ℚ) ^ (23 + t) = (2 ^ 23 : ℤ) * 2 ^ t := by
      rw [two_zpow_add]
      norm_num
    have reached : (2 : ℚ) ^ (23 + t) ≤
        (4 * k.sqrt + quarters (rootRest k) : Nat) * 2 ^ (e - 2) := by
      refine (leading above).trans ?_
      rw [full, ← mul_assoc]
      apply mul_le_mul_of_nonneg_right _ unit.le
      push_cast
      linarith [(Nat.cast_nonneg (quarters (rootRest k)) : (0 : ℚ) ≤ _)]
    have between := (multiple (two_zpow_pos _).le power).1.mp reached
    have less : g ^ 2 < (2 ^ (23 + t)) ^ 2 := pow_lt_pow_left₀ small nonneg two_ne_zero
    exact ⟨iff_of_true (small.le.trans reached) (less.le.trans between),
      iff_of_false (small.trans_le reached).not_ge (less.trans_le between).not_ge⟩

private theorem log2_le_log2_sqrt {k : Nat} (positive : 0 < k) : k.log2 ≤ 2 * k.sqrt.log2 + 1 := by
  have bound : k < 2 ^ (2 * (k.sqrt.log2 + 1)) := by
    calc k
      _ < k.sqrt.succ * k.sqrt.succ := Nat.lt_succ_sqrt k
      _ ≤ 2 ^ (k.sqrt.log2 + 1) * 2 ^ (k.sqrt.log2 + 1) :=
        Nat.mul_le_mul Nat.lt_log2_self Nat.lt_log2_self
      _ = 2 ^ (2 * (k.sqrt.log2 + 1)) := by rw [← Nat.pow_add, ← Nat.two_mul]
  have top := (Nat.log2_lt positive.ne').mpr bound
  omega

theorem rounds_sqrt {m : Nat} (e : Int) (hm : 0 < m) :
    ∃ p, RootSide p (m * 2 ^ e) ∧
      Rounds (UnpackedFloat.sqrt Format.binary32 (.finite .positive m e hm)) p := by
  have wanted : Format.binary32.targetExponent ((totalExponent m e + 1).ediv 2) =
      max ((m.log2 + e + 2) / 2 - 24) (-149) := by
    have half : (totalExponent m e + 1).ediv 2 = ((m.log2 + e + 2) / 2 : Int) := by
      have total : totalExponent m e + 1 = m.log2 + e + 2 := by
        rw [totalExponent]
        ring
      rw [total]
      rfl
    rw [half]
    rfl
  have split : e.ediv 2 = e / 2 := rfl
  simp only [UnpackedFloat.sqrt, sqrtCore, wanted, split]
  generalize lower : min (e / 2) (max ((m.log2 + e + 2) / 2 - 24) (-149)) = g
  generalize spare : (e - 2 * g).toNat = shift
  have longer : 0 < m <<< shift := by
    rw [Nat.shiftLeft_eq]
    exact Nat.mul_pos hm (Nat.two_pow_pos _)
  have same : (m * 2 ^ e : ℚ) = (m <<< shift : Nat) * (2 ^ g) ^ 2 := by
    have exponent : e = shift + g + g := by omega
    rw [exponent, two_zpow_add, two_zpow_add, zpow_natCast, Nat.shiftLeft_eq]
    push_cast
    ring
  have width := log2_shiftLeft hm.ne' shift
  have long := log2_le_log2_sqrt longer
  have positive : 0 < (m <<< shift).sqrt := Nat.sqrt_pos.mpr longer
  generalize m <<< shift = k at *
  have fine : g ≤ max (k.sqrt.log2 + g - 23) (-149) := by omega
  obtain ⟨count, target⟩ := Int.le.dest fine
  have rounds := @rounds_of_sameSide .positive k.sqrt g (rootRest k) _ (by omega)
    (.inl positive) fine
    fun _ => ⟨Iff.rfl, Iff.rfl⟩
  have plain (q : ℚ) : (Sign.positive.apply 1 : ℚ) * q = q := by
    rw [Sign.apply, Int.cast_one, one_mul]
  rw [plain] at rounds
  rw [same]
  exact ⟨_, rootSide_quarters (by omega) (leading_le positive target.symm), rounds⟩

end ParticleSystem.Rounding

namespace ParticleSystem.Single

open Rounding (Fits RootSide Shaped)

variable {x y : Float32}

theorem stores_div (left : x.isFinite = true) (right : y.isFinite = true) (nonzero : value y ≠ 0) :
    Stores (x / y) (value x / value y) :=
  stores_of_rounds (Rounding.rounds_div (shaped left) (shaped right) nonzero) rfl

theorem sqrt_side (positive : 0 < value x) : x.sqrt.isFinite = true ∧
    ∀ g, Fits g → 0 ≤ g → (g ^ 2 ≤ value x → g ≤ value x.sqrt) ∧
      (value x ≤ g ^ 2 → value x.sqrt ≤ g) := by
  obtain ⟨p, sides, stores⟩ : ∃ p, RootSide p (value x) ∧ Stores x.sqrt p := by
    cases found : unpack x with
    | finite s m e hm =>
      cases s with
      | positive =>
        obtain ⟨p, sides, rounds⟩ := Rounding.rounds_sqrt e hm
        rw [← found] at rounds
        have own : value x = m * 2 ^ e := by
          rw [value, found]
          rfl
        exact ⟨p, own ▸ sides, stores_of_rounds rounds rfl⟩
      | negative =>
        rw [value, found, Rounding.value_negative] at positive
        exact absurd positive (neg_nonpos.mpr
          (mul_nonneg (Nat.cast_nonneg m) (Rounding.two_zpow_pos e).le)).not_gt
    | _ =>
      rw [value, found] at positive
      cases positive.ne rfl
  have most : Fits (2 ^ 64) := ⟨1, 64, by decide, by decide, by simp⟩
  have small : value x ≤ (2 ^ 64) ^ 2 := by
    rw [← pow_mul]
    exact (abs_lt.mp (abs_value_lt x)).2.le
  have low := (sides 0 Rounding.fits_zero le_rfl).1.mpr
    (by rw [zero_pow two_ne_zero]; exact positive.le)
  have high := (sides _ most (by positivity)).2.mpr small
  have rooted := stores.finite 0 (2 ^ 64) Rounding.fits_zero most (by norm_num)
    (by norm_num) low high
  have nearest := stores.nearest rooted
  refine ⟨rooted, fun g fits nonneg => ⟨fun below => ?_, fun above => ?_⟩⟩
  · exact nearest.le_of_ge fits ((sides g fits nonneg).1.mpr below)
  · exact nearest.le_of_le fits ((sides g fits nonneg).2.mpr above)

end ParticleSystem.Single
