import ParticleSystem.Proofs.Scalar.Rounding

/-!
Sums of singles that are not negative. As a bit pattern such a single counts the
singles below it, so that the order of singles is that of their bits; a sum is rounded
to the bits nearest to its number of smallest units, and rounding keeps the order. So
sums are monotone, however large their parts.
-/

namespace ParticleSystem.Rounding

open Float.Model (Format UnpackedFloat totalExponent)
open Float.Model.UnpackedFloat

/-- The place of a mantissa with its two residual bits. -/
def rank (m : ExtendedMantissa) : Nat := 4 * m.mantissa + 2 * m.roundBit.toNat + m.stickyBit.toNat

theorem rank_shiftRightOne (m : ExtendedMantissa) :
    rank m.shiftRightOne = 2 * (rank m / 4) + min (rank m % 4) 1 := by
  obtain ⟨mantissa, round, sticky⟩ := m
  have odd : (mantissa % 2 != 0).toNat = mantissa % 2 := by
    rcases Nat.mod_two_eq_zero_or_one mantissa with even | odd <;> simp [*]
  simp only [rank, ExtendedMantissa.shiftRightOne, odd]
  cases round <;> cases sticky <;> simp <;> omega

private theorem rank_shiftRight_mono {m n : ExtendedMantissa} (below : rank m ≤ rank n)
    (count : Nat) : rank (m >>> count) ≤ rank (n >>> count) := by
  change rank (count.repeat ExtendedMantissa.shiftRightOne m) ≤
    rank (count.repeat ExtendedMantissa.shiftRightOne n)
  induction count with
  | zero => exact below
  | succ count ih =>
    rw [Nat.repeat, Nat.repeat, rank_shiftRightOne, rank_shiftRightOne]
    omega

/-- Half a unit is added, a little more where the mantissa is odd, and the rest is dropped. -/
theorem roundedMantissa_eq (m : ExtendedMantissa) :
    m.roundedMantissa = (rank m + 1 + m.mantissa % 2) / 4 := by
  obtain ⟨mantissa, round, sticky⟩ := m
  cases round <;> cases sticky <;>
    simp [rank, ExtendedMantissa.roundedMantissa, ExtendedMantissa.accuracy,
      Accuracy.roundToNearestEven] <;> omega

theorem mantissa_eq (m : ExtendedMantissa) : m.mantissa = rank m / 4 := by
  obtain ⟨mantissa, round, sticky⟩ := m
  cases round <;> cases sticky <;> simp [rank] <;> omega

private theorem roundedMantissa_mono {m n : ExtendedMantissa} (below : rank m ≤ rank n) :
    m.roundedMantissa ≤ n.roundedMantissa := by
  have order := Nat.div_le_div_right (c := 4) below
  rw [roundedMantissa_eq, roundedMantissa_eq, mantissa_eq, mantissa_eq]
  rcases order.lt_or_eq with less | same
  · omega
  · rw [same]
    omega

/-- A mantissa without residual bits. -/
abbrev whole (m : Nat) : ExtendedMantissa := .ofMantissaAndAccuracy m .exact

theorem shiftRight_add (m : ExtendedMantissa) (first second : Nat) :
    m >>> (first + second) = (m >>> first) >>> second := by
  change (first + second).repeat ExtendedMantissa.shiftRightOne m =
    second.repeat ExtendedMantissa.shiftRightOne (first.repeat ExtendedMantissa.shiftRightOne m)
  induction second with
  | zero => rfl
  | succ second ih => rw [Nat.add_succ, Nat.repeat, Nat.repeat, ih]

/-- Bits that were shifted in are shifted out without a trace. -/
theorem whole_shiftLeft_shiftRight (m count : Nat) : whole (m <<< count) >>> count = whole m := by
  induction count with
  | zero => rfl
  | succ count ih =>
    have last : whole (m <<< (count + 1)) >>> 1 = whole (m <<< count) := by
      change ExtendedMantissa.shiftRightOne (whole (m <<< (count + 1))) = _
      rw [Nat.shiftLeft_succ]
      simp [ExtendedMantissa.shiftRightOne, ExtendedMantissa.ofMantissaAndAccuracy]
    rw [Nat.add_comm, shiftRight_add, Nat.add_comm, last, ih]

/-- How many low bits of a number of smallest units a single has no room for. -/
def dropped (units : Nat) : Nat := units.log2 - 23

/-- The bits of the single that is nearest to a number of
smallest units, were there no largest one. -/
def nearestBits (units : Nat) : Nat :=
  (whole units >>> dropped units).roundedMantissa + dropped units * 2 ^ 23

private theorem shifted_lt (units : Nat) : units / 2 ^ dropped units < 2 ^ 24 := by
  rw [Nat.div_lt_iff_lt_mul (Nat.two_pow_pos _), ← Nat.pow_add]
  exact Nat.lt_log2_self.trans_le (Nat.pow_le_pow_right two_pos (by unfold dropped; omega))

theorem le_shifted {units : Nat} (long : 0 < dropped units) :
    2 ^ 23 ≤ units / 2 ^ dropped units := by
  have positive : units ≠ 0 := by
    rintro rfl
    cases long
  have width : 23 + dropped units = units.log2 := by
    unfold dropped at *
    omega
  rw [Nat.le_div_iff_mul_le (Nat.two_pow_pos _), ← Nat.pow_add, width]
  exact Nat.log2_self_le positive

theorem log2_mono {m n : Nat} (below : m ≤ n) : m.log2 ≤ n.log2 := by
  rw [Nat.log2_eq_log_two, Nat.log2_eq_log_two]
  exact Nat.log_mono_right below

private theorem dropped_mono {m n : Nat} (below : m ≤ n) : dropped m ≤ dropped n :=
  Nat.sub_le_sub_right (log2_mono below) 23

theorem nearestBits_mono {m n : Nat} (below : m ≤ n) : nearestBits m ≤ nearestBits n := by
  rcases (dropped_mono below).lt_or_eq with shorter | same
  · -- a longer number rounds to its higher bits at least, a shorter one to a power of two at most
    have most : (whole m >>> dropped m).roundedMantissa ≤ 2 ^ 24 := by
      refine (roundedMantissa_le _).trans ?_
      rw [mantissa_shiftRight]
      exact shifted_lt m
    have least : 2 ^ 23 ≤ (whole n >>> dropped n).roundedMantissa := by
      refine le_trans ?_ (le_roundedMantissa _)
      rw [mantissa_shiftRight]
      exact le_shifted (Nat.zero_lt_of_lt shorter)
    unfold nearestBits
    omega
  · unfold nearestBits
    rw [same]
    have ranks : rank (whole m) ≤ rank (whole n) := Nat.mul_le_mul_left 4 below
    have kept := roundedMantissa_mono (rank_shiftRight_mono ranks (dropped n))
    omega

theorem nearestBits_of_fits {m count : Nat} (short : m < 2 ^ 24) (normal : 0 < count → 2 ^ 23 ≤ m) :
    nearestBits (m <<< count) = m + count * 2 ^ 23 := by
  have shift : dropped (m <<< count) = count := by
    rcases Nat.eq_zero_or_pos count with rfl | shifted
    · have top : m.log2 < 24 := by
        rcases Nat.eq_zero_or_pos m with rfl | positive
        · decide
        · exact (Nat.log2_lt positive.ne').mpr short
      change m.log2 - 23 = 0
      omega
    · have low := normal shifted
      have positive : m ≠ 0 := by omega
      have top : m.log2 = 23 := (Nat.log2_eq_iff positive).mpr ⟨low, short⟩
      rw [dropped, log2_shiftLeft positive, top, Nat.add_sub_cancel_left]
  rw [nearestBits, shift, whole_shiftLeft_shiftRight]
  rfl

/-- Whether it is a number that is not negative, a finite one in the form that is unpacked. -/
def Standard : UnpackedFloat → Prop
  | .notANumber => False
  | .infinity sign => sign = .positive
  | .zero _ => True
  | .finite sign m e _ =>
    sign = .positive ∧ m < 2 ^ 24 ∧ -149 ≤ e ∧ e ≤ 104 ∧ (-149 < e → 2 ^ 23 ≤ m)

/-- How many of the smallest units a finite number is. -/
def units : UnpackedFloat → Nat
  | .finite _ m e _ => m <<< (e + 149).toNat
  | _ => 0

/-- The bits of an infinite single. -/
def infiniteBits : Nat := 255 * 2 ^ 23

/-- The bits of a number that is not negative, but for the sign of a zero. -/
def bits : UnpackedFloat → Nat
  | .finite _ m e _ => m + (e + 149).toNat * 2 ^ 23
  | .infinity _ => infiniteBits
  | _ => 0

theorem toNat_one_append (m : BitVec 23) : (1#1 ++ m).toNat = 2 ^ 23 + m.toNat := by
  rw [BitVec.toNat_append, ← Nat.shiftLeft_add_eq_or_of_lt m.isLt]
  rfl

/-- What is unpacked has a full mantissa, unless its exponent is the lowest. -/
theorem unpack_finite {packed : BitVec Format.binary32.numBits} {sign : Sign} {m : Nat} {e : Int}
    {hm : 0 < m} (found : unpack Format.binary32 packed = .finite sign m e hm) :
    m < 2 ^ 24 ∧ -149 ≤ e ∧ e ≤ 104 ∧ (-149 < e → 2 ^ 23 ≤ m) := by
  have mantissa : (unpackMantissa packed).toNat < 2 ^ 23 := (unpackMantissa packed).isLt
  have exponent : (unpackExponent packed).toNat < 2 ^ 8 := (unpackExponent packed).isLt
  unfold unpack at found
  simp only at found
  split at found
  · split at found <;> cases found
  · rename_i finite
    have notTop : (unpackExponent packed).toNat ≠ 255 := by
      intro top
      exact finite (BitVec.toNat_inj.mp top)
    split at found
    · rename_i bottom
      split at found
      · cases found
      · cases found
        have lowest : (unpackExponent packed).toNat = 0 := congrArg BitVec.toNat bottom
        simp [Format.exponentBias] at *
        omega
    · rename_i normal
      have above : (unpackExponent packed).toNat ≠ 0 :=
        fun zero => normal (BitVec.toNat_inj.mp zero)
      cases found
      rw [toNat_one_append]
      simp only [Format.exponentBias]
      omega

theorem standard_unpack {packed : BitVec Format.binary32.numBits}
    (nonneg : (UnpackedFloat.zero .positive).le (unpack Format.binary32 packed) = true) :
    Standard (unpack Format.binary32 packed) := by
  cases found : unpack Format.binary32 packed with
  | notANumber =>
    rw [found] at nonneg
    cases nonneg
  | infinity s =>
    rw [found] at nonneg
    cases s with
    | negative => cases nonneg
    | positive => rfl
  | zero s => trivial
  | finite s m e hm =>
    rw [found] at nonneg
    cases s with
    | negative => cases nonneg
    | positive => exact ⟨rfl, unpack_finite found⟩

theorem le_iff_bits {x y : UnpackedFloat} (left : Standard x) (right : Standard y) :
    x.le y = true ↔ bits x ≤ bits y := by
  cases x with
  | notANumber => cases left
  | infinity s =>
    cases left
    cases y with
    | notANumber => cases right
    | infinity t =>
      cases right
      simp [UnpackedFloat.le, UnpackedFloat.compare, bits]
      rfl
    | zero t => simp [UnpackedFloat.le, UnpackedFloat.compare, bits, infiniteBits]
    | finite t n f hn =>
      obtain ⟨rfl, short, low, high, normal⟩ := right
      simp [UnpackedFloat.le, UnpackedFloat.compare, bits, infiniteBits]
      omega
  | zero s =>
    cases y with
    | notANumber => cases right
    | infinity t =>
      cases right
      simp [UnpackedFloat.le, UnpackedFloat.compare, bits]
    | zero t => simp [UnpackedFloat.le, UnpackedFloat.compare, bits]
    | finite t n f hn =>
      obtain ⟨rfl, -⟩ := right
      simp [UnpackedFloat.le, UnpackedFloat.compare, bits]
  | finite s m e hm =>
    obtain ⟨rfl, short, low, high, normal⟩ := left
    cases y with
    | notANumber => cases right
    | infinity t =>
      cases right
      simp [UnpackedFloat.le, UnpackedFloat.compare, bits, infiniteBits]
      omega
    | zero t =>
      simp [UnpackedFloat.le, UnpackedFloat.compare, bits]
      omega
    | finite t n f hn =>
      obtain ⟨rfl, short', low', high', normal'⟩ := right
      simp only [UnpackedFloat.le, UnpackedFloat.compare, bits, Option.any_some]
      rcases Int.lt_trichotomy e f with less | rfl | more
      · rw [compare_lt_iff_lt.mpr less]
        simp [Ordering.then]
        omega
      · rw [compare_eq_iff_eq.mpr rfl]
        rw [Nat.add_le_add_iff_right]
        exact Nat.isLE_compare
      · rw [compare_gt_iff_gt.mpr more]
        simp [Ordering.then]
        omega

private theorem units_le_units {x y : UnpackedFloat} (left : Standard x) (right : Standard y)
    (finite : bits y < infiniteBits) (below : bits x ≤ bits y) : units x ≤ units y := by
  cases x with
  | finite s m e hm =>
    cases y with
    | finite t n f hn =>
      obtain ⟨rfl, short, low, high, normal⟩ := left
      obtain ⟨rfl, short', low', high', normal'⟩ := right
      simp only [bits, units, Nat.shiftLeft_eq] at *
      rcases Int.lt_trichotomy e f with less | rfl | more
      · have width : 24 + (e + 149).toNat ≤ 23 + (f + 149).toNat := by omega
        calc m * 2 ^ (e + 149).toNat
          _ ≤ 2 ^ 24 * 2 ^ (e + 149).toNat := Nat.mul_le_mul_right _ short.le
          _ ≤ 2 ^ 23 * 2 ^ (f + 149).toNat := by
            rw [← Nat.pow_add, ← Nat.pow_add]
            exact Nat.pow_le_pow_right two_pos width
          _ ≤ n * 2 ^ (f + 149).toNat := Nat.mul_le_mul_right _ (normal' (by omega))
      · exact Nat.mul_le_mul_right _ (by omega)
      · omega
    | infinity t => exact absurd finite (lt_irrefl _)
    | _ =>
      simp [bits] at below
      omega
  | _ => exact Nat.zero_le _

private theorem nearestBits_units {x : UnpackedFloat} (standard : Standard x)
    (finite : bits x < infiniteBits) : nearestBits (units x) = bits x := by
  cases x with
  | finite s m e hm =>
    obtain ⟨rfl, short, low, high, normal⟩ := standard
    exact nearestBits_of_fits short fun shifted => normal (by omega)
  | infinity t => exact absurd finite (lt_irrefl _)
  | notANumber => cases standard
  | zero s => exact @nearestBits_of_fits 0 0 (by decide) fun shifted => absurd shifted (lt_irrefl _)

private theorem unpack_normal (sign : Sign) {exponent : BitVec 8} (mantissa : BitVec 23)
    (notTop : exponent ≠ -1#8) (notBottom : exponent ≠ 0#8) :
    unpack Format.binary32 (packComponents Format.binary32 sign exponent mantissa) =
      .finite sign (2 ^ 23 + mantissa.toNat) (exponent.toNat - 150) (by omega) := by
  simp only [unpack, unpackMantissa_packComponents, unpackExponent_packComponents,
    unpackSign_packComponents, Sign.ofBitVec_toBitVec, if_neg notTop, if_neg notBottom,
    toNat_one_append]
  rfl

private theorem unpack_subnormal (sign : Sign) {mantissa : BitVec 23} (some : mantissa ≠ 0#23)
    (positive : 0 < mantissa.toNat) :
    unpack Format.binary32 (packComponents Format.binary32 sign 0#8 mantissa) =
      .finite sign mantissa.toNat (-149) positive := by
  have notTop : 0#8 ≠ -1#8 := by decide
  simp only [unpack, unpackMantissa_packComponents, unpackExponent_packComponents,
    unpackSign_packComponents, Sign.ofBitVec_toBitVec, if_neg notTop, if_true, dif_neg some]
  rfl

theorem pack_finite (sign : Sign) {m : Nat} {e : Int} {hm : 0 < m} :
    pack Format.binary32 (.finite sign m e hm) =
      if 256 ≤ (e + 150).toNat + 1 then packedInfinity Format.binary32 sign
      else if m.log2 + 1 = 24 then
        packComponents Format.binary32 sign (BitVec.ofNat 8 (e + 150).toNat) (BitVec.ofNat 23 m)
      else packComponents Format.binary32 sign 0#8 (BitVec.ofNat 23 m) := by
  have biased : (e + (Format.binary32.exponentBias : Int) + (23 : Nat)).toNat =
      (e + 150).toNat := by
    have bias : Format.binary32.exponentBias = 127 := rfl
    omega
  rw [← biased]
  rfl

/-- A number in the form that is unpacked is packed and unpacked again without a change. -/
theorem unpack_pack_finite {sign : Sign} {m : Nat} {e : Int} {hm : 0 < m} (short : m < 2 ^ 24)
    (low : -149 ≤ e) (high : e ≤ 104) (normal : -149 < e → 2 ^ 23 ≤ m) :
    unpack Format.binary32 (pack Format.binary32 (.finite sign m e hm)) = .finite sign m e hm := by
  have top := Nat.log2_lt hm.ne' |>.mpr short
  rw [pack_finite, if_neg (by omega)]
  by_cases full : m.log2 + 1 = 24
  · have least : 2 ^ 23 ≤ m := (Nat.log2_eq_iff hm.ne').mp (Nat.succ.inj full) |>.1
    have notTop : BitVec.ofNat 8 (e + 150).toNat ≠ -1#8 := by
      simp [← BitVec.toNat_inj]
      omega
    have notBottom : BitVec.ofNat 8 (e + 150).toNat ≠ 0#8 := by
      simp [← BitVec.toNat_inj]
      omega
    rw [if_pos full, unpack_normal _ _ notTop notBottom, UnpackedFloat.finite.injEq]
    simp only [BitVec.toNat_ofNat, true_and]
    omega
  · have subnormal : e = -149 := by
      by_contra above
      exact full (congrArg (· + 1) ((Nat.log2_eq_iff hm.ne').mpr ⟨normal (by omega), short⟩))
    have small : m < 2 ^ 23 := (Nat.log2_lt hm.ne').mp (by omega)
    have own : (BitVec.ofNat 23 m).toNat = m := Nat.mod_eq_of_lt small
    have notBlank : BitVec.ofNat 23 m ≠ 0#23 := by
      intro blank
      rw [blank] at own
      exact hm.ne own
    rw [if_neg full, unpack_subnormal _ notBlank (by rwa [own]), UnpackedFloat.finite.injEq]
    exact ⟨rfl, own, subnormal.symm⟩

theorem unpack_pack_standard {x : UnpackedFloat} (standard : Standard x)
    (nonzero : isZero x = false) (finite : bits x < infiniteBits) :
    unpack Format.binary32 (pack Format.binary32 x) = x := by
  cases x with
  | finite s m e hm =>
    obtain ⟨rfl, short, low, high, normal⟩ := standard
    exact unpack_pack_finite short low high normal
  | infinity s => exact absurd finite (lt_irrefl _)
  | notANumber => cases standard
  | zero s => cases nonzero

theorem unpack_packedInfinity (sign : Sign) :
    unpack Format.binary32 (packedInfinity Format.binary32 sign) = .infinity sign := by
  rw [packedInfinity, unpack]
  simp

theorem unpack_pack_large {sign : Sign} {m : Nat} {e : Int} {hm : 0 < m} (large : 104 < e) :
    unpack Format.binary32 (pack Format.binary32 (.finite sign m e hm)) = .infinity sign := by
  rw [pack_finite, if_pos (by omega), unpack_packedInfinity]

theorem targetExponent_eq (m : Nat) (e : Int) :
    Format.binary32.targetExponent (totalExponent m e) = max (m.log2 + e - 23) (-149) := by
  have lowest : Format.binary32.minExponent = -149 := rfl
  have width : Format.binary32.mantissaBits = 24 := rfl
  rw [Format.targetExponent, totalExponent, lowest, width]
  omega

/-- A number with an exponent to spare is shifted to its target. -/
theorem shiftToTargetExponent_eq (m count : Nat) {e : Int}
    (target : max (m.log2 + e - 23) (-149) = e + count) :
    shiftToTargetExponent Format.binary32 m e .exact = (whole m >>> count, e + count) := by
  have shift : (e + count - e).toNat = count := by omega
  rw [shiftToTargetExponent, targetExponent_eq, target, shiftToExponent, shift]

/-- The bounds on the mantissa that is left when a number is shifted to its target. -/
theorem roundedMantissa_bounds {m count : Nat} {e : Int} (positive : 0 < m)
    (target : max (m.log2 + e - 23) (-149) = e + count) :
    (whole m >>> count).roundedMantissa ≤ 2 ^ 24 ∧
      (-149 < e + count → 2 ^ 23 ≤ (whole m >>> count).roundedMantissa) := by
  have most := roundedMantissa_le (whole m >>> count)
  have least := le_roundedMantissa (whole m >>> count)
  rw [mantissa_shiftRight, mantissa_ofMantissaAndAccuracy] at most least
  constructor
  · refine most.trans ?_
    rw [Nat.succ_le_iff, Nat.div_lt_iff_lt_mul (Nat.two_pow_pos _), ← Nat.pow_add]
    exact Nat.lt_log2_self.trans_le (Nat.pow_le_pow_right two_pos (by omega))
  · intro above
    refine le_trans ?_ least
    rw [Nat.le_div_iff_mul_le (Nat.two_pow_pos _), ← Nat.pow_add]
    exact (Nat.pow_le_pow_right two_pos (by omega)).trans (Nat.log2_self_le positive.ne')

/-- What a number with an exponent to spare rounds to, before it is seen to be too large: the
rounded mantissa at the target, or half of it one higher where it has become one too many. -/
theorem roundWithAccuracy_eq (sign : Sign) {m count : Nat} {e : Int} (positive : 0 < m)
    (target : max (m.log2 + e - 23) (-149) = e + count)
    (some : 0 < (whole m >>> count).roundedMantissa) :
    ∃ m' e' hm', roundWithAccuracy Format.binary32 sign m e .exact = .finite sign m' e' hm' ∧
      m' < 2 ^ 24 ∧ -149 ≤ e' ∧ (-149 < e' → 2 ^ 23 ≤ m') ∧
      (m' = (whole m >>> count).roundedMantissa ∧ e' = e + count ∨
        (whole m >>> count).roundedMantissa = 2 ^ 24 ∧ m' = 2 ^ 23 ∧ e' = e + count + 1) := by
  obtain ⟨most, least⟩ := roundedMantissa_bounds positive target
  have low : -149 ≤ e + count := target ▸ le_max_right ..
  unfold roundWithAccuracy
  rw [shiftToTargetExponent_eq m count target]
  simp only
  generalize (whole m >>> count).roundedMantissa = rounded at *
  rcases most.lt_or_eq with short | rfl
  · have top : rounded.log2 < 24 := (Nat.log2_lt some.ne').mpr short
    have full (above : -149 < e + count) : rounded.log2 = 23 :=
      (Nat.log2_eq_iff some.ne').mpr ⟨least above, short⟩
    have second : shiftToTargetExponent Format.binary32 rounded (e + count) .exact =
        (whole rounded, e + count) := by
      rw [@shiftToTargetExponent_eq rounded 0 (e + count) (by omega), Nat.cast_zero, add_zero]
      rfl
    rw [second]
    exact ⟨rounded, e + count, some, dif_neg some.ne', short, low, least, .inl ⟨rfl, rfl⟩⟩
  · have top : (2 ^ 24 : Nat).log2 = 24 := Nat.log2_two_pow
    have second : shiftToTargetExponent Format.binary32 (2 ^ 24) (e + count) .exact =
        (whole (2 ^ 23), e + count + 1) := by
      rw [@shiftToTargetExponent_eq (2 ^ 24) 1 (e + count) (by omega)]
      rfl
    rw [second]
    exact ⟨2 ^ 23, e + count + 1, by decide, rfl, by decide, by omega, fun _ => le_rfl,
      .inr ⟨rfl, rfl, rfl⟩⟩

private theorem roundWithAccuracy_units {count : Nat} (positive : 0 < count) :
    ∃ m e hm, roundWithAccuracy Format.binary32 .positive count (-149) .exact =
      .finite .positive m e hm ∧
      m < 2 ^ 24 ∧ -149 ≤ e ∧ (-149 < e → 2 ^ 23 ≤ m) ∧
      m + (e + 149).toNat * 2 ^ 23 = nearestBits count := by
  have target : max ((count.log2 : Int) + -149 - 23) (-149) = -149 + dropped count := by
    unfold dropped
    omega
  have some : 0 < (whole count >>> dropped count).roundedMantissa := by
    have kept := le_roundedMantissa (whole count >>> dropped count)
    rw [mantissa_shiftRight, mantissa_ofMantissaAndAccuracy] at kept
    rcases Nat.eq_zero_or_pos (dropped count) with none | long
    · rw [none, Nat.pow_zero, Nat.div_one] at kept
      rw [none]
      exact positive.trans_le kept
    · exact (Nat.two_pow_pos 23).trans_le ((le_shifted long).trans kept)
  obtain ⟨m, e, hm, rounded, short, low, normal, own⟩ :=
    roundWithAccuracy_eq .positive positive target some
  refine ⟨m, e, hm, rounded, short, low, normal, ?_⟩
  unfold nearestBits
  omega

private theorem round_eq {m : Nat} {e : Int} (positive : 0 < m) (low : -149 ≤ e) :
    round Format.binary32 .positive m e =
      roundWithAccuracy Format.binary32 .positive (m <<< (e + 149).toNat) (-149) .exact := by
  have target (d : Nat) : max ((m <<< d).log2 + (e - d) - 23) (-149) =
      max (m.log2 + e - 23) (-149) := by
    rw [log2_shiftLeft positive.ne']
    omega
  generalize goal : max (m.log2 + e - 23) (-149) = t at target
  have whole_eq : shiftToTargetExponent Format.binary32 (m <<< (e - t).toNat)
    (e - (e - t).toNat) .exact =
      shiftToTargetExponent Format.binary32 (m <<< (e + 149).toNat) (-149) .exact := by
    have all := target (e + 149).toNat
    rw [show e - (e + 149).toNat = -149 by omega] at all
    rw [shiftToTargetExponent_eq _ (t - (e - (e - t).toNat)).toNat (by rw [target]; omega),
      shiftToTargetExponent_eq _ (t + 149).toNat (by rw [all]; omega), Prod.mk.injEq]
    refine ⟨?_, by omega⟩
    rcases Int.le_total t e with spare | missing
    · have parts : (e + 149).toNat = (e - t).toNat + (t + 149).toNat := by omega
      rw [parts, Nat.shiftLeft_add, whole_shiftLeft_shiftRight,
        show (t - (e - (e - t).toNat)).toNat = 0 by omega]
      rfl
    · have parts : (t + 149).toNat = (e + 149).toNat + (t - e).toNat := by omega
      rw [parts, shiftRight_add, whole_shiftLeft_shiftRight, show (e - t).toNat = 0 by omega]
      simp
  unfold UnpackedFloat.round
  simp only [targetExponent_eq, goal, decreaseExponent]
  unfold roundWithAccuracy
  rw [whole_eq]

/-- What is rounded is packed with its bits, or as an infinite number. -/
theorem bits_unpack_pack {m : Nat} {e : Int} {hm : 0 < m} (short : m < 2 ^ 24) (low : -149 ≤ e)
    (normal : -149 < e → 2 ^ 23 ≤ m) :
    let packed := unpack Format.binary32 (pack Format.binary32 (.finite .positive m e hm))
    Standard packed ∧ bits packed = min (m + (e + 149).toNat * 2 ^ 23) infiniteBits := by
  rcases le_or_gt e 104 with high | large
  · have standard : Standard (.finite .positive m e hm) := ⟨rfl, short, low, high, normal⟩
    rw [unpack_pack_finite short low high normal]
    have finite : m + (e + 149).toNat * 2 ^ 23 ≤ 255 * 2 ^ 23 := by omega
    exact ⟨standard, (min_eq_left finite).symm⟩
  · have full := normal (by omega)
    have beyond : 255 * 2 ^ 23 ≤ m + (e + 149).toNat * 2 ^ 23 := by omega
    rw [unpack_pack_large large]
    exact ⟨rfl, (min_eq_right beyond).symm⟩

theorem add_positive {m n : Nat} {e f : Int} {hm : 0 < m} {hn : 0 < n} (first : -149 ≤ e)
    (second : -149 ≤ f) :
    add Format.binary32 (.finite .positive m e hm) (.finite .positive n f hn) =
      roundWithAccuracy Format.binary32 .positive (m <<< (e + 149).toNat + n <<< (f + 149).toNat)
        (-149) .exact := by
  have low : -149 ≤ min e f := le_min first second
  generalize lower : min e f = g at low
  have total : 0 < m <<< (e - g).toNat + n <<< (f - g).toNat := by
    rw [Nat.shiftLeft_eq]
    exact Nat.add_pos_left (Nat.mul_pos hm (Nat.two_pow_pos _)) _
  have sum : add Format.binary32 (.finite .positive m e hm) (.finite .positive n f hn) =
      normalize Format.binary32 (m <<< (e - g).toNat + n <<< (f - g).toNat : Nat) g .positive := by
    rw [Nat.cast_add, ← lower]
    rfl
  have sorted : compare ((m <<< (e - g).toNat + n <<< (f - g).toNat : Nat) : Int) 0 = .gt :=
    compare_gt_iff_gt.mpr (by exact_mod_cast total)
  have firsts : (e - g).toNat + (g + 149).toNat = (e + 149).toNat := by omega
  have seconds : (f - g).toNat + (g + 149).toNat = (f + 149).toNat := by omega
  rw [sum, UnpackedFloat.normalize, sorted]
  simp only [Int.toNat_natCast]
  rw [round_eq total low, Nat.shiftLeft_eq _ (g + 149).toNat, Nat.add_mul, ← Nat.shiftLeft_eq,
    ← Nat.shiftLeft_eq, ← Nat.shiftLeft_add, ← Nat.shiftLeft_add, firsts, seconds]

/-- A sum as it is stored and read again. -/
def stored (x y : UnpackedFloat) : UnpackedFloat :=
  unpack Format.binary32 (pack Format.binary32 (add Format.binary32 x y))

/-- A sum of finite numbers that are not negative has the bits
that its units round to, or is infinite. -/
theorem stored_finite {x y : UnpackedFloat} (left : Standard x) (right : Standard y)
    (small : bits x < infiniteBits) (short : bits y < infiniteBits) :
    Standard (stored x y) ∧
    bits (stored x y) = min (nearestBits (units x + units y)) infiniteBits := by
  -- next to a zero the sum is the other number, whose bits are those of its units
  have alone {z : UnpackedFloat} (standard : Standard z) (finite : bits z < infiniteBits)
    (same : stored x y = z)
      (total : units x + units y = units z) :
      Standard (stored x y) ∧
      bits (stored x y) = min (nearestBits (units x + units y)) infiniteBits := by
    rw [same, total, nearestBits_units standard finite]
    exact ⟨standard, (min_eq_left finite.le).symm⟩
  cases x with
  | notANumber => cases left
  | infinity s => exact absurd small (lt_irrefl _)
  | zero s =>
    cases y with
    | notANumber => cases right
    | infinity t => exact absurd short (lt_irrefl _)
    | zero t =>
      cases s <;> cases t <;> exact @alone (.zero _) trivial (by decide) rfl rfl
    | finite t n f hn =>
      obtain ⟨rfl, -⟩ := id right
      exact alone right short (unpack_pack_standard right rfl short) (Nat.zero_add _)
  | finite s m e hm =>
    obtain ⟨rfl, -, first, -⟩ := id left
    cases y with
    | notANumber => cases right
    | infinity t => exact absurd short (lt_irrefl _)
    | zero t => exact alone left small (unpack_pack_standard left rfl small) (Nat.add_zero _)
    | finite t n f hn =>
      obtain ⟨rfl, -, second, -⟩ := id right
      have positive : 0 < m <<< (e + 149).toNat + n <<< (f + 149).toNat := by
        rw [Nat.shiftLeft_eq]
        exact Nat.add_pos_left (Nat.mul_pos hm (Nat.two_pow_pos _)) _
      obtain ⟨total, exponent, nonzero, rounded, fits, low, normal, own⟩ :=
        roundWithAccuracy_units positive
      have packed := @bits_unpack_pack _ _ nonzero fits low normal
      rw [own, ← rounded, ← add_positive first second] at packed
      exact packed

theorem bits_le {x : UnpackedFloat} (standard : Standard x) : bits x ≤ infiniteBits := by
  cases x with
  | finite s m e hm =>
    obtain ⟨-, short, low, high, -⟩ := standard
    change m + (e + 149).toNat * 2 ^ 23 ≤ 255 * 2 ^ 23
    omega
  | infinity s => exact le_rfl
  | _ => exact Nat.zero_le _

theorem eq_infinity {x : UnpackedFloat} (standard : Standard x) (large : infiniteBits ≤ bits x) :
    x = .infinity .positive := by
  cases x with
  | finite s m e hm =>
    obtain ⟨-, short, low, high, -⟩ := standard
    change 255 * 2 ^ 23 ≤ m + (e + 149).toNat * 2 ^ 23 at large
    omega
  | infinity s => exact congrArg _ standard
  | notANumber => cases standard
  | zero s => simp [bits, infiniteBits] at large

theorem stored_infinite {x y : UnpackedFloat} (left : Standard x) (right : Standard y)
    (large : infiniteBits ≤ bits x ∨ infiniteBits ≤ bits y) : stored x y = .infinity .positive := by
  have packed : pack Format.binary32 (.infinity .positive) =
      packedInfinity Format.binary32 .positive := rfl
  suffices same : add Format.binary32 x y = .infinity .positive by
    rw [stored, same, packed, unpack_packedInfinity]
  rcases large with first | second
  · obtain rfl := eq_infinity left first
    cases y with
    | notANumber => cases right
    | infinity s => exact if_pos (beq_iff_eq.mpr (Eq.symm right))
    | _ => rfl
  · obtain rfl := eq_infinity right second
    cases x with
    | notANumber => cases left
    | infinity s =>
      cases left
      rfl
    | _ => rfl

theorem standard_stored {x y : UnpackedFloat} (left : Standard x) (right : Standard y) :
    Standard (stored x y) := by
  rcases lt_or_ge (bits x) infiniteBits with small | large
  · rcases lt_or_ge (bits y) infiniteBits with short | large
    · exact (stored_finite left right small short).1
    · rw [stored_infinite left right (.inr large)]
      rfl
  · rw [stored_infinite left right (.inl large)]
    rfl

/-- Sums are monotone. -/
theorem bits_stored_mono {x y z : UnpackedFloat} (left : Standard x) (right : Standard y)
    (other : Standard z) (below : bits x ≤ bits y) : bits (stored x z) ≤ bits (stored y z) := by
  by_cases finite : bits y < infiniteBits ∧ bits z < infiniteBits
  · obtain ⟨short, small⟩ := finite
    rw [(stored_finite left other (below.trans_lt short) small).2,
      (stored_finite right other short small).2]
    have order := nearestBits_mono
      (Nat.add_le_add_right (units_le_units left right short below) (units z))
    exact min_le_min_right _ order
  · have infinite : infiniteBits ≤ bits y ∨ infiniteBits ≤ bits z := by omega
    rw [stored_infinite right other infinite]
    exact bits_le (standard_stored left other)

theorem nonneg_of_le {x y : UnpackedFloat} (standard : Standard x) (below : x.le y = true) :
    (UnpackedFloat.zero .positive).le y = true := by
  have number := (isNaN_of_le below).2
  cases y with
  | notANumber => cases number
  | zero t => rfl
  | infinity t =>
    cases t with
    | positive => rfl
    | negative => cases x with
      | notANumber => cases standard
      | infinity s =>
        cases standard
        cases below
      | _ => cases below
  | finite t n f hn =>
    cases t with
    | positive => rfl
    | negative => cases x with
      | notANumber => cases standard
      | infinity s =>
        cases standard
        cases below
      | zero s => cases below
      | finite s m e hm =>
        obtain ⟨rfl, -⟩ := standard
        cases below

theorem le_of_negative {x y z : UnpackedFloat}
    (negative : ¬(UnpackedFloat.zero .positive).le x = true) (below : x.le y = true)
    (standard : Standard z) : x.le z = true := by
  cases x with
  | notANumber => cases (isNaN_of_le below).1
  | zero s => exact absurd rfl negative
  | infinity s =>
    cases s with
    | positive => exact absurd rfl negative
    | negative =>
      cases z with
      | notANumber => cases standard
      | infinity t =>
        cases standard
        rfl
      | _ => rfl
  | finite s m e hm =>
    cases s with
    | positive => exact absurd rfl negative
    | negative =>
      cases z with
      | notANumber => cases standard
      | zero t => rfl
      | infinity t =>
        cases standard
        rfl
      | finite t n f hn =>
        obtain ⟨rfl, -⟩ := standard
        rfl

end ParticleSystem.Rounding
