import ParticleSystem.Distribution.Table
import ParticleSystem.Proofs.Scalar.Value

/-!
Draws of a range of singles. What is drawn is rounded three times: the width of the range, the part
of it, and the sum. Where the width is not too large no draw leaves the closed range; the upper end
itself is drawn by some stream unless the largest share stays below it.
-/

namespace ParticleSystem

open Single (value)

namespace RandomStream

/-- The number that is drawn for 24 bits. -/
def share (bits : Nat) : Float32 := Scalar.ofNat bits * (1 / 16777216)

theorem peek_eq_share (stream : RandomStream) : ∃ bits < 2 ^ 24, stream.peek = share bits :=
  ⟨_, stream.toNat_bits_lt, rfl⟩

/-- A stream that is about to draw the largest number. -/
def atLargest : RandomStream := ⟨2 ^ 59 - 2 ^ 41, 1⟩

private theorem peek_atLargest : atLargest.peek = share (2 ^ 24 - 1) := by
  have bits : (atLargest.bits >>> 8).toNat = 2 ^ 24 - 1 := by decide
  rw [peek, bits]
  rfl

variable {bits : Nat} (short : bits < 2 ^ 24)

include short

/-- Draws are not rounded. -/
theorem value_share : (share bits).isFinite = true ∧ value (share bits) = bits / 2 ^ 24 := by
  have found : Single.unpack (1 / 16777216) =
      .finite .positive (2 ^ 23) (-47) (Nat.two_pow_pos 23) := by rfl
  have unit : value (1 / 16777216) = 1 / 2 ^ 24 := by
    rw [value, found, Rounding.value_positive]
    norm_num
  obtain ⟨finite, whole⟩ := Single.value_ofNat short
  have product := Single.stores_mul finite (y := 1 / 16777216) rfl
  rw [whole, unit, mul_one_div] at product
  have top : (bits : ℚ) < 2 ^ 24 := by exact_mod_cast short
  refine product.eq_of_fits
    ⟨bits, -24, by rw [Nat.abs_cast]; exact_mod_cast short, by decide, ?_⟩ ?_
  · have power : (2 : ℚ) ^ (-24 : ℤ) = 1 / 2 ^ 24 := by norm_num
    rw [power, Int.cast_natCast, mul_one_div]
  · rw [abs_of_nonneg (by positivity), div_lt_iff₀ (by norm_num)]
    linarith

theorem share_bounds : 0 ≤ value (share bits) ∧ value (share bits) ≤ 1 - 1 / 2 ^ 24 := by
  have most : (bits + 1 : ℚ) ≤ 2 ^ 24 := by exact_mod_cast short
  rw [(value_share short).2]
  refine ⟨by positivity, ?_⟩
  rw [div_le_iff₀ (by norm_num)]
  linarith

end RandomStream

namespace RandomRange

open RandomStream (share value_share share_bounds)

section Bounds

variable {range : RandomRange Float32} (low : range.min.isFinite = true)
  (high : range.max.isFinite = true) (proper : range.min < range.max)
  (width : (range.max - range.min).isFinite = true)

include low high proper width

theorem width_pos : 0 < value (range.max - range.min) :=
  ((Single.stores_sub high low).nearest width).pos_of_lt (Single.fits_value low)
    (Single.fits_value high)
    ((Single.lt_iff_value low high).mp proper)

variable {bits : Nat} (short : bits < 2 ^ 24)

include short

theorem part_bounds : ((range.max - range.min) * share bits).isFinite = true ∧
    0 ≤ value ((range.max - range.min) * share bits) ∧
      value ((range.max - range.min) * share bits) ≤ value range.max - value range.min := by
  have ordered := (Single.lt_iff_value low high).mp proper
  have positive := width_pos low high proper width
  obtain ⟨nonneg, part⟩ := share_bounds short
  have difference := (Single.stores_sub high low).nearest width
  have product := Single.stores_mul width (value_share short).1
  have whole : value (range.max - range.min) * value (share bits) ≤ value (range.max - range.min) :=
    mul_le_of_le_one_right positive.le (part.trans (by norm_num))
  have zero : (0 : Float32).isFinite = true := rfl
  obtain ⟨finite, least, most⟩ :=
    product.between zero width (Single.value_zero ▸ mul_nonneg positive.le nonneg) whole
  rw [Single.value_zero] at least
  refine ⟨finite, least, ?_⟩
  obtain ⟨m, e, fits, lowest, normal, own⟩ := Single.value_of_pos width positive
  rcases lowest.lt_or_eq with above | rfl
  · -- what is less than the rounded width is no more than the exact one
    have rounded := product.nearest finite
    rw [own] at rounded
    have less := rounded.lt_of_part fits (normal above) above part
    rw [← own] at less
    by_contra beyond
    rw [not_le] at beyond
    have nearer := difference.least _ rounded.fits
    rw [abs_of_pos (by linarith), abs_of_pos (by linarith)] at nearer
    linarith
  · -- a width this small is not rounded
    have small : value (range.max - range.min) < 2 ^ (-125 : ℤ) := by
      have smallest : (-125 : ℤ) = 24 + (-149) := by norm_num
      rw [own, smallest, Rounding.two_zpow_add]
      exact mul_lt_mul_of_pos_right (by exact_mod_cast fits) (Rounding.two_zpow_pos _)
    rw [← difference.eq_of_small (Single.fits_value low) (Single.fits_value high) ordered.le small]
    exact most

theorem lerp_bounds :
    (range.lerp (share bits)).isFinite = true ∧ value range.min ≤ value (range.lerp (share bits)) ∧
    value (range.lerp (share bits)) ≤ value range.max := by
  obtain ⟨finite, least, most⟩ := part_bounds low high proper width short
  exact (Single.stores_add low finite).between low high (by linarith) (by linarith)

theorem lerp_mono {fewer : Nat} (less : fewer < bits) :
    value (range.lerp (share fewer)) ≤ value (range.lerp (share bits)) := by
  have short' := less.trans short
  obtain ⟨finite, -, -⟩ := part_bounds low high proper width short
  obtain ⟨finite', -, -⟩ := part_bounds low high proper width short'
  have sum := (Single.stores_add low finite).nearest (lerp_bounds low high proper width short).1
  have sum' := (Single.stores_add low finite').nearest (lerp_bounds low high proper width short').1
  have shares : value (share fewer) < value (share bits) := by
    rw [(value_share short).2, (value_share short').2]
    exact div_lt_div_of_pos_right (by exact_mod_cast less) (by norm_num)
  have parts : value ((range.max - range.min) * share fewer) ≤
      value ((range.max - range.min) * share bits) :=
    ((Single.stores_mul width (value_share short').1).nearest finite').mono
      ((Single.stores_mul width (value_share short).1).nearest finite)
      (mul_lt_mul_of_pos_left shares (width_pos low high proper width))
  rcases parts.lt_or_eq with more | same
  · exact sum'.mono sum (by linarith)
  · by_cases none : value ((range.max - range.min) * share fewer) = 0
    · rw [← same, none, add_zero] at sum
      rw [none, add_zero] at sum'
      have fits := Single.fits_value low
      exact ((sum'.eq_of_fits fits).trans (sum.eq_of_fits fits).symm).le
    · exact (congrArg value (Single.add_eq_of_value_eq finite' finite same none range.min)).le

end Bounds

section Streams

variable {range : RandomRange Float32} (low : range.min.isFinite = true)
  (high : range.max.isFinite = true) (proper : range.min < range.max)

include low high proper

theorem between_iff (stream : RandomStream) :
    range.min ≤ range.lerp stream.peek ∧ range.lerp stream.peek ≤ range.max ↔
      (range.max - range.min).isFinite = true := by
  constructor
  · rintro ⟨below, above⟩
    have finite := Single.isFinite_of_between low high below above
    exact (Single.isFinite_of_mul (Single.isFinite_of_add finite).2).1
  · intro width
    obtain ⟨bits, short, shown⟩ := stream.peek_eq_share
    obtain ⟨finite, least, most⟩ := lerp_bounds low high proper width short
    rw [shown]
    exact ⟨(Single.le_iff_value low finite).mpr least, (Single.le_iff_value finite high).mpr most⟩

/-- The largest share decides whether any stream draws the upper end. -/
theorem forall_lt_iff (width : (range.max - range.min).isFinite = true) :
    (∀ stream : RandomStream, range.lerp stream.peek < range.max) ↔
    range.lerp (share (2 ^ 24 - 1)) < range.max := by
  constructor
  · intro below
    rw [← RandomStream.peek_atLargest]
    exact below .atLargest
  · intro last stream
    obtain ⟨bits, short, shown⟩ := stream.peek_eq_share
    have top : 2 ^ 24 - 1 < 2 ^ 24 := by decide
    have finite := (lerp_bounds low high proper width short).1
    have finite' := (lerp_bounds low high proper width top).1
    rw [Single.lt_iff_value finite' high] at last
    rw [shown, Single.lt_iff_value finite high]
    rcases (Nat.le_sub_one_of_lt short).lt_or_eq with less | rfl
    · exact (lerp_mono low high proper width top less).trans_lt last
    · exact last

end Streams

end RandomRange

namespace Distribution

variable {range : RandomRange Float32}

/-- With a width that is not too large a range gives each draw a number from one end to the
other, and with one that is no draw such a number. The upper end is never drawn exactly
when the largest share stays below it. -/
theorem tick_random_range (low : range.min.isFinite = true) (high : range.max.isFinite = true)
    (proper : range.min < range.max) (clock : Clock Float32) (particle : Particle Float32) :
    (∀ stream : RandomStream, ∃ v, (Distribution.random range).tick clock particle stream =
      .ok v stream.advance ∧
      (range.min ≤ v ∧ v ≤ range.max ↔ (range.max - range.min).isFinite = true)) ∧
    ((∀ stream : RandomStream, ∃ v, (Distribution.random range).tick clock particle stream =
      .ok v stream.advance ∧
      range.min ≤ v ∧ v < range.max) ↔
      (range.max - range.min).isFinite = true ∧
        range.lerp (RandomStream.share (2 ^ 24 - 1)) < range.max) := by
  refine ⟨fun stream => ⟨_, rfl, RandomRange.between_iff low high proper stream⟩, ?_⟩
  constructor
  · intro draws
    have below (stream : RandomStream) :
        range.min ≤ range.lerp stream.peek ∧ range.lerp stream.peek < range.max := by
      obtain ⟨v, drawn, within⟩ := draws stream
      cases drawn
      exact within
    obtain ⟨least, most⟩ := below .atLargest
    have width := (RandomRange.between_iff low high proper .atLargest).mp ⟨least,
      Single.le_of_lt most⟩
    exact ⟨width, (RandomRange.forall_lt_iff low high proper width).mp fun stream =>
      (below stream).2⟩
  · rintro ⟨width, last⟩ stream
    have least := ((RandomRange.between_iff low high proper stream).mpr width).1
    exact ⟨_, rfl, least, (RandomRange.forall_lt_iff low high proper width).mpr last stream⟩

theorem tick_random_range_unit :
    ∃ v, (Distribution.random (⟨0, 1⟩ : RandomRange Float32)).tick ⟨0, 1⟩ .default (.ofSeed 7) =
      .ok v (RandomStream.ofSeed 7).advance ∧ 0 ≤ v ∧ v < 1 :=
  (@tick_random_range ⟨0, 1⟩ rfl rfl (by decide +kernel) ⟨0, 1⟩ .default).2.mpr
    ⟨rfl, by decide +kernel⟩ (.ofSeed 7)

/-- From one to the next single, of which every share above a half draws the latter. -/
def narrow : RandomRange Float32 := ⟨1, Float32.ofBits 0x3f800001⟩

theorem narrow_draws_max :
    narrow.min.isFinite = true ∧ narrow.max.isFinite = true ∧ narrow.min < narrow.max ∧
    ¬narrow.max < narrow.max ∧
      (Distribution.random narrow).tick ⟨0, 1⟩ .default (.ofSeed 7) =
        .ok narrow.max (RandomStream.ofSeed 7).advance := by
  have drawn : narrow.lerp (RandomStream.ofSeed 7).peek = narrow.max := by decide +kernel
  exact ⟨rfl, rfl, by decide +kernel, by decide +kernel, congrArg (EStateM.Result.ok · _) drawn⟩

/-- A wider range draws its upper end from the largest share alone. -/
example : (⟨2, 4⟩ : RandomRange Float32).lerp (RandomStream.share (2 ^ 24 - 1)) = 4 ∧
    (⟨2, 4⟩ : RandomRange Float32).lerp (RandomStream.share (2 ^ 24 - 2)) < 4 := by
  decide +kernel

end Distribution

end ParticleSystem
