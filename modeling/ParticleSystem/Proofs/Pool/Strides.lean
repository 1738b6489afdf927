import ParticleSystem.Proofs.Pool.Updates
import Mathlib

/-!
Strides. A size rounds up to the least multiple of sixteen that it fits in, as long as a word holds
the size and sixteen more; past that it has no stride, although the first size without one is itself
a multiple of sixteen. That size is the stride of the fifteen sizes before it, so these are the ones
whose stride has no stride of its own.
-/

namespace ParticleSystem

variable {β : Type} {size larger other stride : UInt32}

theorem isLeast_strideOf (size : UInt32) :
    IsLeast {multiple | 16 ∣ multiple ∧ size.toNat ≤ multiple} (strideOf size) :=
  ⟨⟨dvd_strideOf size, le_strideOf size⟩, fun _ above => strideOf_le above.1 above.2⟩

private theorem strideOf_le_add (size : UInt32) : strideOf size ≤ size.toNat + 15 :=
  Nat.div_mul_le_self ..

theorem strideOf_eq_zero_iff : strideOf size = 0 ↔ size = 0 := by
  constructor
  · intro zero
    by_contra nonzero
    exact absurd zero (Nat.ne_of_gt (strideOf_pos nonzero))
  · rintro rfl
    rfl

theorem strideOf_mono (le : size ≤ larger) : strideOf size ≤ strideOf larger := by
  refine (isLeast_strideOf larger).mono (isLeast_strideOf size) fun multiple above => ?_
  exact ⟨above.1, (UInt32.le_iff_toNat_le.mp le).trans above.2⟩

private theorem strideOf_of_dvd (aligned : 16 ∣ size.toNat) : strideOf size = size.toNat :=
  Nat.le_antisymm (strideOf_le aligned (Nat.le_refl _)) (le_strideOf size)

theorem strideOf_eq_ceilDiv (size : UInt32) : strideOf size = 16 * (size.toNat ⌈/⌉ 16) :=
  Nat.mul_comm ..

theorem strideOf_eq_iff :
    strideOf other = strideOf size ↔ other.toNat ⌈/⌉ 16 = size.toNat ⌈/⌉ 16 := by
  rw [strideOf_eq_ceilDiv, strideOf_eq_ceilDiv, Nat.mul_right_inj (by decide)]

/-- A stride has a stride of its own exactly for the sizes up to
the last multiple of sixteen but one. -/
theorem strideOf_lt_iff : strideOf size < 4294967280 ↔ size ≤ 4294967264 := by
  rw [UInt32.le_iff_toNat_le]
  constructor
  · intro below
    -- Both are multiples of sixteen, so a stride below the last one is at most the one before.
    obtain ⟨blocks, whole⟩ : 16 ∣ strideOf size := dvd_strideOf size
    have fits := le_strideOf size
    change size.toNat ≤ 4294967264
    omega
  · intro below
    have least : strideOf size ≤ 4294967264 := strideOf_le ⟨268435454, rfl⟩ below
    omega

theorem alignSize_eq_ok_iff :
    alignSize size = .ok stride ↔ size < 4294967280 ∧ stride.toNat = strideOf size := by
  constructor
  · intro aligned
    refine ⟨?_, toNat_of_alignSize aligned⟩
    by_contra large
    rw [alignSize_of_le (UInt32.not_lt.mp large)] at aligned
    cases aligned
  · rintro ⟨below, value⟩
    obtain ⟨found, aligned⟩ := exists_alignSize below
    have same : found.toNat = stride.toNat := (toNat_of_alignSize aligned).trans value.symm
    rw [aligned, UInt32.toNat_inj.mp same]

/-- How a stride stands to the size that it is for, and to the sizes and strides around it. -/
structure StrideFor (size stride : UInt32) : Prop where
  aligned : alignSize size = .ok stride
  least : IsLeast {multiple | 16 ∣ multiple ∧ size.toNat ≤ multiple} stride.toNat
  le_add : stride.toNat ≤ size.toNat + 15
  eq_zero_iff : stride = 0 ↔ size = 0
  mono : ∀ larger bound, size ≤ larger → alignSize larger = .ok bound → stride ≤ bound
  shared_iff : ∀ other, alignSize other = .ok stride ↔
    other < 4294967280 ∧ other.toNat ⌈/⌉ 16 = size.toNat ⌈/⌉ 16
  /-- A stride is its own, but for the last one. -/
  again : alignSize stride = if size ≤ 4294967264 then .ok stride else .error .sizeOverflow

private theorem strideFor_of_alignSize (aligned : alignSize size = .ok stride) :
    StrideFor size stride := by
  have value : stride.toNat = strideOf size := toNat_of_alignSize aligned
  have least : IsLeast {multiple | 16 ∣ multiple ∧ size.toNat ≤ multiple} stride.toNat := by
    rw [value]
    exact isLeast_strideOf size
  constructor
  · exact aligned
  · exact least
  · rw [value]
    exact strideOf_le_add size
  · have zero : stride = 0 ↔ stride.toNat = 0 := UInt32.toNat_inj.symm
    rw [zero, value]
    exact strideOf_eq_zero_iff
  · intro larger bound le found
    rw [UInt32.le_iff_toNat_le, value, toNat_of_alignSize found]
    exact strideOf_mono le
  · intro other
    rw [alignSize_eq_ok_iff, value, ← strideOf_eq_iff, eq_comm (a := strideOf size)]
  · have fixed : strideOf stride = stride.toNat := strideOf_of_dvd least.1.1
    have room : stride < 4294967280 ↔ size ≤ 4294967264 := by
      rw [UInt32.lt_iff_toNat_lt, value]
      exact strideOf_lt_iff
    split
    · rename_i low
      exact alignSize_eq_ok_iff.mpr ⟨room.mpr low, fixed.symm⟩
    · rename_i high
      exact alignSize_of_le (UInt32.not_lt.mp (mt room.mp high))

/-- A set can be made for every size with a stride, but it has a number of
slots only if its records are not empty. -/
private theorem RecordSet.ofSize_of_alignSize (aligned : alignSize size = .ok stride) :
    ∃ set : RecordSet β, ofSize size = .ok set ∧ set.stride = stride.toNat ∧
      set.slotCount = if size = 0 then .error .zeroStride else .ok 0 := by
  have value : stride.toNat = strideOf size := toNat_of_alignSize aligned
  refine ⟨empty size, ofSize_eq_empty aligned, value.symm, ?_⟩
  rw [slotCount, empty, Array.size_empty, Nat.zero_div]
  simp only [strideOf_eq_zero_iff]

/-- A size below the last multiple of sixteen that is a word has a stride, the least multiple of
sixteen that it fits in; from there on it has none, and no set can be made for it. -/
theorem alignSize_rounds_up (size : UInt32) :
    (size < 4294967280 → ∃ stride, StrideFor size stride ∧ ∃ set : RecordSet β,
      RecordSet.ofSize size = .ok set ∧ set.stride = stride.toNat ∧
        set.slotCount = if size = 0 then .error .zeroStride else .ok 0) ∧
    (4294967280 ≤ size → alignSize size = .error .sizeOverflow ∧
      (RecordSet.ofSize size : Except PoolFault (RecordSet β)) = .error .sizeOverflow ∧
        PoolFault.sizeOverflow.message = "attempt to add with overflow") := by
  constructor
  · intro below
    obtain ⟨stride, aligned⟩ := exists_alignSize below
    exact ⟨stride, strideFor_of_alignSize aligned, RecordSet.ofSize_of_alignSize aligned⟩
  · intro large
    have overflows := alignSize_of_le large
    refine ⟨overflows, ?_, rfl⟩
    rw [RecordSet.ofSize, overflows]
    rfl

/-- The least of the fifteen sizes that have the last stride. -/
theorem alignSize_rounds_up_last :
    (4294967265 : UInt32) < 4294967280 ∧ StrideFor 4294967265 4294967280 ∧
      alignSize 4294967279 = .ok 4294967280 ∧ alignSize 4294967280 = .error .sizeOverflow := by
  have room : (4294967265 : UInt32) < 4294967280 := by decide
  have last : alignSize 4294967265 = .ok 4294967280 := by decide
  obtain ⟨strides, -⟩ := alignSize_rounds_up (β := UInt8) 4294967265
  obtain ⟨stride, laws, -⟩ := strides room
  obtain rfl : stride = 4294967280 := Except.ok.inj (laws.aligned.symm.trans last)
  exact ⟨room, laws, (laws.shared_iff _).mpr (by decide), laws.again⟩

/-- The last stride has no stride of its own, though it is the
least multiple of sixteen that it fits in. -/
theorem last_stride_not_aligned : alignSize 4294967265 = .ok 4294967280 ∧
    alignSize 4294967280 ≠ .ok 4294967280 ∧ 4294967265 ⌈/⌉ 16 = 4294967280 ⌈/⌉ 16 := by
  decide

end ParticleSystem
