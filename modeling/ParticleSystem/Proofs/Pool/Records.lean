import ParticleSystem.Pool.RecordSet
import Mathlib.Tactic.IntervalCases

namespace ParticleSystem

variable {β : Type} {size : UInt32}

/-- The least multiple of the alignment that is not below a size. -/
def strideOf (size : UInt32) : Nat := (size.toNat + 15) / 16 * 16

theorem le_strideOf (size : UInt32) : size.toNat ≤ strideOf size := by unfold strideOf; omega

theorem dvd_strideOf (size : UInt32) : alignment.toNat ∣ strideOf size := ⟨_, Nat.mul_comm _ 16⟩

theorem strideOf_le {size : UInt32} {multiple : Nat} (aligned : alignment.toNat ∣ multiple)
    (fits : size.toNat ≤ multiple) : strideOf size ≤ multiple := by
  obtain ⟨blocks, rfl⟩ := aligned
  change strideOf size ≤ 16 * blocks
  change size.toNat ≤ 16 * blocks at fits
  unfold strideOf
  omega

theorem strideOf_pos (nonzero : size ≠ 0) : 0 < strideOf size := by
  have positive : 0 < size.toNat := UInt32.pos_iff_ne_zero.mpr nonzero
  exact Nat.lt_of_lt_of_le positive (le_strideOf size)

private theorem toNat_clear_low (word : UInt32) :
    (word &&& ~~~(15 : UInt32)).toNat = word.toNat / 16 * 16 := by
  have shifted : word.toBitVec &&& ~~~(15#32) = (word.toBitVec >>> 4) <<< 4 := by
    apply BitVec.eq_of_getElem_eq
    intro bit inside
    interval_cases bit <;> simp
  have value := congrArg BitVec.toNat shifted
  have bound := word.toNat_lt
  simp only [BitVec.toNat_shiftLeft, BitVec.toNat_ushiftRight, Nat.shiftRight_eq_div_pow,
    Nat.shiftLeft_eq] at value
  rw [← UInt32.toNat_toBitVec, UInt32.toBitVec_and, UInt32.toBitVec_not]
  refine value.trans ?_
  rw [UInt32.toNat_toBitVec]
  omega

theorem toNat_of_alignSize {stride : UInt32} (aligned : alignSize size = .ok stride) :
    stride.toNat = strideOf size := by
  unfold alignSize at aligned
  split at aligned
  · rename_i room
    cases aligned
    change size.toNat + 16 < 4294967296 at room
    change ((size + 16 - 1) &&& ~~~(15 : UInt32)).toNat = _
    rw [toNat_clear_low]
    have sum : (size + 16 - 1).toNat = size.toNat + 15 := by
      rw [UInt32.toNat_sub, UInt32.toNat_add]
      change (4294967296 - 1 + (size.toNat + 16) % 4294967296) % 4294967296 = size.toNat + 15
      omega
    rw [sum, strideOf]
  · cases aligned

/-- A size for which there can be a set. -/
structure Storable (size : UInt32) : Prop where
  nonzero : size ≠ 0
  aligns : size.toNat + alignment.toNat < UInt32.size

/-- A size and the alignment add up to a word for the sizes below the
last multiple of sixteen that is one. -/
theorem aligns_iff_lt : size.toNat + alignment.toNat < UInt32.size ↔ size < 4294967280 := by
  rw [UInt32.lt_iff_toNat_lt]
  change size.toNat + 16 < 4294967296 ↔ size.toNat < 4294967280
  omega

theorem exists_alignSize (below : size < 4294967280) : ∃ stride, alignSize size = .ok stride :=
  ⟨_, if_pos (aligns_iff_lt.mpr below)⟩

/-- There can be a set unless the size is so large that no
multiple of the alignment lies above it. -/
theorem Storable.iff_lt (nonzero : size ≠ 0) : Storable size ↔ size < 4294967280 :=
  ⟨fun storable => aligns_iff_lt.mp storable.aligns, fun below =>
    ⟨nonzero, aligns_iff_lt.mpr below⟩⟩

theorem alignSize_of_le (large : 4294967280 ≤ size) : alignSize size = .error .sizeOverflow := by
  refine if_neg fun room => ?_
  exact UInt32.not_lt.mpr large (aligns_iff_lt.mp room)

theorem Storable.of_small (nonzero : size ≠ 0) (small : size ≤ maxRecordSize) : Storable size := by
  have room : maxRecordSize < 4294967280 := by decide
  exact (Storable.iff_lt nonzero).mpr (UInt32.lt_of_le_of_lt small room)

theorem Storable.stride_lt (storable : Storable size) : strideOf size < UInt32.size := by
  have room : size.toNat + 16 < 4294967296 := storable.aligns
  change (size.toNat + 15) / 16 * 16 < 4294967296
  omega

namespace RecordSet

def slots (s : RecordSet β) : Nat := s.buffer.size / s.stride

/-- The slot that the next claim takes: the latest one given back, else a new one. -/
def next (s : RecordSet β) : Nat := s.free.headD s.slots

/-- What every operation keeps of a set for records of a size. -/
structure Valid (size : UInt32) (s : RecordSet β) : Prop where
  storable : Storable size
  stride_eq : s.stride = strideOf size
  whole : s.buffer.size = s.slots * s.stride
  free_nodup : s.free.Nodup
  free_lt : ∀ slot ∈ s.free, slot < s.slots

variable {s : RecordSet β}

theorem Valid.stride_pos (valid : s.Valid size) : 0 < s.stride := by
  rw [valid.stride_eq]
  exact strideOf_pos valid.storable.nonzero

/-- The end of a record is a number of 64 bits for every slot of 32 bits. -/
theorem Valid.end_lt (valid : s.Valid size) (slot : UInt32) :
    slot.toNat * s.stride + s.stride < UInt64.size := by
  have word := slot.toNat_lt
  have bound : s.stride < 4294967296 := valid.stride_eq ▸ valid.storable.stride_lt
  have product : (slot.toNat + 1) * s.stride ≤ 4294967296 * s.stride :=
    Nat.mul_le_mul_right _ (by omega)
  rw [Nat.succ_mul] at product
  change _ < 18446744073709551616
  omega

theorem Valid.free_length_le (valid : s.Valid size) : s.free.length ≤ s.slots := by
  have bound : s.free.length ≤ (List.range s.slots).length :=
    valid.free_nodup.length_le_of_subset fun slot member =>
      List.mem_range.mpr (valid.free_lt slot member)
  simpa using bound

theorem Valid.slotCount_eq (valid : s.Valid size) : s.slotCount = .ok s.slots := by
  have positive := valid.stride_pos
  simp [slotCount, slots, Nat.ne_of_gt positive]

theorem Valid.activeSize_eq (valid : s.Valid size) :
    s.activeSize = .ok (s.slots - s.free.length) := by
  simp [activeSize, valid.slotCount_eq, valid.free_length_le, bind, Except.bind, pure, Except.pure]

theorem Valid.nextSlot_eq (valid : s.Valid size) : s.nextSlot = .ok s.next := by
  unfold nextSlot next
  cases s.free with
  | nil => exact valid.slotCount_eq
  | cons slot rest => rfl

theorem Valid.hasRecord_iff (valid : s.Valid size) (slot : Nat) :
    s.hasRecord slot = true ↔ slot < s.slots := by
  have positive := valid.stride_pos
  simp only [hasRecord, decide_eq_true_eq, valid.whole, ← Nat.succ_mul]
  exact ⟨fun le => Nat.le_of_mul_le_mul_right le positive, fun lt => Nat.mul_le_mul_right _ lt⟩

theorem Valid.record?_eq (valid : s.Valid size) (slot : Nat) :
    s.record? slot = if slot < s.slots then
      some (s.buffer.extract (slot * s.stride) (slot * s.stride + s.stride)) else none := by
  simp only [record?, valid.hasRecord_iff]

theorem Valid.record?_isSome (valid : s.Valid size) (slot : Nat) :
    (s.record? slot).isSome ↔ slot < s.slots := by
  rw [valid.record?_eq]
  split <;> simp [*]

theorem Valid.record?_eq_none (valid : s.Valid size) {slot : Nat} (outside : s.slots ≤ slot) :
    s.record? slot = none := by
  rw [valid.record?_eq, if_neg (Nat.not_lt.mpr outside)]

theorem Valid.slot_end_le (valid : s.Valid size) {slot : Nat} (inside : slot < s.slots) :
    slot * s.stride + s.stride ≤ s.buffer.size := by
  rw [valid.whole, ← Nat.succ_mul]
  exact Nat.mul_le_mul_right _ inside

theorem Valid.record_size (valid : s.Valid size) {slot : Nat} {record : Array β}
    (found : s.record? slot = some record) : record.size = s.stride := by
  rw [valid.record?_eq] at found
  split at found
  · rename_i inside
    cases found
    have fits := valid.slot_end_le inside
    rw [Array.size_extract, Nat.min_eq_left fits, Nat.add_sub_cancel_left]
  · cases found

end RecordSet

end ParticleSystem
