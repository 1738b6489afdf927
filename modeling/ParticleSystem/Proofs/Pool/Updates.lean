import ParticleSystem.Proofs.Pool.Records

namespace ParticleSystem.RecordSet

variable {β : Type} {size : UInt32} {s : RecordSet β}

def empty (size : UInt32) : RecordSet β := ⟨strideOf size, #[], []⟩

@[simp] theorem free_empty : (empty size : RecordSet β).free = [] := rfl

@[simp] theorem slots_empty : (empty size : RecordSet β).slots = 0 := by simp [slots, empty]

theorem record?_empty (nonzero : size ≠ 0) (slot : Nat) :
    (empty size : RecordSet β).record? slot = none := by
  have positive := strideOf_pos nonzero
  simp [record?, hasRecord, empty]
  omega

theorem valid_empty (storable : Storable size) : (empty size : RecordSet β).Valid size where
  storable := storable
  stride_eq := rfl
  whole := by simp [slots, empty]
  free_nodup := List.nodup_nil
  free_lt := by simp [empty]

theorem ofSize_eq_empty {stride : UInt32} (aligned : alignSize size = .ok stride) :
    (ofSize size : Except PoolFault (RecordSet β)) = .ok (empty size) := by
  rw [ofSize, aligned, empty, ← toNat_of_alignSize aligned]
  rfl

theorem next_eq_slots (none : s.free = []) : s.next = s.slots := by rw [next, none, List.headD_nil]

theorem next_mem_free (some : s.free ≠ []) : s.next ∈ s.free := by
  cases same : s.free with
  | nil => exact absurd same some
  | cons slot rest => simp [next, same]

theorem Valid.next_le (valid : s.Valid size) : s.next ≤ s.slots := by
  by_cases none : s.free = []
  · exact Nat.le_of_eq (next_eq_slots none)
  · exact Nat.le_of_lt (valid.free_lt _ (next_mem_free none))

variable [Cell β]

@[simp] theorem stride_claim (s : RecordSet β) : s.claim.stride = s.stride := by
  unfold claim
  split <;> rfl

@[simp] theorem free_claim (s : RecordSet β) : s.claim.free = s.free.tail := by
  unfold claim
  split <;> simp [*]

theorem buffer_claim (s : RecordSet β) : s.claim.buffer =
    if s.free = [] then s.buffer ++ Array.replicate s.stride Cell.blank else s.buffer := by
  unfold claim
  split <;> simp [*]

theorem slots_claim_of_nil (positive : 0 < s.stride) (none : s.free = []) :
    s.claim.slots = s.slots + 1 := by
  simp [slots, buffer_claim, none, Nat.add_div_right _ positive]

theorem slots_claim_of_free (some : s.free ≠ []) : s.claim.slots = s.slots := by
  simp [slots, buffer_claim, some]

theorem Valid.slots_claim (valid : s.Valid size) : s.claim.slots = max s.slots (s.next + 1) := by
  by_cases none : s.free = []
  · rw [slots_claim_of_nil valid.stride_pos none, next_eq_slots none]
    omega
  · have inside := valid.free_lt _ (next_mem_free none)
    rw [slots_claim_of_free none]
    omega

theorem Valid.mem_free_claim (valid : s.Valid size) (slot : Nat) :
    slot ∈ s.claim.free ↔ slot ∈ s.free ∧ slot ≠ s.next := by
  rw [free_claim, next]
  have different := valid.free_nodup
  cases free : s.free with
  | nil => simp
  | cons first rest =>
    rw [free, List.nodup_cons] at different
    rw [List.tail_cons, List.headD_cons, List.mem_cons]
    constructor
    · intro member
      exact ⟨.inr member, fun same => different.1 (same ▸ member)⟩
    · rintro ⟨rfl | member, other⟩
      · exact absurd rfl other
      · exact member

/-- The buffer grows exactly when all slots are in use, and then by one. -/
theorem Valid.slots_claim_of_used (valid : s.Valid size) {used : Nat}
    (count : s.free.length + used = s.slots) : s.claim.slots = max s.slots (used + 1) := by
  by_cases none : s.free = []
  · rw [none, List.length_nil] at count
    rw [slots_claim_of_nil valid.stride_pos none]
    omega
  · have positive := List.length_pos_iff.mpr none
    rw [slots_claim_of_free none]
    omega

theorem Valid.count_claim (valid : s.Valid size) {used : Nat}
    (count : s.free.length + used = s.slots) :
    s.claim.free.length + (used + 1) = s.claim.slots := by
  rw [free_claim, List.length_tail, valid.slots_claim_of_used count]
  omega

theorem Valid.claim (valid : s.Valid size) : s.claim.Valid size where
  storable := valid.storable
  stride_eq := by rw [stride_claim, valid.stride_eq]
  whole := by
    by_cases none : s.free = []
    · rw [slots_claim_of_nil valid.stride_pos none, buffer_claim, if_pos none, stride_claim,
        Array.size_append, Array.size_replicate, valid.whole, Nat.succ_mul]
    · rw [slots_claim_of_free none, buffer_claim, if_neg none, stride_claim, valid.whole]
  free_nodup := by
    rw [free_claim]
    exact valid.free_nodup.sublist (List.tail_sublist _)
  free_lt := by
    intro slot member
    rw [free_claim] at member
    have inside := valid.free_lt slot (List.mem_of_mem_tail member)
    rw [valid.slots_claim]
    omega

def blankRecord (size : UInt32) : Array β := Array.replicate (strideOf size) Cell.blank

/-- A claimed slot reads as it was left, or blank when it is new; no other record changes. -/
theorem Valid.record?_claim (valid : s.Valid size) (slot : Nat) : s.claim.record? slot =
    if slot = s.next then some ((s.record? slot).getD (blankRecord size)) else s.record? slot := by
  rw [valid.claim.record?_eq, valid.record?_eq, stride_claim]
  by_cases none : s.free = []
  · rw [slots_claim_of_nil valid.stride_pos none, buffer_claim, if_pos none, next_eq_slots none]
    rcases Nat.lt_trichotomy slot s.slots with inside | new | outside
    · have fits := valid.slot_end_le inside
      rw [if_pos (Nat.lt_succ_of_lt inside), if_neg (Nat.ne_of_lt inside), if_pos inside,
        Array.extract_append, Nat.sub_eq_zero_of_le fits, Array.extract_zero, Array.append_empty]
    · subst new
      rw [if_pos (Nat.lt_succ_self _), if_pos rfl, if_neg (Nat.lt_irrefl _),
        Option.getD_none, blankRecord, ← valid.stride_eq, ← valid.whole]
      simp
    · rw [if_neg (by omega), if_neg (by omega), if_neg (by omega)]
  · have inside := valid.free_lt _ (next_mem_free none)
    rw [slots_claim_of_free none, buffer_claim, if_neg none]
    by_cases same : slot = s.next
    · rw [if_pos same, if_pos (same ▸ inside), Option.getD_some]
    · rw [if_neg same]

omit [Cell β]

@[simp] theorem free_release (s : RecordSet β) (slot : Nat) :
    (s.release slot).free = slot :: s.free :=
  rfl

@[simp] theorem slots_release (s : RecordSet β) (slot : Nat) : (s.release slot).slots = s.slots :=
  rfl

@[simp] theorem record?_release (s : RecordSet β) (slot other : Nat) :
    (s.release slot).record? other = s.record? other := rfl

/-- Why a slot may not be given back, the first reason first. -/
def releaseFault? (s : RecordSet β) (slot : Nat) : Option PoolFault :=
  if s.slots ≤ slot then some (.slotOutside slot s.slots)
  else if slot ∈ s.free then some (.doubleFree slot)
  else none

theorem Valid.checkRelease_eq_error (valid : s.Valid size) {slot : Nat} {fault : PoolFault}
    (refused : s.releaseFault? slot = some fault) : s.checkRelease slot = .error fault := by
  unfold releaseFault? at refused
  rw [checkRelease, valid.slotCount_eq]
  simp only [bind, Except.bind, throw, throwThe, MonadExceptOf.throw, List.contains_eq_mem,
    decide_eq_true_eq]
  split at refused
  · cases refused
    rw [if_pos ‹_›]
  · split at refused
    · cases refused
      rw [if_neg ‹_›, if_pos ‹_›]
    · cases refused

theorem releaseFault?_eq_none {slot : Nat} :
    s.releaseFault? slot = none ↔ slot < s.slots ∧ slot ∉ s.free := by
  rw [← Nat.not_le]
  by_cases outside : s.slots ≤ slot <;> by_cases held : slot ∈
    s.free <;> simp [releaseFault?, outside, held]

theorem Valid.checkRelease_eq_ok (valid : s.Valid size) {slot : Nat} (inside : slot < s.slots)
    (used : slot ∉ s.free) : s.checkRelease slot = .ok () := by
  simp [checkRelease, valid.slotCount_eq, bind, Except.bind, pure, Except.pure,
    Nat.not_le.mpr inside, used]

theorem Valid.release (valid : s.Valid size) {slot : Nat} (inside : slot < s.slots)
    (used : slot ∉ s.free) : (s.release slot).Valid size where
  storable := valid.storable
  stride_eq := valid.stride_eq
  whole := valid.whole
  free_nodup := List.nodup_cons.mpr ⟨used, valid.free_nodup⟩
  free_lt := by
    intro other member
    rcases List.mem_cons.mp member with same | earlier
    · exact same ▸ inside
    · exact valid.free_lt other earlier

@[simp] theorem size_overwrite (buffer : Array β) (start : Nat) (cells : List β) :
    (overwrite buffer start cells).size = buffer.size := by
  induction cells generalizing buffer start with
  | nil => rfl
  | cons cell rest ih => rw [overwrite, ih, Array.size_setIfInBounds]

theorem getElem?_overwrite (buffer : Array β) (start : Nat) (cells : List β) (i : Nat) :
    (overwrite buffer start cells)[i]? =
      if start ≤ i ∧ i < start + cells.length ∧
        i < buffer.size then cells[i - start]? else buffer[i]? := by
  induction cells generalizing buffer start with
  | nil => simp [overwrite]; omega
  | cons cell rest ih =>
    rw [overwrite, ih, Array.getElem?_setIfInBounds, Array.size_setIfInBounds, List.length_cons]
    rcases Nat.lt_trichotomy i start with before | same | after
    · rw [if_neg (by omega), if_neg (by omega), if_neg (by omega)]
    · subst same
      by_cases inside : i < buffer.size
      · rw [if_neg (by omega), if_pos rfl, if_pos inside, if_pos (by omega), Nat.sub_self,
          List.getElem?_cons_zero]
      · rw [if_neg (by omega), if_pos rfl, if_neg inside, if_neg (by omega),
          Array.getElem?_eq_none (Nat.not_lt.mp inside)]
    · have shifted : i - start = (i - (start + 1)) + 1 := by omega
      rw [if_neg (Nat.ne_of_lt after), shifted, List.getElem?_cons_succ]
      by_cases covered : i < start + 1 + rest.length ∧ i < buffer.size
      · rw [if_pos ⟨after, covered⟩, if_pos (by omega)]
      · rw [if_neg (fun all => covered all.2), if_neg (by omega)]

/-- Cells at the start of a record stand before what is left of it. -/
theorem toList_overwrite_zero (record : Array β) (cells : List β) :
    (overwrite record 0 cells).toList =
    cells.take record.size ++ record.toList.drop cells.length := by
  apply List.ext_getElem?
  intro i
  rw [Array.getElem?_toList, getElem?_overwrite, List.getElem?_append, List.length_take,
    Nat.zero_add, Nat.sub_zero]
  by_cases near : i < record.size
  · by_cases covered : i < cells.length
    · rw [if_pos (by omega), if_pos (by omega), List.getElem?_take_of_lt near]
    · have shifted : cells.length + (i - min record.size cells.length) = i := by omega
      rw [if_neg (by omega), if_neg (by omega), List.getElem?_drop, shifted, Array.getElem?_toList]
  · rw [if_neg (by omega), if_neg (by omega), Array.getElem?_eq_none (by omega),
      List.getElem?_eq_none]
    simp only [List.length_drop, Array.length_toList]
    omega

@[simp] theorem stride_write (s : RecordSet β) (slot : Nat) (cells : List β) :
    (s.write slot cells).stride = s.stride := by
  unfold write
  split <;> rfl

@[simp] theorem free_write (s : RecordSet β) (slot : Nat) (cells : List β) :
    (s.write slot cells).free = s.free := by
  unfold write
  split <;> rfl

@[simp] theorem buffer_size_write (s : RecordSet β) (slot : Nat) (cells : List β) :
    (s.write slot cells).buffer.size = s.buffer.size := by
  unfold write
  split
  · exact size_overwrite ..
  · rfl

@[simp] theorem slots_write (s : RecordSet β) (slot : Nat) (cells : List β) :
    (s.write slot cells).slots = s.slots := by
  simp [slots]

theorem Valid.write (valid : s.Valid size) (slot : Nat) (cells : List β) :
    (s.write slot cells).Valid size where
  storable := valid.storable
  stride_eq := by rw [stride_write, valid.stride_eq]
  whole := by rw [buffer_size_write, slots_write, stride_write, valid.whole]
  free_nodup := by rw [free_write]; exact valid.free_nodup
  free_lt := by rw [free_write, slots_write]; exact valid.free_lt

private theorem extract_overwrite_self {buffer : Array β} {start length : Nat} (cells : List β)
    (fits : start + length ≤ buffer.size) :
    (overwrite buffer start (cells.take length)).extract start (start + length) =
      overwrite (buffer.extract start (start + length)) 0 cells := by
  have whole : (buffer.extract start (start + length)).size = length := by
    rw [Array.size_extract, Nat.min_eq_left fits, Nat.add_sub_cancel_left]
  apply Array.ext_getElem?
  intro i
  rw [getElem?_overwrite, whole, Array.getElem?_extract, Array.getElem?_extract, size_overwrite,
    Nat.min_eq_left fits, Nat.add_sub_cancel_left, getElem?_overwrite, List.length_take]
  by_cases near : i < length
  · by_cases covered : i < cells.length
    · rw [if_pos near, if_pos (by omega), if_pos (by omega), Nat.add_sub_cancel_left,
        List.getElem?_take_of_lt near, Nat.sub_zero]
    · rw [if_pos near, if_neg (by omega), if_neg (by omega), if_pos near]
  · rw [if_neg near, if_neg (by omega), if_neg near]

private theorem extract_overwrite_apart {buffer : Array β} {cells : List β} {start low high : Nat}
    (apart : high ≤ start ∨ start + cells.length ≤ low) :
    (overwrite buffer start cells).extract low high = buffer.extract low high := by
  apply Array.ext_getElem?
  intro i
  rw [Array.getElem?_extract, Array.getElem?_extract, size_overwrite]
  split
  · rw [getElem?_overwrite, if_neg (by omega)]
  · rfl

theorem slots_disjoint {slot other : Nat} (stride : Nat) (different : other ≠ slot) :
    other * stride + stride ≤ slot * stride ∨ slot * stride + stride ≤ other * stride := by
  rw [← Nat.succ_mul, ← Nat.succ_mul]
  rcases Nat.lt_or_gt_of_ne different with before | after
  · exact .inl (Nat.mul_le_mul_right stride before)
  · exact .inr (Nat.mul_le_mul_right stride after)

/-- A write shows in its own record, and there as in an array of its own. -/
theorem Valid.record?_write (valid : s.Valid size) (slot : Nat) (cells : List β) (other : Nat) :
    (s.write slot cells).record? other =
      if other = slot then (s.record? slot).map (overwrite · 0 cells) else s.record? other := by
  rw [(valid.write slot cells).record?_eq, valid.record?_eq, valid.record?_eq,
    stride_write, slots_write]
  by_cases inside : slot < s.slots
  · have whole := (valid.hasRecord_iff slot).mpr inside
    have fits := valid.slot_end_le inside
    simp only [RecordSet.write, whole, if_true]
    by_cases same : other = slot
    · subst same
      rw [if_pos inside, if_pos rfl, if_pos inside, Option.map_some,
        extract_overwrite_self cells fits]
    · rw [if_neg same, extract_overwrite_apart]
      have apart := slots_disjoint s.stride same
      simp only [List.length_take]
      omega
  · have missing : ¬ s.hasRecord slot = true :=
      fun found => inside ((valid.hasRecord_iff slot).mp found)
    rw [RecordSet.write, if_neg missing, if_neg inside, Option.map_none]
    by_cases same : other = slot
    · rw [if_pos same, if_neg (same ▸ inside)]
    · rw [if_neg same]

@[simp] theorem free_load (s : RecordSet β) (image : Array β) : (s.load image).free = [] := rfl

theorem Valid.slots_load (valid : s.Valid size) (image : Array β) :
    (s.load image).slots = image.size / s.stride := by
  have whole := Nat.div_mul_le_self image.size s.stride
  simp only [slots, load, Array.size_extract, Nat.sub_zero, Nat.min_eq_left whole]
  exact Nat.mul_div_cancel _ valid.stride_pos

theorem Valid.load (valid : s.Valid size) (image : Array β) : (s.load image).Valid size where
  storable := valid.storable
  stride_eq := valid.stride_eq
  whole := by
    have whole := Nat.div_mul_le_self image.size s.stride
    rw [valid.slots_load]
    simp only [RecordSet.load, Array.size_extract, Nat.sub_zero, Nat.min_eq_left whole]
  free_nodup := List.nodup_nil
  free_lt := by simp [RecordSet.load]

theorem Valid.record?_load (valid : s.Valid size) (image : Array β) (slot : Nat) :
    (s.load image).record? slot = if slot < image.size / s.stride then
      some (image.extract (slot * s.stride) (slot * s.stride + s.stride)) else none := by
  rw [(valid.load image).record?_eq, valid.slots_load]
  split
  · rename_i inside
    have fits := (valid.load image).slot_end_le (by rw [valid.slots_load]; exact inside)
    have whole := Nat.div_mul_le_self image.size s.stride
    simp only [RecordSet.load, Array.size_extract, Nat.sub_zero, Nat.min_eq_left whole] at fits ⊢
    rw [Array.extract_extract, Nat.zero_add, Nat.zero_add, Nat.min_eq_left fits]
  · rfl

end ParticleSystem.RecordSet
