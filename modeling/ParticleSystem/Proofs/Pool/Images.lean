import ParticleSystem.Proofs.Pool.Reuse

namespace ParticleSystem

variable {ι κ β : Type} {size : UInt32}

/-- Whether cells are the longest start of an image that is a whole number of strides. -/
structure WholeStart (stride : Nat) (cells image : List β) : Prop where
  start : cells <+: image
  whole : stride ∣ cells.length
  longest : ∀ other, other <+: image → stride ∣ other.length → other.length ≤ cells.length

namespace RecordSet

variable {s source : RecordSet β}

theorem Valid.buffer_load (valid : s.Valid size) (image : Array β) :
    WholeStart s.stride (s.load image).buffer.toList image.toList := by
  have cells : (s.load image).buffer.toList =
      image.toList.take (image.size / s.stride * s.stride) := by
    rw [RecordSet.load, Array.toList_extract, List.extract_eq_take_drop, List.drop_zero,
      Nat.sub_zero]
  have length : (s.load image).buffer.toList.length = image.size / s.stride * s.stride := by
    rw [cells, List.length_take, Array.length_toList, Nat.min_eq_left (Nat.div_mul_le_self ..)]
  constructor
  · rw [cells]
    exact List.take_prefix ..
  · rw [length]
    exact Nat.dvd_mul_left ..
  · rintro other part ⟨records, whole⟩
    have fits : other.length ≤ image.size := part.length_le
    rw [whole, Nat.mul_comm] at fits
    rw [length, whole, Nat.mul_comm]
    exact Nat.mul_le_mul_right _ ((Nat.le_div_iff_mul_le valid.stride_pos).mpr fits)

/-- A set restored from the buffer of another one is that set with all its slots in use. -/
theorem Valid.load_buffer (valid : s.Valid size) (other : source.Valid size) :
    s.load source.buffer = { source with free := [] } := by
  have same : s.stride = source.stride := by rw [valid.stride_eq, other.stride_eq]
  have whole : source.buffer.size / source.stride * source.stride = source.buffer.size :=
    other.whole.symm
  rw [RecordSet.load, same, whole, Array.extract_size]

end RecordSet

/-- A set of a pool as it stands once its records are those of an image. -/
structure Pool.Restored (p : Pool β) (size : UInt32) (image : Array β) (set : RecordSet β) :
    Prop where
  found : p.find? size = some set
  stride_eq : set.stride = strideOf size
  buffer : WholeStart (strideOf size) set.buffer.toList image.toList
  free_eq : set.free = []
  data?_eq : ∀ slot, p.data? size slot = if slot < image.size / strideOf size then
    some (image.extract (slot * strideOf size) ((slot + 1) * strideOf size)) else none

/-- The slots of a set, all of them in use, as many as a word says. -/
structure Pool.AllInUse (p : Pool β) (size : UInt32) (set : RecordSet β) (records : UInt32) :
    Prop where
  slotCount_eq : set.slotCount = .ok records.toNat
  activeSize_eq : p.activeSize size = .ok records.toNat

private theorem Pool.restored_of_update {p left : Pool β} {s : RecordSet β} (valid : s.Valid size)
    {image : Array β} (changed : left.find? = Function.update p.find? size (some (s.load image))) :
    left.Restored size image (s.load image) := by
  constructor
  · rw [changed, Function.update_self]
  · exact valid.stride_eq
  · have start := valid.buffer_load image
    rwa [valid.stride_eq] at start
  · exact RecordSet.free_load s image
  · intro slot
    rw [data?_of_update changed, valid.record?_load, valid.stride_eq, Nat.succ_mul]

private theorem Pool.allInUse_of_update {p left : Pool β} {s : RecordSet β} (valid : s.Valid size)
    {image : Array β}
    (changed : left.find? = Function.update p.find? size (some (s.load image)))
    (fewer : image.size / strideOf size < UInt32.size) :
    ∃ records : UInt32, records.toNat = image.size / strideOf size ∧
      left.AllInUse size (s.load image) records := by
  have own := valid.load image
  have word : (UInt32.ofNat (image.size / strideOf size)).toNat = image.size / strideOf size :=
    UInt32.toNat_ofNat_of_lt' fewer
  have slots : (s.load image).slots = image.size / strideOf size := by
    rw [valid.slots_load, valid.stride_eq]
  refine ⟨_, word, ?_, ?_⟩
  · rw [own.slotCount_eq, slots, word]
  · have found : left.find? size = some (s.load image) := by rw [changed, Function.update_self]
    rw [activeSize, found, word, ← slots]
    change (s.load image).activeSize = _
    rw [own.activeSize_eq, RecordSet.free_load, List.length_nil, Nat.sub_zero]

private theorem Pool.emplaceFault?_eq_none (p : Pool β) (nonzero : size ≠ 0)
    (room : size < 4294967280) :
    p.emplaceFault? size = none := by
  have low : ¬4294967280 ≤ size := UInt32.not_le.mpr room
  rw [emplaceFault?, if_neg nonzero, if_neg fun both => low both.2]

variable [DecidableEq ι] {pool : ι} {pools : ι → Pool β} [Cell β]

namespace PoolCall

theorem perform_emplace (sound : (pools pool).Sound) (nonzero : size ≠ 0) (room : size < 4294967280)
    (image : Array β) : ∃ left : Pool β, (PoolCall.emplace pool size image).perform pools =
        (.ok none, Function.update pools pool left) ∧
      left.find? = Function.update (pools pool).find? size
        (some (((pools pool).setAt size).load image)) := by
  rcases sound.valid.emplace_cases nonzero image with ⟨fault, refused, -⟩ |
    ⟨-, -, after, done, changed⟩
  · rw [Pool.emplaceFault?_eq_none _ nonzero room] at refused
    cases refused
  · rw [Pool.setAt_erase nonzero] at changed
    obtain ⟨left, done, changed⟩ := (Pool.Local.emplace size image).of_erase nonzero done changed
    exact ⟨left, by simp [perform, on, done], changed⟩

private theorem perform_alloc_of_restored (sound : (pools pool).Sound) (nonzero : size ≠ 0)
    (small : size ≤ maxRecordSize) {image : Array β} {set : RecordSet β}
    (restored : (pools pool).Restored size image set) {records : Nat}
    (count : set.slotCount = .ok records) :
    ∃ last : Pool β, (PoolCall.alloc pool size).perform pools =
        (.ok (some records), Function.update pools pool last) ∧
      ∀ slot < records, last.data? size slot = (pools pool).data? size slot := by
  obtain ⟨last, done, changed⟩ := perform_alloc sound nonzero small
  have valid := sound.setValid nonzero restored.found
  have slots : set.slots = records := by
    rw [valid.slotCount_eq] at count
    exact Except.ok.inj count
  rw [Pool.setAt_of_find? restored.found] at done changed
  rw [RecordSet.next_eq_slots restored.free_eq, slots] at done
  refine ⟨last, done, fun slot inside => ?_⟩
  have other : slot ≠ set.next := by
    rw [RecordSet.next_eq_slots restored.free_eq, slots]
    exact Nat.ne_of_lt inside
  rw [Pool.data?_of_update changed, valid.record?_claim, if_neg other, Pool.data?, restored.found,
    Option.bind_some]

private theorem perform_alloc_of_large (large : maxRecordSize < size) (pools : ι → Pool β) :
    (PoolCall.alloc pool size).perform pools = (.error (.recordTooLarge size), pools) := by
  have nonzero : size ≠ 0 := by
    rintro rfl
    exact absurd large (by decide)
  have refused : Pool.Decided (Pool.alloc size) (some (.recordTooLarge size)) (pools pool) :=
    Pool.alloc_of_fault _ (by rw [Pool.allocFault?, if_neg nonzero, if_pos large])
  exact decided_on some refused

end PoolCall

namespace PoolHistory

/-- Whatever happened before, a set restored from an image holds the whole records of the image, in
order, and no other set changes. As long as a word counts these records they are all in use, and the
next slot that is handed out lies behind them and leaves them alone, but none is handed out for
records that are too large. A set restored from the buffer of a set, of whichever pool, holds the
same records, and is the same set exactly when no slot of that one was free. -/
theorem images_restored [DecidableEq κ] (calls : List (PoolCall ι β)) (pool : ι)
    (nonzero : size ≠ 0) (room : size < 4294967280) : let pools := (ofCalls calls).pools
    (∀ image : Array β, ∃ (left : Pool β) (set : RecordSet β),
      let after := Function.update pools pool left
      (PoolCall.emplace pool size image).perform pools = (.ok none, after) ∧
      left.Restored size image set ∧
        (∀ other, other ≠ size → left.find? other = (pools pool).find? other) ∧
        (image.size / strideOf size < UInt32.size → ∃ records : UInt32,
          records.toNat = image.size / strideOf size ∧ left.AllInUse size set records ∧
          (size ≤ maxRecordSize → ∃ last : Pool β, (PoolCall.alloc pool size).perform after =
              (.ok (some records.toNat), Function.update after pool last) ∧
            ∀ slot < records.toNat, last.data? size slot = left.data? size slot)) ∧
        (maxRecordSize < size →
          (PoolCall.alloc pool size).perform after = (.error (.recordTooLarge size), after))) ∧
    ∀ (others : List (PoolCall κ β)) (i : κ) (own : RecordSet β),
      ((ofCalls others).pools i).find? size = some own → ∃ (left : Pool β) (copy : RecordSet β),
        (PoolCall.emplace pool size own.buffer).perform pools =
          (.ok none, Function.update pools pool left) ∧
          left.find? size = some copy ∧
          (∀ slot, left.data? size slot = ((ofCalls others).pools i).data? size slot) ∧
          (copy = own ↔ own.free = []) := by
  intro pools
  have sound := sound_ofCalls calls
  have storable := (Storable.iff_lt nonzero).mpr room
  have valid := (sound pool).setAt_valid storable
  refine ⟨fun image => ?_, fun others i own found => ?_⟩
  · obtain ⟨left, done, changed⟩ := PoolCall.perform_emplace (sound pool) nonzero room image
    have restored := Pool.restored_of_update valid changed
    have here : Function.update pools pool left pool = left := Function.update_self ..
    refine ⟨left, _, done, restored, fun other different => ?_, fun fewer => ?_, fun large => ?_⟩
    · rw [changed, Function.update_of_ne different]
    · obtain ⟨records, word, inUse⟩ := Pool.allInUse_of_update valid changed fewer
      refine ⟨records, word, inUse, fun small => ?_⟩
      have kept := (sound pool).of_update (valid.load image) changed
      rw [← here] at kept restored
      obtain ⟨last, handed, same⟩ :=
        PoolCall.perform_alloc_of_restored kept nonzero small restored inUse.slotCount_eq
      rw [here] at same
      exact ⟨last, handed, same⟩
    · exact PoolCall.perform_alloc_of_large large _
  · obtain ⟨left, done, changed⟩ := PoolCall.perform_emplace (sound pool) nonzero room own.buffer
    have same := valid.load_buffer ((sound_ofCalls others i).setValid nonzero found)
    rw [same] at changed
    refine ⟨left, { own with free := [] }, done, ?_, fun slot => ?_, ?_⟩
    · rw [changed, Function.update_self]
    · rw [Pool.data?_of_update changed, Pool.data?, found, Option.bind_some]
      rfl
    · rw [RecordSet.mk.injEq]
      simp [eq_comm]

/-- An image with a partial record at its end takes the place of a set with a free slot; and the set
of another pool, one of whose slots is free, is restored there. -/
theorem images_restored_over_used :
    let calls : List (PoolCall Unit UInt8) :=
      [.alloc () 3, .alloc () 3, .alloc () 3, .free () 3 1, .alloc () 4]
    let others : List (PoolCall Bool UInt8) :=
      [.alloc true 3, .alloc true 3, .free true 3 1, .copy true false]
    let pools := (ofCalls calls).pools
    let image : Array UInt8 := .replicate 40 9
    (∃ (left : Pool UInt8) (set : RecordSet UInt8),
      (PoolCall.emplace () 3 image).perform pools = (.ok none, Function.update pools () left) ∧
        left.Restored 3 image set ∧ left.find? 4 = (pools ()).find? 4 ∧ left.AllInUse 3 set 2 ∧
        ∃ last : Pool UInt8, (PoolCall.alloc () 3).perform (Function.update pools () left) =
          (.ok (some 2), Function.update (Function.update pools () left) () last)) ∧
      ∃ own, ((ofCalls others).pools false).find? 3 = some own ∧
        ∃ (left : Pool UInt8) (copy : RecordSet UInt8),
        (PoolCall.emplace () 3 own.buffer).perform pools =
          (.ok none, Function.update pools () left) ∧
          left.data? 3 0 = ((ofCalls others).pools false).data? 3 0 ∧ copy ≠ own := by
  intro calls others pools image
  have sized : (3 : UInt32) ≠ 0 := by decide
  obtain ⟨restores, copies⟩ := images_restored (κ := Bool) calls () sized (by decide)
  refine ⟨?_, ?_⟩
  · obtain ⟨left, set, done, restored, rest, counted, -⟩ := restores image
    have slots : image.size / strideOf 3 = (2 : UInt32).toNat := by decide
    obtain ⟨records, word, inUse, next⟩ := counted (by decide)
    obtain rfl : records = 2 := UInt32.toNat_inj.mp (word.trans slots)
    obtain ⟨last, handed, -⟩ := next (by decide)
    exact ⟨left, set, done, restored, rest 4 (by decide), inUse, last, handed⟩
  · have held : ((ofCalls others).pools false).find? 3 = some ⟨16, .replicate 32 0, [1]⟩ := by
      decide
    obtain ⟨left, copy, done, -, same, whole⟩ := copies others false _ held
    exact ⟨_, held, left, copy, done, same 0, fun equal => List.cons_ne_nil _ _ (whole.mp equal)⟩

/-- Records of 65537 cells are restored from an image, and then
no slot is handed out for another one. -/
theorem restored_large_not_extended :
    let restored := (PoolCall.emplace () 65537 (#[7] : Array UInt8)).perform (ofCalls []).pools
    (65537 : UInt32) < 4294967280 ∧ restored.1.isOk = true ∧
      ((restored.2 ()).find? 65537).map RecordSet.slotCount = some (.ok 0) ∧
      ((PoolCall.alloc () 65537).perform restored.2).1 ≠ .ok (some 0) := by
  decide

end PoolHistory

end ParticleSystem
