import ParticleSystem.Proofs.Pool.Locality

/-!
Which calls are refused, for which reason, and what a refused call leaves: everything as it was. The
one exception is an image for records without a size. It is refused, but leaves an empty set whose
stride is zero; the set stays until its pool is cleared or copied over, is refused every question
about its slots, and shows in no call on records that have a size.
-/

namespace ParticleSystem

variable {ι β γ : Type} {size : UInt32} {p : Pool β}

namespace Pool

/-- Whether work fails for a reason and changes nothing, or succeeds when there is no reason. -/
def Decided (work : EStateM PoolFault (Pool β) γ) (reason : Option PoolFault) (p : Pool β) : Prop :=
  match reason with
  | some fault => work p = .error fault p
  | none => ∃ value, answer work p = .ok value

theorem decided_of_ok {work : EStateM PoolFault (Pool β) γ} {value : γ} {after : Pool β}
    (done : work p = .ok value after) : Decided work none p := ⟨value, by rw [answer, done]⟩

/-- A missing set of another size does not matter to whether local work fails. -/
theorem Local.decided_of_erase {work : EStateM PoolFault (Pool β) γ} (own : Local size work)
    {key : UInt32} (other : size ≠ key) {reason : Option PoolFault}
    (decided : Decided work reason (p.erase key)) : Decided work reason p := by
  have answered := own.answer_erase other p
  cases reason with
  | none =>
    obtain ⟨value, done⟩ := decided
    exact ⟨value, answered.symm.trans done⟩
  | some fault =>
    have failed : work (p.erase key) = .error fault (p.erase key) := decided
    have rest := own.left_erase other p
    have here := own.frame p key other.symm
    simp only [answer, left, failed] at answered rest
    change work p = .error fault p
    cases result : work p with
    | ok value after =>
      rw [result] at answered
      cases answered
    | error reason after =>
      simp only [left, result] at answered rest here
      cases answered
      rw [eq_of_erase rest here.symm]

private theorem freeFault?_erase {key : UInt32} (other : size ≠ key) (p : Pool β) (slot : Nat) :
    (p.erase key).freeFault? size slot = p.freeFault? size slot := by
  rw [freeFault?, freeFault?, find?_erase_of_ne other]

private theorem emplaceFault?_erase {key : UInt32} (other : size ≠ key) (p : Pool β) :
    (p.erase key).emplaceFault? size = p.emplaceFault? size := by
  rw [emplaceFault?, emplaceFault?, find?_erase_of_ne other]

/-- Whether the set for records without a size is empty, if there is one. -/
def Void (p : Pool β) : Prop := ∀ set, p.find? 0 = some set → set = .empty 0

namespace Void

theorem free_zero (void : p.Void) (slot : Nat) :
    ∃ fault, p.freeFault? 0 slot = some fault ∧ free 0 slot p = .error fault p := by
  cases found : p.find? 0 with
  | none => exact ⟨.unknownSet 0, by rw [freeFault?, found], free_of_missing slot found⟩
  | some set =>
    have empty := void set found
    subst empty
    exact ⟨.zeroStride, by simp [freeFault?, found], free_of_check found rfl⟩

private theorem emplace_zero (void : p.Void) (image : Array β) :
    ∃ after, emplace 0 image p = .error .zeroStride after ∧
      after.find? = Function.update p.find? 0 (some (.empty 0)) := by
  have unanswered {made : Pool β} (held : made.find? 0 = some (.empty 0)) :
      ask 0 RecordSet.slotCount made = .error .zeroStride made := by
    rw [ask, held]
    rfl
  cases found : p.find? 0 with
  | some set =>
    have empty := void set found
    subst empty
    refine ⟨p, ?_, ?_⟩
    · simp [emplace, ensure, found, unanswered, bind, EStateM.bind]
    · rw [← found, Function.update_eq_self]
  | none =>
    have made : (RecordSet.ofSize 0 : Except PoolFault (RecordSet β)) = .ok (.empty 0) := rfl
    have changed : (p.upsert 0 (.empty 0) id).find? =
        Function.update p.find? 0 (some (.empty 0)) := by
      rw [find?_upsert, found]
      rfl
    have held : (p.upsert 0 (.empty 0) id).find? 0 = some (.empty 0) := by
      rw [changed, Function.update_self]
    exact ⟨_, by simp [emplace, ensure, found, made, unanswered held, bind, EStateM.bind], changed⟩

private theorem write_zero (void : p.Void) (slot : Nat) (cells : List β) :
    p.write 0 slot cells = p := by
  apply modify_eq_self
  cases found : p.find? 0 with
  | none => rfl
  | some set =>
    rw [void set found, Option.map_some]
    simp [RecordSet.write, RecordSet.empty, strideOf, RecordSet.overwrite]

end Void

structure Sound (p : Pool β) : Prop where
  valid : (p.erase 0).Valid
  void : p.Void

namespace Sound

theorem setValid (sound : p.Sound) (nonzero : size ≠ 0) {set : RecordSet β}
    (found : p.find? size = some set) :
    set.Valid size := sound.valid size set (by rw [find?_erase_of_ne nonzero, found])

private theorem decided_alloc [Cell β] (sound : p.Sound) (size : UInt32) :
    Decided (alloc size) (allocFault? size) p := by
  cases refused : allocFault? size with
  | some fault => exact alloc_of_fault p refused
  | none =>
    obtain ⟨nonzero, small⟩ := allocFault?_eq_none.mp refused
    obtain ⟨_, done, _⟩ := sound.valid.alloc_eq_ok nonzero small
    exact (Local.alloc size).decided_of_erase nonzero (decided_of_ok done)

private theorem decided_store [Cell β] (sound : p.Sound) (size : UInt32) (cells : List β) :
    Decided (store size cells) (allocFault? size) p := by
  cases refused : allocFault? size with
  | some fault => exact store_of_fault (alloc_of_fault p refused)
  | none =>
    obtain ⟨nonzero, _⟩ := allocFault?_eq_none.mp refused
    rcases sound.valid.store_cases size cells with ⟨_, other, _⟩ | ⟨_, _, _, done, _⟩
    · cases refused.symm.trans other
    · exact (Local.store size cells).decided_of_erase nonzero (decided_of_ok done)

private theorem decided_free (sound : p.Sound) (size : UInt32) (slot : Nat) :
    Decided (free size slot) (p.freeFault? size slot) p := by
  by_cases zero : size = 0
  · subst zero
    obtain ⟨fault, refused, failed⟩ := sound.void.free_zero slot
    rw [refused]
    exact failed
  · refine (Local.free size slot).decided_of_erase zero ?_
    rw [← freeFault?_erase zero]
    rcases sound.valid.free_cases size slot with ⟨fault, refused, failed⟩ |
      ⟨allowed, _, _, _, _, _, done, _⟩
    · rw [refused]
      exact failed
    · rw [allowed]
      exact decided_of_ok done

private theorem decided_emplace (sound : p.Sound) (nonzero : size ≠ 0) (image : Array β) :
    Decided (emplace size image) (p.emplaceFault? size) p := by
  refine (Local.emplace size image).decided_of_erase nonzero ?_
  rw [← emplaceFault?_erase nonzero]
  rcases sound.valid.emplace_cases nonzero image with ⟨fault, refused, failed⟩ |
    ⟨allowed, _, _, done, _⟩
  · rw [refused]
    exact failed
  · rw [allowed]
    exact decided_of_ok done

theorem activeSize_eq_error_iff (sound : p.Sound) (size : UInt32) (fault : PoolFault) :
    p.activeSize size = .error fault ↔
    size = 0 ∧ p.find? 0 = some (.empty 0) ∧ fault = .zeroStride := by
  cases found : p.find? size with
  | none =>
    rw [activeSize, found]
    constructor
    · intro failed
      cases failed
    · rintro ⟨rfl, there, _⟩
      cases found.symm.trans there
  | some set =>
    rw [activeSize, found]
    by_cases zero : size = 0
    · subst zero
      have void := sound.void set found
      subst void
      have failed : (RecordSet.empty 0 : RecordSet β).activeSize = .error .zeroStride := rfl
      simp [failed, found, eq_comm]
    · simp [zero, (sound.setValid zero found).activeSize_eq]

end Sound

end Pool

namespace PoolCall

variable [DecidableEq ι] {pools : ι → Pool β} {call : PoolCall ι β}

omit [DecidableEq ι] in
/-- Why a call is refused. -/
def fault? (pools : ι → Pool β) : PoolCall ι β → Option PoolFault
  | .alloc _ size => Pool.allocFault? size
  | .free pool size slot => (pools pool).freeFault? size slot
  | .store _ size _ => Pool.allocFault? size
  | .write .. => none
  | .emplace pool size _ => (pools pool).emplaceFault? size
  | .copy .. => none
  | .reset _ => none

/-- Which pools have an empty set for records without a size after a call. -/
def void (before : ι → Bool) : PoolCall ι β → ι → Bool
  | .emplace pool size _ => if size = 0 then Function.update before pool true else before
  | .copy source target => Function.update before target (before source)
  | .reset pool => Function.update before pool false
  | _ => before

/-- What a call that is refused leaves, and what one that is not may change. -/
structure Exact [Cell β] (call : PoolCall ι β) (pools : ι → Pool β) : Prop where
  refused_iff : ∀ fault, (call.perform pools).1 = .error fault ↔ call.fault? pools = some fault
  /-- Only the first image for records without a size leaves something behind. -/
  unchanged : ∀ fault, (call.perform pools).1 = .error fault →
    (∀ i image, call = .emplace i 0 image → (pools i).find? 0 ≠ none) →
    (call.perform pools).2 = pools
  confined : ∀ i size, call.own? = some (i, size) → ∀ j other, (j, other) ≠ (i, size) →
    ((call.perform pools).2 j).find? other = (pools j).find? other

omit [DecidableEq ι] in
/-- Whether a call was refused for a reason and changed nothing, or
was answered when there is no reason. -/
def Decided (pools : ι → Pool β) (reason : Option PoolFault)
    (result : Except PoolFault (Option Nat) × (ι → Pool β)) : Prop :=
  match reason with
  | some fault => result = (.error fault, pools)
  | none => ∃ answer, result.1 = .ok answer

theorem decided_on {pool : ι} {work : EStateM PoolFault (Pool β) γ} {reason : Option PoolFault}
    (slot : γ → Option Nat) (decided : Pool.Decided work reason (pools pool)) :
    Decided pools reason (on pool work slot pools) := by
  rw [on_eq]
  cases reason with
  | some fault =>
    have failed : work (pools pool) = .error fault (pools pool) := decided
    simp [Decided, Pool.answer, Pool.left, failed, Except.map]
  | none =>
    obtain ⟨value, done⟩ := decided
    exact ⟨slot value, by simp [done, Except.map]⟩

variable [Cell β]

theorem perform_decided (sound : ∀ i, (pools i).Sound) (sized : call.Sized) :
    Decided pools (call.fault? pools) (call.perform pools) := by
  cases call with
  | alloc pool size => exact decided_on some ((sound pool).decided_alloc size)
  | free pool size slot => exact decided_on _ ((sound pool).decided_free size slot)
  | store pool size value => exact decided_on some ((sound pool).decided_store size value.toList)
  | write pool size slot cells => exact ⟨none, rfl⟩
  | emplace pool size image => exact decided_on _ ((sound pool).decided_emplace sized image)
  | copy source target => exact ⟨none, rfl⟩
  | reset pool => exact ⟨none, rfl⟩

private theorem perform_zero (void : ∀ i, (pools i).Void) (sized : call.Sized)
    (concerned : call.concerns 0 = true) : (call.perform pools).2 = pools := by
  cases call with
  | alloc pool size =>
    have zero : size = 0 := of_decide_eq_true concerned
    have refused : Pool.Decided (Pool.alloc size) (some .zeroSize) (pools pool) :=
      Pool.alloc_of_fault _ (if_pos zero)
    exact congrArg Prod.snd (decided_on some refused)
  | free pool size slot =>
    have zero : size = 0 := of_decide_eq_true concerned
    subst zero
    obtain ⟨fault, _, failed⟩ := (void pool).free_zero slot
    have refused : Pool.Decided (Pool.free 0 slot) (some fault) (pools pool) := failed
    exact congrArg Prod.snd (decided_on _ refused)
  | store pool size value =>
    have zero : size = 0 := of_decide_eq_true concerned
    have refused : Pool.Decided (Pool.store size value.toList) (some .zeroSize) (pools pool) :=
      Pool.store_of_fault (Pool.alloc_of_fault _ (if_pos zero))
    exact congrArg Prod.snd (decided_on some refused)
  | write pool size slot cells =>
    have zero : size = 0 := of_decide_eq_true concerned
    subst zero
    simp only [perform, (void pool).write_zero, Function.update_eq_self]
  | emplace pool size image => exact absurd (of_decide_eq_true concerned) sized
  | copy source target => cases concerned
  | reset pool => cases concerned

theorem perform_emplace_zero (void : ∀ i, (pools i).Void) (pool : ι) (image : Array β) : ∃ after,
    (PoolCall.emplace pool 0 image).perform pools =
      (.error .zeroStride, Function.update pools pool after) ∧
      after.find? = Function.update (pools pool).find? 0 (some (.empty 0)) := by
  obtain ⟨after, failed, changed⟩ := (void pool).emplace_zero image
  exact ⟨after, by simp [perform, on, failed], changed⟩

private theorem find?_emplace_zero (void : ∀ i, (pools i).Void) (pool : ι) (image : Array β) :
    (((PoolCall.emplace pool 0 image).perform pools).2 pool).find? 0 = some (.empty 0) := by
  obtain ⟨after, result, changed⟩ := perform_emplace_zero void pool image
  simp only [result, Function.update_self, changed]

theorem exact (sound : ∀ i, (pools i).Sound) (call : PoolCall ι β) : call.Exact pools := by
  have confined : ∀ i size, call.own? = some (i, size) → ∀ j other, (j, other) ≠ (i, size) →
      ((call.perform pools).2 j).find? other = (pools j).find? other :=
    fun i size own j other apart => find?_perform own pools apart
  by_cases sized : call.Sized
  · have decided := perform_decided sound sized
    cases reason : call.fault? pools with
    | some fault =>
      rw [reason] at decided
      have result : call.perform pools = (.error fault, pools) := decided
      refine ⟨?_, ?_, confined⟩
      · simp [result, reason]
      · simp [result]
    | none =>
      rw [reason] at decided
      obtain ⟨answer, done⟩ := decided
      refine ⟨?_, ?_, confined⟩
      · simp [done, reason]
      · simp [done]
  · cases call with
    | emplace pool size image =>
      have zero : size = 0 := not_not.mp sized
      subst zero
      obtain ⟨after, result, changed⟩ := perform_emplace_zero (fun i => (sound i).void) pool image
      refine ⟨?_, ?_, confined⟩
      · simp [result, fault?, Pool.emplaceFault?]
      · intro fault _ there
        have held := there pool image rfl
        obtain ⟨set, found⟩ := Option.ne_none_iff_exists'.mp held
        rw [← (sound pool).void set found, ← found, Function.update_eq_self] at changed
        rw [result, Pool.ext_find? changed, Function.update_eq_self]
    | _ => exact absurd trivial sized

omit [Cell β] [DecidableEq ι] in
theorem sized_of_apart (apart : call.concerns 0 = false) : call.Sized := by
  cases call with
  | emplace pool size image => exact of_decide_eq_false apart
  | _ => trivial

/-- Only restoring an image makes a set for records without a size. -/
theorem find?_zero_of_sized (void : ∀ i, (pools i).Void) (call : PoolCall ι β) (sized : call.Sized)
    {pool : ι} (own : call.own? = some (pool, size)) (i : ι) :
    ((call.perform pools).2 i).find? 0 = (pools i).find? 0 := by
  by_cases zero : size = 0
  · rw [perform_zero void sized ((concerns_of_own own).trans (decide_eq_true zero))]
  · exact find?_perform own pools fun same => zero (Prod.mk.inj same).2.symm

omit [Cell β] [DecidableEq ι] in
/-- The empty set for records without a size, where there is one. -/
def voidSet (there : Bool) : Option (RecordSet β) := if there then some (.empty 0) else none

omit [Cell β] [DecidableEq ι] in
theorem void_of_voidSet {before : ι → Bool} (held : ∀ i, (pools i).find? 0 = voidSet (before i))
    (i : ι) : (pools i).Void := by
  intro set found
  rw [held i, voidSet] at found
  split at found
  · exact (Option.some.inj found).symm
  · cases found

private theorem find?_zero_perform {before : ι → Bool}
    (held : ∀ i, (pools i).find? 0 = voidSet (before i)) (call : PoolCall ι β) (i : ι) :
    ((call.perform pools).2 i).find? 0 = voidSet (call.void before i) := by
  have void := void_of_voidSet held
  cases call with
  | alloc pool size =>
    exact (find?_zero_of_sized void (.alloc pool size) trivial rfl i).trans (held i)
  | free pool size slot =>
    exact (find?_zero_of_sized void (.free pool size slot) trivial rfl i).trans (held i)
  | store pool size value =>
    exact (find?_zero_of_sized void (.store pool size value) trivial rfl i).trans (held i)
  | write pool size slot cells =>
    exact (find?_zero_of_sized void (.write pool size slot cells) trivial rfl i).trans (held i)
  | emplace pool size image =>
    by_cases zero : size = 0
    · subst zero
      obtain ⟨after, result, changed⟩ := perform_emplace_zero void pool image
      simp only [result, PoolCall.void, if_true, Function.update_apply]
      split
      · rw [changed, Function.update_self]
        rfl
      · exact held i
    · rw [PoolCall.void, if_neg zero]
      exact (find?_zero_of_sized void (.emplace pool size image) zero rfl i).trans (held i)
  | copy source target =>
    simp only [perform, PoolCall.void, Function.update_apply]
    split
    · exact held source
    · exact held i
  | reset pool =>
    simp only [perform, PoolCall.void, Function.update_apply]
    split
    · rfl
    · exact held i

theorem find?_zero_run {before : ι → Bool} (held : ∀ i, (pools i).find? 0 = voidSet (before i))
    (calls : List (PoolCall ι β)) (i : ι) :
    ((run calls pools).pools i).find? 0 = voidSet (calls.foldl PoolCall.void before i) := by
  induction calls generalizing pools before with
  | nil => exact held i
  | cons call rest ih =>
    rw [run_cons, List.foldl_cons]
    exact ih (find?_zero_perform held call)

end PoolCall

namespace PoolHistory

variable [DecidableEq ι] [Cell β]

omit [Cell β] in
/-- Which pools have an empty set for records without a size after calls on new pools:
those for which such records were restored since they were last cleared or copied over, or
which were copied from one that had it. -/
def void (calls : List (PoolCall ι β)) : ι → Bool := calls.foldl PoolCall.void fun _ => false

/-- The calls on records that have a size have the history they would have alone. -/
theorem ofCalls_filter (calls : List (PoolCall ι β)) : ofCalls (calls.filter (!·.concerns 0)) =
    ⟨(ofCalls calls).events.filter (!·.call.concerns 0), fun i =>
      ((ofCalls calls).pools i).erase 0⟩ :=
  PoolCall.run_filter 0 calls fun _ => .empty

theorem find?_zero_ofCalls (calls : List (PoolCall ι β)) (i : ι) :
    ((ofCalls calls).pools i).find? 0 = PoolCall.voidSet (void calls i) :=
  PoolCall.find?_zero_run (fun _ => Pool.find?_empty 0) calls i

theorem sound_ofCalls (calls : List (PoolCall ι β)) (i : ι) : ((ofCalls calls).pools i).Sound where
  valid := by
    have sized : ∀ call ∈ calls.filter (!·.concerns 0), call.Sized := by
      intro call member
      exact PoolCall.sized_of_apart (by simpa using (List.mem_filter.mp member).2)
    have valid := valid_ofCalls sized i
    rwa [ofCalls_filter] at valid
  void := PoolCall.void_of_voidSet (find?_zero_ofCalls calls) i

/-- Whatever calls were made before, a call is refused exactly for its reason, a refused call
leaves all pools as they were, and a call that is answered changes its own set only. The one
call that is refused and leaves something is an image for records without a size: an empty set,
which stays until its pool is cleared or copied over, has no number of slots, and does not show
in any call on records that have a size. -/
theorem refusals_exact (calls : List (PoolCall ι β)) :
    let history := ofCalls calls
    let pools := history.pools
    (∀ call : PoolCall ι β, call.Exact pools) ∧
      (∀ i image, (((PoolCall.emplace i 0 image).perform pools).2 i).find? 0 = some ⟨0, #[], []⟩) ∧
      (∀ i, (pools i).find? 0 = if void calls i then some ⟨0, #[], []⟩ else none) ∧
      (∀ i size fault, (pools i).activeSize size = .error fault ↔
        size = 0 ∧ void calls i = true ∧ fault = .zeroStride) ∧
      (∀ i size set, (pools i).find? size = some set →
        ∀ slot : UInt32, slot.toNat * set.stride + set.stride < UInt64.size) ∧
      ofCalls (calls.filter (!·.concerns 0)) =
        ⟨history.events.filter (!·.call.concerns 0), fun i => (pools i).erase 0⟩ := by
  intro history pools
  have sound := sound_ofCalls calls
  have held := find?_zero_ofCalls calls
  refine ⟨PoolCall.exact sound, ?_, held, ?_, ?_, ofCalls_filter calls⟩
  · intro i image
    exact PoolCall.find?_emplace_zero (fun i => (sound i).void) i image
  · intro i size fault
    rw [(sound i).activeSize_eq_error_iff, held i]
    cases void calls i <;> simp [PoolCall.voidSet]
  · intro i size set found slot
    by_cases zero : size = 0
    · subst zero
      rw [(sound i).void set found]
      change slot.toNat * 0 + 0 < UInt64.size
      rw [Nat.mul_zero]
      decide
    · exact ((sound i).setValid zero found).end_lt slot

/-- A pool with a slot given back twice and an image for records
without a size, which a copy takes along. -/
theorem refusals_exact_copied :
    let calls : List (PoolCall Bool UInt8) :=
      [.alloc false 3, .alloc false 3, .free false 3 1, .emplace false 0 #[7], .copy false true,
        .reset false]
    let pools := (ofCalls calls).pools
    (∀ fault, ((PoolCall.free true 3 1).perform pools).1 = .error fault ↔ fault = .doubleFree 1) ∧
      ((PoolCall.free true 3 1).perform pools).2 = pools ∧
      (∀ fault, (pools true).activeSize 0 = .error fault ↔ fault = .zeroStride) ∧
      (pools true).find? 0 = some ⟨0, #[], []⟩ ∧ (pools false).find? 0 = none ∧
      (ofCalls (calls.filter (!·.concerns 0))).pools true = (pools true).erase 0 := by
  intro calls pools
  obtain ⟨exact_call, _, void, sizes, _, filtered⟩ := refusals_exact calls
  have call := exact_call (.free true 3 1)
  have reason : (PoolCall.free true 3 1).fault? pools = some (.doubleFree 1) := by decide
  have kept : PoolHistory.void calls true = true := by decide
  have cleared : PoolHistory.void calls false = false := by decide
  refine ⟨fun fault => ?_, ?_, fun fault => ?_, ?_, ?_, ?_⟩
  · rw [call.refused_iff fault, reason]
    simp [eq_comm]
  · exact call.unchanged (.doubleFree 1) ((call.refused_iff _).mpr reason) (by simp)
  · rw [sizes true 0 fault, kept]
    simp
  · rw [void true, kept]
    rfl
  · rw [void false, cleared]
    rfl
  · rw [filtered]

end PoolHistory

end ParticleSystem
