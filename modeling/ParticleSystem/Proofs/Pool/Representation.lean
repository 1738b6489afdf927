import ParticleSystem.Proofs.Pool.Holdings
import Mathlib.Data.Finset.Card

namespace ParticleSystem

variable {ι β : Type}

/-- A set of a pool with its number of slots, as it lies in the buffer. -/
structure Pool.LaidOut (p : Pool β) (size : UInt32) (set : RecordSet β) (slots : Nat) : Prop where
  stride_aligned : alignment.toNat ∣ set.stride
  stride_fits : size.toNat ≤ set.stride
  stride_least : ∀ multiple, alignment.toNat ∣ multiple → size.toNat ≤ multiple →
  set.stride ≤ multiple
  slotCount_eq : set.slotCount = .ok slots
  buffer_size : set.buffer.size = slots * set.stride
  free_nodup : set.free.Nodup
  free_lt : ∀ slot ∈ set.free, slot < slots
  free_length_le : set.free.length ≤ slots
  activeSize_eq : p.activeSize size = .ok (slots - set.free.length)
  data?_eq : ∀ slot, p.data? size slot = if slot < slots then
    some (set.buffer.extract (slot * set.stride) ((slot + 1) * set.stride)) else none
  /-- The end of a record is a number of 64 bits for every slot of 32 bits. -/
  end_lt : ∀ slot : UInt32, slot.toNat * set.stride + set.stride < UInt64.size

theorem Pool.Valid.laidOut {p : Pool β} {size : UInt32} {set : RecordSet β} (valid : p.Valid)
    (found : p.find? size = some set) : p.LaidOut size set set.slots := by
  have own := valid size set found
  constructor
  · rw [own.stride_eq]
    exact dvd_strideOf size
  · rw [own.stride_eq]
    exact le_strideOf size
  · intro multiple aligned fits
    rw [own.stride_eq]
    exact strideOf_le aligned fits
  · exact own.slotCount_eq
  · exact own.whole
  · exact own.free_nodup
  · exact own.free_lt
  · exact own.free_length_le
  · rw [activeSize, found]
    exact own.activeSize_eq
  · intro slot
    rw [data?, found, Option.bind_some, own.record?_eq, Nat.succ_mul]
  · exact own.end_lt

theorem Account.Describes.activeSize_eq {p : Pool β} {size : UInt32} {a : Account} (valid : p.Valid)
    (same : a.Describes (p.setAt size)) :
    p.activeSize size = .ok a.held.card ∧ a.balance = a.held.card := by
  cases found : p.find? size with
  | none =>
    rw [Pool.setAt_of_missing found] at same
    have held := same.held_eq
    have balance := same.balance_eq
    simp only [RecordSet.slots_empty, RecordSet.free_empty] at held balance
    simp [Pool.activeSize, found, held, balance]
  | some set =>
    rw [Pool.setAt_of_find? found] at same
    have own := valid size set found
    have below : set.free.toFinset ⊆ Finset.range set.slots := by
      intro slot member
      exact Finset.mem_range.mpr (own.free_lt slot (List.mem_toFinset.mp member))
    have card : a.held.card = set.slots - set.free.length := by
      rw [same.held_eq, Finset.card_sdiff_of_subset below, Finset.card_range,
        List.toFinset_card_of_nodup own.free_nodup]
    have fits := own.free_length_le
    constructor
    · rw [Pool.activeSize, found, card]
      exact own.activeSize_eq
    · rw [same.balance_eq, card]
      omega

variable [DecidableEq ι] [Cell β]

theorem PoolEvent.Effect.handed_out_fresh {before after : ι → Pool β} {call : PoolCall ι β}
    {slot : Nat} {accounts : Accounts ι} {pool : ι} {size : UInt32}
    (effect : PoolEvent.Effect before ⟨call, .ok (some slot)⟩ after)
    (same : accounts.Describe before)
    (asked : call = .alloc pool size ∨ ∃ value, call = .store pool size value) :
    slot ∉ (accounts pool size).held := by
  rcases asked with rfl | ⟨value, rfl⟩
  · cases effect with
    | claimed => exact (same pool size).next_not_held
  · cases effect with
    | stored => exact (same pool size).next_not_held

/-- Whatever calls were made and refused, every set is laid out in whole records, no slot is handed
out while it is in use, and the slots in use are those handed out less those given back, where an
image counts all its records and a copied pool takes over the account of its source. -/
theorem PoolHistory.sets_laid_out (calls : List (PoolCall ι β)) (sized : ∀ call ∈ calls, call.Sized)
    (i : ι) (size : UInt32) :
    let history := PoolHistory.ofCalls calls
    let pool := history.pools i
    let account := Accounts.ofEvents history.events i size
    (∀ set, pool.find? size = some set → ∃ slots, pool.LaidOut size set slots) ∧
      (∀ (call : PoolCall ι β) slot after,
        (call = .alloc i size ∨ ∃ value, call = .store i size value) →
        call.perform history.pools = (.ok (some slot), after) → slot ∉ account.held) ∧
      pool.activeSize size = .ok account.held.card ∧ account.balance = account.held.card := by
  intro history pool account
  have valid := PoolHistory.valid_ofCalls sized
  have described := PoolHistory.accounts_describe sized
  refine ⟨fun set found => ⟨_, (valid i).laidOut found⟩, ?_,
    (described i size).activeSize_eq (valid i)⟩
  intro call slot after asked done
  have allowed : call.Sized := by rcases asked with rfl | ⟨value, rfl⟩ <;> trivial
  have effect := PoolCall.perform_effect valid call allowed
  rw [show call.perform (PoolHistory.ofCalls calls).pools = _ from done] at effect
  exact effect.handed_out_fresh described asked

/-- A slot is given back twice, the pool is copied, and the copy goes its own way. -/
theorem sets_laid_out_refused :
    let calls : List (PoolCall Bool UInt8) :=
      [.alloc false 3, .store false 3 ⟨#[1, 2, 3], rfl⟩, .free false 3 0, .free false 3 0,
        .copy false true, .alloc true 3, .alloc true 3, .emplace false 3 (.replicate 33 4)]
    let history := PoolHistory.ofCalls calls
    (∃ set slots, (history.pools true).find? 3 = some set ∧
      (history.pools true).LaidOut 3 set slots) ∧
      (history.pools true).activeSize 3 = .ok 3 ∧ (history.pools false).activeSize 3 = .ok 2 := by
  intro calls history
  have sized : ∀ call ∈ calls, call.Sized := by simp [calls, PoolCall.Sized]
  obtain ⟨laid, _, copied, _⟩ := PoolHistory.sets_laid_out calls sized true 3
  obtain ⟨_, _, restored, _⟩ := PoolHistory.sets_laid_out calls sized false 3
  have present : ((history.pools true).find? 3).isSome = true := by decide
  obtain ⟨set, found⟩ := Option.isSome_iff_exists.mp present
  obtain ⟨slots, layout⟩ := laid set found
  exact ⟨⟨set, slots, found, layout⟩, copied, restored⟩

end ParticleSystem
