import ParticleSystem.Proofs.Pool.Histories
import Mathlib.Data.Finset.Basic
import Mathlib.Data.Finset.Range

namespace ParticleSystem

/-- What the events tell of one set. -/
structure Account where
  /-- The slots handed out and not given back. -/
  held : Finset Nat
  /-- The slots handed out less those given back. -/
  balance : Int

namespace Account

def clear : Account := ⟨∅, 0⟩

def take (slot : Nat) (a : Account) : Account := ⟨insert slot a.held, a.balance + 1⟩

def give (slot : Nat) (a : Account) : Account := ⟨a.held.erase slot, a.balance - 1⟩

/-- Of a set restored from an image, whose records are all in use. -/
def restored (records : Nat) : Account := ⟨Finset.range records, records⟩

variable {β : Type} {size : UInt32} {s : RecordSet β} {a : Account}

/-- The slots in use are those that are not free. -/
structure Describes (a : Account) (s : RecordSet β) : Prop where
  held_eq : a.held = Finset.range s.slots \ s.free.toFinset
  balance_eq : a.balance = s.slots - s.free.length

theorem Describes.mem_held (same : a.Describes s) (slot : Nat) :
    slot ∈ a.held ↔ slot < s.slots ∧ slot ∉ s.free := by
  rw [same.held_eq, Finset.mem_sdiff, Finset.mem_range, List.mem_toFinset]

theorem describes_empty (size : UInt32) : clear.Describes (.empty size : RecordSet β) where
  held_eq := by simp [clear]
  balance_eq := by simp [clear]

theorem Describes.next_not_held (same : a.Describes s) : s.next ∉ a.held := by
  intro held
  obtain ⟨inside, used⟩ := (same.mem_held _).mp held
  by_cases none : s.free = []
  · rw [RecordSet.next_eq_slots none] at inside
    exact Nat.lt_irrefl _ inside
  · exact used (RecordSet.next_mem_free none)

theorem Describes.claim [Cell β] (same : a.Describes s) (valid : s.Valid size) :
    (a.take s.next).Describes s.claim := by
  have grown := valid.slots_claim
  have next := valid.next_le
  constructor
  · ext slot
    rw [take, Finset.mem_insert, same.mem_held, Finset.mem_sdiff, Finset.mem_range,
      List.mem_toFinset, valid.mem_free_claim, grown]
    by_cases here : slot = s.next
    · simp [here]
    · have inside : slot < max s.slots (s.next + 1) ↔ slot < s.slots := by omega
      simp [here, inside]
  · have fits := valid.free_length_le
    have count := valid.count_claim (Nat.add_sub_of_le fits)
    change a.balance + 1 = (s.claim.slots : Int) - s.claim.free.length
    rw [same.balance_eq]
    omega

theorem Describes.release (same : a.Describes s) (slot : Nat) :
    (a.give slot).Describes (s.release slot) where
  held_eq := by
    ext other
    rw [give, Finset.mem_erase, same.mem_held, Finset.mem_sdiff, Finset.mem_range,
      List.mem_toFinset, RecordSet.slots_release, RecordSet.free_release, List.mem_cons]
    tauto
  balance_eq := by
    simp only [give, same.balance_eq, RecordSet.slots_release, RecordSet.free_release,
      List.length_cons]
    push_cast
    omega

theorem Describes.write (same : a.Describes s) (slot : Nat) (cells : List β) :
    a.Describes (s.write slot cells) where
  held_eq := by rw [RecordSet.slots_write, RecordSet.free_write, same.held_eq]
  balance_eq := by rw [RecordSet.slots_write, RecordSet.free_write, same.balance_eq]

private theorem describes_load (valid : s.Valid size) (image : Array β) :
    (restored (image.size / strideOf size)).Describes (s.load image) where
  held_eq := by simp [restored, valid.slots_load, valid.stride_eq]
  balance_eq := by simp [restored, valid.slots_load, valid.stride_eq]

end Account

/-- An account for each set of each pool. -/
abbrev Accounts (ι : Type) := SetTable ι Account

variable {ι β : Type} [DecidableEq ι]

/-- The accounts after an event. A refused call and a write leave them alone. -/
def PoolEvent.settle (accounts : Accounts ι) : PoolEvent ι β → Accounts ι
  | ⟨.alloc pool size, .ok (some slot)⟩ =>
    accounts.revise pool size ((accounts pool size).take slot)
  | ⟨.store pool size _, .ok (some slot)⟩ =>
    accounts.revise pool size ((accounts pool size).take slot)
  | ⟨.free pool size slot, .ok _⟩ => accounts.revise pool size ((accounts pool size).give slot)
  | ⟨.emplace pool size image, .ok _⟩ =>
    accounts.revise pool size (.restored (image.size / strideOf size))
  | ⟨.copy source target, .ok _⟩ => Function.update accounts target (accounts source)
  | ⟨.reset pool, .ok _⟩ => Function.update accounts pool fun _ => .clear
  | _ => accounts

/-- The accounts after events on pools that were empty before them. -/
def Accounts.ofEvents (events : List (PoolEvent ι β)) : Accounts ι :=
  events.foldl PoolEvent.settle fun _ _ => .clear

omit [DecidableEq ι] in
def Accounts.Describe (accounts : Accounts ι) (pools : ι → Pool β) : Prop :=
  SetTable.Agrees (fun found size account => account.Describes (found.getD (.empty size)))
    accounts pools

variable {accounts : Accounts ι} {before after : ι → Pool β}

variable [Cell β]

/-- Every event keeps the accounts in step with the sets. -/
theorem PoolEvent.Effect.describe {event : PoolEvent ι β} (effect : event.Effect before after)
    (valid : ∀ i, (before i).Valid) (same : accounts.Describe before) :
    (event.settle accounts).Describe after := by
  cases effect with
  | refused call fault => cases call <;> exact same
  | claimed storable changed =>
    exact same.revise changed ((same _ _).claim ((valid _).setAt storable))
  | @released pool size slot set left found inside used changed =>
    have described := same pool size
    rw [found, Option.getD_some] at described
    exact same.revise changed (described.release slot)
  | stored storable changed =>
    exact same.revise changed (((same _ _).claim ((valid _).setAt storable)).write ..)
  | missed => exact same
  | @written pool size slot cells set left found changed =>
    have described := same pool size
    rw [found, Option.getD_some] at described
    exact same.keep changed (described.write slot cells)
  | restored storable changed =>
    exact same.revise changed (Account.describes_load ((valid _).setAt storable) _)
  | copied source target => exact same.replace target (same source)
  | cleared pool => exact same.replace pool fun size => Account.describes_empty size

theorem PoolHistory.accounts_describe {calls : List (PoolCall ι β)}
    (sized : ∀ call ∈ calls, call.Sized) :
    (Accounts.ofEvents (ofCalls calls).events).Describe (ofCalls calls).pools := by
  apply ofCalls_induction (motive := fun events pools => (Accounts.ofEvents events).Describe pools)
  · intro i size
    exact Account.describes_empty size
  · intro events event before after valid effect same
    rw [Accounts.ofEvents, List.foldl_append]
    exact effect.describe valid same
  · exact sized

end ParticleSystem
