import ParticleSystem.Pool.RecordSet

/-!
Pools: one set of records for each record size, in order of size. An
operation that is refused leaves the pool as it was, but for a restored
image, whose set is made before its stride is looked at.
-/

namespace ParticleSystem

variable {β : Type}

structure Pool (β : Type) where
  /-- The sets with the sizes they are for. -/
  sets : List (UInt32 × RecordSet β)
  ordered : (sets.map Prod.fst).Pairwise (· < ·)

namespace Pool

def empty : Pool β := ⟨[], .nil⟩

instance : Inhabited (Pool β) := ⟨empty⟩

def find? (p : Pool β) (size : UInt32) : Option (RecordSet β) := p.sets.lookup size

/-- Changes the set of a size in an ordered list, starting from `fresh` when it is missing. -/
def upsertIn (size : UInt32) (fresh : RecordSet β) (change : RecordSet β → RecordSet β) :
    List (UInt32 × RecordSet β) → List (UInt32 × RecordSet β)
  | [] => [(size, change fresh)]
  | (key, set) :: rest =>
    if key = size then (key, change set) :: rest
    else if size < key then (size, change fresh) :: (key, set) :: rest
    else (key, set) :: upsertIn size fresh change rest

private theorem mem_keys_upsertIn {size key : UInt32} {fresh : RecordSet β}
    {change : RecordSet β → RecordSet β} {sets : List (UInt32 × RecordSet β)}
    (member : key ∈ (upsertIn size fresh change sets).map Prod.fst) :
    key = size ∨ key ∈ sets.map Prod.fst := by
  induction sets with
  | nil => simpa [upsertIn] using member
  | cons head rest ih =>
    obtain ⟨k, set⟩ := head
    unfold upsertIn at member
    split at member
    · exact .inr (by simpa using member)
    · split at member
      · simpa using member
      · simp only [List.map_cons, List.mem_cons] at member ⊢
        rcases member with same | later
        · exact .inr (.inl same)
        · rcases ih later with found | found
          · exact .inl found
          · exact .inr (.inr found)

private theorem ordered_upsertIn (size : UInt32) (fresh : RecordSet β)
    (change : RecordSet β → RecordSet β) {sets : List (UInt32 × RecordSet β)}
    (ordered : (sets.map Prod.fst).Pairwise (· < ·)) :
    ((upsertIn size fresh change sets).map Prod.fst).Pairwise (· < ·) := by
  induction sets with
  | nil => simp [upsertIn]
  | cons head rest ih =>
    obtain ⟨k, set⟩ := head
    simp only [List.map_cons, List.pairwise_cons] at ordered
    unfold upsertIn
    split
    · simpa using ordered
    · split
      · rename_i _ below
        simp only [List.map_cons, List.pairwise_cons, List.mem_cons]
        refine ⟨?_, ordered⟩
        rintro key (rfl | later)
        · exact below
        · exact UInt32.lt_trans below (ordered.1 key later)
      · rename_i different notBelow
        simp only [List.map_cons, List.pairwise_cons]
        refine ⟨fun key member => ?_, ih ordered.2⟩
        rcases mem_keys_upsertIn member with rfl | later
        · exact UInt32.lt_of_le_of_ne (UInt32.not_lt.mp notBelow) different
        · exact ordered.1 key later

/-- The pool with the set of a size changed, starting from `fresh` when it is missing. -/
def upsert (p : Pool β) (size : UInt32) (fresh : RecordSet β) (change : RecordSet β → RecordSet β) :
    Pool β := ⟨upsertIn size fresh change p.sets, ordered_upsertIn size fresh change p.ordered⟩

/-- Changes the set of a size, if there is one. -/
def modifyIn (size : UInt32) (change : RecordSet β → RecordSet β) :
    List (UInt32 × RecordSet β) → List (UInt32 × RecordSet β)
  | [] => []
  | (key, set) :: rest => (key, if key = size then change set else set) :: modifyIn size change rest

private theorem keys_modifyIn (size : UInt32) (change : RecordSet β → RecordSet β)
    (sets : List (UInt32 × RecordSet β)) :
    (modifyIn size change sets).map Prod.fst = sets.map Prod.fst := by
  induction sets with
  | nil => rfl
  | cons head rest ih => simp [modifyIn, ih]

/-- The pool with the set of a size changed, if there is one. -/
def modify (p : Pool β) (size : UInt32) (change : RecordSet β → RecordSet β) : Pool β :=
  ⟨modifyIn size change p.sets, by rw [keys_modifyIn]; exact p.ordered⟩

/-- Makes sure that there is a set for a size. -/
def ensure (size : UInt32) : EStateM PoolFault (Pool β) Unit := fun p =>
  if (p.find? size).isSome then .ok () p
  else
    match RecordSet.ofSize size with
    | .ok fresh => .ok () (p.upsert size fresh id)
    | .error fault => .error fault p

/-- Asks the set of a size, which is there. -/
def ask {γ : Type} (size : UInt32) (question : RecordSet β → Except PoolFault γ) :
    EStateM PoolFault (Pool β) γ := fun p =>
  match p.find? size with
  | none => .error (.unknownSet size) p
  | some set =>
    match question set with
    | .ok answer => .ok answer p
    | .error fault => .error fault p

def alloc [Cell β] (size : UInt32) : EStateM PoolFault (Pool β) Nat := do
  if size = 0 then throw .zeroSize
  if maxRecordSize < size then throw (.recordTooLarge size)
  ensure size
  let slot ← ask size RecordSet.nextSlot
  fun p => .ok slot (p.modify size RecordSet.claim)

def free (size : UInt32) (slot : Nat) : EStateM PoolFault (Pool β) Unit := do
  ask size (·.checkRelease slot)
  fun p => .ok () (p.modify size (·.release slot))

def data? (p : Pool β) (size : UInt32) (slot : Nat) : Option (Array β) :=
  (p.find? size).bind (·.record? slot)

def hasData (p : Pool β) (size : UInt32) (slot : Nat) : Bool :=
  (p.find? size).any (·.hasRecord slot)

def write (p : Pool β) (size : UInt32) (slot : Nat) (cells : List β) : Pool β :=
  p.modify size (·.write slot cells)

/-- Hands out a slot for a record of a size and puts cells into it. -/
def store [Cell β] (size : UInt32) (cells : List β) : EStateM PoolFault (Pool β) Nat := do
  let slot ← alloc size
  fun p => .ok slot (p.write size slot cells)

/-- The records of a size in use. -/
def activeSize (p : Pool β) (size : UInt32) : Except PoolFault Nat :=
  match p.find? size with
  | none => .ok 0
  | some set => set.activeSize

/-- Replaces the records of a size by an image. -/
def emplace (size : UInt32) (image : Array β) : EStateM PoolFault (Pool β) Unit := do
  ensure size
  let _ ← ask size RecordSet.slotCount
  fun p => .ok () (p.modify size (·.load image))

end Pool

end ParticleSystem
