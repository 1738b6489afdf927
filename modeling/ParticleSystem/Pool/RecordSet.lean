/-!
Records of one size in a growing buffer of cells. Every record starts at a multiple of the stride;
slots that were given back are handed out again, the latest first, before the buffer grows.
-/

namespace ParticleSystem

/-- What a buffer is made of. -/
class Cell (β : Type) where
  /-- What a new cell holds. -/
  blank : β

instance : Cell UInt8 := ⟨0⟩

/-- Why an operation of a pool is refused. -/
inductive PoolFault
  | zeroSize
  | recordTooLarge (size : UInt32)
  /-- A size so large that it has no multiple of the alignment above it. -/
  | sizeOverflow
  | unknownSet (size : UInt32)
  | slotOutside (slot slots : Nat)
  | doubleFree (slot : Nat)
  /-- A set of empty records has no number of slots. -/
  | zeroStride
  /-- More slots are free than there are. -/
  | freeExceedsSlots
  deriving BEq, DecidableEq, Repr

/-- What every stride is a multiple of. -/
def alignment : UInt32 := 16

/-- The largest record that is handed out. -/
def maxRecordSize : UInt32 := 65536

namespace PoolFault

def message : PoolFault → String
  | .zeroSize => "zero-size pool allocation"
  | .recordTooLarge size =>
    s!"pool record of {Nat.repr size.toNat} bytes exceeds {Nat.repr maxRecordSize.toNat}"
  | .sizeOverflow => "attempt to add with overflow"
  | .unknownSet size => s!"free from unknown set of size {Nat.repr size.toNat}"
  | .slotOutside slot slots =>
    s!"free of slot {Nat.repr slot} outside set of {Nat.repr slots} slots"
  | .doubleFree slot => s!"double free of slot {Nat.repr slot}"
  | .zeroStride => "attempt to divide by zero"
  | .freeExceedsSlots => "attempt to subtract with overflow"

end PoolFault

/-- The least multiple of the alignment that a record of `size` cells fits in. -/
def alignSize (size : UInt32) : Except PoolFault UInt32 :=
  if size.toNat + alignment.toNat <
    UInt32.size then .ok ((size + alignment - 1) &&& ~~~(alignment - 1))
  else .error .sizeOverflow

structure RecordSet (β : Type) where
  /-- The cells from one record to the next. -/
  stride : Nat
  buffer : Array β
  /-- Slots that were given back, the latest first. -/
  free : List Nat
  deriving BEq, DecidableEq, Repr

namespace RecordSet

variable {β : Type}

/-- An empty set for records of a size. -/
def ofSize (size : UInt32) : Except PoolFault (RecordSet β) :=
  (alignSize size).map fun stride => ⟨stride.toNat, #[], []⟩

/-- The slots ever handed out, free ones included. Slots are numbered by 32-bit words, so this is
meant for buffers of fewer than `UInt32.size` records. -/
def slotCount (s : RecordSet β) : Except PoolFault Nat :=
  if s.stride = 0 then .error .zeroStride else .ok (s.buffer.size / s.stride)

def activeSize (s : RecordSet β) : Except PoolFault Nat := do
  let slots ← s.slotCount
  if s.free.length ≤ slots then return slots - s.free.length else throw .freeExceedsSlots

def nextSlot (s : RecordSet β) : Except PoolFault Nat :=
  match s.free with
  | slot :: _ => .ok slot
  | [] => s.slotCount

/-- The set with its next slot in use. A reused record keeps its cells, a new one is blank. -/
def claim [Cell β] (s : RecordSet β) : RecordSet β :=
  match s.free with
  | _ :: rest => { s with free := rest }
  | [] => { s with buffer := s.buffer ++ Array.replicate s.stride Cell.blank }

def alloc [Cell β] (s : RecordSet β) : Except PoolFault (Nat × RecordSet β) := do
  return (← s.nextSlot, s.claim)

/-- Whether a slot may be given back. -/
def checkRelease (s : RecordSet β) (slot : Nat) : Except PoolFault Unit := do
  let slots ← s.slotCount
  if slots ≤ slot then throw (.slotOutside slot slots)
  else if s.free.contains slot then throw (.doubleFree slot)

/-- The set with a slot given back. The buffer never shrinks. -/
def release (s : RecordSet β) (slot : Nat) : RecordSet β := { s with free := slot :: s.free }

def dealloc (s : RecordSet β) (slot : Nat) : Except PoolFault (RecordSet β) := do
  s.checkRelease slot
  return s.release slot

/-- Whether the buffer reaches to the end of a record. -/
def hasRecord (s : RecordSet β) (slot : Nat) : Bool := slot * s.stride + s.stride ≤ s.buffer.size

/-- The cells of a record, padding included. -/
def record? (s : RecordSet β) (slot : Nat) : Option (Array β) :=
  if s.hasRecord slot then
    some (s.buffer.extract (slot * s.stride) (slot * s.stride + s.stride))
  else none

/-- Puts cells into a buffer from a position on, as far as it reaches. -/
def overwrite (buffer : Array β) (start : Nat) : List β → Array β
  | [] => buffer
  | cell :: rest => overwrite (buffer.setIfInBounds start cell) (start + 1) rest

/-- The set with cells put at the start of a record, as many as it holds. -/
def write (s : RecordSet β) (slot : Nat) (cells : List β) : RecordSet β :=
  if s.hasRecord slot then
    { s with buffer := overwrite s.buffer (slot * s.stride) (cells.take s.stride) }
  else s

/-- The set with its buffer replaced by the whole records of an image, all of them in use. -/
def load (s : RecordSet β) (image : Array β) : RecordSet β :=
  { s with buffer := image.extract 0 (image.size / s.stride * s.stride), free := [] }

def setData (s : RecordSet β) (image : Array β) : Except PoolFault (RecordSet β) :=
  if s.stride = 0 then .error .zeroStride else .ok (s.load image)

end RecordSet

end ParticleSystem
