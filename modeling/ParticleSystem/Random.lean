import ParticleSystem.Scalar.Basic

/-!
A seeded stream of uniform numbers: a 64-bit linear congruential state, read
through a permutation that drops to 32 bits. Drawing returns the stream that is
left, so a stream is a value like any other.
-/

namespace ParticleSystem

structure RandomStream where
  state : UInt64
  increment : UInt64
  deriving BEq, DecidableEq, Repr

namespace RandomStream

def multiplier : UInt64 := 6364136223846793005

/-- The 32 bits that a state shows: its high bits folded over the
low ones, then rotated by the top five. -/
def output (s : UInt64) : UInt32 :=
  let x := (((s >>> 18) ^^^ s) >>> 27).toUInt32
  let turn := (s >>> 59).toUInt32
  (x >>> turn) ||| (x <<< ((32 - turn) &&& 31))

/-- One step of the generator that spreads a seed over the words of a stream. -/
def spread (seed : UInt64) : UInt64 := seed * multiplier + 11634580027462260723

/-- The stream of a seed. -/
def ofSeed (seed : UInt64) : RandomStream :=
  let s₁ := spread seed
  let s₂ := spread s₁
  let s₃ := spread s₂
  let s₄ := spread s₃
  let start := (output s₁).toUInt64 + (output s₂).toUInt64 <<< 32
  let increment := ((output s₃).toUInt64 + (output s₄).toUInt64 <<< 32) ||| 1
  ⟨(start + increment) * multiplier + increment, increment⟩

def advance (r : RandomStream) : RandomStream := ⟨r.state * multiplier + r.increment, r.increment⟩

/-- The stream after a number of draws. -/
def drop (draws : Nat) (r : RandomStream) : RandomStream := Nat.repeat advance draws r

@[simp] theorem drop_zero (r : RandomStream) : r.drop 0 = r := rfl

theorem drop_succ (draws : Nat) (r : RandomStream) : r.drop (draws + 1) = (r.drop draws).advance :=
  rfl

theorem drop_add (first second : Nat) (r : RandomStream) :
    r.drop (first + second) = (r.drop first).drop second := by
  induction second with
  | zero => rfl
  | succ second ih => rw [← Nat.add_assoc, drop_succ, ih, drop_succ]

/-- The next 32 bits. -/
def bits (r : RandomStream) : UInt32 := output r.state

theorem toNat_bits_lt (r : RandomStream) : (r.bits >>> 8).toNat < 16777216 := by
  rw [UInt32.toNat_shiftRight]
  have word := r.bits.toNat_lt
  change r.bits.toNat >>> 8 < 16777216
  omega

/-- The next uniform number in [0, 1): the 24 high bits over 2²⁴. -/
def peek {α : Type} [Scalar α] (r : RandomStream) : α :=
  Scalar.ofNat (r.bits >>> 8).toNat * (1 / 16777216)

@[inline] def next {α : Type} [Scalar α] : StateM RandomStream α := fun r => (r.peek, r.advance)

end RandomStream

end ParticleSystem
