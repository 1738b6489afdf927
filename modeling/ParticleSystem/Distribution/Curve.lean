import ParticleSystem.Scalar.Basic

/-!
Piecewise linear curves. The bracket around an abscissa is found by halving, so it
is defined for keys in any order; keys sorted by time make it the last key not
after the abscissa and the key behind it.
-/

namespace ParticleSystem

/-- Which share drives a curve. -/
inductive CurveAxis
  /-- The share of the particle's life. -/
  | particle
  /-- The share of the emitter's loop. -/
  | emitter
  deriving BEq, DecidableEq, Repr

structure CurveKey (α : Type) where
  time : α
  value : α
  deriving BEq, DecidableEq, Repr

structure Curve (α : Type) where
  keys : List (CurveKey α)
  axis : CurveAxis
  deriving BEq, DecidableEq, Repr

/-- Why an abscissa has no bracket. -/
inductive CurveFault
  /-- No key is at or before the abscissa. -/
  | noLowerKey
  /-- The key at or before the abscissa is the last of `count`. -/
  | noUpperKey (count : Nat)
  deriving BEq, DecidableEq, Repr

def CurveFault.message : CurveFault → String
  | .noLowerKey => "attempt to subtract with overflow"
  | .noUpperKey count =>
    s!"index out of bounds: the len is {Nat.repr count} but the index is {Nat.repr count}"

namespace Curve

variable {α : Type}

def empty : Curve α := ⟨[], .particle⟩

/-- Halves the range of `size` indices from `base` on, keeping the upper half when its first index
passes the test; one past the index that is left when it passes, that index otherwise. -/
def bisect (test : Nat → Bool) (base size : Nat) : Nat :=
  if 1 < size then
    bisect test (if test (base + size / 2) then base + size / 2 else base) (size - size / 2)
  else if test base then base + 1 else base
  termination_by size

variable [Scalar α]

/-- Whether the key at an index is at or before `x`. -/
def reached (keys : List (CurveKey α)) (x : α) (i : Nat) : Bool :=
  match keys[i]? with
  | some key => key.time ≤ x
  | none => false

/-- The index of the key behind `x`. -/
def upperIndex (keys : List (CurveKey α)) (x : α) : Nat := bisect (reached keys x) 0 keys.length

/-- The value at `x` on the line between two keys; the later
value when they are too close to divide. -/
def between (lower upper : CurveKey α) (x : α) : α :=
  let span := upper.time - lower.time
  if span ≤ Scalar.epsilon then upper.value
  else lower.value + (upper.value - lower.value) * (x - lower.time) / span

/-- The value at `x`: that of the first key up to its time, that of the last
key from its time on, zero without keys. -/
def sample (c : Curve α) (x : α) : Except CurveFault α :=
  match c.keys.head?, c.keys.getLast? with
  | some first, some last =>
    if x ≤ first.time then .ok first.value
    else if last.time ≤ x then .ok last.value
    else
      match upperIndex c.keys x with
      | 0 => .error .noLowerKey
      | lower + 1 =>
        match c.keys[lower]?, c.keys[lower + 1]? with
        | some a, some b => .ok (between a b x)
        | _, _ => .error (.noUpperKey c.keys.length)
  | _, _ => .ok 0

end Curve

end ParticleSystem
