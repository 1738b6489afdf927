import ParticleSystem.Distribution.Curve
import ParticleSystem.Particle
import ParticleSystem.Random

namespace ParticleSystem

inductive DistributionKind
  | random
  | curve
  deriving BEq, DecidableEq, Repr

/-- An entry of a table, by kind and position. -/
structure DistributionRef where
  kind : DistributionKind
  index : UInt32
  deriving BEq, DecidableEq, Repr

/-- Uniform from `min` up to `max`. -/
structure RandomRange (α : Type) where
  min : α
  max : α
  deriving BEq, DecidableEq, Repr

inductive Distribution (α : Type)
  | random (range : RandomRange α)
  | curve (curve : Curve α)
  deriving BEq, DecidableEq, Repr

structure DistributionTable (α : Type) where
  randoms : List (RandomRange α)
  curves : List (Curve α)
  deriving BEq, DecidableEq, Repr

/-- Work that draws from the random stream and may fail; the
draws made before a failure stay made. -/
abbrev Sampling := EStateM CurveFault RandomStream

/-- The entry that a reference names, if the table has it. -/
def DistributionTable.resolve {α : Type} (table : DistributionTable α) (ref : DistributionRef) :
    Option (Distribution α) :=
  match ref.kind with
  | .random => table.randoms[ref.index.toNat]?.map .random
  | .curve => table.curves[ref.index.toNat]?.map .curve

variable {α : Type} [Scalar α]

def RandomRange.lerp (r : RandomRange α) (share : α) : α := r.min + (r.max - r.min) * share

def CurveAxis.share (axis : CurveAxis) (clock : Clock α) (particle : Particle α) : α :=
  match axis with
  | .particle => particle.lifeShare
  | .emitter => clock.share

/-- The value of a distribution for a particle. Only a random range draws, once. -/
def Distribution.tick (d : Distribution α) (clock : Clock α) (particle : Particle α) : Sampling α :=
  match d with
  | .random range => fun r => .ok (range.lerp r.peek) r.advance
  | .curve c => fun r =>
    match c.sample (c.axis.share clock particle) with
    | .ok value => .ok value r
    | .error fault => .error fault r

end ParticleSystem
