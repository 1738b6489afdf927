import ParticleSystem.Spawn.Basic

namespace ParticleSystem.Spawn

/-- An initial angle in degrees about one axis and a spin about another. -/
structure Orientation (α : Type) where
  angle : ScalarValue α
  axis : Vec3 α
  spinRate : ScalarValue α
  spinAxis : Vec3 α
  deriving BEq, DecidableEq, Repr

namespace Orientation

variable {α : Type} [Scalar α]

def default : Orientation α := ⟨.constant 0, .unitZ, .constant 0, .unitZ⟩

omit [Scalar α] in
def bind (m : Orientation α) (table : DistributionTable α) : Orientation α :=
  { m with angle := m.angle.bind table, spinRate := m.spinRate.bind table }

omit [Scalar α] in
def unbind (m : Orientation α) : Orientation α :=
  { m with angle := m.angle.unbind, spinRate := m.spinRate.unbind }

/-- The unit axis, or the axis itself when it is close to zero. -/
def unitAxis (axis : Vec3 α) : Vec3 α := if axis.close .zero then axis else axis.normalize

/-- The spin is sampled and written before the angle is sampled. -/
def execute (m : Orientation α) (context : SpawnContext α) : Spawning α Unit := do
  let spinRate ← Spawning.sample m.spinRate.tick context
  Spawning.write fun p => { p with spinRate := spinRate }
  let angle ← Spawning.sample m.angle.tick context
  Spawning.write fun p =>
    { p with
      rotation := (unitAxis m.axis).extend (Scalar.radians angle)
      spinAxis := (unitAxis m.spinAxis).extend 0 }

end Orientation

end ParticleSystem.Spawn
