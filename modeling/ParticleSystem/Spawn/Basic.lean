import ParticleSystem.Distribution.Value
import ParticleSystem.Geometry.Direction

namespace ParticleSystem

/-- The emitter as a new particle sees it. -/
structure SpawnContext (α : Type) where
  clock : Clock α
  /-- The axis that sprites face along. -/
  front : Vec3 α
  /-- Whether particles live in the emitter's space. -/
  localSpace : Bool
  /-- From the emitter's space to the world. -/
  emitter : Affine α

/-- A particle in the making and the stream it draws from. -/
structure Newborn (α : Type) where
  particle : Particle α
  stream : RandomStream

abbrev Spawning (α : Type) := EStateM CurveFault (Newborn α)

namespace Spawning

variable {α : Type}

@[inline] def write (f : Particle α → Particle α) : Spawning α Unit :=
  modify fun s => { s with particle := f s.particle }

@[inline] def setVelocity (v : Vec3 α) : Spawning α Unit := write fun p => { p with velocity := v }

variable [Scalar α]

@[inline] def uniform : Spawning α α :=
  fun s => .ok s.stream.peek { s with stream := s.stream.advance }

/-- Samples a parameter for the particle as it is by now. -/
@[inline] def sample {β : Type} (tick : Clock α → Particle α → Sampling β)
    (context : SpawnContext α) : Spawning α β := fun s =>
  match tick context.clock s.particle s.stream with
  | .ok value stream => .ok value { s with stream := stream }
  | .error fault stream => .error fault { s with stream := stream }

end Spawning

end ParticleSystem
