import ParticleSystem.Geometry.Transform

namespace ParticleSystem

structure Particle (α : Type) where
  /-- Where it is, in the emitter's space or in the space it was spawned in. -/
  position : Vec3 α
  velocity : Vec3 α
  /-- A unit axis and an angle in radians. -/
  rotation : Vec4 α
  /-- The axis of its spin. -/
  spinAxis : Vec4 α
  spinRate : α
  scale : Vec3 α
  /-- From the space it was spawned in to the world. -/
  spawnTransform : Affine α
  lifetime : α
  /-- Time since it was spawned. -/
  age : α
  /-- Whether a collision module recorded a contact in the last update. -/
  collided : Bool
  /-- The last contact, in the world. -/
  contact : Vec3 α
  /-- What was left of the tick after the last contact. -/
  timeAfterContact : α
  deriving BEq, DecidableEq, Repr

namespace Particle

variable {α : Type} [Scalar α]

/-- A resting particle of unit size and lifetime. -/
def ofPosition (position : Vec3 α) : Particle α where
  position := position
  velocity := .zero
  rotation := .zero
  spinAxis := .zero
  spinRate := 0
  scale := .one
  spawnTransform := .identity
  lifetime := 1
  age := 0
  collided := false
  contact := .zero
  timeAfterContact := 0

def default : Particle α := ofPosition .zero

/-- The share of its lifetime that has passed, between zero and one. -/
def lifeShare (p : Particle α) : α :=
  if p.lifetime ≤ 0 then 1 else Scalar.clamp 0 1 (p.age / p.lifetime)

def expired (p : Particle α) : Bool := p.lifetime ≤ p.age

/-- Moves along the velocity and grows older. -/
def integrate (p : Particle α) (dt : α) : Particle α :=
  { p with position := p.position + p.velocity * dt, age := p.age + dt }

/-- Where a point of the particle's space lies in the world. -/
def toWorld (p : Particle α) (localSpace : Bool) (emitter : Affine α) (point : Vec3 α) : Vec3 α :=
  (if localSpace then emitter else p.spawnTransform).applyPoint point

def worldPosition (p : Particle α) (localSpace : Bool) (emitter : Affine α) : Vec3 α :=
  p.toWorld localSpace emitter p.position

end Particle

/-- The time of an emitter within its loop. -/
structure Clock (α : Type) where
  now : α
  duration : α

/-- The share of the loop that has passed, between zero and one. -/
def Clock.share {α : Type} [Scalar α] (c : Clock α) : α :=
  if c.duration ≤ 0 then 0 else Scalar.clamp 0 1 (c.now / c.duration)

end ParticleSystem
