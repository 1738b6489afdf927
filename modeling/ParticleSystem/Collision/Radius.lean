import ParticleSystem.Particle

namespace ParticleSystem

/-- The emitter and its shape as an update sees them. -/
structure UpdateContext (α : Type) where
  clock : Clock α
  /-- The axis that sprites face along. -/
  front : Vec3 α
  /-- Whether particles live in the emitter's space. -/
  localSpace : Bool
  /-- From the emitter's space to the world. -/
  emitter : Affine α
  tickTime : α
  /-- The corners of the drawn mesh at unit scale. -/
  maxExtent : Vec3 α
  minExtent : Vec3 α

inductive RadiusShape
  /-- The two scale axes across the facing axis. -/
  | sprite
  /-- The scaled mesh. -/
  | mesh
  /-- A fixed radius. -/
  | custom
  deriving BEq, DecidableEq, Repr

inductive RadiusMethod
  /-- Half the diagonal of the bounds. -/
  | bounds
  | maximumAxis
  | minimumAxis
  deriving BEq, DecidableEq, Repr

structure CollisionRadius (α : Type) where
  shape : RadiusShape
  method : RadiusMethod
  /-- The radius of a custom shape. -/
  radius : α
  scale : α
  deriving BEq, DecidableEq, Repr

/-- The distance from the centre of the box between two scaled corners to the first of them. -/
def boundRadius {α : Type} [Scalar α] (max min scale : Vec3 α) : α :=
  let maxCorner := max.stretch scale
  let minCorner := min.stretch scale
  let centre := (maxCorner + minCorner) * (0.5 : α)
  (maxCorner - centre).length

namespace CollisionRadius

variable {α : Type} [Scalar α]

def default : CollisionRadius α := ⟨.sprite, .bounds, 1, 1⟩

def custom (radius : α) : CollisionRadius α := { default with shape := .custom, radius := radius }

/-- The two components of the scale across the facing axis. -/
def spriteSize (scale front : Vec3 α) : α × α :=
  if front.close .unitZ || front.close ⟨0, 0, -1⟩ then (scale.x, scale.y)
  else if front.close .unitY || front.close ⟨0, -1, 0⟩ then (scale.x, scale.z)
  else (scale.y, scale.z)

def spriteRadius (r : CollisionRadius α) (scale front : Vec3 α) : α :=
  let (width, height) := spriteSize scale front
  match r.method with
  | .maximumAxis => r.scale * Scalar.larger width height / 2
  | .minimumAxis => r.scale * Scalar.smaller width height / 2
  | .bounds => r.scale * Scalar.sqrt (width * width + height * height) / 2

def meshRadius (r : CollisionRadius α) (scale maxExtent minExtent : Vec3 α) : α :=
  match r.method with
  | .maximumAxis => r.scale * scale.maxElement / 2
  | .minimumAxis => r.scale * scale.minElement / 2
  | .bounds => boundRadius maxExtent minExtent scale * r.scale

def compute (r : CollisionRadius α) (particle : Particle α) (context : UpdateContext α) : α :=
  match r.shape with
  | .mesh => r.meshRadius particle.scale context.maxExtent context.minExtent
  | .custom => r.radius * r.scale
  | .sprite => r.spriteRadius particle.scale context.front

end CollisionRadius

end ParticleSystem
