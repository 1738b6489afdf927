import ParticleSystem.Proofs.Collision.Frame
import ParticleSystem.Proofs.Geometry.Translation

namespace ParticleSystem

section Definitions

variable {α : Type} [Scalar α]

/-- The collision with its planes as they are seen from an origin. -/
def Collision.relativeTo (m : Collision α) (origin : Vec3 α) : Collision α :=
  { m with plane₁ := m.plane₁.relativeTo origin, plane₂ := m.plane₂.relativeTo origin }

def UpdateModule.relativeTo (origin : Vec3 α) : UpdateModule α → UpdateModule α
  | .collision m => .collision (m.relativeTo origin)

def Stack.relativeTo (s : Stack α) (origin : Vec3 α) : Stack α :=
  { s with update := s.update.map (·.relativeTo origin) }

/-- The same update in the emitter's space. -/
def UpdateContext.toLocal (context : UpdateContext α) : UpdateContext α :=
  { context with localSpace := true }

/-- Whether an update sees particles in their space of birth,
from an emitter that stands at an origin. -/
structure UpdateContext.Away (context : UpdateContext α) (origin : Vec3 α) : Prop where
  apart : context.localSpace = false
  emitter_eq : context.emitter = .ofTranslation origin

/-- For a particle that was born where the emitter stands the two
spaces have the same place in the world. -/
theorem Particle.toWorld_of_born {particle : Particle α} {emitter : Affine α}
    (born : particle.spawnTransform = emitter) (localSpace : Bool) :
    particle.toWorld localSpace emitter = emitter.applyPoint := by
  funext point
  cases localSpace
  · exact congrArg (·.applyPoint point) born
  · rfl

end Definitions

variable {K : Type} [Field K] [LinearOrder K] [FloorRing K] [Elementary K]
  {context : UpdateContext K} {particle : Particle K} {origin : Vec3 K}

namespace Collision

theorem planes_relativeTo (m : Collision K) (origin : Vec3 K) :
    (m.relativeTo origin).planes = m.planes.map (·.relativeTo origin) := by
  cases double : m.useTwoPlanes <;> simp [planes, relativeTo, double]

/-- From a space of birth that is moved but not turned a plane
is seen from the origin of that space. -/
theorem localPlane_of_translation (apart : context.localSpace = false)
    (born : particle.spawnTransform = .ofTranslation origin) (plane : Plane K) :
    localPlane context particle plane = (plane.relativeTo origin).normalized := by
  rw [localPlane, apart, if_neg Bool.false_ne_true, born, Plane.transformed_ofTranslation]

theorem localPlane_toLocal (apart : context.localSpace = false)
    (born : particle.spawnTransform = .ofTranslation origin) (plane : Plane K) :
    localPlane context.toLocal particle (plane.relativeTo origin) =
      localPlane context particle plane :=
  (localPlane_of_translation apart born plane).symm

private theorem record_toLocal (born : particle.spawnTransform = context.emitter)
    (position : Vec3 K) (time : K) :
    record context.toLocal particle position time = record context particle position time := by
  simp only [record, Particle.toWorld_of_born born, UpdateContext.toLocal]

private theorem respond_toLocal (born : particle.spawnTransform = context.emitter)
    (bounce : Bounce K) (normal : Vec3 K) (met : Encounter K) :
    respond bounce context.toLocal normal particle met =
      respond bounce context normal particle met := by
  cases met with
  | clear => rfl
  | leaving position => rfl
  | contact position distance => simp only [respond, record_toLocal born]

theorem collideWith_toLocal (away : context.Away origin)
    (born : particle.spawnTransform = .ofTranslation origin) (bounce : Bounce K) (radius : K)
    (plane : Plane K) :
    collideWith bounce context.toLocal radius particle (plane.relativeTo origin) =
      collideWith bounce context radius particle plane := by
  have seen : encounter context.toLocal radius particle (plane.relativeTo origin) =
      encounter context radius particle plane := by
    rw [encounter, localPlane_toLocal away.apart born]
    rfl
  rw [collideWith, seen, collideWith]
  cases encounter context radius particle plane with
  | none => rfl
  | some found =>
    exact respond_toLocal (born.trans away.emitter_eq.symm) bounce found.1.normal found.2

theorem execute_toLocal (away : context.Away origin)
    (born : particle.spawnTransform = .ofTranslation origin) (m : Collision K) :
    (m.relativeTo origin).execute context.toLocal particle = m.execute context particle := by
  rw [execute, planes_relativeTo, List.foldlM_map]
  exact RandomStream.foldlM_congr (motive := fun p => p.spawnTransform = .ofTranslation origin)
    (fun p plane own => collideWith_toLocal away own ..)
    (fun p plane stream own => (collideWith_sameMake ..).spawnTransform_eq.trans own) m.planes born

end Collision

theorem UpdateModule.execute_toLocal (away : context.Away origin)
    (born : particle.spawnTransform = .ofTranslation origin) (m : UpdateModule K) :
    (m.relativeTo origin).execute context.toLocal particle = m.execute context particle := by
  cases m with
  | collision m => exact m.execute_toLocal away born

theorem Stack.runUpdate_toLocal (away : context.Away origin)
    (born : particle.spawnTransform = .ofTranslation origin) (s : Stack K) :
    (s.relativeTo origin).runUpdate context.toLocal particle = s.runUpdate context particle := by
  rw [runUpdate, relativeTo, List.foldlM_map]
  exact RandomStream.foldlM_congr (motive := fun p => p.spawnTransform = .ofTranslation origin)
    (fun p m own => m.execute_toLocal away own)
    (fun p m stream own => ((m.relativeTo origin).execute_sameMake ..).spawnTransform_eq.trans own)
      s.update born

theorem Stack.updateParticle_toLocal (away : context.Away origin)
    (born : particle.spawnTransform = .ofTranslation origin) (s : Stack K) :
    (s.relativeTo origin).updateParticle context.toLocal particle =
      s.updateParticle context particle := by
  simp only [updateParticle, s.runUpdate_toLocal away born]
  rfl

end ParticleSystem
