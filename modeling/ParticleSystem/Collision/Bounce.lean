import ParticleSystem.Collision.Plane
import ParticleSystem.Collision.Radius
import ParticleSystem.Geometry.Direction
import ParticleSystem.Random

/-!
Collision with planes. Around a plane lies a slab of half the particle's thickness. A
particle that would enter it during the tick meets its face; one that starts inside is
put on the face it is nearer to, and meets it unless it is moving out. A second plane
sees the particle as the first has left it.
-/

namespace ParticleSystem

structure Bounce (α : Type) where
  /-- The share of the speed that is kept. -/
  restitution : α
  /-- How far the normal may be turned at random: by up to this share of a right angle. -/
  jitter : α
  deriving BEq, DecidableEq, Repr

structure Collision (α : Type) where
  bounce : Bounce α
  useTwoPlanes : Bool
  plane₁ : Plane α
  plane₂ : Plane α
  radius : CollisionRadius α
  deriving BEq, DecidableEq, Repr

/-- What one plane means for a particle during one tick. -/
inductive Encounter (α : Type)
  /-- It stays outside on its side. -/
  | clear
  /-- It starts inside and is moving out: it only moves to this point of the face. -/
  | leaving (position : Vec3 α)
  /-- It meets the face, starting from a position this far outside, negative behind the plane. -/
  | contact (position : Vec3 α) (distance : α)
  deriving BEq, DecidableEq, Repr

variable {α : Type} [Scalar α]

def Bounce.default : Bounce α := ⟨1, 0⟩

/-- The velocity after a bounce off a face with the given normal. -/
def Bounce.reflect (bounce : Bounce α) (velocity normal : Vec3 α) : Vec3 α :=
  velocity.reflect normal * bounce.restitution

/-- Classifies the tick of a particle at `position` against a plane with a unit normal. -/
def Encounter.of (plane : Plane α) (radius : α) (position velocity : Vec3 α) (tickTime : α) :
    Encounter α :=
  let last := plane.signedDistance position
  let next := plane.signedDistance (position + velocity * tickTime)
  if radius ≤ last then
    if radius ≤ next then .clear else .contact position (last - radius)
  else if last ≤ -radius then
    if next ≤ -radius then .clear else .contact position (last + radius)
  else if last < 0 then
    let onFace := position - plane.normal * (last + radius)
    if velocity.dot plane.normal < 0 then .leaving onFace else .contact onFace 0
  else
    let onFace := position - plane.normal * (last - radius)
    if 0 < velocity.dot plane.normal then .leaving onFace else .contact onFace 0

def Encounter.isContact : Encounter α → Bool
  | .contact .. => true
  | _ => false

namespace Collision

def default : Collision α := ⟨.default, false, .default, .default, .default⟩

/-- How long a particle takes to a face `distance` away, zero
when it hardly moves along the normal. -/
def timeToFace (distance normalSpeed : α) : α :=
  if Scalar.epsilon < Scalar.abs normalSpeed then Scalar.abs (distance / normalSpeed) else 0

/-- The particle with a contact recorded, its velocity and place
along the normal still to be changed. -/
def record (context : UpdateContext α) (particle : Particle α) (position : Vec3 α) (time : α) :
    Particle α :=
  { particle with
    position := position
    contact := particle.toWorld context.localSpace context.emitter
      (position + particle.velocity * time)
    collided := true
    timeAfterContact := context.tickTime - time }

/-- A normal within a cone around `normal`, for two uniform shares. -/
def jitteredNormal (normal : Vec3 α) (jitter uTheta uPhi : α) : Vec3 α :=
  (coneDirection normal (Scalar.pi * jitter / 2) uTheta uPhi).normalizeOr normal

/-- The response to an encounter. An exact bounce moves the particle to its mirror
image in the face, so that the rest of the tick carries it along the mirrored
path; a jittered one leaves it in place. -/
def respond (bounce : Bounce α) (context : UpdateContext α) (normal : Vec3 α)
    (particle : Particle α) :
    Encounter α → StateM RandomStream (Particle α)
  | .clear => pure particle
  | .leaving position => pure { particle with position := position }
  | .contact position distance => do
    let time := timeToFace distance (particle.velocity.dot normal)
    let hit := record context particle position time
    if bounce.jitter ≤ Scalar.epsilon then
      return { hit with
        position := position - normal * (2 * distance)
        velocity := bounce.reflect particle.velocity normal }
    else
      let uTheta ← RandomStream.next
      let uPhi ← RandomStream.next
      let turned := jitteredNormal normal bounce.jitter uTheta uPhi
      return { hit with velocity := bounce.reflect particle.velocity turned }

/-- A plane in the space that the particle lives in, with a unit normal. -/
def localPlane (context : UpdateContext α) (particle : Particle α) (plane : Plane α) :
    Option (Plane α) :=
  if context.localSpace then plane.normalized else plane.transformed particle.spawnTransform.inverse

/-- What a plane means for a particle: nothing when its normal degenerates. -/
def encounter (context : UpdateContext α) (radius : α) (particle : Particle α) (plane : Plane α) :
    Option (Plane α × Encounter α) :=
  (localPlane context particle plane).map fun facing =>
    (facing, .of facing radius particle.position particle.velocity context.tickTime)

def collideWith (bounce : Bounce α) (context : UpdateContext α) (radius : α) (particle : Particle α)
    (plane : Plane α) : StateM RandomStream (Particle α) :=
  match encounter context radius particle plane with
  | none => pure particle
  | some (facing, met) => respond bounce context facing.normal particle met

def planes (m : Collision α) : List (Plane α) :=
  if m.useTwoPlanes then [m.plane₁, m.plane₂] else [m.plane₁]

def execute (m : Collision α) (context : UpdateContext α) (particle : Particle α) :
    StateM RandomStream (Particle α) :=
  m.planes.foldlM (collideWith m.bounce context (m.radius.compute particle context)) particle

end Collision

end ParticleSystem
