import ParticleSystem.Proofs.Collision.Frame
import ParticleSystem.Proofs.Emitter.Particles

namespace ParticleSystem

section Frames

variable {α : Type} [Scalar α]

theorem Stack.runUpdate_of_collision {config : Config α} {m : Collision α}
    (only : config.modules.update = [.collision m]) (context : UpdateContext α)
    (particle : Particle α) :
    config.boundModules.runUpdate context particle =
      m.execute context { particle with collided := false } := by
  rw [runUpdate, Config.boundModules, rebind, only]
  rfl

/-- The radius with which the particles of a configuration collide
for as long as they keep their scale. -/
def Config.collisionRadius (config : Config α) (m : Collision α) : α :=
  m.radius.compute .default (config.updateContext 0 0)

private theorem Config.compute_of_scale (config : Config α) (m : Collision α)
    {particle : Particle α} (scale : particle.scale = .one) (time dt : α) :
    m.radius.compute particle (config.updateContext time dt) = config.collisionRadius m := by
  simp only [collisionRadius, CollisionRadius.compute, scale, updateContext, Particle.default,
    Particle.ofPosition]

end Frames

/-- A tick against an elastic floor ends beyond its face when it begins there. -/
theorem Collision.le_landing_of_elastic {K : Type} [Field K] [LinearOrder K] [IsStrictOrderedRing K]
    {bounce : Bounce K} {radius distance speed dt : K} (elastic : 1 ≤ bounce.restitution)
    (outside : radius ≤ distance) : radius ≤ landing bounce radius distance speed dt := by
  rw [le_landing_iff le_rfl, sub_self, zero_add, or_iff_not_imp_left, not_le]
  intro through
  have way : 0 ≤ -speed * dt := by linarith
  calc distance - radius
    _ ≤ -speed * dt := by linarith
    _ ≤ bounce.restitution * (-speed * dt) := le_mul_of_one_le_left way elastic

namespace Emitter

variable {K β : Type} [Field K] [LinearOrder K] [FloorRing K] [Elementary K] [IsStrictOrderedRing K]
  [Layout K β] {config : Config K} {m : Collision K}

/-- A particle of the default scale in front of the face of a floor. -/
structure InFront (config : Config K) (m : Collision K) (particle : Particle K) : Prop where
  scale_eq : particle.scale = .one
  outside : config.collisionRadius m ≤ m.plane₁.signedDistance particle.position

/-- The update module and the motion of a tick keep a particle
in front of an elastic floor together. -/
theorem InFront.tick {particle : Particle K} (front : InFront config m particle)
    (own : config.localSpace = true) (only : config.modules.update = [.collision m])
    (single : m.useTwoPlanes = false) (elastic : 1 ≤ m.bounce.restitution)
    (exact : m.bounce.jitter ≤ Scalar.epsilon) (unit : m.plane₁.normal.dot m.plane₁.normal = 1)
    (time dt : K) (stream : RandomStream) :
    InFront config m
      ((config.boundModules.runUpdate (config.updateContext time dt)
        particle stream).1.integrate dt) := by
  rw [Stack.runUpdate_of_collision only]
  have radius : m.radius.compute { particle with collided := false }
    (config.updateContext time dt) =
      config.collisionRadius m := config.compute_of_scale m front.scale_eq time dt
  have seen : Collision.localPlane (config.updateContext time dt)
      { particle with collided := false } m.plane₁ =
      some m.plane₁ := Collision.localPlane_of_localSpace own unit
  have outside := front.outside
  rw [← radius] at outside
  constructor
  · exact (m.execute_sameMake ..).scale_eq.trans front.scale_eq
  · have lands := Collision.signedDistance_execute single exact seen unit outside stream
    rw [radius] at lands
    change _ ≤ m.plane₁.signedDistance
      (Particle.integrate _ (config.updateContext time dt).tickTime).position
    rw [lands]
    exact Collision.le_landing_of_elastic elastic front.outside

/-- Particles that begin in front of a single elastic floor stay in front of it. -/
theorem particles_in_front_of_floor {calls : List (Call K)} {answers : List (Answer K)}
    {e : Emitter K β} (own : config.localSpace = true)
    (only : config.modules.update = [.collision m]) (single : m.useTwoPlanes = false)
    (elastic : 1 ≤ m.bounce.restitution) (exact : m.bounce.jitter ≤ Scalar.epsilon)
    (unit : m.plane₁.normal.dot m.plane₁.normal = 1)
    (origin : config.collisionRadius m ≤ m.plane₁.signedDistance .zero)
    (done : Call.performAll calls (ofConfig config) = .ok answers e) :
    ∀ live ∈ e.particles.toList, config.collisionRadius m ≤
      m.plane₁.signedDistance live.particle.position := by
  obtain ⟨reports, performed, -⟩ := Call.performAll_ok done
  have fresh (particle : Particle K) (body : config.seedling.SameBody particle) :
      InFront config m particle := by
    refine ⟨body.scale_eq, ?_⟩
    rw [body.position_eq]
    exact origin
  have all := particles_induction (motive := InFront config m) fresh
    (fun time dt particle stream _ front =>
      front.tick own only single elastic exact unit time dt stream) performed
  exact fun live member => (all live member).outside

/-- Rationals and words are kept whole, each in the first of its four cells. -/
instance : Layout ℚ (ℚ ⊕ UInt32) where
  blank := .inl 0
  ofScalar x := [.inl x, .inl 0, .inl 0, .inl 0]
  toScalar
    | .inl x :: _ => x
    | _ => 0
  ofWord w := [.inr w, .inl 0, .inl 0, .inl 0]
  toWord
    | .inr w :: _ => w
    | _ => 0

instance : LawfulLayout ℚ (ℚ ⊕ UInt32) where
  length_ofScalar _ := rfl
  length_ofWord _ := rfl
  toScalar_ofScalar _ := rfl
  toWord_ofWord _ := rfl

/-- Particles bounce off a floor one below the emitter, each at
its own moment within the second tick. -/
theorem particles_in_front_of_floor_bouncing :
    let floor : Collision ℚ :=
      { Collision.default with plane₁ := ⟨.unitZ, ⟨0, 0, -1⟩⟩, radius := .custom (1 / 4) }
    let config : Config ℚ :=
      { Config.default with
        modules := .ofModules [.directed ⟨.constant 2, .constant ⟨0, 0, -1⟩⟩] [.collision floor] }
    let calls : List (Call ℚ) := [.spawn 2, .tick (1 / 4), .spawn 1, .tick (3 / 4)]
    ∃ answers, ∃ e : Emitter ℚ (ℚ ⊕ UInt32), Call.performAll calls (ofConfig config) =
      .ok answers e ∧
      (answers.map (·.collisions)).sum = 3 ∧
      ∀ live ∈ e.particles.toList, 1 / 4 ≤ floor.plane₁.signedDistance live.particle.position := by
  intro floor config calls
  have outcome : (match Call.performAll calls (ofConfig config : Emitter ℚ (ℚ ⊕ UInt32)) with
    | .ok answers _ => (answers.map (·.collisions)).sum
    | .error _ _ => 0) = 3 := by decide +kernel
  cases ran : Call.performAll calls (ofConfig config : Emitter ℚ (ℚ ⊕ UInt32)) with
  | error fault left =>
    rw [ran] at outcome
    cases outcome
  | ok answers e =>
    rw [ran] at outcome
    have only : config.modules.update = [.collision floor] := rfl
    have unit : floor.plane₁.normal.dot floor.plane₁.normal = 1 := by decide +kernel
    have radius : config.collisionRadius floor = 1 / 4 := by decide +kernel
    have front := particles_in_front_of_floor rfl only rfl (by decide +kernel)
      (by decide +kernel) unit
      (by decide +kernel) ran
    rw [radius] at front
    exact ⟨answers, e, rfl, outcome, front⟩

end Emitter

end ParticleSystem
