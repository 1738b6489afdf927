import ParticleSystem.Proofs.Collision.Landing

/-!
A bounce that keeps less than the whole speed. The particle is mirrored as if it
kept it all, so the way back from its mirror image can be too short: it ends the
tick inside the slab, or behind the plane.
-/

namespace ParticleSystem.Collision

variable {K : Type} [Field K] [LinearOrder K] [FloorRing K] [Elementary K] [IsStrictOrderedRing K]

/-- A particle stays on its side of the plane, or of the face, exactly when it does
not get through the face within the tick, or when the gap to the face is small
against the share of its way that it keeps. -/
theorem stays_in_front_iff {m : Collision K} {context : UpdateContext K} {particle : Particle K}
    {facing : Plane K} (single : m.useTwoPlanes = false) (exact : m.bounce.jitter ≤ Scalar.epsilon)
    (seen : localPlane context particle m.plane₁ = some facing)
    (unit : facing.normal.dot facing.normal = 1) (thick : 0 ≤ m.radius.compute particle context)
    (outside : m.radius.compute particle context ≤ facing.signedDistance particle.position)
    (stream : RandomStream) :
    let radius := m.radius.compute particle context
    let gap := facing.signedDistance particle.position - radius
    let way := -particle.velocity.dot facing.normal * context.tickTime
    let after := (m.execute context particle stream).1.integrate context.tickTime
    (0 ≤ facing.signedDistance after.position ↔
      way ≤ gap ∨ gap ≤ radius + m.bounce.restitution * way) ∧
      (radius ≤ facing.signedDistance after.position ↔
        way ≤ gap ∨ gap ≤ m.bounce.restitution * way) := by
  intro radius gap way after
  have lands := signedDistance_execute single exact seen unit outside stream
  have passes : radius ≤ facing.signedDistance particle.position +
      particle.velocity.dot facing.normal * context.tickTime ↔ way ≤ gap := by
    constructor <;> intro bound <;> linarith
  constructor
  · rw [lands, le_landing_iff thick, passes, sub_zero]
  · rw [lands, le_landing_iff le_rfl, passes, sub_self, zero_add]

/-- A floor one below the emitter that halves the speed of particles without thickness. -/
def halvingFloor : Collision ℚ :=
  { Collision.default with
    bounce := ⟨1 / 2, 0⟩, plane₁ := ⟨.unitZ, ⟨0, 0, -1⟩⟩, radius := .custom 0 }

def fifthTick : UpdateContext ℚ := ⟨⟨0, 1⟩, .unitZ, true, .identity, 1 / 5, .one, .one⟩

def falling (speed : ℚ) : Particle ℚ := { Particle.default with velocity := ⟨0, 0, -speed⟩ }

/-- Falling by two within the tick, half of the way back just does. -/
theorem stays_in_front_iff_halved :
    let after := (halvingFloor.execute fifthTick (falling 10) (.ofSeed 1)).1.integrate
      fifthTick.tickTime
    0 ≤ halvingFloor.plane₁.signedDistance after.position := by
  intro after
  have seen : localPlane fifthTick (falling 10) halvingFloor.plane₁ = some halvingFloor.plane₁ :=
    Plane.normalized_of_unit (by decide +kernel)
  obtain ⟨front, -⟩ := stays_in_front_iff (m := halvingFloor) rfl (by decide +kernel) seen
    (by decide +kernel)
    (by decide +kernel) (by decide +kernel) (.ofSeed 1)
  exact front.mpr (.inr (by decide +kernel))

/-- Falling by a little more than one, the way back is too short,
and the particle ends behind the floor. -/
theorem damped_bounce_through_floor :
    let after := (halvingFloor.execute fifthTick (falling 6) (.ofSeed 1)).1.integrate
      fifthTick.tickTime
    halvingFloor.useTwoPlanes = false ∧ halvingFloor.bounce.jitter ≤ Scalar.epsilon ∧
      0 ≤ halvingFloor.bounce.restitution ∧ halvingFloor.bounce.restitution < 1 ∧
      halvingFloor.plane₁.normal.dot halvingFloor.plane₁.normal = 1 ∧ 0 < fifthTick.tickTime ∧
      0 ≤ halvingFloor.radius.compute (falling 6) fifthTick ∧
      halvingFloor.radius.compute (falling 6) fifthTick ≤
        halvingFloor.plane₁.signedDistance (falling 6).position ∧
      halvingFloor.plane₁.signedDistance after.position = -2 / 5 := by
  decide +kernel

end ParticleSystem.Collision
