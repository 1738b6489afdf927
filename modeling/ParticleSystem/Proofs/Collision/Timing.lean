import ParticleSystem.Proofs.Collision.Frame

namespace ParticleSystem

variable {K : Type} [Field K] [LinearOrder K] [FloorRing K] [Elementary K] [IsStrictOrderedRing K]

/-- A face that is met is no farther away than the tick moves the particle along the normal. -/
theorem Encounter.abs_distance_le {plane : Plane K} {radius distance dt : K}
    {position velocity place : Vec3 K} (forward : 0 ≤ dt)
    (met : Encounter.of plane radius position velocity dt = .contact place distance) :
    |distance| ≤ |velocity.dot plane.normal| * dt := by
  have onFace : |(0 : K)| ≤ |velocity.dot plane.normal| * dt := by
    rw [abs_zero]
    exact mul_nonneg (abs_nonneg _) forward
  have way : |velocity.dot plane.normal * dt| = |velocity.dot plane.normal| * dt := by
    rw [abs_mul, abs_of_nonneg forward]
  have moved := plane.signedDistance_move position velocity dt
  unfold Encounter.of at met
  simp only [moved, Scalar.ofNat_eq_zero] at met
  split at met
  · -- in front: the way leads back through the face, towards the plane
    rename_i front
    split at met
    · cases met
    · rename_i through
      cases met
      rw [← way, abs_of_nonneg (sub_nonneg.mpr front)]
      have back := neg_abs_le (velocity.dot plane.normal * dt)
      linarith
  · split at met
    · rename_i behind
      split at met
      · cases met
      · rename_i through
        cases met
        rw [← way]
        have back := le_abs_self (velocity.dot plane.normal * dt)
        have side : plane.signedDistance position + radius ≤ 0 := by linarith
        rw [abs_of_nonpos side]
        linarith
    · split at met
      · split at met <;> cases met
        exact onFace
      · split at met <;> cases met
        exact onFace

namespace Collision

theorem timeToFace_nonneg (distance speed : K) : 0 ≤ timeToFace distance speed := by
  rw [timeToFace]
  split
  · exact abs_nonneg _
  · exact le_of_eq Scalar.ofNat_eq_zero.symm

theorem timeToFace_le {distance speed dt : K} (forward : 0 ≤ dt)
    (reached : |distance| ≤ |speed| * dt) : timeToFace distance speed ≤ dt := by
  rw [timeToFace]
  split
  · rename_i moving
    have positive : 0 < |speed| := Scalar.epsilon_pos.trans moving
    change |distance / speed| ≤ dt
    rw [abs_div, div_le_iff₀ positive, mul_comm]
    exact reached
  · rwa [Scalar.ofNat_eq_zero]

end Collision

/-- Whether a contact lies within its tick, if there was one. -/
def Particle.HitWithin (dt : K) (particle : Particle K) : Prop :=
  particle.collided = true → 0 ≤ particle.timeAfterContact ∧ particle.timeAfterContact ≤ dt

variable {context : UpdateContext K}

namespace Collision

private theorem hitWithin_respond {bounce : Bounce K} {facing : Plane K} {radius : K}
    {particle : Particle K} (forward : 0 ≤ context.tickTime)
    (within : particle.HitWithin context.tickTime) (stream : RandomStream) :
    (respond bounce context facing.normal particle
      (.of facing radius particle.position particle.velocity context.tickTime) stream).1.HitWithin
        context.tickTime := by
  cases met : Encounter.of facing radius particle.position particle.velocity context.tickTime with
  | clear => exact within
  | leaving position => exact within
  | contact position distance =>
    have early := timeToFace_le forward (Encounter.abs_distance_le forward met)
    have late := timeToFace_nonneg distance (particle.velocity.dot facing.normal)
    obtain ⟨-, left, -⟩ :=
      respond_contact_recorded bounce context particle facing.normal position distance stream
    rw [Particle.HitWithin, left]
    exact fun _ => ⟨sub_nonneg.mpr early, sub_le_self _ late⟩

theorem hitWithin_collideWith {bounce : Bounce K} {radius : K} {particle : Particle K}
    (plane : Plane K) (forward : 0 ≤ context.tickTime)
    (within : particle.HitWithin context.tickTime) (stream : RandomStream) :
    (collideWith bounce context radius particle plane stream).1.HitWithin context.tickTime := by
  cases seen : localPlane context particle plane with
  | none =>
    rw [collideWith, encounter, seen]
    exact within
  | some facing =>
    rw [collideWith_of_seen seen]
    exact hitWithin_respond forward within stream

theorem hitWithin_execute (m : Collision K) {particle : Particle K} (forward : 0 ≤ context.tickTime)
    (within : particle.HitWithin context.tickTime) (stream : RandomStream) :
    (m.execute context particle stream).1.HitWithin context.tickTime :=
  RandomStream.foldlM_induction (motive := Particle.HitWithin context.tickTime)
    (fun _ plane stream within => hitWithin_collideWith plane forward within stream)
      m.planes within stream

end Collision

theorem UpdateModule.hitWithin_execute (m : UpdateModule K) {particle : Particle K}
    (forward : 0 ≤ context.tickTime) (within : particle.HitWithin context.tickTime)
    (stream : RandomStream) : (m.execute context particle stream).1.HitWithin context.tickTime := by
  cases m with
  | collision m => exact m.hitWithin_execute forward within stream

theorem Stack.hitWithin_runUpdate (s : Stack K) (particle : Particle K)
    (forward : 0 ≤ context.tickTime) (stream : RandomStream) :
    (s.runUpdate context particle stream).1.HitWithin context.tickTime := by
  have start : Particle.HitWithin context.tickTime { particle with collided := false } := by
    intro contact
    cases contact
  exact RandomStream.foldlM_induction (motive := Particle.HitWithin context.tickTime)
    (fun _ m stream within => m.hitWithin_execute forward within stream) s.update start stream

end ParticleSystem
