import ParticleSystem.Proofs.Collision.Sides
import ParticleSystem.Proofs.Collision.Timing

namespace ParticleSystem

/-- Where a tick starts from: a point between the faces is put on
the one on its side, any other stays. -/
def Plane.start {α : Type} [Scalar α] (plane : Plane α) (radius : α) (point : Vec3 α) : Vec3 α :=
  if plane.Within radius point then plane.snap radius point else point

variable {K : Type} [Field K] [LinearOrder K] [FloorRing K] [Elementary K] [IsStrictOrderedRing K]
  {context : UpdateContext K} {particle : Particle K} {plane facing : Plane K} {radius : K}

/-- A face that is met is the one on the side of the particle, which
moves towards it or is on it already. -/
theorem Encounter.toward_face {position velocity place : Vec3 K} {distance dt : K}
    (unit : facing.normal.dot facing.normal = 1) (thick : 0 ≤ radius) (forward : 0 ≤ dt)
    (met : Encounter.of facing radius position velocity dt = .contact place distance) :
    place = facing.start radius position ∧
      facing.signedDistance place = facing.side position * radius + distance ∧
      distance * velocity.dot facing.normal ≤ 0 ∧
      (facing.Within radius position → distance = 0) := by
  by_cases within : facing.Within radius position
  · rw [of_within within] at met
    split at met <;> cases met
    refine ⟨(if_pos within).symm, ?_, ?_, fun _ => rfl⟩
    · rw [Plane.signedDistance_snap unit, add_zero]
    · rw [zero_mul]
  · rw [of_not_within thick within, Plane.signedDistance_move] at met
    split at met <;> cases met
    rename_i through
    have beyond := Plane.le_of_not_within thick within
    have whole := facing.side_mul_self position
    have inward : facing.side position * velocity.dot facing.normal ≤ 0 :=
      not_lt.mp fun outward => through (by linarith [mul_nonneg outward.le forward])
    refine ⟨(if_neg within).symm, (add_sub_cancel _ _).symm, ?_, fun inside => absurd inside within⟩
    calc (facing.signedDistance position - facing.side position * radius) *
          velocity.dot facing.normal
      _ = (facing.side position * facing.signedDistance position - radius) *
            (facing.side position * velocity.dot facing.normal) := by
          linear_combination -(facing.signedDistance position * velocity.dot facing.normal) * whole
      _ ≤ 0 := mul_nonpos_of_nonneg_of_nonpos (sub_nonneg.mpr beyond) inward

namespace Collision

private theorem mul_timeToFace {distance speed : K} (toward : distance * speed ≤ 0)
    (moving : distance = 0 ∨ Scalar.epsilon < |speed|) :
    speed * timeToFace distance speed = -distance := by
  have covered : Scalar.abs (distance / speed) = -(distance / speed) :=
    abs_of_nonpos (div_nonpos_iff.mpr (mul_nonpos_iff.mp toward))
  rw [timeToFace, covered, Scalar.ofNat_eq_zero]
  split
  · rename_i fast
    have nonzero : speed ≠ 0 := abs_pos.mp (Scalar.epsilon_pos.trans fast)
    rw [mul_neg, mul_div_cancel₀ _ nonzero]
  · rename_i slow
    rw [moving.resolve_right slow, mul_zero, neg_zero]

/-- A contact lies within its tick, and on the face of the slab that is on the side where the
particle was, unless the particle was outside and hardly moved along the normal. It is the point
that the particle reaches by then from where its tick starts, mapped to the world by the emitter or
by the particle's space of birth. Without a contact nothing is recorded. -/
theorem contact_on_face (bounce : Bounce K) (seen : localPlane context particle plane = some facing)
    (unit : facing.normal.dot facing.normal = 1) (thick : 0 ≤ radius)
    (forward : 0 ≤ context.tickTime) (stream : RandomStream) :
    let met := Encounter.of facing radius particle.position particle.velocity context.tickTime
    let after := (collideWith bounce context radius particle plane stream).1
    let point := facing.start radius particle.position +
      particle.velocity * (context.tickTime - after.timeAfterContact)
    (met.isContact = false → after.collided = particle.collided ∧ after.contact = particle.contact ∧
        after.timeAfterContact = particle.timeAfterContact) ∧
      (met.isContact = true → after.collided = true ∧
        0 ≤ after.timeAfterContact ∧ after.timeAfterContact ≤ context.tickTime ∧
        after.contact =
          (if context.localSpace then context.emitter
            else particle.spawnTransform).applyPoint point ∧
        (facing.Within radius particle.position ∨
          Scalar.epsilon < |particle.velocity.dot facing.normal| →
          facing.signedDistance point = facing.side particle.position * radius)) := by
  intro met after point
  have responds : after = (respond bounce context facing.normal particle met stream).1 := by
    simp only [after, collideWith_of_seen seen]
    rfl
  refine ⟨fun unmet => ?_, fun contact => ?_⟩
  · obtain ⟨position, moved⟩ := respond_unmet unmet bounce context facing.normal particle stream
    rw [responds, moved]
    exact ⟨rfl, rfl, rfl⟩
  · obtain ⟨place, distance, face⟩ := Encounter.exists_of_isContact contact
    obtain ⟨begun, away, toward, none⟩ := Encounter.toward_face unit thick forward face
    have early := timeToFace_le forward (Encounter.abs_distance_le forward face)
    have late := timeToFace_nonneg distance (particle.velocity.dot facing.normal)
    obtain ⟨collided, left, recorded⟩ :=
      respond_contact_recorded bounce context particle facing.normal place distance stream
    rw [← face, ← responds] at collided left recorded
    have elapsed : context.tickTime - after.timeAfterContact =
        timeToFace distance (particle.velocity.dot facing.normal) := by
      rw [left, sub_sub_cancel]
    rw [← elapsed, begun] at recorded
    refine ⟨collided, ?_, ?_, recorded, fun plain => ?_⟩
    · rw [left]
      exact sub_nonneg.mpr early
    · rw [left]
      exact sub_le_self _ late
    · rw [Plane.signedDistance_move, ← begun, away, elapsed,
        mul_timeToFace toward (plain.imp_left none), add_neg_cancel_right]

/-- A jittered bounce off the back face of a slab, met late in the tick, in a
space that the emitter turns and moves. -/
theorem contact_on_face_late :
    let bounce : Bounce ℚ := ⟨1 / 2, 1 / 2⟩
    let plane : Plane ℚ := ⟨⟨0, 3 / 5, 4 / 5⟩, ⟨0, 0, 1⟩⟩
    let context : UpdateContext ℚ :=
      ⟨⟨0, 1⟩, .unitZ, true, ⟨⟨.unitY, -.unitX, .unitZ⟩, ⟨1, 0, -1⟩⟩, 1, .one, .one⟩
    let particle : Particle ℚ := { Particle.default with velocity := ⟨3, 1 / 4, 3 / 4⟩ }
    let after := (collideWith bounce context (1 / 5) particle plane (.ofSeed 1)).1
    after.collided = true ∧ after.timeAfterContact = 1 / 5 ∧
    after.contact = ⟨4 / 5, 12 / 5, -2 / 5⟩ ∧
      plane.signedDistance (particle.velocity * (4 / 5 : ℚ)) = -1 / 5 := by
  intro bounce plane context particle after
  have unit : plane.normal.dot plane.normal = 1 := by decide +kernel
  have seen : localPlane context particle plane = some plane := localPlane_of_localSpace rfl unit
  have thick : (0 : ℚ) ≤ 1 / 5 := by decide +kernel
  obtain ⟨-, hit⟩ := contact_on_face bounce seen unit thick (by decide +kernel) (.ofSeed 1)
  obtain ⟨collided, -, -, contact, onFace⟩ := hit (by decide +kernel)
  have left : (collideWith bounce context (1 / 5) particle plane (.ofSeed 1)).1.timeAfterContact =
      1 / 5 := by
    decide +kernel
  rw [left] at contact onFace
  refine ⟨collided, left, contact.trans (by decide +kernel), ?_⟩
  exact Eq.trans (by decide +kernel) ((onFace (.inr (by decide +kernel))).trans (by decide +kernel))

end Collision

private theorem Plane.side_snap (unit : facing.normal.dot facing.normal = 1) (thick : 0 < radius)
    (point : Vec3 K) : facing.side (facing.snap radius point) = facing.side point := by
  have level := signedDistance_snap unit radius point
  rcases lt_or_ge (facing.signedDistance point) 0 with behind | front
  · rw [side_of_neg behind, neg_one_mul] at level
    rw [side_of_neg behind, side_of_neg (by linarith)]
  · rw [side_of_nonneg front, one_mul] at level
    rw [side_of_nonneg front, side_of_nonneg (by linarith)]

private theorem Plane.thick_of_within {point : Vec3 K} (within : facing.Within radius point) :
    0 < radius := by
  linarith [within.1, within.2]

theorem Encounter.of_snap {velocity : Vec3 K} {dt : K} (unit : facing.normal.dot facing.normal = 1)
    (thick : 0 < radius) (forward : 0 ≤ dt) (point : Vec3 K)
    (outward : 0 ≤ facing.side point * velocity.dot facing.normal) :
    Encounter.of facing radius (facing.snap radius point) velocity dt = .clear := by
  have level := Plane.signedDistance_snap unit radius point
  have outside : ¬facing.Within radius (facing.snap radius point) := by
    rintro ⟨above, below⟩
    rw [level] at above below
    rcases facing.side_eq point with behind | front
    · rw [behind, neg_one_mul] at above
      exact above.false
    · rw [front, one_mul] at below
      exact below.false
  have away : radius ≤ facing.side point *
      (facing.side point * radius + velocity.dot facing.normal * dt) := by
    have moved := mul_nonneg outward forward
    linear_combination moved - radius * facing.side_mul_self point
  rw [of_not_within thick.le outside, Plane.side_snap unit thick, Plane.signedDistance_move, level]
  exact if_pos away

namespace Collision

variable {m : Collision K}

/-- Between the faces a particle is put on the one on its side. Moving out it only changes its
place; otherwise a contact is recorded and its velocity becomes its share of the mirror image. -/
private theorem execute_within (single : m.useTwoPlanes = false)
    (exact : m.bounce.jitter ≤ Scalar.epsilon)
    (seen : localPlane context particle m.plane₁ = some facing)
    (within : facing.Within (m.radius.compute particle context) particle.position)
    (stream : RandomStream) :
    let snapped := facing.snap (m.radius.compute particle context) particle.position
    let outward := facing.side particle.position * particle.velocity.dot facing.normal
    let after := (m.execute context particle stream).1
    (0 < outward ∧ after = { particle with position := snapped }) ∨
      (outward ≤ 0 ∧ after.collided = true ∧ after.position = snapped ∧
        after.velocity = particle.velocity.reflect facing.normal * m.bounce.restitution) := by
  intro snapped outward after
  have responds : after = (respond m.bounce context facing.normal particle
      (.of facing (m.radius.compute particle context) particle.position
        particle.velocity context.tickTime)
      stream).1 := by
    simp only [after, execute_of_seen single seen]
  rw [Encounter.of_within within] at responds
  split at responds
  · rename_i leaves
    exact .inl ⟨leaves, responds⟩
  · rename_i meets
    obtain ⟨collided, position, velocity⟩ :=
      respond_contact_exact exact context particle facing.normal snapped 0 stream
    rw [← responds] at collided position velocity
    refine .inr ⟨not_lt.mp meets, collided, ?_, velocity⟩
    rw [position, mul_zero]
    ext <;> simp

/-- A particle between the faces is put on the one on its side: it is moved along the normal alone,
and then does not move in again. A contact is recorded exactly when it was not moving out; if it
was, only its place changes. Doing the same again changes nothing. -/
theorem inside_put_on_face (single : m.useTwoPlanes = false)
    (exact : m.bounce.jitter ≤ Scalar.epsilon) (kept : 0 ≤ m.bounce.restitution)
    (forward : 0 ≤ context.tickTime) (seen : localPlane context particle m.plane₁ = some facing)
    (unit : facing.normal.dot facing.normal = 1)
    (within : facing.Within (m.radius.compute particle context) particle.position)
    (stream : RandomStream) :
    let level := facing.side particle.position * m.radius.compute particle context
    let outward := facing.side particle.position * particle.velocity.dot facing.normal
    let after := (m.execute context particle stream).1
    facing.signedDistance after.position = level ∧
      after.position = particle.position -
        facing.normal * (facing.signedDistance particle.position - level) ∧
      0 ≤ facing.side particle.position * after.velocity.dot facing.normal ∧
      (0 < outward → after = { particle with position := after.position }) ∧
      (outward ≤ 0 → after.collided = true) ∧
      m.execute context after = pure after := by
  intro level outward after
  have thick := Plane.thick_of_within within
  have same : particle.SameMake after := m.execute_sameMake context particle stream
  have outcome := execute_within single exact seen within stream
  have place : after.position =
      facing.snap (m.radius.compute particle context) particle.position := by
    rcases outcome with ⟨-, moved⟩ | ⟨-, -, position, -⟩
    · exact congrArg Particle.position moved
    · exact position
  have out : 0 ≤ facing.side particle.position * after.velocity.dot facing.normal := by
    rcases outcome with ⟨leaves, moved⟩ | ⟨meets, -, -, velocity⟩
    · have velocity : after.velocity = particle.velocity := by rw [show after = _ from moved]
      rw [velocity]
      exact leaves.le
    · rw [show after.velocity = _ from velocity, Vec3.dot_scale, Vec3.dot_reflect_self _ unit]
      have share := mul_nonneg kept (neg_nonneg.mpr meets)
      linear_combination share
  refine ⟨?_, place, out, fun leaves => ?_, fun meets => ?_, ?_⟩
  · rw [place]
    exact Plane.signedDistance_snap unit _ _
  · rw [place]
    exact (outcome.resolve_right fun hit => leaves.not_ge hit.1).2
  · exact (outcome.resolve_left fun moved => moved.1.not_ge meets).2.1
  · have sees : localPlane context after m.plane₁ = some facing :=
      (localPlane_of_sameMake context same _).trans seen
    rw [execute_of_seen single sees, compute_of_sameMake m.radius context same, place,
      Encounter.of_snap unit thick forward _ out]
    rfl

/-- A particle that sinks into the back half of a slab is put on its back face and reflected. -/
theorem inside_put_on_face_sinking :
    let plane : Plane ℚ := ⟨⟨0, 3 / 5, 4 / 5⟩, ⟨0, 0, 1⟩⟩
    let m : Collision ℚ :=
      { Collision.default with bounce := ⟨1 / 2, 0⟩, plane₁ := plane, radius := .custom 1 }
    let context : UpdateContext ℚ := ⟨⟨0, 1⟩, .unitZ, true, .identity, 1, .one, .one⟩
    let particle : Particle ℚ := { Particle.default with velocity := ⟨1, 1, 3⟩ }
    let after := (m.execute context particle (.ofSeed 1)).1
    plane.signedDistance particle.position = -4 / 5 ∧ plane.signedDistance after.position = -1 ∧
      after.collided = true ∧ after.velocity.dot plane.normal = -3 / 2 ∧
      m.execute context after = pure after := by
  intro plane m context particle after
  have unit : plane.normal.dot plane.normal = 1 := by decide +kernel
  have seen : localPlane context particle m.plane₁ = some plane := localPlane_of_localSpace rfl unit
  have within : plane.Within (m.radius.compute particle context) particle.position := by
    decide +kernel
  obtain ⟨level, -, -, -, contact, again⟩ :=
    inside_put_on_face (m := m) rfl (by decide +kernel) (by decide +kernel) (by decide +kernel)
      seen unit within
      (.ofSeed 1)
  exact ⟨by decide +kernel, level.trans (by decide +kernel),
    contact (by decide +kernel), by decide +kernel, again⟩

end Collision

end ParticleSystem
