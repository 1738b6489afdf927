import ParticleSystem.Proofs.Collision.Landing

namespace ParticleSystem

variable {K : Type} [Field K] [LinearOrder K] [FloorRing K] [Elementary K]

namespace Vec3

private theorem tangent_reflect (v : Vec3 K) {n : Vec3 K} (unit : n.dot n = 1) :
    v.reflect n - n * (v.reflect n).dot n = v - n * v.dot n := by
  rw [dot_reflect_self v unit, reflect, Scalar.ofNat_eq_ofNat]
  ext <;> simp only [sub_x, sub_y, sub_z, scale_x, scale_y, scale_z] <;> ring

theorem length_reflect (v : Vec3 K) {n : Vec3 K} (unit : n.dot n = 1) :
    (v.reflect n).length = v.length :=
  congrArg Scalar.sqrt (lengthSquared_reflect v unit)

end Vec3

namespace Plane

section Faces

variable {α : Type} [Scalar α] (plane : Plane α) (radius level : α)

/-- The mirror image of a point in the face that lies a level
in front of a plane with a unit normal. -/
def mirror (point : Vec3 α) : Vec3 α :=
  point - plane.normal * (2 * (plane.signedDistance point - level))

/-- The level of the face of a slab that is on the side of a point outside. -/
def faceLevel (point : Vec3 α) : α :=
  if radius ≤ plane.signedDistance point then radius else -radius

/-- Whether a way that starts outside a slab leads through the face on that side. -/
def Crossed (start finish : Vec3 α) : Prop :=
  if radius ≤ plane.signedDistance start then plane.signedDistance finish < radius
  else -radius < plane.signedDistance finish

end Faces

private theorem mirror_move (plane : Plane K) (level : K) (point velocity : Vec3 K) (time : K) :
    plane.mirror level (point + velocity * time) =
      plane.mirror level point + velocity.reflect plane.normal * time := by
  rw [mirror, mirror, signedDistance_move, Vec3.reflect, Scalar.ofNat_eq_ofNat]
  ext <;> simp only [Vec3.add_x, Vec3.add_y, Vec3.add_z, Vec3.sub_x, Vec3.sub_y, Vec3.sub_z,
    Vec3.scale_x, Vec3.scale_y, Vec3.scale_z] <;> ring

end Plane

variable {context : UpdateContext K} {particle : Particle K} {facing : Plane K} {radius : K}

private theorem Encounter.of_beyond {position : Vec3 K}
    (beyond : radius ≤ facing.signedDistance position ∨ facing.signedDistance position ≤ -radius)
    (velocity : Vec3 K) (dt : K) :
    let met := Encounter.of facing radius position velocity dt
    (¬ facing.Crossed radius position (position + velocity * dt) ∧ met = .clear) ∨
      (facing.Crossed radius position (position + velocity * dt) ∧
        met = .contact position
          (facing.signedDistance position - facing.faceLevel radius position)) := by
  intro met
  unfold Plane.Crossed Plane.faceLevel
  by_cases front : radius ≤ facing.signedDistance position
  · rw [if_pos front, if_pos front]
    have outside := Encounter.of_outside front velocity dt
    by_cases passes : radius ≤ facing.signedDistance (position + velocity * dt)
    · exact .inl ⟨not_lt.mpr passes, outside.trans (if_pos passes)⟩
    · exact .inr ⟨not_le.mp passes, outside.trans (if_neg passes)⟩
  · have behind := beyond.resolve_left front
    rw [if_neg front, if_neg front, sub_neg_eq_add]
    have outside : met = if facing.signedDistance (position + velocity * dt) ≤ -radius then .clear
        else .contact position (facing.signedDistance position + radius) := by
      simp only [met, of, front, behind, if_true, if_false]
    by_cases passes : facing.signedDistance (position + velocity * dt) ≤ -radius
    · exact .inl ⟨not_lt.mpr passes, outside.trans (if_pos passes)⟩
    · exact .inr ⟨not_le.mp passes, outside.trans (if_neg passes)⟩

namespace Collision

variable {m : Collision K}

/-- A particle outside the slab is left alone unless its way leads through the face on its
side; if it does, its contact is recorded, its velocity becomes its share of the mirror image,
and it is put at its own mirror image. -/
private theorem execute_beyond (single : m.useTwoPlanes = false)
    (exact : m.bounce.jitter ≤ Scalar.epsilon)
    (seen : localPlane context particle m.plane₁ = some facing)
    (beyond : m.radius.compute particle context ≤ facing.signedDistance particle.position ∨
      facing.signedDistance particle.position ≤ -m.radius.compute particle context)
    (stream : RandomStream) :
    let radius := m.radius.compute particle context
    let free := (particle.integrate context.tickTime).position
    let after := (m.execute context particle stream).1
    (¬ facing.Crossed radius particle.position free ∧ after = particle) ∨
      (facing.Crossed radius particle.position free ∧ after.collided = true ∧
        after.position = facing.mirror (facing.faceLevel radius particle.position)
          particle.position ∧
        after.velocity = particle.velocity.reflect facing.normal * m.bounce.restitution) := by
  intro radius free after
  have responds : after = (respond m.bounce context facing.normal particle
      (.of facing radius particle.position particle.velocity context.tickTime) stream).1 := by
    simp only [after, execute_of_seen single seen]
    rfl
  rcases Encounter.of_beyond beyond particle.velocity context.tickTime with ⟨passes, met⟩ |
    ⟨crossed, met⟩
  · refine .inl ⟨passes, ?_⟩
    rw [responds, met]
    rfl
  · refine .inr ⟨crossed, ?_⟩
    rw [responds, met]
    exact respond_contact_exact exact context particle facing.normal particle.position _ stream

/-- Outside the slab a contact is recorded exactly when the way of the tick leads through the face
on that side, and nothing is changed when it does not. A contact leaves the share of the mirrored
velocity that is kept; the mirrored velocity turns its part along the normal around, and keeps its
part along the plane and the speed. When the whole speed is kept, the tick ends at the mirror image
in that face of where it would have ended. -/
theorem bounce_on_mirrored_path (single : m.useTwoPlanes = false)
    (exact : m.bounce.jitter ≤ Scalar.epsilon)
    (seen : localPlane context particle m.plane₁ = some facing)
    (unit : facing.normal.dot facing.normal = 1)
    (beyond : m.radius.compute particle context ≤ facing.signedDistance particle.position ∨
      facing.signedDistance particle.position ≤ -m.radius.compute particle context)
    (stream : RandomStream) :
    let radius := m.radius.compute particle context
    let level := facing.faceLevel radius particle.position
    let free := (particle.integrate context.tickTime).position
    let mirrored := particle.velocity.reflect facing.normal
    let after := (m.execute context particle stream).1
    (after.collided = true ↔
      particle.collided = true ∨ facing.Crossed radius particle.position free) ∧
      (¬ facing.Crossed radius particle.position free → after = particle) ∧
      (facing.Crossed radius particle.position free →
        after.velocity = mirrored * m.bounce.restitution ∧
        (m.bounce.restitution = 1 → after.velocity = mirrored ∧
          (after.integrate context.tickTime).position = facing.mirror level free)) ∧
      mirrored.dot facing.normal = -particle.velocity.dot facing.normal ∧
      mirrored - facing.normal * mirrored.dot facing.normal =
        particle.velocity - facing.normal * particle.velocity.dot facing.normal ∧
      mirrored.length = particle.velocity.length := by
  intro radius level free mirrored after
  have image : mirrored.dot facing.normal = -particle.velocity.dot facing.normal ∧
      mirrored - facing.normal * mirrored.dot facing.normal =
        particle.velocity - facing.normal * particle.velocity.dot facing.normal ∧
      mirrored.length = particle.velocity.length :=
    ⟨Vec3.dot_reflect_self _ unit, Vec3.tangent_reflect _ unit, Vec3.length_reflect _ unit⟩
  rcases execute_beyond single exact seen beyond stream with
    ⟨passes, same⟩ | ⟨crossed, contact, position, velocity⟩
  · refine ⟨?_, fun _ => same, fun crossed => absurd crossed passes, image⟩
    rw [show after = particle from same, or_iff_left passes]
  · refine ⟨iff_of_true contact (.inr crossed), fun passes => absurd crossed passes,
      fun _ => ⟨velocity, fun elastic => ?_⟩, image⟩
    have whole : after.velocity = mirrored := by
      rw [show after.velocity = _ from velocity, elastic, Vec3.scale_one]
    refine ⟨whole, ?_⟩
    change after.position + after.velocity * context.tickTime = _
    rw [whole, show after.position = _ from position, ← Plane.mirror_move]
    rfl

/-- A particle comes from behind against an oblique plane, in a slab
that reaches a quarter to either side. -/
theorem bounce_on_mirrored_path_behind :
    let plane : Plane ℚ := ⟨⟨0, 3 / 5, 4 / 5⟩, ⟨0, 0, 1⟩⟩
    let m : Collision ℚ := { Collision.default with plane₁ := plane, radius := .custom (1 / 4) }
    let context : UpdateContext ℚ := ⟨⟨0, 1⟩, .unitZ, true, .identity, 1, .one, .one⟩
    let particle : Particle ℚ := { Particle.default with velocity := ⟨1, 1, 3⟩ }
    let after := (m.execute context particle (.ofSeed 1)).1
    after.collided = true ∧ after.velocity = ⟨1, -13 / 5, -9 / 5⟩ ∧
      (after.integrate 1).position = plane.mirror (-1 / 4) ⟨1, 1, 3⟩ ∧
      after.velocity.length = particle.velocity.length := by
  intro plane m context particle after
  have unit : plane.normal.dot plane.normal = 1 := by decide +kernel
  have seen : localPlane context particle m.plane₁ = some plane := localPlane_of_localSpace rfl unit
  have crossed : plane.Crossed (m.radius.compute particle context) particle.position
      (particle.integrate context.tickTime).position := by
    unfold Plane.Crossed
    decide +kernel
  obtain ⟨contact, -, hit, -, -, speed⟩ :=
    bounce_on_mirrored_path (m := m) rfl (by decide +kernel) seen unit
      (.inr (by decide +kernel)) (.ofSeed 1)
  obtain ⟨velocity, position⟩ := (hit crossed).2 (by decide +kernel)
  refine ⟨contact.mpr (.inr crossed), ?_, ?_, ?_⟩
  · exact velocity.trans (by decide +kernel)
  · exact position.trans (by decide +kernel)
  · exact (congrArg Vec3.length velocity).trans speed

end Collision

end ParticleSystem
