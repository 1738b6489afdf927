import ParticleSystem.Collision.Bounce
import ParticleSystem.Proofs.Geometry.Vector

/-!
Where an exact bounce leaves a particle. It mirrors the particle in the face before the tick moves
it, so what counts is the distance at the end of the tick: it depends on how much of the tick passes
before the contact and on the share of the speed that is kept.
-/

namespace ParticleSystem

theorem RandomStream.bind_apply {γ δ : Type} (x : StateM RandomStream γ)
    (f : γ → StateM RandomStream δ) (stream : RandomStream) :
    (x >>= f) stream = f (x stream).1 (x stream).2 :=
  rfl

section Encounter

variable {α : Type} [Scalar α] {m : Collision α} {bounce : Bounce α} {context : UpdateContext α}
  {radius : α} {particle : Particle α} {plane facing : Plane α}

omit [Scalar α] in
theorem Encounter.exists_of_isContact {met : Encounter α} (contact : met.isContact = true) :
    ∃ position distance, met = .contact position distance := by
  cases met with
  | clear => cases contact
  | leaving position => cases contact
  | contact position distance => exact ⟨position, distance, rfl⟩

/-- In front of the slab a particle stays clear or meets the front face. -/
theorem Encounter.of_outside {position : Vec3 α} (outside : radius ≤ facing.signedDistance position)
    (velocity : Vec3 α) (tickTime : α) :
    Encounter.of facing radius position velocity tickTime =
      if radius ≤ facing.signedDistance (position + velocity * tickTime) then .clear
      else .contact position (facing.signedDistance position - radius) := by
  simp only [of, outside, if_true]

namespace Collision

theorem execute_of_onePlane (single : m.useTwoPlanes = false) :
    m.execute context particle =
      collideWith m.bounce context (m.radius.compute particle context) particle m.plane₁ := by
  simp [execute, planes, single]

theorem execute_of_twoPlanes (double : m.useTwoPlanes = true) (stream : RandomStream) :
    let collide := collideWith m.bounce context (m.radius.compute particle context)
    let first := collide particle m.plane₁ stream
    m.execute context particle stream = collide first.1 m.plane₂ first.2 := by
  simp only [execute, planes, double, if_true, List.foldlM_cons, List.foldlM_nil]
  rfl

theorem respond_unmet {met : Encounter α} (unmet : met.isContact = false) (bounce : Bounce α)
    (context : UpdateContext α) (normal : Vec3 α) (particle : Particle α) (stream : RandomStream) :
    ∃ position, (respond bounce context normal particle met stream).1 =
      { particle with position := position } := by
  cases met with
  | clear => exact ⟨particle.position, rfl⟩
  | leaving position => exact ⟨position, rfl⟩
  | contact position distance => cases unmet

theorem collideWith_velocity
    (unmet : ∀ facing met, encounter context radius particle plane = some (facing, met) →
      met.isContact = false)
    (stream : RandomStream) :
    (collideWith bounce context radius particle plane stream).1.velocity = particle.velocity := by
  unfold collideWith
  cases found : encounter context radius particle plane with
  | none => rfl
  | some pair =>
    obtain ⟨facing, met⟩ := pair
    obtain ⟨position, moved⟩ :=
      respond_unmet (unmet facing met found) bounce context facing.normal particle stream
    have kept := congrArg Particle.velocity moved
    exact kept

theorem execute_velocity {earlier later : List (Plane α)} {before : Particle α}
    {stream left : RandomStream}
    (listed : m.planes = earlier ++ plane :: later)
    (ran : earlier.foldlM (collideWith m.bounce context (m.radius.compute particle context))
      particle stream = (before, left))
    (unmet : ∀ other ∈ later, ∀ facing met,
      encounter context (m.radius.compute particle context)
          (collideWith m.bounce context (m.radius.compute particle context) before plane left).1
            other = some (facing, met) → met.isContact = false) :
    (m.execute context particle stream).1.velocity =
      (collideWith m.bounce context (m.radius.compute particle context)
        before plane left).1.velocity := by
  have few : m.planes.length ≤ 2 := by
    unfold planes
    split <;> simp
  rw [execute, listed, List.foldlM_append, RandomStream.bind_apply, ran, List.foldlM_cons,
    RandomStream.bind_apply]
  cases later with
  | nil => rfl
  | cons other rest =>
    have none : rest = [] := by
      rw [listed] at few
      simp only [List.length_append, List.length_cons] at few
      exact List.eq_nil_of_length_eq_zero (by omega)
    subst none
    exact collideWith_velocity (unmet other List.mem_cons_self) _

theorem collideWith_of_seen (seen : localPlane context particle plane = some facing) :
    collideWith bounce context radius particle plane =
      respond bounce context facing.normal particle
        (.of facing radius particle.position particle.velocity context.tickTime) := by
  rw [collideWith, encounter, seen]
  rfl

theorem execute_of_seen (single : m.useTwoPlanes = false)
    (seen : localPlane context particle m.plane₁ = some facing) :
    m.execute context particle =
      respond m.bounce context facing.normal particle
        (.of facing (m.radius.compute particle context) particle.position
          particle.velocity context.tickTime) := by
  rw [execute_of_onePlane single, collideWith_of_seen seen]

/-- A contact is recorded at the point that is reached by its time, whatever the bounce. -/
theorem respond_contact_recorded (bounce : Bounce α) (context : UpdateContext α)
    (particle : Particle α) (normal position : Vec3 α) (distance : α) (stream : RandomStream) :
    let after := (respond bounce context normal particle (.contact position distance) stream).1
    let time := timeToFace distance (particle.velocity.dot normal)
    after.collided = true ∧ after.timeAfterContact = context.tickTime - time ∧
      after.contact =
        particle.toWorld context.localSpace context.emitter
          (position + particle.velocity * time) := by
  simp only [respond]
  split <;> exact ⟨rfl, rfl, rfl⟩

/-- An exact bounce mirrors the place and the velocity. -/
theorem respond_contact_exact (exact : bounce.jitter ≤ Scalar.epsilon) (context : UpdateContext α)
    (particle : Particle α) (normal position : Vec3 α) (distance : α) (stream : RandomStream) :
    let after := (respond bounce context normal particle (.contact position distance) stream).1
    after.collided = true ∧ after.position = position - normal * (2 * distance) ∧
      after.velocity = bounce.reflect particle.velocity normal := by
  simp only [respond, exact, if_true]
  exact ⟨rfl, rfl, rfl⟩

/-- A jittered bounce draws a normal and mirrors the velocity alone. -/
theorem respond_contact_jittered (jittered : ¬bounce.jitter ≤ Scalar.epsilon)
    (context : UpdateContext α) (particle : Particle α) (normal position : Vec3 α) (distance : α)
    (stream : RandomStream) :
    let after := (respond bounce context normal particle (.contact position distance) stream).1
    after.collided = true ∧ after.position = position ∧
      after.velocity = bounce.reflect particle.velocity
        (jitteredNormal normal bounce.jitter stream.peek stream.advance.peek) := by
  simp only [respond, jittered, if_false]
  exact ⟨rfl, rfl, rfl⟩

end Collision

end Encounter

namespace Collision

section Landing

variable {K : Type} [Field K] [LinearOrder K]

/-- How far from a plane a tick ends that begins in front of its slab, for a speed along the normal:
at the end of its way, or mirrored in the face when the way leads through it. -/
def landing (bounce : Bounce K) (radius distance speed dt : K) : K :=
  if radius ≤ distance + speed * dt then distance + speed * dt
  else radius - (distance - radius) - bounce.restitution * (speed * dt)

/-- A tick ends beyond a level within the slab exactly when its way does not lead through the face,
or the way to the face is made up for by the level's depth and the share of the way that is kept. -/
theorem le_landing_iff [IsStrictOrderedRing K] {bounce : Bounce K}
    {radius level distance speed dt : K} (low : level ≤ radius) :
    level ≤ landing bounce radius distance speed dt ↔
      radius ≤ distance + speed * dt ∨
        distance - radius ≤ radius - level + bounce.restitution * (-speed * dt) := by
  unfold landing
  split
  · rename_i passes
    exact iff_of_true (low.trans passes) (.inl passes)
  · rename_i meets
    rw [or_iff_right meets]
    constructor <;> intro bound <;> linarith

end Landing

variable {K : Type} [Field K] [LinearOrder K] [FloorRing K] [Elementary K]
  {context : UpdateContext K} {particle : Particle K} {facing : Plane K} {bounce : Bounce K}
  {radius : K}

/-- In front of the slab an exact bounce mirrors a particle whose way
leads through the face, and nothing else. -/
theorem respond_of_outside (exact : bounce.jitter ≤ Scalar.epsilon)
    (outside : radius ≤ facing.signedDistance particle.position) (stream : RandomStream) :
    let after := (respond bounce context facing.normal particle
      (.of facing radius particle.position particle.velocity context.tickTime) stream).1
    let ends := facing.signedDistance particle.position +
      particle.velocity.dot facing.normal * context.tickTime
    (radius ≤ ends ∧ after = particle) ∨
      (ends < radius ∧ after.position =
          particle.position - facing.normal *
            (2 * (facing.signedDistance particle.position - radius)) ∧
        after.velocity = bounce.reflect particle.velocity facing.normal) := by
  have met := Encounter.of_outside outside particle.velocity context.tickTime
  rw [Plane.signedDistance_move] at met
  intro after ends
  split at met
  · rename_i passes
    have same : after = particle := by
      simp only [after, met]
      rfl
    exact .inl ⟨passes, same⟩
  · rename_i meets
    have mirrored := respond_contact_exact exact context particle facing.normal particle.position
      (facing.signedDistance particle.position - radius) stream
    rw [← met] at mirrored
    exact .inr ⟨not_le.mp meets, mirrored.2⟩

private theorem signedDistance_respond (exact : bounce.jitter ≤ Scalar.epsilon)
    (unit : facing.normal.dot facing.normal = 1)
    (outside : radius ≤ facing.signedDistance particle.position) (stream : RandomStream) :
    let after := (respond bounce context facing.normal particle
      (.of facing radius particle.position particle.velocity context.tickTime) stream).1
    facing.signedDistance (after.integrate context.tickTime).position =
      landing bounce radius (facing.signedDistance particle.position)
        (particle.velocity.dot facing.normal)
        context.tickTime := by
  rcases respond_of_outside exact outside stream with ⟨passes, same⟩ | ⟨meets, position, velocity⟩
  all_goals
    intro after
    rw [Particle.integrate, Plane.signedDistance_move, landing]
  · rw [if_pos passes, show after = particle from same]
  · rw [if_neg (not_le.mpr meets), position, velocity, Plane.signedDistance_shift _ unit,
      Bounce.reflect, Vec3.dot_scale, Vec3.dot_reflect_self _ unit, Scalar.ofNat_eq_ofNat]
    ring

theorem localPlane_of_localSpace [IsStrictOrderedRing K] {plane : Plane K}
    (own : context.localSpace = true) (unit : plane.normal.dot plane.normal = 1) :
    localPlane context particle plane = some plane := by
  rw [localPlane, if_pos own, Plane.normalized_of_unit unit]

theorem encounter_of_through [IsStrictOrderedRing K] {plane : Plane K}
    (own : context.localSpace = true)
    (unit : plane.normal.dot plane.normal = 1)
    (outside : radius ≤ plane.signedDistance particle.position)
    (through : plane.signedDistance particle.position +
      particle.velocity.dot plane.normal * context.tickTime < radius) :
    encounter context radius particle plane =
      some (plane, .contact particle.position
        (plane.signedDistance particle.position - radius)) := by
  rw [encounter, localPlane_of_localSpace own unit, Option.map_some, Encounter.of_outside outside,
    Plane.signedDistance_move, if_neg (not_le.mpr through)]

theorem signedDistance_execute {m : Collision K} (single : m.useTwoPlanes = false)
    (exact : m.bounce.jitter ≤ Scalar.epsilon)
    (seen : localPlane context particle m.plane₁ = some facing)
    (unit : facing.normal.dot facing.normal = 1)
    (outside : m.radius.compute particle context ≤ facing.signedDistance particle.position)
    (stream : RandomStream) :
    facing.signedDistance ((m.execute context particle stream).1.integrate
      context.tickTime).position =
      landing m.bounce (m.radius.compute particle context) (facing.signedDistance particle.position)
        (particle.velocity.dot facing.normal) context.tickTime := by
  rw [execute_of_seen single seen]
  exact signedDistance_respond exact unit outside stream

end Collision

end ParticleSystem
