import ParticleSystem.Proofs.Collision.Frame
import ParticleSystem.Scalar.Single

namespace ParticleSystem

variable {α : Type} [Scalar α]

namespace Collision

omit [Scalar α] in
/-- The collision with a single plane, alike in all else. -/
def onPlane (m : Collision α) (plane : Plane α) : Collision α :=
  { m with useTwoPlanes := false, plane₁ := plane }

/-- The collisions with a single plane each that a collision is made of. -/
def singles (m : Collision α) : List (Collision α) := m.planes.map m.onPlane

theorem execute_eq_singles (m : Collision α) (context : UpdateContext α) (particle : Particle α) :
    m.execute context particle =
      m.singles.foldlM (fun p single => single.execute context p) particle := by
  have each (p : Particle α) (plane : Plane α) (same : particle.SameMake p) :
      collideWith m.bounce context (m.radius.compute particle context) p plane =
        (m.onPlane plane).execute context p := by
    have single : (m.onPlane plane).execute context p = _ := execute_of_onePlane rfl
    rw [single, ← compute_of_sameMake m.radius context same]
    rfl
  rw [singles, List.foldlM_map]
  exact RandomStream.foldlM_congr each (fun p plane stream same =>
    same.trans (collideWith_sameMake ..)) m.planes
    ⟨rfl, rfl, rfl, rfl, rfl, rfl, rfl⟩

end Collision

/-- Where a module does what a list of others does one after
another, they can stand in its place. -/
theorem Stack.runUpdate_replace {m : UpdateModule α} {context : UpdateContext α}
    (parts : List (UpdateModule α))
    (same : ∀ particle, m.execute context particle =
      parts.foldlM (fun p part => part.execute context p) particle)
    (spawn : List (SpawnModule α)) (earlier later : List (UpdateModule α)) (bound : Bool)
    (particle : Particle α) :
    Stack.runUpdate ⟨spawn, earlier ++ parts ++ later, bound⟩ context particle =
      Stack.runUpdate ⟨spawn, earlier ++ m :: later, bound⟩ context particle := by
  simp only [runUpdate, List.foldlM_append, List.foldlM_cons, same, bind_assoc]

/-- A collision with two planes is the collision with the first plane alone and
then the one with the second, and these two can stand in its place among the
modules of a stack, wherever it stands. -/
theorem two_planes_in_turn {m : Collision α} (double : m.useTwoPlanes = true)
    (context : UpdateContext α) :
    (∀ particle, m.execute context particle =
        (m.onPlane m.plane₁).execute context particle >>= (m.onPlane m.plane₂).execute context) ∧
      ∀ (spawn : List (SpawnModule α)) (earlier later : List (UpdateModule α)) (bound :
        Bool) (particle : Particle α),
        Stack.updateParticle
            ⟨spawn, earlier ++ .collision (m.onPlane m.plane₁) ::
              .collision (m.onPlane m.plane₂) :: later, bound⟩
            context particle =
          Stack.updateParticle ⟨spawn, earlier ++ .collision m :: later, bound⟩
            context particle := by
  have parts : m.singles = [m.onPlane m.plane₁, m.onPlane m.plane₂] := by
    rw [Collision.singles, Collision.planes, double]
    rfl
  have both (particle : Particle α) : m.execute context particle =
      (m.onPlane m.plane₁).execute context particle >>= (m.onPlane m.plane₂).execute context := by
    rw [m.execute_eq_singles, parts]
    rfl
  refine ⟨both, fun spawn earlier later bound particle => ?_⟩
  have replaced := Stack.runUpdate_replace (m := .collision m)
    [.collision (m.onPlane m.plane₁), .collision (m.onPlane m.plane₂)] both
      spawn earlier later bound particle
  rw [List.append_assoc, List.cons_append, List.cons_append, List.nil_append] at replaced
  simp only [Stack.updateParticle, replaced]

/-- Off a floor and then a ceiling within one tick, in single
precision and between other modules. -/
theorem two_planes_in_turn_narrow :
    let narrow : Collision Float32 :=
      { Collision.default with
        useTwoPlanes := true
        plane₂ := ⟨⟨0, 0, -1⟩, ⟨0, 0, 0.3⟩⟩
        radius := .custom 0 }
    let context : UpdateContext Float32 := ⟨⟨0, 1⟩, .unitZ, true, .identity, 0.1, .one, .one⟩
    let particle : Particle Float32 :=
      { Particle.ofPosition ⟨0, 0, 0.1⟩ with velocity := ⟨0, 0, -5⟩ }
    let first := narrow.onPlane narrow.plane₁
    let second := narrow.onPlane narrow.plane₂
    (first.execute context particle (.ofSeed 1)).1.velocity.z = 5 ∧
      (narrow.execute context particle (.ofSeed 1)).1.velocity.z = -5 ∧
      narrow.execute context particle = first.execute context particle >>= second.execute context ∧
      Stack.updateParticle ⟨[], [.collision .default, .collision first, .collision second], true⟩
        context particle =
        Stack.updateParticle ⟨[], [.collision .default, .collision narrow], true⟩
          context particle := by
  intro narrow context particle first second
  obtain ⟨turn, replaced⟩ := two_planes_in_turn (m := narrow) rfl context
  exact ⟨by decide +kernel, by decide +kernel, turn particle,
    replaced [] [.collision .default] [] true particle⟩

end ParticleSystem
