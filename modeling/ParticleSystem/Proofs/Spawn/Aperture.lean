import ParticleSystem.Proofs.Collision.Scatter
import ParticleSystem.Proofs.Spawn.Fan

/-!
Directions from a cone, around any axis but zero. Only the direction of an axis counts, and the
basis that looks along it is a rotation on both sides of the switch of the up axis; so what is drawn
from a cone is at the polar angle that the draw says, for particles that leave within an aperture
and for normals that are jittered.
-/

namespace ParticleSystem

open Real

namespace Basis

variable {forward : Vec3 ℝ}

theorem lookAt_normalize (apart : forward ≠ .zero) : lookAt forward.normalize = lookAt forward := by
  have unit := Vec3.normalize_dot_self (Vec3.dot_self_pos_of_ne_zero apart)
  simp only [lookAt, Vec3.normalizeOr_of_ne_zero apart, Vec3.normalizeOr_of_unit unit]

theorem Orthonormal.determinant {b : Basis ℝ} (orthonormal : b.Orthonormal) :
    b.z.dot (b.x.cross b.y) = 1 := by
  rw [← orthonormal.z_eq, orthonormal.z_unit]

theorem lookAt_rotation (apart : forward ≠ .zero) : (lookAt forward).Orthonormal ∧
    (lookAt forward).z.dot ((lookAt forward).x.cross (lookAt forward).y) = 1 ∧
    (lookAt forward).y = forward.normalize := by
  have unit := Vec3.normalize_dot_self (Vec3.dot_self_pos_of_ne_zero apart)
  have frame := lookAt_orthonormal unit
  have ahead := lookAt_y unit
  rw [lookAt_normalize apart] at frame ahead
  exact ⟨frame, frame.determinant, ahead⟩

end Basis

section Cone

variable {axis : Vec3 ℝ} (apart : axis ≠ .zero) (halfAngle uTheta uPhi : ℝ)

include apart

private theorem coneDirection_normalize :
    coneDirection axis.normalize halfAngle uTheta uPhi =
      coneDirection axis halfAngle uTheta uPhi := by
  rw [coneDirection, coneDirection, Basis.lookAt_normalize apart]

theorem coneDirection_around : (coneDirection axis halfAngle uTheta uPhi).dot
      (coneDirection axis halfAngle uTheta uPhi) = 1 ∧
    (coneDirection axis halfAngle uTheta uPhi).dot axis.normalize = cos (halfAngle * uPhi) := by
  have unit := Vec3.normalize_dot_self (Vec3.dot_self_pos_of_ne_zero apart)
  rw [← coneDirection_normalize apart]
  exact ⟨coneDirection_unit unit halfAngle uTheta uPhi,
    coneDirection_dot_axis unit halfAngle uTheta uPhi⟩

variable {halfAngle uPhi}

/-- With shares of a half angle no direction leaves the cone. -/
theorem cos_le_coneDirection (nonneg : 0 ≤ halfAngle) (most : halfAngle ≤ π)
    (share : uPhi ∈ Set.Ico (0 : ℝ) 1) :
    cos halfAngle ≤ (coneDirection axis halfAngle uTheta uPhi).dot axis.normalize := by
  rw [(coneDirection_around apart halfAngle uTheta uPhi).2]
  apply cos_le_cos_of_within _ most
  rw [abs_of_nonneg (mul_nonneg nonneg share.1)]
  exact mul_le_of_le_one_right nonneg share.2.le

end Cone

theorem Vec3.ne_zero_of_not_nearZero {v : Vec3 ℝ} (far : v.nearZero = false) : v ≠ .zero := by
  rintro rfl
  have long := dot_self_pos_of_not_nearZero far
  simp [dot, zero, splat] at long

namespace Spawn.Cone

variable {m : Cone ℝ}

theorem launches (far : m.direction.nearZero = false) (context : SpawnContext ℝ)
    (newborn : Newborn ℝ) :
    Spawning.Launches (m.execute context) m.strength context.clock 2 newborn
      (m.spread newborn.stream.peek newborn.stream.advance.peek) := by
  apply Spawning.Launches.of_sample
  simp only [execute, far]
  rfl

private theorem spread_within (far : m.direction.nearZero = false) (uTheta : ℝ) {uPhi : ℝ}
    (share : uPhi ∈ Set.Ico (0 : ℝ) 1) (rate : ℝ) : (m.spread uTheta uPhi * rate).length = |rate| ∧
      (0 ≤ rate → 0 ≤ m.aperture → m.aperture ≤ 360 →
        rate * cos (Scalar.radians m.aperture / 2) ≤
          (m.spread uTheta uPhi * rate).dot m.direction.normalize) := by
  have apart := Vec3.ne_zero_of_not_nearZero far
  refine ⟨Vec3.length_scale_of_unit (coneDirection_around apart _ uTheta uPhi).1 rate,
    fun forward nonneg most => ?_⟩
  obtain ⟨start, turn⟩ := half_radians_mem nonneg most
  rw [Vec3.dot_scale]
  exact mul_le_mul_of_nonneg_left (cos_le_coneDirection apart uTheta start turn share) forward

end Spawn.Cone

/-- The half angle of a jitter of at most one is at most a right angle. -/
theorem Collision.jitteredNormal_within {normal : Vec3 ℝ} (unit : normal.dot normal = 1)
    {jitter : ℝ} (nonneg : 0 ≤ jitter) (most : jitter ≤ 1) (uTheta : ℝ) {uPhi : ℝ}
    (share : uPhi ∈ Set.Ico (0 : ℝ) 1) :
    cos (π * jitter / 2) ≤ (jitteredNormal normal jitter uTheta uPhi).dot normal := by
  have apart : normal ≠ .zero := Vec3.ne_zero_of_not_nearZero (Vec3.nearZero_of_unit unit)
  have within : cos (π * jitter / 2) ≤ _ :=
    cos_le_coneDirection apart uTheta (by positivity) (by nlinarith [pi_pos]) share
  rwa [Vec3.normalize_of_unit unit, ← jitteredNormal_of_unit unit] at within

/-- Whatever is drawn from a cone is drawn around the right axis: the basis that looks along a
vector is a rotation, the direction at a share of the half angle is a unit vector at just that angle
from the axis, particles from a cone stay within its aperture, and so do jittered normals. -/
theorem cones_exact :
    (∀ forward : Vec3 ℝ, forward ≠ .zero → (Basis.lookAt forward).Orthonormal ∧
      (Basis.lookAt forward).z.dot ((Basis.lookAt forward).x.cross (Basis.lookAt forward).y) = 1 ∧
      (Basis.lookAt forward).y = forward.normalize) ∧
    (∀ axis : Vec3 ℝ, axis ≠ .zero → ∀ halfAngle uTheta uPhi,
      (coneDirection axis halfAngle uTheta uPhi).dot (coneDirection axis halfAngle uTheta uPhi) =
        1 ∧
      (coneDirection axis halfAngle uTheta uPhi).dot axis.normalize = cos (halfAngle * uPhi)) ∧
    (∀ m : Spawn.Cone ℝ, m.direction.nearZero = false → ∀ context newborn,
      let toward := m.spread newborn.stream.peek newborn.stream.advance.peek
      Spawning.Launches (m.execute context) m.strength context.clock 2 newborn toward ∧
      ∀ rate : ℝ, (toward * rate).length = |rate| ∧
        (0 ≤ rate → 0 ≤ m.aperture → m.aperture ≤ 360 →
          rate * cos (Scalar.radians m.aperture / 2) ≤ (toward * rate).dot m.direction.normalize)) ∧
    ∀ normal : Vec3 ℝ, normal.dot normal = 1 → ∀ jitter, 0 ≤ jitter → jitter ≤ 1 →
      ∀ uTheta, ∀ uPhi ∈ Set.Ico (0 : ℝ) 1,
        cos (π * jitter / 2) ≤ (Collision.jitteredNormal normal jitter uTheta uPhi).dot normal := by
  refine ⟨fun forward apart => Basis.lookAt_rotation apart, fun axis apart =>
    coneDirection_around apart,
    fun m far context newborn => ⟨Spawn.Cone.launches far context newborn, fun rate => ?_⟩,
    fun normal unit jitter nonneg most uTheta uPhi share =>
      Collision.jitteredNormal_within unit nonneg most uTheta share⟩
  exact Spawn.Cone.spread_within far _ (Collision.peek_mem _) rate

/-- A long axis along the third one, where up is switched, and the default cone there. -/
theorem cones_exact_upright : (Basis.lookAt (⟨0, 0, 2⟩ : Vec3 ℝ)).Orthonormal ∧
    (coneDirection (⟨0, 0, 2⟩ : Vec3 ℝ) π 0 (1 / 3)).dot (Vec3.normalize ⟨0, 0, 2⟩) = 1 / 2 ∧
    ((Spawn.Cone.default : Spawn.Cone ℝ).spread (RandomStream.ofSeed 7).peek
      (RandomStream.ofSeed 7).advance.peek * (-3 : ℝ)).length = 3 ∧
    cos (π * 1 / 2) ≤ (Collision.jitteredNormal .unitZ 1 (1 / 2) (1 / 2) : Vec3 ℝ).dot .unitZ := by
  have unit : (Vec3.unitZ : Vec3 ℝ).dot .unitZ = 1 := by simp [Vec3.dot, Vec3.unitZ]
  have apart : (⟨0, 0, 2⟩ : Vec3 ℝ) ≠ .zero := by
    intro same
    have height := congrArg Vec3.z same
    simp [Vec3.zero, Vec3.splat] at height
  obtain ⟨rotation, angle, launch, jittered⟩ := cones_exact
  refine ⟨(rotation _ apart).1, ?_, ?_, jittered .unitZ unit 1 zero_le_one le_rfl _ _ (by norm_num)⟩
  · rw [(angle _ apart π 0 (1 / 3)).2, mul_one_div, cos_pi_div_three]
  · have far : (Spawn.Cone.default : Spawn.Cone ℝ).direction.nearZero = false :=
      Vec3.nearZero_of_unit unit
    have fast :=
      (launch .default far ⟨⟨0, 0⟩, .unitX, false, .identity⟩ ⟨.default, .ofSeed 7⟩).2 (-3)
    rw [fast.1]
    norm_num

end ParticleSystem
