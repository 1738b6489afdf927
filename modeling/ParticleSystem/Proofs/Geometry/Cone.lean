import ParticleSystem.Geometry.Direction
import ParticleSystem.Proofs.Geometry.Vector

namespace ParticleSystem

namespace Vec3

variable {K : Type} [Field K] [LinearOrder K] [FloorRing K] [Elementary K]

theorem cross_dot_left (v w : Vec3 K) : (v.cross w).dot v = 0 := by
  simp only [cross, dot]
  ring

theorem cross_dot_right (v w : Vec3 K) : (v.cross w).dot w = 0 := by
  simp only [cross, dot]
  ring

theorem dot_cross_sq (u v w : Vec3 K) : u.dot (v.cross w) ^ 2 =
    u.dot u * (v.dot v * w.dot w - v.dot w ^ 2) -
      u.dot v * (u.dot v * w.dot w - v.dot w * u.dot w) +
      u.dot w * (u.dot v * v.dot w - v.dot v * u.dot w) := by
  simp only [cross, dot]
  ring

theorem cross_dot_self (v w : Vec3 K) :
    (v.cross w).dot (v.cross w) = v.dot v * w.dot w - v.dot w ^ 2 := by
  simp only [cross, dot]
  ring

end Vec3

namespace Basis

variable {K : Type} [Field K] [LinearOrder K] [FloorRing K] [Elementary K]

/-- Three unit vectors at right angles, the third along the cross product of the others. -/
structure Orthonormal (b : Basis K) : Prop where
  x_unit : b.x.dot b.x = 1
  y_unit : b.y.dot b.y = 1
  x_dot_y : b.x.dot b.y = 0
  z_eq : b.z = b.x.cross b.y

variable {b : Basis K}

theorem Orthonormal.z_unit (orthonormal : b.Orthonormal) : b.z.dot b.z = 1 := by
  rw [orthonormal.z_eq, Vec3.cross_dot_self, orthonormal.x_unit, orthonormal.y_unit,
    orthonormal.x_dot_y]
  ring

private theorem dot_apply (b : Basis K) (v w : Vec3 K) :
    v.dot (b.apply w) = v.dot b.x * w.x + v.dot b.y * w.y + v.dot b.z * w.z := by
  simp only [apply, Vec3.dot, Vec3.add_x, Vec3.add_y, Vec3.add_z, Vec3.scale_x, Vec3.scale_y,
    Vec3.scale_z]
  ring

theorem Orthonormal.z_dot_x (orthonormal : b.Orthonormal) : b.z.dot b.x = 0 := by
  rw [orthonormal.z_eq, Vec3.cross_dot_left]

theorem Orthonormal.z_dot_y (orthonormal : b.Orthonormal) : b.z.dot b.y = 0 := by
  rw [orthonormal.z_eq, Vec3.cross_dot_right]

theorem Orthonormal.apply_dot_self (orthonormal : b.Orthonormal) (v : Vec3 K) :
    (b.apply v).dot (b.apply v) = v.dot v := by
  have gram : (b.apply v).dot (b.apply v) =
      v.x * v.x * b.x.dot b.x + v.y * v.y * b.y.dot b.y + v.z * v.z * b.z.dot b.z +
        2 * (v.x * v.y * b.x.dot b.y + v.x * v.z * b.z.dot b.x + v.y * v.z * b.z.dot b.y) := by
    simp only [apply, Vec3.dot, Vec3.add_x, Vec3.add_y, Vec3.add_z, Vec3.scale_x, Vec3.scale_y,
      Vec3.scale_z]
    ring
  rw [gram, orthonormal.x_unit, orthonormal.y_unit, orthonormal.z_unit, orthonormal.x_dot_y,
    orthonormal.z_dot_x, orthonormal.z_dot_y, Vec3.dot]
  ring

theorem Orthonormal.parseval (orthonormal : b.Orthonormal) (v : Vec3 K) :
    v.dot b.x ^ 2 + v.dot b.y ^ 2 + v.dot b.z ^ 2 = v.dot v := by
  rw [orthonormal.z_eq, Vec3.dot_cross_sq, orthonormal.x_unit, orthonormal.y_unit,
    orthonormal.x_dot_y]
  ring

end Basis

namespace Vec3

theorem dot_self_nonneg (v : Vec3 ℝ) : 0 ≤ v.dot v :=
  add_nonneg (add_nonneg (mul_self_nonneg _) (mul_self_nonneg _)) (mul_self_nonneg _)

theorem normalize_dot_self {v : Vec3 ℝ} (long : 0 < v.dot v) : v.normalize.dot v.normalize = 1 := by
  have root : v.length * v.length = v.dot v := Real.mul_self_sqrt long.le
  have nonzero : v.length ≠ 0 := by
    intro zero
    rw [zero, mul_zero] at root
    exact long.ne root
  rw [normalize, dot_scale, dot_comm, dot_scale, ← root, Scalar.recip, Scalar.ofNat_eq_one]
  field_simp

theorem components_of_dot_self {v : Vec3 ℝ} (zero : v.dot v = 0) : v.x = 0 ∧ v.y = 0 ∧ v.z = 0 := by
  have parts : v.x * v.x + v.y * v.y + v.z * v.z = 0 := zero
  refine ⟨?_, ?_, ?_⟩ <;> nlinarith [mul_self_nonneg v.x, mul_self_nonneg v.y, mul_self_nonneg v.z]

theorem dot_self_pos_of_not_nearZero {v : Vec3 ℝ} (far : v.nearZero = false) : 0 < v.dot v := by
  apply lt_of_le_of_ne v.dot_self_nonneg
  intro zero
  obtain ⟨x, y, z⟩ := components_of_dot_self zero.symm
  rw [Bool.eq_false_iff, ne_eq, nearZero_iff, x, y, z] at far
  norm_num at far

theorem beq_zero_of_unit {n : Vec3 ℝ} (unit : n.dot n = 1) : (n == Vec3.zero) = false := by
  rw [Bool.eq_false_iff]
  intro same
  rw [eq_of_beq same] at unit
  simp [dot, Vec3.zero, splat] at unit

end Vec3

theorem Plane.unit_of_normalized {plane facing : Plane ℝ} (done : plane.normalized = some facing) :
    facing.normal.dot facing.normal = 1 := by
  unfold normalized at done
  split at done
  · cases done
  · rename_i far
    cases done
    exact Vec3.normalize_dot_self (Vec3.dot_self_pos_of_not_nearZero (Bool.eq_false_iff.mpr far))

namespace Basis

/-- The axis that up starts from is never parallel to the one that the basis looks along. -/
theorem lookAt_of_unit {n : Vec3 ℝ} (unit : n.dot n = 1) :
    ∃ reference : Vec3 ℝ, 0 < (n.cross reference).dot (n.cross reference) ∧
      lookAt n = ⟨(n.cross reference).normalize, n,
        ((n.cross reference).normalize.cross n).normalize⟩ := by
  have height : n.dot .unitZ = n.z := by simp [Vec3.dot, Vec3.unitZ]
  have sum : n.x * n.x + n.y * n.y + n.z * n.z = 1 := unit
  simp only [lookAt, Vec3.normalizeOr_of_unit unit, Vec3.beq_zero_of_unit unit, height,
    Scalar.almostOne_eq, Bool.false_eq_true, if_false]
  split
  · rename_i parallel
    refine ⟨.unitY, ?_, rfl⟩
    have steep : 0 < n.z * n.z := by
      rw [← abs_mul_abs_self n.z]
      have bound : (999 / 10 ^ 3 : ℝ) < |n.z| := parallel
      nlinarith
    simp [Vec3.cross, Vec3.dot, Vec3.unitY]
    nlinarith [mul_self_nonneg n.x]
  · rename_i oblique
    refine ⟨.unitZ, ?_, rfl⟩
    have flat : n.z * n.z < 1 := by
      rw [← abs_mul_abs_self n.z]
      have bound : |n.z| ≤ (999 / 10 ^ 3 : ℝ) := not_lt.mp oblique
      nlinarith [abs_nonneg n.z]
    simp [Vec3.cross, Vec3.dot, Vec3.unitZ]
    linarith

theorem lookAt_orthonormal {n : Vec3 ℝ} (unit : n.dot n = 1) : (lookAt n).Orthonormal := by
  obtain ⟨reference, apart, basis⟩ := lookAt_of_unit unit
  have right : (n.cross reference).normalize.dot n = 0 := by
    rw [Vec3.normalize, Vec3.dot_scale, Vec3.cross_dot_left, mul_zero]
  have length := Vec3.normalize_dot_self apart
  have up : ((n.cross reference).normalize.cross n).dot ((n.cross reference).normalize.cross n) =
      1 := by
    rw [Vec3.cross_dot_self, length, unit, right]
    norm_num
  rw [basis]
  exact ⟨length, unit, right, Vec3.normalize_of_unit up⟩

theorem lookAt_y {n : Vec3 ℝ} (unit : n.dot n = 1) : (lookAt n).y = n := by
  obtain ⟨reference, apart, basis⟩ := lookAt_of_unit unit
  rw [basis]

end Basis

section Cone

variable {axis : Vec3 ℝ}

theorem coneDirection_eq (axis : Vec3 ℝ) (halfAngle uTheta uPhi : ℝ) :
    coneDirection axis halfAngle uTheta uPhi =
      (Basis.lookAt axis).apply
        ⟨Real.cos (2 * Real.pi * uTheta) * Real.sin (halfAngle * uPhi), Real.cos (halfAngle * uPhi),
          Real.sin (2 * Real.pi * uTheta) * Real.sin (halfAngle * uPhi)⟩ := rfl

/-- How far a vector points along a direction from the cone, by
its parts along the axis and across it. -/
theorem dot_coneDirection (unit : axis.dot axis = 1) (v : Vec3 ℝ) (halfAngle uTheta uPhi : ℝ) :
    v.dot (coneDirection axis halfAngle uTheta uPhi) =
      v.dot axis * Real.cos (halfAngle * uPhi) +
        (v.dot (Basis.lookAt axis).x * Real.cos (2 * Real.pi * uTheta) +
          v.dot (Basis.lookAt axis).z * Real.sin (2 * Real.pi * uTheta)) *
            Real.sin (halfAngle * uPhi) := by
  rw [coneDirection_eq, Basis.dot_apply, Basis.lookAt_y unit]
  ring

theorem coneDirection_dot_axis (unit : axis.dot axis = 1) (halfAngle uTheta uPhi : ℝ) :
    (coneDirection axis halfAngle uTheta uPhi).dot axis = Real.cos (halfAngle * uPhi) := by
  have frame := Basis.lookAt_orthonormal unit
  have right := frame.x_dot_y
  have up := frame.z_dot_y
  rw [Basis.lookAt_y unit, Vec3.dot_comm] at right up
  rw [Vec3.dot_comm, dot_coneDirection unit, unit, right, up]
  ring

theorem coneDirection_unit (unit : axis.dot axis = 1) (halfAngle uTheta uPhi : ℝ) :
    (coneDirection axis halfAngle uTheta uPhi).dot (coneDirection axis halfAngle uTheta uPhi) =
      1 := by
  have frame := Basis.lookAt_orthonormal unit
  rw [coneDirection_eq, frame.apply_dot_self]
  have azimuth := Real.sin_sq_add_cos_sq (2 * Real.pi * uTheta)
  have polar := Real.sin_sq_add_cos_sq (halfAngle * uPhi)
  simp only [Vec3.dot]
  linear_combination Real.sin (halfAngle * uPhi) ^ 2 * azimuth + polar

end Cone

end ParticleSystem
