import ParticleSystem.Proofs.Geometry.Cone

namespace ParticleSystem

theorem Scalar.half_eq {K : Type} [Field K] [LinearOrder K] [FloorRing K] [Elementary K] :
    @OfScientific.ofScientific K Scalar.instOfScientific 5 true 1 = 1 / 2 := by
  change ((5 : Nat) : K) / 10 ^ 1 = 1 / 2
  norm_num

namespace Quaternion

section Field

variable {K : Type} [Field K] [LinearOrder K] [FloorRing K] [Elementary K]

/-- A quaternion scales the product of two vectors by the square of its own length. -/
theorem rotate_dot_rotate (q : Quaternion K) (v w : Vec3 K) : (q.rotate v).dot (q.rotate w) =
    (q.scalar * q.scalar + q.vector.dot q.vector) ^ 2 * v.dot w := by
  simp only [rotate, Vec3.dot, Vec3.cross, Vec3.add_x, Vec3.add_y, Vec3.add_z, Vec3.scale_x,
    Vec3.scale_y, Vec3.scale_z, Scalar.ofNat_eq_ofNat]
  ring

theorem rotate_axis (axis : Vec3 K) (a b : K) :
    rotate ⟨axis * a, b⟩ axis = axis * (b * b + a * a * axis.dot axis) := by
  ext <;> simp only [rotate, Vec3.dot, Vec3.cross, Vec3.add_x, Vec3.add_y, Vec3.add_z, Vec3.scale_x,
    Vec3.scale_y, Vec3.scale_z, Scalar.ofNat_eq_ofNat] <;> ring

theorem rotate_across {axis v : Vec3 K} (unit : axis.dot axis = 1) (across : v.dot axis = 0)
    (a b : K) : rotate ⟨axis * a, b⟩ v = v * (b * b - a * a) + axis.cross v * (2 * (a * b)) := by
  have square : (axis * a).dot (axis * a) = a * a := by
    rw [Vec3.dot_scale, Vec3.dot_comm, Vec3.dot_scale, unit]
    ring
  have none : v.dot (axis * a) = 0 := by
    rw [Vec3.dot_comm, Vec3.dot_scale, Vec3.dot_comm, across, mul_zero]
  simp only [rotate, square, none]
  ext <;> simp only [Vec3.cross, Vec3.add_x, Vec3.add_y, Vec3.add_z, Vec3.scale_x, Vec3.scale_y,
    Vec3.scale_z, Scalar.ofNat_eq_ofNat] <;> ring

end Field

section Angle

open Real

variable {axis : Vec3 ℝ} (unit : axis.dot axis = 1) (angle : ℝ)

theorem ofAxisAngle_eq (axis : Vec3 ℝ) (angle : ℝ) :
    ofAxisAngle axis angle = ⟨axis * sin (angle / 2), cos (angle / 2)⟩ := by
  rw [ofAxisAngle, Scalar.half_eq, mul_one_div]
  rfl

include unit

theorem ofAxisAngle_dot (v w : Vec3 ℝ) :
    ((ofAxisAngle axis angle).rotate v).dot ((ofAxisAngle axis angle).rotate w) = v.dot w := by
  have length := sin_sq_add_cos_sq (angle / 2)
  rw [rotate_dot_rotate, ofAxisAngle_eq, Vec3.dot_scale, Vec3.dot_comm, Vec3.dot_scale, unit]
  have whole : cos (angle / 2) * cos (angle / 2) + sin (angle / 2) * (sin (angle / 2) * 1) = 1 := by
    linear_combination length
  rw [whole, one_pow, one_mul]

private theorem ofAxisAngle_axis : (ofAxisAngle axis angle).rotate axis = axis := by
  have length := cos_sq_add_sin_sq (angle / 2)
  rw [ofAxisAngle_eq, rotate_axis, unit, mul_one, ← pow_two, ← pow_two, length]
  exact Vec3.scale_one axis

theorem ofAxisAngle_dot_axis (v : Vec3 ℝ) :
    ((ofAxisAngle axis angle).rotate v).dot axis = v.dot axis := by
  have kept := ofAxisAngle_dot unit angle v axis
  rwa [ofAxisAngle_axis unit] at kept

/-- A rotation turns what lies across its axis by its angle. -/
theorem ofAxisAngle_across {v : Vec3 ℝ} (across : v.dot axis = 0) :
    (ofAxisAngle axis angle).rotate v = v * cos angle + axis.cross v * sin angle := by
  have twice : 2 * (angle / 2) = angle := by ring
  have cosine : cos (angle / 2) * cos (angle / 2) - sin (angle / 2) * sin (angle / 2) =
      cos angle := by
    rw [← cos_add, add_halves]
  have sine : 2 * (sin (angle / 2) * cos (angle / 2)) = sin angle := by
    rw [← mul_assoc, ← sin_two_mul, twice]
  rw [ofAxisAngle_eq, rotate_across unit across, cosine, sine]

end Angle

end Quaternion

end ParticleSystem
