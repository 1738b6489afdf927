import ParticleSystem.Collision.Plane
import ParticleSystem.Proofs.Scalar.Exact

namespace ParticleSystem

deriving instance ReflBEq, LawfulBEq for Vec3

attribute [ext] Vec3

namespace Vec3

section Components

variable {α : Type} [Scalar α]

@[simp] theorem add_x (v w : Vec3 α) : (v + w).x = v.x + w.x := rfl
@[simp] theorem add_y (v w : Vec3 α) : (v + w).y = v.y + w.y := rfl
@[simp] theorem add_z (v w : Vec3 α) : (v + w).z = v.z + w.z := rfl
@[simp] theorem sub_x (v w : Vec3 α) : (v - w).x = v.x - w.x := rfl
@[simp] theorem sub_y (v w : Vec3 α) : (v - w).y = v.y - w.y := rfl
@[simp] theorem sub_z (v w : Vec3 α) : (v - w).z = v.z - w.z := rfl
@[simp] theorem scale_x (v : Vec3 α) (a : α) : (v * a).x = v.x * a := rfl
@[simp] theorem scale_y (v : Vec3 α) (a : α) : (v * a).y = v.y * a := rfl
@[simp] theorem scale_z (v : Vec3 α) (a : α) : (v * a).z = v.z * a := rfl
@[simp] theorem neg_x (v : Vec3 α) : (-v).x = -v.x := rfl
@[simp] theorem neg_y (v : Vec3 α) : (-v).y = -v.y := rfl
@[simp] theorem neg_z (v : Vec3 α) : (-v).z = -v.z := rfl

end Components

section Field

variable {K : Type} [Field K] [LinearOrder K] [FloorRing K] [Elementary K]

theorem dot_comm (v w : Vec3 K) : v.dot w = w.dot v := by
  simp only [dot]
  ring

theorem dot_sub_scale (v w u : Vec3 K) (a : K) : (v - w * a).dot u = v.dot u - a * w.dot u := by
  simp only [dot, sub_x, sub_y, sub_z, scale_x, scale_y, scale_z]
  ring

theorem dot_scale (v w : Vec3 K) (a : K) : (v * a).dot w = a * v.dot w := by
  simp only [dot, scale_x, scale_y, scale_z]
  ring

theorem dot_neg (v w : Vec3 K) : v.dot (-w) = -v.dot w := by
  simp only [dot, neg_x, neg_y, neg_z]
  ring

theorem scale_one (v : Vec3 K) : v * (1 : K) = v := by
  change scale v 1 = v
  simp only [scale, mul_one]

theorem add_left_cancel {u v w : Vec3 K} (same : u + v = u + w) : v = w := by
  obtain ⟨x, y, z⟩ := Vec3.ext_iff.mp same
  exact Vec3.ext (add_right_injective _ x) (add_right_injective _ y) (add_right_injective _ z)

/-- Mirrored in a plane, a vector points away from any other one
by twice as much as the normals agree. -/
theorem dot_reflect (v n w : Vec3 K) : (v.reflect n).dot w = v.dot w - 2 * v.dot n * n.dot w := by
  rw [reflect, dot_sub_scale, Scalar.ofNat_eq_ofNat]

theorem dot_reflect_self (v : Vec3 K) {n : Vec3 K} (unit : n.dot n = 1) :
    (v.reflect n).dot n = -v.dot n := by
  rw [dot_reflect, unit]
  ring

theorem lengthSquared_reflect (v : Vec3 K) {n : Vec3 K} (unit : n.dot n = 1) :
    (v.reflect n).lengthSquared = v.lengthSquared := by
  have mirrored : (v.reflect n).lengthSquared =
      v.lengthSquared - 4 * v.dot n ^ 2 * (1 - n.dot n) := by
    simp only [lengthSquared, reflect, dot, sub_x, sub_y, sub_z, scale_x, scale_y, scale_z,
      Scalar.ofNat_eq_ofNat]
    ring
  rw [mirrored, unit, sub_self, mul_zero, sub_zero]

theorem nearZero_iff (v : Vec3 K) :
    v.nearZero = true ↔ |v.x| ≤ 1 / 10 ^ 6 ∧ |v.y| ≤ 1 / 10 ^ 6 ∧ |v.z| ≤ 1 / 10 ^ 6 := by
  rw [nearZero, decide_eq_true_iff, maxElement, Scalar.larger_eq_max, Scalar.larger_eq_max,
    Scalar.vectorEpsilon_eq]
  exact max_le_iff.trans (and_congr_right' max_le_iff)

variable {n : Vec3 K}

theorem length_of_unit (unit : n.dot n = 1) : n.length = 1 := by
  rw [length, unit, Scalar.sqrt_one]

theorem normalize_of_unit (unit : n.dot n = 1) : n.normalize = n := by
  rw [normalize, length_of_unit unit, Scalar.recip, Scalar.ofNat_eq_one, div_one, scale_one]

theorem normalizeOr_of_unit (unit : n.dot n = 1) (fallback : Vec3 K) :
    n.normalizeOr fallback = n := by
  simp only [normalizeOr, length_of_unit unit, Scalar.recip, Scalar.ofNat_eq_zero,
    Scalar.ofNat_eq_one, div_one, scale_one]
  exact if_pos ⟨rfl, zero_lt_one⟩

variable [IsStrictOrderedRing K]

theorem nearZero_of_unit (unit : n.dot n = 1) : n.nearZero = false := by
  rw [Bool.eq_false_iff, ne_eq, nearZero_iff]
  rintro ⟨x, y, z⟩
  have square {a : K} (small : |a| ≤ 1 / 10 ^ 6) : a * a ≤ 1 / 10 ^ 6 * (1 / 10 ^ 6) := by
    rw [← abs_mul_abs_self a]
    exact mul_self_le_mul_self (abs_nonneg a) small
  have short : n.dot n ≤ 1 / 10 ^ 6 * (1 / 10 ^ 6) + 1 / 10 ^ 6 * (1 / 10 ^ 6) +
      1 / 10 ^ 6 * (1 / 10 ^ 6) :=
    add_le_add (add_le_add (square x) (square y)) (square z)
  rw [unit] at short
  norm_num at short

end Field

end Vec3

namespace Plane

variable {K : Type} [Field K] [LinearOrder K] [FloorRing K] [Elementary K]

theorem signedDistance_move (plane : Plane K) (point velocity : Vec3 K) (time : K) :
    plane.signedDistance (point + velocity * time) =
      plane.signedDistance point + velocity.dot plane.normal * time := by
  simp only [signedDistance, Vec3.dot, Vec3.add_x, Vec3.add_y, Vec3.add_z, Vec3.sub_x,
    Vec3.sub_y, Vec3.sub_z, Vec3.scale_x, Vec3.scale_y, Vec3.scale_z]
  ring

theorem signedDistance_shift (plane : Plane K) (unit : plane.normal.dot plane.normal = 1)
    (point : Vec3 K) (depth : K) :
    plane.signedDistance (point - plane.normal * depth) = plane.signedDistance point - depth := by
  have shifted : plane.signedDistance (point - plane.normal * depth) =
      plane.signedDistance point - depth * plane.normal.dot plane.normal := by
    simp only [signedDistance, Vec3.dot, Vec3.sub_x, Vec3.sub_y, Vec3.sub_z, Vec3.scale_x,
      Vec3.scale_y, Vec3.scale_z]
    ring
  rw [shifted, unit, mul_one]

variable [IsStrictOrderedRing K]

theorem normalized_of_unit {plane : Plane K} (unit : plane.normal.dot plane.normal = 1) :
    plane.normalized = some plane := by
  rw [normalized, Vec3.nearZero_of_unit unit, Vec3.normalize_of_unit unit]
  rfl

end Plane

end ParticleSystem
