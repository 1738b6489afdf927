import ParticleSystem.Proofs.Geometry.Vector

namespace ParticleSystem

variable {K : Type} [Field K] [LinearOrder K] [FloorRing K] [Elementary K]

namespace Vec3

theorem neg_dot (v w : Vec3 K) : (-v).dot w = -v.dot w := by
  rw [dot_comm, dot_neg, dot_comm]

theorem neg_dot_neg (v w : Vec3 K) : (-v).dot (-w) = v.dot w := by
  rw [neg_dot, dot_neg, neg_neg]

theorem neg_scale (v : Vec3 K) (a : K) : -v * a = -(v * a) := by
  ext <;> simp

theorem neg_scale_neg (v : Vec3 K) (a : K) : -v * -a = v * a := by
  ext <;> simp

theorem normalize_neg (v : Vec3 K) : (-v).normalize = -v.normalize := by
  rw [normalize, length, neg_dot_neg, neg_scale]
  rfl

theorem reflect_neg (v n : Vec3 K) : v.reflect (-n) = v.reflect n := by
  rw [reflect, dot_neg, mul_neg, neg_scale_neg]
  rfl

theorem nearZero_neg (v : Vec3 K) : (-v).nearZero = v.nearZero := by
  rw [Bool.eq_iff_iff, nearZero_iff, nearZero_iff, neg_x, neg_y, neg_z, abs_neg, abs_neg, abs_neg]

end Vec3

theorem Affine.applyVector_neg (map : Affine K) (v : Vec3 K) :
    map.applyVector (-v) = -map.applyVector v := by
  simp only [applyVector, Basis.apply]
  ext <;> simp <;> ring

namespace Plane

def reversed {α : Type} [Scalar α] (plane : Plane α) : Plane α :=
  { plane with normal := -plane.normal }

theorem signedDistance_reversed (plane : Plane K) (point : Vec3 K) :
    plane.reversed.signedDistance point = -plane.signedDistance point :=
  Vec3.neg_dot ..

theorem normalized_reversed (plane : Plane K) :
    plane.reversed.normalized = plane.normalized.map reversed := by
  simp only [normalized, reversed, Vec3.nearZero_neg, Vec3.normalize_neg]
  split <;> rfl

theorem transformed_reversed (plane : Plane K) (map : Affine K) :
    plane.reversed.transformed map = (plane.transformed map).map reversed := by
  rw [transformed, transformed, ← normalized_reversed, reversed, reversed, Affine.applyVector_neg]

end Plane

end ParticleSystem
