import ParticleSystem.Proofs.Geometry.Vector

namespace ParticleSystem

variable {K : Type} [Field K] [LinearOrder K] [FloorRing K] [Elementary K]

namespace Basis

theorem apply_identity (v : Vec3 K) : identity.apply v = v := by
  simp only [identity, apply, Vec3.unitX, Vec3.unitY, Vec3.unitZ, Scalar.ofNat_eq_zero,
    Scalar.ofNat_eq_one]
  ext <;> simp

theorem inverse_identity : (identity : Basis K).inverse = identity := by
  simp only [inverse, identity, Vec3.unitX, Vec3.unitY, Vec3.unitZ, Vec3.cross, Vec3.dot,
    Scalar.recip, Scalar.ofNat_eq_zero, Scalar.ofNat_eq_one]
  simp

end Basis

namespace Affine

theorem applyVector_ofTranslation (origin v : Vec3 K) : (ofTranslation origin).applyVector v = v :=
  Basis.apply_identity v

theorem applyPoint_ofTranslation (origin point : Vec3 K) :
    (ofTranslation origin).applyPoint point = point + origin := by
  rw [applyPoint, ofTranslation, Basis.apply_identity]

theorem inverse_ofTranslation (origin : Vec3 K) :
    (ofTranslation origin).inverse = ofTranslation (-origin) := by
  simp only [inverse, ofTranslation, Basis.inverse_identity, Basis.apply_identity]

end Affine

namespace Plane

def relativeTo {α : Type} [Scalar α] (plane : Plane α) (origin : Vec3 α) : Plane α :=
  { plane with position := plane.position - origin }

theorem transformed_ofTranslation (plane : Plane K) (origin : Vec3 K) :
    plane.transformed (Affine.ofTranslation origin).inverse =
      (plane.relativeTo origin).normalized := by
  have moved : plane.position + -origin = plane.position - origin := by
    ext <;> simp <;> ring
  rw [transformed, Affine.inverse_ofTranslation, Affine.applyVector_ofTranslation,
    Affine.applyPoint_ofTranslation, moved, relativeTo]

end Plane

end ParticleSystem
