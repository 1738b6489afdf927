import ParticleSystem.Proofs.Geometry.Cone

/-!
Images of planes under affine maps, over the reals. A plane is transformed by mapping its normal
like any other vector. The points of the plane lie on the result exactly when the map treats the
normal as a similarity would: planes that are turned, moved and scaled evenly come out right, and
one that is sheared along its normal does not.
-/

namespace ParticleSystem

theorem Vec3.add_sub_cancel_left {K : Type} [Field K] [LinearOrder K] [FloorRing K] [Elementary K]
    (u v : Vec3 K) : u + v - u = v := by
  ext <;> simp

namespace Affine

variable {K : Type} [Field K] [LinearOrder K] [FloorRing K] [Elementary K] (map : Affine K)

theorem applyPoint_sub (point origin : Vec3 K) :
    map.applyPoint point - map.applyPoint origin = map.applyVector (point - origin) := by
  simp only [applyPoint, applyVector, Basis.apply]
  ext <;> simp only [Vec3.add_x, Vec3.add_y, Vec3.add_z, Vec3.sub_x, Vec3.sub_y, Vec3.sub_z,
    Vec3.scale_x, Vec3.scale_y, Vec3.scale_z] <;> ring

private theorem applyVector_sub_scale (v w : Vec3 K) (a : K) :
    map.applyVector (v - w * a) = map.applyVector v - map.applyVector w * a := by
  simp only [applyVector, Basis.apply]
  ext <;> simp only [Vec3.add_x, Vec3.add_y, Vec3.add_z, Vec3.sub_x, Vec3.sub_y, Vec3.sub_z,
    Vec3.scale_x, Vec3.scale_y, Vec3.scale_z] <;> ring

end Affine

namespace Plane

variable {plane moved : Plane ℝ} {map : Affine ℝ}

theorem transformed_of_regular (regular : (map.applyVector plane.normal).nearZero = false) :
    plane.transformed map = some ⟨(map.applyVector plane.normal).normalize,
      map.applyPoint plane.position⟩ := by
  simp [transformed, normalized, regular]

/-- The image of the normal of a plane that is transformed is not zero, and tells how far in front
of the result the image of a point lies, in units of its length. -/
theorem signedDistance_transformed (done : plane.transformed map = some moved) :
    0 < (map.applyVector plane.normal).dot (map.applyVector plane.normal) ∧
      ∃ unit : ℝ, 0 < unit ∧ ∀ point, moved.signedDistance (map.applyPoint point) =
        unit * (map.applyVector plane.normal).dot (map.applyVector (point - plane.position)) := by
  unfold transformed normalized at done
  split at done
  · cases done
  · rename_i far
    cases done
    have positive := Vec3.dot_self_pos_of_not_nearZero (Bool.eq_false_iff.mpr far)
    have long : 0 < (map.applyVector plane.normal).length := Real.sqrt_pos.mpr positive
    refine ⟨positive, 1 / (map.applyVector plane.normal).length, one_div_pos.mpr long,
      fun point => ?_⟩
    rw [signedDistance, Affine.applyPoint_sub, Vec3.normalize, Vec3.dot_scale, Scalar.recip,
      Scalar.ofNat_eq_one]

private theorem normal_pos_of_transformed (done : plane.transformed map = some moved) :
    0 < plane.normal.dot plane.normal := by
  obtain ⟨positive, -⟩ := signedDistance_transformed done
  apply lt_of_le_of_ne (Vec3.dot_self_nonneg _)
  intro zero
  obtain ⟨x, y, z⟩ := Vec3.components_of_dot_self zero.symm
  have blank : (map.applyVector plane.normal).dot (map.applyVector plane.normal) = 0 := by
    simp [Affine.applyVector, Basis.apply, Vec3.dot, x, y, z]
  exact positive.ne' blank

/-- The points of a plane are mapped to points of the transformed plane exactly when the images of
the normal and of any vector agree as the vectors themselves do, up to a factor. -/
theorem transformed_keeps_points_iff (done : plane.transformed map = some moved) :
    (∀ point, plane.signedDistance point = 0 → moved.signedDistance (map.applyPoint point) = 0) ↔
      ∃ factor, ∀ v, (map.applyVector plane.normal).dot (map.applyVector v) =
        factor * plane.normal.dot v := by
  obtain ⟨-, unit, positive, distances⟩ := signedDistance_transformed done
  have long := normal_pos_of_transformed done
  constructor
  · intro keeps
    refine ⟨(map.applyVector plane.normal).dot (map.applyVector plane.normal) /
      plane.normal.dot plane.normal,
      fun v => ?_⟩
    -- without its part along the normal, the vector leads from the
    -- plane's position to a point of the plane
    let share := v.dot plane.normal / plane.normal.dot plane.normal
    have level : (v - plane.normal * share).dot plane.normal = 0 := by
      rw [Vec3.dot_sub_scale, div_mul_cancel₀ _ long.ne', sub_self]
    have inside : plane.signedDistance (plane.position + (v - plane.normal * share)) = 0 := by
      rw [signedDistance, Vec3.add_sub_cancel_left, Vec3.dot_comm, level]
    have image := keeps _ inside
    rw [distances, Vec3.add_sub_cancel_left, mul_eq_zero, or_iff_right positive.ne', Vec3.dot_comm,
      Affine.applyVector_sub_scale, Vec3.dot_sub_scale, sub_eq_zero] at image
    rw [Vec3.dot_comm, image, Vec3.dot_comm plane.normal v]
    ring
  · rintro ⟨factor, similar⟩ point inside
    rw [distances, similar]
    have flat : plane.normal.dot (point - plane.position) = 0 := inside
    rw [flat, mul_zero, mul_zero]

/-- A quarter turn that doubles all lengths, and a move. -/
theorem transformed_keeps_points_iff_turned :
    let plane : Plane ℝ := ⟨⟨0, 3, 4⟩, ⟨1, 1, 1⟩⟩
    let map : Affine ℝ := ⟨⟨⟨0, 2, 0⟩, ⟨-2, 0, 0⟩, ⟨0, 0, 2⟩⟩, ⟨1, 2, 3⟩⟩
    ∃ moved, plane.transformed map = some moved ∧
      ∀ point, plane.signedDistance point = 0 →
        moved.signedDistance (map.applyPoint point) = 0 := by
  intro plane map
  have normal : map.applyVector plane.normal = ⟨-6, 0, 8⟩ := by
    ext <;> simp [map, plane, Affine.applyVector, Basis.apply] <;> norm_num
  have regular : (map.applyVector plane.normal).nearZero = false := by
    rw [Bool.eq_false_iff, ne_eq, Vec3.nearZero_iff, normal]
    norm_num
  have done := transformed_of_regular regular
  refine ⟨_, done, (transformed_keeps_points_iff done).mpr ⟨4, fun v => ?_⟩⟩
  simp [plane, map, Affine.applyVector, Basis.apply, Vec3.dot]
  ring

/-- A shear, which another one undoes, moves a point of a plane off the transformed plane. -/
theorem transformed_sheared_misses_point :
    let plane : Plane ℝ := ⟨⟨0, 1, 0⟩, ⟨0, 0, 0⟩⟩
    let shear (amount : ℝ) : Affine ℝ := ⟨⟨⟨1, 0, 0⟩, ⟨amount, 1, 0⟩, ⟨0, 0, 1⟩⟩, ⟨0, 0, 0⟩⟩
    let point : Vec3 ℝ := ⟨1, 0, 0⟩
    plane.normal.nearZero = false ∧ (∀ p, (shear (-1)).applyPoint ((shear 1).applyPoint p) = p) ∧
      (∀ p, (shear 1).applyPoint ((shear (-1)).applyPoint p) = p) ∧ plane.signedDistance point = 0 ∧
      ∃ moved, plane.transformed (shear 1) = some moved ∧
        moved.signedDistance ((shear 1).applyPoint point) ≠ 0 := by
  intro plane shear point
  have normal : (shear 1).applyVector plane.normal = ⟨1, 1, 0⟩ := by
    ext <;> simp [shear, plane, Affine.applyVector, Basis.apply]
  have regular : ((shear 1).applyVector plane.normal).nearZero = false := by
    rw [Bool.eq_false_iff, ne_eq, Vec3.nearZero_iff, normal]
    norm_num
  have done := transformed_of_regular regular
  refine ⟨?_, fun p => ?_, fun p => ?_, ?_, _, done, ?_⟩
  · rw [Bool.eq_false_iff, ne_eq, Vec3.nearZero_iff]
    norm_num [plane]
  · ext <;> simp [shear, Affine.applyPoint, Basis.apply]
  · ext <;> simp [shear, Affine.applyPoint, Basis.apply]
  · simp [plane, point, signedDistance, Vec3.dot]
  · obtain ⟨-, unit, positive, distances⟩ := signedDistance_transformed done
    rw [distances, normal]
    simp [plane, shear, point, Affine.applyVector, Basis.apply, Vec3.dot, positive.ne']

end Plane

end ParticleSystem
