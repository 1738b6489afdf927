import ParticleSystem.Proofs.Geometry.Vector

namespace ParticleSystem.Vec3

def triple : Vec3 ℝ ≃ ℝ × ℝ × ℝ where
  toFun v := (v.x, v.y, v.z)
  invFun q := ⟨q.1, q.2.1, q.2.2⟩
  left_inv _ := rfl
  right_inv _ := rfl

/-- The product with a vector as a linear function. -/
noncomputable def along (v : Vec3 ℝ) : ℝ × ℝ × ℝ →L[ℝ] ℝ :=
  v.x • .fst ℝ ℝ (ℝ × ℝ) +
    (v.y • (ContinuousLinearMap.fst ℝ ℝ ℝ).comp (.snd ℝ ℝ (ℝ × ℝ)) +
      v.z • (ContinuousLinearMap.snd ℝ ℝ ℝ).comp (.snd ℝ ℝ (ℝ × ℝ)))

/-- Whether a function can be differentiated at a point and has the given gradient there. -/
def HasGradient (f : Vec3 ℝ → ℝ) (slope point : Vec3 ℝ) : Prop :=
  HasFDerivAt (fun q => f (triple.symm q)) slope.along (triple point)

theorem along_apply (v : Vec3 ℝ) (q : ℝ × ℝ × ℝ) : v.along q = v.dot (triple.symm q) :=
  (add_assoc _ _ _).symm

theorem along_add (v w : Vec3 ℝ) : (v + w).along = v.along + w.along := by
  refine ContinuousLinearMap.ext fun q => ?_
  rw [add_apply, along_apply, along_apply, along_apply]
  simp only [dot, add_x, add_y, add_z]
  ring

theorem along_scale (v : Vec3 ℝ) (a : ℝ) : (v * a).along = a • v.along := by
  refine ContinuousLinearMap.ext fun q => ?_
  rw [smul_apply, along_apply, along_apply, dot_scale, smul_eq_mul]

variable {f g : Vec3 ℝ → ℝ} {v w point : Vec3 ℝ}

theorem HasGradient.add (left : HasGradient f v point) (right : HasGradient g w point) :
    HasGradient (fun q => f q + g q) (v + w) point := by
  rw [HasGradient, along_add]
  exact HasFDerivAt.add left right

theorem HasGradient.mul (left : HasGradient f v point) (right : HasGradient g w point) :
    HasGradient (fun q => f q * g q) (w * f point + v * g point) point := by
  rw [HasGradient, along_add, along_scale, along_scale]
  exact HasFDerivAt.mul left right

/-- The gradient of a function of a number that depends on the vector. -/
theorem HasGradient.comp {h : ℝ → ℝ} {slope : ℝ} (outer : HasDerivAt h slope (f point))
    (inner : HasGradient f v point) : HasGradient (fun q => h (f q)) (v * slope) point := by
  rw [HasGradient, along_scale]
  exact outer.comp_hasFDerivAt (triple point) inner

theorem hasGradient_dot_sub (v center point : Vec3 ℝ) :
    HasGradient (fun q => v.dot (q - center)) v point := by
  have affine (q : ℝ × ℝ × ℝ) : v.dot (triple.symm q - center) = v.along q - v.dot center := by
    rw [along_apply]
    simp only [dot, sub_x, sub_y, sub_z]
    ring
  simp only [HasGradient, affine]
  exact v.along.hasFDerivAt.sub_const _

theorem hasGradient_lengthSquared_sub (center point : Vec3 ℝ) :
    HasGradient (fun q => (q - center).lengthSquared) ((point - center) * (2 : ℝ)) point := by
  have square (axis : Vec3 ℝ) :=
    (hasGradient_dot_sub axis center point).mul (hasGradient_dot_sub axis center point)
  have sum := ((square .unitX).add (square .unitY)).add (square .unitZ)
  have x (v : Vec3 ℝ) : unitX.dot v = v.x := by simp [unitX, dot]
  have y (v : Vec3 ℝ) : unitY.dot v = v.y := by simp [unitY, dot]
  have z (v : Vec3 ℝ) : unitZ.dot v = v.z := by simp [unitZ, dot]
  simp only [x, y, z] at sum
  convert! sum using 1
  ext <;> simp [unitX, unitY, unitZ] <;> ring

end ParticleSystem.Vec3
