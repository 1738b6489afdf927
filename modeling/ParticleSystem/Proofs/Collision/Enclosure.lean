import ParticleSystem.Collision.Radius
import ParticleSystem.Proofs.Geometry.Rotation

namespace ParticleSystem

namespace Vec3

section Field

variable {K : Type} [Field K]

def midpoint (a b : Vec3 K) : Vec3 K :=
  ⟨(a.x + b.x) / (2 : Nat), (a.y + b.y) / (2 : Nat), (a.z + b.z) / (2 : Nat)⟩

/-- The corners of the box between two of them that lie opposite each other. -/
def corners (a b : Vec3 K) : Set (Vec3 K) :=
  {p | (p.x = a.x ∨ p.x = b.x) ∧ (p.y = a.y ∨ p.y = b.y) ∧ (p.z = a.z ∨ p.z = b.z)}

/-- The box between two opposite corners, in whichever order they lie along each axis. -/
def box [LinearOrder K] (a b : Vec3 K) : Set (Vec3 K) :=
  {p | p.x ∈ Set.uIcc a.x b.x ∧ p.y ∈ Set.uIcc a.y b.y ∧ p.z ∈ Set.uIcc a.z b.z}

/-- The square of the diagonal of the box. -/
def diagonalSq (a b : Vec3 K) : K := (a.x - b.x) ^ 2 + (a.y - b.y) ^ 2 + (a.z - b.z) ^ 2

end Field

theorem sub_mul_sub_nonpos {a b x : ℝ} (inside : x ∈ Set.uIcc a b) : (x - a) * (x - b) ≤ 0 := by
  rcases Set.mem_uIcc.mp inside with ⟨above, below⟩ | ⟨above, below⟩
  · exact mul_nonpos_of_nonneg_of_nonpos (sub_nonneg.mpr above) (sub_nonpos.mpr below)
  · exact mul_nonpos_of_nonpos_of_nonneg (sub_nonpos.mpr below) (sub_nonneg.mpr above)

theorem lengthSquared_sub_midpoint (a b p : Vec3 ℝ) :
    (p - midpoint a b).lengthSquared = diagonalSq a b / 4 +
    ((p.x - a.x) * (p.x - b.x) + (p.y - a.y) * (p.y - b.y) + (p.z - a.z) * (p.z - b.z)) := by
  simp only [lengthSquared, dot, sub_x, sub_y, sub_z, midpoint, diagonalSq, Nat.cast_ofNat]
  ring

private theorem length_sub_midpoint_le {a b p : Vec3 ℝ} (inside : p ∈ box a b) :
    (p - midpoint a b).length ≤ √(diagonalSq a b / 4) := by
  obtain ⟨x, y, z⟩ := inside
  have nearer := add_nonpos (add_nonpos (sub_mul_sub_nonpos x) (sub_mul_sub_nonpos y))
    (sub_mul_sub_nonpos z)
  apply Real.sqrt_le_sqrt
  change (p - midpoint a b).lengthSquared ≤ _
  rw [lengthSquared_sub_midpoint]
  exact add_le_of_nonpos_right nearer

private theorem length_sub_midpoint_eq {a b p : Vec3 ℝ} (corner : p ∈ corners a b) :
    (p - midpoint a b).length = √(diagonalSq a b / 4) := by
  have none {s t u : ℝ} (at_end : u = s ∨ u = t) : (u - s) * (u - t) = 0 :=
    mul_eq_zero.mpr (at_end.imp sub_eq_zero.mpr sub_eq_zero.mpr)
  obtain ⟨x, y, z⟩ := corner
  apply congrArg Real.sqrt
  change (p - midpoint a b).lengthSquared = _
  rw [lengthSquared_sub_midpoint, none x, none y, none z, add_zero, add_zero, add_zero]

end Vec3

open Vec3

theorem boundRadius_eq (max min scale : Vec3 ℝ) :
    boundRadius max min scale = √(diagonalSq (max.stretch scale) (min.stretch scale) / 4) := by
  apply congrArg Real.sqrt
  simp only [dot, sub_x, sub_y, sub_z, add_x, add_y, add_z, scale_x, scale_y, scale_z,
    Scalar.half_eq, diagonalSq]
  ring

theorem diagonalSq_stretch (max min scale : Vec3 ℝ) :
    diagonalSq (max.stretch scale) (min.stretch scale) =
    (max.x - min.x) ^ 2 * scale.x ^ 2 + (max.y - min.y) ^ 2 * scale.y ^ 2 +
      (max.z - min.z) ^ 2 * scale.z ^ 2 := by
  simp only [diagonalSq, stretch, zipWith]
  ring

theorem boundRadius_swap (max min scale : Vec3 ℝ) :
    boundRadius min max scale = boundRadius max min scale := by
  simp only [boundRadius_eq, diagonalSq_stretch, sub_sq_comm min.x, sub_sq_comm min.y,
    sub_sq_comm min.z]

theorem boundRadius_mirror (max min : Vec3 ℝ) {scale mirrored : Vec3 ℝ}
    (x : |mirrored.x| = |scale.x|) (y : |mirrored.y| = |scale.y|) (z : |mirrored.z| = |scale.z|) :
    boundRadius max min mirrored = boundRadius max min scale := by
  simp only [boundRadius_eq, diagonalSq_stretch, sq_eq_sq_iff_abs_eq_abs _ _ |>.mpr x,
    sq_eq_sq_iff_abs_eq_abs _ _ |>.mpr y, sq_eq_sq_iff_abs_eq_abs _ _ |>.mpr z]

theorem boundRadius_shift (max min scale shift : Vec3 ℝ) :
    boundRadius (max + shift) (min + shift) scale = boundRadius max min scale := by
  simp only [boundRadius_eq, diagonalSq_stretch, add_x, add_y, add_z, add_sub_add_right_eq_sub]

namespace CollisionRadius

private theorem max_le_sqrt (width height : ℝ) :
    max width height ≤ √(width * width + height * height) := by
  apply max_le
  · apply Real.le_sqrt_of_sq_le
    rw [sq]
    exact le_add_of_nonneg_right (mul_self_nonneg height)
  · apply Real.le_sqrt_of_sq_le
    rw [sq]
    exact le_add_of_nonneg_left (mul_self_nonneg width)

private theorem spriteSize_nonneg {scale : Vec3 ℝ} (x : 0 ≤ scale.x) (y : 0 ≤ scale.y)
    (z : 0 ≤ scale.z) (front : Vec3 ℝ) :
    0 ≤ (spriteSize scale front).1 ∧ 0 ≤ (spriteSize scale front).2 := by
  unfold spriteSize
  split
  · exact ⟨x, y⟩
  · split
    · exact ⟨x, z⟩
    · exact ⟨y, z⟩

/-- The sides of a sprite and its diagonal, whichever axis it faces along. -/
theorem spriteRadius_ordered (r : CollisionRadius ℝ) (larger : 0 ≤ r.scale) {scale : Vec3 ℝ}
    (x : 0 ≤ scale.x) (y : 0 ≤ scale.y) (z : 0 ≤ scale.z) (front : Vec3 ℝ) :
    let radius (method : RadiusMethod) : ℝ := spriteRadius { r with method := method } scale front
    0 ≤ radius .minimumAxis ∧ radius .minimumAxis ≤ radius .maximumAxis ∧
      radius .maximumAxis ≤ radius .bounds := by
  intro radius
  obtain ⟨wide, high⟩ := spriteSize_nonneg x y z front
  have scaled {a b : ℝ} (below : a ≤ b) : r.scale * a / 2 ≤ r.scale * b / 2 :=
    div_le_div_of_nonneg_right (mul_le_mul_of_nonneg_left below larger) zero_le_two
  simp only [radius, spriteRadius, Scalar.larger_eq_max, Scalar.smaller_eq_min,
    Scalar.ofNat_eq_ofNat]
  refine ⟨?_, scaled min_le_max, scaled (max_le_sqrt ..)⟩
  exact div_nonneg (mul_nonneg larger (le_min wide high)) zero_le_two

/-- The radius of a mesh does not depend on the order of the extents, on where they lie or on the
signs of the scale; the ball of this radius about the centre of the scaled box holds the box and
touches all its corners. The radii of a sprite that is not scaled below zero grow from the shorter
side over the longer one to the bounds. -/
theorem bounds_enclose :
    (∀ max min scale : Vec3 ℝ,
      let a := max.stretch scale
      let b := min.stretch scale
      let radius := boundRadius max min scale
      boundRadius min max scale = radius ∧
        (∀ mirrored : Vec3 ℝ, |mirrored.x| = |scale.x| → |mirrored.y| = |scale.y| →
          |mirrored.z| = |scale.z| →
          boundRadius max min mirrored = radius) ∧
        (∀ shift, boundRadius (max + shift) (min + shift) scale = radius) ∧
        (∀ p ∈ box a b, (p - midpoint a b).length ≤ radius) ∧
        ∀ p ∈ corners a b, (p - midpoint a b).length = radius) ∧
    ∀ (r : CollisionRadius ℝ) (particle : Particle ℝ) (context : UpdateContext ℝ),
      0 ≤ particle.scale.x → 0 ≤ particle.scale.y → 0 ≤ particle.scale.z → 0 ≤ r.scale →
      let radius (method : RadiusMethod) : ℝ :=
        compute { r with shape := .sprite, method := method } particle context
      0 ≤ radius .minimumAxis ∧ radius .minimumAxis ≤ radius .maximumAxis ∧
        radius .maximumAxis ≤ radius .bounds := by
  refine ⟨fun max min scale =>
    ⟨boundRadius_swap max min scale, ?_, boundRadius_shift max min scale, ?_, ?_⟩, ?_⟩
  · intro mirrored
    exact boundRadius_mirror max min
  · intro p inside
    rw [boundRadius_eq]
    exact length_sub_midpoint_le inside
  · intro p corner
    rw [boundRadius_eq]
    exact length_sub_midpoint_eq corner
  · intro r particle context x y z larger
    exact spriteRadius_ordered r larger x y z context.front

/-- A box with its extents the wrong way round along an axis, scaled and
mirrored; and a sprite that faces askew. -/
theorem bounds_enclose_mirrored :
    let scale : Vec3 ℝ := ⟨2, -4, 6⟩
    let a := Vec3.stretch ⟨1, -1, 1⟩ scale
    let b := Vec3.stretch ⟨-1, 1, 0⟩ scale
    let radius := boundRadius ⟨1, -1, 1⟩ ⟨-1, 1, 0⟩ scale
    radius = √29 ∧ boundRadius ⟨1, -1, 1⟩ ⟨-1, 1, 0⟩ ⟨2, 4, -6⟩ = radius ∧
      ((⟨1, -4, 5⟩ : Vec3 ℝ) - midpoint a b).length ≤ radius ∧
      ((⟨2, -4, 0⟩ : Vec3 ℝ) - midpoint a b).length = radius ∧
      ∀ context : UpdateContext ℝ, 0 ≤ compute ⟨.sprite, .minimumAxis, 1, 3⟩
        { (Particle.default : Particle ℝ) with scale := ⟨2, 0, 6⟩ } context := by
  intro scale a b radius
  obtain ⟨meshes, sprites⟩ := bounds_enclose
  obtain ⟨-, mirrored, -, inside, corner⟩ := meshes ⟨1, -1, 1⟩ ⟨-1, 1, 0⟩ scale
  refine ⟨?_, mirrored _ ?_ ?_ ?_, inside _ ?_, corner _ ?_, fun context => ?_⟩
  · simp only [radius, scale, boundRadius_eq, diagonalSq_stretch]
    norm_num
  · simp [scale]
  · simp [scale]
  · simp [scale]
  · simp [box, stretch, zipWith, scale]
    norm_num
  · simp [corners, stretch, zipWith, scale]
  · exact (sprites ⟨.sprite, .minimumAxis, 1, 3⟩ _ context (by norm_num) (by norm_num) (by norm_num)
      (by norm_num)).1

end CollisionRadius

end ParticleSystem
