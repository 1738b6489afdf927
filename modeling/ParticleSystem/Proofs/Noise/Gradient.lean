import ParticleSystem.Proofs.Geometry.Gradient
import ParticleSystem.Proofs.Noise.Support

/-!
The noise and its gradient. Around a point the corners of its tetrahedron stand still; what they
contribute can then be differentiated at the point, and the four components of a channel are the
gradient and the value, also where the falloff of a corner has just come to an end.
-/

namespace ParticleSystem.Noise

open Vec3

section Falloff

variable {K : Type} [Field K] [LinearOrder K] [FloorRing K] [Elementary K]

/-- How the weight of a corner at a given offset changes along each axis. -/
def falloffSlope (offset : Vec3 K) : Vec3 K :=
  let rows := smoothGradient ⟨offset, offset, offset, offset⟩
  ⟨rows.x.x, rows.y.x, rows.z.x⟩

private theorem smoothGradient_eq (offsets : Simplex (Vec3 K)) :
    smoothGradient offsets =
      let slopes := offsets.map falloffSlope
      ⟨(slopes.map Vec3.x).lanes, (slopes.map Vec3.y).lanes, (slopes.map Vec3.z).lanes⟩ := rfl

variable [IsStrictOrderedRing K]

theorem one_sub_falloffInput (offset : Vec3 K) :
    1 - (falloffInput ⟨offset, offset, offset, offset⟩).x =
      max (1 - 2 * offset.lengthSquared) 0 := by
  have nonneg : 0 ≤ offset.lengthSquared :=
    add_nonneg (add_nonneg (mul_self_nonneg _) (mul_self_nonneg _)) (mul_self_nonneg _)
  simp only [falloffInput, Vec4.map, Simplex.lanes, Simplex.map, Scalar.larger_eq_max,
    Scalar.smaller_eq_min, Scalar.ofNat_eq_zero, Scalar.ofNat_eq_one, Scalar.ofNat_eq_ofNat]
  rw [max_eq_left (mul_nonneg zero_le_two nonneg), ← max_sub_sub_left, sub_self]

private theorem falloff_eq (offset : Vec3 K) :
    falloff offset = 1024 / 375 * max (1 - 2 * offset.lengthSquared) 0 ^ 3 := by
  rw [← one_sub_falloffInput, falloff, smooth]
  simp only [Vec4.map, smoothScale, Scalar.ofNat_eq_one, Scalar.ofNat_eq_ofNat]
  ring

private theorem falloffSlope_eq (offset : Vec3 K) :
    falloffSlope offset = offset *
      (-12 * (1024 / 375) * max (1 - 2 * offset.lengthSquared) 0 ^ 2) := by
  have factor (s : K) : 1024 / 375 * (-12 + s * (24 - 12 * s)) =
      -12 * (1024 / 375) * (1 - s) ^ 2 := by ring
  rw [← one_sub_falloffInput, ← factor]
  ext <;> exact mul_comm _ _

end Falloff

/-- The cube of a number held above zero has a derivative also at
zero, where the number begins to be held. -/
private theorem hasDerivAt_held_cube (u : ℝ) :
    HasDerivAt (fun u => max u 0 ^ 3) (3 * max u 0 ^ 2) u := by
  -- Both half lines have the derivative, and at zero they meet.
  have flat (low : u ≤ 0) : HasDerivWithinAt (fun u => max u 0 ^ 3) (3 * max u 0 ^ 2)
      (Set.Iic 0) u := by
    have constant : ∀ w ∈ Set.Iic (0 : ℝ), max w 0 ^ 3 = 0 := fun w below => by
      rw [max_eq_right below, zero_pow three_ne_zero]
    rw [max_eq_right low, zero_pow two_ne_zero, mul_zero]
    exact (hasDerivWithinAt_const u _ 0).congr constant (constant u low)
  have cubic (high : 0 ≤ u) : HasDerivWithinAt (fun u => max u 0 ^ 3) (3 * max u 0 ^ 2)
      (Set.Ici 0) u := by
    have cube : ∀ w ∈ Set.Ici (0 : ℝ), max w 0 ^ 3 = w ^ 3 := fun w above => by
      rw [max_eq_left above]
    rw [max_eq_left high]
    exact (hasDerivAt_pow 3 u).hasDerivWithinAt.congr cube (cube u high)
  rcases lt_trichotomy u 0 with below | rfl | above
  · exact (flat below.le).hasDerivAt (Iic_mem_nhds below)
  · have both := (flat le_rfl).union (cubic le_rfl)
    rwa [Set.Iic_union_Ici, hasDerivWithinAt_univ] at both
  · exact (cubic above.le).hasDerivAt (Ici_mem_nhds above)

theorem hasGradient_falloff (center point : Vec3 ℝ) :
    HasGradient (fun q => falloff (q - center)) (falloffSlope (point - center)) point := by
  have outer (d : ℝ) : HasDerivAt (fun d => 1024 / 375 * max (1 - 2 * d) 0 ^ 3)
      (1024 / 375 * (3 * max (1 - 2 * d) 0 ^ 2 * -2)) d := by
    have line : HasDerivAt (fun d : ℝ => 1 - 2 * d) (-2) d := by
      simpa using ((hasDerivAt_id d).const_mul 2).const_sub 1
    exact ((hasDerivAt_held_cube _).comp d line).const_mul _
  have chain := HasGradient.comp (outer _) (hasGradient_lengthSquared_sub center point)
  have slope : (point - center) * (2 : ℝ) *
      (1024 / 375 * (3 * max (1 - 2 * (point - center).lengthSquared) 0 ^ 2 * -2)) =
        falloffSlope (point - center) := by
    rw [falloffSlope_eq]
    ext <;> simp only [scale_x, scale_y, scale_z] <;> ring
  rw [slope] at chain
  simpa only [← falloff_eq] using chain

section Channel

variable (turn : Vec3 UInt32 → Vec3 UInt32)

/-- How the contribution of a corner changes along each axis. -/
noncomputable def contributionSlope (input corner : Vec3 ℝ) : Vec3 ℝ :=
  let along : Vec3 ℝ := gradient (turn (cornerWords corner))
  along * falloff (input - corner) + falloffSlope (input - corner) * along.dot (input - corner)

theorem hasGradient_contribution (input corner : Vec3 ℝ) :
    HasGradient (fun q => contribution turn q corner) (contributionSlope turn input corner) input :=
  (hasGradient_falloff corner input).mul (hasGradient_dot_sub _ corner input)

/-- What given corners add to a channel. -/
noncomputable def cornerSum (corners : Simplex (Vec3 ℝ)) (input : Vec3 ℝ) : ℝ :=
  (corners.toList.map (contribution turn input)).sum

private theorem hasGradient_cornerSum (corners : Simplex (Vec3 ℝ)) (input : Vec3 ℝ) :
    HasGradient (cornerSum turn corners)
      (contributionSlope turn input corners.origin + contributionSlope turn input corners.second +
        contributionSlope turn input corners.third +
          contributionSlope turn input corners.opposite) input := by
  have part (corner : Vec3 ℝ) := hasGradient_contribution turn input corner
  have sum := (((part corners.origin).add (part corners.second)).add (part corners.third)).add
    (part corners.opposite)
  have total (q : Vec3 ℝ) : contribution turn q corners.origin +
    contribution turn q corners.second +
      contribution turn q corners.third + contribution turn q corners.opposite =
        cornerSum turn corners q := by
    simp only [cornerSum, Simplex.toList, List.map_cons, List.map_nil, List.sum_cons, List.sum_nil]
    ring
  simpa only [total] using sum

private theorem channel_slope (corners : Simplex (Vec3 ℝ)) (input : Vec3 ℝ) :
    let output := channel (corners.map (input - ·)) ((corners.map cornerWords).map fun words =>
      gradient (turn words))
    (⟨output.x, output.y, output.z⟩ : Vec3 ℝ) =
      contributionSlope turn input corners.origin + contributionSlope turn input corners.second +
        contributionSlope turn input corners.third +
          contributionSlope turn input corners.opposite := by
  ext <;>
    simp only [channel, smooth_eq, smoothGradient_eq, contributionSlope, Simplex.map,
      Simplex.zipWith, Simplex.lanes, extend, zero, splat, Vec4.dot, add_x, add_y, add_z, scale_x,
      scale_y, scale_z, Scalar.ofNat_eq_zero] <;>
    ring

end Channel

/-- Whether the last component is the value of a function at a point
and the others are its gradient there. -/
structure Describes (output : Vec4 ℝ) (f : Vec3 ℝ → ℝ) (point : Vec3 ℝ) : Prop where
  value : output.w = f point
  slope : HasGradient f ⟨output.x, output.y, output.z⟩ point

theorem describes_channel (turn : Vec3 UInt32 → Vec3 UInt32) (corners : Simplex (Vec3 ℝ))
    (input : Vec3 ℝ) :
    Describes (channel (corners.map (input - ·)) ((corners.map cornerWords).map fun words =>
      gradient (turn words)))
      (cornerSum turn corners) input where
  value := channel_value turn input corners
  slope := channel_slope turn corners input ▸ hasGradient_cornerSum turn corners input

section Components

variable {K : Type} [Field K] [LinearOrder K] [FloorRing K] [Elementary K]

/-- A mask of one bit, stretched to two, tells whether the bit is set. -/
theorem gradientComponent_eq (place : Nat) (w : UInt32) {mask : UInt32} {scale : K}
    (single : mask.toNat = 2 ^ place) (two : 2 ^ place * scale = 2) :
    gradientComponent w mask scale = if w.toNat.testBit place then 1 else -1 := by
  change ((w &&& mask).toNat : K) * scale - @OfNat.ofNat K 1 (Scalar.instOfNat 1) = _
  rw [UInt32.toNat_and, single, Nat.and_two_pow, Scalar.ofNat_eq_one]
  cases w.toNat.testBit place with
  | false => simp
  | true =>
    rw [Bool.toNat_true, one_mul, Nat.cast_pow, Nat.cast_ofNat, two, if_pos rfl]
    norm_num

theorem gradient_subset [IsStrictOrderedRing K] (words : Vec3 UInt32) :
    (gradient words : Vec3 K).toList ⊆ [1, -1] := by
  have either (set : Bool) : (if set then 1 else -1 : K) ∈ [1, -1] := by
    cases set <;> simp
  simp only [gradient, toList, List.cons_subset, List.nil_subset, and_true, Scalar.ofNat_eq_one,
    Scalar.ofNat_eq_ofNat]
  rw [gradientComponent_eq 15 words.x rfl (by norm_num),
    gradientComponent_eq 14 words.y rfl (by norm_num),
    gradientComponent_eq 13 words.z rfl (by norm_num)]
  exact ⟨either _, either _, either _⟩

end Components

/-- Each channel holds, at every point, the value and the gradient of what the corners of the point
contribute to it as functions of the point, wherever it lies on the falloff of each. The components
of the corners' own gradients are one or minus one. -/
theorem jacobian_describes_noise (input : Vec3 ℝ) :
    let corners := Simplex.corners input
    Describes (jacobian input).x (cornerSum id corners) input ∧
      Describes (jacobian input).y (cornerSum nextChannel corners) input ∧
      Describes (jacobian input).z (cornerSum (nextChannel ∘ nextChannel) corners) input ∧
      ∀ words, (gradient words : Vec3 ℝ).toList ⊆ [1, -1] := by
  intro corners
  have each (turn : Vec3 UInt32 → Vec3 UInt32) := describes_channel turn corners input
  exact ⟨each id, each nextChannel, each (nextChannel ∘ nextChannel), gradient_subset⟩

end ParticleSystem.Noise
