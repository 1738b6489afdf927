import ParticleSystem.Noise.Field
import ParticleSystem.Proofs.Noise.Lattice

/-!
The noise as a sum over the whole lattice. A point lies within the tetrahedron of its corners, and
every other point of the lattice is beyond a face of it and so further away than the falloff
reaches; hence the corners stand for all.
-/

namespace ParticleSystem

variable {K : Type} [Field K] [LinearOrder K] [FloorRing K] [Elementary K]

namespace Simplex

/-- The mean of the corners, each with a share of its own. -/
def blend (s : Simplex (Vec3 K)) (shares : Simplex K) : Vec3 K :=
  s.origin * shares.origin + s.second * shares.second + s.third * shares.third +
    s.opposite * shares.opposite

/-- Whether a point is a mean of the corners with shares that are not negative and make up one. -/
def Holds (s : Simplex (Vec3 K)) (point : Vec3 K) : Prop :=
  ∃ shares : Simplex K, (∀ share ∈ shares.toList, 0 ≤ share) ∧ shares.toList.sum = 1 ∧
    point = s.blend shares

private theorem blend_latticePoint (k₀ k₁ k₂ k₃ : Fin 3 → ℤ) (shares : Simplex K) :
    blend ⟨latticePoint K k₀, latticePoint K k₁, latticePoint K k₂, latticePoint K k₃⟩ shares =
      gridPoint fun i => k₀ i * shares.origin + k₁ i * shares.second + k₂ i * shares.third +
        k₃ i * shares.opposite := by
  simp only [blend, latticePoint, gridPoint_eq, Fin.sum_univ_three]
  ext <;> simp <;> ring

section Walk

variable {input : Vec3 K} {axes : Equiv.Perm (Fin 3)}

theorem lengthSquared_along (d : Fin 3 → K) (axes : Equiv.Perm (Fin 3)) :
    (gridPoint d).lengthSquared = d (axes 0) ^ 2 + d (axes 1) ^ 2 + d (axes 2) ^ 2 -
      (d (axes 0) + d (axes 1) + d (axes 2)) ^ 2 / 4 := by
  rw [lengthSquared_gridPoint, ← Equiv.sum_comp axes, ← Equiv.sum_comp axes d, Fin.sum_univ_three,
    Fin.sum_univ_three]

private theorem eq_of_axes {k l : Fin 3 → ℤ} (axes : Equiv.Perm (Fin 3))
    (first : k (axes 0) = l (axes 0)) (second : k (axes 1) = l (axes 1))
    (third : k (axes 2) = l (axes 2)) : k = l := by
  funext i
  obtain ⟨place, rfl⟩ := axes.surjective i
  fin_cases place
  · exact first
  · exact second
  · exact third

/-- A point of the lattice that is no corner of a walk lies beyond one of the faces. -/
theorem beyond_of_not_mem_walk {start k : Fin 3 → ℤ}
    (other : latticePoint K k ∉ (walk K start axes).toList) :
    start (axes 0) + 2 ≤ k (axes 0) ∨ k (axes 0) - start (axes 0) < k (axes 1) - start (axes 1) ∨
      k (axes 1) - start (axes 1) < k (axes 2) - start (axes 2) ∨ k (axes 2) < start (axes 2) := by
  by_contra within
  simp only [not_or, not_le, not_lt] at within
  apply other
  have corner : (k (axes 0) = start (axes 0) ∧ k (axes 1) = start (axes 1) ∧
    k (axes 2) = start (axes 2)) ∨
      (k (axes 0) = start (axes 0) + 1 ∧ k (axes 1) = start (axes 1) ∧
        k (axes 2) = start (axes 2)) ∨
      (k (axes 0) = start (axes 0) + 1 ∧ k (axes 1) = start (axes 1) + 1 ∧
        k (axes 2) = start (axes 2)) ∨
      (k (axes 0) = start (axes 0) + 1 ∧ k (axes 1) = start (axes 1) + 1 ∧
        k (axes 2) = start (axes 2) + 1) := by
    omega
  simp only [walk, toList, List.mem_cons, List.not_mem_nil, or_false]
  refine corner.imp ?_ (Or.imp ?_ (Or.imp ?_ ?_)) <;>
    rintro ⟨first, second, third⟩ <;>
    refine congrArg _ (eq_of_axes axes ?_ ?_ ?_) <;>
    simp [first, second, third]

variable [IsStrictOrderedRing K]

theorem reach_decreasing (ordered : StrictAnti (reach input ∘ axes)) :
    0 ≤ reach input (axes 2) ∧ reach input (axes 2) < reach input (axes 1) ∧
      reach input (axes 1) < reach input (axes 0) ∧ reach input (axes 0) < 1 :=
  ⟨Int.fract_nonneg _, ordered (show (1 : Fin 3) < 2 by decide),
    ordered (show (0 : Fin 3) < 1 by decide),
    Int.fract_lt_one _⟩

private theorem holds_walk (ordered : StrictAnti (reach input ∘ axes)) :
    (walk K (cell input) axes).Holds input := by
  obtain ⟨above, second, first, below⟩ := reach_decreasing ordered
  refine ⟨⟨1 - reach input (axes 0), reach input (axes 0) - reach input (axes 1),
    reach input (axes 1) - reach input (axes 2), reach input (axes 2)⟩, ?_, ?_, ?_⟩
  · simp only [toList, List.forall_mem_cons]
    exact ⟨sub_nonneg.mpr below.le, sub_nonneg.mpr first.le, sub_nonneg.mpr second.le,
      above, by simp⟩
  · simp only [toList, List.sum_cons, List.sum_nil]
    ring
  · rw [walk, blend_latticePoint]
    refine (gridPoint_coordinates input).symm.trans (congrArg gridPoint (funext fun i => ?_))
    obtain ⟨place, rfl⟩ := axes.surjective i
    rw [← Int.floor_add_fract (coordinates input (axes place)), ← cell, ← reach]
    fin_cases place <;> simp <;> ring

private theorem sq_le_lengthSquared (d : Fin 3 → K) (axes : Equiv.Perm (Fin 3)) :
    d (axes 0) ^ 2 ≤ 2 * (gridPoint d).lengthSquared ∧
      (d (axes 0) - d (axes 1)) ^ 2 ≤ 2 * (gridPoint d).lengthSquared ∧
      (d (axes 1) - d (axes 2)) ^ 2 ≤ 2 * (gridPoint d).lengthSquared ∧
      d (axes 2) ^ 2 ≤ 2 * (gridPoint d).lengthSquared := by
  rw [lengthSquared_along d axes]
  generalize d (axes 0) = a, d (axes 1) = b, d (axes 2) = c
  refine ⟨?_, ?_, ?_, ?_⟩
  · linear_combination sq_nonneg (a - b - c) / 2 + sq_nonneg (b - c)
  · linear_combination sq_nonneg (a + b - c) / 2 + sq_nonneg c
  · linear_combination sq_nonneg (b + c - a) / 2 + sq_nonneg a
  · linear_combination sq_nonneg (c - a - b) / 2 + sq_nonneg (a - b)

theorem one_le_of_not_mem_walk (ordered : StrictAnti (reach input ∘ axes)) {k : Fin 3 → ℤ}
    (other : latticePoint K k ∉ (walk K (cell input) axes).toList) :
    1 ≤ 2 * (input - latticePoint K k).lengthSquared := by
  obtain ⟨above, second, first, below⟩ := reach_decreasing ordered
  have parts (i : Fin 3) : coordinates input i = cell input i + reach input i :=
    (Int.floor_add_fract _).symm
  obtain ⟨one, two, three, four⟩ :=
    sq_le_lengthSquared (coordinates input - fun i => (k i : K)) axes
  rw [← sub_latticePoint] at one two three four
  simp only [Pi.sub_apply, parts] at one two three four
  rcases beyond_of_not_mem_walk other with far | far | far | far
  · have cast : (cell input (axes 0) : K) + 2 ≤ k (axes 0) := by exact_mod_cast far
    refine le_trans ?_ one
    rw [← neg_sq]
    exact one_le_pow₀ (by linarith)
  · have cast : (k (axes 0) : K) - cell input (axes 0) + 1 ≤ k (axes 1) - cell input (axes 1) := by
      exact_mod_cast far
    exact (one_le_pow₀ (by linarith)).trans two
  · have cast : (k (axes 1) : K) - cell input (axes 1) + 1 ≤ k (axes 2) - cell input (axes 2) := by
      exact_mod_cast far
    exact (one_le_pow₀ (by linarith)).trans three
  · have cast : (k (axes 2) : K) + 1 ≤ cell input (axes 2) := by exact_mod_cast far
    exact (one_le_pow₀ (by linarith)).trans four

end Walk

end Simplex

namespace Noise

open Simplex

/-- The weight of a corner at a given offset. -/
def falloff (offset : Vec3 K) : K := (smooth ⟨offset, offset, offset, offset⟩).x

theorem smooth_eq (offsets : Simplex (Vec3 K)) : smooth offsets = (offsets.map falloff).lanes := rfl

/-- What a point of the lattice adds to a channel, which is known by how it turns the hash words. -/
def contribution (turn : Vec3 UInt32 → Vec3 UInt32) (input corner : Vec3 K) : K :=
  falloff (input - corner) * (gradient (turn (cornerWords corner))).dot (input - corner)

/-- The contributions of the whole lattice. -/
noncomputable def latticeSum (turn : Vec3 UInt32 → Vec3 UInt32) (input : Vec3 K) : K :=
  ∑ᶠ corner ∈ lattice K, contribution turn input corner

theorem channel_value (turn : Vec3 UInt32 → Vec3 UInt32) (input : Vec3 K)
    (corners : Simplex (Vec3 K)) :
    (channel (corners.map (input - ·)) ((corners.map cornerWords).map fun words =>
      gradient (turn words))).w = (corners.toList.map (contribution turn input)).sum := by
  change Vec4.dot _ _ = _
  simp only [smooth_eq, Vec4.dot, lanes, map, zipWith, toList, contribution, List.map_cons,
    List.map_nil, List.sum_cons, List.sum_nil]
  ring

/-- Corners outside of which the falloff is nothing make up the whole sum. -/
theorem latticeSum_eq {turn : Vec3 UInt32 → Vec3 UInt32} {input : Vec3 K} {corners : List (Vec3 K)}
    (different : corners.Nodup) (inside : ∀ corner ∈ corners, corner ∈ lattice K)
    (outside : ∀ corner ∈ lattice K, corner ∉ corners → falloff (input - corner) = 0) :
    latticeSum turn input = (corners.map (contribution turn input)).sum := by
  classical
  rw [latticeSum, ← List.sum_toFinset _ different, ← finsum_mem_coe_finset]
  apply finsum_mem_inter_support_eq'
  intro corner weighs
  rw [List.coe_toFinset, Set.mem_ofPred_eq]
  refine ⟨fun member => ?_, inside corner⟩
  by_contra other
  exact weighs (by rw [contribution, outside corner member other, zero_mul])

theorem falloff_eq_zero {offset : Vec3 K} (far : 1 ≤ 2 * offset.lengthSquared) :
    falloff offset = 0 := by
  have reached : (falloffInput ⟨offset, offset, offset, offset⟩).x = 1 := by
    simp only [falloffInput, Vec4.map, lanes, map, Scalar.larger_eq_max, Scalar.smaller,
      Scalar.ofNat_eq_zero, Scalar.ofNat_eq_one, Scalar.ofNat_eq_ofNat]
    rw [max_eq_left (zero_le_one.trans far), if_neg (not_lt.mpr far)]
  rw [falloff, smooth, Vec4.map, reached]
  simp only [smoothScale, Scalar.ofNat_eq_ofNat, Scalar.ofNat_eq_one]
  ring

/-- Where no two components of the offset from the first corner are the same, the corners of a point
hold it between them, all other points of the lattice are too far away to weigh, and each channel is
the sum over the whole lattice. -/
theorem channels_sum_over_lattice [IsStrictOrderedRing K] (input : Vec3 K)
    (apart : (input - (corners input).origin).toList.Nodup) :
    (corners input).Holds input ∧
      (∀ corner ∈ lattice K, corner ∉ (corners input).toList →
        1 ≤ 2 * (input - corner).lengthSquared ∧ falloff (input - corner) = 0) ∧
      (jacobian input).x.w = latticeSum id input ∧
      (jacobian input).y.w = latticeSum nextChannel input ∧
      (jacobian input).z.w = latticeSum (nextChannel ∘ nextChannel) input := by
  obtain ⟨axes, ordered⟩ := exists_strictAnti ((nodup_offset_iff input).mp apart)
  have walked := corners_eq_walk ordered
  have outside : ∀ corner ∈ lattice K, corner ∉ (corners input).toList →
      1 ≤ 2 * (input - corner).lengthSquared := by
    rintro _ ⟨k, rfl⟩ other
    rw [walked] at other
    exact one_le_of_not_mem_walk ordered other
  have different : (corners input).toList.Nodup := walked ▸ (isTetrahedron_walk _ axes).different
  have inside : ∀ corner ∈ (corners input).toList, corner ∈ lattice K := by
    rw [walked]
    simp only [walk, toList, List.forall_mem_cons]
    exact ⟨⟨_, rfl⟩, ⟨_, rfl⟩, ⟨_, rfl⟩, ⟨_, rfl⟩, by simp⟩
  have none (corner : Vec3 K) (member : corner ∈ lattice K)
    (other : corner ∉ (corners input).toList) :
      falloff (input - corner) = 0 := falloff_eq_zero (outside corner member other)
  have sum (turn : Vec3 UInt32 → Vec3 UInt32) := channel_value turn input (corners input)
  simp only [← latticeSum_eq different inside none] at sum
  refine ⟨walked ▸ holds_walk ordered, fun corner member other => ?_, sum id,
    sum nextChannel, sum _⟩
  exact ⟨outside corner member other, none corner member other⟩

theorem channels_sum_over_lattice_generic :
    latticeSum id (⟨1 / 2, 1 / 4, 0⟩ : Vec3 ℚ) = -9 / 125 ∧
      latticeSum nextChannel (⟨1 / 2, 1 / 4, 0⟩ : Vec3 ℚ) = -18 / 125 ∧
      latticeSum (nextChannel ∘ nextChannel) (⟨1 / 2, 1 / 4, 0⟩ : Vec3 ℚ) = -9 / 125 := by
  obtain ⟨-, -, first, second, third⟩ :=
    channels_sum_over_lattice (⟨1 / 2, 1 / 4, 0⟩ : Vec3 ℚ) (by decide +kernel)
  rw [← first, ← second, ← third]
  decide +kernel

end Noise

end ParticleSystem
