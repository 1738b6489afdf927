import ParticleSystem.Noise.Lattice
import ParticleSystem.Proofs.Geometry.Vector

/-!
The simplex lattice over a field. From the origin of its cell the corners of a point follow one
another by steps along the three axes of the grid, the furthest first; they make up a tetrahedron of
the lattice unless the point lies equally far along two axes, when no order of the steps is right.
-/

namespace ParticleSystem.Simplex

section Axes

variable {K : Type} [LinearOrder K] {v : Fin 3 → K} {axes : Equiv.Perm (Fin 3)}

/-- One on the axes that nothing lies further along. -/
def furthest (v : Fin 3 → K) (i : Fin 3) : ℤ := if ∀ j, v j ≤ v i then 1 else 0

/-- One on the axes that do not fall behind both others. -/
def notLeast (v : Fin 3 → K) (i : Fin 3) : ℤ := if ∃ j ≠ i, v j ≤ v i then 1 else 0

theorem exists_strictAnti (different : v.Injective) :
    ∃ axes : Equiv.Perm (Fin 3), StrictAnti (v ∘ axes) := by
  refine ⟨Fin.revPerm.trans (Tuple.sort v), ?_⟩
  have increasing : StrictMono (v ∘ Tuple.sort v) :=
    (Tuple.monotone_sort v).strictMono_of_injective (different.comp (Tuple.sort v).injective)
  exact fun i j less => increasing (Fin.rev_lt_rev.mpr less)

private theorem furthest_of_strictAnti (ordered : StrictAnti (v ∘ axes)) :
    furthest v = Pi.single (axes 0) 1 := by
  funext i
  obtain ⟨place, rfl⟩ := axes.surjective i
  have compare (other : Fin 3) : v (axes other) ≤ v (axes place) ↔ place ≤ other :=
    ordered.le_iff_ge
  have first : ∀ place : Fin 3, (∀ other, place ≤ other) ↔ place = 0 := by decide
  have leads : (∀ j, v j ≤ v (axes place)) ↔ place = 0 :=
    axes.forall_congr_right.symm.trans ((forall_congr' compare).trans (first place))
  simp only [furthest, Pi.single_apply, axes.apply_eq_iff_eq, leads]

private theorem notLeast_of_strictAnti (ordered : StrictAnti (v ∘ axes)) :
    notLeast v = Pi.single (axes 0) 1 + Pi.single (axes 1) 1 := by
  funext i
  obtain ⟨place, rfl⟩ := axes.surjective i
  have compare (other : Fin 3) : axes other ≠ axes place ∧ v (axes other) ≤ v (axes place) ↔
      other ≠ place ∧ place ≤ other := and_congr axes.injective.ne_iff ordered.le_iff_ge
  have last : ∀ place : Fin 3, (if ∃ other ≠ place, place ≤ other then 1 else 0 : ℤ) =
      (if place = 0 then 1 else 0) + if place = 1 then 1 else 0 := by decide
  have follows : (∃ j ≠ axes place, v j ≤ v (axes place)) ↔ ∃ other ≠ place, place ≤ other :=
    axes.exists_congr_right.symm.trans (exists_congr compare)
  simp only [notLeast, Pi.add_apply, Pi.single_apply, axes.apply_eq_iff_eq, follows, last]

/-- Where two axes are equally far, both of them are
furthest, or no axis falls behind both others. -/
private theorem injective_of_sums (one : ∑ i, furthest v i = 1) (two : ∑ i, notLeast v i = 2) :
    v.Injective := by
  intro i j same
  by_contra different
  by_cases leads : ∀ l, v l ≤ v i
  · have nonneg : ∀ l ∈ Finset.univ, 0 ≤ furthest v l := by
      intro l _
      unfold furthest
      split <;> decide
    have both : furthest v i + furthest v j = 2 := by
      rw [furthest, furthest, ← same, if_pos leads]
      rfl
    have sum := Finset.add_le_sum nonneg (Finset.mem_univ i) (Finset.mem_univ j) different
    omega
  · obtain ⟨l, beyond⟩ := not_forall.mp leads
    rw [not_le] at beyond
    have all (m : Fin 3) : notLeast v m = 1 := by
      have three : ∀ i j l m : Fin 3, i ≠ j → l ≠ i → l ≠ j → m = i ∨ m = j ∨ m = l := by decide
      apply if_pos
      rcases three i j l m different (fun own => beyond.ne (own ▸ rfl))
        (fun own => beyond.ne (own ▸ same)) with
        rfl | rfl | rfl
      · exact ⟨j, Ne.symm different, same.ge⟩
      · exact ⟨i, different, same.le⟩
      · exact ⟨i, fun own => beyond.ne (own ▸ rfl), beyond.le⟩
    simp [all] at two

end Axes

variable {K : Type} [Field K] [LinearOrder K] [FloorRing K] [Elementary K]

/-- The point with given coordinates on the grid. -/
def gridPoint (v : Fin 3 → K) : Vec3 K := ofGrid ⟨v 0, v 1, v 2⟩

variable (K) in
/-- The point of the lattice with given coordinates on the grid. -/
def latticePoint (k : Fin 3 → ℤ) : Vec3 K := gridPoint fun i => k i

variable (K) in
def lattice : Set (Vec3 K) := Set.range (latticePoint K)

theorem gridPoint_eq (v : Fin 3 → K) :
    gridPoint v = ⟨v 0 - (∑ i, v i) / 6, v 1 - (∑ i, v i) / 6, v 2 - (∑ i, v i) / 6⟩ := by
  have shear : (⟨v 0, v 1, v 2⟩ : Vec3 K).dot (.splat unskew) = (∑ i, v i) / 6 := by
    simp only [Vec3.dot, Vec3.splat, unskew, Scalar.ofNat_eq_one, Scalar.ofNat_eq_ofNat,
      Fin.sum_univ_three]
    ring
  rw [gridPoint, ofGrid, shear]
  rfl

theorem gridPoint_add (v w : Fin 3 → K) : gridPoint (v + w) = gridPoint v + gridPoint w := by
  simp only [gridPoint_eq, Pi.add_apply, Finset.sum_add_distrib]
  ext <;> simp <;> ring

theorem gridPoint_sub (v w : Fin 3 → K) : gridPoint (v - w) = gridPoint v - gridPoint w := by
  simp only [gridPoint_eq, Pi.sub_apply, Finset.sum_sub_distrib]
  ext <;> simp <;> ring

theorem lengthSquared_gridPoint (v : Fin 3 → K) :
    (gridPoint v).lengthSquared = ∑ i, v i ^ 2 - (∑ i, v i) ^ 2 / 4 := by
  simp only [gridPoint_eq, Vec3.lengthSquared, Vec3.dot, Fin.sum_univ_three]
  ring

theorem latticePoint_add (k l : Fin 3 → ℤ) :
    latticePoint K (k + l) = latticePoint K k + latticePoint K l := by
  simp only [latticePoint, ← gridPoint_add, Pi.add_apply, Int.cast_add]
  rfl

theorem latticePoint_sub (k l : Fin 3 → ℤ) :
    latticePoint K (k - l) = latticePoint K k - latticePoint K l := by
  simp only [latticePoint, ← gridPoint_sub, Pi.sub_apply, Int.cast_sub]
  rfl

/-- The squared length of a vector of the lattice, in quarters. -/
def quarters (k : Fin 3 → ℤ) : ℤ := 4 * ∑ i, k i ^ 2 - (∑ i, k i) ^ 2

theorem lengthSquared_latticePoint (k : Fin 3 → ℤ) :
    (latticePoint K k).lengthSquared = quarters k / 4 := by
  rw [latticePoint, lengthSquared_gridPoint, quarters]
  push_cast
  ring

variable (K) in
/-- The corners that a walk on the lattice comes by: one step
along each axis, in the given order. -/
def walk (start : Fin 3 → ℤ) (axes : Equiv.Perm (Fin 3)) : Simplex (Vec3 K) :=
  let step (n : Fin 3) : Fin 3 → ℤ := Pi.single (axes n) 1
  ⟨latticePoint K start, latticePoint K (start + step 0), latticePoint K (start + step 0 + step 1),
    latticePoint K (start + step 0 + step 1 + step 2)⟩

/-- The squares of the distances between the corners. -/
def squaredSides (s : Simplex (Vec3 K)) : List K :=
  [s.origin - s.second, s.origin - s.third, s.origin - s.opposite, s.second - s.third,
    s.second - s.opposite, s.third - s.opposite].map Vec3.lengthSquared

/-- Four different corners of a walk on the lattice, two pairs of them
at distance one and the others closer. -/
structure IsTetrahedron (s : Simplex (Vec3 K)) : Prop where
  walked : ∃ start axes, s = walk K start axes
  different : s.toList.Nodup
  sides : s.squaredSides.Perm [3 / 4, 3 / 4, 3 / 4, 3 / 4, 1, 1]

private theorem squaredSides_walk (start : Fin 3 → ℤ) (axes : Equiv.Perm (Fin 3)) :
    (walk K start axes).squaredSides = [3 / 4, 1, 3 / 4, 3 / 4, 1, 3 / 4] := by
  have one : ∀ i : Fin 3, quarters (Pi.single i 1) = 3 := by decide
  have two : ∀ i j : Fin 3, i ≠ j → quarters (Pi.single i 1 + Pi.single j 1) = 4 := by decide
  have three : ∀ axes : Equiv.Perm (Fin 3),
      quarters (Pi.single (axes 0) 1 + (Pi.single (axes 1) 1 + Pi.single (axes 2) 1)) = 3 := by
        decide
  have reverse (k : Fin 3 → ℤ) : quarters (-k) = quarters k := by simp [quarters]
  have early : axes 0 ≠ axes 1 := axes.injective.ne (by decide)
  have late : axes 1 ≠ axes 2 := axes.injective.ne (by decide)
  simp only [squaredSides, walk, List.map_cons, List.map_nil, ← latticePoint_sub,
    lengthSquared_latticePoint, add_assoc, sub_add_cancel_left, add_sub_add_left_eq_sub, reverse,
    one, two _ _ early, two _ _ late, three]
  norm_num

theorem isTetrahedron_walk (start : Fin 3 → ℤ) (axes : Equiv.Perm (Fin 3)) :
    (walk K start axes).IsTetrahedron := by
  have sides := squaredSides_walk (K := K) start axes
  refine ⟨⟨start, axes, rfl⟩, ?_, ?_⟩
  · have apart {p q : Vec3 K} (side : (p - q).lengthSquared ∈ (walk K start axes).squaredSides) :
        p ≠ q := by
      rintro rfl
      have none : (p - p).lengthSquared = 0 := by simp [Vec3.lengthSquared, Vec3.dot]
      rw [none, sides] at side
      norm_num at side
    simp only [toList, List.nodup_cons, List.mem_cons, List.not_mem_nil, or_false, not_or,
      not_false_eq_true, List.nodup_nil, and_true]
    refine ⟨⟨apart ?_, apart ?_, apart ?_⟩, ⟨apart ?_, apart ?_⟩, apart ?_⟩ <;> simp [squaredSides]
  · have sorted : [false, true, false, false, true, false].Perm [false, false, false, false, true,
        true] := by decide
    rw [sides]
    exact sorted.map fun long => cond long 1 (3 / 4)

def coordinates (input : Vec3 K) : Fin 3 → K :=
  let skewed := input + .splat (input.dot (.splat skew))
  ![skewed.x, skewed.y, skewed.z]

/-- The cell of the grid that holds a point. -/
def cell (input : Vec3 K) (i : Fin 3) : ℤ := ⌊coordinates input i⌋

/-- How far a point lies into its cell along each axis. -/
def reach (input : Vec3 K) (i : Fin 3) : K := Int.fract (coordinates input i)

theorem corners_origin (input : Vec3 K) : (corners input).origin = latticePoint K (cell input) :=
  rfl

theorem gridPoint_coordinates (input : Vec3 K) : gridPoint (coordinates input) = input := by
  simp only [gridPoint_eq, coordinates, Fin.sum_univ_three]
  ext <;>
    simp [Vec3.dot, Vec3.splat, skew] <;> field_simp <;> ring

theorem sub_latticePoint (input : Vec3 K) (k : Fin 3 → ℤ) :
    input - latticePoint K k = gridPoint (coordinates input - fun i => (k i : K)) := by
  rw [gridPoint_sub, gridPoint_coordinates]
  rfl

theorem sub_corners_origin (input : Vec3 K) :
    input - (corners input).origin = gridPoint (reach input) := by
  rw [corners_origin, sub_latticePoint]
  rfl

/-- How far a point lies from the origin of its cell differs from axis to axis as its reach does. -/
theorem nodup_offset_iff (input : Vec3 K) :
    (input - (corners input).origin).toList.Nodup ↔ (reach input).Injective := by
  rw [sub_corners_origin, gridPoint_eq]
  generalize (∑ i, reach input i) / 6 = shear
  have listed : (⟨reach input 0 - shear, reach input 1 - shear, reach input 2 - shear⟩ :
    Vec3 K).toList = List.ofFn fun i => reach input i - shear := rfl
  rw [listed, List.nodup_ofFn]
  exact (sub_left_injective (b := shear)).of_comp_iff (reach input)

section Steps

variable {v : Fin 3 → K} {i j k : Fin 3}

theorem step_eq (edge a : K) : step edge a = if edge ≤ a then 1 else 0 := by
  simp only [step, Scalar.ofNat_eq_zero, Scalar.ofNat_eq_one]

/-- One that both other axes allow is one on the furthest axis. -/
theorem smaller_step (others : ∀ l, l = i ∨ l = j ∨ l = k) :
    Scalar.smaller (step (v j) (v i)) (step (v k) (v i)) = (furthest v i : K) := by
  have leads : (∀ l, v l ≤ v i) ↔ v j ≤ v i ∧ v k ≤ v i := by
    refine ⟨fun all => ⟨all j, all k⟩, fun ⟨first, second⟩ l => ?_⟩
    rcases others l with rfl | rfl | rfl
    · exact le_rfl
    · exact first
    · exact second
  simp only [furthest, leads, step_eq, Scalar.smaller]
  by_cases first : v j ≤ v i <;> by_cases second : v k ≤ v i <;> simp [first, second]

/-- One that either other axis allows is one on an axis that is not the least. -/
theorem larger_step (others : ∀ l, l = i ∨ l = j ∨ l = k) (apart : j ≠ i ∧ k ≠ i) :
    Scalar.larger (step (v j) (v i)) (step (v k) (v i)) = (notLeast v i : K) := by
  have follows : (∃ l ≠ i, v l ≤ v i) ↔ v j ≤ v i ∨ v k ≤ v i := by
    constructor
    · rintro ⟨l, other, below⟩
      rcases others l with rfl | rfl | rfl
      · exact absurd rfl other
      · exact .inl below
      · exact .inr below
    · rintro (first | second)
      · exact ⟨j, apart.1, first⟩
      · exact ⟨k, apart.2, second⟩
  simp only [notLeast, follows, step_eq, Scalar.larger]
  by_cases first : v j ≤ v i <;> by_cases second : v k ≤ v i <;> simp [first, second]

end Steps

section Strides

/-- A way along the axes, taken back along the diagonal as if it were a given number of steps. -/
def stride (k : Fin 3 → ℤ) (steps : ℕ) : Vec3 K := ⟨k 0, k 1, k 2⟩ - .splat (steps * (1 / 6))

variable {k : Fin 3 → ℤ} {steps : ℕ}

/-- A stride along as many axes as it is said to have steps
leads from lattice point to lattice point. -/
theorem stride_eq (sum : ∑ i, k i = steps) : stride k steps = latticePoint K k := by
  have total : ∑ i, (k i : K) = steps := by exact_mod_cast sum
  rw [latticePoint, gridPoint_eq, total, stride, mul_one_div]
  rfl

/-- No other stride leads as far as a lattice vector of that many steps. -/
theorem sum_eq_of_stride_eq {l : Fin 3 → ℤ} (sum : ∑ i, l i = steps)
    (same : stride k steps = latticePoint K l) : ∑ i, k i = steps := by
  rw [← stride_eq sum, Vec3.ext_iff] at same
  obtain ⟨x, y, z⟩ := same
  simp only [stride, Vec3.sub_x, Vec3.sub_y, Vec3.sub_z, sub_left_inj, Int.cast_inj] at x y z
  rw [← sum, Fin.sum_univ_three, Fin.sum_univ_three, x, y, z]

end Strides

variable [IsStrictOrderedRing K]

private theorem step_sub (edge a shear : K) : step (edge - shear) (a - shear) = step edge a := by
  rw [step_eq, step_eq]
  simp only [sub_le_sub_iff_right]

theorem corners_eq (input : Vec3 K) : corners input =
    ⟨latticePoint K (cell input), latticePoint K (cell input) + stride (furthest (reach input)) 1,
      latticePoint K (cell input) + stride (notLeast (reach input)) 2,
      latticePoint K (cell input) + stride 1 3⟩ := by
  have offset : input - latticePoint K (cell input) = _ :=
    (sub_corners_origin input).trans (gridPoint_eq _)
  have others : ∀ l : Fin 3, l = 0 ∨ l = 1 ∨ l = 2 := by decide
  have turned : ∀ l : Fin 3, l = 1 ∨ l = 2 ∨ l = 0 := by decide
  have again : ∀ l : Fin 3, l = 2 ∨ l = 0 ∨ l = 1 := by decide
  have origin : ofGrid (gridOrigin input) = latticePoint K (cell input) := rfl
  simp only [corners, origin, offset, step_sub, Vec3.zipWith, smaller_step others,
    smaller_step turned, smaller_step again, larger_step others (by decide),
    larger_step turned (by decide), larger_step again (by decide)]
  simp only [stride, unskew, Scalar.ofNat_eq_one, Scalar.ofNat_eq_ofNat, Nat.cast_one,
    Nat.cast_ofNat, one_mul, Pi.one_apply, Int.cast_one]
  rfl

theorem sum_one_step (axes : Equiv.Perm (Fin 3)) :
    ∑ i, (Pi.single (axes 0) 1 : Fin 3 → ℤ) i = (1 : ℕ) := by
  simp

theorem sum_two_steps (axes : Equiv.Perm (Fin 3)) :
    ∑ i, (Pi.single (axes 0) 1 + Pi.single (axes 1) 1 : Fin 3 → ℤ) i = (2 : ℕ) := by
  simp [Finset.sum_add_distrib]

private theorem three_steps (axes : Equiv.Perm (Fin 3)) :
    (Pi.single (axes 0) 1 + Pi.single (axes 1) 1 + Pi.single (axes 2) 1 : Fin 3 → ℤ) = 1 := by
  revert axes
  decide

theorem corners_eq_walk {input : Vec3 K} {axes : Equiv.Perm (Fin 3)}
    (ordered : StrictAnti (reach input ∘ axes)) : corners input = walk K (cell input) axes := by
  have diagonal : ∑ i, (1 : Fin 3 → ℤ) i = (3 : ℕ) := by simp
  rw [corners_eq, furthest_of_strictAnti ordered, notLeast_of_strictAnti ordered,
    stride_eq (sum_one_step axes), stride_eq (sum_two_steps axes), stride_eq diagonal,
    ← three_steps axes]
  simp only [walk, ← latticePoint_add, add_assoc]

private theorem injective_of_corners_eq_walk {input : Vec3 K} {start : Fin 3 → ℤ}
    {axes : Equiv.Perm (Fin 3)} (same : corners input = walk K start axes) :
    (reach input).Injective := by
  rw [corners_eq] at same
  simp only [walk, mk.injEq, add_assoc, latticePoint_add start] at same
  obtain ⟨origin, second, third, -⟩ := same
  rw [origin] at second third
  exact injective_of_sums (sum_eq_of_stride_eq (sum_one_step axes) (Vec3.add_left_cancel second))
    (sum_eq_of_stride_eq (sum_two_steps axes) (Vec3.add_left_cancel third))

/-- The corners of a point form a tetrahedron of the lattice exactly when no two components of its
offset from the first of them are the same. -/
theorem corners_isTetrahedron_iff (input : Vec3 K) :
    (corners input).IsTetrahedron ↔ (input - (corners input).origin).toList.Nodup := by
  rw [nodup_offset_iff]
  constructor
  · rintro ⟨⟨start, axes, same⟩, -, -⟩
    exact injective_of_corners_eq_walk same
  · intro different
    obtain ⟨axes, ordered⟩ := exists_strictAnti different
    rw [corners_eq_walk ordered]
    exact isTetrahedron_walk _ axes

/-- The components of this offset are a half, a quarter and zero. -/
theorem corners_isTetrahedron_iff_generic : (corners (⟨1 / 2, 1 / 4, 0⟩ : Vec3 ℚ)).IsTetrahedron :=
  (corners_isTetrahedron_iff (⟨1 / 2, 1 / 4, 0⟩ : Vec3 ℚ)).mpr (by decide +kernel)

/-- Around a point of the lattice the inner corners are off the lattice, and much too close. -/
theorem corners_zero_not_isTetrahedron : ¬(corners (.zero : Vec3 ℚ)).IsTetrahedron := by
  intro tetrahedron
  have close : (1 / 12 : ℚ) ∈ (corners (.zero : Vec3 ℚ)).squaredSides := by decide +kernel
  have sides := tetrahedron.sides.mem_iff.mp close
  norm_num at sides

end ParticleSystem.Simplex
