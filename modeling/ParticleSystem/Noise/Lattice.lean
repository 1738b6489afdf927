import ParticleSystem.Geometry.Vector

/-!
The simplex lattice: integer points sheared along the diagonal so that every cell falls into
tetrahedra. `Simplex.corners` names the four corners of the tetrahedron around a point.
-/

namespace ParticleSystem

/-- One value for each corner of a tetrahedron, from the
origin of its cell to the opposite corner. -/
structure Simplex (β : Type) where
  origin : β
  second : β
  third : β
  opposite : β
  deriving BEq, DecidableEq, Repr

namespace Simplex

@[inline] def map {β γ : Type} (f : β → γ) (s : Simplex β) : Simplex γ :=
  ⟨f s.origin, f s.second, f s.third, f s.opposite⟩

@[inline] def zipWith {β γ δ : Type} (f : β → γ → δ) (s : Simplex β) (t : Simplex γ) : Simplex δ :=
  ⟨f s.origin t.origin, f s.second t.second, f s.third t.third, f s.opposite t.opposite⟩

def toList {β : Type} (s : Simplex β) : List β := [s.origin, s.second, s.third, s.opposite]

/-- The four values as the lanes of a vector. -/
@[inline] def lanes {β : Type} (s : Simplex β) : Vec4 β := ⟨s.origin, s.second, s.third, s.opposite⟩

variable {α : Type} [Scalar α]

/-- How much of the coordinate sum is added to each coordinate to reach the integer grid. -/
@[inline] def skew : α := 1 / 3

/-- How much of the coordinate sum is taken off each coordinate to come back from the grid. -/
@[inline] def unskew : α := 1 / 6

/-- One when `edge` is not above `a`, zero otherwise. -/
@[inline] def step (edge a : α) : α := if edge ≤ a then 1 else 0

/-- The point that a point of the integer grid stands for. -/
def ofGrid (k : Vec3 α) : Vec3 α := k - .splat (k.dot (.splat unskew))

/-- The grid point at the origin of the cell that holds `input`. -/
def gridOrigin (input : Vec3 α) : Vec3 α :=
  (input + .splat (input.dot (.splat skew))).map Scalar.floor

/-- The corners of the tetrahedron that holds `input`. From the origin of the cell the walk to the
opposite corner steps first along the axis on which `input` lies furthest, last along the least. -/
def corners (input : Vec3 α) : Simplex (Vec3 α) :=
  let cell := ofGrid (gridOrigin input)
  let offset := input - cell
  let order₁ : Vec3 α := ⟨step offset.y offset.x, step offset.z offset.y, step offset.x offset.z⟩
  let order₂ : Vec3 α := ⟨step offset.z offset.x, step offset.x offset.y, step offset.y offset.z⟩
  let offset₁ := order₁.zipWith Scalar.smaller order₂ - .splat unskew
  let offset₂ := order₁.zipWith Scalar.larger order₂ - .splat (2 * unskew)
  let offset₃ := .splat (1 - 3 * unskew)
  ⟨cell, cell + offset₁, cell + offset₂, cell + offset₃⟩

end Simplex

end ParticleSystem
