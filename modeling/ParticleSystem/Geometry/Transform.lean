import ParticleSystem.Geometry.Vector

namespace ParticleSystem

/-- A linear map, by the images of the three axes. -/
structure Basis (α : Type) where
  x : Vec3 α
  y : Vec3 α
  z : Vec3 α
  deriving BEq, DecidableEq, Repr

/-- A linear map followed by a translation. -/
structure Affine (α : Type) where
  linear : Basis α
  translation : Vec3 α
  deriving BEq, DecidableEq, Repr

structure Quaternion (α : Type) where
  vector : Vec3 α
  scalar : α

namespace Basis

variable {α : Type} [Scalar α]

def identity : Basis α := ⟨.unitX, .unitY, .unitZ⟩

/-- The image of a vector: the columns weighted by its components, added from the left. -/
@[inline] def apply (m : Basis α) (v : Vec3 α) : Vec3 α := (m.x * v.x + m.y * v.y) + m.z * v.z

/-- The inverse map: its rows are the cross products of the columns over the determinant. -/
def inverse (m : Basis α) : Basis α :=
  let r := Scalar.recip (m.z.dot (m.x.cross m.y))
  let a := m.y.cross m.z * r
  let b := m.z.cross m.x * r
  let c := m.x.cross m.y * r
  ⟨⟨a.x, b.x, c.x⟩, ⟨a.y, b.y, c.y⟩, ⟨a.z, b.z, c.z⟩⟩

end Basis

namespace Affine

variable {α : Type} [Scalar α]

def identity : Affine α := ⟨.identity, .zero⟩

def ofTranslation (v : Vec3 α) : Affine α := ⟨.identity, v⟩

/-- The image of a direction, which a translation does not move. -/
@[inline] def applyVector (m : Affine α) (v : Vec3 α) : Vec3 α := m.linear.apply v

@[inline] def applyPoint (m : Affine α) (p : Vec3 α) : Vec3 α := m.linear.apply p + m.translation

def inverse (m : Affine α) : Affine α :=
  let linear := m.linear.inverse
  ⟨linear, -(linear.apply m.translation)⟩

end Affine

namespace Quaternion

variable {α : Type} [Scalar α]

/-- The rotation by `angle` about a unit `axis`. -/
def ofAxisAngle (axis : Vec3 α) (angle : α) : Quaternion α :=
  let half := angle * 0.5
  ⟨axis * Scalar.sin half, Scalar.cos half⟩

def rotate (q : Quaternion α) (v : Vec3 α) : Vec3 α :=
  let b := q.vector
  let w := q.scalar
  (v * (w * w - b.dot b) + b * (v.dot b * 2)) + b.cross v * (w * 2)

end Quaternion

end ParticleSystem
