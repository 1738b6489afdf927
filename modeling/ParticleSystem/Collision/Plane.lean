import ParticleSystem.Geometry.Transform

namespace ParticleSystem

/-- An infinite plane, oriented by its normal. -/
structure Plane (α : Type) where
  normal : Vec3 α
  position : Vec3 α
  deriving BEq, DecidableEq, Repr

namespace Plane

variable {α : Type} [Scalar α]

/-- The ground. -/
def default : Plane α := ⟨.unitZ, .zero⟩

/-- The same plane with a unit normal, unless its normal is near zero. -/
def normalized (p : Plane α) : Option (Plane α) :=
  if p.normal.nearZero then none else some { p with normal := p.normal.normalize }

/-- The plane through the images of the normal and of the position. -/
def transformed (p : Plane α) (map : Affine α) : Option (Plane α) :=
  normalized ⟨map.applyVector p.normal, map.applyPoint p.position⟩

/-- How far a point lies in front of the plane, in units of the normal. -/
def signedDistance (p : Plane α) (point : Vec3 α) : α := p.normal.dot (point - p.position)

end Plane

end ParticleSystem
