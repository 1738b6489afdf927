import ParticleSystem.Geometry.Transform

namespace ParticleSystem

variable {α : Type} [Scalar α]

/-- The rotation whose second column points along `forward`; the others are its right and up. Up
starts from the third axis, or from the second when `forward` is nearly parallel to the third. -/
def Basis.lookAt (forward : Vec3 α) : Basis α :=
  let forward := forward.normalizeOr .zero
  if forward == Vec3.zero then .identity
  else
    let reference : Vec3 α :=
      if Scalar.almostOne < Scalar.abs (forward.dot .unitZ) then .unitY else .unitZ
    let right := (forward.cross reference).normalize
    let up := (right.cross forward).normalize
    ⟨right, forward, up⟩

/-- The unit vector at polar angle `phi` from the second axis and azimuth `theta` around it. -/
def Vec3.ofAngles (theta phi : α) : Vec3 α :=
  let sinPhi := Scalar.sin phi
  let cosPhi := Scalar.cos phi
  ⟨Scalar.cos theta * sinPhi, cosPhi, Scalar.sin theta * sinPhi⟩

/-- The direction at a share `uPhi` of the half angle away from `axis`, turned around it by the
share `uTheta` of a full turn. -/
def coneDirection (axis : Vec3 α) (halfAngle uTheta uPhi : α) : Vec3 α :=
  let theta := Scalar.tau * uTheta
  let phi := halfAngle * uPhi
  (Basis.lookAt axis).apply (.ofAngles theta phi)

end ParticleSystem
