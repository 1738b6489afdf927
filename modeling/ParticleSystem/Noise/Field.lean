import ParticleSystem.Noise.Lattice
import ParticleSystem.Noise.Hash

/-!
Three channels of simplex noise with their analytic gradients. Each corner of the tetrahedron around
a point contributes its hash gradient along the offset, weighted by a falloff of the distance.
-/

namespace ParticleSystem.Noise

variable {α : Type} [Scalar α]

/-- Brings the sum of the weighted contributions to about one. -/
@[inline] def smoothScale : α := 1024 / 375

/-- Twice the squared distance from each corner, held between zero and one. -/
def falloffInput (offsets : Simplex (Vec3 α)) : Vec4 α :=
  (offsets.map Vec3.lengthSquared).lanes.map fun d => Scalar.smaller (Scalar.larger (2 * d) 0) 1

/-- The weight of each corner: scale · (1 − s)³. -/
def smooth (offsets : Simplex (Vec3 α)) : Vec4 α :=
  (falloffInput offsets).map fun s => smoothScale * (1 + s * (-3 + s * (3 - s)))

/-- The derivative of the weights: one row for each axis, one lane for each corner. -/
def smoothGradient (offsets : Simplex (Vec3 α)) : Vec3 (Vec4 α) :=
  let s := (falloffInput offsets).map fun s => smoothScale * (-12 + s * (24 - 12 * s))
  ⟨s * (offsets.map Vec3.x).lanes, s * (offsets.map Vec3.y).lanes, s * (offsets.map Vec3.z).lanes⟩

/-- One bit of a hash word as a gradient component: one when the bit is set, minus one when not. -/
@[inline] def gradientComponent (w mask : UInt32) (scale : α) : α :=
  Scalar.ofNat (w &&& mask).toNat * scale - 1

/-- The gradient that three hash words choose among the corners of a cube. -/
def gradient (words : Vec3 UInt32) : Vec3 α :=
  ⟨gradientComponent words.x 0x8000 (1 / 16384), gradientComponent words.y 0x4000 (1 / 8192),
    gradientComponent words.z 0x2000 (1 / 4096)⟩

/-- The hash words of a corner. Lattice points are sixths of integers. -/
def cornerWords (corner : Vec3 α) : Vec3 UInt32 :=
  LatticeHash.ofPoint (corner * (6 : α) + .splat 0.5)

/-- Turns the words by one place, which gives the next channel. -/
@[inline] def nextChannel (words : Vec3 UInt32) : Vec3 UInt32 := ⟨words.y, words.z, words.x⟩

/-- One channel: its gradient in the first three components, its value in the last. -/
def channel (offsets gradients : Simplex (Vec3 α)) : Vec4 α :=
  let slopes := (gradients.zipWith Vec3.dot offsets).lanes
  let weights := smooth offsets
  let rows := smoothGradient offsets
  let weighted := (((Vec3.zero + gradients.origin * weights.x) + gradients.second * weights.y)
    + gradients.third * weights.z) + gradients.opposite * weights.w
  (weighted + ⟨rows.x.dot slopes, rows.y.dot slopes, rows.z.dot slopes⟩).extend (weights.dot slopes)

def jacobian (input : Vec3 α) : Vec3 (Vec4 α) :=
  let corners := Simplex.corners input
  let offsets := corners.map (input - ·)
  let words := corners.map cornerWords
  ⟨channel offsets (words.map gradient),
    channel offsets (words.map fun w => gradient (nextChannel w)),
    channel offsets (words.map fun w => gradient (nextChannel (nextChannel w)))⟩

end ParticleSystem.Noise
