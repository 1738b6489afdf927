import ParticleSystem.Geometry.Vector

/-! An integer hash of lattice points: a linear congruential step per word, then two rounds in which
each word takes in the product of the other two. -/

namespace ParticleSystem.LatticeHash

/-- The integer a coordinate stands for, held within 32 signed bits and read as a word. -/
def word {α : Type} [Scalar α] (a : α) : UInt32 :=
  UInt32.ofInt (max (-2147483648) (min 2147483647 (Scalar.truncate a)))

/-- One step of the linear congruential generator. -/
def seed (w : UInt32) : UInt32 := w * 1664525 + 1013904223

/-- Each word in turn takes in the product of the other two. -/
def round (v : Vec3 UInt32) : Vec3 UInt32 :=
  let x := v.x + v.y * v.z
  let y := v.y + v.z * x
  let z := v.z + x * y
  ⟨x, y, z⟩

/-- Scrambles three words. -/
def mix (v : Vec3 UInt32) : Vec3 UInt32 := round (round (v.map seed))

def high (v : Vec3 UInt32) : Vec3 UInt32 := (mix v).map (· >>> 16)

/-- The hash of a point, as words of 16 bits. -/
def ofPoint {α : Type} [Scalar α] (p : Vec3 α) : Vec3 UInt32 := high ⟨word p.x, word p.y, word p.z⟩

def sample {α : Type} [Scalar α] (p : Vec3 α) : Vec3 α :=
  let h := ofPoint p
  ⟨Scalar.ofNat h.x.toNat, Scalar.ofNat h.y.toNat, Scalar.ofNat h.z.toNat⟩

end ParticleSystem.LatticeHash
