import ParticleSystem.Scalar.Basic

namespace ParticleSystem

structure Vec3 (α : Type) where
  x : α
  y : α
  z : α
  deriving BEq, DecidableEq, Repr

structure Vec4 (α : Type) where
  x : α
  y : α
  z : α
  w : α
  deriving BEq, DecidableEq, Repr

namespace Vec3

variable {α : Type}

@[inline] def map (f : α → α) (v : Vec3 α) : Vec3 α := ⟨f v.x, f v.y, f v.z⟩

@[inline] def zipWith (f : α → α → α) (v w : Vec3 α) : Vec3 α := ⟨f v.x w.x, f v.y w.y, f v.z w.z⟩

/-- One number along every axis. -/
@[inline] def splat (a : α) : Vec3 α := ⟨a, a, a⟩

def toList (v : Vec3 α) : List α := [v.x, v.y, v.z]

variable [Scalar α]

instance : Add (Vec3 α) := ⟨zipWith (· + ·)⟩
instance : Sub (Vec3 α) := ⟨zipWith (· - ·)⟩
instance : Neg (Vec3 α) := ⟨map (- ·)⟩

/-- The vector stretched by a factor, which stands second in each product. -/
@[inline] def scale (v : Vec3 α) (a : α) : Vec3 α := ⟨v.x * a, v.y * a, v.z * a⟩

instance : HMul (Vec3 α) α (Vec3 α) := ⟨scale⟩

@[inline] def divide (v : Vec3 α) (a : α) : Vec3 α := ⟨v.x / a, v.y / a, v.z / a⟩

instance : HDiv (Vec3 α) α (Vec3 α) := ⟨divide⟩

@[inline] def stretch (v w : Vec3 α) : Vec3 α := zipWith (· * ·) v w

def zero : Vec3 α := splat 0
def one : Vec3 α := splat 1
def unitX : Vec3 α := ⟨1, 0, 0⟩
def unitY : Vec3 α := ⟨0, 1, 0⟩
def unitZ : Vec3 α := ⟨0, 0, 1⟩

@[inline] def dot (v w : Vec3 α) : α := (v.x * w.x + v.y * w.y) + v.z * w.z

@[inline] def cross (v w : Vec3 α) : Vec3 α :=
  ⟨v.y * w.z - w.y * v.z, v.z * w.x - w.z * v.x, v.x * w.y - w.x * v.y⟩

@[inline] def lengthSquared (v : Vec3 α) : α := v.dot v

@[inline] def length (v : Vec3 α) : α := Scalar.sqrt (v.dot v)

/-- The vector times the reciprocal of its length. -/
@[inline] def normalize (v : Vec3 α) : Vec3 α := v * Scalar.recip v.length

/-- The unit vector along `v`, or a substitute when its length has no usable reciprocal. -/
@[inline] def normalizeOr (v fallback : Vec3 α) : Vec3 α :=
  let r := Scalar.recip v.length
  if Scalar.isFinite r ∧ 0 < r then v * r else fallback

@[inline] def maxElement (v : Vec3 α) : α := Scalar.larger v.x (Scalar.larger v.y v.z)

@[inline] def minElement (v : Vec3 α) : α := Scalar.smaller v.x (Scalar.smaller v.y v.z)

/-- Whether no component is further from zero than the vector tolerance. -/
@[inline] def nearZero (v : Vec3 α) : Bool := (v.map Scalar.abs).maxElement ≤ Scalar.vectorEpsilon

/-- Whether the components agree up to the axis tolerance. -/
@[inline] def close (v w : Vec3 α) : Bool :=
  let d := (v - w).map Scalar.abs
  d.x ≤ Scalar.axisTolerance ∧ d.y ≤ Scalar.axisTolerance ∧ d.z ≤ Scalar.axisTolerance

/-- The mirror image of `v` in the plane with unit normal `n`. -/
@[inline] def reflect (v n : Vec3 α) : Vec3 α := v - n * (2 * v.dot n)

@[inline] def extend (v : Vec3 α) (w : α) : Vec4 α := ⟨v.x, v.y, v.z, w⟩

end Vec3

namespace Vec4

variable {α : Type}

@[inline] def map (f : α → α) (v : Vec4 α) : Vec4 α := ⟨f v.x, f v.y, f v.z, f v.w⟩

@[inline] def zipWith (f : α → α → α) (v w : Vec4 α) : Vec4 α :=
  ⟨f v.x w.x, f v.y w.y, f v.z w.z, f v.w w.w⟩

@[inline] def splat (a : α) : Vec4 α := ⟨a, a, a, a⟩

def toList (v : Vec4 α) : List α := [v.x, v.y, v.z, v.w]

variable [Scalar α]

instance : Add (Vec4 α) := ⟨zipWith (· + ·)⟩
instance : Sub (Vec4 α) := ⟨zipWith (· - ·)⟩

/-- Component by component. -/
instance : Mul (Vec4 α) := ⟨zipWith (· * ·)⟩

def zero : Vec4 α := splat 0

/-- Pairs the first with the third product and the second
with the fourth before adding the pairs. -/
@[inline] def dot (v w : Vec4 α) : α := (v.x * w.x + v.z * w.z) + (v.y * w.y + v.w * w.w)

end Vec4

end ParticleSystem
