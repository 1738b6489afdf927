/-!
The numbers that particles are made of. Every kernel is written once over
`Scalar`, which names the operations and asks for no laws: single precision rounds
after each of them, an exact field does not.
-/

namespace ParticleSystem

/-- A number type with the arithmetic, comparisons and elementary functions of the kernels. -/
class Scalar (α : Type) where
  [toAdd : Add α]
  [toSub : Sub α]
  [toMul : Mul α]
  [toDiv : Div α]
  [toNeg : Neg α]
  [toLE : LE α]
  [toLT : LT α]
  [toBEq : BEq α]
  decideLE : DecidableLE α
  decideLT : DecidableLT α
  /-- The number nearest to a natural number. -/
  ofNat : Nat → α
  /-- The number nearest to `mantissa * 10 ^ ±exponent`, negative when the flag is set. -/
  ofScientific (mantissa : Nat) (negative : Bool) (exponent : Nat) : α
  pi : α
  sqrt : α → α
  abs : α → α
  sin : α → α
  cos : α → α
  /-- The angle of the point whose height comes first. -/
  atan2 (y x : α) : α
  floor : α → α
  /-- The whole part, rounded toward zero; zero for what is not a number. -/
  truncate : α → Int
  isFinite : α → Bool

namespace Scalar

variable {α : Type} [Scalar α]

-- The operations that a type has of its own come first.
instance (priority := low) instAdd : Add α := Scalar.toAdd
instance (priority := low) instSub : Sub α := Scalar.toSub
instance (priority := low) instMul : Mul α := Scalar.toMul
instance (priority := low) instDiv : Div α := Scalar.toDiv
instance (priority := low) instNeg : Neg α := Scalar.toNeg
instance (priority := low) instLE : LE α := Scalar.toLE
instance (priority := low) instLT : LT α := Scalar.toLT
instance (priority := low) instBEq : BEq α := Scalar.toBEq
instance (priority := low) instDecidableLE : DecidableLE α := Scalar.decideLE
instance (priority := low) instDecidableLT : DecidableLT α := Scalar.decideLT
instance (priority := 50) instOfNat (n : Nat) : OfNat α n := ⟨Scalar.ofNat n⟩
instance (priority := low) instOfScientific : OfScientific α := ⟨Scalar.ofScientific⟩
instance (priority := low) instInhabited : Inhabited α := ⟨Scalar.ofNat 0⟩

@[inline] def tau : α := 2 * pi

/-- The spacing of single precision numbers just above one. -/
@[inline] def epsilon : α := 1 / 8388608

/-- Below this length along every axis a vector counts as zero. -/
@[inline] def vectorEpsilon : α := 0.000001

/-- A cosine beyond this counts as parallel. -/
@[inline] def almostOne : α := 0.999

/-- How far apart two axes may be, along each component, and still count as the same. -/
@[inline] def axisTolerance : α := 0.001

@[inline] def recip (x : α) : α := 1 / x

@[inline] def radians (degrees : α) : α := degrees * (pi / 180)

/-- The larger operand, the second when they do not compare. -/
@[inline] def larger (a b : α) : α := if b < a then a else b

/-- The smaller operand, the second when they do not compare. -/
@[inline] def smaller (a b : α) : α := if a < b then a else b

/-- Moves a number into an interval and leaves alone what does not compare. -/
@[inline] def clamp (low high x : α) : α :=
  let x := if x < low then low else x
  if high < x then high else x

end Scalar

end ParticleSystem
