import ParticleSystem.Decimal.Numeral
import ParticleSystem.Scalar.Single

/-!
The numbers that numerals stand for. A whole number of at most 64 bits is taken exactly. Any other
numeral is read in double precision: as many leading digits as fit in 64 bits, times a power of ten;
a magnitude past the range of doubles is refused.
-/

namespace ParticleSystem.Numeral

/-- Takes digits into a significand for as long as it stays
below 2⁶⁴; returns what is left of them. -/
def absorb : Nat → List Digit → Nat × List Digit
  | significand, [] => (significand, [])
  | significand, d :: rest =>
    if significand * 10 + d < UInt64.size then absorb (significand * 10 + d) rest
      else (significand, d :: rest)

/-- The significand and the power of ten behind it. -/
def parts (n : Numeral) : Nat × Int :=
  let (significand, dropped) := absorb 0 n.whole
  let (significand, unused) := absorb significand n.fraction
  let written : Int :=
    match n.exponent with
    | none => 0
    | some e => if e.negative then -(Digit.value e.digits : Int) else Digit.value e.digits
  (significand, dropped.length - (n.fraction.length - unused.length : Nat) + written)

/-- A double times a power of ten, by at most 308 places at a time. -/
def scaleDouble? (x : Float) (power : Int) : Option Float :=
  if power.natAbs ≤ 308 then
    let unit := Float.ofScientific 1 false power.natAbs
    if 0 ≤ power then
      let scaled := x * unit
      if scaled.isInf then none else some scaled
    else some (x / unit)
  else if x == 0 then some x
  else if 0 ≤ power then none
  else scaleDouble? (x / Float.ofScientific 1 false 308) (power + 308)
  termination_by (-power).toNat
  decreasing_by omega

/-- The magnitude of a whole number written in full, if it fits in 64 bits, or in 63 and a sign. -/
def wholeMagnitude? (n : Numeral) : Option Nat :=
  let magnitude := Digit.value n.whole
  if n.isInteger ∧ magnitude < UInt64.size ∧
      (n.negative → 0 < magnitude ∧ magnitude ≤ UInt64.size / 2) then
    some magnitude
  else none

def toDouble? (n : Numeral) : Option Float := do
  let magnitude ←
    match n.wholeMagnitude? with
    | some m => some (Float.ofNat m)
    | none => scaleDouble? (Float.ofNat n.parts.1) n.parts.2
  return if n.negative then -magnitude else magnitude

/-- In single precision: a whole number of at most 64 bits is
rounded once, any other through a double. -/
def toSingle? (n : Numeral) : Option Float32 :=
  match n.wholeMagnitude? with
  | some m => some (if n.negative then -Float32.ofNat m else Float32.ofNat m)
  | none => n.toDouble?.map Single.ofDouble

/-- A number from zero up to but not including a limit, written as digits alone. -/
def toNatBelow? (limit : Nat) (n : Numeral) : Option Nat :=
  let magnitude := Digit.value n.whole
  if n.isInteger ∧ !n.negative ∧ magnitude < limit then some magnitude else none

end ParticleSystem.Numeral
