import ParticleSystem.Decimal.Numeral
import ParticleSystem.Scalar.Single

/-!
Decimal text of single precision numbers, by exact arithmetic on whole numbers. The shortest digits
are found by testing coarser before finer decimal grids: the first grid with a point among the reals
that round to the number wins, and of two such points the nearer one.
-/

namespace ParticleSystem.Decimal

open Float.Model.UnpackedFloat (Sign)

/-- Where a point halfway between two neighbours goes. -/
inductive Tie
  | toEven
  | away
  deriving BEq, DecidableEq, Repr

/-- A positive number between the bounds of the reals that round
to it, as numerators of one fraction. -/
structure Bracket where
  low : Nat
  value : Nat
  high : Nat
  denominator : Nat
  /-- Whether the bounds themselves round to the number. -/
  closed : Bool

namespace Bracket

/-- The bracket of a mantissa with `bits` bits at most. The gap below a power of two is half as wide
as the gap above, unless it is the smallest one. -/
def of (bits : Nat) (minExponent : Int) (mantissa : Nat) (exponent : Int) : Bracket :=
  let narrow := mantissa = Nat.pow 2 (bits - 1) ∧ minExponent < exponent
  let up := Nat.pow 2 exponent.toNat
  { low := (4 * mantissa - if narrow then 1 else 2) * up
    value := 4 * mantissa * up
    high := (4 * mantissa + 2) * up
    denominator := 4 * Nat.pow 2 (-exponent).toNat
    closed := mantissa % 2 = 0 }

/-- The same numbers measured in units of a power of ten. -/
def inUnits (b : Bracket) (power : Int) : Bracket :=
  let up := Nat.pow 10 (-power).toNat
  { b with
    low := b.low * up
    value := b.value * up
    high := b.high * up
    denominator := b.denominator * Nat.pow 10 power.toNat }

/-- Whether a whole number of units rounds to the number. -/
def holds (b : Bracket) (n : Nat) : Bool :=
  if b.closed then b.low ≤ n * b.denominator ∧ n * b.denominator ≤ b.high
  else b.low < n * b.denominator ∧ n * b.denominator < b.high

/-- The neighbour of a value to take when both will do. -/
def nearest (tie : Tie) (value denominator : Nat) : Nat :=
  let floor := value / denominator
  let twice := 2 * (value % denominator)
  if twice < denominator then floor
  else if denominator < twice then floor + 1
  else
    match tie with
    | .toEven => floor + floor % 2
    | .away => floor + 1

/-- The whole number of units nearest to the value, of those that round to the number. -/
def onGrid? (tie : Tie) (b : Bracket) : Option Nat :=
  let floor := b.value / b.denominator
  match b.holds floor, b.holds (floor + 1) with
  | true, true => some (nearest tie b.value b.denominator)
  | true, false => some floor
  | false, true => some (floor + 1)
  | false, false => none

/-- Tries the grid of a power of ten, then finer ones. -/
def shortest (tie : Tie) (b : Bracket) : (grids : Nat) → (power : Int) → Nat × Int
  | 0, power => (0, power)
  | grids + 1, power =>
    match onGrid? tie (b.inUnits power) with
    | some coefficient => (coefficient, power)
    | none => shortest tie b grids (power - 1)

end Bracket

/-- What a number is, with the shortest digits of a finite one
as a whole number times a power of ten. -/
inductive Shape
  | finite (negative : Bool) (coefficient : Nat) (power : Int)
  | infinite (negative : Bool)
  | notANumber
  deriving BEq, DecidableEq, Repr

def isNegative : Sign → Bool
  | .negative => true
  | .positive => false

/-- The shortest digits that read back as the same number. Every finite single lies below 10³⁹, and
a unit of 10⁻⁴⁶ is smaller than the gap between any two. -/
def shortest (tie : Tie) (x : Float32) : Shape :=
  match Single.unpack x with
  | .finite sign mantissa exponent _ =>
    let (coefficient, power) := (Bracket.of 24 (-149) mantissa exponent).shortest tie 86 39
    .finite (isNegative sign) coefficient power
  | .zero sign => .finite (isNegative sign) 0 0
  | .infinity sign => .infinite (isNegative sign)
  | .notANumber => .notANumber

end ParticleSystem.Decimal
