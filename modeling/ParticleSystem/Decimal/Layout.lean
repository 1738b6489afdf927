import ParticleSystem.Decimal.Shortest

namespace ParticleSystem.Decimal

/-- Which numbers are written around the point, and what is
written when nothing stands behind it. -/
structure Layout where
  /-- The decimal exponents written without a power of ten; all of them without bounds. -/
  positional : Option (Int × Int)
  /-- Whether a whole number shows a zero behind the point. -/
  pointZero : Bool
  tie : Tie

def Layout.json : Layout := ⟨some (-6, 12), true, .toEven⟩

def Layout.message : Layout := ⟨none, false, .away⟩

/-- Whether a decimal exponent is written around the point. -/
def Layout.isPositional (l : Layout) (exponent : Int) : Bool :=
  match l.positional with
  | none => true
  | some (low, high) => low ≤ exponent ∧ exponent ≤ high

/-- Digits before and behind a point that stands `places` digits from the left. -/
def splitAt (digits : List Digit) (places : Int) : List Digit × List Digit :=
  if places ≤ 0 then ([.zero], List.replicate (-places).toNat .zero ++ digits)
  else
    (digits.take places.toNat ++ List.replicate (places.toNat - digits.length) .zero,
      digits.drop places.toNat)

/-- A whole number times a power of ten as a numeral. -/
def Layout.numeral (l : Layout) (negative : Bool) (coefficient : Nat) (power : Int) : Numeral :=
  let digits := Digit.ofNat coefficient
  let exponent := power + digits.length - 1
  if l.isPositional exponent then
    let (whole, fraction) := splitAt digits (exponent + 1)
    ⟨negative, whole, if fraction.isEmpty ∧ l.pointZero then [.zero] else fraction, none⟩
  else
    ⟨negative, digits.take 1, digits.drop 1, some ⟨exponent < 0, Digit.ofNat exponent.natAbs⟩⟩

def jsonNumeral? (x : Float32) : Option Numeral :=
  match shortest Layout.json.tie x with
  | .finite negative coefficient power => some (Layout.json.numeral negative coefficient power)
  | _ => none

def messageText (x : Float32) : String :=
  match shortest Layout.message.tie x with
  | .finite negative coefficient power =>
    .ofList (Layout.message.numeral negative coefficient power).text
  | .infinite negative => if negative then "-inf" else "inf"
  | .notANumber => "NaN"

/-- The exact value rounded to a number of places behind the point, a half to the even neighbour. -/
def fixedNumeral (places : Nat) (negative : Bool) (mantissa : Nat) (exponent : Int) : Numeral :=
  let units := Bracket.nearest .toEven (mantissa * Nat.pow 10 places * Nat.pow 2 exponent.toNat)
    (Nat.pow 2 (-exponent).toNat)
  let digits := Digit.ofNat units
  let padded := List.replicate (places + 1 - digits.length) .zero ++ digits
  ⟨negative, padded.take (padded.length - places), padded.drop (padded.length - places), none⟩

def fixedText (places : Nat) (x : Float32) : String :=
  match Single.unpack x with
  | .finite sign mantissa exponent _ =>
    .ofList (fixedNumeral places (isNegative sign) mantissa exponent).text
  | .zero sign => .ofList (fixedNumeral places (isNegative sign) 0 0).text
  | .infinity sign => if isNegative sign then "-inf" else "inf"
  | .notANumber => "NaN"

end ParticleSystem.Decimal
