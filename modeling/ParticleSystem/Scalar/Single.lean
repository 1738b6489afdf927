import ParticleSystem.Scalar.Basic

/-!
Single precision as a `Scalar`. Rounding to a whole number and rounding a double are given on the
unpacked number, sign · mantissa · 2^exponent, so that they can be reasoned about.
-/

namespace ParticleSystem.Single

open Float.Model (Format UnpackedFloat)
open Float.Model.UnpackedFloat (Sign)

/-- The unpacked form of a number in which a finite one carries its full mantissa. -/
@[inline] def unpack (x : Float32) : UnpackedFloat := x.toModel.unpack

/-- The largest whole number not above `x`, with the sign of a zero kept. -/
def floor (x : Float32) : Float32 :=
  match unpack x with
  | .finite sign mantissa exponent _ =>
    if 0 ≤ exponent then x
    else
      let unit := Nat.pow 2 (-exponent).toNat
      match sign with
      | .positive => Float32.ofNat (mantissa / unit)
      | .negative => -Float32.ofNat ((mantissa + (unit - 1)) / unit)
  | _ => x

/-- The whole part of `x` toward zero. An infinite number stands beyond every 32-bit integer. -/
def truncate (x : Float32) : Int :=
  let signed (sign : Sign) (magnitude : Nat) : Int :=
    match sign with
    | .positive => magnitude
    | .negative => -magnitude
  match unpack x with
  | .finite sign mantissa exponent _ =>
    signed sign
      (if 0 ≤ exponent then mantissa * Nat.pow 2 exponent.toNat
        else mantissa / Nat.pow 2 (-exponent).toNat)
  | .infinity sign => signed sign UInt32.size
  | .zero _ => 0
  | .notANumber => 0

/-- A double rounded once, to the nearest single with ties to even. -/
def ofDouble (x : Float) : Float32 :=
  let rounded :=
    match x.toModel.unpack with
    | .finite sign mantissa exponent _ => UnpackedFloat.round Format.binary32 sign mantissa exponent
    | other => other
  .ofModel (.pack rounded)

instance : Scalar Float32 where
  decideLE := inferInstance
  decideLT := inferInstance
  ofNat := Float32.ofNat
  ofScientific := Float32.ofScientific
  pi := Float32.ofBits 0x40490fdb
  sqrt := Float32.sqrt
  abs := Float32.abs
  sin := Float32.sin
  cos := Float32.cos
  atan2 := Float32.atan2
  floor := floor
  truncate := truncate
  isFinite := Float32.isFinite

end ParticleSystem.Single
