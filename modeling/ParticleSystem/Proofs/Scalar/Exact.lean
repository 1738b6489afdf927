import ParticleSystem.Scalar.Basic
import Mathlib

/-!
Arithmetic that does not round. Every ordered field with a floor is a `Scalar` once it is said what
stands for π and for the functions that lead out of the field. What the kernels do over all such
fields they do over the reals and over the rationals, where it can be computed.
-/

namespace ParticleSystem

/-- What a field takes for π and for the elementary functions. Roots of squares are right. -/
class Elementary (K : Type) [Mul K] [LE K] [Zero K] where
  pi : K
  sqrt : K → K
  sin : K → K
  cos : K → K
  atan2 (y x : K) : K
  sqrt_mul_self {x : K} : 0 ≤ x → sqrt (x * x) = x

/-- The functions of the reals. -/
noncomputable instance : Elementary ℝ where
  pi := Real.pi
  sqrt := Real.sqrt
  sin := Real.sin
  cos := Real.cos
  atan2 y x := Complex.arg ⟨x, y⟩
  sqrt_mul_self := Real.sqrt_mul_self

/-- Roots of rational squares; the angles are stand-ins. -/
instance : Elementary ℚ where
  pi := 22 / 7
  sqrt := Rat.sqrt
  sin x := x
  cos _ := 1
  atan2 y _ := y
  sqrt_mul_self := by
    intro x nonneg
    rw [Rat.sqrt_eq, abs_of_nonneg nonneg]

namespace Scalar

variable {K : Type} [Field K] [LinearOrder K] [FloorRing K] [Elementary K]

instance ofField : Scalar K where
  decideLE := inferInstance
  decideLT := inferInstance
  toBEq := ⟨fun a b => decide (a = b)⟩
  ofNat n := n
  ofScientific mantissa negative exponent :=
    if negative then mantissa / 10 ^ exponent else mantissa * 10 ^ exponent
  pi := Elementary.pi
  sqrt := Elementary.sqrt
  abs x := |x|
  sin := Elementary.sin
  cos := Elementary.cos
  atan2 := Elementary.atan2
  floor x := ⌊x⌋
  truncate x := if 0 ≤ x then ⌊x⌋ else ⌈x⌉
  isFinite _ := true

instance : @LawfulBEq K instBEq where
  eq_of_beq := of_decide_eq_true
  rfl := decide_eq_true rfl

@[simp] theorem ofNat_eq_zero : @OfNat.ofNat K 0 (instOfNat 0) = (0 : K) := Nat.cast_zero

@[simp] theorem ofNat_eq_one : @OfNat.ofNat K 1 (instOfNat 1) = (1 : K) := Nat.cast_one

@[simp] theorem ofNat_eq_ofNat (n : Nat) [n.AtLeastTwo] :
    @OfNat.ofNat K n (instOfNat n) = (OfNat.ofNat n : K) := rfl

theorem larger_eq_max (a b : K) : larger a b = max a b := by
  unfold larger
  split
  · rename_i above
    exact (max_eq_left (le_of_lt above)).symm
  · rename_i above
    exact (max_eq_right (not_lt.mp above)).symm

theorem smaller_eq_min (a b : K) : smaller a b = min a b := by
  unfold smaller
  split
  · rename_i below
    exact (min_eq_left (le_of_lt below)).symm
  · rename_i below
    exact (min_eq_right (not_lt.mp below)).symm

theorem sqrt_one : (sqrt 1 : K) = 1 := by
  have root := Elementary.sqrt_mul_self (zero_le_one' K)
  rwa [mul_one] at root

theorem vectorEpsilon_eq : (vectorEpsilon : K) = 1 / 10 ^ 6 := by
  change ((1 : Nat) : K) / 10 ^ 6 = 1 / 10 ^ 6
  rw [Nat.cast_one]

theorem almostOne_eq : (almostOne : K) = 999 / 10 ^ 3 := by
  change ((999 : Nat) : K) / 10 ^ 3 = 999 / 10 ^ 3
  rw [Nat.cast_ofNat]

variable [IsStrictOrderedRing K]

theorem epsilon_pos : (0 : K) < epsilon := by
  simp only [epsilon, ofNat_eq_one, ofNat_eq_ofNat]
  positivity

end Scalar

end ParticleSystem
