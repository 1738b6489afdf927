import ParticleSystem.Proofs.Scalar.Addition
import ParticleSystem.Proofs.Scalar.Exact
import ParticleSystem.Proofs.Scalar.Single

namespace ParticleSystem

/-- Addition that is monotone on numbers that are not negative. -/
class MonotoneAdd (α : Type) [Scalar α] : Prop where
  zero_le_zero : (0 : α) ≤ 0
  le_trans {a b c : α} : 0 ≤ b → a ≤ b → b ≤ c → a ≤ c
  add_nonneg {a b : α} : 0 ≤ a → 0 ≤ b → 0 ≤ a + b
  add_le_add_right {a b c : α} : 0 ≤ a → a ≤ b → 0 ≤ c → a + c ≤ b + c

instance {K : Type} [Field K] [LinearOrder K] [FloorRing K] [Elementary K] [IsStrictOrderedRing K] :
    MonotoneAdd K where
  zero_le_zero := le_rfl
  le_trans := fun _ => le_trans
  add_nonneg := by
    intro a b left right
    rw [Scalar.ofNat_eq_zero] at *
    exact add_nonneg left right
  add_le_add_right := fun _ below _ => by exact add_le_add_left below _

namespace Single

open Rounding

variable {x y z : Float32}

theorem unpack_add : unpack (x + y) = stored (unpack x) (unpack y) := rfl

theorem standard_of_nonneg (nonneg : 0 ≤ x) : Standard (unpack x) := by
  rw [le_iff, unpack_zero] at nonneg
  exact standard_unpack nonneg

theorem nonneg_of_standard (standard : Standard (unpack x)) : 0 ≤ x := by
  rw [le_iff, unpack_zero]
  exact (@le_iff_bits (.zero .positive) _ trivial standard).mpr (Nat.zero_le _)

theorem le_trans (nonneg : 0 ≤ y) (first : x ≤ y) (second : y ≤ z) : x ≤ z := by
  have middle := standard_of_nonneg nonneg
  have last : Standard (unpack z) := standard_unpack (nonneg_of_le middle (le_iff.mp second))
  by_cases positive : 0 ≤ x
  · have own := standard_of_nonneg positive
    rw [le_iff, le_iff_bits own middle] at first
    rw [le_iff, le_iff_bits middle last] at second
    exact le_iff.mpr ((le_iff_bits own last).mpr (first.trans second))
  · rw [le_iff, unpack_zero] at positive
    exact le_iff.mpr (le_of_negative positive (le_iff.mp first) last)

theorem add_le_add_right (left : 0 ≤ x) (below : x ≤ y) (right : 0 ≤ z) : x + z ≤ y + z := by
  have lower := standard_of_nonneg left
  have upper := standard_of_nonneg (le_trans left left below)
  have other := standard_of_nonneg right
  rw [le_iff, le_iff_bits lower upper] at below
  rw [le_iff, unpack_add, unpack_add,
    le_iff_bits (standard_stored lower other) (standard_stored upper other)]
  exact bits_stored_mono lower upper other below

instance : MonotoneAdd Float32 where
  zero_le_zero := nonneg_of_standard (x := 0) trivial
  le_trans := le_trans
  add_nonneg left right :=
    nonneg_of_standard (standard_stored (standard_of_nonneg left) (standard_of_nonneg right))
  add_le_add_right := add_le_add_right

end Single

end ParticleSystem
