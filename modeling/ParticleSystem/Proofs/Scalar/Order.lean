import ParticleSystem.Proofs.Scalar.Value

/-!
The order of singles. Those that are numbers stand for rationals or lie beyond all of them on one
side, and compare as what they stand for; so they are in a linear order but for the two zeros.
-/

namespace ParticleSystem.Rounding

open Float.Model (Format UnpackedFloat)

/-- What a number stands for among the rationals and the two ends beyond them. -/
def level : UnpackedFloat → WithBot (WithTop ℚ)
  | .infinity .positive => ⊤
  | .infinity .negative => ⊥
  | x => ((value x : WithTop ℚ) : WithBot (WithTop ℚ))

variable {x y : UnpackedFloat}

theorem level_of_shaped (shaped : Shaped x) :
    level x = ((value x : WithTop ℚ) : WithBot (WithTop ℚ)) := by
  cases x with
  | notANumber => cases shaped
  | infinity s => cases shaped
  | _ => rfl

private theorem level_bounds (shaped : Shaped x) : ⊥ < level x ∧ level x < ⊤ := by
  rw [level_of_shaped shaped]
  exact ⟨WithBot.bot_lt_coe _, WithBot.coe_lt_coe.mpr (WithTop.coe_lt_top _)⟩

/-- An infinite number compares with the others as the end where it lies. -/
theorem compare_infinity (shaped : Shaped y) (s : UnpackedFloat.Sign) :
    (UnpackedFloat.infinity s).compare y = some (compare (level (.infinity s)) (level y)) := by
  obtain ⟨above, below⟩ := level_bounds shaped
  cases s with
  | positive =>
    have answered : (UnpackedFloat.infinity .positive).compare y = some .gt := by
      cases y with
      | notANumber => cases shaped
      | infinity t => cases shaped
      | _ => rfl
    rw [answered]
    exact congrArg some (compare_gt_iff_gt.mpr below).symm
  | negative =>
    have answered : (UnpackedFloat.infinity .negative).compare y = some .lt := by
      cases y with
      | notANumber => cases shaped
      | infinity t => cases shaped
      | _ => rfl
    rw [answered]
    exact congrArg some (compare_lt_iff_lt.mpr above).symm

theorem compare_eq_level (left : Shaped x ∨ ∃ s, x = .infinity s)
    (right : Shaped y ∨ ∃ s, y = .infinity s) :
    x.compare y = some (compare (level x) (level y)) := by
  rcases left with left | ⟨s, rfl⟩
  · rcases right with right | ⟨t, rfl⟩
    · rw [compare_eq_value left right, level_of_shaped left, level_of_shaped right]
      congr 1
      rcases lt_trichotomy (value x) (value y) with less | same | more
      · rw [compare_lt_iff_lt.mpr less, compare_lt_iff_lt.mpr (by exact_mod_cast less)]
      · rw [compare_eq_iff_eq.mpr same, compare_eq_iff_eq.mpr (by rw [same])]
      · rw [compare_gt_iff_gt.mpr more, compare_gt_iff_gt.mpr (by exact_mod_cast more)]
    · rw [compare_swap, compare_infinity left t, Option.map_some, ← Std.OrientedOrd.eq_swap]
  · rcases right with right | ⟨t, rfl⟩
    · exact compare_infinity right s
    · cases s <;> cases t <;> rfl

end ParticleSystem.Rounding

namespace ParticleSystem.Single

open Float.Model (UnpackedFloat)
open Rounding (Shaped compare_eq_level level)

/-- The single above all others that are numbers. -/
def infinity : Float32 := .ofBits 0x7f800000

theorem unpack_infinity : unpack infinity = .infinity .positive := by rfl

theorem isNaN_infinity : infinity.isNaN = false := by rfl

section Order

variable {x y z : Float32}

theorem shaped_or_infinite (number : x.isNaN = false) :
    Shaped (unpack x) ∨ ∃ s, unpack x = .infinity s := by
  cases finite : x.isFinite with
  | true => exact .inl (shaped finite)
  | false =>
    have own : (unpack x).isFinite = false := finite
    have none : (unpack x).isNaN = false := number
    cases found : unpack x with
    | infinity s => exact .inr ⟨s, rfl⟩
    | notANumber =>
      rw [found] at none
      cases none
    | _ =>
      rw [found] at own
      cases own

section Numbers

variable (left : x.isNaN = false) (right : y.isNaN = false)

include left right

theorem le_iff_level : x ≤ y ↔ level (unpack x) ≤ level (unpack y) := by
  rw [le_iff, UnpackedFloat.le,
    compare_eq_level (shaped_or_infinite left) (shaped_or_infinite right), Option.any_some]
  exact Ordering.ne_gt_iff_isLE.symm.trans compare_le_iff_le

theorem lt_iff_level : x < y ↔ level (unpack x) < level (unpack y) := by
  rw [lt_iff, compare_eq_level (shaped_or_infinite left) (shaped_or_infinite right),
    Option.some_inj, compare_lt_iff_lt]

theorem not_lt_iff_le : ¬x < y ↔ y ≤ x := by
  rw [lt_iff_level left right, le_iff_level right left, not_lt]

end Numbers

theorem le_refl (number : x.isNaN = false) : x ≤ x := (le_iff_level number number).mpr le_rfl

theorem lt_of_lt_of_le (first : x < y) (second : y ≤ z) : x < z := by
  obtain ⟨left, middle⟩ := isNaN_of_lt first
  have right := (isNaN_of_le second).2
  rw [lt_iff_level left middle] at first
  rw [le_iff_level middle right] at second
  exact (lt_iff_level left right).mpr (first.trans_le second)

end Order

end ParticleSystem.Single
