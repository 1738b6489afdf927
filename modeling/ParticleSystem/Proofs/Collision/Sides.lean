import ParticleSystem.Proofs.Collision.Frame
import ParticleSystem.Proofs.Geometry.Reversal

namespace ParticleSystem

namespace Plane

section Sides

variable {α : Type} [Scalar α] (plane : Plane α) (radius : α) (point : Vec3 α)

/-- The side of a plane that a point is on: one in front of the
plane and on it, minus one behind it. -/
def side : α := if plane.signedDistance point < 0 then -1 else 1

/-- Whether a point lies between the faces of the slab around a plane. -/
def Within : Prop := -radius < plane.signedDistance point ∧ plane.signedDistance point < radius

instance : Decidable (plane.Within radius point) := inferInstanceAs (Decidable (_ ∧ _))

/-- A point moved along the normal onto the face on its side. -/
def snap : Vec3 α := point - plane.normal * (plane.signedDistance point - plane.side point * radius)

end Sides

variable {K : Type} [Field K] [LinearOrder K] [FloorRing K] [Elementary K] {plane : Plane K}
  {radius : K} {point : Vec3 K}

theorem side_of_neg (behind : plane.signedDistance point < 0) : plane.side point = -1 := by
  rw [side, Scalar.ofNat_eq_zero, Scalar.ofNat_eq_one]
  exact if_pos behind

theorem side_of_nonneg (front : 0 ≤ plane.signedDistance point) : plane.side point = 1 := by
  rw [side, Scalar.ofNat_eq_zero, Scalar.ofNat_eq_one]
  exact if_neg (not_lt.mpr front)

theorem side_eq (plane : Plane K) (point : Vec3 K) : plane.side point = -1 ∨ plane.side point = 1 :=
  (lt_or_ge (plane.signedDistance point) 0).imp side_of_neg side_of_nonneg

theorem side_mul_self (plane : Plane K) (point : Vec3 K) :
    plane.side point * plane.side point = 1 := by
  rcases plane.side_eq point with behind | front
  · rw [behind, neg_mul_neg, one_mul]
  · rw [front, one_mul]

theorem signedDistance_snap (unit : plane.normal.dot plane.normal = 1) (radius : K)
    (point : Vec3 K) :
    plane.signedDistance (plane.snap radius point) = plane.side point * radius := by
  rw [snap, signedDistance_shift _ unit, sub_sub_cancel]

variable [IsStrictOrderedRing K]

theorem le_of_not_within (thick : 0 ≤ radius) (outside : ¬plane.Within radius point) :
    radius ≤ plane.side point * plane.signedDistance point := by
  rcases lt_or_ge (plane.signedDistance point) 0 with behind | front
  · rw [side_of_neg behind, neg_one_mul, le_neg]
    exact not_lt.mp fun above => outside ⟨above, behind.trans_le thick⟩
  · rw [side_of_nonneg front, one_mul]
    exact not_lt.mp fun below => outside ⟨by linarith, below⟩

end Plane

section Encounter

variable {K : Type} [Field K] [LinearOrder K] [FloorRing K] [Elementary K] [IsStrictOrderedRing K]
  {plane : Plane K} {radius : K} {position : Vec3 K}

/-- Between the faces a particle is put on the one on its side, which it leaves or meets. -/
theorem Encounter.of_within (within : plane.Within radius position) (velocity : Vec3 K) (dt : K) :
    Encounter.of plane radius position velocity dt =
      if 0 < plane.side position * velocity.dot plane.normal
        then .leaving (plane.snap radius position)
      else .contact (plane.snap radius position) 0 := by
  obtain ⟨above, below⟩ := within
  unfold Encounter.of Plane.snap
  simp only [not_le.mpr above, not_le.mpr below, if_false, Scalar.ofNat_eq_zero]
  rcases lt_or_ge (plane.signedDistance position) 0 with behind | front
  · simp only [Plane.side_of_neg behind, behind, if_true, neg_one_mul, sub_neg_eq_add, neg_pos]
  · simp only [Plane.side_of_nonneg front, not_lt.mpr front, if_false, one_mul]

theorem Encounter.of_not_within (thick : 0 ≤ radius) (outside : ¬plane.Within radius position)
    (velocity : Vec3 K) (dt : K) :
    Encounter.of plane radius position velocity dt =
      if radius ≤ plane.side position * plane.signedDistance (position + velocity * dt) then .clear
      else .contact position (plane.signedDistance position - plane.side position * radius) := by
  have beyond := Plane.le_of_not_within thick outside
  unfold Encounter.of
  rcases lt_or_ge (plane.signedDistance position) 0 with behind | front
  · have apart : ¬radius ≤ plane.signedDistance position := not_le.mpr (behind.trans_le thick)
    rw [Plane.side_of_neg behind, neg_one_mul, le_neg] at beyond
    simp only [Plane.side_of_neg behind, apart, beyond, if_true, if_false, neg_one_mul,
      sub_neg_eq_add, le_neg]
  · rw [Plane.side_of_nonneg front, one_mul] at beyond
    simp only [Plane.side_of_nonneg front, beyond, if_true, one_mul]

end Encounter

section Reversed

/-- What the same plane means for a particle when it faces the other way. -/
def Encounter.reversed {α : Type} [Scalar α] : Encounter α → Encounter α
  | .contact position distance => .contact position (-distance)
  | other => other

variable {K : Type} [Field K] [LinearOrder K] [FloorRing K] [Elementary K]
  {context : UpdateContext K} {particle : Particle K} {plane : Plane K} {radius : K}
  {point : Vec3 K}

namespace Collision

private theorem timeToFace_neg (distance speed : K) :
    timeToFace (-distance) (-speed) = timeToFace distance speed := by
  have size : Scalar.abs (-speed) = Scalar.abs speed := abs_neg speed
  rw [timeToFace, timeToFace, size, neg_div_neg_eq]

private theorem respond_reversed {bounce : Bounce K} (exact : bounce.jitter ≤ Scalar.epsilon)
    (normal : Vec3 K) (met : Encounter K) :
    respond bounce context (-normal) particle met.reversed =
      respond bounce context normal particle met := by
  cases met with
  | clear => rfl
  | leaving position => rfl
  | contact position distance =>
    simp only [respond, Encounter.reversed, exact, if_true, Bounce.reflect, Vec3.reflect_neg,
      Vec3.dot_neg, timeToFace_neg, mul_neg, Vec3.neg_scale_neg]

theorem localPlane_reversed (context : UpdateContext K) (particle : Particle K) (plane : Plane K) :
    localPlane context particle plane.reversed =
      (localPlane context particle plane).map Plane.reversed := by
  rw [localPlane, localPlane, Plane.normalized_reversed, Plane.transformed_reversed]
  split <;> rfl

end Collision

variable [IsStrictOrderedRing K]

namespace Plane

theorem within_reversed : plane.reversed.Within radius point ↔ plane.Within radius point := by
  rw [Within, Within, signedDistance_reversed, neg_lt_neg_iff, neg_lt, and_comm]

theorem side_reversed (off : plane.signedDistance point ≠ 0) :
    plane.reversed.side point = -plane.side point := by
  have opposite := signedDistance_reversed plane point
  rcases lt_or_gt_of_ne off with behind | front
  · rw [side_of_neg behind, side_of_nonneg (by linarith), neg_neg]
  · rw [side_of_nonneg front.le, side_of_neg (by linarith)]

private theorem snap_reversed (off : plane.signedDistance point ≠ 0) :
    plane.reversed.snap radius point = plane.snap radius point := by
  rw [snap, snap, signedDistance_reversed, side_reversed off, neg_mul, ← neg_sub', reversed,
    Vec3.neg_scale_neg]

end Plane

private theorem Encounter.of_reversed (thick : 0 ≤ radius) (off : plane.signedDistance point ≠ 0)
    (velocity : Vec3 K) (dt : K) :
    Encounter.of plane.reversed radius point velocity dt =
      (Encounter.of plane radius point velocity dt).reversed := by
  by_cases within : plane.Within radius point
  · rw [of_within (Plane.within_reversed.mpr within), of_within within, Plane.side_reversed off,
      Plane.snap_reversed off, Plane.reversed, Vec3.dot_neg, neg_mul_neg]
    split
    · rfl
    · rw [reversed, neg_zero]
  · rw [of_not_within thick (Plane.within_reversed.not.mpr within), of_not_within thick within,
      Plane.side_reversed off, Plane.signedDistance_reversed, Plane.signedDistance_reversed,
      neg_mul_neg, neg_mul, ← neg_sub']
    split <;> rfl

namespace Collision

theorem collideWith_reversed {bounce : Bounce K} (exact : bounce.jitter ≤ Scalar.epsilon)
    (thick : 0 ≤ radius)
    (off : ∀ facing, localPlane context particle plane = some facing →
      facing.signedDistance particle.position ≠ 0) :
    collideWith bounce context radius particle plane.reversed =
      collideWith bounce context radius particle plane := by
  have turned := localPlane_reversed context particle plane
  cases seen : localPlane context particle plane with
  | none =>
    rw [seen] at turned
    rw [collideWith, encounter, turned, collideWith, encounter, seen]
    rfl
  | some facing =>
    rw [seen] at turned
    rw [collideWith_of_seen turned, collideWith_of_seen seen,
      Encounter.of_reversed thick (off facing seen)]
    exact respond_reversed exact facing.normal _

/-- Which way the normal of the plane points makes no difference to what an exact bounce does,
unless the particle is on the plane itself. -/
theorem execute_reversed {m : Collision K} (single : m.useTwoPlanes = false)
    (exact : m.bounce.jitter ≤ Scalar.epsilon)
    (thick : 0 ≤ m.radius.compute particle context)
    (off : ∀ facing, localPlane context particle m.plane₁ = some facing →
      facing.signedDistance particle.position ≠ 0) :
    Collision.execute { m with plane₁ := m.plane₁.reversed } context particle =
      m.execute context particle := by
  have turned : Collision.execute { m with plane₁ := m.plane₁.reversed } context particle = _ :=
    execute_of_onePlane single
  rw [turned, execute_of_onePlane single]
  exact collideWith_reversed exact thick off

/-- In a space of birth that is turned and moved a particle comes through a plane from behind, or
from in front of it when the long normal points the other way. -/
theorem execute_reversed_from_behind :
    let m : Collision ℚ :=
      { Collision.default with
        bounce := ⟨1 / 2, 0⟩, plane₁ := ⟨⟨0, 3, 4⟩, ⟨0, 0, 1⟩⟩, radius := .custom (1 / 4) }
    let context : UpdateContext ℚ := ⟨⟨0, 1⟩, .unitZ, false, .identity, 1, .one, .one⟩
    let particle : Particle ℚ :=
      { Particle.default with
        velocity := ⟨3, -1, 3⟩
        spawnTransform := ⟨⟨.unitY, -.unitX, .unitZ⟩, ⟨1, 0, -1⟩⟩ }
    let after := m.execute context particle (.ofSeed 1)
    Collision.execute { m with plane₁ := ⟨⟨0, -3, -4⟩, ⟨0, 0, 1⟩⟩ }
        context particle (.ofSeed 1) = after ∧
      after.1.collided = true := by
  intro m context particle after
  have off (facing : Plane ℚ) (seen : localPlane context particle m.plane₁ = some facing) :
      facing.signedDistance particle.position ≠ 0 := by
    have plane : localPlane context particle m.plane₁ = some ⟨⟨3 / 5, 0, 4 / 5⟩, ⟨0, 1, 2⟩⟩ := by
      decide +kernel
    obtain rfl := Option.some.inj (plane.symm.trans seen)
    decide +kernel
  have thick : 0 ≤ m.radius.compute particle context := by decide +kernel
  have same := execute_reversed rfl (by decide +kernel) thick off
  exact ⟨congrFun same (.ofSeed 1), by decide +kernel⟩

end Collision

end Reversed

end ParticleSystem
