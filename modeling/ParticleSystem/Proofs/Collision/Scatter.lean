import ParticleSystem.Proofs.Collision.Landing
import ParticleSystem.Proofs.Geometry.Cone

/-!
A bounce off a jittered normal, over the reals. Whether it leads away from the plane is a matter of
the angle between the way in and the plane: a grazing particle is turned into the plane by normals
that a steep one only glances off.
-/

namespace ParticleSystem

open Real

/-- The part of a vector across an axis, along the direction
turned by a share of a full turn around it. -/
noncomputable def Vec3.across (v axis : Vec3 ℝ) (uTheta : ℝ) : ℝ :=
  v.dot (Basis.lookAt axis).x * cos (2 * π * uTheta) +
    v.dot (Basis.lookAt axis).z * sin (2 * π * uTheta)

section Across

variable {axis : Vec3 ℝ}

theorem Vec3.dot_self_eq (unit : axis.dot axis = 1) (v : Vec3 ℝ) :
    v.dot (Basis.lookAt axis).x ^ 2 + v.dot axis ^ 2 + v.dot (Basis.lookAt axis).z ^ 2 =
      v.dot v := by
  have parts := (Basis.lookAt_orthonormal unit).parseval v
  rwa [Basis.lookAt_y unit] at parts

theorem Vec3.across_sq_le (unit : axis.dot axis = 1) (v : Vec3 ℝ) (uTheta : ℝ) :
    v.across axis uTheta ^ 2 ≤ v.dot v - v.dot axis ^ 2 := by
  have turn := sin_sq_add_cos_sq (2 * π * uTheta)
  have away := sq_nonneg (v.dot (Basis.lookAt axis).x * sin (2 * π * uTheta) -
    v.dot (Basis.lookAt axis).z * cos (2 * π * uTheta))
  have whole : v.across axis uTheta ^ 2 +
      (v.dot (Basis.lookAt axis).x * sin (2 * π * uTheta) -
        v.dot (Basis.lookAt axis).z * cos (2 * π * uTheta)) ^ 2 = v.dot v - v.dot axis ^ 2 := by
    rw [← dot_self_eq unit v, across]
    linear_combination (v.dot (Basis.lookAt axis).x ^ 2 + v.dot (Basis.lookAt axis).z ^ 2) * turn
  linarith

private theorem Vec3.exists_across_eq (unit : axis.dot axis = 1) (v : Vec3 ℝ) :
    ∃ uTheta ∈ Set.Ico (0 : ℝ) 1, v.across axis uTheta = √(v.dot v - v.dot axis ^ 2) := by
  let flat : ℂ := ⟨v.dot (Basis.lookAt axis).x, v.dot (Basis.lookAt axis).z⟩
  have length : ‖flat‖ = √(v.dot v - v.dot axis ^ 2) := by
    rw [Complex.norm_eq_sqrt_sq_add_sq, ← dot_self_eq unit v]
    congr 1
    ring
  have turns : 2 * π * Int.fract (flat.arg / (2 * π)) =
      flat.arg - ⌊flat.arg / (2 * π)⌋ * (2 * π) := by
    rw [Int.fract]
    field_simp
  refine ⟨Int.fract (flat.arg / (2 * π)), ⟨Int.fract_nonneg _, Int.fract_lt_one _⟩, ?_⟩
  have real : flat.re = ‖flat‖ * cos flat.arg := (Complex.norm_mul_cos_arg flat).symm
  have imaginary : flat.im = ‖flat‖ * sin flat.arg := (Complex.norm_mul_sin_arg flat).symm
  rw [across, turns, cos_sub_int_mul_two_pi, sin_sub_int_mul_two_pi, ← length]
  change flat.re * cos flat.arg + flat.im * sin flat.arg = ‖flat‖
  rw [real, imaginary]
  linear_combination ‖flat‖ * sin_sq_add_cos_sq flat.arg

end Across

namespace Collision

section Angles

variable {speed length limit : ℝ}

private theorem across_mul_sin_le (inward : speed < 0) (nonneg : 0 ≤ length)
    (quarter : limit ≤ π / 2) (steep : length * sin limit ≤ -speed) {angle across : ℝ}
    (start : 0 ≤ angle) (within : angle ≤ limit) (short : across ^ 2 ≤ length ^ 2 - speed ^ 2) :
    across * sin angle ≤ -speed * cos angle := by
  have smaller : sin angle ≤ sin limit :=
    sin_le_sin_of_le_of_le_pi_div_two (by linarith [pi_pos]) quarter within
  have sine : 0 ≤ sin angle := sin_nonneg_of_nonneg_of_le_pi start (by linarith [pi_pos])
  have cosine : 0 ≤ cos angle :=
    cos_nonneg_of_neg_pi_div_two_le_of_le (by linarith [pi_pos]) (by linarith)
  have below : length * sin angle ≤ -speed := (mul_le_mul_of_nonneg_left smaller nonneg).trans steep
  have squares : (length * sin angle) ^ 2 ≤ speed ^ 2 := by
    rw [← neg_sq speed]
    exact pow_le_pow_left₀ (mul_nonneg nonneg sine) below 2
  apply le_of_sq_le_sq
  · have turn := sin_sq_add_cos_sq angle
    have part := mul_le_mul_of_nonneg_right short (sq_nonneg (sin angle))
    linarith [mul_pow length (sin angle) 2, mul_pow across (sin angle) 2,
      mul_pow (-speed) (cos angle) 2, neg_sq speed, congrArg (speed ^ 2 * ·) turn]
  · exact mul_nonneg (neg_nonneg.mpr inward.le) cosine

private theorem steep_of_across_mul_sin_le (inward : speed < 0) (positive : 0 < limit)
    (half : limit ≤ π) {across : ℝ} (away : 0 ≤ across)
    (whole : across ^ 2 = length ^ 2 - speed ^ 2)
    (bound : across * sin limit ≤ -speed * cos limit) :
    limit ≤ π / 2 ∧ length * sin limit ≤ -speed := by
  have sine : 0 ≤ sin limit := sin_nonneg_of_nonneg_of_le_pi positive.le half
  constructor
  · by_contra obtuse
    have cosine : cos limit < 0 :=
      cos_neg_of_pi_div_two_lt_of_lt (not_le.mp obtuse) (by linarith [pi_pos])
    have turned : -speed * cos limit < 0 := mul_neg_of_pos_of_neg (neg_pos.mpr inward) cosine
    exact absurd (mul_nonneg away sine) (not_le.mpr (bound.trans_lt turned))
  · apply le_of_sq_le_sq
    · have turn := sin_sq_add_cos_sq limit
      have squares := pow_le_pow_left₀ (mul_nonneg away sine) bound 2
      rw [mul_pow, whole, mul_pow, neg_sq] at squares
      rw [mul_pow, neg_sq]
      linear_combination squares + speed ^ 2 * turn
    · exact neg_nonneg.mpr inward.le

end Angles

section Bounce

variable {normal : Vec3 ℝ}

theorem jitteredNormal_of_unit (unit : normal.dot normal = 1) (jitter uTheta uPhi : ℝ) :
    jitteredNormal normal jitter uTheta uPhi = coneDirection normal (π * jitter / 2) uTheta uPhi :=
  Vec3.normalizeOr_of_unit (coneDirection_unit unit _ _ _) normal

/-- The speed along the normal after a bounce off a jittered one:
turned by twice the angle of the jitter. -/
theorem dot_reflect_jitteredNormal (unit : normal.dot normal = 1) (bounce : Bounce ℝ)
    (velocity : Vec3 ℝ) (uTheta uPhi : ℝ) :
    (bounce.reflect velocity (jitteredNormal normal bounce.jitter uTheta uPhi)).dot normal =
      bounce.restitution * (-velocity.dot normal * cos (π * bounce.jitter * uPhi) -
        velocity.across normal uTheta * sin (π * bounce.jitter * uPhi)) := by
  have twice : π * bounce.jitter * uPhi = 2 * (π * bounce.jitter / 2 * uPhi) := by ring
  have along := dot_coneDirection unit velocity (π * bounce.jitter / 2) uTheta uPhi
  rw [← Vec3.across] at along
  rw [Bounce.reflect, Vec3.dot_scale, Vec3.dot_reflect, jitteredNormal_of_unit unit, along,
    coneDirection_dot_axis unit, twice, cos_two_mul, sin_two_mul]
  ring

/-- A bounce leads away from the plane for all draws exactly when nothing is kept of the speed, or
the way in is steeper than twice the widest jitter. -/
theorem forall_dot_reflect_nonneg_iff (unit : normal.dot normal = 1) {bounce : Bounce ℝ}
    (kept : 0 ≤ bounce.restitution) (jittered : 0 < bounce.jitter) (most : bounce.jitter ≤ 1)
    {velocity : Vec3 ℝ} (inward : velocity.dot normal < 0) :
    (∀ uTheta ∈ Set.Ico (0 : ℝ) 1, ∀ uPhi ∈ Set.Ico (0 : ℝ) 1,
        0 ≤ (bounce.reflect velocity
          (jitteredNormal normal bounce.jitter uTheta uPhi)).dot normal) ↔
      bounce.restitution = 0 ∨
        bounce.jitter ≤ 1 / 2 ∧ velocity.length * sin (π * bounce.jitter) ≤
          -velocity.dot normal := by
  have square : velocity.length ^ 2 = velocity.dot velocity := sq_sqrt velocity.dot_self_nonneg
  have nonneg : 0 ≤ velocity.length := sqrt_nonneg _
  simp only [dot_reflect_jitteredNormal unit]
  constructor
  · intro outward
    rw [or_iff_not_imp_left]
    intro some
    have positive : 0 < bounce.restitution := lt_of_le_of_ne kept (Ne.symm some)
    obtain ⟨uTheta, inside, whole⟩ := Vec3.exists_across_eq unit velocity
    have part : 0 ≤ velocity.dot velocity - velocity.dot normal ^ 2 :=
      (sq_nonneg _).trans (Vec3.across_sq_le unit velocity uTheta)
    -- The widest angle itself is never drawn, but every smaller one may be.
    have widest : 0 ≤ bounce.restitution * (-velocity.dot normal * cos (π * bounce.jitter * 1) -
        velocity.across normal uTheta * sin (π * bounce.jitter * 1)) := by
      refine le_on_closure (f := fun _ => 0) (outward uTheta inside) (by fun_prop) (by fun_prop) ?_
      rw [closure_Ico zero_ne_one]
      exact Set.right_mem_Icc.mpr zero_le_one
    have bound := sub_nonneg.mp (nonneg_of_mul_nonneg_right widest positive)
    rw [mul_one] at bound
    have away : 0 ≤ velocity.across normal uTheta := whole ▸ sqrt_nonneg _
    have rest : velocity.across normal uTheta ^ 2 =
        velocity.length ^ 2 - velocity.dot normal ^ 2 := by
      rw [whole, sq_sqrt part, square]
    obtain ⟨quarter, steep⟩ := steep_of_across_mul_sin_le inward (mul_pos pi_pos jittered)
      (mul_le_of_le_one_right pi_pos.le most) away rest bound
    exact ⟨by nlinarith [pi_pos], steep⟩
  · rintro (none | ⟨half, steep⟩) uTheta - uPhi ⟨start, end_⟩
    · rw [none, zero_mul]
    · have short := Vec3.across_sq_le unit velocity uTheta
      rw [← square] at short
      have angle : 0 ≤ π * bounce.jitter := (mul_pos pi_pos jittered).le
      have quarter : π * bounce.jitter ≤ π / 2 := by nlinarith [pi_pos]
      exact mul_nonneg kept (sub_nonneg.mpr (across_mul_sin_le inward nonneg quarter steep
        (mul_nonneg angle start) (mul_le_of_le_one_right angle end_.le) short))

end Bounce

theorem peek_eq (stream : RandomStream) :
    (stream.peek : ℝ) = ((stream.bits >>> 8).toNat : ℝ) * (1 / 16777216) := by
  change ((stream.bits >>> 8).toNat : ℝ) * (((1 : Nat) : ℝ) / 16777216) = _
  rw [Nat.cast_one]

theorem peek_mem (stream : RandomStream) : (stream.peek : ℝ) ∈ Set.Ico 0 1 := by
  have below : ((stream.bits >>> 8).toNat : ℝ) < 16777216 := by exact_mod_cast stream.toNat_bits_lt
  rw [peek_eq]
  constructor
  · positivity
  · linarith

private theorem localPlane_unit {context : UpdateContext ℝ} {particle : Particle ℝ}
    {plane facing : Plane ℝ} (seen : localPlane context particle plane = some facing) :
    facing.normal.dot facing.normal = 1 := by
  unfold localPlane at seen
  split at seen
  · exact Plane.unit_of_normalized seen
  · exact Plane.unit_of_normalized seen

/-- A contact with a jittered normal mirrors the velocity in a normal drawn from the cone. -/
theorem collideWith_jittered {bounce : Bounce ℝ} {context : UpdateContext ℝ} {radius : ℝ}
    {particle : Particle ℝ} {plane facing : Plane ℝ} {met : Encounter ℝ}
    (jittered : Scalar.epsilon < bounce.jitter)
    (seen : encounter context radius particle plane = some (facing, met))
    (contact : met.isContact = true) (stream : RandomStream) :
    let after := (collideWith bounce context radius particle plane stream).1
    after.collided = true ∧
      after.velocity = bounce.reflect particle.velocity
        (jitteredNormal facing.normal bounce.jitter stream.peek stream.advance.peek) := by
  rw [collideWith, seen]
  obtain ⟨position, distance, rfl⟩ := Encounter.exists_of_isContact contact
  obtain ⟨collided, _, velocity⟩ := respond_contact_jittered (not_le.mpr jittered) context particle
    facing.normal position distance stream
  exact ⟨collided, velocity⟩

/-- The last plane that is met decides on the velocity, which is mirrored in a normal drawn
from the cone around the plane's own. It leads away from the plane for all draws exactly
when nothing is kept of the speed, or the jitter is at most a half and the way in is steeper
than twice the widest turn of the normal. -/
theorem jittered_bounce_outward_iff {m : Collision ℝ} {context : UpdateContext ℝ}
    {particle before : Particle ℝ}
    {stream left : RandomStream} {earlier later : List (Plane ℝ)} {plane facing : Plane ℝ}
    {met : Encounter ℝ}
    (jittered : Scalar.epsilon < m.bounce.jitter) (most : m.bounce.jitter ≤ 1)
    (kept : 0 ≤ m.bounce.restitution)
    (listed : m.planes = earlier ++ plane :: later)
    (ran : earlier.foldlM (collideWith m.bounce context (m.radius.compute particle context))
      particle stream = (before, left))
    (seen : encounter context (m.radius.compute particle context) before plane = some (facing, met))
    (contact : met.isContact = true) (inward : before.velocity.dot facing.normal < 0)
    (unmet : ∀ other ∈ later, ∀ facing met,
      encounter context (m.radius.compute particle context)
          (collideWith m.bounce context (m.radius.compute particle context) before plane left).1
            other = some (facing, met) → met.isContact = false) :
    (m.execute context particle stream).1.velocity =
        m.bounce.reflect before.velocity
          (jitteredNormal facing.normal m.bounce.jitter left.peek left.advance.peek) ∧
      (left.peek : ℝ) ∈ Set.Ico 0 1 ∧ (left.advance.peek : ℝ) ∈ Set.Ico 0 1 ∧
      ((∀ uTheta ∈ Set.Ico (0 : ℝ) 1, ∀ uPhi ∈ Set.Ico (0 : ℝ) 1,
          0 ≤ (m.bounce.reflect before.velocity
            (jitteredNormal facing.normal m.bounce.jitter uTheta uPhi)).dot facing.normal) ↔
        m.bounce.restitution = 0 ∨
          m.bounce.jitter ≤ 1 / 2 ∧
            before.velocity.length * sin (π * m.bounce.jitter) ≤
              -before.velocity.dot facing.normal) := by
  obtain ⟨_, found, same⟩ := Option.map_eq_some_iff.mp seen
  cases same
  have positive : 0 < m.bounce.jitter := Scalar.epsilon_pos.trans jittered
  refine ⟨?_, peek_mem left, peek_mem _,
    forall_dot_reflect_nonneg_iff (localPlane_unit found) kept positive most inward⟩
  rw [execute_velocity listed ran unmet]
  exact (collideWith_jittered jittered seen contact left).2

private theorem lookAt_unitZ_x : (Basis.lookAt (Vec3.unitZ : Vec3 ℝ)).x = ⟨-1, 0, 0⟩ := by
  have unit : (Vec3.unitZ : Vec3 ℝ).dot .unitZ = 1 := by simp [Vec3.dot, Vec3.unitZ]
  have steep : Scalar.almostOne < Scalar.abs (1 : ℝ) := by
    rw [Scalar.almostOne_eq]
    change (999 / 10 ^ 3 : ℝ) < |1|
    norm_num
  have across : (Vec3.unitZ : Vec3 ℝ).cross .unitY = ⟨-1, 0, 0⟩ := by
    simp [Vec3.cross, Vec3.unitZ, Vec3.unitY]
  have flat : (⟨-1, 0, 0⟩ : Vec3 ℝ).dot ⟨-1, 0, 0⟩ = 1 := by simp [Vec3.dot]
  simp only [Basis.lookAt, Vec3.normalizeOr_of_unit unit, Vec3.beq_zero_of_unit unit, unit,
    steep, across, Vec3.normalize_of_unit flat, Bool.false_eq_true, if_false, if_true]

noncomputable def raised (velocity : Vec3 ℝ) : Particle ℝ :=
  { Particle.default with position := .unitZ, velocity := velocity }

noncomputable def oneTick : UpdateContext ℝ := ⟨⟨0, 1⟩, .unitZ, true, .identity, 1, .one, .one⟩

noncomputable def ground (bounce : Bounce ℝ) : Collision ℝ :=
  ⟨bounce, false, .default, .default, .custom 0⟩

theorem encounter_ground (bounce : Bounce ℝ) {velocity : Vec3 ℝ} (fast : velocity.z < -1) :
    encounter oneTick ((ground bounce).radius.compute (raised velocity) oneTick)
      (raised velocity) .default = some (.default, .contact .unitZ 1) := by
  have radius : (ground bounce).radius.compute (raised velocity) oneTick = 0 := by
    simp [ground, CollisionRadius.compute, CollisionRadius.custom]
  have unit : (Plane.default : Plane ℝ).normal.dot Plane.default.normal = 1 := by
    simp [Plane.default, Vec3.dot, Vec3.unitZ]
  have start : Plane.default.signedDistance (raised velocity).position = 1 := by
    simp [raised, Plane.signedDistance, Plane.default, Vec3.dot, Vec3.unitZ, Vec3.zero, Vec3.splat]
  have outside : 0 ≤ Plane.default.signedDistance (raised velocity).position := start ▸ zero_le_one
  have through : Plane.default.signedDistance (raised velocity).position +
      (raised velocity).velocity.dot Plane.default.normal * oneTick.tickTime < 0 := by
    rw [start]
    simp [raised, oneTick, Plane.default, Vec3.dot, Vec3.unitZ]
    linarith
  have met := encounter_of_through rfl unit outside through
  rw [start, sub_zero] at met
  rw [radius]
  exact met

/-- What falls straight down is thrown back by a jitter of a half, whatever is drawn. -/
theorem jittered_bounce_outward_iff_headOn :
    let floor := ground ⟨1, 1 / 2⟩
    0 ≤ (floor.execute oneTick (raised ⟨0, 0, -2⟩) (.ofSeed 9)).1.velocity.dot
      floor.plane₁.normal := by
  intro floor
  have speed : (raised ⟨0, 0, -2⟩).velocity.dot floor.plane₁.normal = -2 := by
    simp [raised, floor, ground, Plane.default, Vec3.dot, Vec3.unitZ]
  have length : (raised ⟨0, 0, -2⟩).velocity.length = 2 := by
    have square : (raised ⟨0, 0, -2⟩).velocity.dot (raised ⟨0, 0, -2⟩).velocity = 2 * 2 := by
      simp [raised, Vec3.dot]
    rw [Vec3.length, square]
    exact sqrt_mul_self zero_le_two
  have jittered : Scalar.epsilon < floor.bounce.jitter := by
    simp [floor, ground, Scalar.epsilon]
    norm_num
  have most : floor.bounce.jitter ≤ 1 := by
    simp [floor, ground]
    norm_num
  have listed : floor.planes = [] ++ [.default] := rfl
  have ran : [].foldlM (collideWith floor.bounce oneTick
    (floor.radius.compute (raised ⟨0, 0, -2⟩) oneTick))
      (raised ⟨0, 0, -2⟩) (RandomStream.ofSeed 9) = (raised ⟨0, 0, -2⟩, .ofSeed 9) := rfl
  have seen := encounter_ground floor.bounce (show (⟨0, 0, -2⟩ : Vec3 ℝ).z < -1 by norm_num)
  obtain ⟨turned, theta, phi, outward⟩ :=
    jittered_bounce_outward_iff jittered most zero_le_one listed ran seen rfl
    (speed.trans_lt (by norm_num)) (by simp)
  rw [turned]
  refine outward.mpr (.inr ⟨le_rfl, ?_⟩) _ theta _ phi
  rw [length]
  exact (mul_le_of_le_one_right zero_le_two (sin_le_one _)).trans (le_neg_of_le_neg speed.le)

/-- The first two draws of this stream are zero and a half. -/
def evenStream : RandomStream := ⟨0, 2 ^ 58 + 2 ^ 40 + 1⟩

/-- What comes in at half a right angle is let through by a
jitter of half a right angle in its way. -/
theorem jittered_bounce_inward :
    let floor := ground ⟨1, 1⟩
    let slanting := raised ⟨-2, 0, -2⟩
    0 ≤ floor.plane₁.signedDistance slanting.position ∧
      (floor.execute oneTick slanting evenStream).1.collided = true ∧
      (floor.execute oneTick slanting evenStream).1.velocity.dot floor.plane₁.normal = -2 := by
  intro floor slanting
  have unit : (Vec3.unitZ : Vec3 ℝ).dot .unitZ = 1 := by simp [Vec3.dot, Vec3.unitZ]
  have theta : (evenStream.peek : ℝ) = 0 := by
    have bits : (evenStream.bits >>> 8).toNat = 0 := by decide +kernel
    rw [peek_eq, bits, Nat.cast_zero, zero_mul]
  have phi : (evenStream.advance.peek : ℝ) = 1 / 2 := by
    have bits : (evenStream.advance.bits >>> 8).toNat = 8388608 := by decide +kernel
    rw [peek_eq, bits]
    norm_num
  have jittered : Scalar.epsilon < floor.bounce.jitter := by
    simp [floor, ground, Scalar.epsilon]
    norm_num
  have fast : (⟨-2, 0, -2⟩ : Vec3 ℝ).z < -1 := by norm_num
  have met := encounter_ground floor.bounce fast
  obtain ⟨collided, turned⟩ := collideWith_jittered jittered met rfl evenStream
  have across : slanting.velocity.across .unitZ 0 = 2 := by
    rw [Vec3.across, lookAt_unitZ_x, mul_zero, cos_zero, sin_zero]
    simp [slanting, raised, Vec3.dot]
  have speed : slanting.velocity.dot .unitZ = -2 := by
    simp [slanting, raised, Vec3.dot, Vec3.unitZ]
  have value := dot_reflect_jitteredNormal unit ⟨1, 1⟩ slanting.velocity 0 (1 / 2)
  have quarter : π * 1 * (1 / 2) = π / 2 := by ring
  rw [across, speed, quarter, cos_pi_div_two, sin_pi_div_two] at value
  rw [execute_of_onePlane rfl]
  refine ⟨?_, collided, ?_⟩
  · simp [floor, slanting, ground, raised, Plane.signedDistance, Plane.default, Vec3.dot,
      Vec3.unitZ, Vec3.zero, Vec3.splat]
  · rw [theta, phi] at turned
    refine (congrArg (Vec3.dot · .unitZ) turned).trans (value.trans ?_)
    norm_num

end Collision

end ParticleSystem
