import ParticleSystem.Proofs.Geometry.Rotation
import ParticleSystem.Proofs.Spawn.Draws

/-!
Particles that leave within a flat fan. Over the reals the frame of a fan is never
degenerate: its zero line is a unit vector in the plane across its normal, so the direction
at a share of the way is a unit vector at the angle that the share says, and a turn around
the centre line moves the whole plane with it.
-/

namespace ParticleSystem

/-- Work that sends a newborn along a direction, as fast as a strength is sampled for it behind some
draws. It fails as the sampling fails, and then leaves the particle alone. -/
structure Spawning.Launches {α : Type} [Scalar α] (work : Spawning α Unit)
    (strength : ScalarValue α) (clock : Clock α) (draws : Nat) (newborn : Newborn α)
    (direction : Vec3 α) : Prop where
  ok : ∀ {rate left}, strength.tick clock newborn.particle (newborn.stream.drop draws) =
    .ok rate left →
    work newborn = .ok () ⟨{ newborn.particle with velocity := direction * rate }, left⟩
  error : ∀ {fault left}, strength.tick clock newborn.particle (newborn.stream.drop draws) =
    .error fault left →
    work newborn = .error fault ⟨newborn.particle, left⟩

/-- The last two steps of a launch, when the draws for the direction have been made. -/
theorem Spawning.Launches.of_sample {α : Type} [Scalar α] {strength : ScalarValue α}
    {context : SpawnContext α}
    {draws : Nat} {newborn : Newborn α} {direction : Vec3 α} {work : Spawning α Unit}
    (rest : work newborn = (do
      let rate ← sample strength.tick context
      setVelocity (direction * rate) :
        Spawning α Unit) ⟨newborn.particle, newborn.stream.drop draws⟩) :
    Launches work strength context.clock draws newborn direction := by
  constructor
  · intro rate left sampled
    rw [rest]
    simp only [bind, EStateM.bind, sample, sampled]
    rfl
  · intro fault left failed
    rw [rest]
    simp only [bind, EStateM.bind, sample, failed]

namespace Vec3

variable {v w : Vec3 ℝ}

private theorem dot_blend (v w u : Vec3 ℝ) (a b : ℝ) :
    (v * a + w * b).dot u = a * v.dot u + b * w.dot u := by
  simp only [dot, add_x, add_y, add_z, scale_x, scale_y, scale_z]
  ring

theorem length_pos (long : 0 < v.dot v) : 0 < v.length := Real.sqrt_pos.mpr long

theorem dot_self_pos_of_ne_zero (apart : v ≠ .zero) : 0 < v.dot v := by
  apply lt_of_le_of_ne v.dot_self_nonneg
  intro zero
  obtain ⟨x, y, z⟩ := components_of_dot_self zero.symm
  apply apart
  ext <;> simp [Vec3.zero, splat, x, y, z]

theorem normalizeOr_of_ne_zero (apart : v ≠ .zero) (fallback : Vec3 ℝ) :
    v.normalizeOr fallback = v.normalize := by
  have long := length_pos (dot_self_pos_of_ne_zero apart)
  have usable : 0 < Scalar.recip v.length := by
    rw [Scalar.recip, Scalar.ofNat_eq_one]
    exact one_div_pos.mpr long
  rw [normalizeOr, if_pos ⟨rfl, by rwa [Scalar.ofNat_eq_zero]⟩, normalize]

theorem length_scale_of_unit (unit : v.dot v = 1) (a : ℝ) : (v * a).length = |a| := by
  rw [length, dot_scale, dot_comm, dot_scale, unit, mul_one]
  exact Real.sqrt_mul_self_eq_abs a

theorem cross_pos_of_unit (v_unit : v.dot v = 1) (w_unit : w.dot w = 1) (apart : v.dot w ^ 2 < 1) :
    0 < (v.cross w).dot (v.cross w) := by
  rw [cross_dot_self, v_unit, w_unit]
  linarith

end Vec3

/-- Within a half angle up to a half turn, a unit direction points along the
middle at least as far as at the edge. -/
theorem cos_le_cos_of_within {angle edge : ℝ} (within : |angle| ≤ edge) (most : edge ≤ Real.pi) :
    Real.cos edge ≤ Real.cos angle := by
  rw [← Real.cos_abs angle]
  exact Real.cos_le_cos_of_nonneg_of_le_pi (abs_nonneg angle) most within

theorem radians_eq (degrees : ℝ) : Scalar.radians degrees = degrees * (Real.pi / 180) := by
  rw [Scalar.radians, Scalar.ofNat_eq_ofNat]
  rfl

theorem half_radians_mem {opening : ℝ} (nonneg : 0 ≤ opening) (most : opening ≤ 360) :
    0 ≤ Scalar.radians opening / 2 ∧ Scalar.radians opening / 2 ≤ Real.pi := by
  have half : Scalar.radians opening / 2 = opening * (Real.pi / 360) := by
    rw [radians_eq]
    ring
  rw [half]
  constructor
  · positivity
  · nlinarith [Real.pi_pos]

namespace Spawn.Sector

section Frame

variable {α : Type} [Scalar α]

/-- The axis that the normal of a fan is found from. -/
def reference (direction : Vec3 α) : Vec3 α :=
  if Scalar.abs (Scalar.abs (direction.dot .unitX) - 1) ≤ Scalar.epsilon then .unitY else .unitX

/-- The axis that counts as up for an emitter. -/
def upright (front : Vec3 α) : Vec3 α := if front.close .unitZ then .unitY else .unitZ

/-- The direction that counts as up for a fan. -/
def up (normal front : Vec3 α) : Vec3 α :=
  let axis := (upright front).normalize
  if Scalar.almostOne < Scalar.abs (normal.dot axis) then ⟨axis.z, axis.x, axis.y⟩ else axis

theorem normal_eq (direction : Vec3 α) :
    normal direction = (direction.cross (reference direction)).normalize :=
  rfl

theorem zeroLine_eq (normal front : Vec3 α) :
    zeroLine normal front = ((normal.cross (up normal front)).normalize.cross normal).normalize :=
      rfl

/-- The vectors that a fan is made of by bringing each to unit length. -/
def spokes (m : Sector α) (front : Vec3 α) : List (Vec3 α) :=
  let centre := m.direction.normalizeOr .zero
  let across := centre.cross (reference centre)
  let right := across.normalize.cross (up across.normalize front)
  [m.direction, across, upright front, right, right.normalize.cross across.normalize]

end Frame

section Real

open Real

variable {d n : Vec3 ℝ}

private theorem reference_unit (d : Vec3 ℝ) : (reference d).dot (reference d) = 1 := by
  rw [reference]
  split <;> simp [Vec3.dot, Vec3.unitX, Vec3.unitY]

/-- The reference is never parallel to the centre line: close to the first axis it is the second. -/
private theorem dot_reference_sq_lt_one (unit : d.dot d = 1) : d.dot (reference d) ^ 2 < 1 := by
  have sum : d.x * d.x + d.y * d.y + d.z * d.z = 1 := unit
  have first : d.dot .unitX = d.x := by simp [Vec3.dot, Vec3.unitX]
  have second : d.dot .unitY = d.y := by simp [Vec3.dot, Vec3.unitY]
  have share : Scalar.epsilon = (1 / 8388608 : ℝ) := by
    rw [Scalar.epsilon, Scalar.ofNat_eq_one, Scalar.ofNat_eq_ofNat]
  rw [reference, first, share, Scalar.ofNat_eq_one]
  split
  · rename_i steep
    have near : |(|d.x| - 1)| ≤ (1 / 8388608 : ℝ) := steep
    rw [second]
    nlinarith [(abs_le.mp near).1, abs_mul_abs_self d.x, mul_self_nonneg d.z]
  · rename_i oblique
    have beside : d.x ^ 2 ≠ 1 := by
      intro one
      apply oblique
      change |(|d.x| - 1)| ≤ (1 / 8388608 : ℝ)
      rw [(sq_eq_sq_iff_abs_eq_abs d.x 1).mp (by rw [one, one_pow])]
      norm_num
    rw [first]
    exact lt_of_le_of_ne (by nlinarith [mul_self_nonneg d.y, mul_self_nonneg d.z]) beside

theorem across_pos (unit : d.dot d = 1) : 0 < (d.cross (reference d)).dot (d.cross (reference d)) :=
  Vec3.cross_pos_of_unit unit (reference_unit d) (dot_reference_sq_lt_one unit)

theorem normal_unit (unit : d.dot d = 1) : (normal d).dot (normal d) = 1 := by
  rw [normal_eq]
  exact Vec3.normalize_dot_self (across_pos unit)

theorem normal_dot (d : Vec3 ℝ) : (normal d).dot d = 0 := by
  rw [normal_eq, Vec3.normalize, Vec3.dot_scale, Vec3.cross_dot_left, mul_zero]

theorem upright_cases (front : Vec3 ℝ) : upright front = .unitY ∨ upright front = .unitZ := by
  rw [upright]
  split
  · exact .inl rfl
  · exact .inr rfl

theorem upright_unit (front : Vec3 ℝ) : (upright front).dot (upright front) = 1 := by
  rcases upright_cases front with axis | axis <;> simp [axis, Vec3.dot, Vec3.unitY, Vec3.unitZ]

private theorem up_unit (n front : Vec3 ℝ) : (up n front).dot (up n front) = 1 := by
  have axis := upright_unit front
  rw [up, Vec3.normalize_of_unit axis]
  split
  · simp only [Vec3.dot] at axis ⊢
    linarith
  · exact axis

/-- Up is never parallel to the normal: next to its own axis it moves on to another one. -/
private theorem dot_up_sq_lt_one (unit : n.dot n = 1) (front : Vec3 ℝ) :
    n.dot (up n front) ^ 2 < 1 := by
  have sum : n.x * n.x + n.y * n.y + n.z * n.z = 1 := unit
  have second : n.dot .unitY = n.y := by simp [Vec3.dot, Vec3.unitY]
  have third : n.dot .unitZ = n.z := by simp [Vec3.dot, Vec3.unitZ]
  have steep {a : ℝ} (large : (999 / 10 ^ 3 : ℝ) < |a|) : 0 < a * a := by
    rw [← abs_mul_abs_self a]
    nlinarith
  rw [up, Vec3.normalize_of_unit (upright_unit front), Scalar.almostOne_eq]
  split
  · rename_i parallel
    rcases upright_cases front with axis | axis <;> rw [axis] at parallel ⊢
    · have moved : n.dot ⟨Vec3.unitY.z, Vec3.unitY.x, Vec3.unitY.y⟩ = n.z := third
      rw [second] at parallel
      rw [moved]
      nlinarith [steep parallel, mul_self_nonneg n.x]
    · have moved : n.dot ⟨Vec3.unitZ.z, Vec3.unitZ.x, Vec3.unitZ.y⟩ = n.x := by
        simp [Vec3.dot, Vec3.unitZ]
      rw [third] at parallel
      rw [moved]
      nlinarith [steep parallel, mul_self_nonneg n.y]
  · rename_i oblique
    have most : |n.dot (upright front)| ≤ (999 / 10 ^ 3 : ℝ) := not_lt.mp oblique
    rw [← sq_abs]
    nlinarith [abs_nonneg (n.dot (upright front))]

theorem right_pos (unit : n.dot n = 1) (front : Vec3 ℝ) :
    0 < (n.cross (up n front)).dot (n.cross (up n front)) :=
  Vec3.cross_pos_of_unit unit (up_unit n front) (dot_up_sq_lt_one unit front)

theorem right_cross_unit (unit : n.dot n = 1) (front : Vec3 ℝ) :
    ((n.cross (up n front)).normalize.cross n).dot ((n.cross (up n front)).normalize.cross n) =
      1 := by
  have across : (n.cross (up n front)).normalize.dot n = 0 := by
    rw [Vec3.normalize, Vec3.dot_scale, Vec3.cross_dot_left, mul_zero]
  rw [Vec3.cross_dot_self, Vec3.normalize_dot_self (right_pos unit front), unit, across]
  norm_num

theorem zeroLine_unit (unit : n.dot n = 1) (front : Vec3 ℝ) :
    (zeroLine n front).dot (zeroLine n front) = 1 := by
  rw [zeroLine_eq, Vec3.normalize_of_unit (right_cross_unit unit front)]
  exact right_cross_unit unit front

theorem zeroLine_dot (unit : n.dot n = 1) (front : Vec3 ℝ) : (zeroLine n front).dot n = 0 := by
  rw [zeroLine_eq, Vec3.normalize_of_unit (right_cross_unit unit front), Vec3.cross_dot_right]

theorem spokes_pos (m : Sector ℝ) (front : Vec3 ℝ) (apart : m.direction ≠ .zero) :
    ∀ v ∈ m.spokes front, 0 < v.length := by
  have long := Vec3.dot_self_pos_of_ne_zero apart
  have unit := Vec3.normalize_dot_self long
  have own : (normal m.direction.normalize).dot (normal m.direction.normalize) = 1 :=
    normal_unit unit
  have axis := upright_unit front
  have line := right_cross_unit own front
  simp only [spokes, Vec3.normalizeOr_of_ne_zero apart, List.forall_mem_cons, List.not_mem_nil,
    false_imp_iff, implies_true, and_true]
  exact ⟨Vec3.length_pos long, Vec3.length_pos (across_pos unit),
    Vec3.length_pos (axis.symm ▸ one_pos), Vec3.length_pos (right_pos own front),
    Vec3.length_pos (line.symm ▸ one_pos)⟩

/-- A unit vector in the plane of a fan, at the angle that the fan measures for it. -/
theorem cos_sin_centreAngle {line : Vec3 ℝ} (n_unit : n.dot n = 1) (line_unit : line.dot line = 1)
    (d_unit : d.dot d = 1) (line_dot : line.dot n = 0) (d_dot : n.dot d = 0) :
    cos (centreAngle d n line) = line.dot d ∧
    sin (centreAngle d n line) = (line.cross d).dot n := by
  have circle : line.dot d ^ 2 + (line.cross d).dot n ^ 2 = 1 := by
    rw [Vec3.dot_comm (line.cross d), Vec3.dot_cross_sq, n_unit, line_unit, d_unit, d_dot,
      Vec3.dot_comm n, line_dot]
    ring
  let point : ℂ := ⟨line.dot d, (line.cross d).dot n⟩
  have norm : ‖point‖ = 1 := by
    rw [Complex.norm_def, Complex.normSq_apply, ← pow_two, ← pow_two, circle, sqrt_one]
  have nonzero : point ≠ 0 := by
    intro zero
    rw [zero, norm_zero] at norm
    exact zero_ne_one norm
  have wrapped : centreAngle d n line = point.arg ∨ centreAngle d n line = point.arg + 2 * π := by
    rw [centreAngle]
    split
    · exact .inr rfl
    · exact .inl rfl
  have cosine : cos point.arg = line.dot d := by rw [Complex.cos_arg nonzero, norm, div_one]
  have sine : sin point.arg = (line.cross d).dot n := by rw [Complex.sin_arg, norm, div_one]
  rcases wrapped with same | turned
  · rw [same]
    exact ⟨cosine, sine⟩
  · rw [turned, cos_add_two_pi, sin_add_two_pi]
    exact ⟨cosine, sine⟩

end Real

section Directions

variable {α : Type} [Scalar α]

/-- The direction at a share of the way through a fan whose plane has not been turned. -/
def flat (m : Sector α) (centre front : Vec3 α) (share : α) : Vec3 α :=
  let opening := Scalar.radians m.opening
  let line := zeroLine (normal centre) front
  let angle := centreAngle centre (normal centre) line - opening / 2 + opening * share
  (Quaternion.ofAxisAngle (normal centre) angle).rotate line

/-- The turn around the centre line. -/
def turned (m : Sector α) (centre v : Vec3 α) : Vec3 α :=
  if 0 < Scalar.abs m.turn then
    (Quaternion.ofAxisAngle centre (Scalar.radians m.turn)).rotate v
  else v

theorem fanDirection_eq (m : Sector α) (centre front : Vec3 α) (share : α) :
    m.fanDirection centre front share = m.turned centre (m.flat centre front share) := rfl

end Directions

section Real

open Real

variable {centre : Vec3 ℝ} (unit : centre.dot centre = 1) (m : Sector ℝ) (front : Vec3 ℝ)
  (share : ℝ)

include unit

theorem turned_dot (v w : Vec3 ℝ) : (m.turned centre v).dot (m.turned centre w) = v.dot w := by
  unfold turned
  split
  · exact Quaternion.ofAxisAngle_dot unit _ v w
  · rfl

theorem turned_dot_centre (v : Vec3 ℝ) : (m.turned centre v).dot centre = v.dot centre := by
  unfold turned
  split
  · exact Quaternion.ofAxisAngle_dot_axis unit _ v
  · rfl

theorem flat_dot_flat : (m.flat centre front share).dot (m.flat centre front share) = 1 := by
  have own := normal_unit unit
  rw [flat, Quaternion.ofAxisAngle_dot own]
  exact zeroLine_unit own front

private theorem flat_dot_normal : (m.flat centre front share).dot (normal centre) = 0 := by
  have own := normal_unit unit
  rw [flat, Quaternion.ofAxisAngle_dot_axis own]
  exact zeroLine_dot own front

private theorem flat_dot_centre : (m.flat centre front share).dot centre =
    cos (Scalar.radians m.opening * share - Scalar.radians m.opening / 2) := by
  have own := normal_unit unit
  obtain ⟨cosine, sine⟩ :=
    cos_sin_centreAngle own (zeroLine_unit own front) unit (zeroLine_dot own front)
    (normal_dot centre)
  have side : ((normal centre).cross (zeroLine (normal centre) front)).dot centre =
      ((zeroLine (normal centre) front).cross centre).dot (normal centre) := by
    simp only [Vec3.dot, Vec3.cross]
    ring
  rw [flat, Quaternion.ofAxisAngle_across own _ (zeroLine_dot own front), Vec3.dot_blend, side,
    ← cosine, ← sine, ← cos_sub]
  congr 1
  simp only [Scalar.ofNat_eq_ofNat]
  ring

theorem fanDirection_unit :
    (m.fanDirection centre front share).dot (m.fanDirection centre front share) = 1 := by
  rw [fanDirection_eq, turned_dot unit, flat_dot_flat unit]

theorem fanDirection_dot_centre : (m.fanDirection centre front share).dot centre =
    cos (Scalar.radians m.opening * share - Scalar.radians m.opening / 2) := by
  rw [fanDirection_eq, turned_dot_centre unit, flat_dot_centre unit]

private theorem exists_across : ∃ across : Vec3 ℝ, across.dot across = 1 ∧ across.dot centre = 0 ∧
    ∀ share, across.dot (m.fanDirection centre front share) = 0 := by
  refine ⟨m.turned centre (normal centre), ?_, ?_, fun share => ?_⟩
  · rw [turned_dot unit, normal_unit unit]
  · rw [turned_dot_centre unit, normal_dot]
  · rw [fanDirection_eq, turned_dot unit, Vec3.dot_comm, flat_dot_normal unit]

omit unit

private theorem cos_edge_le {opening : ℝ} (nonneg : 0 ≤ opening) (most : opening ≤ 360)
    (first : 0 ≤ share) (last : share ≤ 1) : cos (Scalar.radians opening / 2) ≤
      cos (Scalar.radians opening * share - Scalar.radians opening / 2) := by
  obtain ⟨start, turn⟩ := half_radians_mem nonneg most
  apply cos_le_cos_of_within _ turn
  rw [abs_le]
  constructor <;> nlinarith

end Real

theorem launches (m : Sector ℝ) (context : SpawnContext ℝ) (apart : m.direction ≠ .zero)
    (newborn : Newborn ℝ) :
    Spawning.Launches (m.execute context) m.strength context.clock 1 newborn
      (m.fanDirection m.direction.normalize context.front newborn.stream.peek) := by
  have unit := Vec3.normalize_dot_self (Vec3.dot_self_pos_of_ne_zero apart)
  apply Spawning.Launches.of_sample
  simp only [execute, Vec3.normalizeOr_of_ne_zero apart, Vec3.beq_zero_of_unit unit]
  rfl

/-- A sector sends every newborn along a unit direction in one plane through its centre
line, off the line by the angle that the draw says, and as fast as the strength is large. A
fan of at most a full turn is never left. -/
theorem stays_in_fan (m : Sector ℝ) (context : SpawnContext ℝ) (apart : m.direction ≠ .zero) :
    let centre := m.direction.normalize
    let opening := Scalar.radians m.opening
    let toward := m.fanDirection centre context.front
    (∀ v ∈ m.spokes context.front, 0 < v.length) ∧
      (∀ newborn, Spawning.Launches (m.execute context) m.strength context.clock 1 newborn
        (toward newborn.stream.peek)) ∧
      (∃ across : Vec3 ℝ, across.dot across = 1 ∧ across.dot centre = 0 ∧ ∀ share,
        across.dot (toward share) = 0) ∧
      ∀ share, (toward share).dot (toward share) = 1 ∧
        (toward share).dot centre = Real.cos (opening * share - opening / 2) ∧
        ∀ rate : ℝ, (toward share * rate).length = |rate| ∧
          (0 ≤ rate → 0 ≤ m.opening → m.opening ≤ 360 → 0 ≤ share → share ≤ 1 →
            rate * Real.cos (opening / 2) ≤ (toward share * rate).dot centre) := by
  intro centre opening toward
  have unit : centre.dot centre = 1 := Vec3.normalize_dot_self (Vec3.dot_self_pos_of_ne_zero apart)
  refine ⟨spokes_pos m context.front apart, launches m context apart,
    exists_across unit m context.front,
    fun share => ⟨fanDirection_unit unit m context.front share,
      fanDirection_dot_centre unit m context.front share,
      fun rate =>
        ⟨Vec3.length_scale_of_unit (fanDirection_unit unit m context.front share) rate, ?_⟩⟩⟩
  intro forward nonneg most first last
  rw [Vec3.dot_scale, fanDirection_dot_centre unit]
  exact mul_le_mul_of_nonneg_left (cos_edge_le share nonneg most first last) forward

/-- At its start the default fan is an eighth of a turn off its centre line. -/
theorem default_stays_in_fan : (default : Sector ℝ).direction ≠ .zero ∧
    ((default : Sector ℝ).fanDirection (Vec3.normalize .unitZ) .unitX 0).dot
      (Vec3.normalize .unitZ) = Real.cos (Real.pi / 4) := by
  have apart : (default : Sector ℝ).direction ≠ .zero := by
    intro same
    have height : (1 : ℝ) = 0 := by
      simpa [default, Vec3.unitZ, Vec3.zero, Vec3.splat] using congrArg Vec3.z same
    exact one_ne_zero height
  refine ⟨apart, ?_⟩
  obtain ⟨-, -, -, each⟩ := stays_in_fan default ⟨⟨0, 0⟩, .unitX, false, .identity⟩ apart
  refine (each 0).2.1.trans ?_
  rw [radians_eq, ← Real.cos_neg]
  congr 1
  simp only [default, Scalar.ofNat_eq_ofNat]
  ring

end Spawn.Sector

end ParticleSystem
