import ParticleSystem.Proofs.Collision.Space

/-!
Two planes that face each other keep a particle between them. The second plane sees the mirror
image that the first has left, which may lie far behind the first; what counts is that the way
of a tick is no longer than there is room between the faces, so that at most one of them is
met and the way back ends in front of both.
-/

namespace ParticleSystem

variable {K : Type} [Field K] [LinearOrder K] [FloorRing K] [Elementary K]

namespace Plane

/-- How far apart two planes are that face each other. -/
def separation (near far : Plane K) : K := near.signedDistance .zero + far.signedDistance .zero

/-- Two planes with opposite unit normals. -/
structure Facing (near far : Plane K) : Prop where
  unit : near.normal.dot near.normal = 1
  opposite : far.normal = -near.normal

variable {near far : Plane K}

theorem Facing.signedDistance_add (facing : near.Facing far) (point : Vec3 K) :
    near.signedDistance point + far.signedDistance point = near.separation far := by
  simp only [separation, signedDistance, facing.opposite, Vec3.dot, Vec3.sub_x, Vec3.sub_y,
    Vec3.sub_z, Vec3.neg_x, Vec3.neg_y, Vec3.neg_z]
  ring

theorem Facing.symm (facing : near.Facing far) : far.Facing near where
  unit := by
    rw [facing.opposite, Vec3.dot_neg, Vec3.dot_comm, Vec3.dot_neg, neg_neg, facing.unit]
  opposite := by
    rw [facing.opposite]
    ext <;> simp

theorem Facing.relativeTo (facing : near.Facing far) (origin : Vec3 K) :
    (near.relativeTo origin).Facing (far.relativeTo origin) :=
  ⟨facing.unit, facing.opposite⟩

end Plane

namespace Collision

/-- Two planes that face each other, as a particle sees them, with bounces
that are exact and keep the whole speed. -/
structure Corridor (m : Collision K) (context : UpdateContext K) (particle : Particle K)
    (near far : Plane K) : Prop where
  double : m.useTwoPlanes = true
  exact : m.bounce.jitter ≤ Scalar.epsilon
  elastic : m.bounce.restitution = 1
  near_seen : localPlane context particle m.plane₁ = some near
  far_seen : localPlane context particle m.plane₂ = some far
  facing : near.Facing far

variable {m : Collision K} {context : UpdateContext K} {start particle : Particle K}
  {near far : Plane K}

theorem Corridor.of_localSpace [IsStrictOrderedRing K] (own : context.localSpace = true)
    (double : m.useTwoPlanes = true) (exact : m.bounce.jitter ≤ Scalar.epsilon)
    (elastic : m.bounce.restitution = 1) (facing : m.plane₁.Facing m.plane₂) :
    m.Corridor context particle m.plane₁ m.plane₂ :=
  ⟨double, exact, elastic, localPlane_of_localSpace own facing.unit,
    localPlane_of_localSpace own facing.symm.unit, facing⟩

theorem Corridor.of_translation [IsStrictOrderedRing K] {origin : Vec3 K}
    (apart : context.localSpace = false) (born : particle.spawnTransform = .ofTranslation origin)
    (double : m.useTwoPlanes = true) (exact : m.bounce.jitter ≤ Scalar.epsilon)
    (elastic : m.bounce.restitution = 1) (facing : m.plane₁.Facing m.plane₂) :
    m.Corridor context particle (m.plane₁.relativeTo origin) (m.plane₂.relativeTo origin) := by
  have moved := facing.relativeTo origin
  refine ⟨double, exact, elastic, ?_, ?_, moved⟩
  · rw [localPlane_of_translation apart born, Plane.normalized_of_unit moved.unit]
  · rw [localPlane_of_translation apart born, Plane.normalized_of_unit moved.symm.unit]

theorem Corridor.of_spawnTransform {later : UpdateContext K}
    (corridor : m.Corridor context start near far) (space : later.localSpace = context.localSpace)
    (born : particle.spawnTransform = start.spawnTransform) :
    m.Corridor later particle near far := by
  have same (plane : Plane K) : localPlane later particle plane =
      localPlane context start plane := by
    simp only [localPlane, space, born]
  exact { corridor with
    near_seen := (same _).trans corridor.near_seen
    far_seen := (same _).trans corridor.far_seen }

variable {radius dt : K}

/-- An exact bounce that keeps the whole speed, met in front of a face or not at all. -/
theorem collideWith_elastic {bounce : Bounce K} {plane facing : Plane K}
    (exact : bounce.jitter ≤ Scalar.epsilon) (elastic : bounce.restitution = 1)
    (seen : localPlane context particle plane = some facing)
    (outside : radius ≤ facing.signedDistance particle.position) (stream : RandomStream) :
    let after := (collideWith bounce context radius particle plane stream).1
    let ends := facing.signedDistance particle.position +
      particle.velocity.dot facing.normal * context.tickTime
    (radius ≤ ends ∧ after = particle) ∨
      (ends < radius ∧ after.position =
          particle.position - facing.normal *
            (2 * (facing.signedDistance particle.position - radius)) ∧
        after.velocity = particle.velocity.reflect facing.normal) := by
  rw [collideWith_of_seen seen]
  simpa only [Bounce.reflect, elastic, Vec3.scale_one] using respond_of_outside exact outside stream

variable [IsStrictOrderedRing K]

/-- The mirror image of a particle whose way led through a face: it is far in front of the other
face, and its way back ends in front of both. -/
theorem mirror_between (facing : near.Facing far) {position velocity : Vec3 K} (forward : 0 ≤ dt)
    (short : |velocity.dot near.normal| * dt ≤ near.separation far - 2 * radius)
    (outside : radius ≤ near.signedDistance position)
    (through : near.signedDistance position + velocity.dot near.normal * dt < radius) :
    let image := position - near.normal * (2 * (near.signedDistance position - radius))
    let way := velocity.reflect near.normal * dt
    radius ≤ far.signedDistance image ∧ radius ≤ near.signedDistance (image + way) ∧
      radius ≤ far.signedDistance (image + way) := by
  intro image way
  have room : 0 ≤ near.separation far - 2 * radius :=
    (mul_nonneg (abs_nonneg _) forward).trans short
  have back : -(velocity.dot near.normal * dt) ≤ near.separation far - 2 * radius := by
    refine (neg_le_abs _).trans ?_
    rwa [abs_mul, abs_of_nonneg forward]
  have mirrored : near.signedDistance image = 2 * radius - near.signedDistance position := by
    rw [Plane.signedDistance_shift _ facing.unit]
    ring
  have ends : near.signedDistance (image + way) =
      2 * radius - (near.signedDistance position + velocity.dot near.normal * dt) := by
    rw [Plane.signedDistance_move, mirrored, Vec3.dot_reflect_self _ facing.unit]
    ring
  have sum := facing.signedDistance_add
  refine ⟨?_, ?_, ?_⟩
  · linarith [sum image]
  · linarith
  · linarith [sum (image + way)]

private theorem Corridor.execute_between (corridor : m.Corridor context particle near far)
    (thickness : m.radius.compute particle context = radius) (forward : 0 ≤ context.tickTime)
    (short : |particle.velocity.dot near.normal| * context.tickTime ≤
      near.separation far - 2 * radius)
    (nearSide : radius ≤ near.signedDistance particle.position)
    (farSide : radius ≤ far.signedDistance particle.position) (stream : RandomStream) :
    let after := (m.execute context particle stream).1
    let ends := (after.integrate context.tickTime).position
    radius ≤ near.signedDistance ends ∧ radius ≤ far.signedDistance ends ∧
      after.velocity.lengthSquared = particle.velocity.lengthSquared := by
  have facing := corridor.facing
  rw [execute_of_twoPlanes corridor.double, thickness]
  have first :=
    collideWith_elastic corridor.exact corridor.elastic corridor.near_seen nearSide stream
  have kept := collideWith_sameMake m.bounce context radius particle m.plane₁ stream
  generalize collideWith m.bounce context radius particle m.plane₁ stream = left at first kept ⊢
  obtain ⟨middle, stream⟩ := left
  have sees : localPlane context middle m.plane₂ = some far :=
    (corridor.of_spawnTransform rfl kept.spawnTransform_eq).far_seen
  rcases first with ⟨passes, same⟩ | ⟨meets, position, velocity⟩
  -- The first plane is not met, so the second sees the particle as it came.
  · obtain rfl : middle = particle := same
    have second := collideWith_elastic corridor.exact corridor.elastic sees farSide stream
    generalize (collideWith m.bounce context radius middle m.plane₂ stream).1 = after at second ⊢
    rcases second with ⟨passesToo, same⟩ | ⟨meets, position, velocity⟩
    · subst same
      rw [← Plane.signedDistance_move] at passes passesToo
      exact ⟨passes, passesToo, rfl⟩
    · have speed : |middle.velocity.dot far.normal| = |middle.velocity.dot near.normal| := by
        rw [facing.opposite, Vec3.dot_neg, abs_neg]
      rw [← speed, Plane.separation, add_comm] at short
      obtain ⟨-, farEnd, nearEnd⟩ := mirror_between facing.symm forward short farSide meets
      simp only [Particle.integrate, position, velocity]
      exact ⟨nearEnd, farEnd, Vec3.lengthSquared_reflect _ facing.symm.unit⟩
  -- The second plane sees the mirror image, which does not reach it within the tick.
  · obtain ⟨ahead, nearEnd, farEnd⟩ := mirror_between facing forward short nearSide meets
    rw [← position] at ahead nearEnd farEnd
    rw [← velocity] at nearEnd farEnd
    have second := collideWith_elastic corridor.exact corridor.elastic sees ahead stream
    generalize (collideWith m.bounce context radius middle m.plane₂ stream).1 = after at second ⊢
    rcases second with ⟨-, same⟩ | ⟨meets, -, -⟩
    · subst same
      refine ⟨nearEnd, farEnd, ?_⟩
      rw [show after.velocity = _ from velocity]
      exact Vec3.lengthSquared_reflect _ facing.unit
    · rw [← Plane.signedDistance_move] at meets
      exact absurd farEnd (not_le.mpr meets)

/-- An update with the module and the move that follows it, at a time and from a random stream. -/
def round (m : Collision K) (context : UpdateContext K) (clock : Clock K) (dt : K) (noted : Bool)
    (stream : RandomStream) (particle : Particle K) : Particle K :=
  (m.execute { context with clock := clock, tickTime := dt } { particle with collided := noted }
    stream).1.integrate dt

/-- What rounds make of a particle, each over a tick within which it covers no more of the way
between the planes than there is room. -/
inductive Rounds (m : Collision K) (context : UpdateContext K) (normal : Vec3 K) (room : K)
    (start : Particle K) :
    Particle K → Prop
  | none : Rounds m context normal room start start
  | next {particle : Particle K} (earlier : Rounds m context normal room start particle)
      (clock : Clock K) (dt : K)
      (noted : Bool) (stream : RandomStream) (forward : 0 ≤ dt)
      (short : |particle.velocity.dot normal| * dt ≤ room) :
      Rounds m context normal room start (m.round context clock dt noted stream particle)

/-- A particle between two planes, as large and as fast as it was. -/
structure Confined (m : Collision K) (context : UpdateContext K) (near far : Plane K)
    (start particle : Particle K) : Prop where
  scale_eq : particle.scale = start.scale
  spawnTransform_eq : particle.spawnTransform = start.spawnTransform
  near_le : m.radius.compute start context ≤ near.signedDistance particle.position
  far_le : m.radius.compute start context ≤ far.signedDistance particle.position
  lengthSquared_eq : particle.velocity.lengthSquared = start.velocity.lengthSquared

theorem Confined.round (confined : Confined m context near far start particle)
    (corridor : m.Corridor context start near far) (clock : Clock K) (noted : Bool)
    (forward : 0 ≤ dt)
    (short : |particle.velocity.dot near.normal| * dt ≤
      near.separation far - 2 * m.radius.compute start context)
    (stream : RandomStream) :
    Confined m context near far start (m.round context clock dt noted stream particle) := by
  let now : UpdateContext K := { context with clock := clock, tickTime := dt }
  let fresh : Particle K := { particle with collided := noted }
  have thickness : m.radius.compute fresh now = m.radius.compute start context := by
    simp only [CollisionRadius.compute, fresh, now, confined.scale_eq]
  have sees : m.Corridor now fresh near far :=
    corridor.of_spawnTransform rfl confined.spawnTransform_eq
  have kept := m.execute_sameMake now fresh stream
  obtain ⟨nearEnd, farEnd, speed⟩ :=
    sees.execute_between thickness forward short confined.near_le confined.far_le stream
  exact ⟨kept.scale_eq.trans confined.scale_eq,
    kept.spawnTransform_eq.trans confined.spawnTransform_eq, nearEnd, farEnd,
    speed.trans confined.lengthSquared_eq⟩

/-- Between two planes that face each other a particle stays outside both, and as fast as it was,
for as many rounds as it likes. -/
theorem facing_planes_confine (corridor : m.Corridor context start near far)
    (nearSide : m.radius.compute start context ≤ near.signedDistance start.position)
    (farSide : m.radius.compute start context ≤ far.signedDistance start.position)
    (rounds : Rounds m context near.normal
      (near.separation far - 2 * m.radius.compute start context) start particle) :
    m.radius.compute start context ≤ near.signedDistance particle.position ∧
      m.radius.compute start context ≤ far.signedDistance particle.position ∧
      particle.velocity.lengthSquared = start.velocity.lengthSquared ∧
      particle.velocity.length = start.velocity.length := by
  have confined : Confined m context near far start particle := by
    induction rounds with
    | none => exact ⟨rfl, rfl, nearSide, farSide, rfl⟩
    | next earlier clock dt noted stream forward short ih =>
      exact ih.round corridor clock noted forward short stream
  exact ⟨confined.near_le, confined.far_le, confined.lengthSquared_eq,
    congrArg Scalar.sqrt confined.lengthSquared_eq⟩

/-- Between a floor and a ceiling a particle bounces off the one in the first
round and off the other in the second. The same holds of a particle that sees
them from the moved origin of its birth. -/
theorem facing_planes_confine_twice :
    let m : Collision ℚ :=
      { bounce := .default, useTwoPlanes := true, plane₁ := ⟨.unitZ, .zero⟩,
        plane₂ := ⟨-.unitZ, .unitZ⟩,
        radius := .custom (1 / 10) }
    let context : UpdateContext ℚ := ⟨⟨0, 1⟩, .unitZ, true, .identity, 0, .one, .one⟩
    let start : Particle ℚ := { Particle.ofPosition ⟨0, 0, 1 / 4⟩ with velocity := ⟨1, 0, -2⟩ }
    let middle := m.round context ⟨0, 1⟩ (3 / 10) false (.ofSeed 1) start
    let last := m.round context ⟨3 / 10, 1⟩ (2 / 5) true (.ofSeed 2) middle
    let away := { context with localSpace := false }
    let origin : Vec3 ℚ := ⟨0, 0, -1⟩
    let born := { start with
      position := start.position - origin, spawnTransform := .ofTranslation origin }
    let bounced := m.round away ⟨0, 1⟩ (3 / 10) false (.ofSeed 1) born
    let returned := m.round away ⟨3 / 10, 1⟩ (2 / 5) true (.ofSeed 2) bounced
    (middle.velocity = ⟨1, 0, 2⟩ ∧ last.velocity = ⟨1, 0, -2⟩ ∧
      1 / 10 ≤ m.plane₁.signedDistance last.position ∧
      1 / 10 ≤ m.plane₂.signedDistance last.position ∧ last.velocity.lengthSquared = 5) ∧
    bounced.velocity = ⟨1, 0, 2⟩ ∧ returned.velocity = ⟨1, 0, -2⟩ ∧
      1 / 10 ≤ (m.plane₁.relativeTo origin).signedDistance returned.position ∧
      1 / 10 ≤ (m.plane₂.relativeTo origin).signedDistance returned.position ∧
      returned.velocity.lengthSquared = 5 := by
  intro m context start middle last away origin born bounced returned
  have facing : m.plane₁.Facing m.plane₂ := ⟨by decide +kernel, by decide +kernel⟩
  refine ⟨?_, ?_⟩
  · have corridor : m.Corridor context start m.plane₁ m.plane₂ :=
      .of_localSpace rfl rfl (by decide +kernel) rfl facing
    have rounds : Rounds m context m.plane₁.normal
        (m.plane₁.separation m.plane₂ - 2 * m.radius.compute start context) start last :=
      .next (.next .none _ _ _ _ (by decide +kernel) (by decide +kernel))
        _ _ _ _ (by decide +kernel) (by decide +kernel)
    obtain ⟨nearSide, farSide, speed, -⟩ :=
      facing_planes_confine corridor (by decide +kernel) (by decide +kernel) rounds
    have radius : m.radius.compute start context = 1 / 10 := by decide +kernel
    rw [radius] at nearSide farSide
    exact ⟨by decide +kernel, by decide +kernel, nearSide, farSide, speed.trans (by decide +kernel)⟩
  · have corridor :
        m.Corridor away born (m.plane₁.relativeTo origin) (m.plane₂.relativeTo origin) :=
      .of_translation rfl rfl rfl (by decide +kernel) rfl facing
    have rounds : Rounds m away (m.plane₁.relativeTo origin).normal
        ((m.plane₁.relativeTo origin).separation (m.plane₂.relativeTo origin) -
          2 * m.radius.compute born away) born returned :=
      .next (.next .none _ _ _ _ (by decide +kernel) (by decide +kernel))
        _ _ _ _ (by decide +kernel) (by decide +kernel)
    obtain ⟨nearSide, farSide, speed, -⟩ :=
      facing_planes_confine corridor (by decide +kernel) (by decide +kernel) rounds
    have radius : m.radius.compute born away = 1 / 10 := by decide +kernel
    rw [radius] at nearSide farSide
    exact ⟨by decide +kernel, by decide +kernel, nearSide, farSide, speed.trans (by decide +kernel)⟩

end Collision

end ParticleSystem
