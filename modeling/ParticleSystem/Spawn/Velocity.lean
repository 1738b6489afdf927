import ParticleSystem.Spawn.Basic

namespace ParticleSystem.Spawn

variable {α : Type}

/-- Along a given direction, neither of them normalised. -/
structure Directed (α : Type) where
  strength : ScalarValue α
  direction : VectorValue α
  deriving BEq, DecidableEq, Repr

/-- Within a flat fan around a centre line. -/
structure Sector (α : Type) where
  strength : ScalarValue α
  /-- The centre line. -/
  direction : Vec3 α
  /-- The full opening of the fan. -/
  opening : α
  /-- How far the fan is turned around its centre line. -/
  turn : α
  deriving BEq, DecidableEq, Repr

/-- Within a cone around an axis. -/
structure Cone (α : Type) where
  strength : ScalarValue α
  direction : Vec3 α
  /-- The full aperture. -/
  aperture : α
  deriving BEq, DecidableEq, Repr

/-- In any direction. -/
structure Sphere (α : Type) where
  strength : ScalarValue α
  deriving BEq, DecidableEq, Repr

/-- Toward a fixed point. -/
structure Focus (α : Type) where
  rate : ScalarValue α
  centre : Vec3 α
  deriving BEq, DecidableEq, Repr

variable [Scalar α]

namespace Directed

def default : Directed α := ⟨.constant 1, .constant .unitZ⟩

omit [Scalar α] in
def bind (m : Directed α) (table : DistributionTable α) : Directed α :=
  ⟨m.strength.bind table, m.direction.bind table⟩

omit [Scalar α] in
def unbind (m : Directed α) : Directed α := ⟨m.strength.unbind, m.direction.unbind⟩

def execute (m : Directed α) (context : SpawnContext α) : Spawning α Unit := do
  let strength ← Spawning.sample m.strength.tick context
  let direction ← Spawning.sample m.direction.tick context
  Spawning.setVelocity (direction * strength)

end Directed

namespace Sector

def default : Sector α := ⟨.constant 1, .unitZ, 90, 0⟩

omit [Scalar α] in
def bind (m : Sector α) (table : DistributionTable α) : Sector α :=
  { m with strength := m.strength.bind table }

omit [Scalar α] in
def unbind (m : Sector α) : Sector α := { m with strength := m.strength.unbind }

/-- The normal of the fan's plane, for a unit centre line. -/
def normal (direction : Vec3 α) : Vec3 α :=
  let reference : Vec3 α :=
    if Scalar.abs (Scalar.abs (direction.dot .unitX) - 1) ≤ Scalar.epsilon then .unitY else .unitX
  (direction.cross reference).normalize

/-- The line in the fan's plane from which angles are measured, nearest to the emitter's up axis. -/
def zeroLine (normal front : Vec3 α) : Vec3 α :=
  let axis : Vec3 α := if front.close .unitZ then .unitY else .unitZ
  let up := axis.normalize
  let up := if Scalar.almostOne < Scalar.abs (normal.dot up) then ⟨up.z, up.x, up.y⟩ else up
  let right := (normal.cross up).normalize
  (right.cross normal).normalize

/-- The angle from the zero line to the centre line, within one turn. -/
def centreAngle (direction normal line : Vec3 α) : α :=
  let angle := Scalar.atan2 ((line.cross direction).dot normal) (line.dot direction)
  if angle < 0 then angle + Scalar.tau else angle

/-- The direction at a share of the way through the fan around a unit centre line. -/
def fanDirection (m : Sector α) (direction front : Vec3 α) (share : α) : Vec3 α :=
  let normal := normal direction
  let line := zeroLine normal front
  let opening := Scalar.radians m.opening
  let angle := centreAngle direction normal line - opening / 2 + opening * share
  let flat := (Quaternion.ofAxisAngle normal angle).rotate line
  if 0 < Scalar.abs m.turn then
    (Quaternion.ofAxisAngle direction (Scalar.radians m.turn)).rotate flat
  else flat

def execute (m : Sector α) (context : SpawnContext α) : Spawning α Unit := do
  let direction := m.direction.normalizeOr .zero
  if direction == Vec3.zero then Spawning.setVelocity .zero
  else
    let share ← Spawning.uniform
    let strength ← Spawning.sample m.strength.tick context
    Spawning.setVelocity (m.fanDirection direction context.front share * strength)

end Sector

namespace Cone

def default : Cone α := ⟨.constant 1, .unitZ, 30⟩

omit [Scalar α] in
def bind (m : Cone α) (table : DistributionTable α) : Cone α :=
  { m with strength := m.strength.bind table }

omit [Scalar α] in
def unbind (m : Cone α) : Cone α := { m with strength := m.strength.unbind }

/-- The direction for two uniform shares. -/
def spread (m : Cone α) (uTheta uPhi : α) : Vec3 α :=
  coneDirection m.direction (Scalar.radians m.aperture / 2) uTheta uPhi

def execute (m : Cone α) (context : SpawnContext α) : Spawning α Unit := do
  if m.direction.nearZero then Spawning.setVelocity .zero
  else
    let uTheta ← Spawning.uniform
    let uPhi ← Spawning.uniform
    let strength ← Spawning.sample m.strength.tick context
    Spawning.setVelocity (m.spread uTheta uPhi * strength)

end Cone

namespace Sphere

def default : Sphere α := ⟨.constant 1⟩

omit [Scalar α] in
def bind (m : Sphere α) (table : DistributionTable α) : Sphere α := ⟨m.strength.bind table⟩

omit [Scalar α] in
def unbind (m : Sphere α) : Sphere α := ⟨m.strength.unbind⟩

/-- The direction for two uniform shares, of a full turn and of a half turn. -/
def direction (uTheta uPhi : α) : Vec3 α := .ofAngles (Scalar.tau * uTheta) (Scalar.pi * uPhi)

def execute (m : Sphere α) (context : SpawnContext α) : Spawning α Unit := do
  let uTheta ← Spawning.uniform
  let uPhi ← Spawning.uniform
  let strength ← Spawning.sample m.strength.tick context
  Spawning.setVelocity (direction uTheta uPhi * strength)

end Sphere

namespace Focus

def default : Focus α := ⟨.constant 1, .zero⟩

omit [Scalar α] in
def bind (m : Focus α) (table : DistributionTable α) : Focus α :=
  { m with rate := m.rate.bind table }

omit [Scalar α] in
def unbind (m : Focus α) : Focus α := { m with rate := m.rate.unbind }

/-- A particle at the centre keeps its velocity. -/
def execute (m : Focus α) (context : SpawnContext α) : Spawning α Unit := do
  let direction := m.centre - (← get).particle.position
  let length := direction.length
  if 0 < length then
    let rate ← Spawning.sample m.rate.tick context
    Spawning.setVelocity (direction / length * rate)

end Focus

end ParticleSystem.Spawn
