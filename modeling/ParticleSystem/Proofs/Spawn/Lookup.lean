import ParticleSystem.Stack

namespace ParticleSystem

variable {α : Type} [Scalar α]

/-- Reads the entry of a kind at a position of a table and samples it, or takes the base value when
there is no such entry. -/
def DistributionTable.sampleAt (table : DistributionTable α) (ref : Option DistributionRef)
    (base : α) (clock : Clock α) (particle : Particle α) : Sampling α := fun stream =>
  match ref with
  | none => .ok base stream
  | some ⟨.random, index⟩ =>
    match table.randoms[index.toNat]? with
    | none => .ok base stream
    | some range => .ok (range.min + (range.max - range.min) * stream.peek) stream.advance
  | some ⟨.curve, index⟩ =>
    match table.curves[index.toNat]? with
    | none => .ok base stream
    | some curve =>
      let share := match curve.axis with
        | .particle => particle.lifeShare
        | .emitter => clock.share
      match curve.sample share with
      | .ok value => .ok value stream
      | .error fault => .error fault stream

def ScalarValue.lookup (table : DistributionTable α) (v : ScalarValue α) :
    Clock α → Particle α → Sampling α :=
  table.sampleAt v.ref v.base

/-- The components are looked up in order. -/
def VectorValue.lookup (table : DistributionTable α) (v : VectorValue α) (clock : Clock α)
    (particle : Particle α) : Sampling (Vec3 α) := do
  let x ← table.sampleAt v.refs.x v.base.x clock particle
  let y ← table.sampleAt v.refs.y v.base.y clock particle
  let z ← table.sampleAt v.refs.z v.base.z clock particle
  return ⟨x, y, z⟩

open Spawning in
/-- What a module does to a newborn when it holds no bindings. -/
def SpawnModule.interpret (table : DistributionTable α) (context : SpawnContext α) :
    SpawnModule α → Spawning α Unit
  | .directed m => do
    let strength ← sample (m.strength.lookup table) context
    let direction ← sample (m.direction.lookup table) context
    setVelocity (direction * strength)
  | .sector m => do
    let direction := m.direction.normalizeOr .zero
    if direction == Vec3.zero then setVelocity .zero
    else
      let share ← uniform
      let strength ← sample (m.strength.lookup table) context
      setVelocity (m.fanDirection direction context.front share * strength)
  | .cone m => do
    if m.direction.nearZero then setVelocity .zero
    else
      let uTheta ← uniform
      let uPhi ← uniform
      let strength ← sample (m.strength.lookup table) context
      setVelocity (m.spread uTheta uPhi * strength)
  | .sphere m => do
    let uTheta ← uniform
    let uPhi ← uniform
    let strength ← sample (m.strength.lookup table) context
    setVelocity (Spawn.Sphere.direction uTheta uPhi * strength)
  | .focus m => do
    let direction := m.centre - (← get).particle.position
    let length := direction.length
    if 0 < length then
      let rate ← sample (m.rate.lookup table) context
      setVelocity (direction / length * rate)
  | .orientation m => do
    let spinRate ← sample (m.spinRate.lookup table) context
    write fun p => { p with spinRate := spinRate }
    let angle ← sample (m.angle.lookup table) context
    write fun p =>
      { p with
        rotation := (Spawn.Orientation.unitAxis m.axis).extend (Scalar.radians angle)
        spinAxis := (Spawn.Orientation.unitAxis m.spinAxis).extend 0 }

/-- What a stack does to a newborn when it holds no bindings. -/
def Stack.interpret (s : Stack α) (table : DistributionTable α) (context : SpawnContext α) :
    EStateM StackFault (Newborn α) Unit := fun newborn =>
  match s.spawn.forM (·.interpret table context) newborn with
  | .ok _ newborn => .ok () newborn
  | .error fault newborn => .error (.curve fault) newborn

variable (table : DistributionTable α)

theorem DistributionTable.tickOr_resolve? (ref : Option DistributionRef) (base : α) :
    Distribution.tickOr (table.resolve? ref) base = table.sampleAt ref base := by
  funext clock particle stream
  match ref with
  | none => rfl
  | some ⟨.random, index⟩ =>
    have found : table.resolve? (some ⟨.random, index⟩) =
        table.randoms[index.toNat]?.map .random := rfl
    rw [found, sampleAt]
    cases table.randoms[index.toNat]? <;> rfl
  | some ⟨.curve, index⟩ =>
    have found : table.resolve? (some ⟨.curve, index⟩) =
        table.curves[index.toNat]?.map .curve := rfl
    rw [found, sampleAt]
    cases table.curves[index.toNat]? <;> rfl

theorem ScalarValue.tick_bind (v : ScalarValue α) : (v.bind table).tick = v.lookup table :=
  table.tickOr_resolve? v.ref v.base

theorem VectorValue.tick_bind (v : VectorValue α) : (v.bind table).tick = v.lookup table := by
  funext clock particle
  simp only [tick, bind, lookup, table.tickOr_resolve?]

theorem SpawnModule.execute_bind (m : SpawnModule α) (context : SpawnContext α) :
    (m.bind table).execute context = m.interpret table context := by
  cases m with
  | directed m =>
    simp only [bind, execute, interpret, Spawn.Directed.execute, Spawn.Directed.bind,
      ScalarValue.tick_bind, VectorValue.tick_bind]
  | sector m =>
    simp only [bind, execute, interpret, Spawn.Sector.execute, Spawn.Sector.bind,
      ScalarValue.tick_bind]
    rfl
  | cone m =>
    simp only [bind, execute, interpret, Spawn.Cone.execute, Spawn.Cone.bind, ScalarValue.tick_bind]
    rfl
  | sphere m =>
    simp only [bind, execute, interpret, Spawn.Sphere.execute, Spawn.Sphere.bind,
      ScalarValue.tick_bind]
  | focus m =>
    simp only [bind, execute, interpret, Spawn.Focus.execute, Spawn.Focus.bind,
      ScalarValue.tick_bind]
  | orientation m =>
    simp only [bind, execute, interpret, Spawn.Orientation.execute, Spawn.Orientation.bind,
      ScalarValue.tick_bind]

/-- A stack bound to a table looks every reference up in it. -/
theorem Stack.spawnParticle_rebind (s : Stack α) (context : SpawnContext α) :
    (s.rebind table).spawnParticle context = s.interpret table context := by
  have run : (s.rebind table).runSpawn context = s.spawn.forM (·.interpret table context) := by
    simp only [runSpawn, rebind, List.forM_eq_forM, List.forM_map, SpawnModule.execute_bind]
  have bound : (s.rebind table).bound = true := rfl
  funext newborn
  simp only [spawnParticle, bound, ↓reduceIte, run]
  rfl

end ParticleSystem
