import ParticleSystem.Config.Basic
import ParticleSystem.Pool.Basic
import ParticleSystem.Pool.Layout

namespace ParticleSystem

/-- What is kept about a live particle beside the particle. -/
structure ParticleStats (α : Type) where
  /-- The emitter's time when it was spawned. -/
  spawnTime : α
  /-- The emitter's time at its latest contact. -/
  lastHitTime : α
  bounces : UInt32
  /-- How many particles were spawned before it. -/
  serial : UInt32
  deriving BEq, DecidableEq, Repr

namespace ParticleStats

variable {α β : Type} [Layout α β]

/-- The cells of a record. -/
def size : UInt32 := 16

omit [Layout α β] in
def hit (s : ParticleStats α) (time : α) : ParticleStats α :=
  { s with bounces := s.bounces + 1, lastHitTime := time }

def toCells (s : ParticleStats α) : List β :=
  Layout.ofScalar s.spawnTime ++ Layout.ofScalar s.lastHitTime ++ Layout.ofWord α s.bounces ++
    Layout.ofWord α s.serial

def ofCells (cells : List β) : ParticleStats α where
  spawnTime := Layout.toScalar (cells.take 4)
  lastHitTime := Layout.toScalar ((cells.drop 4).take 4)
  bounces := Layout.toWord α ((cells.drop 8).take 4)
  serial := Layout.toWord α ((cells.drop 12).take 4)

end ParticleStats

structure LiveParticle (α : Type) where
  particle : Particle α
  /-- The slot of its side record. -/
  slot : Nat
  deriving BEq, DecidableEq, Repr

/-- What happened during a tick. -/
structure TickReport where
  collisions : Nat
  expired : Nat
  deriving BEq, DecidableEq, Repr

inductive EmitterFault
  | stack (fault : StackFault)
  | pool (fault : PoolFault)
  /-- A counter of 32 bits is full. -/
  | counterFull
  deriving BEq, DecidableEq, Repr

def EmitterFault.message : EmitterFault → String
  | .stack fault => fault.message
  | .pool fault => fault.message
  | .counterFull => "attempt to add with overflow"

/-- Live particles, a clock and a random stream, with a side record for each particle in a pool.
Scalars are of type `α`, the cells of the pool of type `β`. -/
structure Emitter (α β : Type) where
  config : Config α
  random : RandomStream
  /-- The modules of the configuration, bound to its table. -/
  modules : Stack α
  /-- In the order they were spawned. -/
  particles : Array (LiveParticle α)
  pool : Pool β
  time : α
  /-- The particles ever spawned. -/
  spawned : UInt32

namespace Emitter

variable {α β : Type} [Scalar α]

def ofConfig (config : Config α) : Emitter α β where
  config := config
  random := .ofSeed config.seed
  modules := config.modules.rebind config.distributions
  particles := #[]
  pool := .empty
  time := 0
  spawned := 0

/-- From the emitter's space to the world. -/
def transform (e : Emitter α β) : Affine α := .ofTranslation e.config.position

def clock (e : Emitter α β) : Clock α := ⟨e.time, e.config.duration⟩

def spawnContext (e : Emitter α β) : SpawnContext α where
  clock := e.clock
  front := e.config.front
  localSpace := e.config.localSpace
  emitter := e.transform

def updateContext (e : Emitter α β) (dt : α) : UpdateContext α where
  clock := e.clock
  front := e.config.front
  localSpace := e.config.localSpace
  emitter := e.transform
  tickTime := dt
  maxExtent := e.config.maxExtent
  minExtent := e.config.minExtent

/-- Resolves the references of the modules again. -/
def reload (e : Emitter α β) : Emitter α β :=
  { e with modules := e.modules.rebind e.config.distributions }

def worldPositions (e : Emitter α β) : List (Vec3 α) :=
  e.particles.toList.map fun live => live.particle.worldPosition e.config.localSpace e.transform

variable [Layout α β]

def recordAt (pool : Pool β) (slot : Nat) : Option (ParticleStats α) :=
  (pool.data? ParticleStats.size slot).map fun cells => .ofCells cells.toList

/-- The side record of the live particle at a position. -/
def stats? (e : Emitter α β) (i : Nat) : Option (ParticleStats α) :=
  e.particles[i]?.bind fun live => recordAt e.pool live.slot

/-- A particle at the emitter's origin, before the modules have worked on it. -/
def seedling (e : Emitter α β) : Particle α :=
  { Particle.default with lifetime := e.config.lifetime, spawnTransform := e.transform }

/-- Spawns one particle. Its place in the count is taken last. -/
def spawnOne : EStateM EmitterFault (Emitter α β) Unit := fun e =>
  match e.modules.spawnParticle e.spawnContext ⟨e.seedling, e.random⟩ with
  | .error fault newborn => .error (.stack fault) { e with random := newborn.stream }
  | .ok _ newborn =>
    let stats : ParticleStats α := ⟨e.time, 0, 0, e.spawned⟩
    let ⟨config, _, modules, particles, pool, time, spawned⟩ := e
    match Pool.store ParticleStats.size stats.toCells pool with
    | .error fault pool =>
      .error (.pool fault) ⟨config, newborn.stream, modules, particles, pool, time, spawned⟩
    | .ok slot pool =>
      if spawned.toNat + 1 < UInt32.size then
        let particles := particles.push ⟨newborn.particle, slot⟩
        .ok () ⟨config, newborn.stream, modules, particles, pool, time, spawned + 1⟩
      else .error .counterFull ⟨config, newborn.stream, modules, particles, pool, time, spawned⟩

/-- Spawns a number of particles at the present time. -/
def spawn : (count : Nat) → EStateM EmitterFault (Emitter α β) Unit
  | 0 => pure ()
  | count + 1 => do
    spawnOne
    spawn count

/-- What the particles share during a tick. -/
structure Ledger (β : Type) where
  random : RandomStream
  pool : Pool β
  collisions : Nat

/-- Counts a contact in the record of a slot. -/
def recordHit (slot : Nat) (time : α) : EStateM EmitterFault (Ledger β) Unit := fun ledger =>
  match (recordAt ledger.pool slot : Option (ParticleStats α)) with
  | none => .ok () ledger
  | some stats =>
    if stats.bounces.toNat + 1 < UInt32.size then
      let ⟨random, pool, collisions⟩ := ledger
      let cells := (stats.hit time).toCells
      .ok () ⟨random, pool.write ParticleStats.size slot cells, collisions⟩
    else .error .counterFull ledger

/-- Updates one particle: the modules first, then its record, then its position and age. -/
def advance (modules : Stack α) (context : UpdateContext α) (time : α) (live : LiveParticle α) :
    EStateM EmitterFault (Ledger β) (LiveParticle α) := fun ledger =>
  match modules.updateParticle context live.particle ledger.random with
  | .error fault random => .error (.stack fault) { ledger with random := random }
  | .ok particle random =>
    let next : LiveParticle α := ⟨particle.integrate context.tickTime, live.slot⟩
    if particle.collided then
      let ledger := { ledger with random := random, collisions := ledger.collisions + 1 }
      match recordHit live.slot (time + context.tickTime - particle.timeAfterContact) ledger with
      | .ok _ ledger => .ok next ledger
      | .error fault ledger => .error fault ledger
    else .ok next { ledger with random := random }

/-- Gives back the slots of expired particles, in order. -/
def releaseAll : List (LiveParticle α) → EStateM PoolFault (Pool β) Unit
  | [] => pure ()
  | live :: rest => do
    Pool.free ParticleStats.size live.slot
    releaseAll rest

/-- Advances every live particle by `dt`, then drops the expired ones. -/
def tick (dt : α) : EStateM EmitterFault (Emitter α β) TickReport := fun e =>
  let context := e.updateContext dt
  let ⟨config, random, modules, particles, pool, time, spawned⟩ := e
  match particles.toList.mapM (advance modules context time) ⟨random, pool, 0⟩ with
  | .error fault ledger =>
    .error fault ⟨config, ledger.random, modules, particles, ledger.pool, time, spawned⟩
  | .ok lives ⟨random, pool, collisions⟩ =>
    let expired := lives.filter (·.particle.expired)
    let kept := (lives.filter (!·.particle.expired)).toArray
    match releaseAll expired pool with
    | .error fault pool => .error (.pool fault) ⟨config, random, modules, kept, pool, time, spawned⟩
    | .ok _ pool =>
      .ok ⟨collisions, expired.length⟩ ⟨config, random, modules, kept, pool, time + dt, spawned⟩

end Emitter

end ParticleSystem
