import ParticleSystem.Spawn.Velocity
import ParticleSystem.Spawn.Orientation
import ParticleSystem.Collision.Bounce

namespace ParticleSystem

/-- A module that runs once for each new particle. -/
inductive SpawnModule (α : Type)
  | directed (m : Spawn.Directed α)
  | sector (m : Spawn.Sector α)
  | cone (m : Spawn.Cone α)
  | sphere (m : Spawn.Sphere α)
  | focus (m : Spawn.Focus α)
  | orientation (m : Spawn.Orientation α)
  deriving BEq, DecidableEq, Repr

/-- A module that runs in every tick. -/
inductive UpdateModule (α : Type)
  | collision (m : Collision α)
  deriving BEq, DecidableEq, Repr

/-- The modules of an emitter, in order. A stack is bound to a table once its references are
resolved; only a bound stack runs. -/
structure Stack (α : Type) where
  spawn : List (SpawnModule α)
  update : List (UpdateModule α)
  /-- Whether the references have been resolved since the stack was built. -/
  bound : Bool
  deriving BEq, DecidableEq, Repr

inductive StackFault
  | spawnUnbound
  | updateUnbound
  | curve (fault : CurveFault)
  deriving BEq, DecidableEq, Repr

def StackFault.message : StackFault → String
  | .spawnUnbound => "ModuleStack::spawn before rebind"
  | .updateUnbound => "ModuleStack::update before rebind"
  | .curve fault => fault.message

variable {α : Type} [Scalar α]

namespace SpawnModule

omit [Scalar α] in
def bind (table : DistributionTable α) : SpawnModule α → SpawnModule α
  | .directed m => .directed (m.bind table)
  | .sector m => .sector (m.bind table)
  | .cone m => .cone (m.bind table)
  | .sphere m => .sphere (m.bind table)
  | .focus m => .focus (m.bind table)
  | .orientation m => .orientation (m.bind table)

omit [Scalar α] in
def unbind : SpawnModule α → SpawnModule α
  | .directed m => .directed m.unbind
  | .sector m => .sector m.unbind
  | .cone m => .cone m.unbind
  | .sphere m => .sphere m.unbind
  | .focus m => .focus m.unbind
  | .orientation m => .orientation m.unbind

def execute (context : SpawnContext α) : SpawnModule α → Spawning α Unit
  | .directed m => m.execute context
  | .sector m => m.execute context
  | .cone m => m.execute context
  | .sphere m => m.execute context
  | .focus m => m.execute context
  | .orientation m => m.execute context

omit [Scalar α] in
def name : SpawnModule α → String
  | .directed _ => "SpawnVelDirection"
  | .sector _ => "SpawnVelSector"
  | .cone _ => "SpawnVelCone"
  | .sphere _ => "SpawnVelSphere"
  | .focus _ => "SpawnVelConcentrate"
  | .orientation _ => "SpawnRotation"

end SpawnModule

namespace UpdateModule

def execute (context : UpdateContext α) (particle : Particle α) :
    UpdateModule α → StateM RandomStream (Particle α)
  | .collision m => m.execute context particle

omit [Scalar α] in
def name : UpdateModule α → String
  | .collision _ => "ParticleCollision"

end UpdateModule

namespace Stack

omit [Scalar α] in
/-- A stack of modules that has not been bound. -/
def ofModules (spawn : List (SpawnModule α)) (update : List (UpdateModule α)) : Stack α :=
  ⟨spawn, update, false⟩

omit [Scalar α] in
def empty : Stack α := ofModules [] []

omit [Scalar α] in
/-- Resolves every reference in a table, whatever was bound before. -/
def rebind (s : Stack α) (table : DistributionTable α) : Stack α :=
  { s with spawn := s.spawn.map (·.bind table), bound := true }

omit [Scalar α] in
def unbind (s : Stack α) : Stack α := ofModules (s.spawn.map (·.unbind)) s.update

/-- Runs the spawn modules in order, whether the stack is bound or not. -/
def runSpawn (s : Stack α) (context : SpawnContext α) : Spawning α Unit :=
  s.spawn.forM (·.execute context)

/-- Runs the update modules in order on a particle whose last contact is forgotten. -/
def runUpdate (s : Stack α) (context : UpdateContext α) (particle : Particle α) :
    StateM RandomStream (Particle α) :=
  s.update.foldlM (fun p m => m.execute context p) { particle with collided := false }

/-- Makes a new particle. -/
def spawnParticle (s : Stack α) (context : SpawnContext α) : EStateM StackFault (Newborn α) Unit :=
  if s.bound then fun newborn =>
    match s.runSpawn context newborn with
    | .ok _ newborn => .ok () newborn
    | .error fault newborn => .error (.curve fault) newborn
  else throw .spawnUnbound

/-- Advances a live particle by one tick, up to its integration. -/
def updateParticle (s : Stack α) (context : UpdateContext α) (particle : Particle α) :
    EStateM StackFault RandomStream (Particle α) :=
  if s.bound then fun stream =>
    let (particle, stream) := s.runUpdate context particle stream
    .ok particle stream
  else throw .updateUnbound

end Stack

end ParticleSystem
