import ParticleSystem.Stack

namespace ParticleSystem

structure Config (α : Type) where
  seed : UInt64
  tickTime : α
  /-- The ticks of one loop. -/
  ticks : UInt32
  /-- The particles of the first burst. -/
  particleCount : UInt32
  lifetime : α
  /-- Whether particles live in the emitter's space. -/
  localSpace : Bool
  /-- The axis that sprites face along. -/
  front : Vec3 α
  /-- Where the emitter stands in the world. -/
  position : Vec3 α
  /-- The corners of the drawn mesh at unit scale. -/
  maxExtent : Vec3 α
  minExtent : Vec3 α
  distributions : DistributionTable α
  modules : Stack α
  deriving BEq, DecidableEq, Repr

inductive ConfigFault (α : Type)
  | tickTime (value : α)
  | lifetime (value : α)
  /-- A plane of a module has no direction. -/
  | planeNormal (module : String)
  deriving BEq, DecidableEq, Repr

namespace Config

variable {α : Type} [Scalar α]

/-- A burst in all directions over a bouncy floor. -/
def default : Config α where
  seed := 42
  tickTime := 1 / 60
  ticks := 240
  particleCount := 256
  lifetime := 4
  localSpace := true
  front := ⟨0, -1, 0⟩
  position := ⟨0, 0, 2⟩
  maxExtent := .splat 0.5
  minExtent := .splat (-0.5)
  distributions := ⟨[⟨2, 5⟩], []⟩
  modules := .ofModules
    [.sphere ⟨.distributed 3 ⟨.random, 0⟩⟩, .orientation .default]
    [.collision
      { Collision.default with
        bounce := ⟨1, 0.1⟩
        plane₁ := ⟨.unitZ, ⟨0, 0, -2⟩⟩
        radius := .custom 0.05 }]

def duration (c : Config α) : α := Scalar.ofNat c.ticks.toNat * c.tickTime

/-- Whether a module has a plane in use whose normal is near zero. -/
def degenerate : UpdateModule α → Bool
  | .collision m => m.planes.any (·.normal.nearZero)

/-- The first fault of a setup, if it has one. -/
def fault? (c : Config α) : Option (ConfigFault α) :=
  if ¬ 0 < c.tickTime then some (.tickTime c.tickTime)
  else if ¬ 0 < c.lifetime then some (.lifetime c.lifetime)
  else (c.modules.update.find? degenerate).map fun m => .planeNormal m.name

end Config

end ParticleSystem
