import ParticleSystem.Emitter.Basic

namespace ParticleSystem

structure RunSummary (α : Type) where
  ticks : Nat
  spawned : Nat
  collisions : Nat
  expired : Nat
  alive : Nat
  /-- The lowest height in the world that a live particle reached, the emitter's own without one. -/
  minWorldZ : α
  deriving BEq, DecidableEq, Repr

/-- What the ticks of a run add up to. -/
structure RunTotals (α : Type) where
  collisions : Nat
  expired : Nat
  lowest : Option α

namespace Emitter

variable {α β : Type} [Scalar α]

/-- Whether a height lies below every infinite one; what is not a number does not. -/
def belowInfinity (z : α) : Bool := Scalar.isFinite z || z < 0

/-- The lower of the lowest height so far and another one. -/
def lower (lowest : Option α) (z : α) : Option α :=
  match lowest with
  | none => if belowInfinity z then some z else none
  | some least => if z < least then some z else some least

variable [Layout α β]

def runTicks : (ticks : Nat) → RunTotals α → EStateM EmitterFault (Emitter α β) (RunTotals α)
  | 0, totals => pure totals
  | ticks + 1, totals => do
    let report ← tick (← get).config.tickTime
    let heights := (← get).worldPositions.map Vec3.z
    runTicks ticks
      ⟨totals.collisions + report.collisions, totals.expired + report.expired,
        heights.foldl lower totals.lowest⟩

/-- Spawns the burst of the configuration and runs its ticks. -/
def run : EStateM EmitterFault (Emitter α β) (RunSummary α) := do
  let config := (← get).config
  spawn config.particleCount.toNat
  let totals ← runTicks config.ticks.toNat ⟨0, 0, none⟩
  return {
    ticks := config.ticks.toNat
    spawned := config.particleCount.toNat
    collisions := totals.collisions
    expired := totals.expired
    alive := (← get).particles.size
    minWorldZ := totals.lowest.getD config.position.z }

end Emitter

end ParticleSystem
