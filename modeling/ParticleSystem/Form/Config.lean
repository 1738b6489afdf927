import ParticleSystem.Config.Basic
import ParticleSystem.Form.Stack
import ParticleSystem.Json.Reader
import ParticleSystem.Json.Writer

namespace ParticleSystem

open Json

/-- Why a file gives no setup. -/
inductive ConfigError
  /-- The file cannot be read. -/
  | unreadable
  /-- The text is no JSON document, or not one of a setup. -/
  | malformed
  | invalid (fault : ConfigFault Float32)
  deriving DecidableEq, Repr

def ConfigFault.message : ConfigFault Float32 → String
  | .tickTime value =>
    "Invalid config: tick_time must be positive, got " ++ Decimal.messageText value
  | .lifetime value =>
    "Invalid config: lifetime must be positive, got " ++ Decimal.messageText value
  | .planeNormal module => "Invalid config: " ++ module ++ " has a zero-length plane normal"

namespace Config

def toJson (c : Config Float32) : Json :=
  .object
    [("seed", .ofNat c.seed.toNat), ("tick_time", ofSingle c.tickTime),
      ("ticks", .ofNat c.ticks.toNat), ("particle_count", .ofNat c.particleCount.toNat),
      ("lifetime", ofSingle c.lifetime), ("local_space", .bool c.localSpace),
      ("front", ofVec3 c.front), ("emitter_position", ofVec3 c.position),
      ("max_extend", ofVec3 c.maxExtent), ("min_extend", ofVec3 c.minExtent),
      ("distributions", c.distributions.toJson), ("modules", c.modules.toJson)]

def ofJson? (j : Json) : Option (Config Float32) := do
  let [seed, tickTime, ticks, particleCount, lifetime, localSpace, front, position, maxExtent,
    minExtent, distributions, modules] ←
    j.fields? ["seed", "tick_time", "ticks", "particle_count", "lifetime", "local_space", "front",
      "emitter_position", "max_extend", "min_extend", "distributions", "modules"] | none
  let absent : Config Float32 := .default
  let word := natBelow? UInt32.size
  return {
    seed := .ofNat (← optional? (natBelow? UInt64.size) absent.seed.toNat seed)
    tickTime := ← optional? single? absent.tickTime tickTime
    ticks := .ofNat (← optional? word absent.ticks.toNat ticks)
    particleCount := .ofNat (← optional? word absent.particleCount.toNat particleCount)
    lifetime := ← optional? single? absent.lifetime lifetime
    localSpace := ← optional? bool? absent.localSpace localSpace
    front := ← optional? (triple? single?) absent.front front
    position := ← optional? (triple? single?) absent.position position
    maxExtent := ← optional? (triple? single?) absent.maxExtent maxExtent
    minExtent := ← optional? (triple? single?) absent.minExtent minExtent
    distributions := ← optional? DistributionTable.ofJson? absent.distributions distributions
    modules := ← optional? (Stack.ofJson? 1) absent.modules modules }

/-- The setup that a text describes, whether it can be run or not. -/
def read (text : String) : Except ConfigError (Config Float32) :=
  match (Json.ofText? text).bind ofJson? with
  | some c => .ok c
  | none => .error .malformed

def validate (c : Config Float32) : Except ConfigError Unit :=
  match c.fault? with
  | none => .ok ()
  | some fault => .error (.invalid fault)

/-- The setup that a text describes, if it can be run. -/
def ofText (text : String) : Except ConfigError (Config Float32) := do
  let c ← read text
  c.validate
  return c

/-- The setup that the contents of a file describe; there are none when it cannot be read. -/
def ofContents (contents : Option ByteArray) : Except ConfigError (Config Float32) :=
  match contents.bind String.fromUTF8? with
  | some text => ofText text
  | none => .error .unreadable

def toText (c : Config Float32) : String := c.toJson.pretty

end Config

end ParticleSystem
