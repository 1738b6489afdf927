import ParticleSystem.Json.Record
import ParticleSystem.Particle

namespace ParticleSystem

open Json

def Vec4.toJson (v : Vec4 Float32) : Json := .array (v.toList.map ofSingle)

def Vec4.ofJson? : Json → Option (Vec4 Float32)
  | .array [x, y, z, w] => return ⟨← single? x, ← single? y, ← single? z, ← single? w⟩
  | _ => none

namespace Affine

/-- The columns of the linear part, then the translation. -/
def toList {α : Type} (m : Affine α) : List α :=
  m.linear.x.toList ++ m.linear.y.toList ++ m.linear.z.toList ++ m.translation.toList

def ofList? {α : Type} : List α → Option (Affine α)
  | [a, b, c, d, e, f, g, h, i, x, y, z] => some ⟨⟨⟨a, b, c⟩, ⟨d, e, f⟩, ⟨g, h, i⟩⟩, ⟨x, y, z⟩⟩
  | _ => none

def toJson (m : Affine Float32) : Json := .array (m.toList.map ofSingle)

def ofJson? (j : Json) : Option (Affine Float32) := do ofList? (← list? single? j)

end Affine

namespace Particle

def toJson (p : Particle Float32) : Json :=
  .object
    [("local_position", ofVec3 p.position), ("velocity", ofVec3 p.velocity),
      ("rotation", p.rotation.toJson), ("rotation_vector", p.spinAxis.toJson),
      ("angular_vel", ofSingle p.spinRate), ("scale", ofVec3 p.scale),
      ("spawn_trans", p.spawnTransform.toJson), ("lifetime", ofSingle p.lifetime),
      ("current_life", ofSingle p.age), ("is_collided", .bool p.collided),
      ("collision_position", ofVec3 p.contact),
      ("collision_time_before_tick", ofSingle p.timeAfterContact)]

def ofJson? (j : Json) : Option (Particle Float32) := do
  let [position, velocity, rotation, spinAxis, spinRate, scale, spawnTransform, lifetime, age,
    collided, contact, timeAfterContact] ←
    j.fields? ["local_position", "velocity", "rotation", "rotation_vector", "angular_vel", "scale",
      "spawn_trans", "lifetime", "current_life", "is_collided", "collision_position",
      "collision_time_before_tick"] | none
  return {
    position := ← required? (triple? single?) position
    velocity := ← required? (triple? single?) velocity
    rotation := ← required? Vec4.ofJson? rotation
    spinAxis := ← required? Vec4.ofJson? spinAxis
    spinRate := ← required? single? spinRate
    scale := ← required? (triple? single?) scale
    spawnTransform := ← required? Affine.ofJson? spawnTransform
    lifetime := ← required? single? lifetime
    age := ← required? single? age
    collided := ← required? bool? collided
    contact := ← required? (triple? single?) contact
    timeAfterContact := ← required? single? timeAfterContact }

end Particle

end ParticleSystem
