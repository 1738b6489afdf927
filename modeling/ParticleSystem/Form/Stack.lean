import ParticleSystem.Form.Distribution
import ParticleSystem.Stack

namespace ParticleSystem

open Json

namespace Spawn

def Directed.toJson (m : Directed Float32) : Json :=
  .object [("strength", m.strength.toJson), ("direction", m.direction.toJson)]

def Directed.ofJson? (inTagged : Bool) (j : Json) : Option (Directed Float32) := do
  let [strength, direction] ← j.fields? ["strength", "direction"] | none
  return ⟨← required? (ScalarValue.ofJson? inTagged) strength,
    ← required? (VectorValue.ofJson? inTagged) direction⟩

def Sector.toJson (m : Sector Float32) : Json :=
  .object
    [("strength", m.strength.toJson), ("direction", ofVec3 m.direction),
      ("central_angle", ofSingle m.opening), ("rotate_angle", ofSingle m.turn)]

def Sector.ofJson? (inTagged : Bool) (j : Json) : Option (Sector Float32) := do
  let [strength, direction, opening, turn] ←
    j.fields? ["strength", "direction", "central_angle", "rotate_angle"] | none
  return ⟨← required? (ScalarValue.ofJson? inTagged) strength,
    ← required? (triple? single?) direction, ← required? single? opening, ← required? single? turn⟩

def Cone.toJson (m : Cone Float32) : Json :=
  .object
    [("strength", m.strength.toJson), ("direction", ofVec3 m.direction),
      ("angle", ofSingle m.aperture)]

def Cone.ofJson? (inTagged : Bool) (j : Json) : Option (Cone Float32) := do
  let [strength, direction, aperture] ← j.fields? ["strength", "direction", "angle"] | none
  return ⟨← required? (ScalarValue.ofJson? inTagged) strength,
    ← required? (triple? single?) direction, ← required? single? aperture⟩

def Sphere.toJson (m : Sphere Float32) : Json := .object [("strength", m.strength.toJson)]

def Sphere.ofJson? (inTagged : Bool) (j : Json) : Option (Sphere Float32) := do
  let [strength] ← j.fields? ["strength"] | none
  return ⟨← required? (ScalarValue.ofJson? inTagged) strength⟩

def Focus.toJson (m : Focus Float32) : Json :=
  .object [("rate", m.rate.toJson), ("centre", ofVec3 m.centre)]

def Focus.ofJson? (inTagged : Bool) (j : Json) : Option (Focus Float32) := do
  let [rate, centre] ← j.fields? ["rate", "centre"] | none
  return ⟨← required? (ScalarValue.ofJson? inTagged) rate, ← required? (triple? single?) centre⟩

def Orientation.toJson (m : Orientation Float32) : Json :=
  .object
    [("init_angle", m.angle.toJson), ("init_axis", ofVec3 m.axis),
      ("rotate_speed", m.spinRate.toJson), ("rotate_axis", ofVec3 m.spinAxis)]

def Orientation.ofJson? (inTagged : Bool) (j : Json) : Option (Orientation Float32) := do
  let [angle, axis, spinRate, spinAxis] ←
    j.fields? ["init_angle", "init_axis", "rotate_speed", "rotate_axis"] | none
  return ⟨← required? (ScalarValue.ofJson? inTagged) angle, ← required? (triple? single?) axis,
    ← required? (ScalarValue.ofJson? inTagged) spinRate, ← required? (triple? single?) spinAxis⟩

end Spawn

namespace Plane

def toJson (p : Plane Float32) : Json :=
  .object [("normal", ofVec3 p.normal), ("position", ofVec3 p.position)]

def ofJson? (j : Json) : Option (Plane Float32) := do
  let [normal, position] ← j.fields? ["normal", "position"] | none
  return ⟨← required? (triple? single?) normal, ← required? (triple? single?) position⟩

end Plane

namespace CollisionRadius

def shapes : List (String × RadiusShape) :=
  [("Sprite", .sprite), ("Mesh", .mesh), ("Custom", .custom)]

def shapeName : RadiusShape → String
  | .sprite => "Sprite"
  | .mesh => "Mesh"
  | .custom => "Custom"

def methods : List (String × RadiusMethod) :=
  [("Bounds", .bounds), ("MaximumAxis", .maximumAxis), ("MinimumAxis", .minimumAxis)]

def methodName : RadiusMethod → String
  | .bounds => "Bounds"
  | .maximumAxis => "MaximumAxis"
  | .minimumAxis => "MinimumAxis"

def toJson (r : CollisionRadius Float32) : Json :=
  .object
    [("type", .string (shapeName r.shape)), ("method", .string (methodName r.method)),
      ("radius", ofSingle r.radius), ("radius_scale", ofSingle r.scale)]

def ofJson? (inTagged : Bool) (j : Json) : Option (CollisionRadius Float32) := do
  let [shape, method, radius, scale] ← j.fields? ["type", "method", "radius", "radius_scale"] | none
  return ⟨← required? (name? inTagged shapes) shape, ← required? (name? inTagged methods) method,
    ← required? single? radius, ← required? single? scale⟩

end CollisionRadius

namespace Bounce

def toJson (b : Bounce Float32) : Json :=
  .object [("restitution", ofSingle b.restitution), ("randomize_normal", ofSingle b.jitter)]

def ofJson? (j : Json) : Option (Bounce Float32) := do
  let [restitution, jitter] ← j.fields? ["restitution", "randomize_normal"] | none
  return ⟨← required? single? restitution, ← required? single? jitter⟩

end Bounce

namespace Collision

def toJson (m : Collision Float32) : Json :=
  .object
    [("bounce", m.bounce.toJson), ("use_two_plane", .bool m.useTwoPlanes),
      ("collision_plane1", m.plane₁.toJson), ("collision_plane2", m.plane₂.toJson),
      ("collision_radius", m.radius.toJson)]

def ofJson? (inTagged : Bool) (j : Json) : Option (Collision Float32) := do
  let [bounce, useTwoPlanes, plane₁, plane₂, radius] ←
    j.fields? ["bounce", "use_two_plane", "collision_plane1", "collision_plane2",
      "collision_radius"] | none
  return ⟨← required? Bounce.ofJson? bounce, ← optional? bool? false useTwoPlanes,
    ← required? Plane.ofJson? plane₁, ← optional? Plane.ofJson? .default plane₂,
    ← optional? (CollisionRadius.ofJson? inTagged) .default radius⟩

end Collision

namespace SpawnModule

def toJson : SpawnModule Float32 → Json
  | .directed m => m.toJson.tag "Direction"
  | .sector m => m.toJson.tag "Sector"
  | .cone m => m.toJson.tag "Cone"
  | .sphere m => m.toJson.tag "Sphere"
  | .focus m => m.toJson.tag "Concentrate"
  | .orientation m => m.toJson.tag "Rotation"

def ofRecord? (kind : String) (record : Json) : Option (SpawnModule Float32) :=
  match kind with
  | "Direction" => (Spawn.Directed.ofJson? true record).map .directed
  | "Sector" => (Spawn.Sector.ofJson? true record).map .sector
  | "Cone" => (Spawn.Cone.ofJson? true record).map .cone
  | "Sphere" => (Spawn.Sphere.ofJson? true record).map .sphere
  | "Concentrate" => (Spawn.Focus.ofJson? true record).map .focus
  | "Rotation" => (Spawn.Orientation.ofJson? true record).map .orientation
  | _ => none

/-- Reads a module that stands inside `level` arrays and objects. -/
def ofJson? (level : Nat) (j : Json) : Option (SpawnModule Float32) := do
  if j.admissible level then
    let (kind, record) ← j.tagged?
    ofRecord? kind record
  else none

end SpawnModule

namespace UpdateModule

def toJson : UpdateModule Float32 → Json
  | .collision m => m.toJson.tag "Collision"

/-- Reads a module that stands inside `level` arrays and objects. -/
def ofJson? (level : Nat) (j : Json) : Option (UpdateModule Float32) := do
  if j.admissible level then
    let (kind, record) ← j.tagged?
    match kind with
    | "Collision" => (Collision.ofJson? true record).map .collision
    | _ => none
  else none

end UpdateModule

namespace Stack

def toJson (s : Stack Float32) : Json :=
  .object
    [("spawn", .array (s.spawn.map SpawnModule.toJson)),
      ("update", .array (s.update.map UpdateModule.toJson))]

/-- Reads a stack that stands inside `level` arrays and objects. It is not bound. -/
def ofJson? (level : Nat) (j : Json) : Option (Stack Float32) := do
  let [spawn, update] ← j.fields? ["spawn", "update"] | none
  return .ofModules (← optional? (list? (SpawnModule.ofJson? (level + 2))) [] spawn)
    (← optional? (list? (UpdateModule.ofJson? (level + 2))) [] update)

end Stack

end ParticleSystem
