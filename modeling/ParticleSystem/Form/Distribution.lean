import ParticleSystem.Json.Record
import ParticleSystem.Distribution.Value

namespace ParticleSystem

open Json

namespace DistributionRef

def kinds : List (String × DistributionKind) := [("Random", .random), ("Curve", .curve)]

def kindName : DistributionKind → String
  | .random => "Random"
  | .curve => "Curve"

def toJson (r : DistributionRef) : Json :=
  .object [("kind", .string (kindName r.kind)), ("index", .ofNat r.index.toNat)]

def ofJson? (inTagged : Bool) (j : Json) : Option DistributionRef := do
  let [kind, index] ← j.fields? ["kind", "index"] | none
  return ⟨← required? (name? inTagged kinds) kind,
    .ofNat (← required? (natBelow? UInt32.size) index)⟩

def optionToJson : Option DistributionRef → Json
  | none => .null
  | some r => r.toJson

end DistributionRef

namespace RandomRange

def toJson (r : RandomRange Float32) : Json :=
  .object [("min", ofSingle r.min), ("max", ofSingle r.max)]

def ofJson? (j : Json) : Option (RandomRange Float32) := do
  let [min, max] ← j.fields? ["min", "max"] | none
  return ⟨← required? single? min, ← required? single? max⟩

end RandomRange

namespace CurveKey

def toJson (k : CurveKey Float32) : Json :=
  .object [("time", ofSingle k.time), ("value", ofSingle k.value)]

def ofJson? (j : Json) : Option (CurveKey Float32) := do
  let [time, value] ← j.fields? ["time", "value"] | none
  return ⟨← required? single? time, ← required? single? value⟩

end CurveKey

namespace Curve

def axes : List (String × CurveAxis) := [("Particle", .particle), ("Emitter", .emitter)]

def axisName : CurveAxis → String
  | .particle => "Particle"
  | .emitter => "Emitter"

def toJson (c : Curve Float32) : Json :=
  .object [("keys", .array (c.keys.map CurveKey.toJson)), ("tick_mode", .string (axisName c.axis))]

def ofJson? (j : Json) : Option (Curve Float32) := do
  let [keys, axis] ← j.fields? ["keys", "tick_mode"] | none
  return ⟨← required? (list? CurveKey.ofJson?) keys, ← optional? (name? false axes) .particle axis⟩

end Curve

namespace DistributionTable

def empty {α : Type} : DistributionTable α := ⟨[], []⟩

def toJson (t : DistributionTable Float32) : Json :=
  .object
    [("randoms", .array (t.randoms.map RandomRange.toJson)),
      ("curves", .array (t.curves.map Curve.toJson))]

def ofJson? (j : Json) : Option (DistributionTable Float32) := do
  let [randoms, curves] ← j.fields? ["randoms", "curves"] | none
  return ⟨← optional? (list? RandomRange.ofJson?) [] randoms,
    ← optional? (list? Curve.ofJson?) [] curves⟩

end DistributionTable

namespace ScalarValue

def toJson (v : ScalarValue Float32) : Json :=
  .object [("value", ofSingle v.base), ("dist", DistributionRef.optionToJson v.ref)]

def ofJson? (inTagged : Bool) (j : Json) : Option (ScalarValue Float32) := do
  let [base, ref] ← j.fields? ["value", "dist"] | none
  return ⟨← required? single? base,
    ← optional? (nullable? (DistributionRef.ofJson? inTagged)) none ref, none⟩

end ScalarValue

namespace VectorValue

def toJson (v : VectorValue Float32) : Json :=
  .object
    [("value", ofVec3 v.base), ("dist", .array (v.refs.toList.map DistributionRef.optionToJson))]

def ofJson? (inTagged : Bool) (j : Json) : Option (VectorValue Float32) := do
  let [base, refs] ← j.fields? ["value", "dist"] | none
  return {
    base := ← required? (triple? single?) base
    refs := ← optional? (triple? (nullable? (DistributionRef.ofJson? inTagged))) (.splat none) refs
    bound := .splat none }

end VectorValue

end ParticleSystem
