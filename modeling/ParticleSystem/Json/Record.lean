import ParticleSystem.Json.Basic
import ParticleSystem.Decimal.Layout
import ParticleSystem.Geometry.Vector

/-!
Records in JSON. A record is an object whose unknown members are skipped and whose
known ones stand once, or the array of its fields in order with trailing ones left
out. A tagged record also names its kind.
-/

namespace ParticleSystem.Json

/-- What is written for a number: its shortest digits, and null when it is not finite. -/
def ofSingle (x : Float32) : Json :=
  match Decimal.jsonNumeral? x with
  | some numeral => .number numeral
  | none => .null

def ofVec3 (v : Vec3 Float32) : Json := .array (v.toList.map ofSingle)

def single? : Json → Option Float32
  | .number numeral => numeral.toSingle?
  | _ => none

/-- A number from zero up to but not including a limit. -/
def natBelow? (limit : Nat) : Json → Option Nat
  | .number numeral => numeral.toNatBelow? limit
  | _ => none

def bool? : Json → Option Bool
  | .bool value => some value
  | _ => none

def list? {β : Type} (item : Json → Option β) : Json → Option (List β)
  | .array items => items.mapM item
  | _ => none

def triple? {β : Type} (item : Json → Option β) : Json → Option (Vec3 β)
  | .array [x, y, z] => return ⟨← item x, ← item y, ← item z⟩
  | _ => none

def nullable? {β : Type} (value : Json → Option β) : Json → Option (Option β)
  | .null => some none
  | other => (value other).map some

/-- One of several names: as a string, or as an object with the name as its only key and null behind
it; inside a tagged record an empty object will do as well. -/
def name? {β : Type} (inTagged : Bool) (names : List (String × β)) : Json → Option β
  | .string name => names.lookup name
  | .object [(name, .null)] => names.lookup name
  | .object [(name, .object [])] => if inTagged then names.lookup name else none
  | _ => none

/-- The value of a key that stands at most once. -/
def member? (members : List (String × Json)) (name : String) : Option (Option Json) :=
  match members.filter (·.1 == name) with
  | [] => some none
  | [(_, value)] => some (some value)
  | _ => none

/-- The values that a record gives for the named fields, in their order. -/
def fields? (names : List String) : Json → Option (List (Option Json))
  | .object members => names.mapM (member? members)
  | .array items =>
    if items.length ≤ names.length then
      some (items.map some ++ List.replicate (names.length - items.length) none)
    else none
  | _ => none

def required? {β : Type} (decode : Json → Option β) (field : Option Json) : Option β :=
  field.bind decode

def optional? {β : Type} (decode : Json → Option β) (absent : β) : Option Json → Option β
  | none => some absent
  | some value => decode value

/-- The kind of a tagged record and the record without it. -/
def tagged? : Json → Option (String × Json)
  | .object members =>
    match members.filter (·.1 == "kind") with
    | [(_, .string kind)] => some (kind, .object (members.filter (·.1 != "kind")))
    | _ => none
  | .array (.string kind :: rest) => some (kind, .array rest)
  | _ => none

/-- How many arrays and objects may be open at once around and within a tagged record. -/
def nestingLimit : Nat := 127

/-- Whether a tagged record may be taken in as a whole, inside `level` arrays and objects. -/
def admissible (level : Nat) (record : Json) : Bool :=
  record.sound && level + record.depth ≤ nestingLimit

/-- Writes the kind of a tagged record before its other members. -/
def tag (kind : String) : Json → Json
  | .object members => .object (("kind", .string kind) :: members)
  | other => other

end ParticleSystem.Json
