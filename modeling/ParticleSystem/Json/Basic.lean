import ParticleSystem.Decimal.Reading

namespace ParticleSystem

/-- JSON documents. Numbers keep their digits, and the members of an object their order and
repetitions. -/
inductive Json
  | null
  | bool (value : Bool)
  | number (numeral : Numeral)
  | string (text : String)
  | array (items : List Json)
  | object (members : List (String × Json))
  /-- A string with an unpaired surrogate, or an object with such
  a key: well formed, but only to skip. -/
  | unreadable
  deriving Repr

namespace Json

def ofNat (n : Nat) : Json := .number (.ofNat n)

mutual

/-- How deep arrays and objects are nested in a value, itself included. -/
def depth : Json → Nat
  | .array items => 1 + depthOfItems items
  | .object members => 1 + depthOfMembers members
  | _ => 0

def depthOfItems : List Json → Nat
  | [] => 0
  | item :: rest => max (depth item) (depthOfItems rest)

def depthOfMembers : List (String × Json) → Nat
  | [] => 0
  | (_, value) :: rest => max (depth value) (depthOfMembers rest)

end

mutual

/-- Whether every string in a value can be read and every number is within the range of doubles. -/
def sound : Json → Bool
  | .number numeral => numeral.toDouble?.isSome
  | .array items => soundItems items
  | .object members => soundMembers members
  | .unreadable => false
  | _ => true

def soundItems : List Json → Bool
  | [] => true
  | item :: rest => sound item && soundItems rest

def soundMembers : List (String × Json) → Bool
  | [] => true
  | (_, value) :: rest => sound value && soundMembers rest

end

end Json

end ParticleSystem
