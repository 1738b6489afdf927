import ParticleSystem.Distribution.Table

/-!
Parameters that may vary: a base value and references into a table. Binding
copies the referenced entries into the parameter; a reference that is absent or
names nothing leaves the base value in place.
-/

namespace ParticleSystem

structure ScalarValue (α : Type) where
  base : α
  ref : Option DistributionRef
  /-- The entry that `ref` named when the parameter was last bound. -/
  bound : Option (Distribution α)
  deriving BEq, DecidableEq, Repr

/-- A vector whose components vary apart. -/
structure VectorValue (α : Type) where
  base : Vec3 α
  refs : Vec3 (Option DistributionRef)
  bound : Vec3 (Option (Distribution α))
  deriving BEq, DecidableEq, Repr

variable {α : Type}

def DistributionTable.resolve? (table : DistributionTable α) (ref : Option DistributionRef) :
    Option (Distribution α) := ref.bind table.resolve

/-- The value of an optional entry, or the base value without drawing. -/
def Distribution.tickOr [Scalar α] (entry : Option (Distribution α)) (base : α) (clock : Clock α)
    (particle : Particle α) : Sampling α :=
  match entry with
  | some d => d.tick clock particle
  | none => pure base

namespace ScalarValue

def constant (base : α) : ScalarValue α := ⟨base, none, none⟩

/-- Varied by an entry, once bound. -/
def distributed (base : α) (ref : DistributionRef) : ScalarValue α := ⟨base, some ref, none⟩

def bind (v : ScalarValue α) (table : DistributionTable α) : ScalarValue α :=
  { v with bound := table.resolve? v.ref }

def unbind (v : ScalarValue α) : ScalarValue α := { v with bound := none }

def isBound (v : ScalarValue α) : Bool := v.bound.isSome

def tick [Scalar α] (v : ScalarValue α) (clock : Clock α) (particle : Particle α) : Sampling α :=
  Distribution.tickOr v.bound v.base clock particle

end ScalarValue

namespace VectorValue

def constant (base : Vec3 α) : VectorValue α := ⟨base, .splat none, .splat none⟩

def distributed (base : Vec3 α) (refs : Vec3 (Option DistributionRef)) : VectorValue α :=
  ⟨base, refs, .splat none⟩

def bind (v : VectorValue α) (table : DistributionTable α) : VectorValue α :=
  { v with bound := ⟨table.resolve? v.refs.x, table.resolve? v.refs.y, table.resolve? v.refs.z⟩ }

def unbind (v : VectorValue α) : VectorValue α := { v with bound := .splat none }

/-- The components are sampled in order. -/
def tick [Scalar α] (v : VectorValue α) (clock : Clock α) (particle : Particle α) :
    Sampling (Vec3 α) := do
  let x ← Distribution.tickOr v.bound.x v.base.x clock particle
  let y ← Distribution.tickOr v.bound.y v.base.y clock particle
  let z ← Distribution.tickOr v.bound.z v.base.z clock particle
  return ⟨x, y, z⟩

end VectorValue

end ParticleSystem
