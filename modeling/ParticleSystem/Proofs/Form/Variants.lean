import ParticleSystem.Proofs.Form.Stack
import ParticleSystem.Proofs.Json.Variants

/-!
What is written for tables, parameters, modules and stacks says the same in every variant. All
fields are written, so that a member of another name is none of them, and each value that is read
for a field is a variant of the one written.
-/

namespace ParticleSystem

open Json

namespace DistributionRef

theorem settled (inTagged : Bool) (r : DistributionRef) : Settled (ofJson? inTagged) r.toJson := by
  refine settled_record (by rfl) (by decide) ?_
  -- one variant for each field, in the order of the names
  rintro _ (_ | ⟨kind, _ | ⟨index, _ | _⟩⟩)
  simp [settled_name _ _ _ _ kind, settled_natBelow _ _ _ index]

theorem settled_optionToJson (inTagged : Bool) (ref : Option DistributionRef) :
    Settled (nullable? (ofJson? inTagged)) (optionToJson ref) := by
  cases ref with
  | none =>
    intro k variant
    cases variant
    rfl
  | some r => exact (settled inTagged r).nullable

end DistributionRef

theorem RandomRange.settled (r : RandomRange Float32) : Settled ofJson? r.toJson := by
  refine settled_record (by rfl) (by decide) ?_
  rintro _ (_ | ⟨min, _ | ⟨max, _ | _⟩⟩)
  simp [settled_single _ _ min, settled_single _ _ max]

theorem CurveKey.settled (k : CurveKey Float32) : Settled ofJson? k.toJson := by
  refine settled_record (by rfl) (by decide) ?_
  rintro _ (_ | ⟨time, _ | ⟨value, _ | _⟩⟩)
  simp [settled_single _ _ time, settled_single _ _ value]

theorem Curve.settled (c : Curve Float32) : Settled ofJson? c.toJson := by
  have each := settled_list (List.forall_mem_map.mpr fun k (_ : k ∈ c.keys) => k.settled)
  refine settled_record (by rfl) (by decide) ?_
  rintro _ (_ | ⟨keys, _ | ⟨axis, _ | _⟩⟩)
  simp [each _ keys, settled_name _ _ _ _ axis]

theorem DistributionTable.settled (t : DistributionTable Float32) : Settled ofJson? t.toJson := by
  have ranges := settled_list (List.forall_mem_map.mpr fun r (_ : r ∈ t.randoms) => r.settled)
  have lines := settled_list (List.forall_mem_map.mpr fun c (_ : c ∈ t.curves) => c.settled)
  refine settled_record (by rfl) (by decide) ?_
  rintro _ (_ | ⟨randoms, _ | ⟨curves, _ | _⟩⟩)
  simp [ranges _ randoms, lines _ curves]

theorem ScalarValue.settled (inTagged : Bool) (v : ScalarValue Float32) :
    Settled (ofJson? inTagged) v.toJson := by
  refine settled_record (by rfl) (by decide) ?_
  rintro _ (_ | ⟨base, _ | ⟨ref, _ | _⟩⟩)
  simp [settled_single _ _ base, DistributionRef.settled_optionToJson _ _ _ ref]

theorem VectorValue.settled (inTagged : Bool) (v : VectorValue Float32) :
    Settled (ofJson? inTagged) v.toJson := by
  have own := DistributionRef.settled_optionToJson inTagged
  have each : Settled (triple? (nullable? (DistributionRef.ofJson? inTagged)))
      (.array (v.refs.toList.map DistributionRef.optionToJson)) :=
    settled_triple (own v.refs.x) (own v.refs.y) (own v.refs.z)
  refine settled_record (by rfl) (by decide) ?_
  rintro _ (_ | ⟨base, _ | ⟨refs, _ | _⟩⟩)
  simp [settled_vec3 _ _ base, each _ refs]

namespace Spawn

theorem Directed.settled (inTagged : Bool) (m : Directed Float32) :
    Settled (ofJson? inTagged) m.toJson := by
  refine settled_record (by rfl) (by decide) ?_
  rintro _ (_ | ⟨strength, _ | ⟨direction, _ | _⟩⟩)
  simp [m.strength.settled _ _ strength, m.direction.settled _ _ direction]

theorem Sector.settled (inTagged : Bool) (m : Sector Float32) :
    Settled (ofJson? inTagged) m.toJson := by
  refine settled_record (by rfl) (by decide) ?_
  rintro _ (_ | ⟨strength, _ | ⟨direction, _ | ⟨opening, _ | ⟨turn, _ | _⟩⟩⟩⟩)
  simp [m.strength.settled _ _ strength, settled_vec3 _ _ direction, settled_single _ _ opening,
    settled_single _ _ turn]

theorem Cone.settled (inTagged : Bool) (m : Cone Float32) :
    Settled (ofJson? inTagged) m.toJson := by
  refine settled_record (by rfl) (by decide) ?_
  rintro _ (_ | ⟨strength, _ | ⟨direction, _ | ⟨aperture, _ | _⟩⟩⟩)
  simp [m.strength.settled _ _ strength, settled_vec3 _ _ direction, settled_single _ _ aperture]

theorem Sphere.settled (inTagged : Bool) (m : Sphere Float32) :
    Settled (ofJson? inTagged) m.toJson := by
  refine settled_record (by rfl) (by decide) ?_
  rintro _ (_ | ⟨strength, _ | _⟩)
  simp [m.strength.settled _ _ strength]

theorem Focus.settled (inTagged : Bool) (m : Focus Float32) :
    Settled (ofJson? inTagged) m.toJson := by
  refine settled_record (by rfl) (by decide) ?_
  rintro _ (_ | ⟨rate, _ | ⟨centre, _ | _⟩⟩)
  simp [m.rate.settled _ _ rate, settled_vec3 _ _ centre]

theorem Orientation.settled (inTagged : Bool) (m : Orientation Float32) :
    Settled (ofJson? inTagged) m.toJson := by
  refine settled_record (by rfl) (by decide) ?_
  rintro _ (_ | ⟨angle, _ | ⟨axis, _ | ⟨spinRate, _ | ⟨spinAxis, _ | _⟩⟩⟩⟩)
  simp [m.angle.settled _ _ angle, settled_vec3 _ _ axis, m.spinRate.settled _ _ spinRate,
    settled_vec3 _ _ spinAxis]

end Spawn

theorem Plane.settled (p : Plane Float32) : Settled ofJson? p.toJson := by
  refine settled_record (by rfl) (by decide) ?_
  rintro _ (_ | ⟨normal, _ | ⟨position, _ | _⟩⟩)
  simp [settled_vec3 _ _ normal, settled_vec3 _ _ position]

theorem CollisionRadius.settled (inTagged : Bool) (r : CollisionRadius Float32) :
    Settled (ofJson? inTagged) r.toJson := by
  refine settled_record (by rfl) (by decide) ?_
  rintro _ (_ | ⟨shape, _ | ⟨method, _ | ⟨radius, _ | ⟨scale, _ | _⟩⟩⟩⟩)
  simp [settled_name _ _ _ _ shape, settled_name _ _ _ _ method, settled_single _ _ radius,
    settled_single _ _ scale]

theorem Bounce.settled (b : Bounce Float32) : Settled ofJson? b.toJson := by
  refine settled_record (by rfl) (by decide) ?_
  rintro _ (_ | ⟨restitution, _ | ⟨jitter, _ | _⟩⟩)
  simp [settled_single _ _ restitution, settled_single _ _ jitter]

theorem Collision.settled (inTagged : Bool) (m : Collision Float32) :
    Settled (ofJson? inTagged) m.toJson := by
  refine settled_record (by rfl) (by decide) ?_
  rintro _ (_ | ⟨bounce, _ | ⟨two, _ | ⟨plane₁, _ | ⟨plane₂, _ | ⟨radius, _ | _⟩⟩⟩⟩⟩)
  simp [m.bounce.settled _ bounce, settled_bool _ _ two, m.plane₁.settled _ plane₁,
    m.plane₂.settled _ plane₂, m.radius.settled _ _ radius]

/-- A tagged record that can be taken in as a whole settles when what
is made of its kind and the rest does. -/
theorem Json.settled_tag {β : Type} {limit level : Nat} {kind : String}
    {members : List (String × Json)}
    {body : String × Json → Option β} (regular : (tag kind (.object members)).Regular limit)
    (shallow : level + limit ≤ nestingLimit) (apart : "kind" ∉ members.map Prod.fst)
    (settled : Settled (fun record => body (kind, record)) (.object members)) :
    Settled (fun j => if j.admissible level then j.tagged?.bind body else none)
      (tag kind (.object members)) := by
  intro k variant
  obtain ⟨record, found, varies⟩ := variant.tagged? apart
  simp only [regular.admissible shallow, (variant.regular regular).admissible shallow,
    if_true, found, tagged?_tag kind apart, Option.bind_some]
  exact settled record varies

theorem SpawnModule.settled {level : Nat} (shallow : level + 4 ≤ nestingLimit)
    {m : SpawnModule Float32} (exact : ∀ x ∈ m.numbers, ReadsBack x) :
    Settled (ofJson? level) m.toJson := by
  have regular := @regular_toJson 0 m exact
  cases m with
  | directed m => exact settled_tag regular shallow (by simp) ((m.settled true).map directed)
  | sector m => exact settled_tag regular shallow (by simp) ((m.settled true).map sector)
  | cone m => exact settled_tag regular shallow (by simp) ((m.settled true).map cone)
  | sphere m => exact settled_tag regular shallow (by simp) ((m.settled true).map sphere)
  | focus m => exact settled_tag regular shallow (by simp) ((m.settled true).map focus)
  | orientation m => exact settled_tag regular shallow (by simp) ((m.settled true).map orientation)

theorem UpdateModule.settled {level : Nat} (shallow : level + 3 ≤ nestingLimit)
    {m : UpdateModule Float32} (exact : ∀ x ∈ m.numbers, ReadsBack x) :
    Settled (ofJson? level) m.toJson := by
  have regular := @regular_toJson 0 m exact
  cases m with
  | collision m => exact settled_tag regular shallow (by simp) ((m.settled true).map collision)

theorem Stack.settled {level : Nat} (shallow : level + 6 ≤ nestingLimit) {s : Stack Float32}
    (exact : ∀ x ∈ s.numbers, ReadsBack x) : Settled (ofJson? level) s.toJson := by
  obtain ⟨makers, movers⟩ := List.forall_mem_append.mp exact
  have spawns := settled_list (List.forall_mem_map.mpr fun m (present : m ∈ s.spawn) =>
    SpawnModule.settled (show level + 2 + 4 ≤ nestingLimit from shallow)
      fun x own => makers x (List.mem_flatMap_of_mem present own))
  have updates := settled_list (List.forall_mem_map.mpr fun m (present : m ∈ s.update) =>
    UpdateModule.settled (show level + 2 + 3 ≤ nestingLimit from Nat.le_of_succ_le shallow)
      fun x own => movers x (List.mem_flatMap_of_mem present own))
  refine settled_record (by rfl) (by decide) ?_
  rintro _ (_ | ⟨spawn, _ | ⟨update, _ | _⟩⟩)
  simp [spawns _ spawn, updates _ update]

end ParticleSystem
