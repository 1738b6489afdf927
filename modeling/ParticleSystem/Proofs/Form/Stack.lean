import ParticleSystem.Form.Stack
import ParticleSystem.Proofs.Form.Distribution

namespace ParticleSystem

open Json

variable {limit : Nat}

namespace Spawn

namespace Directed

def numbers (m : Directed Float32) : List Float32 := m.strength.numbers ++ m.direction.numbers

variable {m : Directed Float32}

theorem ofJson?_toJson (inTagged : Bool) (exact : ∀ x ∈ m.numbers, ReadsBack x) :
    ofJson? inTagged m.toJson = whenFinite m.numbers m.unbind := by
  obtain ⟨strength, direction⟩ := List.forall_mem_append.mp exact
  rw [ofJson?, toJson, fields?_object (by rfl) (by decide)]
  simp [ScalarValue.ofJson?_toJson inTagged strength, VectorValue.ofJson?_toJson inTagged direction,
    numbers, unbind]

theorem regular_tag_toJson (kind : String) (exact : ∀ x ∈ m.numbers, ReadsBack x) :
    Regular (limit + 4) (m.toJson.tag kind) := by
  obtain ⟨strength, direction⟩ := List.forall_mem_append.mp exact
  apply regular_tag
  simp only [List.forall_mem_cons]
  exact ⟨ScalarValue.regular_toJson strength, VectorValue.regular_toJson direction, by simp⟩

end Directed

namespace Sector

def numbers (m : Sector Float32) : List Float32 :=
  m.strength.numbers ++ (m.direction.toList ++ [m.opening, m.turn])

variable {m : Sector Float32}

theorem ofJson?_toJson (inTagged : Bool) (exact : ∀ x ∈ m.numbers, ReadsBack x) :
    ofJson? inTagged m.toJson = whenFinite m.numbers m.unbind := by
  simp only [numbers, List.forall_mem_append, List.forall_mem_cons] at exact
  obtain ⟨strength, direction, opening, turn, -⟩ := exact
  rw [ofJson?, toJson, fields?_object (by rfl) (by decide)]
  simp [ScalarValue.ofJson?_toJson inTagged strength, triple?_ofVec3 direction,
    single?_ofSingle opening, single?_ofSingle turn, numbers, unbind]

theorem regular_tag_toJson (kind : String) (exact : ∀ x ∈ m.numbers, ReadsBack x) :
    Regular (limit + 4) (m.toJson.tag kind) := by
  simp only [numbers, List.forall_mem_append, List.forall_mem_cons] at exact
  obtain ⟨strength, direction, opening, turn, -⟩ := exact
  apply regular_tag
  simp only [List.forall_mem_cons]
  exact ⟨ScalarValue.regular_toJson strength, regular_numbers direction, regular_ofSingle opening,
    regular_ofSingle turn, by simp⟩

end Sector

namespace Cone

def numbers (m : Cone Float32) : List Float32 :=
  m.strength.numbers ++ (m.direction.toList ++ [m.aperture])

variable {m : Cone Float32}

theorem ofJson?_toJson (inTagged : Bool) (exact : ∀ x ∈ m.numbers, ReadsBack x) :
    ofJson? inTagged m.toJson = whenFinite m.numbers m.unbind := by
  simp only [numbers, List.forall_mem_append, List.forall_mem_cons] at exact
  obtain ⟨strength, direction, aperture, -⟩ := exact
  rw [ofJson?, toJson, fields?_object (by rfl) (by decide)]
  simp [ScalarValue.ofJson?_toJson inTagged strength, triple?_ofVec3 direction,
    single?_ofSingle aperture, numbers, unbind]

theorem regular_tag_toJson (kind : String) (exact : ∀ x ∈ m.numbers, ReadsBack x) :
    Regular (limit + 4) (m.toJson.tag kind) := by
  simp only [numbers, List.forall_mem_append, List.forall_mem_cons] at exact
  obtain ⟨strength, direction, aperture, -⟩ := exact
  apply regular_tag
  simp only [List.forall_mem_cons]
  exact ⟨ScalarValue.regular_toJson strength, regular_numbers direction,
    regular_ofSingle aperture, by simp⟩

end Cone

namespace Sphere

def numbers (m : Sphere Float32) : List Float32 := m.strength.numbers

variable {m : Sphere Float32}

theorem ofJson?_toJson (inTagged : Bool) (exact : ∀ x ∈ m.numbers, ReadsBack x) :
    ofJson? inTagged m.toJson = whenFinite m.numbers m.unbind := by
  rw [ofJson?, toJson, fields?_object (by rfl) (by decide)]
  simp [ScalarValue.ofJson?_toJson inTagged exact, numbers, unbind]

theorem regular_tag_toJson (kind : String) (exact : ∀ x ∈ m.numbers, ReadsBack x) :
    Regular (limit + 4) (m.toJson.tag kind) := by
  apply regular_tag
  simp only [List.forall_mem_cons]
  exact ⟨ScalarValue.regular_toJson exact, by simp⟩

end Sphere

namespace Focus

def numbers (m : Focus Float32) : List Float32 := m.rate.numbers ++ m.centre.toList

variable {m : Focus Float32}

theorem ofJson?_toJson (inTagged : Bool) (exact : ∀ x ∈ m.numbers, ReadsBack x) :
    ofJson? inTagged m.toJson = whenFinite m.numbers m.unbind := by
  obtain ⟨rate, centre⟩ := List.forall_mem_append.mp exact
  rw [ofJson?, toJson, fields?_object (by rfl) (by decide)]
  simp [ScalarValue.ofJson?_toJson inTagged rate, triple?_ofVec3 centre, numbers, unbind]

theorem regular_tag_toJson (kind : String) (exact : ∀ x ∈ m.numbers, ReadsBack x) :
    Regular (limit + 4) (m.toJson.tag kind) := by
  obtain ⟨rate, centre⟩ := List.forall_mem_append.mp exact
  apply regular_tag
  simp only [List.forall_mem_cons]
  exact ⟨ScalarValue.regular_toJson rate, regular_numbers centre, by simp⟩

end Focus

namespace Orientation

def numbers (m : Orientation Float32) : List Float32 :=
  m.angle.numbers ++ (m.axis.toList ++ (m.spinRate.numbers ++ m.spinAxis.toList))

variable {m : Orientation Float32}

theorem ofJson?_toJson (inTagged : Bool) (exact : ∀ x ∈ m.numbers, ReadsBack x) :
    ofJson? inTagged m.toJson = whenFinite m.numbers m.unbind := by
  simp only [numbers, List.forall_mem_append] at exact
  obtain ⟨angle, axis, spinRate, spinAxis⟩ := exact
  rw [ofJson?, toJson, fields?_object (by rfl) (by decide)]
  simp [ScalarValue.ofJson?_toJson inTagged angle, triple?_ofVec3 axis,
    ScalarValue.ofJson?_toJson inTagged spinRate, triple?_ofVec3 spinAxis, numbers, unbind]

theorem regular_tag_toJson (kind : String) (exact : ∀ x ∈ m.numbers, ReadsBack x) :
    Regular (limit + 4) (m.toJson.tag kind) := by
  simp only [numbers, List.forall_mem_append] at exact
  obtain ⟨angle, axis, spinRate, spinAxis⟩ := exact
  apply regular_tag
  simp only [List.forall_mem_cons]
  exact ⟨ScalarValue.regular_toJson angle, regular_numbers axis,
    ScalarValue.regular_toJson spinRate, regular_numbers spinAxis, by simp⟩

end Orientation

end Spawn

/-- A record is small enough to be taken in as a whole inside `level` arrays and objects. -/
theorem Json.Regular.admissible {level : Nat} {j : Json} (regular : j.Regular limit)
    (shallow : level + limit ≤ nestingLimit) : j.admissible level = true := by
  have depth_le := regular.depth_le
  simp only [Json.admissible, regular.sound, Bool.true_and, decide_eq_true_eq]
  omega

namespace SpawnModule

def numbers : SpawnModule Float32 → List Float32
  | .directed m => m.numbers
  | .sector m => m.numbers
  | .cone m => m.numbers
  | .sphere m => m.numbers
  | .focus m => m.numbers
  | .orientation m => m.numbers

variable {m : SpawnModule Float32}

theorem toJson_unbind (m : SpawnModule Float32) : m.unbind.toJson = m.toJson := by cases m <;> rfl

theorem regular_toJson (exact : ∀ x ∈ m.numbers, ReadsBack x) : Regular (limit + 4) m.toJson := by
  cases m with
  | directed m => exact m.regular_tag_toJson "Direction" exact
  | sector m => exact m.regular_tag_toJson "Sector" exact
  | cone m => exact m.regular_tag_toJson "Cone" exact
  | sphere m => exact m.regular_tag_toJson "Sphere" exact
  | focus m => exact m.regular_tag_toJson "Concentrate" exact
  | orientation m => exact m.regular_tag_toJson "Rotation" exact

/-- A record with a kind before it is read as one of that kind. -/
theorem ofJson?_tag {level : Nat} {kind : String} {members : List (String × Json)}
    (whole : (tag kind (.object members)).admissible level = true)
    (apart : "kind" ∉ members.map Prod.fst) :
    ofJson? level (tag kind (.object members)) = ofRecord? kind (.object members) := by
  rw [ofJson?, if_pos whole, tagged?_tag kind apart]
  rfl

theorem ofJson?_toJson {level : Nat} (shallow : level + 4 ≤ nestingLimit)
    (exact : ∀ x ∈ m.numbers, ReadsBack x) :
    ofJson? level m.toJson = whenFinite m.numbers m.unbind := by
  have whole : m.toJson.admissible level = true := (regular_toJson exact).admissible shallow
  cases m with
  | directed m =>
    refine (ofJson?_tag whole (by simp)).trans ?_
    exact map_eq_whenFinite directed (Spawn.Directed.ofJson?_toJson true exact)
  | sector m =>
    refine (ofJson?_tag whole (by simp)).trans ?_
    exact map_eq_whenFinite sector (Spawn.Sector.ofJson?_toJson true exact)
  | cone m =>
    refine (ofJson?_tag whole (by simp)).trans ?_
    exact map_eq_whenFinite cone (Spawn.Cone.ofJson?_toJson true exact)
  | sphere m =>
    refine (ofJson?_tag whole (by simp)).trans ?_
    exact map_eq_whenFinite sphere (Spawn.Sphere.ofJson?_toJson true exact)
  | focus m =>
    refine (ofJson?_tag whole (by simp)).trans ?_
    exact map_eq_whenFinite focus (Spawn.Focus.ofJson?_toJson true exact)
  | orientation m =>
    refine (ofJson?_tag whole (by simp)).trans ?_
    exact map_eq_whenFinite orientation (Spawn.Orientation.ofJson?_toJson true exact)

end SpawnModule

namespace Plane

def numbers (p : Plane Float32) : List Float32 := p.normal.toList ++ p.position.toList

variable {p : Plane Float32}

theorem ofJson?_toJson (exact : ∀ x ∈ p.numbers, ReadsBack x) :
    ofJson? p.toJson = whenFinite p.numbers p := by
  obtain ⟨normal, position⟩ := List.forall_mem_append.mp exact
  rw [ofJson?, toJson, fields?_object (by rfl) (by decide)]
  simp [triple?_ofVec3 normal, triple?_ofVec3 position, numbers]

theorem regular_toJson (exact : ∀ x ∈ p.numbers, ReadsBack x) : Regular (limit + 2) p.toJson := by
  obtain ⟨normal, position⟩ := List.forall_mem_append.mp exact
  apply regular_object
  simp only [List.forall_mem_cons]
  exact ⟨regular_numbers normal, regular_numbers position, by simp⟩

end Plane

namespace CollisionRadius

def numbers (r : CollisionRadius Float32) : List Float32 := [r.radius, r.scale]

variable {r : CollisionRadius Float32}

private theorem name?_shapeName (inTagged : Bool) (shape : RadiusShape) :
    name? inTagged shapes (.string (shapeName shape)) = some shape := by
  cases shape <;> simp [name?, shapes, shapeName, List.lookup_cons]

private theorem name?_methodName (inTagged : Bool) (method : RadiusMethod) :
    name? inTagged methods (.string (methodName method)) = some method := by
  cases method <;> simp [name?, methods, methodName, List.lookup_cons]

theorem ofJson?_toJson (inTagged : Bool) (exact : ∀ x ∈ r.numbers, ReadsBack x) :
    ofJson? inTagged r.toJson = whenFinite r.numbers r := by
  obtain ⟨radius, scale, -⟩ := by simpa only [numbers, List.forall_mem_cons] using exact
  rw [ofJson?, toJson, fields?_object (by rfl) (by decide)]
  simp [name?_shapeName, name?_methodName, single?_ofSingle radius, single?_ofSingle scale, numbers]

theorem regular_toJson (exact : ∀ x ∈ r.numbers, ReadsBack x) : Regular (limit + 1) r.toJson := by
  obtain ⟨radius, scale, -⟩ := by simpa only [numbers, List.forall_mem_cons] using exact
  apply regular_object
  simp only [List.forall_mem_cons]
  exact ⟨regular_string _, regular_string _, regular_ofSingle radius,
    regular_ofSingle scale, by simp⟩

end CollisionRadius

namespace Bounce

def numbers (b : Bounce Float32) : List Float32 := [b.restitution, b.jitter]

variable {b : Bounce Float32}

theorem ofJson?_toJson (exact : ∀ x ∈ b.numbers, ReadsBack x) :
    ofJson? b.toJson = whenFinite b.numbers b := by
  obtain ⟨restitution, jitter, -⟩ := by simpa only [numbers, List.forall_mem_cons] using exact
  rw [ofJson?, toJson, fields?_object (by rfl) (by decide)]
  simp [single?_ofSingle restitution, single?_ofSingle jitter, numbers]

theorem regular_toJson (exact : ∀ x ∈ b.numbers, ReadsBack x) : Regular (limit + 1) b.toJson := by
  obtain ⟨restitution, jitter, -⟩ := by simpa only [numbers, List.forall_mem_cons] using exact
  apply regular_object
  simp only [List.forall_mem_cons]
  exact ⟨regular_ofSingle restitution, regular_ofSingle jitter, by simp⟩

end Bounce

namespace Collision

def numbers (m : Collision Float32) : List Float32 :=
  m.bounce.numbers ++ (m.plane₁.numbers ++ (m.plane₂.numbers ++ m.radius.numbers))

variable {m : Collision Float32}

theorem ofJson?_toJson (inTagged : Bool) (exact : ∀ x ∈ m.numbers, ReadsBack x) :
    ofJson? inTagged m.toJson = whenFinite m.numbers m := by
  simp only [numbers, List.forall_mem_append] at exact
  obtain ⟨bounce, plane₁, plane₂, radius⟩ := exact
  rw [ofJson?, toJson, fields?_object (by rfl) (by decide)]
  simp [Bounce.ofJson?_toJson bounce, bool?, Plane.ofJson?_toJson plane₁,
    Plane.ofJson?_toJson plane₂, CollisionRadius.ofJson?_toJson inTagged radius, numbers]

theorem regular_tag_toJson (kind : String) (exact : ∀ x ∈ m.numbers, ReadsBack x) :
    Regular (limit + 3) (m.toJson.tag kind) := by
  simp only [numbers, List.forall_mem_append] at exact
  obtain ⟨bounce, plane₁, plane₂, radius⟩ := exact
  apply regular_tag
  simp only [List.forall_mem_cons]
  exact ⟨Bounce.regular_toJson bounce, regular_bool _, Plane.regular_toJson plane₁,
    Plane.regular_toJson plane₂, CollisionRadius.regular_toJson radius, by simp⟩

end Collision

namespace UpdateModule

def numbers : UpdateModule Float32 → List Float32
  | .collision m => m.numbers

variable {m : UpdateModule Float32}

theorem regular_toJson (exact : ∀ x ∈ m.numbers, ReadsBack x) : Regular (limit + 3) m.toJson := by
  cases m with
  | collision m => exact m.regular_tag_toJson "Collision" exact

theorem ofJson?_toJson {level : Nat} (shallow : level + 3 ≤ nestingLimit)
    (exact : ∀ x ∈ m.numbers, ReadsBack x) : ofJson? level m.toJson = whenFinite m.numbers m := by
  have whole : m.toJson.admissible level = true := (regular_toJson exact).admissible shallow
  cases m with
  | collision m =>
    rw [ofJson?, if_pos whole, show tagged? (toJson (.collision m)) =
      some ("Collision", m.toJson) from
      tagged?_tag "Collision" (by simp)]
    exact map_eq_whenFinite collision (Collision.ofJson?_toJson true exact)

end UpdateModule

namespace Stack

def numbers (s : Stack Float32) : List Float32 :=
  s.spawn.flatMap SpawnModule.numbers ++ s.update.flatMap UpdateModule.numbers

variable {s : Stack Float32}

theorem toJson_unbind (s : Stack Float32) : s.unbind.toJson = s.toJson := by
  simp [toJson, unbind, ofModules, Function.comp_def, SpawnModule.toJson_unbind]

theorem ofJson?_toJson {level : Nat} (shallow : level + 6 ≤ nestingLimit)
    (exact : ∀ x ∈ s.numbers, ReadsBack x) :
    ofJson? level s.toJson = whenFinite s.numbers s.unbind := by
  obtain ⟨makers, movers⟩ := List.forall_mem_append.mp exact
  have spawn := list?_map fun m (present : m ∈ s.spawn) =>
    SpawnModule.ofJson?_toJson (show level + 2 + 4 ≤ nestingLimit from shallow)
      fun x own => makers x (List.mem_flatMap_of_mem present own)
  have update := list?_map fun m (present : m ∈ s.update) =>
    UpdateModule.ofJson?_toJson (show level + 2 + 3 ≤ nestingLimit from Nat.le_of_succ_le shallow)
      fun x own => movers x (List.mem_flatMap_of_mem present own)
  rw [ofJson?, toJson, fields?_object (by rfl) (by decide)]
  simp [spawn, update, numbers, unbind]

theorem regular_toJson (exact : ∀ x ∈ s.numbers, ReadsBack x) : Regular (limit + 6) s.toJson := by
  obtain ⟨makers, movers⟩ := List.forall_mem_append.mp exact
  apply regular_object
  simp only [List.forall_mem_cons]
  refine ⟨regular_array ?_, regular_array ?_, by simp⟩
  · exact List.forall_mem_map.mpr fun m present =>
      SpawnModule.regular_toJson fun x own => makers x (List.mem_flatMap_of_mem present own)
  · exact List.forall_mem_map.mpr fun m present =>
      UpdateModule.regular_toJson fun x own => movers x (List.mem_flatMap_of_mem present own)

end Stack

end ParticleSystem
