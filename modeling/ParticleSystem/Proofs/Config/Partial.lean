import ParticleSystem.Proofs.Form.RoundTrip
import ParticleSystem.Proofs.Form.Variants

namespace ParticleSystem

open Json

namespace Json

variable {β : Type}

theorem read_of_finite {numbers : List Float32} {value : β} {read : Option β}
    (own : (∀ x ∈ numbers, ReadsBack x) → read = whenFinite numbers value)
    (exact : ∀ x ∈ numbers, ReadsBack x ∧ x.isFinite = true) : read = some value := by
  rw [own fun x present => (exact x present).1]
  exact whenFinite_of_finite value fun x present => (exact x present).2

theorem single?_of_finite {x : Float32} (exact : ReadsBack x ∧ x.isFinite = true) :
    single? (ofSingle x) = some x := by
  rw [single?_ofSingle exact.1]
  exact whenFinite_of_finite x (List.forall_mem_singleton.mpr exact.2)

theorem Settled.optional? {decode : Json → Option β} {j k : Json} (settled : Settled decode j)
    {value : β} (read : decode j = some value) (variant : Variant j k) (absent : β) (kept : Prop)
    [Decidable kept] :
    Json.optional? decode absent (if kept then some k else none) =
      some (if kept then value else absent) := by
  split
  · exact (settled k variant).trans read
  · rfl

end Json

namespace Config

/-- The names of the fields of a setup, in the order in which they are written. -/
def fieldNames : List String :=
  ["seed", "tick_time", "ticks", "particle_count", "lifetime", "local_space", "front",
    "emitter_position", "max_extend", "min_extend", "distributions", "modules"]

/-- A field of a setup, or that of the built-in one where its name is left out. -/
def field {β : Type} (dropped : List String) (c : Config Float32) (name : String)
    (own : Config Float32 → β) : β :=
  if name ∉ dropped then own c else own .default

/-- A setup with the fields of some names from the built-in one. -/
def without (dropped : List String) (c : Config Float32) : Config Float32 where
  seed := field dropped c "seed" seed
  tickTime := field dropped c "tick_time" tickTime
  ticks := field dropped c "ticks" ticks
  particleCount := field dropped c "particle_count" particleCount
  lifetime := field dropped c "lifetime" lifetime
  localSpace := field dropped c "local_space" localSpace
  front := field dropped c "front" front
  position := field dropped c "emitter_position" position
  maxExtent := field dropped c "max_extend" maxExtent
  minExtent := field dropped c "min_extend" minExtent
  distributions := field dropped c "distributions" distributions
  modules := field dropped c "modules" modules

variable {c : Config Float32} {members : List (String × Json)}

/-- A variant of what is written for a setup, without some
fields, is read as the setup without them. -/
theorem ofJson?_variant (unbound : c.modules.unbind = c.modules)
    (exact : ∀ x ∈ c.numbers, ReadsBack x ∧ x.isFinite = true)
    (variant : Variant c.toJson (.object members)) (dropped : List String) :
    ofJson? (.object (members.filter (·.1 ∉ dropped))) = some (c.without dropped) := by
  simp only [numbers, List.forall_mem_append, List.forall_mem_cons] at exact
  obtain ⟨tickDigits, lifeDigits, frontDigits, positionDigits, maxDigits, minDigits, tableDigits,
    stackDigits⟩ := exact
  obtain ⟨values, each, fields⟩ :=
    variant.fields?_filter (fun name => decide (name ∉ dropped)) (show _ = fieldNames from rfl)
      (by decide)
  rcases each with _ | ⟨seed, _ | ⟨tickTime, _ | ⟨ticks, _ | ⟨count, _ | ⟨lifetime, _ | ⟨space,
    _ | ⟨front, _ | ⟨position, _ | ⟨maxExtent, _ | ⟨minExtent, _ | ⟨table, _ | ⟨stack,
    _ | _⟩⟩⟩⟩⟩⟩⟩⟩⟩⟩⟩⟩
  simp only [fieldNames, List.zipWith_cons_cons, List.zipWith_nil_left, decide_eq_true_eq] at fields
  have shallow : 1 + 6 ≤ nestingLimit := by decide
  have stackSettled := Stack.settled shallow fun x present => (stackDigits x present).1
  have stackRead := read_of_finite (Stack.ofJson?_toJson shallow) stackDigits
  rw [unbound] at stackRead
  rw [ofJson?, fields]
  simp only [Option.bind_eq_bind, Option.bind_some,
    (settled_natBelow _ _).optional? (natBelow?_ofNat c.seed.toNat_lt_size) seed,
    (settled_single _).optional? (single?_of_finite tickDigits) tickTime,
    (settled_natBelow _ _).optional? (natBelow?_ofNat c.ticks.toNat_lt_size) ticks,
    (settled_natBelow _ _).optional? (natBelow?_ofNat c.particleCount.toNat_lt_size) count,
    (settled_single _).optional? (single?_of_finite lifeDigits) lifetime,
    (settled_bool _).optional? (show bool? (.bool c.localSpace) = _ from rfl) space,
    (settled_vec3 _).optional? (read_of_finite triple?_ofVec3 frontDigits) front,
    (settled_vec3 _).optional? (read_of_finite triple?_ofVec3 positionDigits) position,
    (settled_vec3 _).optional? (read_of_finite triple?_ofVec3 maxDigits) maxExtent,
    (settled_vec3 _).optional? (read_of_finite triple?_ofVec3 minDigits) minExtent,
    c.distributions.settled.optional?
      (read_of_finite DistributionTable.ofJson?_toJson tableDigits) table,
    stackSettled.optional? stackRead stack, without, field, apply_ite UInt64.ofNat,
    apply_ite UInt32.ofNat, UInt64.ofNat_toNat, UInt32.ofNat_toNat]
  rfl

/-- A text that spells what is written for a setup, without some of its fields, with the members of
all objects in any order and plain ones of other names among them, describes the setup with these
fields from the built-in one; it is accepted exactly when that can be run. -/
theorem partial_text_read (unbound : c.modules.unbind = c.modules)
    (exact : ∀ x ∈ c.numbers, ReadsBack x ∧ x.isFinite = true)
    (variant : Variant c.toJson (.object members)) (dropped : List String) :
    let rest : Json := .object (members.filter (·.1 ∉ dropped))
    let described := c.without dropped
    Json.ofText? c.toText = some c.toJson ∧
      (∀ style : Style, style.Blank → Json.ofText? (.ofList (write style 0 rest)) = some rest) ∧
      ∀ text, Json.ofText? text = some rest →
        Config.read text = .ok described ∧
          (ofText text = .ok described ↔ described.validate = .ok ()) ∧
          (described.validate ≠ .ok () → ∃ fault, ofText text = .error (.invalid fault)) := by
  intro rest described
  have regular := @regular_toJson 0 c fun x present => (exact x present).1
  obtain ⟨inner, -, each⟩ := (variant.regular regular).of_object
  refine ⟨ofText?_write Style.blank_pretty regular.legible, fun style blank =>
    ofText?_write blank ?_, ?_⟩
  · exact legibleMembers_iff.mpr fun member present =>
      (each member (List.mem_of_mem_filter present)).legible
  · intro text spelled
    have read : Config.read text = .ok described := by
      rw [Config.read, spelled, Option.bind_some, ofJson?_variant unbound exact variant dropped]
    refine ⟨read, ?_⟩
    rw [ofText, read]
    cases found : described.fault? with
    | none => simp [validate, found, bind, Except.bind, pure, Except.pure]
    | some fault => simp [validate, found, bind, Except.bind]

/-- A text with the kind of a module behind its field, and most fields of the setup left out. -/
theorem partial_text_read_kind_last :
    let c : Config Float32 :=
      { Config.default with
        ticks := 5
        modules := .ofModules [.sphere ⟨.constant 3⟩] [] }
    let strength := (ScalarValue.constant (3 : Float32)).toJson
    let sphere : Json := .object [("strength", strength), ("note", .null),
      ("kind", .string "Sphere")]
    let rest : Json := .object
      [("comment", .string "fewer ticks"), ("ticks", .ofNat 5),
        ("modules", .object [("update", .array []), ("spawn", .array [sphere])])]
    Config.ofText rest.compact = .ok c := by
  intro c strength sphere rest
  have kindLast : Variant (SpawnModule.toJson (.sphere ⟨.constant 3⟩)) sphere :=
    @Variant.object [("kind", .string "Sphere", .string "Sphere"), ("strength", strength, strength)]
      [("note", .null)] _ (by simp [Variant.same]) (by simp [plain])
        (List.perm_append_singleton _ [_, _])
  have spawnLast : Variant c.modules.toJson
      (.object [("update", .array []), ("spawn", .array [sphere])]) :=
    @Variant.object [("spawn", .array [_], .array [_]), ("update", .array [], .array [])] [] _
      (List.forall_mem_cons.mpr ⟨@Variant.array [(_, _)] (List.forall_mem_singleton.mpr kindLast),
        List.forall_mem_singleton.mpr (.same _)⟩) (by simp) (.swap ..)
  let first : List (String × Json) :=
    [("seed", .ofNat 42), ("tick_time", ofSingle c.tickTime), ("ticks", .ofNat 5),
      ("particle_count", .ofNat 256), ("lifetime", ofSingle c.lifetime),
      ("local_space", .bool true), ("front", ofVec3 c.front),
      ("emitter_position", ofVec3 c.position), ("max_extend", ofVec3 c.maxExtent),
      ("min_extend", ofVec3 c.minExtent), ("distributions", c.distributions.toJson)]
  let modules : Json := .object [("update", .array []), ("spawn", .array [sphere])]
  let comment : String × Json := ("comment", .string "fewer ticks")
  let rows := first.map (fun member => (member.1, member.2, member.2)) ++
    [("modules", c.modules.toJson, modules)]
  have variant : Variant c.toJson (.object (comment :: rows.map fun row => (row.1, row.2.2))) := by
    refine @Variant.object rows [comment] _ ?_ ?_ (List.perm_append_singleton _ _).symm
    · exact List.forall_mem_append.mpr ⟨List.forall_mem_map.mpr fun member _ => .same member.2,
        List.forall_mem_singleton.mpr spawnLast⟩
    · exact List.forall_mem_singleton.mpr ⟨by simp [rows, first, comment], rfl⟩
  let dropped := fieldNames.filter (· ∉ ["ticks", "modules"])
  obtain ⟨-, spells, reads⟩ :=
    partial_text_read (show c.modules.unbind = c.modules by decide +kernel)
    (by decide +kernel) variant dropped
  have left : (comment :: rows.map fun row => (row.1, row.2.2)).filter (·.1 ∉ dropped) =
      [comment, ("ticks", .ofNat 5), ("modules", modules)] := by rfl
  have described : c.without dropped = c := by decide +kernel
  rw [left] at spells reads
  rw [described] at reads
  exact (reads _ (spells .compact Style.blank_compact)).2.1.mpr (by decide +kernel)

end Config

end ParticleSystem
