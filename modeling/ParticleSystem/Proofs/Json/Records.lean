import ParticleSystem.Json.Record
import ParticleSystem.Proofs.Json.Documents

namespace ParticleSystem.Json

/-- A value that is there exactly when the numbers it holds are finite. -/
def whenFinite {β : Type} (numbers : List Float32) (value : β) : Option β :=
  if numbers.all (·.isFinite) then some value else none

section WhenFinite

variable {β γ : Type} (numbers more : List Float32) (value : β)

@[simp] theorem whenFinite_nil : whenFinite [] value = some value := rfl

theorem whenFinite_of_finite {numbers : List Float32} (finite : ∀ x ∈ numbers, x.isFinite = true) :
    whenFinite numbers value = some value := if_pos (List.all_eq_true.mpr finite)

@[simp] theorem bind_whenFinite (f : β → γ) :
    ((whenFinite numbers value).bind fun v => whenFinite more (f v)) =
      whenFinite (numbers ++ more) (f value) := by
  unfold whenFinite
  rw [List.all_append]
  cases numbers.all (·.isFinite) <;> rfl

@[simp] theorem bind_some_whenFinite (f : β → γ) :
    ((whenFinite numbers value).bind fun v => some (f v)) = whenFinite numbers (f value) := by
  unfold whenFinite
  split <;> rfl

@[simp] theorem map_whenFinite (f : β → γ) :
    (whenFinite numbers value).map f = whenFinite numbers (f value) := by
  unfold whenFinite
  split <;> rfl

theorem map_eq_whenFinite {numbers : List Float32} {value : β} {read : Option β} (f : β → γ)
    (own : read = whenFinite numbers value) : read.map f = whenFinite numbers (f value) := by
  rw [own, map_whenFinite]

end WhenFinite

/-- Whether the digits that are written for a number, if it is
finite, are read back as the same number. -/
def ReadsBack (x : Float32) : Prop :=
  ∀ numeral, Decimal.jsonNumeral? x = some numeral → numeral.toSingle? = some x

theorem single?_ofSingle {x : Float32} (exact : ReadsBack x) :
    single? (ofSingle x) = whenFinite [x] x := by
  have written := Decimal.jsonNumeral?_isSome x
  unfold ofSingle whenFinite
  cases found : Decimal.jsonNumeral? x with
  | some numeral =>
    rw [found] at written
    simp [single?, exact numeral found, ← written]
  | none =>
    rw [found] at written
    simp [single?, ← written]

theorem triple?_ofVec3 {v : Vec3 Float32} (exact : ∀ x ∈ v.toList, ReadsBack x) :
    triple? single? (ofVec3 v) = whenFinite v.toList v := by
  simp only [Vec3.toList, List.forall_mem_cons] at exact
  obtain ⟨x, y, z, -⟩ := exact
  simp [triple?, ofVec3, Vec3.toList, single?_ofSingle x, single?_ofSingle y, single?_ofSingle z]

theorem natBelow?_ofNat {n limit : Nat} (below : n < limit) : natBelow? limit (ofNat n) = some n :=
  Numeral.toNatBelow?_ofNat below

theorem list?_map {β γ : Type} {encode : β → Json} {decode : Json → Option γ}
    {numbers : β → List Float32} {value : β → γ} {items : List β}
    (each : ∀ item ∈ items, decode (encode item) = whenFinite (numbers item) (value item)) :
    list? decode (.array (items.map encode)) =
      whenFinite (items.flatMap numbers) (items.map value) := by
  change (items.map encode).mapM decode = _
  induction items with
  | nil => rfl
  | cons item rest ih =>
    obtain ⟨first, others⟩ := List.forall_mem_cons.mp each
    rw [List.map_cons, List.mapM_cons, first, ih others]
    simp [bind, pure]

theorem member?_of_mem {members : List (String × Json)} (different : (members.map Prod.fst).Nodup)
    {member : String × Json} (present : member ∈ members) :
    member? members member.1 = some (some member.2) := by
  have alone : members.filter (·.1 == member.1) = [member] := by
    induction members with
    | nil => cases present
    | cons head rest ih =>
      rw [List.map_cons, List.nodup_cons] at different
      rcases List.mem_cons.mp present with rfl | behind
      · have others : rest.filter (·.1 == member.1) = [] := by
          rw [List.filter_eq_nil_iff]
          intro other later same
          exact different.1 (eq_of_beq same ▸ List.mem_map_of_mem later)
        rw [List.filter_cons_of_pos (by simp), others]
      · have apart : (head.1 == member.1) = false := by
          rw [beq_eq_false_iff_ne]
          exact fun same => different.1 (same ▸ List.mem_map_of_mem behind)
        rw [List.filter_cons_of_neg (by simp [apart]), ih different.2 behind]
  rw [member?, alone]

/-- A record whose fields have names of their own gives their values in order. -/
theorem fields?_object {names : List String} {members : List (String × Json)}
    (named : members.map Prod.fst = names) (different : names.Nodup) :
    fields? names (.object members) = some (members.map fun member => some member.2) := by
  subst named
  have part (some : List (String × Json)) (inside : ∀ member ∈ some, member ∈ members) :
      (some.map Prod.fst).mapM (member? members) =
        .some (some.map fun member => .some member.2) := by
    induction some with
    | nil => rfl
    | cons member rest ih =>
      obtain ⟨first, others⟩ := List.forall_mem_cons.mp inside
      rw [List.map_cons, List.mapM_cons, member?_of_mem different first, ih others]
      rfl
  exact part members fun _ => id

@[simp] theorem required?_some {β : Type} (decode : Json → Option β) (j : Json) :
    required? decode (some j) = decode j := rfl

@[simp] theorem optional?_some {β : Type} (decode : Json → Option β) (absent : β) (j : Json) :
    optional? decode absent (some j) = decode j := rfl

/-- A kind is taken off the record that it was put before. -/
theorem tagged?_tag {members : List (String × Json)} (kind : String)
    (apart : "kind" ∉ members.map Prod.fst) :
    tagged? (tag kind (.object members)) = some (kind, .object members) := by
  have none : members.filter (·.1 == "kind") = [] := by
    rw [List.filter_eq_nil_iff]
    intro member present same
    exact apart (eq_of_beq same ▸ List.mem_map_of_mem present)
  have all : members.filter (·.1 != "kind") = members := by
    rw [List.filter_eq_self]
    intro member present
    rw [bne_iff_ne]
    exact fun same => apart (same ▸ List.mem_map_of_mem present)
  simp [tagged?, tag, none, all]

theorem legibleItems_iff {items : List Json} :
    legibleItems items ↔ ∀ item ∈ items, item.legible := by
  induction items with
  | nil => simp [legibleItems]
  | cons item rest ih => simp [legibleItems, ih]

theorem legibleMembers_iff {members : List (String × Json)} :
    legibleMembers members ↔ ∀ member ∈ members, member.2.legible := by
  induction members with
  | nil => simp [legibleMembers]
  | cons member rest ih => simp [legibleMembers, ih]

theorem soundItems_iff {items : List Json} :
    soundItems items = true ↔ ∀ item ∈ items, item.sound = true := by
  induction items with
  | nil => simp [soundItems]
  | cons item rest ih => simp [soundItems, ih]

theorem soundMembers_iff {members : List (String × Json)} :
    soundMembers members = true ↔ ∀ member ∈ members, member.2.sound = true := by
  induction members with
  | nil => simp [soundMembers]
  | cons member rest ih => simp [soundMembers, ih]

private theorem depthOfItems_le {items : List Json} {limit : Nat}
    (each : ∀ item ∈ items, item.depth ≤ limit) : depthOfItems items ≤ limit := by
  induction items with
  | nil => exact Nat.zero_le _
  | cons item rest ih =>
    obtain ⟨first, others⟩ := List.forall_mem_cons.mp each
    exact Nat.max_le.mpr ⟨first, ih others⟩

private theorem depthOfMembers_le {members : List (String × Json)} {limit : Nat}
    (each : ∀ member ∈ members, member.2.depth ≤ limit) : depthOfMembers members ≤ limit := by
  induction members with
  | nil => exact Nat.zero_le _
  | cons member rest ih =>
    obtain ⟨first, others⟩ := List.forall_mem_cons.mp each
    exact Nat.max_le.mpr ⟨first, ih others⟩

/-- Whether a value can be written, and be taken in as a whole
where few arrays and objects are open. -/
structure Regular (limit : Nat) (j : Json) : Prop where
  legible : j.legible
  sound : j.sound = true
  depth_le : j.depth ≤ limit

section Regular

variable {limit : Nat}

theorem regular_null : Regular limit .null := ⟨trivial, rfl, Nat.zero_le _⟩

theorem regular_bool (value : Bool) : Regular limit (.bool value) := ⟨trivial, rfl, Nat.zero_le _⟩

theorem regular_string (text : String) : Regular limit (.string text) :=
  ⟨trivial, rfl, Nat.zero_le _⟩

theorem regular_ofNat {n : Nat} (word : n < UInt64.size) : Regular limit (ofNat n) where
  legible := Numeral.wellFormed_ofNat n
  sound := by
    simp [sound, ofNat, Numeral.toDouble?, Numeral.wholeMagnitude?, Numeral.ofNat,
      Numeral.isInteger, Digit.value_ofNat, word]
  depth_le := Nat.zero_le _

private theorem toDouble?_isSome {numeral : Numeral} {x : Float32}
    (read : numeral.toSingle? = some x) : numeral.toDouble?.isSome = true := by
  unfold Numeral.toSingle? at read
  split at read
  · rename_i whole
    simp [Numeral.toDouble?, whole]
  · obtain ⟨double, found, -⟩ := Option.map_eq_some_iff.mp read
    rw [found, Option.isSome_some]

theorem regular_ofSingle {x : Float32} (exact : ReadsBack x) : Regular limit (ofSingle x) := by
  unfold ofSingle
  cases written : Decimal.jsonNumeral? x with
  | some numeral =>
    have magnitude := toDouble?_isSome (exact numeral written)
    exact ⟨Decimal.wellFormed_jsonNumeral written, magnitude, Nat.zero_le _⟩
  | none => exact regular_null

theorem regular_array {items : List Json} (each : ∀ item ∈ items, item.Regular limit) :
    Regular (limit + 1) (.array items) where
  legible := legibleItems_iff.mpr fun item member => (each item member).legible
  sound := soundItems_iff.mpr fun item member => (each item member).sound
  depth_le := by
    rw [depth, Nat.add_comm limit]
    exact Nat.add_le_add_left (depthOfItems_le fun item member => (each item member).depth_le) 1

theorem regular_object {members : List (String × Json)}
    (each : ∀ member ∈ members, member.2.Regular limit) :
    Regular (limit + 1) (.object members) where
  legible := legibleMembers_iff.mpr fun member present => (each member present).legible
  sound := soundMembers_iff.mpr fun member present => (each member present).sound
  depth_le := by
    rw [depth, Nat.add_comm limit]
    exact Nat.add_le_add_left (depthOfMembers_le fun member present =>
      (each member present).depth_le) 1

theorem regular_tag {members : List (String × Json)} (kind : String)
    (each : ∀ member ∈ members, member.2.Regular limit) :
    Regular (limit + 1) (tag kind (.object members)) :=
  regular_object (List.forall_mem_cons.mpr ⟨regular_string kind, each⟩)

theorem regular_numbers {numbers : List Float32} (exact : ∀ x ∈ numbers, ReadsBack x) :
    Regular (limit + 1) (.array (numbers.map ofSingle)) := by
  apply regular_array
  intro item member
  obtain ⟨x, present, rfl⟩ := List.mem_map.mp member
  exact regular_ofSingle (exact x present)

end Regular

end ParticleSystem.Json
