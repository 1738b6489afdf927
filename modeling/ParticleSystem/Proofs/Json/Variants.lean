import ParticleSystem.Proofs.Json.Records
import Mathlib.Data.List.Forall2

namespace ParticleSystem.Json

/-- Whether a value is null, a boolean or a string. -/
def plain : Json → Bool
  | .null => true
  | .bool _ => true
  | .string _ => true
  | _ => false

/-- Whether a value is another one whose objects have their members in any order, at every depth,
and may have plain members of other names among them. -/
inductive Variant : Json → Json → Prop
  | same (j : Json) : Variant j j
  | array {rows : List (Json × Json)} (each : ∀ row ∈ rows, Variant row.1 row.2) :
      Variant (.array (rows.map (·.1))) (.array (rows.map (·.2)))
  | object {rows : List (String × Json × Json)} {extra varied : List (String × Json)}
      (each : ∀ row ∈ rows, Variant row.2.1 row.2.2)
      (unknown : ∀ member ∈ extra, member.1 ∉ rows.map (·.1) ∧ member.2.plain = true)
      (order : varied.Perm (rows.map (fun row => (row.1, row.2.2)) ++ extra)) :
      Variant (.object (rows.map fun row => (row.1, row.2.1))) (.object varied)

section Members

variable {members varied : List (String × Json)}

theorem member?_perm (order : varied.Perm members) (name : String) :
    member? varied name = member? members name := by
  have found := order.filter (·.1 == name)
  unfold member?
  generalize varied.filter (·.1 == name) = left at found
  generalize members.filter (·.1 == name) = right at found
  match right with
  | [] => rw [found.eq_nil]
  | [member] => rw [found.eq_singleton]
  | first :: second :: rest =>
    have length := found.length_eq
    match left with
    | [] => cases length
    | [_] => cases length
    | _ :: _ :: _ => rfl

private theorem member?_append {extra : List (String × Json)} {name : String}
    (unknown : ∀ member ∈ extra, member.1 ≠ name) :
    member? (members ++ extra) name = member? members name := by
  have none : extra.filter (·.1 == name) = [] :=
    List.filter_eq_nil_iff.mpr fun member present same => unknown member present (eq_of_beq same)
  rw [member?, member?, List.filter_append, none, List.append_nil]

private theorem member?_filter (keep : String → Bool) (name : String) :
    member? (members.filter (keep ·.1)) name =
      if keep name then member? members name else some none := by
  unfold member?
  rw [List.filter_filter]
  cases kept : keep name with
  | true =>
    have same : members.filter (fun member => member.1 == name && keep member.1) =
        members.filter (·.1 == name) := by
      apply List.filter_congr
      intro member _
      by_cases own : member.1 = name
      · simp [own, kept]
      · simp [own]
    rw [same, if_pos rfl]
  | false =>
    have none : members.filter (fun member => member.1 == name && keep member.1) = [] := by
      rw [List.filter_eq_nil_iff]
      intro member _ both
      obtain ⟨own, other⟩ := Bool.and_eq_true_iff.mp both
      rw [eq_of_beq own, kept] at other
      cases other
    rw [none, if_neg Bool.false_ne_true]

private theorem mapM_map_eq_some {β γ δ : Type} {read : γ → Option δ} {source : β → γ}
    {target : β → δ} {items : List β}
    (each : ∀ item ∈ items, read (source item) = some (target item)) :
    (items.map source).mapM read = some (items.map target) := by
  induction items with
  | nil => rfl
  | cons item rest ih =>
    obtain ⟨first, others⟩ := List.forall_mem_cons.mp each
    rw [List.map_cons, List.mapM_cons, first, ih others]
    rfl

end Members

namespace Variant

variable {j k : Json} {items : List Json} {members varied : List (String × Json)}
  {names : List String}

theorem of_array (variant : Variant (.array items) k) :
    ∃ others, k = .array others ∧ List.Forall₂ Variant items others := by
  cases variant with
  | same => exact ⟨items, rfl, List.forall₂_same.mpr fun j _ => same j⟩
  | array each =>
    refine ⟨_, rfl, ?_⟩
    rw [List.forall₂_map_left_iff, List.forall₂_map_right_iff, List.forall₂_same]
    exact each

theorem of_object (variant : Variant (.object members) k) :
    ∃ (rows : List (String × Json × Json)) (extra varied : List (String × Json)),
      k = .object varied ∧
      members = rows.map (fun row => (row.1, row.2.1)) ∧ (∀ row ∈ rows, Variant row.2.1 row.2.2) ∧
      (∀ member ∈ extra, member.1 ∉ rows.map (·.1) ∧ member.2.plain = true) ∧
      varied.Perm (rows.map (fun row => (row.1, row.2.2)) ++ extra) := by
  cases variant with
  | same =>
    refine ⟨members.map fun member => (member.1, member.2, member.2), [], members, rfl,
      ?_, ?_, by simp, ?_⟩
    · simp [Function.comp_def]
    · simp only [List.forall_mem_map]
      exact fun member _ => same member.2
    · simp [Function.comp_def]
  | object each unknown order => exact ⟨_, _, _, rfl, rfl, each, unknown, order⟩

theorem fields?_filter (variant : Variant (.object members) (.object varied)) (keep : String → Bool)
    (named : members.map Prod.fst = names) (different : names.Nodup) :
    ∃ values, List.Forall₂ Variant (members.map Prod.snd) values ∧
      fields? names (.object (varied.filter (keep ·.1))) =
        some (names.zipWith (fun name value => if keep name then some value else none) values) := by
  obtain ⟨rows, extra, _, same, rfl, each, unknown, order⟩ := variant.of_object
  cases same
  subst named
  simp only [List.map_map, Function.comp_def] at different ⊢
  refine ⟨rows.map (·.2.2), ?_, ?_⟩
  · rw [List.forall₂_map_left_iff, List.forall₂_map_right_iff, List.forall₂_same]
    exact each
  · rw [List.zipWith_map, List.zipWith_self]
    refine mapM_map_eq_some fun row present => ?_
    have other (member : String × Json) (outside : member ∈ extra) : member.1 ≠ row.1 :=
      fun same => (unknown member outside).1 (same ▸ List.mem_map_of_mem present)
    have own : member? (rows.map fun row => (row.1, row.2.2)) row.1 = some (some row.2.2) := by
      refine member?_of_mem ?_ (List.mem_map_of_mem (f := fun row => (row.1, row.2.2)) present)
      simpa only [List.map_map, Function.comp_def] using different
    rw [member?_filter, member?_perm order, member?_append other, own]
    cases keep row.1 <;> rfl

theorem fields? (variant : Variant (.object members) k) (named : members.map Prod.fst = names)
    (different : names.Nodup) :
    ∃ values, List.Forall₂ Variant (members.map Prod.snd) values ∧
      Json.fields? names k = some (values.map some) := by
  obtain ⟨_, _, varied, rfl, -⟩ := variant.of_object
  obtain ⟨values, each, fields⟩ := variant.fields?_filter (fun _ => true) named different
  have length : names.length = values.length := by
    rw [← named, List.length_map, ← each.length_eq, List.length_map]
  refine ⟨values, each, ?_⟩
  rw [List.filter_true] at fields
  rw [fields]
  congr 1
  exact List.ext_getElem (by simp [length]) (by simp)

/-- The kind of a record is found wherever it stands, and the rest
is a variant of the record without it. -/
theorem tagged? {kind : String} (variant : Variant (tag kind (.object members)) k)
    (apart : "kind" ∉ members.map Prod.fst) :
    ∃ record, Json.tagged? k = some (kind, record) ∧ Variant (.object members) record := by
  obtain ⟨rows, extra, varied, rfl, written, each, unknown, order⟩ := variant.of_object
  cases rows with
  | nil => cases written
  | cons head rest =>
    obtain ⟨name, value, varies⟩ := head
    cases written
    obtain ⟨first, others⟩ := List.forall_mem_cons.mp each
    -- the kind is a string, which has no variant but itself
    cases first
    simp only [List.map_map, Function.comp_def] at apart
    have behind (member : String × Json)
        (present : member ∈ rest.map (fun row => (row.1, row.2.2)) ++ extra) :
          member.1 ≠ "kind" := by
      rcases List.mem_append.mp present with row | other
      · obtain ⟨row, here, rfl⟩ := List.mem_map.mp row
        exact fun same => apart (same ▸ List.mem_map_of_mem here)
      · exact fun same => (unknown member other).1 (same ▸ List.mem_cons_self)
    have kinds := order.filter (·.1 == "kind")
    have left := order.filter (·.1 != "kind")
    rw [List.map_cons, List.cons_append, List.filter_cons_of_pos (by simp),
      List.filter_eq_nil_iff.mpr
      fun member present same => behind member present (eq_of_beq same)] at kinds
    rw [List.map_cons, List.cons_append, List.filter_cons_of_neg (by simp), List.filter_eq_self.mpr
      fun member present => bne_iff_ne.mpr (behind member present)] at left
    refine ⟨.object (varied.filter (·.1 != "kind")), ?_, object others ?_ left⟩
    · rw [Json.tagged?, kinds.eq_singleton]
    · intro member present
      obtain ⟨fresh, flat⟩ := unknown member present
      exact ⟨fun later => fresh (List.mem_cons_of_mem _ later), flat⟩

end Variant

section Regular

variable {limit : Nat}

theorem regular_of_plain {j : Json} (flat : j.plain = true) : Regular limit j := by
  cases j with
  | null => exact regular_null
  | bool value => exact regular_bool value
  | string text => exact regular_string text
  | _ => cases flat

private theorem depth_le_of_mem {items : List Json} {item : Json} (present : item ∈ items) :
    item.depth ≤ depthOfItems items := by
  induction items with
  | nil => cases present
  | cons head rest ih =>
    rcases List.mem_cons.mp present with rfl | later
    · exact Nat.le_max_left _ _
    · exact Nat.le_trans (ih later) (Nat.le_max_right _ _)

private theorem depth_le_of_member {members : List (String × Json)} {member : String × Json}
    (present : member ∈ members) : member.2.depth ≤ depthOfMembers members := by
  induction members with
  | nil => cases present
  | cons head rest ih =>
    rcases List.mem_cons.mp present with rfl | later
    · exact Nat.le_max_left _ _
    · exact Nat.le_trans (ih later) (Nat.le_max_right _ _)

theorem Regular.of_array {items : List Json} (regular : Regular limit (.array items)) :
    ∃ inner, limit = inner + 1 ∧ ∀ item ∈ items, item.Regular inner := by
  have deep := regular.depth_le
  rw [depth] at deep
  obtain ⟨inner, rfl⟩ := Nat.exists_eq_add_of_le' (Nat.le_of_add_right_le deep)
  refine ⟨inner, rfl, fun item present => ⟨legibleItems_iff.mp regular.legible item present,
    soundItems_iff.mp regular.sound item present, ?_⟩⟩
  have below := depth_le_of_mem present
  omega

theorem Regular.of_object {members : List (String × Json)}
    (regular : Regular limit (.object members)) :
    ∃ inner, limit = inner + 1 ∧ ∀ member ∈ members, member.2.Regular inner := by
  have deep := regular.depth_le
  rw [depth] at deep
  obtain ⟨inner, rfl⟩ := Nat.exists_eq_add_of_le' (Nat.le_of_add_right_le deep)
  refine ⟨inner, rfl, fun member present => ⟨legibleMembers_iff.mp regular.legible member present,
    soundMembers_iff.mp regular.sound member present, ?_⟩⟩
  have below := depth_le_of_member present
  omega

/-- A variant of a value can be written where the value can, and be taken in where the value can. -/
theorem Variant.regular {j k : Json} (variant : Variant j k) (regular : j.Regular limit) :
    k.Regular limit := by
  induction variant generalizing limit with
  | same => exact regular
  | array each ih =>
    obtain ⟨inner, rfl, items⟩ := regular.of_array
    rw [List.forall_mem_map] at items
    exact regular_array (List.forall_mem_map.mpr fun row present =>
      ih row present (items row present))
  | object each unknown order ih =>
    obtain ⟨inner, rfl, members⟩ := regular.of_object
    rw [List.forall_mem_map] at members
    refine regular_object fun member present => ?_
    rcases List.mem_append.mp (order.mem_iff.mp present) with own | other
    · obtain ⟨row, here, rfl⟩ := List.mem_map.mp own
      exact ih row here (members row here)
    · exact regular_of_plain (unknown member other).2

end Regular

/-- Whether a decoder gives the same for all variants of a value. -/
def Settled {β : Type} (decode : Json → Option β) (j : Json) : Prop :=
  ∀ k, Variant j k → decode k = decode j

section Settled

variable {β γ : Type}

/-- What looks into no array and no object settles everywhere. -/
theorem settled_of_flat {decode : Json → Option β} (arrays : ∀ items, decode (.array items) = none)
    (objects : ∀ members, decode (.object members) = none) (j : Json) : Settled decode j := by
  intro k variant
  cases variant with
  | same => rfl
  | array each => rw [arrays, arrays]
  | object each unknown order => rw [objects, objects]

theorem settled_single (j : Json) : Settled single? j :=
  settled_of_flat (fun _ => rfl) (fun _ => rfl) j

theorem settled_natBelow (limit : Nat) (j : Json) : Settled (natBelow? limit) j :=
  settled_of_flat (fun _ => rfl) (fun _ => rfl) j

theorem settled_bool (j : Json) : Settled bool? j := settled_of_flat (fun _ => rfl) (fun _ => rfl) j

theorem settled_name (inTagged : Bool) (names : List (String × β)) (text : String) :
    Settled (name? inTagged names) (.string text) := by
  intro k variant
  cases variant
  rfl

theorem Settled.nullable {decode : Json → Option β} {j : Json} (settled : Settled decode j) :
    Settled (nullable? decode) j := by
  intro k variant
  have same := settled k variant
  cases variant with
  | same => rfl
  | array each => exact congrArg (Option.map some) same
  | object each unknown order => exact congrArg (Option.map some) same

theorem Settled.map {decode : Json → Option β} {j : Json} (settled : Settled decode j) (f : β → γ) :
    Settled (fun j => (decode j).map f) j :=
      fun k variant => congrArg (Option.map f) (settled k variant)

theorem settled_list {decode : Json → Option β} {items : List Json}
    (each : ∀ item ∈ items, Settled decode item) : Settled (list? decode) (.array items) := by
  intro k variant
  obtain ⟨others, rfl, varied⟩ := variant.of_array
  change others.mapM decode = items.mapM decode
  clear variant
  induction varied with
  | nil => rfl
  | cons first rest ih =>
    obtain ⟨own, left⟩ := List.forall_mem_cons.mp each
    rw [List.mapM_cons, List.mapM_cons, own _ first, ih left]

theorem settled_triple {decode : Json → Option β} {x y z : Json} (first : Settled decode x)
    (second : Settled decode y) (third : Settled decode z) :
    Settled (triple? decode) (.array [x, y, z]) := by
  intro k variant
  obtain ⟨_, rfl, varied⟩ := variant.of_array
  rcases varied with _ | ⟨own, _ | ⟨next, _ | ⟨last, _ | _⟩⟩⟩
  simp only [triple?, first _ own, second _ next, third _ last]

theorem settled_vec3 (v : Vec3 Float32) : Settled (triple? single?) (ofVec3 v) :=
  settled_triple (settled_single _) (settled_single _) (settled_single _)

theorem settled_record {members : List (String × Json)} {names : List String}
    {body : List (Option Json) → Option β}
    (named : members.map Prod.fst = names) (different : names.Nodup)
    (same : ∀ values, List.Forall₂ Variant (members.map Prod.snd) values →
      body (values.map some) = body ((members.map Prod.snd).map some)) :
    Settled (fun j => (fields? names j).bind body) (.object members) := by
  intro k variant
  obtain ⟨values, each, found⟩ := variant.fields? named different
  have written := fields?_object named different
  simp only [found, written, Option.bind_some]
  rw [same values each, List.map_map]
  rfl

end Settled

end ParticleSystem.Json
