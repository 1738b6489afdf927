import ParticleSystem.Form.Distribution
import ParticleSystem.Proofs.Json.Records

namespace ParticleSystem

open Json

variable {limit : Nat}

namespace DistributionRef

theorem ofJson?_toJson (inTagged : Bool) (r : DistributionRef) :
    ofJson? inTagged r.toJson = some r := by
  obtain ⟨kind, index⟩ := r
  rw [ofJson?, toJson, fields?_object (by rfl) (by decide)]
  cases kind <;> simp [kinds, kindName, name?, List.lookup_cons,
    natBelow?_ofNat index.toNat_lt_size]

theorem nullable?_optionToJson (inTagged : Bool) (ref : Option DistributionRef) :
    nullable? (ofJson? inTagged) (optionToJson ref) = some ref := by
  cases ref with
  | none => rfl
  | some r => exact congrArg (Option.map some) (ofJson?_toJson inTagged r)

theorem regular_optionToJson (ref : Option DistributionRef) :
    Regular (limit + 1) (optionToJson ref) := by
  cases ref with
  | none => exact regular_null
  | some r =>
    apply regular_object
    simp only [List.forall_mem_cons]
    exact ⟨regular_string _,
      regular_ofNat (Nat.lt_trans r.index.toNat_lt_size (by decide)), by simp⟩

end DistributionRef

namespace RandomRange

def numbers (r : RandomRange Float32) : List Float32 := [r.min, r.max]

variable {r : RandomRange Float32}

theorem ofJson?_toJson (exact : ∀ x ∈ r.numbers, ReadsBack x) :
    ofJson? r.toJson = whenFinite r.numbers r := by
  obtain ⟨min, max, -⟩ := by simpa only [numbers, List.forall_mem_cons] using exact
  rw [ofJson?, toJson, fields?_object (by rfl) (by decide)]
  simp [single?_ofSingle min, single?_ofSingle max, numbers]

theorem regular_toJson (exact : ∀ x ∈ r.numbers, ReadsBack x) : Regular (limit + 1) r.toJson := by
  obtain ⟨min, max, -⟩ := by simpa only [numbers, List.forall_mem_cons] using exact
  apply regular_object
  simp only [List.forall_mem_cons]
  exact ⟨regular_ofSingle min, regular_ofSingle max, by simp⟩

end RandomRange

namespace CurveKey

def numbers (k : CurveKey Float32) : List Float32 := [k.time, k.value]

variable {k : CurveKey Float32}

theorem ofJson?_toJson (exact : ∀ x ∈ k.numbers, ReadsBack x) :
    ofJson? k.toJson = whenFinite k.numbers k := by
  obtain ⟨time, value, -⟩ := by simpa only [numbers, List.forall_mem_cons] using exact
  rw [ofJson?, toJson, fields?_object (by rfl) (by decide)]
  simp [single?_ofSingle time, single?_ofSingle value, numbers]

theorem regular_toJson (exact : ∀ x ∈ k.numbers, ReadsBack x) : Regular (limit + 1) k.toJson := by
  obtain ⟨time, value, -⟩ := by simpa only [numbers, List.forall_mem_cons] using exact
  apply regular_object
  simp only [List.forall_mem_cons]
  exact ⟨regular_ofSingle time, regular_ofSingle value, by simp⟩

end CurveKey

namespace Curve

def numbers (c : Curve Float32) : List Float32 := c.keys.flatMap CurveKey.numbers

variable {c : Curve Float32}

private theorem name?_axisName (inTagged : Bool) (axis : CurveAxis) :
    name? inTagged axes (.string (axisName axis)) = some axis := by
  cases axis <;> simp [name?, axes, axisName, List.lookup_cons]

theorem ofJson?_toJson (exact : ∀ x ∈ c.numbers, ReadsBack x) :
    ofJson? c.toJson = whenFinite c.numbers c := by
  have keys := list?_map fun k (present : k ∈ c.keys) =>
    CurveKey.ofJson?_toJson fun x own => exact x (List.mem_flatMap_of_mem present own)
  rw [ofJson?, toJson, fields?_object (by rfl) (by decide)]
  simp [keys, name?_axisName, numbers]

theorem regular_toJson (exact : ∀ x ∈ c.numbers, ReadsBack x) : Regular (limit + 3) c.toJson := by
  apply regular_object
  simp only [List.forall_mem_cons]
  refine ⟨regular_array ?_, regular_string _, by simp⟩
  exact List.forall_mem_map.mpr fun k present =>
    CurveKey.regular_toJson fun x own => exact x (List.mem_flatMap_of_mem present own)

end Curve

namespace DistributionTable

def numbers (t : DistributionTable Float32) : List Float32 :=
  t.randoms.flatMap RandomRange.numbers ++ t.curves.flatMap Curve.numbers

variable {t : DistributionTable Float32}

theorem ofJson?_toJson (exact : ∀ x ∈ t.numbers, ReadsBack x) :
    ofJson? t.toJson = whenFinite t.numbers t := by
  obtain ⟨ranges, lines⟩ := List.forall_mem_append.mp exact
  have randoms := list?_map fun r (present : r ∈ t.randoms) =>
    RandomRange.ofJson?_toJson fun x own => ranges x (List.mem_flatMap_of_mem present own)
  have curves := list?_map fun c (present : c ∈ t.curves) =>
    Curve.ofJson?_toJson fun x own => lines x (List.mem_flatMap_of_mem present own)
  rw [ofJson?, toJson, fields?_object (by rfl) (by decide)]
  simp [randoms, curves, numbers]

theorem regular_toJson (exact : ∀ x ∈ t.numbers, ReadsBack x) : Regular (limit + 5) t.toJson := by
  obtain ⟨ranges, lines⟩ := List.forall_mem_append.mp exact
  apply regular_object
  simp only [List.forall_mem_cons]
  refine ⟨regular_array ?_, regular_array ?_, by simp⟩
  · exact List.forall_mem_map.mpr fun r present =>
      RandomRange.regular_toJson fun x own => ranges x (List.mem_flatMap_of_mem present own)
  · exact List.forall_mem_map.mpr fun c present =>
      Curve.regular_toJson fun x own => lines x (List.mem_flatMap_of_mem present own)

end DistributionTable

namespace ScalarValue

def numbers (v : ScalarValue Float32) : List Float32 := [v.base]

variable {v : ScalarValue Float32}

theorem toJson_unbind (v : ScalarValue Float32) : v.unbind.toJson = v.toJson := rfl

theorem ofJson?_toJson (inTagged : Bool) (exact : ∀ x ∈ v.numbers, ReadsBack x) :
    ofJson? inTagged v.toJson = whenFinite v.numbers v.unbind := by
  obtain ⟨base, -⟩ := by simpa only [numbers, List.forall_mem_cons] using exact
  rw [ofJson?, toJson, fields?_object (by rfl) (by decide)]
  simp [single?_ofSingle base, DistributionRef.nullable?_optionToJson, numbers, unbind]

theorem regular_toJson (exact : ∀ x ∈ v.numbers, ReadsBack x) : Regular (limit + 2) v.toJson := by
  obtain ⟨base, -⟩ := by simpa only [numbers, List.forall_mem_cons] using exact
  apply regular_object
  simp only [List.forall_mem_cons]
  exact ⟨regular_ofSingle base, DistributionRef.regular_optionToJson v.ref, by simp⟩

end ScalarValue

namespace VectorValue

def numbers (v : VectorValue Float32) : List Float32 := v.base.toList

variable {v : VectorValue Float32}

theorem toJson_unbind (v : VectorValue Float32) : v.unbind.toJson = v.toJson := rfl

theorem ofJson?_toJson (inTagged : Bool) (exact : ∀ x ∈ v.numbers, ReadsBack x) :
    ofJson? inTagged v.toJson = whenFinite v.numbers v.unbind := by
  have refs : triple? (nullable? (DistributionRef.ofJson? inTagged))
      (.array (v.refs.toList.map DistributionRef.optionToJson)) = some v.refs := by
    simp [triple?, Vec3.toList, DistributionRef.nullable?_optionToJson]
  rw [ofJson?, toJson, fields?_object (by rfl) (by decide)]
  simp [triple?_ofVec3 exact, refs, numbers, unbind]

theorem regular_toJson (exact : ∀ x ∈ v.numbers, ReadsBack x) : Regular (limit + 3) v.toJson := by
  apply regular_object
  simp only [List.forall_mem_cons]
  refine ⟨regular_numbers exact, regular_array ?_, by simp⟩
  exact List.forall_mem_map.mpr fun ref _ => DistributionRef.regular_optionToJson ref

end VectorValue

end ParticleSystem
