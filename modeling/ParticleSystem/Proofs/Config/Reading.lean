import ParticleSystem.Form.Config
import ParticleSystem.Proofs.Decimal.Reading

namespace ParticleSystem

open Json

namespace Json

private theorem isNaN_single? {j : Json} {x : Float32} (read : single? j = some x) :
    x.isNaN = false := by
  cases j with
  | number numeral => exact Numeral.isNaN_toSingle? read
  | _ => cases read

theorem forall_mem_of_list? {β : Type} {item : Json → Option β} {good : β → Prop}
    (each : ∀ j value, item j = some value → good value) {j : Json} {values : List β}
    (read : list? item j = some values) : ∀ value ∈ values, good value := by
  cases j with
  | array items =>
    change items.mapM item = some values at read
    induction items generalizing values with
    | nil =>
      cases read
      simp
    | cons first rest ih =>
      rw [List.mapM_cons] at read
      obtain ⟨value, head, read⟩ := Option.bind_eq_some_iff.mp read
      obtain ⟨others, tail, same⟩ := Option.bind_eq_some_iff.mp read
      cases same
      exact List.forall_mem_cons.mpr ⟨each first value head, ih tail⟩
  | _ => cases read

theorem of_optional? {β : Type} {decode : Json → Option β} {good : β → Prop} {absent : β}
    (each : ∀ j value, decode j = some value → good value) (without : good absent)
    {field : Option Json} {value : β} (read : optional? decode absent field = some value) :
    good value := by
  cases field with
  | none =>
    cases read
    exact without
  | some j => exact each j value read

theorem of_required? {β : Type} {decode : Json → Option β} {good : β → Prop}
    (each : ∀ j value, decode j = some value → good value) {field : Option Json} {value : β}
    (read : required? decode field = some value) : good value := by
  obtain ⟨j, -, read⟩ := Option.bind_eq_some_iff.mp read
  exact each j value read

end Json

/-- Whether all times of a curve are numbers. -/
def Curve.Timed (c : Curve Float32) : Prop := ∀ key ∈ c.keys, key.time.isNaN = false

private theorem CurveKey.isNaN_time {j : Json} {key : CurveKey Float32}
    (read : ofJson? j = some key) : key.time.isNaN = false := by
  have number (j : Json) (x : Float32) (read : single? j = some x) : x.isNaN = false :=
    isNaN_single? read
  obtain ⟨fields, -, read⟩ := Option.bind_eq_some_iff.mp read
  split at read
  · obtain ⟨time, own, read⟩ := Option.bind_eq_some_iff.mp read
    obtain ⟨value, -, same⟩ := Option.bind_eq_some_iff.mp read
    cases same
    exact of_required? number own
  · cases read

theorem Curve.timed_ofJson? {j : Json} {curve : Curve Float32} (read : ofJson? j = some curve) :
    curve.Timed := by
  obtain ⟨fields, -, read⟩ := Option.bind_eq_some_iff.mp read
  split at read
  · obtain ⟨keys, own, read⟩ := Option.bind_eq_some_iff.mp read
    obtain ⟨axis, -, same⟩ := Option.bind_eq_some_iff.mp read
    cases same
    exact of_required? (fun _ _ => forall_mem_of_list? fun _ _ => CurveKey.isNaN_time) own
  · cases read

theorem DistributionTable.timed_ofJson? {j : Json} {table : DistributionTable Float32}
    (read : ofJson? j = some table) : ∀ curve ∈ table.curves, curve.Timed := by
  obtain ⟨fields, -, read⟩ := Option.bind_eq_some_iff.mp read
  split at read
  · obtain ⟨randoms, -, read⟩ := Option.bind_eq_some_iff.mp read
    obtain ⟨curves, own, same⟩ := Option.bind_eq_some_iff.mp read
    cases same
    exact of_optional? (fun _ _ => forall_mem_of_list? fun _ _ => Curve.timed_ofJson?) (by simp) own
  · cases read

namespace Config

theorem timed_ofJson? {j : Json} {config : Config Float32} (read : ofJson? j = some config) :
    ∀ curve ∈ config.distributions.curves, curve.Timed := by
  obtain ⟨fields, -, read⟩ := Option.bind_eq_some_iff.mp read
  split at read
  · simp only [bind, Option.bind_eq_some_iff] at read
    obtain ⟨_, -, _, -, _, -, _, -, _, -, _, -, _, -, _, -, _, -, _, -, table, own, _, -, same⟩ :=
      read
    cases same
    exact of_optional? (fun _ _ => DistributionTable.timed_ofJson?) (by simp [Config.default]) own
  · cases read

theorem positive_of_validate {config : Config Float32} (valid : config.validate = .ok ()) :
    0 < config.tickTime ∧ 0 < config.lifetime := by
  unfold validate fault? at valid
  by_cases ticks : 0 < config.tickTime
  · by_cases lives : 0 < config.lifetime
    · exact ⟨ticks, lives⟩
    · simp [ticks, lives] at valid
  · simp [ticks] at valid

/-- What a text has to describe to be accepted. -/
theorem of_ofText {text : String} {config : Config Float32} (accepted : ofText text = .ok config) :
    0 < config.tickTime ∧ 0 < config.lifetime ∧ ∀ curve ∈ config.distributions.curves,
    curve.Timed := by
  unfold ofText read at accepted
  cases found : (Json.ofText? text).bind ofJson? with
  | none =>
    rw [found] at accepted
    cases accepted
  | some described =>
    rw [found] at accepted
    obtain ⟨j, -, own⟩ := Option.bind_eq_some_iff.mp found
    cases valid : described.validate with
    | error fault =>
      simp [bind, Except.bind, valid] at accepted
    | ok _ =>
      simp only [bind, Except.bind, valid, pure, Except.pure, Except.ok.injEq] at accepted
      cases accepted
      obtain ⟨ticks, lives⟩ := positive_of_validate valid
      exact ⟨ticks, lives, timed_ofJson? own⟩

end Config

end ParticleSystem
