import ParticleSystem.Form.Config
import ParticleSystem.Form.Particle
import ParticleSystem.Proofs.Form.Stack

namespace ParticleSystem

open Json

variable {limit : Nat}

namespace Json

instance (x : Float32) : Decidable (ReadsBack x) :=
  inferInstanceAs (Decidable (∀ numeral ∈ Decimal.jsonNumeral? x, numeral.toSingle? = some x))

/-- What is read from the text of a value. -/
def reread {β : Type} (style : Style) (decode : Json → Option β) (j : Json) : Option β :=
  (ofText? (.ofList (write style 0 j))).bind decode

theorem reread_eq {β : Type} {style : Style} {decode : Json → Option β} {j : Json}
    (blank : style.Blank) (regular : j.Regular limit) : reread style decode j = decode j :=
  congrArg (·.bind decode) (ofText?_write blank regular.legible)

end Json

namespace Config

def numbers (c : Config Float32) : List Float32 :=
  c.tickTime :: c.lifetime :: (c.front.toList ++ (c.position.toList ++ (c.maxExtent.toList ++
    (c.minExtent.toList ++ (c.distributions.numbers ++ c.modules.numbers)))))

variable {c : Config Float32}

theorem ofJson?_toJson (exact : ∀ x ∈ c.numbers, ReadsBack x) :
    ofJson? c.toJson = whenFinite c.numbers { c with modules := c.modules.unbind } := by
  simp only [numbers, List.forall_mem_append, List.forall_mem_cons] at exact
  obtain ⟨tickTime, lifetime, front, position, maxExtent, minExtent, distributions, modules⟩ :=
    exact
  rw [ofJson?, toJson, fields?_object (by rfl) (by decide)]
  simp [natBelow?_ofNat c.seed.toNat_lt_size, natBelow?_ofNat c.ticks.toNat_lt_size, bool?,
    natBelow?_ofNat c.particleCount.toNat_lt_size, single?_ofSingle tickTime,
    single?_ofSingle lifetime, triple?_ofVec3 front, triple?_ofVec3 position,
    triple?_ofVec3 maxExtent, triple?_ofVec3 minExtent,
    DistributionTable.ofJson?_toJson distributions,
    Stack.ofJson?_toJson (show 1 + 6 ≤ nestingLimit by decide) modules, numbers]

theorem regular_toJson (exact : ∀ x ∈ c.numbers, ReadsBack x) : Regular (limit + 7) c.toJson := by
  simp only [numbers, List.forall_mem_append, List.forall_mem_cons] at exact
  obtain ⟨tickTime, lifetime, front, position, maxExtent, minExtent, distributions, modules⟩ :=
    exact
  have word (n : UInt32) : n.toNat < UInt64.size := Nat.lt_trans n.toNat_lt_size (by decide)
  apply regular_object
  simp only [List.forall_mem_cons]
  exact ⟨regular_ofNat c.seed.toNat_lt_size, regular_ofSingle tickTime,
    regular_ofNat (word c.ticks), regular_ofNat (word c.particleCount), regular_ofSingle lifetime,
    regular_bool _, regular_numbers front, regular_numbers position, regular_numbers maxExtent,
    regular_numbers minExtent,
    DistributionTable.regular_toJson distributions, Stack.regular_toJson modules, by simp⟩

end Config

theorem Vec4.ofJson?_toJson {v : Vec4 Float32} (exact : ∀ x ∈ v.toList, ReadsBack x) :
    ofJson? v.toJson = whenFinite v.toList v := by
  simp only [toList, List.forall_mem_cons] at exact
  obtain ⟨x, y, z, w, -⟩ := exact
  simp [ofJson?, toJson, toList, single?_ofSingle x, single?_ofSingle y, single?_ofSingle z,
    single?_ofSingle w]

theorem Affine.ofJson?_toJson {m : Affine Float32} (exact : ∀ x ∈ m.toList, ReadsBack x) :
    ofJson? m.toJson = whenFinite m.toList m := by
  have items := list?_map fun x (present : x ∈ m.toList) => single?_ofSingle (exact x present)
  rw [List.flatMap_singleton', List.map_id'] at items
  rw [ofJson?, toJson, items]
  unfold whenFinite
  split <;> rfl

namespace Particle

def numbers (p : Particle Float32) : List Float32 :=
  p.position.toList ++ (p.velocity.toList ++
    (p.rotation.toList ++ (p.spinAxis.toList ++ (p.spinRate ::
    (p.scale.toList ++ (p.spawnTransform.toList ++ (p.lifetime :: p.age :: (p.contact.toList ++
      [p.timeAfterContact]))))))))

variable {p : Particle Float32}

theorem ofJson?_toJson (exact : ∀ x ∈ p.numbers, ReadsBack x) :
    ofJson? p.toJson = whenFinite p.numbers p := by
  simp only [numbers, List.forall_mem_append, List.forall_mem_cons] at exact
  obtain ⟨position, velocity, rotation, spinAxis, spinRate, scale, spawnTransform, lifetime,
    age, contact, timeAfterContact, -⟩ := exact
  rw [ofJson?, toJson, fields?_object (by rfl) (by decide)]
  simp [triple?_ofVec3 position, triple?_ofVec3 velocity, Vec4.ofJson?_toJson rotation,
    Vec4.ofJson?_toJson spinAxis, single?_ofSingle spinRate, triple?_ofVec3 scale,
    Affine.ofJson?_toJson spawnTransform, single?_ofSingle lifetime, single?_ofSingle age, bool?,
    triple?_ofVec3 contact, single?_ofSingle timeAfterContact, numbers]

theorem regular_toJson (exact : ∀ x ∈ p.numbers, ReadsBack x) : Regular (limit + 2) p.toJson := by
  simp only [numbers, List.forall_mem_append, List.forall_mem_cons] at exact
  obtain ⟨position, velocity, rotation, spinAxis, spinRate, scale, spawnTransform, lifetime,
    age, contact, timeAfterContact, -⟩ := exact
  apply regular_object
  simp only [List.forall_mem_cons]
  exact ⟨regular_numbers position, regular_numbers velocity, regular_numbers rotation,
    regular_numbers spinAxis, regular_ofSingle spinRate, regular_numbers scale,
    regular_numbers spawnTransform, regular_ofSingle lifetime, regular_ofSingle age, regular_bool _,
    regular_numbers contact, regular_ofSingle timeAfterContact, by simp⟩

end Particle

section Texts

variable {style : Style}

/-- A setup that can be run and is not bound comes back from its
text exactly when its numbers are finite. -/
theorem Config.ofText_toText {c : Config Float32} (valid : c.validate = .ok ())
    (unbound : c.modules.unbind = c.modules) (exact : ∀ x ∈ c.numbers, ReadsBack x) :
    ofText c.toText = if c.numbers.all (·.isFinite) then .ok c else .error .malformed := by
  have read : (Json.ofText? c.toText).bind ofJson? = whenFinite c.numbers c := by
    have own := (reread_eq Style.blank_pretty (@regular_toJson 0 _ exact)).trans
      (ofJson?_toJson exact)
    rwa [unbound] at own
  rw [ofText, Config.read, read]
  unfold whenFinite
  by_cases finite : c.numbers.all (·.isFinite) = true
  · simp [finite, valid, bind, Except.bind, pure, Except.pure]
  · simp [finite, bind, Except.bind]

theorem Particle.reread_toJson (blank : style.Blank) {p : Particle Float32}
    (exact : ∀ x ∈ p.numbers, ReadsBack x) :
    reread style ofJson? p.toJson = whenFinite p.numbers p :=
  (reread_eq blank (@regular_toJson 0 _ exact)).trans (ofJson?_toJson exact)

theorem Stack.reread_toJson (blank : style.Blank) {s : Stack Float32}
    (exact : ∀ x ∈ s.numbers, ReadsBack x ∧ x.isFinite) :
    reread style (ofJson? 0) s.toJson = some s.unbind := by
  have digits (x) (own : x ∈ s.numbers) : ReadsBack x := (exact x own).1
  rw [reread_eq blank (@regular_toJson 0 _ digits), ofJson?_toJson (by decide) digits]
  exact whenFinite_of_finite _ fun x own => (exact x own).2

theorem ScalarValue.reread_toJson (blank : style.Blank) {v : ScalarValue Float32}
    (exact : ∀ x ∈ v.numbers, ReadsBack x ∧ x.isFinite) :
    reread style (ofJson? false) v.toJson = some v.unbind := by
  have digits (x) (own : x ∈ v.numbers) : ReadsBack x := (exact x own).1
  rw [reread_eq blank (@regular_toJson 0 _ digits), ofJson?_toJson false digits]
  exact whenFinite_of_finite _ fun x own => (exact x own).2

theorem VectorValue.reread_toJson (blank : style.Blank) {v : VectorValue Float32}
    (exact : ∀ x ∈ v.numbers, ReadsBack x ∧ x.isFinite) :
    reread style (ofJson? false) v.toJson = some v.unbind := by
  have digits (x) (own : x ∈ v.numbers) : ReadsBack x := (exact x own).1
  rw [reread_eq blank (@regular_toJson 0 _ digits), ofJson?_toJson false digits]
  exact whenFinite_of_finite _ fun x own => (exact x own).2

/-- Setups that can be run and are not bound, and particles, come back from their texts exactly when
all their numbers are finite; otherwise the text is refused. Stacks and parameters come back as they
were before any binding, and what they were bound to does not show in their texts. -/
theorem texts_read_back :
    (∀ c : Config Float32, c.validate = .ok () → c.modules.unbind = c.modules →
      (∀ x ∈ c.numbers, ReadsBack x) →
      Config.ofText c.toText = if c.numbers.all (·.isFinite) then .ok c else .error .malformed) ∧
    ∀ style : Style, style.Blank →
      (∀ p : Particle Float32, (∀ x ∈ p.numbers, ReadsBack x) →
        reread style Particle.ofJson? p.toJson =
          if p.numbers.all (·.isFinite) then some p else none) ∧
      (∀ s : Stack Float32, write style 0 s.toJson = write style 0 s.unbind.toJson ∧
        s.unbind.bound = false ∧
        ((∀ x ∈ s.numbers, ReadsBack x ∧ x.isFinite) →
          reread style (Stack.ofJson? 0) s.toJson = some s.unbind)) ∧
      (∀ v : ScalarValue Float32, write style 0 v.toJson = write style 0 v.unbind.toJson ∧
        v.unbind.isBound = false ∧
        ((∀ x ∈ v.numbers, ReadsBack x ∧ x.isFinite) →
          reread style (ScalarValue.ofJson? false) v.toJson = some v.unbind)) ∧
      ∀ v : VectorValue Float32, write style 0 v.toJson = write style 0 v.unbind.toJson ∧
        v.unbind.bound = .splat none ∧
        ((∀ x ∈ v.numbers, ReadsBack x ∧ x.isFinite) →
          reread style (VectorValue.ofJson? false) v.toJson = some v.unbind) := by
  refine ⟨fun c => Config.ofText_toText, fun style blank =>
    ⟨fun p => Particle.reread_toJson blank, fun s => ?_,
    fun v => ?_, fun v => ?_⟩⟩
  · exact ⟨by rw [s.toJson_unbind], rfl, Stack.reread_toJson blank⟩
  · exact ⟨by rw [v.toJson_unbind], rfl, ScalarValue.reread_toJson blank⟩
  · exact ⟨by rw [v.toJson_unbind], rfl, VectorValue.reread_toJson blank⟩

/-- The built-in setup comes back, but not once a component of its facing axis is infinite; so do a
resting particle and the stack that the setup's emitter has bound. -/
theorem default_texts_read_back :
    Config.ofText (Config.default : Config Float32).toText = .ok Config.default ∧
    Config.ofText { (Config.default : Config Float32) with front := ⟨0, 1 / 0, 0⟩ }.toText =
      .error .malformed ∧
    reread .compact Particle.ofJson? (Particle.default : Particle Float32).toJson =
      some Particle.default ∧
    reread .compact (Stack.ofJson? 0)
      ((Config.default.modules : Stack Float32).rebind Config.default.distributions).toJson =
      some Config.default.modules := by
  obtain ⟨setups, others⟩ := texts_read_back
  obtain ⟨particles, rebuilt, -⟩ := others .compact Style.blank_compact
  refine ⟨?_, ?_, ?_, ?_⟩
  · rw [setups .default (by decide +kernel) (by decide +kernel) (by decide +kernel)]
    exact if_pos (by decide +kernel)
  · rw [setups _ (by decide +kernel) (by decide +kernel) (by decide +kernel)]
    exact if_neg (by decide +kernel)
  · exact (particles _ (by decide +kernel)).trans (if_pos (by decide +kernel))
  · exact (rebuilt _).2.2 (by decide +kernel)

end Texts

end ParticleSystem
