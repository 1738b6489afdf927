import ParticleSystem.Proofs.Collision.Landing
import ParticleSystem.Stack

namespace ParticleSystem

variable {α : Type}

/-- Two particles that differ in where they are, how they move and what they have met alone. -/
structure Particle.SameMake (p q : Particle α) : Prop where
  rotation_eq : q.rotation = p.rotation
  spinAxis_eq : q.spinAxis = p.spinAxis
  spinRate_eq : q.spinRate = p.spinRate
  scale_eq : q.scale = p.scale
  spawnTransform_eq : q.spawnTransform = p.spawnTransform
  lifetime_eq : q.lifetime = p.lifetime
  age_eq : q.age = p.age

theorem Particle.SameMake.trans {p q r : Particle α} (first : p.SameMake q)
    (second : q.SameMake r) : p.SameMake r where
  rotation_eq := second.rotation_eq.trans first.rotation_eq
  spinAxis_eq := second.spinAxis_eq.trans first.spinAxis_eq
  spinRate_eq := second.spinRate_eq.trans first.spinRate_eq
  scale_eq := second.scale_eq.trans first.scale_eq
  spawnTransform_eq := second.spawnTransform_eq.trans first.spawnTransform_eq
  lifetime_eq := second.lifetime_eq.trans first.lifetime_eq
  age_eq := second.age_eq.trans first.age_eq

/-- Work that draws nothing from the random stream. -/
def Drawless {γ : Type} (x : StateM RandomStream γ) : Prop := ∃ value, x = pure value

namespace Drawless

variable {γ δ : Type}

theorem pure (value : γ) : Drawless (Pure.pure value) := ⟨value, rfl⟩

theorem bind {x : StateM RandomStream γ} {f : γ → StateM RandomStream δ} (first : Drawless x)
    (second : ∀ value, Drawless (f value)) : Drawless (x >>= f) := by
  obtain ⟨value, rfl⟩ := first
  exact second value

theorem foldlM {f : γ → δ → StateM RandomStream γ} {items : List δ}
    (each : ∀ value, ∀ item ∈ items, Drawless (f value item)) (start : γ) :
    Drawless (items.foldlM f start) := by
  induction items generalizing start with
  | nil => exact .pure start
  | cons item rest ih =>
    rw [List.foldlM_cons]
    exact .bind (each start item List.mem_cons_self) fun value =>
      ih (fun later other member => each later other (List.mem_cons_of_mem _ member)) value

theorem apply_eq {x : StateM RandomStream γ} (drawless : Drawless x) (first second : RandomStream) :
    x second = ((x first).1, second) := by
  obtain ⟨value, rfl⟩ := drawless
  rfl

end Drawless

/-- What every step of a fold keeps is kept by the fold, whatever is drawn. -/
theorem RandomStream.foldlM_induction {γ δ : Type} {motive : γ → Prop}
    {f : γ → δ → StateM RandomStream γ}
    (step : ∀ value item stream, motive value → motive (f value item stream).1) (items : List δ)
    {start : γ} (begun : motive start) (stream : RandomStream) :
    motive (items.foldlM f start stream).1 := by
  induction items generalizing start stream with
  | nil => exact begun
  | cons item rest ih =>
    rw [List.foldlM_cons, RandomStream.bind_apply]
    exact ih (step start item stream begun) _

theorem RandomStream.foldlM_congr {γ δ : Type} {motive : γ → Prop}
    {f g : γ → δ → StateM RandomStream γ}
    (same : ∀ value item, motive value → f value item = g value item)
    (step : ∀ value item stream, motive value → motive (f value item stream).1) (items : List δ)
    {start : γ} (begun : motive start) : items.foldlM f start = items.foldlM g start := by
  induction items generalizing start with
  | nil => rfl
  | cons item rest ih =>
    funext stream
    rw [List.foldlM_cons, List.foldlM_cons, RandomStream.bind_apply, RandomStream.bind_apply,
      ← same start item begun, ih (step start item stream begun)]

variable [Scalar α]

namespace Collision

theorem respond_sameMake (bounce : Bounce α) (context : UpdateContext α) (normal : Vec3 α)
    (particle : Particle α) (met : Encounter α) (stream : RandomStream) :
    particle.SameMake (respond bounce context normal particle met stream).1 := by
  cases met with
  | clear => exact ⟨rfl, rfl, rfl, rfl, rfl, rfl, rfl⟩
  | leaving position => exact ⟨rfl, rfl, rfl, rfl, rfl, rfl, rfl⟩
  | contact position distance =>
    simp only [respond]
    split <;> exact ⟨rfl, rfl, rfl, rfl, rfl, rfl, rfl⟩

theorem collideWith_sameMake (bounce : Bounce α) (context : UpdateContext α) (radius : α)
    (particle : Particle α) (plane : Plane α) (stream : RandomStream) :
    particle.SameMake (collideWith bounce context radius particle plane stream).1 := by
  unfold collideWith
  cases encounter context radius particle plane with
  | none => exact ⟨rfl, rfl, rfl, rfl, rfl, rfl, rfl⟩
  | some found => exact respond_sameMake ..

theorem execute_sameMake (m : Collision α) (context : UpdateContext α) (particle : Particle α)
    (stream : RandomStream) : particle.SameMake (m.execute context particle stream).1 :=
  RandomStream.foldlM_induction (fun _ _ _ same => same.trans (collideWith_sameMake ..)) m.planes
    ⟨rfl, rfl, rfl, rfl, rfl, rfl, rfl⟩ stream

theorem localPlane_of_sameMake (context : UpdateContext α) {before after : Particle α}
    (same : before.SameMake after) (plane : Plane α) :
    localPlane context after plane = localPlane context before plane := by
  simp only [localPlane, same.spawnTransform_eq]

theorem compute_of_sameMake (radius : CollisionRadius α) (context : UpdateContext α)
    {before after : Particle α} (same : before.SameMake after) :
    radius.compute after context = radius.compute before context := by
  simp only [CollisionRadius.compute, same.scale_eq]

theorem drawless_respond {bounce : Bounce α} (exact : bounce.jitter ≤ Scalar.epsilon)
    (context : UpdateContext α) (normal : Vec3 α) (particle : Particle α) (met : Encounter α) :
    Drawless (respond bounce context normal particle met) := by
  cases met with
  | clear => exact .pure _
  | leaving position => exact .pure _
  | contact position distance =>
    simp only [respond, exact, if_true]
    exact .pure _

theorem drawless_execute {m : Collision α} (exact : m.bounce.jitter ≤ Scalar.epsilon)
    (context : UpdateContext α) (particle : Particle α) :
    Drawless (m.execute context particle) := by
  apply Drawless.foldlM
  intro value plane _
  unfold collideWith
  cases encounter context (m.radius.compute particle context) value plane with
  | none => exact .pure _
  | some found => exact drawless_respond exact ..

end Collision

theorem UpdateModule.execute_sameMake (m : UpdateModule α) (context : UpdateContext α)
    (particle : Particle α) (stream : RandomStream) :
    particle.SameMake (m.execute context particle stream).1 := by
  cases m with
  | collision m => exact m.execute_sameMake ..

namespace Stack

variable (s : Stack α)

theorem runUpdate_sameMake (context : UpdateContext α) (particle : Particle α)
    (stream : RandomStream) : particle.SameMake (s.runUpdate context particle stream).1 := by
  have start : particle.SameMake { particle with collided := false } :=
    ⟨rfl, rfl, rfl, rfl, rfl, rfl, rfl⟩
  exact RandomStream.foldlM_induction (fun _ m _ same => same.trans (m.execute_sameMake ..))
    s.update start stream

/-- Whether all bounces of a stack are exact. -/
def ExactBounces : Prop := ∀ m, .collision m ∈ s.update → m.bounce.jitter ≤ Scalar.epsilon

variable {s}

theorem drawless_runUpdate (exact : s.ExactBounces) (context : UpdateContext α)
    (particle : Particle α) : Drawless (s.runUpdate context particle) := by
  apply Drawless.foldlM
  intro value m member
  cases m with
  | collision m => exact Collision.drawless_execute (exact m member) ..

end Stack

end ParticleSystem
