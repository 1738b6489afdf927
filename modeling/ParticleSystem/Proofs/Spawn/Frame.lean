import ParticleSystem.Stack

namespace ParticleSystem

variable {α : Type}

theorem bind_eq_ok {ε σ γ δ : Type} {x : EStateM ε σ γ} {f : γ → EStateM ε σ δ} {state after : σ}
    {answer : δ} (done : (x >>= f) state = .ok answer after) :
    ∃ value middle, x state = .ok value middle ∧ f value middle = .ok answer after := by
  change EStateM.bind x f state = _ at done
  unfold EStateM.bind at done
  split at done
  · exact ⟨_, _, ‹_›, done⟩
  · cases done

theorem eq_ok_of_run' {ε σ γ : Type} {x : EStateM ε σ γ} {state : σ} {value : γ}
    (done : EStateM.run' x state = some value) : ∃ after, x state = .ok value after := by
  unfold EStateM.run' EStateM.run at done
  split at done
  · cases done
    exact ⟨_, ‹_›⟩
  · cases done

theorem mapM_cons_eq_ok {ε σ γ δ : Type} {f : γ → EStateM ε σ δ} {item : γ} {rest : List γ}
    {state after : σ} {answers : List δ} (done : (item :: rest).mapM f state = .ok answers after) :
    ∃ own middle others, f item state = .ok own middle ∧ rest.mapM f middle = .ok others after ∧
      answers = own :: others := by
  rw [List.mapM_cons] at done
  obtain ⟨own, middle, first, done⟩ := bind_eq_ok done
  obtain ⟨others, last, later, done⟩ := bind_eq_ok done
  cases done
  exact ⟨own, middle, others, first, later, rfl⟩

theorem bind_of_ok {ε σ γ δ : Type} {x : EStateM ε σ γ} {f : γ → EStateM ε σ δ} {state middle : σ}
    {value : γ} (done : x state = .ok value middle) : (x >>= f) state = f value middle := by
  change EStateM.bind x f state = _
  rw [EStateM.bind, done]

theorem bind_of_error {ε σ γ δ : Type} {x : EStateM ε σ γ} {f : γ → EStateM ε σ δ} {state left : σ}
    {fault : ε} (failed : x state = .error fault left) : (x >>= f) state = .error fault left := by
  change EStateM.bind x f state = _
  rw [EStateM.bind, failed]

theorem bind_eq_error {ε σ γ δ : Type} {x : EStateM ε σ γ} {f : γ → EStateM ε σ δ} {state left : σ}
    {fault : ε} (failed : (x >>= f) state = .error fault left) :
    x state = .error fault left ∨
      ∃ value middle, x state = .ok value middle ∧ f value middle = .error fault left := by
  change EStateM.bind x f state = _ at failed
  unfold EStateM.bind at failed
  split at failed
  · exact .inr ⟨_, _, ‹_›, failed⟩
  · cases failed
    exact .inl ‹_›

/-- Two particles that differ in how they move and how they are turned alone. -/
structure Particle.SameBody (p q : Particle α) : Prop where
  position_eq : q.position = p.position
  scale_eq : q.scale = p.scale
  spawnTransform_eq : q.spawnTransform = p.spawnTransform
  lifetime_eq : q.lifetime = p.lifetime
  age_eq : q.age = p.age
  collided_eq : q.collided = p.collided
  contact_eq : q.contact = p.contact
  timeAfterContact_eq : q.timeAfterContact = p.timeAfterContact

namespace Particle.SameBody

theorem refl (p : Particle α) : p.SameBody p := ⟨rfl, rfl, rfl, rfl, rfl, rfl, rfl, rfl⟩

theorem trans {p q r : Particle α} (first : p.SameBody q) (second : q.SameBody r) :
    p.SameBody r where
  position_eq := second.position_eq.trans first.position_eq
  scale_eq := second.scale_eq.trans first.scale_eq
  spawnTransform_eq := second.spawnTransform_eq.trans first.spawnTransform_eq
  lifetime_eq := second.lifetime_eq.trans first.lifetime_eq
  age_eq := second.age_eq.trans first.age_eq
  collided_eq := second.collided_eq.trans first.collided_eq
  contact_eq := second.contact_eq.trans first.contact_eq
  timeAfterContact_eq := second.timeAfterContact_eq.trans first.timeAfterContact_eq

end Particle.SameBody

namespace Spawning

/-- Work that leaves the body of a newborn alone, and fails for given reasons alone. -/
def Keeps (body : Particle α) (fails : CurveFault → Prop) {γ : Type} (x : Spawning α γ) : Prop :=
  ∀ newborn, body.SameBody newborn.particle →
    match x newborn with
    | .ok _ after => body.SameBody after.particle
    | .error fault _ => fails fault

variable {body : Particle α} {fails : CurveFault → Prop} {γ δ : Type}

theorem Keeps.pure (value : γ) : Keeps body fails (Pure.pure value : Spawning α γ) :=
  fun _ same => same

theorem Keeps.get : Keeps body fails (MonadState.get : Spawning α (Newborn α)) := fun _ same => same

theorem Keeps.uniform [Scalar α] : Keeps body fails (uniform : Spawning α α) := fun _ same => same

theorem Keeps.bind {x : Spawning α γ} {f : γ → Spawning α δ} (first : Keeps body fails x)
    (second : ∀ value, Keeps body fails (f value)) : Keeps body fails (x >>= f) := by
  intro newborn same
  have own := first newborn same
  cases ran : (x >>= f) newborn with
  | ok value after =>
    obtain ⟨answer, middle, begun, rest⟩ := bind_eq_ok ran
    rw [begun] at own
    have later := second answer middle own
    rwa [rest] at later
  | error fault left =>
    rcases bind_eq_error ran with failed | ⟨answer, middle, begun, rest⟩
    · rwa [failed] at own
    · rw [begun] at own
      have later := second answer middle own
      rwa [rest] at later

theorem Keeps.ite {test : Prop} [Decidable test] {x y : Spawning α γ} (yes : Keeps body fails x)
    (no : Keeps body fails y) : Keeps body fails (if test then x else y) := by
  split
  · exact yes
  · exact no

theorem Keeps.write {f : Particle α → Particle α} (moves : ∀ p : Particle α, p.SameBody (f p)) :
    Keeps body fails (write f) := fun newborn same => same.trans (moves newborn.particle)

theorem Keeps.setVelocity (velocity : Vec3 α) : Keeps body fails (setVelocity velocity) :=
  .write fun _ => ⟨rfl, rfl, rfl, rfl, rfl, rfl, rfl, rfl⟩

theorem Keeps.forM {items : List γ} {f : γ → Spawning α Unit}
    (each : ∀ item ∈ items, Keeps body fails (f item)) : Keeps body fails (items.forM f) := by
  induction items with
  | nil => exact .pure ()
  | cons item rest ih =>
    exact .bind (each item List.mem_cons_self) fun _ =>
      ih fun later member => each later (List.mem_cons_of_mem _ member)

end Spawning

private theorem DistributionTable.curve_mem_of_resolve? {table : DistributionTable α}
    {ref : Option DistributionRef} {curve : Curve α}
    (found : table.resolve? ref = some (.curve curve)) : curve ∈ table.curves := by
  obtain ⟨entry, -, found⟩ := Option.bind_eq_some_iff.mp found
  unfold resolve at found
  split at found
  · obtain ⟨_, -, same⟩ := Option.map_eq_some_iff.mp found
    cases same
  · obtain ⟨_, there, same⟩ := Option.map_eq_some_iff.mp found
    cases same
    exact List.mem_of_getElem? there

variable [Scalar α]

/-- Whether a curve of a table has no value for a particle. -/
def DistributionTable.Faults (table : DistributionTable α) (clock : Clock α) (particle : Particle α)
    (fault : CurveFault) : Prop :=
  ∃ curve ∈ table.curves, curve.sample (curve.axis.share clock particle) = .error fault

private theorem CurveAxis.share_of_sameBody {p q : Particle α} (same : p.SameBody q)
    (axis : CurveAxis) (clock : Clock α) : axis.share clock q = axis.share clock p := by
  cases axis with
  | particle => simp only [share, Particle.lifeShare, same.lifetime_eq, same.age_eq]
  | emitter => rfl

section Sampling

variable {table : DistributionTable α} {clock : Clock α} {particle : Particle α}
  {stream left : RandomStream} {fault : CurveFault}

theorem tickOr_error {ref : Option DistributionRef} {base : α}
    (failed : Distribution.tickOr (table.resolve? ref) base clock particle stream =
      .error fault left) :
    table.Faults clock particle fault := by
  cases found : table.resolve? ref with
  | none =>
    rw [found] at failed
    cases failed
  | some entry =>
    rw [found] at failed
    cases entry with
    | random range => cases failed
    | curve curve =>
      refine ⟨curve, DistributionTable.curve_mem_of_resolve? found, ?_⟩
      simp only [Distribution.tickOr, Distribution.tick] at failed
      split at failed
      · cases failed
      · rename_i own
        cases failed
        exact own

private theorem VectorValue.tick_error {value : VectorValue α}
    (failed : (value.bind table).tick clock particle stream = .error fault left) :
    table.Faults clock particle fault := by
  rcases bind_eq_error failed with x | ⟨_, _, -, failed⟩
  · exact tickOr_error x
  · rcases bind_eq_error failed with y | ⟨_, _, -, failed⟩
    · exact tickOr_error y
    · rcases bind_eq_error failed with z | ⟨_, _, -, failed⟩
      · exact tickOr_error z
      · cases failed

end Sampling

section Modules

variable {table : DistributionTable α} {context : SpawnContext α} {body : Particle α}

/-- A parameter fails where a curve fails for the body that the newborn has throughout. -/
theorem Spawning.Keeps.sample {γ : Type} {tick : Clock α → Particle α → Sampling γ}
    (why : ∀ particle stream fault left,
      tick context.clock particle stream = .error fault left →
      table.Faults context.clock particle fault) :
    Keeps body (table.Faults context.clock body) (sample tick context) := by
  intro newborn same
  unfold Spawning.sample
  cases ran : tick context.clock newborn.particle newborn.stream with
  | ok value stream => exact same
  | error fault stream =>
    obtain ⟨curve, member, failed⟩ := why _ _ _ _ ran
    rw [CurveAxis.share_of_sameBody same] at failed
    exact ⟨curve, member, failed⟩

theorem Spawning.Keeps.scalar (value : ScalarValue α) :
    Keeps body (table.Faults context.clock body)
      (Spawning.sample (value.bind table).tick context) :=
  .sample fun _ _ _ _ => tickOr_error

theorem Spawning.Keeps.vector (value : VectorValue α) :
    Keeps body (table.Faults context.clock body)
      (Spawning.sample (value.bind table).tick context) :=
  .sample fun _ _ _ _ => VectorValue.tick_error

open Spawning

theorem SpawnModule.keeps (m : SpawnModule α) :
    Keeps body (table.Faults context.clock body) ((m.bind table).execute context) := by
  cases m with
  | directed m =>
    exact .bind (.scalar m.strength) fun _ => .bind (.vector m.direction) fun _ => .setVelocity _
  | sector m =>
    exact .ite (.setVelocity _) (.bind .uniform fun _ => .bind (.scalar m.strength) fun _ =>
      .setVelocity _)
  | cone m =>
    exact .ite (.setVelocity _) (.bind .uniform fun _ => .bind .uniform fun _ =>
      .bind (.scalar m.strength) fun _ =>
      .setVelocity _)
  | sphere m =>
    exact .bind .uniform fun _ => .bind .uniform fun _ => .bind (.scalar m.strength) fun _ =>
      .setVelocity _
  | focus m =>
    exact .bind .get fun _ => .ite (.bind (.scalar m.rate) fun _ => .setVelocity _) (.pure ())
  | orientation m =>
    exact .bind (.scalar m.spinRate) fun _ =>
      .bind (.write fun _ => ⟨rfl, rfl, rfl, rfl, rfl, rfl, rfl, rfl⟩) fun _ =>
        .bind (.scalar m.angle) fun _ => .write fun _ => ⟨rfl, rfl, rfl, rfl, rfl, rfl, rfl, rfl⟩

theorem Stack.runSpawn_keeps (stack : Stack α) (table : DistributionTable α)
    (context : SpawnContext α) :
    Keeps body (table.Faults context.clock body) ((stack.rebind table).runSpawn context) := by
  apply Keeps.forM
  intro bound member
  obtain ⟨m, -, rfl⟩ := List.mem_map.mp member
  exact m.keeps

variable {stack : Stack α} {newborn after : Newborn α} {fault : StackFault}

theorem Stack.spawnParticle_ok
    (done : (stack.rebind table).spawnParticle context newborn = .ok () after) :
    newborn.particle.SameBody after.particle := by
  have keeps := stack.runSpawn_keeps table context newborn (.refl newborn.particle)
  have bound : (stack.rebind table).bound = true := rfl
  cases ran : (stack.rebind table).runSpawn context newborn with
  | ok _ left =>
    rw [ran] at keeps
    simp only [spawnParticle, bound, ↓reduceIte, ran] at done
    cases done
    exact keeps
  | error own left => simp [spawnParticle, bound, ran] at done

/-- A bound stack fails where a curve of its table has no value for the newborn. -/
theorem Stack.spawnParticle_error
    (failed : (stack.rebind table).spawnParticle context newborn = .error fault after) :
    ∃ own, fault = .curve own ∧ table.Faults context.clock newborn.particle own := by
  have keeps := stack.runSpawn_keeps table context newborn (.refl newborn.particle)
  have bound : (stack.rebind table).bound = true := rfl
  cases ran : (stack.rebind table).runSpawn context newborn with
  | ok _ left => simp [spawnParticle, bound, ran] at failed
  | error own left =>
    rw [ran] at keeps
    simp only [spawnParticle, bound, ↓reduceIte, ran] at failed
    cases failed
    exact ⟨own, rfl, keeps⟩

end Modules

end ParticleSystem
