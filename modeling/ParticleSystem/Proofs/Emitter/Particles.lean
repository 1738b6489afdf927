import ParticleSystem.Proofs.Emitter.Calls

/-!
The particles of an emitter, one by one. Each began as a new particle that the spawn modules set in
motion, and each tick takes it through the update modules and then along its velocity; so what holds
of new particles and is kept by a tick holds of every particle there is.
-/

namespace ParticleSystem

variable {α β : Type} [Scalar α]

/-- What the modules see in a tick of an emitter of a configuration. -/
def Config.updateContext (config : Config α) (time dt : α) : UpdateContext α where
  clock := ⟨time, config.duration⟩
  front := config.front
  localSpace := config.localSpace
  emitter := .ofTranslation config.position
  tickTime := dt
  maxExtent := config.maxExtent
  minExtent := config.minExtent

/-- The modules of a configuration, bound to its table. -/
def Config.boundModules (config : Config α) : Stack α := config.modules.rebind config.distributions

/-- A new particle of a configuration, before the modules have worked on it. -/
def Config.seedling (config : Config α) : Particle α :=
  { Particle.default with
    lifetime := config.lifetime, spawnTransform := .ofTranslation config.position }

omit [Scalar α] in
theorem SpawnModule.bind_bind (m : SpawnModule α) (table : DistributionTable α) :
    (m.bind table).bind table = m.bind table := by
  cases m <;> rfl

omit [Scalar α] in
theorem Stack.rebind_rebind (stack : Stack α) (table : DistributionTable α) :
    (stack.rebind table).rebind table = stack.rebind table := by
  simp [rebind, SpawnModule.bind_bind]

theorem Stack.updateParticle_boundModules (config : Config α) (context : UpdateContext α)
    (particle : Particle α) (stream : RandomStream) :
    config.boundModules.updateParticle context particle stream =
      .ok (config.boundModules.runUpdate context particle stream).1
        (config.boundModules.runUpdate context particle stream).2 := rfl

namespace Emitter

/-- An emitter whose modules are those of its configuration, bound to its table. -/
def Bound (e : Emitter α β) : Prop := e.modules = e.config.boundModules

theorem bound_ofConfig (config : Config α) : (ofConfig config : Emitter α β).Bound := rfl

omit [Scalar α] in
theorem Bound.of_kept {e after : Emitter α β} (bound : e.Bound) (config : after.config = e.config)
    (modules : after.modules = e.modules) : after.Bound := by
  unfold Bound at bound ⊢
  rw [modules, bound, config]

variable [Layout α β] {e after : Emitter α β}

/-- A spawn adds a particle with the body of a new one, and
changes nothing else that the modules see. -/
theorem spawnOne_particle (bound : e.Bound) (done : spawnOne e = .ok () after) :
    after.config = e.config ∧ after.modules = e.modules ∧ after.time = e.time ∧
      ∃ particle slot, e.config.seedling.SameBody particle ∧
        after.particles = e.particles.push ⟨particle, slot⟩ := by
  obtain ⟨newborn, slot, pool, ran, -, -, rfl⟩ := spawnOne_iff.mp done
  rw [bound] at ran
  exact ⟨rfl, rfl, rfl, newborn.particle, slot, Stack.spawnParticle_ok ran, rfl⟩

omit [Scalar α] in
private theorem recordHit_random {slot : Nat} {time : α} {ledger left : Ledger β}
    (done : recordHit slot time ledger = .ok () left) : left.random = ledger.random := by
  unfold recordHit at done
  split at done
  · cases done
    rfl
  · split at done
    · cases done
      rfl
    · cases done

/-- An update takes a particle through the modules and then
along its velocity; only the modules draw. -/
theorem advance_moved {config : Config α} {context : UpdateContext α} {time : α}
    {live next : LiveParticle α} {ledger left : Ledger β}
    (done : advance config.boundModules context time live ledger = .ok next left) :
    next = ⟨(config.boundModules.runUpdate context live.particle ledger.random).1.integrate
      context.tickTime, live.slot⟩ ∧
      left.random = (config.boundModules.runUpdate context live.particle ledger.random).2 := by
  unfold advance at done
  simp only [Stack.updateParticle_boundModules] at done
  split at done
  · split at done
    · rename_i hit
      cases done
      exact ⟨rfl, recordHit_random hit⟩
    · cases done
  · cases done
    exact ⟨rfl, rfl⟩

theorem mapM_advance_particle {config : Config α} {context : UpdateContext α} {time : α}
    {lives nexts : List (LiveParticle α)} {ledger left : Ledger β}
    (done : lives.mapM (advance config.boundModules context time) ledger = .ok nexts left) :
    ∀ next ∈ nexts, ∃ live ∈ lives, ∃ stream, next.particle =
      ((config.boundModules.runUpdate context live.particle stream).1).integrate
        context.tickTime := by
  induction lives generalizing ledger nexts with
  | nil =>
    cases done
    simp
  | cons live rest ih =>
    obtain ⟨next, middle, others, first, later, rfl⟩ := mapM_cons_eq_ok done
    intro member isNext
    rcases List.mem_cons.mp isNext with here | behind
    · subst here
      exact ⟨live, List.mem_cons_self, ledger.random,
        congrArg LiveParticle.particle (advance_moved first).1⟩
    · obtain ⟨old, there, moved⟩ := ih later member behind
      exact ⟨old, List.mem_cons_of_mem _ there, moved⟩

/-- Every particle that a tick leaves was there before and went through the modules. -/
theorem tick_particles {dt : α} {report : TickReport} (bound : e.Bound)
    (done : tick dt e = .ok report after) :
    after.config = e.config ∧ after.modules = e.modules ∧ after.time = e.time + dt ∧
      ∀ next ∈ after.particles.toList, ∃ live ∈ e.particles.toList, ∃ stream, next.particle =
        (e.config.boundModules.runUpdate (e.config.updateContext e.time dt)
          live.particle stream).1.integrate
          dt := by
  obtain ⟨lives, ledger, pool, all, -, -, rfl⟩ := tick_iff.mp done
  unfold updateAll at all
  rw [bound] at all
  refine ⟨rfl, rfl, rfl, fun next member => ?_⟩
  rw [List.toList_toArray] at member
  exact mapM_advance_particle all next (List.mem_of_mem_filter member)

theorem perform_bound {action : Action α} {reports : List TickReport} (bound : e.Bound)
    (done : action.perform e = .ok reports after) : after.Bound := by
  cases action with
  | spawn =>
    obtain ⟨done, -⟩ := Action.perform_spawn_ok done
    obtain ⟨config, modules, -⟩ := spawnOne_particle bound done
    exact bound.of_kept config modules
  | tick dt =>
    obtain ⟨_, rfl, ticked⟩ := Action.perform_tick_ok done
    obtain ⟨config, modules, -⟩ := tick_particles bound ticked
    exact bound.of_kept config modules
  | reload =>
    cases done
    unfold Bound at bound ⊢
    rw [reload, bound]
    exact Stack.rebind_rebind _ _

theorem performAll_bound {actions : List (Action α)} {reports : List TickReport} (bound : e.Bound)
    (done : Action.performAll actions e = .ok reports after) : after.Bound := by
  induction actions generalizing e reports with
  | nil =>
    cases done
    exact bound
  | cons action rest ih =>
    obtain ⟨own, middle, others, first, later, rfl⟩ := Action.performAll_cons_ok done
    exact ih (perform_bound bound first) later

/-- What holds of every new particle and is kept by every tick
holds of all particles that there are. -/
theorem particles_induction {motive : Particle α → Prop} {config : Config α}
    {actions : List (Action α)}
    {reports : List TickReport}
    (fresh : ∀ particle, config.seedling.SameBody particle → motive particle)
    (step : ∀ time dt particle stream, .tick dt ∈ actions → motive particle →
      motive ((config.boundModules.runUpdate (config.updateContext time dt)
        particle stream).1.integrate dt))
    (done : Action.performAll actions (ofConfig config) = .ok reports e) :
    ∀ live ∈ e.particles.toList, motive live.particle := by
  have start : ∀ live ∈ (ofConfig config : Emitter α β).particles.toList, motive live.particle := by
    intro live member
    cases member
  have same : (ofConfig config : Emitter α β).config = config := rfl
  have bound := bound_ofConfig (β := β) config
  generalize (ofConfig config : Emitter α β) = first at done start same bound
  induction actions generalizing first reports with
  | nil =>
    cases done
    exact start
  | cons action rest ih =>
    obtain ⟨own, middle, others, begun, later, rfl⟩ := Action.performAll_cons_ok done
    refine ih (fun time dt particle stream member =>
      step time dt particle stream (List.mem_cons_of_mem _ member))
      middle later ?_ ((Action.perform_config begun).trans same) (perform_bound bound begun)
    intro live member
    cases action with
    | spawn =>
      obtain ⟨begun, -⟩ := Action.perform_spawn_ok begun
      obtain ⟨_, _, _, particle, slot, body, pushed⟩ := spawnOne_particle bound begun
      rw [pushed, Array.toList_push, List.mem_append, List.mem_singleton] at member
      rcases member with old | new
      · exact start live old
      · subst new
        exact fresh particle (same ▸ body)
    | tick dt =>
      obtain ⟨_, rfl, ticked⟩ := Action.perform_tick_ok begun
      obtain ⟨_, _, _, moved⟩ := tick_particles bound ticked
      obtain ⟨old, there, stream, became⟩ := moved live member
      rw [became, same]
      exact step _ dt _ stream List.mem_cons_self (start old there)
    | reload =>
      cases begun
      exact start live member

end Emitter

end ParticleSystem
