import ParticleSystem.Proofs.Collision.Space
import ParticleSystem.Proofs.Emitter.Floor
import ParticleSystem.Proofs.Emitter.Rebinding

namespace ParticleSystem

/-- Two results with the same answer, or the same fault, that leave related states. -/
inductive Together {ε σ τ γ : Type} (related : σ → τ → Prop) :
    EStateM.Result ε σ γ → EStateM.Result ε τ γ → Prop
  | ok (answer : γ) {state : σ} {other : τ} (left : related state other) :
      Together related (.ok answer state) (.ok answer other)
  | error (fault : ε) {state : σ} {other : τ} (left : related state other) :
      Together related (.error fault state) (.error fault other)

/-- Two pieces of work that come to the same from related states. -/
def Parallel {ε σ τ γ : Type} (related : σ → τ → Prop) (x : EStateM ε σ γ) (y : EStateM ε τ γ) :
    Prop :=
  ∀ state other, related state other → Together related (x state) (y other)

section Work

variable {ε σ τ γ δ : Type} {related stronger : σ → τ → Prop}

theorem Together.left {x : EStateM.Result ε σ γ} {y : EStateM.Result ε τ γ}
    (together : Together related x y) : related (leaves x) (leaves y) := by
  cases together with
  | ok answer left => exact left
  | error fault left => exact left

theorem Together.imp {x : EStateM.Result ε σ γ} {y : EStateM.Result ε τ γ}
    (weaker : ∀ state other, stronger state other → related state other)
    (together : Together stronger x y) : Together related x y := by
  cases together with
  | ok answer left => exact .ok answer (weaker _ _ left)
  | error fault left => exact .error fault (weaker _ _ left)

namespace Parallel

theorem pure (value : γ) : Parallel related (Pure.pure value : EStateM ε σ γ) (Pure.pure value) :=
  fun _ _ own => .ok value own

theorem bind {x : EStateM ε σ γ} {y : EStateM ε τ γ} {f : γ → EStateM ε σ δ} {g : γ → EStateM ε τ δ}
    (first : Parallel related x y) (second : ∀ value, Parallel related (f value) (g value)) :
    Parallel related (x >>= f) (y >>= g) := by
  intro state other own
  have begun := first state other own
  cases ran : x state with
  | ok value middle =>
    cases also : y other <;> rw [ran, also] at begun <;> cases begun
    rename_i after left
    rw [bind_of_ok ran, bind_of_ok also]
    exact second value middle after left
  | error fault middle =>
    cases also : y other <;> rw [ran, also] at begun <;> cases begun
    rename_i after left
    rw [bind_of_error ran, bind_of_error also]
    exact .error fault left

theorem get_bind {f : σ → EStateM ε σ γ} {g : τ → EStateM ε τ γ}
    (each : ∀ state other, related state other → Parallel related (f state) (g other)) :
    Parallel related (MonadState.get >>= f) (MonadState.get >>= g) :=
  fun state other own => each state other own state other own

end Parallel

private theorem mapM_congr {f g : γ → EStateM ε σ δ} {items : List γ}
    (same : ∀ item ∈ items, f item = g item) : items.mapM f = items.mapM g := by
  induction items with
  | nil => rfl
  | cons item rest ih =>
    rw [List.mapM_cons, List.mapM_cons, same item List.mem_cons_self,
      ih fun other member => same other (List.mem_cons_of_mem _ member)]

end Work

section Definitions

variable {α β : Type} [Scalar α]

/-- The same setup with particles that live in the emitter's space,
and planes as they are seen from there. -/
def Config.toLocal (c : Config α) : Config α :=
  { c with localSpace := true, modules := c.modules.relativeTo c.position }

namespace Emitter

/-- The emitter of the same setup in its own space. -/
def toLocal (e : Emitter α β) : Emitter α β :=
  { e with config := e.config.toLocal, modules := e.modules.relativeTo e.config.position }

/-- An emitter whose particles live where each was born, next to the one in its own space. -/
structure Twin (e own : Emitter α β) : Prop where
  own_eq : own = e.toLocal
  apart : e.config.localSpace = false
  bound : e.Bound
  born : ∀ live ∈ e.particles.toList, live.particle.spawnTransform = e.transform

theorem twin_ofConfig {config : Config α} (apart : config.localSpace = false) :
    Twin (ofConfig config : Emitter α β) (ofConfig config.toLocal) where
  own_eq := rfl
  apart := apart
  bound := rfl
  born := by simp [ofConfig]

/-- Two emitters that show the same: their particles with the
records, and all places in the world. -/
structure SameView [Layout α β] (e own : Emitter α β) : Prop where
  particles_eq : own.particles = e.particles
  stats_eq : ∀ i, own.stats? i = e.stats? i
  random_eq : own.random = e.random
  worldPositions_eq : own.worldPositions = e.worldPositions
  time_eq : own.time = e.time
  spawned_eq : own.spawned = e.spawned

theorem Twin.worldPositions_eq {e own : Emitter α β} (twin : Twin e own) :
    own.worldPositions = e.worldPositions := by
  obtain ⟨rfl, -, -, born⟩ := twin
  refine List.map_congr_left fun live member => ?_
  have place (localSpace : Bool) : live.particle.worldPosition localSpace e.transform =
      e.transform.applyPoint live.particle.position :=
    congrFun (Particle.toWorld_of_born (born live member) localSpace) _
  exact (place _).trans (place _).symm

private theorem Twin.sameView [Layout α β] {e own : Emitter α β} (twin : Twin e own) :
    SameView e own := by
  have world := twin.worldPositions_eq
  obtain ⟨rfl, -, -, -⟩ := twin
  exact ⟨rfl, fun _ => rfl, rfl, world, rfl, rfl⟩

end Emitter

private theorem SpawnModule.execute_localSpace (m : SpawnModule α) (context : SpawnContext α)
    (localSpace : Bool) :
    m.execute { context with localSpace := localSpace } = m.execute context := by
  cases m <;> rfl

theorem Stack.spawnParticle_toLocal (s : Stack α) (origin : Vec3 α) (context : SpawnContext α) :
    (s.relativeTo origin).spawnParticle { context with localSpace := true } =
      s.spawnParticle context := by
  have same : (s.relativeTo origin).runSpawn { context with localSpace := true } =
      s.runSpawn context := by
    simp only [runSpawn, SpawnModule.execute_localSpace]
    rfl
  rw [spawnParticle, same]
  rfl

private theorem Emitter.parallel_spawnOne [Layout α β] : Parallel Twin (spawnOne (α :=
  α) (β := β)) spawnOne := by
  rintro ⟨config, random, modules, particles, pool, time, spawned⟩ _ ⟨rfl, apart, bound, born⟩
  let e : Emitter α β := ⟨config, random, modules, particles, pool, time, spawned⟩
  let own : Emitter α β :=
    ⟨config.toLocal, random, modules.relativeTo config.position, particles, pool, time, spawned⟩
  have same : own.modules.spawnParticle own.spawnContext ⟨own.seedling, own.random⟩ =
      e.modules.spawnParticle e.spawnContext ⟨e.seedling, e.random⟩ :=
    congrFun (e.modules.spawnParticle_toLocal e.config.position e.spawnContext) _
  change Together Twin (spawnOne e) (spawnOne own)
  unfold spawnOne
  rw [same]
  cases ran : e.modules.spawnParticle e.spawnContext ⟨e.seedling, e.random⟩ with
  | error fault newborn => exact .error _ ⟨rfl, apart, bound, born⟩
  | ok _ newborn =>
    have body : newborn.particle.spawnTransform = e.transform := by
      rw [show e.modules = _ from bound] at ran
      exact (Stack.spawnParticle_ok ran).spawnTransform_eq
    simp only [e, own]
    cases Pool.store ParticleStats.size
      ((⟨time, 0, 0, spawned⟩ : ParticleStats α).toCells : List β) pool with
    | error fault left =>
      simp only
      exact .error _ ⟨rfl, apart, bound, born⟩
    | ok slot left =>
      simp only
      split
      · refine .ok () ⟨rfl, apart, bound, fun live member => ?_⟩
        rw [Array.toList_push, List.mem_append, List.mem_singleton] at member
        rcases member with old | rfl
        · exact born live old
        · exact body
      · exact .error _ ⟨rfl, apart, bound, born⟩

end Definitions

namespace Emitter

variable {K β : Type} [Field K] [LinearOrder K] [FloorRing K] [Elementary K] [Layout K β]

private theorem updateAll_toLocal {e : Emitter K β} (apart : e.config.localSpace = false)
    (born : ∀ live ∈ e.particles.toList, live.particle.spawnTransform = e.transform) (dt : K) :
    e.toLocal.updateAll dt = e.updateAll dt := by
  have away : (e.updateContext dt).Away e.config.position := ⟨apart, rfl⟩
  refine congrFun (mapM_congr fun live member => ?_) _
  have moves : e.toLocal.modules.updateParticle (e.toLocal.updateContext dt) live.particle =
      e.modules.updateParticle (e.updateContext dt) live.particle :=
    e.modules.updateParticle_toLocal away (born live member)
  unfold advance
  rw [moves]
  rfl

private theorem spawnTransform_updateAll {e : Emitter K β} (bound : e.Bound)
    (born : ∀ live ∈ e.particles.toList, live.particle.spawnTransform = e.transform) {dt : K}
    {lives : List (LiveParticle K)} {ledger : Ledger β} (done : e.updateAll dt = .ok lives ledger) :
    ∀ next ∈ lives, next.particle.spawnTransform = e.transform := by
  intro next member
  rw [updateAll, bound] at done
  obtain ⟨live, there, stream, became⟩ := mapM_advance_particle done next member
  rw [became]
  exact (Stack.runUpdate_sameMake ..).spawnTransform_eq.trans (born live there)

theorem parallel_tick (dt : K) : Parallel Twin (tick (β := β) dt) (tick dt) := by
  rintro e _ ⟨rfl, apart, bound, born⟩
  rw [tick_eq, tick_eq, updateAll_toLocal apart born]
  cases all : e.updateAll dt with
  | error fault ledger => exact .error _ ⟨rfl, apart, bound, born⟩
  | ok lives ledger =>
    have kept : ∀ live ∈ (lives.filter (!·.particle.expired)).toArray.toList,
        live.particle.spawnTransform = e.transform :=
      fun live member => spawnTransform_updateAll bound born all live
        (List.mem_of_mem_filter member)
    simp only
    cases releaseAll (lives.filter (·.particle.expired)) ledger.pool with
    | error fault pool => exact .error _ ⟨rfl, apart, bound, kept⟩
    | ok _ pool => exact .ok _ ⟨rfl, apart, bound, kept⟩

theorem parallel_spawn (count : Nat) : Parallel Twin (spawn (α :=
  K) (β := β) count) (spawn count) := by
  induction count with
  | zero => exact .pure ()
  | succ count ih => exact .bind parallel_spawnOne fun _ => ih

private theorem parallel_runTicks (ticks : Nat) (totals : RunTotals K) :
    Parallel Twin (runTicks (β := β) ticks totals) (runTicks ticks totals) := by
  induction ticks generalizing totals with
  | zero => exact .pure totals
  | succ ticks ih =>
    refine .get_bind fun e own twin => .bind ?_ fun report => .get_bind fun middle other later => ?_
    · obtain ⟨rfl, -, -, -⟩ := twin
      exact parallel_tick _
    · rw [later.worldPositions_eq]
      exact ih _

private theorem parallel_run : Parallel Twin (run (α := K) (β := β)) run := by
  refine .get_bind fun e own twin => ?_
  obtain ⟨rfl, -, -, -⟩ := twin
  refine .bind (parallel_spawn _) fun _ => .bind (parallel_runTicks _ _) fun totals =>
    .get_bind fun last other later => ?_
  obtain ⟨rfl, -, -, -⟩ := later
  exact .pure _

omit [Layout K β] in
theorem Twin.reload {e own : Emitter K β} (twin : Twin e own) : Twin e.reload own.reload := by
  obtain ⟨rfl, apart, bound, born⟩ := twin
  have still : e.reload.Bound := by rwa [reload_of_bound bound]
  exact ⟨rfl, apart, still, born⟩

theorem parallel_perform (call : Call K) : Parallel Twin (call.perform (β := β)) call.perform := by
  cases call with
  | spawn count => exact .bind (parallel_spawn _) fun _ => .pure _
  | tick dt => exact .bind (parallel_tick dt) fun _ => .pure _
  | run => exact .bind parallel_run fun _ => .pure _
  | reload => exact fun e own twin => Together.ok Answer.done twin.reload

end Emitter

section Outcomes

variable {α β : Type} [Scalar α] [Layout α β]

/-- What each call comes to when they are performed one after the
other, each on what the one before it left. -/
def Call.outcomes :
    List (Call α) → Emitter α β → List (EStateM.Result EmitterFault (Emitter α β) (Answer α))
  | [], _ => []
  | call :: rest, e => call.perform e :: outcomes rest (leaves (call.perform e))

end Outcomes

namespace Emitter

variable {K β : Type} [Field K] [LinearOrder K] [FloorRing K] [Elementary K] [Layout K β]

theorem Twin.outcomes {e own : Emitter K β} (twin : Twin e own) (calls : List (Call K)) :
    List.Forall₂ (Together SameView) (Call.outcomes calls e) (Call.outcomes calls own) := by
  induction calls generalizing e own with
  | nil => exact .nil
  | cons call rest ih =>
    have together := parallel_perform call e own twin
    exact .cons (together.imp fun _ _ left => left.sameView) (ih together.left)

/-- Whether particles live in their space of birth or in the emitter's makes no difference once the
planes are given as they are seen from the emitter. Whatever is asked of both, after every call they
have given the same answer, or failed with the same fault, and have the same particles with the same
records, at the same places in the world, and the same random stream. -/
theorem local_space_agrees {config : Config K} (apart : config.localSpace = false)
    (calls : List (Call K)) :
    List.Forall₂ (Together SameView) (Call.outcomes calls (ofConfig config : Emitter K β))
      (Call.outcomes calls (ofConfig config.toLocal)) :=
  (twin_ofConfig apart).outcomes calls

/-- Particles bounce off the ground one below the emitter, which
is one above the origin of the world. -/
theorem local_space_agrees_bouncing :
    let ground : Collision ℚ :=
      { Collision.default with plane₁ := ⟨.unitZ, ⟨0, 0, 1⟩⟩, radius := .custom (1 / 4) }
    let config : Config ℚ :=
      { Config.default with
        localSpace := false
        ticks := 2
        tickTime := 1 / 2
        particleCount := 2
        modules := .ofModules [.directed ⟨.constant 2, .constant ⟨0, 0, -1⟩⟩] [.collision ground] }
    let calls : List (Call ℚ) := [.spawn 1, .tick (1 / 4), .reload, .run]
    let contacts : EStateM.Result EmitterFault (Emitter ℚ (ℚ ⊕ UInt32)) (Answer ℚ) → Option Nat
      | .ok answer _ => some answer.collisions
      | .error _ _ => none
    config.localSpace = false ∧ config.toLocal.modules.update ≠ config.modules.update ∧
      (Call.outcomes calls (ofConfig config)).map contacts = [some 0, some 0, some 0, some 3] ∧
      List.Forall₂ (Together SameView)
        (Call.outcomes calls (ofConfig config : Emitter ℚ (ℚ ⊕ UInt32)))
        (Call.outcomes calls (ofConfig config.toLocal)) := by
  intro ground config calls contacts
  exact ⟨rfl, by decide +kernel, by decide +kernel, local_space_agrees rfl calls⟩

end Emitter

end ParticleSystem
