import ParticleSystem.Proofs.Collision.Frame
import ParticleSystem.Proofs.Emitter.Entries

/-!
Runs of bursts of different sizes. Spawns draw from the random stream one after another, and where
all bounces are exact ticks do not draw from it at all; so the first particles of a large burst are
those of a small one, and whoever comes after them leaves them alone.
-/

namespace ParticleSystem

variable {α β : Type} [Scalar α]

namespace Entry

omit [Scalar α] in
/-- Whether the particle of an entry was among the first to be spawned, up to a number. -/
def early (count : Nat) (entry : Entry α) : Bool :=
  entry.2.any fun stats => decide (stats.serial.toNat < count)

variable {config : Config α} {time dt : α} {old new other : Entry α}

private theorem Advanced.early_eq (advanced : Advanced config time dt old new) (count : Nat) :
    new.early count = old.early count := by
  obtain ⟨stream, particle, -, rfl⟩ := advanced
  simp [early, Option.any_map, ParticleStats.serial_tally]

private theorem Advanced.unique (exact : config.modules.ExactBounces)
    (first : Advanced config time dt old new) (second : Advanced config time dt old other) :
    new = other := by
  obtain ⟨stream, particle, ran, rfl⟩ := first
  obtain ⟨another, same, rerun, rfl⟩ := second
  have drawless : Drawless
      (config.boundModules.runUpdate (config.updateContext time dt) old.1.particle) :=
    Stack.drawless_runUpdate exact ..
  rw [drawless.apply_eq another stream] at ran
  rw [ran, rerun]

end Entry

namespace Emitter

/-- The same emitter with bursts of another size. -/
def recount (count : UInt32) (e : Emitter α β) : Emitter α β :=
  { e with config := { e.config with particleCount := count } }

variable [Layout α β] {e after : Emitter α β} {reports : List TickReport}

private theorem spawnOne_recount (count : UInt32) (done : spawnOne e = .ok () after) :
    spawnOne (e.recount count) = .ok () (after.recount count) := by
  rw [spawnOne_iff] at done ⊢
  obtain ⟨newborn, slot, pool, ran, stored, room, rfl⟩ := done
  exact ⟨newborn, slot, pool, ran, stored, room, rfl⟩

theorem performAll_recount (count : UInt32) {size : Nat}
    (done : Action.performAll (.replicate size .spawn) e = .ok reports after) :
    Action.performAll (.replicate size .spawn) (e.recount count) =
      .ok reports (after.recount count) := by
  induction size generalizing e reports with
  | zero =>
    cases done
    rfl
  | succ size ih =>
    obtain ⟨own, middle, others, first, later, rfl⟩ := Action.performAll_cons_ok done
    obtain ⟨spawned, rfl⟩ := Action.perform_spawn_ok first
    exact Action.performAll_cons (Action.perform_spawn (spawnOne_recount count spawned)) (ih later)

/-- An emitter next to one that has nothing but the first of its particles. -/
structure Joined (count : Nat) (few many : Emitter α β) : Prop where
  fewConsistent : few.Consistent
  manyConsistent : many.Consistent
  fewBound : few.Bound
  manyBound : many.Bound
  config_eq : few.config = { many.config with particleCount := few.config.particleCount }
  time_eq : few.time = many.time
  count_le : count ≤ many.spawned.toNat
  entries_eq : few.entries = many.entries.filter (·.early count)

variable [LawfulLayout α β] {few many : Emitter α β} {count : Nat}

omit [Scalar α] [LawfulLayout α β] in
private theorem Consistent.filter_early (consistent : e.Consistent)
    (all : e.spawned.toNat ≤ count) : e.entries.filter (·.early count) = e.entries := by
  refine List.filter_eq_self.mpr fun entry member => ?_
  obtain ⟨live, there, rfl⟩ := List.mem_map.mp member
  have place : live.slot ∈ e.places := List.mem_map_of_mem there
  obtain ⟨stats, found⟩ := consistent.record_present place
  have below := consistent.serials_lt live.slot place
  rw [serialAt, found] at below
  simp only [Entry.early, found, Option.any_some, decide_eq_true_eq]
  exact below.trans_le all

omit [Scalar α] [LawfulLayout α β] in
/-- At first they have the same particles, however many are to come. -/
theorem joined_recount (consistent : e.Consistent) (bound : e.Bound) (all : e.spawned.toNat = count)
    (size : UInt32) : Joined count e (e.recount size) where
  fewConsistent := consistent
  manyConsistent := ⟨consistent.side, consistent.places_nodup, consistent.places_lt,
    consistent.places_used, consistent.count_eq, consistent.serials_increasing,
    consistent.serials_lt⟩
  fewBound := bound
  manyBound := bound
  config_eq := rfl
  time_eq := rfl
  count_le := all.ge
  entries_eq := (consistent.filter_early all.le).symm

/-- Another particle of the larger burst changes nothing for the first ones. -/
theorem Joined.spawnOne (joined : Joined count few many) (done : spawnOne many = .ok () after) :
    Joined count few after := by
  have effect := spawnOne_ok joined.manyConsistent.side done
  obtain ⟨config, modules, time, -⟩ := spawnOne_particle joined.manyBound done
  obtain ⟨particle, slot, -, entries⟩ :=
    entries_spawnOne joined.manyConsistent joined.manyBound done
  have grown := effect.spawned_eq
  have enough := joined.count_le
  refine ⟨joined.fewConsistent, joined.manyConsistent.spawn effect, joined.fewBound,
    joined.manyBound.of_kept config modules, config ▸ joined.config_eq,
    joined.time_eq.trans time.symm, by omega, ?_⟩
  have late : Entry.early count (⟨particle, slot⟩, some ⟨many.time, 0, 0, many.spawned⟩) =
      false := by
    simpa [Entry.early] using enough
  rw [entries, List.filter_append, List.filter_singleton, late, joined.entries_eq]
  exact (List.append_nil _).symm

theorem Joined.burst (joined : Joined count few many) {size : Nat}
    (done : Action.performAll (.replicate size .spawn) many = .ok reports after) :
    Joined count few after := by
  induction size generalizing many reports with
  | zero =>
    cases done
    exact joined
  | succ size ih =>
    obtain ⟨own, middle, others, first, later, rfl⟩ := Action.performAll_cons_ok done
    obtain ⟨spawned, -⟩ := Action.perform_spawn_ok first
    exact ih (joined.spawnOne spawned) later

/-- A tick does the same to the first particles whether there are others or not. -/
theorem Joined.tick {dt : α} {fewAfter manyAfter : Emitter α β} {report other : TickReport}
    (joined : Joined count few many) (exact : many.config.modules.ExactBounces)
    (first : tick dt few = .ok report fewAfter)
    (second : Emitter.tick dt many = .ok other manyAfter) : Joined count fewAfter manyAfter := by
  obtain ⟨lives, ledger, effect⟩ :=
    tick_effect joined.fewConsistent.side joined.fewConsistent.places_nodup first
  obtain ⟨others, shared, outcome⟩ :=
    tick_effect joined.manyConsistent.side joined.manyConsistent.places_nodup second
  obtain ⟨config, modules, now, -⟩ := tick_particles joined.fewBound first
  obtain ⟨settings, stack, later, -⟩ := tick_particles joined.manyBound second
  obtain ⟨moved, advanced, kept⟩ := entries_tick joined.fewConsistent joined.fewBound first
  obtain ⟨all, step, left⟩ := entries_tick joined.manyConsistent joined.manyBound second
  have relation : Entry.Advanced few.config few.time dt =
      Entry.Advanced many.config many.time dt := by
    rw [joined.config_eq, joined.time_eq]
    rfl
  have functional : Relator.RightUnique (Entry.Advanced many.config many.time dt) :=
    fun old new other => Entry.Advanced.unique exact
  have same : moved = all.filter (·.early count) := by
    rw [relation, joined.entries_eq] at advanced
    refine List.right_unique_forall₂' functional advanced ?_
    exact List.rel_filter (fun old new moves => by simp only [moves.early_eq]) step
  refine ⟨joined.fewConsistent.tick effect, joined.manyConsistent.tick outcome,
    joined.fewBound.of_kept config modules, joined.manyBound.of_kept settings stack, ?_, ?_, ?_, ?_⟩
  · rw [config, settings]
    exact joined.config_eq
  · rw [now, later, joined.time_eq]
  · rw [outcome.spawned_eq]
    exact joined.count_le
  · rw [kept, left, same, List.filter_comm]

/-- What a run of a configuration comes to after its burst and a number of ticks. -/
def stage (config : Config α) (ticks : Nat) :
    EStateM.Result EmitterFault (Emitter α β) (List TickReport) :=
  Action.performAll (.replicate config.particleCount.toNat .spawn ++
    .replicate ticks (.tick config.tickTime))
    (ofConfig config)

variable {config : Config α} {ticks : Nat}

omit [LawfulLayout α β] in
theorem stage_of_run {summary : RunSummary α} (ran : run (ofConfig config) = .ok summary e) :
    ∃ reports, stage config config.ticks.toNat = .ok reports e := by
  obtain ⟨middle, reports, burst, ticked, -⟩ := run_ok ran
  exact ⟨_, Action.performAll_append burst ticked⟩

omit [LawfulLayout α β] in
theorem stage_succ_ok (reached : stage config (ticks + 1) = .ok reports after) :
    ∃ earlier middle report, stage config ticks = .ok earlier middle ∧
      tick config.tickTime middle = .ok report after := by
  rw [stage, List.replicate_succ', ← List.append_assoc] at reached
  obtain ⟨earlier, middle, last, before, ticked⟩ := Action.performAll_append_ok reached
  obtain ⟨own, next, others, first, nothing, -⟩ := Action.performAll_cons_ok ticked
  cases nothing
  obtain ⟨report, -, done⟩ := Action.perform_tick_ok first
  exact ⟨earlier, middle, report, before, done⟩

omit [LawfulLayout α β] in
/-- A run comes through all its earlier stages. -/
theorem stage_of_le (reached : stage config ticks = .ok reports after) {before : Nat}
    (earlier : before ≤ ticks) :
    ∃ first middle, stage config before = .ok first (middle : Emitter α β) := by
  rw [stage, ← Nat.add_sub_of_le earlier, ← List.replicate_append_replicate,
    ← List.append_assoc] at reached
  obtain ⟨first, middle, -, begun, -⟩ := Action.performAll_append_ok reached
  exact ⟨first, middle, begun⟩

private theorem burst_kept (consistent : e.Consistent) (bound : e.Bound) {size : Nat}
    (done : Action.performAll (.replicate size .spawn) e = .ok reports after) :
    after.Consistent ∧ after.Bound ∧ after.spawned.toNat = e.spawned.toNat + size := by
  induction size generalizing e reports with
  | zero =>
    cases done
    exact ⟨consistent, bound, rfl⟩
  | succ size ih =>
    obtain ⟨own, middle, others, first, later, rfl⟩ := Action.performAll_cons_ok done
    obtain ⟨spawned, -⟩ := Action.perform_spawn_ok first
    have effect := spawnOne_ok consistent.side spawned
    have grown := effect.spawned_eq
    obtain ⟨kept, still, count⟩ := ih (consistent.spawn effect) (perform_bound bound first) later
    exact ⟨kept, still, by omega⟩

section Runs

variable {few many : Config α} {small large : Emitter α β} {more : List TickReport}

/-- A large burst begins with the particles of a small one. -/
theorem joined_burst (same : many = { few with particleCount := many.particleCount })
    (fewer : few.particleCount ≤ many.particleCount) (first : stage few 0 = .ok reports small)
    (second : stage many 0 = .ok more large) : Joined few.particleCount.toNat small large := by
  rw [stage, List.replicate_zero, List.append_nil] at first second
  have parts : few.particleCount.toNat + (many.particleCount.toNat - few.particleCount.toNat) =
      many.particleCount.toNat := Nat.add_sub_of_le fewer
  rw [← parts, ← List.replicate_append_replicate] at second
  obtain ⟨own, middle, others, begun, rest⟩ := Action.performAll_append_ok second
  have shared := performAll_recount many.particleCount first
  have start : (ofConfig few : Emitter α β).recount many.particleCount = ofConfig many := by
    rw [same]
    rfl
  rw [start, begun] at shared
  cases shared
  obtain ⟨consistent, bound, spawned⟩ :=
    burst_kept (consistent_ofConfig few) (bound_ofConfig few) first
  have counted : small.spawned.toNat = few.particleCount.toNat := spawned.trans (Nat.zero_add _)
  exact (joined_recount consistent bound counted many.particleCount).burst rest

theorem joined_stage (same : many = { few with particleCount := many.particleCount })
    (fewer : few.particleCount ≤ many.particleCount) (exact : few.modules.ExactBounces)
    (first : stage few ticks = .ok reports small) (second : stage many ticks = .ok more large) :
    Joined few.particleCount.toNat small large := by
  induction ticks generalizing reports more small large with
  | zero => exact joined_burst same fewer first second
  | succ ticks ih =>
    obtain ⟨_, middle, report, before, ticked⟩ := stage_succ_ok first
    obtain ⟨_, between, other, begun, moved⟩ := stage_succ_ok second
    have joined := ih before begun
    have config : between.config = many := Action.performAll_config begun
    have interval : many.tickTime = few.tickTime := by rw [same]
    have stack : many.modules = few.modules := by rw [same]
    rw [interval] at moved
    exact joined.tick (by rw [config, stack]; exact exact) ticked moved

/-- The first particles of a burst do not notice how many come after them. As long as all bounces
are exact, a run with a larger burst has, after the burst and after every tick, the particles of the
run with the smaller one, in their order and their slots and with their records, and besides them
only such as were spawned later. -/
theorem more_particles_disturb_none {summary other : RunSummary α}
    (same : many = { few with particleCount := many.particleCount })
    (fewer : few.particleCount ≤ many.particleCount) (exact : few.modules.ExactBounces)
    (first : run (ofConfig few) = .ok summary small)
    (second : run (ofConfig many) = .ok other large) :
    (∀ ticks ≤ few.ticks.toNat, ∃ reports more, ∃ sooner later : Emitter α β,
      stage few ticks = .ok reports sooner ∧ stage many ticks = .ok more later ∧
        sooner.entries = later.entries.filter (·.early few.particleCount.toNat)) ∧
      small.entries = large.entries.filter (·.early few.particleCount.toNat) := by
  obtain ⟨reports, reached⟩ := stage_of_run first
  obtain ⟨more, arrived⟩ := stage_of_run second
  have loop : many.ticks = few.ticks := by rw [same]
  rw [loop] at arrived
  refine ⟨fun ticks within => ?_, (joined_stage same fewer exact reached arrived).entries_eq⟩
  obtain ⟨own, sooner, before⟩ := stage_of_le reached within
  obtain ⟨others, later, begun⟩ := stage_of_le arrived within
  exact ⟨own, others, sooner, later, before, begun,
    (joined_stage same fewer exact before begun).entries_eq⟩

end Runs

/-- Two more particles of random speeds fall beside one that bounces. -/
theorem more_particles_disturb_none_bouncing :
    let few : Config Float32 :=
      { Config.default with
        tickTime := 0.5
        ticks := 2
        particleCount := 1
        modules := .ofModules [.directed ⟨.distributed 3 ⟨.random, 0⟩, .constant ⟨0, 0, -1⟩⟩]
          [.collision { Collision.default with
            plane₁ := ⟨.unitZ, ⟨0, 0, -1⟩⟩, radius := .custom 0.25 }] }
    let many := { few with particleCount := 3 }
    few.particleCount ≤ many.particleCount ∧ few.modules.ExactBounces ∧
      ∃ summary other, ∃ small large : Emitter Float32 UInt8,
        run (ofConfig few) = .ok summary small ∧ run (ofConfig many) = .ok other large ∧
          (summary.alive, summary.collisions, other.alive) = (1, 1, 3) ∧
          small.entries = large.entries.filter (·.early 1) := by
  intro few many
  have exact : few.modules.ExactBounces := by
    intro m member
    cases List.mem_singleton.mp member
    decide +kernel
  have outcome : (match run (ofConfig few : Emitter Float32 UInt8),
    run (ofConfig many : Emitter Float32 UInt8) with
    | .ok summary _, .ok other _ => (summary.alive, summary.collisions, other.alive)
    | _, _ => (0, 0, 0)) = (1, 1, 3) := by decide +kernel
  cases first : run (ofConfig few : Emitter Float32 UInt8) with
  | error fault left =>
    rw [first] at outcome
    cases outcome
  | ok summary small =>
    cases second : run (ofConfig many : Emitter Float32 UInt8) with
    | error fault left =>
      rw [first, second] at outcome
      cases outcome
    | ok other large =>
      rw [first, second] at outcome
      have fewer : few.particleCount ≤ many.particleCount := by decide
      exact ⟨fewer, exact, summary, other, small, large, rfl, rfl, outcome,
        (more_particles_disturb_none rfl fewer exact first second).2⟩

end Emitter

end ParticleSystem
