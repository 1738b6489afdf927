import ParticleSystem.Proofs.Emitter.Conservation
import ParticleSystem.Proofs.Emitter.Particles

namespace ParticleSystem

namespace Emitter

variable {α β : Type} [Scalar α] [Layout α β]

section Updates

omit [Scalar α] in
private theorem recordHit_succeeds (slot : Nat) (time : α) (ledger : Ledger β)
    (room : ∀ stats : ParticleStats α, recordAt ledger.pool slot = some stats →
      stats.bounces.toNat + 1 < UInt32.size) : ∃ left, recordHit slot time ledger =
        .ok () left := by
  unfold recordHit
  cases found : (recordAt ledger.pool slot : Option (ParticleStats α)) with
  | none => exact ⟨_, rfl⟩
  | some stats => exact ⟨_, if_pos (room stats found)⟩

variable (config : Config α) (context : UpdateContext α) (time : α)

private theorem advance_succeeds (live : LiveParticle α) (ledger : Ledger β)
    (room : ∀ stats : ParticleStats α, recordAt ledger.pool live.slot = some stats →
      stats.bounces.toNat + 1 < UInt32.size) :
    ∃ next left, advance config.boundModules context time live ledger = .ok next left := by
  unfold advance
  simp only [Stack.updateParticle_boundModules]
  generalize config.boundModules.runUpdate context live.particle ledger.random = ran
  split
  · obtain ⟨left, hit⟩ := recordHit_succeeds live.slot
      (time + context.tickTime - ran.1.timeAfterContact)
      ⟨ran.2, ledger.pool, ledger.collisions + 1⟩ room
    rw [hit]
    exact ⟨_, _, rfl⟩
  · exact ⟨_, _, rfl⟩

variable [LawfulLayout α β]

private theorem mapM_advance_succeeds {lives : List (LiveParticle α)} {ledger : Ledger β}
    (side : SidePool ledger.pool)
    (different : (lives.map (·.slot)).Nodup)
    (room : ∀ slot ∈ lives.map (·.slot), ∀ stats : ParticleStats α,
      recordAt ledger.pool slot = some stats →
      stats.bounces.toNat + 1 < UInt32.size) :
    ∃ nexts left, lives.mapM (advance config.boundModules context time) ledger =
      .ok nexts left := by
  induction lives generalizing ledger with
  | nil => exact ⟨[], ledger, rfl⟩
  | cons live rest ih =>
    rw [List.map_cons, List.nodup_cons] at different
    rw [List.map_cons, List.forall_mem_cons] at room
    obtain ⟨fresh, different⟩ := different
    obtain ⟨next, middle, first⟩ := advance_succeeds config context time live ledger room.1
    obtain ⟨-, recorded, -⟩ := advance_ok side first
    have left (slot : Nat) (member : slot ∈ rest.map (·.slot)) (stats : ParticleStats α)
        (found : recordAt middle.pool slot = some stats) : stats.bounces.toNat + 1 <
          UInt32.size := by
      have other : slot ≠ live.slot := fun same => fresh (same ▸ member)
      rw [recorded.others slot other] at found
      exact room.2 slot member stats found
    obtain ⟨nexts, last, later⟩ := ih recorded.places.side different left
    refine ⟨next :: nexts, last, ?_⟩
    rw [List.mapM_cons, bind_of_ok first]
    exact bind_of_ok later

end Updates

omit [Scalar α] [Layout α β] in
private theorem SidePool.free_succeeds {p : Pool β} (side : SidePool p) {slot : Nat}
    (inside : slot < (sideSet p).slots) (used : slot ∉ (sideSet p).free) :
    ∃ after, Pool.free ParticleStats.size slot p = .ok () after := by
  cases found : p.find? ParticleStats.size with
  | none =>
    rw [sideSet_of_missing found, RecordSet.slots_empty] at inside
    cases inside
  | some set =>
    rw [sideSet_of_find? found] at inside used
    have checked := (side.valid _ _ found).checkRelease_eq_ok inside used
    refine ⟨p.modify ParticleStats.size (·.release slot), ?_⟩
    simp [Pool.free, Pool.ask, found, checked, bind, EStateM.bind]

omit [Scalar α] in
private theorem releaseAll_succeeds {lives : List (LiveParticle α)} {p : Pool β} (side : SidePool p)
    (different : (lives.map (·.slot)).Nodup)
    (held : ∀ slot ∈ lives.map (·.slot), slot < (sideSet p).slots ∧ slot ∉ (sideSet p).free) :
    ∃ after, releaseAll lives p = .ok () after := by
  induction lives generalizing p with
  | nil => exact ⟨p, rfl⟩
  | cons live rest ih =>
    rw [List.map_cons, List.nodup_cons] at different
    rw [List.map_cons, List.forall_mem_cons] at held
    obtain ⟨fresh, different⟩ := different
    obtain ⟨⟨inside, used⟩, held⟩ := held
    obtain ⟨middle, first⟩ := side.free_succeeds inside used
    obtain ⟨-, -, kept, slots, free, -⟩ := side.free (α := α) first
    have left (slot : Nat) (member : slot ∈ rest.map (·.slot)) :
        slot < (sideSet middle).slots ∧ slot ∉ (sideSet middle).free := by
      obtain ⟨within, own⟩ := held slot member
      rw [slots, free, List.mem_cons, not_or]
      exact ⟨within, fun same => fresh (same ▸ member), own⟩
    obtain ⟨after, later⟩ := ih kept different left
    exact ⟨after, (bind_of_ok first).trans later⟩

/-- An emitter that can go on: it has no more slots than it ever spawned particles, and no record of
a live particle counts more contacts than a limit. -/
structure Ready (limit : Nat) (e : Emitter α β) : Prop where
  consistent : e.Consistent
  bound : e.Bound
  slots_le : (sideSet e.pool).slots ≤ e.spawned.toNat
  bounces_le : ∀ slot ∈ e.places, ∀ stats : ParticleStats α, recordAt e.pool slot = some stats →
    stats.bounces.toNat ≤ limit

variable {e after : Emitter α β} {limit : Nat}

theorem ready_ofConfig (config : Config α) : (ofConfig config : Emitter α β).Ready 0 where
  consistent := consistent_ofConfig config
  bound := bound_ofConfig config
  slots_le := by
    rw [ofConfig, sideSet_of_missing (Pool.find?_empty _), RecordSet.slots_empty]
    exact Nat.zero_le _
  bounces_le := by
    intro slot member
    cases member

omit [Scalar α] in
theorem Consistent.size_le_slots (consistent : e.Consistent) :
    e.particles.size ≤ (sideSet e.pool).slots := by
  have count := consistent.count_eq
  omega

omit [Scalar α] in
theorem Ready.size_le (ready : e.Ready limit) : e.particles.size ≤ e.spawned.toNat :=
  ready.consistent.size_le_slots.trans ready.slots_le

variable [LawfulLayout α β]

theorem Ready.spawn (ready : e.Ready limit) (done : spawnOne e = .ok () after) :
    after.Ready limit := by
  have consistent := ready.consistent
  have effect := spawnOne_ok consistent.side done
  obtain ⟨config, modules, -⟩ := spawnOne_particle ready.bound done
  refine ⟨consistent.spawn effect, ready.bound.of_kept config modules, ?_, ?_⟩
  · have fewer := ready.slots_le
    have grown := effect.slots_eq
    have spawned := effect.spawned_eq
    rw [consistent.side.set_valid.slots_claim_of_used consistent.count_eq] at grown
    have few := consistent.size_le_slots
    omega
  · intro slot member stats found
    rw [effect.places_eq, List.mem_append, List.mem_singleton] at member
    rcases member with old | new
    · rw [consistent.record_spawn effect old] at found
      exact ready.bounces_le slot old stats found
    · rw [new, effect.records_eq, Function.update_self] at found
      cases found
      exact Nat.zero_le _

section Ticks

variable {dt : α} {report : TickReport}

/-- A tick adds at most one contact to each record, whatever the number of planes. -/
theorem Ready.tick (ready : e.Ready limit) (done : tick dt e = .ok report after) :
    after.Ready (limit + 1) := by
  have consistent := ready.consistent
  obtain ⟨config, modules, -⟩ := tick_particles ready.bound done
  obtain ⟨lives, ledger, effect⟩ := tick_effect consistent.side consistent.places_nodup done
  refine ⟨consistent.tick effect, ready.bound.of_kept config modules, ?_, ?_⟩
  · rw [effect.slots_eq, effect.spawned_eq]
    exact ready.slots_le
  · intro slot member stats found
    rw [places, effect.particles_eq] at member
    obtain ⟨live, kept, rfl⟩ := List.mem_map.mp member
    have present := List.mem_of_mem_filter kept
    have here : live.slot ∈ e.places := effect.places_eq ▸ List.mem_map_of_mem present
    obtain ⟨old, before⟩ := consistent.record_present here
    obtain ⟨new, now, tally⟩ := effect.tallied live present old before
    rw [effect.records_eq, now] at found
    cases found
    have few := ready.bounces_le _ here old before
    have more := Bool.toNat_le live.particle.collided
    rw [tally.bounces_eq]
    omega

private theorem Consistent.report_le (consistent : e.Consistent)
    (done : Emitter.tick dt e = .ok report after) :
    report.collisions ≤ e.particles.size ∧ report.expired ≤ e.particles.size := by
  obtain ⟨lives, ledger, effect⟩ := tick_effect consistent.side consistent.places_nodup done
  have length : lives.length = e.particles.size := by
    rw [← length_places, ← effect.places_eq, List.length_map]
  rw [effect.collisions_eq, effect.expired_eq, ← length]
  exact ⟨List.countP_le_length, List.length_filter_le ..⟩

theorem Ready.tick_succeeds (ready : e.Ready limit) (room : limit + 1 < UInt32.size) (dt : α) :
    ∃ report after, Emitter.tick dt e = .ok report after := by
  have consistent := ready.consistent
  have side := consistent.side
  obtain ⟨lives, ledger, all⟩ : ∃ lives ledger, e.updateAll dt = .ok lives ledger := by
    unfold updateAll
    rw [ready.bound]
    refine mapM_advance_succeeds _ _ _ side consistent.places_nodup ?_
    intro slot member stats found
    have few := ready.bounces_le slot member stats found
    omega
  obtain ⟨same, kept, -⟩ := mapM_advance_ok side consistent.places_nodup all
  -- The updates leave the slots as they were, so those of the expired particles are still in use.
  have fewer : ((lives.filter (·.particle.expired)).map (·.slot)).Sublist e.places := by
    rw [places, ← same]
    exact List.filter_sublist.map _
  obtain ⟨pool, released⟩ : ∃ pool, releaseAll (lives.filter (·.particle.expired)) ledger.pool =
    .ok () pool := by
    refine releaseAll_succeeds (α := α) kept.side (consistent.places_nodup.sublist fewer) ?_
    intro slot member
    rw [kept.slots_eq, kept.free_eq]
    exact ⟨consistent.places_lt slot (fewer.subset member),
      consistent.places_used slot (fewer.subset member)⟩
  exact ⟨_, _, tick_iff.mpr ⟨lives, ledger, pool, all, released, rfl, rfl⟩⟩

end Ticks

/-- Ticks succeed as long as none of them can fill a record; no tick
reports more than there are particles. -/
theorem Ready.ticks (ready : e.Ready limit) (count : Nat) (room : limit + count < UInt32.size)
    (dt : α) :
    ∃ reports after, Action.performAll (.replicate count (.tick dt)) e = .ok reports after ∧
      after.Ready (limit + count) ∧ after.spawned = e.spawned ∧
      ∀ report ∈ reports, report.collisions ≤ e.spawned.toNat ∧
        report.expired ≤ e.spawned.toNat := by
  induction count generalizing e limit with
  | zero => exact ⟨[], e, rfl, ready, rfl, by simp⟩
  | succ count ih =>
    obtain ⟨report, middle, first⟩ := ready.tick_succeeds (by omega) dt
    obtain ⟨collisions, expired⟩ := ready.consistent.report_le first
    have spawned : middle.spawned = e.spawned := by
      obtain ⟨_, _, _, -, -, -, rfl⟩ := tick_iff.mp first
      rfl
    obtain ⟨reports, after, rest, last, same, bounds⟩ := ih (ready.tick first) (by omega)
    refine ⟨report :: reports, after, Action.performAll_cons (Action.perform_tick first) rest, ?_,
      same.trans spawned, ?_⟩
    · rwa [Nat.add_assoc, Nat.add_comm 1] at last
    · rw [spawned] at bounds
      exact List.forall_mem_cons.mpr
        ⟨⟨collisions.trans ready.size_le, expired.trans ready.size_le⟩, bounds⟩

omit [LawfulLayout α β] in
private theorem runTicks_of_performAll {ticks : Nat} {reports : List TickReport}
    (totals : RunTotals α)
    (performed : Action.performAll (.replicate ticks (.tick e.config.tickTime)) e =
      .ok reports after) :
    ∃ left, runTicks ticks totals e = .ok left after := by
  induction ticks generalizing e reports totals with
  | zero =>
    cases performed
    exact ⟨totals, rfl⟩
  | succ ticks ih =>
    obtain ⟨own, middle, others, begun, later, rfl⟩ := Action.performAll_cons_ok performed
    rw [← Action.perform_config begun] at later
    obtain ⟨report, rfl, first⟩ := Action.perform_tick_ok begun
    obtain ⟨left, rest⟩ :=
      ih ⟨totals.collisions + report.collisions, totals.expired + report.expired,
        (middle.worldPositions.map Vec3.z).foldl lower totals.lowest⟩ later
    refine ⟨left, ?_⟩
    simp [runTicks, bind, EStateM.bind, get, getThe, MonadStateOf.get, EStateM.get, first, rest]

omit [LawfulLayout α β] in
private theorem run_of_parts {burst : Emitter α β} {totals : RunTotals α}
    (spawned : spawn e.config.particleCount.toNat e = .ok () burst)
    (ticked : runTicks e.config.ticks.toNat ⟨0, 0, none⟩ burst = .ok totals after) :
    ∃ summary, run e = .ok summary after := by
  simp only [run, bind, EStateM.bind, get, getThe, MonadStateOf.get, EStateM.get, spawned, ticked]
  exact ⟨_, rfl⟩

omit [LawfulLayout α β] in
private theorem run_of_fault {fault : EmitterFault} {left : Emitter α β}
    (failed : spawn e.config.particleCount.toNat e = .error fault left) :
    run e = .error fault left := by
  simp only [run, bind, EStateM.bind, get, getThe, MonadStateOf.get, EStateM.get, failed]

/-- A spawn fails where a curve has no value for a new particle, or it succeeds. -/
private theorem Ready.spawnOne_cases (ready : e.Ready limit)
    (room : e.spawned.toNat + 1 < UInt32.size) :
    (∃ after, spawnOne e = .ok () after) ∨ ∃ fault left,
    spawnOne e = .error (.stack (.curve fault)) left ∧
      e.config.distributions.Faults e.clock e.config.seedling fault := by
  obtain ⟨pool, stored, -⟩ :=
    ready.consistent.side.store (⟨e.time, 0, 0, e.spawned⟩ : ParticleStats α)
  cases ran : e.modules.spawnParticle e.spawnContext ⟨e.seedling, e.random⟩ with
  | ok _ newborn =>
    exact .inl ⟨_, spawnOne_iff.mpr ⟨newborn, _, pool, ran, stored, room, rfl⟩⟩
  | error fault left =>
    have failed := ran
    rw [ready.bound] at failed
    obtain ⟨own, rfl, faults⟩ := Stack.spawnParticle_error failed
    refine .inr ⟨own, { e with random := left.stream }, ?_, faults⟩
    unfold spawnOne
    rw [ran]

private theorem Ready.spawn_cases (ready : e.Ready limit) (count : Nat)
    (room : e.spawned.toNat + count < UInt32.size) :
    (∃ after, Emitter.spawn count e = .ok () after ∧ after.Ready limit ∧
      after.spawned.toNat = e.spawned.toNat + count) ∨
    count ≠ 0 ∧ ∃ fault left, Emitter.spawn count e = .error (.stack (.curve fault)) left ∧
      e.config.distributions.Faults e.clock e.config.seedling fault := by
  induction count generalizing e with
  | zero => exact .inl ⟨e, rfl, ready, rfl⟩
  | succ count ih =>
    rcases ready.spawnOne_cases (by omega) with ⟨middle, first⟩ | ⟨fault, left, failed, faults⟩
    · have effect := spawnOne_ok ready.consistent.side first
      have spawned := effect.spawned_eq
      obtain ⟨config, -, time, -⟩ := spawnOne_particle ready.bound first
      rcases ih (ready.spawn first) (by omega) with ⟨after, rest, last, all⟩ |
        ⟨-, fault, left, failed, faults⟩
      · exact .inl ⟨after, (bind_of_ok first).trans rest, last, by omega⟩
      · rw [clock, config, time] at faults
        exact .inr ⟨Nat.succ_ne_zero count, fault, left, (bind_of_ok first).trans failed, faults⟩
    · exact .inr ⟨Nat.succ_ne_zero count, fault, left, bind_of_error failed, faults⟩

/-- A run of a new emitter fails in its burst, where a curve has no value at the start of the loop,
or it succeeds, and then no tick of it reports more than was spawned. -/
theorem run_cases (config : Config α) :
    (∃ summary after, run (ofConfig config : Emitter α β) = .ok summary after ∧
      after.Ready config.ticks.toNat ∧
      after.spawned = config.particleCount ∧ ∃ burst reports,
        Action.performAll (.replicate config.particleCount.toNat .spawn) (ofConfig config) =
          .ok [] burst ∧
        Action.performAll (.replicate config.ticks.toNat (.tick config.tickTime)) burst =
          .ok reports after ∧
        ∀ report ∈ reports,
          report.collisions ≤ config.particleCount.toNat ∧
          report.expired ≤ config.particleCount.toNat) ∨
    config.particleCount ≠ 0 ∧ ∃ fault left,
      run (ofConfig config : Emitter α β) = .error (.stack (.curve fault)) left ∧
        config.distributions.Faults ⟨0, config.duration⟩ config.seedling fault := by
  have ready := ready_ofConfig (β := β) config
  have empty : (ofConfig config : Emitter α β).spawned.toNat = 0 := rfl
  have few : 0 + config.particleCount.toNat < UInt32.size := by
    rw [Nat.zero_add]
    exact config.particleCount.toNat_lt
  rcases ready.spawn_cases config.particleCount.toNat few with
    ⟨burst, spawned, next, count⟩ | ⟨some, fault, left, failed, faults⟩
  · refine .inl ?_
    rw [empty, Nat.zero_add] at count
    have performed := Action.performAll_spawn spawned
    have own : burst.config = config := Action.performAll_config performed
    have room : 0 + config.ticks.toNat < UInt32.size := by
      rw [Nat.zero_add]
      exact config.ticks.toNat_lt
    obtain ⟨reports, after, ticked, last, same, bounds⟩ :=
      next.ticks config.ticks.toNat room config.tickTime
    rw [Nat.zero_add] at last
    rw [count] at bounds
    obtain ⟨totals, ran⟩ := runTicks_of_performAll ⟨0, 0, none⟩ (own.symm ▸ ticked)
    rw [own] at ran
    obtain ⟨summary, done⟩ := run_of_parts (e := ofConfig config) spawned ran
    exact ⟨summary, after, done, last, UInt32.toNat_inj.mp (same ▸ count), burst, reports,
      performed, ticked, bounds⟩
  · exact .inr ⟨fun none => some (congrArg UInt32.toNat none), fault, left,
      run_of_fault failed, faults⟩

end Emitter

end ParticleSystem
