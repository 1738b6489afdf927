import ParticleSystem.Proofs.Emitter.Bookkeeping
import ParticleSystem.Proofs.Emitter.Particles

/-!
The live particles together with their records. A spawn puts one more entry behind the
others; a tick takes every entry a step on by itself and then drops those whose particles
have expired, so that entries never mix.
-/

namespace ParticleSystem

variable {α β : Type} [Scalar α]

/-- A live particle and the record in its slot. -/
abbrev Entry (α : Type) := LiveParticle α × Option (ParticleStats α)

/-- The record after a tick that left a particle as given, by the emitter's time before the tick. -/
def ParticleStats.tally (time dt : α) (particle : Particle α) (stats : ParticleStats α) :
    ParticleStats α :=
  if particle.collided then stats.hit (time + dt - particle.timeAfterContact) else stats

theorem ParticleStats.serial_tally (time dt : α) (particle : Particle α) (stats : ParticleStats α) :
    (stats.tally time dt particle).serial = stats.serial := by
  unfold tally
  split <;> rfl

/-- An entry before and after a tick: its particle goes through the modules and then along its
velocity, its slot stays its own, and its record notes a contact. -/
def Entry.Advanced (config : Config α) (time dt : α) (old new : Entry α) : Prop :=
  ∃ stream, ∃ particle,
    particle = (config.boundModules.runUpdate
      (config.updateContext time dt) old.1.particle stream).1 ∧
    new = (⟨particle.integrate dt, old.1.slot⟩, old.2.map (·.tally time dt particle))

namespace Emitter

/-- Live particles with the records in a pool. -/
def entriesIn [Layout α β] (pool : Pool β) (lives : List (LiveParticle α)) : List (Entry α) :=
  lives.map fun live => (live, recordAt pool live.slot)

/-- The entries of an emitter, in the order of its particles. -/
def entries [Layout α β] (e : Emitter α β) : List (Entry α) := entriesIn e.pool e.particles.toList

variable [Layout α β] {e after : Emitter α β}

omit [Scalar α] in
theorem length_entries (e : Emitter α β) : e.entries.length = e.particles.size := by
  rw [entries, entriesIn, List.length_map, Array.length_toList]

omit [Scalar α] in
theorem entries_getElem? (e : Emitter α β) (i : Nat) :
    e.entries[i]? = e.particles[i]?.map fun live => (live, e.stats? i) := by
  rw [entries, entriesIn, List.getElem?_map, Array.getElem?_toList, stats?]
  cases e.particles[i]? <;> rfl

omit [Scalar α] in
theorem entriesIn_congr {before after : Pool β} {lives : List (LiveParticle α)}
    (same : ∀ live ∈ lives, (recordAt after live.slot : Option (ParticleStats α)) =
      recordAt before live.slot) :
    entriesIn after lives = entriesIn before lives :=
  List.map_congr_left fun live member => by rw [same live member]

variable [LawfulLayout α β]

/-- A spawn puts an entry with a blank record behind the others. -/
theorem entries_spawnOne (consistent : e.Consistent) (bound : e.Bound)
    (done : spawnOne e = .ok () after) :
    ∃ particle slot, e.config.seedling.SameBody particle ∧
      after.entries = e.entries ++ [(⟨particle, slot⟩, some ⟨e.time, 0, 0, e.spawned⟩)] := by
  have effect := spawnOne_ok consistent.side done
  obtain ⟨-, -, -, particle, slot, body, pushed⟩ := spawnOne_particle bound done
  obtain ⟨other, same⟩ := effect.particles_eq
  have one : (⟨particle, slot⟩ : LiveParticle α) = ⟨other, (sideSet e.pool).next⟩ :=
    (Array.push_eq_push.mp (pushed.symm.trans same)).1
  cases one
  refine ⟨particle, (sideSet e.pool).next, body, ?_⟩
  have kept : entriesIn after.pool e.particles.toList = e.entries :=
    entriesIn_congr fun live member => consistent.record_spawn effect (List.mem_map_of_mem member)
  rw [entries, pushed, Array.toList_push, entriesIn, List.map_append, ← entriesIn, kept,
    List.map_singleton, effect.records_eq, Function.update_self]

section Updates

variable {config : Config α} {time dt : α} {ledger left : Ledger β}

private theorem advance_entry {live next : LiveParticle α} (side : SidePool ledger.pool)
    (done : advance config.boundModules (config.updateContext time dt) time live ledger =
      .ok next left) :
    Entry.Advanced config time dt (live, recordAt ledger.pool live.slot) (next,
      recordAt left.pool live.slot) := by
  obtain ⟨place, -⟩ := advance_ok side done
  unfold advance at done
  simp only [Stack.updateParticle_boundModules] at done
  generalize ran : config.boundModules.runUpdate (config.updateContext time dt) live.particle
    ledger.random = moved
    at done
  obtain ⟨particle, random⟩ := moved
  refine ⟨ledger.random, particle, by rw [ran], ?_⟩
  by_cases contact : particle.collided = true
  · simp only [contact, if_true] at done
    split at done
    · rename_i hit
      cases done
      obtain ⟨-, -, -, records⟩ := recordHit_ok (by exact side) hit
      rw [records, Function.update_self]
      simp only [ParticleStats.tally, contact, if_true]
      rfl
    · cases done
  · rw [if_neg contact] at done
    cases done
    simp [ParticleStats.tally, contact]
    rfl

/-- All particles, in slots of their own: every entry takes its step by itself. -/
theorem mapM_advance_entries {lives nexts : List (LiveParticle α)} (side : SidePool ledger.pool)
    (different : (lives.map (·.slot)).Nodup)
    (done : lives.mapM (advance config.boundModules (config.updateContext time dt) time) ledger =
      .ok nexts left) :
    List.Forall₂ (Entry.Advanced config time dt) (entriesIn ledger.pool lives)
      (entriesIn left.pool nexts) := by
  induction lives generalizing ledger nexts with
  | nil =>
    cases done
    exact .nil
  | cons live rest ih =>
    rw [List.map_cons, List.nodup_cons] at different
    obtain ⟨fresh, different⟩ := different
    obtain ⟨next, middle, others, first, later, rfl⟩ := mapM_cons_eq_ok done
    obtain ⟨place, recorded, -⟩ := advance_ok side first
    obtain ⟨-, -, apart, -⟩ := mapM_advance_ok recorded.places.side different later
    have untouched : entriesIn middle.pool rest = entriesIn ledger.pool rest := by
      apply entriesIn_congr
      intro other member
      exact recorded.others _ fun same => fresh (same ▸ List.mem_map_of_mem member)
    have behind := ih recorded.places.side different later
    rw [untouched] at behind
    have own : (recordAt left.pool next.slot : Option (ParticleStats α)) =
        recordAt middle.pool live.slot := by
      rw [place, apart live.slot fresh]
    have here := advance_entry side first
    rw [← own] at here
    exact .cons here behind

end Updates

/-- A tick takes every entry a step on by itself, then drops those of expired particles. -/
theorem entries_tick {dt : α} {report : TickReport} (consistent : e.Consistent) (bound : e.Bound)
    (done : tick dt e = .ok report after) :
    ∃ moved, List.Forall₂ (Entry.Advanced e.config e.time dt) e.entries moved ∧
      after.entries = moved.filter (!·.1.particle.expired) := by
  obtain ⟨lives, ledger, effect⟩ := tick_effect consistent.side consistent.places_nodup done
  have all := effect.updateAll_eq
  unfold updateAll at all
  rw [bound] at all
  refine ⟨entriesIn ledger.pool lives,
    mapM_advance_entries consistent.side consistent.places_nodup all, ?_⟩
  rw [entries, effect.particles_eq, entriesIn, effect.records_eq, ← entriesIn, entriesIn, entriesIn,
    List.filter_map]
  rfl

end Emitter

end ParticleSystem
