import ParticleSystem.Proofs.Emitter.SideRecords
import ParticleSystem.Proofs.Spawn.Frame
import Mathlib.Data.List.Nodup

namespace ParticleSystem

/-- A record before and after a tick in which there was a contact or none. -/
structure ParticleStats.Tallied {α : Type} (contact : Bool) (old new : ParticleStats α) : Prop where
  spawnTime_eq : new.spawnTime = old.spawnTime
  serial_eq : new.serial = old.serial
  bounces_eq : new.bounces.toNat = old.bounces.toNat + contact.toNat

namespace Emitter

variable {α β : Type} [Scalar α] [Layout α β]

omit [Scalar α] [Layout α β] in
/-- The slots of the live particles, in order. -/
def places (e : Emitter α β) : List Nat := e.particles.toList.map (·.slot)

omit [Scalar α] [Layout α β] in
theorem length_places (e : Emitter α β) : e.places.length = e.particles.size := by
  rw [places, List.length_map, Array.length_toList]

/-- What a spawn is made of: the modules run, there is room for a
record, and the count does not overflow. -/
theorem spawnOne_iff {e after : Emitter α β} : spawnOne e = .ok () after ↔ ∃ newborn slot pool,
    e.modules.spawnParticle e.spawnContext ⟨e.seedling, e.random⟩ = .ok () newborn ∧
      Pool.store ParticleStats.size (⟨e.time, 0, 0, e.spawned⟩ : ParticleStats α).toCells e.pool =
        .ok slot pool ∧
      e.spawned.toNat + 1 < UInt32.size ∧
      after = ⟨e.config, newborn.stream, e.modules, e.particles.push ⟨newborn.particle, slot⟩,
        pool, e.time, e.spawned + 1⟩ := by
  obtain ⟨config, random, modules, particles, pool, time, spawned⟩ := e
  constructor
  · intro done
    unfold spawnOne at done
    split at done
    · cases done
    · rename_i newborn ran
      simp only at done
      split at done
      · cases done
      · rename_i slot left stored
        split at done
        · rename_i room
          cases done
          exact ⟨newborn, slot, left, ran, stored, room, rfl⟩
        · cases done
  · rintro ⟨newborn, slot, left, ran, stored, room, rfl⟩
    unfold spawnOne
    simp only at ran stored room ⊢
    simp only [ran, stored, if_pos room]

/-- What a spawn leaves: one more particle, with a record of its own in the next slot. -/
structure SpawnEffect (e after : Emitter α β) : Prop where
  time_eq : after.time = e.time
  spawned_eq : after.spawned.toNat = e.spawned.toNat + 1
  particles_eq : ∃ particle, after.particles = e.particles.push ⟨particle, (sideSet e.pool).next⟩
  side : SidePool after.pool
  slots_eq : (sideSet after.pool).slots = (sideSet e.pool).claim.slots
  free_eq : (sideSet after.pool).free = (sideSet e.pool).free.tail
  records_eq : recordAt after.pool =
    Function.update (recordAt e.pool) (sideSet e.pool).next (some ⟨e.time, 0, 0, e.spawned⟩)

theorem spawnOne_ok [LawfulLayout α β] {e after : Emitter α β} (side : SidePool e.pool)
    (done : spawnOne e = .ok () after) : SpawnEffect e after := by
  obtain ⟨left, stored, kept, slots, free, records⟩ :=
    side.store (⟨e.time, 0, 0, e.spawned⟩ : ParticleStats α)
  obtain ⟨newborn, slot, pool, -, same, room, rfl⟩ := spawnOne_iff.mp done
  cases stored.symm.trans same
  refine ⟨rfl, ?_, ⟨_, rfl⟩, kept, slots, free, records⟩
  rw [UInt32.toNat_add]
  exact Nat.mod_eq_of_lt room

theorem SpawnEffect.places_eq {e after : Emitter α β} (effect : SpawnEffect e after) :
    after.places = e.places ++ [(sideSet e.pool).next] := by
  obtain ⟨particle, pushed⟩ := effect.particles_eq
  rw [places, pushed, Array.toList_push, List.map_append, places]
  rfl

theorem SpawnEffect.size_eq {e after : Emitter α β} (effect : SpawnEffect e after) :
    after.particles.size = e.particles.size + 1 := by
  obtain ⟨particle, pushed⟩ := effect.particles_eq
  rw [pushed, Array.size_push]

/-- Two pools with the same slots in use. -/
structure SamePlaces (before after : Pool β) : Prop where
  side : SidePool after
  slots_eq : (sideSet after).slots = (sideSet before).slots
  free_eq : (sideSet after).free = (sideSet before).free

theorem SamePlaces.trans {p q r : Pool β} (first : SamePlaces p q) (second : SamePlaces q r) :
    SamePlaces p r :=
  ⟨second.side, second.slots_eq.trans first.slots_eq, second.free_eq.trans first.free_eq⟩

/-- What an update leaves of the records: the one in a slot counts a contact, if there was one. -/
structure Recorded (α : Type) {β : Type} [Layout α β] (contact : Bool) (slot : Nat)
    (before after : Pool β) : Prop where
  places : SamePlaces before after
  others : ∀ other, other ≠ slot →
  (recordAt after other : Option (ParticleStats α)) = recordAt before other
  tallied : ∀ old : ParticleStats α, recordAt before slot = some old →
    ∃ new, recordAt after slot = some new ∧ ParticleStats.Tallied contact old new

omit [Scalar α] in
theorem Recorded.refl {p : Pool β} (side : SidePool p) (slot : Nat) :
    Recorded α false slot p p where
  places := ⟨side, rfl, rfl⟩
  others := fun _ _ => rfl
  tallied := fun old found => ⟨old, found, rfl, rfl, rfl⟩

section Updates

variable [LawfulLayout α β] {modules : Stack α} {context : UpdateContext α} {time : α}
  {ledger left : Ledger β}

omit [Scalar α] in
theorem recordHit_ok {slot : Nat} (side : SidePool ledger.pool)
    (done : recordHit slot time ledger = .ok () left) :
    Recorded α true slot ledger.pool left.pool ∧ left.random = ledger.random ∧
      left.collisions = ledger.collisions ∧
      recordAt left.pool = Function.update (recordAt ledger.pool) slot
        ((recordAt ledger.pool slot : Option (ParticleStats α)).map (·.hit time)) := by
  unfold recordHit at done
  split at done
  · rename_i missing
    cases done
    refine ⟨⟨⟨side, rfl, rfl⟩, fun _ _ => rfl, ?_⟩, rfl, rfl, ?_⟩
    · intro old found
      cases missing.symm.trans found
    · rw [missing, Option.map_none, ← missing, Function.update_eq_self]
  · rename_i stats found
    split at done
    · rename_i room
      cases done
      have inside := (side.recordAt_isSome slot).mp (Option.isSome_iff_exists.mpr ⟨stats, found⟩)
      obtain ⟨kept, slots, free, records⟩ := side.write inside (stats.hit time)
      refine ⟨⟨⟨kept, slots, free⟩, ?_, ?_⟩, rfl, rfl, by rw [found]; exact records⟩
      · intro other different
        rw [records, Function.update_of_ne different]
      · intro old same
        cases found.symm.trans same
        refine ⟨stats.hit time, ?_, rfl, rfl, ?_⟩
        · rw [records, Function.update_self]
        · rw [ParticleStats.hit, UInt32.toNat_add]
          exact Nat.mod_eq_of_lt room
    · cases done

/-- One particle: its modules decide whether there was a
contact, and its record and the count follow. -/
theorem advance_ok {live next : LiveParticle α} (side : SidePool ledger.pool)
    (done : advance modules context time live ledger = .ok next left) :
    next.slot = live.slot ∧ Recorded α next.particle.collided live.slot ledger.pool left.pool ∧
      left.collisions = ledger.collisions + next.particle.collided.toNat ∧
      ∃ moved, modules.updateParticle context live.particle ledger.random = .ok moved left.random ∧
        next.particle = moved.integrate context.tickTime := by
  unfold advance at done
  split at done
  · cases done
  · rename_i moved random updated
    by_cases contact : moved.collided = true
    · simp only [contact, if_true] at done
      split at done
      · rename_i hit
        cases done
        obtain ⟨recorded, kept, count, -⟩ := recordHit_ok (by exact side) hit
        refine ⟨rfl, ?_, ?_, moved, ?_, rfl⟩
        · rw [Particle.integrate, contact]
          exact recorded
        · rw [Particle.integrate, contact]
          exact count
        · rw [updated, kept]
      · cases done
    · rw [if_neg contact] at done
      cases done
      have none : moved.collided = false := Bool.eq_false_iff.mpr contact
      refine ⟨rfl, ?_, ?_, moved, updated, rfl⟩
      · rw [Particle.integrate, none]
        exact .refl side _
      · rw [Particle.integrate, none]
        rfl

/-- All particles, in slots of their own: the modules decide on the
contacts, and every record counts its own. -/
theorem mapM_advance_ok {lives nexts : List (LiveParticle α)} (side : SidePool ledger.pool)
    (different : (lives.map (·.slot)).Nodup)
    (done : lives.mapM (advance modules context time) ledger = .ok nexts left) :
    nexts.map (·.slot) = lives.map (·.slot) ∧ SamePlaces ledger.pool left.pool ∧
      (∀ other, other ∉ lives.map (·.slot) →
        (recordAt left.pool other : Option (ParticleStats α)) = recordAt ledger.pool other) ∧
      (∀ next ∈ nexts, ∀ old : ParticleStats α, recordAt ledger.pool next.slot = some old →
        ∃ new, recordAt left.pool next.slot = some new ∧
          ParticleStats.Tallied next.particle.collided old new) ∧
      left.collisions = ledger.collisions + nexts.countP (·.particle.collided) ∧
      ∃ moved, lives.mapM (fun live => modules.updateParticle context live.particle) ledger.random =
          .ok moved left.random ∧
        nexts.map (·.particle) = moved.map (·.integrate context.tickTime) := by
  induction lives generalizing ledger nexts with
  | nil =>
    cases done
    exact ⟨rfl, ⟨side, rfl, rfl⟩, fun _ _ => rfl, by simp, rfl, [], rfl, rfl⟩
  | cons live rest ih =>
    rw [List.map_cons, List.nodup_cons] at different
    obtain ⟨fresh, different⟩ := different
    obtain ⟨next, middle, others, first, later, rfl⟩ := mapM_cons_eq_ok done
    obtain ⟨place, recorded, count, moved, updated, became⟩ := advance_ok side first
    obtain ⟨places, kept, apart, tallied, total, found, all, same⟩ :=
      ih recorded.places.side different later
    refine ⟨?_, recorded.places.trans kept, ?_, ?_, ?_, moved :: found, ?_, ?_⟩
    · rw [List.map_cons, List.map_cons, place, places]
    · intro other outside
      rw [List.map_cons, List.mem_cons, not_or] at outside
      rw [apart other outside.2, recorded.others other outside.1]
    · intro member isNext old before
      rcases List.mem_cons.mp isNext with here | behind
      · subst here
        rw [place] at before ⊢
        obtain ⟨new, after, tally⟩ := recorded.tallied old before
        exact ⟨new, (apart _ fresh).trans after, tally⟩
      · have inside : member.slot ∈ rest.map (·.slot) := places ▸ List.mem_map_of_mem behind
        have other : member.slot ≠ live.slot := fun same => fresh (same ▸ inside)
        exact tallied member behind old ((recorded.others _ other).trans before)
    · rw [total, count, List.countP_cons]
      cases next.particle.collided <;> simp
      omega
    · rw [List.mapM_cons]
      simp [bind, EStateM.bind, updated, all, pure, EStateM.pure]
    · rw [List.map_cons, List.map_cons, became, same]

end Updates

omit [Scalar α] in
private theorem releaseAll_ok {lives : List (LiveParticle α)} {p after : Pool β} (side : SidePool p)
    (done : releaseAll lives p = .ok () after) :
    SidePool after ∧ (sideSet after).slots = (sideSet p).slots ∧
      (sideSet after).free = (lives.map (·.slot)).reverse ++ (sideSet p).free ∧
      (recordAt after : Nat → Option (ParticleStats α)) = recordAt p := by
  induction lives generalizing p with
  | nil =>
    cases done
    exact ⟨side, rfl, rfl, rfl⟩
  | cons live rest ih =>
    rw [releaseAll] at done
    obtain ⟨_, middle, first, done⟩ := bind_eq_ok done
    obtain ⟨inside, used, kept, slots, free, records⟩ := side.free (α := α) first
    obtain ⟨left, same, given, read⟩ := ih kept done
    refine ⟨left, same.trans slots, ?_, read.trans records⟩
    rw [given, free, List.map_cons, List.reverse_cons, List.append_assoc, List.singleton_append]

/-- What the updates of a tick leave: the particles, and what they share. -/
def updateAll (dt : α) (e : Emitter α β) :
    EStateM.Result EmitterFault (Ledger β) (List (LiveParticle α)) :=
  e.particles.toList.mapM (advance e.modules (e.updateContext dt) e.time) ⟨e.random, e.pool, 0⟩

omit [Layout α β] in
/-- The live particles once the update modules have worked on them. -/
def updated (dt : α) (e : Emitter α β) : List (Particle α) :=
  let update (live : LiveParticle α) := e.modules.updateParticle (e.updateContext dt) live.particle
  match e.particles.toList.mapM update e.random with
  | .ok particles _ => particles
  | .error _ _ => []

omit [Layout α β] in
private theorem updated_eq {dt : α} {e : Emitter α β} {moved : List (Particle α)}
    {random : RandomStream}
    (all : e.particles.toList.mapM
      (fun live => e.modules.updateParticle (e.updateContext dt) live.particle)
      e.random = .ok moved random) : e.updated dt = moved := by
  rw [updated, all]

/-- What a tick leaves: it updates every particle and its record,
and gives back the slots of the expired. -/
structure TickEffect (dt : α) (e after : Emitter α β) (report : TickReport)
    (lives : List (LiveParticle α)) (ledger : Ledger β) : Prop where
  updateAll_eq : e.updateAll dt = .ok lives ledger
  places_eq : lives.map (·.slot) = e.places
  moved_eq : lives.map (·.particle) = (e.updated dt).map (·.integrate dt)
  particles_eq : after.particles.toList = lives.filter (!·.particle.expired)
  collisions_eq : report.collisions = lives.countP (·.particle.collided)
  expired_eq : report.expired = (lives.filter (·.particle.expired)).length
  spawned_eq : after.spawned = e.spawned
  side : SidePool after.pool
  slots_eq : (sideSet after.pool).slots = (sideSet e.pool).slots
  free_eq : (sideSet after.pool).free =
    ((lives.filter (·.particle.expired)).map (·.slot)).reverse ++ (sideSet e.pool).free
  records_eq : (recordAt after.pool : Nat → Option (ParticleStats α)) = recordAt ledger.pool
  tallied : ∀ live ∈ lives, ∀ old : ParticleStats α, recordAt e.pool live.slot = some old →
    ∃ new, recordAt ledger.pool live.slot = some new ∧
      ParticleStats.Tallied live.particle.collided old new

/-- A tick is an update of all particles and then the release of those that expired. -/
theorem tick_eq (dt : α) (e : Emitter α β) :
    tick dt e = match e.updateAll dt with
      | .error fault ledger => .error fault { e with random := ledger.random, pool := ledger.pool }
      | .ok lives ledger =>
        let kept := (lives.filter (!·.particle.expired)).toArray
        match releaseAll (lives.filter (·.particle.expired)) ledger.pool with
        | .error fault pool =>
          .error (.pool fault) { e with random := ledger.random, particles := kept, pool := pool }
        | .ok _ pool =>
          .ok ⟨ledger.collisions, (lives.filter (·.particle.expired)).length⟩
            { e with
              random := ledger.random, particles := kept, pool := pool, time := e.time + dt } := by
  obtain ⟨config, random, modules, particles, pool, time, spawned⟩ := e
  cases all : updateAll dt (⟨config, random, modules, particles, pool, time, spawned⟩ :
    Emitter α β) with
  | error fault ledger =>
    unfold updateAll at all
    unfold tick
    simp only at all ⊢
    simp only [all]
  | ok lives ledger =>
    obtain ⟨stream, left, collisions⟩ := ledger
    unfold updateAll at all
    unfold tick
    simp only at all ⊢
    cases released : releaseAll (lives.filter (·.particle.expired)) left <;>
      simp only [all, released]

/-- What a tick is made of: it updates all particles, gives back the
slots of the expired, and moves the clock. -/
theorem tick_iff {dt : α} {e after : Emitter α β} {report : TickReport} :
    tick dt e = .ok report after ↔
    ∃ lives ledger pool, e.updateAll dt = .ok lives ledger ∧
      releaseAll (lives.filter (·.particle.expired)) ledger.pool = .ok () pool ∧
      report = ⟨ledger.collisions, (lives.filter (·.particle.expired)).length⟩ ∧
      after = ⟨e.config, ledger.random, e.modules, (lives.filter (!·.particle.expired)).toArray,
        pool, e.time + dt, e.spawned⟩ := by
  rw [tick_eq]
  constructor
  · intro done
    split at done
    · cases done
    · rename_i lives ledger all
      simp only at done
      split at done
      · cases done
      · rename_i pool released
        cases done
        exact ⟨lives, ledger, pool, all, released, rfl, rfl⟩
  · rintro ⟨lives, ledger, pool, all, released, rfl, rfl⟩
    simp only [all, released]

theorem tick_effect [LawfulLayout α β] {dt : α} {e after : Emitter α β} {report : TickReport}
    (side : SidePool e.pool) (different : e.places.Nodup) (done : tick dt e = .ok report after) :
    ∃ lives ledger, TickEffect dt e after report lives ledger := by
  obtain ⟨lives, ledger, pool, all, released, reported, rfl⟩ := tick_iff.mp done
  obtain ⟨places, same, _, tallied, count, moved, updates, became⟩ :=
    mapM_advance_ok (by exact side) different all
  obtain ⟨kept, slots, free, records⟩ := releaseAll_ok (α := α) same.side released
  refine ⟨lives, ledger, all, places, ?_, List.toList_toArray, ?_, ?_, rfl, kept,
    slots.trans same.slots_eq, ?_, records, tallied⟩
  · rw [updated_eq updates, became]
    rfl
  · rw [reported, count, Nat.zero_add]
  · rw [reported]
  · rw [free, same.free_eq]

end Emitter

end ParticleSystem
