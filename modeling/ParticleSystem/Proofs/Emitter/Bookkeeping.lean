import ParticleSystem.Scalar.Single
import ParticleSystem.Proofs.Emitter.Chronicle

namespace ParticleSystem

namespace Emitter

variable {α β : Type} [Layout α β]

/-- The serial in a record, zero where there is none. -/
def serialAt (α : Type) {β : Type} [Layout α β] (p : Pool β) (slot : Nat) : Nat :=
  ((recordAt p slot : Option (ParticleStats α)).map (·.serial.toNat)).getD 0

/-- Live particles and free slots share out the slots of the pool. -/
structure Consistent (e : Emitter α β) : Prop where
  side : SidePool e.pool
  places_nodup : e.places.Nodup
  places_lt : ∀ slot ∈ e.places, slot < (sideSet e.pool).slots
  places_used : ∀ slot ∈ e.places, slot ∉ (sideSet e.pool).free
  count_eq : (sideSet e.pool).free.length + e.particles.size = (sideSet e.pool).slots
  serials_increasing : (e.places.map (serialAt α e.pool)).Pairwise (· < ·)
  serials_lt : ∀ slot ∈ e.places, serialAt α e.pool slot < e.spawned.toNat

variable {e after : Emitter α β}

theorem Consistent.record_present (consistent : e.Consistent) {slot : Nat}
    (member : slot ∈ e.places) : ∃ stats : ParticleStats α, recordAt e.pool slot = some stats :=
  Option.isSome_iff_exists.mp
    ((consistent.side.recordAt_isSome slot).mpr (consistent.places_lt slot member))

theorem consistent_ofConfig [Scalar α] (config : Config α) :
    (ofConfig config : Emitter α β).Consistent where
  side := sidePool_empty
  places_nodup := List.nodup_nil
  places_lt := by simp [ofConfig, places]
  places_used := by simp [ofConfig, places]
  count_eq := by simp [ofConfig, sideSet_of_missing (Pool.find?_empty _)]
  serials_increasing := List.Pairwise.nil
  serials_lt := by simp [ofConfig, places]

theorem Consistent.next_fresh (consistent : e.Consistent) : (sideSet e.pool).next ∉ e.places := by
  intro member
  by_cases none : (sideSet e.pool).free = []
  · have inside := consistent.places_lt _ member
    rw [RecordSet.next_eq_slots none] at inside
    exact Nat.lt_irrefl _ inside
  · exact consistent.places_used _ member (RecordSet.next_mem_free none)

theorem Consistent.record_spawn [Scalar α] (consistent : e.Consistent)
    (effect : SpawnEffect e after) {slot : Nat} (member : slot ∈ e.places) :
    (recordAt after.pool slot : Option (ParticleStats α)) = recordAt e.pool slot := by
  have other : slot ≠ (sideSet e.pool).next := fun same => consistent.next_fresh (same ▸ member)
  rw [effect.records_eq, Function.update_of_ne other]

theorem Consistent.spawn [Scalar α] (consistent : e.Consistent) (effect : SpawnEffect e after) :
    after.Consistent := by
  have own := consistent.side.set_valid
  have fresh := consistent.next_fresh
  have grown := own.slots_claim
  have spawned := effect.spawned_eq
  have places := effect.places_eq
  have kept (slot : Nat) (member : slot ∈ e.places) : serialAt α after.pool slot =
      serialAt α e.pool slot := by
    rw [serialAt, consistent.record_spawn effect member, serialAt]
  have new : serialAt α after.pool (sideSet e.pool).next = e.spawned.toNat := by
    rw [serialAt, effect.records_eq, Function.update_self]
    rfl
  constructor
  · exact effect.side
  · rw [places, List.nodup_append]
    refine ⟨consistent.places_nodup, List.nodup_singleton _, ?_⟩
    intro slot member other last same
    have here := same.trans (List.mem_singleton.mp last)
    exact fresh (here ▸ member)
  · intro slot member
    rw [effect.slots_eq, grown]
    rw [places, List.mem_append, List.mem_singleton] at member
    rcases member with old | last
    · have inside := consistent.places_lt slot old
      omega
    · omega
  · intro slot member
    rw [effect.free_eq, ← RecordSet.free_claim, own.mem_free_claim]
    rintro ⟨free, other⟩
    rw [places, List.mem_append, List.mem_singleton] at member
    rcases member with old | last
    · exact consistent.places_used slot old free
    · exact other last
  · rw [effect.free_eq, effect.slots_eq, effect.size_eq, ← RecordSet.free_claim]
    exact own.count_claim consistent.count_eq
  · rw [places, List.map_append, List.pairwise_append, List.map_congr_left kept]
    refine ⟨consistent.serials_increasing, List.pairwise_singleton .., ?_⟩
    intro earlier member latest last
    obtain ⟨slot, inside, rfl⟩ := List.mem_map.mp member
    rw [List.map_singleton, new, List.mem_singleton] at last
    subst last
    exact consistent.serials_lt slot inside
  · intro slot member
    rw [spawned]
    rw [places, List.mem_append, List.mem_singleton] at member
    rcases member with old | last
    · have below := consistent.serials_lt slot old
      rw [kept slot old]
      omega
    · rw [last, new]
      omega

private theorem kept_apart [Scalar α] {lives : List (LiveParticle α)}
    (different : (lives.map (·.slot)).Nodup) {slot : Nat}
    (kept : slot ∈ (lives.filter (!·.particle.expired)).map (·.slot)) :
    slot ∉ (lives.filter (·.particle.expired)).map (·.slot) := by
  intro removed
  obtain ⟨live, stays, rfl⟩ := List.mem_map.mp kept
  obtain ⟨other, leaves, same⟩ := List.mem_map.mp removed
  rw [List.mem_filter] at stays leaves
  have one := List.inj_on_of_nodup_map different leaves.1 stays.1 same
  subst one
  simp [leaves.2] at stays

theorem Consistent.tick [Scalar α] {dt : α} {report : TickReport} {lives : List (LiveParticle α)}
    {ledger : Ledger β} (consistent : e.Consistent)
    (effect : TickEffect dt e after report lives ledger) : after.Consistent := by
  have different := consistent.places_nodup
  rw [← effect.places_eq] at different
  have places : after.places = (lives.filter (!·.particle.expired)).map (·.slot) := by
    rw [Emitter.places, effect.particles_eq]
  have fewer : after.places.Sublist e.places := by
    rw [places, ← effect.places_eq]
    exact List.filter_sublist.map _
  have kept (slot : Nat) (member : slot ∈ e.places) : serialAt α after.pool slot =
      serialAt α e.pool slot := by
    obtain ⟨old, before⟩ := consistent.record_present member
    rw [← effect.places_eq] at member
    obtain ⟨live, present, rfl⟩ := List.mem_map.mp member
    obtain ⟨new, now, tally⟩ := effect.tallied live present old before
    rw [serialAt, serialAt, effect.records_eq, now, before, Option.map_some, Option.map_some,
      tally.serial_eq]
  constructor
  · exact effect.side
  · exact consistent.places_nodup.sublist fewer
  · intro slot member
    rw [effect.slots_eq]
    exact consistent.places_lt slot (fewer.subset member)
  · intro slot member
    rw [effect.free_eq, List.mem_append, List.mem_reverse, not_or]
    rw [places] at member
    refine ⟨kept_apart different member, ?_⟩
    rw [← places] at member
    exact consistent.places_used slot (fewer.subset member)
  · have total : (lives.filter (·.particle.expired)).length + after.particles.size =
        e.particles.size := by
      have parts := List.length_eq_length_filter_add (l := lives) (·.particle.expired)
      have all := congrArg List.length effect.places_eq
      rw [Emitter.places, List.length_map, List.length_map] at all
      rw [← Array.length_toList, effect.particles_eq, ← Array.length_toList]
      omega
    have count := consistent.count_eq
    rw [effect.free_eq, effect.slots_eq, List.length_append, List.length_reverse, List.length_map]
    omega
  · have same : e.places.map (serialAt α after.pool) = e.places.map (serialAt α e.pool) :=
      List.map_congr_left kept
    have increasing := consistent.serials_increasing
    rw [← same] at increasing
    exact increasing.sublist (fewer.map _)
  · intro slot member
    have here := fewer.subset member
    rw [kept slot here, effect.spawned_eq]
    exact consistent.serials_lt slot here

theorem Consistent.reload (consistent : e.Consistent) : e.reload.Consistent :=
  ⟨consistent.side, consistent.places_nodup, consistent.places_lt, consistent.places_used,
    consistent.count_eq, consistent.serials_increasing, consistent.serials_lt⟩

theorem stats?_of_place {i slot : Nat} (found : e.places[i]? = some slot) :
    e.stats? i = recordAt e.pool slot := by
  rw [places, List.getElem?_map, Array.getElem?_toList] at found
  obtain ⟨live, there, rfl⟩ := Option.map_eq_some_iff.mp found
  rw [stats?, there, Option.bind_some]

theorem Consistent.stats?_isSome (consistent : e.Consistent) (i : Nat) :
    (e.stats? i).isSome ↔ i < e.particles.size := by
  constructor
  · intro present
    by_contra outside
    rw [stats?, Array.getElem?_eq_none (Nat.not_lt.mp outside)] at present
    cases present
  · intro inside
    rw [← length_places] at inside
    have found := List.getElem?_eq_getElem inside
    obtain ⟨stats, present⟩ := consistent.record_present (List.mem_of_getElem? found)
    rw [stats?_of_place found, present]
    rfl

theorem place_of_stats? {i : Nat} {stats : ParticleStats α}
    (found : e.stats? i = some stats) :
    ∃ slot, e.places[i]? = some slot ∧ serialAt α e.pool slot = stats.serial.toNat := by
  obtain ⟨live, there, record⟩ := Option.bind_eq_some_iff.mp found
  refine ⟨live.slot, ?_, ?_⟩
  · rw [places, List.getElem?_map, Array.getElem?_toList, there, Option.map_some]
  · rw [serialAt, record]
    rfl

theorem Consistent.serial_lt_serial (consistent : e.Consistent) {i j : Nat}
    {first second : ParticleStats α} (earlier : i < j) (here : e.stats? i = some first)
    (there : e.stats? j = some second) : first.serial < second.serial := by
  obtain ⟨slot, found, serial⟩ := place_of_stats? here
  obtain ⟨other, present, later⟩ := place_of_stats? there
  have increasing := List.pairwise_map.mp consistent.serials_increasing
  rw [List.pairwise_iff_getElem] at increasing
  obtain ⟨inside, rfl⟩ := List.getElem?_eq_some_iff.mp found
  obtain ⟨within, rfl⟩ := List.getElem?_eq_some_iff.mp present
  have less := increasing i j inside within earlier
  rw [serial, later] at less
  exact UInt32.lt_iff_toNat_lt.mpr less

theorem Consistent.activeSize_eq (consistent : e.Consistent) :
    e.pool.activeSize ParticleStats.size = .ok e.particles.size := by
  have count := consistent.count_eq
  cases found : e.pool.find? ParticleStats.size with
  | none =>
    rw [sideSet_of_missing found, RecordSet.slots_empty] at count
    rw [Pool.activeSize, found, show e.particles.size = 0 by omega]
  | some set =>
    rw [sideSet_of_find? found] at count
    rw [Pool.activeSize, found]
    exact (consistent.side.valid _ _ found).activeSize_eq.trans (congrArg _ (by omega))

private theorem Consistent.set_of_place (consistent : e.Consistent) {slot : Nat}
    (member : slot ∈ e.places) :
    ∃ set slots, e.pool.find? ParticleStats.size = some set ∧ set.slotCount = .ok slots ∧
      slot < slots ∧
      slot ∉ set.free := by
  have inside := consistent.places_lt slot member
  have used := consistent.places_used slot member
  cases found : e.pool.find? ParticleStats.size with
  | none =>
    rw [sideSet_of_missing found, RecordSet.slots_empty] at inside
    cases inside
  | some set =>
    rw [sideSet_of_find? found] at inside used
    exact ⟨set, set.slots, rfl, (consistent.side.valid _ _ found).slotCount_eq, inside, used⟩

theorem SidePool.slotCount_eq {p : Pool β} (side : SidePool p) :
    ((p.find? ParticleStats.size).map RecordSet.slotCount).getD (.ok 0) =
      .ok (sideSet p).slots := by
  cases found : p.find? ParticleStats.size with
  | none => rw [sideSet_of_missing found, RecordSet.slots_empty, Option.map_none, Option.getD_none]
  | some set =>
    rw [sideSet_of_find? found, Option.map_some, Option.getD_some,
      (side.valid _ _ found).slotCount_eq]

/-- Whether the slots and the count of an emitter are those of its chronicle. -/
structure Booked (c : Chronicle α) (e : Emitter α β) : Prop where
  consistent : e.Consistent
  spawned_eq : e.spawned.toNat = c.spawned
  slots_eq : (sideSet e.pool).slots = c.peak

variable [Scalar α] [LawfulLayout α β]

theorem Consistent.perform {action : Action α} {reports : List TickReport}
    (consistent : e.Consistent) (done : action.perform e = .ok reports after) :
    after.Consistent := by
  cases action with
  | spawn =>
    obtain ⟨done, -⟩ := Action.perform_spawn_ok done
    exact consistent.spawn (spawnOne_ok consistent.side done)
  | tick dt =>
    obtain ⟨report, rfl, ticked⟩ := Action.perform_tick_ok done
    obtain ⟨lives, ledger, effect⟩ := tick_effect consistent.side consistent.places_nodup ticked
    exact consistent.tick effect
  | reload =>
    cases done
    exact consistent.reload

/-- Every action keeps the slots: the buffer grows when all of them are in use, and only then. -/
theorem Booked.perform {c : Chronicle α} {action : Action α} {reports : List TickReport}
    (booked : Booked c e) (done : action.perform e = .ok reports after) :
    Booked (c.note e action reports after) after := by
  have consistent := booked.consistent
  have slots := booked.slots_eq
  have count := consistent.count_eq
  cases action with
  | spawn =>
    obtain ⟨done, -⟩ := Action.perform_spawn_ok done
    have effect := spawnOne_ok consistent.side done
    refine ⟨consistent.spawn effect, ?_, ?_⟩
    · rw [effect.spawned_eq, booked.spawned_eq, Chronicle.spawned_note, Action.spawned]
    · rw [effect.slots_eq, Chronicle.peak_note, effect.size_eq, ← slots]
      exact consistent.side.set_valid.slots_claim_of_used count
  | tick dt =>
    obtain ⟨report, rfl, ticked⟩ := Action.perform_tick_ok done
    obtain ⟨lives, ledger, effect⟩ := tick_effect consistent.side consistent.places_nodup ticked
    have kept := consistent.tick effect
    have left := kept.count_eq
    refine ⟨kept, ?_, ?_⟩
    · rw [effect.spawned_eq, booked.spawned_eq, Chronicle.spawned_note, Action.spawned,
        Nat.add_zero]
    · rw [effect.slots_eq] at left ⊢
      rw [Chronicle.peak_note, ← slots]
      omega
  | reload =>
    cases done
    refine ⟨consistent.reload, ?_, ?_⟩
    · rw [Chronicle.spawned_note, Action.spawned, Nat.add_zero]
      exact booked.spawned_eq
    · rw [Chronicle.peak_note, ← slots]
      change (sideSet e.pool).slots = max (sideSet e.pool).slots e.particles.size
      omega

omit [LawfulLayout α β] in
theorem booked_start (config : Config α) : Booked .start (ofConfig config : Emitter α β) where
  consistent := consistent_ofConfig config
  spawned_eq := rfl
  slots_eq := by
    rw [ofConfig, sideSet_of_missing (Pool.find?_empty _), RecordSet.slots_empty]
    rfl

theorem booked_ofCalls {config : Config α} {calls : List (Call α)} {answers : List (Answer α)}
    (done : Call.performAll calls (ofConfig config) = .ok answers e) :
    Booked (Chronicle.ofCalls config calls) e := by
  obtain ⟨reports, performed, _⟩ := Call.performAll_ok done
  exact Chronicle.follow_induction (fun _ _ _ _ _ done booked => booked.perform done)
    (booked_start config)
    performed

/-- The pool holds side records alone; the live particles have slots of their own, in use
and within the set, and their serials grow from one to the next; and there are as many
slots as particles were ever live at once. -/
theorem live_particles_booked {config : Config Float32} {calls : List (Call Float32)}
    {answers : List (Answer Float32)} {e : Emitter Float32 UInt8}
    (done : Call.performAll calls (ofConfig config) = .ok answers e) :
    (∀ entry ∈ e.pool.sets, entry.1 = ParticleStats.size) ∧
      e.places.Nodup ∧
      (∀ slot ∈ e.places, ∃ set slots, e.pool.find? ParticleStats.size = some set ∧
        set.slotCount = .ok slots ∧
        slot < slots ∧ slot ∉ set.free) ∧
      e.pool.activeSize ParticleStats.size = .ok e.particles.size ∧
      (∀ i, (e.stats? i).isSome ↔ i < e.particles.size) ∧
      (∀ i j first second, i < j → e.stats? i = some first → e.stats? j = some second →
        first.serial < second.serial) ∧
      (∀ i stats, e.stats? i = some stats →
        stats.serial.toNat < (calls.map (Call.spawned config)).sum) ∧
      ((e.pool.find? ParticleStats.size).map RecordSet.slotCount).getD (.ok 0) =
        .ok (Chronicle.ofCalls config calls).peak := by
  have booked := booked_ofCalls done
  have consistent := booked.consistent
  obtain ⟨reports, performed, _⟩ := Call.performAll_ok done
  have spawned := Chronicle.spawned_follow (c := .start) performed
  rw [Call.sum_spawned_flatMap] at spawned
  refine ⟨?_, consistent.places_nodup, fun slot => consistent.set_of_place,
    consistent.activeSize_eq,
    consistent.stats?_isSome, fun i j first second => consistent.serial_lt_serial, ?_, ?_⟩
  · exact (Pool.sets_only_iff e.pool _).mpr consistent.side.alone
  · intro i stats found
    obtain ⟨slot, place, serial⟩ := place_of_stats? found
    have below := consistent.serials_lt slot (List.mem_of_getElem? place)
    rw [serial, booked.spawned_eq] at below
    exact below.trans_eq (spawned.trans (Nat.zero_add _))
  · rw [consistent.side.slotCount_eq, booked.slots_eq]

/-- Two particles expire, one of their slots is reused, and the other stays free. -/
theorem live_particles_booked_reused :
    let config : Config Float32 :=
      { Config.default with lifetime := 1, modules := .ofModules [] [] }
    let calls : List (Call Float32) :=
      [.spawn 2, .tick 0.75, .spawn 1, .tick 0.5, .reload, .spawn 1]
    ∃ answers, ∃ e : Emitter Float32 UInt8, Call.performAll calls (ofConfig config) =
      .ok answers e ∧
      e.particles.size = 2 ∧ e.pool.activeSize ParticleStats.size = .ok 2 ∧
      ((e.pool.find? ParticleStats.size).map RecordSet.slotCount).getD (.ok 0) = .ok 3 := by
  intro config calls
  have alive : (match Call.performAll calls (ofConfig config : Emitter Float32 UInt8) with
    | .ok _ e => e.particles.size
    | .error _ _ => 0) = 2 := by decide +kernel
  have peak : (Chronicle.ofCalls config calls).peak = 3 := by decide +kernel
  cases ran : Call.performAll calls (ofConfig config : Emitter Float32 UInt8) with
  | error fault left =>
    rw [ran] at alive
    cases alive
  | ok answers e =>
    rw [ran] at alive
    replace alive : e.particles.size = 2 := alive
    obtain ⟨_, _, _, active, _, _, _, slots⟩ := live_particles_booked ran
    rw [alive] at active
    rw [peak] at slots
    exact ⟨answers, e, rfl, alive, active, slots⟩

end Emitter

end ParticleSystem
