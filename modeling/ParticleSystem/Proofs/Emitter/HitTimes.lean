import ParticleSystem.Proofs.Collision.Timing
import ParticleSystem.Proofs.Emitter.Batches
import ParticleSystem.Proofs.Emitter.Floor

namespace ParticleSystem

section Records

variable {K : Type} [Field K] [LinearOrder K]

/-- Whether the times in a record are in order, at a time of the
emitter. Before the first hit there is none. -/
structure ParticleStats.Timely (now : K) (stats : ParticleStats K) : Prop where
  spawned_nonneg : 0 ≤ stats.spawnTime
  spawned_le : stats.spawnTime ≤ now
  hit : stats.bounces = 0 ∧ stats.lastHitTime = 0 ∨
    stats.spawnTime ≤ stats.lastHitTime ∧ stats.lastHitTime ≤ now

variable {time dt : K} {stats : ParticleStats K} {particle : Particle K}

theorem ParticleStats.Timely.nonneg (timely : stats.Timely time) : 0 ≤ time :=
  timely.spawned_nonneg.trans timely.spawned_le

theorem ParticleStats.Timely.lastHitTime_le (timely : stats.Timely time) :
    stats.lastHitTime ≤ time := by
  rcases timely.hit with ⟨_, none⟩ | ⟨_, late⟩
  · rw [none]
    exact timely.nonneg
  · exact late

/-- A tick within which a particle is hit keeps its times in
order, and does not turn back the last hit. -/
theorem ParticleStats.Timely.tally [FloorRing K] [Elementary K] [IsStrictOrderedRing K]
    (timely : stats.Timely time) (forward : 0 ≤ dt) (within : particle.HitWithin dt) :
    (stats.tally time dt particle).Timely (time + dt) ∧
      stats.lastHitTime ≤ (stats.tally time dt particle).lastHitTime := by
  have later : time ≤ time + dt := le_add_of_nonneg_right forward
  unfold ParticleStats.tally
  split
  · rename_i contact
    obtain ⟨left, tick⟩ := within contact
    have after : time ≤ time + dt - particle.timeAfterContact := by linarith
    have before : time + dt - particle.timeAfterContact ≤ time + dt := by linarith
    refine ⟨⟨timely.spawned_nonneg, timely.spawned_le.trans later, .inr ⟨?_, before⟩⟩, ?_⟩
    · exact timely.spawned_le.trans after
    · exact timely.lastHitTime_le.trans after
  · refine ⟨⟨timely.spawned_nonneg, timely.spawned_le.trans later, ?_⟩, le_rfl⟩
    rcases timely.hit with none | ⟨early, late⟩
    · exact .inl none
    · exact .inr ⟨early, late.trans later⟩

end Records

private theorem exists_of_forall₂ {γ δ : Type} {related : γ → δ → Prop} {items : List γ}
    {others : List δ} (all : List.Forall₂ related items others) {other : δ}
    (member : other ∈ others) : ∃ item ∈ items, related item other := by
  induction all with
  | nil => cases member
  | cons here _ ih =>
    rcases List.mem_cons.mp member with rfl | behind
    · exact ⟨_, List.mem_cons_self, here⟩
    · obtain ⟨item, present, step⟩ := ih behind
      exact ⟨item, List.mem_cons_of_mem _ present, step⟩

namespace Emitter

section Records

variable {α β : Type} [Layout α β]

/-- Whether a live particle has a record. -/
def Keeps (e : Emitter α β) (stats : ParticleStats α) : Prop := some stats ∈ e.entries.map Prod.snd

theorem keeps_iff {e : Emitter α β} {stats : ParticleStats α} :
    e.Keeps stats ↔ ∃ i, e.stats? i = some stats := by
  rw [Keeps, List.mem_iff_getElem?]
  simp only [List.getElem?_map, entries_getElem?, Option.map_map, Option.map_eq_some_iff]
  constructor
  · rintro ⟨i, live, there, found⟩
    exact ⟨i, found⟩
  · rintro ⟨i, found⟩
    obtain ⟨live, there, _⟩ := Option.bind_eq_some_iff.mp found
    exact ⟨i, live, there, found⟩

/-- Whether each record of an emitter is that of an earlier one, with a hit no
earlier, or of a particle spawned since. -/
structure Since [LE α] (earlier e : Emitter α β) : Prop where
  spawned_le : earlier.spawned.toNat ≤ e.spawned.toNat
  records : ∀ now, e.Keeps now → (∃ before, earlier.Keeps before ∧ before.serial = now.serial ∧
    before.lastHitTime ≤ now.lastHitTime) ∨ earlier.spawned.toNat ≤ now.serial.toNat

end Records

section Since

variable {K β : Type} [Layout K β] [Preorder K] {first second third : Emitter K β}

theorem Since.refl (e : Emitter K β) : Since e e :=
  ⟨le_rfl, fun now kept => .inl ⟨now, kept, rfl, le_rfl⟩⟩

theorem Since.trans (earlier : Since first second) (later : Since second third) :
    Since first third where
  spawned_le := earlier.spawned_le.trans later.spawned_le
  records := by
    intro now kept
    rcases later.records now kept with ⟨middle, there, serial, hit⟩ | new
    · rcases earlier.records middle there with ⟨before, present, same, struck⟩ | new
      · exact .inl ⟨before, present, same.trans serial, struck.trans hit⟩
      · exact .inr (serial ▸ new)
    · exact .inr (earlier.spawned_le.trans new)

end Since

variable {K β : Type} [Field K] [LinearOrder K] [FloorRing K] [Elementary K] [IsStrictOrderedRing K]
  [Layout K β]

/-- An emitter whose records are in order at its time. -/
structure Timely (e : Emitter K β) : Prop where
  consistent : e.Consistent
  bound : e.Bound
  time_nonneg : 0 ≤ e.time
  records : ∀ stats, e.Keeps stats → stats.Timely e.time

omit [IsStrictOrderedRing K] in
theorem timely_ofConfig (config : Config K) : Timely (ofConfig config : Emitter K β) where
  consistent := consistent_ofConfig config
  bound := bound_ofConfig config
  time_nonneg := le_of_eq Scalar.ofNat_eq_zero.symm
  records := by
    intro stats kept
    cases kept

variable [LawfulLayout K β] {e after : Emitter K β}

omit [IsStrictOrderedRing K] in
theorem keeps_spawnOne (consistent : e.Consistent) (bound : e.Bound)
    (done : spawnOne e = .ok () after) {now : ParticleStats K} (kept : after.Keeps now) :
    e.Keeps now ∨ now = ⟨e.time, 0, 0, e.spawned⟩ := by
  obtain ⟨particle, slot, -, entries⟩ := entries_spawnOne consistent bound done
  rw [Scalar.ofNat_eq_zero] at entries
  rw [Keeps, entries, List.map_append, List.mem_append] at kept
  rcases kept with old | new
  · exact .inl old
  · exact .inr (Option.some.inj (List.mem_singleton.mp new))

/-- A record after a tick is one from before it, with the hit of the tick if there was one. -/
theorem keeps_tick {dt : K} {report : TickReport} (forward : 0 ≤ dt) (consistent : e.Consistent)
    (bound : e.Bound) (done : tick dt e = .ok report after) {now : ParticleStats K}
    (kept : after.Keeps now) :
    ∃ before particle, e.Keeps before ∧ particle.HitWithin dt ∧
      now = before.tally e.time dt particle := by
  obtain ⟨moved, advanced, entries⟩ := entries_tick consistent bound done
  rw [Keeps, entries] at kept
  obtain ⟨entry, member, record⟩ := List.mem_map.mp kept
  obtain ⟨old, present, stream, particle, ran, rfl⟩ :=
    exists_of_forall₂ advanced (List.mem_of_mem_filter member)
  obtain ⟨before, found, rfl⟩ := Option.map_eq_some_iff.mp record
  refine ⟨before, particle, List.mem_map.mpr ⟨old, present, found⟩, ?_, rfl⟩
  rw [ran]
  exact Stack.hitWithin_runUpdate _ _ forward stream

/-- What is done to an emitter as time moves forward keeps its
records in order, and turns back no hit. -/
theorem Timely.perform {action : Action K} {reports : List TickReport} (timely : Timely e)
    (forward : action.Forward) (done : action.perform e = .ok reports after) :
    Timely after ∧ Since e after := by
  have consistent := timely.consistent.perform done
  have bound := perform_bound timely.bound done
  cases action with
  | spawn =>
    obtain ⟨done, -⟩ := Action.perform_spawn_ok done
    have effect := spawnOne_ok timely.consistent.side done
    refine ⟨⟨consistent, bound, ?_, fun now kept => ?_⟩, ⟨?_, fun now kept => ?_⟩⟩
    · rw [effect.time_eq]
      exact timely.time_nonneg
    · rw [effect.time_eq]
      rcases keeps_spawnOne timely.consistent timely.bound done kept with old | rfl
      · exact timely.records now old
      · exact ⟨timely.time_nonneg, le_rfl, .inl ⟨rfl, rfl⟩⟩
    · rw [effect.spawned_eq]
      exact Nat.le_succ _
    · rcases keeps_spawnOne timely.consistent timely.bound done kept with old | rfl
      · exact .inl ⟨now, old, rfl, le_rfl⟩
      · exact .inr le_rfl
  | tick dt =>
    obtain ⟨report, rfl, ticked⟩ := Action.perform_tick_ok done
    have forward : 0 ≤ dt := Scalar.ofNat_eq_zero.symm.trans_le forward
    have time : after.time = e.time + dt := (tick_particles timely.bound ticked).2.2.1
    obtain ⟨lives, ledger, effect⟩ :=
      tick_effect timely.consistent.side timely.consistent.places_nodup ticked
    refine ⟨⟨consistent, bound, ?_, fun now kept => ?_⟩, ⟨?_, fun now kept => ?_⟩⟩
    · rw [time]
      exact add_nonneg timely.time_nonneg forward
    · obtain ⟨before, particle, old, within, rfl⟩ :=
        keeps_tick forward timely.consistent timely.bound ticked kept
      rw [time]
      exact ((timely.records before old).tally forward within).1
    · rw [effect.spawned_eq]
    · obtain ⟨before, particle, old, within, rfl⟩ :=
        keeps_tick forward timely.consistent timely.bound ticked kept
      exact .inl ⟨before, old, (before.serial_tally ..).symm,
        ((timely.records before old).tally forward within).2⟩
  | reload =>
    cases done
    exact ⟨⟨consistent, bound, timely.time_nonneg, timely.records⟩, le_rfl,
      fun now kept => .inl ⟨now, kept, rfl, le_rfl⟩⟩

theorem Timely.performAll {actions : List (Action K)} {reports : List TickReport}
    (timely : Timely e) (forward : ∀ action ∈ actions, action.Forward)
    (done : Action.performAll actions e = .ok reports after) : Timely after ∧ Since e after := by
  induction actions generalizing e reports with
  | nil =>
    cases done
    exact ⟨timely, .refl _⟩
  | cons action rest ih =>
    obtain ⟨own, others⟩ := List.forall_mem_cons.mp forward
    obtain ⟨_, middle, _, first, later, rfl⟩ := Action.performAll_cons_ok done
    obtain ⟨between, since⟩ := timely.perform own first
    obtain ⟨now, further⟩ := ih between others later
    exact ⟨now, since.trans further⟩

theorem Timely.calls {config : Config K} {calls : List (Call K)} {answers : List (Answer K)}
    (timely : Timely e) (own : e.config = config) (forward : ∀ call ∈ calls, call.Forward config)
    (done : Call.performAll calls e = .ok answers after) : Timely after ∧ Since e after := by
  obtain ⟨reports, performed, -⟩ := Call.performAll_ok done
  refine timely.performAll (fun action member => ?_) performed
  obtain ⟨call, asked, part⟩ := List.mem_flatMap.mp member
  exact Call.forward_of_mem (own ▸ forward call asked) part

omit [FloorRing K] [Elementary K] [IsStrictOrderedRing K] [LawfulLayout K β] in
private theorem Timely.record_unique (timely : Timely e) {first second : ParticleStats K}
    (here : e.Keeps first) (there : e.Keeps second) (same : first.serial = second.serial) :
    first = second := by
  obtain ⟨i, found⟩ := keeps_iff.mp here
  obtain ⟨j, present⟩ := keeps_iff.mp there
  rcases Nat.lt_trichotomy i j with before | rfl | after
  · exact absurd same (UInt32.ne_of_lt (timely.consistent.serial_lt_serial before found present))
  · exact Option.some.inj (found.symm.trans present)
  · exact absurd same.symm
      (UInt32.ne_of_lt (timely.consistent.serial_lt_serial after present found))

omit [FloorRing K] [Elementary K] [IsStrictOrderedRing K] [LawfulLayout K β] in
theorem Since.lastHitTime_le (since : Since e after) (timely : Timely e)
    {before now : ParticleStats K} (earlier : e.Keeps before) (later : after.Keeps now)
    (same : now.serial = before.serial) : before.lastHitTime ≤ now.lastHitTime := by
  rcases since.records now later with ⟨old, there, serial, hit⟩ | new
  · have one := timely.record_unique earlier there (same.symm.trans serial.symm)
    rwa [one]
  · obtain ⟨i, found⟩ := keeps_iff.mp earlier
    obtain ⟨slot, place, serial⟩ := place_of_stats? found
    have spawned := timely.consistent.serials_lt slot (List.mem_of_getElem? place)
    rw [serial, ← same] at spawned
    exact absurd new (Nat.not_le.mpr spawned)

/-- As long as time moves forward, the record of every live particle tells of a spawn and, when the
particle was hit, of a last hit since then, neither of them in the future. Whatever is done further,
the particle with the same place in the count was last hit no earlier. -/
theorem hit_times_ordered {config : Config K} {calls : List (Call K)} {answers : List (Answer K)}
    (forward : ∀ call ∈ calls, call.Forward config)
    (done : Call.performAll calls (ofConfig config) = .ok answers e) :
    (∀ i < e.particles.size, ∃ stats, e.stats? i = some stats ∧ 0 ≤ stats.spawnTime ∧
      stats.spawnTime ≤ e.time ∧
      (1 ≤ stats.bounces → stats.spawnTime ≤ stats.lastHitTime ∧ stats.lastHitTime ≤ e.time)) ∧
    ∀ more others (after : Emitter K β), (∀ call ∈ more, call.Forward config) →
      Call.performAll more e = .ok others after →
      ∀ i j before now, e.stats? i = some before → after.stats? j = some now →
        now.serial = before.serial →
        before.lastHitTime ≤ now.lastHitTime := by
  have timely := ((timely_ofConfig config).calls rfl forward done).1
  have config_eq : e.config = config := by
    obtain ⟨reports, performed, -⟩ := Call.performAll_ok done
    exact Action.performAll_config performed
  constructor
  · intro i inside
    obtain ⟨stats, found⟩ :=
      Option.isSome_iff_exists.mp ((timely.consistent.stats?_isSome i).mpr inside)
    have order := timely.records stats (keeps_iff.mpr ⟨i, found⟩)
    refine ⟨stats, found, order.spawned_nonneg, order.spawned_le, fun bounced => ?_⟩
    rcases order.hit with ⟨none, _⟩ | ordered
    · rw [none] at bounced
      cases bounced
    · exact ordered
  · intro more others after further performed i j before now found present same
    have since := (timely.calls config_eq further performed).2
    exact since.lastHitTime_le timely (keeps_iff.mpr ⟨i, found⟩) (keeps_iff.mpr ⟨j, present⟩) same

/-- A particle hits a floor and then a ceiling, half a tick after the clock was last read. -/
theorem hit_times_ordered_between_planes :
    let room : Collision ℚ :=
      { Collision.default with
        useTwoPlanes := true, plane₁ := ⟨.unitZ, ⟨0, 0, -1⟩⟩, plane₂ := ⟨⟨0, 0, -1⟩, ⟨0, 0, 1⟩⟩,
        radius := .custom (1 / 4) }
    let config : Config ℚ :=
      { Config.default with
        lifetime := 4, modules :=
          .ofModules [.directed ⟨.constant 2, .constant ⟨0, 0, -1⟩⟩] [.collision room] }
    let calls : List (Call ℚ) := [.spawn 1, .tick (1 / 4), .tick (3 / 4)]
    ∃ answers others, ∃ e after : Emitter ℚ (ℚ ⊕ UInt32),
      Call.performAll calls (ofConfig config) = .ok answers e ∧
      Call.performAll [.tick (1 / 2)] e = .ok others after ∧
      ∃ before now, e.stats? 0 = some before ∧ after.stats? 0 = some now ∧
        before.lastHitTime = 3 / 8 ∧
        now.lastHitTime = 9 / 8 ∧ before.spawnTime ≤ before.lastHitTime ∧
        before.lastHitTime ≤ e.time ∧
        before.lastHitTime ≤ now.lastHitTime := by
  intro room config calls
  have forward : ∀ call ∈ calls, call.Forward config := by
    have first : (0 : ℚ) ≤ 1 / 4 := by decide +kernel
    have second : (0 : ℚ) ≤ 3 / 4 := by decide +kernel
    simp only [calls, List.forall_mem_cons]
    exact ⟨trivial, first, second, List.forall_mem_nil _⟩
  have outcome : (match Call.performAll calls (ofConfig config : Emitter ℚ (ℚ ⊕ UInt32)) with
    | .ok _ e => match Call.performAll [.tick (1 / 2)] e with
      | .ok _ after => (e.particles.size, e.stats? 0, after.stats? 0)
      | .error _ _ => (0, none, none)
    | .error _ _ => (0, none, none)) = (1, some ⟨0, 3 / 8, 1, 0⟩, some ⟨0, 9 / 8, 2, 0⟩) := by
      decide +kernel
  cases ran : Call.performAll calls (ofConfig config : Emitter ℚ (ℚ ⊕ UInt32)) with
  | error fault left =>
    rw [ran] at outcome
    cases outcome
  | ok answers e =>
    rw [ran] at outcome
    simp only at outcome
    cases further : Call.performAll [.tick (1 / 2)] e with
    | error fault left =>
      rw [further] at outcome
      cases outcome
    | ok others after =>
      rw [further] at outcome
      obtain ⟨size, found, present⟩ : e.particles.size = 1 ∧ e.stats? 0 = some ⟨0, 3 / 8, 1, 0⟩ ∧
          after.stats? 0 = some ⟨0, 9 / 8, 2, 0⟩ := by simpa using outcome
      obtain ⟨ordered, later⟩ := hit_times_ordered forward ran
      obtain ⟨stats, here, _, _, hit⟩ := ordered 0 (by omega)
      cases found.symm.trans here
      obtain ⟨spawned, past⟩ := hit (by decide)
      have half : ∀ call ∈ [Call.tick (1 / 2 : ℚ)], call.Forward config := by
        have third : (0 : ℚ) ≤ 1 / 2 := by decide +kernel
        simp only [List.forall_mem_cons]
        exact ⟨third, List.forall_mem_nil _⟩
      exact ⟨answers, others, e, after, rfl, further, _, _, found, present, rfl, rfl, spawned, past,
        later _ others after half further 0 0 _ _ found present rfl⟩

end Emitter

end ParticleSystem
