import ParticleSystem.Proofs.Collision.Frame
import ParticleSystem.Proofs.Emitter.Conservation
import ParticleSystem.Proofs.Emitter.Entries
import ParticleSystem.Proofs.Scalar.Monotone

/-!
The order in which particles expire. What becomes of a particle in time depends on the steps since
its spawn alone: those of one burst share their fate, and as long as time moves forward an older
particle is never outlived by a younger one, so that the live particles are always the latest.
-/

namespace ParticleSystem

variable {α β : Type} [Scalar α]

/-- How old a particle is, or would be had it stayed, and whether it is still there. -/
structure Fate (α : Type) where
  age : α
  live : Bool
  deriving DecidableEq

namespace Fate

def newborn : Fate α := ⟨0, true⟩

def tick (lifetime dt : α) (f : Fate α) : Fate α :=
  ⟨f.age + dt, f.live && !decide (lifetime ≤ f.age + dt)⟩

end Fate

/-- The fates of all particles ever spawned, in order, after an action. -/
def Action.fates (lifetime : α) (fates : List (Fate α)) : Action α → List (Fate α)
  | .spawn => fates ++ [.newborn]
  | .tick dt => fates.map (.tick lifetime dt)
  | .reload => fates

/-- Whether an action does not turn time back. -/
def Action.Forward : Action α → Prop
  | .tick dt => 0 ≤ dt
  | _ => True

/-- Whether a call on an emitter of a configuration does not turn time back. -/
def Call.Forward (config : Config α) : Call α → Prop
  | .tick dt => 0 ≤ dt
  | .run => 0 ≤ config.tickTime
  | _ => True

theorem Call.forward_of_mem {config : Config α} {call : Call α} (forward : call.Forward config)
    {action : Action α} (member : action ∈ call.actions config) : action.Forward := by
  cases call with
  | spawn count =>
    rw [List.eq_of_mem_replicate member]
    trivial
  | tick dt =>
    rw [List.mem_singleton.mp member]
    exact forward
  | run =>
    rcases List.mem_append.mp member with burst | ticks
    · rw [List.eq_of_mem_replicate burst]
      trivial
    · rw [List.eq_of_mem_replicate ticks]
      exact forward
  | reload =>
    rw [List.mem_singleton.mp member]
    trivial

/-- Whether ages and departures follow the order of the spawns. -/
structure InOrder (fates : List (Fate α)) : Prop where
  nonneg : ∀ f ∈ fates, 0 ≤ f.age
  older : fates.Pairwise fun first second => second.age ≤ first.age ∧ (first.live → second.live)

private theorem filter_isSuffix {γ : Type} {test : γ → Bool} {items : List γ}
    (closed : items.Pairwise fun first second => test first → test second) :
    items.filter test <:+ items := by
  induction items with
  | nil => exact List.suffix_refl []
  | cons item rest ih =>
    obtain ⟨head, tail⟩ := List.pairwise_cons.mp closed
    by_cases passes : test item = true
    · rw [List.filter_cons_of_pos passes, List.filter_eq_self.mpr fun other member =>
        head other member passes]
    · rw [List.filter_cons_of_neg passes]
      exact (ih tail).trans (List.suffix_cons ..)

section Order

variable [MonotoneAdd α] {fates : List (Fate α)}

theorem InOrder.perform (order : InOrder fates) (lifetime : α) {action : Action α}
    (forward : action.Forward) : InOrder (action.fates lifetime fates) := by
  cases action with
  | spawn =>
    constructor
    · intro f member
      rcases List.mem_append.mp member with old | new
      · exact order.nonneg f old
      · rw [List.mem_singleton.mp new]
        exact MonotoneAdd.zero_le_zero
    · refine List.pairwise_append.mpr ⟨order.older, List.pairwise_singleton ..,
        fun f old g new => ?_⟩
      rw [List.mem_singleton.mp new]
      exact ⟨order.nonneg f old, fun _ => rfl⟩
  | tick dt =>
    constructor
    · intro f member
      obtain ⟨old, present, rfl⟩ := List.mem_map.mp member
      exact MonotoneAdd.add_nonneg (order.nonneg old present) forward
    · refine List.pairwise_map.mpr (order.older.imp_of_mem fun {f g} first second both => ?_)
      have grown := MonotoneAdd.add_le_add_right (order.nonneg g second) both.1 forward
      have nonneg := MonotoneAdd.add_nonneg (order.nonneg g second) forward
      refine ⟨grown, fun stays => ?_⟩
      simp only [Fate.tick, Bool.and_eq_true, Bool.not_eq_true', decide_eq_false_iff_not] at stays ⊢
      exact ⟨both.2 stays.1, fun expired => stays.2 (MonotoneAdd.le_trans nonneg expired grown)⟩
  | reload => exact order

theorem InOrder.performAll (order : InOrder fates) (lifetime : α) {actions : List (Action α)}
    (forward : ∀ action ∈ actions, action.Forward) :
    InOrder (actions.foldl (Action.fates lifetime) fates) := by
  induction actions generalizing fates with
  | nil => exact order
  | cons action rest ih =>
    obtain ⟨own, others⟩ := List.forall_mem_cons.mp forward
    exact ih (order.perform lifetime own) others

end Order

section Batch

variable {fates : List (Fate α)} {first count : Nat}

/-- Whether the particles that were spawned from a place in the
count on, up to a number, share one fate. -/
def Alike (first count : Nat) (fates : List (Fate α)) : Prop :=
  ∃ fate, ∀ serial, first ≤ serial → serial < first + count → fates[serial]? = some fate

theorem alike_burst (earlier : List (Fate α)) (count : Nat) :
    Alike earlier.length count (earlier ++ .replicate count .newborn) := by
  refine ⟨.newborn, fun serial after before => ?_⟩
  rw [List.getElem?_append_right after, List.getElem?_replicate_of_lt (by omega)]

theorem Alike.perform (alike : Alike first count fates) (lifetime : α) (action : Action α) :
    Alike first count (action.fates lifetime fates) := by
  obtain ⟨fate, same⟩ := alike
  cases action with
  | spawn =>
    refine ⟨fate, fun serial after before => ?_⟩
    have found := same serial after before
    rw [Action.fates, List.getElem?_append_left (List.getElem?_eq_some_iff.mp found).1, found]
  | tick dt =>
    refine ⟨fate.tick lifetime dt, fun serial after before => ?_⟩
    rw [Action.fates, List.getElem?_map, same serial after before, Option.map_some]
  | reload => exact ⟨fate, same⟩

theorem Alike.performAll (alike : Alike first count fates) (lifetime : α)
    (actions : List (Action α)) :
    Alike first count (actions.foldl (Action.fates lifetime) fates) := by
  induction actions generalizing fates with
  | nil => exact alike
  | cons action rest ih => exact ih (alike.perform lifetime action)

omit [Scalar α] in
private theorem Alike.filter_live (alike : Alike 0 fates.length fates) :
    fates.zipIdx.filter (·.1.live) = fates.zipIdx ∨ fates.zipIdx.filter (·.1.live) = [] := by
  obtain ⟨fate, same⟩ := alike
  have one (f : Fate α × Nat) (member : f ∈ fates.zipIdx) : f.1 = fate := by
    have found := List.mem_zipIdx_iff_getElem?.mp member
    rw [same f.2 (Nat.zero_le _)
      (by have := (List.getElem?_eq_some_iff.mp found).1; omega)] at found
    exact (Option.some.inj found).symm
  by_cases stays : fate.live = true
  · exact .inl (List.filter_eq_self.mpr fun f member => by rw [one f member, stays])
  · exact .inr (List.filter_eq_nil_iff.mpr fun f member => by rwa [one f member])

theorem length_fates (lifetime : α) (actions : List (Action α)) :
    (actions.foldl (Action.fates lifetime) fates).length =
      fates.length + (actions.map Action.spawned).sum := by
  induction actions generalizing fates with
  | nil => rfl
  | cons action rest ih =>
    have own : (action.fates lifetime fates).length = fates.length + action.spawned := by
      cases action <;> simp [Action.fates, Action.spawned]
    rw [List.foldl_cons, ih, own, List.map_cons, List.sum_cons, Nat.add_assoc]

theorem fates_burst (lifetime : α) (count : Nat) :
    (List.replicate count .spawn).foldl (Action.fates lifetime) fates =
      fates ++ .replicate count .newborn := by
  induction count generalizing fates with
  | zero => exact (List.append_nil _).symm
  | succ count ih =>
    rw [List.replicate_succ, List.foldl_cons, ih, Action.fates, List.append_assoc,
      List.replicate_succ]
    rfl

end Batch

/-- The fates of all particles that calls on a new emitter spawn. -/
def Call.fates (config : Config α) (calls : List (Call α)) : List (Fate α) :=
  (calls.flatMap (actions config)).foldl (Action.fates config.lifetime) []

private theorem Call.fates_inOrder [MonotoneAdd α] {config : Config α} {calls : List (Call α)}
    (forward : ∀ call ∈ calls, call.Forward config) : InOrder (fates config calls) := by
  refine InOrder.performAll ⟨by simp, .nil⟩ config.lifetime fun action member => ?_
  obtain ⟨call, asked, own⟩ := List.mem_flatMap.mp member
  exact forward_of_mem (forward call asked) own

theorem Call.length_fates (config : Config α) (calls : List (Call α)) :
    (fates config calls).length = (calls.map (spawned config)).sum := by
  rw [fates, ParticleSystem.length_fates, sum_spawned_flatMap, List.length_nil, Nat.zero_add]

private theorem Call.alike_fates (config : Config α) (earlier later : List (Call α))
    (count : UInt32) :
    Alike (earlier.map (spawned config)).sum count.toNat
      (fates config (earlier ++ .spawn count :: later)) := by
  rw [fates, List.flatMap_append, List.foldl_append, List.flatMap_cons, List.foldl_append,
    actions, fates_burst, ← length_fates]
  exact (alike_burst _ _).performAll ..

private theorem Call.alike_fates_run (config : Config α) :
    Alike 0 config.particleCount.toNat (fates config [.run]) := by
  rw [fates, List.flatMap_singleton, actions, List.foldl_append, fates_burst]
  exact (alike_burst [] _).performAll ..

/-- What time does to an entry: its lifetime, its age and its place in the count. -/
def Entry.outline (entry : Entry α) : α × α × Option Nat :=
  (entry.1.particle.lifetime, entry.1.particle.age, entry.2.map (·.serial.toNat))

private theorem Entry.Advanced.outline_eq {config : Config α} {time dt : α} {old new : Entry α}
    (advanced : Entry.Advanced config time dt old new) :
    new.outline = (old.outline.1, old.outline.2.1 + dt, old.outline.2.2) := by
  obtain ⟨stream, particle, ran, rfl⟩ := advanced
  have same := config.boundModules.runUpdate_sameMake (config.updateContext time dt)
    old.1.particle stream
  rw [← ran] at same
  simp [outline, Particle.integrate, same.lifetime_eq, same.age_eq, Function.comp_def,
    ParticleStats.serial_tally]

namespace Emitter

variable [Layout α β]

/-- Whether the particles of an emitter are those that fates say
are there, each with the age they say. -/
structure Told (fates : List (Fate α)) (e : Emitter α β) : Prop where
  consistent : e.Consistent
  bound : e.Bound
  spawned_eq : e.spawned.toNat = fates.length
  entries_eq : e.entries.map Entry.outline =
    (fates.zipIdx.filter (·.1.live)).map fun fate => (e.config.lifetime, fate.1.age, some fate.2)

variable {fates : List (Fate α)} {e after : Emitter α β}

theorem told_ofConfig (config : Config α) : Told [] (ofConfig config : Emitter α β) :=
  ⟨consistent_ofConfig config, bound_ofConfig config, rfl, rfl⟩

omit [Scalar α] in
/-- Whether the particle of a place in the count is live. -/
def Lives (e : Emitter α β) (serial : Nat) : Prop :=
  ∃ i stats, e.stats? i = some stats ∧ stats.serial.toNat = serial

omit [Scalar α] in
/-- The live fates, with their places in the count, are those of the particles in order. -/
theorem Told.getElem?_eq (told : Told fates e) (i : Nat) :
    (e.particles[i]?.map fun live => (live.particle.age, (e.stats? i).map (·.serial.toNat))) =
      (fates.zipIdx.filter (·.1.live))[i]?.map fun fate => (fate.1.age, some fate.2) := by
  have same := congrArg (fun outlines => outlines[i]?.map Prod.snd) told.entries_eq
  simp only [List.getElem?_map, entries_getElem?, Option.map_map] at same
  exact same

omit [Scalar α] in
theorem Told.fate_of_stats? (told : Told fates e) {i : Nat} {live : LiveParticle α}
    {stats : ParticleStats α} (there : e.particles[i]? = some live)
    (record : e.stats? i = some stats) :
    ∃ fate, fates[stats.serial.toNat]? = some fate ∧ fate.live = true ∧
      live.particle.age = fate.age := by
  have same := told.getElem?_eq i
  rw [there, record, Option.map_some, Option.map_some] at same
  obtain ⟨⟨fate, serial⟩, found, both⟩ := Option.map_eq_some_iff.mp same.symm
  obtain ⟨age, place⟩ := Prod.mk.inj both
  obtain rfl := Option.some.inj place
  obtain ⟨member, stays⟩ := List.mem_filter.mp (List.mem_of_getElem? found)
  exact ⟨fate, List.mk_mem_zipIdx_iff_getElem?.mp member, stays, age.symm⟩

omit [Scalar α] in
theorem Told.lives_iff (told : Told fates e) (serial : Nat) :
    e.Lives serial ↔ ∃ fate, fates[serial]? = some fate ∧ fate.live = true := by
  constructor
  · rintro ⟨i, stats, record, rfl⟩
    obtain ⟨live, there, -⟩ := Option.bind_eq_some_iff.mp record
    obtain ⟨fate, found, stays, -⟩ := told.fate_of_stats? there record
    exact ⟨fate, found, stays⟩
  · rintro ⟨fate, found, stays⟩
    have member : (fate, serial) ∈ fates.zipIdx.filter (·.1.live) :=
      List.mem_filter.mpr ⟨List.mk_mem_zipIdx_iff_getElem?.mpr found, stays⟩
    obtain ⟨i, place⟩ := List.mem_iff_getElem?.mp member
    have same := told.getElem?_eq i
    rw [place] at same
    obtain ⟨live, there, both⟩ := Option.map_eq_some_iff.mp same
    obtain ⟨stats, record, own⟩ := Option.map_eq_some_iff.mp (Prod.mk.inj both).2
    exact ⟨i, stats, record, own⟩

omit [Scalar α] in
theorem Told.size_eq (told : Told fates e) :
    (fates.zipIdx.filter (·.1.live)).length = e.particles.size := by
  rw [← length_entries, ← List.length_map Entry.outline, told.entries_eq, List.length_map]

/-- When older particles leave first, the live ones are the latest. -/
theorem Told.serial_eq (told : Told fates e) (order : InOrder fates) {i : Nat}
    (inside : i < e.particles.size) :
    ∃ stats, e.stats? i = some stats ∧
      stats.serial.toNat + e.particles.size = e.spawned.toNat + i := by
  have closed : fates.zipIdx.Pairwise fun first second => first.1.live → second.1.live := by
    have older := order.older
    rw [← List.zipIdx_map_fst 0 fates, List.pairwise_map] at older
    exact older.imp fun both => both.2
  have latest := List.suffix_iff_eq_drop.mp (filter_isSuffix closed)
  have few := told.size_eq ▸ List.length_filter_le (fun fate : Fate α × Nat =>
    fate.1.live) fates.zipIdx
  rw [told.size_eq] at latest
  rw [List.length_zipIdx, ← told.spawned_eq] at latest few
  have same := told.getElem?_eq i
  rw [latest, List.getElem?_drop, Array.getElem?_eq_getElem inside, Option.map_some] at same
  obtain ⟨⟨fate, serial⟩, found, both⟩ := Option.map_eq_some_iff.mp same.symm
  obtain ⟨stats, record, own⟩ := Option.map_eq_some_iff.mp (Prod.mk.inj both).2.symm
  rw [List.getElem?_zipIdx] at found
  obtain ⟨_, -, pair⟩ := Option.map_eq_some_iff.mp found
  have place := (Prod.mk.inj pair).2
  exact ⟨stats, record, by omega⟩

variable [LawfulLayout α β]

theorem Told.perform {action : Action α} {reports : List TickReport} (told : Told fates e)
    (done : action.perform e = .ok reports after) :
    Told (action.fates e.config.lifetime fates) after := by
  have config := Action.perform_config done
  have consistent := told.consistent.perform done
  have bound := perform_bound told.bound done
  cases action with
  | spawn =>
    obtain ⟨done, -⟩ := Action.perform_spawn_ok done
    have effect := spawnOne_ok told.consistent.side done
    obtain ⟨particle, slot, body, entries⟩ := entries_spawnOne told.consistent told.bound done
    refine ⟨consistent, bound, ?_, ?_⟩
    · rw [effect.spawned_eq, told.spawned_eq, Action.fates, List.length_append,
        List.length_singleton]
    · rw [entries, List.map_append, told.entries_eq, config, Action.fates, List.zipIdx_append,
        List.filter_append, List.map_append]
      simp [Entry.outline, body.lifetime_eq, body.age_eq, Config.seedling, Particle.default,
        Particle.ofPosition, Fate.newborn, told.spawned_eq]
  | tick dt =>
    obtain ⟨report, rfl, ticked⟩ := Action.perform_tick_ok done
    obtain ⟨lives, ledger, effect⟩ :=
      tick_effect told.consistent.side told.consistent.places_nodup ticked
    obtain ⟨moved, advanced, entries⟩ := entries_tick told.consistent told.bound ticked
    refine ⟨consistent, bound, ?_, ?_⟩
    · rw [effect.spawned_eq, told.spawned_eq, Action.fates, List.length_map]
    · let older (outline : α × α × Option Nat) := (outline.1, outline.2.1 + dt, outline.2.2)
      have outlines : (e.entries.map Entry.outline).map older = moved.map Entry.outline := by
        rw [List.map_map, ← List.forall₂_eq_eq_eq, List.forall₂_map_left_iff,
          List.forall₂_map_right_iff]
        exact advanced.imp fun old new step => step.outline_eq.symm
      have kept : after.entries.map Entry.outline =
          (moved.map Entry.outline).filter fun outline => !decide (outline.1 ≤ outline.2.1) := by
        rw [entries, List.filter_map]
        rfl
      rw [kept, ← outlines, told.entries_eq, config, Action.fates, List.zipIdx_map]
      simp [List.filter_map, Function.comp_def, Fate.tick, older, List.filter_filter, Bool.and_comm]
  | reload =>
    cases done
    exact ⟨consistent, bound, told.spawned_eq, told.entries_eq⟩

theorem Told.performAll {actions : List (Action α)} {reports : List TickReport}
    (told : Told fates e) (done : Action.performAll actions e = .ok reports after) :
    Told (actions.foldl (Action.fates e.config.lifetime) fates) after := by
  induction actions generalizing e fates reports with
  | nil =>
    cases done
    exact told
  | cons action rest ih =>
    obtain ⟨own, middle, others, first, later, rfl⟩ := Action.performAll_cons_ok done
    rw [List.foldl_cons, ← Action.perform_config first]
    exact ih (Action.perform_config first ▸ told.perform first) later

theorem told_ofCalls {config : Config α} {calls : List (Call α)} {answers : List (Answer α)}
    (done : Call.performAll calls (ofConfig config) = .ok answers e) :
    Told (Call.fates config calls) e := by
  obtain ⟨reports, performed, -⟩ := Call.performAll_ok done
  exact (told_ofConfig config).performAll performed

section Batches

variable {config : Config α}

private theorem burst_alike {earlier later : List (Call α)} {count : UInt32}
    {answers : List (Answer α)}
    (done : Call.performAll (earlier ++ .spawn count :: later) (ofConfig config) = .ok answers e) :
    let first := (earlier.map (Call.spawned config)).sum
    let batch (serial : Nat) := first ≤ serial ∧ serial < first + count.toNat
    (∃ age, ∀ i live stats, e.particles[i]? = some live → e.stats? i = some stats →
      batch stats.serial.toNat →
      live.particle.age = age) ∧
    ∀ one other, batch one → batch other → (e.Lives one ↔ e.Lives other) := by
  intro first batch
  have told := told_ofCalls done
  obtain ⟨fate, same⟩ := Call.alike_fates config earlier later count
  refine ⟨⟨fate.age, fun i live stats there record own => ?_⟩, fun one other own too => ?_⟩
  · obtain ⟨mine, found, -, age⟩ := told.fate_of_stats? there record
    rw [same _ own.1 own.2] at found
    rw [age, Option.some.inj found]
  · rw [told.lives_iff, told.lives_iff, same one own.1 own.2, same other too.1 too.2]

theorem run_all_or_none {summary : RunSummary α} (done : run (ofConfig config) = .ok summary e) :
    summary.alive = 0 ∧ summary.expired = config.particleCount.toNat ∨
      summary.alive = config.particleCount.toNat ∧ summary.expired = 0 := by
  have asked : Call.performAll [.run] (ofConfig config) = .ok [.ran summary] e :=
    bind_of_ok (bind_of_ok done)
  have alike := Call.alike_fates_run config
  have length := Call.length_fates config [.run]
  have told := told_ofCalls asked
  obtain ⟨middle, reports, -, -, -, -, spawned, -, -, alive⟩ := run_ok done
  have balance := (conserved_ofCalls (show Call.performAll [] (ofConfig config) =
    .ok [] _ from rfl)).run done
  rw [spawned] at balance
  change summary.alive + summary.expired = 0 + config.particleCount.toNat at balance
  change _ = config.particleCount.toNat at length
  rw [← length] at alike
  have size := told.size_eq
  rcases alike.filter_live with all | none
  · rw [all, List.length_zipIdx, length, ← alive] at size
    exact .inr ⟨size.symm, by omega⟩
  · rw [none, List.length_nil, ← alive] at size
    exact .inl ⟨size.symm, by omega⟩

end Batches

/-- As long as time moves forward the live particles are the latest in the count. Particles of one
burst have one age for as long as they live, and are all live or all gone. So a run ends with all of
its particles or with none. -/
theorem particles_expire_in_batches [MonotoneAdd α] (config : Config α) :
    (∀ calls answers (e : Emitter α β), (∀ call ∈ calls, call.Forward config) →
      Call.performAll calls (ofConfig config) = .ok answers e →
      ∀ i < e.particles.size, ∃ stats, e.stats? i = some stats ∧
        stats.serial.toNat + e.particles.size = e.spawned.toNat + i) ∧
    (∀ earlier count later answers (e : Emitter α β),
      Call.performAll (earlier ++ .spawn count :: later) (ofConfig config) = .ok answers e →
      let first := (earlier.map (Call.spawned config)).sum
      let batch (serial : Nat) := first ≤ serial ∧ serial < first + count.toNat
      (∃ age, ∀ i live stats, e.particles[i]? = some live → e.stats? i = some stats →
        batch stats.serial.toNat →
        live.particle.age = age) ∧
      ∀ one other, batch one → batch other → (e.Lives one ↔ e.Lives other)) ∧
    ∀ summary (e : Emitter α β), run (ofConfig config) = .ok summary e →
      summary.alive = 0 ∧ summary.expired = config.particleCount.toNat ∨
        summary.alive = config.particleCount.toNat ∧ summary.expired = 0 :=
  ⟨fun _ _ _ forward done _ => (told_ofCalls done).serial_eq (Call.fates_inOrder forward),
    fun _ _ _ _ _ => burst_alike, fun _ _ => run_all_or_none⟩

/-- Of two bursts the first expires, both of its particles at once, and the second stays. -/
theorem first_burst_expires_alone :
    let config : Config Float32 :=
      { Config.default with lifetime := 1, modules := .ofModules [] [] }
    let calls : List (Call Float32) := [.spawn 2, .tick 0.75, .spawn 1, .tick 0.5]
    ∃ answers, ∃ e : Emitter Float32 UInt8, Call.performAll calls (ofConfig config) =
      .ok answers e ∧
      (∀ call ∈ calls, call.Forward config) ∧ e.particles.size = 1 ∧
      (∃ stats, e.stats? 0 = some stats ∧ stats.serial.toNat = 2) ∧ (e.Lives 0 ↔ e.Lives 1) := by
  intro config calls
  have forward : ∀ call ∈ calls, call.Forward config := by
    have late : (0 : Float32) ≤ 0.75 := by decide +kernel
    have later : (0 : Float32) ≤ 0.5 := by decide +kernel
    simp only [calls, List.forall_mem_cons]
    exact ⟨trivial, late, trivial, later, List.forall_mem_nil _⟩
  have counts : (match Call.performAll calls (ofConfig config : Emitter Float32 UInt8) with
    | .ok _ e => (e.particles.size, e.spawned)
    | .error _ _ => (0, 0)) = (1, 3) := by decide +kernel
  obtain ⟨latest, batches, -⟩ := particles_expire_in_batches (α := Float32) (β := UInt8) config
  cases ran : Call.performAll calls (ofConfig config : Emitter Float32 UInt8) with
  | error fault left =>
    rw [ran] at counts
    cases counts
  | ok answers e =>
    rw [ran] at counts
    obtain ⟨size, spawned⟩ : e.particles.size = 1 ∧ e.spawned = 3 := Prod.mk.inj counts
    obtain ⟨stats, found, serial⟩ := latest calls answers e forward ran 0 (by omega)
    rw [size, spawned] at serial
    have burst := (batches [] 2 [.tick 0.75, .spawn 1, .tick 0.5] answers e ran).2 0 1
      (by decide) (by decide)
    exact ⟨answers, e, rfl, forward, size, ⟨stats, found, Nat.succ.inj serial⟩, burst⟩

end Emitter

end ParticleSystem
