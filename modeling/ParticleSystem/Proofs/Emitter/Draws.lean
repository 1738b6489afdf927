import ParticleSystem.Proofs.Collision.Frame
import ParticleSystem.Proofs.Emitter.Particles
import ParticleSystem.Proofs.Spawn.Draws
import ParticleSystem.Scalar.Single

namespace ParticleSystem

variable {α β : Type} [Scalar α]

def Config.draws (config : Config α) : Nat := config.boundModules.draws config.seedling.position

/-- Whether the update modules draw nothing, whatever particle a tick meets. -/
def Config.DrawlessTicks (config : Config α) : Prop :=
  ∀ time dt particle stream,
    (config.boundModules.runUpdate (config.updateContext time dt) particle stream).2 = stream

theorem Config.drawlessTicks_of_exactBounces {config : Config α}
    (exact : config.modules.ExactBounces) : config.DrawlessTicks := by
  intro time dt particle stream
  have drawless : Drawless
      (config.boundModules.runUpdate (config.updateContext time dt) particle) :=
    Stack.drawless_runUpdate exact ..
  rw [drawless.apply_eq stream stream]

namespace Emitter

variable [Layout α β] {e after : Emitter α β}

/-- A spawn takes the draws of a new particle. With another stream that holds the same draws it
makes the same particle, and nothing else of the emitter tells the streams apart. -/
theorem spawnOne_draws (bound : e.Bound) (done : spawnOne e = .ok () after) :
    after.random = e.random.drop e.config.draws ∧
      ∀ other, RandomStream.SameDraws α e.config.draws e.random other →
        spawnOne { e with random := other } =
          .ok () { after with random := other.drop e.config.draws } := by
  obtain ⟨newborn, slot, pool, ran, stored, room, rfl⟩ := spawnOne_iff.mp done
  obtain ⟨-, drawn, again⟩ := Stack.spawnParticle_takes _ ran
  have count : e.modules.draws e.seedling.position = e.config.draws := by
    rw [bound]
    rfl
  rw [count] at drawn again
  exact ⟨drawn, fun other alike => spawnOne_iff.mpr ⟨_, slot, pool, again other alike,
    stored, room, rfl⟩⟩

private theorem tick_random {dt : α} {report : TickReport} (bound : e.Bound)
    (drawless : e.config.DrawlessTicks) (done : tick dt e = .ok report after) :
    after.random = e.random := by
  obtain ⟨lives, ledger, pool, all, -, -, rfl⟩ := tick_iff.mp done
  unfold updateAll at all
  rw [bound] at all
  have kept (start : Ledger β) {items nexts : List (LiveParticle α)} {left : Ledger β}
      (done : items.mapM (advance e.config.boundModules (e.updateContext dt) e.time) start =
        .ok nexts left) :
      left.random = start.random := by
    induction items generalizing start nexts with
    | nil =>
      cases done
      rfl
    | cons live rest ih =>
      obtain ⟨next, middle, others, first, later, -⟩ := mapM_cons_eq_ok done
      exact (ih middle later).trans ((advance_moved first).2.trans (drawless e.time dt ..))
  exact kept _ all

/-- Whether no tick of a history moves the random stream on. -/
def TicksDrawless (actions : List (Action α)) (e : Emitter α β) : Prop :=
  ∀ earlier dt later, actions = earlier ++ .tick dt :: later → ∀ reports before report after,
    Action.performAll earlier e = .ok reports before → tick dt before = .ok report after →
      after.random = before.random

namespace TicksDrawless

variable {reports : List TickReport} {earlier later : List (Action α)}

theorem left (drawless : TicksDrawless (earlier ++ later) e) : TicksDrawless earlier e := by
  rintro first dt rest rfl
  exact drawless first dt (rest ++ later) (by rw [List.append_assoc, List.cons_append])

theorem tail {action : Action α} (drawless : TicksDrawless (action :: later) e)
    (first : action.perform e = .ok reports after) : TicksDrawless later after := by
  rintro earlier dt rest rfl more before report left begun ticked
  exact drawless (action :: earlier) dt rest rfl _ before report left
    (Action.performAll_cons first begun) ticked

private theorem of_config {config : Config α} (drawless : config.DrawlessTicks)
    (actions : List (Action α)) : TicksDrawless actions (ofConfig config : Emitter α β) := by
  intro earlier dt later _ reports before report left begun ticked
  have bound := performAll_bound (bound_ofConfig config) begun
  have own : before.config = config := Action.performAll_config begun
  exact tick_random bound (own ▸ drawless) ticked

end TicksDrawless

/-- Whether a number of particles was spawned and their draws, and no
others, were taken from the seed's stream. -/
structure Shared (count : Nat) (e : Emitter α β) : Prop where
  bound : e.Bound
  spawned_eq : e.spawned.toNat = count
  random_eq : e.random = (RandomStream.ofSeed e.config.seed).drop (count * e.config.draws)

theorem Shared.spawnOne {count : Nat} (shared : Shared count e) (done : spawnOne e = .ok () after) :
    Shared (count + 1) after := by
  obtain ⟨drawn, -⟩ := spawnOne_draws shared.bound done
  obtain ⟨newborn, slot, pool, -, -, room, rfl⟩ := spawnOne_iff.mp done
  refine ⟨shared.bound, ?_, ?_⟩
  · rw [UInt32.toNat_add, ← shared.spawned_eq]
    exact Nat.mod_eq_of_lt room
  · rw [drawn, shared.random_eq, ← RandomStream.drop_add, Nat.succ_mul]

theorem Shared.performAll {count : Nat} {actions : List (Action α)} {reports : List TickReport}
    (shared : Shared count e) (drawless : TicksDrawless actions e)
    (done : Action.performAll actions e = .ok reports after) :
    Shared (count + (actions.map Action.spawned).sum) after := by
  induction actions generalizing e count reports with
  | nil =>
    cases done
    exact shared
  | cons action rest ih =>
    obtain ⟨own, middle, others, first, later, rfl⟩ := Action.performAll_cons_ok done
    rw [List.map_cons, List.sum_cons, ← Nat.add_assoc]
    refine ih ?_ (drawless.tail first) later
    cases action with
    | spawn => exact shared.spawnOne (Action.perform_spawn_ok first).1
    | tick dt =>
      obtain ⟨report, -, ticked⟩ := Action.perform_tick_ok first
      have kept := drawless [] dt rest rfl [] e report middle rfl ticked
      obtain ⟨_, _, _, -, -, -, rfl⟩ := tick_iff.mp ticked
      exact ⟨shared.bound, shared.spawned_eq, kept.trans shared.random_eq⟩
    | reload =>
      have bound := perform_bound shared.bound first
      cases first
      exact ⟨bound, shared.spawned_eq, shared.random_eq⟩

private theorem Shared.spawnOne_congr {count : Nat} (shared : Shared count e)
    (done : Emitter.spawnOne e = .ok () after)
    {other : RandomStream}
    (same : ∀ i < e.config.draws, ((other.drop i).peek : α) =
      ((RandomStream.ofSeed e.config.seed).drop (count * e.config.draws + i)).peek) :
    Emitter.spawnOne { e with random := other } =
      .ok () { after with random := other.drop e.config.draws } := by
  refine (spawnOne_draws shared.bound done).2 other fun i below => ?_
  rw [shared.random_eq, ← RandomStream.drop_add]
  exact same i below

/-- A stack that is done with a newborn has left its body alone and has taken the draws of its
modules, each of them counted before it ran. So each new particle of an emitter takes as many draws
as any other. As long as ticks draw nothing, as they do when no update module draws, each is made
from the next numbers of the seed's sequence: the stream is at its first number before the spawn and
behind its last number afterwards, and what else the stream may hold makes no difference. -/
theorem particles_draw_in_turn :
    (∀ (s : Stack α) (context : SpawnContext α) (newborn after : Newborn α),
      s.spawnParticle context newborn = .ok () after →
        newborn.particle.SameBody after.particle ∧
          after.stream = newborn.stream.drop (s.draws newborn.particle.position)) ∧
    ∀ (config : Config α) (calls : List (Call α)) (answers : List (Answer α)) (e : Emitter α β),
      Call.performAll calls (ofConfig config) = .ok answers e →
      let actions := calls.flatMap (Call.actions config)
      let seeded := RandomStream.ofSeed config.seed
      (config.DrawlessTicks → TicksDrawless actions (ofConfig config : Emitter α β)) ∧
      (TicksDrawless actions (ofConfig config : Emitter α β) →
        ∀ earlier later, actions = earlier ++ .spawn :: later →
        let k := (earlier.map Action.spawned).sum
        ∃ reports before after live, Action.performAll earlier (ofConfig config : Emitter α β) =
          .ok reports before ∧
          before.spawned.toNat = k ∧ spawnOne before = .ok () after ∧
          after.particles = before.particles.push live ∧
          before.random = seeded.drop (k * config.draws) ∧
          after.random = seeded.drop ((k + 1) * config.draws) ∧
          ∀ other : RandomStream,
            (∀ i < config.draws, ((other.drop i).peek : α) =
              (seeded.drop (k * config.draws + i)).peek) →
            spawnOne { before with random := other } =
              .ok () { after with random := other.drop config.draws }) := by
  refine ⟨fun s context newborn after done => ?_, fun config calls answers e done => ⟨?_, ?_⟩⟩
  · obtain ⟨body, drawn, -⟩ := s.spawnParticle_takes context done
    exact ⟨body, drawn⟩
  · exact fun drawless => .of_config drawless _
  · intro drawless earlier later split k
    obtain ⟨reports, performed, -⟩ := Call.performAll_ok done
    change Action.performAll (calls.flatMap (Call.actions config)) _ = _ at performed
    rw [split] at performed drawless
    obtain ⟨first, before, second, begun, rest⟩ := Action.performAll_append_ok performed
    obtain ⟨own, after, others, spawned, -, -⟩ := Action.performAll_cons_ok rest
    obtain ⟨spawned, -⟩ := Action.perform_spawn_ok spawned
    have start : Shared 0 (ofConfig config : Emitter α β) :=
      ⟨bound_ofConfig config, rfl, by rw [Nat.zero_mul]; rfl⟩
    have shared := start.performAll drawless.left begun
    rw [Nat.zero_add] at shared
    have grown := shared.spawnOne spawned
    obtain ⟨kept, -, -, particle, slot, -, pushed⟩ := spawnOne_particle shared.bound spawned
    have same : before.config = config := Action.performAll_config begun
    have random := shared.random_eq
    have random' := grown.random_eq
    rw [kept, same] at random'
    rw [same] at random
    refine ⟨first, before, after, ⟨particle, slot⟩, begun, shared.spawned_eq, spawned, pushed,
      random, random', ?_⟩
    intro other alike
    rw [← same] at alike ⊢
    exact shared.spawnOne_congr spawned alike

/-- Particles of random speeds, directions and spins take three draws each; the third of them,
spawned after a tick in which the others bounced, is made from the numbers six to eight. -/
theorem particles_draw_in_turn_bouncing :
    let varied : ScalarValue Float32 := .distributed 3 ⟨.random, 0⟩
    let config : Config Float32 :=
      { Config.default with
        distributions := ⟨[⟨2, 3⟩], []⟩
        modules := .ofModules
          [.directed ⟨varied, .distributed ⟨0, 0, -1⟩ ⟨some ⟨.random, 0⟩, none, none⟩⟩,
            .orientation { Spawn.Orientation.default with spinRate := varied }]
          [.collision { Collision.default with
            plane₁ := ⟨.unitZ, ⟨0, 0, -1⟩⟩, radius := .custom 0.25 }] }
    let calls : List (Call Float32) := [.spawn 2, .tick 0.5, .spawn 1]
    let seeded := RandomStream.ofSeed config.seed
    let start : Emitter Float32 UInt8 := ofConfig config
    config.draws = 3 ∧
      (∃ after, config.boundModules.spawnParticle start.spawnContext ⟨start.seedling, seeded⟩ =
        .ok () after ∧
        after.stream = seeded.drop 3) ∧
      ∃ answers e, Call.performAll calls start = .ok answers e ∧
        ∃ reports before after live,
          Action.performAll [.spawn, .spawn, .tick 0.5] start = .ok reports before ∧
          reports = [⟨2, 0⟩] ∧
            spawnOne before = .ok () after ∧ after.particles = before.particles.push live ∧
            before.random = seeded.drop 6 ∧ after.random = seeded.drop 9 := by
  intro varied config calls seeded start
  have count : config.draws = 3 := by decide +kernel
  have exact : config.modules.ExactBounces := by
    intro m member
    cases List.mem_singleton.mp member
    decide +kernel
  obtain ⟨each, turns⟩ := particles_draw_in_turn (α := Float32) (β := UInt8)
  have made : (match config.boundModules.spawnParticle start.spawnContext
    ⟨start.seedling, seeded⟩ with
    | .ok _ _ => true
    | .error _ _ => false) = true := by decide +kernel
  have outcome : (match Call.performAll calls start with
    | .ok _ e => e.particles.size
    | .error _ _ => 0) = 3 := by decide +kernel
  have bounces : (match Action.performAll [.spawn, .spawn, .tick 0.5] start with
    | .ok reports _ => reports
    | .error _ _ => []) = [⟨2, 0⟩] := by decide +kernel
  have bounced {reports before} (done : Action.performAll [.spawn, .spawn, .tick 0.5] start =
    .ok reports before) :
      reports = [⟨2, 0⟩] := by
    rw [done] at bounces
    exact bounces
  refine ⟨count, ?_, ?_⟩
  · cases ran : config.boundModules.spawnParticle start.spawnContext ⟨start.seedling, seeded⟩ with
    | error fault left =>
      rw [ran] at made
      cases made
    | ok _ after =>
      have drawn := (each _ _ _ _ ran).2
      change after.stream = seeded.drop config.draws at drawn
      exact ⟨after, rfl, count ▸ drawn⟩
  · cases ran : Call.performAll calls start with
    | error fault left =>
      rw [ran] at outcome
      cases outcome
    | ok answers e =>
      obtain ⟨quiet, turn⟩ := turns config calls answers e ran
      obtain ⟨reports, before, after, live, begun, -, spawned, pushed, random, random', -⟩ :=
        turn (quiet (Config.drawlessTicks_of_exactBounces exact)) [.spawn, .spawn, .tick 0.5] [] rfl
      rw [count] at random random'
      exact ⟨answers, e, rfl, reports, before, after, live, begun, bounced begun, spawned, pushed,
        random, random'⟩

end Emitter

end ParticleSystem
