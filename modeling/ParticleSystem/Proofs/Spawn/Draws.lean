import ParticleSystem.Proofs.Spawn.Frame
import Mathlib

/-!
What spawn modules draw. Every module takes a number of draws that is known before it runs: from its
bindings, from its own numbers and from where the new particle is. What it makes of a particle
depends on these draws and on no others.
-/

namespace ParticleSystem

variable {α : Type}

/-- The draws of an optional entry: only a random range draws. -/
def Distribution.drawsOf : Option (Distribution α) → Nat
  | some (.random _) => 1
  | some (.curve _) => 0
  | none => 0

def ScalarValue.draws (v : ScalarValue α) : Nat := Distribution.drawsOf v.bound

/-- One for each component that is bound to a random range. -/
def VectorValue.draws (v : VectorValue α) : Nat :=
  Distribution.drawsOf v.bound.x + (Distribution.drawsOf v.bound.y + Distribution.drawsOf v.bound.z)

variable [Scalar α]

/-- The draws of a module for a particle at a given place. -/
def SpawnModule.draws (position : Vec3 α) : SpawnModule α → Nat
  | .directed m => m.strength.draws + m.direction.draws
  | .sector m => if m.direction.normalizeOr .zero == Vec3.zero then 0 else 1 + m.strength.draws
  | .cone m => if m.direction.nearZero then 0 else 2 + m.strength.draws
  | .sphere m => 2 + m.strength.draws
  | .focus m => if 0 < (m.centre - position).length then m.rate.draws else 0
  | .orientation m => m.spinRate.draws + m.angle.draws

/-- The draws of all spawn modules of a stack. -/
def Stack.draws (s : Stack α) (position : Vec3 α) : Nat := (s.spawn.map (·.draws position)).sum

variable (α) in
/-- Whether the next numbers of two streams are the same, up to a number of draws. -/
def RandomStream.SameDraws (draws : Nat) (first second : RandomStream) : Prop :=
  ∀ i < draws, ((second.drop i).peek : α) = (first.drop i).peek

theorem RandomStream.SameDraws.take {first second : RandomStream} {early late : Nat}
    (same : SameDraws α (early + late) first second) : SameDraws α early first second :=
  fun i below => same i (Nat.lt_add_right late below)

theorem RandomStream.SameDraws.drop {first second : RandomStream} {early late : Nat}
    (same : SameDraws α (early + late) first second) :
    SameDraws α late (first.drop early) (second.drop early) := by
  intro i below
  rw [← drop_add, ← drop_add]
  exact same (early + i) (Nat.add_lt_add_left below early)

/-- Sampling that takes a number of draws when it succeeds, and
depends on the stream through these alone. -/
def Sampling.Takes {γ : Type} (draws : Nat) (x : Sampling γ) : Prop :=
  ∀ stream value left, x stream = .ok value left → left = stream.drop draws ∧
    ∀ other, RandomStream.SameDraws α draws stream other → x other = .ok value (other.drop draws)

namespace Sampling.Takes

variable {γ δ : Type} {early late : Nat}

theorem pure (value : γ) : Takes (α := α) 0 (Pure.pure value : Sampling γ) := by
  intro stream found left done
  cases done
  exact ⟨rfl, fun _ _ => rfl⟩

theorem bind {x : Sampling γ} {f : γ → Sampling δ} (first : Takes (α := α) early x)
    (second : ∀ value, Takes (α := α) late (f value)) : Takes (α :=
  α) (early + late) (x >>= f) := by
  intro stream answer left done
  obtain ⟨value, middle, begun, rest⟩ := bind_eq_ok done
  obtain ⟨rfl, again⟩ := first stream value middle begun
  obtain ⟨rfl, follows⟩ := second value _ answer left rest
  refine ⟨(stream.drop_add early late).symm, fun other same => ?_⟩
  rw [bind_of_ok (again other same.take), RandomStream.drop_add]
  exact follows _ same.drop

theorem tickOr (entry : Option (Distribution α)) (base : α) (clock : Clock α)
    (particle : Particle α) : Takes (α := α) (Distribution.drawsOf entry)
      (Distribution.tickOr entry base clock particle) := by
  match entry with
  | none => exact .pure base
  | some (.random range) =>
    intro stream value left done
    cases done
    refine ⟨rfl, fun other same => ?_⟩
    have drawn : (other.peek : α) = stream.peek := same 0 Nat.one_pos
    simp only [Distribution.tickOr, Distribution.tick, drawn]
    rfl
  | some (.curve curve) =>
    intro stream value left done
    simp only [Distribution.tickOr, Distribution.tick] at done ⊢
    cases sampled : curve.sample (curve.axis.share clock particle) with
    | error fault =>
      rw [sampled] at done
      cases done
    | ok found =>
      rw [sampled] at done
      cases done
      exact ⟨rfl, fun _ _ => rfl⟩

theorem scalar (v : ScalarValue α) (clock : Clock α) (particle : Particle α) :
    Takes (α := α) v.draws (v.tick clock particle) := tickOr v.bound v.base clock particle

theorem vector (v : VectorValue α) (clock : Clock α) (particle : Particle α) :
    Takes (α := α) v.draws (v.tick clock particle) :=
  .bind (tickOr _ _ clock particle) fun _ => .bind (tickOr _ _ clock particle) fun _ =>
    .bind (tickOr _ _ clock particle) fun _ => .pure _

end Sampling.Takes

/-- Work that takes a number of draws when it succeeds for a newborn of a given body. It leaves the
body alone, and what it makes of the particle depends on the stream through these draws alone. -/
def Spawning.Takes (body : Particle α) (draws : Nat) {γ : Type} (x : Spawning α γ) : Prop :=
  ∀ particle stream value after, body.SameBody particle → x ⟨particle, stream⟩ = .ok value after →
    body.SameBody after.particle ∧ after.stream = stream.drop draws ∧
      ∀ other, RandomStream.SameDraws α draws stream other →
        x ⟨particle, other⟩ = .ok value ⟨after.particle, other.drop draws⟩

namespace Spawning.Takes

variable {body : Particle α} {γ δ : Type} {early late : Nat}

theorem pure (value : γ) : Takes body 0 (Pure.pure value : Spawning α γ) := by
  intro particle stream found after same done
  cases done
  exact ⟨same, rfl, fun _ _ => rfl⟩

theorem bind {x : Spawning α γ} {f : γ → Spawning α δ} (first : Takes body early x)
    (second : ∀ value, Takes body late (f value)) : Takes body (early + late) (x >>= f) := by
  intro particle stream answer after same done
  obtain ⟨value, ⟨middle, left⟩, begun, rest⟩ := bind_eq_ok done
  obtain ⟨kept, rfl, again⟩ := first particle stream value _ same begun
  obtain ⟨own, drawn, follows⟩ := second value middle _ answer after kept rest
  refine ⟨own, drawn.trans (stream.drop_add early late).symm, fun other alike => ?_⟩
  rw [bind_of_ok (again other alike.take), RandomStream.drop_add]
  exact follows _ alike.drop

theorem finish {x : Spawning α γ} {f : γ → Spawning α δ} (first : Takes body early x)
    (last : ∀ value, Takes body 0 (f value)) : Takes body early (x >>= f) := first.bind last

theorem read {f : Particle α → Spawning α γ}
    (each : ∀ particle, body.SameBody particle → Takes body early (f particle)) :
    Takes body early (MonadState.get >>= fun newborn => f newborn.particle) :=
  fun particle stream value after same done =>
    each particle same particle stream value after same done

theorem ite {test : Prop} [Decidable test] {x y : Spawning α γ} (yes : Takes body early x)
    (no : Takes body late y) :
    Takes body (if test then early else late) (if test then x else y) := by
  split
  · exact yes
  · exact no

theorem uniform : Takes body 1 (uniform : Spawning α α) := by
  intro particle stream value after same done
  cases done
  refine ⟨same, rfl, fun other alike => ?_⟩
  have drawn : (other.peek : α) = stream.peek := alike 0 Nat.one_pos
  simp only [Spawning.uniform, drawn]
  rfl

theorem write {f : Particle α → Particle α} (moves : ∀ p : Particle α, p.SameBody (f p)) :
    Takes body 0 (write f) := by
  intro particle stream value after same done
  cases done
  exact ⟨same.trans (moves particle), rfl, fun _ _ => rfl⟩

theorem setVelocity (velocity : Vec3 α) : Takes body 0 (setVelocity velocity) :=
  .write fun _ => ⟨rfl, rfl, rfl, rfl, rfl, rfl, rfl, rfl⟩

theorem sample {tick : Clock α → Particle α → Sampling γ} (context : SpawnContext α)
    (each : ∀ particle, Sampling.Takes (α := α) early (tick context.clock particle)) :
    Takes body early (sample tick context) := by
  intro particle stream value after same done
  simp only [Spawning.sample] at done ⊢
  cases sampled : tick context.clock particle stream with
  | error fault left =>
    rw [sampled] at done
    cases done
  | ok found left =>
    rw [sampled] at done
    cases done
    obtain ⟨rfl, again⟩ := each particle stream value left sampled
    refine ⟨same, rfl, fun other alike => ?_⟩
    rw [again other alike]

theorem scalar (v : ScalarValue α) (context : SpawnContext α) :
    Takes body v.draws (Spawning.sample v.tick context) :=
  .sample context (.scalar v _)

theorem vector (v : VectorValue α) (context : SpawnContext α) :
    Takes body v.draws (Spawning.sample v.tick context) :=
  .sample context (.vector v _)

theorem forM {items : List γ} {f : γ → Spawning α Unit} {draws : γ → Nat}
    (each : ∀ item, Takes body (draws item) (f item)) :
    Takes body (items.map draws).sum (items.forM f) := by
  induction items with
  | nil => exact .pure ()
  | cons item rest ih => exact .bind (each item) fun _ => ih

end Spawning.Takes

section Modules

variable {body : Particle α} (context : SpawnContext α)

open Spawning Takes

theorem SpawnModule.takes (m : SpawnModule α) :
    Takes body (m.draws body.position) (m.execute context) := by
  cases m with
  | directed m =>
    exact .bind (scalar m.strength context) fun _ => .finish (vector m.direction context) fun _ =>
      .setVelocity _
  | sector m =>
    exact .ite (.setVelocity _) (.bind .uniform fun _ => .finish (scalar m.strength context)
      fun _ => .setVelocity _)
  | cone m =>
    rw [draws, Nat.add_assoc 1 1]
    exact .ite (.setVelocity _) (.bind .uniform fun _ => .bind .uniform fun _ =>
      .finish (scalar m.strength context) fun _ => .setVelocity _)
  | sphere m =>
    rw [draws, Nat.add_assoc 1 1]
    exact .bind .uniform fun _ => .bind .uniform fun _ => .finish (scalar m.strength context)
      fun _ => .setVelocity _
  | focus m =>
    refine .read (f := fun particle => if 0 < (m.centre - particle.position).length then
      Spawning.sample m.rate.tick context >>= fun rate =>
        Spawning.setVelocity ((m.centre - particle.position) /
          (m.centre - particle.position).length * rate)
      else pure ()) fun particle same => ?_
    rw [draws, same.position_eq]
    exact .ite (.finish (scalar m.rate context) fun _ => .setVelocity _) (.pure ())
  | orientation m =>
    rw [draws, ← Nat.zero_add m.angle.draws]
    exact .bind (scalar m.spinRate context) fun _ =>
      .bind (.write fun _ => ⟨rfl, rfl, rfl, rfl, rfl, rfl, rfl, rfl⟩) fun _ =>
        .finish (scalar m.angle context) fun _ => .write fun _ =>
          ⟨rfl, rfl, rfl, rfl, rfl, rfl, rfl, rfl⟩

/-- The modules of a stack draw one after another, at the place where the particle is. -/
theorem Stack.takes_runSpawn (s : Stack α) :
    Takes body (s.draws body.position) (s.runSpawn context) :=
  .forM fun m => m.takes context

/-- A stack leaves the body of a newborn alone and takes its draws, whatever it was bound to. -/
theorem Stack.spawnParticle_takes {s : Stack α} {particle : Particle α} {stream : RandomStream}
    {after : Newborn α} (done : s.spawnParticle context ⟨particle, stream⟩ = .ok () after) :
    particle.SameBody after.particle ∧ after.stream = stream.drop (s.draws particle.position) ∧
      ∀ other, RandomStream.SameDraws α (s.draws particle.position) stream other →
        s.spawnParticle context ⟨particle, other⟩ =
          .ok () ⟨after.particle, other.drop (s.draws particle.position)⟩ := by
  obtain ⟨spawn, update, bound⟩ := s
  cases bound with
  | false => cases done
  | true =>
    simp only [spawnParticle, ↓reduceIte] at done ⊢
    cases ran : runSpawn ⟨spawn, update, true⟩ context ⟨particle, stream⟩ with
    | error fault left => simp [ran] at done
    | ok value left =>
      simp only [ran] at done
      cases done
      obtain ⟨body, drawn, again⟩ :=
        takes_runSpawn context _ particle stream () _ (.refl particle) ran
      refine ⟨body, drawn, fun other alike => ?_⟩
      simp only [again other alike]

end Modules

end ParticleSystem
