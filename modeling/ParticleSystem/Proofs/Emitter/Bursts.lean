import ParticleSystem.Proofs.Emitter.Calls
import ParticleSystem.Scalar.Single

namespace ParticleSystem

variable {α β : Type} [Scalar α] [Layout α β]

namespace Emitter

theorem spawn_add (first second : Nat) :
    (spawn (first + second) : EStateM EmitterFault (Emitter α β) Unit) =
      (do spawn first; spawn second) := by
  induction first with
  | zero => rw [Nat.zero_add, spawn, pure_bind]
  | succ first ih => rw [Nat.succ_add, spawn, spawn, ih, bind_assoc]

/-- What new particles are made from, apart from the random stream. -/
structure SameScene (e other : Emitter α β) : Prop where
  modules_eq : other.modules = e.modules
  spawnContext_eq : other.spawnContext = e.spawnContext
  seedling_eq : other.seedling = e.seedling
  time_eq : other.time = e.time

variable {e after : Emitter α β}

private theorem sameScene_spawnOne (done : spawnOne e = .ok () after) : SameScene e after := by
  obtain ⟨newborn, slot, pool, -, -, -, rfl⟩ := spawnOne_iff.mp done
  exact ⟨rfl, rfl, rfl, rfl⟩

private theorem sameScene_spawn {count : Nat} (done : spawn count e = .ok () after) :
    SameScene e after := by
  induction count generalizing e with
  | zero =>
    cases done
    exact ⟨rfl, rfl, rfl, rfl⟩
  | succ count ih =>
    obtain ⟨_, middle, first, rest⟩ := bind_eq_ok done
    obtain ⟨modules, context, seedling, time⟩ := sameScene_spawnOne first
    obtain ⟨modules', context', seedling', time'⟩ := ih rest
    exact ⟨modules'.trans modules, context'.trans context, seedling'.trans seedling,
      time'.trans time⟩

/-- Two bursts leave exactly the emitter that one burst of both sizes leaves, and are refused
exactly when it is, with the same fault. All along a burst particles are made from the emitter as it
was at first. An empty burst does nothing. -/
theorem bursts_compose (e : Emitter α β) :
    (∀ first second : UInt32, first.toNat + second.toNat < UInt32.size →
      (do let _ ← Call.perform (.spawn first); Call.perform (.spawn second)) e =
        Call.perform (.spawn (first + second)) e) ∧
    (∀ count middle, spawn count e = .ok () middle → SameScene e middle) ∧
    Call.perform (.spawn 0) e = .ok .done e := by
  refine ⟨fun first second room => ?_, fun count middle => sameScene_spawn, rfl⟩
  have total : (first + second).toNat = first.toNat + second.toNat := by
    rw [UInt32.toNat_add]
    exact Nat.mod_eq_of_lt room
  simp only [Call.perform, total, spawn_add, bind_assoc, pure_bind]

/-- Two particles have expired and left their slots; a burst of one and then one of two take those
slots and a new one, as a burst of three does. -/
theorem bursts_compose_reusing :
    let config : Config Float32 :=
      { Config.default with lifetime := 1, modules := .ofModules [] [] }
    let calls : List (Call Float32) := [.spawn 2, .tick 0.75, .spawn 1, .tick 0.5]
    ∃ answers e middle last, Call.performAll calls (ofConfig config : Emitter Float32 UInt8) =
      .ok answers e ∧
      e.particles.size = 1 ∧ (e.pool.find? ParticleStats.size).map RecordSet.free = some [1, 0] ∧
      (do let _ ← Call.perform (.spawn 1); Call.perform (.spawn 2)) e = .ok .done last ∧
      Call.perform (.spawn 3) e = .ok .done last ∧ last.particles.toList.map LiveParticle.slot =
        [2, 1, 0, 3] ∧
      spawn 1 e = .ok () middle ∧ SameScene e middle := by
  intro config calls
  have outcome : (match Call.performAll calls (ofConfig config : Emitter Float32 UInt8) with
    | .ok _ e => (match Call.perform (.spawn 3) e, spawn 1 e with
      | .ok .done last, .ok () _ =>
        some (e.particles.size, (e.pool.find? ParticleStats.size).map RecordSet.free,
          last.particles.toList.map LiveParticle.slot)
      | _, _ => none)
    | .error _ _ => none) = some (1, some [1, 0], [2, 1, 0, 3]) := by decide +kernel
  split at outcome
  · rename_i answers e ran
    split at outcome
    · rename_i last middle whole one
      obtain ⟨joined, scene, -⟩ := bursts_compose e
      simp only [Option.some.injEq, Prod.mk.injEq] at outcome
      obtain ⟨size, free, slots⟩ := outcome
      exact ⟨answers, e, middle, last, ran, size, free, (joined 1 2 (by decide)).trans whole,
        whole, slots, one, scene 1 middle one⟩
    · cases outcome
  · cases outcome

end Emitter

end ParticleSystem
