import ParticleSystem.Proofs.Emitter.Particles
import ParticleSystem.Proofs.Form.RoundTrip
import ParticleSystem.Proofs.Spawn.Lookup

/-!
The life of bindings. Binding goes by the references alone, so that only the table of the last
binding counts, however often a stack was bound, rebuilt or read back before; an emitter is bound to
the table of its setup for good.
-/

namespace ParticleSystem

section Unbound

variable {α : Type}

private theorem SpawnModule.unbind_bind (m : SpawnModule α) (table : DistributionTable α) :
    (m.bind table).unbind = m.unbind := by
  cases m <;> rfl

private theorem SpawnModule.bind_unbind (m : SpawnModule α) (table : DistributionTable α) :
    m.unbind.bind table = m.bind table := by
  cases m <;> rfl

theorem SpawnModule.unbind_unbind (m : SpawnModule α) : m.unbind.unbind = m.unbind := by
  cases m <;> rfl

private theorem Stack.unbind_rebind (s : Stack α) (table : DistributionTable α) :
    (s.rebind table).unbind = s.unbind := by
  simp [unbind, rebind, Function.comp_def, SpawnModule.unbind_bind]

theorem Stack.rebind_unbind (s : Stack α) (table : DistributionTable α) :
    s.unbind.rebind table = s.rebind table := by
  simp [unbind, rebind, ofModules, SpawnModule.bind_unbind]

theorem Stack.unbind_unbind (s : Stack α) : s.unbind.unbind = s.unbind := by
  simp [unbind, ofModules, SpawnModule.unbind_unbind]

theorem SpawnModule.numbers_unbind (m : SpawnModule Float32) : m.unbind.numbers = m.numbers := by
  cases m <;> rfl

theorem Stack.numbers_unbind (s : Stack Float32) : s.unbind.numbers = s.numbers := by
  simp [numbers, unbind, ofModules, List.flatMap_map, SpawnModule.numbers_unbind]

end Unbound

open Json

/-- What may happen to a stack between two uses. -/
inductive StackChange
  | rebind (table : DistributionTable Float32)
  /-- A new stack is made of its modules. -/
  | rebuild
  /-- It is written and read back. -/
  | reload

namespace StackChange

def apply (s : Stack Float32) : StackChange → Option (Stack Float32)
  | .rebind table => some (s.rebind table)
  | .rebuild => some (.ofModules s.spawn s.update)
  | .reload => reread .compact (Stack.ofJson? 0) s.toJson

/-- Makes changes in order; there is no stack left when one cannot be read back. -/
def applyAll (changes : List StackChange) (s : Stack Float32) : Option (Stack Float32) :=
  changes.foldlM apply s

def isRebind : StackChange → Bool
  | .rebind _ => true
  | _ => false

variable {s : Stack Float32}

private theorem apply_eq_some (change : StackChange)
    (exact : change = .reload → ∀ x ∈ s.numbers, ReadsBack x ∧ x.isFinite) :
    ∃ t, change.apply s = some t ∧ t.unbind = s.unbind ∧ t.bound = change.isRebind := by
  cases change with
  | rebind table => exact ⟨_, rfl, s.unbind_rebind table, rfl⟩
  | rebuild => exact ⟨_, rfl, rfl, rfl⟩
  | reload => exact ⟨_, Stack.reread_toJson Style.blank_compact (exact rfl), s.unbind_unbind, rfl⟩

theorem applyAll_eq_some {changes : List StackChange}
    (exact : .reload ∈ changes → ∀ x ∈ s.numbers, ReadsBack x ∧ x.isFinite) :
    ∃ t, applyAll changes s = some t ∧ t.unbind = s.unbind ∧
      ∀ last ∈ changes.getLast?, t.bound = last.isRebind := by
  induction changes generalizing s with
  | nil => exact ⟨s, rfl, rfl, by simp⟩
  | cons change rest ih =>
    obtain ⟨middle, first, copy, bound⟩ := change.apply_eq_some fun own =>
      exact (own ▸ List.mem_cons_self)
    have numbers : middle.numbers = s.numbers := by
      rw [← middle.numbers_unbind, copy, s.numbers_unbind]
    obtain ⟨t, later, same, final⟩ :=
      ih fun behind => numbers ▸ exact (List.mem_cons_of_mem _ behind)
    refine ⟨t, ?_, same.trans copy, fun last isLast => ?_⟩
    · rw [applyAll, List.foldlM_cons, first]
      exact later
    · cases rest with
      | nil =>
        cases isLast
        cases later
        exact bound
      | cons next rest => exact final last isLast

end StackChange

/-- The state that work leaves, whether it is done or refused. -/
def leaves {ε σ γ : Type} : EStateM.Result ε σ γ → σ
  | .ok _ state => state
  | .error _ state => state

/-- Work that keeps what holds of the state, even when it is refused. -/
def Preserves {ε σ γ : Type} (holds : σ → Prop) (x : EStateM ε σ γ) : Prop :=
  ∀ state, holds state → holds (leaves (x state))

namespace Preserves

variable {ε σ γ δ : Type} {holds : σ → Prop}

theorem pure (value : γ) : Preserves holds (Pure.pure value : EStateM ε σ γ) := fun _ own => own

theorem get : Preserves holds (MonadState.get : EStateM ε σ σ) := fun _ own => own

theorem bind {x : EStateM ε σ γ} {f : γ → EStateM ε σ δ} (first : Preserves holds x)
    (second : ∀ value, Preserves holds (f value)) : Preserves holds (x >>= f) := by
  intro state own
  have middle := first state own
  cases ran : x state with
  | ok value after =>
    rw [ran] at middle
    rw [bind_of_ok ran]
    exact second value after middle
  | error fault left =>
    rw [ran] at middle
    rwa [bind_of_error ran]

theorem mapM {f : γ → EStateM ε σ δ} (each : ∀ item, Preserves holds (f item)) (items : List γ) :
    Preserves holds (items.mapM f) := by
  induction items with
  | nil => exact .pure []
  | cons item rest ih =>
    rw [List.mapM_cons]
    exact .bind (each item) fun _ => .bind ih fun _ => .pure _

end Preserves

namespace Emitter

variable {α β : Type} [Scalar α] [Layout α β]

private theorem preserves_spawnOne : Preserves Bound (spawnOne (α := α) (β := β)) := by
  intro e bound
  obtain ⟨config, random, modules, particles, pool, time, spawned⟩ := e
  unfold spawnOne
  split
  · exact bound
  · simp only
    split
    · exact bound
    · split <;> exact bound

theorem preserves_tick (dt : α) : Preserves Bound (tick (β := β) dt) := by
  intro e bound
  rw [tick_eq]
  split
  · exact bound
  · simp only
    split <;> exact bound

theorem preserves_spawn (count : Nat) : Preserves Bound (spawn (α := α) (β := β) count) := by
  induction count with
  | zero => exact .pure ()
  | succ count ih => exact .bind preserves_spawnOne fun _ => ih

private theorem preserves_runTicks (ticks : Nat) (totals : RunTotals α) :
    Preserves Bound (runTicks (β := β) ticks totals) := by
  induction ticks generalizing totals with
  | zero => exact .pure totals
  | succ ticks ih =>
    exact .bind .get fun _ => .bind (preserves_tick _) fun _ => .bind .get fun _ => ih _

omit [Scalar α] [Layout α β] in
theorem reload_of_bound {e : Emitter α β} (bound : e.Bound) : e.reload = e := by
  obtain ⟨config, random, modules, particles, pool, time, spawned⟩ := e
  change modules = config.boundModules at bound
  subst bound
  rw [reload, Config.boundModules, Stack.rebind_rebind]

theorem preserves_perform (call : Call α) : Preserves Bound (call.perform (β := β)) := by
  cases call with
  | spawn count => exact .bind (preserves_spawn _) fun _ => .pure _
  | tick dt => exact .bind (preserves_tick dt) fun _ => .pure _
  | run =>
    exact .bind (.bind .get fun _ => .bind (preserves_spawn _) fun _ =>
      .bind (preserves_runTicks _ _) fun _ =>
      .bind .get fun _ => .pure _) fun _ => .pure _
  | reload =>
    intro e bound
    rw [← reload_of_bound bound] at bound
    exact bound

end Emitter

/-- After any changes a stack that is bound to a table does to a newborn what looking
every reference up in that table does, so that earlier bindings leave no trace; a
stack whose last change was no binding makes and moves no particle. An emitter has
nothing to reload, whatever was asked of it. -/
theorem bound_stack_interprets :
    (∀ (s : Stack Float32) (changes : List StackChange),
      (.reload ∈ changes → ∀ x ∈ s.numbers, ReadsBack x ∧ x.isFinite) →
      ∃ t, StackChange.applyAll changes s = some t ∧
        (∀ table, t.rebind table = s.rebind table ∧ (t.rebind table).rebind table = t.rebind table ∧
          ∀ context newborn, (t.rebind table).spawnParticle context newborn =
            s.interpret table context newborn) ∧
        ∀ last ∈ changes.getLast?, last.isRebind = false → t.bound = false ∧
          (∀ context newborn, t.spawnParticle context newborn = .error .spawnUnbound newborn) ∧
          ∀ context particle stream, t.updateParticle context particle stream =
            .error .updateUnbound stream) ∧
    ∀ (config : Config Float32) (calls : List (Call Float32)) (e : Emitter Float32 UInt8),
      e = leaves (Call.performAll calls (.ofConfig config)) → e.reload = e := by
  refine ⟨fun s changes exact => ?_, fun config calls e left => ?_⟩
  · obtain ⟨t, applied, copy, bound⟩ := StackChange.applyAll_eq_some exact
    have again (table) : t.rebind table = s.rebind table := by
      rw [← t.rebind_unbind, copy, s.rebind_unbind]
    refine ⟨t, applied, fun table =>
      ⟨again table, t.rebind_rebind table, fun context newborn => ?_⟩, ?_⟩
    · rw [again, Stack.spawnParticle_rebind]
    · intro last isLast change
      have free : t.bound = false := (bound last isLast).trans change
      exact ⟨free, fun context newborn => by rw [Stack.spawnParticle, free]; rfl,
        fun context particle stream => by rw [Stack.updateParticle, free]; rfl⟩
  · rw [left]
    apply Emitter.reload_of_bound
    exact Preserves.mapM Emitter.preserves_perform calls _ (Emitter.bound_ofConfig config)

/-- A stack is bound to a table that has an entry for its last reference, written and read back. It
is not bound then. Once bound to another table it reads the range and the curve that it names there,
and its base value where that table has no entry. -/
theorem bound_stack_interprets_reloaded :
    let stack : Stack Float32 := .ofModules
      [.directed ⟨.distributed 3 ⟨.random, 1⟩,
        .distributed (.splat 1) ⟨some ⟨.curve, 0⟩, none, some ⟨.random, 2⟩⟩⟩] []
    let earlier : DistributionTable Float32 := ⟨[⟨2, 5⟩, ⟨6, 6⟩, ⟨7, 7⟩], []⟩
    let table : DistributionTable Float32 := ⟨[⟨2, 5⟩, ⟨4, 4⟩], [⟨[⟨0, 2⟩, ⟨1, 3⟩], .particle⟩]⟩
    let context : SpawnContext Float32 := ⟨⟨0, 1⟩, .unitZ, true, .identity⟩
    let newborn : Newborn Float32 := ⟨.default, .ofSeed 7⟩
    ∃ t, StackChange.applyAll [.rebind earlier, .reload] stack = some t ∧ t.bound = false ∧
      (t.rebind table).spawnParticle context newborn = stack.interpret table context newborn ∧
      (match stack.interpret table context newborn with
      | .ok _ made => some (made.particle.velocity, made.stream)
      | .error _ _ => none) = some (⟨8, 4, 4⟩, newborn.stream.advance) ∧
      (match stack.interpret earlier context newborn with
      | .ok _ made => some (made.particle.velocity, made.stream)
      | .error _ _ => none) = some (⟨6, 6, 42⟩, newborn.stream.drop 2) := by
  intro stack earlier table context newborn
  obtain ⟨t, applied, rebound, unbound⟩ :=
    bound_stack_interprets.1 stack [.rebind earlier, .reload] fun _ => by decide +kernel
  refine ⟨t, applied, (unbound .reload rfl rfl).1, (rebound table).2.2 context newborn, ?_, ?_⟩
  · decide +kernel
  · decide +kernel

end ParticleSystem
