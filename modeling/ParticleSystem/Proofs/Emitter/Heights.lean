import ParticleSystem.Proofs.Emitter.Calls
import ParticleSystem.Proofs.Scalar.Order

namespace ParticleSystem

variable {α β : Type} [Scalar α] [Layout α β]

/-- The emitters that actions leave, one after another, up to the first action that is refused. -/
def Action.trail : List (Action α) → Emitter α β → List (Emitter α β)
  | [], _ => []
  | action :: rest, e =>
    match action.perform e with
    | .ok _ after => after :: trail rest after
    | .error _ _ => []

private theorem Action.trail_cons {action : Action α} {rest : List (Action α)}
    {e after : Emitter α β} {reports : List TickReport}
    (done : action.perform e = .ok reports after) :
    trail (action :: rest) e = after :: trail rest after := by
  rw [trail, done]

namespace Emitter

/-- The heights of the live particles in the world. -/
def heights (e : Emitter α β) : List α := e.worldPositions.map Vec3.z

private theorem lowest_runTicks {ticks : Nat} {totals left : RunTotals α} {e after : Emitter α β}
    (done : runTicks ticks totals e = .ok left after) :
    let states := Action.trail (.replicate ticks (.tick e.config.tickTime)) e
    states.length = ticks ∧ left.lowest = (states.flatMap heights).foldl lower totals.lowest := by
  induction ticks generalizing e totals with
  | zero =>
    cases done
    exact ⟨rfl, rfl⟩
  | succ ticks ih =>
    obtain ⟨_, _, read, done⟩ := bind_eq_ok done
    cases read
    obtain ⟨report, middle, first, done⟩ := bind_eq_ok done
    obtain ⟨_, _, read, done⟩ := bind_eq_ok done
    cases read
    obtain ⟨length, lowest⟩ := ih done
    have own := Action.perform_tick first
    rw [Action.perform_config own] at length lowest
    rw [List.replicate_succ, Action.trail_cons own]
    refine ⟨congrArg _ length, ?_⟩
    rw [lowest, List.flatMap_cons, List.foldl_append]
    rfl

private theorem minWorldZ_run {e after : Emitter α β} {summary : RunSummary α}
    (ran : run e = .ok summary after) :
    ∃ burst, spawn e.config.particleCount.toNat e = .ok () burst ∧
      let states := Action.trail (.replicate e.config.ticks.toNat (.tick e.config.tickTime)) burst
      states.length = e.config.ticks.toNat ∧
        summary.minWorldZ = ((states.flatMap heights).foldl lower none).getD
          e.config.position.z := by
  obtain ⟨_, _, read, done⟩ := bind_eq_ok ran
  cases read
  obtain ⟨_, burst, spawned, done⟩ := bind_eq_ok done
  obtain ⟨totals, last, ticked, done⟩ := bind_eq_ok done
  obtain ⟨_, _, read, done⟩ := bind_eq_ok done
  cases read
  cases done
  obtain ⟨length, lowest⟩ := lowest_runTicks ticked
  rw [Action.performAll_config (Action.performAll_spawn spawned)] at length lowest
  exact ⟨burst, spawned, length, congrArg (Option.getD · _) lowest⟩

open Single (infinity)

theorem belowInfinity_iff (z : Float32) : belowInfinity z = true ↔ z < infinity := by
  have finite : Scalar.isFinite z = (Single.unpack z).isFinite := rfl
  rw [belowInfinity, Bool.or_eq_true, decide_eq_true_iff, finite, Single.lt_iff, Single.lt_iff,
    Single.unpack_zero, Single.unpack_infinity]
  cases Single.unpack z with
  | infinity s => cases s <;> decide
  | notANumber => decide
  | zero s => exact ⟨fun _ => rfl, fun _ => .inl rfl⟩
  | finite s m e hm => exact ⟨fun _ => rfl, fun _ => .inl rfl⟩

/-- Whether something is the least of the heights that are numbers, nothing
where none of them lies below infinity. -/
def Least (visited : List Float32) : Option Float32 → Prop
  | none => ∀ z ∈ visited, ¬z < infinity
  | some least => least ∈ visited ∧ least < infinity ∧ ∀ z ∈ visited, z.isNaN = false → least ≤ z

variable {visited more : List Float32} {lowest : Option Float32} {z : Float32}

/-- A height below infinity and the heights before it is the least. -/
theorem least_append (small : z < infinity)
    (below : ∀ other ∈ visited, other.isNaN = false → z ≤ other) :
    Least (visited ++ [z]) (some z) := by
  refine ⟨List.mem_append_right _ (List.mem_singleton_self z), small, ?_⟩
  intro other member number
  rcases List.mem_append.mp member with old | new
  · exact below other old number
  · rw [List.mem_singleton.mp new]
    exact Single.le_refl (Single.isNaN_of_lt small).1

theorem Least.lower (least : Least visited lowest) (z : Float32) :
    Least (visited ++ [z]) (lower lowest z) := by
  cases lowest with
  | none =>
    have choice : Emitter.lower none z = if belowInfinity z then some z else none := rfl
    by_cases small : z < infinity
    · rw [choice, if_pos ((belowInfinity_iff z).mpr small)]
      refine least_append small ?_
      intro other member number
      have beyond := (Single.not_lt_iff_le number Single.isNaN_infinity).mp (least other member)
      exact Single.le_of_lt (Single.lt_of_lt_of_le small beyond)
    · rw [choice, if_neg (mt (belowInfinity_iff z).mp small)]
      intro other member
      rcases List.mem_append.mp member with old | new
      · exact least other old
      · rwa [List.mem_singleton.mp new]
  | some lowest =>
    have choice : Emitter.lower (some lowest) z = if z < lowest then some z else some lowest := rfl
    obtain ⟨present, small, bound⟩ := least
    by_cases below : z < lowest
    · rw [choice, if_pos below]
      refine least_append (Single.lt_of_lt_of_le below (Single.le_of_lt small)) ?_
      intro other member number
      exact Single.le_of_lt (Single.lt_of_lt_of_le below (bound other member number))
    · rw [choice, if_neg below]
      refine ⟨List.mem_append_left _ present, small, ?_⟩
      intro other member number
      rcases List.mem_append.mp member with old | new
      · exact bound other old number
      · rw [List.mem_singleton.mp new] at number ⊢
        exact (Single.not_lt_iff_le number (Single.isNaN_of_lt small).1).mp below

/-- A height after another keeps the least of those that were visited. -/
theorem Least.foldl (least : Least visited lowest) :
    Least (visited ++ more) (more.foldl Emitter.lower lowest) := by
  induction more generalizing visited lowest with
  | nil => rwa [List.append_nil]
  | cons z rest ih =>
    have next := ih (least.lower z)
    rwa [List.append_assoc, List.singleton_append] at next

theorem least_foldl (visited : List Float32) : Least visited (visited.foldl lower none) := by
  have start : Least [] none := fun _ member => absurd member List.not_mem_nil
  exact start.foldl

/-- What is the least does not depend on the order of the heights. -/
theorem Least.perm (least : Least visited lowest) (same : visited.Perm more) :
    Least more lowest := by
  cases lowest with
  | none => exact fun z member => least z (same.mem_iff.mpr member)
  | some lowest =>
    obtain ⟨present, small, bound⟩ := least
    exact ⟨same.mem_iff.mp present, small, fun z member => bound z (same.mem_iff.mpr member)⟩

private theorem Least.getD_eq {other : Option Float32} (least : Least visited lowest)
    (same : Least visited other) (own : Float32) :
    lowest.getD own = other.getD own ∨ lowest.getD own ≤ other.getD own ∧
    other.getD own ≤ lowest.getD own := by
  cases lowest with
  | none =>
    cases other with
    | none => exact .inl rfl
    | some z => exact absurd same.2.1 (least z same.1)
  | some z =>
    obtain ⟨present, small, bound⟩ := least
    cases other with
    | none => exact absurd small (same z present)
    | some w =>
      obtain ⟨here, below, least⟩ := same
      exact .inr ⟨bound w here (Single.isNaN_of_lt below).1,
        least z present (Single.isNaN_of_lt small).1⟩

private theorem Least.getD_numbers (least : Least visited lowest) (own : Float32) :
    let numbers := visited.filter (!·.isNaN)
    ((∃ z ∈ numbers, z < infinity) → lowest.getD own ∈ numbers ∧ ∀ z ∈ numbers,
      lowest.getD own ≤ z) ∧
      ((∀ z ∈ numbers, ¬z < infinity) → lowest.getD own = own) := by
  intro numbers
  have counted {z : Float32} : z ∈ numbers ↔ z ∈ visited ∧ z.isNaN = false := by
    rw [List.mem_filter, Bool.not_eq_true']
  cases lowest with
  | none =>
    exact ⟨fun ⟨z, member, small⟩ => absurd small (least z (counted.mp member).1), fun _ => rfl⟩
  | some lowest =>
    obtain ⟨present, small, bound⟩ := least
    have member := counted.mpr ⟨present, (Single.isNaN_of_lt small).1⟩
    refine ⟨fun _ => ⟨member, ?_⟩, fun none => absurd small (none lowest member)⟩
    intro z other
    exact bound z (counted.mp other).1 (counted.mp other).2

/-- The lowest height of a run is the least of the heights of all live particles after its ticks
that are numbers, and the emitter's own where none of them lies below infinity. Another order of
visiting could change the sign of a zero only. -/
theorem minWorldZ_least {e after : Emitter Float32 UInt8} {summary : RunSummary Float32}
    (ran : run e = .ok summary after) :
    ∃ burst, spawn e.config.particleCount.toNat e = .ok () burst ∧
      let states := Action.trail (.replicate e.config.ticks.toNat (.tick e.config.tickTime)) burst
      let visited := states.flatMap heights
      let numbers := visited.filter (!·.isNaN)
      states.length = e.config.ticks.toNat ∧
        ((∃ z ∈ numbers, z < infinity) → summary.minWorldZ ∈ numbers ∧ ∀ z ∈ numbers,
          summary.minWorldZ ≤ z) ∧
        ((∀ z ∈ numbers, ¬z < infinity) → summary.minWorldZ = e.config.position.z) ∧
        (∀ others, visited.Perm others →
          let other := (others.foldl lower none).getD e.config.position.z
          other = summary.minWorldZ ∨ other ≤ summary.minWorldZ ∧ summary.minWorldZ ≤ other) ∧
        summary.ticks = e.config.ticks.toNat ∧ summary.alive = after.particles.size := by
  obtain ⟨_, _, _, _, _, ticks, _, _, _, alive⟩ := run_ok ran
  obtain ⟨burst, spawned, length, lowest⟩ := minWorldZ_run ran
  have least := least_foldl (List.flatMap heights
    (Action.trail (.replicate e.config.ticks.toNat (.tick e.config.tickTime)) burst))
  refine ⟨burst, spawned, ?_⟩
  rw [lowest]
  obtain ⟨lowest_number, own⟩ := least.getD_numbers e.config.position.z
  refine ⟨length, lowest_number, own, ?_, ticks, alive⟩
  intro others same
  exact (least_foldl others).getD_eq (least.perm same) _

/-- Two particles fall for two ticks and expire in the third. -/
theorem minWorldZ_least_falling :
    let config : Config Float32 :=
      { Config.default with
        tickTime := 0.5
        ticks := 3
        particleCount := 2
        lifetime := 1.25
        modules := .ofModules [.directed ⟨.constant 1, .constant ⟨0, 0, -1⟩⟩] [] }
    let e : Emitter Float32 UInt8 := ofConfig config
    ∃ summary after burst, run e = .ok summary after ∧
      spawn config.particleCount.toNat e = .ok () burst ∧
      let states := Action.trail (.replicate config.ticks.toNat (.tick config.tickTime)) burst
      states.flatMap heights = [1.5, 1.5, 1, 1] ∧ summary.minWorldZ = 1 ∧
        summary.minWorldZ ∈ states.flatMap heights ∧ summary.alive = 0 ∧
        after.particles.size = 0 := by
  intro config e
  have outcome : EStateM.run' (do
      let summary ← run
      return (summary.minWorldZ, (← get).particles.size)) e = some (1, 0) := by decide +kernel
  have fallen : EStateM.run' (do
      spawn config.particleCount.toNat
      return (Action.trail (.replicate config.ticks.toNat (.tick config.tickTime))
        (← get)).flatMap heights) e = some [1.5, 1.5, 1, 1] := by decide +kernel
  obtain ⟨_, done⟩ := eq_ok_of_run' outcome
  obtain ⟨summary, after, ran, done⟩ := bind_eq_ok done
  obtain ⟨lowest, gone⟩ := Prod.mk.inj (EStateM.Result.ok.inj done).1
  obtain ⟨burst, begun, -, least, -, -, -, alive⟩ := minWorldZ_least ran
  obtain ⟨_, done⟩ := eq_ok_of_run' fallen
  obtain ⟨_, same, spawned, done⟩ := bind_eq_ok done
  cases spawned.symm.trans begun
  have visited := (EStateM.Result.ok.inj done).1
  refine ⟨summary, after, burst, ran, spawned, visited, lowest, ?_, alive.trans gone, gone⟩
  refine List.mem_of_mem_filter (least ?_).1
  have some : ∃ z ∈ [1.5, 1.5, 1, 1].filter (fun z : Float32 => !z.isNaN), z < infinity := by
    decide +kernel
  rwa [← visited] at some

end Emitter

end ParticleSystem
