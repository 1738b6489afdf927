import ParticleSystem.Emitter.Run
import ParticleSystem.Proofs.Emitter.Steps

/-!
Calls on an emitter. Every call comes down to actions, which spawn one particle, make one tick or
reload; a whole run does so too, and its summary adds up the reports of its ticks.
-/

namespace ParticleSystem

/-- What is asked of an emitter. -/
inductive Call (α : Type)
  | spawn (count : UInt32)
  | tick (dt : α)
  | run
  | reload

/-- What a call answers. -/
inductive Answer (α : Type)
  | done
  | ticked (report : TickReport)
  | ran (summary : RunSummary α)

/-- A step that the calls are made of. -/
inductive Action (α : Type)
  | spawn
  | tick (dt : α)
  | reload

variable {α β : Type}

namespace Answer

def expired : Answer α → Nat
  | .done => 0
  | .ticked report => report.expired
  | .ran summary => summary.expired

def collisions : Answer α → Nat
  | .done => 0
  | .ticked report => report.collisions
  | .ran summary => summary.collisions

end Answer

namespace Call

/-- The actions of a call on an emitter of a configuration. -/
def actions (config : Config α) : Call α → List (Action α)
  | .spawn count => .replicate count.toNat .spawn
  | .tick dt => [.tick dt]
  | .run =>
    .replicate config.particleCount.toNat .spawn ++
      .replicate config.ticks.toNat (.tick config.tickTime)
  | .reload => [.reload]

def spawned (config : Config α) : Call α → Nat
  | .spawn count => count.toNat
  | .run => config.particleCount.toNat
  | _ => 0

end Call

def Action.spawned : Action α → Nat
  | .spawn => 1
  | .tick _ => 0
  | .reload => 0

theorem Call.sum_spawned (config : Config α) (call : Call α) :
    ((call.actions config).map Action.spawned).sum = call.spawned config := by
  cases call <;> simp [actions, spawned, Action.spawned]

theorem Call.sum_spawned_flatMap (config : Config α) (calls : List (Call α)) :
    ((calls.flatMap (actions config)).map Action.spawned).sum =
      (calls.map (spawned config)).sum := by
  induction calls with
  | nil => rfl
  | cons call rest ih =>
    rw [List.flatMap_cons, List.map_append, List.sum_append, sum_spawned, ih, List.map_cons,
      List.sum_cons]

variable [Scalar α] [Layout α β]

def Call.perform : Call α → EStateM EmitterFault (Emitter α β) (Answer α)
  | .spawn count => do
    Emitter.spawn count.toNat
    return .done
  | .tick dt => do return .ticked (← Emitter.tick dt)
  | .run => do return .ran (← Emitter.run)
  | .reload => fun e => .ok .done e.reload

/-- Performs calls in order, up to the first that is refused. -/
def Call.performAll (calls : List (Call α)) :
    EStateM EmitterFault (Emitter α β) (List (Answer α)) :=
  calls.mapM perform

namespace Action

/-- Performs an action, with the report of a tick. -/
def perform : Action α → EStateM EmitterFault (Emitter α β) (List TickReport)
  | .spawn => do
    Emitter.spawnOne
    return []
  | .tick dt => do return [← Emitter.tick dt]
  | .reload => fun e => .ok [] e.reload

/-- Performs actions in order, with the reports of all ticks. -/
def performAll : List (Action α) → EStateM EmitterFault (Emitter α β) (List TickReport)
  | [] => pure []
  | action :: rest => do
    let reports ← action.perform
    return reports ++ (← performAll rest)

variable {e middle after : Emitter α β} {reports more : List TickReport}

theorem perform_spawn (done : Emitter.spawnOne e = .ok () after) :
    perform .spawn e = .ok [] after :=
  bind_of_ok done

theorem perform_tick {dt : α} {report : TickReport} (done : Emitter.tick dt e = .ok report after) :
    perform (.tick dt) e = .ok [report] after := bind_of_ok done

theorem perform_spawn_ok (done : perform .spawn e = .ok reports after) :
    Emitter.spawnOne e = .ok () after ∧ reports = [] := by
  obtain ⟨_, middle, done, same⟩ := bind_eq_ok done
  cases same
  exact ⟨done, rfl⟩

theorem perform_tick_ok {dt : α} (done : perform (.tick dt) e = .ok reports after) :
    ∃ report, reports = [report] ∧ Emitter.tick dt e = .ok report after := by
  obtain ⟨report, middle, done, same⟩ := bind_eq_ok done
  cases same
  exact ⟨report, rfl, done⟩

theorem performAll_cons {action : Action α} {rest : List (Action α)}
    (first : action.perform e = .ok reports middle)
    (second : performAll rest middle = .ok more after) :
    performAll (action :: rest) e = .ok (reports ++ more) after := by
  rw [performAll, bind_of_ok first]
  exact bind_of_ok second

theorem performAll_cons_ok {action : Action α} {rest : List (Action α)}
    (done : performAll (action :: rest) e = .ok reports after) :
    ∃ own middle others, action.perform e = .ok own middle ∧
      performAll rest middle = .ok others after ∧
      reports = own ++ others := by
  obtain ⟨own, middle, first, done⟩ := bind_eq_ok done
  obtain ⟨others, last, later, done⟩ := bind_eq_ok done
  cases done
  exact ⟨own, middle, others, first, later, rfl⟩

theorem performAll_append {earlier later : List (Action α)}
    (first : performAll earlier e = .ok reports middle)
    (second : performAll later middle = .ok more after) :
    performAll (earlier ++ later) e = .ok (reports ++ more) after := by
  induction earlier generalizing e reports with
  | nil =>
    cases first
    exact second
  | cons action rest ih =>
    obtain ⟨own, next, others, begun, gone, rfl⟩ := performAll_cons_ok first
    rw [List.cons_append, List.append_assoc]
    exact performAll_cons begun (ih gone)

theorem performAll_append_ok {earlier later : List (Action α)}
    (done : performAll (earlier ++ later) e = .ok reports after) :
    ∃ first middle second, performAll earlier e = .ok first middle ∧
      performAll later middle = .ok second after := by
  induction earlier generalizing e reports with
  | nil => exact ⟨[], e, reports, rfl, done⟩
  | cons action rest ih =>
    obtain ⟨own, next, others, begun, gone, rfl⟩ := performAll_cons_ok done
    obtain ⟨first, middle, second, before, behind⟩ := ih gone
    exact ⟨own ++ first, middle, second, performAll_cons begun before, behind⟩

theorem perform_config {action : Action α} (done : action.perform e = .ok reports after) :
    after.config = e.config := by
  cases action with
  | spawn =>
    obtain ⟨done, -⟩ := perform_spawn_ok done
    obtain ⟨_, _, _, -, -, -, rfl⟩ := Emitter.spawnOne_iff.mp done
    rfl
  | tick dt =>
    obtain ⟨_, -, done⟩ := perform_tick_ok done
    obtain ⟨_, _, _, -, -, -, rfl⟩ := Emitter.tick_iff.mp done
    rfl
  | reload =>
    cases done
    rfl

theorem performAll_config {actions : List (Action α)}
    (done : performAll actions e = .ok reports after) : after.config = e.config := by
  induction actions generalizing e reports with
  | nil =>
    cases done
    rfl
  | cons action rest ih =>
    obtain ⟨own, next, others, begun, later, rfl⟩ := performAll_cons_ok done
    exact (ih later).trans (perform_config begun)

theorem performAll_spawn {count : Nat} (done : Emitter.spawn count e = .ok () after) :
    performAll (.replicate count .spawn) e = .ok [] after := by
  induction count generalizing e with
  | zero =>
    cases done
    rfl
  | succ count ih =>
    obtain ⟨_, middle, first, done⟩ := bind_eq_ok done
    exact performAll_cons (perform_spawn first) (ih done)

private theorem performAll_runTicks {ticks : Nat} {totals left : RunTotals α}
    (done : Emitter.runTicks ticks totals e = .ok left after) :
    ∃ reports, performAll (.replicate ticks (.tick e.config.tickTime)) e = .ok reports after ∧
      reports.length = ticks ∧
      left.collisions = totals.collisions + (reports.map (·.collisions)).sum ∧
      left.expired = totals.expired + (reports.map (·.expired)).sum := by
  induction ticks generalizing e totals with
  | zero =>
    cases done
    exact ⟨[], rfl, rfl, rfl, rfl⟩
  | succ ticks ih =>
    obtain ⟨_, _, read, done⟩ := bind_eq_ok done
    cases read
    obtain ⟨report, middle, first, done⟩ := bind_eq_ok done
    obtain ⟨_, _, read, done⟩ := bind_eq_ok done
    cases read
    obtain ⟨reports, performed, length, collisions, expired⟩ := ih done
    have own := perform_tick first
    rw [perform_config own] at performed
    refine ⟨report :: reports, performAll_cons own performed, congrArg _ length, ?_, ?_⟩
    · rw [collisions, List.map_cons, List.sum_cons, Nat.add_assoc]
    · rw [expired, List.map_cons, List.sum_cons, Nat.add_assoc]

end Action

section Calls

variable {e middle after : Emitter α β}

/-- A run is its burst and then its ticks, and its summary adds up their reports. -/
theorem Emitter.run_ok {summary : RunSummary α} (done : run e = .ok summary after) :
    ∃ middle reports,
      Action.performAll (.replicate e.config.particleCount.toNat .spawn) e = .ok [] middle ∧
      Action.performAll (.replicate e.config.ticks.toNat (.tick e.config.tickTime)) middle =
        .ok reports after ∧
      reports.length = summary.ticks ∧ summary.ticks = e.config.ticks.toNat ∧
      summary.spawned = e.config.particleCount.toNat ∧
      summary.collisions = (reports.map (·.collisions)).sum ∧
      summary.expired = (reports.map (·.expired)).sum ∧ summary.alive = after.particles.size := by
  obtain ⟨_, _, read, done⟩ := bind_eq_ok done
  cases read
  obtain ⟨_, middle, burst, done⟩ := bind_eq_ok done
  obtain ⟨totals, last, ticked, done⟩ := bind_eq_ok done
  obtain ⟨_, _, read, done⟩ := bind_eq_ok done
  cases read
  cases done
  have spawned := Action.performAll_spawn burst
  obtain ⟨reports, performed, length, collisions, expired⟩ := Action.performAll_runTicks ticked
  rw [Action.performAll_config spawned] at performed
  refine ⟨middle, reports, spawned, performed, length, rfl, rfl, ?_, ?_, rfl⟩
  · rw [collisions, Nat.zero_add]
  · rw [expired, Nat.zero_add]

/-- A call leaves what its actions leave, and answers with the sum of their reports. -/
theorem Call.perform_ok {call : Call α} {answer : Answer α}
    (done : call.perform e = .ok answer after) :
    ∃ reports, Action.performAll (call.actions e.config) e = .ok reports after ∧
      answer.collisions = (reports.map (·.collisions)).sum ∧
      answer.expired = (reports.map (·.expired)).sum := by
  cases call with
  | spawn count =>
    obtain ⟨_, middle, done, same⟩ := bind_eq_ok done
    cases same
    exact ⟨[], Action.performAll_spawn done, rfl, rfl⟩
  | tick dt =>
    obtain ⟨report, middle, done, same⟩ := bind_eq_ok done
    cases same
    exact ⟨[report], Action.performAll_cons (Action.perform_tick done) rfl, rfl, rfl⟩
  | run =>
    obtain ⟨summary, middle, done, same⟩ := bind_eq_ok done
    cases same
    obtain ⟨burst, reports, spawned, ticked, _, _, _, collisions, expired, _⟩ := Emitter.run_ok done
    exact ⟨reports, Action.performAll_append spawned ticked, collisions, expired⟩
  | reload =>
    cases done
    exact ⟨[], rfl, rfl, rfl⟩

theorem Call.performAll_ok {calls : List (Call α)} {answers : List (Answer α)}
    (done : performAll calls e = .ok answers after) :
    ∃ reports, Action.performAll (calls.flatMap (actions e.config)) e = .ok reports after ∧
      (answers.map (·.collisions)).sum = (reports.map (·.collisions)).sum ∧
      (answers.map (·.expired)).sum = (reports.map (·.expired)).sum := by
  induction calls generalizing e answers with
  | nil =>
    cases done
    exact ⟨[], rfl, rfl, rfl⟩
  | cons call rest ih =>
    obtain ⟨answer, middle, others, first, later, rfl⟩ := mapM_cons_eq_ok done
    obtain ⟨own, performed, hits, gone⟩ := perform_ok first
    obtain ⟨reports, remaining, collisions, expired⟩ := ih later
    rw [Action.performAll_config performed] at remaining
    refine ⟨own ++ reports, Action.performAll_append performed remaining, ?_, ?_⟩
    · rw [List.map_cons, List.sum_cons, hits, collisions, List.map_append, List.sum_append]
    · rw [List.map_cons, List.sum_cons, gone, expired, List.map_append, List.sum_append]

end Calls

end ParticleSystem
