import ParticleSystem.Proofs.Emitter.Calls

/-!
The chronicle of an emitter, kept beside it and not by it: how many particles were spawned, how many
were ever live at once, what every tick reported, and in which ticks each particle was in contact.
-/

namespace ParticleSystem

structure Chronicle (α : Type) where
  /-- The particles ever spawned. -/
  spawned : Nat
  /-- The most particles that were live at the same time. -/
  peak : Nat
  reports : List TickReport
  /-- For each live particle, whether it was in contact in each tick since its spawn. -/
  live : List (List Bool)
  /-- The same for each removed particle, with the record it held when it was removed. -/
  gone : List (List Bool × Option (ParticleStats α))

namespace Chronicle

variable {α β : Type}

def start : Chronicle α := ⟨0, 0, [], [], []⟩

variable [Scalar α] [Layout α β]

/-- The contacts of the live particles, those of a tick included. -/
def marks (dt : α) (e : Emitter α β) (c : Chronicle α) : List (List Bool) :=
  c.live.zipWith (fun earlier particle => earlier ++ [particle.collided]) (e.updated dt)

/-- Notes a tick: who was in contact, who is removed, and the record each removed particle held. -/
def noteTick (dt : α) (e : Emitter α β) (c : Chronicle α) : Chronicle α :=
  match e.updateAll dt with
  | .error _ _ => c
  | .ok lives ledger =>
    let entries := lives.zip (c.marks dt e)
    { c with
      live := (entries.filter (!·.1.particle.expired)).map (·.2)
      gone := c.gone ++ (entries.filter (·.1.particle.expired)).map fun entry =>
        (entry.2, Emitter.recordAt ledger.pool entry.1.slot) }

/-- Notes an action between two emitters. -/
def note (before : Emitter α β) (action : Action α) (reports : List TickReport)
    (after : Emitter α β) (c : Chronicle α) : Chronicle α :=
  let c := { c with peak := max c.peak after.particles.size, reports := c.reports ++ reports }
  match action with
  | .spawn => { c with spawned := c.spawned + 1, live := c.live ++ [[]] }
  | .tick dt => c.noteTick dt before
  | .reload => c

/-- Notes actions in order, up to the first that is refused. -/
def follow : List (Action α) → Emitter α β → Chronicle α → Chronicle α
  | [], _, c => c
  | action :: rest, e, c =>
    match action.perform e with
    | .ok reports after => follow rest after (c.note e action reports after)
    | .error _ _ => c

/-- The chronicle of calls on a new emitter. -/
def ofCalls (config : Config α) (calls : List (Call α)) : Chronicle α :=
  follow (calls.flatMap (Call.actions config)) (Emitter.ofConfig config : Emitter α β) start

variable {e after : Emitter α β} {c : Chronicle α} {reports : List TickReport}

@[simp] theorem spawned_noteTick (dt : α) : (c.noteTick dt e).spawned = c.spawned := by
  unfold noteTick
  split <;> rfl

@[simp] theorem peak_noteTick (dt : α) : (c.noteTick dt e).peak = c.peak := by
  unfold noteTick
  split <;> rfl

@[simp] theorem reports_noteTick (dt : α) : (c.noteTick dt e).reports = c.reports := by
  unfold noteTick
  split <;> rfl

theorem spawned_note (action : Action α) :
    (c.note e action reports after).spawned = c.spawned + action.spawned := by
  cases action <;> simp [note, Action.spawned]

theorem peak_note (action : Action α) :
    (c.note e action reports after).peak = max c.peak after.particles.size := by
  cases action <;> simp [note]

theorem reports_note (action : Action α) :
    (c.note e action reports after).reports = c.reports ++ reports := by
  cases action <;> simp [note]

theorem spawned_follow {actions : List (Action α)}
    (done : Action.performAll actions e = .ok reports after) :
    (c.follow actions e).spawned = c.spawned + (actions.map Action.spawned).sum := by
  induction actions generalizing c e reports with
  | nil => rfl
  | cons action rest ih =>
    obtain ⟨own, middle, others, first, later, rfl⟩ := Action.performAll_cons_ok done
    rw [follow, first, List.map_cons, List.sum_cons, ← Nat.add_assoc, ← spawned_note action]
    exact ih later

theorem reports_follow {actions : List (Action α)}
    (done : Action.performAll actions e = .ok reports after) :
    (c.follow actions e).reports = c.reports ++ reports := by
  induction actions generalizing c e reports with
  | nil =>
    cases done
    exact (List.append_nil _).symm
  | cons action rest ih =>
    obtain ⟨own, middle, others, first, later, rfl⟩ := Action.performAll_cons_ok done
    rw [follow, first, ← List.append_assoc, ← reports_note action]
    exact ih later

/-- What every action keeps in step with the chronicle is so after all of them. -/
theorem follow_induction {motive : Chronicle α → Emitter α β → Prop} {actions : List (Action α)}
    (step : ∀ c e action reports after, action.perform e = .ok reports after → motive c e →
      motive (c.note e action reports after) after)
    (begun : motive c e) (done : Action.performAll actions e = .ok reports after) :
    motive (c.follow actions e) after := by
  induction actions generalizing c e reports with
  | nil =>
    cases done
    exact begun
  | cons action rest ih =>
    obtain ⟨own, middle, others, first, later, rfl⟩ := Action.performAll_cons_ok done
    rw [follow, first]
    exact ih (step c e action own middle first begun) later

end Chronicle

end ParticleSystem
