import ParticleSystem.Proofs.Pool.Sets

/-!
Histories of several pools. A call works on one pool, or copies one over another; a refused call is
answered with its fault and the history goes on with the pools it left. What happened is kept as a
list of events, the calls with their answers, and every event has one of a few effects on the pools.
-/

namespace ParticleSystem

/-- A call on pools with names in `ι`. -/
inductive PoolCall (ι β : Type)
  | alloc (pool : ι) (size : UInt32)
  | free (pool : ι) (size : UInt32) (slot : Nat)
  /-- Hands out a slot and puts a value of exactly its size there. -/
  | store (pool : ι) (size : UInt32) (value : Vector β size.toNat)
  /-- Puts cells at the start of a record, as many as it holds. -/
  | write (pool : ι) (size : UInt32) (slot : Nat) (cells : List β)
  | emplace (pool : ι) (size : UInt32) (image : Array β)
  /-- Makes one pool, which may be a new one, hold what another holds. -/
  | copy (source target : ι)
  | reset (pool : ι)

/-- A call with its answer, the slot when one was handed out. -/
structure PoolEvent (ι β : Type) where
  call : PoolCall ι β
  answer : Except PoolFault (Option Nat)

/-- What a list of calls leaves: the events in order, and the pools. -/
structure PoolHistory (ι β : Type) where
  events : List (PoolEvent ι β)
  pools : ι → Pool β

variable {ι β : Type} [DecidableEq ι]

namespace PoolCall

/-- Whether records that are restored have a size at all. -/
def Sized : PoolCall ι β → Prop
  | .emplace _ size _ => size ≠ 0
  | _ => True

/-- Works on one of the pools, and keeps what it left also when it was refused. -/
def on {γ : Type} (pool : ι) (work : EStateM PoolFault (Pool β) γ) (slot : γ → Option Nat)
    (pools : ι → Pool β) : Except PoolFault (Option Nat) × (ι → Pool β) :=
  match work (pools pool) with
  | .ok value after => (.ok (slot value), Function.update pools pool after)
  | .error fault after => (.error fault, Function.update pools pool after)

def perform [Cell β] : PoolCall ι β → (ι → Pool β) → Except PoolFault (Option Nat) × (ι → Pool β)
  | .alloc pool size => on pool (Pool.alloc size) some
  | .free pool size slot => on pool (Pool.free size slot) fun _ => none
  | .store pool size value => on pool (Pool.store size value.toList) some
  | .write pool size slot cells => fun pools =>
    (.ok none, Function.update pools pool ((pools pool).write size slot cells))
  | .emplace pool size image => on pool (Pool.emplace size image) fun _ => none
  | .copy source target => fun pools => (.ok none, Function.update pools target (pools source))
  | .reset pool => fun pools => (.ok none, Function.update pools pool .empty)

def run [Cell β] : List (PoolCall ι β) → (ι → Pool β) → PoolHistory ι β
  | [], pools => ⟨[], pools⟩
  | call :: rest, pools =>
    let (answer, after) := call.perform pools
    let history := run rest after
    ⟨⟨call, answer⟩ :: history.events, history.pools⟩

end PoolCall

/-- The history of calls on pools that are empty at first. -/
def PoolHistory.ofCalls [Cell β] (calls : List (PoolCall ι β)) : PoolHistory ι β :=
  PoolCall.run calls fun _ => .empty

/-- What an event does to pools: one of them, in the set of one size, or as a whole. -/
inductive PoolEvent.Effect [Cell β] (before : ι → Pool β) : PoolEvent ι β → (ι → Pool β) → Prop
  | refused (call : PoolCall ι β) (fault : PoolFault) : Effect before ⟨call, .error fault⟩ before
  | claimed {pool : ι} {size : UInt32} {after : Pool β} (storable : Storable size)
      (changed : after.find? = Function.update (before pool).find? size
        (some ((before pool).setAt size).claim)) :
      Effect before ⟨.alloc pool size, .ok (some ((before pool).setAt size).next)⟩
        (Function.update before pool after)
  | released {pool : ι} {size : UInt32} {slot : Nat} {set : RecordSet β} {after : Pool β}
      (found : (before pool).find? size = some set) (inside : slot < set.slots)
      (used : slot ∉ set.free)
      (changed : after.find? = Function.update (before pool).find? size (some (set.release slot))) :
      Effect before ⟨.free pool size slot, .ok none⟩ (Function.update before pool after)
  | stored {pool : ι} {size : UInt32} {value : Vector β size.toNat} {after : Pool β}
      (storable : Storable size)
      (changed : after.find? = Function.update (before pool).find? size
        (some (((before pool).setAt size).claim.write
          ((before pool).setAt size).next value.toList))) :
      Effect before ⟨.store pool size value, .ok (some ((before pool).setAt size).next)⟩
        (Function.update before pool after)
  | missed {pool : ι} {size : UInt32} (slot : Nat) (cells : List β)
      (missing : (before pool).find? size = none) : Effect before ⟨.write pool size slot cells,
        .ok none⟩ before
  | written {pool : ι} {size : UInt32} {slot : Nat} {cells : List β} {set : RecordSet β}
      {after : Pool β}
      (found : (before pool).find? size = some set)
      (changed : after.find? =
        Function.update (before pool).find? size (some (set.write slot cells))) :
      Effect before ⟨.write pool size slot cells, .ok none⟩ (Function.update before pool after)
  | restored {pool : ι} {size : UInt32} {image : Array β} {after : Pool β}
      (storable : Storable size)
      (changed : after.find? = Function.update (before pool).find? size
        (some (((before pool).setAt size).load image))) :
      Effect before ⟨.emplace pool size image, .ok none⟩ (Function.update before pool after)
  | copied (source target : ι) :
      Effect before ⟨.copy source target, .ok none⟩ (Function.update before target (before source))
  | cleared (pool : ι) : Effect before ⟨.reset pool, .ok none⟩ (Function.update before pool .empty)

/-- A table with an entry for each set of each pool. -/
abbrev SetTable (ι γ : Type) := ι → UInt32 → γ

namespace SetTable

variable {γ : Type} {table : SetTable ι γ} {pools : ι → Pool β}

/-- The table with one entry replaced. -/
def revise (table : SetTable ι γ) (pool : ι) (size : UInt32) (entry : γ) : SetTable ι γ :=
  Function.update table pool (Function.update (table pool) size entry)

omit [DecidableEq ι] in
/-- Whether every entry fits what is found for its pool and size. -/
def Agrees (fits : Option (RecordSet β) → UInt32 → γ → Prop) (table : SetTable ι γ)
    (pools : ι → Pool β) : Prop := ∀ i size, fits ((pools i).find? size) size (table i size)

variable {fits : Option (RecordSet β) → UInt32 → γ → Prop}

theorem Agrees.revise (same : Agrees fits table pools) {pool : ι} {size : UInt32}
    {set : RecordSet β} {left : Pool β} {entry : γ}
    (changed : left.find? = Function.update (pools pool).find? size (some set))
    (fit : fits (some set) size entry) :
    Agrees fits (table.revise pool size entry) (Function.update pools pool left) := by
  intro i key
  by_cases here : i = pool
  · subst here
    rw [SetTable.revise, Function.update_self, Function.update_self, changed]
    by_cases of : key = size
    · subst of
      rwa [Function.update_self, Function.update_self]
    · rw [Function.update_of_ne of, Function.update_of_ne of]
      exact same i key
  · rw [SetTable.revise, Function.update_of_ne here, Function.update_of_ne here]
    exact same i key

theorem Agrees.replace (same : Agrees fits table pools) (target : ι) {left : Pool β}
    {row : UInt32 → γ} (fit : ∀ size, fits (left.find? size) size (row size)) :
    Agrees fits (Function.update table target row) (Function.update pools target left) := by
  intro i size
  by_cases here : i = target
  · subst here
    rw [Function.update_self, Function.update_self]
    exact fit size
  · rw [Function.update_of_ne here, Function.update_of_ne here]
    exact same i size

/-- An entry that still fits its changed set need not be replaced. -/
theorem Agrees.keep (same : Agrees fits table pools) {pool : ι} {size : UInt32} {set : RecordSet β}
    {left : Pool β} (changed : left.find? = Function.update (pools pool).find? size (some set))
    (fit : fits (some set) size (table pool size)) :
    Agrees fits table (Function.update pools pool left) := by
  have kept := same.revise changed fit
  rwa [SetTable.revise, Function.update_eq_self, Function.update_eq_self] at kept

end SetTable

variable {before after : ι → Pool β}

private theorem valid_update (valid : ∀ i, (before i).Valid) {pool : ι} {left : Pool β}
    (kept : left.Valid) : ∀ i, (Function.update before pool left i).Valid := by
  intro i
  by_cases same : i = pool
  · subst same
    rwa [Function.update_self]
  · rw [Function.update_of_ne same]
    exact valid i

namespace PoolCall

private theorem on_error {γ : Type} {pool : ι} {work : EStateM PoolFault (Pool β) γ}
    {fault : PoolFault} (slot : γ → Option Nat)
    (failed : work (before pool) = .error fault (before pool)) :
    on pool work slot before = (.error fault, before) := by
  simp [on, failed]

private theorem on_ok {γ : Type} {pool : ι} {work : EStateM PoolFault (Pool β) γ} {value : γ}
    {left : Pool β} (slot : γ → Option Nat) (done : work (before pool) = .ok value left) :
    on pool work slot before = (.ok (slot value), Function.update before pool left) := by
  simp [on, done]

variable [Cell β]

/-- On valid pools every call has an effect that its answer tells of. -/
theorem perform_effect (valid : ∀ i, (before i).Valid) (call : PoolCall ι β) (sized : call.Sized) :
    PoolEvent.Effect before ⟨call, (call.perform before).1⟩ (call.perform before).2 := by
  cases call with
  | alloc pool size =>
    rcases (valid pool).alloc_cases size with ⟨fault, _, failed⟩ |
      ⟨_, storable, left, done, changed⟩
    · rw [perform, on_error _ failed]
      exact .refused _ fault
    · rw [perform, on_ok _ done]
      exact .claimed storable changed
  | free pool size slot =>
    rcases (valid pool).free_cases size slot with
      ⟨fault, _, failed⟩ | ⟨_, set, found, inside, used, left, done, changed⟩
    · rw [perform, on_error _ failed]
      exact .refused _ fault
    · rw [perform, on_ok _ done]
      exact .released found inside used changed
  | store pool size value =>
    rcases (valid pool).store_cases size value.toList with
      ⟨fault, _, failed⟩ | ⟨_, storable, left, done, changed⟩
    · rw [perform, on_error _ failed]
      exact .refused _ fault
    · rw [perform, on_ok _ done]
      exact .stored storable changed
  | write pool size slot cells =>
    cases found : (before pool).find? size with
    | none =>
      simp only [perform, Pool.write_of_missing slot cells found, Function.update_eq_self]
      exact .missed slot cells found
    | some set => exact .written found (Pool.find?_write slot cells found)
  | emplace pool size image =>
    rcases (valid pool).emplace_cases sized image with
      ⟨fault, _, failed⟩ | ⟨_, storable, left, done, changed⟩
    · rw [perform, on_error _ failed]
      exact .refused _ fault
    · rw [perform, on_ok _ done]
      exact .restored storable changed
  | copy source target => exact .copied source target
  | reset pool => exact .cleared pool

end PoolCall

variable [Cell β]

theorem PoolEvent.Effect.valid {event : PoolEvent ι β} (effect : event.Effect before after)
    (valid : ∀ i, (before i).Valid) : ∀ i, (after i).Valid := by
  cases effect with
  | refused => exact valid
  | claimed storable changed =>
    exact valid_update valid ((valid _).of_update changed ((valid _).setAt storable).claim)
  | released found inside used changed =>
    exact valid_update valid ((valid _).of_update changed ((valid _ _ _ found).release inside used))
  | stored storable changed =>
    exact valid_update valid
      ((valid _).of_update changed (((valid _).setAt storable).claim.write ..))
  | missed => exact valid
  | written found changed =>
    exact valid_update valid ((valid _).of_update changed ((valid _ _ _ found).write ..))
  | restored storable changed =>
    exact valid_update valid ((valid _).of_update changed (((valid _).setAt storable).load _))
  | copied source target => exact valid_update valid (valid source)
  | cleared pool => exact valid_update valid Pool.valid_empty

namespace PoolCall

theorem run_cons (call : PoolCall ι β) (rest : List (PoolCall ι β)) (pools : ι → Pool β) :
    run (call :: rest) pools =
      ⟨⟨call, (call.perform pools).1⟩ :: (run rest (call.perform pools).2).events,
        (run rest (call.perform pools).2).pools⟩ := rfl

private theorem run_induction_from {motive : List (PoolEvent ι β) → (ι → Pool β) → Prop}
    (step : ∀ events event before after, (∀ i, (before i).Valid) →
      PoolEvent.Effect before event after →
      motive events before → motive (events ++ [event]) after)
    {calls : List (PoolCall ι β)} (sized : ∀ call ∈ calls, call.Sized)
    {earlier : List (PoolEvent ι β)}
    {pools : ι → Pool β} (valid : ∀ i, (pools i).Valid) (start : motive earlier pools) :
    motive (earlier ++ (run calls pools).events) (run calls pools).pools := by
  induction calls generalizing earlier pools with
  | nil => simpa [run] using start
  | cons call rest ih =>
    have effect := perform_effect valid call (sized call List.mem_cons_self)
    have kept := step earlier _ pools _ valid effect start
    have later := ih (fun other member => sized other (List.mem_cons_of_mem call member))
      (effect.valid valid) kept
    simpa [run_cons] using later

/-- What holds at first and is kept by every event holds after every history. -/
theorem run_induction {motive : List (PoolEvent ι β) → (ι → Pool β) → Prop}
    (step : ∀ events event before after, (∀ i, (before i).Valid) →
      PoolEvent.Effect before event after →
      motive events before → motive (events ++ [event]) after)
    {calls : List (PoolCall ι β)} (sized : ∀ call ∈ calls, call.Sized) {pools : ι → Pool β}
    (valid : ∀ i, (pools i).Valid) (start : motive [] pools) :
    motive (run calls pools).events (run calls pools).pools := by
  have kept := run_induction_from step sized valid start
  rwa [List.nil_append] at kept

theorem valid_run {calls : List (PoolCall ι β)} (sized : ∀ call ∈ calls, call.Sized)
    {pools : ι → Pool β} (valid : ∀ i, (pools i).Valid) :
    ∀ i, ((run calls pools).pools i).Valid := by
  apply run_induction (motive := fun _ pools => ∀ i, (pools i).Valid)
  · intro events event before after valid effect _
    exact effect.valid valid
  · exact sized
  · exact valid
  · exact valid

end PoolCall

namespace PoolHistory

theorem valid_ofCalls {calls : List (PoolCall ι β)} (sized : ∀ call ∈ calls, call.Sized) :
    ∀ i, ((ofCalls calls).pools i).Valid := PoolCall.valid_run sized fun _ => Pool.valid_empty

theorem ofCalls_induction {motive : List (PoolEvent ι β) → (ι → Pool β) → Prop}
    (start : motive [] fun _ => .empty)
    (step : ∀ events event before after, (∀ i, (before i).Valid) →
      PoolEvent.Effect before event after →
      motive events before → motive (events ++ [event]) after)
    {calls : List (PoolCall ι β)} (sized : ∀ call ∈ calls, call.Sized) :
    motive (ofCalls calls).events (ofCalls calls).pools :=
  PoolCall.run_induction step sized (fun _ => Pool.valid_empty) start

end PoolHistory

end ParticleSystem
