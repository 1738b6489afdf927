import ParticleSystem.Proofs.Pool.Histories

/-!
What an operation on the records of one size can see and change: the set of that size, and nothing
else of the pool. Work is local to a size when this holds of it, and work that is put together from
local work is local again, whether it fails on the way or not.
-/

namespace ParticleSystem

variable {ι β γ δ : Type} {size : UInt32} {p q : Pool β}

namespace Pool

/-- The pool without the set of a size. -/
def erase (p : Pool β) (size : UInt32) : Pool β where
  sets := p.sets.filter (·.1 ≠ size)
  ordered := p.ordered.sublist (List.filter_sublist.map Prod.fst)

theorem find?_erase (p : Pool β) (size : UInt32) :
    (p.erase size).find? = Function.update p.find? size none := by
  funext key
  rw [Function.update_apply]
  change (p.sets.filter (·.1 ≠ size)).lookup key = if key = size then none else p.sets.lookup key
  induction p.sets with
  | nil => simp
  | cons head rest ih =>
    obtain ⟨first, set⟩ := head
    by_cases here : first = size
    · rw [List.filter_cons_of_neg (by simpa using here), ih, lookup_cons_eq_ite]
      by_cases same : key = size
      · rw [if_pos same, if_pos same]
      · rw [if_neg same, if_neg same, if_neg fun first' => same (first'.trans here)]
    · rw [List.filter_cons_of_pos (by simpa using here), lookup_cons_eq_ite, lookup_cons_eq_ite, ih]
      by_cases same : key = first
      · rw [if_pos same, if_pos same, if_neg (same ▸ here)]
      · rw [if_neg same, if_neg same]

theorem find?_erase_of_ne {other : UInt32} (different : other ≠ size) :
    (p.erase size).find? other = p.find? other := by
  rw [find?_erase, Function.update_of_ne different]

/-- Pools are the same when they are without a set, and find the same set of its size. -/
theorem eq_of_erase (rest : p.erase size = q.erase size) (here : p.find? size = q.find? size) :
    p = q := by
  apply ext_find?
  funext key
  by_cases same : key = size
  · rw [same, here]
  · rw [← find?_erase_of_ne same, rest, find?_erase_of_ne same]

theorem erase_eq_iff :
    p.erase size = q.erase size ↔ ∀ other, other ≠ size → p.find? other = q.find? other := by
  constructor
  · intro same other different
    rw [← find?_erase_of_ne different, same, find?_erase_of_ne different]
  · intro same
    apply ext_find?
    funext key
    rw [find?_erase, find?_erase, Function.update_apply, Function.update_apply]
    split
    · rfl
    · exact same key ‹_›

def answer (work : EStateM PoolFault (Pool β) γ) (p : Pool β) : Except PoolFault γ :=
  match work p with
  | .ok value _ => .ok value
  | .error fault _ => .error fault

def left (work : EStateM PoolFault (Pool β) γ) (p : Pool β) : Pool β :=
  match work p with
  | .ok _ after => after
  | .error _ after => after

theorem answer_bind (work : EStateM PoolFault (Pool β) γ) (next : γ → EStateM PoolFault (Pool β) δ)
    (p : Pool β) :
    answer (work >>= next) p = (answer work p).bind fun value =>
      answer (next value) (left work p) := by
  simp only [answer, left, bind, EStateM.bind]
  cases work p <;> rfl

theorem left_bind (work : EStateM PoolFault (Pool β) γ) (next : γ → EStateM PoolFault (Pool β) δ)
    (p : Pool β) :
    left (work >>= next) p = match answer work p with
      | .ok value => left (next value) (left work p)
      | .error _ => left work p := by
  simp only [answer, left, bind, EStateM.bind]
  cases work p <;> rfl

@[simp] theorem left_ask (size : UInt32) (question : RecordSet β → Except PoolFault γ)
    (p : Pool β) : left (ask size question) p = p := by
  cases found : p.find? size with
  | none => simp [left, ask, found]
  | some set => cases answered : question set <;> simp [left, ask, found, answered]

theorem answer_ask (size : UInt32) (question : RecordSet β → Except PoolFault γ) (p : Pool β) :
    answer (ask size question) p = (p.find? size).elim (.error (.unknownSet size)) question := by
  cases found : p.find? size with
  | none => simp [answer, ask, found]
  | some set => cases answered : question set <;> simp [answer, ask, found, answered]

/-- A set that is missing is made, if there is one for its size. -/
theorem find?_left_ensure (size : UInt32) (p : Pool β) : (left (ensure size) p).find? =
    Function.update p.find? size ((p.find? size).or (RecordSet.ofSize size).toOption) := by
  cases found : p.find? size with
  | some set => simp [left, ensure, found]
  | none =>
    cases made : (RecordSet.ofSize size : Except PoolFault (RecordSet β)) with
    | error fault => simp [left, ensure, found, made, Except.toOption]
    | ok fresh => simp [left, ensure, found, made, Except.toOption, find?_upsert]

theorem answer_ensure (size : UInt32) (p : Pool β) : answer (ensure size) p =
    if (p.find? size).isSome then .ok ()
    else (RecordSet.ofSize size : Except PoolFault (RecordSet β)).map fun _ => () := by
  by_cases found : (p.find? size).isSome
  · simp [answer, ensure, found]
  · cases made : (RecordSet.ofSize size : Except PoolFault (RecordSet β)) <;>
      simp [answer, ensure, found, made, Except.map]

/-- Whether work sees and changes nothing of a pool but the set of one size. -/
structure Local (size : UInt32) (work : EStateM PoolFault (Pool β) γ) : Prop where
  frame : ∀ p other, other ≠ size → (left work p).find? other = p.find? other
  answer_eq : ∀ {p q : Pool β}, p.find? size = q.find? size → answer work p = answer work q
  find?_eq : ∀ {p q : Pool β}, p.find? size = q.find? size →
    (left work p).find? size = (left work q).find? size

namespace Local

variable {work : EStateM PoolFault (Pool β) γ} {next : γ → EStateM PoolFault (Pool β) δ}

theorem throw (fault : PoolFault) : Local size (throw fault : EStateM PoolFault (Pool β) γ) where
  frame := fun _ _ _ => rfl
  answer_eq := fun _ => rfl
  find?_eq := id

theorem bind (first : Local size work) (later : ∀ value, Local size (next value)) :
    Local size (work >>= next) where
  frame := by
    intro p other different
    rw [left_bind]
    split
    · rw [(later _).frame _ other different, first.frame p other different]
    · exact first.frame p other different
  answer_eq := by
    intro p q same
    rw [answer_bind, answer_bind, first.answer_eq same]
    cases answer work q with
    | ok value => exact (later value).answer_eq (first.find?_eq same)
    | error fault => rfl
  find?_eq := by
    intro p q same
    rw [left_bind, left_bind, first.answer_eq same]
    cases answer work q with
    | ok value => exact (later value).find?_eq (first.find?_eq same)
    | error fault => exact first.find?_eq same

theorem ensure (size : UInt32) : Local size (ensure size : EStateM PoolFault (Pool β) Unit) where
  frame := by
    intro p other different
    rw [find?_left_ensure, Function.update_of_ne different]
  answer_eq := by
    intro p q same
    rw [answer_ensure, answer_ensure, same]
  find?_eq := by
    intro p q same
    rw [find?_left_ensure, find?_left_ensure, Function.update_self, Function.update_self, same]

theorem ask (size : UInt32) (question : RecordSet β → Except PoolFault γ) :
    Local size (ask size question) where
  frame := by
    intro p other _
    rw [left_ask]
  answer_eq := by
    intro p q same
    rw [answer_ask, answer_ask, same]
  find?_eq := by
    intro p q same
    rw [left_ask, left_ask, same]

theorem modify (size : UInt32) (change : RecordSet β → RecordSet β) (value : γ) :
    Local size fun p : Pool β => .ok value (p.modify size change) where
  frame := by
    intro p other different
    simp [left, find?_modify, different]
  answer_eq := fun _ => rfl
  find?_eq := by
    intro p q same
    simp [left, find?_modify, same]

theorem alloc [Cell β] (size : UInt32) :
    Local size (alloc size : EStateM PoolFault (Pool β) Nat) := by
  by_cases zero : size = 0
  · rw [Pool.alloc, if_pos zero]
    exact .throw .zeroSize
  · by_cases large : maxRecordSize < size
    · rw [Pool.alloc, if_neg zero, if_pos large]
      exact .throw (.recordTooLarge size)
    · rw [Pool.alloc, if_neg zero, if_neg large]
      exact .bind (.ensure size) fun _ => .bind (.ask size _) fun _ => .modify size _ _

theorem free (size : UInt32) (slot : Nat) :
    Local size (free size slot : EStateM PoolFault (Pool β) Unit) :=
  .bind (.ask size _) fun _ => .modify size _ _

theorem store [Cell β] (size : UInt32) (cells : List β) : Local size (store size cells) :=
  .bind (.alloc size) fun _ => .modify size _ _

theorem emplace (size : UInt32) (image : Array β) : Local size (emplace size image) :=
  .bind (.ensure size) fun _ => .bind (.ask size _) fun _ => .modify size _ _

/-- Local work answers the same when a set of another size is missing. -/
theorem answer_erase (own : Local size work) {key : UInt32} (other : size ≠ key) (p : Pool β) :
    answer work (p.erase key) = answer work p := own.answer_eq (find?_erase_of_ne other)

theorem left_erase (own : Local size work) {key : UInt32} (other : size ≠ key) (p : Pool β) :
    left work (p.erase key) = (left work p).erase key := by
  apply ext_find?
  funext at_size
  rw [find?_erase, Function.update_apply]
  split
  · rename_i same
    rw [same, own.frame _ key other.symm, find?_erase, Function.update_self]
  · rename_i different
    by_cases same : at_size = size
    · rw [same]
      exact own.find?_eq (find?_erase_of_ne other)
    · rw [own.frame _ _ same, own.frame _ _ same, find?_erase_of_ne different]

end Local

end Pool

namespace PoolCall

variable [DecidableEq ι] {call : PoolCall ι β} {pool : ι}

omit [DecidableEq ι] in
/-- The pool and the size of the set that a call works on, unless it is about whole pools. -/
def own? : PoolCall ι β → Option (ι × UInt32)
  | .alloc pool size => some (pool, size)
  | .free pool size _ => some (pool, size)
  | .store pool size _ => some (pool, size)
  | .write pool size _ _ => some (pool, size)
  | .emplace pool size _ => some (pool, size)
  | .copy .. => none
  | .reset _ => none

omit [DecidableEq ι] in
/-- Whether a call works on a set of a size. -/
def concerns (size : UInt32) (call : PoolCall ι β) : Bool := call.own?.any (·.2 = size)

omit [DecidableEq ι] in
theorem concerns_of_own {key : UInt32} (own : call.own? = some (pool, size)) :
    call.concerns key = decide (size = key) := by
  rw [concerns, own]
  rfl

theorem on_eq (pool : ι) (work : EStateM PoolFault (Pool β) γ) (slot : γ → Option Nat)
    (pools : ι → Pool β) :
    on pool work slot pools =
      ((Pool.answer work (pools pool)).map slot,
        Function.update pools pool (Pool.left work (pools pool))) := by
  unfold on Pool.answer Pool.left
  cases work (pools pool) <;> rfl

variable [Cell β]

/-- A call that works on a set is local work in its pool. -/
theorem perform_of_own (own : call.own? = some (pool, size)) :
    ∃ (γ : Type) (work : EStateM PoolFault (Pool β) γ) (slot : γ → Option Nat),
      Pool.Local size work ∧
      ∀ pools, call.perform pools =
        ((Pool.answer work (pools pool)).map slot,
          Function.update pools pool (Pool.left work (pools pool))) := by
  cases call with
  | alloc i key =>
    cases own
    exact ⟨_, _, _, .alloc _, on_eq _ _ _⟩
  | free i key slot =>
    cases own
    exact ⟨_, _, _, .free _ slot, on_eq _ _ _⟩
  | store i key value =>
    cases own
    exact ⟨_, _, _, .store _ _, on_eq _ _ _⟩
  | write i key slot cells =>
    cases own
    exact ⟨Unit, fun p => .ok () (p.write size slot cells), fun _ => none, .modify _ _ _,
      fun _ => rfl⟩
  | emplace i key image =>
    cases own
    exact ⟨_, _, _, .emplace _ image, on_eq _ _ _⟩
  | copy source target => cases own
  | reset i => cases own

theorem find?_perform (own : call.own? = some (pool, size)) (pools : ι → Pool β) {i : ι}
    {other : UInt32} (apart : (i, other) ≠ (pool, size)) :
    ((call.perform pools).2 i).find? other = (pools i).find? other := by
  obtain ⟨γ, work, slot, within, performed⟩ := perform_of_own own
  simp only [performed, Function.update_apply]
  split
  · rename_i here
    subst here
    exact within.frame _ other fun same => apart (same ▸ rfl)
  · rfl

/-- A call on another set goes the same way in pools without the sets of a size. -/
theorem perform_erase {key : UInt32} (apart : call.concerns key = false) (pools : ι → Pool β) :
    call.perform (fun i => (pools i).erase key) =
      ((call.perform pools).1, fun i => ((call.perform pools).2 i).erase key) := by
  cases own : call.own? with
  | some place =>
    obtain ⟨pool, size⟩ := place
    have other : size ≠ key := of_decide_eq_false ((concerns_of_own own).symm.trans apart)
    obtain ⟨γ, work, slot, within, performed⟩ := perform_of_own own
    rw [performed, performed, within.answer_erase other, within.left_erase other]
    refine congrArg (Prod.mk _) (funext fun i => ?_)
    simp only [Function.update_apply]
    split <;> rfl
  | none =>
    cases call with
    | copy source target =>
      refine congrArg (Prod.mk _) (funext fun i => ?_)
      simp only [perform, Function.update_apply]
      split <;> rfl
    | reset pool =>
      refine congrArg (Prod.mk _) (funext fun i => ?_)
      simp only [perform, Function.update_apply]
      split <;> rfl
    | _ => cases own

theorem erase_perform {key : UInt32} (concerned : call.concerns key = true) (pools : ι → Pool β) :
    (fun i => ((call.perform pools).2 i).erase key) = fun i => (pools i).erase key := by
  obtain ⟨⟨pool, size⟩, own, same⟩ := (Option.any_eq_true _ _).mp concerned
  have same : size = key := of_decide_eq_true same
  subst same
  funext i
  exact Pool.erase_eq_iff.mpr fun other different =>
    find?_perform own pools fun same => different (Prod.mk.inj same).2

/-- The calls on other sets have the history they would have in pools without the sets of a size. -/
theorem run_filter (key : UInt32) (calls : List (PoolCall ι β)) (pools : ι → Pool β) :
    run (calls.filter (!·.concerns key)) (fun i => (pools i).erase key) =
      ⟨(run calls pools).events.filter (!·.call.concerns key),
        fun i => ((run calls pools).pools i).erase key⟩ := by
  induction calls generalizing pools with
  | nil => rfl
  | cons call rest ih =>
    rw [run_cons]
    by_cases concerned : call.concerns key = true
    · rw [List.filter_cons_of_neg (by simpa using concerned),
        List.filter_cons_of_neg (by simpa using concerned), ← erase_perform concerned, ih]
    · have apart := Bool.not_eq_true _ ▸ concerned
      rw [List.filter_cons_of_pos (by simpa using concerned),
        List.filter_cons_of_pos (by simpa using concerned), run_cons, perform_erase apart, ih]

end PoolCall

end ParticleSystem
