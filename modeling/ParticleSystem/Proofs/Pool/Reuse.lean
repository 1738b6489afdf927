import ParticleSystem.Proofs.Pool.Refusals
import ParticleSystem.Proofs.Pool.Representation
import Mathlib.Order.Bounds.Basic

/-!
How slots are reused. As long as a set is not replaced as a whole, its free list holds the slots
that were given back and not handed out since, the latest first, and the next slot is the first of
them. The buffer grows only when there is none, so it reaches as far as the set was ever in use.
-/

namespace ParticleSystem

variable {ι β : Type}

/-- What the events on one set tell of its slots. -/
structure Turnover extends Account where
  /-- The slots given back and not handed out since, the latest first. -/
  returned : List Nat

namespace Turnover

def clear : Turnover := ⟨.clear, []⟩

def take (slot : Nat) (t : Turnover) : Turnover := ⟨t.toAccount.take slot, t.returned.erase slot⟩

def give (slot : Nat) (t : Turnover) : Turnover := ⟨t.toAccount.give slot, slot :: t.returned⟩

variable {size : UInt32} {s : RecordSet β} {t : Turnover}

/-- Whether a set is as the events on it tell. -/
structure Follows (t : Turnover) (s : RecordSet β) : Prop where
  describes : t.toAccount.Describes s
  returned_eq : t.returned = s.free

theorem follows_empty (size : UInt32) : clear.Follows (.empty size : RecordSet β) :=
  ⟨Account.describes_empty size, rfl⟩

theorem Follows.claim [Cell β] (same : t.Follows s) (valid : s.Valid size) :
    (t.take s.next).Follows s.claim where
  describes := same.describes.claim valid
  returned_eq := by
    rw [take, same.returned_eq, RecordSet.free_claim, RecordSet.next]
    cases free : s.free with
    | nil => rfl
    | cons slot rest => exact List.erase_cons_head slot rest

theorem Follows.release (same : t.Follows s) (slot : Nat) :
    (t.give slot).Follows (s.release slot) where
  describes := same.describes.release slot
  returned_eq := by rw [give, same.returned_eq, RecordSet.free_release]

theorem Follows.write (same : t.Follows s) (slot : Nat) (cells : List β) :
    t.Follows (s.write slot cells) where
  describes := same.describes.write slot cells
  returned_eq := by rw [same.returned_eq, RecordSet.free_write]

theorem Follows.next_eq (same : t.Follows s) : s.next = t.returned.headD s.slots := by
  rw [same.returned_eq, RecordSet.next]

/-- The slots in use and the free ones are all there are, and none is both. -/
theorem Follows.partition (same : t.Follows s) (valid : s.Valid size) :
    t.held ∪ s.free.toFinset = Finset.range s.slots ∧ Disjoint t.held s.free.toFinset := by
  have below : s.free.toFinset ⊆ Finset.range s.slots := fun slot member =>
    Finset.mem_range.mpr (valid.free_lt slot (List.mem_toFinset.mp member))
  rw [same.describes.held_eq]
  exact ⟨Finset.sdiff_union_of_subset below, Finset.sdiff_disjoint⟩

end Turnover

namespace RecordSet

/-- Whether a set has as many slots as another, or one more and all of them in use. -/
def GrownFrom (s earlier : RecordSet β) : Prop :=
  s.slots = earlier.slots ∨ s.slots = earlier.slots + 1 ∧ s.free = []

theorem grownFrom_claim [Cell β] {size : UInt32} {s : RecordSet β} (valid : s.Valid size) :
    s.claim.GrownFrom s := by
  by_cases none : s.free = []
  · exact .inr ⟨slots_claim_of_nil valid.stride_pos none, by rw [free_claim, none, List.tail_nil]⟩
  · exact .inl (slots_claim_of_free none)

/-- The slots stay the greatest number of records that were ever in use. -/
theorem GrownFrom.isGreatest {s earlier : RecordSet β} (grown : s.GrownFrom earlier)
    {reached : Set Nat} (greatest : IsGreatest reached earlier.slots) :
    IsGreatest (insert (s.slots - s.free.length) reached) s.slots := by
  obtain ⟨member, above⟩ := greatest
  rcases grown with same | ⟨more, none⟩
  · rw [same]
    refine ⟨.inr member, ?_⟩
    rintro active (rfl | before)
    · exact Nat.sub_le ..
    · exact above before
  · rw [none, List.length_nil, Nat.sub_zero]
    refine ⟨.inl rfl, ?_⟩
    rintro active (rfl | before)
    · exact Nat.le_refl _
    · have below := above before
      omega

private theorem claim_release [Cell β] (s : RecordSet β) (slot : Nat) :
    (s.release slot).claim = s :=
  rfl

end RecordSet

namespace Pool

variable {size key : UInt32} {p after : Pool β} {set : RecordSet β}

theorem setAt_erase (other : size ≠ key) : (p.erase key).setAt size = p.setAt size := by
  rw [setAt, setAt, find?_erase_of_ne other]

private theorem activeSize_erase (other : size ≠ key) :
    (p.erase key).activeSize size = p.activeSize size := by
  rw [activeSize, activeSize, find?_erase_of_ne other]

theorem Sound.setAt_valid (sound : p.Sound) (storable : Storable size) :
    (p.setAt size).Valid size := by
  rw [← setAt_erase storable.nonzero]
  exact sound.valid.setAt storable

theorem Sound.activeSize_eq (sound : p.Sound) (nonzero : size ≠ 0) :
    p.activeSize size = .ok ((p.setAt size).slots - (p.setAt size).free.length) := by
  cases found : p.find? size with
  | none => simp [activeSize, setAt_of_missing found, found]
  | some set =>
    rw [activeSize, found, setAt_of_find? found]
    exact (sound.setValid nonzero found).activeSize_eq

theorem Sound.of_update (sound : p.Sound) (valid : set.Valid size)
    (changed : after.find? = Function.update p.find? size (some set)) : after.Sound where
  valid := by
    have nonzero := valid.storable.nonzero
    refine Valid.of_update sound.valid ?_ valid
    rw [find?_erase, find?_erase, changed, Function.update_comm nonzero]
  void found there := sound.void found
    (by rwa [changed, Function.update_of_ne valid.storable.nonzero.symm] at there)

/-- Local work changes its set in the same way when a set of another size is missing. -/
theorem Local.of_erase {γ : Type} {work : EStateM PoolFault (Pool β) γ} (own : Local size work)
    (other : size ≠ key) {value : γ} (done : work (p.erase key) = .ok value after)
    (changed : after.find? = Function.update (p.erase key).find? size (some set)) :
    ∃ left, work p = .ok value left ∧ left.find? = Function.update p.find? size (some set) := by
  have answered := own.answer_erase other p
  have rest := own.left_erase other p
  have frame := own.frame p
  simp only [answer, left, done] at answered rest frame
  cases result : work p with
  | error fault left =>
    rw [result] at answered
    cases answered
  | ok found left =>
    rw [result] at answered rest frame
    cases answered
    refine ⟨left, rfl, funext fun other_size => ?_⟩
    by_cases same : other_size = size
    · subst same
      rw [← find?_erase_of_ne other, ← rest, changed, Function.update_self, Function.update_self]
    · rw [Function.update_of_ne same, frame other_size same]

end Pool

variable [DecidableEq ι] {pool : ι} {size : UInt32} {t : Turnover} {before after : ι → Pool β}

/-- Whether a call puts another set in the place of one. -/
def PoolCall.Replaces (pool : ι) (size : UInt32) : PoolCall ι β → Prop
  | .emplace i key _ => i = pool ∧ key = size
  | .copy _ target => target = pool
  | .reset i => i = pool
  | _ => False

namespace Turnover

/-- The turnover of the set of a size in a pool after an event. -/
def note (pool : ι) (size : UInt32) (t : Turnover) : PoolEvent ι β → Turnover
  | ⟨.alloc i key, .ok (some slot)⟩ => if i = pool ∧ key = size then t.take slot else t
  | ⟨.store i key _, .ok (some slot)⟩ => if i = pool ∧ key = size then t.take slot else t
  | ⟨.free i key slot, .ok _⟩ => if i = pool ∧ key = size then t.give slot else t
  | _ => t

def ofEvents (pool : ι) (size : UInt32) (events : List (PoolEvent ι β)) : Turnover :=
  events.foldl (note pool size) clear

private theorem note_of_own {call : PoolCall ι β} {i : ι} {key : UInt32}
    (own : call.own? = some (i, key)) (apart : ¬(i = pool ∧ key = size)) (t : Turnover)
    (answer : Except PoolFault (Option Nat)) : t.note pool size ⟨call, answer⟩ = t := by
  cases call with
  | alloc => cases own; rcases answer with _ | _ | slot <;> simp [note, apart]
  | store => cases own; rcases answer with _ | _ | slot <;> simp [note, apart]
  | free => cases own; rcases answer with _ | slot <;> simp [note, apart]
  | _ => rfl

private theorem ofEvents_concat (events : List (PoolEvent ι β)) (event : PoolEvent ι β) :
    ofEvents pool size (events ++ [event]) = (ofEvents pool size events).note pool size event := by
  rw [ofEvents, List.foldl_append]
  rfl

end Turnover

private theorem setAt_update {i : ι} {key : UInt32} {left : Pool β} {set : RecordSet β}
    (changed : left.find? = Function.update (before i).find? key (some set)) :
    (Function.update before i left pool).setAt size =
      if i = pool ∧ key = size then set else (before pool).setAt size := by
  by_cases here : i = pool
  · subst here
    rw [Function.update_self, Pool.setAt_of_update changed, Function.update_apply]
    simp [eq_comm]
  · rw [Function.update_of_ne (Ne.symm here), if_neg fun both => here both.1]

variable [Cell β]

/-- An event that does not replace a set is told of it, and lets it
grow only when none of its slots is free. -/
theorem PoolEvent.Effect.follows {event : PoolEvent ι β} (effect : event.Effect before after)
    (valid : ∀ i, (before i).Valid) (kept : ¬event.call.Replaces pool size)
    (same : t.Follows ((before pool).setAt size)) :
    (t.note pool size event).Follows ((after pool).setAt size) ∧
      ((after pool).setAt size).GrownFrom ((before pool).setAt size) := by
  cases effect with
  | refused call fault => cases call <;> exact ⟨same, .inl rfl⟩
  | @claimed i key left storable changed =>
    rw [setAt_update changed, Turnover.note]
    split
    · obtain ⟨rfl, rfl⟩ := ‹_ ∧ _›
      have own := (valid i).setAt storable
      exact ⟨same.claim own, RecordSet.grownFrom_claim own⟩
    · exact ⟨same, .inl rfl⟩
  | @released i key slot set left found inside used changed =>
    rw [setAt_update changed, Turnover.note]
    split
    · obtain ⟨rfl, rfl⟩ := ‹_ ∧ _›
      rw [Pool.setAt_of_find? found] at same ⊢
      exact ⟨same.release slot, .inl (RecordSet.slots_release set slot)⟩
    · exact ⟨same, .inl rfl⟩
  | @stored i key value left storable changed =>
    rw [setAt_update changed, Turnover.note]
    split
    · obtain ⟨rfl, rfl⟩ := ‹_ ∧ _›
      have own := (valid i).setAt storable
      refine ⟨(same.claim own).write _ _, ?_⟩
      rw [RecordSet.GrownFrom, RecordSet.slots_write, RecordSet.free_write]
      exact RecordSet.grownFrom_claim own
    · exact ⟨same, .inl rfl⟩
  | missed => exact ⟨same, .inl rfl⟩
  | @written i key slot cells set left found changed =>
    rw [setAt_update changed]
    split
    · obtain ⟨rfl, rfl⟩ := ‹_ ∧ _›
      rw [Pool.setAt_of_find? found] at same ⊢
      exact ⟨same.write slot cells, .inl (RecordSet.slots_write set slot cells)⟩
    · exact ⟨same, .inl rfl⟩
  | @restored i key image left storable changed =>
    have apart : ¬(i = pool ∧ key = size) := kept
    rw [setAt_update changed, if_neg apart]
    exact ⟨same, .inl rfl⟩
  | copied source target =>
    rw [Function.update_of_ne (Ne.symm kept)]
    exact ⟨same, .inl rfl⟩
  | cleared i =>
    rw [Function.update_of_ne (Ne.symm kept)]
    exact ⟨same, .inl rfl⟩

namespace PoolCall

variable {pools : ι → Pool β}

theorem follows_perform (sound : ∀ i, (pools i).Sound) (nonzero : size ≠ 0) (call : PoolCall ι β)
    (kept : ¬call.Replaces pool size) (same : t.Follows ((pools pool).setAt size)) :
    (t.note pool size ⟨call, (call.perform pools).1⟩).Follows
      (((call.perform pools).2 pool).setAt size) ∧
      (((call.perform pools).2 pool).setAt size).GrownFrom ((pools pool).setAt size) := by
  by_cases concerned : call.concerns 0 = true
  · -- a call on records without a size changes no other set
    obtain ⟨⟨i, key⟩, own, zero⟩ := (Option.any_eq_true _ _).mp concerned
    have zero : key = 0 := of_decide_eq_true zero
    have other : size ≠ key := zero ▸ nonzero
    have unchanged : ((call.perform pools).2 pool).setAt size = (pools pool).setAt size := by
      rw [Pool.setAt, Pool.setAt, find?_perform own pools fun both => other (Prod.mk.inj both).2]
    rw [unchanged, Turnover.note_of_own own fun both => other both.2.symm]
    exact ⟨same, .inl rfl⟩
  · have apart := Bool.not_eq_true _ ▸ concerned
    have effect := perform_effect (fun i => (sound i).valid) call (sized_of_apart apart)
    rw [perform_erase apart] at effect
    rw [← Pool.setAt_erase nonzero] at same
    have followed := effect.follows (fun i => (sound i).valid) kept same
    rwa [Pool.setAt_erase nonzero, Pool.setAt_erase nonzero] at followed

/-- A slot of an allowed size is always handed out, the next one
of its set, and only that set changes. -/
theorem perform_alloc (sound : (pools pool).Sound) (nonzero : size ≠ 0)
    (small : size ≤ maxRecordSize) :
    ∃ left : Pool β, (PoolCall.alloc pool size).perform pools =
        (.ok (some ((pools pool).setAt size).next), Function.update pools pool left) ∧
      left.find? = Function.update (pools pool).find? size
        (some ((pools pool).setAt size).claim) := by
  obtain ⟨after, done, changed⟩ := sound.valid.alloc_eq_ok nonzero small
  rw [Pool.setAt_erase nonzero] at done changed
  obtain ⟨left, done, changed⟩ := (Pool.Local.alloc size).of_erase nonzero done changed
  exact ⟨left, by simp [perform, on, done], changed⟩

private theorem perform_free (sound : (pools pool).Sound) (nonzero : size ≠ 0) {slot : Nat}
    (taken : (PoolCall.free pool size slot).perform pools = (.ok none, after)) :
    ∃ (set : RecordSet β) (left : Pool β), (pools pool).find? size = some set ∧
      (set.release slot).Valid size ∧
      after = Function.update pools pool left ∧
      left.find? = Function.update (pools pool).find? size (some (set.release slot)) := by
  rcases sound.valid.free_cases size slot with
    ⟨fault, _, failed⟩ | ⟨_, set, found, inside, used, after', done, changed⟩
  · have answered := (Pool.Local.free size slot).answer_erase nonzero (pools pool)
    rw [perform, on_eq, ← answered, Pool.answer, failed] at taken
    cases taken
  · obtain ⟨left, done, changed⟩ := (Pool.Local.free size slot).of_erase nonzero done changed
    rw [Pool.find?_erase_of_ne nonzero] at found
    refine ⟨set, left, found, (sound.setValid nonzero found).release inside used, ?_, changed⟩
    simp only [perform, on, done] at taken
    exact (Prod.mk.inj taken).2.symm

private theorem perform_alloc_of_free (sound : ∀ i, (pools i).Sound) (nonzero : size ≠ 0)
    (small : size ≤ maxRecordSize) {slot : Nat}
    (taken : (PoolCall.free pool size slot).perform pools = (.ok none, after)) :
    (PoolCall.alloc pool size).perform after = (.ok (some slot), pools) := by
  obtain ⟨set, left, found, valid, rfl, changed⟩ := perform_free (sound pool) nonzero taken
  have here : (Function.update pools pool left) pool = left := Function.update_self ..
  have kept : ((Function.update pools pool left) pool).Sound := by
    rw [here]
    exact (sound pool).of_update valid changed
  obtain ⟨last, done, restored⟩ := perform_alloc kept nonzero small
  have set_eq : left.setAt size = set.release slot := by
    rw [Pool.setAt_of_update changed, Function.update_self]
  rw [here, set_eq, changed, RecordSet.claim_release, Function.update_idem, ← found,
    Function.update_eq_self] at restored
  rw [done, here, set_eq, Pool.ext_find? restored, Function.update_idem, Function.update_eq_self]
  rfl

theorem run_concat (calls : List (PoolCall ι β)) (call : PoolCall ι β) (pools : ι → Pool β) :
    run (calls ++ [call]) pools =
      ⟨(run calls pools).events ++ [⟨call, (call.perform (run calls pools).pools).1⟩],
        (call.perform (run calls pools).pools).2⟩ := by
  induction calls generalizing pools with
  | nil => rfl
  | cons first rest ih => rw [List.cons_append, run_cons, ih, run_cons, List.cons_append]

private theorem run_append (first second : List (PoolCall ι β)) (pools : ι → Pool β) :
    (run (first ++ second) pools).pools = (run second (run first pools).pools).pools := by
  induction first generalizing pools with
  | nil => rfl
  | cons call rest ih => rw [List.cons_append, run_cons, ih, run_cons]

/-- How many records of a size were in use at some time of a run. -/
def reached (pool : ι) (size : UInt32) (calls : List (PoolCall ι β)) (pools : ι → Pool β) :
    Set Nat :=
  {active | ∃ before, before <+: calls ∧
    ((run before pools).pools pool).activeSize size = .ok active}

private theorem reached_concat (calls : List (PoolCall ι β)) (call : PoolCall ι β)
    (pools : ι → Pool β) {active : Nat}
    (now : ((run (calls ++ [call]) pools).pools pool).activeSize size = .ok active) :
    reached pool size (calls ++ [call]) pools = insert active (reached pool size calls pools) := by
  ext other
  constructor
  · rintro ⟨before, part, own⟩
    rcases List.prefix_concat_iff.mp part with rfl | earlier
    · rw [now] at own
      cases own
      exact .inl rfl
    · exact .inr ⟨before, earlier, own⟩
  · rintro (rfl | ⟨before, earlier, own⟩)
    · exact ⟨_, List.prefix_rfl, now⟩
    · exact ⟨before, earlier.trans (List.prefix_append calls [call]), own⟩

end PoolCall

namespace PoolHistory

variable {earlier calls : List (PoolCall ι β)}

theorem sound_run (earlier calls : List (PoolCall ι β)) (i : ι) :
    ((PoolCall.run calls (ofCalls earlier).pools).pools i).Sound := by
  rw [ofCalls, ← PoolCall.run_append]
  exact sound_ofCalls (earlier ++ calls) i

/-- A set that was empty is as the events on it tell, as long as it is not replaced. -/
theorem follows_run (nonzero : size ≠ 0)
    (created : ((ofCalls earlier).pools pool).setAt size = .empty size)
    (kept : ∀ call ∈ calls, ¬call.Replaces pool size) :
    (Turnover.ofEvents pool size (PoolCall.run calls (ofCalls earlier).pools).events).Follows
      (((PoolCall.run calls (ofCalls earlier).pools).pools pool).setAt size) := by
  induction calls using List.reverseRecOn with
  | nil =>
    change Turnover.clear.Follows (((ofCalls earlier).pools pool).setAt size)
    rw [created]
    exact Turnover.follows_empty size
  | append_singleton calls call ih =>
    have same := ih fun other member => kept other (List.mem_append_left _ member)
    rw [PoolCall.run_concat, Turnover.ofEvents_concat]
    exact (PoolCall.follows_perform (sound_run earlier calls) nonzero call
      (kept call (by simp)) same).1

/-- The slots of a set that was empty are as many as were ever in use
at once, as long as it is not replaced. -/
theorem isGreatest_slots (nonzero : size ≠ 0)
    (created : ((ofCalls earlier).pools pool).setAt size = .empty size)
    (kept : ∀ call ∈ calls, ¬call.Replaces pool size) :
    IsGreatest (PoolCall.reached pool size calls (ofCalls earlier).pools)
      (((PoolCall.run calls (ofCalls earlier).pools).pools pool).setAt size).slots := by
  induction calls using List.reverseRecOn with
  | nil =>
    have now := (sound_run earlier [] pool).activeSize_eq nonzero
    simp only [PoolCall.run, created, RecordSet.slots_empty, RecordSet.free_empty,
      List.length_nil] at now ⊢
    refine ⟨⟨[], List.prefix_rfl, now⟩, ?_⟩
    rintro active ⟨before, part, own⟩
    rw [List.prefix_nil.mp part] at own
    cases now.symm.trans own
    exact Nat.le_refl _
  | append_singleton calls call ih =>
    have kept_first : ∀ other ∈ calls, ¬other.Replaces pool size :=
      fun other member => kept other (List.mem_append_left _ member)
    have same := follows_run nonzero created kept_first
    have grown := (PoolCall.follows_perform (sound_run earlier calls) nonzero call
      (kept call (by simp)) same).2
    have now := (sound_run earlier (calls ++ [call]) pool).activeSize_eq nonzero
    rw [PoolCall.reached_concat calls call _ now, PoolCall.run_concat]
    exact grown.isGreatest (ih kept_first)

/-- Slots are reused latest first. Whatever happens to other sets and pools, a set that is not
replaced hands out the slot that was given back last and not handed out since, or a new one when
there is none. So its slots are as many as were ever in use at once; those in use and the free ones
are all of them; and a slot that is given back and handed out again leaves everything as it was. -/
theorem slots_reused_latest_first (nonzero : size ≠ 0) (small : size ≤ maxRecordSize)
    (created : ((ofCalls earlier).pools pool).setAt size = .empty size)
    (kept : ∀ call ∈ calls, ¬call.Replaces pool size) :
    let history := PoolCall.run calls (ofCalls earlier).pools
    let turnover := Turnover.ofEvents pool size history.events
    let set := (history.pools pool).setAt size
    ∃ slots, set.slotCount = .ok slots ∧ set.free = turnover.returned ∧
      (∃ after, (PoolCall.alloc pool size).perform history.pools =
        (.ok (some (turnover.returned.headD slots)), after)) ∧
      IsGreatest (PoolCall.reached pool size calls (ofCalls earlier).pools) slots ∧
      (turnover.held ∪ set.free.toFinset = Finset.range slots ∧
        Disjoint turnover.held set.free.toFinset ∧
        set.free.Nodup ∧ (history.pools pool).activeSize size = .ok turnover.held.card) ∧
      ∀ slot after, (PoolCall.free pool size slot).perform history.pools = (.ok none, after) →
        (PoolCall.alloc pool size).perform after = (.ok (some slot), history.pools) := by
  intro history turnover set
  have sound := sound_run earlier calls
  have same := follows_run nonzero created kept
  have valid := (sound pool).setAt_valid (.of_small nonzero small)
  obtain ⟨left, done, -⟩ := PoolCall.perform_alloc (sound pool) nonzero small
  have next := same.next_eq
  obtain ⟨all, apart⟩ := same.partition valid
  refine ⟨set.slots, valid.slotCount_eq, same.returned_eq.symm,
    ⟨Function.update history.pools pool left, ?_⟩, isGreatest_slots nonzero created kept,
    ⟨all, apart, valid.free_nodup, ?_⟩, ?_⟩
  · rw [← next]
    exact done
  · have described := same.describes
    rw [← Pool.setAt_erase nonzero] at described
    rw [← Pool.activeSize_erase nonzero]
    exact (described.activeSize_eq (sound pool).valid).1
  · intro slot after taken
    exact PoolCall.perform_alloc_of_free sound nonzero small taken

/-- Two of three slots are given back, and while records of other
sizes come and go, one of them is reused. -/
theorem slots_reused_latest_first_interleaved :
    let calls : List (PoolCall Unit UInt8) :=
      [.alloc () 16, .alloc () 16, .alloc () 16, .free () 16 2, .emplace () 0 #[7],
        .free () 16 0, .alloc () 3, .emplace () 3 #[], .alloc () 16]
    let history := PoolCall.run calls (ofCalls []).pools
    (∃ after, (PoolCall.alloc () 16).perform history.pools = (.ok (some 2), after)) ∧
      IsGreatest (PoolCall.reached () 16 calls (ofCalls []).pools) 3 ∧
      ∃ after, (PoolCall.free () 16 1).perform history.pools = (.ok none, after) ∧
        (PoolCall.alloc () 16).perform after = (.ok (some 1), history.pools) := by
  intro calls history
  have kept : ∀ call ∈ calls, ¬call.Replaces () 16 := by simp [calls, PoolCall.Replaces]
  have created : ((ofCalls ([] : List (PoolCall Unit UInt8))).pools ()).setAt 16 = .empty 16 := rfl
  obtain ⟨slots, count, -, reused, greatest, -, again⟩ :=
    slots_reused_latest_first (by decide) (by decide) created kept
  have three : ((history.pools ()).setAt 16).slotCount = .ok 3 := by decide
  cases count.symm.trans three
  refine ⟨reused, greatest, _, rfl, again 1 _ rfl⟩

end PoolHistory

end ParticleSystem
