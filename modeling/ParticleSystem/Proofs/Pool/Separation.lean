import ParticleSystem.Proofs.Pool.Contents

namespace ParticleSystem

variable {ι β : Type} {pool : ι} {size : UInt32} {slot : Nat} {record : Array β}

/-- The value in a record, without the padding behind it. -/
def Pool.fetch? (p : Pool β) (size : UInt32) (slot : Nat) : Option (List β) :=
  (p.data? size slot).map (·.toList.take size.toNat)

variable [DecidableEq ι]

/-- Whether an event may change the cells of a record that is there. -/
def PoolEvent.touches (pool : ι) (size : UInt32) (slot : Nat) : PoolEvent ι β → Bool
  | ⟨.store i key _, .ok (some given)⟩ => decide (i = pool ∧ key = size ∧ given = slot)
  | ⟨.write i key place _, .ok _⟩ => decide (i = pool ∧ key = size ∧ place = slot)
  | ⟨.emplace i key _, .ok _⟩ => decide (i = pool ∧ key = size)
  | ⟨.copy _ target, .ok _⟩ => decide (target = pool)
  | ⟨.reset i, .ok _⟩ => decide (i = pool)
  | _ => false

variable {before after : ι → Pool β}

private theorem data?_update {i : ι} {key : UInt32} {left : Pool β} {set : RecordSet β}
    (changed : left.find? = Function.update (before i).find? key (some set))
    (found : (before pool).data? size slot = some record)
    (kept : i = pool → key = size → set.record? slot = some record) :
    (Function.update before i left pool).data? size slot = some record := by
  by_cases here : pool = i
  · subst here
    rw [Function.update_self]
    by_cases same : size = key
    · subst same
      rw [Pool.data?_of_update changed]
      exact kept rfl rfl
    · rw [Pool.data?, changed, Function.update_of_ne same]
      exact found
  · rw [Function.update_of_ne here]
    exact found

variable [Cell β]

/-- An event leaves the records that it does not touch as they were. -/
theorem PoolEvent.Effect.data?_eq {event : PoolEvent ι β} (effect : event.Effect before after)
    (valid : ∀ i, (before i).Valid) (untouched : event.touches pool size slot = false)
    (found : (before pool).data? size slot = some record) :
    (after pool).data? size slot = some record := by
  cases effect with
  | refused => exact found
  | @claimed i key left storable changed =>
    refine data?_update changed found fun here same => ?_
    subst here same
    rw [Pool.data?_eq storable.nonzero] at found
    rw [((valid i).setAt storable).record?_claim, found, Option.getD_some, ite_self]
  | @released i key place set left there inside used changed =>
    refine data?_update changed found fun here same => ?_
    subst here same
    rwa [Pool.data?, there, Option.bind_some] at found
  | @stored i key value left storable changed =>
    refine data?_update changed found fun here same => ?_
    subst here same
    have own := (valid i).setAt storable
    have other : slot ≠ ((before i).setAt key).next :=
      fun given => of_decide_eq_false untouched ⟨rfl, rfl, given.symm⟩
    rw [Pool.data?_eq storable.nonzero] at found
    rw [own.claim.record?_write, if_neg other, own.record?_claim, if_neg other, found]
  | missed => exact found
  | @written i key place cells set left there changed =>
    refine data?_update changed found fun here same => ?_
    subst here same
    have other : slot ≠ place := fun given => of_decide_eq_false untouched ⟨rfl, rfl, given.symm⟩
    rw [Pool.data?, there, Option.bind_some] at found
    rw [(valid i key set there).record?_write, if_neg other, found]
  | @restored i key image left storable changed =>
    exact data?_update changed found fun here same =>
      absurd ⟨here, same⟩ (of_decide_eq_false untouched)
  | copied source target =>
    have other : pool ≠ target := fun same => of_decide_eq_false untouched same.symm
    rw [Function.update_of_ne other]
    exact found
  | cleared i =>
    have other : pool ≠ i := fun same => of_decide_eq_false untouched same.symm
    rw [Function.update_of_ne other]
    exact found

private theorem PoolEvent.Effect.data?_alloc
    (effect : PoolEvent.Effect before ⟨.alloc pool size, .ok (some slot)⟩ after)
    (valid : ∀ i, (before i).Valid) :
    (after pool).data? size slot =
      some (((before pool).data? size slot).getD (RecordSet.blankRecord size)) := by
  cases effect with
  | claimed storable changed =>
    rw [Function.update_self, Pool.data?_of_update changed,
      ((valid pool).setAt storable).record?_claim, if_pos rfl, Pool.data?_eq storable.nonzero]

/-- A stored value stands before what is left of the record that is handed out. -/
private theorem PoolEvent.Effect.data?_store {value : Vector β size.toNat}
    (effect : PoolEvent.Effect before ⟨.store pool size value, .ok (some slot)⟩ after)
    (valid : ∀ i, (before i).Valid) :
    let old := ((before pool).data? size slot).getD (RecordSet.blankRecord size)
    ∃ record, (after pool).data? size slot = some record ∧
      record.toList = value.toList ++ old.toList.drop size.toNat := by
  cases effect with
  | @stored _ _ _ left storable changed =>
    have own := (valid pool).setAt storable
    have claimed := own.record?_claim ((before pool).setAt size).next
    rw [if_pos rfl, ← Pool.data?_eq storable.nonzero] at claimed
    have written := own.claim.record?_write ((before pool).setAt size).next value.toList
      ((before pool).setAt size).next
    rw [if_pos rfl, claimed, Option.map_some] at written
    have length : value.toList.length = size.toNat := Vector.length_toList ..
    have fits := le_strideOf size
    rw [← own.claim.stride_eq, ← own.claim.record_size claimed, ← length] at fits
    rw [Function.update_self, Pool.data?_of_update changed]
    refine ⟨_, written, ?_⟩
    rw [RecordSet.toList_overwrite_zero, List.take_of_length_le fits, length]

namespace PoolCall

theorem data?_run {calls : List (PoolCall ι β)} {pools : ι → Pool β}
    (sized : ∀ call ∈ calls, call.Sized) (valid : ∀ i, (pools i).Valid)
    (untouched : ∀ event ∈ (run calls pools).events, event.touches pool size slot = false)
    (found : (pools pool).data? size slot = some record) :
    ((run calls pools).pools pool).data? size slot = some record := by
  apply run_induction (motive := fun events pools =>
    (∀ event ∈ events, event.touches pool size slot = false) →
    (pools pool).data? size slot = some record)
  · intro events event before after valid effect ih untouched
    have found := ih fun earlier member => untouched earlier (List.mem_append_left _ member)
    exact effect.data?_eq valid (untouched event (by simp)) found
  · exact sized
  · exact valid
  · intro _
    exact found
  · exact untouched

end PoolCall

/-- A pool refines an array of records for each size. A record keeps all its cells until a
call touches it; a slot that is handed out reads as it was left, or as zeros when it is new;
and a value that is stored fills the start of its record, leaves the rest, and is found
again whatever happens to other records. -/
theorem PoolHistory.records_separate {earlier : List (PoolCall ι UInt8)}
    (sized : ∀ call ∈ earlier, call.Sized) (i : ι) (size : UInt32) :
    let history := PoolHistory.ofCalls earlier
    let old (slot : Nat) : Array UInt8 :=
      ((history.pools i).data? size slot).getD (Array.replicate (strideOf size) 0)
    (∀ slot, ((history.pools i).data? size slot).map Array.toList =
        (Contents.ofEvents history.events i size)[slot]?) ∧
      (∀ slot record later, (history.pools i).data? size slot = some record →
        (∀ call ∈ later, call.Sized) →
        (∀ event ∈ (PoolCall.run later history.pools).events, event.touches i size slot = false) →
        ((PoolCall.run later history.pools).pools i).data? size slot = some record) ∧
      (∀ slot after, (PoolCall.alloc i size).perform history.pools = (.ok (some slot), after) →
        (after i).data? size slot = some (old slot)) ∧
      ∀ value slot after, (PoolCall.store i size value).perform history.pools =
        (.ok (some slot), after) →
        (∃ record, (after i).data? size slot = some record ∧
          record.toList = value.toList ++ (old slot).toList.drop size.toNat) ∧
        ∀ later, (∀ call ∈ later, call.Sized) →
          (∀ event ∈ (PoolCall.run later after).events, event.touches i size slot = false) →
          ((PoolCall.run later after).pools i).fetch? size slot = some value.toList := by
  intro history old
  have valid := PoolHistory.valid_ofCalls sized
  refine ⟨?_, ?_, ?_, ?_⟩
  · exact PoolHistory.contents_agree sized i size
  · intro slot record later found allowed untouched
    exact PoolCall.data?_run allowed valid untouched found
  · intro slot after done
    have effect := PoolCall.perform_effect valid (.alloc i size) trivial
    rw [show (PoolCall.alloc i size).perform (PoolHistory.ofCalls earlier).pools = _
      from done] at effect
    exact effect.data?_alloc valid
  · intro value slot after done
    have effect := PoolCall.perform_effect valid (.store i size value) trivial
    rw [show (PoolCall.store i size value).perform (PoolHistory.ofCalls earlier).pools = _
      from done] at effect
    obtain ⟨record, found, cells⟩ := effect.data?_store valid
    refine ⟨⟨record, found, cells⟩, ?_⟩
    intro later allowed untouched
    have kept := PoolCall.data?_run allowed (effect.valid valid) untouched found
    rw [Pool.fetch?, kept, Option.map_some, cells, List.take_left' (Vector.length_toList ..)]

/-- A slot of sixteen bytes is given back by one type and taken by another, and then given back
again while its neighbours come and go. -/
theorem records_separate_reused :
    let earlier : List (PoolCall Unit UInt8) :=
      [.store () 16 (.replicate _ 1), .alloc () 16, .store () 3 (.replicate _ 2), .free () 16 0]
    let value : Vector UInt8 (16 : UInt32).toNat := .ofFn fun i => i.val.toUInt8
    let later : List (PoolCall Unit UInt8) :=
      [.write () 16 1 [9, 9], .free () 16 0, .free () 16 0, .emplace () 3 #[5, 5], .alloc () 16,
        .alloc () 16]
    let stored := (PoolCall.store () 16 value).perform (PoolHistory.ofCalls earlier).pools
    stored.1.toOption = some (some 0) ∧
      ((PoolCall.run later stored.2).pools ()).fetch? 16 0 = some value.toList := by
  intro earlier value later stored
  have sized : ∀ call ∈ earlier, call.Sized := by simp [earlier, PoolCall.Sized]
  have done : stored = (.ok (some 0), stored.2) := rfl
  obtain ⟨_, _, _, kept⟩ := PoolHistory.records_separate sized () 16
  refine ⟨rfl, (kept value 0 stored.2 done).2 later ?_ ?_⟩
  · simp [later, PoolCall.Sized]
  · decide

end ParticleSystem
