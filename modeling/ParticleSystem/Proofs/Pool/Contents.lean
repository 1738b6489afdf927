import ParticleSystem.Proofs.Pool.Histories

/-!
What the records hold. The contents of a pool are an array of records for each size, with no buffer,
stride or free list behind it; every event changes them at one place. The pools agree with these
contents, so a record changes only by what is written to it.
-/

namespace ParticleSystem

variable {ι β : Type} {size : UInt32}

/-- A record with cells put over its start. -/
def overlay (cells record : List β) : List β := cells.take record.length ++ record.drop cells.length

/-- The records of an image, one stride each. -/
def imageRecords (size : UInt32) (image : Array β) : List (List β) :=
  (List.range (image.size / strideOf size)).map fun slot =>
    (image.toList.drop (slot * strideOf size)).take (strideOf size)

/-- The records once a slot is claimed: a blank one behind the others when the slot is new. -/
def claimedRecords [Cell β] (size : UInt32) (slot : Nat) (records : List (List β)) :
    List (List β) :=
  if slot < records.length then records else records ++ [List.replicate (strideOf size) Cell.blank]

namespace RecordSet

variable {s : RecordSet β} {records : List (List β)}

/-- Whether the records of a set are those of a list. -/
def Holds (s : RecordSet β) (records : List (List β)) : Prop :=
  ∀ slot, (s.record? slot).map Array.toList = records[slot]?

theorem Holds.length_eq (same : s.Holds records) (valid : s.Valid size) :
    records.length = s.slots := by
  have present (slot : Nat) : slot < records.length ↔ slot < s.slots := by
    have read := congrArg Option.isSome (same slot)
    rw [Option.isSome_map] at read
    rw [← valid.record?_isSome, read]
    simp
  have low := (present s.slots).not.mpr (Nat.lt_irrefl _)
  have high := (present records.length).not.mp (Nat.lt_irrefl _)
  omega

theorem Holds.claim [Cell β] (same : s.Holds records) (valid : s.Valid size) :
    s.claim.Holds (claimedRecords size s.next records) := by
  intro slot
  have length := same.length_eq valid
  have below := valid.next_le
  rw [valid.record?_claim, claimedRecords]
  by_cases reused : s.next < records.length
  · rw [if_pos reused]
    by_cases here : slot = s.next
    · obtain ⟨record, found⟩ := Option.isSome_iff_exists.mp
        ((valid.record?_isSome slot).mpr (by omega))
      rw [if_pos here, ← same slot, found, Option.getD_some]
    · rw [if_neg here, same slot]
  · rw [if_neg reused, List.getElem?_append]
    by_cases here : slot = s.next
    · rw [if_pos here, valid.record?_eq_none (by omega), if_neg (by omega), Option.getD_none,
        Option.map_some,
        blankRecord, Array.toList_replicate, show slot - records.length = 0 by
          omega, List.getElem?_cons_zero]
    · rw [if_neg here, same slot]
      by_cases inside : slot < records.length
      · rw [if_pos inside]
      · rw [if_neg inside, List.getElem?_eq_none (by omega), List.getElem?_eq_none]
        simp only [List.length_singleton]
        omega

theorem Holds.write (same : s.Holds records) (valid : s.Valid size) (slot : Nat) (cells : List β) :
    (s.write slot cells).Holds (records.modify slot (overlay cells)) := by
  intro other
  rw [valid.record?_write, List.getElem?_modify, ← same other]
  by_cases here : other = slot
  · subst here
    rw [if_pos rfl]
    cases s.record? other with
    | none => simp
    | some record => simp [toList_overwrite_zero, overlay]
  · simp [here, Ne.symm here]

private theorem holds_load (valid : s.Valid size) (image : Array β) :
    (s.load image).Holds (imageRecords size image) := by
  intro slot
  rw [valid.record?_load, imageRecords, List.getElem?_map, ← valid.stride_eq]
  by_cases inside : slot < image.size / s.stride
  · have fits := (valid.load image).slot_end_le (by rw [valid.slots_load]; exact inside)
    rw [if_pos inside, List.getElem?_range inside, Option.map_some, Option.map_some,
      Array.toList_extract, List.extract_eq_take_drop, Nat.add_sub_cancel_left]
  · rw [if_neg inside, List.getElem?_eq_none (by simpa using inside)]
    rfl

end RecordSet

/-- The records of each set of each pool. -/
abbrev Contents (ι β : Type) := SetTable ι (List (List β))

variable [DecidableEq ι] [Cell β]

def PoolEvent.inscribe (contents : Contents ι β) : PoolEvent ι β → Contents ι β
  | ⟨.alloc pool size, .ok (some slot)⟩ =>
    contents.revise pool size (claimedRecords size slot (contents pool size))
  | ⟨.store pool size value, .ok (some slot)⟩ =>
    contents.revise pool size
      ((claimedRecords size slot (contents pool size)).modify slot (overlay value.toList))
  | ⟨.write pool size slot cells, .ok _⟩ =>
    contents.revise pool size ((contents pool size).modify slot (overlay cells))
  | ⟨.emplace pool size image, .ok _⟩ => contents.revise pool size (imageRecords size image)
  | ⟨.copy source target, .ok _⟩ => Function.update contents target (contents source)
  | ⟨.reset pool, .ok _⟩ => Function.update contents pool fun _ => []
  | _ => contents

/-- The contents after events on pools that were empty before them. -/
def Contents.ofEvents (events : List (PoolEvent ι β)) : Contents ι β :=
  events.foldl PoolEvent.inscribe fun _ _ => []

omit [DecidableEq ι] [Cell β] in
/-- Whether the records found in the pools are the contents. -/
def Contents.Agree (contents : Contents ι β) (pools : ι → Pool β) : Prop :=
  SetTable.Agrees (fun found _ records =>
    ∀ slot, (found.bind (·.record? slot)).map Array.toList = records[slot]?) contents pools

variable {contents : Contents ι β} {before after : ι → Pool β}

omit [DecidableEq ι] [Cell β] in
theorem Contents.Agree.setAt (same : contents.Agree before) (storable : Storable size) (pool : ι) :
    ((before pool).setAt size).Holds (contents pool size) := by
  intro slot
  rw [← Pool.data?_eq storable.nonzero]
  exact same pool size slot

theorem PoolEvent.Effect.inscribe {event : PoolEvent ι β} (effect : event.Effect before after)
    (valid : ∀ i, (before i).Valid) (same : contents.Agree before) :
    (event.inscribe contents).Agree after := by
  cases effect with
  | refused call fault => cases call <;> exact same
  | claimed storable changed =>
    exact same.revise changed ((same.setAt storable _).claim ((valid _).setAt storable))
  | @released pool size slot set left found inside used changed =>
    have held := same pool size
    rw [found] at held
    exact same.keep changed held
  | @stored pool size value left storable changed =>
    have own := (valid pool).setAt storable
    have claimed := (same.setAt storable pool).claim own
    exact same.revise changed (claimed.write own.claim ((before pool).setAt size).next value.toList)
  | @missed pool size slot cells missing =>
    have held := same pool size
    rw [missing] at held
    have none : contents pool size = [] := by
      apply List.eq_nil_iff_length_eq_zero.mpr
      have first := held 0
      cases records : contents pool size with
      | nil => rfl
      | cons head rest => rw [records] at first; cases first
    rw [PoolEvent.inscribe, none, List.modify_nil, ← none, SetTable.revise, Function.update_eq_self,
      Function.update_eq_self]
    exact same
  | @written pool size slot cells set left found changed =>
    have held := same pool size
    rw [found] at held
    exact same.revise changed (RecordSet.Holds.write held (valid pool size set found) slot cells)
  | restored storable changed =>
    exact same.revise changed (RecordSet.holds_load ((valid _).setAt storable) _)
  | copied source target => exact same.replace target (same source)
  | cleared pool => exact same.replace pool fun size slot => rfl

theorem PoolHistory.contents_agree {calls : List (PoolCall ι β)}
    (sized : ∀ call ∈ calls, call.Sized) :
    (Contents.ofEvents (ofCalls calls).events).Agree (ofCalls calls).pools := by
  apply ofCalls_induction (motive := fun events pools => (Contents.ofEvents events).Agree pools)
  · intro i size slot
    rfl
  · intro events event before after valid effect same
    rw [Contents.ofEvents, List.foldl_append]
    exact effect.inscribe valid same
  · exact sized

end ParticleSystem
