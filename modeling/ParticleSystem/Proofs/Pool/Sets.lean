import ParticleSystem.Pool.Basic
import ParticleSystem.Proofs.Pool.Updates
import Mathlib.Data.List.Nodup
import Mathlib.Logic.Function.Basic

namespace ParticleSystem.Pool

variable {β : Type} {p : Pool β} {size : UInt32}

theorem lookup_cons_eq_ite (key first : UInt32) (set : RecordSet β)
    (rest : List (UInt32 × RecordSet β)) :
    ((first, set) :: rest).lookup key = if key = first then some set else rest.lookup key := by
  rw [List.lookup_cons]
  by_cases same : key = first
  · rw [if_pos same, beq_iff_eq.mpr same]
  · rw [if_neg same, beq_false_of_ne same]

private theorem lookup_modifyIn (size key : UInt32) (change : RecordSet β → RecordSet β)
    (sets : List (UInt32 × RecordSet β)) : (modifyIn size change sets).lookup key =
      if key = size then (sets.lookup key).map change else sets.lookup key := by
  induction sets with
  | nil => simp [modifyIn]
  | cons head rest ih =>
    obtain ⟨first, set⟩ := head
    rw [modifyIn, lookup_cons_eq_ite, lookup_cons_eq_ite, ih]
    by_cases here : key = first
    · subst here
      by_cases same : key = size <;> simp [same]
    · simp [here]

private theorem lookup_eq_none_of_lt {sets : List (UInt32 × RecordSet β)}
    (above : ∀ key ∈ sets.map Prod.fst, size < key) : sets.lookup size = none := by
  rw [List.lookup_eq_none_iff]
  intro entry member
  have below := above entry.1 (List.mem_map_of_mem member)
  simpa using UInt32.ne_of_lt below

private theorem lookup_upsertIn (size key : UInt32) (fresh : RecordSet β)
    (change : RecordSet β → RecordSet β) {sets : List (UInt32 × RecordSet β)}
    (ordered : (sets.map Prod.fst).Pairwise (· < ·)) :
    (upsertIn size fresh change sets).lookup key =
      if key = size then some (change ((sets.lookup size).getD fresh)) else sets.lookup key := by
  induction sets with
  | nil => rw [upsertIn, lookup_cons_eq_ite, List.lookup_nil, List.lookup_nil, Option.getD_none]
  | cons head rest ih =>
    obtain ⟨first, set⟩ := head
    simp only [List.map_cons, List.pairwise_cons] at ordered
    unfold upsertIn
    by_cases here : first = size
    · subst here
      rw [if_pos rfl, lookup_cons_eq_ite, lookup_cons_eq_ite, lookup_cons_eq_ite, if_pos rfl,
        Option.getD_some]
      by_cases same : key = first
      · rw [if_pos same, if_pos same]
      · rw [if_neg same, if_neg same, if_neg same]
    · rw [if_neg here]
      by_cases below : size < first
      · have missing : ((first, set) :: rest).lookup size = none := by
          apply lookup_eq_none_of_lt
          intro later member
          rcases List.mem_cons.mp member with same | behind
          · exact same ▸ below
          · exact UInt32.lt_trans below (ordered.1 later behind)
        rw [if_pos below, missing, lookup_cons_eq_ite, Option.getD_none]
      · rw [if_neg below, lookup_cons_eq_ite, lookup_cons_eq_ite, lookup_cons_eq_ite, ih ordered.2,
          if_neg (Ne.symm here)]
        by_cases same : key = size
        · rw [if_neg (fun first => here (first.symm.trans same)), if_pos same, if_pos same]
        · rw [if_neg same, if_neg same]

theorem find?_upsert (p : Pool β) (size : UInt32) (fresh : RecordSet β)
    (change : RecordSet β → RecordSet β) :
    (p.upsert size fresh change).find? =
      Function.update p.find? size (some (change ((p.find? size).getD fresh))) := by
  funext key
  rw [Function.update_apply]
  exact lookup_upsertIn size key fresh change p.ordered

theorem find?_modify (p : Pool β) (size : UInt32) (change : RecordSet β → RecordSet β) :
    (p.modify size change).find? = Function.update p.find? size ((p.find? size).map change) := by
  funext key
  rw [Function.update_apply]
  refine (lookup_modifyIn size key change p.sets).trans ?_
  by_cases same : key = size
  · rw [if_pos same, if_pos same, same]
    rfl
  · rw [if_neg same, if_neg same]
    rfl

@[simp] theorem find?_empty (size : UInt32) : (Pool.empty : Pool β).find? size = none := rfl

private theorem lookup_eq_some_iff {sets : List (UInt32 × RecordSet β)} {set : RecordSet β}
    (ordered : (sets.map Prod.fst).Pairwise (· < ·)) :
    sets.lookup size = some set ↔ (size, set) ∈ sets := by
  induction sets with
  | nil => simp
  | cons head rest ih =>
    obtain ⟨first, held⟩ := head
    rw [List.map_cons, List.pairwise_cons] at ordered
    rw [lookup_cons_eq_ite, List.mem_cons, Prod.mk.injEq]
    split
    · rename_i here
      subst here
      have absent : (size, set) ∉ rest := fun member =>
        UInt32.lt_irrefl _ (ordered.1 size (List.mem_map_of_mem member))
      simp [absent, eq_comm]
    · rename_i elsewhere
      simp [elsewhere, ih ordered.2]

theorem ext_find? {q : Pool β} (same : p.find? = q.find?) : p = q := by
  obtain ⟨sets, ordered⟩ := p
  obtain ⟨others, ordered'⟩ := q
  rw [Pool.mk.injEq]
  have nodup := List.Nodup.of_map _ (ordered.imp UInt32.ne_of_lt)
  have nodup' := List.Nodup.of_map _ (ordered'.imp UInt32.ne_of_lt)
  have perm : sets.Perm others := (List.perm_ext_iff_of_nodup nodup nodup').mpr
    fun ⟨size, set⟩ => by
    have here : sets.lookup size = others.lookup size := congrFun same size
    rw [← lookup_eq_some_iff ordered, ← lookup_eq_some_iff ordered', here]
  have order := List.pairwise_map.mp ordered
  have order' := List.pairwise_map.mp ordered'
  exact perm.eq_of_pairwise
    (fun _ _ _ _ below above => absurd (UInt32.lt_trans below above) (UInt32.lt_irrefl _))
      order order'

theorem modify_eq_self {change : RecordSet β → RecordSet β}
    (fixed : (p.find? size).map change = p.find? size) : p.modify size change = p := by
  apply ext_find?
  rw [find?_modify, fixed, Function.update_eq_self]

theorem sets_only_iff (p : Pool β) (size : UInt32) :
    (∀ entry ∈ p.sets, entry.1 = size) ↔ ∀ other, other ≠ size → p.find? other = none := by
  constructor
  · intro only other different
    refine List.lookup_eq_none_iff.mpr fun entry member => ?_
    simpa [only entry member] using different
  · intro alone entry member
    by_contra different
    have missing := List.lookup_eq_none_iff.mp (alone entry.1 different) entry member
    simp at missing

def Valid (p : Pool β) : Prop := ∀ size set, p.find? size = some set → set.Valid size

theorem valid_empty : (Pool.empty : Pool β).Valid := by
  intro size set found
  cases found

theorem Valid.of_update {p' : Pool β} {set : RecordSet β} (valid : p.Valid)
    (changed : p'.find? = Function.update p.find? size (some set)) (kept : set.Valid size) :
    p'.Valid := by
  intro key other found
  rw [changed, Function.update_apply] at found
  split at found
  · rename_i same
    cases found
    exact same ▸ kept
  · exact valid key other found

/-- The set of a size, the empty one as long as nothing was stored. -/
def setAt (p : Pool β) (size : UInt32) : RecordSet β := (p.find? size).getD (.empty size)

theorem setAt_of_find? {set : RecordSet β} (found : p.find? size = some set) :
    p.setAt size = set := by
  rw [setAt, found, Option.getD_some]

theorem setAt_of_missing (missing : p.find? size = none) : p.setAt size = .empty size := by
  rw [setAt, missing, Option.getD_none]

theorem Valid.setAt (valid : p.Valid) (storable : Storable size) : (p.setAt size).Valid size := by
  cases found : p.find? size with
  | none =>
    rw [setAt_of_missing found]
    exact RecordSet.valid_empty storable
  | some set =>
    rw [setAt_of_find? found]
    exact valid size set found

theorem setAt_of_update {p' : Pool β} {set : RecordSet β}
    (changed : p'.find? = Function.update p.find? size (some set)) :
    p'.setAt = Function.update p.setAt size set := by
  funext key
  rw [Pool.setAt, changed, Function.update_apply, Function.update_apply]
  split <;> rfl

theorem data?_eq (nonzero : size ≠ 0) (slot : Nat) :
    p.data? size slot = (p.setAt size).record? slot := by
  cases found : p.find? size with
  | none =>
    rw [setAt_of_missing found, data?, found, Option.bind_none, RecordSet.record?_empty nonzero]
  | some set => rw [setAt_of_find? found, data?, found, Option.bind_some]

theorem data?_of_update {p' : Pool β} {set : RecordSet β}
    (changed : p'.find? = Function.update p.find? size (some set)) (slot : Nat) :
    p'.data? size slot = set.record? slot := by
  rw [data?, changed, Function.update_self, Option.bind_some]

/-- Why no record of a size is handed out. -/
def allocFault? (size : UInt32) : Option PoolFault :=
  if size = 0 then some .zeroSize
  else if maxRecordSize < size then some (.recordTooLarge size)
  else none

/-- Why a slot is not taken back, the first reason first. -/
def freeFault? (p : Pool β) (size : UInt32) (slot : Nat) : Option PoolFault :=
  match p.find? size with
  | none => some (.unknownSet size)
  | some set => if size = 0 then some .zeroStride else set.releaseFault? slot

/-- Why an image is not restored. -/
def emplaceFault? (p : Pool β) (size : UInt32) : Option PoolFault :=
  if size = 0 then some .zeroStride
  else if (p.find? size).isNone ∧ 4294967280 ≤ size then some .sizeOverflow
  else none

private theorem Valid.ensure_cases (valid : p.Valid) (nonzero : size ≠ 0) :
    emplaceFault? p size = some .sizeOverflow ∧ ensure size p = .error .sizeOverflow p ∨
      emplaceFault? p size = none ∧ Storable size ∧ ∃ made, ensure size p = .ok () made ∧
        made.find? = Function.update p.find? size (some (p.setAt size)) := by
  rw [emplaceFault?, if_neg nonzero]
  cases found : p.find? size with
  | some set =>
    refine .inr ⟨by simp, (valid size set found).storable, p, ?_, ?_⟩
    · simp [ensure, found]
    · rw [setAt_of_find? found, ← found, Function.update_eq_self]
  | none =>
    by_cases large : 4294967280 ≤ size
    · refine .inl ⟨by simp [large], ?_⟩
      simp [ensure, found, RecordSet.ofSize, alignSize_of_le large, Except.map]
    · have below : size < 4294967280 := UInt32.not_le.mp large
      have storable := (Storable.iff_lt nonzero).mpr below
      obtain ⟨stride, aligned⟩ := exists_alignSize below
      have made := RecordSet.ofSize_eq_empty (β := β) aligned
      refine .inr ⟨by simp [large], storable, p.upsert size (.empty size) id, ?_, ?_⟩
      · simp [ensure, found, made]
      · rw [find?_upsert, found, setAt_of_missing found]
        rfl

private theorem ask_of_update {γ : Type} {made : Pool β} {set : RecordSet β} {answer : γ}
    {question : RecordSet β → Except PoolFault γ}
    (changed : made.find? = Function.update p.find? size (some set))
    (answered : question set = .ok answer) : ask size question made = .ok answer made := by
  simp [ask, changed, answered]

private theorem find?_modify_update {made : Pool β} {set : RecordSet β}
    (change : RecordSet β → RecordSet β)
    (changed : made.find? = Function.update p.find? size (some set)) :
    (made.modify size change).find? = Function.update p.find? size (some (change set)) := by
  rw [find?_modify, changed, Function.update_idem, Function.update_self, Option.map_some]

section Claims

variable [Cell β]

/-- A record of an allowed size is always handed out: in the next slot of its set. -/
theorem Valid.alloc_eq_ok (valid : p.Valid) (nonzero : size ≠ 0) (small : size ≤ maxRecordSize) :
    ∃ after, alloc size p = .ok (p.setAt size).next after ∧
      after.find? = Function.update p.find? size (some (p.setAt size).claim) := by
  have storable := Storable.of_small nonzero small
  rcases valid.ensure_cases nonzero with ⟨overflow, _⟩ | ⟨_, _, made, ensured, changed⟩
  · have room := (Storable.iff_lt nonzero).mp storable
    simp [emplaceFault?, nonzero, UInt32.not_le.mpr room] at overflow
  · have answered := ask_of_update changed (valid.setAt storable).nextSlot_eq
    have allowed : ¬ maxRecordSize < size := UInt32.not_lt.mpr small
    refine ⟨made.modify size RecordSet.claim, ?_, find?_modify_update _ changed⟩
    simp [alloc, nonzero, allowed, ensured, answered, bind, EStateM.bind]

theorem alloc_of_fault {fault : PoolFault} (p : Pool β) (refused : allocFault? size = some fault) :
    alloc size p = .error fault p := by
  unfold allocFault? at refused
  split at refused
  · rename_i zero
    cases refused
    rw [alloc, if_pos zero]
    rfl
  · rename_i nonzero
    split at refused
    · rename_i large
      cases refused
      rw [alloc, if_neg nonzero, if_pos large]
      rfl
    · cases refused

theorem allocFault?_eq_none : allocFault? size = none ↔ size ≠ 0 ∧ size ≤ maxRecordSize := by
  unfold allocFault?
  split
  · simp [*]
  · rename_i nonzero
    rw [← UInt32.not_lt]
    simp [nonzero]

/-- Handing out a slot either changes nothing or claims the next slot of the set. -/
theorem Valid.alloc_cases (valid : p.Valid) (size : UInt32) :
    (∃ fault, allocFault? size = some fault ∧ alloc size p = .error fault p) ∨
      allocFault? size = none ∧ Storable size ∧ ∃ after,
      alloc size p = .ok (p.setAt size).next after ∧
        after.find? = Function.update p.find? size (some (p.setAt size).claim) := by
  cases refused : allocFault? size with
  | some fault => exact .inl ⟨fault, rfl, alloc_of_fault p refused⟩
  | none =>
    obtain ⟨nonzero, small⟩ := allocFault?_eq_none.mp refused
    exact .inr ⟨rfl, .of_small nonzero small, valid.alloc_eq_ok nonzero small⟩

theorem store_of_fault {fault : PoolFault} {cells : List β}
    (failed : alloc size p = .error fault p) : store size cells p = .error fault p := by
  simp [store, failed, bind, EStateM.bind]

/-- Storing cells either changes nothing or claims the next slot of the set and writes to it. -/
theorem Valid.store_cases (valid : p.Valid) (size : UInt32) (cells : List β) :
    (∃ fault, allocFault? size = some fault ∧ store size cells p = .error fault p) ∨
      allocFault? size = none ∧ Storable size ∧ ∃ after,
      store size cells p = .ok (p.setAt size).next after ∧
        after.find? = Function.update p.find? size
          (some ((p.setAt size).claim.write (p.setAt size).next cells)) := by
  rcases valid.alloc_cases size with ⟨fault, refused, failed⟩ |
    ⟨allowed, storable, after, done, changed⟩
  · exact .inl ⟨fault, refused, store_of_fault failed⟩
  · refine .inr ⟨allowed, storable, after.write size (p.setAt size).next cells, ?_,
      find?_modify_update _ changed⟩
    simp [store, done, bind, EStateM.bind]

end Claims

theorem find?_write {set : RecordSet β} (slot : Nat) (cells : List β)
    (found : p.find? size = some set) :
    (p.write size slot cells).find? =
      Function.update p.find? size (some (set.write slot cells)) := by
  rw [write, find?_modify, found, Option.map_some]

theorem write_of_missing (slot : Nat) (cells : List β) (missing : p.find? size = none) :
    p.write size slot cells = p := modify_eq_self (by rw [missing, Option.map_none])

theorem free_of_missing (slot : Nat) (missing : p.find? size = none) :
    free size slot p = .error (.unknownSet size) p := by
  simp [free, ask, missing, bind, EStateM.bind]

theorem free_of_check {set : RecordSet β} {slot : Nat} {fault : PoolFault}
    (found : p.find? size = some set) (refused : set.checkRelease slot = .error fault) :
    free size slot p = .error fault p := by
  simp [free, ask, found, refused, bind, EStateM.bind]

/-- Giving a slot back either changes nothing or frees a slot in use of a set that is there. -/
theorem Valid.free_cases (valid : p.Valid) (size : UInt32) (slot : Nat) :
    (∃ fault, freeFault? p size slot = some fault ∧ free size slot p = .error fault p) ∨
      freeFault? p size slot = none ∧ ∃ set, p.find? size = some set ∧ slot < set.slots ∧
      slot ∉ set.free ∧
        ∃ after, free size slot p = .ok () after ∧
          after.find? = Function.update p.find? size (some (set.release slot)) := by
  cases found : p.find? size with
  | none => exact .inl ⟨.unknownSet size, by rw [freeFault?, found], free_of_missing slot found⟩
  | some set =>
    have own := valid size set found
    have reason : freeFault? p size slot = set.releaseFault? slot := by
      simp [freeFault?, found, own.storable.nonzero]
    rw [reason]
    cases refused : set.releaseFault? slot with
    | some fault => exact .inl ⟨fault, rfl, free_of_check found (own.checkRelease_eq_error refused)⟩
    | none =>
      obtain ⟨inside, used⟩ := RecordSet.releaseFault?_eq_none.mp refused
      have checked := own.checkRelease_eq_ok inside used
      refine .inr ⟨rfl, set, rfl, inside, used, p.modify size (·.release slot), ?_, ?_⟩
      · simp [free, ask, found, checked, bind, EStateM.bind]
      · rw [find?_modify, found, Option.map_some]

/-- Restoring an image of a real size either changes nothing or replaces the records of the set. -/
theorem Valid.emplace_cases (valid : p.Valid) (nonzero : size ≠ 0) (image : Array β) :
    (∃ fault, emplaceFault? p size = some fault ∧ emplace size image p = .error fault p) ∨
      emplaceFault? p size = none ∧ Storable size ∧ ∃ after, emplace size image p = .ok () after ∧
        after.find? = Function.update p.find? size (some ((p.setAt size).load image)) := by
  rcases valid.ensure_cases nonzero with ⟨refused, failed⟩ |
    ⟨allowed, storable, made, ensured, changed⟩
  · exact .inl ⟨_, refused, by simp [emplace, failed, bind, EStateM.bind]⟩
  · have answered := ask_of_update changed (valid.setAt storable).slotCount_eq
    refine .inr ⟨allowed, storable, made.modify size (·.load image), ?_,
      find?_modify_update _ changed⟩
    simp [emplace, ensured, answered, bind, EStateM.bind]

end ParticleSystem.Pool
