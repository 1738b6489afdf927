import ParticleSystem.Emitter.Basic
import ParticleSystem.Proofs.Pool.Layout
import ParticleSystem.Proofs.Pool.Sets

namespace ParticleSystem

variable {α β : Type} [Layout α β]

namespace ParticleStats

private theorem length_toCells [LawfulLayout α β] (s : ParticleStats α) :
    (s.toCells : List β).length = 16 := by
  simp [toCells, LawfulLayout.length_ofScalar, LawfulLayout.length_ofWord]

theorem ofCells_toCells [LawfulLayout α β] (s : ParticleStats α) :
    ofCells (s.toCells : List β) = s := by
  have spawnTime := LawfulLayout.length_ofScalar (β := β) s.spawnTime
  have lastHitTime := LawfulLayout.length_ofScalar (β := β) s.lastHitTime
  have bounces := LawfulLayout.length_ofWord (α := α) (β := β) s.bounces
  have serial := LawfulLayout.length_ofWord (α := α) (β := β) s.serial
  simp [ofCells, toCells, List.drop_append, spawnTime, lastHitTime, bounces, serial,
    List.take_of_length_le, List.drop_of_length_le, LawfulLayout.toScalar_ofScalar,
    LawfulLayout.toWord_ofWord]

theorem storable_size : Storable size := .of_small (by decide) (by decide)

end ParticleStats

namespace Emitter

/-- The set of the side records, the empty one before the first is stored. -/
def sideSet (p : Pool β) : RecordSet β := p.setAt ParticleStats.size

/-- A valid pool with side records alone. -/
structure SidePool (p : Pool β) : Prop where
  valid : p.Valid
  alone : ∀ other, other ≠ ParticleStats.size → p.find? other = none

variable {p after : Pool β} {set : RecordSet β} {slot : Nat}

theorem sidePool_empty : SidePool (.empty : Pool β) :=
  ⟨Pool.valid_empty, fun other _ => Pool.find?_empty other⟩

theorem SidePool.set_valid (side : SidePool p) : (sideSet p).Valid ParticleStats.size :=
  side.valid.setAt ParticleStats.storable_size

theorem SidePool.of_update (side : SidePool p)
    (changed : after.find? = Function.update p.find? ParticleStats.size (some set))
    (kept : set.Valid ParticleStats.size) : SidePool after where
  valid := side.valid.of_update changed kept
  alone := by
    intro other different
    rw [changed, Function.update_of_ne different]
    exact side.alone other different

theorem sideSet_of_find? (found : p.find? ParticleStats.size = some set) : sideSet p = set :=
  Pool.setAt_of_find? found

theorem sideSet_of_missing (missing : p.find? ParticleStats.size = none) :
    sideSet p = .empty ParticleStats.size := Pool.setAt_of_missing missing

theorem sideSet_of_update
    (changed : after.find? = Function.update p.find? ParticleStats.size (some set)) :
    sideSet after = set := by
  rw [sideSet, Pool.setAt_of_update changed, Function.update_self]

theorem recordAt_eq (p : Pool β) (slot : Nat) : (recordAt p slot : Option (ParticleStats α)) =
    ((sideSet p).record? slot).map fun cells => .ofCells cells.toList := by
  rw [recordAt, Pool.data?_eq ParticleStats.storable_size.nonzero, sideSet]

theorem SidePool.recordAt_isSome (side : SidePool p) (slot : Nat) :
    (recordAt p slot : Option (ParticleStats α)).isSome ↔ slot < (sideSet p).slots := by
  rw [recordAt_eq, Option.isSome_map, side.set_valid.record?_isSome]

variable [LawfulLayout α β]

theorem map_ofCells_write (valid : set.Valid ParticleStats.size) (stats : ParticleStats α)
    (slot other : Nat) :
    ((set.write slot stats.toCells).record? other).map
      (fun cells => (.ofCells cells.toList : ParticleStats α)) =
      if other = slot then (set.record? slot).map fun _ => stats
      else (set.record? other).map fun cells => .ofCells cells.toList := by
  rw [valid.record?_write]
  split
  · cases found : set.record? slot with
    | none => rfl
    | some record =>
      have whole : record.size = 16 := (valid.record_size found).trans valid.stride_eq
      have length := stats.length_toCells (β := β)
      have cells : (RecordSet.overwrite record 0 stats.toCells).toList = stats.toCells := by
        rw [RecordSet.toList_overwrite_zero, List.take_of_length_le (by omega),
          List.drop_of_length_le, List.append_nil]
        rw [Array.length_toList]
        omega
      rw [Option.map_some, Option.map_some, Option.map_some, cells, ParticleStats.ofCells_toCells]
  · rfl

/-- A record is always stored, in the next slot; no other record changes. -/
theorem SidePool.store (side : SidePool p) (stats : ParticleStats α) :
    ∃ after, Pool.store ParticleStats.size stats.toCells p = .ok (sideSet p).next after ∧
      SidePool after ∧
      (sideSet after).slots = (sideSet p).claim.slots ∧
      (sideSet after).free = (sideSet p).free.tail ∧
      recordAt after = Function.update (recordAt p) (sideSet p).next (some stats) := by
  have own := side.set_valid
  rcases side.valid.store_cases ParticleStats.size stats.toCells with
    ⟨fault, refused, _⟩ | ⟨_, _, after, done, changed⟩
  · have allowed : Pool.allocFault? ParticleStats.size = none := by decide
    cases allowed.symm.trans refused
  · have held : sideSet after = (sideSet p).claim.write (sideSet p).next stats.toCells :=
      sideSet_of_update changed
    refine ⟨after, done, side.of_update changed (own.claim.write ..), ?_, ?_, ?_⟩
    · rw [held, RecordSet.slots_write]
    · rw [held, RecordSet.free_write, RecordSet.free_claim]
    · funext slot
      have claimed := own.record?_claim slot
      rw [recordAt_eq, held, map_ofCells_write own.claim, Function.update_apply]
      by_cases here : slot = (sideSet p).next
      · rw [if_pos here] at claimed ⊢
        rw [if_pos here, ← here, claimed, Option.map_some]
      · rw [if_neg here] at claimed ⊢
        rw [if_neg here, recordAt_eq, claimed]

theorem SidePool.write (side : SidePool p) (inside : slot < (sideSet p).slots)
    (stats : ParticleStats α) : let left := p.write ParticleStats.size slot stats.toCells
    SidePool left ∧ (sideSet left).slots = (sideSet p).slots ∧
    (sideSet left).free = (sideSet p).free ∧
      recordAt left = Function.update (recordAt p) slot (some stats) := by
  intro left
  have own := side.set_valid
  obtain ⟨set, found⟩ : ∃ set, p.find? ParticleStats.size = some set := by
    cases found : p.find? ParticleStats.size with
    | none =>
      rw [sideSet_of_missing found, RecordSet.slots_empty] at inside
      cases inside
    | some set => exact ⟨set, rfl⟩
  have here := sideSet_of_find? found
  have changed := Pool.find?_write slot (stats.toCells (β := β)) found
  rw [← here] at changed
  have held := sideSet_of_update changed
  refine ⟨side.of_update changed (own.write ..), ?_, ?_, ?_⟩
  · rw [held, RecordSet.slots_write]
  · rw [held, RecordSet.free_write]
  · funext other
    rw [recordAt_eq, held, map_ofCells_write own, Function.update_apply]
    split
    · obtain ⟨record, found⟩ := Option.isSome_iff_exists.mp ((own.record?_isSome slot).mpr inside)
      rw [found, Option.map_some]
    · rw [recordAt_eq]

omit [LawfulLayout α β] in
/-- A slot that is given back was in use, and keeps its record. -/
theorem SidePool.free (side : SidePool p)
    (done : Pool.free ParticleStats.size slot p = .ok () after) :
    slot < (sideSet p).slots ∧ slot ∉ (sideSet p).free ∧ SidePool after ∧
      (sideSet after).slots = (sideSet p).slots ∧ (sideSet after).free = slot :: (sideSet p).free ∧
      (recordAt after : Nat → Option (ParticleStats α)) = recordAt p := by
  rcases side.valid.free_cases ParticleStats.size slot with
    ⟨fault, _, failed⟩ | ⟨_, set, found, inside, used, left, freed, changed⟩
  · cases failed.symm.trans done
  · cases freed.symm.trans done
    have here := sideSet_of_find? found
    have held := sideSet_of_update changed
    rw [here, held]
    refine ⟨inside, used, side.of_update changed ((side.valid _ _ found).release inside used),
      rfl, rfl, ?_⟩
    funext other
    rw [recordAt_eq, recordAt_eq, held, here, RecordSet.record?_release]

end Emitter

end ParticleSystem
