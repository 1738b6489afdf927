import ParticleSystem.Pool.Layout
import Mathlib

namespace ParticleSystem

namespace Layout

theorem byteWord_wordBytes (w : UInt32) : byteWord (wordBytes w) = w := by
  have joined : (byteWord (wordBytes w)).toBitVec =
      (w.toBitVec.setWidth 8).setWidth 32 ||| ((w.toBitVec >>> 8).setWidth 8).setWidth 32 <<< 8 |||
        ((w.toBitVec >>> 16).setWidth 8).setWidth 32 <<< 16 |||
        ((w.toBitVec >>> 24).setWidth 8).setWidth 32 <<< 24 := rfl
  apply UInt32.eq_of_toBitVec_eq
  rw [joined]
  apply BitVec.eq_of_getElem_eq
  intro bit inside
  interval_cases bit <;> simp

end Layout

/-- What is put into cells is read back, four cells at a time. -/
class LawfulLayout (α : Type) (β : outParam Type) [Layout α β] : Prop where
  length_ofScalar (x : α) : (Layout.ofScalar x : List β).length = 4
  length_ofWord (w : UInt32) : (Layout.ofWord α w : List β).length = 4
  toScalar_ofScalar (x : α) : Layout.toScalar (Layout.ofScalar x : List β) = x
  toWord_ofWord (w : UInt32) : Layout.toWord α (Layout.ofWord α w : List β) = w

instance : LawfulLayout Float32 UInt8 where
  length_ofScalar _ := rfl
  length_ofWord _ := rfl
  toScalar_ofScalar x := by
    change Float32.ofBits (Layout.byteWord (Layout.wordBytes x.toBits)) = x
    rw [Layout.byteWord_wordBytes, Float32.ofBits_toBits]
  toWord_ofWord := Layout.byteWord_wordBytes

end ParticleSystem
