import ParticleSystem.Pool.RecordSet

namespace ParticleSystem

/-- How scalars and words are laid out in cells, four to each. -/
class Layout (α : Type) (β : outParam Type) extends Cell β where
  ofScalar : α → List β
  toScalar : List β → α
  ofWord : UInt32 → List β
  toWord : List β → UInt32

namespace Layout

/-- The bytes of a word, lowest first. -/
def wordBytes (w : UInt32) : List UInt8 :=
  [w.toUInt8, (w >>> 8).toUInt8, (w >>> 16).toUInt8, (w >>> 24).toUInt8]

/-- The word of four bytes, lowest first. -/
def byteWord : List UInt8 → UInt32
  | [a, b, c, d] =>
    a.toUInt32 ||| (b.toUInt32 <<< 8) ||| (c.toUInt32 <<< 16) ||| (d.toUInt32 <<< 24)
  | _ => 0

instance : Layout Float32 UInt8 where
  ofScalar x := wordBytes x.toBits
  toScalar bytes := Float32.ofBits (byteWord bytes)
  ofWord := wordBytes
  toWord := byteWord

end Layout

end ParticleSystem
