/-
Where the parts of a segment lie.

    [ control block, 128 bytes | slot metadata, 64 bytes each | slot data ]

The size of a segment is computed with checks, the offsets without: a segment
whose size fits into a word has offsets that do.
-/
import SlotTransport.Word

namespace SlotTransport.Segment

def controlSize : UInt64 := 128

/-- Bytes of the metadata of one slot. -/
def metadataSize : UInt64 := 64

/-- How many slots a segment has and how many bytes each of them holds. -/
structure Geometry where
  slotCount : UInt64
  slotSize : UInt64
  deriving DecidableEq, Repr

/-- Offset of the metadata of a slot. -/
def metadataOffset (slot : UInt64) : UInt64 :=
  controlSize + slot * metadataSize

namespace Geometry

/-- Offset of the first data byte of a slot. -/
def dataOffset (g : Geometry) (slot : UInt64) : UInt64 :=
  metadataOffset g.slotCount + slot * g.slotSize

/-- Bytes of the whole segment, if they can be counted in a word. -/
def size? (g : Geometry) : Option UInt64 := do
  let metadata ← Word.mul? g.slotCount metadataSize
  let head ← Word.add? metadata controlSize
  let data ← Word.mul? g.slotCount g.slotSize
  Word.add? head data

theorem size?_eq_some_iff {g : Geometry} {total : UInt64} :
    g.size? = some total ↔
      128 + 64 * g.slotCount.toNat + g.slotCount.toNat * g.slotSize.toNat = total.toNat := by
  have hcontrol : controlSize.toNat = 128 := rfl
  have hmeta : metadataSize.toNat = 64 := rfl
  have htotal := total.toNat_lt
  simp only [size?, Option.bind_eq_bind, Option.bind_eq_some_iff, Word.mul?_eq_some_iff,
    Word.add?_eq_some_iff, hcontrol, hmeta]
  constructor
  · rintro ⟨m, hm, h, hh, d, hd, ht⟩
    omega
  · intro h
    generalize hprod : g.slotCount.toNat * g.slotSize.toNat = p at h ⊢
    have hm := UInt64.toNat_ofNat_of_lt' (n := g.slotCount.toNat * 64)
      (by simp only [UInt64.size]; omega)
    have hh := UInt64.toNat_ofNat_of_lt' (n := g.slotCount.toNat * 64 + 128)
      (by simp only [UInt64.size]; omega)
    have hd := UInt64.toNat_ofNat_of_lt' (n := p) (by simp only [UInt64.size]; omega)
    exact ⟨_, hm.symm, .ofNat (g.slotCount.toNat * 64 + 128), by rw [hm, hh], _, hd.symm,
      by rw [hh, hd]; omega⟩

end Geometry

end SlotTransport.Segment
