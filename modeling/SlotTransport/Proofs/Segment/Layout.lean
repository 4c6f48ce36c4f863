/-
Where the parts of a segment lie, without rounding. The size of a segment is what its control
block, its metadata and its data add up to, and a word counts it or not (`size?_eq_none_iff`).
Where it does, the offsets are what they are meant to be (`toNat_metadataOffset`,
`toNat_dataOffset`), although they are computed without checks, so that every slot lies within
the segment (`metadata_within`, `data_within`).
-/
import SlotTransport.Segment.Layout

namespace SlotTransport.Segment

theorem toNat_controlSize : controlSize.toNat = 128 := rfl

theorem toNat_metadataSize : metadataSize.toNat = 64 := rfl

namespace Geometry

variable {g : Geometry} {total slot : UInt64}

theorem size?_eq_none_iff : g.size? = none ↔
    UInt64.size ≤ 128 + 64 * g.slotCount.toNat + g.slotCount.toNat * g.slotSize.toNat := by
  constructor
  · intro h
    refine Nat.le_of_not_lt fun hlt => ?_
    have hsome : g.size? = some (.ofNat _) :=
      size?_eq_some_iff.mpr (UInt64.toNat_ofNat_of_lt' hlt).symm
    rw [h] at hsome
    cases hsome
  · intro h
    cases hsize : g.size? with
    | none => rfl
    | some total =>
      have htotal := size?_eq_some_iff.mp hsize
      have hlt := total.toNat_lt
      simp only [UInt64.size] at h
      omega

/-- The metadata of a slot lies behind the control block and the metadata of the slots before
it. The slot may be one too many: there the data begin. -/
theorem toNat_metadataOffset (h : g.size? = some total) (hslot : slot ≤ g.slotCount) :
    (metadataOffset slot).toNat = 128 + 64 * slot.toNat := by
  have htotal := size?_eq_some_iff.mp h
  have hlt := total.toNat_lt
  have hle : slot.toNat ≤ g.slotCount.toNat := hslot
  rw [metadataOffset, UInt64.toNat_add, UInt64.toNat_mul, toNat_controlSize, toNat_metadataSize]
  omega

/-- The data of a slot lie behind all metadata and the data of the slots before it. -/
theorem toNat_dataOffset (h : g.size? = some total) (hslot : slot ≤ g.slotCount) :
    (g.dataOffset slot).toNat =
      128 + 64 * g.slotCount.toNat + slot.toNat * g.slotSize.toNat := by
  have htotal := size?_eq_some_iff.mp h
  have hlt := total.toNat_lt
  have hbefore : slot.toNat * g.slotSize.toNat ≤ g.slotCount.toNat * g.slotSize.toNat :=
    Nat.mul_le_mul_right _ hslot
  rw [dataOffset, UInt64.toNat_add, UInt64.toNat_mul, toNat_metadataOffset h (UInt64.le_refl _)]
  rw [Nat.mod_eq_of_lt (a := slot.toNat * g.slotSize.toNat) (by omega)]
  exact Nat.mod_eq_of_lt (by omega)

theorem metadata_within (h : g.size? = some total) (hslot : slot < g.slotCount) :
    (metadataOffset slot).toNat + metadataSize.toNat ≤ total.toNat := by
  have htotal := size?_eq_some_iff.mp h
  have hlt : slot.toNat < g.slotCount.toNat := hslot
  rw [toNat_metadataOffset h (UInt64.le_of_lt hslot), toNat_metadataSize]
  omega

theorem data_within (h : g.size? = some total) (hslot : slot < g.slotCount) :
    (g.dataOffset slot).toNat + g.slotSize.toNat ≤ total.toNat := by
  have htotal := size?_eq_some_iff.mp h
  have hnext : (slot.toNat + 1) * g.slotSize.toNat ≤ g.slotCount.toNat * g.slotSize.toNat :=
    Nat.mul_le_mul_right _ hslot
  rw [Nat.succ_mul] at hnext
  rw [toNat_dataOffset h (UInt64.le_of_lt hslot)]
  omega

end Geometry

end SlotTransport.Segment
