/-
The parts of a segment lie side by side. `Geometry.partAt` says by division whose a byte is: the
control block's, or the metadata's or the data's of one slot. Where the size of the segment can be
counted, a byte of the segment lies in its own part (`covers_partAt`) and in no other
(`Covers.eq_partAt`), so that two parts never share a byte and no byte is left over
(`parts_tile`). The offsets come to the same with a check at every step (`metadataOffset?_eq`,
`dataOffset?_eq`), and they are where the slots of an image are read (`getElem?_slots_ofImage`).
-/
import SlotTransport.Proofs.Segment.Layout
import SlotTransport.Segment.Image

namespace SlotTransport.Segment

/-- What a segment is made of. -/
inductive Part where
  | control
  | metadata (slot : UInt64)
  | data (slot : UInt64)
  deriving DecidableEq, Repr

/-- `metadataOffset`, with a check at every step. -/
def metadataOffset? (slot : UInt64) : Option UInt64 := do
  let before ← Word.mul? slot metadataSize
  Word.add? controlSize before

namespace Geometry

/-- `dataOffset`, with a check at every step. -/
def dataOffset? (g : Geometry) (slot : UInt64) : Option UInt64 := do
  let head ← metadataOffset? g.slotCount
  let before ← Word.mul? slot g.slotSize
  Word.add? head before

/-- Whether a segment has a part. -/
def Has (g : Geometry) : Part → Prop
  | .control => True
  | .metadata slot | .data slot => slot < g.slotCount

instance (g : Geometry) : (part : Part) → Decidable (g.Has part)
  | .control => inferInstanceAs (Decidable True)
  | .metadata slot | .data slot => inferInstanceAs (Decidable (slot < g.slotCount))

/-- Where a part begins. -/
def offsetOf (g : Geometry) : Part → UInt64
  | .control => 0
  | .metadata slot => metadataOffset slot
  | .data slot => g.dataOffset slot

/-- Bytes of a part. -/
def lengthOf (g : Geometry) : Part → UInt64
  | .control => controlSize
  | .metadata _ => metadataSize
  | .data _ => g.slotSize

/-- Whether a byte, counted from the start of the segment, lies in a part. -/
def Covers (g : Geometry) (part : Part) (byte : Nat) : Prop :=
  (g.offsetOf part).toNat ≤ byte ∧ byte < (g.offsetOf part).toNat + (g.lengthOf part).toNat

instance (g : Geometry) (part : Part) (byte : Nat) : Decidable (g.Covers part byte) :=
  inferInstanceAs (Decidable (_ ∧ _))

/-- What the bytes behind the control block hold in a part. -/
def contentOf (g : Geometry) (image : Bytes) (part : Part) : Bytes :=
  image.slice ((g.offsetOf part).toNat - controlSize.toNat) (g.lengthOf part).toNat

/-- The part that a byte of a segment lies in. -/
def partAt (g : Geometry) (byte : Nat) : Part :=
  if byte < 128 then .control
  else if byte < 128 + 64 * g.slotCount.toNat then .metadata (.ofNat ((byte - 128) / 64))
  else .data (.ofNat ((byte - (128 + 64 * g.slotCount.toNat)) / g.slotSize.toNat))

variable {g : Geometry} {total slot : UInt64} {part : Part} {byte : Nat}

/-! ## Offsets with and without checks -/

theorem metadataOffset?_eq (h : g.size? = some total) (hslot : slot ≤ g.slotCount) :
    metadataOffset? slot = some (metadataOffset slot) := by
  have htotal := size?_eq_some_iff.mp h
  have hlt := total.toNat_lt
  have hle : slot.toNat ≤ g.slotCount.toNat := hslot
  have hoffset := toNat_metadataOffset h hslot
  have hbefore : Word.mul? slot metadataSize = some (slot * metadataSize) := by
    rw [Word.mul?_eq_some_iff, UInt64.toNat_mul, toNat_metadataSize]
    omega
  simp only [metadataOffset?, hbefore, Option.bind_eq_bind, Option.bind_some,
    Word.add?_eq_some_iff, hoffset, UInt64.toNat_mul, toNat_controlSize, toNat_metadataSize]
  omega

theorem dataOffset?_eq (h : g.size? = some total) (hslot : slot ≤ g.slotCount) :
    g.dataOffset? slot = some (g.dataOffset slot) := by
  have htotal := size?_eq_some_iff.mp h
  have hlt := total.toNat_lt
  have hproduct : slot.toNat * g.slotSize.toNat ≤ g.slotCount.toNat * g.slotSize.toNat :=
    Nat.mul_le_mul_right _ hslot
  have hwhole : (slot * g.slotSize).toNat = slot.toNat * g.slotSize.toNat := by
    rw [UInt64.toNat_mul]
    exact Nat.mod_eq_of_lt (by omega)
  have hbefore : Word.mul? slot g.slotSize = some (slot * g.slotSize) :=
    Word.mul?_eq_some_iff.mpr hwhole.symm
  simp only [dataOffset?, metadataOffset?_eq h (UInt64.le_refl _), hbefore, Option.bind_eq_bind,
    Option.bind_some, Word.add?_eq_some_iff, hwhole,
    toNat_metadataOffset h (UInt64.le_refl _), toNat_dataOffset h hslot]

/-! ## The part of a byte -/

theorem covers_control_iff : g.Covers .control byte ↔ byte < 128 := by
  simp only [Covers, offsetOf, lengthOf, toNat_controlSize, UInt64.toNat_zero]
  omega

theorem covers_metadata_iff (h : g.size? = some total) (hslot : slot < g.slotCount) :
    g.Covers (.metadata slot) byte ↔
      128 + 64 * slot.toNat ≤ byte ∧ byte < 128 + 64 * (slot.toNat + 1) := by
  simp only [Covers, offsetOf, lengthOf, toNat_metadataOffset h (UInt64.le_of_lt hslot),
    toNat_metadataSize]
  omega

theorem covers_data_iff (h : g.size? = some total) (hslot : slot < g.slotCount) :
    g.Covers (.data slot) byte ↔
      128 + 64 * g.slotCount.toNat + slot.toNat * g.slotSize.toNat ≤ byte ∧
        byte < 128 + 64 * g.slotCount.toNat + (slot.toNat + 1) * g.slotSize.toNat := by
  simp only [Covers, offsetOf, lengthOf, toNat_dataOffset h (UInt64.le_of_lt hslot),
    Nat.add_one_mul, Nat.add_assoc]

theorem ofNat_lt_slotCount {index : Nat} (hindex : index < g.slotCount.toNat) :
    (UInt64.ofNat index).toNat = index ∧ UInt64.ofNat index < g.slotCount := by
  have hword : (UInt64.ofNat index).toNat = index :=
    UInt64.toNat_ofNat_of_lt' (Nat.lt_trans hindex g.slotCount.toNat_lt)
  refine ⟨hword, ?_⟩
  rw [UInt64.lt_iff_toNat_lt, hword]
  exact hindex

/-- A byte of a segment lies in the part that it is said to lie in. -/
theorem covers_partAt (h : g.size? = some total) (hbyte : byte < total.toNat) :
    g.Has (g.partAt byte) ∧ g.Covers (g.partAt byte) byte := by
  have htotal := size?_eq_some_iff.mp h
  unfold partAt
  split
  · exact ⟨trivial, covers_control_iff.mpr (by omega)⟩
  · split
    · have hindex : (byte - 128) / 64 < g.slotCount.toNat := by omega
      obtain ⟨hword, hhas⟩ := ofNat_lt_slotCount hindex
      refine ⟨hhas, (covers_metadata_iff h hhas).mpr ?_⟩
      rw [hword]
      omega
    · generalize hrest : byte - (128 + 64 * g.slotCount.toNat) = rest
      have hinside : rest < g.slotCount.toNat * g.slotSize.toNat := by omega
      -- a byte is left for the data, so no slot is empty and the division counts slots
      have hfilled : 0 < g.slotSize.toNat := Nat.pos_of_mul_pos_left (Nat.zero_lt_of_lt hinside)
      have hindex : rest / g.slotSize.toNat < g.slotCount.toNat :=
        (Nat.div_lt_iff_lt_mul hfilled).mpr hinside
      have hbefore := Nat.div_add_mod' rest g.slotSize.toNat
      have hlast := Nat.mod_lt rest hfilled
      have hnext := Nat.add_one_mul (rest / g.slotSize.toNat) g.slotSize.toNat
      obtain ⟨hword, hhas⟩ := ofNat_lt_slotCount hindex
      refine ⟨hhas, (covers_data_iff h hhas).mpr ?_⟩
      rw [hword]
      omega

/-- A part covers bytes of the segment only, and they are said to lie in that part. -/
theorem Covers.eq_partAt (h : g.size? = some total) (hhas : g.Has part)
    (hcovers : g.Covers part byte) : byte < total.toNat ∧ part = g.partAt byte := by
  have htotal := size?_eq_some_iff.mp h
  unfold partAt
  cases part with
  | control =>
    have hbyte := covers_control_iff.mp hcovers
    exact ⟨by omega, by rw [if_pos hbyte]⟩
  | metadata slot =>
    obtain ⟨hfrom, hbefore⟩ := (covers_metadata_iff h hhas).mp hcovers
    have hslot : slot.toNat < g.slotCount.toNat := hhas
    have hindex : (byte - 128) / 64 = slot.toNat := by omega
    refine ⟨by omega, ?_⟩
    rw [if_neg (by omega), if_pos (by omega), hindex, UInt64.ofNat_toNat]
  | data slot =>
    obtain ⟨hfrom, hbefore⟩ := (covers_data_iff h hhas).mp hcovers
    have hnext : (slot.toNat + 1) * g.slotSize.toNat ≤ g.slotCount.toNat * g.slotSize.toNat :=
      Nat.mul_le_mul_right _ hhas
    have hindex :
        (byte - (128 + 64 * g.slotCount.toNat)) / g.slotSize.toNat = slot.toNat :=
      Nat.div_eq_of_lt_le (by omega) (by omega)
    refine ⟨by omega, ?_⟩
    rw [if_neg (by omega), if_neg (by omega), hindex, UInt64.ofNat_toNat]

/-- Behind the metadata of three slots the data begin, five bytes for each. -/
example : partAt ⟨3, 5⟩ 326 = .data 1 := by decide

/-! ## Images -/

/-- Who cuts the bytes behind a control block finds each slot in its two parts. -/
theorem getElem?_slots_ofImage (h : g.size? = some total) (hslot : slot < g.slotCount)
    (size : Nat) (control : Control) (image : Bytes) :
    (Segment.ofImage size control g image).slots[slot.toNat]? =
      some (.ofRecord (g.contentOf image (.metadata slot)) (g.contentOf image (.data slot))) := by
  have hlt : slot.toNat < g.slotCount.toNat := hslot
  have hrecord : (metadataOffset slot).toNat - 128 = slot.toNat * 64 := by
    rw [toNat_metadataOffset h (UInt64.le_of_lt hslot)]
    omega
  have hdata : (g.dataOffset slot).toNat - 128 =
      g.slotCount.toNat * 64 + slot.toNat * g.slotSize.toNat := by
    rw [toNat_dataOffset h (UInt64.le_of_lt hslot)]
    omega
  simp only [ofImage, contentOf, offsetOf, lengthOf, toNat_controlSize, toNat_metadataSize,
    hrecord, hdata, Bytes.slice, List.getElem?_map, List.getElem?_range hlt, Option.map_some,
    List.drop_drop]

/-! ## The tiling -/

/-- **The parts of a segment tile it.** The size of a segment cannot be counted if its control
block, its metadata and its data together do not fit into a word, and only then. Where it can be
counted, no step of the computation of an offset wraps, no two parts share a byte, the bytes of
the parts are those of the segment, and each slot of an image is read from its two parts. -/
theorem parts_tile (g : Geometry) :
    (g.size? = none ↔ UInt64.size ≤ 128 + 64 * g.slotCount.toNat +
      g.slotCount.toNat * g.slotSize.toNat) ∧
    ∀ total, g.size? = some total →
      (∀ slot < g.slotCount, metadataOffset? slot = some (metadataOffset slot) ∧
        g.dataOffset? slot = some (g.dataOffset slot)) ∧
      (∀ p q, g.Has p → g.Has q → p ≠ q → ∀ byte, g.Covers p byte → ¬ g.Covers q byte) ∧
      (∀ byte, (∃ part, g.Has part ∧ g.Covers part byte) ↔ byte < total.toNat) ∧
      ∀ slot < g.slotCount, ∀ size control image,
        (Segment.ofImage size control g image).slots[slot.toNat]? =
          some (.ofRecord (g.contentOf image (.metadata slot))
            (g.contentOf image (.data slot))) := by
  refine ⟨size?_eq_none_iff, fun total h => ⟨fun slot hslot => ?_, ?_, fun byte => ?_, ?_⟩⟩
  · have hle := UInt64.le_of_lt hslot
    exact ⟨metadataOffset?_eq h hle, dataOffset?_eq h hle⟩
  · intro p q hp hq hne byte hcovers hshared
    obtain ⟨-, hpart⟩ := hcovers.eq_partAt h hp
    obtain ⟨-, hpart'⟩ := hshared.eq_partAt h hq
    exact hne (hpart.trans hpart'.symm)
  · constructor
    · rintro ⟨part, hhas, hcovers⟩
      exact (hcovers.eq_partAt h hhas).1
    · intro hbyte
      exact ⟨_, covers_partAt h hbyte⟩
  · intro slot hslot size control image
    exact getElem?_slots_ofImage h hslot size control image

/-- Two slots in a segment of all but one of the bytes that a word counts: its last byte is the
second slot's, and not the first one's. -/
theorem parts_tile_two :
    let g : Geometry := ⟨2, 0x7fffffffffffff7f⟩
    g.size? = some 0xfffffffffffffffe ∧ g.dataOffset? 1 = some (g.dataOffset 1) ∧
      g.Covers (.data 1) 0xfffffffffffffffd ∧ ¬ g.Covers (.data 0) 0xfffffffffffffffd := by
  intro g
  have hsize : g.size? = some 0xfffffffffffffffe := by decide
  have hlast : g.Covers (.data 1) 0xfffffffffffffffd := by decide
  obtain ⟨-, htiled⟩ := parts_tile g
  obtain ⟨hoffsets, hdisjoint, -⟩ := htiled _ hsize
  exact ⟨hsize, (hoffsets 1 (by decide)).2, hlast,
    hdisjoint (.data 1) (.data 0) (by decide) (by decide) (by decide) _ hlast⟩

end Geometry

end SlotTransport.Segment
