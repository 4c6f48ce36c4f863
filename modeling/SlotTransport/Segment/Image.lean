/-
The bytes of a segment behind its control block: the metadata of the slots, 64
bytes each, then their data, then what is left. Two managers that disagree on
how many slots there are, or on their size, see the same bytes cut differently;
`Segment.cut` is the other cut.
-/
import SlotTransport.Segment.Basic

namespace SlotTransport.Segment

namespace Slot

def recordUsed : Nat := 48

/-- The metadata of a slot as bytes. -/
def record (slot : Slot) : Bytes :=
  Bytes.wordBytes 8 slot.word.pack.toNat ++ Bytes.wordBytes 8 slot.writePos ++
  Bytes.wordBytes 8 slot.readPos ++ Bytes.wordBytes 8 slot.lastTouch ++
  Bytes.wordBytes 8 slot.sequenceId ++ Bytes.wordBytes 8 slot.releases ++
  Bytes.zeroExtended slot.spare (metadataSize.toNat - recordUsed)

/-- The slot of metadata and data bytes. -/
def ofRecord (record memory : Bytes) : Slot where
  word := .unpack (.ofNat (record.wordAt 0 8))
  writePos := record.wordAt 8 8
  readPos := record.wordAt 16 8
  lastTouch := record.wordAt 24 8
  sequenceId := record.wordAt 32 8
  releases := record.wordAt 40 8
  spare := record.drop recordUsed
  memory := memory

end Slot

/-- Puts runs of bytes one after the other, `size` bytes for each. Nothing is
written for a run that only zeros would follow. -/
def laidOut (size : Nat) (runs : List Bytes) (rest : Bytes) : Bytes :=
  runs.foldr (fun run rest => if rest.isEmpty then run else run.zeroExtended size ++ rest) rest

/-- The data bytes of the slots from the `slot`th on, and those after them;
zeros follow up to the end of the object. -/
def dataFrom (segment : Segment) (slot : Nat) : Bytes :=
  laidOut segment.slotSize ((segment.slots.drop slot).map Slot.memory) segment.rest

/-- The bytes behind the control block; zeros follow up to the end. -/
def image (segment : Segment) : Bytes :=
  segment.slots.flatMap Slot.record ++ segment.dataFrom 0

/-- The bytes read as slots of a geometry. -/
def ofImage (size : Nat) (control : Control) (geometry : Geometry) (image : Bytes) : Segment :=
  let count := geometry.slotCount.toNat
  let slotSize := geometry.slotSize.toNat
  let data : Bytes := image.drop (count * metadataSize.toNat)
  { size, control, slotSize
    slots := (List.range count).map fun i =>
      .ofRecord (image.slice (i * metadataSize.toNat) metadataSize.toNat)
        (data.slice (i * slotSize) slotSize)
    rest := data.drop (count * slotSize) }

/-- Whether the segment is cut into slots as the geometry has it. -/
def isCut (segment : Segment) (geometry : Geometry) : Bool :=
  segment.slots.length == geometry.slotCount.toNat &&
    segment.slotSize == geometry.slotSize.toNat

/-- The segment cut into slots as the geometry has it. -/
def cut (segment : Segment) (geometry : Geometry) : Segment :=
  if segment.isCut geometry then segment
  else .ofImage segment.size segment.control geometry segment.image

theorem cut_of_isCut {segment : Segment} {geometry : Geometry} (h : segment.isCut geometry) :
    segment.cut geometry = segment := by
  simp [cut, h]

/-- The `len` bytes from `offset` on of the `slot`th slot. Past the end of the
slot come the bytes that follow it. -/
def bytesAt (segment : Segment) (slot : Nat) (offset len : Nat) : Bytes :=
  match segment.slots[slot]? with
  | none => []
  | some s =>
    if offset + len ≤ segment.slotSize then s.bytesAt offset len
    else Bytes.zeroExtended ((segment.dataFrom slot).drop offset) len

end SlotTransport.Segment
