/-
The fields of a segment as words that anyone with access to the object can read
and write, without taking part in the protocol.
-/
import SlotTransport.Segment.Image

namespace SlotTransport.Segment

/-- A field of the control block. -/
inductive ControlField where
  | magic
  | version
  | slotCount
  | slotSize
  | staleTimeout
  | readerCursor
  | writerCursor
  | lastSequenceId
  | highestRead
  | destructive
  | rank
  | nextId
  | attached
  | writers
  | endOfData
  deriving DecidableEq, Repr

namespace ControlField

def names : List (String × ControlField) := [
  ("ready_magic", magic), ("layout_version", version), ("slot_count", slotCount),
  ("slot_size", slotSize), ("stale_timeout_us", staleTimeout), ("reader_cursor", readerCursor),
  ("writer_cursor", writerCursor), ("next_sequence_id", lastSequenceId),
  ("lowest_seq_id_read", highestRead), ("destructive_read", destructive), ("owner_rank", rank),
  ("next_manager_id", nextId), ("attached_count", attached), ("writer_count", writers),
  ("end_of_data", endOfData)]

def ofName? (name : String) : Option ControlField :=
  names.lookup name

def get (control : Control) : ControlField → Nat
  | magic => control.magic.toNat
  | version => control.version.toNat
  | slotCount => control.geometry.slotCount.toNat
  | slotSize => control.geometry.slotSize.toNat
  | staleTimeout => control.staleTimeout.toNat
  | readerCursor => control.readerCursor
  | writerCursor => control.writerCursor
  | lastSequenceId => control.lastSequenceId
  | highestRead => control.highestRead
  | destructive => control.destructive.toNat
  | rank => control.rank.toUInt32.toNat
  | nextId => control.nextId.toUInt32.toNat
  | attached => control.attached.toUInt32.toNat
  | writers => control.writers.toUInt32.toNat
  | endOfData => control.endOfData.toNat

/-- The control block with another word in a field. -/
def set (control : Control) (word : UInt64) : ControlField → Control
  | magic => { control with magic := word.toUInt32 }
  | version => { control with version := word.toUInt32 }
  | slotCount => { control with geometry := { control.geometry with slotCount := word } }
  | slotSize => { control with geometry := { control.geometry with slotSize := word } }
  | staleTimeout => { control with staleTimeout := word }
  | readerCursor => { control with readerCursor := word.toNat }
  | writerCursor => { control with writerCursor := word.toNat }
  | lastSequenceId => { control with lastSequenceId := word.toNat }
  | highestRead => { control with highestRead := word.toNat }
  | destructive => { control with destructive := word.toUInt32 }
  | rank => { control with rank := word.toUInt32.toInt32 }
  | nextId => { control with nextId := word.toUInt32.toInt32 }
  | attached => { control with attached := word.toUInt32.toInt32 }
  | writers => { control with writers := word.toUInt32.toInt32 }
  | endOfData => { control with endOfData := word.toUInt32 }

end ControlField

/-- A field of a slot's metadata. -/
inductive SlotField where
  | word
  | writePos
  | readPos
  | lastTouch
  | sequenceId
  | releases
  deriving DecidableEq, Repr

namespace SlotField

def names : List (String × SlotField) := [
  ("state_owner", word), ("write_pos", writePos), ("read_pos", readPos),
  ("last_touch_us", lastTouch), ("sequence_id", sequenceId), ("release_count", releases)]

def ofName? (name : String) : Option SlotField :=
  names.lookup name

def get (slot : Slot) : SlotField → Nat
  | word => slot.word.pack.toNat
  | writePos => slot.writePos
  | readPos => slot.readPos
  | lastTouch => slot.lastTouch
  | sequenceId => slot.sequenceId
  | releases => slot.releases

/-- The slot with another word in a field. -/
def set (slot : Slot) (bits : UInt64) : SlotField → Slot
  | word => { slot with word := .unpack bits }
  | writePos => { slot with writePos := bits.toNat }
  | readPos => { slot with readPos := bits.toNat }
  | lastTouch => { slot with lastTouch := bits.toNat }
  | sequenceId => { slot with sequenceId := bits.toNat }
  | releases => { slot with releases := bits.toNat }

end SlotField

/-- The segment cut so that it has a slot of this number, which may be where
nobody has laid out a slot. -/
def exposing (segment : Segment) (slot : Nat) : Segment :=
  if slot < segment.slots.length then segment
  else segment.cut ⟨.ofNat (slot + 1), 0⟩

/-- Reads a field of a slot. -/
def peekSlot (segment : Segment) (slot : Nat) (field : SlotField) : Nat :=
  (((segment.exposing slot).slots[slot]?).map field.get).getD 0

/-- Writes a field of a slot. -/
def pokeSlot (segment : Segment) (slot : Nat) (field : SlotField) (bits : UInt64) : Segment :=
  let exposed := segment.exposing slot
  { exposed with slots := exposed.slots.modify slot fun s => field.set s bits }

/-- Reads a field of the control block. -/
def peek (segment : Segment) (field : ControlField) : Nat :=
  field.get segment.control

/-- Writes a field of the control block. -/
def poke (segment : Segment) (field : ControlField) (bits : UInt64) : Segment :=
  { segment with control := field.set segment.control bits }

end SlotTransport.Segment
