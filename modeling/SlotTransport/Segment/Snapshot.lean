/-
Snapshots: what a manager can tell of its segment at a moment, as JSON.
-/
import SlotTransport.Text.Json
import SlotTransport.Segment.Mapping

namespace SlotTransport.Segment

/-- What a snapshot says of a slot. -/
def Slot.json (slot : Slot) (index : Nat) : String :=
  Json.object [
    ("index", toString index),
    ("state", Json.string slot.state.name),
    ("owner", toString slot.owner),
    ("write_pos", toString slot.writePos),
    ("read_pos", toString slot.readPos),
    ("sequence_id", toString slot.sequenceId),
    ("release_count", toString slot.releases),
    ("last_touch_us", toString slot.lastTouch)]

/-- A snapshot of the segment of a key. -/
def Mapping.json (m : Mapping) (key : Key) : String :=
  let control := m.segment.control
  Json.object [
    ("key", toString key),
    ("manager_id", toString m.me.id),
    ("slot_count", toString m.slots.length),
    ("slot_size", toString m.segment.slotSize),
    ("destructive_read", toString m.me.destructive),
    ("attached_count", toString control.attached),
    ("writer_count", toString control.writers),
    ("last_sequence_id", toString control.lastSequenceId),
    ("lowest_seq_id_read", toString control.highestRead),
    ("end_of_data", toString control.isEndOfData),
    ("slots", Json.array (m.slots.zipIdx.map fun (slot, index) => slot.json index))]

end SlotTransport.Segment
