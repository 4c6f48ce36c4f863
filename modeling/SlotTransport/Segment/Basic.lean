/-
Segments: an object that processes share, with a control block, slots, and
perhaps bytes that are no slot's. `Segment.formatted` is a segment as its
creator lays it out; `Segment.blank` is an object that nobody has laid out.
-/
import SlotTransport.Segment.Error
import SlotTransport.Segment.Slot

namespace SlotTransport

/-- What is known of a segment as a whole. -/
structure Segment.Control where
  /-- Tells a laid out segment from any other object. -/
  magic : UInt32
  version : UInt32
  geometry : Segment.Geometry
  /-- Microseconds until a claim is stale; zero for never. -/
  staleTimeout : UInt64
  /-- Where the next scan for a record starts. -/
  readerCursor : Nat
  /-- Where the next scan for a free slot starts. -/
  writerCursor : Nat
  /-- The sequence id of the latest record. It is kept in a word of 64 bits that goes
  around, and as a number here: runs of fewer than 2⁶⁴ publications are meant, and
  numbers set from outside that leave room for them. -/
  lastSequenceId : Nat
  /-- The highest sequence id ever claimed for reading; a word of 64 bits likewise. -/
  highestRead : Nat
  /-- Whether a record is gone once read; zero for no. -/
  destructive : UInt32
  /-- Rank of the process that owns the segment. -/
  rank : Int32
  /-- The id of the next manager to join. -/
  nextId : Segment.ManagerId
  attached : Int32
  /-- Managers attached that have claimed a slot for writing. -/
  writers : Int32
  /-- Whether no more records will come; zero for no. -/
  endOfData : UInt32
  deriving DecidableEq, Repr

/-- An object that processes share. -/
structure Segment where
  size : Nat
  control : Segment.Control
  /-- Bytes of each slot. -/
  slotSize : Nat
  slots : List Segment.Slot
  /-- The bytes after the slots; zeros follow up to the end of the object. -/
  rest : Bytes
  deriving DecidableEq

namespace Segment

/-- The magic number of a segment that is ready. -/
def readyMagic : UInt32 := 0xCAFE1111

def layoutVersion : UInt32 := 1

/-- The id of the manager that created the segment. -/
def creatorId : ManagerId := 0

namespace Control

/-- A control block of zeros. -/
def blank : Control :=
  ⟨0, 0, ⟨0, 0⟩, 0, 0, 0, 0, 0, 0, 0, 0, 0, 0, 0⟩

/-- The control block of a segment to which its creator is attached. -/
def created (config : Config) : Control where
  magic := readyMagic
  version := layoutVersion
  geometry := config.geometry
  staleTimeout := config.staleTimeout
  readerCursor := 0
  writerCursor := 0
  lastSequenceId := 0
  highestRead := 0
  destructive := if config.destructive then 1 else 0
  rank := config.rank
  nextId := creatorId + 1
  attached := 1
  writers := 0
  endOfData := 0

/-- Whether a record is gone once read. -/
def isDestructive (control : Control) : Bool :=
  control.destructive != 0

/-- Whether no more records will come. -/
def isEndOfData (control : Control) : Bool :=
  control.endOfData != 0

/-- How many managers a record is for where all are to see it: those that
only read, and one at least. From 2³¹ of them on the difference is a negative
word. -/
def readers (control : Control) : Nat :=
  max (control.attached - control.writers).toInt.toNat 1

end Control

/-- An object of zeros. -/
def blank (size : Nat) : Segment :=
  ⟨size, .blank, 0, [], []⟩

/-- A segment of `size` bytes just laid out, its creator attached. -/
def formatted (config : Config) (size now : Nat) : Segment where
  size := size
  control := .created config
  slotSize := config.slotSize.toNat
  slots := List.replicate config.slotCount.toNat (.fresh now)
  rest := []

/-- Whether the object holds the slots that its control block declares. -/
def holdsSlots (segment : Segment) : Bool :=
  match segment.control.geometry.size? with
  | some total => decide (total.toNat ≤ segment.size)
  | none => false

/-- Decides whether the object may be joined. It has to be large enough for a
control block, ready, of the known version, and to hold its slots; where it may
still become so, the answer is to wait, in vain. -/
def joinable (segment : Segment) (key : Key) : Except Error Unit :=
  if segment.size < controlSize.toNat ∨ segment.control.magic ≠ readyMagic then
    .error (.attachTimeout key)
  else if segment.control.version ≠ layoutVersion then
    .error (.incompatibleVersion key segment.control.version layoutVersion)
  else if segment.holdsSlots then .ok ()
  else .error (.attachTimeout key)

/-- The segment with one more manager attached. -/
def joined (segment : Segment) : Segment :=
  { segment with control := { segment.control with
      nextId := segment.control.nextId + 1
      attached := segment.control.attached + 1 } }

end Segment

end SlotTransport
