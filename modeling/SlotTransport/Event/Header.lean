/-
The header of an event record: 32 bytes, all words least significant byte
first.

    bytes  field
    0-3    run
    4-7    subrun
    8-11   event
    12-15  whether the event is complete, zero for no
    16-23  sequence id
    24-31  timestamp
-/
import SlotTransport.Bytes
import SlotTransport.Framing

namespace SlotTransport.Event

/-- What an event says of itself. -/
structure Header where
  run : UInt32
  subrun : UInt32
  /-- Number of the event within the subrun. -/
  event : UInt32
  /-- Whether every fragment that was expected arrived. -/
  complete : Bool
  /-- Sequence id that the fragments of the event share. -/
  sequenceId : UInt64
  timestamp : UInt64
  deriving DecidableEq, Repr

namespace Header

def size : Nat := 32

/-- The header of a complete event without a timestamp. -/
def new (run subrun event : UInt32) (sequenceId : UInt64) : Header :=
  ⟨run, subrun, event, true, sequenceId, 0⟩

def encode (header : Header) : Bytes :=
  Bytes.wordBytes 4 header.run.toNat ++ Bytes.wordBytes 4 header.subrun.toNat ++
  Bytes.wordBytes 4 header.event.toNat ++ Bytes.wordBytes 4 header.complete.toNat ++
  Bytes.wordBytes 8 header.sequenceId.toNat ++ Bytes.wordBytes 8 header.timestamp.toNat

/-- Reads a header from the front of `bytes`. -/
def decode (bytes : Bytes) : Except FramingError Header :=
  if bytes.length < size then .error (.truncatedHeader size bytes.length)
  else .ok {
    run := .ofNat (bytes.wordAt 0 4)
    subrun := .ofNat (bytes.wordAt 4 4)
    event := .ofNat (bytes.wordAt 8 4)
    complete := bytes.wordAt 12 4 != 0
    sequenceId := .ofNat (bytes.wordAt 16 8)
    timestamp := .ofNat (bytes.wordAt 24 8) }

@[simp] theorem length_encode (header : Header) : header.encode.length = size := by
  simp [encode, size]

end Header

end SlotTransport.Event
