/-
Slots. A slot goes round a cycle of four states:

    empty --claim--> writing --publish--> full --claim--> reading --release--> empty

and on the way back it may stop earlier: a claim for writing that is given up
leaves the slot empty, a claim for reading that is given up leaves it full.
The functions here are the steps of one slot; whether a step is allowed is
asked elsewhere.
-/
import SlotTransport.Bytes
import SlotTransport.Segment.State
import SlotTransport.Word

namespace SlotTransport.Segment

/-- A slot: its metadata and the bytes it holds. -/
structure Slot where
  word : StateWord
  /-- Bytes written so far. -/
  writePos : Nat
  /-- Bytes that the current reader has read. -/
  readPos : Nat
  /-- When the slot was last touched, in microseconds. -/
  lastTouch : Nat
  /-- The sequence id stamped on the slot's latest record; a number for a word of 64
  bits, as in `Control.lastSequenceId`. -/
  sequenceId : Nat
  /-- Readers that have released the current record, where all are to see it; a number
  for a word of 64 bits, so that fewer than 2⁶⁴ releases of one record are meant. -/
  releases : Nat
  /-- The bytes of the metadata in which nothing is kept. -/
  spare : Bytes
  /-- The data bytes; zeros follow up to the end of the slot. -/
  memory : Bytes
  deriving DecidableEq

/-- When a slot may be taken from its holder. -/
structure Staleness where
  /-- Microseconds without a touch after which a slot is stale; zero for never. -/
  timeout : Nat
  /-- The present, in microseconds. -/
  now : Nat
  /-- Whether a record that nobody claims goes stale too. -/
  dropsRecords : Bool
  deriving DecidableEq, Repr

namespace Slot

/-- An empty slot that has never been used. -/
def fresh (now : Nat) : Slot :=
  ⟨.free, 0, 0, now, 0, 0, [], []⟩

/-- Where the slot is in its cycle. -/
def state (slot : Slot) : SlotState :=
  slot.word.state

/-- The manager that holds the slot, or that its record is addressed to. -/
def owner (slot : Slot) : ManagerId :=
  slot.word.owner

/-! ## Bytes -/

/-- The `len` data bytes from `offset` on. -/
def bytesAt (slot : Slot) (offset len : Nat) : Bytes :=
  Bytes.zeroExtended (slot.memory.drop offset) len

/-- Puts bytes after those written so far; they do not count as written yet. -/
def filled (slot : Slot) (data : Bytes) : Slot :=
  { slot with
    memory := slot.memory.zeroExtended slot.writePos ++ data ++
      slot.memory.drop (slot.writePos + data.length) }

/-- Counts bytes as written that are left as they are. -/
def reserve (slot : Slot) (len : Nat) : Slot :=
  { slot with writePos := Word.wrap (slot.writePos + len) }

/-- Counts bytes as read. -/
def advance (slot : Slot) (len : Nat) : Slot :=
  { slot with readPos := slot.readPos + len }

/-- Bytes written and not yet read. -/
def unread (slot : Slot) : Nat :=
  slot.writePos - slot.readPos

/-- Whether there are bytes left to read. -/
def hasUnread (slot : Slot) : Bool :=
  decide (slot.readPos < slot.writePos)

/-! ## Steps of the cycle -/

/-- Notes that the slot is in use. -/
def touched (slot : Slot) (now : Nat) : Slot :=
  { slot with lastTouch := now }

/-- Nothing written, nothing read, nobody done with it. -/
def cleared (slot : Slot) : Slot :=
  { slot with writePos := 0, readPos := 0, releases := 0 }

/-- Empty and nobody's. -/
def freed (slot : Slot) : Slot :=
  { slot.cleared with word := .free }

/-- Claimed by a writer. -/
def claimedForWriting (slot : Slot) (me : ManagerId) : Slot :=
  { slot.cleared with word := .of .writing me }

/-- Claimed by a reader. -/
def claimedForReading (slot : Slot) (me : ManagerId) : Slot :=
  { slot with word := .of .reading me, readPos := 0 }

/-- Full, with a record for `owner`. -/
def published (slot : Slot) (sequenceId : Nat) (owner : ManagerId) : Slot :=
  { slot with
    word := .of .full owner
    sequenceId := sequenceId
    readPos := 0
    releases := 0 }

/-- Full again, for anyone to read from the start. -/
def returned (slot : Slot) : Slot :=
  { slot with word := .of .full noOwner, readPos := 0 }

/-- What is left of the slot when `me` leaves: what it held for writing is
empty, what it held for reading is full, all else is as it was. -/
def leftBy (slot : Slot) (me : ManagerId) : Slot :=
  if slot.owner = me then
    match slot.state with
    | .writing => { slot with word := .free, writePos := 0, readPos := 0 }
    | .reading => slot.returned
    | .empty | .full => slot
  else slot

/-! ## Questions -/

/-- Whether the slot is up for reclaiming. -/
def isStale (slot : Slot) (staleness : Staleness) : Bool :=
  staleness.timeout != 0 && decide (staleness.timeout < staleness.now - slot.lastTouch)

/-- Whether a writer may claim the slot; one that overwrites takes all but the
slots of other writers. -/
def isWritable (slot : Slot) (overwrite : Bool) : Bool :=
  slot.state == .empty || (overwrite && slot.state != .writing)

/-- Whether the slot holds a record for `me`. -/
def isAddressedTo (slot : Slot) (me : ManagerId) : Bool :=
  slot.state == .full && (slot.owner == noOwner || slot.owner == me)

/-! ## Reclaiming -/

/-- The slot taken from its holder and touched, if there is a holder and
reason to: the slot is stale, or `entitled`. A reader's slot is full again; a
writer's is empty, and so is a stale record that nobody claims, where records
go stale. -/
def reclaimed? (slot : Slot) (staleness : Staleness) (entitled : Bool) : Option Slot :=
  let stale := slot.isStale staleness
  if entitled || stale then
    match slot.state with
    | .reading => some (slot.returned.touched staleness.now)
    | .writing => some (slot.freed.touched staleness.now)
    | .full =>
      if stale && staleness.dropsRecords then some (slot.freed.touched staleness.now) else none
    | .empty => none
  else none

/-- The slot after a scan has reclaimed it where that was due. -/
def swept (slot : Slot) (staleness : Staleness) : Slot :=
  (slot.reclaimed? staleness false).getD slot

end Slot

end SlotTransport.Segment
