/-
Claiming slots. Both scans go once around the slots from a cursor on and
reclaim what is stale on their way. A writer takes the first slot that it may
have, so it reclaims only up to there; a reader reclaims everywhere and takes
the record with the lowest sequence id. Calls are made one after the other, so
nobody comes between a scan's look at a slot and its claim: a scan has no lock,
and no claim that it has to make again.
-/
import SlotTransport.Segment.Program

namespace SlotTransport.Segment

namespace Mapping

/-- All numbers below `count`, from a cursor on and around. -/
def cyclic (count cursor : Nat) : List Nat :=
  (List.range count).map fun step => (cursor + step) % count

def following (m : Mapping) (slot : Nat) : Nat :=
  (slot + 1) % m.slots.length

/-! ## Reclaiming -/

/-- Reclaims a slot if it is stale. -/
def sweep (m : Mapping) (slot : Nat) : Mapping :=
  m.withSlots (m.slots.modify slot (·.swept m.staleness))

/-- Reclaims every slot that is stale. -/
def sweepAll (m : Mapping) : Mapping :=
  m.withSlots (m.slots.map (·.swept m.staleness))

/-! ## Claiming for writing -/

/-- Counts the manager as a writer. -/
def asWriter (m : Mapping) : Mapping :=
  if m.me.isWriter then m
  else
    { m with me := { m.me with isWriter := true } }.withControl
      { m.segment.control with writers := m.segment.control.writers + 1 }

/-- Takes a slot for writing; the next scan starts after it. -/
def takeForWriting (m : Mapping) (slot : Nat) (s : Slot) : Mapping :=
  ((m.touch slot (s.claimedForWriting m.me.id)).withControl
    { m.segment.control with writerCursor := m.following slot }).asWriter

/-- Takes the first of the slots that may be written, reclaiming each before
it is looked at. -/
def takeFirst (overwrite : Bool) (m : Mapping) : List Nat → Option Nat × Mapping
  | [] => (none, m)
  | slot :: others =>
    let swept := m.sweep slot
    match swept.slots[slot]? with
    | none => takeFirst overwrite swept others
    | some s =>
      if s.isWritable overwrite then (some slot, swept.takeForWriting slot s)
      else takeFirst overwrite swept others

/-- Claims a slot for writing. -/
def claimForWriting (m : Mapping) (overwrite : Bool) : Option Nat × Mapping :=
  m.takeFirst overwrite (cyclic m.slots.length m.segment.control.writerCursor)

/-! ## Claiming for reading -/

/-- Whether the slot holds a record that the manager may read: meant for it,
and not yet claimed by it where all are to see a record. -/
def isReadable (m : Mapping) (s : Slot) : Bool :=
  s.isAddressedTo m.me.id && (m.me.destructive || decide (m.me.lastSeen < s.sequenceId))

/-- The slot with the lowest sequence id, the first of them if there are
several. -/
def earliest? : List (Nat × Slot) → Option (Nat × Slot)
  | [] => none
  | first :: others =>
    match earliest? others with
    | none => some first
    | some other => if other.2.sequenceId < first.2.sequenceId then some other else some first

/-- The readable slots in the order of a scan. -/
def readable (m : Mapping) : List (Nat × Slot) :=
  (cyclic m.slots.length m.segment.control.readerCursor).filterMap fun slot =>
    match m.slots[slot]? with
    | some s => if m.isReadable s then some (slot, s) else none
    | none => none

/-- Takes a slot for reading. Where records are gone once read, the next scan
starts after it; where all are to see them, the manager notes how far it
is. -/
def takeForReading (m : Mapping) (slot : Nat) (s : Slot) : Mapping :=
  let taken := m.touch slot (s.claimedForReading m.me.id)
  let control := { m.segment.control with
    highestRead := max m.segment.control.highestRead s.sequenceId }
  if m.me.destructive then
    taken.withControl { control with readerCursor := m.following slot }
  else
    { taken with me := { m.me with lastSeen := max m.me.lastSeen s.sequenceId } }.withControl
      control

/-- Claims the earliest record that the manager may read. -/
def claimForReading (m : Mapping) : Option Nat × Mapping :=
  let swept := m.sweepAll
  match earliest? swept.readable with
  | none => (none, swept)
  | some (slot, s) => (some slot, swept.takeForReading slot s)

/-! ## Readiness -/

/-- How many slots the manager may read. -/
def readableCount (m : Mapping) : Nat :=
  m.slots.countP m.isReadable

/-- How many slots may be claimed for writing. -/
def writableCount (m : Mapping) (overwrite : Bool) : Nat :=
  m.slots.countP (·.isWritable overwrite)

/-- The slots that are the manager's, held or addressed to it. -/
def owned (m : Mapping) : List Nat :=
  m.slots.zipIdx.filterMap fun (s, slot) => if s.owner = m.me.id then some slot else none

end Mapping

namespace Program

/-- Claims a slot for writing, if there is one. -/
def claimForWriting (overwrite : Bool) : Program (Option Nat) :=
  advance (·.claimForWriting overwrite)

/-- Claims the earliest record, if there is one. -/
def claimForReading : Program (Option Nat) :=
  advance (·.claimForReading)

/-- Takes a slot from whoever holds it, if that is the manager itself or the
slot is stale. Tells whether there was a change. -/
def reset (slot : Nat) : Program Bool := do
  let s ← require (·.slotAt slot)
  let reclaimed? ← look fun m => s.reclaimed? m.staleness (s.owner == m.me.id)
  match reclaimed? with
  | some reclaimed =>
    alter slot fun _ => reclaimed
    return true
  | none => return false

end Program

end SlotTransport.Segment
