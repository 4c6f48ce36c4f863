/-
Moving bytes in and out of held slots. A writer appends, a reader takes what
comes next; neither goes past the end.
-/
import SlotTransport.Segment.Program

namespace SlotTransport.Segment

namespace Mapping

/-- Looks a slot up that the manager holds for writing and that has room. What does not
fit into a word is lost of the sum that is compared. -/
def heldWithRoom (m : Mapping) (slot len : Nat) : Except Violation Slot := do
  let s ← m.held slot .writing
  if m.segment.slotSize < Word.wrap (s.writePos + len) then
    .error (.writeOverrun slot s.writePos len m.segment.slotSize)
  else .ok s

/-- Looks a slot up that the manager holds for reading and that has so many
bytes left. -/
def heldWithUnread (m : Mapping) (slot len : Nat) : Except Violation Slot := do
  let s ← m.held slot .reading
  if s.unread < len then .error (.readOverrun slot s.readPos len s.unread)
  else .ok s

/-- All bytes of a slot held for reading. -/
def view (m : Mapping) (slot : Nat) : Except Violation Bytes := do
  let s ← m.held slot .reading
  .ok (m.segment.bytesAt slot 0 s.writePos)

/-! ## Questions about any slot -/

/-- Whether there are bytes left to read. -/
def hasUnread (m : Mapping) (slot : Nat) : Except Violation Bool := do
  return (← m.slotAt slot).hasUnread

def written (m : Mapping) (slot : Nat) : Except Violation Nat := do
  return (← m.slotAt slot).writePos

def stateOf (m : Mapping) (slot : Nat) : Except Violation SlotState := do
  return (← m.slotAt slot).state

end Mapping

namespace Program

/-! ## Writing -/

def write (slot : Nat) (data : Bytes) : Program Unit := do
  let _ ← require (·.heldWithRoom slot data.length)
  alter slot (·.filled data)
  alter slot (·.reserve data.length)
  stamp slot

/-- Counts bytes as written without changing them; none is a misuse. -/
def skipWriting (slot len : Nat) : Program Unit := do
  let _ ← require (·.slotAt slot)
  if len = 0 then throw (.misuse (.emptyWriteStep slot))
  else
    let _ ← require (·.heldWithRoom slot len)
    alter slot (·.reserve len)
    stamp slot

def rewindWriting (slot : Nat) : Program Unit := do
  let _ ← require (·.held slot .writing)
  alter slot ({ · with writePos := 0 })
  stamp slot

/-! ## Reading -/

/-- Reads the next bytes of a slot; tells also whether more are left. -/
def read (slot len : Nat) : Program (Bytes × Bool) := do
  let s ← require (·.heldWithUnread slot len)
  let bytes ← look (·.segment.bytesAt slot s.readPos len)
  alter slot (·.advance len)
  stamp slot
  return (bytes, (s.advance len).hasUnread)

/-- Counts bytes as read and tells whether more are left; none is a
misuse. -/
def skipReading (slot len : Nat) : Program Bool := do
  let _ ← require (·.slotAt slot)
  if len = 0 then throw (.misuse (.emptyReadStep slot))
  else
    let s ← require (·.heldWithUnread slot len)
    alter slot (·.advance len)
    stamp slot
    return (s.advance len).hasUnread

def rewindReading (slot : Nat) : Program Unit := do
  let _ ← require (·.held slot .reading)
  alter slot ({ · with readPos := 0 })
  stamp slot

end Program

end SlotTransport.Segment
