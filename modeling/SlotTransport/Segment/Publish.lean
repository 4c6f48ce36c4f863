/-
Passing slots on: publishing what was written, and releasing what was read.
-/
import SlotTransport.Segment.Transfer

namespace SlotTransport.Segment

/-- Who may read a record. -/
inductive Destination where
  /-- Any reader. -/
  | any
  /-- The manager of an id. -/
  | manager (id : ManagerId)
  deriving DecidableEq, Repr

/-- The owner of a slot whose record has a destination. -/
def Destination.owner : Destination → ManagerId
  | any => noOwner
  | manager id => id

/-- Looks a slot up that the manager may empty whatever its state: the creator of the
segment may empty any slot, others only their own. -/
def Mapping.disposable (m : Mapping) (slot : Nat) : Except Violation Slot := do
  let s ← m.slotAt slot
  if m.me.id ≠ creatorId ∧ s.owner ≠ m.me.id then
    .error (.wrongOwner slot s.owner m.me.id)
  else .ok s

namespace Program

/-- Whether a slot is in a state, and is the manager's; full and empty slots
may also be nobody's. A slot found so is touched. -/
def check (slot : Nat) (expected : SlotState) : Program Bool := do
  let s ← require (·.slotAt slot)
  let me ← look (·.me)
  let mine := s.owner = me.id ∨ (s.owner = noOwner ∧ (s.state = .full ∨ s.state = .empty))
  if s.state = expected ∧ mine then
    stamp slot
    return true
  else return false

/-! ## Publishing -/

/-- Counts one more record; tells its sequence id. -/
def nextSequenceId : Program Nat := do
  let last ← look (·.segment.control.lastSequenceId)
  govern ({ · with lastSequenceId := last + 1 })
  return last + 1

/-- Publishes what was written into a slot, under the next sequence id. Tells
whether it did: a slot that the manager does not hold for writing is left
alone, and one that is lost meanwhile is not published. -/
def publish (slot : Nat) (destination : Destination) : Program Bool := do
  let s ← require (·.slotAt slot)
  let me ← look (·.me)
  if s.word = .of .writing me.id then
    let sequenceId ← nextSequenceId
    alter slot ({ · with sequenceId := sequenceId })
    alter slot ({ · with readPos := 0 })
    alter slot ({ · with releases := 0 })
    stamp slot
    exchange slot s.word (.of .full destination.owner)
  else return false

/-! ## Emptying -/

/-- Counts a release of the record in a slot; tells how many there have been. -/
def countRelease (slot : Nat) : Program Nat := do
  alter slot fun s => { s with releases := s.releases + 1 }
  look fun m => (m.slots[slot]?.map (·.releases)).getD 0

/-- What a slot is to become: empty, where it is forced, where a record is gone once
read, and where all readers have released it; else full for the readers to come. -/
def nextWord (slot : Nat) (force : Bool) : Program StateWord := do
  if (← look (·.me.destructive)) || force then return .free
  else
    let releases ← countRelease slot
    let readers ← look (·.segment.control.readers)
    return if readers ≤ releases then .free else .of .full noOwner

/-- Sets back what is kept about the record in a slot that is to become empty or full. -/
def setBack (slot : Nat) (word : StateWord) : Program Unit := do
  alter slot ({ · with readPos := 0 })
  if word = .free then
    alter slot ({ · with writePos := 0 })
    alter slot ({ · with releases := 0 })

/-- Lets a slot go that was found: sets it back, and last exchanges its word. Only there
it shows whether the slot was lost meanwhile. -/
def letGo (slot : Nat) (found : Slot) (word : StateWord) : Program Unit := do
  setBack slot word
  stamp slot
  if ← exchange slot found.word word then return ()
  else
    let actual ← require (·.stateOf slot)
    throw (.wrongState slot found.state actual)

/-- Ends a record. That the manager holds the slot for reading, or with `force` that it
may empty the slot, is looked at first. -/
def finish (slot : Nat) (force : Bool) : Program Unit := do
  let found ← require fun m => if force then m.disposable slot else m.held slot .reading
  let word ← nextWord slot force
  letGo slot found word

/-- Ends reading a slot. -/
def release (slot : Nat) : Program Unit :=
  finish slot false

/-- Empties a slot whatever state it is in. Only the creator of the segment
and the slot's owner may. -/
def evict (slot : Nat) : Program Unit :=
  finish slot true

end Program

end SlotTransport.Segment
