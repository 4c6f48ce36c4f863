/-
Programs: what a manager does to a segment in one operation. A program looks at
the mapping, refuses, or stores something, one thing after another; what it has
stored stays stored, also where it refuses afterwards.
-/
import SlotTransport.Segment.Mapping

namespace SlotTransport.Segment

/-- A sequence of looks and stores with an answer in `α`, or a breach of the slot
protocol. -/
abbrev Program (α : Type) : Type :=
  ExceptT Violation (StateM Mapping) α

namespace Program

variable {α : Type}

/-- The program of a function that says what comes of everything. -/
def of (f : Mapping → Except Violation α × Mapping) : Program α :=
  ExceptT.mk f

/-- What comes of a program: its answer or the breach, and the mapping then. -/
def on (program : Program α) (m : Mapping) : Except Violation α × Mapping :=
  ExceptT.run program m

@[simp] theorem on_of (f : Mapping → Except Violation α × Mapping) (m : Mapping) :
    (of f).on m = f m :=
  rfl

/-! ## Looking -/

def look (f : Mapping → α) : Program α :=
  of fun m => (.ok (f m), m)

/-- Looks for something, and refuses where that fails. -/
def require (f : Mapping → Except Violation α) : Program α :=
  of fun m => (f m, m)

/-! ## Storing -/

/-- Does something to the mapping that cannot fail. -/
def advance (f : Mapping → α × Mapping) : Program α :=
  of fun m => (.ok (f m).1, (f m).2)

/-- Stores something in a slot; nothing if there is no such slot. -/
def alter (slot : Nat) (f : Slot → Slot) : Program Unit :=
  advance fun m => ((), m.alter slot f)

/-- Stores something in the control block. -/
def govern (f : Control → Control) : Program Unit :=
  advance fun m => ((), m.withControl (f m.segment.control))

/-- Notes that a slot is in use. -/
def stamp (slot : Nat) : Program Unit := do
  let now ← look (·.now)
  alter slot (·.touched now)

/-- Stores a word in a slot in the place of another; tells whether it found the other
there, and stores nothing if not. -/
def exchange (slot : Nat) (expected word : StateWord) : Program Bool := do
  if ← look fun m => m.slots[slot]?.any (·.word = expected) then
    alter slot ({ · with word := word })
    return true
  else return false

end Program

end SlotTransport.Segment
