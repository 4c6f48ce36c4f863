/-
A segment as one manager sees it. An attachment is what a manager keeps to
itself while it is attached; together with the segment and the time it is a
mapping, which is what the slot protocol looks at and stores in.
-/
import SlotTransport.Segment.Image

namespace SlotTransport.Segment

/-- What a manager keeps while it is attached. -/
structure Attachment where
  /-- The number of the object on its host. -/
  object : Nat
  id : ManagerId
  /-- The geometry found on joining; later changes go unnoticed. -/
  geometry : Geometry
  /-- The stale timeout found on joining. -/
  staleTimeout : Nat
  /-- Whether a record is gone once read, as found on joining. -/
  destructive : Bool
  /-- Whether the manager has claimed a slot for writing. -/
  isWriter : Bool
  /-- The highest sequence id claimed for reading, where all are to see a
  record. -/
  lastSeen : Nat
  deriving DecidableEq, Repr

/-- The attachment of a manager that has just joined. -/
def Attachment.new (object : Nat) (id : ManagerId) (control : Control) : Attachment where
  object := object
  id := id
  geometry := control.geometry
  staleTimeout := control.staleTimeout.toNat
  destructive := control.isDestructive
  isWriter := false
  lastSeen := 0

/-- A segment as an attached manager sees it at a moment. -/
structure Mapping where
  me : Attachment
  /-- The time in microseconds. -/
  now : Nat
  segment : Segment
  deriving DecidableEq

namespace Mapping

def slots (m : Mapping) : List Slot :=
  m.segment.slots

/-- What goes stale at this moment. -/
def staleness (m : Mapping) : Staleness :=
  ⟨m.me.staleTimeout, m.now, !m.me.destructive⟩

def slotAt (m : Mapping) (slot : Nat) : Except Violation Slot :=
  match m.slots[slot]? with
  | some s => .ok s
  | none => .error (.noSuchSlot slot m.slots.length)

/-- Looks a slot up that the manager must hold in a state. A wrong state is
noticed before a wrong owner. -/
def held (m : Mapping) (slot : Nat) (expected : SlotState) : Except Violation Slot := do
  let s ← m.slotAt slot
  if s.state ≠ expected then .error (.wrongState slot expected s.state)
  else if s.owner ≠ m.me.id then .error (.wrongOwner slot s.owner m.me.id)
  else .ok s

def withSlots (m : Mapping) (slots : List Slot) : Mapping :=
  { m with segment := { m.segment with slots := slots } }

def withControl (m : Mapping) (control : Control) : Mapping :=
  { m with segment := { m.segment with control := control } }

def store (m : Mapping) (slot : Nat) (s : Slot) : Mapping :=
  m.withSlots (m.slots.set slot s)

/-- Stores what becomes of a slot. -/
def alter (m : Mapping) (slot : Nat) (f : Slot → Slot) : Mapping :=
  m.withSlots (m.slots.modify slot f)

/-- Stores a slot and notes that it is in use. -/
def touch (m : Mapping) (slot : Nat) (s : Slot) : Mapping :=
  m.store slot (s.touched m.now)

@[simp] theorem slots_withSlots (m : Mapping) (slots : List Slot) :
    (m.withSlots slots).slots = slots :=
  rfl

@[simp] theorem slots_withControl (m : Mapping) (control : Control) :
    (m.withControl control).slots = m.slots :=
  rfl

@[simp] theorem slots_store (m : Mapping) (slot : Nat) (s : Slot) :
    (m.store slot s).slots = m.slots.set slot s :=
  rfl

theorem slotAt_eq_ok_iff {m : Mapping} {slot : Nat} {s : Slot} :
    m.slotAt slot = .ok s ↔ m.slots[slot]? = some s := by
  unfold slotAt
  split <;> simp_all

theorem held_eq_ok_iff {m : Mapping} {slot : Nat} {expected : SlotState} {s : Slot} :
    m.held slot expected = .ok s ↔
      m.slots[slot]? = some s ∧ s.state = expected ∧ s.owner = m.me.id := by
  simp only [held, ← slotAt_eq_ok_iff]
  cases m.slotAt slot with
  | error e => simp [bind, Except.bind]
  | ok t =>
    simp only [bind, Except.bind, Except.ok.injEq]
    split
    · simp only [reduceCtorEq, false_iff]
      rintro ⟨rfl, h, -⟩
      contradiction
    · split
      · simp only [reduceCtorEq, false_iff]
        rintro ⟨rfl, -, h⟩
        contradiction
      · simp_all only [ne_eq, Decidable.not_not, Except.ok.injEq]
        constructor
        · rintro rfl
          exact ⟨rfl, ‹_›, ‹_›⟩
        · exact fun h => h.1

/-- The segment that a manager leaves behind: all that it held is given back,
and it is not counted any more. -/
def left (m : Mapping) : Segment :=
  { m.segment with
    slots := m.slots.map (·.leftBy m.me.id)
    control := { m.segment.control with
      attached := m.segment.control.attached - 1
      writers := m.segment.control.writers - (if m.me.isWriter then 1 else 0) } }

end Mapping

end SlotTransport.Segment
