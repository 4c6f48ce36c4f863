/-
What the steps of a slot leave in its fields.
-/
import SlotTransport.Segment.Slot

namespace SlotTransport.Segment

@[simp] theorem StateWord.state_of (state : SlotState) (owner : ManagerId) :
    (StateWord.of state owner).state = state :=
  rfl

@[simp] theorem StateWord.owner_of (state : SlotState) (owner : ManagerId) :
    (StateWord.of state owner).owner = owner :=
  rfl

namespace Slot

/-- Adds bytes to those written so far. -/
def append (slot : Slot) (data : Bytes) : Slot :=
  { slot with
    memory := slot.memory.zeroExtended slot.writePos ++ data ++
      slot.memory.drop (slot.writePos + data.length)
    writePos := Word.wrap (slot.writePos + data.length) }

theorem reserve_filled (s : Slot) (data : Bytes) :
    (s.filled data).reserve data.length = s.append data :=
  rfl

variable (s : Slot) (now sequenceId : Nat) (id : ManagerId)

/-! ## Touched -/

@[simp] theorem state_touched : (s.touched now).state = s.state := rfl
@[simp] theorem owner_touched : (s.touched now).owner = s.owner := rfl
@[simp] theorem sequenceId_touched : (s.touched now).sequenceId = s.sequenceId := rfl
@[simp] theorem releases_touched : (s.touched now).releases = s.releases := rfl
@[simp] theorem writePos_touched : (s.touched now).writePos = s.writePos := rfl
@[simp] theorem readPos_touched : (s.touched now).readPos = s.readPos := rfl
@[simp] theorem memory_touched : (s.touched now).memory = s.memory := rfl

/-! ## Freed -/

@[simp] theorem state_freed : s.freed.state = .empty := rfl
@[simp] theorem owner_freed : s.freed.owner = noOwner := rfl
@[simp] theorem sequenceId_freed : s.freed.sequenceId = s.sequenceId := rfl

/-! ## Claimed -/

@[simp] theorem state_claimedForWriting : (s.claimedForWriting id).state = .writing := rfl
@[simp] theorem owner_claimedForWriting : (s.claimedForWriting id).owner = id := rfl
@[simp] theorem sequenceId_claimedForWriting :
    (s.claimedForWriting id).sequenceId = s.sequenceId := rfl

@[simp] theorem state_claimedForReading : (s.claimedForReading id).state = .reading := rfl
@[simp] theorem owner_claimedForReading : (s.claimedForReading id).owner = id := rfl
@[simp] theorem sequenceId_claimedForReading :
    (s.claimedForReading id).sequenceId = s.sequenceId := rfl
@[simp] theorem releases_claimedForReading : (s.claimedForReading id).releases = s.releases := rfl

/-! ## Published and returned -/

@[simp] theorem state_published : (s.published sequenceId id).state = .full := rfl
@[simp] theorem owner_published : (s.published sequenceId id).owner = id := rfl
@[simp] theorem sequenceId_published :
    (s.published sequenceId id).sequenceId = sequenceId := rfl
@[simp] theorem releases_published : (s.published sequenceId id).releases = 0 := rfl

@[simp] theorem state_returned : s.returned.state = .full := rfl
@[simp] theorem owner_returned : s.returned.owner = noOwner := rfl
@[simp] theorem sequenceId_returned : s.returned.sequenceId = s.sequenceId := rfl
@[simp] theorem releases_returned : s.returned.releases = s.releases := rfl

/-! ## Left -/

theorem leftBy_of_ne {s : Slot} {id : ManagerId} (h : id ≠ s.owner) : s.leftBy id = s := by
  rw [leftBy, if_neg h.symm]

theorem leftBy_cases (s : Slot) (id : ManagerId) :
    s.leftBy id = s ∨
      (s.owner = id ∧ s.state = .writing ∧
        s.leftBy id = { s with word := .free, writePos := 0, readPos := 0 }) ∨
      (s.owner = id ∧ s.state = .reading ∧ s.leftBy id = s.returned) := by
  by_cases howner : s.owner = id
  · rw [leftBy, if_pos howner]
    cases hstate : s.state with
    | writing => exact .inr (.inl ⟨howner, rfl, rfl⟩)
    | reading => exact .inr (.inr ⟨howner, rfl, rfl⟩)
    | empty | full => exact .inl rfl
  · exact .inl (leftBy_of_ne (Ne.symm howner))

end Slot

end SlotTransport.Segment
