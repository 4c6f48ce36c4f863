/-
The record of a slot: its sequence id and the bytes written. An operation that finds
a record in a slot and leaves one leaves the same (`Change.sameRecord`), whatever
else it does to the slot.
-/
import SlotTransport.Proofs.Operation.Sound
import SlotTransport.Proofs.Segment.Buffer

namespace SlotTransport.Segment

/-- Whether there is a record in the slot. -/
def Slot.isFilled (s : Slot) : Bool :=
  s.state == .full || s.state == .reading

/-- The bytes that are written in the slot. -/
def Slot.content (s : Slot) : Bytes :=
  s.bytesAt 0 s.writePos

/-- What makes up the record of a slot is the same. -/
structure Slot.SameRecord (s s' : Slot) : Prop where
  sequenceId : s'.sequenceId = s.sequenceId
  writePos : s'.writePos = s.writePos
  memory : s'.memory = s.memory

namespace Slot

variable {s s' s'' : Slot}

theorem SameRecord.refl (s : Slot) : s.SameRecord s :=
  ⟨rfl, rfl, rfl⟩

theorem SameRecord.trans (h : s.SameRecord s') (h' : s'.SameRecord s'') : s.SameRecord s'' :=
  ⟨h'.sequenceId.trans h.sequenceId, h'.writePos.trans h.writePos, h'.memory.trans h.memory⟩

theorem SameRecord.content (h : s.SameRecord s') : s'.content = s.content := by
  rw [Slot.content, Slot.content, bytesAt, bytesAt, h.writePos, h.memory]

@[simp] theorem length_content (s : Slot) : s.content.length = s.writePos := by
  rw [Slot.content, bytesAt, Bytes.length_zeroExtended]

theorem isFilled_eq_true_iff : s.isFilled = true ↔ s.state = .full ∨ s.state = .reading := by
  simp [isFilled]

theorem sameRecord_reclaimed {staleness : Staleness} {entitled : Bool}
    (h : s.reclaimed? staleness entitled = some s') (hfilled : s'.isFilled = true) :
    s.SameRecord s' := by
  rcases (reclaimed?_cases h).2 with ⟨-, rfl⟩ | ⟨-, rfl⟩ | ⟨-, -, -, rfl⟩
  · exact ⟨rfl, rfl, rfl⟩
  · cases hfilled
  · cases hfilled

theorem sameRecord_swept {staleness : Staleness} (hfilled : (s.swept staleness).isFilled = true) :
    s.SameRecord (s.swept staleness) := by
  by_cases hsame : s.swept staleness = s
  · rw [hsame]
    exact .refl s
  · exact sameRecord_reclaimed (reclaimed?_of_swept_ne hsame) hfilled

theorem sameRecord_leftBy {id : ManagerId} (hfilled : (s.leftBy id).isFilled = true) :
    s.SameRecord (s.leftBy id) := by
  rcases s.leftBy_cases id with h | ⟨-, -, h⟩ | ⟨-, -, h⟩
  · rw [h]
    exact .refl s
  · rw [h] at hfilled
    cases hfilled
  · rw [h]
    exact ⟨rfl, rfl, rfl⟩

theorem Sound.shows {size : Nat} {destructive : Bool} (h : s.Sound size destructive) :
    s.Shows size ⟨s.content, (s.memory.zeroExtended size).drop s.writePos, s.readPos⟩ := by
  refine ⟨?_, s.length_content.symm, rfl⟩
  have hcontent : s.content = (s.memory.zeroExtended size).take s.writePos := by
    have hwithin : 0 + s.writePos ≤ size := (Nat.zero_add _).trans_le h.written
    rw [Slot.content, bytesAt, Bytes.zeroExtended_drop hwithin, List.drop_zero]
  rw [hcontent, List.take_append_drop]

end Slot

namespace Mapping

variable {m : Mapping} {operation : Operation} {answer : Answer} {k : Nat} {s s' : Slot}

/-- An operation that finds a record in a slot and leaves one leaves the same. -/
theorem Change.sameRecord (h : m.Change operation answer k s s') (hfilled : s.isFilled = true)
    (hfilled' : s'.isFilled = true) : s.SameRecord s' := by
  have hnotWriting : s.state ≠ .writing := by
    intro hwriting
    simp [Slot.isFilled, hwriting] at hfilled
  cases h with
  | kept => exact .refl s
  | wrote _ hstate => exact absurd hstate hnotWriting
  | read | checked => exact ⟨rfl, rfl, rfl⟩
  | swept => exact Slot.sameRecord_swept hfilled'
  | reset _ hs' => exact Slot.sameRecord_reclaimed hs' hfilled'
  | claimedForWriting | evicted => cases hfilled'
  | claimedForReading _ _ hread =>
    simp only [isReadable, Slot.isAddressedTo, Bool.and_eq_true, beq_iff_eq] at hread
    have hswept : (s.swept m.staleness).isFilled = true :=
      Slot.isFilled_eq_true_iff.mpr (.inl hread.1.1)
    exact (Slot.sameRecord_swept hswept).trans ⟨rfl, rfl, rfl⟩
  | published _ hword =>
    exact absurd (by rw [Slot.state, hword, StateWord.state_of]) hnotWriting
  | released =>
    rcases m.released_cases s with h | h
    · rw [h] at hfilled'
      cases hfilled'
    · rw [h]
      exact ⟨rfl, rfl, rfl⟩

end Mapping

end SlotTransport.Segment
