/-
What an operation that does not fail makes of a segment. `Move` lists the ways,
once for all operations, and `apply_move` says that there are no others, so what
is to be shown of every operation is shown of every move. `Move.kept` is what
all of them leave as it is.
-/
import SlotTransport.Proofs.Operation.Basic
import SlotTransport.Proofs.Segment.Scan

namespace SlotTransport

open Segment

namespace Operation

/-- Whether the operation claims a slot. -/
def isClaim : Operation → Bool
  | claimForWriting _ | claimForReading => true
  | _ => false

/-- Whether the operation moves bytes, or a position, in a slot that is held. -/
def isTransfer : Operation → Bool
  | write .. | skipWriting .. | rewindWriting _ | read .. | skipReading .. | rewindReading _ => true
  | _ => false

/-- Whether an operation that tells this has changed nothing. -/
def isIdle : Operation → Answer → Bool
  | view _, _ | hasUnread _, _ | written _, _ | stateOf _, _ | snapshot, _ => true
  | reset _, answer | check .., answer | publish .., answer => answer == .flag false
  | _, _ => false

/-- Whether the operation sets a field of the control block that the slot
protocol does not read. -/
def isDeclaration : Operation → Bool
  | setRank _ | endData => true
  | _ => false

end Operation

namespace Segment.Mapping

/-- What an operation that tells something makes of a mapping. -/
inductive Move (m : Mapping) : Operation → Answer → Mapping → Prop where
  | idle {operation : Operation} {answer : Answer} (h : operation.isIdle answer = true) :
    Move m operation answer m
  | wrote {operation : Operation} {answer : Answer} {slot : Nat} {s : Slot} {pos : Nat}
    {memory : Bytes} (h : operation.isTransfer = true) (hs : m.slots[slot]? = some s)
    (hstate : s.state = .writing) (howner : s.owner = m.me.id) (hpos : pos ≤ m.segment.slotSize) :
    Move m operation answer (m.touch slot { s with writePos := pos, memory := memory })
  | read {operation : Operation} {answer : Answer} {slot : Nat} {s : Slot} {pos : Nat}
    (h : operation.isTransfer = true) (hs : m.slots[slot]? = some s)
    (hstate : s.state = .reading) (howner : s.owner = m.me.id)
    (hpos : pos ≤ max s.readPos s.writePos) :
    Move m operation answer (m.touch slot { s with readPos := pos })
  | checked {slot : Nat} {s : Slot} {expected : SlotState} (hs : m.slots[slot]? = some s)
    (hstate : s.state = expected)
    (hmine : s.owner = m.me.id ∨ s.owner = noOwner ∧ (s.state = .full ∨ s.state = .empty)) :
    Move m (.check slot expected) (.flag true) (m.touch slot s)
  | reset {slot : Nat} {s s' : Slot} (hs : m.slots[slot]? = some s)
    (h : s.reclaimed? m.staleness (s.owner == m.me.id) = some s') :
    Move m (.reset slot) (.flag true) (m.store slot s')
  | claimedForWriting (overwrite : Bool) :
    Move m (.claimForWriting overwrite) (.slot (m.claimForWriting overwrite).1)
      (m.claimForWriting overwrite).2
  | claimedForReading : Move m .claimForReading (.slot m.claimForReading.1) m.claimForReading.2
  | published {slot : Nat} {s : Slot} {destination : Destination} (hs : m.slots[slot]? = some s)
    (hword : s.word = .of .writing m.me.id) :
    Move m (.publish slot destination) (.flag true)
      ((m.touch slot (s.published (m.segment.control.lastSequenceId + 1)
        destination.owner)).withControl
        { m.segment.control with lastSequenceId := m.segment.control.lastSequenceId + 1 })
  | released {slot : Nat} {s : Slot} (hs : m.slots[slot]? = some s) (hstate : s.state = .reading)
    (howner : s.owner = m.me.id) : Move m (.release slot) .done (m.touch slot (m.released s))
  | evicted {slot : Nat} {s : Slot} (hs : m.slots[slot]? = some s)
    (hmay : m.me.id = creatorId ∨ s.owner = m.me.id) :
    Move m (.evict slot) .done (m.touch slot s.freed)
  | declared {operation : Operation} {answer : Answer} (h : operation.isDeclaration = true)
    (rank : Int32) (endOfData : UInt32) :
    Move m operation answer (m.withControl { m.segment.control with rank, endOfData })

end Segment.Mapping

open Segment.Mapping in
/-- There are no other ways than the moves. -/
theorem Operation.apply_move {operation : Operation} {m after : Mapping} {answer : Answer}
    (h : operation.apply m = .ok (answer, after)) : m.Move operation answer after := by
  cases operation with
  | claimForWriting overwrite =>
    cases h
    exact .claimedForWriting overwrite
  | claimForReading =>
    cases h
    exact .claimedForReading
  | reset slot =>
    simp only [apply, map_eq_ok_iff, Mapping.reset, bind_eq_ok_iff, slotAt_eq_ok_iff] at h
    obtain ⟨⟨changed, after'⟩, ⟨s, hs, h⟩, heq⟩ := h
    split at h <;> cases h <;> cases heq
    · rename_i s' hs'
      exact .reset hs hs'
    · exact .idle rfl
  | write slot data =>
    simp only [apply, map_eq_ok_iff, Mapping.write, bind_eq_ok_iff, heldWithRoom_eq_ok_iff] at h
    obtain ⟨after', ⟨s, ⟨⟨hs, hstate, howner⟩, hroom⟩, h⟩, heq⟩ := h
    cases h
    cases heq
    exact .wrote rfl hs hstate howner hroom
  | skipWriting slot len =>
    simp only [apply, map_eq_ok_iff, Mapping.skipWriting, bind_eq_ok_iff] at h
    obtain ⟨after', ⟨t, -, h⟩, heq⟩ := h
    split at h
    · cases h
    · simp only [bind_eq_ok_iff, heldWithRoom_eq_ok_iff] at h
      obtain ⟨s, ⟨⟨hs, hstate, howner⟩, hroom⟩, h⟩ := h
      cases h
      cases heq
      exact .wrote rfl hs hstate howner hroom
  | rewindWriting slot =>
    simp only [apply, map_eq_ok_iff, Mapping.rewindWriting, bind_eq_ok_iff, held_eq_ok_iff] at h
    obtain ⟨after', ⟨s, ⟨hs, hstate, howner⟩, h⟩, heq⟩ := h
    cases h
    cases heq
    exact .wrote rfl hs hstate howner (Nat.zero_le _)
  | read slot len =>
    simp only [apply, map_eq_ok_iff, Mapping.read, bind_eq_ok_iff, heldWithUnread_eq_ok_iff] at h
    obtain ⟨after', ⟨s, ⟨⟨hs, hstate, howner⟩, hunread⟩, h⟩, heq⟩ := h
    cases h
    cases heq
    refine .read rfl hs hstate howner ?_
    simp only [Slot.unread] at hunread
    omega
  | skipReading slot len =>
    simp only [apply, map_eq_ok_iff, Mapping.skipReading, bind_eq_ok_iff] at h
    obtain ⟨after', ⟨t, -, h⟩, heq⟩ := h
    split at h
    · cases h
    · simp only [bind_eq_ok_iff, heldWithUnread_eq_ok_iff] at h
      obtain ⟨s, ⟨⟨hs, hstate, howner⟩, hunread⟩, h⟩ := h
      cases h
      cases heq
      refine .read rfl hs hstate howner ?_
      simp only [Slot.unread] at hunread
      omega
  | rewindReading slot =>
    simp only [apply, map_eq_ok_iff, Mapping.rewindReading, bind_eq_ok_iff, held_eq_ok_iff] at h
    obtain ⟨after', ⟨s, ⟨hs, hstate, howner⟩, h⟩, heq⟩ := h
    cases h
    cases heq
    exact .read rfl hs hstate howner (Nat.zero_le _)
  | view | hasUnread | written | stateOf =>
    simp only [apply, map_eq_ok_iff] at h
    obtain ⟨told, -, heq⟩ := h
    cases heq
    exact .idle rfl
  | check slot expected =>
    simp only [apply, map_eq_ok_iff, Mapping.check, bind_eq_ok_iff, slotAt_eq_ok_iff] at h
    obtain ⟨⟨found, after'⟩, ⟨s, hs, h⟩, heq⟩ := h
    split at h <;> cases h <;> cases heq
    · rename_i hfound
      exact .checked hs hfound.1 hfound.2
    · exact .idle rfl
  | publish slot destination =>
    simp only [apply, map_eq_ok_iff, Mapping.publish, bind_eq_ok_iff, slotAt_eq_ok_iff] at h
    obtain ⟨⟨published, after'⟩, ⟨s, hs, h⟩, heq⟩ := h
    split at h <;> cases h <;> cases heq
    · rename_i hword
      exact .published hs hword
    · exact .idle rfl
  | release slot =>
    simp only [apply, map_eq_ok_iff, Mapping.release, bind_eq_ok_iff, held_eq_ok_iff] at h
    obtain ⟨after', ⟨s, ⟨hs, hstate, howner⟩, h⟩, heq⟩ := h
    cases h
    cases heq
    exact .released hs hstate howner
  | evict slot =>
    simp only [apply, map_eq_ok_iff, Mapping.evict, bind_eq_ok_iff, disposable_eq_ok_iff] at h
    obtain ⟨after', ⟨s, ⟨hs, hmay⟩, h⟩, heq⟩ := h
    cases h
    cases heq
    exact .evicted hs hmay
  | setRank rank =>
    cases h
    exact .declared rfl rank _
  | endData =>
    cases h
    exact .declared rfl _ 1
  | snapshot =>
    cases h
    exact .idle rfl

theorem Operation.held_of_release {m after : Mapping} {slot : Nat} {answer : Answer} {s : Slot}
    (h : (Operation.release slot).apply m = .ok (answer, after)) (hs : m.slots[slot]? = some s) :
    s.state = .reading ∧ s.owner = m.me.id := by
  cases Operation.apply_move h with
  | idle hidle => cases hidle
  | wrote htransfer | read htransfer => cases htransfer
  | declared hdeclared => cases hdeclared
  | released ht hstate howner =>
    rw [hs] at ht
    cases ht
    exact ⟨hstate, howner⟩

/-! ## What stays -/

namespace Segment

/-- The same attachment, apart from what a manager learns on its way. -/
structure Attachment.Alike (a b : Attachment) : Prop where
  object : a.object = b.object
  id : a.id = b.id
  geometry : a.geometry = b.geometry
  staleTimeout : a.staleTimeout = b.staleTimeout
  destructive : a.destructive = b.destructive

/-- Segments of the same layout and settings. -/
structure Alike (a b : Segment) : Prop where
  size : a.size = b.size
  magic : a.control.magic = b.control.magic
  version : a.control.version = b.control.version
  geometry : a.control.geometry = b.control.geometry
  staleTimeout : a.control.staleTimeout = b.control.staleTimeout
  destructive : a.control.destructive = b.control.destructive
  slotSize : a.slotSize = b.slotSize
  length : a.slots.length = b.slots.length

theorem Alike.isDestructive {a b : Segment} (h : a.Alike b) :
    a.control.isDestructive = b.control.isDestructive :=
  congrArg (· != 0) h.destructive

namespace Mapping

variable {m after : Mapping} {operation : Operation} {answer : Answer}

theorem me_asWriter (m : Mapping) : m.asWriter.me = { m.me with isWriter := true } := by
  unfold asWriter
  split
  · rename_i hwriter
    rw [← hwriter]
  · rfl

theorem segment_asWriter (m : Mapping) :
    m.asWriter.segment = { m.segment with control := { m.segment.control with
      writers := m.segment.control.writers + if m.me.isWriter then 0 else 1 } } := by
  unfold asWriter
  split
  · simp
  · rfl

theorem me_takeForWriting (m : Mapping) (slot : Nat) (s : Slot) :
    (m.takeForWriting slot s).me = { m.me with isWriter := true } :=
  me_asWriter _

theorem segment_takeForWriting (m : Mapping) (slot : Nat) (s : Slot) :
    (m.takeForWriting slot s).segment = { m.segment with
      slots := m.slots.set slot ((s.claimedForWriting m.me.id).touched m.now)
      control := { m.segment.control with
        writerCursor := m.following slot
        writers := m.segment.control.writers + if m.me.isWriter then 0 else 1 } } :=
  segment_asWriter _

theorem now_takeForWriting (m : Mapping) (slot : Nat) (s : Slot) :
    (m.takeForWriting slot s).now = m.now := by
  unfold takeForWriting asWriter
  split <;> rfl

theorem me_takeForReading (m : Mapping) (slot : Nat) (s : Slot) :
    (m.takeForReading slot s).me = { m.me with
      lastSeen := if m.me.destructive then m.me.lastSeen else max m.me.lastSeen s.sequenceId } := by
  unfold takeForReading
  split <;> rfl

theorem segment_takeForReading (m : Mapping) (slot : Nat) (s : Slot) :
    (m.takeForReading slot s).segment = { m.segment with
      slots := m.slots.set slot ((s.claimedForReading m.me.id).touched m.now)
      control := { m.segment.control with
        highestRead := max m.segment.control.highestRead s.sequenceId
        readerCursor := if m.me.destructive then m.following slot
          else m.segment.control.readerCursor } } := by
  unfold takeForReading
  split <;> rfl

theorem now_takeForReading (m : Mapping) (slot : Nat) (s : Slot) :
    (m.takeForReading slot s).now = m.now := by
  unfold takeForReading
  split <;> rfl

theorem slots_takeForWriting (m : Mapping) (k : Nat) (s : Slot) :
    (m.takeForWriting k s).slots = m.slots.set k ((s.claimedForWriting m.me.id).touched m.now) := by
  rw [slots, segment_takeForWriting]

theorem slots_takeForReading (m : Mapping) (k : Nat) (s : Slot) :
    (m.takeForReading k s).slots = m.slots.set k ((s.claimedForReading m.me.id).touched m.now) := by
  rw [slots, segment_takeForReading]

theorem staleness_takeForWriting (m : Mapping) (k : Nat) (s : Slot) :
    (m.takeForWriting k s).staleness = m.staleness := by
  rw [staleness, staleness, me_takeForWriting, now_takeForWriting]

theorem staleness_takeForReading (m : Mapping) (k : Nat) (s : Slot) :
    (m.takeForReading k s).staleness = m.staleness := by
  rw [staleness, staleness, me_takeForReading, now_takeForReading]

theorem lastSequenceId_claimForWriting (m : Mapping) (overwrite : Bool) :
    (m.claimForWriting overwrite).2.segment.control.lastSequenceId =
      m.segment.control.lastSequenceId := by
  rcases m.claimForWriting_cases overwrite with ⟨h, -⟩ | ⟨before, slot, others, s, -, -, -, -, h⟩
  · rw [h]
    rfl
  · rw [h]
    simp only [segment_takeForWriting]
    rfl

theorem lastSequenceId_claimForReading (m : Mapping) :
    m.claimForReading.2.segment.control.lastSequenceId = m.segment.control.lastSequenceId := by
  rcases m.claimForReading_cases with ⟨h, -⟩ | ⟨slot, s, -, -, -, h⟩
  · rw [h]
    rfl
  · rw [h]
    simp only [segment_takeForReading]
    rfl

/-- What no operation changes. -/
structure Kept (m after : Mapping) : Prop where
  now : after.now = m.now
  me : after.me.Alike m.me
  segment : after.segment.Alike m.segment
  nextId : after.segment.control.nextId = m.segment.control.nextId
  attached : after.segment.control.attached = m.segment.control.attached

theorem Kept.refl (m : Mapping) : m.Kept m :=
  ⟨rfl, ⟨rfl, rfl, rfl, rfl, rfl⟩, ⟨rfl, rfl, rfl, rfl, rfl, rfl, rfl, rfl⟩, rfl, rfl⟩

theorem kept_store (m : Mapping) (slot : Nat) (s : Slot) : m.Kept (m.store slot s) :=
  ⟨rfl, ⟨rfl, rfl, rfl, rfl, rfl⟩,
    ⟨rfl, rfl, rfl, rfl, rfl, rfl, rfl, by simp [store, withSlots, slots]⟩,
    rfl, rfl⟩

theorem kept_claimForWriting (m : Mapping) (overwrite : Bool) :
    m.Kept (m.claimForWriting overwrite).2 := by
  have hswept : ∀ order, m.Kept (m.sweptAt order) := fun order =>
    ⟨rfl, ⟨rfl, rfl, rfl, rfl, rfl⟩,
      ⟨rfl, rfl, rfl, rfl, rfl, rfl, rfl, length_slots_sweptAt m order⟩, rfl, rfl⟩
  rcases m.claimForWriting_cases overwrite with ⟨h, -⟩ | ⟨before, slot, others, s, -, -, -, -, h⟩
  · rw [h]
    exact hswept _
  · rw [h]
    have hbefore := hswept (before ++ [slot])
    refine ⟨now_takeForWriting _ _ _, ?_, ?_, ?_, ?_⟩
    · simp only [me_takeForWriting]
      exact ⟨rfl, rfl, rfl, rfl, rfl⟩
    · simp only [segment_takeForWriting]
      refine ⟨rfl, rfl, rfl, rfl, rfl, rfl, rfl, ?_⟩
      rw [List.length_set]
      exact hbefore.segment.length
    · simp only [segment_takeForWriting]
      rfl
    · simp only [segment_takeForWriting]
      rfl

theorem kept_claimForReading (m : Mapping) : m.Kept m.claimForReading.2 := by
  have hlength : m.sweepAll.slots.length = m.slots.length := by simp [sweepAll]
  rcases m.claimForReading_cases with ⟨h, -⟩ | ⟨slot, s, -, -, -, h⟩
  · rw [h]
    exact ⟨rfl, ⟨rfl, rfl, rfl, rfl, rfl⟩, ⟨rfl, rfl, rfl, rfl, rfl, rfl, rfl, hlength⟩, rfl, rfl⟩
  · rw [h]
    refine ⟨now_takeForReading _ _ _, ?_, ?_, ?_, ?_⟩
    · simp only [me_takeForReading]
      exact ⟨rfl, rfl, rfl, rfl, rfl⟩
    · simp only [segment_takeForReading]
      refine ⟨rfl, rfl, rfl, rfl, rfl, rfl, rfl, ?_⟩
      rw [List.length_set]
      exact hlength
    · simp only [segment_takeForReading]
      rfl
    · simp only [segment_takeForReading]
      rfl

theorem Move.kept (h : m.Move operation answer after) : m.Kept after := by
  cases h with
  | idle => exact .refl m
  | wrote | read | checked | released | evicted => exact kept_store m _ _
  | reset => exact kept_store m _ _
  | claimedForWriting overwrite => exact kept_claimForWriting m overwrite
  | claimedForReading => exact kept_claimForReading m
  | @published slot s destination hs hword =>
    obtain ⟨hnow, hme, hsegment, hnext, hattached⟩ :=
      kept_store m slot ((s.published (m.segment.control.lastSequenceId + 1)
        destination.owner).touched m.now)
    exact ⟨hnow, hme, ⟨rfl, rfl, rfl, rfl, rfl, rfl, rfl, hsegment.length⟩, rfl, rfl⟩
  | declared =>
    exact ⟨rfl, ⟨rfl, rfl, rfl, rfl, rfl⟩, ⟨rfl, rfl, rfl, rfl, rfl, rfl, rfl, rfl⟩, rfl, rfl⟩

end Mapping

end Segment

end SlotTransport
