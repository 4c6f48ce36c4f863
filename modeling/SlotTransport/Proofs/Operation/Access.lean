/-
What can be done with the bytes of one slot. An access is an operation that moves
bytes, or a position, or asks how many there are; `Buffer.serve` is what a buffer
makes of it. An operation on a slot is let through exactly if its manager holds the
slot for it and the buffer that the slot is serves the access, and then it tells
and leaves what the buffer does (`apply_access`, `exists_apply_access`).
-/
import SlotTransport.Proofs.Operation.Move
import SlotTransport.Proofs.Segment.Buffer

namespace SlotTransport

open Segment

/-- What can be done with the bytes of a slot. -/
inductive Access where
  | append (data : Bytes)
  | reserve (len : Nat)
  | restart
  | take (len : Nat)
  | skip (len : Nat)
  | rewind
  | view
  | hasUnread
  | written
  deriving DecidableEq, Repr

namespace Access

/-- The access as an operation on a slot. -/
def on (k : Nat) : Access → Operation
  | append data => .write k data
  | reserve len => .skipWriting k len
  | restart => .rewindWriting k
  | take len => .read k len
  | skip len => .skipReading k len
  | rewind => .rewindReading k
  | view => .view k
  | hasUnread => .hasUnread k
  | written => .written k

/-- What a manager must hold the slot for; nothing, where it only asks how many
bytes there are. -/
def purpose? : Access → Option SlotState
  | append _ | reserve _ | restart => some .writing
  | take _ | skip _ | rewind | view => some .reading
  | hasUnread | written => none

end Access

/-- What a buffer tells of an access and what it is after that, if it serves the
access. -/
def Buffer.serve (b : Buffer) : Access → Option (Answer × Buffer)
  | .append data =>
    if Word.wrap (b.content.length + data.length) ≤ b.capacity then some (.done, b.append data)
    else none
  | .reserve len =>
    if 0 < len ∧ Word.wrap (b.content.length + len) ≤ b.capacity then some (.done, b.reserve len)
    else none
  | .restart => some (.done, b.restarted)
  | .take len =>
    if len ≤ b.unread then
      some (.bytes (b.next len) (decide (b.taken + len < b.content.length)), b.advance len)
    else none
  | .skip len =>
    if 0 < len ∧ len ≤ b.unread then
      some (.flag (decide (b.taken + len < b.content.length)), b.advance len)
    else none
  | .rewind => some (.done, b.rewound)
  | .view => some (.content b.content, b)
  | .hasUnread => some (.flag (decide (b.taken < b.content.length)), b)
  | .written => some (.count b.content.length, b)

namespace Segment.Mapping

variable {m after : Mapping} {k len : Nat} {s : Slot}

/-- Whether the manager holds the slot in a state. -/
def Holds (m : Mapping) (s : Slot) (state : SlotState) : Prop :=
  s.state = state ∧ s.owner = m.me.id

theorem held_iff (hs : m.slots[k]? = some s) {state : SlotState} {t : Slot} :
    m.held k state = .ok t ↔ m.Holds s state ∧ t = s := by
  rw [held_eq_ok_iff, hs, Holds]
  grind

theorem heldWithRoom_iff (hs : m.slots[k]? = some s) {t : Slot} :
    m.heldWithRoom k len = .ok t ↔
      (m.Holds s .writing ∧ Word.wrap (s.writePos + len) ≤ m.segment.slotSize) ∧ t = s := by
  rw [heldWithRoom_eq_ok_iff, hs, Holds]
  grind

theorem heldWithUnread_iff (hs : m.slots[k]? = some s) {t : Slot} :
    m.heldWithUnread k len = .ok t ↔ (m.Holds s .reading ∧ len ≤ s.unread) ∧ t = s := by
  rw [heldWithUnread_eq_ok_iff, hs, Holds]
  grind

theorem write_iff (hs : m.slots[k]? = some s) {data : Bytes} :
    m.write k data = .ok after ↔
      (m.Holds s .writing ∧ Word.wrap (s.writePos + data.length) ≤ m.segment.slotSize) ∧
        after = m.touch k (s.append data) := by
  simp only [write, bind_eq_ok_iff, heldWithRoom_iff hs]
  grind

theorem skipWriting_iff (hs : m.slots[k]? = some s) :
    m.skipWriting k len = .ok after ↔
      (m.Holds s .writing ∧ 0 < len ∧ Word.wrap (s.writePos + len) ≤ m.segment.slotSize) ∧
        after = m.touch k (s.reserve len) := by
  simp only [skipWriting, bind_eq_ok_iff, slotAt_eq_ok_iff, hs]
  split
  · grind
  · simp only [bind_eq_ok_iff, heldWithRoom_iff hs]
    grind

theorem rewindWriting_iff (hs : m.slots[k]? = some s) :
    m.rewindWriting k = .ok after ↔
      m.Holds s .writing ∧ after = m.touch k { s with writePos := 0 } := by
  simp only [rewindWriting, bind_eq_ok_iff, held_iff hs]
  grind

theorem read_iff (hs : m.slots[k]? = some s) {got : Bytes × Bool} :
    m.read k len = .ok (got, after) ↔
      (m.Holds s .reading ∧ len ≤ s.unread) ∧
        got = (m.segment.bytesAt k s.readPos len, (s.advance len).hasUnread) ∧
        after = m.touch k (s.advance len) := by
  simp only [read, bind_eq_ok_iff, heldWithUnread_iff hs]
  grind

theorem skipReading_iff (hs : m.slots[k]? = some s) {more : Bool} :
    m.skipReading k len = .ok (more, after) ↔
      (m.Holds s .reading ∧ 0 < len ∧ len ≤ s.unread) ∧ more = (s.advance len).hasUnread ∧
        after = m.touch k (s.advance len) := by
  simp only [skipReading, bind_eq_ok_iff, slotAt_eq_ok_iff, hs]
  split
  · grind
  · simp only [bind_eq_ok_iff, heldWithUnread_iff hs]
    grind

theorem rewindReading_iff (hs : m.slots[k]? = some s) :
    m.rewindReading k = .ok after ↔
      m.Holds s .reading ∧ after = m.touch k { s with readPos := 0 } := by
  simp only [rewindReading, bind_eq_ok_iff, held_iff hs]
  grind

theorem view_iff (hs : m.slots[k]? = some s) {content : Bytes} :
    m.view k = .ok content ↔
      m.Holds s .reading ∧ content = m.segment.bytesAt k 0 s.writePos := by
  simp only [view, bind_eq_ok_iff, held_iff hs]
  grind

theorem hasUnread_eq (hs : m.slots[k]? = some s) : m.hasUnread k = .ok s.hasUnread := by
  rw [hasUnread, slotAt_eq_ok_iff.mpr hs]
  rfl

theorem written_eq (hs : m.slots[k]? = some s) : m.written k = .ok s.writePos := by
  rw [written, slotAt_eq_ok_iff.mpr hs]
  rfl

end Segment.Mapping

namespace Operation

variable {m after : Mapping} {access : Access} {answer : Answer} {k : Nat} {s : Slot} {b : Buffer}

/-- An access that is let through is one that the manager may make and that the
buffer serves, and the slot becomes what the buffer does. -/
theorem apply_access (h : (access.on k).apply m = .ok (answer, after))
    (hs : m.slots[k]? = some s) (hb : s.Shows m.segment.slotSize b) :
    (∀ purpose, access.purpose? = some purpose → m.Holds s purpose) ∧
      ∃ b' s', b.serve access = some (answer, b') ∧ after.slots[k]? = some s' ∧
        s'.word = s.word ∧ s'.Shows m.segment.slotSize b' := by
  have hlt : k < m.slots.length := (List.getElem?_eq_some_iff.mp hs).1
  have htouched : ∀ s' : Slot, (m.touch k s').slots[k]? = some (s'.touched m.now) := fun s' => by
    rw [Mapping.touch, Mapping.slots_store, List.getElem?_set_self hlt]
  cases access with
  | append data =>
    obtain ⟨_, hdone, heq⟩ := map_eq_ok_iff.mp h
    cases heq
    obtain ⟨⟨hheld, hroom⟩, rfl⟩ := (Mapping.write_iff hs).mp hdone
    rw [hb.written] at hroom
    refine ⟨by simpa [Access.purpose?] using hheld, b.append data, _, ?_, htouched _, rfl,
      (hb.append hroom).congr rfl rfl rfl⟩
    rw [Buffer.serve, if_pos (hb.capacity.symm ▸ hroom)]
  | reserve len =>
    obtain ⟨_, hdone, heq⟩ := map_eq_ok_iff.mp h
    cases heq
    obtain ⟨⟨hheld, hpos, hroom⟩, rfl⟩ := (Mapping.skipWriting_iff hs).mp hdone
    rw [hb.written] at hroom
    refine ⟨by simpa [Access.purpose?] using hheld, b.reserve len, _, ?_, htouched _, rfl,
      (hb.reserve hroom).congr rfl rfl rfl⟩
    rw [Buffer.serve, if_pos ⟨hpos, hb.capacity.symm ▸ hroom⟩]
  | restart =>
    obtain ⟨_, hdone, heq⟩ := map_eq_ok_iff.mp h
    cases heq
    obtain ⟨hheld, rfl⟩ := (Mapping.rewindWriting_iff hs).mp hdone
    exact ⟨by simpa [Access.purpose?] using hheld, b.restarted, _, rfl, htouched _, rfl,
      hb.restarted.congr rfl rfl rfl⟩
  | take len =>
    obtain ⟨⟨got, _⟩, hdone, heq⟩ := map_eq_ok_iff.mp h
    cases heq
    obtain ⟨⟨hheld, hunread⟩, hgot, rfl⟩ := (Mapping.read_iff hs).mp hdone
    rw [hb.unread] at hunread
    refine ⟨by simpa [Access.purpose?] using hheld, b.advance len, _, ?_, htouched _, rfl,
      (hb.advance len).congr rfl rfl rfl⟩
    rw [Buffer.serve, if_pos hunread, hgot, hb.next hs hunread, (hb.advance len).hasUnread]
    rfl
  | skip len =>
    obtain ⟨⟨more, _⟩, hdone, heq⟩ := map_eq_ok_iff.mp h
    cases heq
    obtain ⟨⟨hheld, hpos, hunread⟩, hmore, rfl⟩ := (Mapping.skipReading_iff hs).mp hdone
    rw [hb.unread] at hunread
    refine ⟨by simpa [Access.purpose?] using hheld, b.advance len, _, ?_, htouched _, rfl,
      (hb.advance len).congr rfl rfl rfl⟩
    rw [Buffer.serve, if_pos ⟨hpos, hunread⟩, hmore, (hb.advance len).hasUnread]
    rfl
  | rewind =>
    obtain ⟨_, hdone, heq⟩ := map_eq_ok_iff.mp h
    cases heq
    obtain ⟨hheld, rfl⟩ := (Mapping.rewindReading_iff hs).mp hdone
    exact ⟨by simpa [Access.purpose?] using hheld, b.rewound, _, rfl, htouched _, rfl,
      hb.rewound rfl rfl rfl⟩
  | view =>
    obtain ⟨_, hdone, heq⟩ := map_eq_ok_iff.mp h
    cases heq
    obtain ⟨hheld, rfl⟩ := (Mapping.view_iff hs).mp hdone
    refine ⟨by simpa [Access.purpose?] using hheld, b, s, ?_, hs, rfl, hb⟩
    rw [Buffer.serve, hb.written, hb.bytesAt hs (by omega), List.drop_zero, List.take_length]
  | hasUnread =>
    obtain ⟨_, hdone, heq⟩ := map_eq_ok_iff.mp h
    cases heq
    cases (Mapping.hasUnread_eq hs).symm.trans hdone
    exact ⟨fun _ h => (by cases h), b, s, by rw [Buffer.serve, hb.hasUnread], hs, rfl, hb⟩
  | written =>
    obtain ⟨_, hdone, heq⟩ := map_eq_ok_iff.mp h
    cases heq
    cases (Mapping.written_eq hs).symm.trans hdone
    exact ⟨fun _ h => (by cases h), b, s, by rw [Buffer.serve, hb.written], hs, rfl, hb⟩

/-- An access that the manager may make and that the buffer serves is let
through. -/
theorem exists_apply_access (hs : m.slots[k]? = some s) (hb : s.Shows m.segment.slotSize b)
    (hmay : ∀ purpose, access.purpose? = some purpose → m.Holds s purpose)
    (hserved : (b.serve access).isSome = true) : ∃ told, (access.on k).apply m = .ok told := by
  have hok : ∀ {α : Type} {x : Except Violation α} (f : α → Answer × Mapping),
      (∃ a, x = .ok a) → ∃ told, x.map f = .ok told := by
    rintro α x f ⟨a, rfl⟩
    exact ⟨f a, rfl⟩
  cases access with
  | append data =>
    have hroom : Word.wrap (b.content.length + data.length) ≤ b.capacity := by
      by_contra hfull
      simp [Buffer.serve, hfull] at hserved
    rw [hb.capacity, ← hb.written] at hroom
    exact hok _ ⟨_, (Mapping.write_iff hs).mpr ⟨⟨hmay _ rfl, hroom⟩, rfl⟩⟩
  | reserve len =>
    have hroom : 0 < len ∧ Word.wrap (b.content.length + len) ≤ b.capacity := by
      by_contra hfull
      simp [Buffer.serve, hfull] at hserved
    rw [hb.capacity, ← hb.written] at hroom
    exact hok _ ⟨_, (Mapping.skipWriting_iff hs).mpr ⟨⟨hmay _ rfl, hroom⟩, rfl⟩⟩
  | restart => exact hok _ ⟨_, (Mapping.rewindWriting_iff hs).mpr ⟨hmay _ rfl, rfl⟩⟩
  | take len =>
    have hunread : len ≤ b.unread := by
      by_contra hshort
      simp [Buffer.serve, hshort] at hserved
    rw [← hb.unread] at hunread
    exact hok _ ⟨(_, _), (Mapping.read_iff hs).mpr ⟨⟨hmay _ rfl, hunread⟩, rfl, rfl⟩⟩
  | skip len =>
    have hunread : 0 < len ∧ len ≤ b.unread := by
      by_contra hshort
      simp [Buffer.serve, hshort] at hserved
    rw [← hb.unread] at hunread
    exact hok _ ⟨(_, _), (Mapping.skipReading_iff hs).mpr ⟨⟨hmay _ rfl, hunread⟩, rfl, rfl⟩⟩
  | rewind => exact hok _ ⟨_, (Mapping.rewindReading_iff hs).mpr ⟨hmay _ rfl, rfl⟩⟩
  | view => exact hok _ ⟨_, (Mapping.view_iff hs).mpr ⟨hmay _ rfl, rfl⟩⟩
  | hasUnread => exact hok _ ⟨_, Mapping.hasUnread_eq hs⟩
  | written => exact hok _ ⟨_, Mapping.written_eq hs⟩

/-! ## Other slots -/

end Operation

end SlotTransport
