/-
Slots as byte buffers. A buffer has what was written so far, what the bytes after
that are, and how much was read; where a byte is in memory is no part of it.
`Slot.Shows` relates a slot to the buffer that it is, and the lemmas after it say
that a step of the slot is a step of the buffer as long as there is room. How much was
written is a word, and a sum that does not fit into one starts over (`Buffer.cutAt`).
-/
import SlotTransport.Proofs.Segment.Slot
import SlotTransport.Segment.Image

namespace SlotTransport

namespace Bytes

theorem getElem?_zeroExtended (bs : Bytes) (len k : Nat) :
    (bs.zeroExtended len)[k]? = if k < len then some (bs[k]?.getD 0) else none := by
  unfold zeroExtended zeros
  grind

theorem zeroExtended_drop {bs : Bytes} {offset len size : Nat} (h : offset + len ≤ size) :
    Bytes.zeroExtended (bs.drop offset) len = ((bs.zeroExtended size).drop offset).take len := by
  refine List.ext_getElem? fun k => ?_
  simp only [getElem?_zeroExtended, List.getElem?_take, List.getElem?_drop]
  grind

theorem zeroExtended_overwrite {bs data : Bytes} {pos size : Nat} (h : pos ≤ size) :
    Bytes.zeroExtended (bs.zeroExtended pos ++ data ++ bs.drop (pos + data.length)) size =
      (bs.zeroExtended size).take pos ++
        (data ++ (bs.zeroExtended size).drop (pos + data.length)).take (size - pos) := by
  refine List.ext_getElem? fun k => ?_
  simp only [getElem?_zeroExtended, List.getElem?_append, List.getElem?_take, List.getElem?_drop,
    List.length_append, List.length_take, length_zeroExtended]
  grind

end Bytes

/-- Bytes that are written one after the other and read from the start on. -/
structure Buffer where
  /-- What was written so far. -/
  content : Bytes
  /-- The bytes that are to be written over. -/
  beyond : Bytes
  /-- How much of the content was read. -/
  taken : Nat
  deriving DecidableEq, Repr

namespace Buffer

/-- How much can be written in all. -/
def capacity (b : Buffer) : Nat :=
  b.content.length + b.beyond.length

/-- How much of the content is left to read. -/
def unread (b : Buffer) : Nat :=
  b.content.length - b.taken

/-- The content to come. -/
def next (b : Buffer) (len : Nat) : Bytes :=
  (b.content.drop b.taken).take len

/-- The same bytes, of which so many count as written. -/
def cutAt (b : Buffer) (len : Nat) : Buffer :=
  { b with
    content := (b.content ++ b.beyond).take len
    beyond := (b.content ++ b.beyond).drop len }

/-- Bytes are written over those to come, as far as there are any. How many count as written
is a word. -/
def append (b : Buffer) (data : Bytes) : Buffer :=
  { b with beyond := (data ++ b.beyond.drop data.length).take b.beyond.length : Buffer }.cutAt
    (Word.wrap (b.content.length + data.length))

/-- Takes bytes as written that are there already. How many count as written is a word. -/
def reserve (b : Buffer) (len : Nat) : Buffer :=
  b.cutAt (Word.wrap (b.content.length + len))

/-- Nothing is written any more; the bytes are still there. -/
def restarted (b : Buffer) : Buffer :=
  { b with content := [], beyond := b.content ++ b.beyond }

def advance (b : Buffer) (len : Nat) : Buffer :=
  { b with taken := b.taken + len }

/-- Nothing is read any more. -/
def rewound (b : Buffer) : Buffer :=
  { b with taken := 0 }

end Buffer

namespace Segment

/-- A slot of `size` bytes is a buffer. -/
structure Slot.Shows (s : Slot) (size : Nat) (b : Buffer) : Prop where
  memory : s.memory.zeroExtended size = b.content ++ b.beyond
  written : s.writePos = b.content.length
  read : s.readPos = b.taken

namespace Slot.Shows

variable {s s' : Slot} {size : Nat} {b : Buffer}

theorem capacity (h : s.Shows size b) : b.capacity = size := by
  rw [Buffer.capacity, ← List.length_append, ← h.memory, Bytes.length_zeroExtended]

theorem unread (h : s.Shows size b) : s.unread = b.unread := by
  rw [Slot.unread, Buffer.unread, h.written, h.read]

theorem hasUnread (h : s.Shows size b) : s.hasUnread = decide (b.taken < b.content.length) := by
  rw [Slot.hasUnread, h.written, h.read]

theorem congr (h : s.Shows size b) (hmemory : s'.memory = s.memory)
    (hwritten : s'.writePos = s.writePos) (hread : s'.readPos = s.readPos) : s'.Shows size b :=
  ⟨by rw [hmemory, h.memory], by rw [hwritten, h.written], by rw [hread, h.read]⟩

theorem rewound (h : s.Shows size b) (hmemory : s'.memory = s.memory)
    (hwritten : s'.writePos = s.writePos) (hread : s'.readPos = 0) : s'.Shows size b.rewound :=
  ⟨by rw [hmemory]; exact h.memory, by rw [hwritten]; exact h.written, hread⟩

theorem advance (h : s.Shows size b) (len : Nat) : (s.advance len).Shows size (b.advance len) :=
  ⟨h.memory, h.written, congrArg (· + len) h.read⟩

/-- Where other bytes count as written, the buffer is cut there. -/
theorem cutAt (h : s.Shows size b) {len : Nat} (hlen : len ≤ size) :
    { s with writePos := len }.Shows size (b.cutAt len) := by
  have hcapacity := h.capacity
  rw [Buffer.capacity] at hcapacity
  refine ⟨h.memory.trans (List.take_append_drop len _).symm, ?_, h.read⟩
  simp only [Buffer.cutAt, List.length_take, List.length_append]
  omega

theorem append (h : s.Shows size b) {data : Bytes}
    (hroom : Word.wrap (b.content.length + data.length) ≤ size) :
    (s.append data).Shows size (b.append data) := by
  have hcapacity := h.capacity
  rw [Buffer.capacity] at hcapacity
  have hwritten := h.written
  have hmemory : (s.append data).memory.zeroExtended size =
      b.content ++ (data ++ b.beyond.drop data.length).take b.beyond.length :=
    calc (s.append data).memory.zeroExtended size
        = (s.memory.zeroExtended size).take s.writePos ++
            (data ++ (s.memory.zeroExtended size).drop (s.writePos + data.length)).take
              (size - s.writePos) := Bytes.zeroExtended_overwrite (by omega)
      _ = b.content ++ (data ++ b.beyond.drop data.length).take b.beyond.length := by
          rw [h.memory, hwritten, List.take_left, ← List.drop_drop, List.drop_left,
            show size - b.content.length = b.beyond.length by omega]
  have hover : { s with memory := (s.append data).memory }.Shows size
      { b with beyond := (data ++ b.beyond.drop data.length).take b.beyond.length } :=
    ⟨hmemory, hwritten, h.read⟩
  refine (hover.cutAt hroom).congr rfl ?_ rfl
  rw [← hwritten]
  rfl

theorem reserve (h : s.Shows size b) {len : Nat}
    (hroom : Word.wrap (b.content.length + len) ≤ size) :
    (s.reserve len).Shows size (b.reserve len) := by
  refine (h.cutAt hroom).congr rfl ?_ rfl
  rw [← h.written]
  rfl

theorem restarted (h : s.Shows size b) : { s with writePos := 0 }.Shows size b.restarted :=
  ⟨h.memory, rfl, h.read⟩

theorem bytesAt {segment : Segment} {k : Nat} (h : s.Shows segment.slotSize b)
    (hs : segment.slots[k]? = some s) {offset len : Nat}
    (hwithin : offset + len ≤ b.content.length) :
    segment.bytesAt k offset len = (b.content.drop offset).take len := by
  have hfits : offset + len ≤ segment.slotSize := by
    rw [← h.capacity, Buffer.capacity]
    omega
  simp only [Segment.bytesAt, hs, if_pos hfits, Slot.bytesAt, Bytes.zeroExtended_drop hfits,
    h.memory]
  rw [List.drop_append_of_le_length (by omega), List.take_append_of_le_length (by simp; omega)]

theorem next {segment : Segment} {k : Nat} (h : s.Shows segment.slotSize b)
    (hs : segment.slots[k]? = some s) {len : Nat} (hunread : len ≤ b.unread) :
    segment.bytesAt k s.readPos len = b.next len := by
  rw [h.read, Buffer.next]
  rw [Buffer.unread] at hunread
  rcases Nat.eq_zero_or_pos len with rfl | hpos
  · -- Nothing is nothing, also past the end.
    rw [List.take_zero, Segment.bytesAt, hs]
    simp only [Slot.bytesAt]
    split <;> exact List.eq_nil_of_length_eq_zero (Bytes.length_zeroExtended _ _)
  · exact h.bytesAt hs (by omega)

end Slot.Shows

end Segment

end SlotTransport
