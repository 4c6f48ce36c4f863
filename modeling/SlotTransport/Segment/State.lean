/-
The state word of a slot: a semaphore in the upper half, the owner in the lower
half, so that one word tells who holds the slot and for what. `unpack_pack` and
`pack_unpack` say that state words and 64-bit words are the same thing.
-/

namespace SlotTransport.Segment

/-- The id of a manager attached to a segment. -/
abbrev ManagerId := Int32

/-- The owner of a slot that nobody holds and that is meant for nobody. -/
def noOwner : ManagerId := -1

/-- Where a slot is in its cycle. -/
inductive SlotState where
  /-- Free for a writer. -/
  | empty
  /-- Claimed by a writer. -/
  | writing
  /-- Holds a complete record. -/
  | full
  /-- Claimed by a reader. -/
  | reading
  deriving DecidableEq, Repr

namespace SlotState

def name : SlotState → String
  | empty => "Empty"
  | writing => "Writing"
  | full => "Full"
  | reading => "Reading"

/-- The number that stands for the state. -/
def raw : SlotState → UInt32
  | empty => 0
  | writing => 1
  | full => 2
  | reading => 3

def ofRaw? (raw : UInt32) : Option SlotState :=
  if raw = 0 then some empty
  else if raw = 1 then some writing
  else if raw = 2 then some full
  else if raw = 3 then some reading
  else none

end SlotState

/-- The upper half of a state word. -/
inductive Semaphore where
  | known (state : SlotState)
  /-- A number that stands for no state. -/
  | unknown (raw : UInt32) (foreign : 3 < raw)
  deriving DecidableEq, Repr

namespace Semaphore

/-- The state that a semaphore is taken for. An unknown one passes for
writing, so that only a reclaiming manager touches the slot. -/
def state : Semaphore → SlotState
  | known state => state
  | unknown .. => .writing

/-- The number that a semaphore is stored as. -/
def raw : Semaphore → UInt32
  | known state => state.raw
  | unknown raw _ => raw

/-- The semaphore stored as a number. -/
def ofRaw (raw : UInt32) : Semaphore :=
  if foreign : 3 < raw then unknown raw foreign
  else known ((SlotState.ofRaw? raw).getD .writing)

theorem ofRaw_raw (s : Semaphore) : ofRaw s.raw = s := by
  cases s with
  | known state => cases state <;> rfl
  | unknown raw foreign => simp [Semaphore.raw, ofRaw, foreign]

theorem raw_ofRaw (raw : UInt32) : (ofRaw raw).raw = raw := by
  unfold ofRaw
  split
  · rfl
  · rename_i h
    simp only [UInt32.not_lt, UInt32.le_iff_toNat_le] at h
    have h3 : (3 : UInt32).toNat = 3 := rfl
    have : raw = 0 ∨ raw = 1 ∨ raw = 2 ∨ raw = 3 := by
      simp only [← UInt32.toNat_inj, UInt32.reduceToNat]
      omega
    rcases this with rfl | rfl | rfl | rfl <;> rfl

end Semaphore

/-- What a slot's state word says. -/
structure StateWord where
  semaphore : Semaphore
  owner : ManagerId
  deriving DecidableEq, Repr

namespace StateWord

/-- The word of a known state. -/
def of (state : SlotState) (owner : ManagerId) : StateWord :=
  ⟨.known state, owner⟩

/-- An empty slot that nobody holds. -/
def free : StateWord :=
  .of .empty noOwner

/-- The state that the word is taken for. -/
def state (w : StateWord) : SlotState :=
  w.semaphore.state

/-- The 64 bits of a state word. -/
def pack (w : StateWord) : UInt64 :=
  .ofNat (w.semaphore.raw.toNat * UInt32.size + w.owner.toUInt32.toNat)

/-- The state word of 64 bits. -/
def unpack (bits : UInt64) : StateWord where
  semaphore := .ofRaw (.ofNat (bits.toNat / UInt32.size))
  owner := (UInt32.ofNat (bits.toNat % UInt32.size)).toInt32

theorem toNat_pack (w : StateWord) :
    w.pack.toNat = w.semaphore.raw.toNat * UInt32.size + w.owner.toUInt32.toNat := by
  have h1 := w.semaphore.raw.toNat_lt
  have h2 := w.owner.toUInt32.toNat_lt
  simp only [pack, UInt64.toNat_ofNat', UInt32.size]
  omega

theorem unpack_pack (w : StateWord) : unpack w.pack = w := by
  have h1 := w.semaphore.raw.toNat_lt
  have h2 := w.owner.toUInt32.toNat_lt
  have hq : w.pack.toNat / UInt32.size = w.semaphore.raw.toNat := by
    simp only [toNat_pack, UInt32.size]
    omega
  have hr : w.pack.toNat % UInt32.size = w.owner.toUInt32.toNat := by
    simp only [toNat_pack, UInt32.size]
    omega
  simp only [unpack, hq, hr, UInt32.ofNat_toNat, Semaphore.ofRaw_raw, Int32.toInt32_toUInt32]

theorem pack_unpack (bits : UInt64) : (unpack bits).pack = bits := by
  have h := bits.toNat_lt
  rw [← UInt64.toNat_inj, toNat_pack]
  simp only [unpack, Semaphore.raw_ofRaw, UInt32.toUInt32_toInt32, UInt32.toNat_ofNat', UInt32.size]
  omega

end StateWord

end SlotTransport.Segment
