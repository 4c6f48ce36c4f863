/-
What an attached manager can do: the slot protocol, each operation guarded.
-/
import SlotTransport.Manager.Basic
import SlotTransport.Segment.Claim
import SlotTransport.Segment.Transfer
import SlotTransport.Segment.Publish
import SlotTransport.Segment.Snapshot

namespace SlotTransport.Manager

open Segment

/-! ## Claims -/

/-- Claims a slot for writing, if there is one. -/
def claimForWriting (overwrite : Bool) : Action Manager Segment.Error (Option Nat) :=
  guarded (.claimForWriting overwrite)

/-- Claims the earliest record, if there is one. -/
def claimForReading : Action Manager Segment.Error (Option Nat) :=
  guarded .claimForReading

/-- Gives a slot back, or takes a stale one from its holder; tells whether
there was a change. -/
def reset (slot : Nat) : Action Manager Segment.Error Bool :=
  guarded (.reset slot)

/-! ## Bytes -/

/-- Appends bytes to a slot held for writing. -/
def write (slot : Nat) (data : Bytes) : Action Manager Segment.Error Unit :=
  guarded (.write slot data)

/-- Counts bytes of a slot held for writing as written. -/
def skipWriting (slot len : Nat) : Action Manager Segment.Error Unit :=
  guarded (.skipWriting slot len)

def rewindWriting (slot : Nat) : Action Manager Segment.Error Unit :=
  guarded (.rewindWriting slot)

/-- Reads the next bytes of a slot held for reading; tells also whether more
are left. -/
def read (slot len : Nat) : Action Manager Segment.Error (Bytes × Bool) :=
  guarded (.read slot len)

/-- Counts bytes of a slot held for reading as read; tells whether more are
left. -/
def skipReading (slot len : Nat) : Action Manager Segment.Error Bool :=
  guarded (.skipReading slot len)

def rewindReading (slot : Nat) : Action Manager Segment.Error Unit :=
  guarded (.rewindReading slot)

/-- All bytes of a slot held for reading. -/
def view (slot : Nat) : Action Manager Segment.Error Bytes :=
  query (·.view slot)

/-- Whether there are bytes left to read. -/
def hasUnread (slot : Nat) : Action Manager Segment.Error Bool :=
  query (·.hasUnread slot)

def written (slot : Nat) : Action Manager Segment.Error Nat :=
  query (·.written slot)

/-! ## The slot's state -/

def stateOf (slot : Nat) : Action Manager Segment.Error SlotState :=
  query (·.stateOf slot)

/-- Whether a slot is in a state and the manager's, or nobody's. -/
def check (slot : Nat) (expected : SlotState) : Action Manager Segment.Error Bool :=
  guarded (.check slot expected)

/-- Publishes a slot held for writing; tells whether it did. -/
def publish (slot : Nat) (destination : Destination) : Action Manager Segment.Error Bool :=
  guarded (.publish slot destination)

def release (slot : Nat) : Action Manager Segment.Error Unit :=
  guarded (.release slot)

/-- Empties a slot whatever its state. -/
def evict (slot : Nat) : Action Manager Segment.Error Unit :=
  guarded (.evict slot)

/-! ## The segment as a whole -/

def setRank (rank : Int32) : Action Manager Segment.Error Unit :=
  guarded (.govern ({ · with rank := rank }))

/-- Declares that no more records will come. -/
def endData : Action Manager Segment.Error Unit :=
  guarded (.govern ({ · with endOfData := 1 }))

def snapshot : Action Manager Segment.Error String :=
  .of fun manager host => (query fun m => .ok (m.json manager.key)).on manager host

/-- How many records the manager may read, none when detached. -/
def readableCount (manager : Manager) (host : Host) : Nat :=
  manager.seen host 0 (·.readableCount)

/-- How many slots may be claimed for writing, none when detached. -/
def writableCount (manager : Manager) (overwrite : Bool) (host : Host) : Nat :=
  manager.seen host 0 (·.writableCount overwrite)

/-- Whether there is a record that the manager may read. -/
def hasReadable (manager : Manager) (host : Host) : Bool :=
  decide (0 < manager.readableCount host)

/-- Whether there is a slot that may be claimed for writing. -/
def hasWritable (manager : Manager) (overwrite : Bool) (host : Host) : Bool :=
  decide (0 < manager.writableCount overwrite host)

/-- The slots that are the manager's, none when detached. -/
def owned (manager : Manager) (host : Host) : List Nat :=
  manager.seen host [] (·.owned)

end SlotTransport.Manager
