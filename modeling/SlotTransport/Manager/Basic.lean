/-
Managers: the handles by which processes take part in segments. A manager is
attached or not. While it is, its operations go to the segment through
`Manager.guarded`; one that breaches the slot protocol costs the manager its
attachment, and with it all that it held.
-/
import SlotTransport.Action
import SlotTransport.Segment.Program
import SlotTransport.Text.Labelled

namespace SlotTransport

open Segment

/-- The clock by which a manager touches slots. -/
inductive TimeSource where
  /-- The clock that is moved by hand. -/
  | manual
  /-- The clock that shows how long the machine has been up. -/
  | uptime
  deriving DecidableEq, Repr

/-- A handle on a segment. -/
structure Manager where
  config : Segment.Config
  time : TimeSource
  created : Bool
  attachment : Option Attachment
  deriving DecidableEq

namespace Manager

def isAttached (manager : Manager) : Bool :=
  manager.attachment.isSome

def key (manager : Manager) : Key :=
  manager.config.key

/-- The time in microseconds, by the manager's clock. -/
def now (manager : Manager) (host : Host) : Nat :=
  match manager.time with
  | .manual => host.clock.micros.toNat
  | .uptime => host.uptime.micros.toNat

/-- The segment as the manager sees it, if it is attached. -/
def mapping? (manager : Manager) (host : Host) : Option Mapping := do
  let me ← manager.attachment
  let segment ← host.objects[me.object]?
  return ⟨me, manager.now host, segment.cut me.geometry⟩

/-- Ends the attachment, if there is one: all that the manager held is given
back. To destroy a segment is to declare the end of data and to take its name
away; only its creator does that. -/
def shutdown (manager : Manager) (destroy : Bool) (host : Host) : Manager × Host :=
  match manager.mapping? host with
  | none => ({ manager with attachment := none }, host)
  | some m =>
    let left := m.left
    let gone := { manager with attachment := none }
    if destroy && manager.created then
      let ended := { left with control := { left.control with endOfData := 1 } }
      (gone, (host.store m.me.object ended).unlink manager.key)
    else (gone, host.store m.me.object left)

/-- An operation on the segment. Without an attachment there is none; if it
breaches the slot protocol, the attachment ends. What it stored before stays. -/
def guarded {α : Type} (op : Program α) : Action Manager Segment.Error α :=
  .of fun manager host =>
    match manager.mapping? host with
    | none => (.error .notAttached, manager, host)
    | some m =>
      let (answer, after) := op.on m
      let manager := { manager with attachment := some after.me }
      let host := host.store m.me.object after.segment
      match answer with
      | .ok answer => (.ok answer, manager, host)
      | .error breach => (.error (.violation breach), manager.shutdown false host)

/-- A question about the segment. -/
def query {α : Type} (op : Mapping → Except Violation α) : Action Manager Segment.Error α :=
  guarded (.require op)

/-! ## Facts about a manager -/

/-- What a manager sees in its segment, or `otherwise` if it is not attached. -/
def seen {α : Type} (manager : Manager) (host : Host) (otherwise : α) (look : Mapping → α) : α :=
  ((manager.mapping? host).map look).getD otherwise

/-- The manager's id; nobody's when detached. -/
def id (manager : Manager) (host : Host) : ManagerId :=
  manager.seen host noOwner (·.me.id)

/-- How many slots the segment has, none when detached. -/
def slotCount (manager : Manager) (host : Host) : Nat :=
  manager.seen host 0 (·.slots.length)

/-- How many bytes a slot has, none when detached. -/
def slotSize (manager : Manager) (host : Host) : Nat :=
  manager.seen host 0 (·.segment.slotSize)

/-- Whether a record is gone once read; so it is taken to be when detached. -/
def isDestructive (manager : Manager) (host : Host) : Bool :=
  manager.seen host true (·.me.destructive)

/-- How many managers are attached to the segment; none when detached. -/
def attachedCount (manager : Manager) (host : Host) : Nat :=
  manager.seen host 0 (·.segment.control.attached.toInt.toNat)

def rank? (manager : Manager) (host : Host) : Option Int32 :=
  manager.seen host none fun m => some m.segment.control.rank

/-- Whether no more records will come; not known when detached. -/
def isEndOfData (manager : Manager) (host : Host) : Bool :=
  manager.seen host false (·.segment.control.isEndOfData)

def describe (manager : Manager) (host : Host) : String :=
  Labelled.render "SegmentManager" [
    ("key", manager.key.label),
    ("manager_id", toString (manager.id host)),
    ("slot_count", toString (manager.slotCount host)),
    ("slot_size", toString (manager.slotSize host)),
    ("valid", toString manager.isAttached)]

end Manager

end SlotTransport
