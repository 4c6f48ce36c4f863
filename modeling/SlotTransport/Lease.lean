/-
Leases: claims of slots, to be ended one way or another. A write lease ends by
`commit` or `abandon`, a read lease by `release`, and either by `drop`, which
gives the slot back. All of them are actions of the manager that made the claim.
-/
import SlotTransport.Manager.Operation

namespace SlotTransport

open Segment

/-- A slot claimed for writing. -/
structure WriteLease where
  slot : Nat
  deriving DecidableEq, Repr

/-- A slot claimed for reading. -/
structure ReadLease where
  slot : Nat
  deriving DecidableEq, Repr

namespace Manager

/-- Claims a slot for writing as a lease. -/
def leaseForWriting (overwrite : Bool) : Action Manager Segment.Error (Option WriteLease) := do
  return (← claimForWriting overwrite).map WriteLease.mk

/-- Claims the earliest record as a lease. -/
def leaseForReading : Action Manager Segment.Error (Option ReadLease) := do
  return (← claimForReading).map ReadLease.mk

/-- Gives a slot back if that can be done. -/
def yieldSlot {ε : Type} (slot : Nat) : Action Manager ε Unit :=
  (reset slot).regardless

end Manager

namespace WriteLease

def write (lease : WriteLease) (data : Bytes) : Action Manager Segment.Error Unit :=
  Manager.write lease.slot data

def skip (lease : WriteLease) (len : Nat) : Action Manager Segment.Error Unit :=
  Manager.skipWriting lease.slot len

def rewind (lease : WriteLease) : Action Manager Segment.Error Unit :=
  Manager.rewindWriting lease.slot

def written (lease : WriteLease) : Action Manager Segment.Error Nat :=
  Manager.written lease.slot

/-- How many bytes there is still room for. -/
def remaining (lease : WriteLease) : Action Manager Segment.Error Nat := do
  let size ← .ask Manager.slotSize
  return size - (← lease.written)

/-- Ends the lease: publishes the slot, if it is still held; tells whether it
was. -/
def commit (lease : WriteLease) (destination : Destination) :
    Action Manager Segment.Error Bool :=
  Manager.publish lease.slot destination

/-- Ends the lease: gives the slot back empty; tells whether there was a
change. -/
def abandon (lease : WriteLease) : Action Manager Segment.Error Bool :=
  Manager.reset lease.slot

/-- Ends the lease without a word. -/
def drop {ε : Type} (lease : WriteLease) : Action Manager ε Unit :=
  Manager.yieldSlot lease.slot

def describe (lease : WriteLease) (manager : Manager) (host : Host) : String :=
  Labelled.render "WriteLease" [
    ("manager", manager.describe host),
    ("slot", toString lease.slot),
    ("finished", toString false)]

end WriteLease

namespace ReadLease

/-- Reads the next bytes; tells also whether more are left. -/
def read (lease : ReadLease) (len : Nat) : Action Manager Segment.Error (Bytes × Bool) :=
  Manager.read lease.slot len

/-- Counts bytes as read; tells whether more are left. -/
def skip (lease : ReadLease) (len : Nat) : Action Manager Segment.Error Bool :=
  Manager.skipReading lease.slot len

def rewind (lease : ReadLease) : Action Manager Segment.Error Unit :=
  Manager.rewindReading lease.slot

def size (lease : ReadLease) : Action Manager Segment.Error Nat :=
  Manager.written lease.slot

def isEmpty (lease : ReadLease) : Action Manager Segment.Error Bool := do
  return (← lease.size) == 0

/-- Whether there are bytes left to read. -/
def hasMore (lease : ReadLease) : Action Manager Segment.Error Bool :=
  Manager.hasUnread lease.slot

def isHeld (lease : ReadLease) : Action Manager Segment.Error Bool :=
  Manager.check lease.slot .reading

def view (lease : ReadLease) : Action Manager Segment.Error Bytes :=
  Manager.view lease.slot

def describeView (content : Bytes) : String :=
  Labelled.render "SlotView" [
    ("bytes", Labelled.render "SlotBytes" [("len", toString content.length)]),
    ("_lease", "PhantomData<&()>")]

/-- Ends the lease: releases the slot. -/
def release (lease : ReadLease) : Action Manager Segment.Error Unit :=
  Manager.release lease.slot

/-- Ends the lease without a word. -/
def drop {ε : Type} (lease : ReadLease) : Action Manager ε Unit :=
  Manager.yieldSlot lease.slot

def describe (lease : ReadLease) (manager : Manager) (host : Host) : String :=
  Labelled.render "ReadLease" [
    ("manager", manager.describe host),
    ("slot", toString lease.slot),
    ("finished", toString false)]

end ReadLease

/-- A lease of either kind. -/
inductive Lease where
  | writing (lease : WriteLease)
  | reading (lease : ReadLease)
  deriving DecidableEq, Repr

namespace Lease

/-- Ends the lease without a word. -/
def drop {ε : Type} : Lease → Action Manager ε Unit
  | writing lease => lease.drop
  | reading lease => lease.drop

def describe : Lease → Manager → Host → String
  | writing lease => lease.describe
  | reading lease => lease.describe

end Lease

end SlotTransport
