/-
What can go wrong with a segment. A violation is a breach of the slot protocol
by the caller and costs it its attachment; the other errors do not.
-/
import SlotTransport.Segment.Config

namespace SlotTransport.Segment

/-- A call that makes no sense. -/
inductive Misuse where
  /-- A read position moved by nothing. -/
  | emptyReadStep (slot : Nat)
  /-- A write position moved by nothing. -/
  | emptyWriteStep (slot : Nat)
  /-- A segment to be created whose size a word does not count. -/
  | uncountableSize
  /-- A reason that a caller gives. -/
  | because (text : String)
  deriving DecidableEq, Repr

def Misuse.message : Misuse → String
  | emptyReadStep slot => s!"zero-length read increment on slot {slot}"
  | emptyWriteStep slot => s!"zero-length write increment on slot {slot}"
  | uncountableSize => "segment size overflows"
  | because text => text

/-- A breach of the slot protocol. -/
inductive Violation where
  | noSuchSlot (slot slotCount : Nat)
  /-- The slot is not in the state that the call is about. -/
  | wrongState (slot : Nat) (expected actual : SlotState)
  | wrongOwner (slot : Nat) (owner manager : ManagerId)
  /-- More bytes than the slot has room for. -/
  | writeOverrun (slot offset len capacity : Nat)
  /-- More bytes than the slot has left. -/
  | readOverrun (slot offset len available : Nat)
  | misuse (call : Misuse)
  deriving DecidableEq, Repr

namespace Violation

def name : Violation → String
  | noSuchSlot .. => "ArgumentOutOfRange"
  | wrongState .. => "StateAccessViolation"
  | wrongOwner .. => "OwnerAccessViolation"
  | writeOverrun .. => "SharedMemoryWrite"
  | readOverrun .. => "SharedMemoryRead"
  | misuse _ => "LogicError"

def message : Violation → String
  | noSuchSlot slot slotCount =>
    s!"Slot index {slot} out of range (segment has {slotCount} slots)"
  | wrongState slot expected actual =>
    s!"Slot {slot} is " ++ actual.name ++ ", expected " ++ expected.name
  | wrongOwner slot owner manager =>
    s!"Slot {slot} is owned by manager {owner}, not manager {manager}"
  | writeOverrun slot offset len capacity =>
    s!"Write of {len} bytes at offset {offset} overruns slot {slot} ({capacity} bytes)"
  | readOverrun slot offset len available =>
    s!"Read of {len} bytes at offset {offset} overruns slot {slot} ({available} bytes left)"
  | misuse call => "Logic error: " ++ call.message

end Violation

/-- Why an operation on a segment failed. -/
inductive Error where
  | violation (breach : Violation)
  | notAttached
  /-- The segment did not become ready in time. -/
  | attachTimeout (key : Key)
  /-- The segment was laid out in another version. -/
  | incompatibleVersion (key : Key) (found expected : UInt32)
  | invalidConfig (cause : ConfigError)
  /-- The host refused, for a reason of its own. -/
  | host
  deriving DecidableEq, Repr

namespace Error

def name : Error → String
  | violation breach => breach.name
  | notAttached => "NotAttached"
  | attachTimeout _ => "AttachTimeout"
  | incompatibleVersion .. => "IncompatibleVersion"
  | invalidConfig _ => "InvalidConfig"
  | host => "Io"

/-- Whether the cause is a breach of the slot protocol. -/
def isViolation : Error → Bool
  | violation _ => true
  | _ => false

def message : Error → String
  | violation breach => breach.message
  | notAttached => "Not attached to a shared memory segment"
  | attachTimeout key => "Timed out attaching to segment " ++ key.label
  | incompatibleVersion key found expected =>
    "Segment " ++ key.label ++ s!" has layout version {found}, expected {expected}"
  | invalidConfig cause => "Invalid configuration: " ++ cause.message
  | host => "IO error"

end Error

end SlotTransport.Segment
