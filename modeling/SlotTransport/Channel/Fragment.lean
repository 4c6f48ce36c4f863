/-
Fragment channels: one fragment in each slot. To write one is to pack its
record into a slot and publish it. To read one is to claim a record, read its
header, which tells how many bytes follow, read these, and release the slot; a
slot that holds no fragment is released unread.
-/
import SlotTransport.Poll
import SlotTransport.Fragment.Basic
import SlotTransport.Manager.Attach
import SlotTransport.Manager.Operation

namespace SlotTransport

open Segment

/-- Why there is no header. -/
inductive HeaderFault where
  /-- The slot holds fewer bytes than a header has. -/
  | tooShort (slot size : Nat)
  /-- The header declares more bytes than the slot holds. -/
  | overlong (slot declared size : Nat)
  | malformed (slot : Nat) (cause : FramingError)
  | unreadable (cause : Segment.Error)
  deriving DecidableEq, Repr

def HeaderFault.message : HeaderFault → String
  | tooShort slot size => s!"slot {slot} holds {size} bytes, less than a header"
  | overlong slot declared size =>
    s!"slot {slot}: header declares {declared} bytes, slot holds {size}"
  | malformed slot cause => s!"slot {slot}: " ++ cause.message
  | unreadable cause => cause.message

/-- Why there is no payload. -/
inductive PayloadFault where
  | noHeader
  /-- There is not enough room for the bytes after the header. -/
  | noRoom (room needed : Nat)
  /-- Header and body do not go together. -/
  | malformed (cause : FramingError)
  | unreadable (cause : Segment.Error)
  deriving DecidableEq, Repr

def PayloadFault.message : PayloadFault → String
  | noHeader => "no fragment header has been read"
  | noRoom room needed => s!"buffer of {room} bytes for a {needed}-byte payload"
  | malformed cause => cause.message
  | unreadable cause => cause.message

/-- Why an operation of a fragment channel failed. -/
inductive ChannelError where
  | notAttached (key : Key)
  /-- No slot could be claimed in time. -/
  | noSlot (key : Key)
  /-- The record did not go into the slot. -/
  | incomplete (expected actual : Nat)
  | header (fault : HeaderFault)
  | payload (fault : PayloadFault)
  | segment (cause : Segment.Error)
  deriving DecidableEq, Repr

namespace ChannelError

def name : ChannelError → String
  | notAttached _ => "SegmentInvalid"
  | noSlot _ => "NoBufferAvailable"
  | incomplete .. => "UnexpectedWriteLength"
  | header _ => "HeaderReadFailed"
  | payload _ => "PayloadReadFailed"
  | segment _ => "Segment"

def code : ChannelError → Int
  | notAttached _ => -1
  | noSlot _ => -2
  | incomplete .. => -3
  | header _ => -4
  | payload _ => -5
  | segment _ => -6

def message : ChannelError → String
  | notAttached key => "Segment " ++ key.label ++ " is not attached"
  | noSlot key => "No buffer available on segment " ++ key.label
  | incomplete expected actual => s!"Wrote {actual} bytes of a {expected}-byte fragment"
  | header fault => "Fragment header read failed: " ++ fault.message
  | payload fault => "Fragment payload read failed: " ++ fault.message
  | segment cause => "Segment error: " ++ cause.message

end ChannelError

/-- The numbers of a channel's quantities on its host. -/
structure FragmentChannel.Counters where
  fragmentsWritten : Nat
  bytesWritten : Nat
  fragmentsRead : Nat
  bytesRead : Nat
  deriving DecidableEq, Repr

/-- A transport of single fragments over one segment. -/
structure FragmentChannel where
  manager : Manager
  /-- Whom fragments are written for. -/
  destination : Destination
  /-- The slot whose header was read and whose body was not, and the header. -/
  held : Option (Nat × Fragment.Header)
  counters : Option FragmentChannel.Counters
  deriving DecidableEq

namespace FragmentChannel

/-- A channel of a manager, for any reader, without statistics. -/
def new (manager : Manager) : FragmentChannel :=
  ⟨manager, .any, none, none⟩

/-- A new channel, attached. -/
def attach (config : Segment.Config) (host : Host) : Except ChannelError FragmentChannel × Host :=
  let (answer, host) := Manager.attach config .uptime host
  ((answer.map new).mapError .segment, host)

def withDestination (channel : FragmentChannel) (destination : Destination) : FragmentChannel :=
  { channel with destination := destination }

/-- The flush intervals that the recent statistics of a channel cover. -/
def statisticsSpan : Nat := 10

/-- Registers the channel's quantities with its host and counts from now
on. -/
def withStatistics (channel : FragmentChannel) (host : Host) : FragmentChannel × Host :=
  let stem := "shm_" ++ Hex.padded 8 channel.manager.key.toNat
  let window := host.registry.interval * statisticsSpan
  let (fragmentsWritten, registry) :=
    host.registry.registerNew (stem ++ ".fragments_written") window
  let (bytesWritten, registry) := registry.registerNew (stem ++ ".bytes_written") window
  let (fragmentsRead, registry) := registry.registerNew (stem ++ ".fragments_read") window
  let (bytesRead, registry) := registry.registerNew (stem ++ ".bytes_read") window
  let counters := ⟨fragmentsWritten, bytesWritten, fragmentsRead, bytesRead⟩
  ({ channel with counters := some counters }, { host with registry := registry })

/-- An action of the channel's manager, its errors seen differently. -/
def onManagerAs {α : Type} (wrap : Segment.Error → ChannelError)
    (action : Action Manager Segment.Error α) : Action FragmentChannel ChannelError α :=
  action.within manager (fun channel manager => { channel with manager := manager }) wrap

def onManager {α : Type} (action : Action Manager Segment.Error α) :
    Action FragmentChannel ChannelError α :=
  onManagerAs .segment action

/-- Adds one fragment and its bytes to the statistics of a direction. -/
def countTraffic (direction : Counters → Nat × Nat) (bytes : Nat) :
    Action FragmentChannel ChannelError Unit := do
  match (← Action.own).counters with
  | none => pure ()
  | some counters =>
    let (fragmentsNumber, bytesNumber) := direction counters
    Action.count fun registry =>
      (registry.modify fragmentsNumber (·.addCount 1)).modify bytesNumber (·.addCount bytes)

/-- Fails unless the channel's manager is attached. -/
def requireAttached : Action FragmentChannel ChannelError Unit := do
  let manager := (← Action.own).manager
  if !manager.isAttached then throw (.notAttached manager.key)

/-! ## Writing -/

/-- Claims a slot, waiting at most `timeout` microseconds for one. -/
def claimSlot (overwrite : Bool) (timeout : Nat) : Action FragmentChannel ChannelError Nat := do
  match ← Poll.await (onManager (Manager.claimForWriting overwrite)) timeout with
  | some slot => return slot
  | none => throw (.noSlot (← Action.own).manager.key)

/-- Writes a fragment into a slot and publishes it for a destination, waiting
at most `timeout` microseconds for a slot. -/
def writeTo (fragment : Fragment) (overwrite : Bool) (timeout : Nat) (destination : Destination) :
    Action FragmentChannel ChannelError Unit := do
  requireAttached
  let record := fragment.encode
  let room ← Action.ask fun channel host => channel.manager.slotSize host
  if room < record.length then throw (.incomplete record.length 0)
  let slot ← claimSlot overwrite timeout
  onManager (Manager.write slot record)
  let written ← onManager (Manager.written slot)
  if written ≠ record.length then
    let _ ← onManager (Manager.reset slot)
    throw (.incomplete record.length written)
  if !(← onManager (Manager.publish slot destination)) then
    throw (.noSlot (← Action.own).manager.key)
  countTraffic (fun counters => (counters.fragmentsWritten, counters.bytesWritten)) record.length

/-- Writes a fragment for the channel's destination. -/
def write (fragment : Fragment) (overwrite : Bool) (timeout : Nat) :
    Action FragmentChannel ChannelError Unit := do
  writeTo fragment overwrite timeout (← Action.own).destination

/-! ## Reading -/

/-- Releases a slot in which no fragment was found. -/
def discard {α : Type} (slot : Nat) (fault : HeaderFault) :
    Action FragmentChannel ChannelError α := do
  onManager (Manager.release slot)
  throw (.header fault)

/-- Claims a record and reads its header, if there is a record. The slot is
held until its body is read or it is given back; until then the same header is
read again. -/
def readHeader : Action FragmentChannel ChannelError (Option Fragment.Header) := do
  if let some (_, header) := (← Action.own).held then return some header
  requireAttached
  match ← onManager Manager.claimForReading with
  | none => return none
  | some slot =>
    let size ← onManager (Manager.written slot)
    if size < Fragment.Header.size then discard slot (.tooShort slot size)
    else
      let (bytes, _) ← onManagerAs (fun cause => .header (.unreadable cause))
        (Manager.read slot Fragment.Header.size)
      match Fragment.Header.decode bytes with
      | .error cause => discard slot (.malformed slot cause)
      | .ok header =>
        if size < header.recordSize then discard slot (.overlong slot header.recordSize size)
        else
          Action.change fun channel => { channel with held := some (slot, header) }
          return some header

/-- Reads the body of the fragment whose header was read, into a buffer with
room for `room` bytes, and releases the slot. -/
def readBody (room : Nat) : Action FragmentChannel ChannelError Bytes := do
  match (← Action.own).held with
  | none => throw (.payload .noHeader)
  | some (slot, header) =>
    let size := header.bodySize
    if room < size then throw (.payload (.noRoom room size))
    Action.change fun channel => { channel with held := none }
    let body ←
      if size = 0 then pure []
      else
        let (bytes, _) ← onManagerAs (fun cause => .payload (.unreadable cause))
          (Manager.read slot size)
        pure bytes
    onManager (Manager.release slot)
    countTraffic (fun counters => (counters.fragmentsRead, counters.bytesRead))
      (Fragment.Header.size + size)
    return body

/-- Reads a whole fragment, if there is one. -/
def read : Action FragmentChannel ChannelError (Option Fragment) := do
  match ← readHeader with
  | none => return none
  | some header =>
    let body ← readBody header.bodySize
    match Fragment.ofParts header body with
    | .ok fragment => return some fragment
    | .error cause => throw (.payload (.malformed cause))

/-- Reads a whole fragment, waiting at most `timeout` microseconds for one, and
not at all once no more will come. -/
def await (timeout : Nat) : Action FragmentChannel ChannelError (Option Fragment) := do
  let attempt : Action FragmentChannel ChannelError (Option (Option Fragment)) := do
    match ← read with
    | some fragment => return some (some fragment)
    | none =>
      let ended ← Action.ask fun channel host => channel.manager.isEndOfData host
      return if ended then some none else none
  return (← Poll.await attempt timeout).join

/-- Gives back the slot whose header was read, if there is one. -/
def giveBack : Action FragmentChannel ChannelError Unit := do
  if let some (slot, _) := (← Action.own).held then
    Action.change fun channel => { channel with held := none }
    let _ ← onManager (Manager.reset slot)

def describe (channel : FragmentChannel) (host : Host) : String :=
  let destination := match channel.destination with
    | .any => "Any"
    | .manager id => s!"Manager({id})"
  let held := Labelled.optional (channel.held.map fun (slot, _) => toString slot)
  Labelled.render "FragmentChannel" [
    ("segment", channel.manager.describe host),
    ("destination", destination),
    ("active_read", held)]

end FragmentChannel

end SlotTransport
