/-
Event channels: the reading end of the event transport. A channel holds at most
one event, which it reads as often as it is asked to, until it releases it.
Broadcasts come before data, and a broadcast that tells to initialise is
delivered once: later ones are skipped.
-/
import SlotTransport.Poll
import SlotTransport.Event.Record
import SlotTransport.Event.Endpoint

namespace SlotTransport

open Event (Source Endpoint Visit)

/-- The reading end of the event transport. -/
structure EventChannel where
  endpoint : Endpoint
  /-- The slot of the event that is held. -/
  held : Option (Source × Nat)
  /-- Whether a broadcast that tells to initialise was delivered. -/
  initialised : Bool
  deriving DecidableEq

namespace EventChannel

/-- A channel that holds nothing. -/
def new (endpoint : Endpoint) : EventChannel :=
  ⟨endpoint, none, false⟩

/-- A channel attached to the segments of a configuration. -/
def ofConfig (config : TransportConfig) (host : Host) : Except Event.Error EventChannel × Host :=
  let (answer, host) := Endpoint.ofConfig config host
  (answer.map new, host)

/-- Whether the event that is held is a broadcast. -/
def holdsBroadcast (channel : EventChannel) : Bool :=
  channel.held.any fun (source, _) => source == .broadcast

/-- An action of the manager of a source. -/
def onSource {α : Type} (source : Source) (action : Action Manager Segment.Error α) :
    Action EventChannel Event.Error α :=
  (Endpoint.on source action).within endpoint
    (fun channel endpoint => { channel with endpoint := endpoint }) id

def hold (source : Source) (slot : Nat) : Action EventChannel Event.Error Unit :=
  Action.change fun channel => { channel with held := some (source, slot) }

/-- Holds nothing any more. -/
def letGo : Action EventChannel Event.Error Unit :=
  Action.change fun channel => { channel with held := none }

/-! ## Looking into a slot -/

/-- Reads the header of the event in a slot, from the start of the slot on. -/
def readHeader (source : Source) (slot : Nat) : Action EventChannel Event.Error Event.Header := do
  let size ← onSource source (Manager.written slot)
  if size < Event.Header.size then
    throw (.framing (.truncatedHeader Event.Header.size size))
  else
    onSource source (Manager.rewindReading slot)
    let (bytes, _) ← onSource source (Manager.read slot Event.Header.size)
    match Event.Header.decode bytes with
    | .error fault => throw (.framing fault)
    | .ok header => return header

/-- Reads the body of a fragment if it is wanted, and passes over it if not. -/
def readBody (source : Source) (slot len : Nat) (wanted : Bool) :
    Action EventChannel Event.Error (Option Bytes) :=
  if wanted then
    if len = 0 then return some []
    else do
      let (body, _) ← onSource source (Manager.read slot len)
      return some body
  else if len = 0 then return none
  else do
    let _ ← onSource source (Manager.skipReading slot len)
    return none

/-- Goes through the packed fragments of a slot in which `size` bytes are
written, the reader being at `offset`. -/
def scanFrom {α : Type} (source : Source) (slot : Nat) (visit : Visit α) (size offset : Nat) :
    Action EventChannel Event.Error (List α) :=
  if offset < size then
    let rest := size - offset
    if rest < Fragment.Header.size then
      throw (.framing (.truncatedHeader Fragment.Header.size rest))
    else do
      let (bytes, _) ← onSource source (Manager.read slot Fragment.Header.size)
      match _hdecode : Fragment.Header.decode bytes with
      | .error fault => throw (.framing fault)
      | .ok header =>
        let room := rest - Fragment.Header.size
        if room < header.bodySize then
          throw (.framing (.bodyLengthMismatch header.bodySize room))
        else
          let body? ← readBody source slot header.bodySize (visit.wants header)
          match visit.keep header body? with
          | .error fault => throw (.framing fault)
          | .ok kept =>
            let others ← scanFrom source slot visit size (offset + header.recordSize)
            return kept :: others
  else return []
termination_by size - offset
decreasing_by
  have hsize := Fragment.Header.size_le_recordSize_of_decode _hdecode
  simp only [Fragment.Header.size] at hsize
  omega

/-- Goes through the fragments of the event in a slot. -/
def scan {α : Type} (source : Source) (slot : Nat) (visit : Visit α) :
    Action EventChannel Event.Error (List α) := do
  let size ← onSource source (Manager.written slot)
  let _ ← readHeader source slot
  scanFrom source slot visit size Event.Header.size

/-- The slot of the event that is held. One that was taken away is held no
more. -/
def requireHeld : Action EventChannel Event.Error (Source × Nat) := do
  match (← Action.own).held with
  | none => throw .nothingHeld
  | some (source, slot) =>
    if ← onSource source (Manager.check slot .reading) then return (source, slot)
    else
      letGo
      throw (.lost slot)

/-! ## Waiting for an event -/

/-- Claims broadcasts until one is to be delivered, and holds it; makes at
most `claims` claims. One that is malformed is held as well. -/
def pollBroadcasts : (claims : Nat) → Action EventChannel Event.Error Bool
  | 0 => return false
  | claims + 1 => do
    match ← onSource .broadcast Manager.claimForReading with
    | none => return false
    | some slot =>
      hold .broadcast slot
      if (← scan .broadcast slot .kinds).contains (.system .init) then
        if (← Action.own).initialised then
          letGo
          onSource .broadcast (Manager.release slot)
          pollBroadcasts claims
        else
          Action.change fun channel => { channel with initialised := true }
          return true
      else return true

/-- Claims the next broadcast to be delivered, if there is one. No slot is
claimed twice, so there are no more claims than slots. -/
def pollBroadcast : Action EventChannel Event.Error Bool := do
  match (← Action.own).endpoint.broadcast with
  | none => return false
  | some manager => pollBroadcasts ((← Action.ask fun _ host => manager.slotCount host) + 1)

/-- Claims the earliest event of the data segment, if there is one. -/
def pollData : Action EventChannel Event.Error Bool := do
  match ← onSource .data Manager.claimForReading with
  | none => return false
  | some slot =>
    hold .data slot
    return true

/-- Tries once to hold an event. There is no answer yet if there is no event
and one may still come. -/
def poll (broadcastOnly : Bool) : Action EventChannel Event.Error (Option Bool) := do
  if ← pollBroadcast then return some true
  if !broadcastOnly then
    if ← pollData then return some true
  let ended ← Action.ask fun channel host => channel.endpoint.isEndOfData host
  return if ended then some false else none

/-- Waits at most `timeout` microseconds until an event is held, and not at all
once no more will come. Tells whether one is held. -/
def await (broadcastOnly : Bool) (timeout : Nat) : Action EventChannel Event.Error Bool := do
  if (← Action.own).held.isSome then return true
  return (← Poll.await (poll broadcastOnly) timeout).getD false

/-! ## The event that is held -/

def header : Action EventChannel Event.Error Event.Header := do
  let (source, slot) ← requireHeld
  readHeader source slot

/-- The kinds of the fragments of the event, in ascending order, each once. -/
def kinds : Action EventChannel Event.Error (List Fragment.Kind) := do
  let (source, slot) ← requireHeld
  return Fragment.Kind.distinct (← scan source slot .kinds)

/-- The fragments of the event that a filter selects, in their order. -/
def fragments (filter : Fragment.Filter) : Action EventChannel Event.Error (List Fragment) := do
  let (source, slot) ← requireHeld
  return (← scan source slot (.fragments filter)).filterMap id

def release : Action EventChannel Event.Error Unit := do
  let (source, slot) ← requireHeld
  onSource source (Manager.release slot)
  letGo

def describe (channel : EventChannel) (host : Host) : String :=
  let held := Labelled.optional (channel.held.map fun (source, slot) =>
    "(" ++ source.name ++ ", " ++ toString slot ++ ")")
  Labelled.render "EventChannel" (channel.endpoint.describe host ++ [
    ("current", held),
    ("init_received", toString channel.initialised)])

end EventChannel

end SlotTransport
