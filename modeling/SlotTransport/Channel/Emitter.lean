/-
Event emitters: the writing end of the event transport. An event goes into one
slot as a whole or not at all.
-/
import SlotTransport.Event.Record
import SlotTransport.Event.Endpoint
import SlotTransport.Lease

namespace SlotTransport

open Event (Source Endpoint)
open Segment (Destination)

/-- The writing end of the event transport. -/
structure EventEmitter where
  endpoint : Endpoint
  deriving DecidableEq

namespace EventEmitter

/-- An emitter attached to the segments of a configuration. -/
def ofConfig (config : TransportConfig) (host : Host) : Except Event.Error EventEmitter × Host :=
  let (answer, host) := Endpoint.ofConfig config host
  (answer.map mk, host)

/-- An action of the manager of a source. -/
def onSource {α : Type} (source : Source) (action : Action Manager Segment.Error α) :
    Action EventEmitter Event.Error α :=
  (Endpoint.on source action).within endpoint (fun _ endpoint => ⟨endpoint⟩) id

/-- Writes runs of bytes into a leased slot. If that fails, the lease ends. -/
def fill (source : Source) (lease : WriteLease) : List Bytes → Action EventEmitter Event.Error Unit
  | [] => return
  | bytes :: others => do
    try
      onSource source (lease.write bytes)
    catch cause =>
      onSource source lease.drop
      throw cause
    fill source lease others

/-- Packs an event into a slot and publishes it. Tells whether it did: there
may be no slot to be had. An event larger than a slot is refused. -/
def emit (source : Source) (header : Event.Header) (fragments : List Fragment) (overwrite : Bool)
    (destination : Destination) : Action EventEmitter Event.Error Bool := do
  let size := Event.packedSize fragments
  let room ← onSource source (Action.ask Manager.slotSize)
  if room < size then throw (.framing (.tooLarge (size / Fragment.wordSize)))
  match ← onSource source (Manager.leaseForWriting overwrite) with
  | none => return false
  | some lease =>
    fill source lease (Event.parts header fragments)
    onSource source (lease.commit destination)

def write (header : Event.Header) (fragments : List Fragment) (overwrite : Bool)
    (destination : Destination) : Action EventEmitter Event.Error Bool :=
  emit .data header fragments overwrite destination

def broadcast (header : Event.Header) (fragments : List Fragment) :
    Action EventEmitter Event.Error Bool :=
  emit .broadcast header fragments false .any

def describe (emitter : EventEmitter) (host : Host) : String :=
  Labelled.render "EventEmitter" (emitter.endpoint.describe host)

end EventEmitter

end SlotTransport
