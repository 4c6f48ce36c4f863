/-
Endpoints: one end of the event transport, a manager on the segment for data
and perhaps another on a segment for broadcasts. And what can go wrong there.
-/
import SlotTransport.Framing
import SlotTransport.Config.Transport
import SlotTransport.Manager.Attach
import SlotTransport.Manager.Operation

namespace SlotTransport.Event

/-- Why an operation on events failed. -/
inductive Error where
  | nothingHeld
  /-- The slot of the held event was taken away. -/
  | lost (slot : Nat)
  /-- The bytes are no event, or too many for a slot. -/
  | framing (cause : FramingError)
  | segment (cause : Segment.Error)
  deriving DecidableEq, Repr

namespace Error

def name : Error → String
  | nothingHeld => "NoBuffer"
  | lost _ => "BufferLost"
  | framing _ => "Framing"
  | segment _ => "Segment"

def message : Error → String
  | nothingHeld => "No event buffer is held"
  | lost slot => s!"Event buffer {slot} was lost to reclamation"
  | framing cause => "Malformed event: " ++ cause.message
  | segment cause => "Segment error: " ++ cause.message

end Error

/-- Where an event comes from or goes to. -/
inductive Source where
  /-- The segment of events that one reader gets. -/
  | data
  /-- The segment of events that all readers get. -/
  | broadcast
  deriving DecidableEq, Repr

def Source.name : Source → String
  | data => "Data"
  | broadcast => "Broadcast"

/-- The managers at one end of the transport. -/
structure Endpoint where
  data : Manager
  broadcast : Option Manager
  deriving DecidableEq

namespace Endpoint

/-- Attaches to the data segment, then to the one for broadcasts. If only the
first can be had, it is dropped again. -/
def attach (data : Segment.Config) (broadcast : Option Segment.Config) (time : TimeSource)
    (host : Host) : Except Segment.Error Endpoint × Host :=
  match Manager.attach data time host with
  | (.error cause, host) => (.error cause, host)
  | (.ok dataManager, host) =>
    match broadcast with
    | none => (.ok ⟨dataManager, none⟩, host)
    | some config =>
      match Manager.attach config time host with
      | (.error cause, host) => (.error cause, dataManager.drop host)
      | (.ok manager, host) => (.ok ⟨dataManager, some manager⟩, host)

/-- Attaches to the segments of a configuration that makes sense. -/
def ofConfig (config : TransportConfig) (host : Host) : Except Error Endpoint × Host :=
  match config.validate with
  | .error cause => (.error (.segment (.invalidConfig cause)), host)
  | .ok () =>
    let (answer, host) := attach config.data config.broadcast .uptime host
    (answer.mapError .segment, host)

def drop (endpoint : Endpoint) (host : Host) : Host :=
  let host := endpoint.data.drop host
  match endpoint.broadcast with
  | none => host
  | some manager => manager.drop host

def manager? (endpoint : Endpoint) : Source → Option Manager
  | .data => some endpoint.data
  | .broadcast => endpoint.broadcast

/-- The endpoint with another manager for a source. -/
def withManager (endpoint : Endpoint) (source : Source) (manager : Manager) : Endpoint :=
  match source with
  | .data => { endpoint with data := manager }
  | .broadcast => { endpoint with broadcast := some manager }

/-- An action of the manager of a source. Where there is none, it is as if it
were detached. -/
def on {α : Type} (source : Source) (action : Action Manager Segment.Error α) :
    Action Endpoint Error α :=
  .of fun endpoint host =>
    match endpoint.manager? source with
    | none => (.error (.segment .notAttached), endpoint, host)
    | some manager =>
      let (answer, manager, host) := action.on manager host
      (answer.mapError .segment, endpoint.withManager source manager, host)

/-- Whether no more events will come on either segment. -/
def isEndOfData (endpoint : Endpoint) (host : Host) : Bool :=
  endpoint.data.isEndOfData host || endpoint.broadcast.any (·.isEndOfData host)

def describe (endpoint : Endpoint) (host : Host) : List (String × String) := [
  ("data", endpoint.data.describe host),
  ("broadcast", Labelled.optional (endpoint.broadcast.map (·.describe host)))]

end Endpoint

end SlotTransport.Event
