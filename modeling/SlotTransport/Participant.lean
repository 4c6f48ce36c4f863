/-
Participants: whatever takes part in the transport, be it a manager of its own,
a channel or an emitter. Each has one manager or two, and all of them end when
the participant does.
-/
import SlotTransport.Channel.Fragment
import SlotTransport.Channel.Event
import SlotTransport.Channel.Emitter

namespace SlotTransport

/-- Whatever takes part in the transport. -/
inductive Participant where
  | manager (manager : Manager)
  | fragments (channel : FragmentChannel)
  | events (channel : EventChannel)
  | emitter (emitter : EventEmitter)
  deriving DecidableEq

namespace Participant

/-- The endpoint of a participant that has one. -/
def endpoint? : Participant → Option Event.Endpoint
  | manager _ | fragments _ => none
  | events c => some c.endpoint
  | emitter e => some e.endpoint

/-- The manager of a source or, if none is named, the only one. -/
def manager? : Participant → Option Event.Source → Option Manager
  | manager m, none => some m
  | fragments c, none => some c.manager
  | events c, some source => c.endpoint.manager? source
  | emitter e, some source => e.endpoint.manager? source
  | _, _ => none

/-- The participant with another manager in the place where `manager?` finds
one. -/
def withManager (participant : Participant) (source? : Option Event.Source) (new : Manager) :
    Participant :=
  match participant, source? with
  | manager _, none => manager new
  | fragments c, none => fragments { c with manager := new }
  | events c, some source => events { c with endpoint := c.endpoint.withManager source new }
  | emitter e, some source => emitter ⟨e.endpoint.withManager source new⟩
  | _, _ => participant

/-- Ends the participant. -/
def drop (participant : Participant) (host : Host) : Host :=
  match participant with
  | manager m => m.drop host
  | fragments c => c.manager.drop host
  | events c => c.endpoint.drop host
  | emitter e => e.endpoint.drop host

def describe (participant : Participant) (host : Host) : String :=
  match participant with
  | manager m => m.describe host
  | fragments c => c.describe host
  | events c => c.describe host
  | emitter e => e.describe host

end Participant

end SlotTransport
