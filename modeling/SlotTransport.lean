import SlotTransport.Action
import SlotTransport.Bytes
import SlotTransport.Channel.Emitter
import SlotTransport.Channel.Event
import SlotTransport.Channel.Fragment
import SlotTransport.Clock
import SlotTransport.Config.Document
import SlotTransport.Config.Transport
import SlotTransport.Event.Endpoint
import SlotTransport.Event.Header
import SlotTransport.Event.Record
import SlotTransport.Fragment.Basic
import SlotTransport.Fragment.Header
import SlotTransport.Fragment.Kind
import SlotTransport.Framing
import SlotTransport.Host
import SlotTransport.Lease
import SlotTransport.Manager.Attach
import SlotTransport.Manager.Basic
import SlotTransport.Manager.Operation
import SlotTransport.Participant
import SlotTransport.Poll
import SlotTransport.Proofs.Channel.Exchange
import SlotTransport.Proofs.Channel.InOrder
import SlotTransport.Proofs.Channel.Pool
import SlotTransport.Proofs.Channel.Reading
import SlotTransport.Proofs.Channel.Sight
import SlotTransport.Proofs.Config.Document
import SlotTransport.Proofs.Event.Backlog
import SlotTransport.Proofs.Event.Custody
import SlotTransport.Proofs.Event.Draining
import SlotTransport.Proofs.Event.Initial
import SlotTransport.Proofs.Event.Look
import SlotTransport.Proofs.Event.Next
import SlotTransport.Proofs.Event.Packing
import SlotTransport.Proofs.Event.Reading
import SlotTransport.Proofs.Event.Refusal
import SlotTransport.Proofs.Event.Scene
import SlotTransport.Proofs.Event.Sight
import SlotTransport.Proofs.Event.Skipping
import SlotTransport.Proofs.Event.Trace
import SlotTransport.Proofs.Event.Waiting
import SlotTransport.Proofs.Fragment.Building
import SlotTransport.Proofs.Fragment.Codec
import SlotTransport.Proofs.Fragment.Packed
import SlotTransport.Proofs.Fragment.Record
import SlotTransport.Proofs.Manager.Attaching
import SlotTransport.Proofs.Manager.Connection
import SlotTransport.Proofs.Manager.Names
import SlotTransport.Proofs.Operation.Access
import SlotTransport.Proofs.Operation.Basic
import SlotTransport.Proofs.Operation.Change
import SlotTransport.Proofs.Operation.Incident
import SlotTransport.Proofs.Operation.Move
import SlotTransport.Proofs.Operation.Offer
import SlotTransport.Proofs.Operation.Sound
import SlotTransport.Proofs.Operation.Stage
import SlotTransport.Proofs.Poll.Schedule
import SlotTransport.Proofs.Queue.HandOff
import SlotTransport.Proofs.Queue.Items
import SlotTransport.Proofs.Queue.Ledger
import SlotTransport.Proofs.Segment.Buffer
import SlotTransport.Proofs.Segment.Layout
import SlotTransport.Proofs.Segment.Program
import SlotTransport.Proofs.Segment.Ring
import SlotTransport.Proofs.Segment.Scan
import SlotTransport.Proofs.Segment.Search
import SlotTransport.Proofs.Segment.Slot
import SlotTransport.Proofs.Segment.Tiling
import SlotTransport.Proofs.Statistics.Ledger
import SlotTransport.Proofs.Toml.Keys
import SlotTransport.Proofs.World.Accounting
import SlotTransport.Proofs.World.Addressee
import SlotTransport.Proofs.World.Basic
import SlotTransport.Proofs.World.Broadcast
import SlotTransport.Proofs.World.Coherent
import SlotTransport.Proofs.World.Continuity
import SlotTransport.Proofs.World.Creator
import SlotTransport.Proofs.World.Deed
import SlotTransport.Proofs.World.Delivery
import SlotTransport.Proofs.World.Ending
import SlotTransport.Proofs.World.Exclusive
import SlotTransport.Proofs.World.Failure
import SlotTransport.Proofs.World.Forecast
import SlotTransport.Proofs.World.Forward
import SlotTransport.Proofs.World.GiveBack
import SlotTransport.Proofs.World.History
import SlotTransport.Proofs.World.Lease
import SlotTransport.Proofs.World.Membership
import SlotTransport.Proofs.World.Party
import SlotTransport.Proofs.World.Readiness
import SlotTransport.Proofs.World.Record
import SlotTransport.Proofs.World.Recycling
import SlotTransport.Proofs.World.Releases
import SlotTransport.Proofs.World.Roster
import SlotTransport.Proofs.World.Search
import SlotTransport.Proofs.World.Sound
import SlotTransport.Proofs.World.Tenure
import SlotTransport.Queue
import SlotTransport.Segment.Basic
import SlotTransport.Segment.Claim
import SlotTransport.Segment.Config
import SlotTransport.Segment.Error
import SlotTransport.Segment.Field
import SlotTransport.Segment.Image
import SlotTransport.Segment.Layout
import SlotTransport.Segment.Mapping
import SlotTransport.Segment.Program
import SlotTransport.Segment.Publish
import SlotTransport.Segment.Slot
import SlotTransport.Segment.Snapshot
import SlotTransport.Segment.State
import SlotTransport.Segment.Transfer
import SlotTransport.Statistics.Batch
import SlotTransport.Statistics.Duration
import SlotTransport.Statistics.Quantity
import SlotTransport.Statistics.Registry
import SlotTransport.Text.Hex
import SlotTransport.Text.Json
import SlotTransport.Text.Labelled
import SlotTransport.Toml.Blank
import SlotTransport.Toml.Quoted
import SlotTransport.Toml.Reader
import SlotTransport.Toml.Scalar
import SlotTransport.Toml.Tree
import SlotTransport.Toml.Value
import SlotTransport.Word
