/-
Configuration of one segment: its key, the geometry in which it may be created,
and how it behaves.
-/
import SlotTransport.Text.Hex
import SlotTransport.Segment.Layout
import SlotTransport.Segment.State

namespace SlotTransport

/-- What is wrong with the content of a configuration. -/
inductive Rejection where
  /-- Slots without bytes. -/
  | emptySlots (key : UInt32) (slotCount : UInt64)
  /-- The slots together have more bytes than a word counts. -/
  | tooLarge (key : UInt32) (slotCount slotSize : UInt64)
  /-- Two segments of one key. -/
  | sharedKey (key : UInt32)
  /-- A reason that a caller gives. -/
  | because (text : String)
  deriving DecidableEq, Repr

def Rejection.message : Rejection → String
  | emptySlots key slotCount =>
    "segment 0x" ++ Hex.digits key.toNat ++ ": slot_size must be non-zero when slot_count is " ++
      toString slotCount
  | tooLarge key slotCount slotSize =>
    "segment 0x" ++ Hex.digits key.toNat ++ s!": {slotCount} slots of {slotSize} bytes overflow"
  | sharedKey key => "broadcast segment reuses data key 0x" ++ Hex.digits key.toNat
  | because text => text

/-- Why there is no configuration. -/
inductive ConfigError where
  | notFound
  | malformed (detail : String)
  | rejected (reason : Rejection)
  deriving DecidableEq, Repr

namespace ConfigError

def name : ConfigError → String
  | notFound => "FileNotFound"
  | malformed _ => "ParseError"
  | rejected _ => "ValidationError"

def message : ConfigError → String
  | notFound => "Configuration file not found"
  | malformed detail => "Failed to parse configuration: " ++ detail
  | rejected reason => "Configuration validation failed: " ++ reason.message

end ConfigError

namespace Segment

/-- Names a segment on its host. -/
abbrev Key := UInt32

/-- The key as it is written in messages. -/
def Key.label (key : Key) : String :=
  "0x" ++ Hex.padded 8 key.toNat

/-- The name of the shared object that holds the segment of a key. -/
def Key.objectName (key : Key) : String :=
  "daq_shm_" ++ Hex.padded 8 key.toNat

/-- How a process takes part in a segment. -/
structure Config where
  key : Key
  /-- Slots of a segment that is created; none means never to create one. -/
  slotCount : UInt64
  /-- Bytes of each slot of a segment that is created. -/
  slotSize : UInt64
  /-- Microseconds after which an untouched claim is up for reclaiming; zero
  for never. -/
  staleTimeout : UInt64
  /-- Whether a record is gone once read; otherwise every reader sees it. -/
  destructive : Bool
  /-- Rank that a creator publishes. -/
  rank : Int32
  deriving DecidableEq, Repr

namespace Config

/-- The stale timeout where none is asked for. -/
def defaultStaleTimeout : UInt64 := 100000000

/-- A segment that may be created. -/
def new (key : Key) (slotCount slotSize : UInt64) : Config :=
  ⟨key, slotCount, slotSize, defaultStaleTimeout, true, 0⟩

/-- A segment that is joined but never created. -/
def attachOnly (key : Key) : Config :=
  new key 0 0

/-- The geometry of a segment that is created. -/
def geometry (config : Config) : Geometry :=
  ⟨config.slotCount, config.slotSize⟩

/-- Whether the segment may be created. -/
def mayCreate (config : Config) : Bool :=
  config.slotCount != 0

/-- Rejects slots without bytes and more bytes of slots than a word counts. -/
def validate (config : Config) : Except ConfigError Unit :=
  if config.slotCount ≠ 0 ∧ config.slotSize = 0 then
    .error (.rejected (.emptySlots config.key config.slotCount))
  else if (Word.mul? config.slotCount config.slotSize).isNone then
    .error (.rejected (.tooLarge config.key config.slotCount config.slotSize))
  else .ok ()

end Config

end Segment

end SlotTransport
