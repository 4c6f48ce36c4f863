/-
Configuration of a process's part in the transport: a data segment and, where
wanted, a broadcast segment.
-/
import SlotTransport.Segment.Config

namespace SlotTransport

/-- How much is logged. -/
inductive LogLevel where
  | trace
  | debug
  | info
  | warn
  | error
  deriving DecidableEq, Repr

namespace LogLevel

def name : LogLevel → String
  | trace => "trace"
  | debug => "debug"
  | info => "info"
  | warn => "warn"
  | error => "error"

def ofName? (name : String) : Option LogLevel :=
  [trace, debug, info, warn, error].find? fun level => level.name == name

end LogLevel

/-- The segments of a process. -/
structure TransportConfig where
  logLevel : LogLevel
  data : Segment.Config
  broadcast : Option Segment.Config
  deriving DecidableEq, Repr

namespace TransportConfig

/-- Validates each segment, and rejects two of one key. -/
def validate (config : TransportConfig) : Except ConfigError Unit := do
  config.data.validate
  match config.broadcast with
  | none => pure ()
  | some broadcast => do
    broadcast.validate
    if broadcast.key = config.data.key then .error (.rejected (.sharedKey config.data.key))

end TransportConfig

end SlotTransport
