/-
Configurations as TOML documents. Keys that a configuration does not know are
passed over, keys that it needs must be there, and each value must be of its
key's type and in its range. Which fields there are, their keys, defaults and order
are the transport's own; how a record is found in a table, or in an array, is how the
library does it that the transport leaves that to.
-/
import SlotTransport.Bytes
import SlotTransport.Config.Transport
import SlotTransport.Toml.Reader

namespace SlotTransport

namespace Toml.Value

/-- A value of some type, if it is one of that type. -/
abbrev As (α : Type) := Value → Option α

/-- An integer of a range. -/
def integerIn? (least greatest : Int) : As Int
  | .integer n => if least ≤ n ∧ n ≤ greatest then some n else none
  | _ => none

def word32? : As UInt32 := fun v =>
  (v.integerIn? 0 0xFFFFFFFF).map fun n => .ofNat n.toNat

def word64? : As UInt64 := fun v =>
  (v.integerIn? 0 0xFFFFFFFFFFFFFFFF).map fun n => .ofNat n.toNat

def int32? : As Int32 := fun v =>
  (v.integerIn? (-0x80000000) 0x7FFFFFFF).map .ofInt

def boolean? : As Bool
  | .boolean b => some b
  | _ => none

/-- A log level: its name, or the name as the only key of a table with
nothing in it. -/
def logLevel? : As LogLevel
  | .string name => LogLevel.ofName? name
  | .table [(name, .table [])] => LogLevel.ofName? name
  | .table [(name, .array [])] => LogLevel.ofName? name
  | _ => none

end Toml.Value

open Toml (Value Table)

/-- The fields of a record, by name from a table or by place from an array. -/
inductive Fields where
  | byName (table : Table)
  | byPlace (items : List Value)

namespace Fields

/-- The fields of a value that can be a record. -/
def ofValue? : Value → Option Fields
  | .table entries => some (.byName entries)
  | .array items => some (.byPlace items)
  | _ => none

def get? (fields : Fields) (name : String) (place : Nat) : Option Value :=
  match fields with
  | .byName table => table.get? name
  | .byPlace items => items[place]?

def required {α : Type} (fields : Fields) (name : String) (place : Nat) (as : Value.As α) :
    Option α :=
  (fields.get? name place).bind as

def optional {α : Type} (fields : Fields) (name : String) (place : Nat) (as : Value.As α)
    (default : α) : Option α :=
  match fields.get? name place with
  | none => some default
  | some v => as v

end Fields

namespace Segment.Config

/-- The configuration of a segment that the fields describe. -/
def ofFields? (fields : Fields) : Option Config := do
  let key ← fields.required "key" 0 Value.word32?
  let slotCount ← fields.optional "slot_count" 1 Value.word64? 0
  let slotSize ← fields.optional "slot_size" 2 Value.word64? 0
  let staleTimeout ← fields.optional "stale_timeout_us" 3 Value.word64? defaultStaleTimeout
  let destructive ← fields.optional "destructive_read" 4 Value.boolean? true
  let rank ← fields.optional "rank" 5 Value.int32? 0
  some { key, slotCount, slotSize, staleTimeout, destructive, rank }

/-- The configuration of a segment that a value describes. -/
def ofValue? (v : Value) : Option Config :=
  (Fields.ofValue? v).bind ofFields?

end Segment.Config

/-- The transport configuration that the fields describe. -/
def TransportConfig.ofFields? (fields : Fields) : Option TransportConfig := do
  let logLevel ← fields.optional "log_level" 0 Value.logLevel? .info
  let data ← fields.required "data" 1 Segment.Config.ofValue?
  let broadcast ← fields.optional "broadcast" 2
    (fun v => (Segment.Config.ofValue? v).map some) none
  some { logLevel, data, broadcast }

/-- What is found where a configuration is looked for. -/
inductive Document where
  | missing
  /-- Something that has no content to read. -/
  | unreadable
  | content (bytes : Bytes)

namespace Document

/-- The text of bytes that are valid UTF-8. -/
def text? (bytes : Bytes) : Option String :=
  String.fromUTF8? ⟨bytes.toArray⟩

/-- Reads a document as a table and the table as a configuration. -/
def load {α : Type} (ofFields? : Fields → Option α) : Document → Except ConfigError α
  | missing => .error .notFound
  | unreadable => .error (.malformed "no content")
  | content bytes =>
    match text? bytes with
    | none => .error (.malformed "not a text")
    | some text =>
      match Toml.read? text with
      | none => .error (.malformed "not a document")
      | some table =>
        match ofFields? (.byName table) with
        | none => .error (.malformed "not a configuration")
        | some config => .ok config

end Document

end SlotTransport
