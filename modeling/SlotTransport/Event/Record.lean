/-
Event records: an event header, then packed fragment records up to the end.
`pack` writes one. A `Visit` says what one who goes through a record reads of its
fragments and what is kept of them.
-/
import SlotTransport.Event.Header
import SlotTransport.Fragment.Basic

namespace SlotTransport.Event

/-- Bytes of the record of an event with these fragments. -/
def packedSize : (fragments : List Fragment) → Nat
  | [] => Header.size
  | fragment :: others => packedSize others + fragment.size

/-- The parts of an event's record, one after the other. -/
def parts (header : Header) (fragments : List Fragment) : List Bytes :=
  header.encode :: fragments.map Fragment.encode

/-- The record of an event. -/
def pack (header : Header) (fragments : List Fragment) : Bytes :=
  (parts header fragments).flatten

theorem length_pack (header : Header) (fragments : List Fragment) :
    (pack header fragments).length = packedSize fragments := by
  induction fragments with
  | nil => simp [pack, parts, packedSize]
  | cons fragment others ih =>
    simp only [pack, parts, List.map_cons, List.flatten_cons, List.length_append,
      Fragment.length_encode, packedSize] at ih ⊢
    omega

/-- What is kept of the fragments of an event by one who goes through them. -/
structure Visit (α : Type) where
  /-- Whether the body of a fragment is to be read. -/
  wants : Fragment.Header → Bool
  /-- What is kept of a fragment, of which the body is known if it was read. -/
  keep : Fragment.Header → Option Bytes → Except FramingError α

namespace Visit

/-- Keeps the kinds of the fragments, of which only the headers are read. -/
def kinds : Visit Fragment.Kind where
  wants _ := false
  keep header _ := .ok header.kind

/-- Keeps the fragments that a filter selects; of the others only the headers
are read. -/
def fragments (filter : Fragment.Filter) : Visit (Option Fragment) where
  wants header := filter.selects header.kind
  keep header
    | some body => (Fragment.ofParts header body).map some
    | none => .ok none

end Visit

end SlotTransport.Event
