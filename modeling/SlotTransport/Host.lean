/-
The host: what the processes of one machine share. An object has a number of
its own and lives on while somebody uses it; a name leads to an object, or to a
directory that is in the way, and can be taken away from it. After that the
name may be given to another object.
-/
import SlotTransport.Clock
import SlotTransport.Segment.Basic
import SlotTransport.Statistics.Registry

namespace SlotTransport

/-- What a name leads to. -/
inductive Host.Entry where
  | object (number : Nat)
  | directory
  deriving DecidableEq, Repr

/-- What the processes of one machine share. -/
structure Host where
  /-- The clock that is moved by hand. -/
  clock : Clock
  /-- The clock that shows how long the machine has been up. -/
  uptime : Clock
  /-- Names of objects; a name occurs once. -/
  names : List (Segment.Key × Host.Entry)
  /-- Every object there has been; its number is its place. -/
  objects : List Segment
  /-- Statistics of the channels. -/
  registry : Statistics.Registry
  /-- Whether a process may have an object of so many bytes among its addresses. -/
  maps : Nat → Bool

namespace Host

/-- A host without any object, where a process may have one of any size. -/
def new (clock uptime : Clock) : Host :=
  ⟨clock, uptime, [], [], .new Statistics.Registry.defaultInterval, fun _ => true⟩

/-! ## Names -/

/-- What the name of a key leads to. -/
def entry? (host : Host) (key : Segment.Key) : Option Entry :=
  (host.names.find? fun name => name.1 == key).map Prod.snd

/-- Whether the name of a key is in use. -/
def hasName (host : Host) (key : Segment.Key) : Bool :=
  (host.entry? key).isSome

/-- Takes the name of a key away from whatever it leads to. -/
def withoutName (host : Host) (key : Segment.Key) : Host :=
  { host with names := host.names.filter fun name => name.1 != key }

/-- Lets the name of a key lead to something. -/
def withName (host : Host) (key : Segment.Key) (entry : Entry) : Host :=
  { host with names := (key, entry) :: (host.withoutName key).names }

/-- Takes the name of a key away from an object; a directory keeps its
name. -/
def unlink (host : Host) (key : Segment.Key) : Host :=
  if host.entry? key = some .directory then host else host.withoutName key

/-- Removes the object of a key by name; it is an error if that is a
directory. -/
def remove (host : Host) (key : Segment.Key) : Except Segment.Error Host :=
  if host.entry? key = some .directory then .error .host else .ok (host.unlink key)

/-! ## Objects -/

def store (host : Host) (number : Nat) (segment : Segment) : Host :=
  { host with objects := host.objects.set number segment }

/-- Puts a new object under the name of a key. -/
def place (host : Host) (key : Segment.Key) (segment : Segment) : Host :=
  { host with objects := host.objects ++ [segment] }.withName key (.object host.objects.length)

/-- The number of the object that the name of a key leads to. -/
def number? (host : Host) (key : Segment.Key) : Option Nat :=
  match host.entry? key with
  | some (.object number) => some number
  | some .directory | none => none

/-- The object that the name of a key leads to. -/
def segment? (host : Host) (key : Segment.Key) : Option Segment := do
  let number ← host.number? key
  host.objects[number]?

/-- Fills the object of a key with `size` zero bytes, in the place of all that
it held; makes one if there is none. -/
def overwrite (host : Host) (key : Segment.Key) (size : Nat) : Except Segment.Error Host :=
  match host.entry? key with
  | some .directory => .error .host
  | some (.object number) => .ok (host.store number (.blank size))
  | none => .ok (host.place key (.blank size))

/-- Makes a directory of the name of a key, which must not be in use. -/
def makeDirectory (host : Host) (key : Segment.Key) : Except Segment.Error Host :=
  if host.hasName key then .error .host else .ok (host.withName key .directory)

/-- No object has so many bytes: the length of a file is a signed word. -/
def objectLimit : Nat := 0x8000000000000000

end Host

end SlotTransport
