/-
Registries of monitored quantities. A registry knows quantities by key, in
ascending order of the keys, and calculates all of them in one flush. A quantity
outlives its key: one that was replaced is still there for those who know its
number.
-/
import SlotTransport.Statistics.Quantity

namespace SlotTransport.Statistics

/-- Quantities, and the keys under which they are flushed. -/
structure Registry where
  /-- Nanoseconds between two flushes. -/
  interval : Nat
  /-- Every quantity ever registered; its number is its place. -/
  quantities : List Quantity
  /-- Keys in ascending order with the numbers of their quantities. -/
  entries : List (String × Nat)
  running : Bool

namespace Registry

/-- Nanoseconds between flushes where nothing else is asked for. -/
def defaultInterval : Nat := Duration.nanosPerSecond

/-- A registry without quantities. -/
def new (interval : Nat) : Registry :=
  ⟨interval, [], [], false⟩

/-- A registry without keys; quantities registered so far keep their
numbers. -/
def renewed (r : Registry) (interval : Nat) : Registry :=
  { r with interval, entries := [], running := false }

/-- Sets the number of a key in an ascending list. -/
def insertEntry (key : String) (number : Nat) : List (String × Nat) → List (String × Nat)
  | [] => [(key, number)]
  | (other, n) :: rest =>
    if key = other then (key, number) :: rest
    else if key < other then (key, number) :: (other, n) :: rest
    else (other, n) :: insertEntry key number rest

/-- Registers a quantity under a key, in place of any other, and gives its
number. -/
def register (r : Registry) (key : String) (q : Quantity) : Nat × Registry :=
  let number := r.quantities.length
  (number, { r with
    quantities := r.quantities ++ [q]
    entries := insertEntry key number r.entries })

/-- Registers a new quantity that is calculated at every flush. -/
def registerNew (r : Registry) (key : String) (window : Nat) : Nat × Registry :=
  r.register key (.new r.interval window)

def keys (r : Registry) : List String :=
  r.entries.map Prod.fst

/-- The number of the quantity of a key. -/
def number? (r : Registry) (key : String) : Option Nat :=
  (r.entries.find? fun entry => entry.1 == key).map Prod.snd

def get? (r : Registry) (key : String) : Option Quantity := do
  let number ← r.number? key
  r.quantities[number]?

def modify (r : Registry) (number : Nat) (f : Quantity → Quantity) : Registry :=
  { r with quantities := r.quantities.modify number f }

/-- Calculates every quantity that has a key, in the order of the keys, and
tells how many calculations took place. -/
def flush (r : Registry) (now : Float) : Nat × Registry :=
  r.entries.foldl
    (fun acc entry =>
      match acc.2.quantities[entry.2]? with
      | none => acc
      | some q =>
        let (done, q) := q.calculate now
        (acc.1 + done.toNat, acc.2.modify entry.2 fun _ => q))
    (0, r)

/-- Resets every quantity that has a key. -/
def resetAll (r : Registry) : Registry :=
  r.entries.foldl (fun acc entry => acc.modify entry.2 Quantity.reset) r

/-- Flushes in the background from now on. -/
def start (r : Registry) : Registry :=
  { r with running := true }

def stop (r : Registry) : Registry :=
  { r with running := false }

/-- The flushes of the background at the given times; none unless started. -/
def work (r : Registry) (times : List Float) : Registry :=
  if r.running then times.foldl (fun acc now => (acc.flush now).2) r else r

end Registry

end SlotTransport.Statistics
