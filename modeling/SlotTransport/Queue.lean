/-
A bounded first-in-first-out queue. What a put does when the queue is full is
decided by a policy: refuse the new item, evict the oldest, or drop the new one.
`handOff` lets a producer and a consumer pass a list of items through the queue.
-/
import SlotTransport.Text.Labelled

namespace SlotTransport

/-- What a put does when the queue is full. -/
inductive Queue.Policy where
  /-- The item is handed back. -/
  | refuse
  /-- The oldest items make room. -/
  | evictOldest
  /-- The new item is dropped. -/
  | dropNewest
  deriving DecidableEq, Repr

/-- What a put reports. -/
inductive Queue.Outcome (α : Type) where
  /-- The item is in the queue. -/
  | stored
  /-- There was no room; here is the item back. -/
  | refused (item : α)
  /-- So many items were lost to the put, old ones or the new one. -/
  | lost (count : Nat)
  deriving DecidableEq, Repr

/-- Items in the order in which they were put, oldest first, and how many of
them fit. A queue has room for one item at least. -/
structure Queue (α : Type) where
  items : List α
  capacity : Nat
  capacity_pos : 0 < capacity
  length_le : items.length ≤ capacity
  deriving DecidableEq

namespace Queue

variable {α : Type}

/-- An empty queue; a capacity of zero counts as one. -/
def withCapacity (capacity : Nat) : Queue α where
  items := []
  capacity := max capacity 1
  capacity_pos := by omega
  length_le := Nat.zero_le _

def size (q : Queue α) : Nat :=
  q.items.length

def isEmpty (q : Queue α) : Bool :=
  q.items.isEmpty

def isFull (q : Queue α) : Bool :=
  decide (q.capacity ≤ q.items.length)

/-- Appends an item where there is room. -/
def push (q : Queue α) (item : α) (room : q.items.length < q.capacity) : Queue α where
  items := q.items ++ [item]
  capacity := q.capacity
  capacity_pos := q.capacity_pos
  length_le := by
    simp only [List.length_append, List.length_cons, List.length_nil]
    omega

/-- The queue without its oldest items, so many that one more fits. -/
def makeRoom (q : Queue α) : Queue α where
  items := q.items.drop (q.items.length + 1 - q.capacity)
  capacity := q.capacity
  capacity_pos := q.capacity_pos
  length_le := by
    have := q.capacity_pos
    simp only [List.length_drop]
    omega

/-- Puts an item as the policy has it. -/
def put (policy : Policy) (q : Queue α) (item : α) : Outcome α × Queue α :=
  if room : q.items.length < q.capacity then
    (if policy = .refuse then .stored else .lost 0, q.push item room)
  else
    match policy with
    | .refuse => (.refused item, q)
    | .evictOldest =>
      (.lost (q.items.length + 1 - q.capacity),
        q.makeRoom.push item (by
          have := q.capacity_pos
          have := q.length_le
          simp only [makeRoom, List.length_drop]
          omega))
    | .dropNewest => (.lost 1, q)

/-- Takes the oldest item, if there is one. -/
def take (q : Queue α) : Option α × Queue α :=
  match h : q.items with
  | [] => (none, q)
  | item :: rest =>
    (some item, {
      items := rest
      capacity := q.capacity
      capacity_pos := q.capacity_pos
      length_le := by
        have := q.length_le
        simp only [h, List.length_cons] at this
        omega })

/-- Puts an item once there is room or, when its time is up, as the policy has it.
Nobody else is at the queue meanwhile; `wakes` is how often it looks for room before
its time is up. -/
def putWithin (policy : Policy) (q : Queue α) (item : α) : (wakes : Nat) → Outcome α × Queue α
  | 0 => q.put policy item
  | wakes + 1 => if q.isFull then q.putWithin policy item wakes else q.put policy item

/-- Takes the oldest item once there is one; when its time is up, there is a last
look. -/
def takeWithin (q : Queue α) : (wakes : Nat) → Option α × Queue α
  | 0 => q.take
  | wakes + 1 =>
    match q.take with
    | (some item, rest) => (some item, rest)
    | (none, same) => same.takeWithin wakes

/-- Changes the capacity of an empty queue; a queue that holds items keeps
its own. -/
def resize (q : Queue α) (capacity : Nat) : Bool × Queue α :=
  if q.items.isEmpty then (true, withCapacity capacity) else (false, q)

/-- Drops every item and tells how many there were. -/
def clear (q : Queue α) : Nat × Queue α :=
  (q.items.length, {
    items := []
    capacity := q.capacity
    capacity_pos := q.capacity_pos
    length_le := Nat.zero_le _ })

def describe (q : Queue α) : String :=
  Labelled.render "ConcurrentQueue" [
    ("len", toString q.size),
    ("capacity", toString q.capacity)]

/-- What is said of an item that was refused. -/
def refusedMessage : String := "queue is full"

/-- A refused item in words; the item itself stays unnamed. -/
def describeRefused : String := "QueueFull(..)"

/-! ## Passing items through the queue -/

/-- A producer with items still to put, a consumer with a number of items
still to take, and the items taken so far, in order. -/
structure HandOff (α : Type) where
  queue : Queue α
  toPut : List α
  toTake : Nat
  taken : List α

namespace HandOff

/-- The producer's next step: it waits while the queue is full. -/
def put? (policy : Policy) (s : HandOff α) : Option (HandOff α) :=
  match s.toPut with
  | [] => none
  | item :: rest =>
    if s.queue.isFull then none
    else some { s with queue := (s.queue.put policy item).2, toPut := rest }

/-- The consumer's next step: it waits while the queue is empty. -/
def take? (s : HandOff α) : Option (HandOff α) :=
  match s.toTake, s.queue.take with
  | n + 1, (some item, queue) => some { s with queue, toTake := n, taken := s.taken ++ [item] }
  | _, _ => none

/-- Runs until neither side can step; the producer goes first when both
can. -/
def run (policy : Policy) : (fuel : Nat) → HandOff α → HandOff α
  | 0, s => s
  | fuel + 1, s =>
    match s.put? policy with
    | some next => run policy fuel next
    | none =>
      match s.take? with
      | some next => run policy fuel next
      | none => s

end HandOff

/-- A producer puts all of `items`, waiting for room, while a consumer takes
as many, waiting for items. Gives what was taken, in order. -/
def handOff (policy : Policy) (q : Queue α) (items : List α) : List α × Queue α :=
  let done := HandOff.run policy (2 * items.length) ⟨q, items, items.length, []⟩
  (done.taken, done.queue)

end Queue

end SlotTransport
