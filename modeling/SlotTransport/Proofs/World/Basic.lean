/-
Worlds: one host and the managers that processes have on it, each under a
number of its own. A call is what a process asks for in one go: to attach, to
let a manager do something, to end it. The clocks are moved from outside, to
any reading. `World.Run` lists what has been called and in which world each
call was made; a theorem about every run is one about every order of calls of
any managers on any segments.
-/
import SlotTransport.Manager.Attach
import SlotTransport.Proofs.Operation.Basic

namespace SlotTransport

open Segment

/-- A host and the managers on it. The place of a manager is its number; the
place of one that has ended stays empty. -/
structure World where
  host : Host
  managers : List (Option Manager)

namespace World

/-- What may happen to a world in one go. -/
inductive Call where
  /-- A new manager attaches, or tries to. -/
  | attach (config : Segment.Config) (time : TimeSource)
  | perform (manager : Nat) (operation : Operation)
  | lease (manager : Nat) (operation : LeaseOperation)
  | detach (manager : Nat)
  | reattach (manager : Nat)
  | drop (manager : Nat)
  /-- Somebody takes a name away. -/
  | unlink (key : Key)
  /-- The clocks are moved. -/
  | tick (clock uptime : Clock)
  deriving DecidableEq

namespace Call

/-- The manager that is called, if there is one already. -/
def manager? : Call → Option Nat
  | attach .. | unlink _ | tick .. => none
  | perform i _ | lease i _ | detach i | reattach i | drop i => some i

/-- The operation that is called for, if there is one, and the manager. -/
def operation? : Call → Option (Nat × Operation)
  | perform i operation => some (i, operation)
  | lease i operation => some (i, operation.plain)
  | _ => none

theorem manager?_of_operation? {call : Call} {i : Nat} {operation : Operation}
    (h : call.operation? = some (i, operation)) : call.manager? = some i := by
  cases call <;> cases h <;> rfl

end Call

/-- A world with nothing in it, on a host that maps objects of some sizes. -/
def new (clock uptime : Clock) (maps : Nat → Bool) : World :=
  ⟨{ Host.new clock uptime with maps }, []⟩

/-- The manager of a number. -/
def manager? (w : World) (i : Nat) : Option Manager :=
  w.managers[i]?.join

/-- The object of a number. -/
def segment? (w : World) (number : Nat) : Option Segment :=
  w.host.objects[number]?

/-- The slot of a number in an object. -/
def slot? (w : World) (number slot : Nat) : Option Slot :=
  (w.segment? number).bind (·.slots[slot]?)

/-- How a manager is attached, if it is. -/
def attachment? (w : World) (i : Nat) : Option Attachment :=
  (w.manager? i).bind (·.attachment)

/-- Lets a manager act. -/
def act {α : Type} (w : World) (i : Nat) (action : Action Manager Segment.Error α) : World :=
  match w.manager? i with
  | none => w
  | some manager =>
    let (_, manager, host) := action.on manager w.host
    ⟨host, w.managers.set i (some manager)⟩

/-- What a manager would be told of an operation. -/
def answer? (w : World) (i : Nat) (operation : Operation) :
    Option (Except Segment.Error Answer) :=
  (w.manager? i).map fun manager => (operation.perform.on manager w.host).1

/-- The world after a call. -/
def step (w : World) : Call → World
  | .attach config time =>
    match Manager.attach config time w.host with
    | (.ok manager, host) => ⟨host, w.managers ++ [some manager]⟩
    | (.error _, host) => ⟨host, w.managers ++ [none]⟩
  | .perform i operation => w.act i operation.perform
  | .lease i operation => w.act i operation.perform
  | .detach i => w.act i Manager.detach
  | .reattach i => w.act i Manager.reattach
  | .drop i =>
    match w.manager? i with
    | none => w
    | some manager => ⟨manager.drop w.host, w.managers.set i none⟩
  | .unlink key => { w with host := w.host.unlink key }
  | .tick clock uptime => { w with host := { w.host with clock, uptime } }

/-- A call and the world in which it was made. -/
structure Moment where
  before : World
  call : Call

/-- The world after a moment. -/
def Moment.after (moment : Moment) : World :=
  moment.before.step moment.call

/-- The worlds that calls lead to from nothing, with what has been called, the
latest first. -/
inductive Run : List Moment → World → Prop where
  | start (clock uptime : Clock) (maps : Nat → Bool) : Run [] (.new clock uptime maps)
  | step {past : List Moment} {w : World} (call : Call) (h : Run past w) :
    Run (⟨w, call⟩ :: past) (w.step call)

/-- The moments of a list of calls, the latest first. -/
def history (w : World) : List Call → List Moment → List Moment × World
  | [], past => (past, w)
  | call :: calls, past => (w.step call).history calls (⟨w, call⟩ :: past)

theorem history_append (w : World) (calls later : List Call) (past : List Moment) :
    w.history (calls ++ later) past =
      (w.history calls past).2.history later (w.history calls past).1 := by
  induction calls generalizing w past with
  | nil => rfl
  | cons call calls ih => exact ih _ _

theorem Run.history {past : List Moment} {w : World} (h : Run past w) (calls : List Call) :
    Run (w.history calls past).1 (w.history calls past).2 := by
  induction calls generalizing past w with
  | nil => exact h
  | cons call calls ih => exact ih (h.step call)

/-- What calls lead to from nothing, the clocks at zero, where objects of all sizes
are mapped. -/
def run (calls : List Call) : List Moment × World :=
  (World.new ⟨0⟩ ⟨0⟩ fun _ => true).history calls []

theorem run_run (calls : List Call) : Run (run calls).1 (run calls).2 :=
  (Run.start ⟨0⟩ ⟨0⟩ fun _ => true).history calls

end World

end SlotTransport
