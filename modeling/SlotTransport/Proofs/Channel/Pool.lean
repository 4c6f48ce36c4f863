/-
Channels that share one object. A pool is a host with the fragment channels that
are attached to one of its objects; a call is what one of them is asked for in
one go, and what it answers is its reply. Between two calls anything may happen
on the host that leaves the object as it is. `Pool.serve` says what a bounded
queue would make of the same calls, and `Pool.queued` what is in that queue
after some of them.
-/
import SlotTransport.Channel.Fragment
import SlotTransport.Queue

namespace SlotTransport

open Segment

/-- A host and the channels attached to one of its objects. The place of a
channel is its number; the place of one that has ended, or was never attached to
this object, stays empty. -/
structure Pool where
  host : Host
  channels : List (Option FragmentChannel)

namespace Pool

/-- What a channel may be asked for in one go. -/
inductive Call where
  /-- A new channel attaches, or tries to. -/
  | attach (config : Segment.Config) (time : TimeSource)
  /-- A channel counts its traffic from now on. -/
  | count (channel : Nat)
  | write (channel : Nat) (fragment : Fragment) (overwrite : Bool) (timeout : Nat)
  | read (channel : Nat)
  | drop (channel : Nat)
  deriving DecidableEq

/-- What is answered. -/
inductive Reply where
  | done
  | written
  | read (fragment? : Option Fragment)
  | failed (cause : ChannelError)
  deriving DecidableEq

/-- The channel of a number. -/
def channel? (pool : Pool) (i : Nat) : Option FragmentChannel :=
  pool.channels[i]?.join

/-- Lets a channel act. -/
def act (pool : Pool) (i : Nat) (action : Action FragmentChannel ChannelError Reply) :
    Reply × Pool :=
  match pool.channel? i with
  | none => (.done, pool)
  | some channel =>
    let (answer, channel, host) := action.on channel pool.host
    let reply := match answer with
      | .ok reply => reply
      | .error cause => .failed cause
    (reply, ⟨host, pool.channels.set i (some channel)⟩)

/-- The channel of a manager, if it is attached to the object of a number. -/
def channelOn (number : Nat) (manager : Manager) : Option FragmentChannel :=
  if manager.attachment.map (·.object) = some number then some (.new manager) else none

/-- What is answered to a call, and the pool after it. -/
def step (number : Nat) (pool : Pool) : Call → Reply × Pool
  | .attach config time =>
    match Manager.attach config time pool.host with
    | (.ok manager, host) => (.done, ⟨host, pool.channels ++ [channelOn number manager]⟩)
    | (.error _, host) => (.done, ⟨host, pool.channels ++ [none]⟩)
  | .count i =>
    match pool.channel? i with
    | none => (.done, pool)
    | some channel =>
      let (channel, host) := channel.withStatistics pool.host
      (.done, ⟨host, pool.channels.set i (some channel)⟩)
  | .write i fragment overwrite timeout =>
    pool.act i ((fun _ => .written) <$> FragmentChannel.write fragment overwrite timeout)
  | .read i => pool.act i (.read <$> FragmentChannel.read)
  | .drop i =>
    match pool.channel? i with
    | none => (.done, pool)
    | some channel => (.done, ⟨channel.manager.drop pool.host, pool.channels.set i none⟩)

/-- A call and the pool in which it was made. -/
structure Moment where
  before : Pool
  call : Call

/-- The pools that calls lead to, with what has been called, the latest first,
from the creation of the object of a configuration on. -/
inductive Run (config : Segment.Config) (number : Nat) : List Moment → Pool → Prop where
  /-- A manager creates the object, and a channel is made of it. -/
  | created {host host' : Host} {time : TimeSource} {manager : Manager}
    (hname : host.entry? config.key = none) (hnumber : number = host.objects.length)
    (hattach : Manager.attach config time host = (.ok manager, host')) :
    Run config number [] ⟨host', [some (.new manager)]⟩
  | step {past : List Moment} {pool : Pool} (call : Call) (h : Run config number past pool) :
    Run config number (⟨pool, call⟩ :: past) (pool.step number call).2
  /-- The clocks are moved, or there is something else on the host. -/
  | elsewhere {past : List Moment} {pool : Pool} (host : Host) (h : Run config number past pool)
    (hobject : host.objects[number]? = pool.host.objects[number]?) :
    Run config number past { pool with host := host }

/-- What calls lead to, with what has been called, the latest first. -/
def history (number : Nat) (pool : Pool) : List Call → List Moment → List Moment × Pool
  | [], past => (past, pool)
  | call :: calls, past => (pool.step number call).2.history number calls (⟨pool, call⟩ :: past)

theorem Run.history {config : Segment.Config} {number : Nat} {past : List Moment} {pool : Pool}
    (h : Run config number past pool) (calls : List Call) :
    Run config number (pool.history number calls past).1 (pool.history number calls past).2 := by
  induction calls generalizing past pool with
  | nil => exact h
  | cons call calls ih => exact ih (h.step call)

/-- The pool with its clocks moved. -/
def ticked (pool : Pool) (clock uptime : Clock) : Pool :=
  { pool with host := { pool.host with clock, uptime } }

/-- The clocks may be moved between any two calls, to any reading. -/
theorem Run.ticked {config : Segment.Config} {number : Nat} {past : List Moment} {pool : Pool}
    (h : Run config number past pool) (clock uptime : Clock) :
    Run config number past (pool.ticked clock uptime) :=
  h.elsewhere { pool.host with clock, uptime } rfl

/-! ## A queue in the place of the object -/

/-- What a queue of fragments, of which each may have `room` bytes, answers to a
call, and the queue after it. A writer that overwrites has the oldest fragment
evicted where there is no room, any other is refused. -/
def serve (room : Nat) (pool : Pool) (q : Queue Fragment) : Call → Reply × Queue Fragment
  | .write i fragment overwrite _ =>
    match pool.channel? i with
    | none => (.done, q)
    | some channel =>
      if room < fragment.size then (.failed (.incomplete fragment.size 0), q)
      else
        match q.put (if overwrite then .evictOldest else .refuse) fragment with
        | (.refused _, q) => (.failed (.noSlot channel.manager.key), q)
        | (_, q) => (.written, q)
  | .read i =>
    match pool.channel? i with
    | none => (.done, q)
    | some _ => (.read q.take.1, q.take.2)
  | .attach .. | .count _ | .drop _ => (.done, q)

/-- The queue after calls, the latest first, that has been empty before them,
with room for as many fragments as the object has slots. -/
def queued (config : Segment.Config) : List Moment → Queue Fragment
  | [] => .withCapacity config.slotCount.toNat
  | ⟨pool, call⟩ :: past => (pool.serve config.slotSize.toNat (queued config past) call).2

end Pool

end SlotTransport
