/-
Attaching and leaving. A manager joins the object that its key's name leads to;
if there is none, it creates one, if its configuration lets it. What cannot be
joined is waited for until the time is up, so that in the end it is a timeout.
-/
import SlotTransport.Manager.Basic

namespace SlotTransport

open Segment

namespace Host

/-- Joins the object of a number, unless the host refuses. One too short for a
control block passes for not being there: to create one in its place fails in the
end, and earlier if its size cannot be counted. -/
def join (host : Host) (config : Segment.Config) (number : Nat) (segment : Segment) :
    Except Segment.Error Attachment × Host :=
  if segment.size < controlSize.toNat ∧ config.mayCreate ∧ config.geometry.size? = none then
    (.error (.violation (.misuse .uncountableSize)), host)
  else if controlSize.toNat ≤ segment.size ∧ host.maps segment.size = false then
    (.error .host, host)
  else
    match segment.joinable config.key with
    | .error cause => (.error cause, host)
    | .ok () =>
      (.ok (.new number segment.control.nextId segment.control), host.store number segment.joined)

/-- Creates the object of a key and attaches to it. Where the host refuses the
object for its size, what there is of it stays behind. -/
def create (host : Host) (config : Segment.Config) (now : Nat) :
    Except Segment.Error Attachment × Host :=
  match config.geometry.size? with
  | none => (.error (.violation (.misuse .uncountableSize)), host)
  | some size =>
    if objectLimit ≤ size.toNat then (.error .host, host.place config.key (.blank 0))
    else if host.maps size.toNat = false then
      (.error .host, host.place config.key (.blank size.toNat))
    else
      let segment := Segment.formatted config size.toNat now
      (.ok (.new host.objects.length creatorId segment.control), host.place config.key segment)

end Host

namespace Manager

/-- Attaches to the segment of the configuration, creating it if need be. -/
def connect : Action Manager Segment.Error Unit :=
  .of fun manager host =>
    let config := manager.config
    match config.validate with
    | .error cause => (.error (.invalidConfig cause), manager, host)
    | .ok () =>
      match host.entry? config.key with
      | some .directory => (.error .host, manager, host)
      | some (.object number) =>
        match host.objects[number]? with
        | none => (.error .host, manager, host)
        | some segment =>
          let (answer, host) := host.join config number segment
          match answer with
          | .error cause => (.error cause, manager, host)
          | .ok me => (.ok (), { manager with attachment := some me }, host)
      | none =>
        if config.mayCreate then
          let (answer, host) := host.create config (manager.now host)
          match answer with
          | .error cause => (.error cause, manager, host)
          | .ok me => (.ok (), { manager with attachment := some me, created := true }, host)
        else (.error (.attachTimeout config.key), manager, host)

/-- A new manager, attached. -/
def attach (config : Segment.Config) (time : TimeSource) (host : Host) :
    Except Segment.Error Manager × Host :=
  let (answer, manager, host) := connect.on ⟨config, time, false, none⟩ host
  (answer.map fun () => manager, host)

/-- Leaves the segment as it is. -/
def detach : Action Manager Segment.Error Unit :=
  .of fun manager host => (.ok (), manager.shutdown false host)

def reattach : Action Manager Segment.Error Unit := do
  detach
  connect

/-- Ends a manager. A creator takes the segment with it, or the name alone if
it has left the segment before. -/
def drop (manager : Manager) (host : Host) : Host :=
  if manager.created && !manager.isAttached then host.unlink manager.key
  else (manager.shutdown true host).2

end Manager

end SlotTransport
