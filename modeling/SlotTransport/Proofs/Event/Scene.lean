/-
Scenes: a world and the event channels on it. A channel sits on managers of the world,
and so does an emitter while it packs an event; all else happens by calls of the world.
A channel or an emitter does what it is asked for in one go: to wait while others act is
to ask for an event again after each of them. Whatever they do, they do by operations of
the managers that they sit on (`exists_enacts`), so that the world of a scene is one that
calls lead to (`Run.world`).
-/
import SlotTransport.Proofs.Event.Trace
import SlotTransport.Proofs.World.Failure
import SlotTransport.Proofs.World.Record

namespace SlotTransport

open Segment Event

theorem Segment.bytesAt_eq_content {segment : Segment} {k : Nat} {s : Slot}
    (hs : segment.slots[k]? = some s) (hwritten : s.writePos ≤ segment.slotSize) :
    segment.bytesAt k 0 s.writePos = s.content := by
  simp [bytesAt, hs, hwritten, Slot.content]

/-! ## Seats -/

/-- The managers of an endpoint, by number. -/
structure Seats where
  data : Nat
  broadcast : Option Nat
  apart : broadcast ≠ some data
  deriving DecidableEq

namespace Seats

/-- The manager of a source. -/
def seat? (seats : Seats) : Source → Option Nat
  | .data => some seats.data
  | .broadcast => seats.broadcast

def all (seats : Seats) : List Nat :=
  seats.data :: seats.broadcast.toList

theorem mem_all_of_seat? {seats : Seats} {source : Source} {i : Nat}
    (h : seats.seat? source = some i) : i ∈ seats.all := by
  cases source with
  | data =>
    cases h
    exact List.mem_cons_self
  | broadcast => exact List.mem_cons_of_mem _ (Option.mem_toList.mpr h)

end Seats

namespace World

/-- The endpoint that sits on managers. -/
def endpoint? (w : World) (seats : Seats) : Option Endpoint := do
  let data ← w.manager? seats.data
  match seats.broadcast with
  | none => return ⟨data, none⟩
  | some i => return ⟨data, some (← w.manager? i)⟩

/-- The world with another host and another endpoint on the managers. -/
def withEndpoint (w : World) (seats : Seats) (host : Host) (endpoint : Endpoint) : World :=
  let w := w.seat host seats.data (some endpoint.data)
  match seats.broadcast with
  | none => w
  | some i => w.seat host i endpoint.broadcast

variable {w : World} {seats : Seats} {endpoint endpoint' : Endpoint} {host host' : Host}
  {source : Source} {manager : Manager} {allowed : Operation → Prop} {i : Nat}

theorem manager?_seat_self {manager : Option Manager} (hi : i < w.managers.length) :
    (w.seat host i manager).manager? i = manager := by
  simp [manager?, seat, hi]

theorem seat_same (h : w.manager? i = some manager) (host : Host) :
    w.seat host i (some manager) = { w with host := host } := by
  obtain ⟨hlt, hi⟩ := List.getElem?_eq_some_iff.mp (manager?_eq_some_iff.mp h)
  rw [seat, ← hi, List.set_getElem_self]

theorem endpoint?_eq_some_iff : w.endpoint? seats = some endpoint ↔
    w.manager? seats.data = some endpoint.data ∧
      seats.broadcast.map w.manager? = endpoint.broadcast.map some := by
  obtain ⟨data, broadcast⟩ := endpoint
  simp only [endpoint?, Option.bind_eq_bind, Option.bind_eq_some_iff]
  cases seats.broadcast with
  | none => cases broadcast <;> simp
  | some i =>
    cases hi : w.manager? i <;> cases broadcast <;> simp [hi]

theorem manager?_of_seat? (h : w.endpoint? seats = some endpoint)
    (hseat : seats.seat? source = some i) : endpoint.manager? source = w.manager? i := by
  obtain ⟨hdata, hbroadcast⟩ := endpoint?_eq_some_iff.mp h
  cases source with
  | data =>
    cases hseat
    exact hdata.symm
  | broadcast =>
    have hi : seats.broadcast = some i := hseat
    rw [hi, Option.map_some] at hbroadcast
    obtain ⟨manager, hmanager, hsome⟩ := Option.map_eq_some_iff.mp hbroadcast.symm
    exact hmanager.trans hsome

theorem withEndpoint_of_none (hnone : seats.broadcast = none) :
    w.withEndpoint seats host endpoint = w.seat host seats.data (some endpoint.data) := by
  rw [withEndpoint, hnone]

theorem withEndpoint_of_some (hi : seats.broadcast = some i) :
    w.withEndpoint seats host endpoint =
      (w.seat host seats.data (some endpoint.data)).seat host i endpoint.broadcast := by
  rw [withEndpoint, hi]

theorem ne_of_broadcast (hi : seats.broadcast = some i) : i ≠ seats.data := by
  rintro rfl
  exact seats.apart hi

theorem withEndpoint_self (h : w.endpoint? seats = some endpoint) (host : Host) :
    w.withEndpoint seats host endpoint = { w with host := host } := by
  obtain ⟨hdata, hbroadcast⟩ := endpoint?_eq_some_iff.mp h
  cases hi : seats.broadcast with
  | none => rw [withEndpoint_of_none hi, seat_same hdata]
  | some i =>
    rw [hi] at hbroadcast
    obtain ⟨manager, hmanager, hsome⟩ := Option.map_eq_some_iff.mp hbroadcast.symm
    have hafter : ({ w with host := host } : World).manager? i = some manager := hsome.symm
    rw [withEndpoint_of_some hi, seat_same hdata, hmanager, seat_same hafter]

theorem withEndpoint_withEndpoint :
    (w.withEndpoint seats host endpoint).withEndpoint seats host' endpoint' =
      w.withEndpoint seats host' endpoint' := by
  cases hi : seats.broadcast with
  | none => simp [withEndpoint_of_none hi, seat]
  | some i =>
    simp only [withEndpoint_of_some hi, seat, mk.injEq, true_and]
    rw [List.set_comm _ _ (ne_of_broadcast hi), List.set_set, List.set_set]

theorem endpoint?_withEndpoint (h : w.endpoint? seats = some endpoint)
    (hshape : endpoint'.broadcast.isSome = endpoint.broadcast.isSome) :
    (w.withEndpoint seats host endpoint').endpoint? seats = some endpoint' := by
  obtain ⟨hdata, hbroadcast⟩ := endpoint?_eq_some_iff.mp h
  have hlt := lt_of_manager? hdata
  obtain ⟨data', broadcast'⟩ := endpoint'
  refine endpoint?_eq_some_iff.mpr ?_
  cases hi : seats.broadcast with
  | none =>
    rw [hi, Option.map_none] at hbroadcast
    obtain rfl : broadcast' = none := by
      simpa [Option.map_eq_none_iff.mp hbroadcast.symm] using hshape
    rw [withEndpoint_of_none hi, manager?_seat_self hlt]
    exact ⟨rfl, rfl⟩
  | some i =>
    rw [hi] at hbroadcast
    obtain ⟨manager, hmanager, hsome⟩ := Option.map_eq_some_iff.mp hbroadcast.symm
    obtain ⟨manager', rfl⟩ : ∃ manager', broadcast' = some manager' := by
      rw [hmanager] at hshape
      exact Option.isSome_iff_exists.mp hshape
    have hi' : i < (w.seat host seats.data (some data')).managers.length := by
      simpa [seat] using lt_of_manager? hsome.symm
    rw [withEndpoint_of_some hi, manager?_seat_of_ne (ne_of_broadcast hi).symm,
      manager?_seat_self hlt, Option.map_some, manager?_seat_self hi']
    exact ⟨rfl, rfl⟩

theorem isSome_broadcast_withManager (h : endpoint.manager? source = some manager)
    (after : Manager) :
    (endpoint.withManager source after).broadcast.isSome = endpoint.broadcast.isSome := by
  cases source with
  | data => rfl
  | broadcast =>
    have hsome : endpoint.broadcast = some manager := h
    rw [hsome]
    rfl

theorem isSome_broadcast_of_leads (h : endpoint.Leads allowed host endpoint' host') :
    endpoint'.broadcast.isSome = endpoint.broadcast.isSome := by
  induction h with
  | refl => rfl
  | step hmanager _ _ _ ih => exact ih.trans (isSome_broadcast_withManager hmanager _)

theorem host_withEndpoint : (w.withEndpoint seats host endpoint).host = host := by
  rw [withEndpoint]
  split <;> rfl

theorem exists_seat (h : w.endpoint? seats = some endpoint)
    (hmanager : endpoint.manager? source = some manager) :
    ∃ i, seats.seat? source = some i ∧ w.manager? i = some manager ∧
      ∀ (host : Host) (after : Manager),
        w.withEndpoint seats host (endpoint.withManager source after) =
          w.seat host i (some after) := by
  obtain ⟨hdata, hbroadcast⟩ := endpoint?_eq_some_iff.mp h
  cases source with
  | data =>
    cases hmanager
    refine ⟨seats.data, rfl, hdata, fun host after => ?_⟩
    cases hi : seats.broadcast with
    | none => exact withEndpoint_of_none hi
    | some i =>
      rw [hi] at hbroadcast
      obtain ⟨other, hother, hsome⟩ := Option.map_eq_some_iff.mp hbroadcast.symm
      have hkept : (w.seat host seats.data (some after)).manager? i = some other := by
        rw [manager?_seat_of_ne (ne_of_broadcast hi), ← hsome]
      have hsame : (endpoint.withManager .data after).broadcast = some other := hother
      rw [withEndpoint_of_some hi, hsame]
      exact seat_same hkept host
  | broadcast =>
    have hother : endpoint.broadcast = some manager := hmanager
    rw [hother, Option.map_some] at hbroadcast
    obtain ⟨i, hi, hsome⟩ := Option.map_eq_some_iff.mp hbroadcast
    refine ⟨i, hi, hsome, fun host after => ?_⟩
    rw [withEndpoint_of_some hi]
    have hself : w.seat host seats.data (some endpoint.data) = { w with host := host } :=
      seat_same hdata host
    exact congrArg (·.seat host i (some after)) hself

theorem exists_seat_of_mapping? {m : Mapping} (hw : w.Coherent)
    (hendpoint : w.endpoint? seats = some endpoint)
    (h : endpoint.mapping? source w.host = some m) :
    ∃ i, seats.seat? source = some i ∧ w.attachment? i = some m.me ∧
      w.segment? m.me.object = some m.segment := by
  obtain ⟨manager, hmanager, hm⟩ := Option.bind_eq_some_iff.mp h
  obtain ⟨i, hseat, hi, -⟩ := exists_seat hendpoint hmanager
  obtain ⟨me, -, hme, -, -⟩ := Manager.mapping?_eq_some_iff.mp hm
  obtain ⟨segment, hsegment, hmapping⟩ := hw.mapping? hi hme
  cases hm.symm.trans hmapping
  exact ⟨i, hseat, by rw [attachment?_eq hi, hme], hsegment⟩

/-- Where operations of an endpoint lead, calls of the managers that it sits on do. -/
theorem exists_calls (h : endpoint.Leads allowed host endpoint' host')
    (hw : w.endpoint? seats = some endpoint) (hhost : w.host = host) :
    ∃ calls : List Call,
      (∀ call ∈ calls, ∃ i operation, call = .perform i operation ∧ i ∈ seats.all) ∧
      ∀ past, (w.history calls past).2 = w.withEndpoint seats host' endpoint' := by
  induction h generalizing w with
  | refl endpoint host =>
    subst hhost
    exact ⟨[], nofun, fun _ => (withEndpoint_self hw w.host).symm⟩
  | @step endpoint endpoint' host host' source manager hmanager operation _ _ ih =>
    subst hhost
    obtain ⟨i, hseat, hi, hafter⟩ := exists_seat hw hmanager
    have hstep : w.step (.perform i operation) = w.withEndpoint seats
        (operation.perform.on manager w.host).2.2
        (endpoint.withManager source (operation.perform.on manager w.host).2.1) := by
      rw [hafter]
      exact act_eq_seat _ hi
    have hnext : (w.step (.perform i operation)).endpoint? seats =
        some (endpoint.withManager source (operation.perform.on manager w.host).2.1) := by
      rw [hstep]
      exact endpoint?_withEndpoint hw (isSome_broadcast_withManager hmanager _)
    have hhost : (w.step (.perform i operation)).host =
        (operation.perform.on manager w.host).2.2 := by
      rw [hstep, hafter]
      rfl
    obtain ⟨calls, hcalls, hhistory⟩ := ih hnext hhost
    refine ⟨.perform i operation :: calls, ?_, fun past => ?_⟩
    · rintro call hcall
      rcases List.mem_cons.mp hcall with rfl | hcall
      · exact ⟨i, operation, rfl, Seats.mem_all_of_seat? hseat⟩
      · exact hcalls call hcall
    · rw [history, hhistory, hstep, withEndpoint_withEndpoint]

end World

/-! ## Scenes -/

/-- An event channel without its managers. -/
structure Listener where
  seats : Seats
  held : Option (Source × Nat)
  initialised : Bool
  deriving DecidableEq

/-- A world and the event channels on it. -/
structure Scene where
  world : World
  listeners : List Listener

namespace Scene

/-- What may happen to a scene in one go. -/
inductive Call where
  | world (call : World.Call)
  /-- A new channel is made of managers. -/
  | engage (seats : Seats)
  | use (listener : Nat) (use : EventChannel.Use)
  /-- An emitter on some managers packs an event, or tries to. -/
  | emit (seats : Seats) (source : Source) (header : Header) (fragments : List Fragment)
    (overwrite : Bool) (destination : Destination)
  deriving DecidableEq

/-- Whether a call is a use of the channel of a number. -/
def Call.uses (c : Nat) : Call → Bool
  | .use j _ => j == c
  | _ => false

theorem Call.uses_iff {c : Nat} {call : Call} :
    call.uses c = true ↔ ∃ use, call = .use c use := by
  cases call <;> simp [uses]

/-- The channel of a number. -/
def channel? (s : Scene) (c : Nat) : Option EventChannel := do
  let listener ← s.listeners[c]?
  let endpoint ← s.world.endpoint? listener.seats
  return ⟨endpoint, listener.held, listener.initialised⟩

/-- The slot that a channel has in hand. -/
def held? (s : Scene) (c : Nat) : Option (Source × Nat) :=
  s.listeners[c]?.bind (·.held)

/-- The record that a channel holds, unless its slot was taken away. -/
def holding? (s : Scene) (c : Nat) : Option EventChannel.Holding :=
  (s.channel? c).bind (·.holding? s.world.host)

/-- What comes of packing an event. -/
def packed (endpoint : Endpoint) (host : Host) (source : Source) (header : Header)
    (fragments : List Fragment) (overwrite : Bool) (destination : Destination) :
    Except Event.Error Bool × EventEmitter × Host :=
  (EventEmitter.emit source header fragments overwrite destination).on ⟨endpoint⟩ host

/-- The scene after a call. -/
def step (s : Scene) : Call → Scene
  | .world call => { s with world := s.world.step call }
  | .engage seats => { s with listeners := s.listeners ++ [⟨seats, none, false⟩] }
  | .use c use =>
    match s.listeners[c]?, s.channel? c with
    | some listener, some channel =>
      let (_, channel, host) := use.perform.on channel s.world.host
      ⟨s.world.withEndpoint listener.seats host channel.endpoint,
        s.listeners.set c ⟨listener.seats, channel.held, channel.initialised⟩⟩
    | _, _ => s
  | .emit seats source header fragments overwrite destination =>
    match s.world.endpoint? seats with
    | none => s
    | some endpoint =>
      let (_, emitter, host) :=
        packed endpoint s.world.host source header fragments overwrite destination
      { s with world := s.world.withEndpoint seats host emitter.endpoint }

/-- What is answered to a call, if there is anybody to answer. -/
def reply? (s : Scene) : Call → Option (Except Event.Error EventChannel.Reply)
  | .world _ | .engage _ => none
  | .use c use => (s.channel? c).map fun channel => (use.perform.on channel s.world.host).1
  | .emit seats source header fragments overwrite destination =>
    (s.world.endpoint? seats).map fun endpoint =>
      (packed endpoint s.world.host source header fragments overwrite destination).1.map .flag

/-- The managers that a call may let do something. -/
def actors (s : Scene) : Call → List Nat
  | .world call => call.manager?.toList
  | .engage _ => []
  | .use c _ => (s.listeners[c]?.map fun listener => listener.seats.all).getD []
  | .emit seats .. => seats.all

/-- A call and the scene in which it was made. -/
structure Moment where
  before : Scene
  call : Call

/-- The scene after a moment. -/
def Moment.after (moment : Moment) : Scene :=
  moment.before.step moment.call

/-- The scenes that calls lead to from nothing, with what has been called, the latest
first. -/
inductive Run : List Moment → Scene → Prop where
  | start (clock uptime : Clock) (maps : Nat → Bool) : Run [] ⟨.new clock uptime maps, []⟩
  | step {past : List Moment} {s : Scene} (call : Call) (h : Run past s) :
    Run (⟨s, call⟩ :: past) (s.step call)

/-- The moments of a list of calls, the latest first. -/
def history (s : Scene) : List Call → List Moment → List Moment × Scene
  | [], past => (past, s)
  | call :: calls, past => (s.step call).history calls (⟨s, call⟩ :: past)

theorem Run.history {past : List Moment} {s : Scene} (h : Run past s) (calls : List Call) :
    Run (s.history calls past).1 (s.history calls past).2 := by
  induction calls generalizing past s with
  | nil => exact h
  | cons call calls ih => exact ih (h.step call)

theorem Run.before {later earlier : List Moment} {moment : Moment} {s : Scene}
    (h : Run (later ++ moment :: earlier) s) : Run earlier moment.before := by
  induction later generalizing s with
  | nil =>
    cases h with
    | step _ h => exact h
  | cons last later ih =>
    cases h with
    | step _ h => exact ih h

/-- What calls lead to from nothing, the clocks at zero, where objects of all sizes
are mapped. -/
def run (calls : List Call) : List Moment × Scene :=
  history ⟨.new ⟨0⟩ ⟨0⟩ fun _ => true, []⟩ calls []

theorem run_run (calls : List Call) : Run (run calls).1 (run calls).2 :=
  (Run.start ⟨0⟩ ⟨0⟩ fun _ => true).history calls

/-! ## Calls of the world -/

/-- Calls of the world that make up a call of the scene: a single one, or operations of
the managers that are let do something. -/
structure Enacts (s : Scene) (call : Call) (calls : List World.Call) : Prop where
  world : ∀ past, (s.step call).world = (s.world.history calls past).2
  actors : ∀ c ∈ calls, ∀ i, c.manager? = some i → i ∈ s.actors call
  brief : calls.length ≤ 1 ∨ ∀ c ∈ calls, ∃ i operation, c = .perform i operation

variable {past : List Moment} {s : Scene} {call : Call} {c : Nat} {channel : EventChannel}

theorem channel?_eq_some_iff : s.channel? c = some channel ↔
    ∃ seats, s.listeners[c]? = some ⟨seats, channel.held, channel.initialised⟩ ∧
      s.world.endpoint? seats = some channel.endpoint := by
  simp only [channel?, Option.bind_eq_bind, Option.bind_eq_some_iff, Option.pure_def,
    Option.some.injEq]
  constructor
  · rintro ⟨⟨seats, held, initialised⟩, hlistener, endpoint, hendpoint, rfl⟩
    exact ⟨seats, hlistener, hendpoint⟩
  · rintro ⟨seats, hlistener, hendpoint⟩
    exact ⟨_, hlistener, _, hendpoint, rfl⟩

theorem held?_of_channel? (h : s.channel? c = some channel) : s.held? c = channel.held := by
  obtain ⟨seats, hlistener, -⟩ := channel?_eq_some_iff.mp h
  rw [held?, hlistener, Option.bind_some]

theorem step_use {seats : Seats} {held : Option (Source × Nat)} {initialised : Bool}
    {endpoint : Endpoint} (hlistener : s.listeners[c]? = some ⟨seats, held, initialised⟩)
    (hendpoint : s.world.endpoint? seats = some endpoint) (use : EventChannel.Use)
    {answer : Except Event.Error EventChannel.Reply} {after : EventChannel} {host : Host}
    (hon : use.perform.on ⟨endpoint, held, initialised⟩ s.world.host = (answer, after, host)) :
    s.reply? (.use c use) = some answer ∧
      s.step (.use c use) = ⟨s.world.withEndpoint seats host after.endpoint,
        s.listeners.set c ⟨seats, after.held, after.initialised⟩⟩ := by
  have hchannel : s.channel? c = some ⟨endpoint, held, initialised⟩ :=
    channel?_eq_some_iff.mpr ⟨seats, hlistener, hendpoint⟩
  simp only [reply?, step, hlistener, hchannel, Option.map_some, hon, and_self]

theorem channel?_step_use (hchannel : s.channel? c = some channel) (use : EventChannel.Use)
    {answer : Except Event.Error EventChannel.Reply} {after : EventChannel} {host : Host}
    (hon : use.perform.on channel s.world.host = (answer, after, host)) :
    s.reply? (.use c use) = some answer ∧ (s.step (.use c use)).channel? c = some after ∧
      (s.step (.use c use)).world.host = host := by
  obtain ⟨seats, hlistener, hendpoint⟩ := channel?_eq_some_iff.mp hchannel
  obtain ⟨hreply, hstep⟩ := step_use hlistener hendpoint use hon
  have hleads := (EventChannel.free_perform use channel s.world.host).1
  rw [hon] at hleads
  obtain ⟨hlt, -⟩ := List.getElem?_eq_some_iff.mp hlistener
  refine ⟨hreply, channel?_eq_some_iff.mpr ⟨seats, ?_, ?_⟩, ?_⟩
  · rw [hstep, List.getElem?_set_self hlt]
  · rw [hstep]
    exact World.endpoint?_withEndpoint hendpoint (World.isSome_broadcast_of_leads hleads)
  · rw [hstep]
    exact World.host_withEndpoint

/-- A use that changes neither the channel nor its host leaves the scene as it was. -/
theorem step_use_idle (hchannel : s.channel? c = some channel) {use : EventChannel.Use}
    {answer : Except Event.Error EventChannel.Reply}
    (hon : use.perform.on channel s.world.host = (answer, channel, s.world.host)) :
    s.step (.use c use) = s := by
  obtain ⟨seats, hlistener, hendpoint⟩ := channel?_eq_some_iff.mp hchannel
  obtain ⟨hlt, hsame⟩ := List.getElem?_eq_some_iff.mp hlistener
  rw [(step_use hlistener hendpoint use hon).2, World.withEndpoint_self hendpoint, ← hsame,
    List.set_getElem_self]

theorem holding?_eq_some_iff {event : EventChannel.Holding} : s.holding? c = some event ↔
    ∃ channel, s.channel? c = some channel ∧ channel.holding? s.world.host = some event :=
  Option.bind_eq_some_iff

theorem reply?_look {event : EventChannel.Holding} (h : s.holding? c = some event)
    (look : EventChannel.Look) :
    s.reply? (.use c (.look look)) = some ((look.tell event.content).mapError .framing) ∧
      (s.step (.use c (.look look))).holding? c = some event := by
  obtain ⟨channel, hchannel, hholding⟩ := holding?_eq_some_iff.mp h
  obtain ⟨host, hon, hkept⟩ := look.on_perform hholding
  obtain ⟨hreply, hafter, hhost⟩ := channel?_step_use hchannel (.look look) hon
  exact ⟨hreply, holding?_eq_some_iff.mpr ⟨channel, hafter, hhost ▸ hkept⟩⟩

theorem step_use_of_none (h : s.channel? c = none) (use : EventChannel.Use) :
    s.step (.use c use) = s := by
  simp only [step, h]
  cases s.listeners[c]? <;> rfl

/-- What a call makes of the channel of a number. -/
theorem listener_cases (s : Scene) (call : Call) (c : Nat) :
    (s.step call).listeners[c]? = s.listeners[c]? ∨
      (s.listeners[c]? = none ∧
        ∃ seats, (s.step call).listeners[c]? = some ⟨seats, none, false⟩) ∨
      ∃ use channel, call = .use c use ∧ s.channel? c = some channel := by
  cases call with
  | world call => exact .inl rfl
  | engage seats =>
    rcases Nat.lt_trichotomy c s.listeners.length with hlt | rfl | hgt
    · exact .inl (List.getElem?_append_left hlt)
    · exact .inr (.inl ⟨List.getElem?_eq_none (le_refl _), seats, by simp [step]⟩)
    · left
      rw [step, List.getElem?_eq_none hgt.le]
      exact List.getElem?_eq_none (by simpa using Nat.succ_le_of_lt hgt)
  | use j use =>
    cases hchannel : s.channel? j with
    | none =>
      rw [step_use_of_none hchannel]
      exact .inl rfl
    | some channel =>
      by_cases hj : j = c
      · subst hj
        exact .inr (.inr ⟨use, channel, rfl, hchannel⟩)
      · obtain ⟨seats, hlistener, hendpoint⟩ := channel?_eq_some_iff.mp hchannel
        rw [(step_use hlistener hendpoint use rfl).2]
        exact .inl (List.getElem?_set_ne hj)
  | emit seats =>
    left
    simp only [step]
    split <;> rfl

theorem listener_of_others {listener : Listener} (h : s.listeners[c]? = some listener)
    (hothers : call.uses c = false) : (s.step call).listeners[c]? = some listener := by
  rcases listener_cases s call c with hsame | ⟨hnone, -⟩ | ⟨use, -, rfl, -⟩
  · rw [hsame, h]
  · rw [hnone] at h
    cases h
  · exact absurd (Call.uses_iff.mpr ⟨use, rfl⟩) (by rw [hothers]; exact Bool.false_ne_true)

theorem enacts_nil (h : (s.step call).world = s.world) : s.Enacts call [] :=
  ⟨fun _ => h, nofun, .inl (Nat.zero_le 1)⟩

/-- What leads an endpoint anywhere is made up of operations of its managers. -/
theorem exists_enacts_of_leads {seats : Seats} {endpoint endpoint' : Endpoint} {host' : Host}
    {allowed : Operation → Prop}
    (hendpoint : s.world.endpoint? seats = some endpoint)
    (h : endpoint.Leads allowed s.world.host endpoint' host')
    (hworld : (s.step call).world = s.world.withEndpoint seats host' endpoint')
    (hactors : s.actors call = seats.all) : ∃ calls, s.Enacts call calls := by
  obtain ⟨calls, hcalls, hhistory⟩ := World.exists_calls h hendpoint rfl
  refine ⟨calls, fun past => by rw [hworld, hhistory], fun c hc i hi => ?_, .inr fun c hc => ?_⟩
  · obtain ⟨j, operation, rfl, hj⟩ := hcalls c hc
    cases hi
    rw [hactors]
    exact hj
  · obtain ⟨i, operation, hperform, -⟩ := hcalls c hc
    exact ⟨i, operation, hperform⟩

theorem exists_enacts (s : Scene) (call : Call) : ∃ calls, s.Enacts call calls := by
  cases call with
  | world call =>
    refine ⟨[call], fun _ => rfl, fun c hc i hi => ?_, .inl (le_refl 1)⟩
    rw [List.mem_singleton.mp hc] at hi
    exact Option.mem_toList.mpr hi
  | engage seats => exact ⟨[], enacts_nil rfl⟩
  | use c use =>
    cases hchannel : s.channel? c with
    | none => exact ⟨[], enacts_nil (by rw [step_use_of_none hchannel])⟩
    | some channel =>
      obtain ⟨seats, hlistener, hendpoint⟩ := channel?_eq_some_iff.mp hchannel
      have hstep := (step_use hlistener hendpoint use rfl).2
      exact exists_enacts_of_leads hendpoint (EventChannel.free_perform use channel s.world.host).1
        (congrArg Scene.world hstep) (by rw [actors, hlistener]; rfl)
  | emit seats source header fragments overwrite destination =>
    cases hendpoint : s.world.endpoint? seats with
    | none => exact ⟨[], enacts_nil (by simp only [step, hendpoint])⟩
    | some endpoint =>
      exact exists_enacts_of_leads hendpoint
        (EventEmitter.free_emit source header fragments overwrite destination ⟨endpoint⟩
          s.world.host).1
        (by simp only [step, hendpoint, packed]) rfl

theorem Run.world (h : Run past s) : ∃ earlier, World.Run earlier s.world := by
  induction h with
  | start clock uptime maps => exact ⟨[], .start clock uptime maps⟩
  | step call _ ih =>
    obtain ⟨earlier, hearlier⟩ := ih
    obtain ⟨calls, hcalls⟩ := exists_enacts _ call
    rw [hcalls.world earlier]
    exact ⟨_, hearlier.history calls⟩

theorem Run.coherent (h : Run past s) : s.world.Coherent := by
  obtain ⟨_, hworld⟩ := h.world
  exact hworld.coherent

/-- What a channel holds is a record that the manager of its seat holds for reading. -/
theorem Run.exists_held {event : EventChannel.Holding} (h : Run past s)
    (hchannel : s.channel? c = some channel)
    (hholding : channel.holding? s.world.host = some event) :
    ∃ (source : Source) (seats : Seats) (i : Nat) (me : Attachment) (t : Slot),
      channel.held = some (source, event.slot) ∧
      s.listeners[c]? = some ⟨seats, channel.held, channel.initialised⟩ ∧
      seats.seat? source = some i ∧ s.world.member event.object i = some me ∧
      s.world.slot? event.object event.slot = some t ∧ t.state = .reading ∧ t.owner = me.id ∧
      t.sequenceId = event.sequenceId ∧ t.content = event.content := by
  obtain ⟨source, m, t, hheld, hreads, hobject, hsequenceId⟩ :=
    EventChannel.holding?_eq_some_iff.mp hholding
  obtain ⟨seats, hlistener, hendpoint⟩ := channel?_eq_some_iff.mp hchannel
  obtain ⟨i, hseat, hme, hsegment⟩ :=
    World.exists_seat_of_mapping? h.coherent hendpoint hreads.mapping
  obtain ⟨hstate, howner⟩ := hreads.reads.holds
  obtain ⟨_, hworld⟩ := h.world
  have hslot : m.segment.slots[event.slot]? = some t := hreads.reads.slot
  have hsound := (hworld.sound (World.party?_of_segment? hsegment)).slot hslot
  rw [hobject] at hsegment
  refine ⟨source, seats, i, m.me, t, hheld, hlistener, hseat,
    World.member_eq_some_iff.mpr ⟨hme, hobject⟩, ?_, hstate, howner, hsequenceId, ?_⟩
  · rw [World.slot?, hsegment, Option.bind_some]
    exact hslot
  · rw [← hreads.reads.content, bytesAt_eq_content hslot hsound.written]

end Scene

end SlotTransport
