/-
Broadcasts that tell to initialise. A channel knows whether it has been delivered one
(`Run.count_deliversInit`), so it is delivered no other, and what it skips are such
broadcasts that come later (`init_delivered_once`).
-/
import SlotTransport.Proofs.Event.Scene
import SlotTransport.Proofs.Event.Waiting

namespace SlotTransport

open Segment Event

/-- What a use of a channel has to do with broadcasts that tell to initialise: it delivers
one only to a channel that was not told before, and then it was told. -/
theorem EventChannel.initialised_perform {channel after : EventChannel} {host host' : Host}
    {use : Use} {answer : Except Event.Error Reply}
    (hon : use.perform.on channel host = (answer, after, host')) :
    after.initialised =
        (channel.initialised || (channel.held == none && after.holdsInit host')) ∧
      (channel.initialised = true → (channel.held == none && after.holdsInit host') = false) := by
  cases hneeds : use.needsEvent with
  | true =>
    have hkept : after.initialised = channel.initialised := by
      have hplain := (quiet_of_needsEvent hneeds channel host).2
      rwa [hon] at hplain
    have hnot : (channel.held == none && after.holdsInit host') = false := by
      cases hheld : channel.held with
      | some held => rfl
      | none =>
        cases (Use.on_of_nothing hneeds hheld).symm.trans hon
        rw [holdsInit_of_none hheld, Bool.and_false]
    rw [hkept, hnot, Bool.or_false]
    exact ⟨rfl, fun _ => rfl⟩
  | false =>
    obtain ⟨broadcastOnly, timeout, rfl⟩ := Use.exists_await hneeds
    cases hheld : channel.held with
    | some held =>
      cases (Use.on_await_held hheld broadcastOnly timeout host).symm.trans hon
      exact ⟨(Bool.or_false _).symm, fun _ => rfl⟩
    | none =>
      obtain ⟨skipped, hwaited⟩ := Use.waited_await hon hheld
      exact ⟨hwaited.told, hwaited.once⟩

namespace Scene

/-- Whether the channel of a number knows that it was told to initialise. -/
def initialised (s : Scene) (c : Nat) : Bool :=
  s.listeners[c]?.any (·.initialised)

/-- Whether the channel of a number holds a broadcast that tells to initialise. -/
def holdsInit (s : Scene) (c : Nat) : Bool :=
  (s.channel? c).any (·.holdsInit s.world.host)

/-- Whether a broadcast that tells to initialise is delivered to the channel of a number:
it held nothing before, and it holds the broadcast after it. -/
def Moment.deliversInit (c : Nat) (moment : Moment) : Bool :=
  moment.before.held? c == none && moment.after.holdsInit c

variable {past : List Moment} {s : Scene} {call : Call} {c : Nat} {channel after : EventChannel}
  {host : Host} {answer : Except Event.Error EventChannel.Reply}

theorem initialised_of_channel? (h : s.channel? c = some channel) :
    s.initialised c = channel.initialised := by
  obtain ⟨seats, hlistener, -⟩ := channel?_eq_some_iff.mp h
  simp [initialised, hlistener]

theorem not_deliversInit (h : (s.step call).held? c = s.held? c) :
    (⟨s, call⟩ : Moment).deliversInit c = false := by
  cases hheld : s.held? c with
  | some held => simp [Moment.deliversInit, hheld]
  | none =>
    have hnot : (s.step call).holdsInit c = false := by
      cases hchannel : (s.step call).channel? c with
      | none => simp [holdsInit, hchannel]
      | some channel =>
        have hnone : channel.held = none := by
          rw [← held?_of_channel? hchannel, h, hheld]
        simp [holdsInit, hchannel, EventChannel.holdsInit_of_none hnone]
    simp [Moment.deliversInit, Moment.after, hnot]

theorem deliversInit_use (hchannel : s.channel? c = some channel) {use : EventChannel.Use}
    (hon : use.perform.on channel s.world.host = (answer, after, host)) :
    (s.step (.use c use)).initialised c = after.initialised ∧
      (⟨s, .use c use⟩ : Moment).deliversInit c =
        (channel.held == none && after.holdsInit host) := by
  obtain ⟨-, hafter, hhost⟩ := channel?_step_use hchannel use hon
  refine ⟨initialised_of_channel? hafter, ?_⟩
  rw [Moment.deliversInit, held?_of_channel? hchannel]
  simp [Moment.after, holdsInit, hafter, hhost]

theorem initialised_step (s : Scene) (call : Call) (c : Nat) :
    (s.step call).initialised c = (s.initialised c || (⟨s, call⟩ : Moment).deliversInit c) ∧
      (s.initialised c = true → (⟨s, call⟩ : Moment).deliversInit c = false) := by
  rcases listener_cases s call c with
    hsame | ⟨hnew, seats, hengaged⟩ | ⟨use, channel, rfl, hchannel⟩
  · have hnot : (⟨s, call⟩ : Moment).deliversInit c = false :=
      not_deliversInit (by rw [held?, held?, hsame])
    rw [initialised, initialised, hsame, hnot, Bool.or_false]
    exact ⟨rfl, fun _ => rfl⟩
  · have hnot : (⟨s, call⟩ : Moment).deliversInit c = false :=
      not_deliversInit (by rw [held?, held?, hengaged, hnew]; rfl)
    rw [initialised, initialised, hengaged, hnew, hnot]
    exact ⟨rfl, fun _ => rfl⟩
  · rcases hon : use.perform.on channel s.world.host with ⟨answer, after, host⟩
    obtain ⟨hinitialised, hdelivers⟩ := deliversInit_use hchannel hon
    rw [hinitialised, hdelivers, initialised_of_channel? hchannel]
    exact EventChannel.initialised_perform hon

/-- A channel knows whether it has been delivered such a broadcast. -/
theorem Run.count_deliversInit (h : Run past s) (c : Nat) :
    past.countP (·.deliversInit c) = (s.initialised c).toNat := by
  induction h with
  | start => rfl
  | step call _ ih =>
    rename_i s _
    obtain ⟨htold, honce⟩ := initialised_step s call c
    rw [List.countP_cons, ih, htold]
    cases hbefore : s.initialised c with
    | true => simp [honce hbefore]
    | false => cases (⟨s, call⟩ : Moment).deliversInit c <;> simp

end Scene

namespace EventChannel

open Scene (Run)

/-- **A broadcast that tells to initialise is delivered at most once.** In every run, at most
one such broadcast is delivered to a channel. Whenever a channel waits, it makes claims, and
those that it does not end up holding it releases, each once. All of them are broadcasts
that tell to initialise, and the channel had been delivered one before. Whatever else it is
used for, it makes no claim. To tell so, a broadcast must have kinds that can be told; that
is all that the channel looks at. -/
theorem init_delivered_once {past : List Scene.Moment} {s : Scene} (hrun : Run past s) (c : Nat) :
    past.countP (·.deliversInit c) ≤ 1 ∧
    ∀ (later earlier : List Scene.Moment) (before : Scene) (channel : EventChannel) (use : Use),
      past = later ++ ⟨before, .use c use⟩ :: earlier → before.channel? c = some channel →
      ∃ after : EventChannel, (before.step (.use c use)).channel? c = some after ∧
        (use.needsEvent = false → ∃ skipped : List Holding,
          Waits channel before.world.host skipped after (before.step (.use c use)).world.host ∧
          ∀ event ∈ skipped, event.tellsInit = true ∧
            ∃ moment ∈ earlier, moment.deliversInit c = true) ∧
        (use.needsEvent = true →
          channel.endpoint.Leads (fun operation => operation.isClaim = false) before.world.host
            after.endpoint (before.step (.use c use)).world.host) := by
  refine ⟨?_, ?_⟩
  · rw [hrun.count_deliversInit c]
    exact Bool.toNat_le _
  rintro later earlier before channel use rfl hchannel
  rcases hon : use.perform.on channel before.world.host with ⟨answer, after, host'⟩
  obtain ⟨-, hafter, hhost⟩ := Scene.channel?_step_use hchannel use hon
  rw [hhost]
  refine ⟨after, hafter, fun hneeds => ?_, fun hneeds => ?_⟩
  · obtain ⟨skipped, hwaits, hskips⟩ := Use.exists_skipped hneeds hon
    refine ⟨skipped, hwaits, fun event hevent => ?_⟩
    obtain ⟨hinitialised, htells⟩ := hskips event hevent
    refine ⟨htells, List.countP_pos_iff.mp ?_⟩
    rw [hrun.before.count_deliversInit c, Scene.initialised_of_channel? hchannel, hinitialised]
    exact Nat.one_pos
  · have hleads := (quiet_of_needsEvent hneeds channel before.world.host).1
    rwa [hon] at hleads

/-- Of two such broadcasts, the second is skipped. -/
theorem init_delivered_once_twice :
    let init : List Fragment := [Fragment.build 1 2 (.system .init) [] []].filterMap Except.toOption
    let broadcast : Scene.Call :=
      .emit ⟨0, some 1, by decide⟩ .broadcast (.new 1 2 3 4) init false .any
    let calls : List Scene.Call := [.world (.attach (.new 7 1 64) .manual),
      .world (.attach (.new 8 1 64) .manual), .world (.attach (.attachOnly 7) .manual),
      .world (.attach (.attachOnly 8) .manual), .engage ⟨2, some 3, by decide⟩, broadcast,
      .use 0 (.await false 0), .use 0 .release, broadcast]
    let earlier := (Scene.run calls).1
    let before := (Scene.run calls).2
    earlier.countP (·.deliversInit 0) = 1 ∧
      (before.world.slot? 1 0).map Slot.state = some .full ∧
      ((before.step (.use 0 (.await false 0))).world.slot? 1 0).map Slot.state = some .empty ∧
      (before.step (.use 0 (.await false 0))).held? 0 = none ∧
      ∃ channel skipped after, before.channel? 0 = some channel ∧
        Waits channel before.world.host skipped after
          (before.step (.use 0 (.await false 0))).world.host ∧
        ∀ event ∈ skipped, event.tellsInit = true ∧
          ∃ moment ∈ earlier, moment.deliversInit 0 = true := by
  intro init broadcast calls earlier before
  have hfacts : before.channel? 0 ≠ none ∧ earlier.countP (·.deliversInit 0) = 1 ∧
      (before.world.slot? 1 0).map Slot.state = some .full ∧
      ((before.step (.use 0 (.await false 0))).world.slot? 1 0).map Slot.state = some .empty ∧
      (before.step (.use 0 (.await false 0))).held? 0 = none := by
    decide +kernel
  obtain ⟨hsome, hcount, hfull, hempty, hheld⟩ := hfacts
  obtain ⟨channel, hchannel⟩ := Option.ne_none_iff_exists'.mp hsome
  obtain ⟨-, hwaits⟩ :=
    init_delivered_once ((Scene.run_run calls).step (.use 0 (.await false 0))) 0
  obtain ⟨after, -, hwaits, -⟩ := hwaits [] earlier before channel (.await false 0) rfl hchannel
  obtain ⟨skipped, hwaits, hskipped⟩ := hwaits rfl
  exact ⟨hcount, hfull, hempty, hheld, channel, skipped, after, hchannel, hwaits, hskipped⟩

end EventChannel

end SlotTransport
