/-
Which event a channel comes to hold, in every run of a scene. The managers of a channel
see segments in which nothing is out of order (`Scene.Run.orderly`), when it looks for an
event and still when it has gone through the broadcasts (`Scene.Run.orderly_left`); so
what comes of one look (`EventChannel.polled_poll`) is what comes of waiting
(`EventChannel.next_event_held`).
-/
import SlotTransport.Proofs.Event.Custody
import SlotTransport.Proofs.Event.Draining
import SlotTransport.Proofs.Event.Initial

namespace SlotTransport

open Segment Event

namespace World

variable {past : List Moment} {w : World} {seats : Seats} {endpoint endpoint' : Endpoint}
  {source : Source} {manager : Manager} {allowed : Operation → Prop} {host' : Host}

/-- In every run what an attached manager sees is orderly. -/
theorem Run.exists_orderly (hrun : Run past w) (hendpoint : w.endpoint? seats = some endpoint)
    (hmanager : endpoint.manager? source = some manager) (hattached : manager.isAttached = true) :
    ∃ m, endpoint.mapping? source w.host = some m ∧ m.Orderly := by
  obtain ⟨me, hme⟩ := Option.isSome_iff_exists.mp hattached
  obtain ⟨i, -, hi, -⟩ := exists_seat hendpoint hmanager
  obtain ⟨segment, hsegment, hmapping⟩ := hrun.coherent.mapping? hi hme
  refine ⟨_, Option.bind_eq_some_iff.mpr ⟨manager, hmanager, hmapping⟩, .of_sound ?_⟩
  exact hrun.sound (party?_of_segment? hsegment)

theorem Run.exists_led (hrun : Run past w) (hendpoint : w.endpoint? seats = some endpoint)
    (hleads : endpoint.Leads allowed w.host endpoint' host') :
    ∃ past' w', Run past' w' ∧ w'.endpoint? seats = some endpoint' ∧ w'.host = host' := by
  obtain ⟨calls, -, hhistory⟩ := exists_calls hleads hendpoint rfl
  refine ⟨_, _, hrun.history calls, ?_⟩
  rw [hhistory past]
  exact ⟨endpoint?_withEndpoint hendpoint (isSome_broadcast_of_leads hleads), host_withEndpoint⟩

end World

namespace Event.Endpoint

variable {endpoint : Endpoint} {source : Source} {host : Host} {m : Mapping}

theorem exists_attached (h : endpoint.mapping? source host = some m) :
    ∃ manager, endpoint.manager? source = some manager ∧ manager.attachment = some m.me := by
  obtain ⟨manager, hmanager, hm⟩ := Option.bind_eq_some_iff.mp h
  obtain ⟨me, segment, hme, -, rfl⟩ := Manager.mapping?_eq_some_iff.mp hm
  exact ⟨manager, hmanager, hme⟩

end Event.Endpoint

namespace Scene

open EventChannel (pollBroadcast)

variable {past : List Moment} {s : Scene} {c : Nat} {channel mid : EventChannel}
  {source : Source} {host' : Host} {answer : Except Event.Error Bool}

theorem Run.any_deliversInit (hrun : Run past s) (hchannel : s.channel? c = some channel) :
    past.any (·.deliversInit c) = channel.initialised := by
  have hcount := hrun.count_deliversInit c
  rw [initialised_of_channel? hchannel] at hcount
  rw [Bool.eq_iff_iff, List.any_eq_true, ← List.countP_pos_iff, hcount]
  cases channel.initialised <;> simp

theorem Run.orderly (hrun : Run past s) (hchannel : s.channel? c = some channel)
    (hattached : ∀ manager, channel.endpoint.manager? source = some manager →
      manager.isAttached = true) : channel.Orderly source s.world.host := by
  obtain ⟨seats, -, hendpoint⟩ := channel?_eq_some_iff.mp hchannel
  obtain ⟨_, hworld⟩ := hrun.world
  exact fun manager hmanager =>
    hworld.exists_orderly hendpoint hmanager (hattached manager hmanager)

theorem Run.orderly_left (hrun : Run past s) (hchannel : s.channel? c = some channel)
    (hattached : channel.endpoint.data.isAttached = true)
    (hon : pollBroadcast.on channel s.world.host = (answer, mid, host'))
    (hkept : mid.endpoint.data = channel.endpoint.data) : mid.Orderly .data host' := by
  obtain ⟨seats, -, hendpoint⟩ := channel?_eq_some_iff.mp hchannel
  obtain ⟨_, hworld⟩ := hrun.world
  have hleads := (EventChannel.free_pollBroadcast channel s.world.host).1
  rw [hon] at hleads
  obtain ⟨_, w', hrun', hendpoint', rfl⟩ := hworld.exists_led hendpoint hleads
  rintro _ ⟨⟩
  exact hrun'.exists_orderly hendpoint' rfl (hkept ▸ hattached)

end Scene

namespace EventChannel

open Scene (Run)

variable {channel : EventChannel} {host : Host} {n : Mapping}

/-- What is on an object of its own waits as it did before the broadcasts. -/
theorem dataLeft_of_apart (hheld : channel.held = none)
    (hbroadcasts : channel.Orderly .broadcast host)
    (hn : channel.endpoint.mapping? .data host = some n)
    (hapart : ∀ manager ∈ channel.endpoint.broadcast,
      manager.attachment.map (·.object) ≠ channel.endpoint.data.attachment.map (·.object)) :
    channel.dataLeft host = channel.waiting .data host := by
  obtain ⟨answer, mid, host', hon, hdrained, -⟩ := drained_pollBroadcast hheld hbroadcasts
  rw [dataLeft, hon, waiting_eq hn]
  refine waiting_eq (hdrained.aside n hn fun m hm hsame => ?_)
  obtain ⟨other, hother, hm⟩ := Endpoint.exists_attached hm
  obtain ⟨_, hself, hn⟩ := Endpoint.exists_attached hn
  cases hself
  exact hapart other hother (by rw [hm, hn, Option.map_some, Option.map_some, hsame])

/-- **What a channel comes to hold.** In every run, let a channel whose managers are attached
hold nothing and wait for an event, and let the first look decide: there is no time to wait,
or there is an answer. The channel goes through the broadcasts that wait for it, in
ascending order. Those at the front that tell to initialise it claims and releases, each
once, if it was told so before. The first other one it holds, with no more claims than there
are slots; it says so if the kinds of the fragments cannot be told, and can release it all
the same. If there is none, and not only broadcasts are asked for, it holds the first of the
data that waits for it then. It is told that there is no event if and only if there is no
such broadcast, and no data either or none is asked for, and holds nothing then; whether the
end of data was declared does not matter. -/
theorem next_event_held {past : List Scene.Moment} {s : Scene} (hrun : Run past s) {c : Nat}
    {channel : EventChannel} (hchannel : s.channel? c = some channel) (hheld : channel.held = none)
    (hdata : channel.endpoint.data.isAttached = true)
    (hbroadcast : ∀ manager ∈ channel.endpoint.broadcast, manager.isAttached = true)
    {broadcastOnly : Bool} {timeout : Nat}
    (hdecides : timeout = 0 ∨ ((poll broadcastOnly).on channel s.world.host).1 ≠ .ok none) :
    let host := s.world.host
    let s' := s.step (.use c (.await broadcastOnly timeout))
    let skips := fun event : Holding => past.any (·.deliversInit c) && event.tellsInit
    let broadcasts := channel.waiting .broadcast host
    let skipped := broadcasts.takeWhile skips
    let stop? := broadcasts.find? (!skips ·)
    let data := channel.dataLeft host
    ∃ (answer : Except Event.Error Bool) (after : EventChannel),
      s.reply? (.use c (.await broadcastOnly timeout)) = some (answer.map .flag) ∧
      s'.channel? c = some after ∧
      broadcasts.Pairwise (·.sequenceId < ·.sequenceId) ∧
      data.Pairwise (·.sequenceId < ·.sequenceId) ∧
      Waits channel host skipped after s'.world.host ∧
      (∀ manager ∈ channel.endpoint.broadcast,
        skipped.length + stop?.toList.length ≤ manager.slotCount host ∧
        ∀ more, (pollBroadcasts (skipped.length + 1 + more)).on channel host =
          pollBroadcast.on channel host) ∧
      (∀ event, stop? = some event → answer = event.verdict ∧
        s'.holding? c = some event ∧ after.holdsBroadcast = true ∧
        s'.reply? (.use c .release) = some (.ok .released) ∧
        (s'.step (.use c .release)).held? c = none) ∧
      (stop? = none → broadcastOnly = false → ∀ event, data.head? = some event →
        answer = .ok true ∧ s'.holding? c = some event ∧ after.holdsBroadcast = false) ∧
      (answer = .ok false ↔ stop? = none ∧ (broadcastOnly = true ∨ data = [])) ∧
      (answer = .ok false → after.held = none) ∧
      ((∀ manager ∈ channel.endpoint.broadcast,
          manager.attachment.map (·.object) ≠ channel.endpoint.data.attachment.map (·.object)) →
        data = channel.waiting .data host) := by
  intro host s' skips broadcasts skipped stop? data
  have hbroadcasts : channel.Orderly .broadcast host := hrun.orderly hchannel hbroadcast
  obtain ⟨answer, mid, host₁, hdrain, hdrained, hbound⟩ := drained_pollBroadcast hheld hbroadcasts
  obtain ⟨found, after, host', hpoll, hpolled⟩ := polled_poll hheld broadcastOnly hbroadcasts
    fun _ _ _ hon hkept => hrun.orderly_left hchannel hdata hon hkept
  -- What the channel knows is what has happened.
  have hpasses : channel.passes = skips := by
    funext event
    rw [passes, ← hrun.any_deliversInit hchannel]
  have hpassed : channel.passed host = skipped := congrArg broadcasts.takeWhile hpasses
  have hnext : channel.next? host = stop? :=
    congrArg (fun passes : Holding → Bool => broadcasts.find? (!passes ·)) hpasses
  have hon : (Use.await broadcastOnly timeout).perform.on channel host =
      ((found.map (·.getD false)).map .flag, after, host') := by
    rw [Use.perform, Action.on_map, on_await_of_decided hheld hdecides, hpoll]
  obtain ⟨hreply, hafter, hhost⟩ := Scene.channel?_step_use hchannel _ hon
  have hholding : ∀ event, after.holding? host' = some event → s'.holding? c = some event :=
    fun event h => Scene.holding?_eq_some_iff.mpr ⟨after, hafter, by rw [hhost]; exact h⟩
  have hiff := hpolled.vain_iff
  obtain ⟨hwaits, hstopped, hfirst, hvain⟩ := hpolled
  rw [hpassed, ← hhost] at hwaits
  rw [hnext] at hstopped hfirst hvain hiff
  refine ⟨found.map (·.getD false), after, hreply, hafter, hbroadcasts.ascending, ?_, hwaits, ?_,
    ?_, ?_, hiff, ?_, ?_⟩
  · have hleft : data = mid.waiting .data host₁ := by simp only [data, dataLeft, hdrain]
    rw [hleft]
    exact (hrun.orderly_left hchannel hdata hdrain hdrained.data).ascending
  · intro manager hmanager
    rw [← hpassed, ← hnext, hdrain]
    exact ⟨(channel.length_passed_le host).trans (length_waiting_le hmanager),
      hbound (Option.ne_none_iff_exists'.mpr ⟨manager, hmanager⟩)⟩
  · intro event hevent
    obtain ⟨rfl, hholds, hisBroadcast⟩ := hstopped event hevent
    obtain ⟨hreleased, hletGo, -⟩ := (hrun.step _).step_release hafter (hholding event hholds)
    refine ⟨?_, hholding event hholds, hisBroadcast, hreleased, Scene.held?_of_channel? hletGo⟩
    cases event.verdict <;> rfl
  · intro hnone honly event hevent
    obtain ⟨rfl, hholds, hnot⟩ := hfirst hnone honly event hevent
    exact ⟨rfl, hholding event hholds, hnot⟩
  · intro hanswer
    obtain ⟨hnone, hdata⟩ := hiff.mp hanswer
    exact (hvain hnone hdata).2
  · intro hapart
    have horderly : channel.Orderly .data host := hrun.orderly hchannel fun _ h => by
      cases h
      exact hdata
    obtain ⟨n, hn, -⟩ := horderly _ rfl
    exact dataLeft_of_apart hheld hbroadcasts hn hapart

/-- Of two broadcasts the first tells to initialise once more: the channel holds the second,
although the end of data was declared and there is data. -/
theorem next_event_held_after_init :
    let init : List Fragment := [Fragment.build 1 2 (.system .init) [] []].filterMap Except.toOption
    let pack (source : Source) (fragments : List Fragment) : Scene.Call :=
      .emit ⟨0, some 1, by decide⟩ source (.new 1 2 3 4) fragments false .any
    let calls : List Scene.Call := [.world (.attach (.new 7 1 64) .manual),
      .world (.attach (.new 8 2 64) .manual), .world (.attach (.attachOnly 7) .manual),
      .world (.attach (.attachOnly 8) .manual), .engage ⟨2, some 3, by decide⟩,
      pack .broadcast init, .use 0 (.await false 0), .use 0 .release, pack .data [],
      pack .broadcast init, pack .broadcast [], .world (.perform 0 .endData)]
    let s := (Scene.run calls).2
    let s' := s.step (.use 0 (.await false 0))
    s.reply? (.use 0 (.await false 0)) = some (.ok (.flag true)) ∧
      s'.reply? (.use 0 .release) = some (.ok .released) ∧
      ∃ channel after skipped event, s.channel? 0 = some channel ∧ s'.channel? 0 = some after ∧
        Waits channel s.world.host skipped after (s.step (.use 0 (.await false 0))).world.host ∧
        skipped.map (·.sequenceId) = [2] ∧ s'.holding? 0 = some event ∧ event.sequenceId = 3 := by
  intro init pack calls s s'
  obtain ⟨channel, hchannel, hfacts⟩ := (Option.any_eq_true (fun channel : EventChannel =>
      channel.held == none && channel.endpoint.data.isAttached &&
        channel.endpoint.broadcast.all (·.isAttached) &&
        ((channel.waiting .broadcast s.world.host).takeWhile (·.tellsInit)).map (·.sequenceId) ==
          [2] &&
        ((channel.waiting .broadcast s.world.host).find? (!·.tellsInit)).any (·.sequenceId == 3))
    (s.channel? 0)).mp (by decide +kernel)
  simp only [Bool.and_eq_true, beq_iff_eq, Option.all_eq_true, Option.any_eq_true] at hfacts
  obtain ⟨⟨⟨⟨hheld, hdata⟩, hbroadcast⟩, hskipped⟩, event, hstop, hid⟩ := hfacts
  have hinit : (Scene.run calls).1.any (·.deliversInit 0) = true := by decide +kernel
  have hrun : Run (Scene.run calls).1 s := Scene.run_run calls
  obtain ⟨answer, after, -, hafter, -, -, hwaits, -, hstopped, -⟩ :=
    @next_event_held _ _ hrun 0 channel hchannel hheld hdata hbroadcast false 0 (.inl rfl)
  simp only [hinit, Bool.true_and] at hwaits hstopped
  obtain ⟨-, hholding, -, hreleased, -⟩ := hstopped event hstop
  exact ⟨by decide +kernel, hreleased, channel, after, _, event, hchannel, hafter, hwaits, hskipped,
    hholding, hid⟩

end EventChannel

end SlotTransport
