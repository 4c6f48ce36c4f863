/-
What comes of one look for an event. A channel goes through the broadcasts that wait for
it in ascending order, passes over those that tell it to initialise once more, and stops
at the first other one (`drained_pollBroadcast`). Without one it takes the first of the
data that waits for it then (`polled_poll`). So what the channel is told and what it holds
is a matter of what waits.
-/
import SlotTransport.Proofs.Event.Backlog
import SlotTransport.Proofs.Event.Scene
import Mathlib.Data.List.TakeWhile

namespace SlotTransport

open Segment Event

namespace Event.Endpoint

variable {endpoint : Endpoint} {source : Source} {host : Host} {m n : Mapping}

theorem mapping?_onto_of_ne (h : endpoint.mapping? source host = some n)
    (hne : n.me.object ≠ m.me.object) : endpoint.mapping? source (m.onto host) = some n := by
  obtain ⟨manager, hmanager, hn⟩ := Option.bind_eq_some_iff.mp h
  obtain ⟨me, segment, hme, hobject, rfl⟩ := Manager.mapping?_eq_some_iff.mp hn
  refine Option.bind_eq_some_iff.mpr ⟨manager, hmanager, ?_⟩
  refine Manager.mapping?_eq_some_iff.mpr ⟨me, segment, hme, ?_, rfl⟩
  rw [Mapping.onto, Host.objects_store, List.getElem?_set_ne (Ne.symm hne), hobject]

theorem mapping?_data_follow (h : endpoint.mapping? .data host = some n)
    (hne : n.me.object ≠ m.me.object) (me : Attachment) :
    (endpoint.follow .broadcast me).mapping? .data (m.onto host) = some n :=
  mapping?_onto_of_ne h hne

end Event.Endpoint

namespace EventChannel

variable {channel channel' after : EventChannel} {host host' host'' : Host} {source : Source}
  {m n : Mapping} {s t : Slot} {record : Nat × Slot} {others : List (Nat × Slot)}
  {event : Holding} {events : List Holding} {answer : Except Event.Error Bool}

/-! ## What waits for a channel -/

/-- The record in a slot of an object. -/
def Holding.ofSlot (object : Nat) (record : Nat × Slot) : Holding :=
  ⟨object, record.1, record.2.sequenceId, record.2.content⟩

/-- The records of a source that wait for the channel, in ascending order of their sequence
ids. -/
def waiting (channel : EventChannel) (source : Source) (host : Host) : List Holding :=
  match channel.endpoint.mapping? source host with
  | none => []
  | some m => m.backlog.map (Holding.ofSlot m.me.object)

/-- Whether the channel passes over a broadcast: it tells to initialise, and one did
before. -/
def passes (channel : EventChannel) (event : Holding) : Bool :=
  channel.initialised && event.tellsInit

/-- The broadcasts that the channel passes over before it stops. -/
def passed (channel : EventChannel) (host : Host) : List Holding :=
  (channel.waiting .broadcast host).takeWhile channel.passes

/-- The broadcast to stop at: the first that the channel does not pass over. -/
def next? (channel : EventChannel) (host : Host) : Option Holding :=
  (channel.waiting .broadcast host).find? (!channel.passes ·)

/-- A manager of the channel is attached, and what it sees is orderly. -/
def Orderly (channel : EventChannel) (source : Source) (host : Host) : Prop :=
  ∀ manager, channel.endpoint.manager? source = some manager →
    ∃ m, channel.endpoint.mapping? source host = some m ∧ m.Orderly

/-- A segment is another than the one of the broadcasts. -/
def Apart (channel : EventChannel) (host : Host) (n : Mapping) : Prop :=
  ∀ m, channel.endpoint.mapping? .broadcast host = some m → n.me.object ≠ m.me.object

theorem waiting_eq (hm : channel.endpoint.mapping? source host = some m) :
    channel.waiting source host = m.backlog.map (Holding.ofSlot m.me.object) := by
  rw [waiting, hm]

theorem waiting_of_absent (hnone : channel.endpoint.manager? source = none) :
    channel.waiting source host = [] := by
  rw [waiting, Endpoint.mapping?, hnone]
  rfl

theorem Orderly.ascending (h : channel.Orderly source host) :
    (channel.waiting source host).Pairwise (·.sequenceId < ·.sequenceId) := by
  cases hmanager : channel.endpoint.manager? source with
  | none => exact waiting_of_absent hmanager ▸ .nil
  | some manager =>
    obtain ⟨m, hm, horderly⟩ := h manager hmanager
    rw [waiting_eq hm, List.pairwise_map]
    exact horderly.ascending

theorem passed_of_nil (h : channel.waiting .broadcast host = []) :
    channel.passed host = [] ∧ channel.next? host = none := by
  rw [passed, next?, h]
  exact ⟨rfl, rfl⟩

theorem passed_of_stop (h : channel.waiting .broadcast host = event :: events)
    (hpasses : channel.passes event = false) :
    channel.passed host = [] ∧ channel.next? host = some event := by
  rw [passed, next?, h, List.takeWhile_cons, List.find?_cons, hpasses]
  exact ⟨rfl, rfl⟩

theorem passed_of_pass
    (h : channel.waiting .broadcast host = event :: channel'.waiting .broadcast host')
    (hpasses : channel.passes event = true) (hsame : channel'.passes = channel.passes) :
    channel.passed host = event :: channel'.passed host' ∧
      channel.next? host = channel'.next? host' := by
  rw [passed, next?, h, List.takeWhile_cons, List.find?_cons, hpasses, passed, next?, hsame]
  exact ⟨rfl, rfl⟩

/-- Those that are passed over and the one to stop at are some of those that wait. -/
theorem length_passed_le (channel : EventChannel) (host : Host) :
    (channel.passed host).length + (channel.next? host).toList.length ≤
      (channel.waiting .broadcast host).length := by
  have hsplit := congrArg List.length (List.takeWhile_append_dropWhile
    (p := channel.passes) (l := channel.waiting .broadcast host))
  rw [List.length_append] at hsplit
  rw [next?, List.find?_not_eq_head?_dropWhile, ← hsplit]
  refine Nat.add_le_add_left ?_ _
  cases (channel.waiting .broadcast host).dropWhile channel.passes with
  | nil => exact le_refl _
  | cons first others => exact Nat.le_add_left ..

theorem length_waiting_le {manager : Manager}
    (hbroadcast : channel.endpoint.broadcast = some manager) :
    (channel.waiting .broadcast host).length ≤ manager.slotCount host := by
  cases hm : channel.endpoint.mapping? .broadcast host with
  | none =>
    rw [waiting, hm]
    exact Nat.zero_le _
  | some m =>
    rw [waiting_eq hm, List.length_map, slotCount_broadcast hbroadcast hm]
    exact m.length_backlog_le

/-! ## One claim -/

/-- Where records wait, a claim gets the first, and once that was released the others wait. -/
theorem exists_claims (hm : channel.endpoint.mapping? source host = some m)
    (horderly : m.Orderly) (hbacklog : m.backlog = record :: others) :
    ∃ m' s channel' host',
      channel.Claims source host (.ofSlot m.me.object record) m' s channel' host' ∧
      ∀ t, s.Reread t → ∃ left, channel'.endpoint.mapping? source
          ((m'.store record.1 ((m'.released t).touched m'.now)).onto host') = some left ∧
        left.Orderly ∧ left.backlog = others ∧ left.me.object = m.me.object := by
  obtain ⟨k, s⟩ := record
  have hclaim : m.claimForReading = (some k, m.sweepAll.takeForReading k s) := by
    rw [horderly.claimForReading, hbacklog]
    rfl
  have hkept := Mapping.kept_claimForReading m
  rw [hclaim] at hkept
  have hs := (Mapping.mem_backlog.mp (hbacklog ▸ List.mem_cons_self)).1
  have hwritten := horderly.written (k, s) (hbacklog ▸ List.mem_cons_self)
  have hslot : (m.sweepAll.takeForReading k s).slots[k]? =
      some ((s.claimedForReading m.me.id).touched m.now) := by
    rw [Mapping.slots_takeForReading]
    exact List.getElem?_set_self (List.getElem?_eq_some_iff.mp hs).1
  have hreads : (m.sweepAll.takeForReading k s).Reads k
      ((s.claimedForReading m.me.id).touched m.now) s.content :=
    ⟨hslot, ⟨rfl, hkept.me.id.symm⟩,
      bytesAt_eq_content hslot (hkept.segment.slotSize ▸ hwritten)⟩
  have hfollow := Endpoint.mapping?_follow hm hkept
  have hclaimed : Program.claimForReading.on m =
      (.ok (some k), m.sweepAll.takeForReading k s) := by
    rw [Program.on_claimForReading, hclaim]
  exact ⟨_, _, _, _, ⟨on_guarded hm hclaimed hkept.me.object,
      ⟨hfollow, hreads⟩, hkept.me.object, rfl, Host.store_store ..⟩,
    fun t ht => ⟨_, Endpoint.mapping?_store hfollow _ _, horderly.finished hbacklog ht,
      horderly.backlog_finished hbacklog ht, hkept.me.object⟩⟩

theorem on_claim_of_backlog_nil (hm : channel.endpoint.mapping? source host = some m)
    (horderly : m.Orderly) (hbacklog : m.backlog = []) :
    (onSource source Manager.claimForReading).on channel host =
      (.ok none, channel, m.sweepAll.onto host) := by
  have hclaim : m.claimForReading = (none, m.sweepAll) := by
    rw [horderly.claimForReading, hbacklog]
    rfl
  have hobject : m.sweepAll.me.object = m.me.object := rfl
  have hon : (onSource source Manager.claimForReading).on channel host =
      (.ok none, { channel with endpoint := channel.endpoint.follow source m.me },
        m.sweepAll.onto host) :=
    on_guarded hm (by rw [Program.on_claimForReading, hclaim]) hobject
  rwa [Endpoint.follow_self hm] at hon

/-! ## Broadcasts -/

/-- What comes of going through the broadcasts that wait for a channel: those that it passes
over it has claimed, looked at and released, and it holds the first other one. What is on
other objects stays as it is. -/
structure Drained (channel : EventChannel) (host : Host) (answer : Except Event.Error Bool)
    (after : EventChannel) (host' : Host) : Prop where
  waits : channel.Waits host (channel.passed host) after host'
  stopped : ∀ event, channel.next? host = some event →
    answer = event.verdict ∧ after.holding? host' = some event ∧ after.holdsBroadcast = true
  through : channel.next? host = none → answer = .ok false ∧ after.held = none
  data : after.endpoint.data = channel.endpoint.data
  aside : ∀ n, channel.endpoint.mapping? .data host = some n → channel.Apart host n →
    after.endpoint.mapping? .data host' = some n

theorem Claims.mapping?_data (h : channel.Claims .broadcast host event m s channel' host')
    (hn : channel.endpoint.mapping? .data host = some n)
    (hapart : channel.Apart host n) (t : Slot) :
    channel'.endpoint.mapping? .data ((m.store event.slot t).onto host') = some n := by
  obtain ⟨m₀, hm, hclaimed, rfl, rfl⟩ := h.exists_claimed
  have hkept := Mapping.kept_claimForReading m₀
  rw [hclaimed] at hkept
  rw [Mapping.onto_onto]
  exact Endpoint.mapping?_data_follow hn (hkept.me.object ▸ hapart m₀ hm) m.me

theorem Claims.data (h : channel.Claims .broadcast host event m s channel' host') :
    channel'.endpoint.data = channel.endpoint.data := by
  obtain ⟨-, -, -, rfl, -⟩ := h.exists_claimed
  rfl

theorem Claims.passes (h : channel.Claims source host event m s channel' host') :
    channel'.passes = channel.passes := by
  funext other
  rw [EventChannel.passes, EventChannel.passes, h.kept.2]

namespace Drained

theorem vain (hheld : channel.held = none) (hnone : channel.waiting .broadcast host = [])
    (hwaits : channel.Waits host [] channel host')
    (haside : ∀ n, channel.endpoint.mapping? .data host = some n → channel.Apart host n →
      channel.endpoint.mapping? .data host' = some n) :
    channel.Drained host (.ok false) channel host' := by
  obtain ⟨hpassed, hnext⟩ := passed_of_nil hnone
  refine ⟨hpassed ▸ hwaits, fun event hevent => ?_, fun _ => ⟨rfl, hheld⟩, rfl, haside⟩
  cases hnext.symm.trans hevent

theorem stop (hclaim : channel.Claims .broadcast host event m s channel' host')
    (ht : s.Reread t) (initialised : Bool)
    (hwaiting : channel.waiting .broadcast host = event :: events)
    (hpasses : channel.passes event = false) :
    channel.Drained host event.verdict
      { channel' with held := some (.broadcast, event.slot), initialised := initialised }
      ((m.store event.slot t).onto host') := by
  obtain ⟨hpassed, hnext⟩ := passed_of_stop hwaiting hpasses
  refine ⟨hpassed ▸ .hold hclaim ht initialised, fun other hother => ?_, fun hnone => ?_,
    hclaim.data, fun n hn hapart => hclaim.mapping?_data hn hapart t⟩
  · cases hnext.symm.trans hother
    exact ⟨rfl, hclaim.holding? ht initialised, rfl⟩
  · cases hnext.symm.trans hnone

theorem pass (hclaim : channel.Claims .broadcast host event m s channel' host')
    (ht : s.Reread t) (hwaiting : channel.waiting .broadcast host =
      event :: channel'.waiting .broadcast
        ((m.store event.slot ((m.released t).touched m.now)).onto host'))
    (hpasses : channel.passes event = true)
    (h : channel'.Drained ((m.store event.slot ((m.released t).touched m.now)).onto host')
      answer after host'') : channel.Drained host answer after host'' := by
  obtain ⟨hpassed, hnext⟩ := passed_of_pass hwaiting hpasses hclaim.passes
  refine ⟨?_, hnext ▸ h.stopped, hnext ▸ h.through, h.data.trans hclaim.data,
    fun n hn hapart => h.aside n (hclaim.mapping?_data hn hapart _) fun m' hm' => ?_⟩
  · rw [hpassed]
    exact .skip hclaim ht (hclaim.reads.on_release ht) h.waits
  · cases (Endpoint.mapping?_store hclaim.reads.mapping _ _).symm.trans hm'
    obtain ⟨m₀, hm, hclaimed, -, -⟩ := hclaim.exists_claimed
    have hkept := Mapping.kept_claimForReading m₀
    rw [hclaimed] at hkept
    exact hkept.me.object.symm ▸ hapart m₀ hm

end Drained

/-- With one claim more than there are broadcasts to pass over, a channel goes through them,
and it gets no further with any number. -/
theorem drained_pollBroadcasts {records : List (Nat × Slot)} (hheld : channel.held = none)
    (hm : channel.endpoint.mapping? .broadcast host = some m) (horderly : m.Orderly)
    (hbacklog : m.backlog = records) :
    ∃ answer after host', channel.Drained host answer after host' ∧
      ∀ more, (pollBroadcasts ((channel.passed host).length + 1 + more)).on channel host =
        (answer, after, host') := by
  have hwaiting := waiting_eq hm
  rw [hbacklog] at hwaiting
  induction records generalizing channel host m with
  | nil =>
    have hon := on_claim_of_backlog_nil hm horderly hbacklog
    have hwaits : channel.Waits host [] channel (m.sweepAll.onto host) :=
      .idle (fun k hk => by cases hk) hon (.done channel _)
    refine ⟨.ok false, channel, _, .vain hheld hwaiting hwaits
      fun n hn hapart => Endpoint.mapping?_onto_of_ne hn (hapart m hm), fun more => ?_⟩
    rw [(passed_of_nil hwaiting).1, Nat.add_right_comm]
    exact Action.on_bind_ok hon _
  | cons record records ih =>
    obtain ⟨m', s, channel', host', hclaim, hleft⟩ := exists_claims hm horderly hbacklog
    rw [List.map_cons] at hwaiting
    obtain ⟨t, ht, ⟨initialised, -, honce, hon⟩ | ⟨hbefore, htells, hon⟩⟩ :=
      hclaim.on_pollBroadcasts hheld
    · have hpasses : channel.passes (.ofSlot m.me.object record) = false := by
        cases hbefore : channel.initialised with
        | false => rw [passes, hbefore, Bool.false_and]
        | true => rw [passes, honce hbefore, Bool.and_false]
      refine ⟨_, _, _, .stop hclaim ht initialised hwaiting hpasses, fun more => ?_⟩
      rw [(passed_of_stop hwaiting hpasses).1, Nat.add_right_comm]
      exact hon _
    · have hpasses : channel.passes (.ofSlot m.me.object record) = true := by
        rw [passes, hbefore, htells, Bool.and_true]
      obtain ⟨left, hm', horderly', hbacklog', hobject⟩ := hleft t ht
      have hwaiting' := waiting_eq hm'
      rw [hbacklog'] at hwaiting'
      obtain ⟨answer, after, host'', hdrained, hrest⟩ := ih (hclaim.kept.1.trans hheld) hm'
        horderly' hbacklog' hwaiting'
      rw [hobject] at hwaiting'
      rw [← hwaiting'] at hwaiting
      refine ⟨answer, after, host'', .pass hclaim ht hwaiting hpasses hdrained, fun more => ?_⟩
      rw [(passed_of_pass hwaiting hpasses hclaim.passes).1, List.length_cons,
        Nat.add_right_comm _ 1 more, hon]
      exact hrest more

theorem drained_pollBroadcast (hheld : channel.held = none)
    (hbroadcasts : channel.Orderly .broadcast host) :
    ∃ answer after host', pollBroadcast.on channel host = (answer, after, host') ∧
      channel.Drained host answer after host' ∧
      (channel.endpoint.broadcast ≠ none → ∀ more,
        (pollBroadcasts ((channel.passed host).length + 1 + more)).on channel host =
          (answer, after, host')) := by
  cases hbroadcast : channel.endpoint.broadcast with
  | none =>
    refine ⟨.ok false, channel, host, ?_, .vain hheld (waiting_of_absent hbroadcast)
      (.done channel host) fun n hn _ => hn, fun hsome => absurd rfl hsome⟩
    rw [pollBroadcast, Action.on_bind_ok (Action.on_own channel host), hbroadcast]
    rfl
  | some manager =>
    obtain ⟨m, hm, horderly⟩ := hbroadcasts manager hbroadcast
    obtain ⟨answer, after, host', hdrained, hon⟩ := drained_pollBroadcasts hheld hm horderly rfl
    refine ⟨answer, after, host', ?_, hdrained, fun _ => hon⟩
    obtain ⟨more, hmore⟩ : ∃ more, manager.slotCount host = (channel.passed host).length + more :=
      Nat.exists_eq_add_of_le ((Nat.le_add_right ..).trans
        ((channel.length_passed_le host).trans (length_waiting_le hbroadcast)))
    rw [on_pollBroadcast hbroadcast host, hmore, Nat.add_right_comm]
    exact hon more

/-! ## Data -/

/-- A channel that looks for data takes the first that waits for it. -/
theorem pollData_cases (hm : channel.endpoint.mapping? .data host = some m)
    (horderly : m.Orderly) :
    (∃ host', channel.waiting .data host = [] ∧
      pollData.on channel host = (.ok false, channel, host') ∧
      channel.Waits host [] channel host') ∨
    ∃ event events after host', channel.waiting .data host = event :: events ∧
      pollData.on channel host = (.ok true, after, host') ∧
      channel.Waits host [] after host' ∧ after.holding? host' = some event ∧
      after.holdsBroadcast = false := by
  have hwaiting := waiting_eq hm
  cases hbacklog : m.backlog with
  | nil =>
    rw [hbacklog] at hwaiting
    have hon := on_claim_of_backlog_nil hm horderly hbacklog
    exact .inl ⟨_, hwaiting, Action.on_bind_ok hon _,
      .idle (fun k hk => by cases hk) hon (.done channel _)⟩
  | cons record others =>
    rw [hbacklog, List.map_cons] at hwaiting
    obtain ⟨m', s, channel', host', hclaim, -⟩ := exists_claims hm horderly hbacklog
    have hwaits := Waits.hold hclaim (.refl s) channel'.initialised
    have hholding := hclaim.holding? (.refl s) channel'.initialised
    rw [Mapping.store_self hclaim.reads.reads.slot, hclaim.seen] at hwaits hholding
    exact .inr ⟨_, _, _, _, hwaiting, Action.on_bind_ok hclaim.on _, hwaits, hholding, rfl⟩

/-! ## One look -/

/-- The data that waits for the channel when it has gone through the broadcasts. -/
def dataLeft (channel : EventChannel) (host : Host) : List Holding :=
  let (_, mid, host') := pollBroadcast.on channel host
  mid.waiting .data host'

/-- What comes of looking for an event once: what the channel holds then, and what it is
told. -/
structure Polled (channel : EventChannel) (host : Host) (broadcastOnly : Bool)
    (answer : Except Event.Error (Option Bool)) (after : EventChannel) (host' : Host) : Prop where
  waits : channel.Waits host (channel.passed host) after host'
  stopped : ∀ event, channel.next? host = some event →
    answer = event.verdict.map some ∧ after.holding? host' = some event ∧
      after.holdsBroadcast = true
  data : channel.next? host = none → broadcastOnly = false →
    ∀ event, (channel.dataLeft host).head? = some event →
      answer = .ok (some true) ∧ after.holding? host' = some event ∧ after.holdsBroadcast = false
  vain : channel.next? host = none → broadcastOnly = true ∨ channel.dataLeft host = [] →
    answer.map (·.getD false) = .ok false ∧ after.held = none

theorem on_poll_of_verdict (hon : pollBroadcast.on channel host = (event.verdict, after, host'))
    (broadcastOnly : Bool) :
    (poll broadcastOnly).on channel host = (event.verdict.map some, after, host') := by
  rcases event.verdict_cases with hverdict | ⟨fault, hverdict⟩ <;> rw [hverdict] at hon ⊢
  · exact Action.on_bind_ok hon _
  · exact Action.on_bind_error hon _

theorem Polled.of_nothing (hfound : channel.next? host = none)
    (hwaits : channel.Waits host (channel.passed host) after host') (hempty : after.held = none)
    {broadcastOnly : Bool} (hnone : broadcastOnly = false → channel.dataLeft host = [])
    (ended : Bool) :
    channel.Polled host broadcastOnly (.ok (if ended then some false else none)) after host' := by
  refine ⟨hwaits, fun event hevent => ?_, fun _ hfalse event hevent => ?_, fun _ _ => ⟨?_, hempty⟩⟩
  · cases hfound.symm.trans hevent
  · rw [hnone hfalse] at hevent
    cases hevent
  · cases ended <;> rfl

theorem polled_of_through {mid : EventChannel} {host₁ : Host}
    (hon : pollBroadcast.on channel host = (.ok false, mid, host₁))
    (hwaits : channel.Waits host (channel.passed host) mid host₁) (hempty : mid.held = none)
    (hfound : channel.next? host = none)
    (hm : mid.endpoint.mapping? .data host₁ = some m) (horderly : m.Orderly)
    (broadcastOnly : Bool) :
    ∃ answer after host', (poll broadcastOnly).on channel host = (answer, after, host') ∧
      channel.Polled host broadcastOnly answer after host' := by
  have hleft : channel.dataLeft host = mid.waiting .data host₁ := by rw [dataLeft, hon]
  cases broadcastOnly with
  | true =>
    refine ⟨_, mid, host₁, Action.on_bind_ok hon _, .of_nothing hfound hwaits hempty ?_ _⟩
    exact nofun
  | false =>
    rcases pollData_cases hm horderly with ⟨host', hnone, hdata, hwaits'⟩ |
      ⟨event, events, after, host', hfirst, hdata, hwaits', hholding, hbroadcast⟩
    · have hwaits'' := hwaits.trans hempty hwaits'
      rw [List.append_nil] at hwaits''
      exact ⟨_, mid, host', (Action.on_bind_ok hon _).trans (Action.on_bind_ok hdata _),
        .of_nothing hfound hwaits'' hempty (fun _ => hleft.trans hnone) _⟩
    · have hwaits'' := hwaits.trans hempty hwaits'
      rw [List.append_nil] at hwaits''
      refine ⟨.ok (some true), after, host',
        (Action.on_bind_ok hon _).trans (Action.on_bind_ok hdata _), hwaits'',
        fun other hother => ?_, fun _ _ other hother => ?_, fun _ hor => ?_⟩
      · cases hfound.symm.trans hother
      · rw [hleft, hfirst] at hother
        cases hother
        exact ⟨rfl, hholding, hbroadcast⟩
      · rw [hleft, hfirst] at hor
        rcases hor with hfalse | hnone
        · cases hfalse
        · cases hnone

/-- A channel that looks for an event holds the first broadcast that it does not pass over,
or else the first of the data, if that is asked for. -/
theorem polled_poll (hheld : channel.held = none) (broadcastOnly : Bool)
    (hbroadcasts : channel.Orderly .broadcast host)
    (hdata : ∀ answer mid host', pollBroadcast.on channel host = (answer, mid, host') →
      mid.endpoint.data = channel.endpoint.data → mid.Orderly .data host') :
    ∃ answer after host', (poll broadcastOnly).on channel host = (answer, after, host') ∧
      channel.Polled host broadcastOnly answer after host' := by
  obtain ⟨answer, mid, host₁, hon, hdrained, -⟩ := drained_pollBroadcast hheld hbroadcasts
  cases hfound : channel.next? host with
  | some event =>
    obtain ⟨rfl, hholding, hbroadcast⟩ := hdrained.stopped event hfound
    refine ⟨_, mid, host₁, on_poll_of_verdict hon broadcastOnly, hdrained.waits,
      fun other hother => ?_, fun hnone => ?_, fun hnone => ?_⟩
    · cases hfound.symm.trans hother
      exact ⟨rfl, hholding, hbroadcast⟩
    · cases hfound.symm.trans hnone
    · cases hfound.symm.trans hnone
  | none =>
    obtain ⟨m, hm, horderly⟩ := hdata answer mid host₁ hon hdrained.data _ rfl
    obtain ⟨rfl, hempty⟩ := hdrained.through hfound
    exact polled_of_through hon hdrained.waits hempty hfound hm horderly broadcastOnly

theorem Polled.vain_iff {broadcastOnly : Bool} {answer : Except Event.Error (Option Bool)}
    (h : channel.Polled host broadcastOnly answer after host') :
    answer.map (·.getD false) = .ok false ↔
      channel.next? host = none ∧ (broadcastOnly = true ∨ channel.dataLeft host = []) := by
  refine ⟨fun hvain => ?_, fun ⟨hnone, hdata⟩ => (h.vain hnone hdata).1⟩
  cases hfound : channel.next? host with
  | some event =>
    obtain ⟨rfl, -⟩ := h.stopped event hfound
    refine absurd ?_ event.verdict_ne
    rw [← hvain]
    cases event.verdict <;> rfl
  | none =>
    refine ⟨rfl, ?_⟩
    cases hdata : channel.dataLeft host with
    | nil => exact .inr rfl
    | cons event events =>
      cases honly : broadcastOnly with
      | true => exact .inl rfl
      | false =>
        have hanswer := (h.data hfound honly event (by rw [hdata]; rfl)).1
        rw [hanswer] at hvain
        cases hvain

theorem on_await_of_decided {broadcastOnly : Bool} {timeout : Nat} (hheld : channel.held = none)
    (hdecides : timeout = 0 ∨ ((poll broadcastOnly).on channel host).1 ≠ .ok none) :
    (EventChannel.await broadcastOnly timeout).on channel host =
      (((poll broadcastOnly).on channel host).1.map (·.getD false),
        ((poll broadcastOnly).on channel host).2) := by
  have hattempts : ∀ sleeps, sleeps = [] ∨ ((poll broadcastOnly).on channel host).1 ≠ .ok none →
      (Poll.attempts (poll broadcastOnly) sleeps).on channel host =
        (poll broadcastOnly).on channel host := by
    intro sleeps hsleeps
    cases sleeps with
    | nil => rfl
    | cons sleep sleeps =>
      have hdecided := hsleeps.resolve_left nofun
      rcases hon : (poll broadcastOnly).on channel host with ⟨cause | _ | answer, after, host'⟩
      · exact Action.on_bind_error hon _
      · rw [hon] at hdecided
        exact absurd rfl hdecided
      · exact Action.on_bind_ok hon _
  have hsleeps : Poll.schedule timeout = [] ∨
      ((poll broadcastOnly).on channel host).1 ≠ .ok none := by
    refine hdecides.imp_left fun hzero => ?_
    rw [hzero, Poll.schedule, Poll.scheduleFrom, dif_neg (lt_irrefl 0)]
  have htried := hattempts _ hsleeps
  rw [EventChannel.await, Action.on_bind_ok (Action.on_own channel host), hheld,
    Poll.await_eq_attempts]
  rcases hon : (poll broadcastOnly).on channel host with ⟨cause | found, after, host'⟩ <;>
    rw [hon] at htried
  · exact Action.on_bind_error htried _
  · exact Action.on_bind_ok htried _

end EventChannel

end SlotTransport
