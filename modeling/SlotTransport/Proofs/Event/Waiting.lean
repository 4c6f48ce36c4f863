/-
What comes of waiting for an event. A channel that waits makes claims: some give it
nothing, some give it a broadcast that it releases again, and the last may give it an
event that it holds (`Waits`). It releases broadcasts that tell to initialise, and only
once it was told so; from the first that it holds on, it was (`Use.waited_await`).
-/
import SlotTransport.Proofs.Event.Look
import SlotTransport.Proofs.Operation.Incident

namespace SlotTransport

open Segment Event

theorem Segment.Mapping.exists_reads_claimed {m : Mapping} {k : Nat}
    (h : m.claimForReading.1 = some k) :
    ∃ s, m.claimForReading.2.slots[k]? = some s ∧ m.claimForReading.2.Holds s .reading := by
  rcases m.claimForReading_cases with ⟨hnone, -⟩ | ⟨slot, s, hs, -, -, hsome⟩
  · rw [hnone] at h
    cases h
  · obtain rfl : slot = k := by
      rw [hsome] at h
      exact Option.some.inj h
    obtain ⟨-, hslot⟩ := Mapping.slots_claimForReading h hs
    exact ⟨_, hslot, rfl, (Mapping.kept_claimForReading m).me.id.symm⟩

namespace EventChannel

variable {channel channel' after : EventChannel} {host host' host'' : Host}
  {source : Source} {m : Mapping} {k : Nat} {s t : Slot} {content : Bytes} {event : Holding}
  {skipped others : List Holding} {α : Type}

/-- Whether the record tells to initialise. It does only if the kinds of its fragments can
be told. -/
def Holding.tellsInit (event : Holding) : Bool :=
  (Visit.kinds.found event.content).toOption.any (·.contains (.system .init))

/-- What a channel answers that has got the record: there is something wrong with it if the
kinds of its fragments cannot be told. -/
def Holding.verdict (event : Holding) : Except Event.Error Bool :=
  ((Visit.kinds.found event.content).map fun _ => true).mapError .framing

theorem Holding.verdict_cases (event : Holding) :
    event.verdict = .ok true ∨ ∃ fault, event.verdict = .error (.framing fault) := by
  rw [verdict]
  cases Visit.kinds.found event.content with
  | error fault => exact .inr ⟨fault, rfl⟩
  | ok found => exact .inl rfl

theorem Holding.verdict_ne (event : Holding) : event.verdict ≠ .ok false := by
  rcases event.verdict_cases with h | ⟨fault, h⟩ <;> rw [h] <;> exact nofun

/-- Whether the channel holds a broadcast that tells to initialise. -/
def holdsInit (channel : EventChannel) (host : Host) : Bool :=
  channel.holdsBroadcast && (channel.holding? host).any (·.tellsInit)

theorem holdsInit_of_none (hheld : channel.held = none) (host : Host) :
    channel.holdsInit host = false := by
  simp [holdsInit, holdsBroadcast, hheld]

/-! ## Claims -/

/-- The channel's manager of a source claims a record for reading. -/
structure Claims (channel : EventChannel) (source : Source) (host : Host) (event : Holding)
    (m : Mapping) (s : Slot) (channel' : EventChannel) (host' : Host) : Prop where
  on : (onSource source Manager.claimForReading).on channel host =
    (.ok (some event.slot), channel', host')
  reads : channel'.Reads source host' m event.slot s event.content
  object : m.me.object = event.object
  sequenceId : s.sequenceId = event.sequenceId
  seen : m.onto host' = host'

/-- What waiting may come to: claims, those that gave a broadcast that was skipped and
released among them, and perhaps in the end one that gave what is held. -/
inductive Waits : EventChannel → Host → List Holding → EventChannel → Host → Prop where
  | done (channel : EventChannel) (host : Host) : Waits channel host [] channel host
  /-- A claim gives nothing. -/
  | idle {channel channel' after : EventChannel} {host host' host'' : Host} {source : Source}
    {skipped : List Holding} {answer : Except Event.Error (Option Nat)}
    (hnone : ∀ k, answer ≠ .ok (some k))
    (hon : (onSource source Manager.claimForReading).on channel host = (answer, channel', host'))
    (h : Waits channel' host' skipped after host'') : Waits channel host skipped after host''
  /-- A broadcast is claimed, looked at and released. -/
  | skip {channel channel' after : EventChannel} {host host' host'' host''' : Host}
    {event : Holding} {skipped : List Holding} {m : Mapping} {s t : Slot}
    (hclaim : channel.Claims .broadcast host event m s channel' host') (ht : s.Reread t)
    (hrelease : (onSource .broadcast (Manager.release event.slot)).on channel'
      ((m.store event.slot t).onto host') = (.ok (), channel', host''))
    (h : Waits channel' host'' skipped after host''') :
    Waits channel host (event :: skipped) after host'''
  /-- An event is claimed, perhaps looked at, and held. -/
  | hold {channel channel' : EventChannel} {host host' : Host} {source : Source}
    {event : Holding} {m : Mapping} {s t : Slot}
    (hclaim : channel.Claims source host event m s channel' host') (ht : s.Reread t)
    (initialised : Bool) :
    Waits channel host []
      { channel' with held := some (source, event.slot), initialised := initialised }
      ((m.store event.slot t).onto host')

theorem kept_onSource {action : Action Manager Segment.Error α}
    {answer : Except Event.Error α} (h : (onSource source action).on channel host =
      (answer, channel', host')) :
    channel'.held = channel.held ∧ channel'.initialised = channel.initialised := by
  rw [on_onSource] at h
  cases h
  exact ⟨rfl, rfl⟩

theorem Reads.of_endpoint (h : channel.Reads source host m k s content)
    (hsame : channel'.endpoint = channel.endpoint) : channel'.Reads source host m k s content :=
  ⟨hsame ▸ h.mapping, h.reads⟩

theorem claim_cases (source : Source) (channel : EventChannel) (host : Host) :
    (∃ answer channel' host', (onSource source Manager.claimForReading).on channel host =
        (answer, channel', host') ∧ ∀ k, answer ≠ .ok (some k)) ∨
      ∃ event m s channel' host', channel.Claims source host event m s channel' host' := by
  cases h : channel.endpoint.mapping? source host with
  | none =>
    refine .inl ⟨_, _, _, (on_onSource source Manager.claimForReading channel host), ?_⟩
    rw [Manager.claimForReading, Endpoint.on_guarded_of_detached h]
    exact nofun
  | some m =>
    have hkept := Mapping.kept_claimForReading m
    have hon : (onSource source Manager.claimForReading).on channel host =
        (.ok m.claimForReading.1,
          { channel with endpoint := channel.endpoint.follow source m.claimForReading.2.me },
          m.claimForReading.2.onto host) :=
      on_guarded h (Program.on_claimForReading m) hkept.me.object
    cases hclaim : m.claimForReading.1 with
    | none =>
      rw [hclaim] at hon
      exact .inl ⟨_, _, _, hon, nofun⟩
    | some k =>
      rw [hclaim] at hon
      obtain ⟨s, hs, hholds⟩ := Mapping.exists_reads_claimed hclaim
      let event : Holding := ⟨m.claimForReading.2.me.object, k, s.sequenceId,
        m.claimForReading.2.segment.bytesAt k 0 s.writePos⟩
      exact .inr ⟨event, _, s, _, _, hon, ⟨Endpoint.mapping?_follow h hkept, hs, hholds, rfl⟩,
        rfl, rfl, Host.store_store ..⟩

namespace Claims

theorem kept (h : channel.Claims source host event m s channel' host') :
    channel'.held = channel.held ∧ channel'.initialised = channel.initialised :=
  kept_onSource h.on

theorem exists_claimed (h : channel.Claims source host event m s channel' host') :
    ∃ m₀, channel.endpoint.mapping? source host = some m₀ ∧
      m₀.claimForReading = (some event.slot, m) ∧
      channel' = { channel with endpoint := channel.endpoint.follow source m.me } ∧
      host' = m.onto host := by
  have hon := h.on
  cases hm : channel.endpoint.mapping? source host with
  | none =>
    rw [on_onSource, Manager.claimForReading, Endpoint.on_guarded_of_detached hm] at hon
    cases hon
  | some m₀ =>
    have hkept := Mapping.kept_claimForReading m₀
    have hclaimed := hon.symm.trans (on_guarded hm (Program.on_claimForReading m₀)
      hkept.me.object)
    simp only [Prod.mk.injEq, Except.ok.injEq] at hclaimed
    obtain ⟨hslot, rfl, rfl⟩ := hclaimed
    cases h.reads.mapping.symm.trans (Endpoint.mapping?_follow hm hkept)
    exact ⟨m₀, rfl, Prod.ext hslot.symm rfl, rfl, rfl⟩

theorem holding? (h : channel.Claims source host event m s channel' host') (ht : s.Reread t)
    (initialised : Bool) :
    EventChannel.holding?
      { channel' with held := some (source, event.slot), initialised := initialised }
      ((m.store event.slot t).onto host') = some event := by
  refine holding?_eq_some_iff.mpr ⟨source, m.store event.slot t, t, rfl, ?_, h.object, ?_⟩
  · exact (h.reads.next ht).of_endpoint rfl
  · obtain ⟨_, _, rfl⟩ := ht
    exact h.sequenceId

end Claims

namespace Waits

theorem trans (h : Waits channel host skipped channel' host') (hheld : channel'.held = none)
    (h' : Waits channel' host' others after host'') :
    Waits channel host (skipped ++ others) after host'' := by
  induction h with
  | done => exact h'
  | idle hnone hon _ ih => exact .idle hnone hon (ih hheld h')
  | skip hclaim ht hrelease _ ih => exact .skip hclaim ht hrelease (ih hheld h')
  | hold => cases hheld

theorem holding? (h : Waits channel host skipped after host') (hheld : channel.held = none)
    (hsome : after.held ≠ none) : ∃ event, after.holding? host' = some event := by
  induction h with
  | done => exact absurd hheld hsome
  | idle hnone hon _ ih => exact ih ((kept_onSource hon).1.trans hheld) hsome
  | skip hclaim ht hrelease _ ih =>
    exact ih ((kept_onSource hrelease).1.trans (hclaim.kept.1.trans hheld)) hsome
  | hold hclaim ht initialised => exact ⟨_, hclaim.holding? ht initialised⟩

end Waits

/-! ## What is skipped -/

/-- What waiting comes to, and what it has to do with broadcasts that tell to initialise:
these are what is skipped, once the channel was told so, and one that is held tells it. -/
structure Waited (channel : EventChannel) (host : Host) (skipped : List Holding)
    (after : EventChannel) (host' : Host) : Prop where
  waits : Waits channel host skipped after host'
  skips : ∀ event ∈ skipped, channel.initialised = true ∧ event.tellsInit = true
  told : after.initialised = (channel.initialised || after.holdsInit host')
  once : channel.initialised = true → after.holdsInit host' = false

theorem Waited.refl (hheld : channel.held = none) (host : Host) :
    channel.Waited host [] channel host := by
  have hnot := holdsInit_of_none hheld host
  exact ⟨.done channel host, nofun, by rw [hnot, Bool.or_false], fun _ => hnot⟩

/-- A wait that does not end in an event may go on. -/
theorem Waited.trans (h : channel.Waited host skipped channel' host') (hheld : channel'.held = none)
    (h' : channel'.Waited host' others after host'') :
    channel.Waited host (skipped ++ others) after host'' := by
  have hsame : channel'.initialised = channel.initialised := by
    rw [h.told, holdsInit_of_none hheld, Bool.or_false]
  refine ⟨h.waits.trans hheld h'.waits, fun event hevent => ?_, ?_, ?_⟩
  · rcases List.mem_append.mp hevent with hevent | hevent
    · exact h.skips event hevent
    · exact hsame ▸ h'.skips event hevent
  · rw [h'.told, hsame]
  · exact hsame ▸ h'.once

theorem Waited.of_idle (hheld : channel.held = none) {answer : Except Event.Error (Option Nat)}
    (hnone : ∀ k, answer ≠ .ok (some k))
    (hon : (onSource source Manager.claimForReading).on channel host = (answer, channel', host')) :
    channel.Waited host [] channel' host' ∧ channel'.held = none := by
  obtain ⟨hkept, hsame⟩ := kept_onSource hon
  have hheld' : channel'.held = none := hkept.trans hheld
  have hnot := holdsInit_of_none hheld' host'
  refine ⟨⟨.idle hnone hon (.done channel' host'), nofun, ?_, fun _ => hnot⟩, hheld'⟩
  rw [hsame, hnot, Bool.or_false]

theorem on_claim_of_vain {answer : Except Event.Error (Option Nat)}
    (hvain : ∀ k, answer ≠ .ok (some k))
    (hon : (onSource source Manager.claimForReading).on channel host = (answer, channel', host')) :
    ∃ told, ∀ next : Option Nat → Action EventChannel Event.Error Bool,
      next none = Pure.pure false →
        (onSource source Manager.claimForReading >>= next).on channel host =
          (told, channel', host') := by
  cases answer with
  | error cause => exact ⟨.error cause, fun next _ => Action.on_bind_error hon next⟩
  | ok answer =>
    cases answer with
    | some k => exact absurd rfl (hvain k)
    | none =>
      refine ⟨.ok false, fun next hnext => (Action.on_bind_ok hon next).trans ?_⟩
      rw [hnext]
      rfl

theorem Waited.of_hold (hclaim : channel.Claims source host event m s channel' host')
    (ht : s.Reread t) {initialised : Bool}
    (htold : initialised = (channel.initialised || (source == .broadcast && event.tellsInit)))
    (honce : channel.initialised = true → (source == .broadcast && event.tellsInit) = false) :
    channel.Waited host []
      { channel' with held := some (source, event.slot), initialised := initialised }
      ((m.store event.slot t).onto host') := by
  have hholds : holdsInit
      { channel' with held := some (source, event.slot), initialised := initialised }
      ((m.store event.slot t).onto host') = (source == .broadcast && event.tellsInit) := by
    rw [holdsInit, hclaim.holding? ht initialised]
    rfl
  refine ⟨.hold hclaim ht initialised, nofun, ?_, ?_⟩ <;> rw [hholds]
  · exact htold
  · exact honce

/-- An action by which a channel that holds nothing waits. After an answer in vain it holds
nothing still. -/
def Waiting (action : Action EventChannel Event.Error α) (vain : α) : Prop :=
  ∀ (channel : EventChannel) (host : Host), channel.held = none →
    ∃ skipped answer after host', action.on channel host = (answer, after, host') ∧
      channel.Waited host skipped after host' ∧ (answer = .ok vain → after.held = none)

theorem Waiting.pure (vain : α) : Waiting (Pure.pure vain) vain :=
  fun channel host hheld => ⟨[], _, channel, host, rfl, .refl hheld host, fun _ => hheld⟩

theorem waiting_pollData : Waiting pollData false := by
  intro channel host hheld
  rcases claim_cases .data channel host with ⟨answer, channel', host', hon, hvain⟩ |
    ⟨event, m, s, channel', host', hclaim⟩
  · obtain ⟨hwaited, hheld'⟩ := Waited.of_idle hheld hvain hon
    obtain ⟨told, htold⟩ := on_claim_of_vain hvain hon
    exact ⟨[], told, channel', host', htold _ rfl, hwaited, fun _ => hheld'⟩
  · have htold : channel'.initialised =
        (channel.initialised || (Source.data == .broadcast && event.tellsInit)) := by
      rw [hclaim.kept.2]
      exact (Bool.or_false _).symm
    have hwaited := Waited.of_hold hclaim (.refl s) htold fun _ => rfl
    rw [Mapping.store_self hclaim.reads.reads.slot, hclaim.seen] at hwaited
    exact ⟨[], .ok true, _, _, Action.on_bind_ok hclaim.on _, hwaited, nofun⟩

theorem Claims.on_kinds (h : channel.Claims .broadcast host event m s channel' host') :
    ∃ t, s.Reread t ∧ ∀ next : List Fragment.Kind → Action EventChannel Event.Error Bool,
      (do
        hold .broadcast event.slot
        next (← scan .broadcast event.slot .kinds)).on channel' host' =
      match Visit.kinds.found event.content with
      | .error fault =>
        (.error (.framing fault), { channel' with held := some (.broadcast, event.slot) },
          (m.store event.slot t).onto host')
      | .ok found =>
        (next found).on { channel' with held := some (.broadcast, event.slot) }
          ((m.store event.slot t).onto host') := by
  have hreads : Reads { channel' with held := some (.broadcast, event.slot) } .broadcast host' m
      event.slot s event.content := h.reads.of_endpoint rfl
  obtain ⟨t, ht, hscan⟩ := hreads.on_scan Visit.kinds
  refine ⟨t, ht, fun next => (Action.on_bind_ok (Action.on_change _ channel' host') _).trans ?_⟩
  cases hfound : Visit.kinds.found event.content with
  | error fault =>
    rw [hfound] at hscan
    exact Action.on_bind_error hscan _
  | ok found =>
    rw [hfound] at hscan
    exact Action.on_bind_ok hscan _

/-- A broadcast that was claimed is held, unless it tells to initialise and one did before:
then it is released, and the channel goes on as if nothing had been claimed. -/
theorem Claims.on_pollBroadcasts (h : channel.Claims .broadcast host event m s channel' host')
    (hheld : channel.held = none) : ∃ t, s.Reread t ∧
      ((∃ initialised, initialised = (channel.initialised || event.tellsInit) ∧
        (channel.initialised = true → event.tellsInit = false) ∧
        ∀ claims, (pollBroadcasts (claims + 1)).on channel host =
          (event.verdict,
            { channel' with held := some (.broadcast, event.slot), initialised := initialised },
            (m.store event.slot t).onto host')) ∨
      (channel.initialised = true ∧ event.tellsInit = true ∧
        ∀ claims, (pollBroadcasts (claims + 1)).on channel host =
          (pollBroadcasts claims).on channel'
            ((m.store event.slot ((m.released t).touched m.now)).onto host'))) := by
  obtain ⟨hkept, hsame⟩ := h.kept
  obtain ⟨t, ht, hkinds⟩ := h.on_kinds
  refine ⟨t, ht, ?_⟩
  cases hfound : Visit.kinds.found event.content with
  | error fault =>
    simp only [hfound] at hkinds
    have htells : event.tellsInit = false := by
      rw [Holding.tellsInit, hfound]
      rfl
    have hverdict : event.verdict = .error (.framing fault) := by
      rw [Holding.verdict, hfound]
      rfl
    rw [hverdict]
    exact .inl ⟨channel'.initialised, by rw [htells, hsame, Bool.or_false],
      fun _ => htells, fun claims => (Action.on_bind_ok h.on _).trans (hkinds _)⟩
  | ok found =>
    simp only [hfound] at hkinds
    have htells : event.tellsInit = found.contains (.system .init) := by
      rw [Holding.tellsInit, hfound]
      rfl
    have hverdict : event.verdict = .ok true := by
      rw [Holding.verdict, hfound]
      rfl
    rw [hverdict]
    cases hinit : found.contains (.system .init) with
    | false =>
      rw [hinit] at htells
      refine .inl ⟨channel'.initialised, by rw [htells, hsame, Bool.or_false],
        fun _ => htells, fun claims => (Action.on_bind_ok h.on _).trans ((hkinds _).trans ?_)⟩
      simp only [hinit, Bool.false_eq_true, if_false]
      rfl
    | true =>
      rw [hinit] at htells
      cases hinitialised : channel'.initialised with
      | false =>
        have hbefore : channel.initialised = false := hsame ▸ hinitialised
        refine .inl ⟨true, by rw [htells, Bool.or_true],
          fun htrue => absurd htrue (by simp [hbefore]), fun claims =>
          (Action.on_bind_ok h.on _).trans ((hkinds _).trans ?_)⟩
        simp only [hinit, if_true, Action.on_bind_ok (Action.on_own _ _), hinitialised,
          Bool.false_eq_true, if_false]
        rfl
      | true =>
        refine .inr ⟨hsame ▸ hinitialised, htells, fun claims =>
          (Action.on_bind_ok h.on _).trans ((hkinds _).trans ?_)⟩
        -- The channel has let go of the slot, but its manager has not.
        obtain ⟨endpoint, held, initialised⟩ := channel'
        obtain ⟨rfl, rfl⟩ : held = none ∧ initialised = true := ⟨hkept.trans hheld, hinitialised⟩
        simp only [hinit, if_true, Action.on_bind_ok (Action.on_own _ _)]
        exact (Action.on_bind_ok (Action.on_change _ _ _) _).trans
          (Action.on_bind_ok (h.reads.on_release ht) _)

/-- A claim settles the matter, however many may follow, or it gives a broadcast that is
skipped. -/
theorem pollBroadcasts_cases (hheld : channel.held = none) (host : Host) :
    (∃ answer after host',
      (∀ claims, (pollBroadcasts (claims + 1)).on channel host = (answer, after, host')) ∧
      channel.Waited host [] after host' ∧ (answer = .ok false → after.held = none)) ∨
    ∃ event m s t channel' host', channel.Claims .broadcast host event m s channel' host' ∧
      s.Reread t ∧ channel.initialised = true ∧ event.tellsInit = true ∧
      ∀ claims, (pollBroadcasts (claims + 1)).on channel host = (pollBroadcasts claims).on channel'
        ((m.store event.slot ((m.released t).touched m.now)).onto host') := by
  rcases claim_cases .broadcast channel host with ⟨answer, channel', host', hon, hvain⟩ |
    ⟨event, m, s, channel', host', hclaim⟩
  · obtain ⟨hwaited, hheld'⟩ := Waited.of_idle hheld hvain hon
    obtain ⟨told, htold⟩ := on_claim_of_vain hvain hon
    exact .inl ⟨told, channel', host', fun claims => htold _ rfl, hwaited, fun _ => hheld'⟩
  · obtain ⟨t, ht, ⟨initialised, htold, honce, hon⟩ | ⟨hbefore, htells, hon⟩⟩ :=
      hclaim.on_pollBroadcasts hheld
    · exact .inl ⟨_, _, _, hon, .of_hold hclaim ht htold honce, fun h =>
        absurd h event.verdict_ne⟩
    · exact .inr ⟨_, _, _, t, _, _, hclaim, ht, hbefore, htells, hon⟩

theorem waiting_pollBroadcasts (claims : Nat) : Waiting (pollBroadcasts claims) false := by
  induction claims with
  | zero => exact .pure false
  | succ claims ih =>
    intro channel host hheld
    rcases pollBroadcasts_cases hheld host with ⟨answer, after, host', hon, hwaited, hvain⟩ |
      ⟨event, m, s, t, channel', host', hclaim, ht, hbefore, htells, hon⟩
    · exact ⟨[], answer, after, host', hon claims, hwaited, hvain⟩
    · obtain ⟨hkept, hsame⟩ := hclaim.kept
      obtain ⟨skipped, answer, after, host'', hrest, hwaited, hvain⟩ := ih channel'
        ((m.store event.slot ((m.released t).touched m.now)).onto host') (hkept.trans hheld)
      have hwaits := Waits.skip hclaim ht (hclaim.reads.on_release ht) hwaited.waits
      refine ⟨event :: skipped, answer, after, host'', (hon claims).trans hrest,
        ⟨hwaits, fun other hother => ?_, ?_, ?_⟩, hvain⟩
      · rcases List.mem_cons.mp hother with rfl | hother
        · exact ⟨hbefore, htells⟩
        · exact ⟨hbefore, (hwaited.skips other hother).2⟩
      · rw [hwaited.told, hsame]
      · exact fun htrue => hwaited.once (hsame.trans htrue)

theorem on_pollBroadcast {manager : Manager} (h : channel.endpoint.broadcast = some manager)
    (host : Host) : pollBroadcast.on channel host =
      (pollBroadcasts (manager.slotCount host + 1)).on channel host := by
  rw [pollBroadcast, Action.on_bind_ok (Action.on_own channel host), h]
  exact Action.on_bind_ok (Action.on_ask _ channel host) _

theorem waiting_pollBroadcast : Waiting pollBroadcast false := by
  intro channel host hheld
  cases hbroadcast : channel.endpoint.broadcast with
  | none =>
    refine ⟨[], .ok false, channel, host, ?_, .refl hheld host, fun _ => hheld⟩
    rw [pollBroadcast, Action.on_bind_ok (Action.on_own channel host), hbroadcast]
    rfl
  | some manager =>
    obtain ⟨skipped, answer, after, host', hon, hrest⟩ :=
      waiting_pollBroadcasts (manager.slotCount host + 1) channel host hheld
    exact ⟨skipped, answer, after, host', (on_pollBroadcast hbroadcast host).trans hon, hrest⟩

theorem Waiting.bind {β : Type} {action : Action EventChannel Event.Error α} {vain : α}
    {next : α → Action EventChannel Event.Error β} {vain' : β} (h : Waiting action vain)
    (hvain : Waiting (next vain) vain')
    (hsome : ∀ answer, answer ≠ vain → ∃ told, next answer = Pure.pure told ∧ told ≠ vain') :
    Waiting (action >>= next) vain' := by
  classical
  intro channel host hheld
  obtain ⟨skipped, answer, after, host', hon, hwaited, hempty⟩ := h channel host hheld
  cases answer with
  | error cause => exact ⟨skipped, _, after, host', Action.on_bind_error hon _, hwaited, nofun⟩
  | ok answer =>
    by_cases hanswer : answer = vain
    · subst hanswer
      obtain ⟨others, answer', after', host'', hon', hwaited', hempty'⟩ :=
        hvain after host' (hempty rfl)
      exact ⟨skipped ++ others, answer', after', host'', (Action.on_bind_ok hon _).trans hon',
        hwaited.trans (hempty rfl) hwaited', hempty'⟩
    · obtain ⟨told, hnext, htold⟩ := hsome answer hanswer
      refine ⟨skipped, .ok told, after, host', (Action.on_bind_ok hon _).trans ?_, hwaited,
        fun h => absurd (Except.ok.inj h) htold⟩
      rw [hnext]
      rfl

theorem waiting_poll (broadcastOnly : Bool) : Waiting (poll broadcastOnly) none := by
  have hended : Waiting (do
      let ended ← Action.ask fun channel host => channel.endpoint.isEndOfData host
      return if ended then some false else none : Action EventChannel Event.Error (Option Bool))
        none :=
    fun channel host hheld => ⟨[], _, channel, host, rfl, .refl hheld host, fun _ => hheld⟩
  have hfound : ∀ (answer : Bool) (rest : Action EventChannel Event.Error (Option Bool)),
      answer ≠ false → ∃ told, (if answer = true then Pure.pure (some true) else rest) =
        Pure.pure told ∧ told ≠ none := by
    intro answer rest hanswer
    exact ⟨some true, if_pos (Bool.eq_true_of_not_eq_false hanswer), nofun⟩
  refine waiting_pollBroadcast.bind ?_ fun answer hanswer => hfound answer _ hanswer
  cases broadcastOnly with
  | true => exact hended
  | false => exact waiting_pollData.bind hended fun answer hanswer => hfound answer _ hanswer

theorem Waiting.attempts {attempt : Action EventChannel Event.Error (Option α)}
    (h : Waiting attempt none) (sleeps : List Nat) :
    Waiting (Poll.attempts attempt sleeps) none := by
  induction sleeps with
  | nil => exact h
  | cons sleep sleeps ih =>
    refine h.bind ih fun answer hanswer => ?_
    obtain ⟨found, rfl⟩ := Option.ne_none_iff_exists'.mp hanswer
    exact ⟨some found, rfl, nofun⟩

/-- **What comes of waiting.** A channel that holds nothing and waits makes claims, and
either it holds nothing in the end or what it claimed last. What else it claimed were
broadcasts that tell to initialise, after it was told so; it has looked at them and
released them. From the first such broadcast that it holds on, it was told. -/
theorem Use.waited_await {broadcastOnly : Bool} {timeout : Nat} {answer : Except Event.Error Reply}
    (hon : (Use.await broadcastOnly timeout).perform.on channel host = (answer, after, host'))
    (hheld : channel.held = none) : ∃ skipped, channel.Waited host skipped after host' := by
  obtain ⟨skipped, found, after', host'', htried, hwaited, -⟩ :=
    (waiting_poll broadcastOnly).attempts (Poll.schedule timeout) channel host hheld
  have hawait : ∃ told, (EventChannel.await broadcastOnly timeout).on channel host =
      (told, after', host'') := by
    rw [EventChannel.await, Action.on_bind_ok (Action.on_own channel host), hheld,
      Poll.await_eq_attempts]
    cases found with
    | error cause => exact ⟨_, Action.on_bind_error htried _⟩
    | ok found => exact ⟨_, Action.on_bind_ok htried _⟩
  obtain ⟨told, hawait⟩ := hawait
  rw [Use.perform, Action.on_map, hawait] at hon
  cases hon
  exact ⟨skipped, hwaited⟩

theorem Use.on_await_held {hand : Source × Nat} (hheld : channel.held = some hand)
    (broadcastOnly : Bool) (timeout : Nat) (host : Host) :
    (Use.await broadcastOnly timeout).perform.on channel host =
      (.ok (.flag true), channel, host) := by
  rw [Use.perform, Action.on_map, EventChannel.await,
    Action.on_bind_ok (Action.on_own channel host), hheld]
  rfl

theorem Use.exists_skipped {use : Use} {answer : Except Event.Error Reply}
    (hneeds : use.needsEvent = false)
    (hon : use.perform.on channel host = (answer, after, host')) :
    ∃ skipped, Waits channel host skipped after host' ∧
      ∀ event ∈ skipped, channel.initialised = true ∧ event.tellsInit = true := by
  obtain ⟨broadcastOnly, timeout, rfl⟩ := Use.exists_await hneeds
  cases hheld : channel.held with
  | none =>
    obtain ⟨skipped, hwaited⟩ := Use.waited_await hon hheld
    exact ⟨skipped, hwaited.waits, hwaited.skips⟩
  | some hand =>
    cases (Use.on_await_held hheld broadcastOnly timeout host).symm.trans hon
    exact ⟨[], .done channel host, nofun⟩

end EventChannel

end SlotTransport
