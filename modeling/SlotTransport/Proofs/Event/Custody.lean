/-
What an event channel answers from. A channel that has a slot in hand stands somewhere
(`Stands`): its manager is attached to an object and holds the slot there, or it does so
no more. What others do may take the slot from it, but cannot give it back
(`Stands.of_others`). So the channel answers from the record that it claimed last, or
finds that it was lost (`Run.custody`).
-/
import SlotTransport.Proofs.Event.Scene
import SlotTransport.Proofs.Event.Waiting
import SlotTransport.Proofs.World.Continuity

namespace SlotTransport

open Segment Event

namespace World

variable {w w' : World} {seats : Seats} {endpoint : Endpoint}

theorem endpoint?_congr (h : w.endpoint? seats = some endpoint)
    (hkept : ∀ i ∈ seats.all, ∀ manager, w.manager? i = some manager →
      w'.manager? i = some manager) : w'.endpoint? seats = some endpoint := by
  obtain ⟨hdata, hbroadcast⟩ := endpoint?_eq_some_iff.mp h
  refine endpoint?_eq_some_iff.mpr ⟨hkept _ List.mem_cons_self _ hdata, ?_⟩
  cases hi : seats.broadcast with
  | none => rw [← hbroadcast, hi]; rfl
  | some i =>
    rw [hi] at hbroadcast
    obtain ⟨manager, hmanager, hsome⟩ := Option.map_eq_some_iff.mp hbroadcast.symm
    have hmem : i ∈ seats.all := List.mem_cons_of_mem _ (Option.mem_toList.mpr hi)
    rw [hmanager, Option.map_some, hkept i hmem manager hsome.symm]
    rfl

end World

namespace Scene

open EventChannel (Holding Use Look Reply)

/-! ## Claims of a run -/

/-- Whether the channel claims a record to hold: it had nothing in hand before, and has
something after it. -/
def Moment.claims (c : Nat) (moment : Moment) : Bool :=
  moment.before.held? c == none && moment.after.held? c != none

/-- The record that the channel claimed last. -/
def claimed? (c : Nat) : List Moment → Option Holding
  | [] => none
  | moment :: past => if moment.claims c then moment.after.holding? c else claimed? c past

/-- What has happened since the channel claimed last. -/
def since (c : Nat) (past : List Moment) : List Moment :=
  past.takeWhile fun moment => !moment.claims c

/-- A call uses the channel, or lets none of its managers do anything. -/
def Moment.Spares (c : Nat) (moment : Moment) : Prop :=
  ∀ listener ∈ moment.before.listeners[c]?, ∀ i ∈ listener.seats.all,
    i ∈ moment.before.actors moment.call → moment.call.uses c = true

/-- The channel's managers are used only through the channel, and nobody else attached
where the one with the slot in hand is goes by its id. -/
structure Moment.Reserves (c : Nat) (moment : Moment) : Prop where
  spares : moment.Spares c
  singular : ∀ listener ∈ moment.before.listeners[c]?, ∀ hand ∈ listener.held,
    ∀ i ∈ listener.seats.seat? hand.1, ∀ me ∈ moment.before.world.attachment? i,
      moment.before.world.Singular me.object i me.id

instance (c : Nat) (moment : Moment) : Decidable (moment.Spares c) := by
  unfold Moment.Spares
  infer_instance

instance (c : Nat) (moment : Moment) : Decidable (moment.Reserves c) :=
  decidable_of_iff (_ ∧ _) ⟨fun h => ⟨h.1, h.2⟩, fun h => ⟨h.spares, h.singular⟩⟩

variable {past : List Moment} {s : Scene} {call : Call} {c k i : Nat} {channel : EventChannel}
  {source : Source} {me : Attachment} {t : Slot} {event : Holding}

/-! ## Where a channel stands -/

/-- The channel has a slot in hand, of the object that its manager is attached to. -/
structure Stands (s : Scene) (c : Nat) (channel : EventChannel) (source : Source) (k i : Nat)
    (me : Attachment) (t : Slot) : Prop where
  sits : s.channel? c = some channel
  held : channel.held = some (source, k)
  seat : ∃ listener, s.listeners[c]? = some listener ∧ listener.seats.seat? source = some i
  attached : s.world.attachment? i = some me
  slot : s.world.slot? me.object k = some t

namespace Stands

theorem exists_mapping (h : s.Stands c channel source k i me t) (hw : s.world.Coherent) :
    ∃ m : Mapping, channel.endpoint.mapping? source s.world.host = some m ∧ m.me = me ∧
      m.slots[k]? = some t ∧ s.world.segment? me.object = some m.segment := by
  obtain ⟨listener, hlistener, hseat⟩ := h.seat
  obtain ⟨seats, hlistener', hendpoint⟩ := channel?_eq_some_iff.mp h.sits
  cases hlistener.symm.trans hlistener'
  obtain ⟨manager, hmanager, hme⟩ := Option.bind_eq_some_iff.mp h.attached
  obtain ⟨segment, hsegment, hmapping⟩ := hw.mapping? hmanager hme
  refine ⟨⟨me, s.world.now i, segment⟩, ?_, rfl, ?_, hsegment⟩
  · rw [Endpoint.mapping?, World.manager?_of_seat? hendpoint hseat, hmanager, Option.bind_some,
      hmapping]
  · have hslot := h.slot
    rw [World.slot?, hsegment, Option.bind_some] at hslot
    exact hslot

/-- The manager holds the slot: the channel holds the record that is in it. -/
theorem holding? (h : s.Stands c channel source k i me t) (hrun : Run past s)
    (hstate : t.state = .reading) (howner : t.owner = me.id) :
    s.holding? c = some ⟨me.object, k, t.sequenceId, t.content⟩ := by
  obtain ⟨m, hm, rfl, hslot, hsegment⟩ := h.exists_mapping hrun.coherent
  obtain ⟨_, hworld⟩ := hrun.world
  have hsound := (hworld.sound (World.party?_of_segment? hsegment)).slot hslot
  refine holding?_eq_some_iff.mpr ⟨channel, h.sits, ?_⟩
  exact EventChannel.holding?_eq_some_iff.mpr ⟨source, m, t, h.held,
    ⟨hm, hslot, ⟨hstate, howner⟩, bytesAt_eq_content hslot hsound.written⟩, rfl, rfl⟩

theorem exists_lost (h : s.Stands c channel source k i me t) (hw : s.world.Coherent)
    (hnot : ¬ (t.state = .reading ∧ t.owner = me.id)) :
    ∃ m : Mapping, channel.Lost source s.world.host m k ∧ m.onto s.world.host = s.world.host := by
  obtain ⟨m, hm, rfl, hslot, hsegment⟩ := h.exists_mapping hw
  refine ⟨m, ⟨h.held, hm, t, hslot, hnot⟩, ?_⟩
  obtain ⟨hlt, hobject⟩ := List.getElem?_eq_some_iff.mp hsegment
  rw [Mapping.onto, Host.store, ← hobject, List.set_getElem_self]

theorem not_holding? (h : s.Stands c channel source k i me t) (hw : s.world.Coherent)
    (hnot : ¬ (t.state = .reading ∧ t.owner = me.id)) : s.holding? c = none := by
  refine Option.eq_none_iff_forall_ne_some.mpr fun event hevent => hnot ?_
  obtain ⟨m, hm, rfl, hslot, -⟩ := h.exists_mapping hw
  obtain ⟨channel', hchannel, hholding⟩ := Scene.holding?_eq_some_iff.mp hevent
  cases h.sits.symm.trans hchannel
  obtain ⟨source', m', t', hheld, hreads, -⟩ := EventChannel.holding?_eq_some_iff.mp hholding
  cases h.held.symm.trans hheld
  cases hm.symm.trans hreads.mapping
  cases hslot.symm.trans hreads.reads.slot
  exact hreads.reads.holds

theorem of_holding? (hrun : Run past s) (h : s.holding? c = some event) :
    ∃ channel source i me t, s.Stands c channel source event.slot i me t ∧
      me.object = event.object ∧ t.state = .reading ∧ t.owner = me.id ∧
      t.sequenceId = event.sequenceId ∧ t.content = event.content := by
  obtain ⟨channel, hchannel, hholding⟩ := holding?_eq_some_iff.mp h
  obtain ⟨source, seats, i, me, t, hheld, hlistener, hseat, hme, hslot, hreading, howner, hid,
    hcontent⟩ := hrun.exists_held hchannel hholding
  obtain ⟨hattached, hobject⟩ := World.member_eq_some_iff.mp hme
  exact ⟨channel, source, i, me, t, ⟨hchannel, hheld, ⟨_, hlistener, hseat⟩, hattached,
    hobject ▸ hslot⟩, hobject, hreading, howner, hid, hcontent⟩

/-- What others do leaves the slot in the manager's hands as it was, or takes it away. -/
theorem of_others (h : s.Stands c channel source k i me t) (hrun : Run past s)
    (hreserved : (⟨s, call⟩ : Moment).Reserves c) (hothers : call.uses c = false) :
    ∃ t', (s.step call).Stands c channel source k i me t' ∧
      (t'.state = .reading → t'.owner = me.id → t' = t) := by
  obtain ⟨listener, hlistener, hseat⟩ := h.seat
  obtain ⟨seats, hlistener', hendpoint⟩ := channel?_eq_some_iff.mp h.sits
  cases hlistener.symm.trans hlistener'
  have hlistener'' := listener_of_others hlistener hothers
  obtain ⟨calls, hcalls⟩ := exists_enacts s call
  obtain ⟨earlier, hworld⟩ := hrun.world
  have hunused : ∀ j ∈ seats.all, ∀ other ∈ calls, other.manager? ≠ some j := by
    intro j hj other hother hmanager
    have huses := hreserved.spares _ hlistener j hj (hcalls.actors other hother j hmanager)
    rw [hothers] at huses
    cases huses
  have hi : i ∈ seats.all := Seats.mem_all_of_seat? hseat
  have hkept : ∀ j ∈ seats.all, ∀ manager, s.world.manager? j = some manager →
      (s.step call).world.manager? j = some manager := by
    intro j hj manager hmanager
    rw [hcalls.world earlier]
    exact World.manager?_history_of_ne hmanager (hunused j hj) earlier
  obtain ⟨manager, hmanager, hme⟩ := Option.bind_eq_some_iff.mp h.attached
  obtain ⟨t', ht'⟩ := World.exists_slot?_history hworld h.slot calls
  have hafter : (s.step call).world.slot? me.object k = some t' := by
    rw [hcalls.world earlier]
    exact ht'
  refine ⟨t', ⟨channel?_eq_some_iff.mpr ⟨seats, hlistener'',
    World.endpoint?_congr hendpoint hkept⟩, h.held, ⟨_, hlistener'', hseat⟩, ?_, hafter⟩, ?_⟩
  · rw [World.attachment?, hkept i hi manager hmanager]
    exact hme
  · intro hstate howner
    have hsingular : s.world.Singular me.object i me.id :=
      hreserved.singular _ hlistener _ h.held i hseat me h.attached
    refine World.slot?_of_others hworld hsingular (hunused i hi) hcalls.brief h.slot ht' ?_ howner
    simp [Slot.isHeld, hstate]

end Stands

/-! ## What a run makes of it -/

/-- What a channel claims it holds. -/
theorem exists_holding_of_claims (h : (⟨s, call⟩ : Moment).claims c = true) :
    ∃ event, (s.step call).holding? c = some event := by
  simp only [Moment.claims, Moment.after, Bool.and_eq_true, beq_iff_eq, bne_iff_ne] at h
  obtain ⟨hnone, hsome⟩ := h
  rcases listener_cases s call c with hsame | ⟨-, seats, hengaged⟩ | ⟨use, channel, rfl, hchannel⟩
  · rw [held?, hsame] at hsome
    exact absurd hnone hsome
  · rw [held?, hengaged] at hsome
    exact absurd rfl hsome
  · rcases hon : use.perform.on channel s.world.host with ⟨answer, after, host⟩
    obtain ⟨-, hafter, hhost⟩ := channel?_step_use hchannel use hon
    rw [held?_of_channel? hchannel] at hnone
    rw [held?_of_channel? hafter] at hsome
    cases hneeds : use.needsEvent with
    | true =>
      cases (Use.on_of_nothing hneeds hnone).symm.trans hon
      exact absurd hnone hsome
    | false =>
      obtain ⟨broadcastOnly, timeout, rfl⟩ := Use.exists_await hneeds
      obtain ⟨skipped, hwaited⟩ := Use.waited_await hon hnone
      obtain ⟨event, hevent⟩ := hwaited.waits.holding? hnone hsome
      exact ⟨event, holding?_eq_some_iff.mpr ⟨after, hafter, hhost ▸ hevent⟩⟩

/-- The channel has the slot of a record in hand, and has lost it. -/
def Loses (s : Scene) (c : Nat) (event : Holding) : Prop :=
  ∃ channel source i me t, s.Stands c channel source event.slot i me t ∧
    me.object = event.object ∧ ¬ (t.state = .reading ∧ t.owner = me.id)

theorem Loses.holding? (h : s.Loses c event) (hw : s.world.Coherent) : s.holding? c = none := by
  obtain ⟨_, _, _, _, _, hstands, -, hnot⟩ := h
  exact hstands.not_holding? hw hnot

theorem holding?_step_use (h : s.holding? c = some event) {use : Use}
    (hheld : (s.step (.use c use)).held? c ≠ none) :
    (s.step (.use c use)).holding? c = some event := by
  obtain ⟨channel, hchannel, hholding⟩ := holding?_eq_some_iff.mp h
  obtain ⟨source, _, _, hhand, -⟩ := EventChannel.holding?_eq_some_iff.mp hholding
  cases use with
  | await broadcastOnly timeout =>
    rw [step_use_idle hchannel (Use.on_await_held hhand broadcastOnly timeout s.world.host)]
    exact h
  | look look => exact (reply?_look h look).2
  | release =>
    obtain ⟨host, hrelease⟩ := EventChannel.exists_release hholding
    have hon : Use.release.perform.on channel s.world.host =
        (.ok .released, { channel with held := none }, host) := by
      rw [Use.perform, Action.on_map, hrelease]
      rfl
    rw [held?_of_channel? (channel?_step_use hchannel .release hon).2.1] at hheld
    exact absurd rfl hheld

theorem Loses.after_use (h : s.Loses c event) (hw : s.world.Coherent) {use : Use}
    (hheld : (s.step (.use c use)).held? c ≠ none) : (s.step (.use c use)).Loses c event := by
  obtain ⟨channel, source, i, me, t, hstands, hobject, hnot⟩ := h
  cases hneeds : use.needsEvent with
  | true =>
    obtain ⟨m, hlost, -⟩ := hstands.exists_lost hw hnot
    have hafter := (channel?_step_use hstands.sits use (Use.on_of_lost hneeds hlost)).2.1
    rw [held?_of_channel? hafter] at hheld
    exact absurd rfl hheld
  | false =>
    obtain ⟨broadcastOnly, timeout, rfl⟩ := Use.exists_await hneeds
    have hidle := Use.on_await_held hstands.held broadcastOnly timeout s.world.host
    rw [step_use_idle hstands.sits hidle]
    exact ⟨channel, source, i, me, t, hstands, hobject, hnot⟩

/-- After a call that leaves something in its hands, a channel that held a record holds it
still, or has lost it. -/
theorem Run.holding?_step (hrun : Run past s) (h : s.holding? c = some event)
    (hreserved : (⟨s, call⟩ : Moment).Reserves c) (hheld : (s.step call).held? c ≠ none) :
    (s.step call).holding? c = some event ∨ (s.step call).Loses c event := by
  cases huses : call.uses c with
  | true =>
    obtain ⟨use, rfl⟩ := Call.uses_iff.mp huses
    exact .inl (holding?_step_use h hheld)
  | false =>
    obtain ⟨channel, source, i, me, t, hstands, hobject, hstate, howner, hid, hcontent⟩ :=
      Stands.of_holding? hrun h
    obtain ⟨t', hstands', hsame⟩ := hstands.of_others hrun hreserved huses
    by_cases hmine : t'.state = .reading ∧ t'.owner = me.id
    · obtain rfl := hsame hmine.1 hmine.2
      left
      rw [hstands'.holding? (hrun.step call) hmine.1 hmine.2, hobject, hid, hcontent]
    · exact .inr ⟨channel, source, i, me, t', hstands', hobject, hmine⟩

/-- What a channel has lost does not come back. -/
theorem Run.loses_step (hrun : Run past s) (h : s.Loses c event)
    (hreserved : (⟨s, call⟩ : Moment).Reserves c) (hheld : (s.step call).held? c ≠ none) :
    (s.step call).Loses c event := by
  cases huses : call.uses c with
  | true =>
    obtain ⟨use, rfl⟩ := Call.uses_iff.mp huses
    exact h.after_use hrun.coherent hheld
  | false =>
    obtain ⟨channel, source, i, me, t, hstands, hobject, hnot⟩ := h
    obtain ⟨t', hstands', hsame⟩ := hstands.of_others hrun hreserved huses
    refine ⟨channel, source, i, me, t', hstands', hobject, fun hmine => hnot ?_⟩
    obtain rfl := hsame hmine.1 hmine.2
    exact hmine

/-- Where a channel is that has something in hand: it holds what it claimed last, as it has
all the time, or it has lost that. -/
structure Custody (past : List Moment) (s : Scene) (c : Nat) (event : Holding) : Prop where
  claimed : claimed? c past = some event
  kept : (s.holding? c = some event ∧
      ∀ moment ∈ since c past, moment.after.holding? c = some event) ∨
    (s.Loses c event ∧ ∃ moment ∈ since c past, moment.after.holding? c ≠ some event)

theorem Run.custody (h : Run past s) (hreserved : ∀ moment ∈ since c past, moment.Reserves c)
    (hheld : s.held? c ≠ none) : ∃ event, Custody past s c event := by
  induction h with
  | start => exact absurd rfl hheld
  | @step past s call h ih =>
    cases hclaims : (⟨s, call⟩ : Moment).claims c with
    | true =>
      -- The channel has just claimed, and nothing has happened since.
      obtain ⟨event, hevent⟩ := exists_holding_of_claims hclaims
      have hnothing : since c (⟨s, call⟩ :: past) = [] := by simp [since, hclaims]
      refine ⟨event, ?_, .inl ⟨hevent, ?_⟩⟩
      · rw [claimed?, if_pos hclaims]
        exact hevent
      · rw [hnothing]
        exact nofun
    | false =>
      have hsince : since c (⟨s, call⟩ :: past) = ⟨s, call⟩ :: since c past := by
        simp [since, hclaims]
      rw [hsince] at hreserved
      -- What the channel has in hand it had before, since it has not claimed it.
      have hbefore : s.held? c ≠ none := by
        intro hnone
        simp [Moment.claims, Moment.after, hnone, hheld] at hclaims
      obtain ⟨event, hclaimed, hkept⟩ :=
        ih (fun moment hmoment => hreserved moment (List.mem_cons_of_mem _ hmoment)) hbefore
      have hreserves := hreserved _ List.mem_cons_self
      refine ⟨event, ?_, ?_⟩
      · rw [claimed?, if_neg (by rw [hclaims]; exact Bool.false_ne_true)]
        exact hclaimed
      rw [hsince]
      rcases hkept with ⟨hholding, hall⟩ | ⟨hloses, moment, hmoment, hgone⟩
      · rcases h.holding?_step hholding hreserves hheld with hstill | hlost
        · exact .inl ⟨hstill, List.forall_mem_cons.mpr ⟨hstill, hall⟩⟩
        · refine .inr ⟨hlost, ⟨s, call⟩, List.mem_cons_self, ?_⟩
          have hnone := hlost.holding? (h.step call).coherent
          exact fun hsome => nomatch hnone.symm.trans hsome
      · exact .inr ⟨h.loses_step hloses hreserves hheld, moment,
          List.mem_cons_of_mem _ hmoment, hgone⟩

/-! ## What a channel answers -/

theorem step_nothingHeld (hchannel : s.channel? c = some channel) (hheld : channel.held = none)
    {use : Use} (hneeds : use.needsEvent = true) :
    s.reply? (.use c use) = some (.error .nothingHeld) ∧ s.step (.use c use) = s := by
  have hon : use.perform.on channel s.world.host =
      (.error .nothingHeld, channel, s.world.host) := Use.on_of_nothing hneeds hheld
  exact ⟨(channel?_step_use hchannel use hon).1, step_use_idle hchannel hon⟩

theorem Loses.step_lost (h : s.Loses c event) (hw : s.world.Coherent)
    (hchannel : s.channel? c = some channel) {use : Use} (hneeds : use.needsEvent = true) :
    s.reply? (.use c use) = some (.error (.lost event.slot)) ∧
      (s.step (.use c use)).world = s.world ∧
      (s.step (.use c use)).channel? c = some { channel with held := none } ∧
      ∃ source m, channel.held = some (source, event.slot) ∧
        channel.endpoint.mapping? source s.world.host = some m ∧ m.me.object = event.object := by
  obtain ⟨channel', source, i, me, t, hstands, hobject, hnot⟩ := h
  cases hstands.sits.symm.trans hchannel
  obtain ⟨m, hmapping, rfl, -⟩ := hstands.exists_mapping hw
  obtain ⟨m', hlost, hidle⟩ := hstands.exists_lost hw hnot
  have hon := Use.on_of_lost hneeds hlost
  rw [hidle] at hon
  obtain ⟨hreply, hafter, -⟩ := channel?_step_use hchannel use hon
  obtain ⟨seats, hlistener, hendpoint⟩ := channel?_eq_some_iff.mp hchannel
  refine ⟨hreply, ?_, hafter, source, m, hstands.held, hmapping, hobject⟩
  have hstep := (step_use hlistener hendpoint use hon).2
  rw [hstep]
  exact World.withEndpoint_self hendpoint s.world.host

theorem Run.step_release (hrun : Run past s) (hchannel : s.channel? c = some channel)
    (h : s.holding? c = some event) :
    s.reply? (.use c .release) = some (.ok .released) ∧
      (s.step (.use c .release)).channel? c = some { channel with held := none } ∧
      ∃ (source : Source) (m : Mapping) (t : Slot),
        channel.endpoint.mapping? source s.world.host = some m ∧
        s.world.segment? event.object = some m.segment ∧ m.slots[event.slot]? = some t ∧
        t.sequenceId = event.sequenceId ∧ t.content = event.content ∧
        (s.step (.use c .release)).world.slot? event.object event.slot =
          some ((m.released t).touched m.now) := by
  obtain ⟨channel', source, i, me, t, hstands, hobject, hstate, howner, hid, hcontent⟩ :=
    Stands.of_holding? hrun h
  cases hstands.sits.symm.trans hchannel
  obtain ⟨m, hmapping, rfl, hslot, hsegment⟩ := hstands.exists_mapping hrun.coherent
  have hreads : channel.Reads source s.world.host m event.slot t (m.segment.bytesAt event.slot 0
      t.writePos) := ⟨hmapping, hslot, ⟨hstate, howner⟩, rfl⟩
  have hon : Use.release.perform.on channel s.world.host = (.ok .released,
      { channel with held := none },
      (m.store event.slot ((m.released t).touched m.now)).onto s.world.host) := by
    rw [Use.perform, Action.on_map, hreads.on_release_held hstands.held]
    rfl
  obtain ⟨hreply, hafter, hhost⟩ := channel?_step_use hchannel .release hon
  rw [hobject] at hsegment
  refine ⟨hreply, hafter, source, m, t, hmapping, hsegment, hslot, hid, hcontent, ?_⟩
  obtain ⟨hlt, -⟩ := List.getElem?_eq_some_iff.mp hsegment
  have hstored : (m.store event.slot ((m.released t).touched m.now)).me.object = event.object :=
    hobject
  rw [World.slot?, World.segment?, hhost, Mapping.onto, Host.objects_store, hstored,
    List.getElem?_set_self hlt, Option.bind_some]
  exact hreads.reads.lookup _

end Scene

namespace EventChannel

open Scene (Run claimed? since)

/-- **A channel answers from the record that it claimed.** As long as, since its last claim,
its managers are used only through it and nobody else attached where the claiming one is goes
by its id: while the channel has had the record all the time, whatever else the others did, it
is told what is in the record, holds it still, and can release it. Once the slot was taken
away, whatever the others made of it, the next look or release says so; it changes nothing in
the world, the channel's manager stays attached, and the channel has nothing in hand then,
as the look or release after it says. -/
theorem answers_from_claimed {past : List Scene.Moment} {s : Scene} (hrun : Run past s) {c : Nat}
    {channel : EventChannel} (hchannel : s.channel? c = some channel)
    (hreserved : ∀ moment ∈ since c past, moment.Reserves c) :
    (channel.held = none → ∀ use : Use, use.needsEvent = true →
      s.reply? (.use c use) = some (.error .nothingHeld) ∧ s.step (.use c use) = s) ∧
    (channel.held ≠ none → ∃ event, claimed? c past = some event ∧
      ((∀ moment ∈ since c past, moment.after.holding? c = some event) →
        (∀ look, s.reply? (.use c (.look look)) =
            some ((look.tell event.content).mapError .framing) ∧
          (s.step (.use c (.look look))).holding? c = some event) ∧
        s.reply? (.use c .release) = some (.ok .released) ∧
        (s.step (.use c .release)).channel? c = some { channel with held := none } ∧
        ∃ (source : Source) (m : Mapping) (t : Slot),
          channel.endpoint.mapping? source s.world.host = some m ∧
          s.world.segment? event.object = some m.segment ∧ m.slots[event.slot]? = some t ∧
          t.sequenceId = event.sequenceId ∧ t.content = event.content ∧
          (s.step (.use c .release)).world.slot? event.object event.slot =
            some ((m.released t).touched m.now)) ∧
      ((∃ moment ∈ since c past, moment.after.holding? c ≠ some event) →
        ∀ use : Use, use.needsEvent = true →
          s.reply? (.use c use) = some (.error (.lost event.slot)) ∧
          (s.step (.use c use)).world = s.world ∧
          (s.step (.use c use)).channel? c = some { channel with held := none } ∧
          (∃ source m, channel.held = some (source, event.slot) ∧
            channel.endpoint.mapping? source s.world.host = some m ∧
            m.me.object = event.object) ∧
          ∀ next : Use, next.needsEvent = true →
            (s.step (.use c use)).reply? (.use c next) = some (.error .nothingHeld))) := by
  refine ⟨fun hheld use hneeds => Scene.step_nothingHeld hchannel hheld hneeds, fun hheld => ?_⟩
  rw [← Scene.held?_of_channel? hchannel] at hheld
  obtain ⟨event, hclaimed, hcustody⟩ := hrun.custody hreserved hheld
  refine ⟨event, hclaimed, fun hall => ?_, fun hgone use hneeds => ?_⟩
  · rcases hcustody with ⟨hholding, -⟩ | ⟨-, moment, hmoment, hnot⟩
    · exact ⟨fun look => Scene.reply?_look hholding look, hrun.step_release hchannel hholding⟩
    · exact absurd (hall moment hmoment) hnot
  · obtain ⟨moment, hmoment, hnot⟩ := hgone
    rcases hcustody with ⟨-, hall⟩ | ⟨hloses, -⟩
    · exact absurd (hall moment hmoment) hnot
    · obtain ⟨hreply, hworld, hafter, hattached⟩ :=
        hloses.step_lost hrun.coherent hchannel hneeds
      exact ⟨hreply, hworld, hafter, hattached,
        fun next hnext => (Scene.step_nothingHeld hafter rfl hnext).1⟩

/-- While a channel holds an event, the creator empties its slot and packs another: the
channel says that the slot was lost. -/
theorem answers_from_claimed_lost :
    let emit (run : UInt32) : Scene.Call :=
      .emit ⟨0, none, nofun⟩ .data (.new run 0 0 0) [] false .any
    let calls : List Scene.Call := [.world (.attach (.new 7 1 64) .manual),
      .world (.attach (.attachOnly 7) .manual), .engage ⟨1, none, nofun⟩, emit 1,
      .use 0 (.await false 0), .world (.perform 0 (.evict 0)), emit 2]
    let s := (Scene.run calls).2
    (∀ moment ∈ since 0 (Scene.run calls).1, moment.Reserves 0) ∧
      s.reply? (.use 0 (.look .header)) = some (.error (.lost 0)) ∧
      (s.step (.use 0 (.look .header))).reply? (.use 0 .release) = some (.error .nothingHeld) := by
  intro emit calls s
  have hfacts : s.channel? 0 ≠ none ∧ s.held? 0 ≠ none ∧
      (∀ moment ∈ since 0 (Scene.run calls).1, moment.Reserves 0) ∧
      (claimed? 0 (Scene.run calls).1).map (·.slot) = some 0 ∧
      ∃ moment ∈ since 0 (Scene.run calls).1, moment.after.holding? 0 = none := by
    decide +kernel
  obtain ⟨hsome, hheld, hreserved, hslot, moment, hmoment, hgone⟩ := hfacts
  obtain ⟨channel, hchannel⟩ := Option.ne_none_iff_exists'.mp hsome
  rw [Scene.held?_of_channel? hchannel] at hheld
  obtain ⟨event, hclaimed, -, hlost⟩ :=
    (answers_from_claimed (Scene.run_run calls) hchannel hreserved).2 hheld
  obtain ⟨hreply, -, -, -, hnext⟩ :=
    hlost ⟨moment, hmoment, by rw [hgone]; nofun⟩ (.look .header) rfl
  rw [hclaimed, Option.map_some, Option.some.injEq] at hslot
  rw [hslot] at hreply
  exact ⟨hreserved, hreply, hnext .release rfl⟩

end EventChannel

namespace Scene

/-! ## Ids are words -/

/-- How the segment is created that two share. -/
def pairConfig : Segment.Config :=
  .new 7 1 64

/-- The segment of two, of whom the creator has come back and has an id, or has left. -/
def pairSegment (id : ManagerId) (attached : Int32) : Segment :=
  { Segment.formatted pairConfig 256 0 with
    control := { Control.created pairConfig with nextId := id + 1, attached } }

/-- Two managers on one segment, the creator attached so. -/
def pairWorld (id : ManagerId) (attached : Int32) (me : Option Attachment) : World where
  host := { Host.new ⟨0⟩ ⟨0⟩ with names := [(7, .object 0)], objects := [pairSegment id attached] }
  managers := [some ⟨pairConfig, .manual, true, me⟩,
    some ⟨.attachOnly 7, .manual, false, some (.new 0 1 (.created pairConfig))⟩]

/-- The creator, attached under an id, and the manager of a channel. -/
def pair (id : ManagerId) : Scene where
  world := pairWorld id 2 (some (.new 0 id (.created pairConfig)))
  listeners := [⟨⟨1, none, nofun⟩, none, false⟩]

theorem left_pair (id : ManagerId) :
    (Mapping.mk (.new 0 id (.created pairConfig)) 0 (pairSegment id 2)).left =
      pairSegment id 1 := by
  have hfresh : (Slot.fresh 0).leftBy id = .fresh 0 := Slot.leftBy_of_not_held nofun
  have hslots : (pairSegment id 2).slots = [.fresh 0] := rfl
  have hattached : (2 : Int32) - 1 = 1 := by decide
  have hreader : (Attachment.new 0 id (.created pairConfig)).isWriter = false := rfl
  have hid : (Attachment.new 0 id (.created pairConfig)).id = id := rfl
  simp only [Mapping.left, Mapping.slots, hslots, List.map_cons, List.map_nil, hid, hfresh, hreader]
  simp [pairSegment, hattached, Segment.formatted]
  rfl

theorem step_reattach_pair (id : ManagerId) :
    (pair id).step (.world (.reattach 0)) = pair (id + 1) := by
  have hmanager : (pair id).world.manager? 0 =
      some ⟨pairConfig, .manual, true, some (.new 0 id (.created pairConfig))⟩ := rfl
  have hmapping : Manager.mapping?
      ⟨pairConfig, .manual, true, some (.new 0 id (.created pairConfig))⟩ (pair id).world.host =
        some ⟨.new 0 id (.created pairConfig), 0, pairSegment id 2⟩ := rfl
  have hleave : (pair id).world.act 0 Manager.detach = pairWorld id 1 none := by
    rw [World.act_detach hmanager, Manager.shutdown_eq false hmapping rfl, left_pair]
    rfl
  have hworld : (pair id).world.step (.reattach 0) = (pair (id + 1)).world := by
    show (pair id).world.act 0 Manager.reattach = (pair (id + 1)).world
    rw [World.act_reattach, hleave]
    rfl
  rw [Scene.step, hworld]
  rfl

theorem history_append (s : Scene) (calls others : List Call) (past : List Moment) :
    s.history (calls ++ others) past =
      (s.history calls past).2.history others (s.history calls past).1 := by
  induction calls generalizing s past with
  | nil => rfl
  | cons call calls ih => exact ih _ _

theorem history_fst (s : Scene) (calls : List Call) (past : List Moment) :
    (s.history calls past).1 = (s.history calls []).1 ++ past ∧
      (s.history calls past).2 = (s.history calls []).2 := by
  induction calls generalizing s past with
  | nil => exact ⟨rfl, rfl⟩
  | cons call calls ih =>
    obtain ⟨hmoments, hscene⟩ := ih (s.step call) (⟨s, call⟩ :: past)
    obtain ⟨hmoments', hscene'⟩ := ih (s.step call) [⟨s, call⟩]
    refine ⟨?_, hscene.trans hscene'.symm⟩
    rw [history, history, hmoments, hmoments', List.append_assoc]
    rfl

theorem claimed?_append {recent earlier : List Moment} (h : claimed? c recent = some event) :
    claimed? c (recent ++ earlier) = some event := by
  induction recent with
  | nil => cases h
  | cons moment recent ih =>
    rw [List.cons_append, claimed?]
    rw [claimed?] at h
    split at h
    · rename_i hclaims
      rw [if_pos hclaims, h]
    · rename_i hclaims
      rw [if_neg hclaims, ih h]

theorem spares_reattach_pair (id : ManagerId) :
    (⟨pair id, .world (.reattach 0)⟩ : Moment).Spares 0 := by
  intro listener hlistener i hi hacts
  cases hlistener
  cases (List.mem_singleton.mp hi).symm.trans (List.mem_singleton.mp hacts)

theorem history_reattach_pair (n : Nat) (id : ManagerId) :
    ((pair id).history (List.replicate n (.world (.reattach 0))) []).2 = pair (id + .ofNat n) ∧
      ∀ moment ∈ ((pair id).history (List.replicate n (.world (.reattach 0))) []).1,
        moment.Spares 0 := by
  induction n generalizing id with
  | zero => exact ⟨by simp [history], nofun⟩
  | succ n ih =>
    obtain ⟨hscene, hspares⟩ := ih (id + 1)
    obtain ⟨hmoments, hsame⟩ := history_fst (pair (id + 1))
      (List.replicate n (.world (.reattach 0))) [⟨pair id, .world (.reattach 0)⟩]
    rw [List.replicate_succ, history, step_reattach_pair, hmoments, hsame, hscene]
    refine ⟨?_, fun moment hmoment => ?_⟩
    · rw [Int32.ofNat_add, Int32.add_assoc, Int32.add_comm 1]
      rfl
    · rcases List.mem_append.mp hmoment with hmoment | hmoment
      · exact hspares moment hmoment
      · exact List.mem_singleton.mp hmoment ▸ spares_reattach_pair id

/-- The segment is created, and a channel attached to it; then its creator leaves and comes
back for the first time. -/
def pairCalls : List Call :=
  [.world (.attach pairConfig .manual), .world (.attach (.attachOnly 7) .manual),
    .engage ⟨1, none, nofun⟩, .world (.reattach 0)]

theorem run_reattach_pair (n : Nat) (calls : List Call) :
    (run (pairCalls ++ List.replicate n (.world (.reattach 0)) ++ calls)).2 =
        ((pair (2 + .ofNat n)).history calls []).2 ∧
      ∃ earlier, (run (pairCalls ++ List.replicate n (.world (.reattach 0)) ++ calls)).1 =
          ((pair (2 + .ofNat n)).history calls []).1 ++ earlier ∧
        ∀ moment ∈ earlier, moment.Spares 0 := by
  have hpair : (run pairCalls).2 = pair 2 := rfl
  have hspared : ∀ moment ∈ (run pairCalls).1, moment.Spares 0 := by decide +kernel
  obtain ⟨hscene, hspares⟩ := history_reattach_pair n 2
  obtain ⟨hmoments, hsame⟩ := history_fst (pair 2) (List.replicate n (.world (.reattach 0)))
    (run pairCalls).1
  have hrun : run (pairCalls ++ List.replicate n (.world (.reattach 0)) ++ calls) =
      (pair (2 + .ofNat n)).history calls
        (((pair 2).history (List.replicate n (.world (.reattach 0))) []).1 ++
          (run pairCalls).1) := by
    rw [run, history_append, history_append, ← run, hpair, hsame, hscene, hmoments]
  obtain ⟨hlater, hend⟩ := history_fst (pair (2 + .ofNat n)) calls
    (((pair 2).history (List.replicate n (.world (.reattach 0))) []).1 ++ (run pairCalls).1)
  rw [hrun]
  refine ⟨hend, _, hlater, fun moment hmoment => ?_⟩
  rcases List.mem_append.mp hmoment with hmoment | hmoment
  · exact hspares moment hmoment
  · exact hspared moment hmoment

/-- The creator empties the slot that the channel holds, packs another event, and claims
the slot for reading. -/
def namesakeCalls : List Call :=
  [.emit ⟨0, none, nofun⟩ .data (.new 1 0 0 0) [] false .any, .use 0 (.await false 0),
    .world (.perform 0 (.evict 0)), .emit ⟨0, none, nofun⟩ .data (.new 2 0 0 0) [] false .any,
    .world (.perform 0 .claimForReading)]

/-- Under the id of the channel's manager the creator claims the slot as that manager would. -/
theorem run_namesake {n : Nat} (hid : (2 + .ofNat n : ManagerId) = 1) :
    let r := run (pairCalls ++ List.replicate n (.world (.reattach 0)) ++ namesakeCalls)
    (∀ moment ∈ r.1, moment.Spares 0) ∧ ∃ event, claimed? 0 r.1 = some event ∧
      EventChannel.Look.header.tell event.content = .ok (.header (.new 1 0 0 0)) ∧
      r.2.reply? (.use 0 (.look .header)) = some (.ok (.header (.new 2 0 0 0))) := by
  obtain ⟨hscene, earlier, hmoments, hspares⟩ := run_reattach_pair n namesakeCalls
  rw [hid] at hscene hmoments
  have hfacts : (∀ moment ∈ ((pair 1).history namesakeCalls []).1, moment.Spares 0) ∧
      ((claimed? 0 ((pair 1).history namesakeCalls []).1).any fun event =>
        EventChannel.Look.header.tell event.content = .ok (.header (.new 1 0 0 0))) ∧
      ((pair 1).history namesakeCalls []).2.reply? (.use 0 (.look .header)) =
        some (.ok (.header (.new 2 0 0 0))) := by
    decide +kernel
  obtain ⟨hspared, hclaimed, hreply⟩ := hfacts
  obtain ⟨event, hevent, htell⟩ := (Option.any_eq_true ..).mp hclaimed
  intro r
  refine ⟨fun moment hmoment => ?_, event, ?_, of_decide_eq_true htell, ?_⟩
  · rcases List.mem_append.mp (hmoments ▸ hmoment) with hmoment | hmoment
    · exact hspared moment hmoment
    · exact hspares moment hmoment
  · exact hmoments ▸ claimed?_append hevent
  · exact hscene ▸ hreply

end Scene

namespace EventChannel

open Scene (pairCalls namesakeCalls claimed?)

/-- Once the creator has come back 2³² times it has the id of the channel's manager. The
channel, used for nothing else, then answers from an event that its manager has not
claimed. -/
theorem answers_from_namesake :
    let r := Scene.run
      (pairCalls ++ List.replicate (2 ^ 32 - 1) (.world (.reattach 0)) ++ namesakeCalls)
    (∀ moment ∈ r.1, moment.Spares 0) ∧ ∃ event, claimed? 0 r.1 = some event ∧
      Look.header.tell event.content = .ok (.header (.new 1 0 0 0)) ∧
      r.2.reply? (.use 0 (.look .header)) = some (.ok (.header (.new 2 0 0 0))) :=
  Scene.run_namesake (show (2 + .ofNat (2 ^ 32 - 1) : ManagerId) = 1 by decide)

end EventChannel

end SlotTransport
