/-
A channel at work, step by step. `FragmentChannel.Sees` says which mapping a
channel's manager acts on; an operation that does not fail leads from one to the
next (`Sees.next`), so that what a channel does can be followed through the
mappings of the slot protocol.
-/
import SlotTransport.Channel.Fragment
import SlotTransport.Proofs.Manager.Connection
import SlotTransport.Proofs.Operation.Move

namespace SlotTransport

open Segment

namespace Action

variable {σ ε α β : Type} {own own' : σ} {host host' : Host}

theorem on_bind_ok {action : Action σ ε α} {answer : α}
    (h : action.on own host = (.ok answer, own', host')) (next : α → Action σ ε β) :
    (action >>= next).on own host = (next answer).on own' host' := by
  rw [on_bind, h]

theorem on_bind_error {action : Action σ ε α} {cause : ε}
    (h : action.on own host = (.error cause, own', host')) (next : α → Action σ ε β) :
    (action >>= next).on own host = (.error cause, own', host') := by
  rw [on_bind, h]

@[simp] theorem on_pure (answer : α) (own : σ) (host : Host) :
    (pure answer : Action σ ε α).on own host = (.ok answer, own, host) :=
  rfl

@[simp] theorem on_throw (cause : ε) (own : σ) (host : Host) :
    (throw cause : Action σ ε α).on own host = (.error cause, own, host) :=
  rfl

@[simp] theorem on_own (s : σ) (host : Host) :
    (Action.own : Action σ ε σ).on s host = (.ok s, s, host) :=
  rfl

@[simp] theorem on_ask (question : σ → Host → α) (own : σ) (host : Host) :
    (ask question : Action σ ε α).on own host = (.ok (question own host), own, host) :=
  rfl

@[simp] theorem on_change (f : σ → σ) (own : σ) (host : Host) :
    (change f : Action σ ε Unit).on own host = (.ok (), f own, host) :=
  rfl

end Action

namespace Poll

variable {σ ε α : Type} {attempt : Action σ ε (Option α)} {own own' : σ} {host host' : Host}

theorem on_await_some {answer : α}
    (h : attempt.on own host = (.ok (some answer), own', host')) (timeout : Nat) :
    (await attempt timeout).on own host = (.ok (some answer), own', host') := by
  rw [await_eq_attempts]
  cases schedule timeout with
  | nil => exact h
  | cons sleep sleeps => rw [attempts, Action.on_bind_ok h, Action.on_pure]

theorem on_await_none (h : attempt.on own host = (.ok none, own, host)) (timeout : Nat) :
    (await attempt timeout).on own host = (.ok none, own, host) := by
  rw [await_eq_attempts]
  induction schedule timeout with
  | nil => exact h
  | cons sleep sleeps ih => rw [attempts, Action.on_bind_ok h, ih]

end Poll

/-! ## Mappings one after the other -/

namespace Segment.Mapping.Kept

variable {m after later : Mapping}

theorem trans (h : m.Kept after) (h' : after.Kept later) : m.Kept later where
  now := h'.now.trans h.now
  me := ⟨h'.me.object.trans h.me.object, h'.me.id.trans h.me.id,
    h'.me.geometry.trans h.me.geometry, h'.me.staleTimeout.trans h.me.staleTimeout,
    h'.me.destructive.trans h.me.destructive⟩
  segment := ⟨h'.segment.size.trans h.segment.size, h'.segment.magic.trans h.segment.magic,
    h'.segment.version.trans h.segment.version, h'.segment.geometry.trans h.segment.geometry,
    h'.segment.staleTimeout.trans h.segment.staleTimeout,
    h'.segment.destructive.trans h.segment.destructive,
    h'.segment.slotSize.trans h.segment.slotSize, h'.segment.length.trans h.segment.length⟩
  nextId := h'.nextId.trans h.nextId
  attached := h'.attached.trans h.attached

theorem isCut (h : m.Kept after) (hcut : m.segment.isCut m.me.geometry = true) :
    after.segment.isCut after.me.geometry = true := by
  simpa only [Segment.isCut, h.me.geometry, h.segment.length, h.segment.slotSize] using hcut

end Segment.Mapping.Kept

namespace FragmentChannel

/-- The channel with its manager attached so. -/
def follow (channel : FragmentChannel) (me : Attachment) : FragmentChannel :=
  { channel with manager := { channel.manager with attachment := some me } }

theorem on_requireAttached {channel : FragmentChannel}
    (h : channel.manager.isAttached = true) (host : Host) :
    requireAttached.on channel host = (.ok (), channel, host) := by
  simp [requireAttached, Action.on_bind, h]

/-- The channel's manager is attached to an object of the host, and sees it like
this. -/
structure Sees (channel : FragmentChannel) (host : Host) (m : Mapping) : Prop where
  attachment : channel.manager.attachment = some m.me
  now : channel.manager.now host = m.now
  object : host.objects[m.me.object]? = some m.segment
  cut : m.segment.isCut m.me.geometry = true

namespace Sees

variable {channel : FragmentChannel} {host : Host} {m after : Mapping} {α : Type}

theorem mapping? (h : channel.Sees host m) : channel.manager.mapping? host = some m := by
  simp [Manager.mapping?, h.attachment, h.object, h.now, cut_of_isCut h.cut]

theorem next (h : channel.Sees host m) (hkept : m.Kept after) :
    (channel.follow after.me).Sees (host.store m.me.object after.segment) after where
  attachment := rfl
  now := h.now.trans hkept.now.symm
  object := by
    obtain ⟨hlt, -⟩ := List.getElem?_eq_some_iff.mp h.object
    rw [Host.objects_store, hkept.me.object, List.getElem?_set_self hlt]
  cut := hkept.isCut h.cut

theorem follow_self (h : channel.Sees host m) : channel.follow m.me = channel := by
  rw [follow, ← h.attachment]

theorem store_self (h : channel.Sees host m) : host.store m.me.object m.segment = host := by
  obtain ⟨hlt, hobject⟩ := List.getElem?_eq_some_iff.mp h.object
  rw [Host.store, ← hobject, List.set_getElem_self]

/-! ## Operations -/

theorem on_guarded (h : channel.Sees host m) {op : Program α} {answer : α}
    (hop : op.on m = (.ok answer, after)) (wrap : Segment.Error → ChannelError) :
    (onManagerAs wrap (Manager.guarded op)).on channel host =
      (.ok answer, channel.follow after.me, host.store m.me.object after.segment) := by
  simp only [onManagerAs, Action.within, Action.on_of, Manager.guarded, h.mapping?, hop]
  rfl

theorem on_query (h : channel.Sees host m) {op : Mapping → Except Violation α} {answer : α}
    (hop : op m = .ok answer) (wrap : Segment.Error → ChannelError) :
    (onManagerAs wrap (Manager.query op)).on channel host = (.ok answer, channel, host) := by
  have hguarded : (onManagerAs wrap (Manager.query op)).on channel host =
      (.ok answer, channel.follow m.me, host.store m.me.object m.segment) := by
    refine h.on_guarded ?_ wrap
    rw [Program.on_require, hop]
  rw [h.follow_self, h.store_self] at hguarded
  exact hguarded

variable {slot : Nat}

theorem on_writeBytes (h : channel.Sees host m) {data : Bytes}
    (hop : m.write slot data = .ok after) :
    (onManager (Manager.write slot data)).on channel host =
      (.ok (), channel.follow after.me, host.store m.me.object after.segment) :=
  h.on_guarded (Program.on_of_done (Program.on_write slot data m) hop) .segment

theorem on_written (h : channel.Sees host m) {count : Nat} (hop : m.written slot = .ok count) :
    (onManager (Manager.written slot)).on channel host = (.ok count, channel, host) :=
  h.on_query hop .segment

theorem on_publish (h : channel.Sees host m) {destination : Destination} {published : Bool}
    (hop : m.publish slot destination = .ok (published, after)) :
    (onManager (Manager.publish slot destination)).on channel host =
      (.ok published, channel.follow after.me, host.store m.me.object after.segment) :=
  h.on_guarded (Program.on_of_settled (Program.on_publish slot destination m) hop) .segment

theorem on_claimForReading (h : channel.Sees host m) {slot? : Option Nat}
    (hop : m.claimForReading = (slot?, after)) :
    (onManager Manager.claimForReading).on channel host =
      (.ok slot?, channel.follow after.me, host.store m.me.object after.segment) :=
  h.on_guarded (by rw [Program.on_claimForReading, hop]) .segment

theorem on_requireAttached (h : channel.Sees host m) :
    requireAttached.on channel host = (.ok (), channel, host) :=
  FragmentChannel.on_requireAttached (Manager.isAttached_of_mapping? h.mapping?) host

theorem slotSize (h : channel.Sees host m) :
    channel.manager.slotSize host = m.segment.slotSize :=
  Manager.slotSize_of_mapping? h.mapping?

end Sees

@[simp] theorem follow_follow (channel : FragmentChannel) (me me' : Attachment) :
    (channel.follow me).follow me' = channel.follow me' :=
  rfl

theorem on_countTraffic (direction : Counters → Nat × Nat) (bytes : Nat)
    (channel : FragmentChannel) (host : Host) :
    ∃ registry, (countTraffic direction bytes).on channel host =
      (.ok (), channel, { host with registry }) := by
  cases hcounters : channel.counters with
  | none => exact ⟨host.registry, by simp [countTraffic, Action.on_bind, hcounters]⟩
  | some counters =>
    refine ⟨(host.registry.modify (direction counters).1 (·.addCount 1)).modify
      (direction counters).2 (·.addCount bytes), ?_⟩
    simp [countTraffic, Action.on_bind, Action.count, hcounters]

end FragmentChannel

end SlotTransport
