/-
The channels of a pool are one queue. `Holds` is what a queue has to do with the
object that it stands for: its fragments are the ring of the object's slots, and
every channel is ready for its next call. Each call keeps it and is answered as
the queue would answer it (`Holds.step`), so the channels serve their fragments
in order, in every run (`Run.in_order`).
-/
import SlotTransport.Proofs.Channel.Exchange
import SlotTransport.Proofs.Channel.Pool
import SlotTransport.Proofs.Queue.Items
import SlotTransport.Proofs.World.Party

namespace SlotTransport

open Segment

/-- A channel for any reader, attached to an object that it knows as it is, with
nothing held back. -/
structure FragmentChannel.Attends (channel : FragmentChannel) (number : Nat) (segment : Segment) :
    Prop where
  held : channel.held = none
  destination : channel.destination = .any
  attached : ∃ me, channel.manager.attachment = some me ∧ me.object = number ∧ me.Fits segment

namespace Pool

/-- A queue stands for the object of a pool: it holds what the slots hold, and
every channel is ready for its next call. -/
structure Holds (config : Segment.Config) (number : Nat) (segment : Segment) (pool : Pool)
    (q : Queue Fragment) : Prop where
  object : pool.host.objects[number]? = some segment
  ring : ∃ first, segment.Ring first q.items
  length : segment.slots.length = q.capacity
  slotSize : segment.slotSize = config.slotSize.toNat
  cut : segment.isCut segment.control.geometry = true
  destructive : segment.control.isDestructive = true
  attends : ∀ {i : Nat} {channel : FragmentChannel}, pool.channel? i = some channel →
    channel.Attends number segment

variable {config : Segment.Config} {number i : Nat} {pool : Pool} {q q' : Queue Fragment}
  {segment segment' : Segment} {channel channel' : FragmentChannel} {host : Host}

/-! ## Places of channels -/

theorem lt_of_channel? (h : pool.channel? i = some channel) : i < pool.channels.length := by
  unfold channel? at h
  cases hi : pool.channels[i]? with
  | none => simp [hi] at h
  | some found => exact (List.getElem?_eq_some_iff.mp hi).1

theorem channel?_set (host : Host) (channel? : Option FragmentChannel)
    (hi : i < pool.channels.length) (j : Nat) :
    (Pool.mk host (pool.channels.set i channel?)).channel? j =
      if j = i then channel? else pool.channel? j := by
  by_cases hj : j = i
  · subst hj
    simp [Pool.channel?, hi]
  · simp [Pool.channel?, List.getElem?_set_ne (Ne.symm hj), hj]

theorem set_self (h : pool.channel? i = some channel) :
    Pool.mk pool.host (pool.channels.set i (some channel)) = pool := by
  obtain ⟨hlt, hget⟩ : ∃ hlt : i < pool.channels.length, pool.channels[i] = some channel := by
    refine ⟨lt_of_channel? h, ?_⟩
    simpa [channel?, lt_of_channel? h] using h
  rw [← hget, List.set_getElem_self]

theorem channel?_append {host : Host} {channel? : Option FragmentChannel} {j : Nat}
    (h : (Pool.mk host (pool.channels ++ [channel?])).channel? j = some channel) :
    pool.channel? j = some channel ∨ channel? = some channel := by
  simp only [Pool.channel?, List.getElem?_append] at h
  split at h
  · exact .inl h
  · cases hj : [channel?][j - pool.channels.length]? with
    | none => simp [hj] at h
    | some found =>
      have hmem := List.mem_of_getElem? hj
      rw [List.mem_singleton.mp hmem] at hj
      rw [hj] at h
      exact .inr h

theorem channelOn_eq_some_iff {manager : Manager} : channelOn number manager = some channel ↔
    manager.attachment.map (·.object) = some number ∧ .new manager = channel := by
  unfold channelOn
  split <;> simp_all

section Act

variable {α : Type} {answer : α} {cause : ChannelError}
  {action : Action FragmentChannel ChannelError α}

theorem act_of_ok (hi : pool.channel? i = some channel)
    (h : action.on channel pool.host = (.ok answer, channel', host)) (reply : α → Reply) :
    pool.act i (reply <$> action) =
      (reply answer, ⟨host, pool.channels.set i (some channel')⟩) := by
  simp only [act, hi, Action.on_map, h]
  rfl

theorem act_of_error (hi : pool.channel? i = some channel)
    (h : action.on channel pool.host = (.error cause, channel, pool.host)) (reply : α → Reply) :
    pool.act i (reply <$> action) = (.failed cause, pool) := by
  simp only [act, hi, Action.on_map, h, set_self hi]
  rfl

theorem act_of_none (hi : pool.channel? i = none)
    (action : Action FragmentChannel ChannelError Reply) : pool.act i action = (.done, pool) := by
  simp only [act, hi]

end Act

namespace Holds

/-! ## Calls that change the object -/

theorem update (h : Holds config number segment pool q) (halike : segment'.Alike segment)
    {first : Nat} (hring : segment'.Ring first q'.items) (hcapacity : q'.capacity = q.capacity)
    {pool' : Pool} (hobject : pool'.host.objects[number]? = some segment')
    (hchannel : ∀ {j : Nat} {channel : FragmentChannel}, pool'.channel? j = some channel →
      pool.channel? j = some channel ∨ channel.Attends number segment') :
    Holds config number segment' pool' q' where
  object := hobject
  ring := ⟨first, hring⟩
  length := by rw [halike.length, h.length, hcapacity]
  slotSize := halike.slotSize.trans h.slotSize
  cut := by simpa only [isCut, halike.geometry, halike.length, halike.slotSize] using h.cut
  destructive := halike.isDestructive.trans h.destructive
  attends {j channel} hj := by
    rcases hchannel hj with hj | hattends
    · obtain ⟨hheld, hdestination, me, hme, hnumber, hfits⟩ := h.attends hj
      exact ⟨hheld, hdestination, me, hme, hnumber,
        hfits.of_alike ⟨rfl, rfl, rfl, rfl, rfl⟩ halike⟩
    · exact hattends

theorem sees (h : Holds config number segment pool q) (hi : pool.channel? i = some channel) :
    ∃ m, channel.Sees pool.host m ∧ m.me.object = number ∧ m.segment = segment ∧
      m.me.Fits segment ∧ m.me.destructive = true := by
  obtain ⟨-, -, me, hme, rfl, hfits⟩ := h.attends hi
  refine ⟨⟨me, channel.manager.now pool.host, segment⟩, ⟨hme, rfl, h.object, ?_⟩, rfl, rfl, hfits,
    hfits.destructive.trans h.destructive⟩
  rw [hfits.geometry]
  exact h.cut

theorem follow (h : Holds config number segment pool q) (hi : pool.channel? i = some channel)
    {m after : Mapping} (hnumber : m.me.object = number) (hsegment : m.segment = segment)
    (hfits : m.me.Fits segment) (hkept : m.Kept after) {first : Nat}
    (hring : after.segment.Ring first q'.items) (hcapacity : q'.capacity = q.capacity)
    (registry : Statistics.Registry) :
    Holds config number after.segment
      ⟨{ pool.host.store m.me.object after.segment with registry },
        pool.channels.set i (some (channel.follow after.me))⟩ q' := by
  subst hnumber hsegment
  obtain ⟨hlt, -⟩ := List.getElem?_eq_some_iff.mp h.object
  refine h.update hkept.segment hring hcapacity (List.getElem?_set_self hlt) fun {j other} hj => ?_
  rw [channel?_set _ _ (lt_of_channel? hi)] at hj
  split at hj
  · cases hj
    have hattends := h.attends hi
    exact .inr ⟨hattends.held, hattends.destination, after.me, rfl, hkept.me.object,
      hfits.of_alike hkept.me hkept.segment⟩
  · exact .inl hj

end Holds

/-- The channels answer a call as the queue does, which stands for the object
afterwards, too. -/
def Agrees (config : Segment.Config) (number : Nat) (pool : Pool) (q : Queue Fragment)
    (call : Call) : Prop :=
  ∃ reply segment pool' q', pool.step number call = (reply, pool') ∧
    pool.serve config.slotSize.toNat q call = (reply, q') ∧ Holds config number segment pool' q'

namespace Holds

theorem agrees_write (h : Holds config number segment pool q) (i : Nat) (fragment : Fragment)
    (overwrite : Bool) (timeout : Nat) :
    Agrees config number pool q (.write i fragment overwrite timeout) := by
  cases hi : pool.channel? i with
  | none =>
    exact ⟨.done, segment, pool, q, by rw [step, act_of_none hi], by simp only [serve, hi], h⟩
  | some channel =>
    obtain ⟨m, hsees, hnumber, hsegment, hfits, hgone⟩ := h.sees hi
    obtain ⟨first, hring⟩ := h.ring
    have hlength : m.slots.length = q.capacity := by rw [Mapping.slots, hsegment, h.length]
    have hslotSize : m.segment.slotSize = config.slotSize.toNat := by rw [hsegment, h.slotSize]
    rw [← hsegment] at hring
    by_cases hsize : config.slotSize.toNat < fragment.size
    · have hwrite := hsees.on_write_oversized (by rw [hslotSize]; exact hsize) overwrite timeout
      exact ⟨_, segment, pool, q, by rw [step, act_of_error hi hwrite],
        by simp only [serve, hi, if_pos hsize], h⟩
    · have hroom : fragment.size ≤ m.segment.slotSize := by
        rw [hslotSize]
        exact Nat.not_lt.mp hsize
      by_cases hmay : q.items.length < q.capacity ∨ overwrite = true
      · obtain ⟨after, first', registry, hwrite, hkept, hafter⟩ :=
          hsees.on_write (h.attends hi).destination hgone hring hroom
            (by rw [hlength]; exact q.capacity_pos) (by rw [hlength]; exact hmay) timeout
        obtain ⟨outcome, q', hput, hstored, hitems, hcapacity⟩ := q.exists_put fragment hmay
        rw [hlength, ← hitems] at hafter
        refine ⟨.written, after.segment, _, q', by rw [step, act_of_ok hi hwrite], ?_,
          h.follow hi hnumber hsegment hfits hkept hafter hcapacity registry⟩
        simp only [serve, hi, if_neg hsize, hput]
      · obtain ⟨hfull, hrefuse⟩ := not_or.mp hmay
        obtain rfl : overwrite = false := Bool.not_eq_true _ ▸ hrefuse
        have hwrite := hsees.on_write_refused hgone hring hroom
          (by rw [hlength]; exact Nat.le_antisymm q.length_le (Nat.not_lt.mp hfull)) timeout
        refine ⟨_, segment, pool, q, by rw [step, act_of_error hi hwrite], ?_, h⟩
        simp only [serve, hi, if_neg hsize, Bool.false_eq_true, if_false, Queue.put_refused _ hfull]

theorem agrees_read (h : Holds config number segment pool q) (i : Nat) :
    Agrees config number pool q (.read i) := by
  cases hi : pool.channel? i with
  | none =>
    exact ⟨.done, segment, pool, q, by rw [step, act_of_none hi], by simp only [serve, hi], h⟩
  | some channel =>
    obtain ⟨m, hsees, hnumber, hsegment, hfits, hgone⟩ := h.sees hi
    obtain ⟨first, hring⟩ := h.ring
    have hheld := (h.attends hi).held
    rw [← hsegment] at hring
    cases hitems : q.items with
    | nil =>
      rw [hitems] at hring
      have hread := hsees.on_read_nil hheld hgone hring
      refine ⟨.read none, segment, pool, q, ?_, ?_, h⟩
      · rw [step, act_of_ok hi hread, set_self hi]
      · simp only [serve, hi, Queue.take_nil hitems]
    | cons fragment fragments =>
      rw [hitems] at hring
      obtain ⟨after, registry, hread, hkept, hafter⟩ := hsees.on_read_cons hheld hgone hring
      obtain ⟨q', htake, hrest, hcapacity⟩ := Queue.take_cons hitems
      rw [← hrest] at hafter
      refine ⟨.read (some fragment), after.segment, _, q', by rw [step, act_of_ok hi hread], ?_,
        h.follow hi hnumber hsegment hfits hkept hafter hcapacity registry⟩
      simp only [serve, hi, htake]

/-! ## Calls that leave the queue as it is -/

theorem agrees_count (h : Holds config number segment pool q) (i : Nat) :
    Agrees config number pool q (.count i) := by
  cases hi : pool.channel? i with
  | none => exact ⟨.done, segment, pool, q, by simp only [step, hi], rfl, h⟩
  | some channel =>
    obtain ⟨first, hring⟩ := h.ring
    refine ⟨.done, segment, _, q, by simp only [step, hi]; rfl, rfl, ?_⟩
    refine h.update ⟨rfl, rfl, rfl, rfl, rfl, rfl, rfl, rfl⟩ hring rfl h.object
      fun {j other} hj => ?_
    rw [channel?_set _ _ (lt_of_channel? hi)] at hj
    split at hj
    · cases hj
      have hattends := h.attends hi
      exact .inr ⟨hattends.held, hattends.destination, hattends.attached⟩
    · exact .inl hj

theorem agrees_drop (h : Holds config number segment pool q) (i : Nat) :
    Agrees config number pool q (.drop i) := by
  cases hi : pool.channel? i with
  | none => exact ⟨.done, segment, pool, q, by simp only [step, hi], rfl, h⟩
  | some channel =>
    obtain ⟨m, hsees, rfl, rfl, -, -⟩ := h.sees hi
    obtain ⟨first, hring⟩ := h.ring
    obtain ⟨segment', hobjects, halike, hring'⟩ := hsees.exists_dropped hring
    refine ⟨.done, segment', _, q, by simp only [step, hi]; rfl, rfl, ?_⟩
    obtain ⟨hlt, -⟩ := List.getElem?_eq_some_iff.mp h.object
    refine h.update halike hring' rfl ?_ fun {j other} hj => ?_
    · rw [hobjects, List.getElem?_set_self hlt]
    · rw [channel?_set _ _ (lt_of_channel? hi)] at hj
      split at hj
      · cases hj
      · exact .inl hj

theorem agrees_attach (h : Holds config number segment pool q) (other : Segment.Config)
    (time : TimeSource) : Agrees config number pool q (.attach other time) := by
  obtain ⟨first, hring⟩ := h.ring
  have hcases := Manager.attach_cases other time h.object
  rcases hattach : Manager.attach other time pool.host with ⟨answer, host⟩
  rw [hattach] at hcases
  rcases hcases with ⟨manager, rfl, hme, hready, hobject⟩ | ⟨hobject, hnone⟩
  · refine ⟨.done, segment.joined, _, q, by simp only [step, hattach]; rfl, rfl, ?_⟩
    refine h.update (Party.alike_joined segment) (hring.congr rfl rfl rfl rfl) rfl hobject
      fun {j channel} hj => (channel?_append hj).imp_right fun hnew => ?_
    obtain ⟨-, rfl⟩ := channelOn_eq_some_iff.mp hnew
    exact ⟨rfl, rfl, _, hme, rfl, ⟨hready, rfl, rfl, rfl⟩⟩
  · obtain ⟨channel?, hstep, hother⟩ : ∃ channel?, pool.step number (.attach other time) =
        (.done, ⟨host, pool.channels ++ [channel?]⟩) ∧ channel? = none := by
      cases answer with
      | error cause => exact ⟨none, by simp only [step, hattach], rfl⟩
      | ok manager =>
        refine ⟨channelOn number manager, by simp only [step, hattach], ?_⟩
        rw [channelOn, if_neg (hnone manager rfl)]
    refine ⟨.done, segment, _, q, hstep, rfl, ?_⟩
    refine h.update ⟨rfl, rfl, rfl, rfl, rfl, rfl, rfl, rfl⟩ hring rfl hobject
      fun {j channel} hj => (channel?_append hj).imp_right fun hnew => ?_
    rw [hother] at hnew
    cases hnew

/-- Each call is answered as the queue answers it. -/
theorem agrees (h : Holds config number segment pool q) (call : Call) :
    Agrees config number pool q call := by
  cases call with
  | attach other time => exact h.agrees_attach other time
  | count i => exact h.agrees_count i
  | write i fragment overwrite timeout => exact h.agrees_write i fragment overwrite timeout
  | read i => exact h.agrees_read i
  | drop i => exact h.agrees_drop i

end Holds

/-! ## Runs -/

theorem holds_created {host host' : Host} {time : TimeSource} {manager : Manager}
    (hdestructive : config.destructive = true) (hname : host.entry? config.key = none)
    (hnumber : number = host.objects.length)
    (hattach : Manager.attach config time host = (.ok manager, host')) :
    ∃ segment, Holds config number segment ⟨host', [some (.new manager)]⟩
      (.withCapacity config.slotCount.toNat) := by
  obtain ⟨size, now, hmay, hme, hobjects⟩ := Manager.attach_created hname hattach
  subst hnumber
  have hcount : config.slotCount.toNat ≠ 0 := by
    simpa [Segment.Config.mayCreate, ← UInt64.toNat_inj] using hmay
  have hready : (Control.created config).isDestructive = true := by
    rw [Control.isDestructive, Control.created, if_pos hdestructive]
    rfl
  refine ⟨.formatted config size now, ⟨?_, ⟨0, ring_formatted config size now⟩, ?_, rfl, ?_,
    hready, fun {i channel} hi => ?_⟩⟩
  · rw [hobjects, List.getElem?_concat_length]
  · rw [formatted, List.length_replicate]
    exact (max_eq_left (Nat.one_le_iff_ne_zero.mpr hcount)).symm
  · simp [isCut, formatted, Control.created, Segment.Config.geometry]
  · obtain rfl : .new manager = channel := by
      cases i with
      | zero => simpa [channel?] using hi
      | succ i => simp [channel?] at hi
    exact ⟨rfl, rfl, _, hme, rfl, ⟨rfl, rfl, rfl, rfl⟩⟩

/-- Throughout a run a queue stands for the object. -/
theorem Run.holds {past : List Moment} (hdestructive : config.destructive = true)
    (h : Run config number past pool) : ∃ segment, Holds config number segment pool
      (queued config past) := by
  induction h with
  | created hname hnumber hattach => exact holds_created hdestructive hname hnumber hattach
  | @step past pool call _ ih =>
    obtain ⟨segment, hholds⟩ := ih
    obtain ⟨reply, segment', pool', q', hstep, hserve, hholds'⟩ := hholds.agrees call
    exact ⟨segment', by rw [queued, hstep, hserve]; exact hholds'⟩
  | elsewhere host _ hobject ih =>
    obtain ⟨segment, hholds⟩ := ih
    obtain ⟨first, hring⟩ := hholds.ring
    exact ⟨segment, hholds.update ⟨rfl, rfl, rfl, rfl, rfl, rfl, rfl, rfl⟩ hring rfl
      (hobject.trans hholds.object) .inl⟩

/-- Channels on an object whose records are gone once read are one queue, with
room for as many fragments as the object has slots, whatever channels there are,
whoever calls and whatever the clocks show: every call is answered as the queue
would answer it. -/
theorem Run.in_order {past : List Moment} (hdestructive : config.destructive = true)
    (h : Run config number past pool) (call : Call) :
    (pool.step number call).1 =
      (pool.serve config.slotSize.toNat (queued config past) call).1 := by
  obtain ⟨segment, hholds⟩ := h.holds hdestructive
  obtain ⟨reply, segment', pool', q', hstep, hserve, -⟩ := hholds.agrees call
  rw [hstep, hserve]

/-- Of three fragments in two slots, the last of which was written by force, the
second is read first, however late that is. -/
theorem in_order_evicted :
    let config : Segment.Config := ⟨7, 2, 64, 5, true, 0⟩
    let manager : Manager := ⟨config, .uptime, true, some (.new 0 creatorId (.created config))⟩
    let host : Host := (Manager.attach config .uptime (.new ⟨0⟩ ⟨0⟩)).2
    let start : Pool := ⟨host, [some (.new manager)]⟩
    let fragment (n : UInt64) : Fragment :=
      ⟨⟨4, 1, .ofRaw 3, 0, n, 0, 0⟩, [], rfl, Nat.zero_le _⟩
    let calls : List Call := [.attach config .manual, .write 0 (fragment 1) false 0,
      .write 1 (fragment 2) false 0, .write 0 (fragment 3) true 0]
    let past := (start.history 0 calls []).1
    let pool := (start.history 0 calls []).2
    let later := pool.ticked ⟨100⟩ ⟨100⟩
    config.destructive = true ∧ Run config 0 past later ∧
      (later.step 0 (.read 1)).1 = .read (some (fragment 2)) := by
  intro config manager host start fragment calls past pool later
  have hattach : Manager.attach config .uptime (.new ⟨0⟩ ⟨0⟩) = (.ok manager, host) := by
    rfl
  have hcreated : Run config 0 [] start := .created rfl rfl hattach
  have hrun : Run config 0 past later := (hcreated.history calls).ticked ⟨100⟩ ⟨100⟩
  have hserve : (later.serve 64 (queued config past) (.read 1)).1 = .read (some (fragment 2)) := by
    decide +kernel
  exact ⟨rfl, hrun, (Run.in_order rfl hrun (.read 1)).trans hserve⟩

end Pool

end SlotTransport
