/-
How a channel exchanges fragments with a ring of slots. To write a fragment is
to append it, if there is room or the writer overwrites (`Sees.on_write`,
`Sees.on_write_refused`); to read one is to take the oldest (`Sees.on_read_nil`,
`Sees.on_read_cons`), which is what there is to be read in its slot
(`Mapping.view_of_carries`).
-/
import SlotTransport.Proofs.Channel.Reading
import SlotTransport.Proofs.Segment.Ring

namespace SlotTransport

open Segment

/-! ## Slots that are held -/

namespace Segment.Mapping

variable {m : Mapping} {slot : Nat} {s : Slot}

theorem slots_touch (hs : m.slots[slot]? = some s) (s' : Slot) :
    (m.touch slot s').slots[slot]? = some (s'.touched m.now) := by
  obtain ⟨hlt, -⟩ := List.getElem?_eq_some_iff.mp hs
  rw [touch, slots_store, List.getElem?_set_self hlt]

theorem held_of_word {state : SlotState} (hs : m.slots[slot]? = some s)
    (hword : s.word = .of state m.me.id) : m.held slot state = .ok s := by
  refine held_eq_ok_iff.mpr ⟨hs, ?_, ?_⟩
  · rw [Slot.state, hword, StateWord.state_of]
  · rw [Slot.owner, hword, StateWord.owner_of]

theorem write_of_word {data : Bytes} (hs : m.slots[slot]? = some s)
    (hword : s.word = .of .writing m.me.id)
    (hroom : s.writePos + data.length ≤ m.segment.slotSize) :
    m.write slot data = .ok (m.touch slot (s.append data)) := by
  have hpasses : ¬ m.segment.slotSize < Word.wrap (s.writePos + data.length) :=
    Nat.not_lt.mpr ((Word.wrap_le _).trans hroom)
  simp only [write, heldWithRoom, held_of_word hs hword, bind, Except.bind, if_neg hpasses]

theorem publish_of_word (hs : m.slots[slot]? = some s) (hword : s.word = .of .writing m.me.id)
    (destination : Destination) :
    m.publish slot destination = .ok (true,
      (m.touch slot (s.published (m.segment.control.lastSequenceId + 1)
        destination.owner)).withControl
        { m.segment.control with lastSequenceId := m.segment.control.lastSequenceId + 1 }) := by
  simp only [publish, slotAt_eq_ok_iff.mpr hs, bind, Except.bind, if_pos hword]

theorem exists_sent {fragment : Fragment} (hs : m.slots[slot]? = some s)
    (hword : s.word = .of .writing m.me.id) (hstart : s.writePos = 0)
    (hfits : fragment.size ≤ m.segment.slotSize) :
    ∃ s' filled sent, m.write slot fragment.encode = .ok filled ∧ m.Kept filled ∧
      filled.written slot = .ok fragment.size ∧ filled.publish slot .any = .ok (true, sent) ∧
      filled.Kept sent ∧ sent.slots = m.slots.set slot s' ∧
      s'.Carries m.segment.control.lastSequenceId fragment ∧
      sent.segment.control.lastSequenceId = m.segment.control.lastSequenceId + 1 ∧
      sent.segment.control.writerCursor = m.segment.control.writerCursor := by
  have hroom : s.writePos + fragment.encode.length ≤ m.segment.slotSize := by
    rw [hstart, Nat.zero_add, fragment.length_encode]
    exact hfits
  have hpos : (s.append fragment.encode).writePos = fragment.size := by
    simp [Slot.append, hstart, fragment.length_encode, Word.wrap_of_lt fragment.size_lt]
  have hmemory : fragment.encode <+: (s.append fragment.encode).memory := by
    simp [Slot.append, hstart, Bytes.zeroExtended, Bytes.zeros]
  have hfilled := slots_touch hs (s.append fragment.encode)
  have hword' : ((s.append fragment.encode).touched m.now).word = .of .writing m.me.id := by
    rw [← hword, Slot.append, Slot.touched]
  have hmove : Move _ (.publish slot .any) (.flag true) _ := .published hfilled hword'
  refine ⟨(((s.append fragment.encode).touched m.now).published
      (m.segment.control.lastSequenceId + 1) noOwner).touched m.now, _, _,
    write_of_word hs hword hroom, kept_store m _ _, ?_, publish_of_word hfilled hword' .any,
    hmove.kept, ?_, ⟨rfl, rfl, hpos, hmemory⟩, rfl, rfl⟩
  · rw [written_eq hfilled, Slot.writePos_touched, hpos]
  · exact List.set_set ..

theorem view_of_carries {p : Nat} {fragment : Fragment} (hs : m.slots[slot]? = some s)
    (hcarries : s.Carries p fragment) (hfits : fragment.size ≤ m.segment.slotSize) :
    (m.takeForReading slot s).view slot = .ok fragment.encode := by
  obtain ⟨hlt, -⟩ := List.getElem?_eq_some_iff.mp hs
  have hsegment := segment_takeForReading m slot s
  have hclaimed : (m.takeForReading slot s).slots[slot]? =
      some ((s.claimedForReading m.me.id).touched m.now) := by
    rw [slots_takeForReading, List.getElem?_set_self hlt]
  have hwritten : ((s.claimedForReading m.me.id).touched m.now).writePos = fragment.size :=
    hcarries.writePos
  have hsize : (m.takeForReading slot s).segment.slotSize = m.segment.slotSize := by rw [hsegment]
  have hslot : (m.takeForReading slot s).segment.slots[slot]? =
      some ((s.claimedForReading m.me.id).touched m.now) := hclaimed
  refine (view_iff hclaimed).mpr ⟨⟨rfl, ?_⟩, ?_⟩
  · rw [me_takeForReading]
    rfl
  · rw [hwritten, Segment.bytesAt, hslot]
    simp only [hsize, Nat.zero_add, if_pos hfits, Slot.bytesAt, List.drop_zero]
    rw [← fragment.length_encode]
    exact (Bytes.zeroExtended_of_prefix hcarries.memory).symm

end Segment.Mapping

namespace FragmentChannel.Sees

variable {channel : FragmentChannel} {host : Host} {m after : Mapping} {slot : Nat} {s : Slot}
  {fragment : Fragment} {overwrite : Bool}

/-! ## Writing -/

theorem on_claimSlot_some (h : channel.Sees host m)
    (hclaim : m.claimForWriting overwrite = (some slot, after)) (timeout : Nat) :
    (claimSlot overwrite timeout).on channel host =
      (.ok slot, channel.follow after.me, host.store m.me.object after.segment) := by
  have hattempt : (onManager (Manager.claimForWriting overwrite)).on channel host =
      (.ok (some slot), channel.follow after.me, host.store m.me.object after.segment) :=
    h.on_guarded (by rw [Program.on_claimForWriting, hclaim]) .segment
  rw [claimSlot, Action.on_bind_ok (Poll.on_await_some hattempt timeout)]
  rfl

theorem on_claimSlot_none (h : channel.Sees host m)
    (hclaim : m.claimForWriting overwrite = (none, m)) (timeout : Nat) :
    (claimSlot overwrite timeout).on channel host =
      (.error (.noSlot channel.manager.key), channel, host) := by
  have hattempt : (onManager (Manager.claimForWriting overwrite)).on channel host =
      (.ok none, channel.follow m.me, host.store m.me.object m.segment) :=
    h.on_guarded (by rw [Program.on_claimForWriting, hclaim]) .segment
  rw [h.follow_self, h.store_self] at hattempt
  rw [claimSlot, Action.on_bind_ok (Poll.on_await_none hattempt timeout)]
  rfl

theorem on_write_oversized (h : channel.Sees host m)
    (hsize : m.segment.slotSize < fragment.size) (overwrite : Bool) (timeout : Nat) :
    (write fragment overwrite timeout).on channel host =
      (.error (.incomplete fragment.size 0), channel, host) := by
  rw [write, Action.on_bind_ok (Action.on_own ..), writeTo, Action.on_bind_ok h.on_requireAttached,
    Action.on_bind_ok (Action.on_ask ..), h.slotSize]
  simp only [fragment.length_encode, if_pos hsize]
  rfl

theorem on_write_claimed (h : channel.Sees host m) (hdestination : channel.destination = .any)
    (hfits : fragment.size ≤ m.segment.slotSize) (hs : m.slots[slot]? = some s)
    (hclaim : m.claimForWriting overwrite = (some slot, m.takeForWriting slot s))
    (timeout : Nat) :
    ∃ s' after registry, (write fragment overwrite timeout).on channel host =
        (.ok (), channel.follow after.me, { host.store m.me.object after.segment with registry }) ∧
      m.Kept after ∧ after.slots = m.slots.set slot s' ∧
      s'.Carries m.segment.control.lastSequenceId fragment ∧
      after.segment.control.lastSequenceId = m.segment.control.lastSequenceId + 1 ∧
      after.segment.control.writerCursor = m.following slot := by
  obtain ⟨hlt, -⟩ := List.getElem?_eq_some_iff.mp hs
  have hclaimed : m.Kept (m.takeForWriting slot s) := by
    have hkept := Mapping.kept_claimForWriting m overwrite
    rwa [hclaim] at hkept
  have hsegment := Mapping.segment_takeForWriting m slot s
  have hslots₁ : (m.takeForWriting slot s).slots =
      m.slots.set slot ((s.claimedForWriting m.me.id).touched m.now) := by
    rw [Mapping.slots, hsegment]
  obtain ⟨s', filled, sent, hwrite, hfilled, hwritten, hpublish, hsent, hslots, hcarries, hlast,
    hcursor⟩ := Mapping.exists_sent (by rw [hslots₁, List.getElem?_set_self hlt])
      (by rw [Mapping.me_takeForWriting]; rfl) rfl (by rw [hsegment]; exact hfits)
  rw [hslots₁, List.set_set] at hslots
  rw [hsegment] at hcarries hlast hcursor
  have h₁ := h.next hclaimed
  have h₂ := h₁.next hfilled
  obtain ⟨registry, hcount⟩ := on_countTraffic
    (fun counters => (counters.fragmentsWritten, counters.bytesWritten)) fragment.size
    (channel.follow sent.me) (host.store m.me.object sent.segment)
  refine ⟨s', sent, registry, ?_, hclaimed.trans (hfilled.trans hsent), hslots, hcarries, hlast,
    hcursor⟩
  rw [write, Action.on_bind_ok (Action.on_own ..), hdestination, writeTo,
    Action.on_bind_ok h.on_requireAttached, Action.on_bind_ok (Action.on_ask ..), h.slotSize]
  simp only [fragment.length_encode, if_neg (Nat.not_lt.mpr hfits)]
  rw [Action.on_bind_ok (h.on_claimSlot_some hclaim timeout),
    Action.on_bind_ok (h₁.on_writeBytes hwrite), Action.on_bind_ok (h₂.on_written hwritten)]
  simp only [ne_eq, not_true_eq_false, if_false]
  rw [Action.on_bind_ok (h₂.on_publish hpublish)]
  simp only [Bool.not_true, Bool.false_eq_true, if_false, follow_follow, hfilled.me.object,
    hclaimed.me.object, Host.store_store]
  exact hcount

variable {first : Nat} {fragments : List Fragment}

/-- A fragment that is written comes after all others. Where every slot holds a
record, the oldest is gone. -/
theorem on_write (h : channel.Sees host m) (hdestination : channel.destination = .any)
    (hgone : m.me.destructive = true) (hring : m.segment.Ring first fragments)
    (hfits : fragment.size ≤ m.segment.slotSize) (hpos : 0 < m.slots.length)
    (hmay : fragments.length < m.slots.length ∨ overwrite = true) (timeout : Nat) :
    ∃ after first' registry, (write fragment overwrite timeout).on channel host =
        (.ok (), channel.follow after.me, { host.store m.me.object after.segment with registry }) ∧
      m.Kept after ∧ after.segment.Ring first'
        (fragments.drop (fragments.length + 1 - m.slots.length) ++ [fragment]) := by
  obtain ⟨s, hs, hclaim⟩ := hring.claimForWriting hgone hpos hmay
  obtain ⟨s', after, registry, hwrite, hkept, hslots, hcarries, hlast, hcursor⟩ :=
    h.on_write_claimed hdestination hfits hs hclaim timeout
  rw [hring.last] at hcarries
  by_cases hroom : fragments.length < m.slots.length
  · refine ⟨after, first, registry, hwrite, hkept, ?_⟩
    rw [Nat.sub_eq_zero_of_le hroom, List.drop_zero]
    exact hring.push hroom hcarries hfits hkept.segment.slotSize hslots hlast hcursor
  · have hfull : fragments.length = m.slots.length :=
      Nat.le_antisymm hring.length_le (Nat.not_lt.mp hroom)
    obtain ⟨oldest, others, rfl⟩ := List.exists_cons_of_length_pos (hfull ▸ hpos)
    -- The segment without the oldest record, in between.
    let evicted : Segment :=
      { m.segment with slots := m.slots.set (first % m.slots.length) s.freed }
    have hevicted : evicted.Ring (first + 1) others := hring.pop rfl rfl rfl rfl rfl
    have hlength : evicted.slots.length = m.slots.length := List.length_set
    have hnumber : first + (oldest :: others).length = first + 1 + others.length := by
      rw [List.length_cons]
      omega
    have haround : (first + 1 + others.length) % m.slots.length = first % m.slots.length := by
      rw [← hnumber, hfull, Nat.add_mod_right]
    rw [hnumber] at hcarries hslots hcursor
    refine ⟨after, first + 1, registry, hwrite, hkept, ?_⟩
    rw [hfull, Nat.add_sub_cancel_left, List.drop_one, List.tail_cons]
    refine hevicted.push ?_ hcarries hfits hkept.segment.slotSize ?_ hlast ?_
    · rw [hlength, ← hfull]
      exact Nat.lt_succ_self _
    · rw [hlength, haround]
      rw [haround] at hslots
      exact hslots.trans (List.set_set ..).symm
    · rw [hlength]
      exact hcursor

/-- Where every slot holds a record, a fragment is refused by a writer that does
not overwrite. -/
theorem on_write_refused (h : channel.Sees host m) (hgone : m.me.destructive = true)
    (hring : m.segment.Ring first fragments) (hfits : fragment.size ≤ m.segment.slotSize)
    (hfull : fragments.length = m.slots.length) (timeout : Nat) :
    (write fragment false timeout).on channel host =
      (.error (.noSlot channel.manager.key), channel, host) := by
  have hclaim := hring.claimForWriting_full hgone hfull
  rw [write, Action.on_bind_ok (Action.on_own ..), writeTo, Action.on_bind_ok h.on_requireAttached,
    Action.on_bind_ok (Action.on_ask ..), h.slotSize]
  simp only [fragment.length_encode, if_neg (Nat.not_lt.mpr hfits)]
  rw [Action.on_bind_error (h.on_claimSlot_none hclaim timeout)]

/-! ## Reading -/

theorem on_read_nil (h : channel.Sees host m) (hheld : channel.held = none)
    (hgone : m.me.destructive = true) (hring : m.segment.Ring first []) :
    read.on channel host = (.ok none, channel, host) := by
  have hclaim := h.on_claimForReading (hring.claimForReading_nil hgone)
  rw [h.follow_self, h.store_self] at hclaim
  have hheader : readHeader.on channel host = (.ok none, channel, host) := by
    rw [readHeader, Action.on_bind_ok (Action.on_own ..)]
    simp only [hheld]
    rw [Action.on_bind_ok h.on_requireAttached, Action.on_bind_ok hclaim, Action.on_pure]
  rw [read, Action.on_bind_ok hheader, Action.on_pure]

/-- What is read is the oldest fragment, and it is gone. -/
theorem on_read_cons (h : channel.Sees host m) (hheld : channel.held = none)
    (hgone : m.me.destructive = true) (hring : m.segment.Ring first (fragment :: fragments)) :
    ∃ after registry, read.on channel host =
        (.ok (some fragment), channel.follow after.me,
          { host.store m.me.object after.segment with registry }) ∧
      m.Kept after ∧ after.segment.Ring (first + 1) fragments := by
  have hfits : fragment.size ≤ m.segment.slotSize := hring.fits _ List.mem_cons_self
  obtain ⟨s, hs, hcarries, hclaim⟩ := hring.claimForReading_cons hgone
  obtain ⟨s₁, hon, hreads, -, hpos⟩ :=
    exists_reads h.mapping? hclaim (Mapping.view_of_carries hs hcarries hfits)
  obtain ⟨t, registry, -, hread⟩ :=
    hreads.on_read_told hpos (Manager.isAttached_of_mapping? h.mapping?) hheld hon
  have htold : told (first % m.slots.length) fragment.encode = .ok fragment :=
    told_eq_ok_iff.mpr fragment.decode_encode
  have hkept := m.kept_claimForReading
  rw [hclaim] at hkept
  have hslots := Mapping.slots_takeForReading m (first % m.slots.length) s
  have hlast : (m.takeForReading (first % m.slots.length) s).segment.control.lastSequenceId =
      m.segment.control.lastSequenceId := by rw [Mapping.segment_takeForReading]
  have hcursor : (m.takeForReading (first % m.slots.length) s).segment.control.writerCursor =
      m.segment.control.writerCursor := by rw [Mapping.segment_takeForReading]
  generalize m.takeForReading (first % m.slots.length) s = claimed at *
  let after := claimed.store (first % m.slots.length) (t.freed.touched claimed.now)
  have hobject : after.me.object = m.me.object := hkept.me.object
  have hemptied : after.slots = m.slots.set (first % m.slots.length)
      (t.freed.touched claimed.now) := by
    rw [Mapping.slots_store, hslots, List.set_set]
  rw [htold, Mapping.released_of_gone (hkept.me.destructive.trans hgone), Mapping.onto_onto,
    Mapping.onto, hobject] at hread
  exact ⟨after, registry, hread, hkept.trans (Mapping.kept_store _ _ _),
    hring.pop (s := t.freed.touched claimed.now) rfl hkept.segment.slotSize hemptied hlast hcursor⟩

/-! ## Leaving -/

theorem slots_left (hring : m.segment.Ring first fragments) : m.left.slots = m.slots := by
  refine (List.map_congr_left fun s hs => ?_).trans (List.map_id _)
  obtain ⟨k, hk⟩ := List.mem_iff_getElem?.mp hs
  have hstate := hring.state_cases hk
  rcases s.leftBy_cases m.me.id with hkept | ⟨-, hwriting, -⟩ | ⟨-, hreading, -⟩
  · exact hkept
  · simp [hwriting] at hstate
  · simp [hreading] at hstate

/-- A channel that ends leaves all fragments where they are. -/
theorem exists_dropped (h : channel.Sees host m) (hring : m.segment.Ring first fragments) :
    ∃ segment, (channel.manager.drop host).objects = host.objects.set m.me.object segment ∧
      segment.Alike m.segment ∧ segment.Ring first fragments := by
  have hslots := slots_left hring
  rw [Manager.drop_eq h.mapping?]
  split
  · refine ⟨Manager.ended m, by rw [Host.objects_unlink, Host.objects_store], ?_,
      hring.congr hslots rfl rfl rfl⟩
    exact ⟨rfl, rfl, rfl, rfl, rfl, rfl, rfl, congrArg List.length hslots⟩
  · exact ⟨m.left, Host.objects_store .., ⟨rfl, rfl, rfl, rfl, rfl, rfl, rfl,
      congrArg List.length hslots⟩, hring.congr hslots rfl rfl rfl⟩

end FragmentChannel.Sees

end SlotTransport
