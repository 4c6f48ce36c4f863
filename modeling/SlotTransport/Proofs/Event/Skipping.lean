/-
How many broadcasts a channel may skip. What a manager has claimed for reading and given
back it does not claim again (`Mapping.claimable_released`), so no more claims are made
than there are slots: that a channel bounds their number changes nothing
(`EventChannel.pollBroadcast_unbounded`).
-/
import SlotTransport.Proofs.Event.Waiting
import Mathlib.Data.Finset.Card

namespace SlotTransport

open Segment Event

namespace Segment.Mapping

variable {m after : Mapping} {k : Nat} {s t : Slot}

/-- The slot has what the manager may claim for reading, or what is not yet there, or not
there any more, for it to claim. -/
def MayClaim (m : Mapping) (s : Slot) : Prop :=
  (m.me.destructive = true → s.state ≠ .empty) ∧
    (m.me.destructive = false → m.me.lastSeen < s.sequenceId)

instance (m : Mapping) (s : Slot) : Decidable (m.MayClaim s) :=
  inferInstanceAs (Decidable (_ ∧ _))

/-- The slots that the manager may claim for reading as long as nobody publishes. -/
def claimable (m : Mapping) : Finset Nat :=
  (Finset.range m.slots.length).filter fun k => ∃ s ∈ m.slots[k]?, m.MayClaim s

theorem mem_claimable : k ∈ m.claimable ↔ ∃ s, m.slots[k]? = some s ∧ m.MayClaim s := by
  rw [claimable, Finset.mem_filter, Finset.mem_range]
  constructor
  · exact fun h => h.2
  · rintro ⟨s, hs, hmay⟩
    exact ⟨(List.getElem?_eq_some_iff.mp hs).1, s, hs, hmay⟩

theorem card_claimable_le (m : Mapping) : m.claimable.card ≤ m.slots.length := by
  have hle := Finset.card_filter_le (Finset.range m.slots.length)
    fun k => ∃ s ∈ m.slots[k]?, m.MayClaim s
  rwa [Finset.card_range] at hle

theorem mayClaim_of_isReadable (h : m.isReadable s = true) : m.MayClaim s := by
  simp only [isReadable, Slot.isAddressedTo, Bool.and_eq_true, Bool.or_eq_true, beq_iff_eq,
    decide_eq_true_eq] at h
  obtain ⟨⟨hfull, -⟩, hseen⟩ := h
  refine ⟨fun _ => by simp [hfull], fun hdestructive => ?_⟩
  rcases hseen with htrue | hseen
  · rw [hdestructive] at htrue
    cases htrue
  · exact hseen

/-- What a scan reclaims is no more to be claimed than it was. -/
theorem MayClaim.of_swept {staleness : Staleness} (h : m.MayClaim (s.swept staleness)) :
    m.MayClaim s := by
  obtain ⟨hstate, hseen⟩ := h
  rcases s.swept_cases staleness with hs | ⟨-, hheld, hs⟩ | ⟨-, hheld, hs⟩ | ⟨-, hheld, -, hs⟩
  · rw [hs] at hstate hseen
    exact ⟨hstate, hseen⟩
  all_goals
    rw [hs] at hseen
    exact ⟨fun _ => by simp [hheld], hseen⟩

/-- The further a manager is, the less it may claim. -/
theorem MayClaim.of_seen (h : after.MayClaim s)
    (hdestructive : after.me.destructive = m.me.destructive)
    (hseen : m.me.lastSeen ≤ after.me.lastSeen) : m.MayClaim s :=
  ⟨fun htrue => h.1 (hdestructive.trans htrue),
    fun hfalse => hseen.trans_lt (h.2 (hdestructive.trans hfalse))⟩

/-- What was given back the manager does not claim again. -/
theorem not_mayClaim_released (hseen : m.me.destructive = false → s.sequenceId ≤ m.me.lastSeen)
    (now : Nat) : ¬ m.MayClaim ((m.released s).touched now) := by
  rintro ⟨hstate, hnew⟩
  cases hdestructive : m.me.destructive with
  | true =>
    refine hstate hdestructive ?_
    rw [released, hdestructive]
    rfl
  | false =>
    have hid : ((m.released s).touched now).sequenceId = s.sequenceId := by
      rcases released_cases m s with h | h <;> rw [h] <;> rfl
    have hlt := hnew hdestructive
    rw [hid] at hlt
    exact absurd hlt (Nat.not_lt.mpr (hseen hdestructive))

theorem claimed_cases (hclaim : m.claimForReading.1 = some k) :
    ∃ s, m.slots[k]? = some s ∧ m.isReadable (s.swept m.staleness) = true ∧
      m.claimForReading.2.me = { m.me with
        lastSeen := if m.me.destructive then m.me.lastSeen
          else max m.me.lastSeen (s.swept m.staleness).sequenceId } ∧
      m.claimForReading.2.slots = (m.slots.map (·.swept m.staleness)).set k
        (((s.swept m.staleness).claimedForReading m.me.id).touched m.now) := by
  rcases m.claimForReading_cases with ⟨hnone, -⟩ | ⟨slot, s, hs, hread, -, hsome⟩
  · rw [hnone] at hclaim
    cases hclaim
  rw [hsome] at hclaim ⊢
  obtain rfl : slot = k := Option.some.inj hclaim
  refine ⟨s, hs, hread, me_takeForReading .., ?_⟩
  rw [slots_takeForReading]
  rfl

theorem claimable_released (hclaim : m.claimForReading.1 = some k)
    (hs : m.claimForReading.2.slots[k]? = some s) (ht : s.Reread t) (now : Nat) :
    (m.claimForReading.2.store k ((m.claimForReading.2.released t).touched now)).claimable ⊂
      m.claimable := by
  obtain ⟨s₀, hs₀, hread, hme, hslots⟩ := claimed_cases hclaim
  generalize m.claimForReading.2 = after at hme hslots hs ⊢
  obtain ⟨hlt, -⟩ := List.getElem?_eq_some_iff.mp hs
  have hdestructive : after.me.destructive = m.me.destructive := by rw [hme]
  have hnot : ¬ after.MayClaim ((after.released t).touched now) := by
    refine not_mayClaim_released (fun hkept => ?_) now
    obtain ⟨hlt', -⟩ := List.getElem?_eq_some_iff.mp hs₀
    rw [hslots, List.getElem?_set_self (by simpa using hlt')] at hs
    cases hs
    obtain ⟨_, _, rfl⟩ := ht
    rw [hme, if_neg (by rw [← hdestructive, hkept]; exact Bool.false_ne_true)]
    exact le_max_right ..
  have hgone : k ∉ (after.store k ((after.released t).touched now)).claimable := by
    intro hk
    obtain ⟨u, hu, hmay⟩ := mem_claimable.mp hk
    rw [slots_store, List.getElem?_set_self hlt] at hu
    cases hu
    exact hnot hmay
  have hseen : m.me.lastSeen ≤ after.me.lastSeen := by
    rw [hme]
    dsimp only
    split
    · exact le_refl _
    · exact le_max_left ..
  refine (Finset.ssubset_iff_of_subset fun j hj => ?_).mpr
    ⟨k, mem_claimable.mpr ⟨s₀, hs₀, (mayClaim_of_isReadable hread).of_swept⟩, hgone⟩
  -- Any other slot was at most swept, and the manager is no less far than before.
  have hne : k ≠ j := fun hsame => hgone (hsame ▸ hj)
  obtain ⟨u, hu, hmay⟩ := mem_claimable.mp hj
  rw [slots_store, hslots, List.set_set, List.getElem?_set_ne hne, List.getElem?_map] at hu
  obtain ⟨u₀, hu₀, rfl⟩ := Option.map_eq_some_iff.mp hu
  have hbefore : m.MayClaim (u₀.swept m.staleness) := MayClaim.of_seen hmay hdestructive hseen
  exact mem_claimable.mpr ⟨u₀, hu₀, hbefore.of_swept⟩

end Segment.Mapping

namespace EventChannel

variable {channel channel' : EventChannel} {host host' : Host} {m after : Mapping} {s t : Slot}
  {event : Holding}

/-- A broadcast that is skipped is one less to claim. -/
theorem Claims.exists_claimable (h : channel.Claims .broadcast host event after s channel' host')
    (ht : s.Reread t) : ∃ m m', channel.endpoint.mapping? .broadcast host = some m ∧
      channel'.endpoint.mapping? .broadcast
        ((after.store event.slot ((after.released t).touched after.now)).onto host') = some m' ∧
      m'.claimable.card < m.claimable.card := by
  obtain ⟨m, hm, hclaimed, -, -⟩ := h.exists_claimed
  have hslot := h.reads.reads.slot
  obtain rfl : m.claimForReading.2 = after := by rw [hclaimed]
  refine ⟨m, _, hm, Endpoint.mapping?_store h.reads.mapping _ _, Finset.card_lt_card ?_⟩
  exact Mapping.claimable_released (by rw [hclaimed]) hslot ht _

/-- With one claim more than there are slots to claim, a channel gets as far as with any
number. -/
theorem pollBroadcasts_unbounded {claims : Nat} (hheld : channel.held = none)
    (henough : ∀ m, channel.endpoint.mapping? .broadcast host = some m →
      m.claimable.card ≤ claims) (more : Nat) :
    (pollBroadcasts (claims + 1 + more)).on channel host =
      (pollBroadcasts (claims + 1)).on channel host := by
  induction claims generalizing channel host with
  | zero =>
    rw [Nat.add_right_comm]
    rcases pollBroadcasts_cases hheld host with ⟨answer, after, host', hon, -⟩ |
      ⟨event, after, s, t, channel', host', hclaim, ht, -⟩
    · rw [hon, hon]
    · obtain ⟨m, m', hm, -, hless⟩ := hclaim.exists_claimable ht
      exact absurd (henough m hm) (Nat.not_le.mpr (Nat.zero_lt_of_lt hless))
  | succ claims ih =>
    rw [Nat.add_right_comm]
    rcases pollBroadcasts_cases hheld host with ⟨answer, after, host', hon, -⟩ |
      ⟨event, after, s, t, channel', host', hclaim, ht, -, -, hon⟩
    · rw [hon, hon]
    · -- One claim less is left, and one slot less to claim.
      rw [hon, hon]
      obtain ⟨m, m', hm, hm', hless⟩ := hclaim.exists_claimable ht
      refine ih (hclaim.kept.1.trans hheld) fun after' hafter' => ?_
      cases hm'.symm.trans hafter'
      exact Nat.le_of_lt_succ (hless.trans_le (henough m hm))

theorem slotCount_broadcast {manager : Manager}
    (hbroadcast : channel.endpoint.broadcast = some manager)
    (hm : channel.endpoint.mapping? .broadcast host = some m) :
    manager.slotCount host = m.slots.length := by
  have hmapping : manager.mapping? host = some m := by
    rw [Endpoint.mapping?, Endpoint.manager?, hbroadcast] at hm
    exact hm
  rw [Manager.slotCount, Manager.seen, hmapping]
  rfl

/-- **No broadcast is left out for want of a claim.** However many claims a channel may
make while it looks for a broadcast, beyond those that it does make, it gets as far. -/
theorem pollBroadcast_unbounded {manager : Manager}
    (hbroadcast : channel.endpoint.broadcast = some manager) (hheld : channel.held = none)
    (more : Nat) :
    (pollBroadcasts (manager.slotCount host + 1 + more)).on channel host =
      pollBroadcast.on channel host := by
  rw [on_pollBroadcast hbroadcast host]
  refine pollBroadcasts_unbounded hheld (fun m hm => ?_) more
  rw [slotCount_broadcast hbroadcast hm]
  exact m.card_claimable_le

end EventChannel

end SlotTransport
