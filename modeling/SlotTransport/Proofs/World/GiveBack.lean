/-
Records that are claimed and given back unread. However that is done, the slot is full
again with its record, for anybody (`GivesBack.givenBack`). Where a record is gone once
read that is as if nothing had happened: as many records wait as before, and the next claim
takes the same. Where all are to see it, the manager has moved past the record with its
claim, and does not come back (`claim_given_back`): what it has not read is lost to it
(`lost_by_giving_back`).
-/
import SlotTransport.Proofs.Channel.Exchange
import SlotTransport.Proofs.Event.Sight
import SlotTransport.Proofs.World.Forecast

namespace SlotTransport

open Segment

/-! ## What is given back -/

namespace Segment.Mapping

variable {m m' after : Mapping} {k : Nat} {s t : Slot}

/-- What a manager sees that has claimed the record of a slot and given it back. -/
structure GivenBack (m : Mapping) (k : Nat) (s : Slot) (m' : Mapping) : Prop where
  now : m'.now = m.now
  me : m'.me = (m.takeForReading k s).me
  slots : m'.slots = m.slots.set k (s.returned.touched m.now)

/-- What a manager sees that has claimed the record of a slot, and perhaps read in it. -/
structure Claimed (m : Mapping) (k : Nat) (s : Slot) (m' : Mapping) : Prop where
  kept : m.Kept m'
  me : m'.me = (m.takeForReading k s).me
  slots : ∃ pos, m'.slots = m.slots.set k
    { s with word := .of .reading m.me.id, readPos := pos, lastTouch := m.now }

theorem reset_of_reading (ht : m.slots[k]? = some t) (hholds : m.Holds t .reading) :
    m.reset k = .ok (true, m.store k (t.returned.touched m.now)) := by
  obtain ⟨hreading, howner⟩ := hholds
  simp [reset, slotAt_eq_ok_iff.mpr ht, bind, Except.bind, Slot.reclaimed?, hreading, howner,
    staleness]

namespace Claimed

theorem takeForReading (hclaim : m.claimForReading = (some k, m.takeForReading k s)) :
    m.Claimed k s (m.takeForReading k s) := by
  have hkept := kept_claimForReading m
  rw [hclaim] at hkept
  exact ⟨hkept, rfl, 0, slots_takeForReading m k s⟩

theorem id (h : m.Claimed k s m') : m'.me.id = m.me.id := by
  rw [h.me, me_takeForReading]

theorem holds (h : m.Claimed k s m') (hs : m.slots[k]? = some s) : ∃ t pos,
    t = { s with word := .of .reading m.me.id, readPos := pos, lastTouch := m.now } ∧
      m'.slots[k]? = some t ∧ m'.Holds t .reading := by
  obtain ⟨pos, hslots⟩ := h.slots
  obtain ⟨hlt, -⟩ := List.getElem?_eq_some_iff.mp hs
  exact ⟨_, pos, rfl, by rw [hslots, List.getElem?_set_self hlt], rfl, h.id.symm⟩

theorem readOn (h : m.Claimed k s m') (ht : m'.slots[k]? = some t) (hs : m.slots[k]? = some s)
    (len : Nat) : m.Claimed k s (m'.touch k (t.advance len)) := by
  obtain ⟨pos, hslots⟩ := h.slots
  obtain ⟨hlt, -⟩ := List.getElem?_eq_some_iff.mp hs
  rw [hslots, List.getElem?_set_self hlt] at ht
  cases ht
  refine ⟨h.kept.trans (kept_store m' _ _), h.me, pos + len, ?_⟩
  rw [touch, slots_store, hslots, List.set_set, h.kept.now]
  rfl

theorem reset (h : m.Claimed k s m') (hs : m.slots[k]? = some s) : ∃ after,
    m'.reset k = .ok (true, after) ∧ m'.Kept after ∧ m.GivenBack k s after := by
  obtain ⟨t, pos, rfl, ht, hholds⟩ := h.holds hs
  obtain ⟨pos', hslots⟩ := h.slots
  refine ⟨_, reset_of_reading ht hholds, kept_store m' _ _, h.kept.now, h.me, ?_⟩
  rw [slots_store, hslots, List.set_set, h.kept.now]
  rfl

end Claimed

namespace GivenBack

theorem lookup (h : m.GivenBack k s m') (hs : m.slots[k]? = some s) :
    m'.slots[k]? = some (s.returned.touched m.now) := by
  obtain ⟨hlt, -⟩ := List.getElem?_eq_some_iff.mp hs
  rw [h.slots, List.getElem?_set_self hlt]

theorem id (h : m.GivenBack k s m') : m'.me.id = m.me.id := by
  rw [h.me, me_takeForReading]

theorem destructive (h : m.GivenBack k s m') : m'.me.destructive = m.me.destructive := by
  rw [h.me, me_takeForReading]

theorem lively (h : m.GivenBack k s m') (hlively : m.Lively) : m'.Lively := by
  refine hlively.set (t := s.returned) h.slots ?_
  rw [staleness, staleness, h.me, h.now, me_takeForReading]

theorem isReadable_of_gone (h : m.GivenBack k s m') (hgone : m.me.destructive = true) :
    m'.isReadable = m.isReadable := by
  funext t
  rw [isReadable, isReadable, h.id, h.destructive, hgone, Bool.true_or, Bool.true_or]

/-- Where all are to see a record, a manager may read what comes after the one that it gave
back. -/
theorem isReadable_of_lasting (h : m.GivenBack k s m') (hlasting : m.me.destructive = false)
    (hread : m.isReadable s = true) (t : Slot) :
    m'.isReadable t = (t.isAddressedTo m.me.id && decide (s.sequenceId < t.sequenceId)) := by
  have hseen := lastSeen_lt_of_readable hlasting hread
  have hlast : m'.me.lastSeen = s.sequenceId := by
    rw [h.me, me_takeForReading, hlasting]
    exact max_eq_right hseen.le
  rw [isReadable, h.id, h.destructive, hlasting, Bool.false_or, hlast]

end GivenBack

/-- The record that a claim for reading takes where nothing is stale. -/
structure Earliest (m : Mapping) (k : Nat) (s : Slot) : Prop where
  slot : m.slots[k]? = some s
  readable : m.isReadable s = true
  least : ∀ (j : Nat) (t : Slot), m.slots[j]? = some t → m.isReadable t = true →
    s.sequenceId ≤ t.sequenceId

namespace Earliest

theorem lt_of_ne (h : m.Earliest k s) (hsound : m.segment.Sound) {j : Nat}
    (ht : m.slots[j]? = some t) (hread : m.isReadable t = true) (hj : j ≠ k) :
    s.sequenceId < t.sequenceId := by
  refine lt_of_le_of_ne (h.least j t ht hread) fun hid => hj ?_
  have hrecord := ((hsound.slot h.slot).full (state_of_isReadable h.readable)).2
  exact (hsound.distinct h.slot ht (by omega) hid).symm

theorem count_of_gone (h : m.Earliest k s) (hback : m.GivenBack k s m')
    (hgone : m.me.destructive = true) : m'.readableCount = m.readableCount := by
  obtain ⟨hlt, hs⟩ := List.getElem?_eq_some_iff.mp h.slot
  have hreturned : m.isReadable (s.returned.touched m.now) = true := by
    simp [isReadable, Slot.isAddressedTo, hgone]
  have hpos : 0 < m.slots.countP m.isReadable :=
    List.countP_pos_iff.mpr ⟨s, List.mem_of_getElem? h.slot, h.readable⟩
  rw [readableCount, hback.isReadable_of_gone hgone, hback.slots, List.countP_set hlt, hs,
    h.readable, hreturned, readableCount]
  simp only [if_true]
  omega

/-- Where a record is gone once read, what was given back is claimed next. -/
theorem claim_of_gone (h : m.Earliest k s) (hback : m.GivenBack k s m') (hlively : m.Lively)
    (hsound : m.segment.Sound) (hgone : m.me.destructive = true) :
    m'.claimForReading.1 = some k := by
  have hreturned : m'.isReadable (s.returned.touched m.now) = true := by
    rw [hback.isReadable_of_gone hgone]
    simp [isReadable, Slot.isAddressedTo, hgone]
  rcases (hback.lively hlively).claimForReading with
    ⟨-, hnil⟩ | ⟨j, t, ht, hread, hleast, hclaim⟩
  · have hk : k ∈ m'.passing m'.isReadable := mem_passing.mpr ⟨_, hback.lookup h.slot, hreturned⟩
    rw [hnil] at hk
    cases hk
  · rw [hclaim]
    by_contra hj
    have hj : j ≠ k := fun heq => hj (congrArg some heq)
    rw [hback.slots, List.getElem?_set_ne (Ne.symm hj)] at ht
    rw [hback.isReadable_of_gone hgone] at hread
    have hlater := h.lt_of_ne hsound ht hread hj
    exact absurd (hleast k _ (hback.lookup h.slot) hreturned) (not_le.mpr hlater)

/-- Where all are to see a record, a manager may not read what it gave back. -/
theorem not_readable_of_lasting (h : m.Earliest k s) (hback : m.GivenBack k s m')
    (hlasting : m.me.destructive = false) :
    m'.isReadable (s.returned.touched m.now) = false := by
  rw [hback.isReadable_of_lasting hlasting h.readable]
  simp

theorem count_of_lasting (h : m.Earliest k s) (hback : m.GivenBack k s m')
    (hsound : m.segment.Sound) (hlasting : m.me.destructive = false) :
    m'.readableCount + 1 = m.readableCount := by
  have hseen := lastSeen_lt_of_readable hlasting h.readable
  have hsame : ∀ (j : Nat) (t : Slot), j ≠ k → m.slots[j]? = some t →
      m'.isReadable t = m.isReadable t := by
    intro j t hj ht
    rw [hback.isReadable_of_lasting hlasting h.readable]
    cases hread : m.isReadable t with
    | true =>
      have hlater := h.lt_of_ne hsound ht hread hj
      rw [isReadable, Bool.and_eq_true] at hread
      rw [hread.1, decide_eq_true hlater]
      rfl
    | false =>
      rw [isReadable, hlasting, Bool.false_or, Bool.and_eq_false_iff, decide_eq_false_iff_not,
        not_lt] at hread
      rw [Bool.and_eq_false_iff, decide_eq_false_iff_not, not_lt]
      exact hread.imp_right fun hle => hle.trans hseen.le
  have hperm : (m.passing m.isReadable).Perm (k :: m'.passing m'.isReadable) :=
    perm_passing h.slot hback.slots h.readable (h.not_readable_of_lasting hback hlasting) hsame
  have hlength := hperm.length_eq
  rw [List.length_cons, length_passing, length_passing] at hlength
  exact hlength.symm

theorem claim_of_lasting (h : m.Earliest k s) (hback : m.GivenBack k s m') (hlively : m.Lively)
    (hlasting : m.me.destructive = false) : m'.claimForReading.1 ≠ some k := by
  rcases (hback.lively hlively).claimForReading with ⟨hclaim, -⟩ | ⟨j, t, ht, hread, -, hclaim⟩
  · rw [hclaim]
    exact Option.some_ne_none k |>.symm
  · rw [hclaim]
    intro heq
    cases heq
    rw [hback.lookup h.slot] at ht
    cases ht
    rw [h.not_readable_of_lasting hback hlasting] at hread
    cases hread

end Earliest

end Segment.Mapping

/-! ## Ways to give back -/

namespace Manager

variable {α : Type} {manager : Manager} {host : Host} {m after : Mapping}

/-- A manager that claims the record of a slot and gives it back, without reading it, one way
or another. -/
inductive GivesBack (manager : Manager) (host : Host) (slot : Nat) : Manager → Host → Prop where
  | reset {claimant after : Manager} {host₁ host₂ : Host} {answer : Except Segment.Error Bool}
    (hclaim : claimForReading.on manager host = (.ok (some slot), claimant, host₁))
    (hback : (Manager.reset slot).on claimant host₁ = (answer, after, host₂)) :
    GivesBack manager host slot after host₂
  | drop {claimant after : Manager} {host₁ host₂ : Host} {answer : Except Segment.Error Unit}
    (hclaim : leaseForReading.on manager host = (.ok (some ⟨slot⟩), claimant, host₁))
    (hback : (ReadLease.drop ⟨slot⟩).on claimant host₁ = (answer, after, host₂)) :
    GivesBack manager host slot after host₂
  /-- A channel gives the slot back whose header it has read. -/
  | channel {channel claimant after : FragmentChannel} {host₁ host₂ : Host}
    {header : Fragment.Header} {answer : Except ChannelError Unit}
    (hmanager : channel.manager = manager) (hidle : channel.held = none)
    (hclaim : FragmentChannel.readHeader.on channel host = (.ok (some header), claimant, host₁))
    (hheld : claimant.held = some (slot, header))
    (hback : FragmentChannel.giveBack.on claimant host₁ = (answer, after, host₂)) :
    GivesBack manager host slot after.manager host₂

theorem on_guarded (h : manager.mapping? host = some m)
    {op : Program α} {answer : α} (hop : op.on m = (.ok answer, after))
    (hkept : m.Kept after) : (guarded op).on manager host =
      (.ok answer, { manager with attachment := some after.me }, after.onto host) := by
  simp only [guarded, Action.on_of, h, hop]
  rw [Mapping.onto, hkept.me.object]

theorem on_reset (h : manager.mapping? host = some after) {slot : Nat} {s : Slot}
    (hclaimed : m.Claimed slot s after) (hs : m.slots[slot]? = some s) :
    ∃ manager' host' m', (Manager.reset slot).on manager host = (.ok true, manager', host') ∧
      manager'.mapping? host' = some m' ∧ host'.objects[m.me.object]? = some m'.segment ∧
      m.GivenBack slot s m' := by
  obtain ⟨m', hreset, hkept, hback⟩ := hclaimed.reset hs
  refine ⟨_, _, m', on_guarded h (Program.on_of_settled (Program.on_reset slot _) hreset) hkept,
    mapping?_onto h hkept, ?_, hback⟩
  obtain ⟨me, segment, -, hobject, rfl⟩ := mapping?_eq_some_iff.mp h
  obtain ⟨hlt, -⟩ := List.getElem?_eq_some_iff.mp hobject
  have hsame : m'.me.object = me.object := hkept.me.object
  have hsame₀ : me.object = m.me.object := hclaimed.kept.me.object
  rw [Mapping.onto, hsame, ← hsame₀, Host.objects_store, List.getElem?_set_self hlt]

theorem on_claimForReading (h : manager.mapping? host = some m) (hlively : m.Lively) {slot : Nat}
    {claimant : Manager} {host' : Host}
    (hclaim : claimForReading.on manager host = (.ok (some slot), claimant, host')) :
    ∃ s m', m.Earliest slot s ∧ claimant.mapping? host' = some m' ∧ m.Claimed slot s m' := by
  have hkept := Mapping.kept_claimForReading m
  have hon : claimForReading.on manager host = (.ok m.claimForReading.1,
      { manager with attachment := some m.claimForReading.2.me },
      m.claimForReading.2.onto host) := on_guarded h (Program.on_claimForReading m) hkept
  have hmapping := mapping?_onto h hkept
  rw [hon] at hclaim
  simp only [Prod.mk.injEq, Except.ok.injEq] at hclaim
  obtain ⟨hslot, rfl, rfl⟩ := hclaim
  rcases hlively.claimForReading with ⟨hnone, -⟩ | ⟨k, s, hs, hread, hleast, hsome⟩
  · rw [hnone] at hslot
    cases hslot
  · rw [hsome] at hslot hmapping ⊢
    cases hslot
    exact ⟨s, _, ⟨hs, hread, hleast⟩, hmapping, .takeForReading hsome⟩

end Manager

namespace FragmentChannel.Sees

variable {channel claimant : FragmentChannel} {host host' : Host} {m : Mapping} {slot : Nat}
  {s : Slot} {header : Fragment.Header}

theorem claimed_of_readHeader (h : channel.Sees host m) (hlively : m.Lively)
    (hidle : channel.held = none)
    (hclaim : readHeader.on channel host = (.ok (some header), claimant, host'))
    (hheld : claimant.held = some (slot, header)) :
    ∃ s m', m.Earliest slot s ∧ claimant.manager.mapping? host' = some m' ∧
      m.Claimed slot s m' := by
  rcases hlively.claimForReading with ⟨hnone, -⟩ | ⟨k, s, hs, hread, hleast, hsome⟩
  · rw [readHeader, Action.on_bind_ok (Action.on_own ..)] at hclaim
    simp only [hidle] at hclaim
    rw [Action.on_bind_ok h.on_requireAttached, Action.on_bind_ok (h.on_claimForReading hnone),
      Action.on_pure] at hclaim
    cases hclaim
  · have hclaimed := Mapping.Claimed.takeForReading hsome
    obtain ⟨t, -, -, ht, hholds⟩ := hclaimed.holds hs
    obtain ⟨s₁, hon, hreads, hs₁, hpos⟩ :=
      exists_reads h.mapping? hsome ((Mapping.view_iff ht).mpr ⟨hholds, rfl⟩)
    obtain ⟨t₁, hreread, hadvanced, hheader⟩ :=
      hreads.on_readHeader hpos (Manager.isAttached_of_mapping? h.mapping?) hidle hon
    rw [hheader] at hclaim
    split at hclaim
    · cases hclaim
    · rename_i found hfound
      cases hclaim
      cases hheld
      have hread₁ := hclaimed.readOn hs₁ hs Fragment.Header.size
      refine ⟨s, _, ⟨hs, hread, hleast⟩, hreads.mapping?_store t₁, ?_⟩
      rw [hadvanced header hfound]
      exact hread₁

end FragmentChannel.Sees

namespace Manager

variable {manager after : Manager} {host host' : Host} {m : Mapping} {slot : Nat}

/-- Whichever way a record is given back, it is the earliest, it was claimed, and its slot is
reset. -/
theorem GivesBack.exists_claimed (h : manager.GivesBack host slot after host')
    (hsees : ∀ channel : FragmentChannel, channel.manager = manager → channel.Sees host m)
    (hlively : m.Lively) : ∃ claimant host₁ s m₁, m.Earliest slot s ∧
      mapping? claimant host₁ = some m₁ ∧ m.Claimed slot s m₁ ∧
      ((Manager.reset slot).on claimant host₁).2 = (after, host') := by
  have hmapping : manager.mapping? host = some m := (hsees (.new manager) rfl).mapping?
  cases h with
  | reset hclaim hback =>
    obtain ⟨s, m₁, hearliest, hmapping₁, hclaimed⟩ := on_claimForReading hmapping hlively hclaim
    exact ⟨_, _, s, m₁, hearliest, hmapping₁, hclaimed, congrArg Prod.snd hback⟩
  | drop hlease hback =>
    obtain ⟨slot?, claimant, host₁, hclaim⟩ : ∃ slot? claimant host₁,
        claimForReading.on manager host = (.ok slot?, claimant, host₁) :=
      ⟨_, _, _, on_guarded hmapping (Program.on_claimForReading m) (Mapping.kept_claimForReading m)⟩
    rw [leaseForReading, Action.on_bind_ok hclaim, Action.on_pure] at hlease
    cases slot? with
    | none => cases hlease
    | some k =>
      cases hlease
      obtain ⟨s, m₁, hearliest, hmapping₁, hclaimed⟩ := on_claimForReading hmapping hlively hclaim
      exact ⟨_, _, s, m₁, hearliest, hmapping₁, hclaimed, congrArg Prod.snd hback⟩
  | channel hmanager hidle hclaim hheld hback =>
    obtain ⟨s, m₁, hearliest, hmapping₁, hclaimed⟩ :=
      (hsees _ hmanager).claimed_of_readHeader hlively hidle hclaim hheld
    refine ⟨_, _, s, m₁, hearliest, hmapping₁, hclaimed, ?_⟩
    rw [FragmentChannel.giveBack, Action.on_bind_ok (Action.on_own ..)] at hback
    simp only [hheld] at hback
    rw [Action.on_bind_ok (Action.on_change ..), FragmentChannel.onManager,
      FragmentChannel.onManagerAs, Action.on_bind, Action.within, Action.on_of] at hback
    rcases hreset : (Manager.reset slot).on _ _ with ⟨answer, manager', host''⟩
    simp only [hreset] at hback
    cases answer <;> (cases hback; rfl)

/-- However the earliest record is given back, its slot is full again. -/
theorem GivesBack.givenBack (h : manager.GivesBack host slot after host')
    (hsees : ∀ channel : FragmentChannel, channel.manager = manager → channel.Sees host m)
    (hlively : m.Lively) : ∃ s m', m.Earliest slot s ∧ after.mapping? host' = some m' ∧
      host'.objects[m.me.object]? = some m'.segment ∧ m.GivenBack slot s m' := by
  obtain ⟨claimant, host₁, s, m₁, hearliest, hmapping₁, hclaimed, hback⟩ :=
    h.exists_claimed hsees hlively
  obtain ⟨_, _, m', hreset, hgiven⟩ := on_reset hmapping₁ hclaimed hearliest.slot
  rw [hreset] at hback
  cases hback
  exact ⟨s, m', hearliest, hgiven⟩

end Manager

/-! ## Runs -/

namespace World

variable {past : List Moment} {w : World}

theorem sees_of_manager (hw : w.Coherent) {i : Nat} {manager : Manager} {me : Attachment}
    {p : Party} (hmanager : w.manager? i = some manager) (hme : manager.attachment = some me)
    (hp : w.party? me.object = some p) (channel : FragmentChannel)
    (hchannel : channel.manager = manager) :
    channel.Sees w.host ⟨me, w.now i, p.segment⟩ := by
  have hmember : p.member i = some me :=
    (party?_eq_some_iff.mp hp).2 ▸
      member_eq_some_iff.mpr ⟨(attachment?_eq hmanager).trans hme, rfl⟩
  have hfits := (hw.party hp).fits hmember
  refine ⟨by rw [hchannel, hme], by simp [hchannel, now, hmanager], (party?_eq_some_iff.mp hp).1,
    ?_⟩
  have hcut := (hw.party hp).cut hfits.ready
  rwa [← hfits.geometry] at hcut

/-- **Records given back.** In every run a manager that claims a record where nothing is
stale, and gives it back unread, one way or another, leaves its slot full with the same
record, for anybody, and every other slot as it was. Where a record is gone once read as many
records wait for the manager as before, and its next claim takes the same one; where all are
to see it there is one less, and its next claim takes another one or none. -/
theorem claim_given_back {past : List Moment} {w : World} (hrun : Run past w) {i slot : Nat}
    {manager after : Manager} {me : Attachment} {segment : Segment} {host' : Host}
    (hmanager : w.manager? i = some manager) (hme : manager.attachment = some me)
    (hsegment : w.segment? me.object = some segment)
    (hlively : (Mapping.mk me (w.now i) segment).Lively)
    (hback : manager.GivesBack w.host slot after host') :
    (∃ s, segment.slots[slot]? = some s ∧ s.state = .full ∧
      (host'.objects[me.object]?).map (·.slots) = some (segment.slots.set slot
        { s with word := .of .full noOwner, readPos := 0, lastTouch := w.now i })) ∧
    (segment.control.isDestructive = true →
      after.readableCount host' = manager.readableCount w.host ∧
      (Manager.claimForReading.on after host').1 = .ok (some slot)) ∧
    (segment.control.isDestructive = false →
      after.readableCount host' + 1 = manager.readableCount w.host ∧
      ∃ next, (Manager.claimForReading.on after host').1 = .ok next ∧ next ≠ some slot) := by
  have hp := party?_of_segment? hsegment
  have hmember : w.member me.object i = some me :=
    member_eq_some_iff.mpr ⟨(attachment?_eq hmanager).trans hme, rfl⟩
  have hdestructive := ((hrun.coherent.party hp).fits hmember).destructive
  obtain ⟨s, m', hearliest, hmapping', hobject, hgiven⟩ := hback.givenBack
    (sees_of_manager hrun.coherent hmanager hme hp) hlively
  have hmapping := hrun.coherent.mapping?_of_party hmanager hme hp
  have hclaim : (Manager.claimForReading.on after host').1 = .ok m'.claimForReading.1 :=
    congrArg Prod.fst (Manager.on_guarded hmapping' (Program.on_claimForReading m')
      (Mapping.kept_claimForReading m'))
  rw [readableCount_of_mapping? hmapping, readableCount_of_mapping? hmapping', hclaim]
  refine ⟨⟨s, hearliest.slot, Mapping.state_of_isReadable hearliest.readable, ?_⟩,
    fun hgone => ?_, fun hlasting => ?_⟩
  · have hslots : m'.segment.slots = segment.slots.set slot (s.returned.touched (w.now i)) :=
      hgiven.slots
    have hobject : host'.objects[me.object]? = some m'.segment := hobject
    rw [hobject, Option.map_some, hslots]
    rfl
  · have hgone := hdestructive.trans hgone
    exact ⟨hearliest.count_of_gone hgiven hgone,
      congrArg _ (hearliest.claim_of_gone hgiven hlively (hrun.sound hp) hgone)⟩
  · have hlasting := hdestructive.trans hlasting
    exact ⟨hearliest.count_of_lasting hgiven (hrun.sound hp) hlasting, _, rfl,
      hearliest.claim_of_lasting hgiven hlively hlasting⟩

/-- A lease of the only record is dropped. Once read the record would be gone, and it is as
if it had not been leased. -/
theorem claim_given_back_lease :
    let config : Segment.Config := ⟨7, 2, 8, 0, true, 0⟩
    let calls : List Call := [.attach config .manual, .attach config .manual,
      .perform 0 (.claimForWriting false), .perform 0 (.publish 0 .any)]
    let w := (run calls).2
    ∃ manager me segment after host', w.manager? 1 = some manager ∧
      manager.attachment = some me ∧ w.segment? me.object = some segment ∧
      (Mapping.mk me (w.now 1) segment).Lively ∧ manager.GivesBack w.host 0 after host' ∧
      after.readableCount host' = 1 ∧
      (Manager.claimForReading.on after host').1 = .ok (some 0) := by
  intro config calls w
  obtain ⟨manager, hmanager, hfacts⟩ := (Option.any_eq_true (fun manager : Manager =>
      decide ((Manager.leaseForReading.on manager w.host).1 = .ok (some ⟨0⟩)) &&
        manager.readableCount w.host == 1 &&
        manager.attachment.any fun me => (w.segment? me.object).any fun segment =>
          segment.control.isDestructive &&
            segment.slots.all fun s => !s.isStale (Mapping.mk me (w.now 1) segment).staleness)
    (w.manager? 1)).mp (by decide +kernel)
  simp only [Bool.and_eq_true, beq_iff_eq, decide_eq_true_eq] at hfacts
  obtain ⟨⟨hlease, hcount⟩, hattached⟩ := hfacts
  obtain ⟨me, hme, hfound⟩ := (Option.any_eq_true ..).mp hattached
  obtain ⟨segment, hsegment, hslots⟩ := (Option.any_eq_true ..).mp hfound
  rw [Bool.and_eq_true] at hslots
  have hlively : (Mapping.mk me (w.now 1) segment).Lively := fun s hs => by
    simpa using List.all_eq_true.mp hslots.2 s hs
  have hback := Manager.GivesBack.drop (Prod.ext hlease rfl) rfl
  obtain ⟨-, hgone, -⟩ := claim_given_back (run_run calls) hmanager hme hsegment hlively hback
  exact ⟨manager, me, segment, _, _, hmanager, hme, hsegment, hlively, hback,
    (hgone hslots.1).1.trans hcount, (hgone hslots.1).2⟩

/-- **What is given back may be lost.** A reader has claimed the only record, which all are to
see, and given it back. The record is there for anybody, in a slot that is full, but the reader
may not read it any more, and its next claim gets nothing. -/
theorem lost_by_giving_back :
    let config : Segment.Config := ⟨7, 1, 8, 0, false, 0⟩
    let calls : List Call := [.attach config .manual, .attach config .manual,
      .perform 0 (.claimForWriting false), .perform 0 (.publish 0 .any)]
    let before := (run calls).2
    let w := (run (calls ++ [.perform 1 .claimForReading, .perform 1 (.reset 0)])).2
    before.answer? 1 .claimForReading = some (.ok (.slot (some 0))) ∧
    (before.manager? 1).map (·.readableCount before.host) = some 1 ∧
    (∃ segment s, w.segment? 0 = some segment ∧ segment.control.isDestructive = false ∧
      segment.control.staleTimeout = 0 ∧ segment.slots[0]? = some s ∧ s.state = .full ∧
      s.sequenceId = 1) ∧
    (w.manager? 1).map (·.readableCount w.host) = some 0 ∧
    w.answer? 1 .claimForReading = some (.ok (.slot none)) := by
  intro config calls before w
  exact ⟨by decide +kernel, by decide +kernel, exists_full (by decide +kernel),
    by decide +kernel, by decide +kernel⟩

end World

end SlotTransport
