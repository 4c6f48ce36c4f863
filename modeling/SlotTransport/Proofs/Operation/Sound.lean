/-
What the slots of a segment look like. `Slot.Sound` says what the fields of a slot
have to do with its state, and `Segment.Sound` what the slots have to do with each
other and with the control block. No operation breaks either (`Change.sound`,
`Move.sound`), nor does a manager that leaves (`sound_left`).
-/
import SlotTransport.Proofs.Operation.Change

namespace SlotTransport.Segment

/-- What a slot of `size` bytes looks like, where a record is gone once read or
not. -/
structure Slot.Sound (s : Slot) (size : Nat) (destructive : Bool) : Prop where
  read : s.readPos ≤ s.writePos
  written : s.writePos ≤ size
  empty : s.state = .empty →
    s.owner = noOwner ∧ s.writePos = 0 ∧ s.readPos = 0 ∧ s.releases = 0
  writing : s.state = .writing → s.readPos = 0 ∧ s.releases = 0
  full : s.state = .full → s.readPos = 0 ∧ 1 ≤ s.sequenceId
  reading : s.state = .reading → 1 ≤ s.sequenceId
  unreleased : destructive = true → s.releases = 0

/-- What the slots of a segment look like, next to each other and to the control
block. -/
structure Sound (segment : Segment) : Prop where
  slot : ∀ {k : Nat} {s : Slot}, segment.slots[k]? = some s →
    s.Sound segment.slotSize segment.control.isDestructive
  issued : ∀ {k : Nat} {s : Slot}, segment.slots[k]? = some s →
    s.sequenceId ≤ segment.control.lastSequenceId
  /-- No two slots have had the same record. -/
  distinct : ∀ {j k : Nat} {s t : Slot}, segment.slots[j]? = some s →
    segment.slots[k]? = some t → s.sequenceId ≠ 0 → s.sequenceId = t.sequenceId → j = k
  highest : segment.control.highestRead ≤ segment.control.lastSequenceId
  cursors : segment.control.magic = readyMagic →
    segment.control.readerCursor < segment.slots.length ∧
      segment.control.writerCursor < segment.slots.length

/-! ## Steps of a slot -/

namespace Slot.Sound

variable {s s' : Slot} {size : Nat} {destructive : Bool}

theorem touched (h : s.Sound size destructive) (now : Nat) :
    (s.touched now).Sound size destructive :=
  ⟨h.read, h.written, h.empty, h.writing, h.full, h.reading, h.unreleased⟩

theorem freed (s : Slot) : s.freed.Sound size destructive :=
  ⟨le_refl _, Nat.zero_le _, fun _ => ⟨rfl, rfl, rfl, rfl⟩, nofun, nofun, nofun, fun _ => rfl⟩

theorem returned (h : s.Sound size destructive) (hreading : s.state = .reading) :
    s.returned.Sound size destructive :=
  ⟨Nat.zero_le _, h.written, nofun, nofun, fun _ => ⟨rfl, h.reading hreading⟩, nofun, h.unreleased⟩

theorem claimedForWriting (s : Slot) (id : ManagerId) :
    (s.claimedForWriting id).Sound size destructive :=
  ⟨le_refl _, Nat.zero_le _, nofun, fun _ => ⟨rfl, rfl⟩, nofun, nofun, fun _ => rfl⟩

theorem claimedForReading (h : s.Sound size destructive) (hfull : s.state = .full)
    (id : ManagerId) : (s.claimedForReading id).Sound size destructive :=
  ⟨Nat.zero_le _, h.written, nofun, nofun, nofun, fun _ => (h.full hfull).2, h.unreleased⟩

theorem published (h : s.Sound size destructive) (q : Nat) (owner : ManagerId) :
    (s.published (q + 1) owner).Sound size destructive :=
  ⟨Nat.zero_le _, h.written, nofun, nofun, fun _ => ⟨rfl, Nat.le_add_left ..⟩, nofun, fun _ => rfl⟩

theorem wrote (h : s.Sound size destructive) (hwriting : s.state = .writing) {pos : Nat}
    (hpos : pos ≤ size) (memory : Bytes) :
    Slot.Sound { s with writePos := pos, memory := memory } size destructive where
  read := (h.writing hwriting).1 ▸ Nat.zero_le pos
  written := hpos
  empty hempty := absurd (hwriting.symm.trans hempty) (by decide)
  writing _ := h.writing hwriting
  full hfull := absurd (hwriting.symm.trans hfull) (by decide)
  reading hreading := absurd (hwriting.symm.trans hreading) (by decide)
  unreleased := h.unreleased

theorem readUpTo (h : s.Sound size destructive) (hreading : s.state = .reading) {pos : Nat}
    (hpos : pos ≤ s.writePos) : Slot.Sound { s with readPos := pos } size destructive where
  read := hpos
  written := h.written
  empty hempty := absurd (hreading.symm.trans hempty) (by decide)
  writing hwriting := absurd (hreading.symm.trans hwriting) (by decide)
  full hfull := absurd (hreading.symm.trans hfull) (by decide)
  reading := h.reading
  unreleased := h.unreleased

theorem passedOn (h : s.Sound size false) (hreading : s.state = .reading) (releases : Nat) :
    Slot.Sound { s.returned with releases := releases } size false :=
  ⟨Nat.zero_le _, h.written, nofun, nofun, fun _ => ⟨rfl, h.reading hreading⟩, nofun, nofun⟩

theorem reclaimed (h : s.Sound size destructive) {staleness : Staleness} {entitled : Bool}
    (hs' : s.reclaimed? staleness entitled = some s') : s'.Sound size destructive := by
  rcases (reclaimed?_cases hs').2 with ⟨hreading, rfl⟩ | ⟨-, rfl⟩ | ⟨-, -, -, rfl⟩
  · exact (h.returned hreading).touched _
  · exact (freed s).touched _
  · exact (freed s).touched _

theorem swept (h : s.Sound size destructive) (staleness : Staleness) :
    (s.swept staleness).Sound size destructive := by
  by_cases hsame : s.swept staleness = s
  · rw [hsame]
    exact h
  · exact h.reclaimed (reclaimed?_of_swept_ne hsame)

/-- A writer that leaves does not set back the releases of its slot: it has none. -/
theorem leftBy (h : s.Sound size destructive) (id : ManagerId) :
    (s.leftBy id).Sound size destructive := by
  rcases s.leftBy_cases id with hsame | ⟨-, hwriting, hleft⟩ | ⟨-, hreading, hleft⟩
  · rw [hsame]
    exact h
  · rw [hleft]
    have hreleases := (h.writing hwriting).2
    exact ⟨le_refl _, Nat.zero_le _, fun _ => ⟨rfl, rfl, rfl, hreleases⟩, nofun, nofun, nofun,
      fun _ => hreleases⟩
  · rw [hleft]
    exact h.returned hreading

end Slot.Sound

theorem Slot.sequenceId_reclaimed {s s' : Slot} {staleness : Staleness} {entitled : Bool}
    (h : s.reclaimed? staleness entitled = some s') : s'.sequenceId = s.sequenceId := by
  rcases (reclaimed?_cases h).2 with ⟨-, rfl⟩ | ⟨-, rfl⟩ | ⟨-, -, -, rfl⟩ <;> rfl

theorem Slot.sequenceId_swept (s : Slot) (staleness : Staleness) :
    (s.swept staleness).sequenceId = s.sequenceId := by
  by_cases hsame : s.swept staleness = s
  · rw [hsame]
  · exact sequenceId_reclaimed (reclaimed?_of_swept_ne hsame)

theorem Slot.sequenceId_leftBy (s : Slot) (id : ManagerId) :
    (s.leftBy id).sequenceId = s.sequenceId := by
  rcases s.leftBy_cases id with h | ⟨-, -, h⟩ | ⟨-, -, h⟩ <;> simp [h]

/-! ## Operations -/

namespace Mapping

variable {m after : Mapping} {operation : Operation} {answer : Answer} {k : Nat} {s s' : Slot}

theorem Change.sound (h : m.Change operation answer k s s')
    (hs : s.Sound m.segment.slotSize m.me.destructive) :
    s'.Sound m.segment.slotSize m.me.destructive := by
  cases h with
  | kept => exact hs
  | wrote _ hwriting _ hpos => exact (hs.wrote hwriting hpos _).touched _
  | read _ hreading _ hpos =>
    rw [max_eq_right hs.read] at hpos
    exact (hs.readUpTo hreading hpos).touched _
  | checked => exact hs.touched _
  | swept => exact hs.swept _
  | reset _ hs' => exact hs.reclaimed hs'
  | claimedForWriting => exact (Slot.Sound.claimedForWriting _ _).touched _
  | claimedForReading _ _ hread =>
    simp only [isReadable, Slot.isAddressedTo, Bool.and_eq_true, beq_iff_eq] at hread
    exact ((hs.swept _).claimedForReading hread.1.1 _).touched _
  | published => exact (hs.published _ _).touched _
  | released _ hreading =>
    refine Slot.Sound.touched ?_ _
    cases hdestructive : m.me.destructive with
    | true =>
      rw [Mapping.released_of_gone hdestructive]
      exact .freed s
    | false =>
      rw [hdestructive] at hs
      rcases m.released_cases s with h | h <;> rw [h]
      · exact .freed s
      · exact hs.passedOn hreading _
  | evicted => exact (Slot.Sound.freed s).touched _

/-- A slot has a new sequence id if and only if its record is published. -/
theorem Change.sequenceId (h : m.Change operation answer k s s') :
    s'.sequenceId = s.sequenceId ∨
      (∃ destination, operation = .publish k destination) ∧
        s'.sequenceId = m.segment.control.lastSequenceId + 1 := by
  cases h with
  | kept | wrote | read | checked | evicted => exact .inl rfl
  | swept | claimedForWriting | claimedForReading => exact .inl (s.sequenceId_swept _)
  | reset _ hs' => exact .inl (Slot.sequenceId_reclaimed hs')
  | published hpublish => exact .inr ⟨⟨_, hpublish⟩, rfl⟩
  | released => rcases m.released_cases s with h | h <;> rw [h] <;> exact .inl rfl

theorem Move.lastSequenceId (h : m.Move operation answer after)
    (hpublish : ∀ slot destination, operation ≠ .publish slot destination) :
    after.segment.control.lastSequenceId = m.segment.control.lastSequenceId := by
  cases h with
  | claimedForWriting overwrite => exact lastSequenceId_claimForWriting m overwrite
  | claimedForReading => exact lastSequenceId_claimForReading m
  | published => exact absurd rfl (hpublish _ _)
  | _ => rfl

/-- Sequence ids stay, but for the next one, which a publication gives to its
slot. -/
theorem Move.sequenceIds (h : m.Move operation answer after) :
    (after.segment.control.lastSequenceId = m.segment.control.lastSequenceId ∧
      ∀ {k : Nat} {s s' : Slot}, m.slots[k]? = some s → after.slots[k]? = some s' →
        s'.sequenceId = s.sequenceId) ∨
    ∃ slot, after.segment.control.lastSequenceId = m.segment.control.lastSequenceId + 1 ∧
      ∀ {k : Nat} {s s' : Slot}, m.slots[k]? = some s → after.slots[k]? = some s' →
        s'.sequenceId =
          if k = slot then m.segment.control.lastSequenceId + 1 else s.sequenceId := by
  by_cases hpublish : ∃ slot destination, operation = .publish slot destination
  · obtain ⟨slot, destination, rfl⟩ := hpublish
    cases h with
    | idle => exact .inl ⟨rfl, fun hs hs' => by rw [hs] at hs'; cases hs'; rfl⟩
    | wrote htransfer | read htransfer => cases htransfer
    | declared hdeclared => cases hdeclared
    | published ht =>
      refine .inr ⟨slot, rfl, fun {k s s'} hs hs' => ?_⟩
      by_cases hk : slot = k
      · subst hk
        rw [slots_withControl, touch, slots_store,
          List.getElem?_set_self (List.getElem?_eq_some_iff.mp ht).1] at hs'
        cases hs'
        rw [if_pos rfl]
        rfl
      · rw [slots_withControl, touch, slots_store, List.getElem?_set_ne hk, hs] at hs'
        cases hs'
        rw [if_neg (Ne.symm hk)]
  · refine .inl ⟨h.lastSequenceId fun slot destination heq => hpublish ⟨slot, destination, heq⟩,
      fun {k s s'} hs hs' => ?_⟩
    obtain ⟨t, ht, hchange⟩ := h.change hs
    rw [hs'] at ht
    cases ht
    rcases hchange.sequenceId with hsame | ⟨⟨destination, heq⟩, -⟩
    · exact hsame
    · exact absurd ⟨k, destination, heq⟩ hpublish

theorem Move.highestRead (h : m.Move operation answer after) :
    after.segment.control.highestRead = m.segment.control.highestRead ∨
      ∃ (k : Nat) (s : Slot), m.slots[k]? = some s ∧
        after.segment.control.highestRead = max m.segment.control.highestRead s.sequenceId := by
  cases h with
  | claimedForWriting overwrite =>
    refine .inl ?_
    rcases m.claimForWriting_cases overwrite with ⟨h, -⟩ | ⟨before, slot, others, s, -, -, -, -, h⟩
    · rw [h]
      rfl
    · rw [h, segment_takeForWriting]
      rfl
  | claimedForReading =>
    rcases m.claimForReading_cases with ⟨h, -⟩ | ⟨slot, s, hs, -, -, h⟩
    · rw [h]
      exact .inl rfl
    · refine .inr ⟨slot, s, hs, ?_⟩
      rw [h, segment_takeForReading, s.sequenceId_swept]
      rfl
  | _ => exact .inl rfl

theorem Move.cursors (h : m.Move operation answer after)
    (hreader : m.segment.control.readerCursor < m.slots.length)
    (hwriter : m.segment.control.writerCursor < m.slots.length) :
    after.segment.control.readerCursor < m.slots.length ∧
      after.segment.control.writerCursor < m.slots.length := by
  have hfollowing : ∀ slot, (slot + 1) % m.slots.length < m.slots.length :=
    fun _ => Nat.mod_lt _ (Nat.zero_lt_of_lt hreader)
  cases h with
  | claimedForWriting overwrite =>
    rcases m.claimForWriting_cases overwrite with ⟨h, -⟩ | ⟨before, slot, others, s, -, -, -, -, h⟩
    · rw [h]
      exact ⟨hreader, hwriter⟩
    · rw [h, segment_takeForWriting]
      refine ⟨hreader, ?_⟩
      rw [following, length_slots_sweptAt]
      exact hfollowing slot
  | claimedForReading =>
    rcases m.claimForReading_cases with ⟨h, -⟩ | ⟨slot, s, -, -, -, h⟩
    · rw [h]
      exact ⟨hreader, hwriter⟩
    · rw [h, segment_takeForReading]
      refine ⟨?_, hwriter⟩
      have hlength : m.sweepAll.slots.length = m.slots.length := by simp [sweepAll]
      simp only
      split
      · rw [following, hlength]
        exact hfollowing slot
      · exact hreader
  | _ => exact ⟨hreader, hwriter⟩

/-- No operation breaks what the slots look like. -/
theorem Move.sound (h : m.Move operation answer after)
    (hdestructive : m.me.destructive = m.segment.control.isDestructive) (hm : m.segment.Sound) :
    after.segment.Sound := by
  have hkept := h.kept.segment
  have hold : ∀ {k : Nat} {s' : Slot}, after.segment.slots[k]? = some s' →
      ∃ s, m.slots[k]? = some s ∧ m.Change operation answer k s s' := h.exists_change
  have hlast : m.segment.control.lastSequenceId ≤ after.segment.control.lastSequenceId := by
    rcases h.sequenceIds with ⟨hlast, -⟩ | ⟨-, hlast, -⟩ <;> omega
  refine ⟨fun hs' => ?_, fun {k s'} hs' => ?_, fun {j k s' t'} hs' ht' hne hsame => ?_, ?_,
    fun hready => ?_⟩
  · obtain ⟨s, hs, hchange⟩ := hold hs'
    rw [hkept.slotSize, hkept.isDestructive, ← hdestructive]
    exact hchange.sound (hdestructive ▸ hm.slot hs)
  · obtain ⟨s, hs, -⟩ := hold hs'
    have hissued := hm.issued hs
    rcases h.sequenceIds with ⟨-, hids⟩ | ⟨slot, hnext, hids⟩
    · rw [hids hs hs']
      exact hissued.trans hlast
    · rw [hids hs hs', hnext]
      split <;> omega
  · obtain ⟨s, hs, -⟩ := hold hs'
    obtain ⟨t, ht, -⟩ := hold ht'
    rcases h.sequenceIds with ⟨-, hids⟩ | ⟨slot, -, hids⟩
    · rw [hids hs hs'] at hne hsame
      rw [hids ht ht'] at hsame
      exact hm.distinct hs ht hne hsame
    · have hj := hm.issued hs
      have hk := hm.issued ht
      rw [hids hs hs'] at hne hsame
      rw [hids ht ht'] at hsame
      split at hsame <;> split at hsame
      · omega
      · omega
      · omega
      · rename_i hother _
        rw [if_neg hother] at hne
        exact hm.distinct hs ht hne hsame
  · have hhighest := hm.highest
    rcases h.highestRead with hsame | ⟨k, s, hs, hmax⟩
    · omega
    · have hissued := hm.issued hs
      omega
  · obtain ⟨hreader, hwriter⟩ := hm.cursors (hkept.magic ▸ hready)
    rw [hkept.length]
    exact h.cursors hreader hwriter

theorem sound_left (hm : m.segment.Sound) : m.left.Sound := by
  have hold : ∀ {k : Nat} {s' : Slot}, m.left.slots[k]? = some s' →
      ∃ s, m.segment.slots[k]? = some s ∧ s' = s.leftBy m.me.id := by
    intro k s' hs'
    have hleft : m.left.slots[k]? = m.segment.slots[k]?.map (·.leftBy m.me.id) :=
      List.getElem?_map ..
    rw [hleft] at hs'
    obtain ⟨s, hs, rfl⟩ := Option.map_eq_some_iff.mp hs'
    exact ⟨s, hs, rfl⟩
  refine ⟨fun hs' => ?_, fun hs' => ?_, fun hs' ht' hne hsame => ?_, hm.highest, fun hready => ?_⟩
  · obtain ⟨s, hs, rfl⟩ := hold hs'
    exact (hm.slot hs).leftBy _
  · obtain ⟨s, hs, rfl⟩ := hold hs'
    rw [s.sequenceId_leftBy]
    exact hm.issued hs
  · obtain ⟨s, hs, rfl⟩ := hold hs'
    obtain ⟨t, ht, rfl⟩ := hold ht'
    rw [s.sequenceId_leftBy] at hne hsame
    rw [t.sequenceId_leftBy] at hsame
    exact hm.distinct hs ht hne hsame
  · have hlength : m.left.slots.length = m.segment.slots.length := List.length_map ..
    rw [hlength]
    exact hm.cursors hready

end Mapping

/-! ## Segments that have just come about -/

theorem sound_blank (size : Nat) : (blank size).Sound where
  slot hs := by cases hs
  issued hs := by cases hs
  distinct hs := by cases hs
  highest := le_refl 0
  cursors hready := by
    have hblank : (0 : UInt32) ≠ readyMagic := by decide
    exact absurd hready hblank

theorem sound_formatted {config : Config} (size now : Nat) (hmay : config.mayCreate = true) :
    (formatted config size now).Sound := by
  have hfresh : ∀ {k : Nat} {s : Slot}, (formatted config size now).slots[k]? = some s →
      s = .fresh now := fun hs => List.eq_of_mem_replicate (List.mem_of_getElem? hs)
  have hsome : 0 < (formatted config size now).slots.length := by
    have hcount : config.slotCount ≠ 0 := by simpa [Config.mayCreate] using hmay
    have hpos : config.slotCount.toNat ≠ 0 := fun hzero => hcount (UInt64.toNat_inj.mp hzero)
    simpa [formatted] using Nat.pos_of_ne_zero hpos
  refine ⟨fun hs => ?_, fun hs => ?_, fun hs ht hne => ?_, le_refl 0, fun _ => ⟨hsome, hsome⟩⟩
  · rw [hfresh hs]
    exact ⟨le_refl 0, Nat.zero_le _, fun _ => ⟨rfl, rfl, rfl, rfl⟩, nofun, nofun, nofun,
      fun _ => rfl⟩
  · rw [hfresh hs]
    exact Nat.zero_le _
  · rw [hfresh hs] at hne
    exact absurd rfl hne

end SlotTransport.Segment
