/-
What the slot table of an object looks like in every run. No turn breaks what
`Segment.Sound` says (`Run.sound`), and with what is known of the managers
(`membership_exact`) it is all that a reader of a slot relies on: the bytes written
are within the slot, the bytes read within those written, and a slot that is held
has a holder (`slot_table_sound`).
-/
import SlotTransport.Proofs.Operation.Sound
import SlotTransport.Proofs.World.Membership

namespace SlotTransport

open Segment

namespace Party

variable {number : Nat} {now : Nat → Nat} {p p' : Party} {call : World.Call}

theorem Turn.sound (hturn : p.Turn number now call p') (hcoherent : p.Coherent number)
    (h : p.segment.Sound) : p'.segment.Sound := by
  have hdismissed : ∀ (i : Nat) (me : Attachment), (p.dismiss i me).segment.Sound :=
    fun i me => Mapping.sound_left (m := ⟨me, 0, p.segment⟩) h
  cases hturn with
  | others => exact h
  | entered => exact ⟨h.slot, h.issued, h.distinct, h.highest, h.cursors⟩
  | moved _ hme hmove =>
    exact (Operation.apply_move hmove).sound (hcoherent.fits hme).destructive h
  | @left _ i me => exact hdismissed i me
  | @ended i me | @returned i me =>
    have h := hdismissed i me
    exact ⟨h.slot, h.issued, h.distinct, h.highest, h.cursors⟩

theorem Fresh.sound (h : p.Fresh number) : p.segment.Sound := by
  cases h with
  | blank size => exact sound_blank size
  | formatted now i hmay hsize => exact sound_formatted _ now hmay

/-- An object that nobody has laid out has no slots. -/
def Blank (p : Party) : Prop :=
  p.segment.control.magic = readyMagic ∨ p.segment.slots = []

theorem Turn.blank (hturn : p.Turn number now call p') (h : p.Blank) : p'.Blank := by
  have halike := hturn.alike
  rcases h with hready | hnone
  · exact .inl (halike.magic.trans hready)
  · exact .inr (List.eq_nil_iff_length_eq_zero.mpr (by rw [halike.length, hnone]; rfl))

end Party

namespace World

variable {past : List Moment} {w : World} {number : Nat} {p : Party}

/-- In every run the slots of an object are as they should be. -/
theorem Run.sound (h : Run past w) (hp : w.party? number = some p) : p.segment.Sound :=
  Run.party_induction (motive := fun _ _ p => p.segment.Sound)
    (fun _ _ _ _ hfresh => hfresh.sound)
    (fun hrun hp _ hturn ih => hturn.sound (hrun.coherent.party hp) ih) h hp

theorem Run.ready_of_slot (h : Run past w) (hp : w.party? number = some p) {k : Nat} {s : Slot}
    (hs : p.segment.slots[k]? = some s) : p.segment.control.magic = readyMagic := by
  have hblank : p.Blank := by
    refine Run.party_induction (motive := fun _ _ p => p.Blank) (fun _ _ _ _ hfresh => ?_)
      (fun _ _ _ hturn ih => hturn.blank ih) h hp
    cases hfresh with
    | blank size => exact .inr rfl
    | formatted now i => exact .inl rfl
  rcases hblank with hready | hnone
  · exact hready
  · rw [hnone] at hs
    cases hs

/-- **The slot table.** In every run the slots of an object look like this. What was
read of a slot is within what was written, and that within the slot. An empty slot
is nobody's, nothing is in it and nobody is done with it. In a slot that is being
written or full nothing was read yet, and one that is full or being read has the
record of a sequence id; where a record is gone once read, nobody is done with one.
A slot that is held is held by somebody attached, whose id is not negative as long as
fewer than 2³¹ have joined. The slots have had different records, none later than
the latest, and nor is the latest that was claimed for reading; and in an object that
is laid out the scans start at slots that there are. -/
theorem slot_table_sound {past : List Moment} {w : World} (hrun : Run past w) {number : Nat}
    {segment : Segment} (hsegment : w.segment? number = some segment) :
    (∀ (k : Nat) (s : Slot), segment.slots[k]? = some s →
      s.readPos ≤ s.writePos ∧ s.writePos ≤ segment.control.geometry.slotSize.toNat ∧
      (s.state = .empty →
        s.owner = noOwner ∧ s.writePos = 0 ∧ s.readPos = 0 ∧ s.releases = 0) ∧
      (s.state = .writing → s.readPos = 0 ∧ s.releases = 0) ∧
      (s.state = .full → s.readPos = 0 ∧ 1 ≤ s.sequenceId) ∧
      (s.state = .reading → 1 ≤ s.sequenceId) ∧
      (s.state = .writing ∨ s.state = .reading →
        (∃ i me, w.member number i = some me ∧ s.owner = me.id) ∧
          (joinings number past < 2 ^ 31 → 0 ≤ s.owner.toInt)) ∧
      (segment.control.isDestructive = true → s.releases = 0) ∧
      s.sequenceId ≤ segment.control.lastSequenceId) ∧
    (∀ (j k : Nat) (s t : Slot), segment.slots[j]? = some s → segment.slots[k]? = some t →
      s.sequenceId ≠ 0 → s.sequenceId = t.sequenceId → j = k) ∧
    segment.control.highestRead ≤ segment.control.lastSequenceId ∧
    (segment.control.magic = readyMagic →
      segment.control.readerCursor < segment.control.geometry.slotCount.toNat ∧
        segment.control.writerCursor < segment.control.geometry.slotCount.toNat) := by
  have hp := party?_of_segment? hsegment
  have hsound : segment.Sound := hrun.sound hp
  have hcut : segment.control.magic = readyMagic →
      segment.slots.length = segment.control.geometry.slotCount.toNat ∧
        segment.slotSize = segment.control.geometry.slotSize.toNat := by
    intro hready
    simpa [isCut] using (hrun.coherent.party hp).cut hready
  refine ⟨fun k s hs => ?_, fun j k s t hs ht => hsound.distinct hs ht, hsound.highest,
    fun hready => ?_⟩
  · have hslot := hsound.slot hs
    have hsize := (hcut (hrun.ready_of_slot hp hs)).2
    refine ⟨hslot.read, hsize ▸ hslot.written, hslot.empty, hslot.writing, hslot.full,
      hslot.reading, fun hheld => ?_, hslot.unreleased, hsound.issued hs⟩
    obtain ⟨i, me, hme, howner⟩ := hrun.owned hp hs (by simpa [Slot.isHeld] using hheld)
    refine ⟨⟨i, me, hme, howner.symm⟩, fun hfew => ?_⟩
    obtain ⟨hlt, hid⟩ := (hrun.ranked hp).id hme
    rw [← howner, hid, Int32.toInt_ofNat_of_lt (hlt.trans hfew)]
    exact Int.natCast_nonneg _
  · rw [← (hcut hready).1]
    exact hsound.cursors hready

/-- One slot is being read, the other is being written. -/
theorem slot_table_sound_reading :
    let config : Segment.Config := ⟨7, 2, 8, 0, true, 0⟩
    let calls : List Call := [.attach config .manual, .attach config .manual,
      .perform 0 (.claimForWriting false), .perform 0 (.write 0 [1, 2, 3]),
      .perform 0 (.publish 0 .any), .perform 1 .claimForReading, .perform 1 (.read 0 1),
      .perform 0 (.claimForWriting false)]
    let w := (run calls).2
    ∃ segment s, w.segment? 0 = some segment ∧ segment.slots[0]? = some s ∧
      s.state = .reading ∧ s.readPos ≤ s.writePos ∧ 1 ≤ s.sequenceId ∧ 0 ≤ s.owner.toInt ∧
      s.releases = 0 ∧ segment.control.writerCursor < 2 := by
  intro config calls w
  obtain ⟨segment, hsegment, hfacts⟩ := (Option.any_eq_true (fun segment : Segment =>
      (segment.slots[0]?).any (·.state == .reading) && segment.control.isDestructive &&
        segment.control.magic == readyMagic && segment.control.geometry.slotCount.toNat == 2)
    (w.segment? 0)).mp (by decide +kernel)
  simp only [Bool.and_eq_true, beq_iff_eq] at hfacts
  obtain ⟨⟨⟨hslot, hdestructive⟩, hready⟩, hcount⟩ := hfacts
  obtain ⟨s, hs, hstate⟩ := (Option.any_eq_true ..).mp hslot
  have hreading : s.state = .reading := by simpa using hstate
  obtain ⟨hslots, -, -, hcursors⟩ := slot_table_sound (run_run calls) hsegment
  obtain ⟨hread, -, -, -, -, hrecord, hheld, hreleases, -⟩ := hslots 0 s hs
  have hfew : joinings 0 (run calls).1 < 2 ^ 31 := by decide +kernel
  have hcursor := (hcursors hready).2
  rw [hcount] at hcursor
  exact ⟨segment, s, hsegment, hs, hreading, hread, hrecord hreading,
    (hheld (.inr hreading)).2 hfew, hreleases hdestructive, hcursor⟩

/-- What is left of a segment that was too large for the addresses of a process has no
slots for a scan to start at; and a creator that has come back 2³¹ times writes under
a negative id. -/
theorem scan_and_holder_out_of_range :
    (∃ segment, ((World.new ⟨0⟩ ⟨0⟩ fun size => decide (size < 2 ^ 47)).step
        (.attach ⟨7, 1, 0x800000000000, 0, true, 0⟩ .manual)).segment? 0 = some segment ∧
      segment.control.geometry.slotCount = 0 ∧ segment.control.readerCursor = 0) ∧
    let calls : List Call := .attach loneConfig .manual :: List.replicate (2 ^ 31) (.reattach 0) ++
      [.perform 0 (.claimForWriting false)]
    ∃ segment s, (run calls).2.segment? 0 = some segment ∧ segment.slots[0]? = some s ∧
      s.state = .writing ∧ s.owner.toInt = -2147483648 := by
  refine ⟨⟨_, rfl, by decide +kernel, by decide +kernel⟩, ?_⟩
  intro calls
  have hw : (run calls).2 = (lone (.ofNat (2 ^ 31))).step (.perform 0 (.claimForWriting false)) :=
    run_reattach_lone_append (2 ^ 31) _
  rw [hw]
  exact ⟨_, _, rfl, rfl, by decide +kernel, by decide +kernel⟩

end World

end SlotTransport
