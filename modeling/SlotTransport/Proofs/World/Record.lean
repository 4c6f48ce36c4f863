/-
What becomes of a record. From its publication up to the first call after which its
slot is empty or claimed for writing, the slot is full or being read, under the same
sequence id and with the same bytes, whoever claims the record, reads it, gives it
back or loses it. So all that read a record read the same bytes
(`record_immutable`).
-/
import SlotTransport.Proofs.Operation.Access
import SlotTransport.Proofs.Operation.Record
import SlotTransport.Proofs.World.History
import SlotTransport.Proofs.World.Sound

namespace SlotTransport

open Segment

namespace Party

variable {number k : Nat} {now : Nat → Nat} {p p' : Party} {call : World.Call} {s s' : Slot}

/-- A turn that finds a record in a slot and leaves one leaves the same. -/
theorem Turn.sameRecord (hturn : p.Turn number now call p') (hs : p.segment.slots[k]? = some s)
    (hs' : p'.segment.slots[k]? = some s') (hfilled : s.isFilled = true)
    (hfilled' : s'.isFilled = true) : s.SameRecord s' := by
  rcases hturn.slot_cases hs with hsame | ⟨i, operation, me, answer, after, -, hme, hmove, rfl⟩ |
    ⟨i, me, -, -, -, hleft⟩
  · rw [hs'] at hsame
    cases hsame
    exact .refl s
  · obtain ⟨t, ht, hchange⟩ := (Operation.apply_move hmove).change hs
    cases ht.symm.trans hs'
    exact hchange.sameRecord hfilled hfilled'
  · rw [hs'] at hleft
    cases hleft
    exact Slot.sameRecord_leftBy hfilled'

end Party

namespace World

/-- Whether a slot is empty or claimed for writing after a moment. -/
def Moment.vacates (number k : Nat) (moment : Moment) : Bool :=
  (moment.after.slot? number k).any fun s => s.state == .empty || s.state == .writing

variable {past : List Moment} {w : World} {number k : Nat} {p : Party} {s : Slot}

theorem exists_party_of_slot? (hs : w.slot? number k = some s) :
    ∃ p, w.party? number = some p ∧ p.segment.slots[k]? = some s := by
  obtain ⟨segment, hsegment, hslot⟩ := Option.bind_eq_some_iff.mp hs
  exact ⟨_, party?_of_segment? hsegment, hslot⟩

theorem isFilled_of_not_vacates {call : Call} (hs : (w.step call).slot? number k = some s)
    (h : (⟨w, call⟩ : Moment).vacates number k = false) : s.isFilled = true := by
  have hafter : (⟨w, call⟩ : Moment).after.slot? number k = some s := hs
  rw [Moment.vacates, hafter, Option.any_some] at h
  cases hstate : s.state <;> simp [Slot.isFilled, hstate] at h ⊢

/-- A record stays in its slot until the slot is vacated. -/
theorem Run.sameRecord {later earlier : List Moment} {moment : Moment}
    (h : Run (later ++ moment :: earlier) w) {s₀ : Slot}
    (hs₀ : moment.after.slot? number k = some s₀) (hfilled : s₀.isFilled = true)
    (hlasting : ∀ m ∈ later, m.vacates number k = false) :
    ∃ s, w.slot? number k = some s ∧ s.isFilled = true ∧ s₀.SameRecord s := by
  induction later generalizing w with
  | nil =>
    cases h
    exact ⟨s₀, hs₀, hfilled, .refl s₀⟩
  | cons m later ih =>
    cases h with
    | @step _ w call h =>
      obtain ⟨s, hs, hfilled, hsame⟩ := ih h fun m hm => hlasting m (List.mem_cons_of_mem _ hm)
      obtain ⟨p, hp, hslot⟩ := exists_party_of_slot? hs
      obtain ⟨p', hp', hturn⟩ := (step_turned h.coherent call).turn hp
      obtain ⟨hlt, -⟩ := List.getElem?_eq_some_iff.mp hslot
      have hlt' : k < p'.segment.slots.length := hturn.alike.length ▸ hlt
      have hslot' := List.getElem?_eq_getElem hlt'
      have hs' := (slot?_of_party? hp' k).trans hslot'
      have hfilled' := isFilled_of_not_vacates hs' (hlasting _ List.mem_cons_self)
      exact ⟨_, hs', hfilled', hsame.trans (hturn.sameRecord hslot hslot' hfilled hfilled')⟩

theorem answer?_of_serve (hw : w.Coherent) (hp : w.party? number = some p) {i : Nat}
    {me : Attachment} (hme : p.member i = some me) (hs : p.segment.slots[k]? = some s) {b : Buffer}
    (hb : s.Shows p.segment.slotSize b) {access : Access} {answer : Answer}
    (hmay : ∀ purpose, access.purpose? = some purpose → s.state = purpose ∧ s.owner = me.id)
    (hserve : (b.serve access).map (·.1) = some answer) :
    w.answer? i (access.on k) = some (.ok answer) := by
  obtain ⟨served, hserved, rfl⟩ := Option.map_eq_some_iff.mp hserve
  obtain ⟨⟨told, after⟩, happly⟩ := Operation.exists_apply_access
    (m := ⟨me, w.now i, p.segment⟩) hs hb hmay (by rw [hserved]; rfl)
  obtain ⟨-, b', s', hserve', -⟩ := Operation.apply_access happly hs hb
  rw [hserved] at hserve'
  cases hserve'
  rw [hw.answer?_eq hp hme, happly]

/-- What the holder of a record is told of it. -/
theorem Run.reads (h : Run past w) (hp : w.party? number = some p) {i : Nat} {me : Attachment}
    (hme : p.member i = some me) (hs : p.segment.slots[k]? = some s) (hreading : s.state = .reading)
    (howner : s.owner = me.id) :
    w.answer? i (.view k) = some (.ok (.content s.content)) ∧
      ∀ len, s.readPos + len ≤ s.writePos → w.answer? i (.read k len) =
        some (.ok (.bytes ((s.content.drop s.readPos).take len)
          (decide (s.readPos + len < s.writePos)))) := by
  have hshows := ((h.sound hp).slot hs).shows
  have hmay : ∀ access : Access, access.purpose? = some .reading → ∀ purpose,
      access.purpose? = some purpose → s.state = purpose ∧ s.owner = me.id := by
    intro access haccess purpose hpurpose
    rw [haccess] at hpurpose
    cases hpurpose
    exact ⟨hreading, howner⟩
  refine ⟨answer?_of_serve h.coherent hp hme hs hshows (hmay .view rfl) rfl, fun len hlen => ?_⟩
  have hunread : len ≤ s.writePos - s.readPos := by omega
  refine answer?_of_serve h.coherent hp hme hs hshows (hmay (.take len) rfl) ?_
  simp only [Buffer.serve, Buffer.unread, Slot.length_content, if_pos hunread, Option.map_some]
  rfl

theorem slot?_of_publish {call : Call} (hw : w.Coherent) {i : Nat} {me : Attachment}
    {segment : Segment} {destination : Destination}
    (h : (⟨w, call⟩ : Moment).deed? number =
      some ⟨i, me, segment, .publish k destination, .flag true⟩) :
    ∃ written, segment.slots[k]? = some written ∧
      (w.step call).slot? number k =
        some ((written.published (segment.control.lastSequenceId + 1) destination.owner).touched
          (w.now i)) := by
  cases hp : w.party? number with
  | none =>
    rw [deed?_of_absent hp] at h
    cases h
  | some p =>
    obtain ⟨hcall, hme, rfl, after, happly⟩ := (deed?_eq_some_iff hw hp).mp h
    obtain ⟨p', hp', hturn⟩ := (step_turned hw call).turn hp
    obtain rfl := hturn.moved_of_apply hcall hme happly
    rw [slot?_of_party? hp']
    cases Operation.apply_move happly with
    | idle hidle | wrote hidle | read hidle | declared hidle => cases hidle
    | published hs =>
      obtain ⟨hlt, -⟩ := List.getElem?_eq_some_iff.mp hs
      exact ⟨_, hs, List.getElem?_set_self hlt⟩

theorem slot?_of_claimForReading {call : Call} (hw : w.Coherent) (hp : w.party? number = some p)
    {i : Nat} {me : Attachment} (hme : p.member i = some me)
    (hcall : call.operation? = some (i, .claimForReading))
    (hanswer : w.answer? i .claimForReading = some (.ok (.slot (some k)))) :
    ∃ p' me' s', (w.step call).party? number = some p' ∧ p.Turn number w.now call p' ∧
      p'.member i = some me' ∧ p'.segment.slots[k]? = some s' ∧ s'.state = .reading ∧
      s'.owner = me'.id ∧ s'.readPos = 0 := by
  obtain ⟨after, happly⟩ := hw.apply_of_answer? hp hme hanswer
  obtain ⟨p', hp', hturn⟩ := (step_turned hw call).turn hp
  obtain rfl := hturn.moved_of_apply hcall hme happly
  obtain ⟨s, -, -, -, hs'⟩ := (Operation.apply_move happly).exists_claimed rfl
  exact ⟨_, after.me, _, hp', hturn, Function.update_self .., hs', rfl,
    (Operation.apply_move happly).kept.me.id.symm, rfl⟩

/-- **A record does not change.** From its publication up to the first call after
which its slot is empty or claimed for writing, the slot is full or being read, and
its sequence id, the number of bytes written and the bytes are those of the
publication. So whoever holds the slot for reading sees and reads these bytes, and
whoever claims it next reads them from the first one on. -/
theorem record_immutable {later earlier : List Moment} {moment : Moment} {w : World}
    (hrun : Run (later ++ moment :: earlier) w) {number k i : Nat} {me : Attachment}
    {segment : Segment} {destination : Destination}
    (hpublished : moment.deed? number =
      some ⟨i, me, segment, .publish k destination, .flag true⟩)
    (hlasting : ∀ m ∈ later, m.vacates number k = false) :
    ∃ written s, segment.slots[k]? = some written ∧ w.slot? number k = some s ∧
      (s.state = .full ∨ s.state = .reading) ∧
      s.sequenceId = segment.control.lastSequenceId + 1 ∧ s.writePos = written.writePos ∧
      s.content = written.content ∧
      (∀ j me', w.member number j = some me' → s.state = .reading → s.owner = me'.id →
        w.answer? j (.view k) = some (.ok (.content written.content)) ∧
          ∀ len, s.readPos + len ≤ s.writePos → w.answer? j (.read k len) =
            some (.ok (.bytes ((written.content.drop s.readPos).take len)
              (decide (s.readPos + len < s.writePos))))) ∧
      ∀ call j me', w.member number j = some me' →
        call.operation? = some (j, .claimForReading) →
        w.answer? j .claimForReading = some (.ok (.slot (some k))) →
          (w.step call).answer? j (.view k) = some (.ok (.content written.content)) ∧
            (w.step call).answer? j (.read k written.writePos) =
              some (.ok (.bytes written.content false)) := by
  have hmoment : moment ∈ later ++ moment :: earlier := by simp
  obtain ⟨_, hbefore⟩ := hrun.before hmoment
  obtain ⟨written, hwritten, hafter⟩ := slot?_of_publish hbefore.coherent hpublished
  obtain ⟨s, hs, hfilled, hsame⟩ := hrun.sameRecord hafter rfl hlasting
  have hcontent : s.content = written.content := hsame.content
  obtain ⟨p, hp, hslot⟩ := exists_party_of_slot? hs
  have hmember : ∀ {j : Nat} {me' : Attachment}, w.member number j = some me' →
      p.member j = some me' := fun hme => by rw [(party?_eq_some_iff.mp hp).2, hme]
  refine ⟨written, s, hwritten, hs, Slot.isFilled_eq_true_iff.mp hfilled, hsame.sequenceId,
    hsame.writePos, hcontent, fun j me' hme' hreading howner => ?_,
    fun call j me' hme' hcall hanswer => ?_⟩
  · rw [← hcontent]
    exact hrun.reads hp (hmember hme') hslot hreading howner
  · obtain ⟨p', me'', s', hp', hturn, hme'', hslot', hreading, howner, hstart⟩ :=
      slot?_of_claimForReading hrun.coherent hp (hmember hme') hcall hanswer
    have hsame' := hturn.sameRecord hslot hslot' hfilled
      (Slot.isFilled_eq_true_iff.mpr (.inr hreading))
    have hcontent' : s'.content = written.content := hsame'.content.trans hcontent
    have hlength : s'.writePos = written.writePos := hsame'.writePos.trans hsame.writePos
    obtain ⟨hview, hread⟩ := (hrun.step call).reads hp' hme'' hslot' hreading howner
    refine ⟨by rw [hview, hcontent'], ?_⟩
    rw [hread written.writePos (by omega), hstart, hcontent', hlength, List.drop_zero,
      List.take_of_length_le written.length_content.le]
    simp

/-- One reader has read a record and given it back; the other reads the same bytes. -/
theorem record_immutable_second_reader :
    let config : Segment.Config := ⟨7, 1, 8, 0, false, 0⟩
    let calls : List Call := [.attach config .manual, .attach config .manual,
      .attach config .manual, .perform 0 (.claimForWriting false), .perform 0 (.write 0 [1, 2, 3])]
    let publish : Call := .perform 0 (.publish 0 .any)
    let claim : Call := .perform 1 .claimForReading
    let release : Call := .perform 1 (.release 0)
    let w₁ := (run calls).2.step publish
    let w := (w₁.step claim).step release
    (⟨w₁.step claim, release⟩ : Moment).vacates 0 0 = false ∧
      (w.step (.perform 2 .claimForReading)).answer? 2 (.read 0 3) =
        some (.ok (.bytes [1, 2, 3] false)) := by
  intro config calls publish claim release w₁ w
  have hrun : Run ([⟨w₁.step claim, release⟩, ⟨w₁, claim⟩] ++
      ⟨(run calls).2, publish⟩ :: (run calls).1) w :=
    (((run_run calls).step publish).step claim).step release
  have hlasting : ∀ m ∈ [(⟨w₁.step claim, release⟩ : Moment), ⟨w₁, claim⟩],
      m.vacates 0 0 = false := by
    simp only [List.mem_cons, List.not_mem_nil, or_false, forall_eq_or_imp, forall_eq]
    exact ⟨by decide +kernel, by decide +kernel⟩
  obtain ⟨⟨i, me, segment, operation, answer⟩, hdeed, hfacts⟩ :=
    (Option.any_eq_true (fun deed : Deed => deed.operation == .publish 0 .any &&
        deed.answer == .flag true && deed.segment.slots[0]?.any (·.content == [1, 2, 3]))
      ((⟨(run calls).2, publish⟩ : Moment).deed? 0)).mp (by decide +kernel)
  simp only [Bool.and_eq_true, beq_iff_eq] at hfacts
  obtain ⟨⟨rfl, rfl⟩, hslot⟩ := hfacts
  obtain ⟨written', hwritten', hcontent⟩ := (Option.any_eq_true ..).mp hslot
  obtain ⟨me', hme'⟩ := Option.isSome_iff_exists.mp
    (by decide +kernel : (w.member 0 2).isSome = true)
  obtain ⟨written, s, hwritten, -, -, -, -, -, -, hclaim⟩ :=
    record_immutable hrun hdeed hlasting
  obtain rfl : written' = written := by simpa [hwritten'] using hwritten
  have hcontent : written'.content = [1, 2, 3] := by simpa using hcontent
  have hread := (hclaim (.perform 2 .claimForReading) 2 me' hme' rfl (by decide +kernel)).2
  rw [← written'.length_content, hcontent] at hread
  exact ⟨hlasting _ List.mem_cons_self, hread⟩

end World

end SlotTransport
