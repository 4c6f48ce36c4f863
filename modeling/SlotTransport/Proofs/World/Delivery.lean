/-
Records that are gone once read, as a queue. As long as everybody publishes for all,
nobody does away with a record that waits, and no reader gives one back, the records
are delivered as they were published: each once, none left out, whoever reads and
whatever slots they pass through (`delivered_in_order`).
-/
import SlotTransport.Proofs.Operation.Offer
import SlotTransport.Proofs.World.History
import SlotTransport.Proofs.World.Sound

namespace SlotTransport

open Segment

namespace World

/-! ## What is published and delivered -/

namespace Moment

/-- The bytes of the record that a moment publishes, if it publishes one. -/
def publication? (number : Nat) (moment : Moment) : Option Bytes :=
  (moment.deed? number).bind fun deed => deed.operation.publication? deed.segment deed.answer

/-- The slot that a moment claims for reading, if it claims one. -/
def claimed? (number : Nat) (moment : Moment) : Option Nat :=
  (moment.deed? number).bind fun deed => deed.operation.claimed? deed.answer

/-- The record that whoever claims a slot for reading at a moment finds in it, with
its sequence id. -/
def delivery? (number : Nat) (moment : Moment) : Option (Bytes × Nat) :=
  (moment.claimed? number).map fun k =>
    (moment.after.segment? number).elim ([], 0) fun segment => segment.recordAt k

/-- Whether a moment changes some slot in a certain way. -/
def changes (number : Nat) (moment : Moment) (test : Nat → Slot → Slot → Bool) : Bool :=
  (moment.before.segment? number).any fun segment =>
    (List.range segment.slots.length).any fun k =>
      (moment.before.slot? number k).any fun s =>
        (moment.after.slot? number k).any fun s' => test k s s'

/-- Whether a moment does away with a record that waits for a reader. -/
def discards (number : Nat) (moment : Moment) : Bool :=
  moment.changes number fun _ s s' => s.state == .full && !s'.isFilled

/-- Whether a moment gives a record back that is being read. Who finds a reader gone
gives its record back and may claim it at once. -/
def givesBack (number : Nat) (moment : Moment) : Bool :=
  moment.changes number fun k s s' =>
    s.state == .reading && (s'.state == .full || moment.claimed? number == some k)

end Moment

/-- The records that were published in an object, the latest first. -/
def publications (number : Nat) (past : List Moment) : List Bytes :=
  past.filterMap fun moment => moment.publication? number

/-- The records that were claimed for reading in an object, the latest first. -/
def deliveries (number : Nat) (past : List Moment) : List (Bytes × Nat) :=
  past.filterMap fun moment => moment.delivery? number

/-- What is published is for all, and no record is done away with or given back. -/
structure Queued (number : Nat) (past : List Moment) : Prop where
  shared : ∀ issue ∈ issued number past, issue.2 = .any
  kept : ∀ moment ∈ past, moment.discards number = false
  taken : ∀ moment ∈ past, moment.givesBack number = false

variable {past : List Moment} {w : World} {call : Call} {number i k : Nat} {p p' : Party}
  {me : Attachment}

theorem publications_cons (moment : Moment) :
    publications number (moment :: past) =
      (moment.publication? number).toList ++ publications number past := by
  cases h : moment.publication? number <;> simp [publications, h]

theorem deliveries_cons (moment : Moment) :
    deliveries number (moment :: past) =
      (moment.delivery? number).toList ++ deliveries number past := by
  cases h : moment.delivery? number <;> simp [deliveries, h]

theorem Queued.of_cons {moment : Moment} (h : Queued number (moment :: past)) :
    Queued number past where
  shared issue hissue := by
    refine h.shared issue ?_
    rw [issued_cons]
    exact List.mem_append_right _ hissue
  kept earlier hearlier := h.kept earlier (List.mem_cons_of_mem _ hearlier)
  taken earlier hearlier := h.taken earlier (List.mem_cons_of_mem _ hearlier)

theorem changes_eq_false_iff {test : Nat → Slot → Slot → Bool} (hp : w.party? number = some p)
    (hp' : (w.step call).party? number = some p') :
    (⟨w, call⟩ : Moment).changes number test = false ↔
      ∀ {k : Nat} {s s' : Slot}, p.segment.slots[k]? = some s → p'.segment.slots[k]? = some s' →
        test k s s' = false := by
  have hslot : ∀ k, (⟨w, call⟩ : Moment).before.slot? number k = p.segment.slots[k]? :=
    slot?_of_party? hp
  have hslot' : ∀ k, (⟨w, call⟩ : Moment).after.slot? number k = p'.segment.slots[k]? :=
    slot?_of_party? hp'
  simp only [Moment.changes, (party?_eq_some_iff.mp hp).1, Option.any_some, List.any_eq_false,
    List.mem_range, hslot, hslot', Bool.not_eq_true]
  constructor
  · intro h k s s' hs hs'
    obtain ⟨hlt, -⟩ := List.getElem?_eq_some_iff.mp hs
    simpa [hs, hs'] using h k hlt
  · intro h k _
    cases hs : p.segment.slots[k]? with
    | none => rfl
    | some s =>
      cases hs' : p'.segment.slots[k]? with
      | none => rfl
      | some s' => exact h hs hs'

theorem isFilled_of_not_discards (hp : w.party? number = some p)
    (hp' : (w.step call).party? number = some p')
    (h : (⟨w, call⟩ : Moment).discards number = false) {s s' : Slot}
    (hs : p.segment.slots[k]? = some s) (hs' : p'.segment.slots[k]? = some s')
    (hfull : s.state = .full) : s'.isFilled = true := by
  simpa [hfull] using (changes_eq_false_iff hp hp').mp h hs hs'

theorem taken_of_not_givesBack (hp : w.party? number = some p)
    (hp' : (w.step call).party? number = some p')
    (h : (⟨w, call⟩ : Moment).givesBack number = false) {s s' : Slot}
    (hs : p.segment.slots[k]? = some s) (hs' : p'.segment.slots[k]? = some s')
    (hreading : s.state = .reading) :
    s'.state ≠ .full ∧ (⟨w, call⟩ : Moment).claimed? number ≠ some k := by
  simpa [hreading] using (changes_eq_false_iff hp hp').mp h hs hs'

/-- In an object whose records are gone once read, only force does away with one. -/
theorem discards_of_unforced (hw : w.Coherent) (hp : w.party? number = some p)
    (hdestructive : p.segment.control.isDestructive = true)
    (hforce : (⟨w, call⟩ : Moment).forces number = false) :
    (⟨w, call⟩ : Moment).discards number = false := by
  obtain ⟨p', hp', hturn⟩ := (step_turned hw call).turn hp
  have hfilled : ∀ {k : Nat} {s s' : Slot}, p.segment.slots[k]? = some s →
      p'.segment.slots[k]? = some s' → s.state = .full → s'.isFilled = true := by
    intro k s s' hs hs' hfull
    rcases hturn.slot_cases hs with hsame |
      ⟨i, operation, me, answer, after, hcall, hme, hmove, rfl⟩ | ⟨i, me, -, -, -, hleft⟩
    · rw [hs'] at hsame
      cases hsame
      exact Slot.isFilled_eq_true_iff.mpr (.inl hfull)
    · obtain ⟨t, ht, hchange⟩ := (Operation.apply_move hmove).change hs
      cases ht.symm.trans hs'
      exact hchange.isFilled (((hw.party hp).fits hme).destructive.trans hdestructive)
        (unforced_of_member hp hforce hcall hme) hfull
    · rw [hs'] at hleft
      cases hleft
      exact Slot.isFilled_leftBy_of_full hfull
  refine (changes_eq_false_iff hp hp').mpr fun {k s s'} hs hs' => ?_
  by_cases hfull : s.state = .full
  · simp [hfilled hs hs' hfull]
  · simp [hfull]

/-! ## The queue in a run -/

theorem passing_of_no_deed (hdeed : (⟨w, call⟩ : Moment).deed? number = none)
    (hlast : p'.segment.control.lastSequenceId = p.segment.control.lastSequenceId)
    (hoffered : p'.segment.offered = p.segment.offered) :
    p.segment.Passing p'.segment ((⟨w, call⟩ : Moment).publication? number)
      ((⟨w, call⟩ : Moment).claimed? number) := by
  rw [Moment.publication?, Moment.claimed?, hdeed]
  exact .still hlast hoffered

theorem passing_of_turn (hw : w.Coherent) (hp : w.party? number = some p)
    (hp' : (w.step call).party? number = some p') (hturn : p.Turn number w.now call p')
    (hdestructive : p.segment.control.isDestructive = true)
    (hshared : ∀ issue, (⟨w, call⟩ : Moment).issue? number = some issue → issue.2 = .any)
    (hkept : (⟨w, call⟩ : Moment).discards number = false)
    (htaken : (⟨w, call⟩ : Moment).givesBack number = false) :
    p.segment.Passing p'.segment ((⟨w, call⟩ : Moment).publication? number)
      ((⟨w, call⟩ : Moment).claimed? number) := by
  have hreading : ∀ {k : Nat} {s s' : Slot}, p.segment.slots[k]? = some s →
      p'.segment.slots[k]? = some s' → s.state = .reading → s'.state ≠ .full :=
    fun hs hs' h => (taken_of_not_givesBack hp hp' htaken hs hs' h).1
  -- Who goes away leaves no record that is not on offer already.
  have hleft : ∀ me : Attachment, p'.segment.slots = p.segment.slots.map (·.leftBy me.id) →
      p'.segment.offered = p.segment.offered := by
    intro me hslots
    refine funext fun j => offered_congr (by simp [hslots]) fun {s s'} hs hs' => ?_
    have hs'' : p'.segment.slots[j]? = some (s.leftBy me.id) := by
      rw [hslots, List.getElem?_map, hs, Option.map_some]
    cases hs''.symm.trans hs'
    exact Slot.offer?_leftBy (hreading hs hs')
  cases hturn with
  | others hother => exact passing_of_no_deed (deed?_of_others hw hp hother) rfl rfl
  | entered hcall => exact passing_of_no_deed (deed?_of_no_operation hcall) rfl rfl
  | @left _ i me hcall hbreach hme =>
    exact passing_of_no_deed (deed?_of_left hw hp hcall hme hbreach) rfl (hleft me rfl)
  | @ended i me => exact passing_of_no_deed (deed?_of_no_operation rfl) rfl (hleft me rfl)
  | @returned i me => exact passing_of_no_deed (deed?_of_no_operation rfl) rfl (hleft me rfl)
  | @moved _ i operation me answer after hcall hme hmove =>
    have hdeed := deed?_of_moved hw hp hcall hme hmove
    have hclaimed : (⟨w, call⟩ : Moment).claimed? number = operation.claimed? answer := by
      rw [Moment.claimed?, hdeed, Option.bind_some]
    have hqueues : (Mapping.mk me (w.now i) p.segment).Queues operation answer after := by
      refine ⟨((hw.party hp).fits hme).destructive.trans hdestructive, ?_,
        isFilled_of_not_discards hp hp' hkept, fun hs hs' h => ?_⟩
      · rintro k destination rfl rfl
        exact hshared (_, destination) (by rw [Moment.issue?, hdeed]; rfl)
      · rw [← hclaimed]
        exact taken_of_not_givesBack hp hp' htaken hs hs' h
    rw [hclaimed, Moment.publication?, hdeed, Option.bind_some]
    exact hqueues.passing (Operation.apply_move hmove)

theorem nothing_of_absent (h : Run past w) (hnone : w.party? number = none) :
    publications number past = [] ∧ deliveries number past = [] := by
  have hdeed : ∀ moment ∈ past, moment.deed? number = none := fun moment hmoment =>
    deed?_of_absent (h.absent hnone moment hmoment)
  constructor <;> refine List.filterMap_eq_nil_iff.mpr fun moment hmoment => ?_
  · rw [Moment.publication?, hdeed moment hmoment, Option.bind_none]
  · rw [Moment.delivery?, Moment.claimed?, hdeed moment hmoment, Option.bind_none, Option.map_none]

/-- In a run that treats it as a queue an object is one. -/
theorem Run.lined (h : Run past w) (hp : w.party? number = some p)
    (hdestructive : p.segment.control.isDestructive = true) (hqueued : Queued number past) :
    p.segment.Lined (publications number past) (deliveries number past) := by
  refine Run.party_induction (motive := fun past w p =>
      p.segment.control.isDestructive = true → Queued number past →
        p.segment.Lined (publications number past) (deliveries number past))
    (fun {past w p} call hrun hnone hp hfresh _ _ => ?_)
    (fun {past w call p p'} hrun hp hp' hturn ih hdestructive hqueued => ?_)
    h hp hdestructive hqueued
  · have hdeed : (⟨w, call⟩ : Moment).deed? number = none := deed?_of_absent hnone
    obtain ⟨hpublications, hdeliveries⟩ := nothing_of_absent hrun hnone
    rw [publications_cons, deliveries_cons, Moment.delivery?, Moment.publication?,
      Moment.claimed?, hdeed, hpublications, hdeliveries]
    cases hfresh with
    | blank size => exact lined_blank size
    | formatted now i => exact lined_formatted _ _ now
  · have hdestructive₁ := hturn.alike.isDestructive.symm.trans hdestructive
    have hpassing := passing_of_turn hrun.coherent hp hp' hturn hdestructive₁
      (fun issue hissue => hqueued.shared issue (by rw [issued_cons, hissue]; simp))
      (hqueued.kept _ List.mem_cons_self) (hqueued.taken _ List.mem_cons_self)
    have hlined := (ih hdestructive₁ hqueued.of_cons).pass (hrun.sound hp) hpassing
    have hsegment : (⟨w, call⟩ : Moment).after.segment? number = some p'.segment :=
      (party?_eq_some_iff.mp hp').1
    rw [publications_cons, deliveries_cons, Moment.delivery?, hsegment]
    exact hlined

/-- A reader of a queue finds nothing exactly when all that was published was
claimed. -/
theorem Run.claimForReading_eq_none_iff (h : Run past w) (hp : w.party? number = some p)
    (hdestructive : p.segment.control.isDestructive = true) (hqueued : Queued number past)
    (hme : p.member i = some me) (hcall : call.operation? = some (i, .claimForReading))
    (htaken : (⟨w, call⟩ : Moment).givesBack number = false) :
    (Mapping.mk me (w.now i) p.segment).claimForReading.1 = none ↔
      (deliveries number past).length = (publications number past).length := by
  have hw := h.coherent
  have hlined := h.lined hp hdestructive hqueued
  have hgone : me.destructive = true := ((hw.party hp).fits hme).destructive.trans hdestructive
  constructor
  · intro hnone
    by_contra hne
    have hlt := Nat.lt_of_le_of_ne hlined.length_le hne
    obtain ⟨k, offer, hoffer, -⟩ := hlined.waiting (le_refl _) hlt
    exact Mapping.claimForReading_ne_none hgone hoffer (hlined.offered hoffer).1 hnone
  · intro hall
    by_contra hsome
    obtain ⟨k, hsome⟩ := Option.ne_none_iff_exists'.mp hsome
    obtain ⟨p', hp', hturn⟩ := (step_turned hw call).turn hp
    have hdeed : (⟨w, call⟩ : Moment).deed? number = _ := deed?_of_moved hw hp hcall hme rfl
    have hforce : (⟨w, call⟩ : Moment).forces number = false := by
      simp [Moment.forces, hcall, Operation.isForced]
    have hpassing := passing_of_turn hw hp hp' hturn hdestructive
      (fun issue hissue => by rw [Moment.issue?, hdeed] at hissue; cases hissue)
      (discards_of_unforced hw hp hdestructive hforce) htaken
    have hclaimed : (⟨w, call⟩ : Moment).claimed? number = some k := by
      rw [Moment.claimed?, hdeed, ← hsome]
      rfl
    rw [hclaimed] at hpassing
    exact absurd hall (Nat.ne_of_lt (hlined.lt_of_claimed hpassing))

/-- **Records that are gone once read are delivered in order.** Where all is published
for all and no record is done away with or given back, what was claimed for reading
are the first of the records that were published, in that order and with sequence ids
from one on; and a reader finds nothing exactly when all of them were claimed. -/
theorem delivered_in_order {past : List Moment} {w : World} (hrun : Run past w) {number : Nat}
    {segment : Segment} (hsegment : w.segment? number = some segment)
    (hdestructive : segment.control.isDestructive = true) (hqueued : Queued number past) :
    (deliveries number past).reverse <+: (publications number past).reverse.zipIdx 1 ∧
    ∀ (i : Nat) (me : Attachment) (call : Call), w.member number i = some me →
      call.operation? = some (i, .claimForReading) →
      (⟨w, call⟩ : Moment).givesBack number = false →
        (w.answer? i .claimForReading = some (.ok (.slot none)) ↔
          (deliveries number past).length = (publications number past).length) := by
  have hp := party?_of_segment? hsegment
  refine ⟨(hrun.lined hp hdestructive hqueued).inOrder, fun i me call hme hcall htaken => ?_⟩
  rw [← hrun.claimForReading_eq_none_iff hp hdestructive hqueued hme hcall htaken,
    hrun.coherent.answer?_eq hp hme]
  simp [Operation.apply]

/-- What the second writer publishes first is delivered first, though the other has
the slot before; and there is something left for the next reader. -/
theorem delivered_in_order_two_writers :
    let config : Segment.Config := ⟨7, 3, 8, 0, true, 0⟩
    let calls : List Call := [.attach config .manual, .attach config .manual,
      .attach config .manual, .perform 0 (.claimForWriting false),
      .perform 1 (.claimForWriting false), .perform 1 (.write 1 [2]), .perform 1 (.publish 1 .any),
      .perform 0 (.write 0 [1]), .perform 0 (.publish 0 .any), .perform 2 .claimForReading]
    let past := (run calls).1
    let w := (run calls).2
    Queued 0 past ∧ deliveries 0 past = [([2], 1)] ∧
      (deliveries 0 past).reverse <+: (publications 0 past).reverse.zipIdx 1 ∧
      w.answer? 2 .claimForReading ≠ some (.ok (.slot none)) := by
  intro config calls past w
  have hqueued : Queued 0 past := ⟨by decide +kernel, by decide +kernel, by decide +kernel⟩
  have hpublications : publications 0 past = [[1], [2]] := by decide +kernel
  have hdeliveries : deliveries 0 past = [([2], 1)] := by decide +kernel
  obtain ⟨segment, hsegment, hdestructive⟩ := (Option.any_eq_true
    (fun segment : Segment => segment.control.isDestructive) (w.segment? 0)).mp
      (by decide +kernel)
  obtain ⟨me, hme⟩ := Option.isSome_iff_exists.mp
    (by decide +kernel : (w.member 0 2).isSome = true)
  obtain ⟨hinOrder, hnothing⟩ := delivered_in_order (run_run calls) hsegment hdestructive hqueued
  refine ⟨hqueued, hdeliveries, hinOrder, fun hnone => ?_⟩
  have hall := (hnothing 2 me (.perform 2 .claimForReading) hme rfl (by decide +kernel)).mp hnone
  rw [show deliveries 0 (run calls).1 = _ from hdeliveries,
    show publications 0 (run calls).1 = _ from hpublications] at hall
  cases hall

end World

end SlotTransport
