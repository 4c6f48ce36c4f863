/-
A slot that somebody holds is the holder's alone. Whatever another manager does,
by an operation, by way of a lease, by leaving or by a breach of the slot
protocol, the whole slot is as it was, unless it is taken from its holder in one
of the ways that `Seizure` lists (`held_exclusive`).
-/
import SlotTransport.Proofs.Operation.Change
import SlotTransport.Proofs.World.Coherent

namespace SlotTransport

open Segment

/-- An operation that tells `answer` has come past a slot: a claim for writing
goes no further than to the slot that it takes. -/
def Operation.Reaches (operation : Operation) (answer : Answer) (k : Nat) : Prop :=
  ∀ overwrite, operation = .claimForWriting overwrite →
    answer = .slot none ∨ answer = .slot (some k)

namespace Segment

/-- Whether somebody holds the slot. -/
def Slot.isHeld (s : Slot) : Bool :=
  s.state == .writing || s.state == .reading

theorem Slot.leftBy_of_not_held {s : Slot} {id : ManagerId}
    (hother : s.isHeld = true → s.owner ≠ id) : s.leftBy id = s := by
  rcases s.leftBy_cases id with h | ⟨howner, hstate, -⟩ | ⟨howner, hstate, -⟩
  · exact h
  · exact absurd howner (hother (by simp [Slot.isHeld, hstate]))
  · exact absurd howner (hother (by simp [Slot.isHeld, hstate]))

/-- How a held slot may be taken by an operation of a manager that is not its
holder, the clock showing `now`. -/
inductive Seizure (segment : Segment) (me : Attachment) (now k : Nat) (s : Slot) :
    Operation → Prop where
  /-- The slot is stale, and a scan comes past it or it is asked for. -/
  | stale {operation : Operation} (htimeout : segment.control.staleTimeout ≠ 0)
    (hstale : segment.control.staleTimeout.toNat < now - s.lastTouch)
    (h : operation.isClaim = true ∨ operation = .reset k) : Seizure segment me now k s operation
  /-- A writer overwrites what is being read. -/
  | overwritten (hreading : s.state = .reading) :
    Seizure segment me now k s (.claimForWriting true)
  /-- The creator of the segment empties the slot. -/
  | evicted (hcreator : me.id = creatorId) : Seizure segment me now k s (.evict k)

namespace Mapping

variable {m : Mapping} {operation : Operation} {answer : Answer} {k : Nat} {s s' : Slot}

theorem Change.held (h : m.Change operation answer k s s') (hheld : s.isHeld = true)
    (hother : m.me.id ≠ s.owner) :
    s' = s ∨
      (s.isStale m.staleness = true ∧ (operation.isClaim = true ∨ operation = .reset k)) ∨
      (operation = .claimForWriting true ∧ s.state = .reading) ∨
      (operation = .evict k ∧ m.me.id = creatorId) := by
  have hstate : s.state = .writing ∨ s.state = .reading := by simpa [Slot.isHeld] using hheld
  cases h with
  | kept => exact .inl rfl
  | wrote _ _ howner | read _ _ howner | released _ _ howner => exact absurd howner.symm hother
  | checked _ hmine =>
    rcases hmine with howner | ⟨-, hfull | hempty⟩
    · exact absurd howner.symm hother
    · rcases hstate with h | h <;> simp [h] at hfull
    · rcases hstate with h | h <;> simp [h] at hempty
  | swept hclaim =>
    by_cases hstale : s.isStale m.staleness = true
    · exact .inr (.inl ⟨hstale, .inl hclaim⟩)
    · exact .inl (Slot.swept_of_not_isStale (by simpa using hstale))
  | reset hreset hs' =>
    have hstale : s.isStale m.staleness = true := by
      rcases (Slot.reclaimed?_cases hs').1 with hmine | hstale
      · exact absurd (by simpa using hmine) hother.symm
      · exact hstale
    exact .inr (.inl ⟨hstale, .inr hreset⟩)
  | @claimedForWriting overwrite hclaim _ hfree =>
    subst hclaim
    by_cases hstale : s.isStale m.staleness = true
    · exact .inr (.inl ⟨hstale, .inl rfl⟩)
    · -- A fresh slot that is held is free for nobody but a writer that overwrites.
      rw [Slot.swept_of_not_isStale (by simpa using hstale)] at hfree
      simp only [Slot.isWritable, Bool.or_eq_true, Bool.and_eq_true, beq_iff_eq,
        bne_iff_ne] at hfree
      rcases hfree with hempty | ⟨rfl, hwriting⟩
      · rcases hstate with h | h <;> simp [h] at hempty
      · exact .inr (.inr (.inl ⟨rfl, hstate.resolve_left hwriting⟩))
  | claimedForReading hclaim _ hread =>
    subst hclaim
    by_cases hstale : s.isStale m.staleness = true
    · exact .inr (.inl ⟨hstale, .inl rfl⟩)
    · rw [Slot.swept_of_not_isStale (by simpa using hstale)] at hread
      simp only [isReadable, Slot.isAddressedTo, Bool.and_eq_true, beq_iff_eq] at hread
      rcases hstate with h | h <;> simp [h] at hread
  | published _ hword =>
    have howner : s.owner = m.me.id := by rw [Slot.owner, hword, StateWord.of]
    exact absurd howner.symm hother
  | evicted hevict hmay => exact .inr (.inr (.inr ⟨hevict, hmay.resolve_right hother.symm⟩))

end Mapping

/-! ## Slots that are taken -/

namespace Slot

theorem state_swept_of_held {s : Slot} {staleness : Staleness} (hheld : s.isHeld = true)
    (hstale : s.isStale staleness = true) : (s.swept staleness).state ≠ s.state := by
  have hstate : s.state = .writing ∨ s.state = .reading := by simpa [isHeld] using hheld
  rcases hstate with h | h
  · have hswept : s.swept staleness = s.freed.touched staleness.now := by
      simp [swept, reclaimed?, hstale, h]
    simp [hswept, h]
  · have hswept : s.swept staleness = s.returned.touched staleness.now := by
      simp [swept, reclaimed?, hstale, h]
    simp [hswept, h]

theorem ne_of_owner {s s' : Slot} {id : ManagerId} (hs' : s'.owner = id) (hother : id ≠ s.owner) :
    s' ≠ s := by
  rintro rfl
  exact hother hs'.symm

end Slot

namespace Mapping

theorem claimForWriting_takes {m : Mapping} {overwrite : Bool} {k : Nat} {s : Slot}
    (hslot : m.slots[k]? = some s) (hheld : s.isHeld = true) (hother : m.me.id ≠ s.owner)
    (hfree : s.isStale m.staleness = true ∨ overwrite = true ∧ s.state = .reading)
    (hreach : (m.claimForWriting overwrite).1 = none ∨ (m.claimForWriting overwrite).1 = some k) :
    (m.claimForWriting overwrite).2.slots[k]? ≠ some s := by
  have hlt : k < m.slots.length := (List.getElem?_eq_some_iff.mp hslot).1
  rcases m.claimForWriting_cases overwrite with
    ⟨h, hnone⟩ | ⟨before, slot, others, t, -, -, ht, -, h⟩
  · rw [h, slots_sweptAt, hslot]
    simp only [mem_cyclic, hlt, if_true, Option.map_some, ne_eq, Option.some.injEq]
    intro hsame
    rcases hfree with hstale | ⟨rfl, hreading⟩
    · exact Slot.state_swept_of_held hheld hstale (congrArg Slot.state hsame)
    · exact hnone k hlt ⟨s, hslot, by rw [hsame]; simp [Slot.isWritable, hreading]⟩
  · rw [h] at hreach
    rcases hreach with hreach | hreach
    · cases hreach
    · cases hreach
      rw [h, slots_takeForWriting]
      have hlt' : k < (m.sweptAt (before ++ [k])).slots.length := by simpa using hlt
      simp only [List.getElem?_set_self hlt', ne_eq, Option.some.injEq]
      exact Slot.ne_of_owner rfl hother

theorem claimForReading_takes {m : Mapping} {k : Nat} {s : Slot} (hslot : m.slots[k]? = some s)
    (hheld : s.isHeld = true) (hother : m.me.id ≠ s.owner)
    (hstale : s.isStale m.staleness = true) : m.claimForReading.2.slots[k]? ≠ some s := by
  have hlt : k < m.slots.length := (List.getElem?_eq_some_iff.mp hslot).1
  have hswept : m.sweepAll.slots[k]? ≠ some s := by
    rw [slots_sweepAll, hslot, Option.map_some, ne_eq, Option.some.injEq]
    exact fun hsame => Slot.state_swept_of_held hheld hstale (congrArg Slot.state hsame)
  rcases m.claimForReading_cases with ⟨h, -⟩ | ⟨slot, t, ht, -, -, h⟩
  · rw [h]
    exact hswept
  · rw [h, slots_takeForReading]
    by_cases hk : slot = k
    · subst hk
      have hlt' : slot < m.sweepAll.slots.length := by simpa [sweepAll] using hlt
      simp only [List.getElem?_set_self hlt', ne_eq, Option.some.injEq]
      exact Slot.ne_of_owner rfl hother
    · simp only [List.getElem?_set_ne hk]
      exact hswept

/-- To seize a slot is to change it, where the operation comes past it. -/
theorem seizure_changes {m after : Mapping} {operation : Operation} {answer : Answer} {k : Nat}
    {s : Slot} (htimeout : m.me.staleTimeout = m.segment.control.staleTimeout.toNat)
    (hslot : m.slots[k]? = some s) (hheld : s.isHeld = true) (hother : m.me.id ≠ s.owner)
    (happly : operation.apply m = .ok (answer, after))
    (hseizure : Seizure m.segment m.me m.now k s operation)
    (hreach : operation.Reaches answer k) : after.slots[k]? ≠ some s := by
  have hlt : k < m.slots.length := (List.getElem?_eq_some_iff.mp hslot).1
  cases hseizure with
  | stale hzero hstale h =>
    have hisStale : s.isStale m.staleness = true := by
      refine Slot.isStale_eq_true_iff.mpr ⟨fun h0 => hzero ?_, ?_⟩
      · simp only [staleness, htimeout] at h0
        exact UInt64.toNat_inj.mp h0
      · simpa only [staleness, htimeout] using hstale
    rcases h with hclaim | rfl
    · cases operation with
      | claimForWriting overwrite =>
        cases happly
        refine claimForWriting_takes hslot hheld hother (.inl hisStale) ?_
        simpa using hreach overwrite rfl
      | claimForReading =>
        cases happly
        exact claimForReading_takes hslot hheld hother hisStale
      | _ => cases hclaim
    · have hstate := Slot.state_swept_of_held hheld hisStale
      have hreclaimed : s.reclaimed? m.staleness false = some (s.swept m.staleness) :=
        Slot.reclaimed?_of_swept_ne fun hsame => hstate (congrArg Slot.state hsame)
      have hmine : (s.owner == m.me.id) = false := by simpa using hother.symm
      simp only [Operation.apply, reset, slotAt_eq_ok_iff.mpr hslot, bind_eq_ok_iff,
        map_eq_ok_iff] at happly
      obtain ⟨told, ⟨t, ht, h⟩, heq⟩ := happly
      cases ht
      rw [hmine, hreclaimed] at h
      cases h
      cases heq
      simp only [slots_store, List.getElem?_set_self hlt, ne_eq, Option.some.injEq]
      exact fun hsame => hstate (congrArg Slot.state hsame)
  | overwritten hreading =>
    cases happly
    refine claimForWriting_takes hslot hheld hother (.inr ⟨rfl, hreading⟩) ?_
    simpa using hreach true rfl
  | evicted hcreator =>
    simp only [Operation.apply, evict, disposable_eq_ok_iff.mpr ⟨hslot, .inl hcreator⟩,
      bind_eq_ok_iff, map_eq_ok_iff] at happly
    obtain ⟨told, ⟨t, ht, h⟩, heq⟩ := happly
    cases ht
    cases h
    cases heq
    simp only [touch, slots_store, List.getElem?_set_self hlt, ne_eq, Option.some.injEq]
    intro hsame
    have hempty : s.state = .empty := by rw [← hsame]; rfl
    simp [Slot.isHeld, hempty] at hheld

end Mapping

end Segment

/-- What a turn of one manager does to a slot that another holds. -/
theorem Party.Turn.held {number : Nat} {now : Nat → Nat} {p p' : Party} {call : World.Call}
    (hturn : p.Turn number now call p') (hp : p.Coherent number) {i k : Nat} {s : Slot}
    (hcall : call.manager? = some i) (hslot : p.segment.slots[k]? = some s)
    (hheld : s.isHeld = true) (hother : ∀ me, p.member i = some me → me.id ≠ s.owner) :
    p'.segment.slots[k]? = some s ∨
      ∃ operation me, call.operation? = some (i, operation) ∧ p.member i = some me ∧
        Seizure p.segment me (now i) k s operation := by
  rcases hturn.slot_cases hslot with
    h | ⟨j, operation, me, answer, after, hoperation, hme, hmove, rfl⟩ | ⟨j, me, hj, hme, -, h⟩
  · exact .inl h
  · have hj := World.Call.manager?_of_operation? hoperation
    rw [hcall] at hj
    cases hj
    have hfits := hp.fits hme
    obtain ⟨s', hs', hchange⟩ := (Operation.apply_move hmove).change hslot
    rcases hchange.held hheld (hother me hme) with rfl | ⟨hstale, h⟩ | ⟨rfl, h⟩ | ⟨rfl, h⟩
    · exact .inl hs'
    · obtain ⟨htimeout, hlt⟩ := Slot.isStale_eq_true_iff.mp hstale
      simp only [Mapping.staleness, hfits.staleTimeout] at htimeout hlt
      refine .inr ⟨operation, me, hoperation, hme, .stale (fun hzero => ?_) hlt h⟩
      exact htimeout (by rw [hzero]; rfl)
    · exact .inr ⟨_, me, hoperation, hme, .overwritten h⟩
    · exact .inr ⟨_, me, hoperation, hme, .evicted h⟩
  · rw [hcall] at hj
    cases hj
    rw [h, Slot.leftBy_of_ne (hother me hme)]
    exact .inl rfl

namespace World

/-- **A held slot is its holder's alone.** In every run, whatever a manager is
called to do, a slot that another holds stays as it is in all its parts, or else
the call is for an operation that may seize it; and one that may, and comes past
the slot, does. -/
theorem held_exclusive {past : List Moment} {w : World} (hrun : Run past w) {call : Call}
    {i number k : Nat} {me : Attachment} {segment : Segment} {s : Slot}
    (hcall : call.manager? = some i) (hme : w.attachment? i = some me)
    (hsegment : w.segment? number = some segment) (hslot : segment.slots[k]? = some s)
    (hheld : s.isHeld = true) (hother : me.object = number → me.id ≠ s.owner) :
    ((w.step call).slot? number k = some s ∨
      ∃ operation, call.operation? = some (i, operation) ∧ me.object = number ∧
        Seizure segment me (w.now i) k s operation) ∧
    ∀ operation answer, call.operation? = some (i, operation) → me.object = number →
      Seizure segment me (w.now i) k s operation →
      w.answer? i operation = some (.ok answer) → operation.Reaches answer k →
      (w.step call).slot? number k ≠ some s := by
  have hp : w.party? number = some ⟨segment, w.member number⟩ :=
    party?_eq_some_iff.mpr ⟨hsegment, rfl⟩
  have hcoherent := hrun.coherent
  obtain ⟨p', hp', hturn⟩ := (step_turned hcoherent call).turn hp
  have hslot' : (w.step call).slot? number k = p'.segment.slots[k]? :=
    slot?_of_party? hp' k
  rw [hslot']
  constructor
  · have hmember : ∀ me', w.member number i = some me' → me'.id ≠ s.owner := by
      intro me' hme'
      obtain ⟨hattached, hobject⟩ := member_eq_some_iff.mp hme'
      rw [hme] at hattached
      cases hattached
      exact hother hobject
    rcases hturn.held (hcoherent.party hp) hcall hslot hheld hmember with
      hkept | ⟨operation, me', hoperation, hme', hseizure⟩
    · exact .inl hkept
    · obtain ⟨hattached, hobject⟩ := member_eq_some_iff.mp hme'
      rw [hme] at hattached
      cases hattached
      exact .inr ⟨operation, hoperation, hobject, hseizure⟩
  · intro operation answer hoperation hobject hseizure hanswer hreach
    have hmember : w.member number i = some me := member_eq_some_iff.mpr ⟨hme, hobject⟩
    obtain ⟨after, happly⟩ := hcoherent.apply_of_answer? hp hmember hanswer
    rw [hturn.moved_of_apply hoperation hmember happly]
    have hfits := (hcoherent.party hp).fits hmember
    exact Mapping.seizure_changes (m := ⟨me, w.now i, segment⟩) hfits.staleTimeout hslot hheld
      (hother hobject) happly hseizure hreach

/-- A manager that writes into another's slot changes nothing there. -/
theorem held_exclusive_writer :
    let calls : List Call := [.attach (.new 7 2 8) .manual, .perform 0 (.claimForWriting false),
      .perform 0 (.write 0 [1, 2]), .attach (.new 7 2 8) .manual]
    let write : Call := .perform 1 (.write 0 [3])
    ∃ me segment s, (run calls).2.attachment? 1 = some me ∧
      (run calls).2.segment? 0 = some segment ∧ segment.slots[0]? = some s ∧
      s.isHeld = true ∧ me.id ≠ s.owner ∧ ((run calls).2.step write).slot? 0 0 = some s := by
  intro calls write
  have hrun := run_run calls
  refine ⟨_, _, _, rfl, rfl, rfl, rfl, by decide, ?_⟩
  obtain ⟨h, -⟩ := @held_exclusive _ _ hrun write 1 0 0 _ _ _ rfl rfl rfl rfl rfl
    (fun _ => by decide)
  refine h.resolve_right ?_
  rintro ⟨operation, hoperation, -, hseizure⟩
  cases hoperation
  cases hseizure with
  | stale _ _ hclaim => rcases hclaim with hclaim | hclaim <;> cases hclaim

end World

end SlotTransport
