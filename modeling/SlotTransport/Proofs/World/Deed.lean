/-
What is done in a run. A deed is an operation that the slot protocol has let
through, with all that it was done on; `Moment.deed?` is the deed that a moment
consists of, as far as an object is concerned. `deed?_eq_some_iff` says when there
is one, and `issued` lists the records that were published.
-/
import SlotTransport.Proofs.World.Coherent

namespace SlotTransport

open Segment

/-- An operation that was let through. -/
structure Deed where
  /-- The number of the manager that did it, which was attached as `me`. -/
  manager : Nat
  me : Attachment
  /-- The segment as it was before. -/
  segment : Segment
  operation : Operation
  answer : Answer

/-- The record that an operation publishes which tells `answer`, if it publishes
one: its sequence id, and whom it is for. -/
def Operation.issue? (segment : Segment) : Operation → Answer → Option (Nat × Destination)
  | publish _ destination, .flag true =>
    some (segment.control.lastSequenceId + 1, destination)
  | _, _ => none

namespace World

namespace Moment

/-- The deed that a moment consists of in an object, if it consists of one. -/
def deed? (number : Nat) (moment : Moment) : Option Deed :=
  match moment.call.operation? with
  | some (i, operation) =>
    match moment.before.party? number, moment.before.answer? i operation with
    | some p, some (.ok answer) =>
      (p.member i).map fun me => ⟨i, me, p.segment, operation, answer⟩
    | _, _ => none
  | none => none

/-- The record that a moment publishes in an object, if it publishes one. -/
def issue? (number : Nat) (moment : Moment) : Option (Nat × Destination) :=
  (moment.deed? number).bind fun deed => deed.operation.issue? deed.segment deed.answer

end Moment

/-- The records that were published in an object, the latest first. -/
def issued (number : Nat) (past : List Moment) : List (Nat × Destination) :=
  past.filterMap fun moment => moment.issue? number

variable {past : List Moment} {w : World} {call : Call} {number i : Nat} {p : Party}
  {me : Attachment}

theorem issued_cons (moment : Moment) :
    issued number (moment :: past) = (moment.issue? number).toList ++ issued number past := by
  cases h : moment.issue? number <;> simp [issued, h]

theorem deed?_of_absent (h : w.party? number = none) :
    (⟨w, call⟩ : Moment).deed? number = none := by
  simp only [Moment.deed?, h]
  split <;> rfl

/-- A deed is an operation of a member that was let through. -/
theorem deed?_eq_some_iff (hw : w.Coherent) (hp : w.party? number = some p) {deed : Deed} :
    (⟨w, call⟩ : Moment).deed? number = some deed ↔
      call.operation? = some (deed.manager, deed.operation) ∧
        p.member deed.manager = some deed.me ∧ deed.segment = p.segment ∧
        ∃ after, deed.operation.apply ⟨deed.me, w.now deed.manager, p.segment⟩ =
          .ok (deed.answer, after) := by
  obtain ⟨i, me, segment, operation, answer⟩ := deed
  simp only [Moment.deed?, hp]
  constructor
  · intro h
    split at h
    · rename_i j done hcall
      split at h
      · rename_i p' told hp' htold
        cases hp'
        obtain ⟨me', hme', heq⟩ := Option.map_eq_some_iff.mp h
        cases heq
        exact ⟨hcall, hme', rfl, hw.apply_of_answer? hp hme' htold⟩
      · cases h
    · cases h
  · rintro ⟨hcall, hme, rfl, after, happly⟩
    have hanswer : w.answer? i operation = some (.ok answer) := by
      rw [hw.answer?_eq hp hme, happly]
    simp [hcall, hanswer, hme]

theorem deed?_of_moved (hw : w.Coherent) (hp : w.party? number = some p) {operation : Operation}
    {answer : Answer} {after : Mapping} (hcall : call.operation? = some (i, operation))
    (hme : p.member i = some me)
    (happly : operation.apply ⟨me, w.now i, p.segment⟩ = .ok (answer, after)) :
    (⟨w, call⟩ : Moment).deed? number = some ⟨i, me, p.segment, operation, answer⟩ :=
  (deed?_eq_some_iff hw hp).mpr ⟨hcall, hme, rfl, after, happly⟩

theorem deed?_of_stranger (hw : w.Coherent) (hp : w.party? number = some p)
    (h : ∀ i me operation, call.operation? = some (i, operation) → p.member i = some me →
      ∃ breach, operation.apply ⟨me, w.now i, p.segment⟩ = .error breach) :
    (⟨w, call⟩ : Moment).deed? number = none := by
  cases hdeed : (⟨w, call⟩ : Moment).deed? number with
  | none => rfl
  | some deed =>
    obtain ⟨hcall, hme, -, after, happly⟩ := (deed?_eq_some_iff hw hp).mp hdeed
    obtain ⟨breach, hbreach⟩ := h _ _ _ hcall hme
    rw [happly] at hbreach
    cases hbreach

theorem deed?_of_no_operation (h : call.operation? = none) :
    (⟨w, call⟩ : Moment).deed? number = none := by
  simp [Moment.deed?, h]

theorem deed?_of_others (hw : w.Coherent) (hp : w.party? number = some p)
    (h : ∀ i, call.manager? = some i → p.member i = none) :
    (⟨w, call⟩ : Moment).deed? number = none := by
  refine deed?_of_stranger hw hp fun i me operation hcall hme => ?_
  rw [h i (Call.manager?_of_operation? hcall)] at hme
  cases hme

theorem deed?_of_left (hw : w.Coherent) (hp : w.party? number = some p)
    (hcall : call.manager? = some i) (hme : p.member i = some me)
    (hbreach : ∀ operation, call.operation? = some (i, operation) →
      ∃ breach, operation.apply ⟨me, w.now i, p.segment⟩ = .error breach) :
    (⟨w, call⟩ : Moment).deed? number = none := by
  refine deed?_of_stranger hw hp fun j me' operation hoperation hme' => ?_
  obtain rfl : i = j := by
    simpa [hcall] using Call.manager?_of_operation? hoperation
  rw [hme] at hme'
  cases hme'
  exact hbreach operation hoperation

end World

end SlotTransport
