/-
What has been done to an object in a run. `Moment.note?` is the entry that a
moment makes for an object, and `ledger` holds the entries of a run, the latest
first. That there is an entry means that the slot protocol has let the operation
through (`note?_spec`).
-/
import SlotTransport.Proofs.World.Deed

namespace SlotTransport

open Segment

namespace World

namespace Moment

/-- The entry that a moment makes for an object, with the manager, if it makes
one. -/
def note? (number : Nat) (moment : Moment) : Option (Nat × Entry) :=
  match moment.call.operation? with
  | some (i, operation) =>
    match moment.before.party? number, moment.before.answer? i operation with
    | some p, some (.ok answer) =>
      if (p.member i).isSome then (operation.note? p.segment answer).map (i, ·) else none
    | _, _ => none
  | none => none

/-- Whether slots of an object may be taken by force. -/
def forces (number : Nat) (moment : Moment) : Bool :=
  match moment.call.operation? with
  | some (i, operation) => (moment.before.member number i).isSome && operation.isForced
  | none => false

end Moment

/-- The entries that were made for an object, the latest first. -/
def ledger (number : Nat) (past : List Moment) : List (Nat × Entry) :=
  past.filterMap fun moment => moment.note? number

variable {past : List Moment} {w : World} {call : Call} {number i : Nat} {p : Party}

theorem ledger_cons (moment : Moment) :
    ledger number (moment :: past) = (moment.note? number).toList ++ ledger number past := by
  cases h : moment.note? number <;> simp [ledger, h]

theorem Run.before (h : Run past w) {moment : Moment} (hmoment : moment ∈ past) :
    ∃ earlier, Run earlier moment.before := by
  induction h with
  | start => cases hmoment
  | step call h ih =>
    rcases List.mem_cons.mp hmoment with rfl | hmem
    · exact ⟨_, h⟩
    · exact ih hmem

/-! ## Entries -/

theorem note?_eq_deed (moment : Moment) :
    moment.note? number = (moment.deed? number).bind fun deed =>
      (deed.operation.note? deed.segment deed.answer).map (deed.manager, ·) := by
  unfold Moment.note? Moment.deed?
  cases moment.call.operation? with
  | none => rfl
  | some called =>
    obtain ⟨i, operation⟩ := called
    cases hp : moment.before.party? number with
    | none => rfl
    | some p =>
      rcases hanswer : moment.before.answer? i operation with _ | _ | answer
      · simp [hanswer]
      · simp [hanswer]
      · cases hme : p.member i <;> simp [hanswer, hme]

theorem note?_of_no_deed {moment : Moment} (h : moment.deed? number = none) :
    moment.note? number = none := by
  rw [note?_eq_deed, h]
  rfl

theorem note?_of_absent (h : w.party? number = none) :
    (⟨w, call⟩ : Moment).note? number = none :=
  note?_of_no_deed (deed?_of_absent h)

theorem note?_of_no_operation (h : call.operation? = none) :
    (⟨w, call⟩ : Moment).note? number = none :=
  note?_of_no_deed (deed?_of_no_operation h)

theorem note?_of_moved (hw : w.Coherent) (hp : w.party? number = some p) {me : Attachment}
    {operation : Operation} {answer : Answer} {after : Mapping}
    (hcall : call.operation? = some (i, operation)) (hme : p.member i = some me)
    (happly : operation.apply ⟨me, w.now i, p.segment⟩ = .ok (answer, after)) :
    (⟨w, call⟩ : Moment).note? number = (operation.note? p.segment answer).map (i, ·) := by
  rw [note?_eq_deed, deed?_of_moved hw hp hcall hme happly]
  rfl

/-- An entry stands for an operation of a member that was let through. -/
theorem note?_spec (hw : w.Coherent) (hp : w.party? number = some p) {entry : Entry}
    (h : (⟨w, call⟩ : Moment).note? number = some (i, entry)) :
    ∃ operation me answer after, call.operation? = some (i, operation) ∧ p.member i = some me ∧
      operation.apply ⟨me, w.now i, p.segment⟩ = .ok (answer, after) ∧
      operation.note? p.segment answer = some entry := by
  rw [note?_eq_deed] at h
  obtain ⟨deed, hdeed, hentry⟩ := Option.bind_eq_some_iff.mp h
  obtain ⟨entry', hentry', heq⟩ := Option.map_eq_some_iff.mp hentry
  cases heq
  obtain ⟨hcall, hme, hsegment, after, happly⟩ := (deed?_eq_some_iff hw hp).mp hdeed
  rw [hsegment] at hentry'
  exact ⟨_, _, _, after, hcall, hme, happly, hentry'⟩

theorem note?_of_others (hw : w.Coherent) (hp : w.party? number = some p)
    (h : ∀ i, call.manager? = some i → p.member i = none) :
    (⟨w, call⟩ : Moment).note? number = none :=
  note?_of_no_deed (deed?_of_others hw hp h)

theorem note?_of_left (hw : w.Coherent) (hp : w.party? number = some p) {me : Attachment}
    (hcall : call.manager? = some i) (hme : p.member i = some me)
    (hbreach : ∀ operation, call.operation? = some (i, operation) →
      ∃ breach, operation.apply ⟨me, w.now i, p.segment⟩ = .error breach) :
    (⟨w, call⟩ : Moment).note? number = none :=
  note?_of_no_deed (deed?_of_left hw hp hcall hme hbreach)

/-- What a member does is not done by force, if the moment is not one of force. -/
theorem unforced_of_member (hp : w.party? number = some p) {me : Attachment}
    {operation : Operation} (hforce : (⟨w, call⟩ : Moment).forces number = false)
    (hcall : call.operation? = some (i, operation)) (hme : p.member i = some me) :
    operation.isForced = false := by
  rw [(party?_eq_some_iff.mp hp).2] at hme
  simpa [Moment.forces, hcall, hme] using hforce

theorem ledger_of_absent (h : Run past w) (hnone : w.party? number = none) :
    ledger number past = [] :=
  List.filterMap_eq_nil_iff.mpr fun moment hmoment =>
    note?_of_absent (h.absent hnone moment hmoment)

end World

end SlotTransport
