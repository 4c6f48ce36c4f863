/-
What a failure leaves behind. An operation of a manager that is not attached
changes nothing. One that breaches the slot protocol does so before its first store,
and costs the manager its attachment and nothing but that: `Vacated` says of a segment,
field by field, that a manager has left it, and `failure_atomic` that a failed operation
is never seen half done.
-/
import SlotTransport.Proofs.World.Exclusive

namespace SlotTransport

open Segment

namespace Segment

/-- What a manager that leaves makes of a segment: all that it held is given
back, it is not counted any more, and the rest is as it was. -/
structure Vacated (me : Attachment) (before after : Segment) : Prop where
  written : ∀ {k : Nat} {s : Slot}, before.slots[k]? = some s → s.state = .writing →
    s.owner = me.id → after.slots[k]? = some { s with word := .free, writePos := 0, readPos := 0 }
  read : ∀ {k : Nat} {s : Slot}, before.slots[k]? = some s → s.state = .reading →
    s.owner = me.id → after.slots[k]? = some { s with word := .of .full noOwner, readPos := 0 }
  others : ∀ {k : Nat}, (∀ s, before.slots[k]? = some s → s.isHeld = true → s.owner ≠ me.id) →
    after.slots[k]? = before.slots[k]?
  rest : after = { before with
    slots := after.slots
    control := { before.control with
      attached := before.control.attached - 1
      writers := if me.isWriter then before.control.writers - 1 else before.control.writers } }

theorem vacated_left (m : Mapping) : Vacated m.me m.segment m.left := by
  have hslots : ∀ k : Nat, m.left.slots[k]? = m.segment.slots[k]?.map (·.leftBy m.me.id) :=
    fun k => List.getElem?_map ..
  refine ⟨fun {k s} hs hstate howner => ?_, fun {k s} hs hstate howner => ?_,
    fun {k} hother => ?_, ?_⟩
  · rw [hslots, hs, Option.map_some, Slot.leftBy, if_pos howner, hstate]
  · rw [hslots, hs, Option.map_some, Slot.leftBy, if_pos howner, hstate]
    rfl
  · rw [hslots]
    cases hs : m.segment.slots[k]? with
    | none => rfl
    | some s => rw [Option.map_some, Slot.leftBy_of_not_held (hother s hs)]
  · cases hwriter : m.me.isWriter <;> simp [Mapping.left, hwriter]

end Segment

namespace Operation

variable {operation : Operation} {m after : Mapping} {answer : Answer}

theorem isIdle_eq_false (h : operation.isTransfer = true ∨ operation.isDeclaration = true)
    (answer : Answer) : operation.isIdle answer = false := by
  cases operation with
  | reset | check | publish | view | hasUnread | written | stateOf | snapshot =>
    obtain h | h := h <;> cases h
  | _ => rfl

theorem eq_of_isIdle (h : operation.apply m = .ok (answer, after))
    (hidle : operation.isIdle answer = true) : after = m := by
  cases apply_move h with
  | idle => rfl
  | wrote htransfer | read htransfer =>
    rw [isIdle_eq_false (.inl htransfer)] at hidle
    cases hidle
  | declared hdeclared =>
    rw [isIdle_eq_false (.inr hdeclared)] at hidle
    cases hidle
  | _ => cases hidle

end Operation

namespace World

variable {w : World} {i : Nat} {manager : Manager} {me : Attachment} {segment : Segment}
  {operation : Operation}

theorem manager?_eq_some_iff :
    w.manager? i = some manager ↔ w.managers[i]? = some (some manager) := by
  unfold manager?
  rw [Option.join_eq_some_iff]

theorem seat_self (h : w.manager? i = some manager) : w.seat w.host i (some manager) = w := by
  obtain ⟨hlt, hget⟩ := List.getElem?_eq_some_iff.mp (manager?_eq_some_iff.mp h)
  rw [seat, ← hget, List.set_getElem_self]

/-- An operation of a manager that is not attached changes nothing. -/
theorem perform_of_detached (hmanager : w.manager? i = some manager)
    (hnone : manager.attachment = none) : w.step (.perform i operation) = w := by
  show w.act i operation.perform = w
  rw [act_eq_seat _ hmanager, Operation.on_perform]
  simp only [Manager.step, Action.on_of, mapping?_of_detached hnone]
  exact seat_self hmanager

/-- After a breach the manager has left its object, and all else is as it
was. -/
theorem Coherent.perform_of_breach (hw : w.Coherent) (hmanager : w.manager? i = some manager)
    (hme : manager.attachment = some me) (hsegment : w.segment? me.object = some segment)
    {breach : Violation} (hbreach : operation.apply ⟨me, w.now i, segment⟩ = .error breach) :
    w.step (.perform i operation) =
      w.seat (w.host.store me.object (Mapping.left ⟨me, w.now i, segment⟩)) i
        (some { manager with attachment := none }) := by
  obtain ⟨segment', hsegment', hmapping⟩ := hw.mapping? hmanager hme
  rw [hsegment] at hsegment'
  cases hsegment'
  show w.act i operation.perform = _
  rw [act_eq_seat _ hmanager, Operation.on_perform]
  simp only [Manager.step, Action.on_of, hmapping, hbreach,
    Manager.shutdown_eq false hmapping rfl]

/-- An operation that leaves the mapping as it is changes nothing. -/
theorem Coherent.perform_of_same (hw : w.Coherent) (hmanager : w.manager? i = some manager)
    (hme : manager.attachment = some me) (hsegment : w.segment? me.object = some segment)
    {answer : Answer}
    (hsame : operation.apply ⟨me, w.now i, segment⟩ = .ok (answer, ⟨me, w.now i, segment⟩)) :
    w.step (.perform i operation) = w := by
  obtain ⟨segment', hsegment', hmapping⟩ := hw.mapping? hmanager hme
  rw [hsegment] at hsegment'
  cases hsegment'
  have hmanager' : { manager with attachment := some me } = manager := by rw [← hme]
  have hstore : w.host.store me.object segment = w.host := by
    obtain ⟨hlt, hget⟩ := List.getElem?_eq_some_iff.mp hsegment
    rw [Host.store, ← hget, List.set_getElem_self]
  show w.act i operation.perform = _
  rw [act_eq_seat _ hmanager, Operation.on_perform]
  simp only [Manager.step, Action.on_of, hmapping, hsame, hmanager', hstore]
  exact seat_self hmanager

/-- **A failed operation changes nothing but that its manager is gone.** In
every run, an operation fails because the manager is not attached, and then
nothing in the world changes; or it breaches the slot protocol, and then it has
stored nothing before, the manager is detached and the world is otherwise as it
was, apart from what the manager leaves of its object. An operation that tells
of no change (a publication, a reset or a check that comes to nothing, or a
question) makes none. -/
theorem failure_atomic {past : List Moment} (hrun : Run past w) (i : Nat)
    (operation : Operation) :
    (∀ cause, w.answer? i operation = some (.error cause) →
      cause = .notAttached ∧ w.attachment? i = none ∧ w.step (.perform i operation) = w ∨
      ∃ breach manager me segment segment', cause = .violation breach ∧
        w.manager? i = some manager ∧ manager.attachment = some me ∧
        w.segment? me.object = some segment ∧
        operation.program.on ⟨me, w.now i, segment⟩ =
          (.error breach, ⟨me, w.now i, segment⟩) ∧
        Vacated me segment segment' ∧
        w.step (.perform i operation) =
          w.seat (w.host.store me.object segment') i (some { manager with attachment := none })) ∧
    ∀ answer, w.answer? i operation = some (.ok answer) → operation.isIdle answer = true →
      w.step (.perform i operation) = w := by
  have hcoherent := hrun.coherent
  cases hmanager : w.manager? i with
  | none => simp [answer?, hmanager]
  | some manager =>
    have hanswer : w.answer? i operation = some (operation.perform.on manager w.host).1 := by
      rw [answer?, hmanager, Option.map_some]
    rw [hanswer, Operation.on_perform]
    cases hme : manager.attachment with
    | none =>
      have hstill : w.step (.perform i operation) = w := perform_of_detached hmanager hme
      simp only [Manager.step, Action.on_of, mapping?_of_detached hme]
      refine ⟨fun cause hcause => .inl ⟨?_, ?_, hstill⟩, fun answer hok => (by cases hok)⟩
      · cases hcause
        rfl
      · rw [attachment?_eq hmanager, hme]
    | some me =>
      obtain ⟨segment, hsegment, hmapping⟩ := hcoherent.mapping? hmanager hme
      simp only [Manager.step, Action.on_of, hmapping]
      cases happly : operation.apply ⟨me, w.now i, segment⟩ with
      | error breach =>
        have hprogram : operation.program.on ⟨me, w.now i, segment⟩ =
            (.error breach, ⟨me, w.now i, segment⟩) := by
          rw [operation.on_program, happly, Program.settled_error]
        refine ⟨fun cause hcause => .inr ⟨breach, manager, me, segment, _, ?_, rfl, hme, hsegment,
          hprogram, vacated_left ⟨me, w.now i, segment⟩,
          hcoherent.perform_of_breach hmanager hme hsegment happly⟩,
          fun answer hok => (by cases hok)⟩
        cases hcause
        rfl
      | ok told =>
        obtain ⟨answer, after⟩ := told
        refine ⟨fun cause hcause => (by cases hcause), fun answer' hok hidle => ?_⟩
        cases hok
        have hsame := Operation.eq_of_isIdle happly hidle
        subst hsame
        exact hcoherent.perform_of_same hmanager hme hsegment happly

/-- A manager that holds a slot for writing and one for reading names a slot that
there is not. -/
theorem failure_atomic_holder :
    let calls : List Call := [.attach (.new 7 3 8) .manual, .attach (.new 7 3 8) .manual,
      .perform 1 (.claimForWriting false), .perform 1 (.write 0 [5]), .perform 1 (.publish 0 .any),
      .perform 1 .claimForReading, .perform 1 (.claimForWriting false),
      .perform 1 (.write 1 [6, 7])]
    let w := (run calls).2
    let breach : Violation := .noSuchSlot 3 3
    w.answer? 1 (.read 3 1) = some (.error (.violation breach)) ∧
      ∃ manager me segment segment', w.manager? 1 = some manager ∧
        manager.attachment = some me ∧ w.segment? me.object = some segment ∧
        (Operation.read 3 1).program.on ⟨me, w.now 1, segment⟩ =
          (.error breach, ⟨me, w.now 1, segment⟩) ∧
        Vacated me segment segment' ∧
        w.step (.perform 1 (.read 3 1)) =
          w.seat (w.host.store me.object segment') 1
            (some { manager with attachment := none }) := by
  intro calls w breach
  have hanswer : w.answer? 1 (.read 3 1) = some (.error (.violation breach)) := by decide +kernel
  refine ⟨hanswer, ?_⟩
  rcases (failure_atomic (run_run calls) 1 (.read 3 1)).1 _ hanswer with
    ⟨hcause, -⟩ | ⟨breach', manager, me, segment, segment', hcause, h⟩
  · cases hcause
  · cases hcause
    exact ⟨manager, me, segment, segment', h⟩

end World

end SlotTransport
