/-
One object of a world and the managers attached to it. What a call does to an
object depends on nothing else, and `Party.Turn` lists what it may do;
`World.Run.party` says that there is no more to it, from the creation of the
object on. It rests on `World.Coherent`: a manager knows the object as it is.
-/
import Mathlib.Logic.Function.Basic
import SlotTransport.Proofs.Manager.Connection
import SlotTransport.Proofs.Operation.Move
import SlotTransport.Proofs.World.Basic

namespace SlotTransport

open Segment

/-- An object, and how each manager is attached to it, if it is. -/
structure Party where
  segment : Segment
  member : Nat → Option Attachment

/-! ## Parties of a world -/

namespace World

/-- How the manager of a number is attached to an object, if it is. -/
def member (w : World) (number i : Nat) : Option Attachment :=
  (w.attachment? i).filter (·.object == number)

/-- The object of a number and those attached to it. -/
def party? (w : World) (number : Nat) : Option Party :=
  (w.segment? number).map fun segment => ⟨segment, w.member number⟩

/-- The time by the clock of a manager. -/
def now (w : World) (i : Nat) : Nat :=
  ((w.manager? i).map (·.now w.host)).getD 0

/-- The world with another host and another manager in a place. -/
def seat (w : World) (host : Host) (i : Nat) (manager : Option Manager) : World :=
  ⟨host, w.managers.set i manager⟩

/-- The world with a place for one more manager. -/
def grown (w : World) : World :=
  { w with managers := w.managers ++ [none] }

theorem member_eq_some_iff {w : World} {number i : Nat} {me : Attachment} :
    w.member number i = some me ↔ w.attachment? i = some me ∧ me.object = number := by
  simp [member, Option.filter_eq_some_iff]

theorem member_eq_none_of_object_ne {w : World} {number i : Nat} {me : Attachment}
    (h : w.attachment? i = some me) (hne : me.object ≠ number) : w.member number i = none := by
  simp [member, h, Option.filter, hne]

theorem member_eq_none_of_detached {w : World} {i : Nat} (number : Nat)
    (h : w.attachment? i = none) : w.member number i = none := by
  simp [member, h]

theorem lt_of_manager? {w : World} {i : Nat} {manager : Manager}
    (h : w.manager? i = some manager) : i < w.managers.length := by
  unfold manager? at h
  cases hi : w.managers[i]? with
  | none => simp [hi] at h
  | some found => exact (List.getElem?_eq_some_iff.mp hi).1

theorem lt_of_member {w : World} {number i : Nat} {me : Attachment}
    (h : w.member number i = some me) : i < w.managers.length := by
  have hattached := (member_eq_some_iff.mp h).1
  unfold attachment? at hattached
  obtain ⟨manager, hmanager, -⟩ := Option.bind_eq_some_iff.mp hattached
  exact lt_of_manager? hmanager

theorem manager?_seat_of_ne {w : World} {host : Host} {i j : Nat} {manager : Option Manager}
    (hne : j ≠ i) : (w.seat host i manager).manager? j = w.manager? j := by
  simp [manager?, seat, List.getElem?_set_ne (Ne.symm hne)]

theorem attachment?_seat {w : World} {host : Host} {i : Nat} {manager : Option Manager}
    (hi : i < w.managers.length) :
    (w.seat host i manager).attachment? =
      Function.update w.attachment? i (manager.bind (·.attachment)) := by
  funext j
  by_cases hj : j = i
  · subst hj
    simp [attachment?, manager?, seat, hi]
  · rw [Function.update_of_ne hj]
    simp [attachment?, manager?, seat, List.getElem?_set_ne (Ne.symm hj)]

theorem manager?_grown (w : World) : w.grown.manager? = w.manager? := by
  funext j
  simp only [manager?, grown, List.getElem?_append]
  split
  · rfl
  · rename_i hj
    rw [List.getElem?_eq_none (not_lt.mp hj)]
    cases h : ([none] : List (Option Manager))[j - w.managers.length]? with
    | none => rfl
    | some found =>
      have hfound : found ∈ [none] := List.mem_of_getElem? h
      rw [List.mem_singleton.mp hfound]
      rfl

theorem attachment?_grown (w : World) : w.grown.attachment? = w.attachment? := by
  funext j
  rw [attachment?, attachment?, manager?_grown]

theorem member_seat {w : World} {host : Host} {i : Nat} {manager : Option Manager}
    (hi : i < w.managers.length) (number : Nat) :
    (w.seat host i manager).member number = Function.update (w.member number) i
      ((manager.bind (·.attachment)).filter (·.object == number)) := by
  funext j
  unfold member
  rw [attachment?_seat hi]
  by_cases hj : j = i
  · subst hj
    simp
  · simp [Function.update_of_ne hj]

theorem party?_grown (w : World) (number : Nat) : w.grown.party? number = w.party? number := by
  have hmember : w.grown.member number = w.member number := by
    funext j
    simp [member, attachment?_grown]
  simp only [party?, hmember]
  rfl

theorem party?_eq_some_iff {w : World} {number : Nat} {p : Party} :
    w.party? number = some p ↔ w.segment? number = some p.segment ∧ p.member = w.member number := by
  unfold party?
  rw [Option.map_eq_some_iff]
  constructor
  · rintro ⟨segment, hsegment, rfl⟩
    exact ⟨hsegment, rfl⟩
  · rintro ⟨hsegment, hmember⟩
    exact ⟨p.segment, hsegment, by rw [← hmember]⟩

theorem party?_of_segment? {w : World} {number : Nat} {segment : Segment}
    (h : w.segment? number = some segment) :
    w.party? number = some ⟨segment, w.member number⟩ :=
  party?_eq_some_iff.mpr ⟨h, rfl⟩

theorem slot?_of_party? {w : World} {number : Nat} {p : Party} (h : w.party? number = some p)
    (k : Nat) : w.slot? number k = p.segment.slots[k]? := by
  simp [slot?, (party?_eq_some_iff.mp h).1]

end World

/-! ## What a call does to a party -/

namespace Party

/-- One more manager joins. -/
def enrol (p : Party) (number i : Nat) : Party where
  segment := p.segment.joined
  member := Function.update p.member i
    (some (.new number p.segment.control.nextId p.segment.control))

/-- A manager has done something. -/
def follow (p : Party) (i : Nat) (after : Mapping) : Party where
  segment := after.segment
  member := Function.update p.member i (some after.me)

theorem member_enrol (p : Party) (number i : Nat) :
    (p.enrol number i).member = Function.update p.member i
      (some (.new number p.segment.control.nextId p.segment.control)) :=
  rfl

theorem member_follow (p : Party) (i : Nat) (after : Mapping) :
    (p.follow i after).member = Function.update p.member i (some after.me) :=
  rfl

/-- A manager leaves. -/
def dismiss (p : Party) (i : Nat) (me : Attachment) : Party where
  segment := (Mapping.mk me 0 p.segment).left
  member := Function.update p.member i none

theorem member_dismiss (p : Party) (i : Nat) (me : Attachment) :
    (p.dismiss i me).member = Function.update p.member i none :=
  rfl

theorem slots_dismiss (p : Party) (i : Nat) (me : Attachment) (k : Nat) :
    (p.dismiss i me).segment.slots[k]? = p.segment.slots[k]?.map (·.leftBy me.id) :=
  List.getElem?_map ..

/-- The end of data is declared. -/
def closed (p : Party) : Party :=
  { p with segment := { p.segment with control := { p.segment.control with endOfData := 1 } } }

theorem member_closed (p : Party) : p.closed.member = p.member :=
  rfl

/-- What a call may do to an object and those attached to it. -/
inductive Turn (number : Nat) (now : Nat → Nat) (p : Party) : World.Call → Party → Prop where
  /-- It is somebody else's business. -/
  | others {call : World.Call} (h : ∀ i, call.manager? = some i → p.member i = none) :
    Turn number now p call p
  | entered {call : World.Call} {i : Nat} (hcall : call.operation? = none)
    (hnew : call.manager? = none ∨ call.manager? = some i) (hnone : p.member i = none)
    (hready : p.segment.control.magic = readyMagic) : Turn number now p call (p.enrol number i)
  | moved {call : World.Call} {i : Nat} {operation : Operation} {me : Attachment}
    {answer : Answer} {after : Mapping} (hcall : call.operation? = some (i, operation))
    (hme : p.member i = some me)
    (hmove : operation.apply ⟨me, now i, p.segment⟩ = .ok (answer, after)) :
    Turn number now p call (p.follow i after)
  /-- A manager leaves of its own will, or has breached the slot protocol. -/
  | left {call : World.Call} {i : Nat} {me : Attachment} (hcall : call.manager? = some i)
    (hbreach : ∀ operation, call.operation? = some (i, operation) →
      ∃ breach, operation.apply ⟨me, now i, p.segment⟩ = .error breach)
    (hme : p.member i = some me) : Turn number now p call (p.dismiss i me)
  | ended {i : Nat} {me : Attachment} (hme : p.member i = some me) :
    Turn number now p (.drop i) (p.dismiss i me).closed
  | returned {i : Nat} {me : Attachment} (hme : p.member i = some me)
    (hready : p.segment.control.magic = readyMagic) :
    Turn number now p (.reattach i) ((p.dismiss i me).enrol number i)

/-- What a turn makes of a slot: nothing, or what an operation of a member makes of
it, or what a member leaves that goes away. -/
theorem Turn.slot_cases {number k : Nat} {now : Nat → Nat} {p p' : Party} {call : World.Call}
    {s : Slot} (h : p.Turn number now call p') (hs : p.segment.slots[k]? = some s) :
    p'.segment.slots[k]? = some s ∨
    (∃ i operation me answer after, call.operation? = some (i, operation) ∧
      p.member i = some me ∧ operation.apply ⟨me, now i, p.segment⟩ = .ok (answer, after) ∧
      p' = p.follow i after) ∨
    ∃ i me, call.manager? = some i ∧ p.member i = some me ∧
      (∀ operation, call.operation? = some (i, operation) →
        ∃ breach, operation.apply ⟨me, now i, p.segment⟩ = .error breach) ∧
      p'.segment.slots[k]? = some (s.leftBy me.id) := by
  have hdismissed : ∀ (i : Nat) (me : Attachment),
      (p.dismiss i me).segment.slots[k]? = some (s.leftBy me.id) := by
    intro i me
    rw [slots_dismiss, hs, Option.map_some]
  cases h with
  | others => exact .inl hs
  | entered => exact .inl hs
  | moved hcall hme hmove => exact .inr (.inl ⟨_, _, _, _, _, hcall, hme, hmove, rfl⟩)
  | @left _ i me hcall hbreach hme =>
    exact .inr (.inr ⟨i, me, hcall, hme, hbreach, hdismissed i me⟩)
  | @ended i me hme =>
    exact .inr (.inr ⟨i, me, rfl, hme, fun _ h => (by cases h), hdismissed i me⟩)
  | @returned i me hme =>
    exact .inr (.inr ⟨i, me, rfl, hme, fun _ h => (by cases h), hdismissed i me⟩)

theorem Turn.member_cases {number i : Nat} {now : Nat → Nat} {p p' : Party} {call : World.Call}
    {me' : Attachment} (h : p.Turn number now call p') (hme' : p'.member i = some me') :
    (call.manager? ≠ some i ∧ p.member i = some me') ∨
    ((p.member i = none ∨ call = .reattach i) ∧
      me' = .new number p.segment.control.nextId p.segment.control) ∨
    ∃ operation me answer after, call.operation? = some (i, operation) ∧ p.member i = some me ∧
      operation.apply ⟨me, now i, p.segment⟩ = .ok (answer, after) ∧ me' = after.me := by
  cases h with
  | others hother =>
    refine .inl ⟨fun hcall => ?_, hme'⟩
    rw [hother i hcall] at hme'
    cases hme'
  | @entered _ j _ hnew hnone =>
    by_cases hi : i = j
    · subst hi
      rw [member_enrol, Function.update_self] at hme'
      exact .inr (.inl ⟨.inl hnone, (Option.some.inj hme').symm⟩)
    · rw [member_enrol, Function.update_of_ne hi] at hme'
      exact .inl ⟨by rcases hnew with h | h <;> simp [h, Ne.symm hi], hme'⟩
  | @moved _ j operation me answer after hcall hme hmove =>
    by_cases hi : i = j
    · subst hi
      rw [member_follow, Function.update_self] at hme'
      exact .inr (.inr ⟨_, _, _, _, hcall, hme, hmove, (Option.some.inj hme').symm⟩)
    · rw [member_follow, Function.update_of_ne hi] at hme'
      exact .inl ⟨by simp [World.Call.manager?_of_operation? hcall, Ne.symm hi], hme'⟩
  | @left _ j me hcall =>
    by_cases hi : i = j
    · subst hi
      simp [member_dismiss] at hme'
    · rw [member_dismiss, Function.update_of_ne hi] at hme'
      exact .inl ⟨by simp [hcall, Ne.symm hi], hme'⟩
  | @ended j me =>
    by_cases hi : i = j
    · subst hi
      simp [member_closed, member_dismiss] at hme'
    · rw [member_closed, member_dismiss, Function.update_of_ne hi] at hme'
      exact .inl ⟨by simp [World.Call.manager?, Ne.symm hi], hme'⟩
  | @returned j me =>
    by_cases hi : i = j
    · subst hi
      rw [member_enrol, Function.update_self] at hme'
      exact .inr (.inl ⟨.inr rfl, (Option.some.inj hme').symm⟩)
    · rw [member_enrol, Function.update_of_ne hi, member_dismiss, Function.update_of_ne hi] at hme'
      exact .inl ⟨by simp [World.Call.manager?, Ne.symm hi], hme'⟩

/-- An object that has just come about. -/
inductive Fresh (number : Nat) : Party → Prop where
  | blank (size : Nat) : Fresh number ⟨.blank size, fun _ => none⟩
  | formatted {config : Segment.Config} {size : UInt64} (now i : Nat)
    (hmay : config.mayCreate = true) (hsize : config.geometry.size? = some size) :
    Fresh number ⟨.formatted config size.toNat now,
      Function.update (fun _ => none) i (some (.new number creatorId (.created config)))⟩

end Party

/-! ## Managers that know their object as it is -/

/-- What a manager found on joining an object is still so. -/
structure Segment.Attachment.Fits (me : Attachment) (segment : Segment) : Prop where
  ready : segment.control.magic = readyMagic
  geometry : me.geometry = segment.control.geometry
  staleTimeout : me.staleTimeout = segment.control.staleTimeout.toNat
  destructive : me.destructive = segment.control.isDestructive

theorem Segment.Attachment.Fits.of_alike {me me' : Attachment} {segment segment' : Segment}
    (h : me.Fits segment) (hme : me'.Alike me) (hsegment : segment'.Alike segment) :
    me'.Fits segment' where
  ready := hsegment.magic.trans h.ready
  geometry := by rw [hme.geometry, h.geometry, hsegment.geometry]
  staleTimeout := by rw [hme.staleTimeout, h.staleTimeout, hsegment.staleTimeout]
  destructive := by
    rw [hme.destructive, h.destructive, Control.isDestructive, Control.isDestructive,
      hsegment.destructive]

namespace Party

/-- An object that is ready is laid out as it says, and those attached to it
know it as it is. -/
structure Coherent (number : Nat) (p : Party) : Prop where
  cut : p.segment.control.magic = readyMagic → p.segment.isCut p.segment.control.geometry = true
  object : ∀ {i : Nat} {me : Attachment}, p.member i = some me → me.object = number
  fits : ∀ {i : Nat} {me : Attachment}, p.member i = some me → me.Fits p.segment

variable {number : Nat} {now : Nat → Nat} {p p' : Party} {call : World.Call}

theorem Coherent.cut_eq (h : p.Coherent number) {i : Nat} {me : Attachment}
    (hme : p.member i = some me) : p.segment.cut me.geometry = p.segment := by
  have hfits := h.fits hme
  rw [hfits.geometry]
  exact cut_of_isCut (h.cut hfits.ready)

theorem Coherent.update (h : p.Coherent number) {segment : Segment}
    (hsegment : segment.Alike p.segment) (i : Nat) (manager : Option Attachment)
    (hmanager : ∀ me, manager = some me → me.object = number ∧ me.Fits segment) :
    Coherent number ⟨segment, Function.update p.member i manager⟩ where
  cut hready := by
    have hcut := h.cut (hsegment.magic.symm.trans hready)
    simpa only [isCut, hsegment.geometry, hsegment.length, hsegment.slotSize] using hcut
  object {j me} hme := by
    by_cases hj : j = i
    · subst hj
      simp only [Function.update_self] at hme
      exact (hmanager me hme).1
    · simp only [Function.update_of_ne hj] at hme
      exact h.object hme
  fits {j me} hme := by
    by_cases hj : j = i
    · subst hj
      simp only [Function.update_self] at hme
      exact (hmanager me hme).2
    · simp only [Function.update_of_ne hj] at hme
      exact (h.fits hme).of_alike ⟨rfl, rfl, rfl, rfl, rfl⟩ hsegment

theorem alike_joined (segment : Segment) : segment.joined.Alike segment :=
  ⟨rfl, rfl, rfl, rfl, rfl, rfl, rfl, rfl⟩

theorem alike_left (m : Mapping) : m.left.Alike m.segment :=
  ⟨rfl, rfl, rfl, rfl, rfl, rfl, rfl, List.length_map ..⟩

theorem Coherent.enrol (h : p.Coherent number) (i : Nat)
    (hready : p.segment.control.magic = readyMagic) : (p.enrol number i).Coherent number := by
  refine h.update (alike_joined p.segment) i _ fun me hme => ?_
  cases hme
  exact ⟨rfl, hready, rfl, rfl, rfl⟩

theorem Coherent.dismiss (h : p.Coherent number) (i : Nat) (me : Attachment) :
    (p.dismiss i me).Coherent number :=
  h.update (alike_left ⟨me, 0, p.segment⟩) i none fun _ hme => nomatch hme

theorem Coherent.closed (h : p.Coherent number) : p.closed.Coherent number :=
  ⟨h.cut, h.object, fun hme => (h.fits hme).of_alike ⟨rfl, rfl, rfl, rfl, rfl⟩
    ⟨rfl, rfl, rfl, rfl, rfl, rfl, rfl, rfl⟩⟩

theorem Coherent.follow (h : p.Coherent number) {i time : Nat} {me : Attachment}
    {operation : Operation} {answer : Answer} {after : Mapping} (hme : p.member i = some me)
    (hmove : operation.apply ⟨me, time, p.segment⟩ = .ok (answer, after)) :
    (p.follow i after).Coherent number := by
  have hkept := (Operation.apply_move hmove).kept
  refine h.update hkept.segment i _ fun me' hme' => ?_
  cases hme'
  exact ⟨hkept.me.object.trans (h.object hme), (h.fits hme).of_alike hkept.me hkept.segment⟩

/-- Whatever happens, a manager knows its object as it is. -/
theorem Turn.coherent (hturn : p.Turn number now call p') (h : p.Coherent number) :
    p'.Coherent number := by
  cases hturn with
  | others => exact h
  | entered _ _ _ hready => exact h.enrol _ hready
  | moved _ hme hmove => exact h.follow hme hmove
  | left => exact h.dismiss _ _
  | ended => exact (h.dismiss _ _).closed
  | returned _ hready => exact (h.dismiss _ _).enrol _ hready

/-- Whatever happens, the layout and the settings of the object stay. -/
theorem Turn.alike (hturn : p.Turn number now call p') : p'.segment.Alike p.segment := by
  cases hturn with
  | moved _ _ hmove => exact (Operation.apply_move hmove).kept.segment
  | left | ended | returned => exact ⟨rfl, rfl, rfl, rfl, rfl, rfl, rfl, List.length_map ..⟩
  | _ => exact ⟨rfl, rfl, rfl, rfl, rfl, rfl, rfl, rfl⟩

theorem Turn.moved_of_apply (hturn : p.Turn number now call p') {i : Nat} {me : Attachment}
    {operation : Operation} {answer : Answer} {after : Mapping}
    (hcall : call.operation? = some (i, operation)) (hme : p.member i = some me)
    (happly : operation.apply ⟨me, now i, p.segment⟩ = .ok (answer, after)) :
    p' = p.follow i after := by
  have hmanager := World.Call.manager?_of_operation? hcall
  cases hturn with
  | others h => rw [h i hmanager] at hme; cases hme
  | entered hnone => rw [hcall] at hnone; cases hnone
  | moved hcall' hme' hmove =>
    rw [hcall] at hcall'
    cases hcall'
    rw [hme] at hme'
    cases hme'
    rw [happly] at hmove
    cases hmove
    rfl
  | left hmanager' hbreach hme' =>
    rw [hmanager] at hmanager'
    cases hmanager'
    rw [hme] at hme'
    cases hme'
    obtain ⟨breach, hbreach⟩ := hbreach operation hcall
    rw [happly] at hbreach
    cases hbreach
  | ended => cases hcall
  | returned => cases hcall

theorem Fresh.coherent (h : p.Fresh number) : p.Coherent number := by
  cases h with
  | blank size =>
    have hready : (0 : UInt32) ≠ readyMagic := by decide
    exact ⟨fun h => absurd h hready, fun h => (by cases h), fun h => (by cases h)⟩
  | @formatted config size now i hmay hsize =>
    have hcut : (Segment.formatted config size.toNat now).isCut config.geometry = true := by
      simp [isCut, Segment.formatted, Segment.Config.geometry]
    have hblank : Coherent number ⟨.formatted config size.toNat now, fun _ => none⟩ :=
      ⟨fun _ => hcut, fun h => (by cases h), fun h => (by cases h)⟩
    refine hblank.update ⟨rfl, rfl, rfl, rfl, rfl, rfl, rfl, rfl⟩ i _ fun me hme => ?_
    cases hme
    exact ⟨rfl, rfl, rfl, rfl, rfl⟩

end Party

end SlotTransport
