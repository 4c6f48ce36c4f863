/-
What a call does to a world, object by object. `step_turned` says that every
object there is takes a turn and that a new one is fresh; so in every run every
manager knows its object as it is (`Run.coherent`).
-/
import SlotTransport.Proofs.World.Party

namespace SlotTransport.World

open Segment

/-- Every manager is attached to an object that there is, and knows it as it
is. -/
structure Coherent (w : World) : Prop where
  object : ∀ {i : Nat} {me : Attachment}, w.attachment? i = some me →
    me.object < w.host.objects.length
  party : ∀ {number : Nat} {p : Party}, w.party? number = some p → p.Coherent number

/-- One world follows another by a call: each object takes a turn, and a new one
is fresh. -/
structure Turned (w : World) (call : Call) (w' : World) : Prop where
  object : ∀ {i : Nat} {me : Attachment}, w'.attachment? i = some me →
    me.object < w'.host.objects.length
  turn : ∀ {number : Nat} {p : Party}, w.party? number = some p →
    ∃ p', w'.party? number = some p' ∧ p.Turn number w.now call p'
  fresh : ∀ {number : Nat} {p : Party}, w.party? number = none → w'.party? number = some p →
    p.Fresh number

variable {w w' : World} {call : Call} {i : Nat} {me : Attachment} {manager : Manager}

theorem Turned.coherent (h : w.Turned call w') (hw : w.Coherent) : w'.Coherent where
  object := h.object
  party {number p'} hp' := by
    cases hp : w.party? number with
    | none => exact (h.fresh hp hp').coherent
    | some p =>
      obtain ⟨p₁, hp₁, hturn⟩ := h.turn hp
      rw [hp'] at hp₁
      cases hp₁
      exact hturn.coherent (hw.party hp)

theorem Turned.absent (h : w.Turned call w') {number : Nat} (hnone : w'.party? number = none) :
    w.party? number = none := by
  cases hp : w.party? number with
  | none => rfl
  | some p =>
    obtain ⟨p', hp', -⟩ := h.turn hp
    rw [hnone] at hp'
    cases hp'

/-! ## Calls that change one object -/

theorem party?_congr {number : Nat} (hsegment : w'.segment? number = w.segment? number)
    (hmember : w'.member number = w.member number) : w'.party? number = w.party? number := by
  rw [party?, party?, hsegment, hmember]

theorem turned_of_same (hw : w.Coherent) (hobjects : w'.host.objects = w.host.objects)
    (hattachment : w'.attachment? = w.attachment?)
    (hcall : ∀ i, call.manager? = some i → w.attachment? i = none) : w.Turned call w' := by
  have hparty : ∀ number, w'.party? number = w.party? number := fun number =>
    party?_congr (by rw [segment?, segment?, hobjects])
      (by funext j; rw [member, member, hattachment])
  refine ⟨fun hme => ?_, fun {number p} hp => ⟨p, by rw [hparty, hp], ?_⟩, fun hnone hp => ?_⟩
  · rw [hobjects]
    exact hw.object (hattachment ▸ hme)
  · refine .others fun j hj => ?_
    rw [(party?_eq_some_iff.mp hp).2]
    exact member_eq_none_of_detached number (hcall j hj)
  · rw [hparty, hnone] at hp
    cases hp

theorem turned_of_store (hw : w.Coherent) (hi : i < w.managers.length)
    (hme : w.attachment? i = some me)
    (hcall : call.manager? = some i) {host : Host} {segment' : Segment} {after : Option Manager}
    (hobjects : host.objects = w.host.objects.set me.object segment')
    (hafter : ∀ me', after.bind (·.attachment) = some me' → me'.object = me.object)
    (hturn : ∀ {p : Party}, w.party? me.object = some p → p.member i = some me →
      p.Turn me.object w.now call
        ⟨segment', Function.update p.member i (after.bind (·.attachment))⟩) :
    w.Turned call (w.seat host i after) := by
  have hlength : host.objects.length = w.host.objects.length := by rw [hobjects, List.length_set]
  refine ⟨fun {j me'} hme' => ?_, fun {number p} hp => ?_, fun {number p} hnone hp => ?_⟩
  · rw [attachment?_seat hi] at hme'
    show me'.object < host.objects.length
    rw [hlength]
    by_cases hj : j = i
    · subst hj
      rw [Function.update_self] at hme'
      rw [hafter me' hme']
      exact hw.object hme
    · rw [Function.update_of_ne hj] at hme'
      exact hw.object hme'
  · obtain ⟨hsegment, hmember⟩ := party?_eq_some_iff.mp hp
    by_cases hnumber : number = me.object
    · subst hnumber
      have hpi : p.member i = some me := by
        rw [hmember]
        exact member_eq_some_iff.mpr ⟨hme, rfl⟩
      refine ⟨_, party?_eq_some_iff.mpr ⟨?_, ?_⟩, hturn hp hpi⟩
      · simp [segment?, seat, hobjects, hw.object hme]
      · rw [member_seat hi, hmember]
        cases h : after.bind (·.attachment) with
        | none => rfl
        | some me' => simp [Option.filter, hafter me' h]
    · have hpi : p.member i = none := by
        rw [hmember]
        exact member_eq_none_of_object_ne hme (Ne.symm hnumber)
      refine ⟨p, party?_eq_some_iff.mpr ⟨?_, ?_⟩, .others fun j hj => ?_⟩
      · rw [← hsegment]
        simp [segment?, seat, hobjects, List.getElem?_set_ne (Ne.symm hnumber)]
      · have hnone : (after.bind (·.attachment)).filter (·.object == number) = none := by
          cases h : after.bind (·.attachment) with
          | none => rfl
          | some me' => simp [Option.filter, hafter me' h, Ne.symm hnumber]
        rw [member_seat hi, hnone, hmember, ← hpi, hmember, Function.update_eq_self]
      · rw [hcall] at hj
        cases hj
        exact hpi
  · obtain ⟨hsegment, -⟩ := party?_eq_some_iff.mp hp
    have hlt : number < w.host.objects.length := by
      rw [← hlength]
      exact (List.getElem?_eq_some_iff.mp hsegment).1
    have hsome : w.segment? number = some w.host.objects[number] := List.getElem?_eq_getElem hlt
    simp [party?, hsome] at hnone

/-! ## Managers at work -/

theorem act_of_none {α : Type} (action : Action Manager Segment.Error α)
    (h : w.manager? i = none) : w.act i action = w := by
  simp [act, h]

theorem act_eq_seat {α : Type} (action : Action Manager Segment.Error α)
    (h : w.manager? i = some manager) :
    w.act i action =
      w.seat (action.on manager w.host).2.2 i (some (action.on manager w.host).2.1) := by
  simp only [act, h]
  rfl

theorem attachment?_eq (h : w.manager? i = some manager) :
    w.attachment? i = manager.attachment := by
  simp [attachment?, h]

theorem Coherent.mapping? (hw : w.Coherent) (hmanager : w.manager? i = some manager)
    (hme : manager.attachment = some me) :
    ∃ segment, w.segment? me.object = some segment ∧
      manager.mapping? w.host = some ⟨me, w.now i, segment⟩ := by
  have hattached : w.attachment? i = some me := by rw [attachment?_eq hmanager, hme]
  obtain ⟨segment, hobject⟩ : ∃ segment, w.host.objects[me.object]? = some segment :=
    ⟨_, List.getElem?_eq_getElem (hw.object hattached)⟩
  have hp : w.party? me.object = some ⟨segment, w.member me.object⟩ :=
    party?_eq_some_iff.mpr ⟨hobject, rfl⟩
  have hcut : segment.cut me.geometry = segment :=
    (hw.party hp).cut_eq (member_eq_some_iff.mpr ⟨hattached, rfl⟩)
  exact ⟨segment, hobject, by simp [Manager.mapping?, hme, hobject, hcut, now, hmanager]⟩

theorem Coherent.mapping?_of_party (hw : w.Coherent) (hmanager : w.manager? i = some manager)
    (hme : manager.attachment = some me) {p : Party} (hp : w.party? me.object = some p) :
    manager.mapping? w.host = some ⟨me, w.now i, p.segment⟩ := by
  obtain ⟨segment, hsegment, hmapping⟩ := hw.mapping? hmanager hme
  rw [(party?_eq_some_iff.mp hp).1] at hsegment
  cases hsegment
  exact hmapping

theorem Coherent.answer?_eq (hw : w.Coherent) {number : Nat} {p : Party}
    (hp : w.party? number = some p) (hme : p.member i = some me) (operation : Operation) :
    w.answer? i operation =
      some (match operation.apply ⟨me, w.now i, p.segment⟩ with
        | .ok (answer, _) => .ok answer
        | .error breach => .error (.violation breach)) := by
  rw [(party?_eq_some_iff.mp hp).2] at hme
  obtain ⟨hattached, rfl⟩ := member_eq_some_iff.mp hme
  unfold attachment? at hattached
  obtain ⟨manager, hmanager, hmanagerMe⟩ := Option.bind_eq_some_iff.mp hattached
  rw [answer?, hmanager, Option.map_some, Operation.on_perform]
  simp only [Manager.step, Action.on_of, hw.mapping?_of_party hmanager hmanagerMe hp]
  cases operation.apply ⟨me, w.now i, p.segment⟩ <;> rfl

theorem Coherent.apply_of_answer? (hw : w.Coherent) {number : Nat} {p : Party}
    (hp : w.party? number = some p) (hme : p.member i = some me) {operation : Operation}
    {answer : Answer} (h : w.answer? i operation = some (.ok answer)) :
    ∃ after, operation.apply ⟨me, w.now i, p.segment⟩ = .ok (answer, after) := by
  rw [hw.answer?_eq hp hme, Option.some.injEq] at h
  split at h
  · rename_i told after happly
    cases h
    exact ⟨after, happly⟩
  · cases h

theorem mapping?_of_detached {host : Host} (h : manager.attachment = none) :
    manager.mapping? host = none := by
  simp [Manager.mapping?, h]

theorem turned_of_detached (hw : w.Coherent) (hmanager : w.manager? i = some manager)
    (hnone : manager.attachment = none) {host : Host} {after : Option Manager}
    (hobjects : host.objects = w.host.objects) (hafter : after.bind (·.attachment) = none)
    (hcall : call.manager? = some i) : w.Turned call (w.seat host i after) := by
  have hdetached : w.attachment? i = none := by rw [attachment?_eq hmanager, hnone]
  refine turned_of_same hw hobjects ?_ fun j hj => ?_
  · rw [attachment?_seat (lt_of_manager? hmanager), hafter, ← hdetached, Function.update_eq_self]
  · rw [hcall] at hj
    cases hj
    exact hdetached

theorem turned_perform (hw : w.Coherent) (operation : Operation) (hcall : call.manager? = some i)
    (hoperation : call.operation? = some (i, operation)) :
    w.Turned call (w.act i operation.perform) := by
  cases hmanager : w.manager? i with
  | none =>
    rw [act_of_none _ hmanager]
    refine turned_of_same hw rfl rfl fun j hj => ?_
    rw [hcall] at hj
    cases hj
    simp [attachment?, hmanager]
  | some manager =>
    rw [act_eq_seat _ hmanager, Operation.on_perform]
    simp only [Manager.step, Action.on_of]
    cases hme : manager.attachment with
    | none =>
      rw [mapping?_of_detached hme]
      exact turned_of_detached hw hmanager hme rfl hme hcall
    | some me =>
      obtain ⟨segment, hsegment, hmapping⟩ := hw.mapping? hmanager hme
      have hattached : w.attachment? i = some me := by rw [attachment?_eq hmanager, hme]
      rw [hmapping]
      simp only
      cases happly : operation.apply ⟨me, w.now i, segment⟩ with
      | ok told =>
        obtain ⟨answer, after⟩ := told
        have hkept := (Operation.apply_move happly).kept
        refine turned_of_store hw (lt_of_manager? hmanager) hattached hcall rfl ?_ ?_
        · intro me' hme'
          cases hme'
          exact hkept.me.object
        · intro p hp hpi
          rw [(party?_eq_some_iff.mp hp).1] at hsegment
          cases hsegment
          exact .moved hoperation hpi happly
      | error breach =>
        simp only
        rw [Manager.shutdown_eq false hmapping rfl]
        refine turned_of_store hw (lt_of_manager? hmanager) hattached hcall rfl ?_ ?_
        · intro me' hme'
          cases hme'
        · intro p hp hpi
          rw [(party?_eq_some_iff.mp hp).1] at hsegment
          cases hsegment
          refine .left hcall (fun operation' hoperation' => ?_) hpi
          rw [hoperation] at hoperation'
          cases hoperation'
          exact ⟨breach, happly⟩

theorem act_detach (h : w.manager? i = some manager) :
    w.act i Manager.detach =
      w.seat (manager.shutdown false w.host).2 i (some (manager.shutdown false w.host).1) :=
  act_eq_seat _ h

theorem turned_detach (hw : w.Coherent) (hcall : call.manager? = some i)
    (hoperation : call.operation? = none) : w.Turned call (w.act i Manager.detach) := by
  cases hmanager : w.manager? i with
  | none =>
    rw [act_of_none _ hmanager]
    refine turned_of_same hw rfl rfl fun j hj => ?_
    rw [hcall] at hj
    cases hj
    simp [attachment?, hmanager]
  | some manager =>
    rw [act_detach hmanager]
    cases hme : manager.attachment with
    | none =>
      rw [Manager.shutdown_of_detached false (mapping?_of_detached hme)]
      exact turned_of_detached hw hmanager hme rfl rfl hcall
    | some me =>
      obtain ⟨segment, hsegment, hmapping⟩ := hw.mapping? hmanager hme
      have hattached : w.attachment? i = some me := by rw [attachment?_eq hmanager, hme]
      rw [Manager.shutdown_eq false hmapping rfl]
      refine turned_of_store hw (lt_of_manager? hmanager) hattached hcall rfl ?_ ?_
      · intro me' hme'
        cases hme'
      · intro p hp hpi
        rw [(party?_eq_some_iff.mp hp).1] at hsegment
        cases hsegment
        refine .left hcall (fun operation h => ?_) hpi
        rw [hoperation] at h
        cases h

theorem step_drop_of_none (h : w.manager? i = none) : w.step (.drop i) = w := by
  simp [step, h]

theorem step_drop (h : w.manager? i = some manager) :
    w.step (.drop i) = w.seat (manager.drop w.host) i none := by
  simp [step, h, seat]

theorem turned_drop (hw : w.Coherent) (i : Nat) : w.Turned (.drop i) (w.step (.drop i)) := by
  cases hmanager : w.manager? i with
  | none =>
    rw [step_drop_of_none hmanager]
    refine turned_of_same hw rfl rfl fun j hj => ?_
    cases hj
    simp [attachment?, hmanager]
  | some manager =>
    rw [step_drop hmanager]
    cases hme : manager.attachment with
    | none =>
      have hobjects : (manager.drop w.host).objects = w.host.objects := by
        unfold Manager.drop
        split
        · exact Host.objects_unlink _ _
        · rw [Manager.shutdown_of_detached true (mapping?_of_detached hme)]
      exact turned_of_detached hw hmanager hme hobjects rfl rfl
    | some me =>
      obtain ⟨segment, hsegment, hmapping⟩ := hw.mapping? hmanager hme
      have hattached : w.attachment? i = some me := by rw [attachment?_eq hmanager, hme]
      rw [Manager.drop_eq hmapping]
      split
      · refine turned_of_store hw (lt_of_manager? hmanager) hattached rfl
          (Host.objects_unlink _ _) ?_ ?_
        · intro me' hme'
          cases hme'
        · intro p hp hpi
          rw [(party?_eq_some_iff.mp hp).1] at hsegment
          cases hsegment
          exact .ended hpi
      · refine turned_of_store hw (lt_of_manager? hmanager) hattached rfl rfl ?_ ?_
        · intro me' hme'
          cases hme'
        · intro p hp hpi
          rw [(party?_eq_some_iff.mp hp).1] at hsegment
          cases hsegment
          refine .left rfl (fun operation h => ?_) hpi
          cases h

/-! ## Managers that attach -/

/-- A manager has entered, or tried to: it may be attached to an object, and
there may be a new one. -/
structure Entered (w : World) (i : Nat) (w' : World) : Prop where
  object : ∀ {j : Nat} {me : Attachment}, w'.attachment? j = some me →
    me.object < w'.host.objects.length
  entry : ∀ {number : Nat} {p : Party}, w.party? number = some p →
    w'.party? number = some p ∨
      p.segment.control.magic = readyMagic ∧ w'.party? number = some (p.enrol number i)
  fresh : ∀ {number : Nat} {p : Party}, w.party? number = none → w'.party? number = some p →
    p.Fresh number

theorem Coherent.member_eq_none (hw : w.Coherent) {number : Nat}
    (h : w.host.objects.length ≤ number) : w.member number = fun _ => none := by
  funext j
  cases hmember : w.member number j with
  | none => rfl
  | some me =>
    obtain ⟨hme, rfl⟩ := member_eq_some_iff.mp hmember
    exact absurd (hw.object hme) (not_lt.mpr h)

theorem member_seat_of_detached (hi : i < w.managers.length) (hnone : w.attachment? i = none)
    {host : Host} {after : Option Manager} {number : Nat}
    (hafter : (after.bind (·.attachment)).filter (·.object == number) = none) :
    (w.seat host i after).member number = w.member number := by
  rw [member_seat hi, hafter, ← member_eq_none_of_detached number hnone, Function.update_eq_self]

theorem entered_of_place (hw : w.Coherent) (hi : i < w.managers.length)
    (hnone : w.attachment? i = none) {host : Host} {segment : Segment} {after : Option Manager}
    (hobjects : host.objects = w.host.objects ++ [segment])
    (hafter : ∀ me, after.bind (·.attachment) = some me → me.object = w.host.objects.length)
    (hfresh : Party.Fresh w.host.objects.length
      ⟨segment, Function.update (fun _ => none) i (after.bind (·.attachment))⟩) :
    w.Entered i (w.seat host i after) := by
  have hlength : host.objects.length = w.host.objects.length + 1 := by simp [hobjects]
  refine ⟨fun {j me} hme => ?_, fun {number p} hp => .inl ?_, fun {number p} hp hp' => ?_⟩
  · rw [attachment?_seat hi] at hme
    show me.object < host.objects.length
    by_cases hj : j = i
    · subst hj
      rw [Function.update_self] at hme
      rw [hlength, hafter me hme]
      exact Nat.lt_succ_self _
    · rw [Function.update_of_ne hj] at hme
      exact hlength ▸ Nat.lt_succ_of_lt (hw.object hme)
  · obtain ⟨hsegment, hmember⟩ := party?_eq_some_iff.mp hp
    have hlt : number < w.host.objects.length := (List.getElem?_eq_some_iff.mp hsegment).1
    refine party?_eq_some_iff.mpr ⟨?_, ?_⟩
    · rw [← hsegment]
      simp [segment?, seat, hobjects, List.getElem?_append_left hlt]
    · rw [hmember, member_seat_of_detached hi hnone]
      cases h : after.bind (·.attachment) with
      | none => rfl
      | some me => simp [Option.filter, hafter me h, (Nat.ne_of_lt hlt).symm]
  · obtain ⟨hsegment, hmember⟩ := party?_eq_some_iff.mp hp'
    have hge : w.host.objects.length ≤ number := by
      simpa [party?, segment?] using hp
    have hlt : number < host.objects.length := (List.getElem?_eq_some_iff.mp hsegment).1
    obtain rfl : number = w.host.objects.length := by omega
    have hp : p = ⟨segment, Function.update (fun _ => none) i (after.bind (·.attachment))⟩ := by
      have hfound : some segment = some p.segment := by
        rw [← hsegment]
        simp [segment?, seat, hobjects]
      obtain ⟨psegment, pmember⟩ := p
      cases hfound
      rw [member_seat hi, hw.member_eq_none (le_refl _)] at hmember
      simp only at hmember
      rw [hmember]
      congr 2
      cases h : after.bind (·.attachment) with
      | none => rfl
      | some me => simp [Option.filter, hafter me h]
    rw [hp]
    exact hfresh

theorem entered_of_joined (hw : w.Coherent) (hi : i < w.managers.length)
    (hnone : w.attachment? i = none) {number₀ : Nat} {segment : Segment} {after : Option Manager}
    (hobject : w.host.objects[number₀]? = some segment)
    (hready : segment.control.magic = readyMagic)
    (hafter : after.bind (·.attachment) =
      some (.new number₀ segment.control.nextId segment.control)) :
    w.Entered i (w.seat (w.host.store number₀ segment.joined) i after) := by
  have hlt : number₀ < w.host.objects.length := (List.getElem?_eq_some_iff.mp hobject).1
  refine ⟨fun {j me} hme => ?_, fun {number p} hp => ?_, fun {number p} hp hp' => ?_⟩
  · rw [attachment?_seat hi, hafter] at hme
    show me.object < (w.host.store number₀ segment.joined).objects.length
    rw [Host.objects_store, List.length_set]
    by_cases hj : j = i
    · subst hj
      rw [Function.update_self] at hme
      cases hme
      exact hlt
    · rw [Function.update_of_ne hj] at hme
      exact hw.object hme
  · obtain ⟨hsegment, hmember⟩ := party?_eq_some_iff.mp hp
    by_cases hnumber : number = number₀
    · subst hnumber
      have hfound : some segment = some p.segment := by rw [← hsegment, ← hobject]; rfl
      cases hfound
      refine .inr ⟨hready, party?_eq_some_iff.mpr ⟨?_, ?_⟩⟩
      · simp [segment?, seat, Party.enrol, hlt]
      · rw [member_seat hi, hafter, Party.enrol, hmember]
        simp [Option.filter, Attachment.new]
    · refine .inl (party?_eq_some_iff.mpr ⟨?_, ?_⟩)
      · rw [← hsegment]
        simp [segment?, seat, List.getElem?_set_ne (Ne.symm hnumber)]
      · rw [hmember, member_seat_of_detached hi hnone]
        rw [hafter]
        simp [Option.filter, Attachment.new, Ne.symm hnumber]
  · have hge : w.host.objects.length ≤ number := by simpa [party?, segment?] using hp
    have hlt' := (List.getElem?_eq_some_iff.mp (party?_eq_some_iff.mp hp').1).1
    simp only [seat, Host.objects_store, List.length_set] at hlt'
    exact absurd hlt' (not_lt.mpr hge)

theorem entered_of_connected (hw : w.Coherent) (hi : i < w.managers.length)
    (hnone : w.attachment? i = none) {manager manager' : Manager}
    {answer : Except Segment.Error Unit} {host : Host} (hmanager : manager.attachment = none)
    (h : manager.Connected w.host answer manager' host) {after : Option Manager}
    (hafter : after.bind (·.attachment) = manager'.attachment) :
    w.Entered i (w.seat host i after) := by
  cases h with
  | failed cause =>
    rw [hmanager] at hafter
    have hmember : ∀ number, (w.seat w.host i after).member number = w.member number :=
      fun number => member_seat_of_detached hi hnone (by rw [hafter]; rfl)
    refine ⟨fun {j me} hme => ?_, fun {number p} hp => .inl ?_, fun {number p} hp hp' => ?_⟩
    · rw [attachment?_seat hi, hafter, ← hnone, Function.update_eq_self] at hme
      exact hw.object hme
    · rw [← hp]
      exact party?_congr rfl (hmember number)
    · have hsame : (w.seat w.host i after).party? number = w.party? number :=
        party?_congr rfl (hmember number)
      rw [hsame, hp] at hp'
      cases hp'
  | spoiled cause size =>
    rw [hmanager] at hafter
    refine entered_of_place hw hi hnone (Host.objects_place _ _ _) (fun me hme => ?_) ?_
    · rw [hafter] at hme
      cases hme
    · rw [hafter, Function.update_eq_self]
      exact .blank size
  | @joined number₀ segment hname hobject hjoinable =>
    exact entered_of_joined hw hi hnone hobject (Segment.magic_of_joinable hjoinable) hafter
  | created hname hmay hsize =>
    refine entered_of_place hw hi hnone (Host.objects_place _ _ _) (fun me hme => ?_) ?_
    · rw [hafter] at hme
      cases hme
      rfl
    · rw [hafter]
      exact .formatted _ i hmay hsize

theorem Coherent.grown (hw : w.Coherent) : w.grown.Coherent where
  object hme := hw.object ((attachment?_grown w) ▸ hme)
  party hp := hw.party ((party?_grown w _) ▸ hp)

theorem step_attach_eq (w : World) (config : Segment.Config) (time : TimeSource) :
    ∃ answer manager host,
      Manager.Connected ⟨config, time, false, none⟩ w.host answer manager host ∧
      w.step (.attach config time) =
        w.grown.seat host w.managers.length (answer.map fun () => manager).toOption := by
  have hconnect := Manager.connect_cases ⟨config, time, false, none⟩ w.host
  rcases h : Manager.connect.on ⟨config, time, false, none⟩ w.host with ⟨answer, manager, host⟩
  rw [h] at hconnect
  refine ⟨answer, manager, host, hconnect, ?_⟩
  have hset : ∀ after : Option Manager,
      (w.managers ++ [none]).set w.managers.length after = w.managers ++ [after] := by simp
  cases answer <;> simp [step, Manager.attach, h, seat, grown, hset, Except.map, Except.toOption]

theorem step_attach (w : World) (config : Segment.Config) (time : TimeSource) :
    ∃ answer manager host after,
      Manager.Connected ⟨config, time, false, none⟩ w.host answer manager host ∧
        after.bind (·.attachment) = manager.attachment ∧
        w.step (.attach config time) = w.grown.seat host w.managers.length after := by
  obtain ⟨answer, manager, host, hconnect, hstep⟩ := w.step_attach_eq config time
  refine ⟨answer, manager, host, _, hconnect, ?_, hstep⟩
  cases answer with
  | ok _ => rfl
  | error cause => cases hconnect <;> rfl

theorem turned_attach (hw : w.Coherent) (config : Segment.Config) (time : TimeSource) :
    w.Turned (.attach config time) (w.step (.attach config time)) := by
  obtain ⟨answer, manager, host, after, hconnect, hafter, hstep⟩ := step_attach w config time
  have hlt : w.managers.length < w.grown.managers.length := by simp [World.grown]
  have hnone : w.attachment? w.managers.length = none := by simp [attachment?, manager?]
  have hentered := entered_of_connected hw.grown hlt
    ((congrFun (attachment?_grown w) _).trans hnone) rfl hconnect hafter
  rw [hstep]
  refine ⟨hentered.object, fun {number p} hp => ?_, fun {number p} hp hp' => ?_⟩
  · rcases hentered.entry ((party?_grown w number).trans hp) with hsame | ⟨hready, henrolled⟩
    · refine ⟨p, hsame, .others fun j hj => ?_⟩
      cases hj
    · refine ⟨_, henrolled, .entered rfl (.inl rfl) ?_ hready⟩
      rw [(party?_eq_some_iff.mp hp).2]
      exact member_eq_none_of_detached number hnone
  · exact hentered.fresh ((party?_grown w number).trans hp) hp'

theorem act_reattach (w : World) (i : Nat) :
    w.act i Manager.reattach = (w.act i Manager.detach).act i Manager.connect := by
  cases hmanager : w.manager? i with
  | none => simp only [act_of_none _ hmanager]
  | some manager =>
    have hlt := lt_of_manager? hmanager
    have hafter : (w.act i Manager.detach).manager? i =
        some (manager.shutdown false w.host).1 := by
      rw [act_detach hmanager]
      simp [manager?, seat, hlt]
    rw [act_eq_seat _ hafter, act_detach hmanager, act_eq_seat _ hmanager]
    simp only [Manager.reattach, Action.on_bind]
    simp [Manager.detach, seat]

theorem attachment?_detach (hw : w.Coherent) (i : Nat) :
    (w.act i Manager.detach).attachment? i = none := by
  cases hmanager : w.manager? i with
  | none =>
    rw [act_of_none _ hmanager]
    simp [attachment?, hmanager]
  | some manager =>
    rw [act_detach hmanager, attachment?_seat (lt_of_manager? hmanager), Function.update_self]
    cases hme : manager.attachment with
    | none =>
      rw [Manager.shutdown_of_detached false (mapping?_of_detached hme)]
      rfl
    | some me =>
      obtain ⟨segment, hsegment, hmapping⟩ := hw.mapping? hmanager hme
      rw [Manager.shutdown_eq false hmapping rfl]
      rfl

theorem length_objects_detach (hw : w.Coherent) (i : Nat) :
    (w.act i Manager.detach).host.objects.length = w.host.objects.length := by
  cases hmanager : w.manager? i with
  | none => rw [act_of_none _ hmanager]
  | some manager =>
    rw [act_detach hmanager]
    cases hme : manager.attachment with
    | none => rw [Manager.shutdown_of_detached false (mapping?_of_detached hme), seat]
    | some me =>
      obtain ⟨segment, hsegment, hmapping⟩ := hw.mapping? hmanager hme
      rw [Manager.shutdown_eq false hmapping rfl, seat, Host.objects_store, List.length_set]

theorem entered_connect (hw : w.Coherent) (hnone : w.attachment? i = none) :
    w.Entered i (w.act i Manager.connect) := by
  cases hmanager : w.manager? i with
  | none =>
    rw [act_of_none _ hmanager]
    refine ⟨hw.object, fun hp => .inl hp, fun hp hp' => ?_⟩
    rw [hp] at hp'
    cases hp'
  | some manager =>
    rw [act_eq_seat _ hmanager]
    refine entered_of_connected hw (lt_of_manager? hmanager) hnone ?_
      (manager.connect_cases w.host) rfl
    rw [← attachment?_eq hmanager, hnone]

theorem turned_reattach (hw : w.Coherent) (i : Nat) :
    w.Turned (.reattach i) (w.step (.reattach i)) := by
  have hleave : w.Turned (.reattach i) (w.act i Manager.detach) := turned_detach hw rfl rfl
  have hentered := entered_connect (hleave.coherent hw) (attachment?_detach hw i)
  show w.Turned (.reattach i) (w.act i Manager.reattach)
  rw [act_reattach]
  refine ⟨hentered.object, fun {number p} hp => ?_, fun {number p} hp hp' => ?_⟩
  · obtain ⟨p₁, hp₁, hturn⟩ := hleave.turn hp
    have hnone : p₁.member i = none := by
      rw [(party?_eq_some_iff.mp hp₁).2]
      exact member_eq_none_of_detached number (attachment?_detach hw i)
    rcases hentered.entry hp₁ with hsame | ⟨hready, henrolled⟩
    · exact ⟨p₁, hsame, hturn⟩
    · refine ⟨_, henrolled, ?_⟩
      cases hturn with
      | others => exact .entered rfl (.inr rfl) hnone hready
      | entered hcall hnew hnone' =>
        rcases hnew with hnew | hnew
        · cases hnew
        · cases hnew
          simp [Party.enrol] at hnone
      | moved hcall => cases hcall
      | left hcall _ hme =>
        cases hcall
        exact .returned hme hready
      | returned => simp [Party.enrol] at hnone
  · have hp₁ : (w.act i Manager.detach).party? number = none := by
      simpa [party?, segment?, length_objects_detach hw] using hp
    exact hentered.fresh hp₁ hp'

/-! ## Every call -/

/-- What is done by way of a lease can be done without. -/
theorem act_lease (w : World) (i : Nat) (operation : LeaseOperation) :
    w.act i operation.perform = w.act i operation.plain.perform := by
  cases hmanager : w.manager? i with
  | none => rw [act_of_none _ hmanager, act_of_none _ hmanager]
  | some manager =>
    rw [act_eq_seat _ hmanager, act_eq_seat _ hmanager, LeaseOperation.on_perform_snd]

theorem step_turned (hw : w.Coherent) (call : Call) : w.Turned call (w.step call) := by
  cases call with
  | attach config time => exact turned_attach hw config time
  | perform i operation => exact turned_perform hw operation rfl rfl
  | lease i operation =>
    have hstep : w.step (.lease i operation) = w.act i operation.plain.perform :=
      act_lease w i operation
    rw [hstep]
    exact turned_perform hw operation.plain rfl rfl
  | detach i => exact turned_detach hw rfl rfl
  | reattach i => exact turned_reattach hw i
  | drop i => exact turned_drop hw i
  | unlink key =>
    exact turned_of_same hw (Host.objects_unlink _ _) rfl fun j hj => nomatch hj
  | tick clock uptime => exact turned_of_same hw rfl rfl fun j hj => nomatch hj

/-- In every run every manager knows its object as it is. -/
theorem Run.coherent {past : List Moment} (h : Run past w) : w.Coherent := by
  induction h with
  | start =>
    refine ⟨fun {i me} hme => ?_, fun {number p} hp => ?_⟩
    · simp [attachment?, manager?, World.new] at hme
    · simp [party?, segment?, World.new, Host.new] at hp
  | step call _ ih => exact (step_turned ih call).coherent ih

/-- An object that is not there now has never been there. -/
theorem Run.absent {past : List Moment} (h : Run past w) {number : Nat}
    (hnone : w.party? number = none) : ∀ moment ∈ past, moment.before.party? number = none := by
  induction h with
  | start => nofun
  | step call hrun ih =>
    have hbefore := (step_turned hrun.coherent call).absent hnone
    intro moment hmoment
    rcases List.mem_cons.mp hmoment with rfl | hearlier
    · exact hbefore
    · exact ih hbefore moment hearlier

/-- What holds of an object that has just come about, and what every turn of it
keeps, holds of it in every run. -/
theorem Run.party_induction {number : Nat} {motive : List Moment → World → Party → Prop}
    (fresh : ∀ {past : List Moment} {w : World} {p : Party} (call : Call), Run past w →
      w.party? number = none → (w.step call).party? number = some p → p.Fresh number →
        motive (⟨w, call⟩ :: past) (w.step call) p)
    (turn : ∀ {past : List Moment} {w : World} {call : Call} {p p' : Party}, Run past w →
      w.party? number = some p → (w.step call).party? number = some p' →
      p.Turn number w.now call p' → motive past w p →
        motive (⟨w, call⟩ :: past) (w.step call) p')
    {past : List Moment} {p : Party} (h : Run past w) (hp : w.party? number = some p) :
    motive past w p := by
  induction h generalizing p with
  | start => simp [party?, segment?, World.new, Host.new] at hp
  | @step past w call hrun ih =>
    have hturned := step_turned hrun.coherent call
    cases hbefore : w.party? number with
    | none => exact fresh call hrun hbefore hp (hturned.fresh hbefore hp)
    | some p₁ =>
      obtain ⟨p', hp', hturn⟩ := hturned.turn hbefore
      rw [hp] at hp'
      cases hp'
      exact turn hrun hbefore hp hturn (ih hbefore)

end SlotTransport.World
