/-
How an object ends. The end of data is declared by a member, or by the creator when
it ends while it is attached, and nothing takes it back (`Run.isEnded_history`). As
long as its name is there a creator that is attached is attached to what it has made
(`Run.settled`), so that is what it closes when it ends; one that has left before takes
the name away and tells those that are still attached nothing (`told_by_creator`,
`detached_creator_tells_nobody`).
-/
import SlotTransport.Proofs.World.Continuity
import SlotTransport.Proofs.World.Creator

namespace SlotTransport

open Segment

/-! ## Declaring the end of data -/

theorem Operation.endOfData_of_apply {operation : Operation} {m after : Mapping} {answer : Answer}
    (h : operation.apply m = .ok (answer, after)) : after.segment.control.endOfData =
      if operation = .endData then 1 else m.segment.control.endOfData := by
  by_cases hdeclared : operation.isDeclaration = true
  · cases operation with
    | setRank | endData =>
      cases h
      rfl
    | _ => cases hdeclared
  · have hother : operation ≠ .endData := by
      rintro rfl
      exact hdeclared rfl
    rw [if_neg hother]
    cases Operation.apply_move h with
    | claimedForWriting overwrite =>
      rcases m.claimForWriting_cases overwrite with ⟨h, -⟩ |
        ⟨before, slot, others, s, -, -, -, -, h⟩
      · rw [h]
        rfl
      · rw [h, Mapping.segment_takeForWriting]
        rfl
    | claimedForReading =>
      rcases m.claimForReading_cases with ⟨h, -⟩ | ⟨slot, s, -, -, -, h⟩
      · rw [h]
        rfl
      · rw [h, Mapping.segment_takeForReading]
        rfl
    | declared hmine => exact absurd hmine hdeclared
    | _ => rfl

/-- The end of data is not taken back. -/
theorem Party.Turn.isEndOfData {number : Nat} {now : Nat → Nat} {p p' : Party} {call : World.Call}
    (hturn : p.Turn number now call p') (h : p.segment.control.isEndOfData = true) :
    p'.segment.control.isEndOfData = true := by
  cases hturn with
  | moved _ _ hmove =>
    have hmark := Operation.endOfData_of_apply hmove
    unfold Control.isEndOfData at h ⊢
    rw [Party.follow, hmark]
    split
    · rfl
    · exact h
  | ended => rfl
  | _ => exact h

namespace World

/-- Whether the end of data is declared in an object. -/
def isEnded (w : World) (number : Nat) : Bool :=
  (w.segment? number).any (·.control.isEndOfData)

variable {past : List Moment} {w : World} {call : Call} {key : Key} {i number : Nat}
  {manager manager' : Manager} {me me' : Attachment}

theorem Coherent.isEndOfData_eq (hw : w.Coherent) (hmanager : w.manager? i = some manager)
    (hme : manager.attachment = some me) :
    manager.isEndOfData w.host = w.isEnded me.object := by
  obtain ⟨segment, hsegment, hmapping⟩ := hw.mapping? hmanager hme
  rw [Manager.isEndOfData, Manager.seen, hmapping, isEnded, hsegment]
  rfl

theorem isEnded_step (hw : w.Coherent) (call : Call) (h : w.isEnded number = true) :
    (w.step call).isEnded number = true := by
  unfold isEnded at h ⊢
  obtain ⟨segment, hsegment, hended⟩ := (Option.any_eq_true ..).mp h
  obtain ⟨p', hp', hturn⟩ := (step_turned hw call).turn (party?_of_segment? hsegment)
  rw [(party?_eq_some_iff.mp hp').1]
  exact hturn.isEndOfData hended

/-- What has ended has ended for ever. -/
theorem Run.isEnded_history (h : Run past w) (hended : w.isEnded number = true)
    (calls : List Call) : (w.history calls past).2.isEnded number = true := by
  induction calls generalizing past w with
  | nil => exact hended
  | cons call calls ih => exact ih (h.step call) (isEnded_step h.coherent call hended)

/-! ## Where names lead -/

theorem Coherent.segment?_ne_none (hw : w.Coherent) (hme : w.attachment? i = some me) :
    w.segment? me.object ≠ none := fun hnone =>
  not_lt.mpr (List.getElem?_eq_none_iff.mp hnone) (hw.object hme)

/-- Every name leads to an object that there is. -/
def Anchored (w : World) : Prop :=
  ∀ key entry, w.host.entry? key = some entry →
    ∃ number, entry = .object number ∧ w.segment? number ≠ none

theorem Anchored.not_directory (h : w.Anchored) (key : Key) :
    w.host.entry? key ≠ some .directory := by
  intro hdirectory
  obtain ⟨number, heq, -⟩ := h key _ hdirectory
  cases heq

theorem Anchored.entry?_unlink (h : w.Anchored) (key : Key) :
    Host.entry? (w.step (.unlink key)).host key = none :=
  Host.entry?_unlink_self (h.not_directory key)

theorem Anchored.step (h : w.Anchored) (hw : w.Coherent) (call : Call) :
    (w.step call).Anchored := by
  intro key entry hentry
  have hstays : w.host.entry? key = some entry →
      ∃ number, entry = .object number ∧ (w.step call).segment? number ≠ none := by
    intro hbefore
    obtain ⟨number, heq, hobject⟩ := h key entry hbefore
    obtain ⟨segment, hsegment⟩ := Option.ne_none_iff_exists'.mp hobject
    obtain ⟨segment', hsegment', -⟩ := hw.segment?_step call hsegment
    exact ⟨number, heq, by simp [hsegment']⟩
  by_cases hcall : call = .unlink key
  · subst hcall
    rw [h.entry?_unlink key] at hentry
    cases hentry
  · cases step_entitles hw hcall with
    | kept _ hkept => exact hstays (hkept.symm.trans hentry)
    | dropped _ _ hdropped =>
      rw [hdropped (h.not_directory key)] at hentry
      cases hentry
    | tried _ htried =>
      cases htried with
      | kept hkept => exact hstays (hkept.symm.trans hentry)
      | created _ hmade _ hme hobject =>
        rw [hentry] at hmade
        cases hmade
        exact ⟨_, rfl, hobject ▸ ((step_turned hw call).coherent hw).segment?_ne_none hme⟩
      | spoiled _ hmade _ _ hblank =>
        rw [hentry] at hmade
        cases hmade
        exact ⟨_, rfl, by simp [hblank]⟩

theorem Run.anchored (h : Run past w) : w.Anchored := by
  induction h with
  | start => nofun
  | step call hrun ih => exact ih.step hrun.coherent call

/-! ## Creators that are attached -/

theorem manager?_step_of_others (hcall : call.manager? ≠ some i) (hnew : w.entrant? call ≠ some i) :
    (w.step call).manager? i = w.manager? i := by
  have hact : ∀ {α : Type} (j : Nat) (action : Action Manager Segment.Error α), i ≠ j →
      (w.act j action).manager? i = w.manager? i := by
    intro α j action hj
    cases hmanager : w.manager? j with
    | none => rw [act_of_none _ hmanager]
    | some other => rw [act_eq_seat _ hmanager, manager?_seat_of_ne hj]
  have hne : ∀ j, call.manager? = some j → i ≠ j := by
    rintro j hj rfl
    exact hcall hj
  cases call with
  | attach config time =>
    obtain ⟨answer, manager, host, -, hstep⟩ := w.step_attach_eq config time
    have hi : i ≠ w.managers.length := fun heq => hnew (congrArg some heq.symm)
    rw [hstep, manager?_seat_of_ne hi, manager?_grown]
  | perform j | lease j | detach j | reattach j => exact hact j _ (hne j rfl)
  | drop j =>
    cases hmanager : w.manager? j with
    | none => rw [step_drop_of_none hmanager]
    | some other => rw [step_drop hmanager, manager?_seat_of_ne (hne j rfl)]
  | unlink | tick => rfl

theorem manager?_drop_self (w : World) (i : Nat) : (w.step (.drop i)).manager? i = none := by
  cases hmanager : w.manager? i with
  | none => rw [step_drop_of_none hmanager, hmanager]
  | some manager =>
    rw [step_drop hmanager]
    simp [manager?, seat, lt_of_manager? hmanager]

theorem key_of_keeps (hmanager : w.manager? i = some manager) {after : Manager} {host : Host}
    (h : manager.Keeps w.host after host)
    (hmanager' : (w.seat host i (some after)).manager? i = some manager') :
    manager'.key = manager.key := by
  have hafter : (w.seat host i (some after)).manager? i = some after := by
    simp [manager?, seat, lt_of_manager? hmanager]
  rw [hafter] at hmanager'
  cases hmanager'
  rw [Manager.key, h.config, Manager.key]

/-- A manager was there before, attached to the same object if it is attached. -/
def WasThere (w : World) (i : Nat) (manager' : Manager) : Prop :=
  ∃ manager, w.manager? i = some manager ∧ manager'.key = manager.key ∧
    ∀ me', manager'.attachment = some me' →
      ∃ me, manager.attachment = some me ∧ me.object = me'.object

theorem wasThere_of_perform (hw : w.Coherent) {operation : Operation}
    (hmanager' : (w.step (.perform i operation)).manager? i = some manager') :
    w.WasThere i manager' := by
  have hattached := fun (me' : Attachment) (hme' : manager'.attachment = some me') =>
    attachment?_perform hw ((attachment?_eq hmanager').trans hme')
  change (w.act i operation.perform).manager? i = some manager' at hmanager'
  cases hmanager : w.manager? i with
  | none =>
    rw [act_of_none _ hmanager, hmanager] at hmanager'
    cases hmanager'
  | some manager =>
    rw [act_eq_seat _ hmanager, Operation.on_perform_guarded] at hmanager'
    refine ⟨manager, hmanager, key_of_keeps hmanager (Manager.keeps_guarded _ _ _) hmanager',
      fun me' hme' => ?_⟩
    obtain ⟨me, hme, hobject, -⟩ := hattached me' hme'
    exact ⟨me, (attachment?_eq hmanager).symm.trans hme, hobject⟩

theorem wasThere_of_detach (hw : w.Coherent)
    (hmanager' : (w.step (.detach i)).manager? i = some manager') : w.WasThere i manager' := by
  have hdetached : manager'.attachment = none :=
    (attachment?_eq hmanager').symm.trans (attachment?_detach hw i)
  change (w.act i Manager.detach).manager? i = some manager' at hmanager'
  cases hmanager : w.manager? i with
  | none =>
    rw [act_of_none _ hmanager, hmanager] at hmanager'
    cases hmanager'
  | some manager =>
    rw [act_detach hmanager] at hmanager'
    refine ⟨manager, hmanager, key_of_keeps hmanager (manager.keeps_shutdown w.host) hmanager',
      fun me' hme' => ?_⟩
    rw [hdetached] at hme'
    cases hme'

theorem wasThere_of_step (hw : w.Coherent) (hnew : w.entrant? call ≠ some i)
    (hmanager' : (w.step call).manager? i = some manager') : w.WasThere i manager' := by
  by_cases hcall : call.manager? = some i
  · cases call with
    | attach | unlink | tick => cases hcall
    | perform =>
      cases hcall
      exact wasThere_of_perform hw hmanager'
    | lease j operation =>
      cases hcall
      change (w.act i operation.perform).manager? i = some manager' at hmanager'
      rw [act_lease] at hmanager'
      exact wasThere_of_perform hw hmanager'
    | detach =>
      cases hcall
      exact wasThere_of_detach hw hmanager'
    | reattach => exact absurd hcall hnew
    | drop =>
      cases hcall
      rw [manager?_drop_self] at hmanager'
      cases hmanager'
  · rw [manager?_step_of_others hcall hnew] at hmanager'
    exact ⟨manager', hmanager', rfl, fun me' hme' => ⟨me', hme', rfl⟩⟩

/-- A manager that is attached, and that has made the object which the name of its key
leads to, is attached to that object. -/
def Settled (past : List Moment) (w : World) : Prop :=
  ∀ {i number : Nat} {manager : Manager} {me : Attachment}, w.manager? i = some manager →
    manager.attachment = some me → w.host.entry? manager.key = some (.object number) →
    maker? number past = some i → me.object = number

theorem maker?_of_new (hnew : w.entrant? call = some i) (hnone : w.segment? number = none)
    (hsome : (w.step call).segment? number ≠ none) :
    maker? number (⟨w, call⟩ :: past) = some i := by
  have hmakes : (⟨w, call⟩ : Moment).makes number = true := by
    simp [Moment.makes, Moment.after, hnone, Option.isSome_iff_ne_none, hsome]
  rw [maker?, List.findSome?_cons, hmakes, if_pos rfl, hnew]

theorem Settled.step (h : Settled past w) (hw : w.Coherent) (hanchored : w.Anchored) (call : Call) :
    Settled (⟨w, call⟩ :: past) (w.step call) := by
  intro i number manager' me' hmanager' hme' hname' hmaker'
  have hw' : (w.step call).Coherent := (step_turned hw call).coherent hw
  have hattached' := (attachment?_eq hmanager').trans hme'
  -- Where the name has led to the object before, what was so of the manager still is.
  have hstays : w.entrant? call ≠ some i → w.host.entry? manager'.key = some (.object number) →
      me'.object = number := by
    intro hnew hname
    obtain ⟨manager, hmanager, hkey, hattached⟩ := wasThere_of_step hw hnew hmanager'
    obtain ⟨me, hme, hobject⟩ := hattached me' hme'
    obtain ⟨_, heq, hthere⟩ := hanchored _ _ hname
    cases heq
    rw [← hobject]
    exact h hmanager hme (hkey ▸ hname) ((maker?_cons call hthere).symm.trans hmaker')
  -- Where it leads to a new object, the manager has entered in this call.
  have hnew : ∀ j, w.entrant? call = some j → (w.step call).segment? w.host.objects.length ≠ none →
      number = w.host.objects.length → j = i := by
    rintro j hj hthere rfl
    have hnone : w.segment? w.host.objects.length = none := List.getElem?_eq_none (le_refl _)
    rw [maker?_of_new hj hnone hthere] at hmaker'
    exact Option.some.inj hmaker'
  by_cases hcall : call = .unlink manager'.key
  · subst hcall
    rw [hanchored.entry?_unlink] at hname'
    cases hname'
  · cases step_entitles hw hcall with
    | kept hnobody hentry => exact hstays (by simp [hnobody]) (hentry.symm.trans hname')
    | dropped _ _ hentry =>
      rw [hentry (hanchored.not_directory _)] at hname'
      cases hname'
    | @tried j hentrant htried =>
      cases htried with
      | kept hentry _ hjoined =>
        have hname := hentry.symm.trans hname'
        by_cases hj : j = i
        · subst hj
          have hjoined := hjoined manager' me' hmanager' rfl hme'
          rw [hname] at hjoined
          cases hjoined
          rfl
        · exact hstays (by simpa [hentrant] using hj) hname
      | created _ hentry _ hme hobject =>
        rw [hname'] at hentry
        cases hentry
        obtain rfl := hnew j hentrant (hobject ▸ hw'.segment?_ne_none hme) rfl
        rw [hattached'] at hme
        cases hme
        exact hobject
      | spoiled _ hentry _ hdetached hblank =>
        rw [hname'] at hentry
        cases hentry
        obtain rfl := hnew j hentrant (by simp [hblank]) rfl
        rw [hattached'] at hdetached
        cases hdetached

/-- In every run a creator that is attached is attached to what it has made, as long as
the name is there. -/
theorem Run.settled (h : Run past w) : Settled past w := by
  induction h with
  | start => nofun
  | step call hrun ih => exact ih.step hrun.coherent hrun.anchored call

/-! ## The end of a creator -/

/-- A creator that ends while it is attached closes its object. -/
theorem isEnded_drop_attached (hw : w.Coherent) (hmanager : w.manager? i = some manager)
    (hcreated : manager.created = true) (hme : manager.attachment = some me) :
    (w.step (.drop i)).isEnded me.object = true := by
  obtain ⟨segment, hsegment, hmapping⟩ := hw.mapping? hmanager hme
  have hlt : me.object < w.host.objects.length := hw.object ((attachment?_eq hmanager).trans hme)
  rw [step_drop hmanager, Manager.drop_eq hmapping, if_pos hcreated]
  simp [isEnded, segment?, seat, hlt, Manager.ended, Control.isEndOfData]

/-- One that has left before leaves every object as it is. -/
theorem isEnded_drop_detached (hmanager : w.manager? i = some manager)
    (hcreated : manager.created = true) (hdetached : manager.attachment = none) (number : Nat) :
    (w.step (.drop i)).isEnded number = w.isEnded number := by
  have hgone : manager.drop w.host = w.host.unlink manager.key := by
    simp [Manager.drop, hcreated, Manager.isAttached, hdetached]
  rw [step_drop hmanager, hgone, isEnded, isEnded, segment?, segment?, seat, Host.objects_unlink]

theorem manager?_of_drop {j : Nat} (hmanager : (w.step (.drop i)).manager? j = some manager) :
    w.manager? j = some manager := by
  by_cases hj : i = j
  · subst hj
    rw [manager?_drop_self] at hmanager
    cases hmanager
  · have hcall : (Call.drop i).manager? ≠ some j := fun heq => hj (Option.some.inj heq)
    rwa [manager?_step_of_others hcall nofun] at hmanager

/-- **The end of a creator.** Whatever has happened, let a creator end whose name still
leads to the object that it has made. Then the name is gone. If the creator was attached,
every manager attached to the object is told that no more records will come, from then
on and whatever is called. If it had left before, be it of its own will or for a breach
of the slot protocol, those attached are told what they were told before. -/
theorem told_by_creator {past : List Moment} {w : World} (hrun : Run past w) {i number : Nat}
    {manager : Manager} (hmanager : w.manager? i = some manager)
    (hcreated : manager.created = true)
    (hname : w.host.entry? manager.key = some (.object number))
    (hmaker : maker? number past = some i) :
    Host.entry? (w.step (.drop i)).host manager.key = none ∧
    (manager.isAttached = true → ∀ calls : List Call,
      let w' := ((w.step (.drop i)).history calls (⟨w, .drop i⟩ :: past)).2
      ∀ j peer me, w'.manager? j = some peer → peer.attachment = some me → me.object = number →
        peer.isEndOfData w'.host = true) ∧
    (manager.isAttached = false →
      let w' := w.step (.drop i)
      ∀ j peer me, w'.manager? j = some peer → peer.attachment = some me → me.object = number →
        peer.isEndOfData w'.host = peer.isEndOfData w.host) := by
  have hw := hrun.coherent
  have hrun' : Run (⟨w, .drop i⟩ :: past) (w.step (.drop i)) := hrun.step (.drop i)
  refine ⟨?_, ?_, ?_⟩
  · have hcreator : manager.isCreatorOf manager.key = true := by
      simp [Manager.isCreatorOf, hcreated]
    have hentitles : w.Entitles manager.key (.drop i) (w.step (.drop i)) :=
      step_entitles hw fun h => by cases h
    cases hentitles with
    | kept _ _ hcreators =>
      have hgone : (w.step (.drop i)).isCreator manager.key i = false := by
        rw [isCreator, manager?_drop_self, Option.any_none]
      rw [hcreators, isCreator_eq hmanager, hcreator] at hgone
      cases hgone
    | dropped _ _ hentry => exact hentry (by simp [hname])
    | tried hnew => cases hnew
  · intro hattached calls w' j peer me hpeer hme hobject
    obtain ⟨mine, hmine⟩ := Option.isSome_iff_exists.mp hattached
    have hended := isEnded_drop_attached hw hmanager hcreated hmine
    rw [hrun.settled hmanager hmine hname hmaker] at hended
    rw [(hrun'.history calls).coherent.isEndOfData_eq hpeer hme, hobject]
    exact hrun'.isEnded_history hended calls
  · intro hleft w' j peer me hpeer hme _
    have hdetached : manager.attachment = none := by simpa [Manager.isAttached] using hleft
    rw [hrun'.coherent.isEndOfData_eq hpeer hme, hw.isEndOfData_eq (manager?_of_drop hpeer) hme]
    exact isEnded_drop_detached hmanager hcreated hdetached me.object

/-- A guest is told of the end of the creator, and still is when it has read on. -/
theorem told_by_creator_attached :
    let config : Segment.Config := ⟨7, 1, 8, 0, true, 0⟩
    let calls : List Call := [.attach config .manual, .attach config .manual,
      .perform 0 (.claimForWriting false), .perform 0 (.publish 0 .any)]
    let later : List Call := [.perform 1 .claimForReading, .perform 1 (.release 0)]
    let w := (run calls).2
    let w' := ((w.step (.drop 0)).history later (⟨w, .drop 0⟩ :: (run calls).1)).2
    (w.step (.drop 0)).host.hasName 7 = false ∧
      ∃ guest, w'.manager? 1 = some guest ∧ guest.isEndOfData w'.host = true := by
  intro config calls later w w'
  let creator : Manager := ⟨config, .manual, true, (w.attachment? 0)⟩
  have hcreator : w.manager? 0 = some creator := by decide +kernel
  obtain ⟨hname, htold, -⟩ := told_by_creator (run_run calls) hcreator rfl
    (by decide +kernel : w.host.entry? creator.key = some (.object 0)) (by decide +kernel)
  obtain ⟨guest, hguest, hmember⟩ := (Option.any_eq_true (fun guest : Manager =>
      guest.attachment.any (·.object == 0)) (w'.manager? 1)).mp (by decide +kernel)
  obtain ⟨me, hme, hobject⟩ := (Option.any_eq_true ..).mp hmember
  refine ⟨?_, guest, hguest, ?_⟩
  · have hname : (w.step (.drop 0)).host.entry? 7 = none := hname
    rw [Host.hasName, hname]
    rfl
  · exact htold (by decide +kernel) later 1 guest me hguest hme (by simpa using hobject)

/-- **A creator that has left tells nobody.** It takes its name away when it ends, but a
guest that is still attached to what it has made is not told of it. -/
theorem detached_creator_tells_nobody :
    let config : Segment.Config := ⟨7, 1, 8, 0, true, 0⟩
    let calls : List Call := [.attach config .manual, .attach config .manual, .detach 0]
    let w := (run calls).2
    let w' := w.step (.drop 0)
    (w.manager? 0).any (·.created) = true ∧ w.host.number? 7 = some 0 ∧
      maker? 0 (run calls).1 = some 0 ∧ w'.host.hasName 7 = false ∧
      ∃ guest me, w'.manager? 1 = some guest ∧ guest.attachment = some me ∧ me.object = 0 ∧
        guest.isEndOfData w'.host = false := by
  intro config calls w w'
  obtain ⟨guest, hguest, hfacts⟩ := (Option.any_eq_true (fun guest : Manager =>
      guest.attachment.any (·.object == 0) && !guest.isEndOfData w'.host) (w'.manager? 1)).mp
    (by decide +kernel)
  simp only [Bool.and_eq_true, Bool.not_eq_true'] at hfacts
  obtain ⟨me, hme, hobject⟩ := (Option.any_eq_true ..).mp hfacts.1
  exact ⟨by decide +kernel, by decide +kernel, by decide +kernel, by decide +kernel, guest, me,
    hguest, hme, by simpa using hobject, hfacts.2⟩

end World

end SlotTransport
