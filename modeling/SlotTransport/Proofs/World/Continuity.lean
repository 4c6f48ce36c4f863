/-
What others leave of a record and of a hold. A sequence id names one record: whatever
has happened since, a slot that has a record of that id has the same one
(`World.Names`). And a slot that a manager holds after others have acted is one that
they have left alone, as long as nobody else goes by its id (`slot?_of_others`): it may
be taken from its holder, but it does not come back.
-/
import SlotTransport.Proofs.World.Membership
import SlotTransport.Proofs.World.Record

namespace SlotTransport

open Segment

/-! ## Records and their sequence ids -/

namespace Segment

variable {m : Mapping} {operation : Operation} {answer : Answer} {k : Nat} {s s' : Slot}

theorem Slot.isFilled_of_reclaimed {staleness : Staleness} {entitled : Bool}
    (h : s.reclaimed? staleness entitled = some s') (hfilled : s'.isFilled = true) :
    s.isFilled = true := by
  rcases (reclaimed?_cases h).2 with ⟨hstate, -⟩ | ⟨-, rfl⟩ | ⟨-, -, -, rfl⟩
  · exact isFilled_eq_true_iff.mpr (.inr hstate)
  · cases hfilled
  · cases hfilled

theorem Slot.isFilled_of_swept {staleness : Staleness}
    (hfilled : (s.swept staleness).isFilled = true) : s.isFilled = true := by
  by_cases hsame : s.swept staleness = s
  · rwa [hsame] at hfilled
  · exact isFilled_of_reclaimed (reclaimed?_of_swept_ne hsame) hfilled

theorem Slot.isFilled_of_leftBy {id : ManagerId} (hfilled : (s.leftBy id).isFilled = true) :
    s.isFilled = true := by
  rcases s.leftBy_cases id with h | ⟨-, -, h⟩ | ⟨-, hstate, -⟩
  · rwa [h] at hfilled
  · rw [h] at hfilled
    cases hfilled
  · exact isFilled_eq_true_iff.mpr (.inr hstate)

/-- A record that an operation leaves in a slot was there before, or it is the next
one. -/
theorem Mapping.Change.filled_cases (h : m.Change operation answer k s s')
    (hfilled' : s'.isFilled = true) :
    (s.isFilled = true ∧ s.SameRecord s') ∨
      s'.sequenceId = m.segment.control.lastSequenceId + 1 := by
  by_cases hfilled : s.isFilled = true
  · exact .inl ⟨hfilled, h.sameRecord hfilled hfilled'⟩
  · have hreading : s.state ≠ .reading := fun hstate =>
      hfilled (Slot.isFilled_eq_true_iff.mpr (.inr hstate))
    cases h with
    | kept | checked => exact absurd hfilled' hfilled
    | wrote _ hwriting =>
      have hstate : s.state = .full ∨ s.state = .reading :=
        Slot.isFilled_eq_true_iff.mp hfilled'
      rw [hwriting] at hstate
      rcases hstate with h | h <;> cases h
    | read _ hstate | released _ hstate => exact absurd hstate hreading
    | swept => exact absurd (Slot.isFilled_of_swept hfilled') hfilled
    | reset _ hs' => exact absurd (Slot.isFilled_of_reclaimed hs' hfilled') hfilled
    | claimedForWriting | evicted => cases hfilled'
    | claimedForReading _ _ hread =>
      simp only [isReadable, Slot.isAddressedTo, Bool.and_eq_true, beq_iff_eq] at hread
      exact absurd (Slot.isFilled_of_swept (Slot.isFilled_eq_true_iff.mpr (.inl hread.1.1))) hfilled
    | published => exact .inr rfl

/-- What another manager leaves held by somebody else is as it was. -/
theorem Mapping.Change.eq_of_other (h : m.Change operation answer k s s')
    (hheld : s'.isHeld = true) (hother : s'.owner ≠ m.me.id) : s' = s := by
  cases h with
  | kept => rfl
  | wrote _ _ howner | read _ _ howner => exact absurd howner hother
  | checked _ hmine =>
    rcases hmine with howner | ⟨-, hfull | hempty⟩
    · exact absurd howner hother
    · simp [Slot.isHeld, hfull] at hheld
    · simp [Slot.isHeld, hempty] at hheld
  | swept => exact Slot.swept_of_held hheld
  | reset _ hs' =>
    rw [Slot.not_held_reclaimed hs'] at hheld
    cases hheld
  | claimedForWriting | claimedForReading => exact absurd rfl hother
  | published | evicted => cases hheld
  | released =>
    rcases m.released_cases s with h | h <;> rw [h] at hheld <;> cases hheld

end Segment

namespace Party

variable {number k i : Nat} {now : Nat → Nat} {p p' : Party} {call : World.Call} {s s' : Slot}

theorem Turn.filled_cases (hturn : p.Turn number now call p') (hs : p.segment.slots[k]? = some s)
    (hs' : p'.segment.slots[k]? = some s') (hfilled' : s'.isFilled = true) :
    (s.isFilled = true ∧ s.SameRecord s') ∨
      s'.sequenceId = p.segment.control.lastSequenceId + 1 := by
  rcases hturn.slot_cases hs with hsame | ⟨i, operation, me, answer, after, -, hme, hmove, rfl⟩ |
    ⟨i, me, -, -, -, hleft⟩
  · rw [hs'] at hsame
    cases hsame
    exact .inl ⟨hfilled', .refl s⟩
  · obtain ⟨t, ht, hchange⟩ := (Operation.apply_move hmove).change hs
    cases ht.symm.trans hs'
    exact hchange.filled_cases hfilled'
  · rw [hs'] at hleft
    cases hleft
    exact .inl ⟨Slot.isFilled_of_leftBy hfilled', Slot.sameRecord_leftBy hfilled'⟩

/-- What a turn leaves held by a manager that was not called is as it was. -/
theorem Turn.eq_of_other (hturn : p.Turn number now call p') (hs : p.segment.slots[k]? = some s)
    (hs' : p'.segment.slots[k]? = some s') (hheld : s'.isHeld = true)
    (hother : ∀ j me, call.manager? = some j → p.member j = some me → me.id ≠ s'.owner) :
    s' = s := by
  rcases hturn.slot_cases hs with hsame |
    ⟨j, operation, me, answer, after, hcall, hme, hmove, rfl⟩ | ⟨j, me, hcall, hme, -, hleft⟩
  · rw [hs'] at hsame
    exact Option.some.inj hsame
  · obtain ⟨t, ht, hchange⟩ := (Operation.apply_move hmove).change hs
    cases ht.symm.trans hs'
    exact hchange.eq_of_other hheld
      (hother j me (World.Call.manager?_of_operation? hcall) hme).symm
  · rw [hs'] at hleft
    cases hleft
    exact (Slot.leftBy_of_held hheld).1

/-- Sequence ids are given out in ascending order. -/
theorem Turn.lastSequenceId_le (hturn : p.Turn number now call p') :
    p.segment.control.lastSequenceId ≤ p'.segment.control.lastSequenceId := by
  cases hturn with
  | moved _ _ hmove =>
    rcases (Operation.apply_move hmove).sequenceIds with ⟨hlast, -⟩ | ⟨_, hlast, -⟩
    · exact hlast.ge
    · exact Nat.le_of_lt (hlast ▸ Nat.lt_succ_self _)
  | _ => exact le_refl _

end Party

namespace World

variable {past : List Moment} {w : World} {call : Call} {calls : List Call} {number i k : Nat}
  {s s' s₀ : Slot} {manager : Manager} {me : Attachment}

/-- Whatever has a record of the sequence id of a slot in the object, and wherever, has the
same record. -/
def Names (w : World) (number : Nat) (s₀ : Slot) : Prop :=
  ∃ segment, w.segment? number = some segment ∧
    s₀.sequenceId ≤ segment.control.lastSequenceId ∧
    ∀ {k : Nat} {s : Slot}, segment.slots[k]? = some s → s.isFilled = true →
      s.sequenceId = s₀.sequenceId → s₀.SameRecord s

/-- A record has its sequence id to itself. -/
theorem Run.names (h : Run past w) (hs₀ : w.slot? number k = some s₀)
    (hfilled : s₀.isFilled = true) : w.Names number s₀ := by
  obtain ⟨p, hp, hslot⟩ := exists_party_of_slot? hs₀
  have hsound := h.sound hp
  refine ⟨p.segment, (party?_eq_some_iff.mp hp).1, hsound.issued hslot, fun hs _ hsame => ?_⟩
  have hnew : s₀.sequenceId ≠ 0 := by
    have hslotSound := hsound.slot hslot
    rcases Slot.isFilled_eq_true_iff.mp hfilled with hfull | hreading
    · have := (hslotSound.full hfull).2
      omega
    · have := hslotSound.reading hreading
      omega
  obtain rfl := hsound.distinct hslot hs hnew hsame.symm
  cases hslot.symm.trans hs
  exact .refl _

theorem Names.step (h : w.Names number s₀) (hw : w.Coherent) (call : Call) :
    (w.step call).Names number s₀ := by
  obtain ⟨segment, hsegment, hissued, hnames⟩ := h
  obtain ⟨p', hp', hturn⟩ := (step_turned hw call).turn (party?_of_segment? hsegment)
  refine ⟨p'.segment, (party?_eq_some_iff.mp hp').1, hissued.trans hturn.lastSequenceId_le,
    fun {k s'} hs' hfilled' hsame => ?_⟩
  have hlength : p'.segment.slots.length = segment.slots.length := hturn.alike.length
  obtain ⟨hlt, -⟩ := List.getElem?_eq_some_iff.mp hs'
  have hs := List.getElem?_eq_getElem (hlength ▸ hlt : k < segment.slots.length)
  rcases hturn.filled_cases hs hs' hfilled' with ⟨hfilled, hrecord⟩ | hnext
  · have hid : segment.slots[k].sequenceId = s₀.sequenceId := hrecord.sequenceId.symm.trans hsame
    exact (hnames hs hfilled hid).trans hrecord
  · -- The next record has an id that has not been given out before.
    have hnext' : s'.sequenceId = segment.control.lastSequenceId + 1 := hnext
    omega

theorem Names.history (h : w.Names number s₀) (hrun : Run past w) (calls : List Call) :
    (w.history calls past).2.Names number s₀ := by
  induction calls generalizing w past with
  | nil => exact h
  | cons call calls ih => exact ih (h.step hrun.coherent call) (hrun.step call)

/-! ## What others do -/

theorem manager?_step_of_ne (hi : w.manager? i = some manager) (hcall : call.manager? ≠ some i) :
    (w.step call).manager? i = some manager := by
  have hact : ∀ {α : Type} (j : Nat) (action : Action Manager Segment.Error α), j ≠ i →
      (w.act j action).manager? i = some manager := by
    intro α j action hj
    cases hmanager : w.manager? j with
    | none => rwa [act_of_none _ hmanager]
    | some other =>
      rw [act_eq_seat _ hmanager]
      simpa [manager?, seat, List.getElem?_set_ne hj] using hi
  have hne : ∀ j, call.manager? = some j → j ≠ i := by
    rintro j hj rfl
    exact hcall hj
  have hlt := lt_of_manager? hi
  cases call with
  | attach config time =>
    have hgrown : ∀ (host : Host) (newcomer : Option Manager),
        (⟨host, w.managers ++ [newcomer]⟩ : World).manager? i = some manager := by
      intro host newcomer
      rw [manager?, List.getElem?_append_left hlt]
      exact hi
    rw [step]
    split <;> exact hgrown _ _
  | perform j | lease j | detach j | reattach j => exact hact j _ (hne j rfl)
  | drop j =>
    cases hmanager : w.manager? j with
    | none => rwa [step_drop_of_none hmanager]
    | some other =>
      rw [step_drop hmanager]
      simpa [manager?, seat, List.getElem?_set_ne (hne j rfl)] using hi
  | unlink | tick => exact hi

theorem manager?_history_of_ne (hi : w.manager? i = some manager)
    (hcalls : ∀ call ∈ calls, call.manager? ≠ some i) (past : List Moment) :
    (w.history calls past).2.manager? i = some manager := by
  induction calls generalizing w past with
  | nil => exact hi
  | cons call calls ih =>
    exact ih (manager?_step_of_ne hi (hcalls call List.mem_cons_self))
      (fun other hother => hcalls other (List.mem_cons_of_mem _ hother)) _

/-- Nobody else attached to the object goes by an id. -/
def Singular (w : World) (number i : Nat) (id : ManagerId) : Prop :=
  ∀ j me, w.member number j = some me → me.id = id → j = i

theorem singular_iff {id : ManagerId} : w.Singular number i id ↔
    ∀ j < w.managers.length, ∀ me ∈ w.member number j, me.id = id → j = i := by
  refine ⟨fun h j _ me hme => h j me hme, fun h j me hme => h j ?_ me hme⟩
  obtain ⟨manager, hmanager, -⟩ := Option.bind_eq_some_iff.mp (member_eq_some_iff.mp hme).1
  exact lt_of_manager? hmanager

instance (w : World) (number i : Nat) (id : ManagerId) : Decidable (w.Singular number i id) :=
  decidable_of_iff _ singular_iff.symm

theorem attachment?_perform (hw : w.Coherent) {j : Nat} {operation : Operation}
    {me' : Attachment} (h : (w.step (.perform j operation)).attachment? i = some me') :
    ∃ me, w.attachment? i = some me ∧ me.object = me'.object ∧ me.id = me'.id := by
  change (w.act j operation.perform).attachment? i = some me' at h
  cases hmanager : w.manager? j with
  | none =>
    rw [act_of_none _ hmanager] at h
    exact ⟨me', h, rfl, rfl⟩
  | some manager =>
    rw [act_eq_seat _ hmanager, attachment?_seat (lt_of_manager? hmanager)] at h
    by_cases hi : i = j
    · subst hi
      rw [Function.update_self, Operation.on_perform] at h
      simp only [Manager.step, Action.on_of] at h
      cases hme : manager.attachment with
      | none =>
        rw [mapping?_of_detached hme] at h
        simp [hme] at h
      | some me =>
        obtain ⟨segment, -, hmapping⟩ := hw.mapping? hmanager hme
        have hattached : w.attachment? i = some me := by rw [attachment?_eq hmanager, hme]
        rw [hmapping] at h
        simp only at h
        cases happly : operation.apply ⟨me, w.now i, segment⟩ with
        | ok told =>
          obtain ⟨answer, after⟩ := told
          rw [happly] at h
          cases h
          have hkept := (Operation.apply_move happly).kept.me
          exact ⟨me, hattached, hkept.object.symm, hkept.id.symm⟩
        | error breach =>
          rw [happly] at h
          simp only at h
          rw [Manager.shutdown_eq false hmapping rfl] at h
          cases h
    · rw [Function.update_of_ne hi] at h
      exact ⟨me', h, rfl, rfl⟩

theorem Singular.perform {id : ManagerId} (h : w.Singular number i id) (hw : w.Coherent)
    (j : Nat) (operation : Operation) : (w.step (.perform j operation)).Singular number i id := by
  intro j' me' hme' hid
  obtain ⟨hattached', hobject'⟩ := member_eq_some_iff.mp hme'
  obtain ⟨me, hattached, hobject, hsame⟩ := attachment?_perform hw hattached'
  exact h j' me (member_eq_some_iff.mpr ⟨hattached, hobject.trans hobject'⟩) (hsame.trans hid)

theorem slot?_step_of_other {id : ManagerId} (hw : w.Coherent) (honly : w.Singular number i id)
    (hother : call.manager? ≠ some i) (hs : w.slot? number k = some s)
    (hs' : (w.step call).slot? number k = some s') (hheld : s'.isHeld = true)
    (howner : s'.owner = id) : s' = s := by
  obtain ⟨p, hp, hslot⟩ := exists_party_of_slot? hs
  obtain ⟨p', hp', hturn⟩ := (step_turned hw call).turn hp
  rw [slot?_of_party? hp'] at hs'
  refine hturn.eq_of_other hslot hs' hheld fun j me hj hme hid => hother ?_
  rw [(party?_eq_some_iff.mp hp).2] at hme
  rw [hj, honly j me hme (hid.trans howner)]

theorem exists_slot?_step (hw : w.Coherent) (hs : w.slot? number k = some s) (call : Call) :
    ∃ s', (w.step call).slot? number k = some s' := by
  obtain ⟨p, hp, hslot⟩ := exists_party_of_slot? hs
  obtain ⟨p', hp', hturn⟩ := (step_turned hw call).turn hp
  obtain ⟨hlt, -⟩ := List.getElem?_eq_some_iff.mp hslot
  have hlength : p'.segment.slots.length = p.segment.slots.length := hturn.alike.length
  rw [slot?_of_party? hp']
  exact ⟨_, List.getElem?_eq_getElem (hlength ▸ hlt)⟩

theorem exists_slot?_history (hrun : Run past w) (hs : w.slot? number k = some s)
    (calls : List Call) : ∃ s', (w.history calls past).2.slot? number k = some s' := by
  induction calls generalizing w past s with
  | nil => exact ⟨s, hs⟩
  | cons call calls ih =>
    obtain ⟨s₁, hs₁⟩ := exists_slot?_step hrun.coherent hs call
    exact ih (hrun.step call) hs₁

/-- What a manager holds after others have acted is as it was. -/
theorem slot?_of_others {id : ManagerId} (hrun : Run past w) (honly : w.Singular number i id)
    (hothers : ∀ call ∈ calls, call.manager? ≠ some i)
    (hbrief : calls.length ≤ 1 ∨ ∀ call ∈ calls, ∃ j operation, call = .perform j operation)
    (hs : w.slot? number k = some s) (hs' : (w.history calls past).2.slot? number k = some s')
    (hheld : s'.isHeld = true) (howner : s'.owner = id) : s' = s := by
  induction calls generalizing w past s with
  | nil =>
    cases hs.symm.trans hs'
    rfl
  | cons call calls ih =>
    obtain ⟨s₁, hs₁⟩ := exists_slot?_step hrun.coherent hs call
    -- Only a call that stands alone may change who is attached, and then it is the last one.
    have hlater : s' = s₁ := by
      rcases hbrief with hlength | hperform
      · obtain rfl : calls = [] := List.eq_nil_of_length_eq_zero (by simpa using hlength)
        cases hs₁.symm.trans hs'
        rfl
      · obtain ⟨j, operation, rfl⟩ := hperform call List.mem_cons_self
        exact ih (hrun.step _) (honly.perform hrun.coherent j operation)
          (fun c hc => hothers c (List.mem_cons_of_mem _ hc))
          (.inr fun c hc => hperform c (List.mem_cons_of_mem _ hc)) hs₁ hs'
    subst hlater
    exact slot?_step_of_other hrun.coherent honly (hothers call List.mem_cons_self) hs hs₁ hheld
      howner

end World

end SlotTransport
