/-
Who belongs to an object. A manager that joins gets the number of those that
joined before it as its id, in a word of 32 bits, and is a writer from its first
claim for writing on; what it holds is nobody's once it is gone. So the object
counts its managers and its writers, ids tell managers apart, and a slot that is
held is held by a manager that is attached (`membership_exact`), as long as the
words hold the numbers: past that an id is negative (`id_of_returns`).
-/
import SlotTransport.Proofs.World.Broadcast
import SlotTransport.Proofs.World.Exclusive

namespace SlotTransport

open Segment

/-! ## Joining and staying -/

namespace World

namespace Moment

/-- Whether a manager joins the object, be it that it has just left it. -/
def joins (number i : Nat) (moment : Moment) : Bool :=
  (moment.after.member number i).isSome &&
    ((moment.before.member number i).isNone || moment.call == .reattach i)

/-- Whether somebody joins the object. -/
def isJoining (number : Nat) (moment : Moment) : Bool :=
  (List.range moment.after.managers.length).any fun i => moment.joins number i

end Moment

/-- How often somebody has joined an object. -/
def joinings (number : Nat) (past : List Moment) : Nat :=
  past.countP (·.isJoining number)

/-- What has happened since a manager joined an object, the latest first. -/
def stay (number i : Nat) (past : List Moment) : List Moment :=
  past.takeWhile fun moment => !moment.joins number i

/-- How many had joined an object when a manager did. -/
def rank (number i : Nat) (past : List Moment) : Nat :=
  joinings number (past.dropWhile fun moment => !moment.joins number i).tail

/-- Whether a manager has claimed a slot for writing since it joined. -/
def hasWritten (number i : Nat) (past : List Moment) : Bool :=
  (stay number i past).any fun moment => moment.note? number == some (i, .wrote)

/-- How many managers attached to an object have claimed a slot for writing since
they joined. -/
def authors (number : Nat) (past : List Moment) (w : World) : Nat :=
  (List.range w.managers.length).countP fun i =>
    (w.member number i).isSome && hasWritten number i past

variable {past : List Moment} {w : World} {call : Call} {moment : Moment} {number i : Nat}

theorem rank_of_joins (h : moment.joins number i = true) :
    rank number i (moment :: past) = joinings number past := by
  simp [rank, h]

theorem rank_of_stays (h : moment.joins number i = false) :
    rank number i (moment :: past) = rank number i past := by
  simp [rank, h]

theorem hasWritten_of_joins (h : moment.joins number i = true) :
    hasWritten number i (moment :: past) = false := by
  simp [hasWritten, stay, h]

theorem hasWritten_of_stays (h : moment.joins number i = false) :
    hasWritten number i (moment :: past) =
      (hasWritten number i past || moment.note? number == some (i, .wrote)) := by
  rw [Bool.or_comm]
  simp [hasWritten, stay, h]

theorem isJoining_of_joins (h : moment.joins number i = true) :
    moment.isJoining number = true := by
  have hattached : (moment.after.member number i).isSome = true := by
    simp only [Moment.joins, Bool.and_eq_true] at h
    exact h.1
  obtain ⟨me, hme⟩ := Option.isSome_iff_exists.mp hattached
  exact List.any_eq_true.mpr ⟨i, List.mem_range.mpr (lt_of_member hme), h⟩

theorem joinings_of_joins (h : moment.joins number i = true) :
    joinings number (moment :: past) = joinings number past + 1 :=
  List.countP_cons_of_pos (isJoining_of_joins h)

theorem joinings_of_none (h : ∀ i, moment.joins number i = false) :
    joinings number (moment :: past) = joinings number past :=
  List.countP_cons_of_neg (by simp [Moment.isJoining, h])

theorem joinings_of_absent (h : Run past w) (hnone : w.party? number = none) :
    joinings number past = 0 := by
  induction h with
  | start => rfl
  | @step past w call h ih =>
    have hsegment : (w.step call).segment? number = none := by simpa [party?] using hnone
    have hnobody : (w.step call).member number = fun _ => none :=
      (h.step call).coherent.member_eq_none (List.getElem?_eq_none_iff.mp hsegment)
    rw [joinings_of_none fun i => by simp [Moment.joins, Moment.after, hnobody]]
    exact ih ((step_turned h.coherent call).absent hnone)

end World

/-! ## What a turn does to those attached -/

namespace Segment

theorem Mapping.Move.isWriter {m after : Mapping} {operation : Operation} {answer : Answer}
    (h : m.Move operation answer after) : after.me.isWriter =
      (m.me.isWriter || operation.note? m.segment answer == some .wrote) := by
  by_cases hclaim : ∃ overwrite, operation = .claimForWriting overwrite
  · obtain ⟨overwrite, rfl⟩ := hclaim
    cases h with
    | claimedForWriting =>
      rcases m.claimForWriting_cases overwrite with ⟨h, -⟩ |
        ⟨before, slot, others, s, -, -, -, -, h⟩
      · simp [h, Operation.note?, sweptAt, withSlots]
      · simp [h, Operation.note?, me_takeForWriting]
    | idle h | wrote h | read h | declared h => cases h
  · have hnone : (operation.note? m.segment answer == some .wrote) = false := by
      rw [beq_eq_false_iff_ne]
      intro hwrote
      obtain ⟨overwrite, slot, heq, -⟩ := Operation.note?_eq_wrote_iff.mp hwrote
      exact hclaim ⟨overwrite, heq⟩
    rw [hnone, Bool.or_false]
    cases h with
    | claimedForWriting overwrite => exact absurd ⟨overwrite, rfl⟩ hclaim
    | claimedForReading =>
      rcases m.claimForReading_cases with ⟨h, -⟩ | ⟨slot, s, -, -, -, h⟩
      · rw [h]
        rfl
      · rw [h, me_takeForReading]
        rfl
    | _ => rfl

end Segment

namespace World

variable {w : World} {call : Call} {number i : Nat} {p p' : Party}

/-- A manager joins if and only if it is attached and was not, or has come back. -/
theorem joins_iff (hp : w.party? number = some p) (hp' : (w.step call).party? number = some p') :
    (⟨w, call⟩ : Moment).joins number i = true ↔
      (p'.member i).isSome = true ∧ (p.member i = none ∨ call = .reattach i) := by
  rw [(party?_eq_some_iff.mp hp).2, (party?_eq_some_iff.mp hp').2]
  simp [Moment.joins, Moment.after]

/-- At a turn nobody joins, or one manager does. -/
theorem joins_of_turn (hp : w.party? number = some p)
    (hp' : (w.step call).party? number = some p') (hturn : p.Turn number w.now call p') :
    (p'.segment.control.nextId = p.segment.control.nextId ∧
      ∀ i, (⟨w, call⟩ : Moment).joins number i = false) ∨
    ∃ i, p'.segment.control.nextId = p.segment.control.nextId + 1 ∧
      ∀ j, (⟨w, call⟩ : Moment).joins number j = true ↔ j = i := by
  simp only [Bool.eq_false_iff, ne_eq, joins_iff hp hp']
  cases hturn with
  | others hother =>
    refine .inl ⟨rfl, fun i => ?_⟩
    grind [Call.manager?]
  | @entered _ i hcall hnew hnone =>
    refine .inr ⟨i, rfl, fun j => ?_⟩
    simp only [Party.member_enrol, Function.update_apply]
    grind [Call.manager?]
  | @moved _ i operation me answer after hcall hme hmove =>
    refine .inl ⟨(Operation.apply_move hmove).kept.nextId, fun j => ?_⟩
    simp only [Party.member_follow, Function.update_apply]
    grind [Call.operation?]
  | @left _ i me hcall hbreach hme =>
    refine .inl ⟨rfl, fun j => ?_⟩
    simp only [Party.member_dismiss, Function.update_apply]
    grind [Call.manager?]
  | @ended i me hme =>
    refine .inl ⟨rfl, fun j => ?_⟩
    simp only [Party.member_closed, Party.member_dismiss, Function.update_apply]
    grind
  | @returned i me hme =>
    refine .inr ⟨i, rfl, fun j => ?_⟩
    simp only [Party.member_enrol, Party.member_dismiss, Function.update_apply]
    grind

theorem member_cases_of_turn (hp : w.party? number = some p)
    (hp' : (w.step call).party? number = some p') (hturn : p.Turn number w.now call p')
    {me' : Attachment} (hme' : p'.member i = some me') :
    ((⟨w, call⟩ : Moment).joins number i = true ∧
      me' = .new number p.segment.control.nextId p.segment.control) ∨
    ((⟨w, call⟩ : Moment).joins number i = false ∧
      ((call.manager? ≠ some i ∧ p.member i = some me') ∨
        ∃ operation me answer after, call.operation? = some (i, operation) ∧
          p.member i = some me ∧
          operation.apply ⟨me, w.now i, p.segment⟩ = .ok (answer, after) ∧ me' = after.me)) := by
  have hstays : ∀ me, p.member i = some me → call ≠ .reattach i →
      (⟨w, call⟩ : Moment).joins number i = false := by
    intro me hme hcall
    rw [Bool.eq_false_iff, ne_eq, joins_iff hp hp']
    rintro ⟨-, hnone | hreturns⟩
    · simp [hme] at hnone
    · exact hcall hreturns
  rcases hturn.member_cases hme' with ⟨hcall, hme⟩ | ⟨hjoins, rfl⟩ |
    ⟨operation, me, answer, after, hcall, hme, hmove, rfl⟩
  · exact .inr ⟨hstays me' hme fun heq => hcall (heq ▸ rfl), .inl ⟨hcall, hme⟩⟩
  · exact .inl ⟨(joins_iff hp hp').mpr ⟨Option.isSome_of_eq_some hme', hjoins⟩, rfl⟩
  · have hother : call ≠ .reattach i := by
      rintro rfl
      cases hcall
    exact .inr ⟨hstays me hme hother,
      .inr ⟨operation, me, answer, after, hcall, hme, hmove, rfl⟩⟩

theorem note?_of_uncalled (hw : w.Coherent) (hp : w.party? number = some p)
    (hcall : call.manager? ≠ some i) (entry : Entry) :
    (⟨w, call⟩ : Moment).note? number ≠ some (i, entry) := by
  intro hnote
  obtain ⟨operation, _, _, _, hoperation, -⟩ := note?_spec hw hp hnote
  exact hcall (Call.manager?_of_operation? hoperation)

/-- Whoever is attached after a turn has joined in it, under the next id, or was
attached before, under the same id, and is a writer if it was one or has claimed a
slot for writing. -/
theorem member_of_turn (hw : w.Coherent) (hp : w.party? number = some p)
    (hp' : (w.step call).party? number = some p') (hturn : p.Turn number w.now call p')
    {me' : Attachment} (hme' : p'.member i = some me') :
    ((⟨w, call⟩ : Moment).joins number i = true ∧
      me' = .new number p.segment.control.nextId p.segment.control) ∨
    ((⟨w, call⟩ : Moment).joins number i = false ∧ ∃ me, p.member i = some me ∧
      me'.id = me.id ∧ me'.isWriter =
        (me.isWriter || (⟨w, call⟩ : Moment).note? number == some (i, .wrote))) := by
  rcases member_cases_of_turn hp hp' hturn hme' with hjoined |
    ⟨hstays, ⟨hcall, hme⟩ | ⟨operation, me, answer, after, hcall, hme, hmove, rfl⟩⟩
  · exact .inl hjoined
  · refine .inr ⟨hstays, me', hme, rfl, ?_⟩
    rw [beq_false_of_ne (note?_of_uncalled hw hp hcall .wrote), Bool.or_false]
  · have hnote := note?_of_moved hw hp hcall hme hmove
    have hmove := Operation.apply_move hmove
    refine .inr ⟨hstays, me, hme, hmove.kept.me.id, ?_⟩
    rw [hmove.isWriter, hnote]
    congr 1
    rw [Bool.eq_iff_iff, beq_iff_eq, beq_iff_eq]
    simp

end World

/-! ## Ids and owners -/

namespace Segment

theorem Slot.not_held_reclaimed {s s' : Slot} {staleness : Staleness} {entitled : Bool}
    (h : s.reclaimed? staleness entitled = some s') : s'.isHeld = false := by
  rcases (reclaimed?_cases h).2 with ⟨-, rfl⟩ | ⟨-, rfl⟩ | ⟨-, -, -, rfl⟩ <;> rfl

theorem Slot.swept_of_held {s : Slot} {staleness : Staleness}
    (hheld : (s.swept staleness).isHeld = true) : s.swept staleness = s := by
  by_contra hne
  rw [not_held_reclaimed (reclaimed?_of_swept_ne hne)] at hheld
  cases hheld

theorem Slot.leftBy_of_held {s : Slot} {id : ManagerId} (hheld : (s.leftBy id).isHeld = true) :
    s.leftBy id = s ∧ s.owner ≠ id := by
  have hother : s.owner ≠ id := by
    rintro rfl
    cases hstate : s.state with
    | empty | full => simp [leftBy, hstate, isHeld] at hheld
    | writing | reading =>
      simp only [leftBy, if_true, hstate] at hheld
      cases hheld
  exact ⟨leftBy_of_ne (Ne.symm hother), hother⟩

theorem Mapping.Change.holder {m : Mapping} {operation : Operation} {answer : Answer} {k : Nat}
    {s s' : Slot} (h : m.Change operation answer k s s') (hheld : s'.isHeld = true) :
    s'.owner = m.me.id ∨ s.isHeld = true ∧ s'.owner = s.owner := by
  cases h with
  | kept | checked => exact .inr ⟨hheld, rfl⟩
  | wrote _ _ howner | read _ _ howner => exact .inl howner
  | swept =>
    have hsame := Slot.swept_of_held hheld
    rw [hsame] at hheld ⊢
    exact .inr ⟨hheld, rfl⟩
  | reset _ hs' =>
    rw [Slot.not_held_reclaimed hs'] at hheld
    cases hheld
  | claimedForWriting | claimedForReading => exact .inl rfl
  | published | evicted => cases hheld
  | released =>
    rcases m.released_cases s with h | h <;> rw [h] at hheld <;> cases hheld

end Segment

namespace Party

variable {number : Nat} {now : Nat → Nat} {p p' : Party} {call : World.Call}

/-- Ids are given out one after the other to those that join, in words: a rank is
the number of those that have joined before. -/
structure Ranked (p : Party) (joined : Nat) (rank : Nat → Nat) : Prop where
  next : p.segment.control.nextId = .ofNat joined
  id : ∀ {i : Nat} {me : Attachment}, p.member i = some me →
    rank i < joined ∧ me.id = .ofNat (rank i)
  distinct : ∀ {i j : Nat} {me me' : Attachment}, p.member i = some me → p.member j = some me' →
    rank i = rank j → i = j

/-- What is held is held by those attached. -/
def Owned (p : Party) : Prop :=
  ∀ {k : Nat} {s : Slot}, p.segment.slots[k]? = some s → s.isHeld = true →
    ∃ i me, p.member i = some me ∧ me.id = s.owner

theorem Owned.enrol (h : p.Owned) {i : Nat} (hnone : p.member i = none) :
    (p.enrol number i).Owned := by
  have hremains : p.Remains (p.enrol number i) := remains_enrol hnone
  intro k s hs hheld
  obtain ⟨j, me, hme, howner⟩ := h hs hheld
  obtain ⟨me', hme', hid⟩ := hremains hme
  exact ⟨j, me', hme', hid.trans howner⟩

theorem Owned.dismiss (h : p.Owned) {i : Nat} {me : Attachment} (hme : p.member i = some me) :
    (p.dismiss i me).Owned := by
  intro k s' hs' hheld
  rw [slots_dismiss] at hs'
  obtain ⟨s, hs, rfl⟩ := Option.map_eq_some_iff.mp hs'
  obtain ⟨hsame, hother⟩ := Slot.leftBy_of_held hheld
  rw [hsame] at hheld ⊢
  obtain ⟨j, me', hme', howner⟩ := h hs hheld
  refine ⟨j, me', ?_, howner⟩
  have hj : j ≠ i := by
    rintro rfl
    rw [hme] at hme'
    cases hme'
    exact hother howner.symm
  rw [member_dismiss, Function.update_of_ne hj, hme']

theorem Owned.follow (h : p.Owned) {i time : Nat} {me : Attachment} {operation : Operation}
    {answer : Answer} {after : Mapping} (hme : p.member i = some me)
    (hmove : operation.apply ⟨me, time, p.segment⟩ = .ok (answer, after)) :
    (p.follow i after).Owned := by
  have hmove := Operation.apply_move hmove
  have hid := hmove.kept.me.id
  have hremains : p.Remains (p.follow i after) := remains_follow hme hid
  intro k s' hs' hheld
  obtain ⟨s, hs, hchange⟩ := hmove.exists_change hs'
  rcases hchange.holder hheld with howner | ⟨hbefore, howner⟩
  · exact ⟨i, after.me, Function.update_self .., hid.trans howner.symm⟩
  · obtain ⟨j, me', hme', hsame⟩ := h hs hbefore
    obtain ⟨me'', hme'', hid'⟩ := hremains hme'
    exact ⟨j, me'', hme'', hid'.trans (hsame.trans howner.symm)⟩

theorem Turn.owned (hturn : p.Turn number now call p') (h : p.Owned) : p'.Owned := by
  cases hturn with
  | others => exact h
  | entered _ _ hnone => exact h.enrol hnone
  | moved _ hme hmove => exact h.follow hme hmove
  | left _ _ hme => exact Owned.dismiss h hme
  | ended hme => exact Owned.dismiss h hme
  | returned hme => exact Owned.enrol (Owned.dismiss h hme) (Function.update_self ..)

theorem Fresh.owned (h : p.Fresh number) : p.Owned := by
  intro k s hs hheld
  cases h with
  | blank size => cases hs
  | formatted now i =>
    rw [List.eq_of_mem_replicate (List.mem_of_getElem? hs)] at hheld
    cases hheld

end Party

/-! ## Every run -/

namespace World

variable {past : List Moment} {w : World} {call : Call} {number : Nat} {p p' : Party}

/-- In every run what is held is held by those attached. -/
theorem Run.owned (h : Run past w) (hp : w.party? number = some p) : p.Owned :=
  Run.party_induction (motive := fun _ _ p => p.Owned) (fun _ _ _ _ hfresh => hfresh.owned)
    (fun _ _ _ hturn ih => hturn.owned ih) h hp

theorem joins_of_fresh (hw : w.Coherent) (hnone : w.party? number = none)
    (hp : (w.step call).party? number = some p) {i : Nat} :
    (⟨w, call⟩ : Moment).joins number i = (p.member i).isSome := by
  have hsegment : w.segment? number = none := by simpa [party?] using hnone
  have hnobody := hw.member_eq_none (List.getElem?_eq_none_iff.mp hsegment)
  rw [(party?_eq_some_iff.mp hp).2]
  simp [Moment.joins, Moment.after, hnobody]

/-- In every run those attached are writers that have claimed a slot for writing. -/
theorem Run.isWriter_eq (h : Run past w) (hp : w.party? number = some p) {i : Nat}
    {me : Attachment} (hme : p.member i = some me) : me.isWriter = hasWritten number i past := by
  refine Run.party_induction (motive := fun past _ p => ∀ {i : Nat} {me : Attachment},
      p.member i = some me → me.isWriter = hasWritten number i past)
    (fun call hrun hnone hp hfresh i me hme => ?_)
    (fun {past w call p p'} hrun hp hp' hturn ih i me' hme' => ?_) h hp hme
  · obtain ⟨creator, hmember⟩ := hfresh.member
    have hjoins := joins_of_fresh hrun.coherent hnone hp (i := i)
    rw [hme] at hjoins
    rw [hasWritten_of_joins hjoins]
    exact (hmember hme).2.2
  · rcases member_of_turn hrun.coherent hp hp' hturn hme' with ⟨hjoins, rfl⟩ |
      ⟨hstays, me, hme, -, hwriter⟩
    · rw [hasWritten_of_joins hjoins]
      rfl
    · rw [hasWritten_of_stays hstays, hwriter, ih hme]

/-- In every run an id is the number of those that joined before. -/
theorem Run.ranked (h : Run past w) (hp : w.party? number = some p) :
    p.Ranked (joinings number past) fun i => rank number i past := by
  refine Run.party_induction (motive := fun past _ p =>
      p.Ranked (joinings number past) fun i => rank number i past)
    (fun {past w p} call hrun hnone hp hfresh => ?_)
    (fun {past w call p p'} hrun hp hp' hturn ih => ?_) h hp
  · have hbefore : joinings number past = 0 := joinings_of_absent hrun hnone
    have hjoins := fun i => joins_of_fresh hrun.coherent hnone hp (i := i)
    obtain ⟨creator, hmember⟩ := hfresh.member
    refine ⟨?_, fun {i me} hme => ?_, fun hme hme' _ => ?_⟩
    · cases hfresh with
      | blank size =>
        rw [joinings_of_none hjoins, hbefore]
        rfl
      | formatted now i =>
        have hcreator : (⟨w, call⟩ : Moment).joins number i = true := by simp [hjoins]
        rw [joinings_of_joins hcreator, hbefore]
        rfl
    · have hi : (⟨w, call⟩ : Moment).joins number i = true := by rw [hjoins, hme]; rfl
      rw [joinings_of_joins hi, rank_of_joins hi, hbefore, (hmember hme).2.1]
      exact ⟨Nat.one_pos, rfl⟩
    · rw [(hmember hme).1, (hmember hme').1]
  · set moment : Moment := ⟨w, call⟩
    have hle : joinings number past ≤ joinings number (moment :: past) :=
      (List.sublist_cons_self ..).countP_le
    have hone : ∀ {i j}, moment.joins number i = true → moment.joins number j = true → i = j := by
      intro i j hi hj
      rcases joins_of_turn hp hp' hturn with ⟨-, hnobody⟩ | ⟨newcomer, -, honly⟩
      · rw [hnobody] at hi
        cases hi
      · rw [(honly i).mp hi, (honly j).mp hj]
    -- A newcomer comes after all others, and the others keep their ranks.
    have hrank : ∀ {i : Nat} {me' : Attachment}, p'.member i = some me' →
        (moment.joins number i = true ∧ rank number i (moment :: past) = joinings number past ∧
          joinings number (moment :: past) = joinings number past + 1 ∧
          me'.id = .ofNat (joinings number past)) ∨
        rank number i (moment :: past) = rank number i past ∧
          ∃ me, p.member i = some me ∧ me'.id = me.id := by
      intro i me' hme'
      rcases member_of_turn hrun.coherent hp hp' hturn hme' with ⟨hjoins, rfl⟩ |
        ⟨hstays, me, hme, hid, -⟩
      · exact .inl ⟨hjoins, rank_of_joins hjoins, joinings_of_joins hjoins, ih.next⟩
      · exact .inr ⟨rank_of_stays hstays, me, hme, hid⟩
    refine ⟨?_, fun hme' => ?_, fun {i j me' me''} hme' hme'' hsame => ?_⟩
    · rcases joins_of_turn hp hp' hturn with ⟨hnext, hnobody⟩ | ⟨newcomer, hnext, honly⟩
      · rw [hnext, joinings_of_none hnobody, ih.next]
      · rw [hnext, joinings_of_joins ((honly newcomer).mpr rfl), ih.next, Int32.ofNat_add]
        rfl
    · rcases hrank hme' with ⟨-, hr, hnext, hid⟩ | ⟨hr, me, hme, hid⟩
      · exact ⟨by omega, by rw [hid, hr]⟩
      · obtain ⟨hlt, hold⟩ := ih.id hme
        exact ⟨by omega, by rw [hid, hold, hr]⟩
    · rcases hrank hme' with ⟨hi, hri, -⟩ | ⟨hri, me₁, hme₁, -⟩ <;>
        rcases hrank hme'' with ⟨hj, hrj, -⟩ | ⟨hrj, me₂, hme₂, -⟩
      · exact hone hi hj
      · have hlt := (ih.id hme₂).1
        omega
      · have hlt := (ih.id hme₁).1
        omega
      · exact ih.distinct hme₁ hme₂ (by omega)

/-- In every run those attached count as writers that have claimed a slot for
writing. -/
theorem Run.authors_eq_count (h : Run past w) (hp : w.party? number = some p) :
    authors number past w = p.count w.managers.length (·.isWriter) := by
  rw [authors, Party.count_eq_countP, ← (party?_eq_some_iff.mp hp).2]
  refine List.countP_congr fun i _ => ?_
  cases hme : p.member i with
  | none => simp
  | some me => simp [h.isWriter_eq hp hme]

/-- **Membership.** In every run an object knows who belongs to it. It counts those
attached and the writers among them, the id of a manager is the number of those
that had joined before it, the next id is the number of all that have joined, and a
slot that is held is held by somebody attached. Counts and ids are words: they are
the numbers themselves as long as fewer than 2³¹ managers are attached, and the ids
of those attached are distinct, not negative and below the next one as long as
fewer than 2³¹ have joined. -/
theorem membership_exact {past : List Moment} {w : World} (hrun : Run past w) {number : Nat}
    {segment : Segment} (hsegment : w.segment? number = some segment) :
    segment.control.attached = .ofNat (w.attendance number) ∧
      segment.control.writers = .ofNat (authors number past w) ∧
      segment.control.nextId = .ofNat (joinings number past) ∧
      (∀ i me, w.member number i = some me →
        rank number i past < joinings number past ∧ me.id = .ofNat (rank number i past)) ∧
      (∀ i j, (w.member number i).isSome → (w.member number j).isSome →
        rank number i past = rank number j past → i = j) ∧
      (∀ (k : Nat) (s : Slot), segment.slots[k]? = some s →
        s.state = .writing ∨ s.state = .reading →
          ∃ i me, w.member number i = some me ∧ s.owner = me.id) ∧
      (w.attendance number < 2 ^ 31 →
        segment.control.attached.toInt = w.attendance number ∧
          segment.control.writers.toInt = authors number past w) ∧
      (joinings number past < 2 ^ 31 → ∀ i me, w.member number i = some me →
        0 ≤ me.id.toInt ∧ me.id.toInt < segment.control.nextId.toInt ∧
          ∀ j me', w.member number j = some me' → me.id = me'.id → i = j) := by
  have hp := party?_of_segment? hsegment
  obtain ⟨hattached, hwriters⟩ := hrun.counted hp (le_refl _)
  obtain ⟨hnext, hid, hdistinct⟩ := hrun.ranked hp
  have hall := Party.count_all ⟨segment, w.member number⟩ w.managers.length
  rw [← attendance_eq_count hp] at hattached hall
  rw [← hrun.authors_eq_count hp] at hwriters hall
  refine ⟨hattached, hwriters, hnext, fun i me hme => hid hme, fun i j hi hj => ?_,
    fun k s hs hstate => ?_, fun hfew => ⟨?_, ?_⟩, fun hfew i me hme => ?_⟩
  · obtain ⟨me, hme⟩ := Option.isSome_iff_exists.mp hi
    obtain ⟨me', hme'⟩ := Option.isSome_iff_exists.mp hj
    exact hdistinct hme hme'
  · obtain ⟨i, me, hme, howner⟩ := hrun.owned hp hs (by simpa [Slot.isHeld] using hstate)
    exact ⟨i, me, hme, howner.symm⟩
  · rw [show segment.control.attached = _ from hattached, Int32.toInt_ofNat_of_lt hfew]
  · rw [show segment.control.writers = _ from hwriters, Int32.toInt_ofNat_of_lt (by omega)]
  · obtain ⟨hlt, hme_id⟩ := hid hme
    have hvalue := Int32.toInt_ofNat_of_lt (hlt.trans hfew)
    refine ⟨?_, ?_, fun j me' hme' hsame => hdistinct hme hme' ?_⟩
    · rw [hme_id, hvalue]
      exact Int.natCast_nonneg _
    · rw [show segment.control.nextId = _ from hnext, hme_id, hvalue,
        Int32.toInt_ofNat_of_lt hfew]
      exact_mod_cast hlt
    · obtain ⟨hlt', hme_id'⟩ := hid hme'
      rw [hme_id, hme_id'] at hsame
      have hvalues := congrArg Int32.toInt hsame
      rw [hvalue, Int32.toInt_ofNat_of_lt (hlt'.trans hfew)] at hvalues
      exact_mod_cast hvalues

/-- One manager writes, one comes back under another id, and one is put out for a
breach of the slot protocol. -/
theorem membership_exact_outlaw :
    let config : Segment.Config := ⟨7, 1, 8, 0, true, 0⟩
    let calls : List Call := [.attach config .manual, .attach config .manual,
      .attach config .manual, .perform 0 (.claimForWriting false), .reattach 1,
      .perform 2 (.release 0)]
    let w := (run calls).2
    ∃ segment me, w.segment? 0 = some segment ∧ w.member 0 1 = some me ∧
      segment.control.attached.toInt = 2 ∧ segment.control.writers.toInt = 1 ∧
      segment.control.nextId = 4 ∧ me.id = 3 ∧ me.id.toInt < segment.control.nextId.toInt := by
  intro config calls w
  obtain ⟨segment, hsegment⟩ := Option.isSome_iff_exists.mp
    (by decide +kernel : (w.segment? 0).isSome = true)
  obtain ⟨me, hme⟩ := Option.isSome_iff_exists.mp
    (by decide +kernel : (w.member 0 1).isSome = true)
  obtain ⟨-, -, hnext, hranks, -, -, hcounts, hids⟩ :=
    membership_exact (run_run calls) hsegment
  have hattendance : w.attendance 0 = 2 := by decide +kernel
  have hauthors : authors 0 (run calls).1 w = 1 := by decide +kernel
  have hjoinings : joinings 0 (run calls).1 = 4 := by decide +kernel
  have hrank : rank 0 1 (run calls).1 = 3 := by decide +kernel
  obtain ⟨hattached, hwriters⟩ := hcounts (hattendance.trans_lt (by decide))
  refine ⟨segment, me, hsegment, hme, ?_, ?_, ?_, ?_, (hids (by omega) 1 me hme).2.1⟩
  · rw [hattached]
    exact congrArg Nat.cast hattendance
  · rw [hwriters, hauthors]
    rfl
  · rw [hnext, hjoinings]
    rfl
  · rw [(hranks 1 me hme).2, hrank]
    rfl

/-! ## Ids are words -/

/-- Where a call leads from each world of a family to the next, so many calls lead so many
worlds on. -/
theorem history_replicate {f : Int32 → World} (h : ∀ id, (f id).step call = f (id + 1)) (n : Nat)
    (id : Int32) (past : List Moment) :
    ((f id).history (List.replicate n call) past).2 = f (id + .ofNat n) := by
  induction n generalizing id past with
  | zero => simp [history]
  | succ n ih =>
    rw [List.replicate_succ, history, h, ih, Int32.ofNat_add, Int32.add_assoc, Int32.add_comm 1]
    rfl

/-- How the segment is created that a manager keeps coming back to. -/
def loneConfig : Segment.Config :=
  ⟨7, 1, 8, 0, true, 0⟩

/-- The segment of the creator alone, which is attached, or not, under an id. -/
def loneSegment (id : ManagerId) (attached : Int32) : Segment :=
  { Segment.formatted loneConfig 200 0 with
    control := { Control.created loneConfig with nextId := id + 1, attached } }

/-- A world with one segment and its creator, attached under an id. -/
def lone (id : ManagerId) : World where
  host := { Host.new ⟨0⟩ ⟨0⟩ with names := [(7, .object 0)], objects := [loneSegment id 1] }
  managers := [some ⟨loneConfig, .manual, true, some (.new 0 id (.created loneConfig))⟩]

/-- The creator has left. -/
def forsaken (id : ManagerId) : World where
  host := { Host.new ⟨0⟩ ⟨0⟩ with names := [(7, .object 0)], objects := [loneSegment id 0] }
  managers := [some ⟨loneConfig, .manual, true, none⟩]

theorem left_lone (id : ManagerId) :
    (Mapping.mk (.new 0 id (.created loneConfig)) 0 (loneSegment id 1)).left =
      loneSegment id 0 := by
  have hfresh : (Slot.fresh 0).leftBy id = .fresh 0 := Slot.leftBy_of_not_held nofun
  have hslots : (loneSegment id 1).slots = [.fresh 0] := rfl
  have hattached : (1 : Int32) - 1 = 0 := by decide
  have hreader : (Attachment.new 0 id (.created loneConfig)).isWriter = false := rfl
  have hid : (Attachment.new 0 id (.created loneConfig)).id = id := rfl
  simp only [Mapping.left, Mapping.slots, hslots, List.map_cons, List.map_nil, hid, hfresh, hreader]
  simp [loneSegment, hattached, Segment.formatted]
  rfl

/-- Whoever leaves and comes back has the next id. -/
theorem step_reattach_lone (id : ManagerId) : (lone id).step (.reattach 0) = lone (id + 1) := by
  have hmanager : (lone id).manager? 0 =
      some ⟨loneConfig, .manual, true, some (.new 0 id (.created loneConfig))⟩ := rfl
  have hmapping : Manager.mapping?
      ⟨loneConfig, .manual, true, some (.new 0 id (.created loneConfig))⟩ (lone id).host =
        some ⟨.new 0 id (.created loneConfig), 0, loneSegment id 1⟩ := rfl
  have hleave : (lone id).act 0 Manager.detach = forsaken id := by
    rw [act_detach hmanager, Manager.shutdown_eq false hmapping rfl, left_lone]
    rfl
  show (lone id).act 0 Manager.reattach = lone (id + 1)
  rw [act_reattach, hleave]
  rfl

theorem run_reattach_lone (n : Nat) :
    (run (.attach loneConfig .manual :: List.replicate n (.reattach 0))).2 = lone (.ofNat n) := by
  have hcreated : (World.new ⟨0⟩ ⟨0⟩ fun _ => true).step (.attach loneConfig .manual) = lone 0 :=
    rfl
  rw [run, history, hcreated, history_replicate step_reattach_lone, Int32.zero_add]

theorem run_reattach_lone_append (n : Nat) (call : Call) :
    (run (.attach loneConfig .manual :: List.replicate n (.reattach 0) ++ [call])).2 =
      (lone (.ofNat n)).step call := by
  rw [← run_reattach_lone, run, history_append]
  rfl

/-- A creator that has come back 2³¹ times has a negative id. -/
theorem id_of_returns :
    let calls : List Call := .attach loneConfig .manual :: List.replicate (2 ^ 31) (.reattach 0)
    ∃ me, (run calls).2.member 0 0 = some me ∧ me.id.toInt = -2147483648 := by
  intro calls
  have hw : (run calls).2 = lone (.ofNat (2 ^ 31)) := run_reattach_lone (2 ^ 31)
  rw [hw]
  exact ⟨_, rfl, by decide⟩

end World

end SlotTransport
