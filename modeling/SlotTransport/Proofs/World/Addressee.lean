/-
Records that are meant for one manager. The slot of a record is open when somebody reads
it or anybody may; every way back from a reader, be it a reset, a sweep, a release or a
reader that leaves, opens a slot only if its record was claimed before (`Run.opened`).
So a record that was published for a manager waits for that manager: its first reader is
the manager, and until then it is nothing to all others (`addressee_first`).
-/
import SlotTransport.Proofs.World.Forward
import SlotTransport.Proofs.World.Readiness

namespace SlotTransport

open Segment

/-! ## Open slots -/

namespace Segment

/-- The record of a slot is being read, or is there for anybody to read. -/
def Slot.IsOpen (s : Slot) : Prop :=
  s.state = .reading ∨ s.state = .full ∧ s.owner = noOwner

namespace Slot

variable {s s' : Slot}

theorem isOpen_of_reclaimed {staleness : Staleness} {entitled : Bool}
    (h : s.reclaimed? staleness entitled = some s') (hopen : s'.IsOpen) : s.IsOpen := by
  rcases (reclaimed?_cases h).2 with ⟨hreading, -⟩ | ⟨-, rfl⟩ | ⟨-, -, -, rfl⟩
  · exact .inl hreading
  · rcases hopen with h | ⟨h, -⟩ <;> cases h
  · rcases hopen with h | ⟨h, -⟩ <;> cases h

theorem isOpen_of_swept {staleness : Staleness} (hopen : (s.swept staleness).IsOpen) :
    s.IsOpen := by
  by_cases hkept : s.swept staleness = s
  · exact hkept ▸ hopen
  · exact isOpen_of_reclaimed (reclaimed?_of_swept_ne hkept) hopen

theorem isOpen_of_leftBy {id : ManagerId} (hopen : (s.leftBy id).IsOpen) : s.IsOpen := by
  rcases s.leftBy_cases id with hkept | ⟨-, -, hleft⟩ | ⟨-, hreading, -⟩
  · exact hkept ▸ hopen
  · rw [hleft] at hopen
    rcases hopen with h | ⟨h, -⟩ <;> cases h
  · exact .inl hreading

/-- Nobody reads the slot, and if it is full, it is for one manager. -/
structure IsFor (s : Slot) (d : ManagerId) : Prop where
  unread : s.state ≠ .reading
  meant : s.state = .full → s.owner = d

theorem IsFor.swept {d : ManagerId} (h : s.IsFor d) (staleness : Staleness) :
    (s.swept staleness).IsFor d := by
  rcases s.swept_cases staleness with hkept | ⟨-, hreading, -⟩ | ⟨-, -, hfreed⟩ | ⟨-, -, -, hfreed⟩
  · exact hkept.symm ▸ h
  · exact absurd hreading h.unread
  all_goals
    rw [hfreed]
    exact ⟨by simp, by simp⟩

theorem IsFor.id_of_readable {d : ManagerId} (h : s.IsFor d) (hd : d ≠ noOwner) {m : Mapping}
    (hread : m.isReadable s = true) : m.me.id = d := by
  simp only [Mapping.isReadable, isAddressedTo, Bool.and_eq_true, Bool.or_eq_true,
    beq_iff_eq] at hread
  obtain ⟨⟨hfull, howner⟩, -⟩ := hread
  rw [h.meant hfull] at howner
  exact (howner.resolve_left hd).symm

end Slot

namespace Mapping

variable {m after : Mapping} {operation : Operation} {answer : Answer}

/-- A slot that is open was so with the same record, or the record has just been claimed,
or published for anybody. -/
theorem Move.opened (h : m.Move operation answer after) {k : Nat} {s' : Slot}
    (hs' : after.slots[k]? = some s') (hopen : s'.IsOpen) :
    (∃ s, m.slots[k]? = some s ∧ s.IsOpen ∧ s.sequenceId = s'.sequenceId) ∨
    operation.note? m.segment answer = some (.claimed s'.sequenceId) ∨
    ∃ destination, operation.issue? m.segment answer = some (s'.sequenceId, destination) ∧
      destination.owner = noOwner := by
  obtain ⟨s, hs, hchange⟩ := h.exists_change hs'
  cases hchange with
  | kept | checked => exact .inl ⟨_, hs, hopen, rfl⟩
  | wrote _ hstate =>
    have hwriting : s.state = .reading ∨ s.state = .full :=
      hopen.imp id And.left
    rw [hstate] at hwriting
    rcases hwriting with h | h <;> cases h
  | read _ hstate => exact .inl ⟨s, hs, .inl hstate, rfl⟩
  | swept =>
    exact .inl ⟨s, hs, Slot.isOpen_of_swept hopen, (s.sequenceId_swept _).symm⟩
  | reset _ hreset =>
    exact .inl ⟨s, hs, Slot.isOpen_of_reclaimed hreset hopen,
      (Slot.sequenceId_reclaimed hreset).symm⟩
  | claimedForWriting | evicted => rcases hopen with h | ⟨h, -⟩ <;> cases h
  | claimedForReading hclaim hanswer =>
    refine .inr (.inl (Operation.note?_eq_claimed_iff.mpr ⟨k, s, hclaim, hanswer, hs, ?_⟩))
    exact (s.sequenceId_swept _).symm
  | released _ hstate =>
    refine .inl ⟨s, hs, .inl hstate, ?_⟩
    rcases m.released_cases s with h | h <;> rw [h] <;> rfl
  | @published destination hpublish hword =>
    subst hpublish
    cases h with
    | wrote htransfer | read htransfer => cases htransfer
    | declared hdeclared => cases hdeclared
    | idle =>
      -- Nothing has changed, but `s` is being written.
      rw [hs] at hs'
      have hstate : s.state = .full := by rw [Option.some.inj hs']; rfl
      rw [Slot.state, hword] at hstate
      cases hstate
    | published =>
      rcases hopen with hreading | ⟨-, hanybody⟩
      · cases hreading
      · exact .inr (.inr ⟨destination, rfl, hanybody⟩)

end Mapping

end Segment

/-! ## Opened records -/

namespace Party

variable {p p' : Party} {number : Nat} {claimed : Set Nat} {issued : List (Nat × Destination)}

/-- The record of an open slot was claimed, or published for anybody. -/
structure Opened (p : Party) (claimed : Set Nat) (issued : List (Nat × Destination)) : Prop where
  record : ∀ {k : Nat} {s : Slot}, p.segment.slots[k]? = some s → s.IsOpen →
    s.sequenceId ∈ claimed ∨
      ∃ destination, (s.sequenceId, destination) ∈ issued ∧ destination.owner = noOwner

theorem Opened.dismiss (h : p.Opened claimed issued) (i : Nat) (me : Attachment) :
    (p.dismiss i me).Opened claimed issued where
  record {k s'} hs' hopen := by
    rw [slots_dismiss] at hs'
    obtain ⟨s, hs, rfl⟩ := Option.map_eq_some_iff.mp hs'
    rw [s.sequenceId_leftBy me.id]
    exact h.record hs (Slot.isOpen_of_leftBy hopen)

theorem Fresh.opened (h : p.Fresh number) : p.Opened claimed issued where
  record {k s} hs hopen := by
    cases h with
    | blank size => cases hs
    | formatted now i =>
      have hfresh : s = .fresh now := List.eq_of_mem_replicate (List.mem_of_getElem? hs)
      rw [hfresh] at hopen
      rcases hopen with h | ⟨h, -⟩ <;> cases h

end Party

namespace World

variable {past : List Moment} {w : World} {call : Call} {number i : Nat} {p p' : Party}

theorem suffix_history (w : World) (calls : List Call) (past : List Moment) :
    past <:+ (w.history calls past).1 := by
  induction calls generalizing w past with
  | nil => exact List.suffix_rfl
  | cons call calls ih => exact (List.suffix_cons ..).trans (ih _ _)

theorem suffix_run (calls : List Call) (call : Call) (later : List Call) :
    ⟨(run calls).2, call⟩ :: (run calls).1 <:+ (run (calls ++ call :: later)).1 := by
  unfold run
  rw [history_append]
  exact suffix_history _ later _

theorem issued_of_suffix {earlier : List Moment} (hsuffix : earlier <:+ past)
    {record : Nat × Destination} (h : record ∈ issued number earlier) :
    record ∈ issued number past :=
  (hsuffix.sublist.filterMap _).subset h

/-- At a turn a slot opens with a claim of its record, or with its publication. -/
theorem opened_of_turn (hw : w.Coherent) (hp : w.party? number = some p)
    (hturn : p.Turn number w.now call p')
    (h : p.Opened (claimedEver number past) (issued number past)) :
    p'.Opened (claimedEver number (⟨w, call⟩ :: past)) (issued number (⟨w, call⟩ :: past)) := by
  have hlater : ∀ {p' : Party}, p'.Opened (claimedEver number past) (issued number past) →
      p'.Opened (claimedEver number (⟨w, call⟩ :: past)) (issued number (⟨w, call⟩ :: past)) := by
    refine fun h => ⟨fun hs hopen => (h.record hs hopen).imp ?_ ?_⟩
    · rintro ⟨i, hclaimed⟩
      exact ⟨i, (List.suffix_cons ..).sublist.filterMap _ |>.subset hclaimed⟩
    · rintro ⟨destination, hissued, hanybody⟩
      exact ⟨destination, issued_of_suffix (List.suffix_cons ..) hissued, hanybody⟩
  cases hturn with
  | others => exact hlater h
  | entered => exact hlater ⟨h.record⟩
  | left => exact hlater (h.dismiss _ _)
  | @ended i me | @returned i me => exact hlater ⟨(h.dismiss i me).record⟩
  | @moved _ i operation me answer after hcall hme hmove =>
    refine ⟨fun {k s'} hs' hopen => ?_⟩
    rcases (Operation.apply_move hmove).opened hs' hopen with
      ⟨s, hs, hbefore, hid⟩ | hclaimed | ⟨destination, hissue, hanybody⟩
    · rw [← hid]
      exact (hlater h).record hs hbefore
    · refine .inl ⟨i, ?_⟩
      rw [ledger_cons, note?_of_moved hw hp hcall hme hmove, hclaimed]
      exact List.mem_cons_self
    · refine .inr ⟨destination, ?_, hanybody⟩
      rw [issued_cons, Moment.issue?, deed?_of_moved hw hp hcall hme hmove, Option.bind_some,
        hissue]
      exact List.mem_cons_self

/-- In every run the record of an open slot was claimed, or published for anybody. -/
theorem Run.opened (h : Run past w) (hp : w.party? number = some p) :
    p.Opened (claimedEver number past) (issued number past) :=
  Run.party_induction
    (motive := fun past _ p => p.Opened (claimedEver number past) (issued number past))
    (fun _ _ _ _ hfresh => hfresh.opened)
    (fun hrun hp _ hturn ih => opened_of_turn hrun.coherent hp hturn ih) h hp

/-! ## Records that wait for their addressee -/

theorem Run.of_suffix (h : Run past w) {moment : Moment} {earlier : List Moment}
    (hsuffix : moment :: earlier <:+ past) : Run earlier moment.before := by
  induction h with
  | start => cases List.suffix_nil.mp hsuffix
  | step call h ih =>
    rcases List.suffix_cons_iff.mp hsuffix with heq | hearlier
    · cases heq
      exact h
    · exact ih hearlier

/-- Until it is claimed, the slot of a record that is meant for one manager is for that
manager. -/
theorem Run.isFor (h : Run past w) (hp : w.party? number = some p) {q : Nat} {d : ManagerId}
    (hmeant : ∀ destination, (q, destination) ∈ issued number past → destination = .manager d)
    (hd : d ≠ noOwner) (hunclaimed : q ∉ claimedEver number past) {k : Nat} {s : Slot}
    (hs : p.segment.slots[k]? = some s) (hid : s.sequenceId = q) : s.IsFor d := by
  subst hid
  have hclosed : ¬ s.IsOpen := by
    intro hopen
    rcases (h.opened hp).record hs hopen with hclaimed | ⟨destination, hissued, hanybody⟩
    · exact hunclaimed hclaimed
    · rw [hmeant destination hissued] at hanybody
      exact hd hanybody
  refine ⟨fun hreading => hclosed (.inl hreading), fun hfull => ?_⟩
  have howner : s.owner ≠ noOwner := fun hanybody => hclosed (.inr ⟨hfull, hanybody⟩)
  have hfor := hmeant _ ((h.addressed hp).meant hs hfull howner)
  exact Destination.manager.inj hfor

/-- Who claims a record that is for one manager is that manager. -/
theorem id_of_claim (hw : w.Coherent) (hp : w.party? number = some p) {q : Nat} {d : ManagerId}
    (hfor : ∀ (k : Nat) (s : Slot), p.segment.slots[k]? = some s → s.sequenceId = q → s.IsFor d)
    (hd : d ≠ noOwner) (h : (⟨w, call⟩ : Moment).note? number = some (i, .claimed q)) :
    ∃ me, p.member i = some me ∧ me.id = d := by
  obtain ⟨operation, me, answer, after, -, hme, happly, hclaimed⟩ := note?_spec hw hp h
  obtain ⟨k, s, hs, hread, hid⟩ := (Operation.apply_move happly).exists_noted hclaimed
  exact ⟨me, hme, ((hfor k s hs hid).swept _).id_of_readable hd hread⟩

theorem sees_of_member (hw : w.Coherent) (hp : w.party? number = some p) {me : Attachment}
    (hme : p.member i = some me) : ∃ manager, w.manager? i = some manager ∧
      manager.mapping? w.host = some ⟨me, w.now i, p.segment⟩ := by
  obtain ⟨hattached, hobject⟩ := member_eq_some_iff.mp ((party?_eq_some_iff.mp hp).2 ▸ hme)
  obtain ⟨manager, hmanager, hmanagerMe⟩ := Option.bind_eq_some_iff.mp hattached
  exact ⟨manager, hmanager, hw.mapping?_of_party hmanager hmanagerMe (hobject ▸ hp)⟩

theorem mayRead_eq (hw : w.Coherent) (hp : w.party? number = some p) {me : Attachment}
    (hme : p.member i = some me) (k : Nat) :
    w.mayRead i k = (p.segment.slots[k]?).any (Mapping.mk me (w.now i) p.segment).isReadable := by
  obtain ⟨manager, hmanager, hmapping⟩ := sees_of_member hw hp hme
  rw [mayRead, hmanager, Option.bind_some, hmapping]
  rfl

theorem readableCount_eq (hw : w.Coherent) (hp : w.party? number = some p) {me : Attachment}
    (hme : p.member i = some me) : ∃ manager, w.manager? i = some manager ∧
      manager.readableCount w.host =
        (List.range p.segment.slots.length).countP (w.mayRead i) := by
  obtain ⟨manager, hmanager, hmapping⟩ := sees_of_member hw hp hme
  refine ⟨manager, hmanager, ?_⟩
  rw [readableCount_of_mapping? hmapping, funext (mayRead_eq hw hp hme)]
  exact (countP_range_getElem? _ _).symm

/-- A record that is for another manager is not there for a manager: it may not read it,
its claim comes to something else, and to release it is a violation. -/
theorem hidden_of_isFor (hw : w.Coherent) (hp : w.party? number = some p) {me : Attachment}
    (hme : p.member i = some me) {k : Nat} {s : Slot} (hs : p.segment.slots[k]? = some s)
    {d : ManagerId} (hfor : s.IsFor d) (hd : d ≠ noOwner) (hother : me.id ≠ d) :
    w.mayRead i k = false ∧ w.answer? i .claimForReading ≠ some (.ok (.slot (some k))) ∧
      ∃ breach, w.answer? i (.release k) = some (.error (.violation breach)) := by
  refine ⟨?_, fun hclaim => ?_, ?_⟩
  · rw [mayRead_eq hw hp hme, hs, Option.any_some, Bool.eq_false_iff]
    exact fun hread => hother (hfor.id_of_readable hd hread)
  · obtain ⟨after, happly⟩ := hw.apply_of_answer? hp hme hclaim
    obtain ⟨t, ht, hread, -, -⟩ := (Operation.apply_move happly).exists_claimed
      (Operation.claimed?_eq_some_iff.mpr ⟨rfl, rfl⟩)
    have hts : t = s := Option.some.inj (ht.symm.trans hs)
    subst hts
    exact hother ((hfor.swept _).id_of_readable hd hread)
  · rw [hw.answer?_eq hp hme]
    cases happly : (Operation.release k).apply ⟨me, w.now i, p.segment⟩ with
    | ok told =>
      obtain ⟨answer, after⟩ := told
      exact absurd (Operation.held_of_release happly hs).1 hfor.unread
    | error breach => exact ⟨breach, rfl⟩

/-- **The addressee first.** Take a record that was published for the manager of an id,
which is not the one that stands for anybody, in any run. The first who claims it for
reading, if anybody does, is attached under that id. Until then no other manager that is
attached may read its slot, which is what its readiness counts, or gets it by a claim for
reading, and to release it is a violation. -/
theorem addressee_first {past : List Moment} {w : World} (hrun : Run past w) {number : Nat}
    {segment : Segment} (hsegment : w.segment? number = some segment) {q : Nat} {d : ManagerId}
    (hissued : (q, .manager d) ∈ issued number past) (hd : d ≠ noOwner) :
    (∀ (moment : Moment) (earlier : List Moment) (i : Nat), moment :: earlier <:+ past →
      moment.note? number = some (i, .claimed q) → q ∉ claimedEver number earlier →
        ∃ me, moment.before.member number i = some me ∧ me.id = d) ∧
    (q ∉ claimedEver number past →
      ∀ (i : Nat) (me : Attachment), w.member number i = some me → me.id ≠ d →
        (∃ manager, w.manager? i = some manager ∧
          manager.readableCount w.host = (List.range segment.slots.length).countP (w.mayRead i)) ∧
        ∀ (k : Nat) (s : Slot), segment.slots[k]? = some s → s.sequenceId = q →
          w.mayRead i k = false ∧ w.answer? i .claimForReading ≠ some (.ok (.slot (some k))) ∧
            ∃ breach, w.answer? i (.release k) = some (.error (.violation breach))) := by
  have hp := party?_of_segment? hsegment
  have hmeant : ∀ destination, (q, destination) ∈ issued number past →
      destination = .manager d := fun _ h => (hrun.addressed hp).unique h hissued
  refine ⟨fun moment earlier i hsuffix hclaim hunclaimed => ?_, fun hunclaimed i me hme hother =>
    ⟨?_, fun k s hs hid => ?_⟩⟩
  · have hearlier := hrun.of_suffix hsuffix
    cases hp₁ : moment.before.party? number with
    | none =>
      rw [note?_of_absent hp₁] at hclaim
      cases hclaim
    | some p₁ =>
      have hfor : ∀ (k : Nat) (s : Slot), p₁.segment.slots[k]? = some s → s.sequenceId = q →
          s.IsFor d := fun k s hs hid => hearlier.isFor hp₁
        (fun destination h => hmeant destination
          (issued_of_suffix ((List.suffix_cons ..).trans hsuffix) h)) hd hunclaimed hs hid
      rw [← (party?_eq_some_iff.mp hp₁).2]
      exact id_of_claim hearlier.coherent hp₁ hfor hd hclaim
  · exact readableCount_eq hrun.coherent hp hme
  · exact hidden_of_isFor hrun.coherent hp hme hs
      (hrun.isFor hp hmeant hd hunclaimed hs hid) hd hother

/-- A record for the manager of id 2 has been claimed by nobody, although another manager has
tried to; once it has claimed it and given it back, the other has claimed it too. -/
theorem addressee_first_given_back :
    let config : Segment.Config := ⟨7, 1, 8, 0, false, 0⟩
    let waiting : List Call := [.attach config .manual, .attach config .manual,
      .attach config .manual, .perform 0 (.claimForWriting false),
      .perform 0 (.publish 0 (.manager 2)), .perform 1 .claimForReading, .perform 1 (.reset 0)]
    let claimed := waiting ++ [.perform 2 .claimForReading, .perform 2 (.reset 0),
      .perform 1 .claimForReading]
    (run waiting).2.mayRead 1 0 = false ∧
      (∃ breach, (run waiting).2.answer? 1 (.release 0) = some (.error (.violation breach))) ∧
      ledger 0 (run claimed).1 = [(1, .claimed 1), (2, .claimed 1), (0, .wrote)] ∧
      ∃ me, (run waiting).2.member 0 2 = some me ∧ me.id = 2 := by
  intro config waiting claimed
  have hissued : ∀ calls ∈ [waiting, claimed],
      (1, Destination.manager 2) ∈ issued 0 (run calls).1 := by decide +kernel
  have hunclaimed : (1 : Nat) ∉ claimedEver 0 (run waiting).1 := by
    have hledger : ledger 0 (run waiting).1 = [(0, .wrote)] := by decide +kernel
    simp [claimedEver, hledger]
  obtain ⟨segment, hsegment, hslot⟩ := (Option.any_eq_true
    (fun segment : Segment => (segment.slots[0]?).any (·.sequenceId == 1))
    ((run waiting).2.segment? 0)).mp (by decide +kernel)
  obtain ⟨s, hs, hid⟩ := (Option.any_eq_true ..).mp hslot
  obtain ⟨me, hme, hother⟩ := (Option.any_eq_true (fun me : Attachment => me.id != 2)
    ((run waiting).2.member 0 1)).mp (by decide +kernel)
  obtain ⟨hmay, -, hrelease⟩ := ((addressee_first (run_run waiting) hsegment
    (hissued _ (by simp)) (by decide)).2 hunclaimed 1 me hme (by simpa using hother)).2 0 s hs
    (by simpa using hid)
  obtain ⟨segment', hsegment'⟩ := Option.isSome_iff_exists.mp
    (by decide +kernel : ((run claimed).2.segment? 0).isSome = true)
  have hfirst := (addressee_first (run_run claimed) hsegment' (hissued _ (by simp)) (by decide)).1
    ⟨(run waiting).2, .perform 2 .claimForReading⟩ (run waiting).1 2 (suffix_run ..)
    (by decide +kernel) hunclaimed
  simp only at hfirst
  exact ⟨hmay, hrelease, by decide +kernel, hfirst⟩

end World

end SlotTransport
