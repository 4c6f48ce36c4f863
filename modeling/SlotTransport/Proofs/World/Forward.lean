/-
Where all are to see a record, readers move forward. What a manager may read comes after
all that it has claimed since it joined, so its claims rise, whatever comes back or is
written over in between, and no record is claimed twice (`broadcast_forward`). The
segment keeps the latest record that anybody has claimed, however it is read
(`Run.highest_claimed`).
-/
import SlotTransport.Proofs.World.Search

namespace SlotTransport

open Segment

/-! ## One claim -/

namespace Segment.Mapping

variable {m after : Mapping} {operation : Operation} {answer : Answer}

theorem Move.exists_noted (h : m.Move operation answer after) {q : Nat}
    (hq : operation.note? m.segment answer = some (.claimed q)) :
    ∃ (k : Nat) (s : Slot), m.slots[k]? = some s ∧ m.isReadable (s.swept m.staleness) = true ∧
      s.sequenceId = q := by
  obtain ⟨slot, s, hoperation, hanswer, hs, hid⟩ := Operation.note?_eq_claimed_iff.mp hq
  obtain ⟨t, ht, hread, -, -⟩ :=
    h.exists_claimed (Operation.claimed?_eq_some_iff.mpr ⟨hoperation, hanswer⟩)
  have hts : t = s := Option.some.inj (ht.symm.trans hs)
  subst hts
  exact ⟨slot, t, ht, hread, hid⟩

/-- Where all are to see a record, one that is claimed is later than all that the manager
has seen. -/
theorem Move.lastSeen_lt (h : m.Move operation answer after) (hlasting : m.me.destructive = false)
    {q : Nat} (hq : operation.note? m.segment answer = some (.claimed q)) : m.me.lastSeen < q := by
  obtain ⟨-, s, -, hread, rfl⟩ := h.exists_noted hq
  have hlater := lastSeen_lt_of_readable hlasting hread
  rwa [s.sequenceId_swept] at hlater

theorem Move.highest (h : m.Move operation answer after) :
    (∃ q, operation.note? m.segment answer = some (.claimed q) ∧
      after.segment.control.highestRead = max m.segment.control.highestRead q) ∨
    ((∀ q, operation.note? m.segment answer ≠ some (.claimed q)) ∧
      after.segment.control.highestRead = m.segment.control.highestRead) := by
  by_cases hclaim : operation = .claimForReading
  · subst hclaim
    cases h with
    | claimedForReading =>
      rcases m.claimForReading_cases with ⟨h, -⟩ | ⟨slot, s, hs, -, -, h⟩
      · rw [h]
        exact .inr ⟨nofun, rfl⟩
      · rw [h]
        refine .inl ⟨s.sequenceId,
          Operation.note?_eq_claimed_iff.mpr ⟨slot, s, rfl, rfl, hs, rfl⟩, ?_⟩
        rw [segment_takeForReading, s.sequenceId_swept]
        rfl
    | idle h | wrote h | read h | declared h => cases h
  · refine .inr ⟨fun q hq => ?_, ?_⟩
    · obtain ⟨_, _, heq, -⟩ := Operation.note?_eq_claimed_iff.mp hq
      exact hclaim heq
    · cases h with
      | claimedForReading => exact absurd rfl hclaim
      | claimedForWriting overwrite =>
        rcases m.claimForWriting_cases overwrite with ⟨h, -⟩ |
          ⟨before, slot, others, s, -, -, -, -, h⟩
        · rw [h]
          rfl
        · rw [h, segment_takeForWriting]
          rfl
      | _ => rfl

end Segment.Mapping

namespace World

variable {past : List Moment} {w : World} {call : Call} {number i : Nat} {p : Party}

/-! ## The claims of one manager -/

theorem claimedSince_of_absent (h : Run past w) (hnone : w.party? number = none) (i : Nat) :
    claimedSince number i past = [] := by
  refine List.filterMap_eq_nil_iff.mpr fun moment hmoment => ?_
  have hnote : moment.note? number = none :=
    note?_of_absent (h.absent hnone moment ((List.takeWhile_sublist _).subset hmoment))
  rw [Moment.claim?, hnote]

/-- Where all are to see a record, a manager claims one that comes after all that it has
claimed since it joined. -/
theorem claimed_lt_claim (hrun : Run past w) (hp : w.party? number = some p)
    (hlasting : p.segment.control.isDestructive = false) {q : Nat}
    (hq : (⟨w, call⟩ : Moment).claim? number i = some q) :
    ∀ q' ∈ claimedSince number i past, q' < q := by
  obtain ⟨operation, me, answer, after, -, hme, happly, hclaimed⟩ :=
    note?_spec hrun.coherent hp (claim?_eq_some_iff.mp hq)
  have hkept : me.destructive = false :=
    ((hrun.coherent.party hp).fits hme).destructive.trans hlasting
  have hlater : me.lastSeen < q := (Operation.apply_move happly).lastSeen_lt hkept hclaimed
  exact fun q' hq' => ((hrun.reached hp hlasting hme).all q' hq').trans_lt hlater

/-- In every run, where all are to see a record, the claims of a manager rise from its
joining on. -/
theorem Run.claims_rise (h : Run past w) (hp : w.party? number = some p)
    (hlasting : p.segment.control.isDestructive = false) (i : Nat) :
    (claimedSince number i past).Pairwise (· > ·) := by
  refine Run.party_induction (motive := fun past _ p => p.segment.control.isDestructive = false →
      (claimedSince number i past).Pairwise (· > ·))
    (fun {past w p} call hrun hnone hp _ _ => ?_)
    (fun {past w call p p'} hrun hp _ hturn ih hlasting' => ?_) h hp hlasting
  · cases hjoins : (⟨w, call⟩ : Moment).joins number i with
    | true =>
      rw [claimedSince_of_joins hjoins]
      exact .nil
    | false =>
      have hclaim : (⟨w, call⟩ : Moment).claim? number i = none := by
        rw [Moment.claim?, note?_of_absent hnone]
      rw [claimedSince_of_stays hjoins, hclaim, claimedSince_of_absent hrun hnone]
      exact .nil
  · have hlasting : p.segment.control.isDestructive = false :=
      hturn.alike.isDestructive.symm.trans hlasting'
    cases hjoins : (⟨w, call⟩ : Moment).joins number i with
    | true =>
      rw [claimedSince_of_joins hjoins]
      exact .nil
    | false =>
      rw [claimedSince_of_stays hjoins]
      cases hclaim : (⟨w, call⟩ : Moment).claim? number i with
      | none => exact ih hlasting
      | some q => exact (ih hlasting).cons (claimed_lt_claim hrun hp hlasting hclaim)

/-! ## The latest claim of all -/

/-- The sequence ids of the records that anybody has claimed for reading. -/
def claimedEver (number : Nat) (past : List Moment) : Set Nat :=
  {q | ∃ i, (i, .claimed q) ∈ ledger number past}

theorem claimedEver_of_claim {moment : Moment} {q : Nat}
    (h : moment.note? number = some (i, .claimed q)) :
    claimedEver number (moment :: past) = insert q (claimedEver number past) := by
  ext q'
  simp only [claimedEver, ledger_cons, h, Option.toList_some, List.singleton_append,
    List.mem_cons, Prod.mk.injEq, Entry.claimed.injEq, Set.mem_ofPred_eq, Set.mem_insert_iff]
  constructor
  · rintro ⟨j, ⟨-, rfl⟩ | hold⟩
    · exact .inl rfl
    · exact .inr ⟨j, hold⟩
  · rintro (rfl | ⟨j, hold⟩)
    · exact ⟨i, .inl ⟨rfl, rfl⟩⟩
    · exact ⟨j, .inr hold⟩

theorem claimedEver_of_no_claim {moment : Moment}
    (h : ∀ j q, moment.note? number ≠ some (j, .claimed q)) :
    claimedEver number (moment :: past) = claimedEver number past := by
  ext q
  simp only [claimedEver, ledger_cons, List.mem_append, Option.mem_toList, Set.mem_ofPred_eq]
  exact exists_congr fun j => or_iff_right (h j q)

/-- At a turn the latest record that was claimed changes by a claim, which may come to a
later one. -/
theorem highest_of_turn {p' : Party} (hw : w.Coherent) (hp : w.party? number = some p)
    (hturn : p.Turn number w.now call p') :
    (∃ i q, (⟨w, call⟩ : Moment).note? number = some (i, .claimed q) ∧
      p'.segment.control.highestRead = max p.segment.control.highestRead q) ∨
    ((∀ i q, (⟨w, call⟩ : Moment).note? number ≠ some (i, .claimed q)) ∧
      p'.segment.control.highestRead = p.segment.control.highestRead) := by
  have hidle : (⟨w, call⟩ : Moment).note? number = none →
      ∀ i q, (⟨w, call⟩ : Moment).note? number ≠ some (i, .claimed q) := by
    intro hnone i q
    rw [hnone]
    exact Option.some_ne_none _ |>.symm
  cases hturn with
  | others h => exact .inr ⟨hidle (note?_of_others hw hp h), rfl⟩
  | entered hcall => exact .inr ⟨hidle (note?_of_no_operation hcall), rfl⟩
  | @moved _ i operation me answer after hcall hme hmove =>
    have hnote := note?_of_moved hw hp hcall hme hmove
    rcases (Operation.apply_move hmove).highest with ⟨q, hclaimed, hhighest⟩ | ⟨hnone, hhighest⟩
    · exact .inl ⟨i, q, by rw [hnote, hclaimed]; rfl, hhighest⟩
    · refine .inr ⟨fun j q hq => hnone q ?_, hhighest⟩
      rw [hnote] at hq
      obtain ⟨entry, hentry, heq⟩ := Option.map_eq_some_iff.mp hq
      cases heq
      exact hentry
  | left hcall hbreach hme => exact .inr ⟨hidle (note?_of_left hw hp hcall hme hbreach), rfl⟩
  | ended | returned => exact .inr ⟨hidle (note?_of_no_operation rfl), rfl⟩

/-- In every run a segment keeps the latest record that anybody has claimed, whichever way
its records are read. -/
theorem Run.highest_claimed (h : Run past w) (hp : w.party? number = some p) :
    IsGreatest (insert 0 (claimedEver number past)) p.segment.control.highestRead := by
  refine Run.party_induction (motive := fun past _ p =>
      IsGreatest (insert 0 (claimedEver number past)) p.segment.control.highestRead)
    (fun {past w p} call hrun hnone _ hfresh => ?_)
    (fun {past w call p p'} hrun hp _ hturn ih => ?_) h hp
  · have hnobody : claimedEver number (⟨w, call⟩ :: past) = ∅ := by
      simp [claimedEver, ledger_cons, note?_of_absent hnone, ledger_of_absent hrun hnone]
    have hzero : p.segment.control.highestRead = 0 := by cases hfresh <;> rfl
    rw [hnobody, hzero]
    exact ⟨Set.mem_insert 0 ∅, fun q hq => by simpa using hq⟩
  · rcases highest_of_turn hrun.coherent hp hturn with ⟨i, q, hclaim, hhighest⟩ | ⟨hnone, hhighest⟩
    · rw [claimedEver_of_claim hclaim, hhighest, Set.insert_comm, max_comm]
      exact ih.insert q
    · rw [claimedEver_of_no_claim hnone, hhighest]
      exact ih

/-- **Forward.** Whatever has happened to a segment of which all are to see a record, each
manager has claimed records in the order of their sequence ids since it joined, so none
of them twice; and the segment keeps the latest that any manager has claimed, or none if
nobody has claimed any. -/
theorem broadcast_forward {past : List Moment} {w : World} (hrun : Run past w) {number : Nat}
    {segment : Segment} (hsegment : w.segment? number = some segment)
    (hlasting : segment.control.isDestructive = false) :
    (∀ i, (claimedSince number i past).Pairwise (· > ·)) ∧
      IsGreatest (insert 0 (claimedEver number past)) segment.control.highestRead := by
  have hp := party?_of_segment? hsegment
  exact ⟨hrun.claims_rise hp hlasting, hrun.highest_claimed hp⟩

/-- A reader gives back a record, which another reads then; when that one is written over
by force, the first goes on with what comes after. -/
theorem broadcast_forward_overwritten :
    let config : Segment.Config := ⟨7, 1, 8, 0, false, 0⟩
    let calls : List Call := [.attach config .manual, .attach config .manual,
      .attach config .manual, .perform 0 (.claimForWriting false), .perform 0 (.publish 0 .any),
      .perform 1 .claimForReading, .perform 1 (.reset 0), .perform 2 .claimForReading,
      .perform 2 (.release 0), .perform 0 (.claimForWriting true), .perform 0 (.publish 0 .any),
      .perform 1 .claimForReading]
    ∃ segment, (run calls).2.segment? 0 = some segment ∧
      segment.control.highestRead = 2 ∧ claimedSince 0 1 (run calls).1 = [2, 1] ∧
      (claimedSince 0 1 (run calls).1).Pairwise (· > ·) ∧
      IsGreatest (insert 0 (claimedEver 0 (run calls).1)) segment.control.highestRead := by
  intro config calls
  obtain ⟨segment, hsegment, hfacts⟩ := (Option.any_eq_true (fun segment : Segment =>
      !segment.control.isDestructive && segment.control.highestRead == 2)
    ((run calls).2.segment? 0)).mp (by decide +kernel)
  simp only [Bool.and_eq_true, Bool.not_eq_true', beq_iff_eq] at hfacts
  obtain ⟨hlasting, hhighest⟩ := hfacts
  obtain ⟨hrise, hlatest⟩ := broadcast_forward (run_run calls) hsegment hlasting
  exact ⟨segment, hsegment, hhighest, by decide +kernel, hrise 1, hlatest⟩

end World

end SlotTransport
