/-
Who is attached to an object. The object counts those attached to it and the
writers among them in words of its own; in every run these are the numbers of
managers attached and of writers (`Run.counted`), up to what 32 bits hold.
-/
import Mathlib.Algebra.BigOperators.Group.Finset.Piecewise
import SlotTransport.Proofs.World.Coherent

namespace SlotTransport

open Segment

namespace Party

/-- How many of the first `n` managers are attached in such a way. -/
def count (p : Party) (n : Nat) (f : Attachment → Bool) : Nat :=
  ∑ i ∈ Finset.range n, ((p.member i).any f).toNat

/-- Nobody but the first `n` managers is attached. -/
def Within (p : Party) (n : Nat) : Prop :=
  ∀ {i : Nat} {me : Attachment}, p.member i = some me → i < n

variable {p : Party} {n number : Nat}

theorem count_update (p : Party) {i : Nat} (hi : i < n) (segment : Segment)
    (manager : Option Attachment) (f : Attachment → Bool) :
    count ⟨segment, Function.update p.member i manager⟩ n f + ((p.member i).any f).toNat =
      p.count n f + (manager.any f).toNat := by
  have hmem : i ∈ Finset.range n := Finset.mem_range.mpr hi
  have hupdate : (fun j => ((Function.update p.member i manager j).any f).toNat) =
      Function.update (fun j => ((p.member j).any f).toNat) i (manager.any f).toNat := by
    funext j
    by_cases hj : j = i
    · subst hj
      simp
    · simp [Function.update_of_ne hj]
  have hrest := Finset.add_sum_erase _ (fun j => ((p.member j).any f).toNat) hmem
  simp only [count, hupdate, Finset.sum_update_of_mem hmem, Finset.sdiff_singleton_eq_erase]
  omega

theorem count_enrol {i : Nat} (hi : i < n) (hnone : p.member i = none) (f : Attachment → Bool) :
    (p.enrol number i).count n f =
      p.count n f + (f (.new number p.segment.control.nextId p.segment.control)).toNat := by
  have hupdate := p.count_update hi p.segment.joined
    (some (.new number p.segment.control.nextId p.segment.control)) f
  rw [hnone] at hupdate
  exact hupdate

theorem count_dismiss {i : Nat} {me : Attachment} (hi : i < n) (hme : p.member i = some me)
    (f : Attachment → Bool) : (p.dismiss i me).count n f + (f me).toNat = p.count n f := by
  have hupdate := p.count_update hi (Mapping.mk me 0 p.segment).left none f
  rw [hme] at hupdate
  exact hupdate

theorem count_follow {i : Nat} {me : Attachment} (hi : i < n) (hme : p.member i = some me)
    (after : Mapping) (f : Attachment → Bool) :
    (p.follow i after).count n f + (f me).toNat = p.count n f + (f after.me).toNat := by
  have hupdate := p.count_update hi after.segment (some after.me) f
  rw [hme] at hupdate
  exact hupdate

theorem count_pos {i : Nat} {me : Attachment} (hi : i < n) (hme : p.member i = some me) :
    0 < p.count n fun _ => true := by
  have hcount := count_dismiss hi hme fun _ => true
  rw [Bool.toNat_true] at hcount
  omega

theorem count_eq_countP (p : Party) (n : Nat) (f : Attachment → Bool) :
    p.count n f = (List.range n).countP fun i => (p.member i).any f := by
  unfold count
  induction n with
  | zero => rfl
  | succ n ih =>
    rw [Finset.sum_range_succ, ih, List.range_succ, List.countP_append]
    cases h : (p.member n).any f <;> simp [h]

theorem count_all (p : Party) (n : Nat) :
    p.count n (fun _ => true) = p.count n (·.isWriter) + p.count n (!·.isWriter) := by
  unfold count
  rw [← Finset.sum_add_distrib]
  refine Finset.sum_congr rfl fun i _ => ?_
  cases p.member i with
  | none => rfl
  | some me => cases h : me.isWriter <;> simp [h]

/-- The object counts its managers and its writers. -/
structure Counted (p : Party) (n : Nat) : Prop where
  attached : p.segment.control.attached = .ofNat (p.count n fun _ => true)
  writers : p.segment.control.writers = .ofNat (p.count n (·.isWriter))

theorem ofNat_sub_of_add {a b c : Nat} (h : a + b = c) :
    Int32.ofNat c - Int32.ofNat b = Int32.ofNat a := by
  rw [← h, Int32.ofNat_add, Int32.add_sub_cancel]

theorem Counted.enrol (h : p.Counted n) {i : Nat} (hi : i < n) (hnone : p.member i = none) :
    (p.enrol number i).Counted n := by
  refine ⟨?_, ?_⟩
  · rw [count_enrol hi hnone, Bool.toNat_true, Int32.ofNat_add, ← h.attached]
    rfl
  · have hreader : (Attachment.new number p.segment.control.nextId p.segment.control).isWriter =
        false := rfl
    rw [count_enrol hi hnone, hreader]
    exact h.writers

theorem Counted.dismiss (h : p.Counted n) {i : Nat} {me : Attachment} (hi : i < n)
    (hme : p.member i = some me) : (p.dismiss i me).Counted n := by
  have hcount := count_dismiss hi hme
  refine ⟨?_, ?_⟩
  · rw [← ofNat_sub_of_add (hcount fun _ => true), ← h.attached]
    rfl
  · rw [← ofNat_sub_of_add (hcount (·.isWriter)), ← h.writers]
    cases hwriter : me.isWriter <;> simp [Party.dismiss, Mapping.left, hwriter]

end Party

theorem Segment.Mapping.Move.writers {m after : Mapping} {operation : Operation} {answer : Answer}
    (h : m.Move operation answer after) :
    after.me.isWriter = m.me.isWriter ∧
        after.segment.control.writers = m.segment.control.writers ∨
      after.me.isWriter = true ∧ after.segment.control.writers =
        m.segment.control.writers + if m.me.isWriter then 0 else 1 := by
  cases h with
  | claimedForWriting overwrite =>
    rcases m.claimForWriting_cases overwrite with ⟨h, -⟩ | ⟨before, slot, others, s, -, -, -, -, h⟩
    · rw [h]
      exact .inl ⟨rfl, rfl⟩
    · rw [h]
      refine .inr ⟨?_, ?_⟩
      · rw [me_takeForWriting]
      · rw [segment_takeForWriting]
        rfl
  | claimedForReading =>
    rcases m.claimForReading_cases with ⟨h, -⟩ | ⟨slot, s, -, -, -, h⟩
    · rw [h]
      exact .inl ⟨rfl, rfl⟩
    · rw [h]
      refine .inl ⟨?_, ?_⟩
      · rw [me_takeForReading]
        rfl
      · rw [segment_takeForReading]
        rfl
  | _ => exact .inl ⟨rfl, rfl⟩

namespace Party

variable {p p' : Party} {n number : Nat} {now : Nat → Nat} {call : World.Call}

theorem Counted.follow (h : p.Counted n) {i time : Nat} {me : Attachment} {operation : Operation}
    {answer : Answer} {after : Mapping} (hi : i < n) (hme : p.member i = some me)
    (hmove : operation.apply ⟨me, time, p.segment⟩ = .ok (answer, after)) :
    (p.follow i after).Counted n := by
  have hmove := Operation.apply_move hmove
  have hcount := count_follow hi hme after
  refine ⟨?_, ?_⟩
  · rw [Nat.add_right_cancel (hcount fun _ => true), ← h.attached]
    exact hmove.kept.attached
  · have hwriters := hcount (·.isWriter)
    rcases hmove.writers with ⟨hsame, hword⟩ | ⟨hnow, hword⟩
    · rw [hsame] at hwriters
      rw [Nat.add_right_cancel hwriters, ← h.writers]
      exact hword
    · rw [hnow] at hwriters
      show after.segment.control.writers = _
      rw [hword]
      cases hwriter : me.isWriter with
      | true =>
        rw [hwriter] at hwriters
        rw [Nat.add_right_cancel hwriters, ← h.writers]
        simp
      | false =>
        rw [hwriter, Bool.toNat_false, Nat.add_zero, Bool.toNat_true] at hwriters
        rw [hwriters, Int32.ofNat_add, ← h.writers]
        simp

theorem Turn.counted (hturn : p.Turn number now call p') (hp : p.Within n) (hp' : p'.Within n)
    (h : p.Counted n) : p'.Counted n := by
  cases hturn with
  | others => exact h
  | @entered _ i hcall hnew hnone =>
    have hnew : (p.enrol number i).member i = some _ := Function.update_self ..
    exact h.enrol (hp' hnew) hnone
  | moved _ hme hmove => exact h.follow (hp hme) hme hmove
  | left _ _ hme => exact h.dismiss (hp hme) hme
  | ended hme => exact ⟨(h.dismiss (hp hme) hme).attached, (h.dismiss (hp hme) hme).writers⟩
  | returned hme =>
    exact (h.dismiss (hp hme) hme).enrol (hp hme) (Function.update_self ..)

theorem Fresh.counted (h : p.Fresh number) (hp : p.Within n) : p.Counted n := by
  have hnobody : ∀ segment : Segment, ∀ f, count ⟨segment, fun _ => none⟩ n f = 0 := by
    intro segment f
    simp [count]
  cases h with
  | blank size => exact ⟨by rw [hnobody]; rfl, by rw [hnobody]; rfl⟩
  | @formatted config size now i =>
    have hcreator : (Function.update (fun _ => none) i
        (some (.new number creatorId (.created config))) : Nat → Option Attachment) i =
          some (.new number creatorId (.created config)) := Function.update_self ..
    have hi : i < n := hp hcreator
    have hcount := count_update ⟨.formatted config size.toNat now, fun _ => none⟩ hi
      (.formatted config size.toNat now)
      (some (Attachment.new number creatorId (.created config)))
    simp only [hnobody, Option.any_none, Option.any_some, Bool.toNat_false, Nat.add_zero,
      Nat.zero_add] at hcount
    exact ⟨by rw [hcount]; rfl, by rw [hcount]; rfl⟩

theorem Counted.readers_eq (h : p.Counted n) :
    p.segment.control.readers = max (Int32.ofNat (p.count n (!·.isWriter))).toInt.toNat 1 := by
  have hsplit := (Nat.add_comm ..).trans (p.count_all n).symm
  rw [Control.readers, h.attached, h.writers, ofNat_sub_of_add hsplit]

/-- The readers of a record are those that are attached and no writers, where 32
bits hold their number. -/
theorem Counted.readers (h : p.Counted n) (hfew : p.count n (!·.isWriter) < 2 ^ 31) :
    p.segment.control.readers = max (p.count n (!·.isWriter)) 1 := by
  rw [h.readers_eq, Int32.toInt_ofNat_of_lt hfew, Int.toNat_natCast]

/-- There are no more readers than are attached and no writers, whatever 32 bits hold. -/
theorem Counted.readers_le (h : p.Counted n) :
    p.segment.control.readers ≤ max (p.count n (!·.isWriter)) 1 := by
  rw [h.readers_eq, Int32.toInt_ofNat']
  refine max_le_max_right 1 (Int.toNat_le.mpr ?_)
  simp only [Int.bmod_def, Int32.size, Nat.cast_ofNat]
  split <;> omega

end Party

namespace World

variable {past : List Moment} {w : World} {number n : Nat} {p : Party}

theorem within_of_length (hp : w.party? number = some p) (hn : w.managers.length ≤ n) :
    p.Within n := by
  intro i me hme
  rw [(party?_eq_some_iff.mp hp).2] at hme
  exact (lt_of_member hme).trans_le hn

theorem length_le_step (w : World) (call : Call) :
    w.managers.length ≤ (w.step call).managers.length := by
  have hact : ∀ {α : Type} (i : Nat) (action : Action Manager Segment.Error α),
      (w.act i action).managers.length = w.managers.length := by
    intro α i action
    cases hmanager : w.manager? i with
    | none => rw [act_of_none _ hmanager]
    | some manager => rw [act_eq_seat _ hmanager, seat, List.length_set]
  cases call with
  | attach config time =>
    obtain ⟨answer, manager, host, after, -, -, hstep⟩ := step_attach w config time
    simp [hstep, seat, grown]
  | perform i operation => exact (hact i operation.perform).ge
  | lease i operation => exact (hact i operation.perform).ge
  | detach i => exact (hact i Manager.detach).ge
  | reattach i => exact (hact i Manager.reattach).ge
  | drop i =>
    cases hmanager : w.manager? i with
    | none => rw [step_drop_of_none hmanager]
    | some manager => rw [step_drop hmanager, seat, List.length_set]
  | unlink | tick => exact le_refl _

/-- In every run an object counts its managers and its writers. -/
theorem Run.counted (h : Run past w) (hp : w.party? number = some p)
    (hn : w.managers.length ≤ n) : p.Counted n := by
  refine Run.party_induction (motive := fun _ w p => w.managers.length ≤ n → p.Counted n)
    (fun call _ _ hp hfresh hn => hfresh.counted (within_of_length hp hn))
    (fun {past w call p p'} _ hp hp' hturn ih hn => ?_) h hp hn
  have hbefore : w.managers.length ≤ n := (length_le_step w call).trans hn
  exact hturn.counted (within_of_length hp hbefore) (within_of_length hp' hn) (ih hbefore)

end World

end SlotTransport
