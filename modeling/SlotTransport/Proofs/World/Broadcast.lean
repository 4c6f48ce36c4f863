/-
Records that are for all to see. A slot only counts how often its record was
released and compares that with the number of readers; that it was every reader
who released it, and once each, is what the ledger shows: nobody claims a record
twice, since a reader only goes forward, and nobody releases what it did not
claim. So as many releases as there are readers are one release of every reader
(`Party.Fair.every_reader`), in a run in which nobody leaves, nothing is taken by
force and nobody both reads and writes.
-/
import Mathlib.Algebra.Order.BigOperators.Group.Finset
import SlotTransport.Proofs.Operation.Stage
import SlotTransport.Proofs.World.History
import SlotTransport.Proofs.World.Roster

namespace SlotTransport

open Segment

/-- The sequence id of the record at a stage, and how often it was released. -/
def Segment.Stage.record? : Stage → Option (Nat × Nat)
  | idle => none
  | full q releases | reading _ q releases => some (q, releases)

theorem Segment.Attachment.Fits.calm {me : Attachment} {segment : Segment} (h : me.Fits segment)
    (time : Nat) (hlasting : segment.control.isDestructive = false)
    (htimeout : segment.control.staleTimeout = 0) : (Mapping.mk me time segment).Calm := by
  refine ⟨?_, ?_⟩
  · show me.staleTimeout = 0
    rw [h.staleTimeout, htimeout]
    rfl
  · show me.destructive = false
    rw [h.destructive, hlasting]

namespace Party

variable {p p' : Party} {n number : Nat} {now : Nat → Nat} {L : List (Nat × Entry)}

/-- Ids are given out one after the other, so that they tell managers apart. -/
structure Ids (p : Party) (n : Nat) : Prop where
  next : p.segment.control.nextId = .ofNat (p.count n fun _ => true)
  ranked : ∀ {i : Nat} {me : Attachment}, p.member i = some me →
    ∃ r < p.count n fun _ => true, me.id = .ofNat r
  distinct : ∀ {i j : Nat} {me me' : Attachment}, p.member i = some me →
    p.member j = some me' → me.id = me'.id → i = j

/-- The ledger of what the managers did: who writes is in it, a reader is past
all that it claimed, and it claims a record once and releases it once at most. -/
structure Tidy (p : Party) (L : List (Nat × Entry)) : Prop where
  wrote : ∀ {i : Nat} {me : Attachment}, p.member i = some me → me.isWriter = true →
    (i, .wrote) ∈ L
  seen : ∀ {i q : Nat}, (i, .claimed q) ∈ L → ∃ me, p.member i = some me ∧ q ≤ me.lastSeen
  issued : ∀ {i q : Nat}, (i, .claimed q) ∈ L → q ≤ p.segment.control.lastSequenceId
  once : ∀ i q : Nat, L.count (i, .claimed q) ≤ 1
  paired : ∀ i q : Nat, L.count (i, .released q) ≤ L.count (i, .claimed q)

/-- What the slots hold agrees with the ledger. -/
structure Stocked (p : Party) (L : List (Nat × Entry)) : Prop where
  records : ∀ {k q r : Nat}, (p.segment.stage k).record? = some (q, r) →
    q ≤ p.segment.control.lastSequenceId ∧ r = L.countP (·.2 == .released q)
  apart : ∀ {j k q r r' : Nat}, (p.segment.stage j).record? = some (q, r) →
    (p.segment.stage k).record? = some (q, r') → j = k
  holder : ∀ {k q r : Nat} {owner : ManagerId}, p.segment.stage k = .reading owner q r →
    ∃ i me, p.member i = some me ∧ me.id = owner ∧ (i, .claimed q) ∈ L ∧ (i, .released q) ∉ L

/-! ## Ids -/

theorem ofNat_ne_of_lt {r c : Nat} (h : r < c) (hc : c < 2 ^ 32) :
    Int32.ofNat r ≠ Int32.ofNat c := by
  intro heq
  have hword := congrArg (fun id : Int32 => id.toUInt32.toNat) heq
  simp only [Int32.toUInt32_ofNat', UInt32.toNat_ofNat'] at hword
  omega

theorem Ids.enrol (h : p.Ids n) {i : Nat} (hi : i < n) (hnone : p.member i = none)
    (hids : (p.enrol number i).count n (fun _ => true) ≤ 2 ^ 32) : (p.enrol number i).Ids n := by
  have hcount : (p.enrol number i).count n (fun _ => true) = p.count n (fun _ => true) + 1 :=
    count_enrol hi hnone _
  rw [hcount] at hids
  -- The id of the newcomer is the number of those who came before.
  have hnew : ∀ {j : Nat} {me : Attachment}, p.member j = some me →
      me.id ≠ .ofNat (p.count n fun _ => true) := by
    intro j me hme heq
    obtain ⟨r, hr, hid⟩ := h.ranked hme
    exact ofNat_ne_of_lt hr (by omega) (hid.symm.trans heq)
  have hcases : ∀ {j : Nat} {me : Attachment}, (p.enrol number i).member j = some me →
      j = i ∧ me.id = .ofNat (p.count n fun _ => true) ∨ j ≠ i ∧ p.member j = some me := by
    intro j me hme
    by_cases hj : j = i
    · subst hj
      rw [member_enrol, Function.update_self] at hme
      cases hme
      exact .inl ⟨rfl, h.next⟩
    · rw [member_enrol, Function.update_of_ne hj] at hme
      exact .inr ⟨hj, hme⟩
  refine ⟨?_, fun hme => ?_, fun hme hme' hid => ?_⟩
  · rw [hcount, Int32.ofNat_add, ← h.next]
    rfl
  · rw [hcount]
    rcases hcases hme with ⟨-, hid⟩ | ⟨-, hold⟩
    · exact ⟨_, Nat.lt_succ_self _, hid⟩
    · obtain ⟨r, hr, hid⟩ := h.ranked hold
      exact ⟨r, Nat.lt_succ_of_lt hr, hid⟩
  · rcases hcases hme with ⟨hj, hmine⟩ | ⟨-, hold⟩ <;>
      rcases hcases hme' with ⟨hj', hyours⟩ | ⟨-, hold'⟩
    · rw [hj, hj']
    · exact absurd (hid.symm.trans hmine) (hnew hold')
    · exact absurd (hid.trans hyours) (hnew hold)
    · exact h.distinct hold hold' hid

theorem Ids.follow (h : p.Ids n) {i time : Nat} {me : Attachment} {operation : Operation}
    {answer : Answer} {after : Mapping} (hi : i < n) (hme : p.member i = some me)
    (hmove : operation.apply ⟨me, time, p.segment⟩ = .ok (answer, after)) :
    (p.follow i after).Ids n := by
  have hkept := (Operation.apply_move hmove).kept
  have hcount : (p.follow i after).count n (fun _ => true) = p.count n (fun _ => true) :=
    Nat.add_right_cancel (count_follow hi hme after fun _ => true)
  have hcases : ∀ {j : Nat} {me' : Attachment}, (p.follow i after).member j = some me' →
      ∃ old, p.member j = some old ∧ me'.id = old.id := by
    intro j me' hme'
    by_cases hj : j = i
    · subst hj
      rw [member_follow, Function.update_self] at hme'
      cases hme'
      exact ⟨me, hme, hkept.me.id⟩
    · rw [member_follow, Function.update_of_ne hj] at hme'
      exact ⟨me', hme', rfl⟩
  refine ⟨?_, fun hme' => ?_, fun hme' hme'' hid => ?_⟩
  · rw [hcount, ← h.next]
    exact hkept.nextId
  · rw [hcount]
    obtain ⟨old, hold, hid⟩ := hcases hme'
    rw [hid]
    exact h.ranked hold
  · obtain ⟨old, hold, hid'⟩ := hcases hme'
    obtain ⟨old', hold', hid''⟩ := hcases hme''
    exact h.distinct hold hold' (hid'.symm.trans (hid.trans hid''))

/-! ## The ledger -/

theorem Tidy.of_member_eq (h : p.Tidy L) (hmember : p'.member = p.member)
    (hlast : p.segment.control.lastSequenceId ≤ p'.segment.control.lastSequenceId) :
    p'.Tidy L where
  wrote hme := h.wrote (hmember ▸ hme)
  seen hclaimed := by
    rw [hmember]
    exact h.seen hclaimed
  issued hclaimed := (h.issued hclaimed).trans hlast
  once := h.once
  paired := h.paired

/-- Nobody has released what it has not claimed. -/
theorem Tidy.claimed_of_released (h : p.Tidy L) {i q : Nat} (hreleased : (i, .released q) ∈ L) :
    (i, .claimed q) ∈ L :=
  List.count_pos_iff.mp (Nat.lt_of_lt_of_le (List.count_pos_iff.mpr hreleased) (h.paired i q))

theorem Tidy.not_claimed (h : p.Tidy L) {i q : Nat} {me : Attachment} (hme : p.member i = some me)
    (hunseen : me.lastSeen < q) : (i, .claimed q) ∉ L := by
  intro hclaimed
  obtain ⟨me', hme', hq⟩ := h.seen hclaimed
  rw [hme] at hme'
  cases hme'
  exact absurd hq (not_le.mpr hunseen)

theorem Tidy.count_released_of_new (h : p.Tidy L) {q : Nat}
    (hq : p.segment.control.lastSequenceId < q) : L.countP (·.2 == .released q) = 0 := by
  rw [List.countP_eq_zero]
  intro told htold hreleased
  obtain ⟨i, entry⟩ := told
  obtain rfl : entry = .released q := beq_iff_eq.mp hreleased
  have hissued := h.issued (h.claimed_of_released htold)
  omega

theorem Tidy.enrol (h : p.Tidy L) {i : Nat} (hnone : p.member i = none) :
    (p.enrol number i).Tidy L where
  wrote {j me} hme hwriter := by
    by_cases hj : j = i
    · subst hj
      rw [member_enrol, Function.update_self] at hme
      cases hme
      cases hwriter
    · rw [member_enrol, Function.update_of_ne hj] at hme
      exact h.wrote hme hwriter
  seen {j q} hclaimed := by
    obtain ⟨me, hme, hq⟩ := h.seen hclaimed
    have hj : j ≠ i := by
      rintro rfl
      rw [hnone] at hme
      cases hme
    exact ⟨me, by rw [member_enrol, Function.update_of_ne hj, hme], hq⟩
  issued := h.issued
  once := h.once
  paired := h.paired

variable {i : Nat} {me : Attachment} {after : Mapping}

theorem member_follow_of_same (hme : p.member i = some me) (hafter : after.me = me) :
    (p.follow i after).member = p.member := by
  rw [member_follow, hafter, ← hme, Function.update_eq_self]

theorem Tidy.wrote_cons (h : p.Tidy L) (hme : p.member i = some me)
    (hafter : after.me = { me with isWriter := true })
    (hlast : after.segment.control.lastSequenceId = p.segment.control.lastSequenceId) :
    (p.follow i after).Tidy ((i, .wrote) :: L) where
  wrote {j me'} hme' hwriter := by
    by_cases hj : j = i
    · subst hj
      exact List.mem_cons_self
    · rw [member_follow, Function.update_of_ne hj] at hme'
      exact List.mem_cons_of_mem _ (h.wrote hme' hwriter)
  seen {j q} hclaimed := by
    obtain ⟨me', hme', hq⟩ := h.seen (List.mem_of_ne_of_mem (by simp) hclaimed)
    by_cases hj : j = i
    · subst hj
      rw [hme] at hme'
      cases hme'
      exact ⟨after.me, by rw [member_follow, Function.update_self], by rw [hafter]; exact hq⟩
    · exact ⟨me', by rw [member_follow, Function.update_of_ne hj, hme'], hq⟩
  issued hclaimed := (h.issued (List.mem_of_ne_of_mem (by simp) hclaimed)).trans hlast.ge
  once j q := by
    rw [List.count_cons_of_ne (by simp)]
    exact h.once j q
  paired j q := by
    rw [List.count_cons_of_ne (by simp), List.count_cons_of_ne (by simp)]
    exact h.paired j q

theorem Tidy.claimed_cons (h : p.Tidy L) (hme : p.member i = some me) {q : Nat}
    (hunseen : me.lastSeen < q) (hissued : q ≤ p.segment.control.lastSequenceId)
    (hafter : after.me = { me with lastSeen := q })
    (hlast : after.segment.control.lastSequenceId = p.segment.control.lastSequenceId) :
    (p.follow i after).Tidy ((i, .claimed q) :: L) where
  wrote {j me'} hme' hwriter := by
    refine List.mem_cons_of_mem _ ?_
    by_cases hj : j = i
    · subst hj
      rw [member_follow, Function.update_self] at hme'
      cases hme'
      rw [hafter] at hwriter
      exact h.wrote hme hwriter
    · rw [member_follow, Function.update_of_ne hj] at hme'
      exact h.wrote hme' hwriter
  seen {j q'} hclaimed := by
    by_cases hj : j = i
    · subst hj
      refine ⟨after.me, by rw [member_follow, Function.update_self], ?_⟩
      rw [hafter]
      rcases List.mem_cons.mp hclaimed with heq | hold
      · cases heq
        exact le_refl _
      · obtain ⟨me', hme', hq'⟩ := h.seen hold
        rw [hme] at hme'
        cases hme'
        exact (hq'.trans hunseen.le)
    · obtain ⟨me', hme', hq'⟩ := h.seen (List.mem_of_ne_of_mem (by simp [hj]) hclaimed)
      exact ⟨me', by rw [member_follow, Function.update_of_ne hj, hme'], hq'⟩
  issued {j q'} hclaimed := by
    refine le_trans ?_ hlast.ge
    rcases List.mem_cons.mp hclaimed with heq | hold
    · cases heq
      exact hissued
    · exact h.issued hold
  once j q' := by
    by_cases heq : (j, Entry.claimed q') = (i, .claimed q)
    · rw [heq, List.count_cons_self]
      rw [List.count_eq_zero_of_not_mem (h.not_claimed hme hunseen)]
    · rw [List.count_cons_of_ne (Ne.symm heq)]
      exact h.once j q'
  paired j q' := by
    rw [List.count_cons_of_ne (by simp)]
    exact (h.paired j q').trans (List.Sublist.count_le _ (List.sublist_cons_self _ _))

theorem Tidy.released_cons (h : p.Tidy L) {q : Nat} (hclaimed : (i, .claimed q) ∈ L)
    (hheld : (i, .released q) ∉ L) (hmember : p'.member = p.member)
    (hlast : p'.segment.control.lastSequenceId = p.segment.control.lastSequenceId) :
    p'.Tidy ((i, .released q) :: L) where
  wrote hme hwriter := List.mem_cons_of_mem _ (h.wrote (hmember ▸ hme) hwriter)
  seen hold := by
    rw [hmember]
    exact h.seen (List.mem_of_ne_of_mem (by simp) hold)
  issued hold := (h.issued (List.mem_of_ne_of_mem (by simp) hold)).trans hlast.ge
  once j q' := by
    rw [List.count_cons_of_ne (by simp)]
    exact h.once j q'
  paired j q' := by
    rw [List.count_cons_of_ne (by simp : (i, Entry.released q) ≠ (j, .claimed q'))]
    by_cases heq : (j, Entry.released q') = (i, .released q)
    · cases heq
      rw [List.count_cons_self, List.count_eq_zero_of_not_mem hheld]
      exact List.count_pos_iff.mpr hclaimed
    · rw [List.count_cons_of_ne (Ne.symm heq)]
      exact h.paired j q'

/-! ## The slots -/

/-- Whoever was there still is, under the same id. -/
def Remains (p p' : Party) : Prop :=
  ∀ {i : Nat} {me : Attachment}, p.member i = some me →
    ∃ me', p'.member i = some me' ∧ me'.id = me.id

theorem remains_enrol (hnone : p.member i = none) : p.Remains (p.enrol number i) := by
  intro j me hme
  have hj : j ≠ i := by
    rintro rfl
    rw [hnone] at hme
    cases hme
  exact ⟨me, by rw [member_enrol, Function.update_of_ne hj, hme], rfl⟩

theorem remains_follow (hme : p.member i = some me) (hid : after.me.id = me.id) :
    p.Remains (p.follow i after) := by
  intro j me' hme'
  by_cases hj : j = i
  · subst hj
    rw [hme] at hme'
    cases hme'
    exact ⟨after.me, by rw [member_follow, Function.update_self], hid⟩
  · exact ⟨me', by rw [member_follow, Function.update_of_ne hj, hme'], rfl⟩

theorem count_released_cons {i q : Nat} {entry : Entry} (hne : entry ≠ .released q) :
    ((i, entry) :: L).countP (·.2 == .released q) = L.countP (·.2 == .released q) :=
  List.countP_cons_of_neg (by simpa using hne)

theorem Stocked.record (h : p.Stocked L) {k q r : Nat}
    (hrecord : (p.segment.stage k).record? = some (q, r)) :
    q ≤ p.segment.control.lastSequenceId ∧ r = L.countP (·.2 == .released q) ∧
      ∀ {j r' : Nat}, j ≠ k → (p.segment.stage j).record? ≠ some (q, r') := by
  obtain ⟨hissued, hr⟩ := h.records hrecord
  exact ⟨hissued, hr, fun hj hother => hj (h.apart hother hrecord)⟩

/-- Where nothing is released and no slot gets on, the slots agree with the
ledger as before. -/
theorem Stocked.same (h : p.Stocked L) (made : Option (Nat × Entry))
    (hstage : p'.segment.stage = p.segment.stage)
    (hlast : p'.segment.control.lastSequenceId = p.segment.control.lastSequenceId)
    (hremains : p.Remains p') (hmade : ∀ i q, made ≠ some (i, .released q)) :
    p'.Stocked (made.toList ++ L) := by
  have hcount : ∀ q, (made.toList ++ L).countP (·.2 == .released q) =
      L.countP (·.2 == .released q) := by
    intro q
    cases hentry : made with
    | none => rfl
    | some told => exact count_released_cons fun hq => hmade told.1 q (by rw [hentry, ← hq])
  refine ⟨fun hrecord => ?_, fun hrecord hrecord' => ?_, fun {k q r owner} hreading => ?_⟩
  · rw [hstage] at hrecord
    rw [hlast, hcount]
    exact h.records hrecord
  · rw [hstage] at hrecord hrecord'
    exact h.apart hrecord hrecord'
  · rw [hstage] at hreading
    obtain ⟨i, me, hme, hid, hclaimed, hheld⟩ := h.holder hreading
    obtain ⟨me', hme', hid'⟩ := hremains hme
    refine ⟨i, me', hme', hid'.trans hid, List.mem_append_right _ hclaimed, ?_⟩
    intro hreleased
    rcases List.mem_append.mp hreleased with hnew | hold
    · exact hmade i q (Option.mem_toList.mp hnew)
    · exact hheld hold

/-- One slot gets to another stage. The others hold other records, of which
nothing is released. -/
theorem Stocked.update (h : p.Stocked L) (made : Option (Nat × Entry)) {k : Nat} {stage : Stage}
    (hstage : p'.segment.stage = Function.update p.segment.stage k stage)
    (hlast : p.segment.control.lastSequenceId ≤ p'.segment.control.lastSequenceId)
    (hremains : p.Remains p')
    (hmade : ∀ {i q : Nat}, made = some (i, .released q) →
      ∀ {j r : Nat}, j ≠ k → (p.segment.stage j).record? ≠ some (q, r))
    (hrecord : ∀ {q r : Nat}, stage.record? = some (q, r) →
      q ≤ p'.segment.control.lastSequenceId ∧
      r = (made.toList ++ L).countP (·.2 == .released q) ∧
      ∀ {j r' : Nat}, j ≠ k → (p.segment.stage j).record? ≠ some (q, r'))
    (hholder : ∀ {owner : ManagerId} {q r : Nat}, stage = .reading owner q r →
      ∃ i me, p'.member i = some me ∧ me.id = owner ∧ (i, .claimed q) ∈ made.toList ++ L ∧
        (i, .released q) ∉ made.toList ++ L) : p'.Stocked (made.toList ++ L) := by
  have hother : ∀ {j q r : Nat}, j ≠ k → (p.segment.stage j).record? = some (q, r) →
      ∀ i, made ≠ some (i, .released q) :=
    fun hj hold i hreleased => hmade hreleased hj hold
  refine ⟨fun {j q r} hrec => ?_, fun {j j' q r r'} hrec hrec' => ?_,
    fun {j q r owner} hreading => ?_⟩
  · by_cases hj : j = k
    · subst hj
      rw [hstage, Function.update_self] at hrec
      exact ⟨(hrecord hrec).1, (hrecord hrec).2.1⟩
    · rw [hstage, Function.update_of_ne hj] at hrec
      obtain ⟨hq, hr⟩ := h.records hrec
      refine ⟨hq.trans hlast, hr.trans ?_⟩
      cases hentry : made with
      | none => rfl
      | some told =>
        refine (count_released_cons fun hreleased => ?_).symm
        exact hother hj hrec told.1 (by rw [hentry, ← hreleased])
  · by_cases hj : j = k <;> by_cases hj' : j' = k
    · rw [hj, hj']
    · rw [hstage, hj, Function.update_self] at hrec
      rw [hstage, Function.update_of_ne hj'] at hrec'
      exact absurd hrec' ((hrecord hrec).2.2 hj')
    · rw [hstage, Function.update_of_ne hj] at hrec
      rw [hstage, hj', Function.update_self] at hrec'
      exact absurd hrec ((hrecord hrec').2.2 hj)
    · rw [hstage, Function.update_of_ne hj] at hrec
      rw [hstage, Function.update_of_ne hj'] at hrec'
      exact h.apart hrec hrec'
  · by_cases hj : j = k
    · subst hj
      rw [hstage, Function.update_self] at hreading
      exact hholder hreading
    · rw [hstage, Function.update_of_ne hj] at hreading
      obtain ⟨i, me, hme, hid, hclaimed, hheld⟩ := h.holder hreading
      obtain ⟨me', hme', hid'⟩ := hremains hme
      refine ⟨i, me', hme', hid'.trans hid, List.mem_append_right _ hclaimed, ?_⟩
      intro hreleased
      rcases List.mem_append.mp hreleased with hnew | hold
      · refine hother hj (r := r) ?_ i (Option.mem_toList.mp hnew)
        rw [hreading]
        rfl
      · exact hheld hold

/-! ## Turns -/

/-- Ids, slots and ledger are as they should be. -/
structure Fair (p : Party) (n : Nat) (L : List (Nat × Entry)) : Prop where
  ids : p.Ids n
  tidy : p.Tidy L
  stocked : p.Stocked L

theorem Fair.enrol (h : p.Fair n L) (hi : i < n) (hnone : p.member i = none)
    (hids : (p.enrol number i).count n (fun _ => true) ≤ 2 ^ 32) :
    (p.enrol number i).Fair n L := by
  have hremains : p.Remains (p.enrol number i) := remains_enrol hnone
  exact ⟨h.ids.enrol hi hnone hids, h.tidy.enrol hnone,
    h.stocked.same none rfl rfl hremains (by simp)⟩

theorem Fair.follow (h : p.Fair n L) {time : Nat} {operation : Operation} {answer : Answer}
    (hi : i < n) (hme : p.member i = some me) (hcalm : (Mapping.mk me time p.segment).Calm)
    (hforce : operation.isForced = false)
    (hmove : operation.apply ⟨me, time, p.segment⟩ = .ok (answer, after)) :
    (p.follow i after).Fair n
      (((operation.note? p.segment answer).map (i, ·)).toList ++ L) := by
  have hids := h.ids.follow hi hme hmove
  have hid := (Operation.apply_move hmove).kept.me.id
  have hremains : p.Remains (p.follow i after) := remains_follow hme hid
  cases (Operation.apply_move hmove).quiet hcalm hforce with
  | still hentry hstage hafter hlast =>
    rw [hentry]
    exact ⟨hids, h.tidy.of_member_eq (member_follow_of_same hme hafter) hlast.ge,
      h.stocked.same none hstage hlast hremains (by simp)⟩
  | wrote hentry hstage hafter hlast =>
    rw [hentry]
    exact ⟨hids, h.tidy.wrote_cons hme hafter hlast,
      h.stocked.same (some (i, .wrote)) hstage hlast hremains (by simp)⟩
  | @claimed k q r hentry hfull hunseen hstage hafter hlast =>
    obtain ⟨hissued, hr, hapart⟩ := h.stocked.record (k := k) (by rw [hfull]; rfl)
    rw [hentry]
    refine ⟨hids, h.tidy.claimed_cons hme hunseen hissued hafter hlast, ?_⟩
    refine h.stocked.update (some (i, .claimed q)) hstage hlast.ge hremains (by simp) ?_ ?_
    · intro q' r' heq
      cases heq
      exact ⟨hissued.trans hlast.ge, hr.trans (count_released_cons (by simp)).symm, hapart⟩
    · intro owner q' r' heq
      cases heq
      refine ⟨i, after.me, by rw [member_follow, Function.update_self], hid, by simp, ?_⟩
      -- It was not claimed by `i` before, so `i` has not released it either.
      intro hreleased
      have hold : (i, Entry.released q) ∈ L := List.mem_of_ne_of_mem (by simp) hreleased
      exact h.tidy.not_claimed hme hunseen (h.tidy.claimed_of_released hold)
  | @returned k q r hentry hreading hstage hafter hlast =>
    obtain ⟨hissued, hr, hapart⟩ := h.stocked.record (k := k) (by rw [hreading]; rfl)
    rw [hentry]
    refine ⟨hids, h.tidy.of_member_eq (member_follow_of_same hme hafter) hlast.ge, ?_⟩
    refine h.stocked.update none hstage hlast.ge hremains (by simp) ?_ (by simp)
    intro q' r' heq
    cases heq
    exact ⟨hissued.trans hlast.ge, hr, hapart⟩
  | @published k hentry hidle hstage hafter hlast =>
    rw [hentry]
    refine ⟨hids, h.tidy.of_member_eq (member_follow_of_same hme hafter)
      (hlast ▸ Nat.le_succ _), ?_⟩
    refine h.stocked.update none hstage (hlast ▸ Nat.le_succ _) hremains (by simp) ?_
      (by simp)
    intro q' r' heq
    cases heq
    refine ⟨hlast.ge, (h.tidy.count_released_of_new (Nat.lt_succ_self _)).symm,
      fun hj hother => ?_⟩
    have hissued := (h.stocked.records hother).1
    simp only at hissued
    omega
  | @released k q r hentry hreading hstage hafter hlast =>
    obtain ⟨hissued, hr, hapart⟩ := h.stocked.record (k := k) (by rw [hreading]; rfl)
    obtain ⟨j, holder, hholder, hsame, hclaimed, hheld⟩ := h.stocked.holder hreading
    obtain rfl : j = i := h.ids.distinct hholder hme hsame
    have hmember := member_follow_of_same hme hafter
    rw [hentry]
    refine ⟨hids, h.tidy.released_cons hclaimed hheld hmember hlast, ?_⟩
    refine h.stocked.update (some (j, .released q)) hstage hlast.ge hremains ?_ ?_ ?_
    · intro i' q' heq j' r' hj' hother
      cases heq
      exact hapart hj' hother
    · intro q' r' heq
      split at heq
      · cases heq
      · cases heq
        refine ⟨hissued.trans hlast.ge, ?_, hapart⟩
        rw [hr]
        simp
    · intro owner q' r' heq
      split at heq <;> cases heq

theorem Fresh.member (h : p.Fresh number) : ∃ i, ∀ {j : Nat} {me : Attachment},
    p.member j = some me → j = i ∧ me.id = creatorId ∧ me.isWriter = false := by
  cases h with
  | blank size => exact ⟨0, fun hme => nomatch hme⟩
  | formatted now i =>
    refine ⟨i, fun {j me} hme => ?_⟩
    by_cases hj : j = i
    · subst hj
      simp only [Function.update_self, Option.some.injEq] at hme
      rw [← hme]
      exact ⟨rfl, rfl, rfl⟩
    · simp only [Function.update_of_ne hj] at hme
      cases hme

theorem Fresh.stage (h : p.Fresh number) (k : Nat) : p.segment.stage k = .idle := by
  cases h with
  | blank size => rfl
  | @formatted config size now i =>
    unfold Segment.stage
    cases hs : (Segment.formatted config size.toNat now).slots[k]? with
    | none => rfl
    | some s =>
      have hfresh : s = .fresh now := List.eq_of_mem_replicate (List.mem_of_getElem? hs)
      rw [hfresh]
      rfl

theorem Fresh.fair (h : p.Fresh number) (hp : p.Within n) : p.Fair n [] := by
  obtain ⟨creator, hmember⟩ := h.member
  refine ⟨⟨?_, fun hme => ?_, fun hme hme' _ => ?_⟩, ⟨fun hme hwriter => ?_, by simp, by simp,
    by simp, by simp⟩, ⟨fun hrecord => ?_, fun hrecord => ?_, fun hreading => ?_⟩⟩
  · rw [← (h.counted hp).attached]
    cases h <;> rfl
  · exact ⟨0, count_pos (hp hme) hme, (hmember hme).2.1⟩
  · rw [(hmember hme).1, (hmember hme').1]
  · rw [(hmember hme).2.2] at hwriter
    cases hwriter
  · rw [h.stage] at hrecord
    cases hrecord
  · rw [h.stage] at hrecord
    cases hrecord
  · rw [h.stage] at hreading
    cases hreading

/-! ## Every reader had it -/

theorem sum_count_released {L : List (Nat × Entry)} {q : Nat}
    (h : ∀ {i : Nat}, (i, .released q) ∈ L → i < n) :
    ∑ i ∈ Finset.range n, L.count (i, .released q) = L.countP (·.2 == .released q) := by
  induction L with
  | nil => simp
  | cons made L ih =>
    obtain ⟨j, entry⟩ := made
    have hrest := ih fun hi => h (List.mem_cons_of_mem _ hi)
    by_cases hq : entry = .released q
    · subst hq
      have hj : j ∈ Finset.range n := Finset.mem_range.mpr (h List.mem_cons_self)
      simp only [List.count_cons, Finset.sum_add_distrib, hrest]
      rw [List.countP_cons_of_pos (by simp)]
      congr 1
      simp [hj]
    · rw [count_released_cons hq, ← hrest]
      refine Finset.sum_congr rfl fun i _ => List.count_cons_of_ne ?_
      simp [hq]

/-- Where a record was released as often as there are readers, every reader has
claimed it once and released it once. -/
theorem Fair.every_reader {L : List (Nat × Entry)} (h : p.Fair n L) (hn : p.Within n)
    (honesided : ∀ {i q : Nat}, (i, .wrote) ∈ L → (i, .claimed q) ∉ L) {q : Nat}
    (hreaders : p.count n (!·.isWriter) ≤ L.countP (·.2 == .released q)) {i : Nat}
    {me : Attachment} (hme : p.member i = some me) (hreader : me.isWriter = false) :
    L.count (i, .claimed q) = 1 ∧ L.count (i, .released q) = 1 := by
  have hclaims : ∀ {j : Nat}, (j, .released q) ∈ L → (j, .claimed q) ∈ L := by
    intro j hreleased
    have hpos := List.count_pos_iff.mpr hreleased
    exact List.count_pos_iff.mp (hpos.trans_le (h.tidy.paired j q))
  have hsum := sum_count_released (n := n) (L := L) (q := q) fun hreleased => by
    obtain ⟨me', hme', -⟩ := h.tidy.seen (hclaims hreleased)
    exact hn hme'
  -- Only readers release, and none of them does it twice.
  have hle : ∀ j ∈ Finset.range n,
      L.count (j, .released q) ≤ ((p.member j).any (!·.isWriter)).toNat := by
    intro j _
    by_cases hreleased : (j, Entry.released q) ∈ L
    · obtain ⟨me', hme', -⟩ := h.tidy.seen (hclaims hreleased)
      have hnot : me'.isWriter = false := by
        by_contra hwriter
        exact honesided (h.tidy.wrote hme' (by simpa using hwriter)) (hclaims hreleased)
      rw [hme', Option.any_some, hnot]
      exact (h.tidy.paired j q).trans (h.tidy.once j q)
    · rw [List.count_eq_zero_of_not_mem hreleased]
      exact Nat.zero_le _
  have hequal : ∑ j ∈ Finset.range n, L.count (j, .released q) =
      ∑ j ∈ Finset.range n, ((p.member j).any (!·.isWriter)).toNat :=
    le_antisymm (Finset.sum_le_sum hle) (hsum ▸ hreaders)
  have hone := (Finset.sum_eq_sum_iff_of_le hle).mp hequal i (Finset.mem_range.mpr (hn hme))
  rw [hme, Option.any_some, hreader, Bool.not_false, Bool.toNat_true] at hone
  have hpaired := h.tidy.paired i q
  have honce := h.tidy.once i q
  omega

/-- A release that empties a slot is the last that the record was waiting for. -/
theorem Fair.emptied {L : List (Nat × Entry)} (h : p.Fair n L) (hcounted : p.Counted n)
    (hfew : p.count n (!·.isWriter) < 2 ^ 31) {time slot : Nat} {me : Attachment}
    {answer : Answer} {after : Mapping} {s : Slot}
    (hcalm : (Mapping.mk me time p.segment).Calm)
    (hmove : (Operation.release slot).apply ⟨me, time, p.segment⟩ = .ok (answer, after))
    (hs : p.segment.slots[slot]? = some s) (hidle : after.segment.stage slot = .idle) :
    after.me = me ∧
      p.count n (!·.isWriter) ≤ L.countP (·.2 == .released s.sequenceId) + 1 := by
  obtain ⟨hstate, howner⟩ := Operation.held_of_release hmove hs
  have hentry : (Operation.release slot).note? p.segment answer =
      some (.released s.sequenceId) := by simp [Operation.note?, hs]
  have hstage : p.segment.stage slot = .reading me.id s.sequenceId s.releases := by
    simp [stage_eq hs, Slot.stage, hstate, howner]
  have hrecord : (p.segment.stage slot).record? = some (s.sequenceId, s.releases) := by
    rw [hstage]
    rfl
  cases (Operation.apply_move hmove).quiet hcalm rfl with
  | still hother | returned hother | published hother =>
    rw [hentry] at hother
    cases hother
  | wrote hother | claimed hother =>
    rw [hentry] at hother
    cases hother
  | @released k q r hmade hreading hafter hsame =>
    rw [hentry] at hmade
    cases hmade
    have hrecord' : (p.segment.stage k).record? = some (s.sequenceId, r) := by
      rw [hreading]
      rfl
    obtain rfl : k = slot := h.stocked.apart hrecord' hrecord
    refine ⟨hsame, ?_⟩
    have hr := (h.stocked.records hrecord').2
    have hlast : p.segment.control.readers ≤ r + 1 := by
      by_contra hmore
      rw [hafter, Function.update_self, if_neg hmore] at hidle
      cases hidle
    rw [hcounted.readers hfew] at hlast
    rw [← hr]
    exact (le_max_left _ _).trans hlast

end Party

namespace World

variable {past : List Moment} {w : World} {call : Call} {number n : Nat} {p p' : Party}

/-- Whether somebody who is attached to an object leaves it, be it to come
back. -/
def Moment.loses (number : Nat) (moment : Moment) : Prop :=
  ∃ i, (moment.before.member number i).isSome = true ∧
    (moment.after.member number i = none ∨ moment.call = .reattach i)

instance (number : Nat) (moment : Moment) : Decidable (moment.loses number) :=
  decidable_of_iff (∃ i, i < moment.before.managers.length ∧
      (moment.before.member number i).isSome = true ∧
      (moment.after.member number i = none ∨ moment.call = .reattach i)) <| by
    constructor
    · rintro ⟨i, -, h⟩
      exact ⟨i, h⟩
    · rintro ⟨i, hattached, h⟩
      obtain ⟨me, hme⟩ := Option.isSome_iff_exists.mp hattached
      exact ⟨i, lt_of_member hme, hattached, h⟩

/-- Nobody leaves the object, nothing in it is taken by force, and nobody claims
slots both for writing and for reading. -/
structure Orderly (number : Nat) (past : List Moment) : Prop where
  stays : ∀ moment ∈ past, ¬ moment.loses number
  unforced : ∀ moment ∈ past, moment.forces number = false
  onesided : ∀ {i q : Nat}, (i, .wrote) ∈ ledger number past → (i, .claimed q) ∉ ledger number past

theorem Orderly.of_cons {moment : Moment} (h : Orderly number (moment :: past)) :
    Orderly number past where
  stays earlier hearlier := h.stays earlier (List.mem_cons_of_mem _ hearlier)
  unforced earlier hearlier := h.unforced earlier (List.mem_cons_of_mem _ hearlier)
  onesided {i q} hwrote hclaimed := by
    have hkept : ∀ {entry}, entry ∈ ledger number past →
        entry ∈ ledger number (moment :: past) := by
      intro entry hentry
      rw [ledger_cons]
      exact List.mem_append_right _ hentry
    exact h.onesided (hkept hwrote) (hkept hclaimed)

/-- How many managers are attached to an object. -/
def attendance (w : World) (number : Nat) : Nat :=
  (List.range w.managers.length).countP fun i => (w.member number i).isSome

/-- How many managers are attached to an object and are no writers. -/
def readership (w : World) (number : Nat) : Nat :=
  (List.range w.managers.length).countP fun i => (w.member number i).any (!·.isWriter)

theorem attendance_eq_count (hp : w.party? number = some p) :
    w.attendance number = p.count w.managers.length fun _ => true := by
  rw [attendance, Party.count_eq_countP, (party?_eq_some_iff.mp hp).2]
  refine List.countP_congr fun i _ => ?_
  cases w.member number i <;> simp

theorem readership_eq_count (hp : w.party? number = some p) :
    w.readership number = p.count w.managers.length (!·.isWriter) := by
  rw [readership, Party.count_eq_countP, (party?_eq_some_iff.mp hp).2]

/-- Whoever is attached to the object still is after a turn at which nobody
leaves. -/
theorem stays_of_not_loses (hp : w.party? number = some p)
    (hp' : (w.step call).party? number = some p')
    (hstays : ¬ (⟨w, call⟩ : Moment).loses number) {i : Nat} {me : Attachment}
    (hme : p.member i = some me) : (∃ me', p'.member i = some me') ∧ call ≠ .reattach i := by
  rw [(party?_eq_some_iff.mp hp).2] at hme
  have hattached : (w.member number i).isSome = true := by rw [hme]; rfl
  refine ⟨?_, fun hcall => hstays ⟨i, hattached, .inr hcall⟩⟩
  rw [(party?_eq_some_iff.mp hp').2]
  cases hafter : (w.step call).member number i with
  | none => exact absurd ⟨i, hattached, .inl hafter⟩ hstays
  | some me' => exact ⟨me', rfl⟩

theorem turn_of_stays (hturn : p.Turn number w.now call p')
    (hstays : ∀ {i : Nat} {me : Attachment}, p.member i = some me →
      (∃ me', p'.member i = some me') ∧ call ≠ .reattach i) :
    ((∀ i, call.manager? = some i → p.member i = none) ∧ p' = p) ∨
    (∃ i, call.operation? = none ∧ p.member i = none ∧ p' = p.enrol number i) ∨
    ∃ i operation me answer after, call.operation? = some (i, operation) ∧
      p.member i = some me ∧ operation.apply ⟨me, w.now i, p.segment⟩ = .ok (answer, after) ∧
      p' = p.follow i after := by
  cases hturn with
  | others hother => exact .inl ⟨hother, rfl⟩
  | @entered _ i hcall _ hnone => exact .inr (.inl ⟨i, hcall, hnone, rfl⟩)
  | @moved _ i operation me answer after hcall hme hmove =>
    exact .inr (.inr ⟨i, operation, me, answer, after, hcall, hme, hmove, rfl⟩)
  | left _ _ hme =>
    obtain ⟨⟨me', hme'⟩, -⟩ := hstays hme
    rw [Party.dismiss] at hme'
    simp at hme'
  | ended hme =>
    obtain ⟨⟨me', hme'⟩, -⟩ := hstays hme
    rw [Party.closed, Party.dismiss] at hme'
    simp at hme'
  | returned hme => exact absurd rfl (hstays hme).2

theorem count_le_of_stays
    (h : ∀ {i : Nat} {me : Attachment}, p.member i = some me → ∃ me', p'.member i = some me') :
    p.count n (fun _ => true) ≤ p'.count n fun _ => true := by
  refine Finset.sum_le_sum fun i _ => ?_
  cases hme : p.member i with
  | none => exact Nat.zero_le _
  | some me =>
    obtain ⟨me', hme'⟩ := h hme
    rw [hme']
    exact le_refl _

/-- A turn of an orderly run keeps ids, slots and ledger as they should be. -/
theorem fair_turn (hw : w.Coherent) (hp : w.party? number = some p)
    (hturn : p.Turn number w.now call p') (hn : p.Within n) (hn' : p'.Within n)
    (hlasting : p.segment.control.isDestructive = false)
    (htimeout : p.segment.control.staleTimeout = 0)
    (hstays : ∀ {i : Nat} {me : Attachment}, p.member i = some me →
      (∃ me', p'.member i = some me') ∧ call ≠ .reattach i)
    (hforce : (⟨w, call⟩ : Moment).forces number = false)
    (hids : p'.count n (fun _ => true) ≤ 2 ^ 32) (h : p.Fair n (ledger number past)) :
    p'.Fair n (ledger number (⟨w, call⟩ :: past)) := by
  rw [ledger_cons]
  rcases turn_of_stays hturn hstays with ⟨hother, rfl⟩ | ⟨i, hcall, hnone, rfl⟩ |
    ⟨i, operation, me, answer, after, hcall, hme, hmove, rfl⟩
  · rw [note?_of_others hw hp hother]
    exact h
  · rw [note?_of_no_operation hcall]
    have hnew : (p.enrol number i).member i = some _ := Function.update_self ..
    exact h.enrol (hn' hnew) hnone hids
  · have hcalm := ((hw.party hp).fits hme).calm (w.now i) hlasting htimeout
    rw [note?_of_moved hw hp hcall hme hmove]
    exact h.follow (hn hme) hme hcalm (unforced_of_member hp hforce hcall hme) hmove

theorem Run.fair (h : Run past w) (hp : w.party? number = some p) (hn : w.managers.length ≤ n)
    (hlasting : p.segment.control.isDestructive = false)
    (htimeout : p.segment.control.staleTimeout = 0) (horderly : Orderly number past)
    (hids : p.count n (fun _ => true) ≤ 2 ^ 32) : p.Fair n (ledger number past) := by
  refine Run.party_induction (motive := fun past w p => w.managers.length ≤ n →
      p.segment.control.isDestructive = false → p.segment.control.staleTimeout = 0 →
      Orderly number past → p.count n (fun _ => true) ≤ 2 ^ 32 → p.Fair n (ledger number past))
    (fun call hrun hnone hp hfresh hn _ _ _ _ => ?_)
    (fun {past w call p p'} hrun hp hp' hturn ih hn hlasting htimeout horderly hids => ?_)
    h hp hn hlasting htimeout horderly hids
  · rw [ledger_cons, note?_of_absent hnone, ledger_of_absent hrun hnone]
    exact hfresh.fair (within_of_length hp hn)
  · have halike := hturn.alike
    have hbefore : w.managers.length ≤ n := (length_le_step w call).trans hn
    have hlasting₁ : p.segment.control.isDestructive = false :=
      halike.isDestructive.symm.trans hlasting
    have htimeout₁ : p.segment.control.staleTimeout = 0 := halike.staleTimeout ▸ htimeout
    have hstays : ∀ {i : Nat} {me : Attachment}, p.member i = some me →
        (∃ me', p'.member i = some me') ∧ call ≠ .reattach i :=
      fun hme => stays_of_not_loses hp hp' (horderly.stays _ (by simp)) hme
    have hids₁ : p.count n (fun _ => true) ≤ 2 ^ 32 :=
      (count_le_of_stays fun hme => (hstays hme).1).trans hids
    exact fair_turn hrun.coherent hp hturn (within_of_length hp hbefore)
      (within_of_length hp' hn) hlasting₁ htimeout₁ hstays (horderly.unforced _ (by simp)) hids
      (ih hbefore hlasting₁ htimeout₁ horderly.of_cons hids₁)

end World

end SlotTransport
