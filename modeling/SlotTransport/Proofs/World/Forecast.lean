/-
What readiness says of the claims to come. A slot that may be written may still be
when it has been reclaimed, and so may a record be read that is gone once read; so a
claim finds one as long as one is counted. Where no slot is stale a claim takes one
slot out of those that it may have and leaves the others (`takes_for_writing`,
`takes_for_reading`), and the same claim made over and over takes them all
(`exists_takes`), as many as are counted (`World.claims_as_counted`).
-/
import SlotTransport.Proofs.Operation.Offer
import SlotTransport.Proofs.World.Readiness
import SlotTransport.Proofs.World.Sound

namespace SlotTransport

open Segment

namespace Segment

/-! ## Slots -/

namespace Slot

theorem isWritable_swept {s : Slot} {overwrite : Bool} (h : s.isWritable overwrite = true)
    (staleness : Staleness) : (s.swept staleness).isWritable overwrite = true := by
  rcases s.swept_cases staleness with
    hkept | ⟨-, hreading, hswept⟩ | ⟨-, hwriting, -⟩ | ⟨-, -, -, hswept⟩
  · rw [hkept]
    exact h
  · simp only [isWritable, hreading] at h
    simpa [hswept, isWritable] using h
  · simp [isWritable, hwriting] at h
  · simp [hswept, isWritable]

end Slot

namespace Mapping

variable {m after : Mapping} {k : Nat} {s : Slot} {overwrite : Bool}

/-! ## The slots that there are for a claim -/

/-- The numbers of the slots that pass a test. -/
def passing (m : Mapping) (test : Slot → Bool) : List Nat :=
  (List.range m.slots.length).filter fun k => (m.slots[k]?).any test

theorem mem_passing {test : Slot → Bool} :
    k ∈ m.passing test ↔ ∃ s, m.slots[k]? = some s ∧ test s = true := by
  rw [passing, List.mem_filter, List.mem_range, Option.any_eq_true]
  exact ⟨fun h => h.2, fun h => ⟨(List.getElem?_eq_some_iff.mp h.choose_spec.1).1, h⟩⟩

theorem nodup_passing (m : Mapping) (test : Slot → Bool) : (m.passing test).Nodup :=
  List.nodup_range.filter _

theorem length_passing (m : Mapping) (test : Slot → Bool) :
    (m.passing test).length = m.slots.countP test := by
  rw [passing, ← List.countP_eq_length_filter, World.countP_range_getElem?]

theorem perm_passing {test test' : Slot → Bool} {s' : Slot} (hs : m.slots[k]? = some s)
    (hafter : after.slots = m.slots.set k s') (hin : test s = true) (hout : test' s' = false)
    (hsame : ∀ (j : Nat) (t : Slot), j ≠ k → m.slots[j]? = some t → test' t = test t) :
    (m.passing test).Perm (k :: after.passing test') := by
  have hlt := (List.getElem?_eq_some_iff.mp hs).1
  have hgone : k ∉ after.passing test' := by
    intro hk
    obtain ⟨t, ht, hpasses⟩ := mem_passing.mp hk
    rw [hafter, List.getElem?_set_self hlt] at ht
    cases ht
    rw [hout] at hpasses
    cases hpasses
  refine (List.perm_ext_iff_of_nodup (nodup_passing _ _)
    (List.nodup_cons.mpr ⟨hgone, nodup_passing _ _⟩)).mpr fun j => ?_
  by_cases hj : j = k
  · subst hj
    exact iff_of_true (mem_passing.mpr ⟨s, hs, hin⟩) List.mem_cons_self
  · rw [List.mem_cons, or_iff_right hj, mem_passing, mem_passing, hafter,
      List.getElem?_set_ne (Ne.symm hj)]
    exact exists_congr fun t => and_congr_right fun ht => by rw [hsame j t hj ht]

/-! ## One claim -/

theorem exists_claimForWriting (h : 0 < m.writableCount overwrite) :
    ∃ k, (m.claimForWriting overwrite).1 = some k := by
  obtain ⟨s, hs, hwritable⟩ := List.countP_pos_iff.mp h
  obtain ⟨k, hk⟩ := List.mem_iff_getElem?.mp hs
  rcases m.claimForWriting_cases overwrite with ⟨-, hnone⟩ | ⟨_, slot, _, _, -, -, -, -, hclaim⟩
  · exact absurd ⟨s, hk, s.isWritable_swept hwritable _⟩
      (hnone k (List.getElem?_eq_some_iff.mp hk).1)
  · exact ⟨slot, by rw [hclaim]⟩

theorem state_of_isReadable (h : m.isReadable s = true) : s.state = .full := by
  simp only [isReadable, Slot.isAddressedTo, Bool.and_eq_true, beq_iff_eq] at h
  exact h.1.1

theorem exists_claimForReading (hdestructive : m.me.destructive = true)
    (h : 0 < m.readableCount) : ∃ k, m.claimForReading.1 = some k := by
  obtain ⟨s, hs, hreadable⟩ := List.countP_pos_iff.mp h
  obtain ⟨k, hk⟩ := List.mem_iff_getElem?.mp hs
  have hswept := Slot.swept_of_full (dropsRecords_of_destructive hdestructive)
    (state_of_isReadable hreadable)
  rcases m.claimForReading_cases with ⟨-, hnone⟩ | ⟨slot, _, -, -, -, hclaim⟩
  · have hidle := hnone k s hk
    rw [hswept, hreadable] at hidle
    cases hidle
  · exact ⟨slot, by rw [hclaim]⟩

/-! ## Slots none of which is stale -/

/-- No slot is stale. -/
def Lively (m : Mapping) : Prop :=
  ∀ s ∈ m.slots, s.isStale m.staleness = false

theorem Lively.swept (h : m.Lively) : ∀ s ∈ m.slots, s.swept m.staleness = s :=
  fun s hs => Slot.swept_of_not_isStale (h s hs)

theorem Lively.set (h : m.Lively) {t : Slot}
    (hslots : after.slots = m.slots.set k (t.touched m.staleness.now))
    (hstaleness : after.staleness = m.staleness) : after.Lively := by
  intro s hs
  rw [hslots] at hs
  rw [hstaleness]
  rcases List.mem_or_eq_of_mem_set hs with hold | rfl
  · exact h s hold
  · exact t.isStale_touched _

/-- Where nothing is stale, a claim for writing takes a slot that may be written and
does nothing else; without one it does nothing. -/
theorem Lively.claimForWriting (h : m.Lively) (overwrite : Bool) :
    (m.claimForWriting overwrite = (none, m) ∧ m.passing (·.isWritable overwrite) = []) ∨
    ∃ k s, m.slots[k]? = some s ∧ s.isWritable overwrite = true ∧
      m.claimForWriting overwrite = (some k, m.takeForWriting k s) := by
  rcases m.claimForWriting_cases overwrite with ⟨hclaim, hnone⟩ | ⟨_, k, _, s, -, -, hs, hw, hclaim⟩
  · refine .inl ⟨by rw [hclaim, sweptAt_eq_self h.swept],
      List.eq_nil_iff_forall_not_mem.mpr fun k hk => ?_⟩
    obtain ⟨s, hs, hw⟩ := mem_passing.mp hk
    exact hnone k (List.getElem?_eq_some_iff.mp hs).1 ⟨s, hs, s.isWritable_swept hw _⟩
  · have hsame := h.swept s (List.mem_of_getElem? hs)
    rw [hsame] at hw hclaim
    exact .inr ⟨k, s, hs, hw, by rw [hclaim, sweptAt_eq_self h.swept]⟩

/-- Where nothing is stale, a claim for reading takes the earliest record and does
nothing else; without one it does nothing. -/
theorem Lively.claimForReading (h : m.Lively) :
    (m.claimForReading = (none, m) ∧ m.passing m.isReadable = []) ∨
    ∃ k s, m.slots[k]? = some s ∧ m.isReadable s = true ∧
      (∀ (j : Nat) (t : Slot), m.slots[j]? = some t → m.isReadable t = true →
        s.sequenceId ≤ t.sequenceId) ∧
      m.claimForReading = (some k, m.takeForReading k s) := by
  have hsame : ∀ {j : Nat} {t : Slot}, m.slots[j]? = some t → t.swept m.staleness = t :=
    fun ht => h.swept _ (List.mem_of_getElem? ht)
  rcases m.claimForReading_cases with ⟨hclaim, hnone⟩ | ⟨k, s, hs, hread, hleast, hclaim⟩
  · refine .inl ⟨by rw [hclaim, sweepAll_eq_self h.swept],
      List.eq_nil_iff_forall_not_mem.mpr fun k hk => ?_⟩
    obtain ⟨s, hs, hread⟩ := mem_passing.mp hk
    have hidle := hnone k s hs
    rw [hsame hs, hread] at hidle
    cases hidle
  · rw [hsame hs] at hread hleast hclaim
    refine .inr ⟨k, s, hs, hread, fun j t ht htread => ?_,
      by rw [hclaim, sweepAll_eq_self h.swept]⟩
    have hle := hleast j t ht
    rw [hsame ht] at hle
    exact hle htread

/-! ## The same claim over and over -/

/-- An operation made over and over takes these slots, in this order, and then finds
none. -/
inductive Takes (operation : Operation) : Mapping → List Nat → Prop where
  | none {m after : Mapping} (h : operation.apply m = .ok (.slot none, after)) :
    Takes operation m []
  | some {m after : Mapping} {k : Nat} {slots : List Nat}
    (h : operation.apply m = .ok (.slot (some k), after)) (hothers : Takes operation after slots) :
    Takes operation m (k :: slots)

/-- If every claim takes one of the slots that there are for it, before the others,
and leaves the others, then all of them are taken. -/
theorem exists_takes {operation : Operation} {Inv : Mapping → Prop} (left : Mapping → List Nat)
    {before : Nat → Nat → Prop}
    (hclaim : ∀ {m : Mapping}, Inv m →
      (∃ after, operation.apply m = .ok (.slot none, after) ∧ left m = []) ∨
      ∃ k after, operation.apply m = .ok (.slot (some k), after) ∧ Inv after ∧
        (left m).Perm (k :: left after) ∧ ∀ j ∈ left after, before k j)
    (hm : Inv m) :
    ∃ slots, m.Takes operation slots ∧ slots.Perm (left m) ∧ slots.Pairwise before := by
  -- Every claim leaves fewer slots than there were.
  induction hn : (left m).length generalizing m with
  | zero =>
    rcases hclaim hm with ⟨after, happly, -⟩ | ⟨k, after, -, -, hperm, -⟩
    · exact ⟨[], .none happly, by rw [List.length_eq_zero_iff.mp hn], .nil⟩
    · have hlength := hperm.length_eq
      rw [hn] at hlength
      cases hlength
  | succ n ih =>
    rcases hclaim hm with ⟨after, -, hnil⟩ | ⟨k, after, happly, hafter, hperm, hbefore⟩
    · rw [hnil] at hn
      cases hn
    · have hlength := hperm.length_eq
      rw [hn, List.length_cons] at hlength
      obtain ⟨slots, htakes, hslots, hordered⟩ := ih hafter (Nat.succ.inj hlength.symm)
      exact ⟨k :: slots, .some happly htakes, (hslots.cons k).trans hperm.symm,
        .cons (fun j hj => hbefore j (hslots.mem_iff.mp hj)) hordered⟩

/-- Where nothing is stale, claims for writing take every slot that may be written. -/
theorem takes_for_writing (h : m.Lively) (overwrite : Bool) :
    ∃ slots, m.Takes (.claimForWriting overwrite) slots ∧
      slots.Perm (m.passing (·.isWritable overwrite)) := by
  have htakes : ∃ slots, m.Takes (.claimForWriting overwrite) slots ∧
      slots.Perm (m.passing (·.isWritable overwrite)) ∧ slots.Pairwise fun _ _ => True := by
    refine exists_takes (fun m => m.passing (·.isWritable overwrite))
      (fun {m} (hm : m.Lively) => ?_) h
    rcases hm.claimForWriting overwrite with ⟨hclaim, hnil⟩ | ⟨k, s, hs, hw, hclaim⟩
    · exact .inl ⟨m, by rw [Operation.apply, hclaim], hnil⟩
    · have hslots := m.slots_takeForWriting k s
      exact .inr ⟨k, _, by rw [Operation.apply, hclaim],
        hm.set hslots (m.staleness_takeForWriting k s),
        perm_passing hs hslots hw (by simp [Slot.isWritable]) fun _ _ _ _ => rfl,
        fun _ _ => trivial⟩
  exact htakes.imp fun slots h => ⟨h.1, h.2.1⟩

/-- Nothing is stale, and the records have the sequence ids that they have in
`segment`, all different. -/
structure Numbered (segment : Segment) (m : Mapping) : Prop where
  lively : m.Lively
  ids : ∀ {k : Nat} {s : Slot}, m.slots[k]? = some s →
    s.sequenceId = (segment.recordAt k).2
  distinct : ∀ {j k : Nat} {s t : Slot}, m.slots[j]? = some s → m.slots[k]? = some t →
    s.state = .full → t.state = .full → s.sequenceId = t.sequenceId → j = k

theorem numbered_of_sound (h : m.Lively) (hsound : m.segment.Sound) :
    Numbered m.segment m where
  lively := h
  ids hs := by rw [recordAt_eq hs]
  distinct hs ht hfull _ heq := by
    have hrecord := ((hsound.slot hs).full hfull).2
    exact hsound.distinct hs ht (by omega) heq

theorem Numbered.set {segment : Segment} {t : Slot} (h : Numbered segment m)
    (hs : m.slots[k]? = some s)
    (hslots : after.slots = m.slots.set k (t.touched m.staleness.now))
    (hstaleness : after.staleness = m.staleness) (hid : t.sequenceId = s.sequenceId)
    (hstate : t.state ≠ .full) : Numbered segment after := by
  have hlt := (List.getElem?_eq_some_iff.mp hs).1
  have hcases : ∀ {j : Nat} {u : Slot}, after.slots[j]? = some u →
      j = k ∧ u = t.touched m.staleness.now ∨ m.slots[j]? = some u := by
    intro j u hu
    rw [hslots] at hu
    by_cases hj : j = k
    · subst hj
      rw [List.getElem?_set_self hlt] at hu
      exact .inl ⟨rfl, (Option.some.inj hu).symm⟩
    · rw [List.getElem?_set_ne (Ne.symm hj)] at hu
      exact .inr hu
  refine ⟨h.lively.set hslots hstaleness, fun {j u} hu => ?_,
    fun {i j u v} hu hv hfull hfull' => ?_⟩
  · rcases hcases hu with ⟨rfl, rfl⟩ | hold
    · exact hid.trans (h.ids hs)
    · exact h.ids hold
  · rcases hcases hu with ⟨-, rfl⟩ | hu
    · exact absurd hfull hstate
    · rcases hcases hv with ⟨-, rfl⟩ | hv
      · exact absurd hfull' hstate
      · exact h.distinct hu hv hfull hfull'

theorem isReadable_takeForReading {t : Slot}
    (hlater : m.isReadable t = true → s.sequenceId < t.sequenceId) :
    (m.takeForReading k s).isReadable t = m.isReadable t := by
  rw [Bool.eq_iff_iff]
  simp only [isReadable, me_takeForReading, Bool.and_eq_true, Bool.or_eq_true,
    decide_eq_true_eq] at hlater ⊢
  refine and_congr_right fun hmeant => or_congr_right' fun hlasting => ?_
  rw [if_neg hlasting, max_lt_iff]
  exact ⟨fun h => h.1, fun h => ⟨h, hlater ⟨hmeant, .inr h⟩⟩⟩

/-- Where nothing is stale, claims for reading take every record that may be read,
in the order of their sequence ids. -/
theorem takes_for_reading {segment : Segment} (h : Numbered segment m) :
    ∃ slots, m.Takes .claimForReading slots ∧ slots.Perm (m.passing m.isReadable) ∧
      slots.Pairwise fun j k => (segment.recordAt j).2 < (segment.recordAt k).2 := by
  refine exists_takes (fun m => m.passing m.isReadable)
    (fun {m} (hm : Numbered segment m) => ?_) h
  rcases hm.lively.claimForReading with ⟨hclaim, hnil⟩ | ⟨k, s, hs, hread, hleast, hclaim⟩
  · exact .inl ⟨m, by rw [Operation.apply, hclaim], hnil⟩
  · have hslots := m.slots_takeForReading k s
    have hlater : ∀ (j : Nat) (t : Slot), j ≠ k → m.slots[j]? = some t →
        m.isReadable t = true → s.sequenceId < t.sequenceId := by
      intro j t hj ht htread
      refine lt_of_le_of_ne (hleast j t ht htread) fun heq => hj ?_
      exact hm.distinct ht hs (state_of_isReadable htread) (state_of_isReadable hread) heq.symm
    have hperm : (m.passing m.isReadable).Perm
        (k :: (m.takeForReading k s).passing (m.takeForReading k s).isReadable) :=
      perm_passing hs hslots hread (by simp [isReadable, Slot.isAddressedTo])
        fun j t hj ht => isReadable_takeForReading (hlater j t hj ht)
    refine .inr ⟨k, _, by rw [Operation.apply, hclaim],
      hm.set hs hslots (m.staleness_takeForReading k s) rfl (by simp), hperm, fun j hj => ?_⟩
    obtain ⟨t, ht, htread⟩ := mem_passing.mp (hperm.mem_iff.mpr (List.mem_cons_of_mem k hj))
    have hne : j ≠ k := by
      rintro rfl
      exact (List.nodup_cons.mp (hperm.nodup_iff.mp (nodup_passing _ _))).1 hj
    rw [← hm.ids hs, ← hm.ids ht]
    exact hlater j t hne ht htread

end Mapping

end Segment

/-! ## Worlds -/

namespace World

variable {w : World} {past : List Moment} {i number : Nat} {p : Party} {me : Attachment}

/-- What a manager is told that makes an operation so many times, with no other call
in between. -/
def replies (w : World) (i : Nat) (operation : Operation) :
    (times : Nat) → List (Option (Except Segment.Error Answer))
  | 0 => []
  | times + 1 => w.answer? i operation :: (w.step (.perform i operation)).replies i operation times

/-- A claim made over and over gets these slots, one after the other, and then none. -/
def Yields (w : World) (i : Nat) (claim : Operation) (slots : List Nat) : Prop :=
  w.replies i claim (slots.length + 1) =
    slots.map (fun k => some (.ok (.slot (some k)))) ++ [some (.ok (.slot none))]

theorem now_perform (w : World) (i : Nat) (operation : Operation) :
    (w.step (.perform i operation)).now i = w.now i := by
  show (w.act i operation.perform).now i = w.now i
  cases hmanager : w.manager? i with
  | none => rw [act_of_none _ hmanager]
  | some manager =>
    have hlt := lt_of_manager? hmanager
    rw [act_eq_seat _ hmanager, Operation.on_perform, now, now, hmanager]
    simp only [manager?, seat, List.getElem?_set_self hlt, Option.join_some, Option.map_some,
      Option.getD_some, Manager.step, Action.on_of]
    cases hmapping : manager.mapping? w.host with
    | none => rfl
    | some m =>
      simp only
      cases operation.apply m with
      | ok told => rfl
      | error breach =>
        simp only [Manager.shutdown_eq false hmapping rfl]
        rfl

theorem Coherent.yields {claim : Operation} {m : Mapping} {slots : List Nat}
    (h : m.Takes claim slots) (hw : w.Coherent) (hp : w.party? number = some p)
    (hme : p.member i = some me) (hm : m = ⟨me, w.now i, p.segment⟩) :
    w.Yields i claim slots := by
  induction h generalizing w p me with
  | none happly =>
    subst hm
    rw [Yields, List.length_nil, replies, replies, hw.answer?_eq hp hme, happly]
    rfl
  | @some _ after k slots happly _ ih =>
    subst hm
    have hturned := step_turned hw (.perform i claim)
    obtain ⟨p', hp', hturn⟩ := hturned.turn hp
    have hp'' := hturn.moved_of_apply rfl hme happly
    subst hp''
    have hnow := (Operation.apply_move happly).kept.now
    rw [Yields, List.length_cons, replies, hw.answer?_eq hp hme, happly, List.map_cons,
      List.cons_append]
    refine congrArg _ (ih (hturned.coherent hw) hp' (Function.update_self ..) ?_)
    calc after = ⟨after.me, after.now, after.segment⟩ := rfl
      _ = _ := by rw [hnow, now_perform]; rfl

/-- **Claims are as counted.** As long as there is a slot that may be written, a claim
for writing gets one, and where a record is gone once read, so does a claim for
reading as long as there is a record to read, whatever is stale. Where no slot is
stale at the moment, the next claims for writing, with nothing in between, get as many
slots as were counted, each once and all that may be written, and then none; and the
next claims for reading get as many as were counted, which are those that may be read,
in the order of their sequence ids, and then none. -/
theorem claims_as_counted {past : List Moment} {w : World} (hrun : Run past w) {i : Nat}
    {manager : Manager} {me : Attachment} {segment : Segment}
    (hmanager : w.manager? i = some manager) (hme : manager.attachment = some me)
    (hsegment : w.segment? me.object = some segment) :
    (∀ overwrite, manager.hasWritable overwrite w.host = true →
      ∃ k, w.answer? i (.claimForWriting overwrite) = some (.ok (.slot (some k)))) ∧
    (segment.control.isDestructive = true → manager.hasReadable w.host = true →
      ∃ k, w.answer? i .claimForReading = some (.ok (.slot (some k)))) ∧
    ((Mapping.mk me (w.now i) segment).Lively →
      (∀ overwrite, ∃ slots : List Nat, w.Yields i (.claimForWriting overwrite) slots ∧
        slots.length = manager.writableCount overwrite w.host ∧ slots.Nodup ∧
        ∀ k, k ∈ slots ↔ ∃ s, segment.slots[k]? = some s ∧ s.isWritable overwrite = true) ∧
      ∃ slots : List Nat, w.Yields i .claimForReading slots ∧
        slots.length = manager.readableCount w.host ∧ (∀ k, k ∈ slots ↔ w.mayRead i k = true) ∧
        slots.Pairwise fun j k => (segment.recordAt j).2 < (segment.recordAt k).2) := by
  have hp := party?_of_segment? hsegment
  have hmember : w.member me.object i = some me :=
    member_eq_some_iff.mpr ⟨(attachment?_eq hmanager).trans hme, rfl⟩
  have hmapping : manager.mapping? w.host = some ⟨me, w.now i, segment⟩ :=
    hrun.coherent.mapping?_of_party hmanager hme hp
  have hanswer := hrun.coherent.answer?_eq hp hmember
  have hwritable : ∀ overwrite, manager.writableCount overwrite w.host =
      (Mapping.mk me (w.now i) segment).writableCount overwrite := fun overwrite => by
    rw [Manager.writableCount, Manager.seen, hmapping, Option.map_some, Option.getD_some]
  have hreadable : manager.readableCount w.host =
      (Mapping.mk me (w.now i) segment).readableCount := by
    rw [Manager.readableCount, Manager.seen, hmapping, Option.map_some, Option.getD_some]
  refine ⟨fun overwrite hsome => ?_, fun hdestructive hsome => ?_,
    fun hlively => ⟨fun overwrite => ?_, ?_⟩⟩
  · rw [Manager.hasWritable, decide_eq_true_eq, hwritable] at hsome
    obtain ⟨k, hk⟩ := Mapping.exists_claimForWriting hsome
    exact ⟨k, by rw [hanswer, Operation.apply, hk]⟩
  · rw [Manager.hasReadable, decide_eq_true_eq, hreadable] at hsome
    have hgone := ((hrun.coherent.party hp).fits hmember).destructive.trans hdestructive
    obtain ⟨k, hk⟩ := Mapping.exists_claimForReading hgone hsome
    exact ⟨k, by rw [hanswer, Operation.apply, hk]⟩
  · obtain ⟨slots, htakes, hperm⟩ := Mapping.takes_for_writing hlively overwrite
    refine ⟨slots, hrun.coherent.yields htakes hp hmember rfl, ?_,
      hperm.nodup_iff.mpr (Mapping.nodup_passing _ _), fun k => ?_⟩
    · rw [hwritable, hperm.length_eq, Mapping.length_passing]
      rfl
    · rw [hperm.mem_iff, Mapping.mem_passing]
      rfl
  · obtain ⟨slots, htakes, hperm, hordered⟩ := Mapping.takes_for_reading
      (Mapping.numbered_of_sound hlively (hrun.sound hp))
    refine ⟨slots, hrun.coherent.yields htakes hp hmember rfl, ?_, fun k => ?_, hordered⟩
    · rw [hreadable, hperm.length_eq, Mapping.length_passing]
      rfl
    · rw [hperm.mem_iff, Mapping.mem_passing, mayRead, hmanager, Option.bind_some, hmapping,
        Option.any_some, Option.any_eq_true]

/-- Two records for all wait for a reader, and neither is stale yet. -/
theorem claims_as_counted_two_records :
    let config : Segment.Config := ⟨7, 3, 8, 10, false, 0⟩
    let calls : List Call := [.attach config .manual, .attach config .manual,
      .perform 0 (.claimForWriting false), .perform 0 (.publish 0 .any),
      .perform 0 (.claimForWriting false), .perform 0 (.publish 1 .any), .tick ⟨10⟩ ⟨0⟩]
    let w := (run calls).2
    ∃ manager me segment, w.manager? 1 = some manager ∧ manager.attachment = some me ∧
      w.segment? me.object = some segment ∧ (Mapping.mk me (w.now 1) segment).Lively ∧
      (∃ k, w.answer? 1 (.claimForWriting false) = some (.ok (.slot (some k)))) ∧
      ∃ slots : List Nat, w.Yields 1 .claimForReading slots ∧ slots.length = 2 ∧
        ∀ k, k ∈ slots ↔ w.mayRead 1 k = true := by
  intro config calls w
  obtain ⟨manager, hmanager, hfacts⟩ := (Option.any_eq_true (fun manager : Manager =>
      manager.hasWritable false w.host && manager.readableCount w.host == 2 &&
        manager.attachment.any fun me => (w.segment? me.object).any fun segment =>
          segment.slots.all fun s => !s.isStale (Mapping.mk me (w.now 1) segment).staleness)
    (w.manager? 1)).mp (by decide +kernel)
  simp only [Bool.and_eq_true, beq_iff_eq] at hfacts
  obtain ⟨⟨hwritable, hcount⟩, hattached⟩ := hfacts
  obtain ⟨me, hme, hfound⟩ := (Option.any_eq_true ..).mp hattached
  obtain ⟨segment, hsegment, hfresh⟩ := (Option.any_eq_true ..).mp hfound
  have hlively : (Mapping.mk me (w.now 1) segment).Lively := fun s hs => by
    simpa using List.all_eq_true.mp hfresh s hs
  obtain ⟨hwrite, -, hall⟩ := claims_as_counted (run_run calls) hmanager hme hsegment
  obtain ⟨-, slots, hyields, hlength, hmem, -⟩ := hall hlively
  exact ⟨manager, me, segment, hmanager, hme, hsegment, hlively, hwrite false hwritable,
    slots, hyields, hlength.trans hcount, hmem⟩

end World

end SlotTransport
