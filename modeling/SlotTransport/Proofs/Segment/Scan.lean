/-
What the scans of a segment do, slot by slot. A scan for a free slot reclaims
what it passes and takes the first slot that it may have (`takeFirst_cases`); a
scan for a record reclaims everywhere and takes the record with the lowest
sequence id (`claimForReading_cases`).
-/
import Mathlib.Data.List.Nodup
import Mathlib.Data.List.Perm.Subperm
import Mathlib.Data.Nat.ModEq
import SlotTransport.Proofs.Segment.Slot
import SlotTransport.Segment.Claim

namespace SlotTransport.Segment

/-! ## Reclaiming a slot -/

namespace Slot

theorem swept_of_not_isStale {s : Slot} {staleness : Staleness} (h : s.isStale staleness = false) :
    s.swept staleness = s := by
  simp [swept, reclaimed?, h]

theorem isStale_eq_true_iff {s : Slot} {staleness : Staleness} :
    s.isStale staleness = true ↔
      staleness.timeout ≠ 0 ∧ staleness.timeout < staleness.now - s.lastTouch := by
  simp [isStale]

theorem isStale_touched (s : Slot) (staleness : Staleness) :
    (s.touched staleness.now).isStale staleness = false := by
  simp [isStale, touched]

theorem reclaimed?_cases {s s' : Slot} {staleness : Staleness} {entitled : Bool}
    (h : s.reclaimed? staleness entitled = some s') :
    (entitled = true ∨ s.isStale staleness = true) ∧
      ((s.state = .reading ∧ s' = s.returned.touched staleness.now) ∨
        (s.state = .writing ∧ s' = s.freed.touched staleness.now) ∨
        (s.state = .full ∧ s.isStale staleness = true ∧ staleness.dropsRecords = true ∧
          s' = s.freed.touched staleness.now)) := by
  unfold reclaimed? at h
  simp only at h
  split at h
  · rename_i hcause
    refine ⟨by simpa using hcause, ?_⟩
    split at h
    · rename_i hstate
      exact .inl ⟨hstate, (Option.some.inj h).symm⟩
    · rename_i hstate
      exact .inr (.inl ⟨hstate, (Option.some.inj h).symm⟩)
    · rename_i hstate
      split at h
      · rename_i hdrop
        simp only [Bool.and_eq_true] at hdrop
        exact .inr (.inr ⟨hstate, hdrop.1, hdrop.2, (Option.some.inj h).symm⟩)
      · cases h
    · cases h
  · cases h

theorem reclaimed?_of_swept_ne {s : Slot} {staleness : Staleness} (h : s.swept staleness ≠ s) :
    s.reclaimed? staleness false = some (s.swept staleness) := by
  unfold swept at h ⊢
  cases hr : s.reclaimed? staleness false with
  | none => simp [hr] at h
  | some s' => rfl

/-- A slot that a sweep changes is stale, and was held or held a record. -/
theorem swept_cases (s : Slot) (staleness : Staleness) :
    s.swept staleness = s ∨
      (s.isStale staleness = true ∧ s.state = .reading ∧
        s.swept staleness = s.returned.touched staleness.now) ∨
      (s.isStale staleness = true ∧ s.state = .writing ∧
        s.swept staleness = s.freed.touched staleness.now) ∨
      (s.isStale staleness = true ∧ s.state = .full ∧ staleness.dropsRecords = true ∧
        s.swept staleness = s.freed.touched staleness.now) := by
  by_cases hkept : s.swept staleness = s
  · exact .inl hkept
  · obtain ⟨hcause, hcases⟩ := reclaimed?_cases (reclaimed?_of_swept_ne hkept)
    have hstale : s.isStale staleness = true := by simpa using hcause
    rcases hcases with ⟨hstate, h⟩ | ⟨hstate, h⟩ | ⟨hstate, -, hdrop, h⟩
    · exact .inr (.inl ⟨hstale, hstate, h⟩)
    · exact .inr (.inr (.inl ⟨hstale, hstate, h⟩))
    · exact .inr (.inr (.inr ⟨hstale, hstate, hdrop, h⟩))

theorem swept_swept (s : Slot) (staleness : Staleness) :
    (s.swept staleness).swept staleness = s.swept staleness := by
  rcases s.swept_cases staleness with h | ⟨-, -, h⟩ | ⟨-, -, h⟩ | ⟨-, -, -, h⟩
  · rw [h, h]
  all_goals
    rw [h]
    exact swept_of_not_isStale (isStale_touched _ staleness)

end Slot

namespace Mapping

/-! ## The order of a scan -/

@[simp] theorem length_cyclic (count cursor : Nat) : (cyclic count cursor).length = count := by
  simp [cyclic]

theorem lt_of_mem_cyclic {count cursor slot : Nat} (h : slot ∈ cyclic count cursor) :
    slot < count := by
  simp only [cyclic, List.mem_map, List.mem_range] at h
  obtain ⟨step, hstep, rfl⟩ := h
  exact Nat.mod_lt _ (by omega)

theorem nodup_cyclic (count cursor : Nat) : (cyclic count cursor).Nodup := by
  refine List.Nodup.map_on ?_ List.nodup_range
  intro a ha b hb hab
  simp only [List.mem_range] at ha hb
  have hmod : a % count = b % count := Nat.ModEq.add_left_cancel' cursor hab
  rwa [Nat.mod_eq_of_lt ha, Nat.mod_eq_of_lt hb] at hmod

/-- A scan comes past every slot. -/
theorem mem_cyclic {count cursor slot : Nat} : slot ∈ cyclic count cursor ↔ slot < count := by
  refine ⟨lt_of_mem_cyclic, fun hslot => ?_⟩
  have hsub : cyclic count cursor ⊆ List.range count := fun k hk =>
    List.mem_range.mpr (lt_of_mem_cyclic hk)
  have hperm : (cyclic count cursor).Perm (List.range count) :=
    (List.subperm_of_subset (nodup_cyclic count cursor) hsub).perm_of_length_le (by simp)
  exact hperm.mem_iff.mpr (List.mem_range.mpr hslot)

theorem cyclic_succ (count cursor : Nat) :
    ∃ others, cyclic (count + 1) cursor = cursor % (count + 1) :: others := by
  simp [cyclic, List.range_succ_eq_map]

/-! ## Sweeping -/

/-- The mapping with some of its slots reclaimed, where that is due. -/
def sweptAt (m : Mapping) (order : List Nat) : Mapping :=
  m.withSlots (m.slots.mapIdx fun k s => if k ∈ order then s.swept m.staleness else s)

@[simp] theorem staleness_withSlots (m : Mapping) (slots : List Slot) :
    (m.withSlots slots).staleness = m.staleness :=
  rfl

@[simp] theorem staleness_sweptAt (m : Mapping) (order : List Nat) :
    (m.sweptAt order).staleness = m.staleness :=
  rfl

@[simp] theorem me_sweptAt (m : Mapping) (order : List Nat) : (m.sweptAt order).me = m.me :=
  rfl

@[simp] theorem length_slots_sweptAt (m : Mapping) (order : List Nat) :
    (m.sweptAt order).slots.length = m.slots.length := by
  simp [sweptAt]

theorem slots_sweptAt (m : Mapping) (order : List Nat) (k : Nat) :
    (m.sweptAt order).slots[k]? =
      m.slots[k]?.map fun s => if k ∈ order then s.swept m.staleness else s := by
  simp [sweptAt, List.getElem?_mapIdx]

theorem withSlots_congr {m : Mapping} {slots slots' : List Slot}
    (h : ∀ k : Nat, slots[k]? = slots'[k]?) : m.withSlots slots = m.withSlots slots' := by
  rw [List.ext_getElem? h]

theorem sweep_eq_sweptAt (m : Mapping) (slot : Nat) : m.sweep slot = m.sweptAt [slot] := by
  refine withSlots_congr fun k => ?_
  rw [List.getElem?_modify, List.getElem?_mapIdx]
  by_cases hk : slot = k
  · subst hk
    simp
  · simp [hk, Ne.symm hk]

theorem sweptAt_nil (m : Mapping) : m.sweptAt [] = m := by
  have hslots : (m.sweptAt []).slots = m.slots := by
    refine List.ext_getElem? fun k => ?_
    simp [slots_sweptAt]
  calc m.sweptAt [] = m.withSlots (m.sweptAt []).slots := rfl
    _ = m := by rw [hslots]; rfl

theorem sweptAt_sweptAt {m : Mapping} {first second : List Nat}
    (h : ∀ k ∈ first, k ∉ second) : (m.sweptAt first).sweptAt second =
      m.sweptAt (first ++ second) := by
  have hslots : ((m.sweptAt first).sweptAt second).slots = (m.sweptAt (first ++ second)).slots := by
    refine List.ext_getElem? fun k => ?_
    simp only [slots_sweptAt, staleness_sweptAt, Option.map_map]
    congr 1
    funext s
    by_cases hfirst : k ∈ first
    · simp [hfirst, h k hfirst]
    · simp [hfirst]
  calc (m.sweptAt first).sweptAt second
      = m.withSlots ((m.sweptAt first).sweptAt second).slots := rfl
    _ = m.sweptAt (first ++ second) := by rw [hslots]; rfl

theorem slots_sweepAll (m : Mapping) (k : Nat) :
    m.sweepAll.slots[k]? = m.slots[k]?.map (·.swept m.staleness) := by
  simp [sweepAll]

/-- Where no slot is due, reclaiming changes nothing. -/
theorem sweptAt_eq_self {m : Mapping} (h : ∀ s ∈ m.slots, s.swept m.staleness = s)
    (order : List Nat) : m.sweptAt order = m := by
  have hslots : (m.sweptAt order).slots = m.slots := by
    refine List.ext_getElem? fun k => ?_
    rw [slots_sweptAt]
    cases hk : m.slots[k]? with
    | none => rfl
    | some s => simp [h s (List.mem_of_getElem? hk)]
  calc m.sweptAt order = m.withSlots (m.sweptAt order).slots := rfl
    _ = m := by rw [hslots]; rfl

theorem sweepAll_eq_self {m : Mapping} (h : ∀ s ∈ m.slots, s.swept m.staleness = s) :
    m.sweepAll = m := by
  have hslots : m.sweepAll.slots = m.slots :=
    (List.map_congr_left h).trans (List.map_id m.slots)
  calc m.sweepAll = m.withSlots m.sweepAll.slots := rfl
    _ = m := by rw [hslots]; rfl

/-! ## Claiming for writing -/

/-- The slot may be claimed for writing once it has been reclaimed, if that is
due. -/
def isCandidate (m : Mapping) (overwrite : Bool) (slot : Nat) : Prop :=
  ∃ s, m.slots[slot]? = some s ∧ (s.swept m.staleness).isWritable overwrite = true

/-- The first candidate is taken, and what comes before it is swept; without a
candidate all is swept. -/
theorem takeFirst_cases (overwrite : Bool) :
    ∀ (order : List Nat) (m : Mapping), order.Nodup →
      (m.takeFirst overwrite order = (none, m.sweptAt order) ∧
        ∀ k ∈ order, ¬ m.isCandidate overwrite k) ∨
      ∃ before slot after s, order = before ++ slot :: after ∧
        (∀ k ∈ before, ¬ m.isCandidate overwrite k) ∧ m.slots[slot]? = some s ∧
        (s.swept m.staleness).isWritable overwrite = true ∧
        m.takeFirst overwrite order = (some slot,
          (m.sweptAt (before ++ [slot])).takeForWriting slot (s.swept m.staleness))
  | [], m, _ => .inl ⟨by rw [sweptAt_nil]; rfl, by simp⟩
  | slot :: others, m, hnodup => by
    obtain ⟨hslot, hothers⟩ := List.nodup_cons.mp hnodup
    have hlookup : (m.sweptAt [slot]).slots[slot]? = m.slots[slot]?.map (·.swept m.staleness) := by
      simp [slots_sweptAt]
    -- Slots still to come look the same before and after `slot` is swept.
    have hrest : ∀ k ∈ others, (m.sweptAt [slot]).slots[k]? = m.slots[k]? := by
      intro k hk
      have hne : k ≠ slot := fun h => hslot (h ▸ hk)
      simp [slots_sweptAt, hne]
    have hcandidate : ∀ k ∈ others,
        ((m.sweptAt [slot]).isCandidate overwrite k ↔ m.isCandidate overwrite k) := by
      intro k hk
      simp only [isCandidate, hrest k hk, staleness_sweptAt]
    have hjoin : ∀ {later : List Nat}, (∀ k ∈ later, k ∈ others) →
        (m.sweptAt [slot]).sweptAt later = m.sweptAt (slot :: later) := by
      intro later hlater
      refine sweptAt_sweptAt fun k hk hmem => ?_
      rw [List.mem_singleton] at hk
      exact hslot (hk ▸ hlater k hmem)
    by_cases hc : m.isCandidate overwrite slot
    · obtain ⟨s, hs, hw⟩ := hc
      refine .inr ⟨[], slot, others, s, rfl, by simp, hs, hw, ?_⟩
      rw [takeFirst, sweep_eq_sweptAt, hlookup, hs]
      simp [hw]
    · have hskip : m.takeFirst overwrite (slot :: others) =
          (m.sweptAt [slot]).takeFirst overwrite others := by
        rw [takeFirst, sweep_eq_sweptAt, hlookup]
        cases hs : m.slots[slot]? with
        | none => rfl
        | some s =>
          have hw : (s.swept m.staleness).isWritable overwrite = false := by
            by_contra hne
            exact hc ⟨s, hs, by simpa using hne⟩
          simp [hw]
      rcases takeFirst_cases overwrite others (m.sweptAt [slot]) hothers with
        ⟨hnone, hall⟩ | ⟨before, taken, after, s, rfl, hbefore, hs, hw, htake⟩
      · refine .inl ⟨by rw [hskip, hnone, hjoin fun k hk => hk], ?_⟩
        intro k hk
        rcases List.mem_cons.mp hk with rfl | hk
        · exact hc
        · exact fun h => hall k hk ((hcandidate k hk).mpr h)
      · have htaken : taken ∈ before ++ taken :: after := by simp
        refine .inr ⟨slot :: before, taken, after, s, rfl, ?_, ?_, hw, ?_⟩
        · intro k hk
          rcases List.mem_cons.mp hk with rfl | hk
          · exact hc
          · exact fun h => hbefore k hk ((hcandidate k (by simp [hk])).mpr h)
        · rw [← hrest taken htaken]
          exact hs
        · rw [hskip, htake, hjoin]
          · rfl
          · intro k hk
            rcases List.mem_append.mp hk with hk | hk
            · exact List.mem_append_left _ hk
            · rw [List.mem_singleton.mp hk]
              exact htaken

theorem claimForWriting_cases (m : Mapping) (overwrite : Bool) :
    (m.claimForWriting overwrite =
        (none, m.sweptAt (cyclic m.slots.length m.segment.control.writerCursor)) ∧
      ∀ k < m.slots.length, ¬ m.isCandidate overwrite k) ∨
    ∃ before slot after s,
      cyclic m.slots.length m.segment.control.writerCursor = before ++ slot :: after ∧
      (∀ k ∈ before, ¬ m.isCandidate overwrite k) ∧ m.slots[slot]? = some s ∧
      (s.swept m.staleness).isWritable overwrite = true ∧
      m.claimForWriting overwrite = (some slot,
        (m.sweptAt (before ++ [slot])).takeForWriting slot (s.swept m.staleness)) := by
  rcases takeFirst_cases overwrite (cyclic m.slots.length m.segment.control.writerCursor) m
      (nodup_cyclic _ _) with ⟨hnone, hall⟩ | hsome
  · exact .inl ⟨hnone, fun k hk => hall k (mem_cyclic.mpr hk)⟩
  · exact .inr hsome

/-! ## Claiming for reading -/

theorem earliest?_eq_none_iff {slots : List (Nat × Slot)} :
    earliest? slots = none ↔ slots = [] := by
  cases slots with
  | nil => simp [earliest?]
  | cons first others =>
    simp only [earliest?, reduceCtorEq, iff_false]
    split
    · simp
    · split <;> simp

theorem earliest?_mem {slots : List (Nat × Slot)} {x : Nat × Slot}
    (h : earliest? slots = some x) : x ∈ slots := by
  induction slots generalizing x with
  | nil => simp [earliest?] at h
  | cons first others ih =>
    unfold earliest? at h
    split at h
    · simp only [Option.some.injEq] at h
      simp [h]
    · rename_i other hother
      split at h
      · simp only [Option.some.injEq] at h
        exact List.mem_cons_of_mem _ (ih (h ▸ hother))
      · simp only [Option.some.injEq] at h
        simp [h]

theorem earliest?_le {slots : List (Nat × Slot)} {x : Nat × Slot}
    (h : earliest? slots = some x) : ∀ y ∈ slots, x.2.sequenceId ≤ y.2.sequenceId := by
  induction slots generalizing x with
  | nil => simp [earliest?] at h
  | cons first others ih =>
    unfold earliest? at h
    intro y hy
    split at h
    · rename_i hnone
      simp only [Option.some.injEq] at h
      rw [earliest?_eq_none_iff.mp hnone, List.mem_singleton] at hy
      exact (hy.trans h) ▸ le_rfl
    · rename_i other hother
      split at h <;> simp only [Option.some.injEq] at h <;> subst h
      · rename_i hlt
        rcases List.mem_cons.mp hy with rfl | hy
        · exact hlt.le
        · exact ih hother y hy
      · rename_i hge
        rcases List.mem_cons.mp hy with rfl | hy
        · exact le_rfl
        · exact (not_lt.mp hge).trans (ih hother y hy)

theorem mem_readable {m : Mapping} {k : Nat} {s : Slot} :
    (k, s) ∈ m.readable ↔ m.slots[k]? = some s ∧ m.isReadable s = true := by
  unfold readable
  rw [List.mem_filterMap]
  constructor
  · rintro ⟨slot, -, h⟩
    split at h
    · rename_i t ht
      split at h
      · rename_i hread
        simp only [Option.some.injEq, Prod.mk.injEq] at h
        obtain ⟨rfl, rfl⟩ := h
        exact ⟨ht, hread⟩
      · cases h
    · cases h
  · rintro ⟨hs, hread⟩
    obtain ⟨hk, -⟩ := List.getElem?_eq_some_iff.mp hs
    exact ⟨k, mem_cyclic.mpr hk, by simp [hs, hread]⟩

@[simp] theorem isReadable_withSlots (m : Mapping) (slots : List Slot) (s : Slot) :
    (m.withSlots slots).isReadable s = m.isReadable s :=
  rfl

/-- Where a record is gone once read, one that waits does not go stale. -/
theorem dropsRecords_of_destructive {m : Mapping} (hdestructive : m.me.destructive = true) :
    m.staleness.dropsRecords = false := by
  simp [staleness, hdestructive]

theorem lastSeen_lt_of_readable {m : Mapping} {s : Slot} (hlasting : m.me.destructive = false)
    (hread : m.isReadable s = true) : m.me.lastSeen < s.sequenceId := by
  rw [isReadable, hlasting, Bool.false_or, Bool.and_eq_true, decide_eq_true_eq] at hread
  exact hread.2

theorem isReadable_of_any (m : Mapping) {s : Slot} (hdestructive : m.me.destructive = true)
    (hfull : s.state = .full) (hany : s.owner = noOwner) : m.isReadable s = true := by
  simp [isReadable, Slot.isAddressedTo, hfull, hany, hdestructive]

/-- All is swept. Then the readable record with the lowest sequence id is taken,
if there is a readable record. -/
theorem claimForReading_cases (m : Mapping) :
    (m.claimForReading = (none, m.sweepAll) ∧
      ∀ (k : Nat) s, m.slots[k]? = some s → m.isReadable (s.swept m.staleness) = false) ∨
    ∃ slot s, m.slots[slot]? = some s ∧ m.isReadable (s.swept m.staleness) = true ∧
      (∀ (k : Nat) t, m.slots[k]? = some t → m.isReadable (t.swept m.staleness) = true →
        (s.swept m.staleness).sequenceId ≤ (t.swept m.staleness).sequenceId) ∧
      m.claimForReading = (some slot, m.sweepAll.takeForReading slot (s.swept m.staleness)) := by
  have hmem : ∀ {k : Nat} {s : Slot}, m.slots[k]? = some s →
      m.isReadable (s.swept m.staleness) = true →
        (k, s.swept m.staleness) ∈ m.sweepAll.readable := by
    intro k s hs hread
    exact mem_readable.mpr ⟨by simp [slots_sweepAll, hs], hread⟩
  cases hfound : earliest? m.sweepAll.readable with
  | none =>
    refine .inl ⟨by simp [claimForReading, hfound], fun k s hs => ?_⟩
    by_contra hread
    have := hmem hs (by simpa using hread)
    simp [earliest?_eq_none_iff.mp hfound] at this
  | some found =>
    obtain ⟨slot, taken⟩ := found
    obtain ⟨hslot, hread⟩ := mem_readable.mp (earliest?_mem hfound)
    rw [slots_sweepAll] at hslot
    obtain ⟨s, hs, rfl⟩ := Option.map_eq_some_iff.mp hslot
    refine .inr ⟨slot, s, hs, hread, fun k t ht htread => ?_, by simp [claimForReading, hfound]⟩
    exact earliest?_le hfound _ (hmem ht htread)

end Mapping

end SlotTransport.Segment
