/-
What waits for a manager. The backlog of a manager is what it may read once stale slots
are reclaimed, in ascending order of sequence ids. A claim for reading takes the head of
it (`Orderly.claimForReading`), and when that was read and released the tail is left
(`Orderly.backlog_finished`), whether records are gone once read or not.
-/
import SlotTransport.Proofs.World.Search
import SlotTransport.Proofs.World.Forecast
import SlotTransport.Proofs.Event.Skipping
import Mathlib.Data.List.Sort

namespace SlotTransport

open Segment

namespace Segment

namespace Mapping

variable {m : Mapping} {k : Nat} {s t : Slot} {others : List (Nat × Slot)}

/-- The records that the manager may read once stale slots are reclaimed, in ascending
order of their sequence ids. -/
def backlog (m : Mapping) : List (Nat × Slot) :=
  m.sweepAll.readable.insertionSort fun x y => x.2.sequenceId ≤ y.2.sequenceId

theorem mem_backlog :
    (k, s) ∈ m.backlog ↔ m.sweepAll.slots[k]? = some s ∧ m.isReadable s = true := by
  rw [backlog, List.mem_insertionSort, mem_readable]
  rfl

theorem length_backlog_le (m : Mapping) : m.backlog.length ≤ m.slots.length := by
  have hle : m.sweepAll.readable.length ≤
      (cyclic m.sweepAll.slots.length m.sweepAll.segment.control.readerCursor).length :=
    List.length_filterMap_le ..
  rw [length_cyclic, sweepAll, slots_withSlots, List.length_map] at hle
  rw [backlog, List.length_insertionSort]
  exact hle

/-- The records that wait have different sequence ids, and no more is written than there is
room for. -/
structure Orderly (m : Mapping) : Prop where
  ascending : m.backlog.Pairwise fun x y => x.2.sequenceId < y.2.sequenceId
  written : ∀ x ∈ m.backlog, x.2.writePos ≤ m.segment.slotSize

theorem sorted_backlog (m : Mapping) :
    m.backlog.Pairwise fun x y => x.2.sequenceId ≤ y.2.sequenceId := by
  have : Std.Total fun x y : Nat × Slot => x.2.sequenceId ≤ y.2.sequenceId :=
    ⟨fun x y => le_total _ _⟩
  have : IsTrans (Nat × Slot) fun x y => x.2.sequenceId ≤ y.2.sequenceId :=
    ⟨fun _ _ _ => le_trans⟩
  exact List.pairwise_insertionSort _ _

theorem nodup_readable (m : Mapping) : m.readable.Nodup := by
  refine List.Nodup.filterMap (fun j k x hj hk => ?_) (nodup_cyclic _ _)
  have hslot : ∀ slot, x ∈ m.readableIn [slot] → x.1 = slot := fun slot hx =>
    List.mem_singleton.mp (mem_readableIn.mp hx).1
  exact (hslot j (List.mem_filterMap.mpr ⟨j, List.mem_singleton_self j, hj⟩)).symm.trans
    (hslot k (List.mem_filterMap.mpr ⟨k, List.mem_singleton_self k, hk⟩))

theorem nodup_backlog (m : Mapping) : m.backlog.Nodup :=
  (List.perm_insertionSort _ _).nodup_iff.mpr m.sweepAll.nodup_readable

theorem Orderly.of_sound (h : m.segment.Sound) : m.Orderly := by
  constructor
  · refine (m.sorted_backlog.and m.nodup_backlog).imp_of_mem ?_
    rintro ⟨j, s⟩ ⟨k, t⟩ hs ht ⟨hle, hne⟩
    obtain ⟨hs, hread⟩ := mem_backlog.mp hs
    obtain ⟨ht, -⟩ := mem_backlog.mp ht
    refine lt_of_le_of_ne hle fun hid => hne ?_
    obtain rfl := eq_of_readable h hs ht hread hid
    cases hs.symm.trans ht
    rfl
  · rintro ⟨k, s⟩ hs
    obtain ⟨hs, -⟩ := mem_backlog.mp hs
    rw [slots_sweepAll] at hs
    obtain ⟨s₀, hs₀, rfl⟩ := Option.map_eq_some_iff.mp hs
    exact ((h.slot hs₀).swept m.staleness).written

theorem eq_of_ascending {records : List (Nat × Slot)}
    (h : records.Pairwise fun x y => x.2.sequenceId < y.2.sequenceId) {x y : Nat × Slot}
    (hx : x ∈ records) (hy : y ∈ records) (hid : x.2.sequenceId = y.2.sequenceId) : x = y := by
  have hnodup : (records.map fun x => x.2.sequenceId).Nodup :=
    List.pairwise_map.mpr (h.imp ne_of_lt)
  exact List.inj_on_of_nodup_map hnodup hx hy hid

/-- Records in ascending order are the backlog if they are what is in it. -/
theorem backlog_eq {records : List (Nat × Slot)}
    (hascending : records.Pairwise fun x y => x.2.sequenceId < y.2.sequenceId)
    (hmem : ∀ x, x ∈ m.backlog ↔ x ∈ records) : m.backlog = records := by
  have hnodup : records.Nodup := hascending.imp fun hlt heq => (heq ▸ hlt).ne rfl
  refine List.Perm.eq_of_pairwise (fun x y hx hy hle hge => ?_) m.sorted_backlog
    (hascending.imp le_of_lt) ((List.perm_ext_iff_of_nodup m.nodup_backlog hnodup).mpr hmem)
  exact eq_of_ascending hascending ((hmem x).mp hx) hy (le_antisymm hle hge)

theorem earliest?_of_ascending {records : List (Nat × Slot)}
    (h : records.Pairwise fun x y => x.2.sequenceId < y.2.sequenceId) :
    earliest? records = records.head? := by
  cases records with
  | nil => rfl
  | cons first others =>
    have hfirst := (List.pairwise_cons.mp h).1
    rw [earliest?]
    cases hother : earliest? others with
    | none => rfl
    | some other =>
      exact if_neg (Nat.not_lt.mpr (hfirst other (earliest?_mem hother)).le)

/-- A claim for reading takes the head of the backlog. -/
theorem Orderly.claimForReading (h : m.Orderly) :
    m.claimForReading =
      match m.backlog.head? with
      | none => (none, m.sweepAll)
      | some (k, s) => (some k, m.sweepAll.takeForReading k s) := by
  have hmem : ∀ x, x ∈ m.sweepAll.readable ↔ x ∈ m.backlog := fun x =>
    (List.mem_insertionSort _).symm
  have hfound : earliest? m.sweepAll.readable = m.backlog.head? := by
    rw [← earliest?_of_ascending h.ascending]
    exact earliest?_congr hmem fun x hx y hy =>
      eq_of_ascending h.ascending ((hmem x).mp hx) ((hmem y).mp hy)
  exact hfound ▸ rfl

/-! ## What a claim and a release leave -/

/-- What the manager sees when it has claimed a record, read it and released it. -/
def finished (m : Mapping) (k : Nat) (s t : Slot) : Mapping :=
  let after := m.sweepAll.takeForReading k s
  after.store k ((after.released t).touched after.now)

theorem staleness_finished (m : Mapping) (k : Nat) (s t : Slot) :
    (m.finished k s t).staleness = m.staleness :=
  m.sweepAll.staleness_takeForReading k s

theorem slots_finished (m : Mapping) (k : Nat) (s t : Slot) :
    (m.finished k s t).slots = m.sweepAll.slots.set k
      (((m.sweepAll.takeForReading k s).released t).touched m.now) := by
  rw [finished, slots_store, slots_takeForReading, now_takeForReading, List.set_set]
  rfl

theorem slots_sweepAll_finished_self (hs : m.sweepAll.slots[k]? = some s) (t : Slot) :
    (m.finished k s t).sweepAll.slots[k]? =
      some (((m.sweepAll.takeForReading k s).released t).touched m.now) := by
  rw [slots_sweepAll, slots_finished, staleness_finished,
    List.getElem?_set_self (List.getElem?_eq_some_iff.mp hs).1, Option.map_some]
  exact congrArg some (Slot.swept_of_not_isStale (Slot.isStale_touched _ m.staleness))

theorem slots_sweepAll_finished_of_ne {j : Nat} (hj : k ≠ j) (s t : Slot) :
    (m.finished k s t).sweepAll.slots[j]? = m.sweepAll.slots[j]? := by
  rw [slots_sweepAll, slots_finished, staleness_finished, List.getElem?_set_ne hj, slots_sweepAll,
    Option.map_map]
  congr 1
  funext u
  exact u.swept_swept m.staleness

/-- What the manager has read and released it may not read again. -/
theorem not_isReadable_finished (k : Nat)
    (ht : ((s.claimedForReading m.me.id).touched m.now).Reread t) :
    (m.finished k s t).isReadable
      (((m.sweepAll.takeForReading k s).released t).touched m.now) = false := by
  refine Bool.eq_false_iff.mpr fun hread => ?_
  refine not_mayClaim_released (m := m.sweepAll.takeForReading k s) (fun hlasting => ?_) m.now
    (mayClaim_of_isReadable hread)
  obtain ⟨_, _, rfl⟩ := ht
  rw [me_takeForReading] at hlasting ⊢
  have hnot : ¬ m.sweepAll.me.destructive = true := by simpa using hlasting
  dsimp only
  rw [if_neg hnot]
  exact le_max_right ..

/-- When the head of the backlog was claimed, read and released, the tail is left. -/
theorem Orderly.backlog_finished (h : m.Orderly) (hbacklog : m.backlog = (k, s) :: others)
    (ht : ((s.claimedForReading m.me.id).touched m.now).Reread t) :
    (m.finished k s t).backlog = others := by
  have hascending := h.ascending
  rw [hbacklog, List.pairwise_cons] at hascending
  obtain ⟨hfirst, hothers⟩ := hascending
  have hs := (mem_backlog.mp (hbacklog ▸ List.mem_cons_self)).1
  refine backlog_eq hothers fun ⟨j, u⟩ => ?_
  rw [mem_backlog]
  by_cases hj : k = j
  · subst hj
    rw [slots_sweepAll_finished_self hs]
    refine iff_of_false (fun ⟨hu, hread⟩ => ?_) fun hu => ?_
    · cases hu
      exact Bool.eq_false_iff.mp (not_isReadable_finished k ht) hread
    · obtain ⟨hu', -⟩ := mem_backlog.mp (hbacklog ▸ List.mem_cons_of_mem _ hu)
      cases hs.symm.trans hu'
      exact lt_irrefl _ (hfirst _ hu)
  · -- None that is left comes before the one that was claimed, so it may be read still.
    have hmem : (j, u) ∈ others ↔ m.sweepAll.slots[j]? = some u ∧ m.isReadable u = true := by
      rw [← mem_backlog, hbacklog, List.mem_cons, or_iff_right]
      exact fun heq => hj (Prod.mk.inj heq).1.symm
    rw [slots_sweepAll_finished_of_ne hj, hmem]
    refine and_congr_right fun hu => ?_
    have hread := isReadable_takeForReading (m := m.sweepAll) (k := k) (s := s) (t := u)
      fun hread => hfirst _ (hmem.mpr ⟨hu, hread⟩)
    exact Bool.eq_iff_iff.mp hread

theorem Orderly.finished (h : m.Orderly) (hbacklog : m.backlog = (k, s) :: others)
    (ht : ((s.claimedForReading m.me.id).touched m.now).Reread t) :
    (m.finished k s t).Orderly := by
  have hafter := h.backlog_finished hbacklog ht
  have hascending := h.ascending
  have hwritten := h.written
  rw [hbacklog] at hascending hwritten
  refine ⟨hafter ▸ hascending.of_cons, hafter ▸ fun x hx => ?_⟩
  have hsize : (m.finished k s t).segment.slotSize = m.segment.slotSize := by
    rw [Mapping.finished, store, withSlots, segment_takeForReading]
    rfl
  exact (hwritten x (List.mem_cons_of_mem _ hx)).trans hsize.ge

end Mapping

end Segment

end SlotTransport
