/-
The searches for a slot, step by step. A writer's search stops at the first slot that
it may have (`slots_first_taken`); what it passes is reclaimed and what comes after is
left alone (`slots_around_taken`). A reader's search goes once around, reclaims every slot
as it comes by and keeps the one with the lowest sequence id so far (`search`): that is the
scan of the slot protocol (`claimFrom_readerCursor`), and as long as records have different
sequence ids it comes to the same wherever it starts (`claimFrom_eq`).
-/
import SlotTransport.Proofs.Operation.Move

namespace SlotTransport

open Segment

namespace Segment

/-! ## Slots -/

namespace Slot

variable {s : Slot} {staleness : Staleness} {overwrite : Bool}

/-- The slot after a search has come by. -/
def renewed (s : Slot) (staleness : Staleness) : Slot :=
  if s.isStale staleness then
    match s.state with
    | .writing =>
      { s with word := .free, writePos := 0, readPos := 0, releases := 0,
               lastTouch := staleness.now }
    | .reading =>
      { s with word := .of .full noOwner, readPos := 0, lastTouch := staleness.now }
    | .full =>
      if staleness.dropsRecords then
        { s with word := .free, writePos := 0, readPos := 0, releases := 0,
                 lastTouch := staleness.now }
      else s
    | .empty => s
  else s

theorem swept_eq_renewed (s : Slot) (staleness : Staleness) :
    s.swept staleness = s.renewed staleness := by
  unfold renewed
  cases hstale : s.isStale staleness with
  | false => rw [swept_of_not_isStale hstale, if_neg Bool.false_ne_true]
  | true =>
    rw [if_pos rfl, swept, reclaimed?, hstale]
    cases hstate : s.state with
    | full => cases staleness.dropsRecords <;> rfl
    | _ => rfl

/-- Whether a writer's search stops at the slot. -/
def isOpen (s : Slot) (staleness : Staleness) (overwrite : Bool) : Prop :=
  s.state = .empty ∨
    s.isStale staleness = true ∧ s.state = .writing ∨
    s.isStale staleness = true ∧ staleness.dropsRecords = true ∧ s.state = .full ∨
    overwrite = true ∧ ¬ (s.state = .writing ∧ s.isStale staleness = false)

instance (s : Slot) (staleness : Staleness) (overwrite : Bool) :
    Decidable (s.isOpen staleness overwrite) :=
  inferInstanceAs (Decidable (_ ∨ _))

theorem state_renewed (s : Slot) (staleness : Staleness) :
    (s.renewed staleness).state =
      if s.isStale staleness then
        match s.state with
        | .reading => .full
        | .full => if staleness.dropsRecords then .empty else .full
        | .writing | .empty => .empty
      else s.state := by
  unfold renewed
  cases hstale : s.isStale staleness with
  | false => rfl
  | true =>
    cases hstate : s.state with
    | full => cases hdrop : staleness.dropsRecords <;> first | rfl | exact hstate
    | empty => exact hstate
    | writing | reading => rfl

theorem isWritable_swept_iff :
    (s.swept staleness).isWritable overwrite = true ↔ s.isOpen staleness overwrite := by
  rw [swept_eq_renewed, isWritable, state_renewed, isOpen]
  cases s.isStale staleness <;> cases s.state <;> cases staleness.dropsRecords <;>
    cases overwrite <;> simp

theorem content_renewed (s : Slot) (staleness : Staleness) :
    (s.renewed staleness).memory = s.memory ∧ (s.renewed staleness).sequenceId = s.sequenceId := by
  unfold renewed
  split
  · split
    · exact ⟨rfl, rfl⟩
    · exact ⟨rfl, rfl⟩
    · split <;> exact ⟨rfl, rfl⟩
    · exact ⟨rfl, rfl⟩
  · exact ⟨rfl, rfl⟩

/-- Nobody holds a stale slot that a search has come by. -/
theorem not_stale_of_held_renewed
    (hheld : (s.renewed staleness).state = .writing ∨ (s.renewed staleness).state = .reading) :
    (s.renewed staleness).isStale staleness = false := by
  cases hstale : s.isStale staleness with
  | false => rwa [← swept_eq_renewed, swept_of_not_isStale hstale]
  | true =>
    rw [state_renewed, hstale, if_pos rfl] at hheld
    cases hstate : s.state with
    | full => cases hdrop : staleness.dropsRecords <;> simp [hstate, hdrop] at hheld
    | _ => simp [hstate] at hheld

end Slot

namespace Mapping

variable {m : Mapping} {k count cursor : Nat} {s : Slot} {overwrite : Bool}

/-! ## A writer's search -/

theorem isCandidate_iff (hs : m.slots[k]? = some s) :
    m.isCandidate overwrite k ↔ s.isOpen m.staleness overwrite := by
  rw [← Slot.isWritable_swept_iff, isCandidate]
  constructor
  · rintro ⟨t, ht, hopen⟩
    cases hs.symm.trans ht
    exact hopen
  · exact fun hopen => ⟨s, hs, hopen⟩

theorem getElem?_cyclic {step : Nat} (h : step < count) :
    (cyclic count cursor)[step]? = some ((cursor + step) % count) := by
  rw [cyclic, List.getElem?_map, List.getElem?_range h]
  rfl

theorem cyclic_split {before after : List Nat} {slot : Nat}
    (h : cyclic count cursor = before ++ slot :: after) :
    before.length < count ∧ slot = (cursor + before.length) % count ∧
      (∀ step < before.length, (cursor + step) % count ∈ before) ∧
      ∀ step < count, before.length < step → (cursor + step) % count ∈ after := by
  have hlength := congrArg List.length h
  rw [length_cyclic, List.length_append, List.length_cons] at hlength
  have hvisited : ∀ step < count,
      (before ++ slot :: after)[step]? = some ((cursor + step) % count) := fun step hstep => by
    rw [← h, getElem?_cyclic hstep]
  refine ⟨by omega, ?_, fun step hstep => ?_, fun step hstep hlater => ?_⟩
  · have hslot := hvisited before.length (by omega)
    rw [List.getElem?_append_right (le_refl _), Nat.sub_self] at hslot
    exact Option.some.inj hslot
  · have hslot := hvisited step (by omega)
    rw [List.getElem?_append_left hstep] at hslot
    exact List.mem_of_getElem? hslot
  · obtain ⟨rest, hrest⟩ : ∃ rest, step - before.length = rest + 1 :=
      ⟨step - before.length - 1, by omega⟩
    have hslot := hvisited step hstep
    rw [List.getElem?_append_right (by omega), hrest, List.getElem?_cons_succ] at hslot
    exact List.mem_of_getElem? hslot

theorem claimedForWriting_renewed (s : Slot) (staleness : Staleness) (id : ManagerId) (now : Nat) :
    ((s.swept staleness).claimedForWriting id).touched now =
      { s with
        word := .of .writing id, writePos := 0, readPos := 0, releases := 0,
        lastTouch := now } := by
  rw [Slot.swept_eq_renewed, Slot.renewed]
  split
  · split
    · rfl
    · rfl
    · split <;> rfl
    · rfl
  · rfl

/-- What a writer's search makes of the slots: of the one that it takes, of those that it has
visited before, and of the others. -/
theorem slots_first_taken (before : List Nat) {slot : Nat} (hs : m.slots[slot]? = some s)
    (j : Nat) :
    ((m.sweptAt (before ++ [slot])).takeForWriting slot (s.swept m.staleness)).slots[j]? =
      if j = slot then some { s with
        word := .of .writing m.me.id, writePos := 0, readPos := 0, releases := 0,
        lastTouch := m.now }
      else m.slots[j]?.map fun t => if j ∈ before then t.renewed m.staleness else t := by
  have hlt : slot < (m.sweptAt (before ++ [slot])).slots.length := by
    rw [length_slots_sweptAt]
    exact (List.getElem?_eq_some_iff.mp hs).1
  rw [slots_takeForWriting]
  by_cases hj : j = slot
  · subst hj
    rw [if_pos rfl, List.getElem?_set_self hlt, claimedForWriting_renewed]
    rfl
  · rw [if_neg hj, List.getElem?_set_ne (Ne.symm hj), slots_sweptAt]
    congr 1
    funext t
    simp [hj, Slot.swept_eq_renewed]

/-- What a writer's search has visited before the slot that it takes is reclaimed, and what
it has not come to is as before. -/
theorem slots_around_taken {before others : List Nat} {slot : Nat}
    (horder : cyclic m.slots.length cursor = before ++ slot :: others)
    (hs : m.slots[slot]? = some s) :
    let after := (m.sweptAt (before ++ [slot])).takeForWriting slot (s.swept m.staleness)
    (∀ k ∈ before, after.slots[k]? = m.slots[k]?.map (·.renewed m.staleness)) ∧
      ∀ k ∈ others, after.slots[k]? = m.slots[k]? := by
  have hnodup : (before ++ slot :: others).Nodup := horder ▸ nodup_cyclic _ _
  obtain ⟨-, hdistinct, hapart⟩ := List.nodup_append.mp hnodup
  refine ⟨fun k hk => ?_, fun k hk => ?_⟩
  · rw [slots_first_taken before hs, if_neg (hapart k hk slot List.mem_cons_self)]
    simp only [if_pos hk]
  · have hne : k ≠ slot := fun heq => (List.nodup_cons.mp hdistinct).1 (heq ▸ hk)
    have hnot : k ∉ before := fun hbefore => hapart k hbefore k (List.mem_cons_of_mem _ hk) rfl
    rw [slots_first_taken before hs, if_neg hne]
    simp only [if_neg hnot, Option.map_id']

theorem content_first_taken (before : List Nat) {slot : Nat} {t : Slot}
    (hs : m.slots[slot]? = some s) (ht : m.slots[k]? = some t) :
    ∃ t', ((m.sweptAt (before ++ [slot])).takeForWriting slot (s.swept m.staleness)).slots[k]? =
      some t' ∧ t'.memory = t.memory ∧ t'.sequenceId = t.sequenceId := by
  rw [slots_first_taken before hs]
  by_cases hk : k = slot
  · subst hk
    cases hs.symm.trans ht
    exact ⟨_, if_pos rfl, rfl, rfl⟩
  · rw [if_neg hk, ht, Option.map_some]
    refine ⟨_, rfl, ?_⟩
    split
    · exact t.content_renewed _
    · exact ⟨rfl, rfl⟩

/-- A search that goes once around reclaims everything. -/
theorem sweptAt_cyclic (m : Mapping) (cursor : Nat) :
    m.sweptAt (cyclic m.slots.length cursor) = m.sweepAll := by
  refine withSlots_congr fun k => ?_
  rw [List.getElem?_mapIdx, List.getElem?_map]
  cases hk : m.slots[k]? with
  | none => rfl
  | some s => simp [mem_cyclic.mpr (List.getElem?_eq_some_iff.mp hk).1]

theorem sweepAll_eq_renewed (m : Mapping) :
    m.sweepAll = m.withSlots (m.slots.map (·.renewed m.staleness)) := by
  simp only [sweepAll, Slot.swept_eq_renewed]

/-! ## A reader's search -/

/-- What a reader's search has found when it has come to one more slot: that one, if it is
readable and has a lower sequence id than the best so far. -/
def better (m : Mapping) (best : Option (Nat × Slot)) (slot : Nat) : Option (Nat × Slot) :=
  match m.slots[slot]? with
  | some s =>
    if m.isReadable s ∧ ∀ found ∈ best, s.sequenceId < found.2.sequenceId then some (slot, s)
    else best
  | none => best

/-- A reader's search: each slot is reclaimed if it is stale, and then looked at. -/
def search (m : Mapping) (best : Option (Nat × Slot)) : List Nat → Option (Nat × Slot) × Mapping
  | [] => (best, m)
  | slot :: others => (m.sweep slot).search ((m.sweep slot).better best slot) others

/-- Claims what a search from a cursor on finds. -/
def claimFrom (m : Mapping) (cursor : Nat) : Option Nat × Mapping :=
  match m.search none (cyclic m.slots.length cursor) with
  | (none, after) => (none, after)
  | (some (slot, s), after) => (some slot, after.takeForReading slot s)

/-- The readable slots among some, in their order. -/
def readableIn (m : Mapping) (order : List Nat) : List (Nat × Slot) :=
  order.filterMap fun slot =>
    match m.slots[slot]? with
    | some s => if m.isReadable s then some (slot, s) else none
    | none => none

theorem mem_readableIn {order : List Nat} :
    (k, s) ∈ m.readableIn order ↔ k ∈ order ∧ m.slots[k]? = some s ∧ m.isReadable s = true := by
  rw [readableIn, List.mem_filterMap]
  constructor
  · rintro ⟨slot, hslot, h⟩
    split at h
    · rename_i t ht
      split at h
      · rename_i hread
        cases h
        exact ⟨hslot, ht, hread⟩
      · cases h
    · cases h
  · rintro ⟨hk, hs, hread⟩
    exact ⟨k, hk, by simp [hs, hread]⟩

theorem readableIn_cons (slot : Nat) (others : List Nat) :
    m.readableIn (slot :: others) = m.readableIn [slot] ++ m.readableIn others := by
  rw [readableIn, readableIn, readableIn, ← List.filterMap_append]
  rfl

theorem readableIn_congr {m' : Mapping} {order : List Nat} (hme : m'.me = m.me)
    (hslots : ∀ k ∈ order, m'.slots[k]? = m.slots[k]?) :
    m'.readableIn order = m.readableIn order := by
  have hread : m'.isReadable = m.isReadable := by
    funext s
    rw [isReadable, isReadable, hme]
  refine List.filterMap_congr fun k hk => ?_
  rw [hslots k hk, hread]

theorem earliest?_cons_cons (first second : Nat × Slot) (others : List (Nat × Slot)) :
    earliest? (first :: second :: others) = earliest?
      ((if second.2.sequenceId < first.2.sequenceId then second else first) :: others) := by
  simp only [earliest?]
  cases earliest? others with
  | none =>
    simp only
    split <;> rfl
  | some other =>
    by_cases hsecond : second.2.sequenceId < first.2.sequenceId
    · by_cases hother : other.2.sequenceId < second.2.sequenceId
      · have hlt := hother.trans hsecond
        simp [hsecond, hother, hlt]
      · simp [hsecond, hother]
    · by_cases hother : other.2.sequenceId < second.2.sequenceId
      · simp [hsecond, hother]
      · have hge : ¬ other.2.sequenceId < first.2.sequenceId := by omega
        simp [hsecond, hother, hge]

/-- What a search has found after one more slot. -/
theorem earliest?_better (best : Option (Nat × Slot)) (slot : Nat) (others : List (Nat × Slot)) :
    earliest? ((m.better best slot).toList ++ others) =
      earliest? (best.toList ++ (m.readableIn [slot] ++ others)) := by
  unfold better readableIn
  cases hs : m.slots[slot]? with
  | none => simp [hs]
  | some s =>
    cases hread : m.isReadable s with
    | false => simp [hs, hread]
    | true =>
      cases best with
      | none => simp [hs, hread]
      | some found =>
        simp only [hs, hread, Option.toList_some, List.filterMap_cons, List.filterMap_nil, if_true,
          List.cons_append, List.nil_append, Option.mem_some_iff, true_and, forall_eq']
        rw [earliest?_cons_cons]
        split <;> rfl

/-- A search comes to the earliest of the readable slots, and reclaims those that it
visits. -/
theorem search_eq {order : List Nat} (hnodup : order.Nodup) (best : Option (Nat × Slot)) :
    m.search best order =
      (earliest? (best.toList ++ m.sweepAll.readableIn order), m.sweptAt order) := by
  induction order generalizing m best with
  | nil =>
    rw [sweptAt_nil, search, readableIn, List.filterMap_nil, List.append_nil]
    cases best <;> rfl
  | cons slot others ih =>
    obtain ⟨hslot, hothers⟩ := List.nodup_cons.mp hnodup
    have hjoin : (m.sweptAt [slot]).sweptAt others = m.sweptAt (slot :: others) :=
      sweptAt_sweptAt fun k hk hmem => hslot (List.mem_singleton.mp hk ▸ hmem)
    -- The slots to come are the same before and after this one is reclaimed.
    have hrest : (m.sweptAt [slot]).sweepAll.readableIn others = m.sweepAll.readableIn others := by
      refine readableIn_congr rfl fun k hk => ?_
      have hne : k ≠ slot := fun heq => hslot (heq ▸ hk)
      rw [slots_sweepAll, slots_sweepAll, slots_sweptAt, staleness_sweptAt]
      simp [hne]
    have hhere : (m.sweptAt [slot]).readableIn [slot] = m.sweepAll.readableIn [slot] := by
      refine readableIn_congr rfl fun k hk => ?_
      simp only [slots_sweepAll, slots_sweptAt, if_pos hk]
    rw [search, sweep_eq_sweptAt, ih hothers, hjoin, earliest?_better, hrest, hhere,
      readableIn_cons slot others]

theorem claimFrom_eq_earliest (m : Mapping) (cursor : Nat) :
    m.claimFrom cursor =
      match earliest? (m.sweepAll.readableIn (cyclic m.slots.length cursor)) with
      | none => (none, m.sweepAll)
      | some (slot, s) => (some slot, m.sweepAll.takeForReading slot s) := by
  rw [claimFrom, search_eq (nodup_cyclic _ _), sweptAt_cyclic, Option.toList_none, List.nil_append]
  cases earliest? (m.sweepAll.readableIn (cyclic m.slots.length cursor)) <;> rfl

/-- The scan of the slot protocol is the search from the reader's cursor on. -/
theorem claimFrom_readerCursor (m : Mapping) :
    m.claimFrom m.segment.control.readerCursor = m.claimForReading := by
  have hreadable : m.sweepAll.readable =
      m.sweepAll.readableIn (cyclic m.slots.length m.segment.control.readerCursor) := by
    rw [readable, readableIn, sweepAll, slots_withSlots, List.length_map]
    rfl
  exact (m.claimFrom_eq_earliest _).trans (hreadable ▸ rfl)

/-- The earliest of some slots does not depend on their order, if no two have the same
sequence id. -/
theorem earliest?_congr {found found' : List (Nat × Slot)} (h : ∀ x, x ∈ found ↔ x ∈ found')
    (hdistinct : ∀ x ∈ found, ∀ y ∈ found, x.2.sequenceId = y.2.sequenceId → x = y) :
    earliest? found = earliest? found' := by
  cases hfirst : earliest? found with
  | none =>
    rw [earliest?_eq_none_iff] at hfirst
    subst hfirst
    rw [eq_comm, earliest?_eq_none_iff]
    exact List.eq_nil_iff_forall_not_mem.mpr fun x hx => List.not_mem_nil ((h x).mpr hx)
  | some x =>
    have hx := earliest?_mem hfirst
    cases hfirst' : earliest? found' with
    | none =>
      rw [earliest?_eq_none_iff] at hfirst'
      rw [h, hfirst'] at hx
      exact absurd hx List.not_mem_nil
    | some y =>
      have hy := (h y).mpr (earliest?_mem hfirst')
      have hle := earliest?_le hfirst y hy
      have hge := earliest?_le hfirst' x ((h x).mp hx)
      rw [hdistinct x hx y hy (le_antisymm hle hge)]

/-- Where the readable records have different sequence ids, a search comes to the same
wherever it starts. -/
theorem claimFrom_eq (hdistinct : ∀ {j k : Nat} {s t : Slot}, m.sweepAll.slots[j]? = some s →
      m.sweepAll.slots[k]? = some t → m.isReadable s = true → m.isReadable t = true →
      s.sequenceId = t.sequenceId → j = k) (cursor : Nat) :
    m.claimFrom cursor = m.claimForReading := by
  have hsame : ∀ cursor', earliest? (m.sweepAll.readableIn (cyclic m.slots.length cursor)) =
      earliest? (m.sweepAll.readableIn (cyclic m.slots.length cursor')) := by
    intro cursor'
    refine earliest?_congr (fun ⟨k, s⟩ => ?_) fun ⟨j, s⟩ hs ⟨k, t⟩ ht hid => ?_
    · simp only [mem_readableIn, mem_cyclic]
    · obtain ⟨-, hs, hread⟩ := mem_readableIn.mp hs
      obtain ⟨-, ht, hread'⟩ := mem_readableIn.mp ht
      obtain rfl := hdistinct hs ht hread hread' hid
      cases hs.symm.trans ht
      rfl
  rw [← claimFrom_readerCursor, claimFrom_eq_earliest, claimFrom_eq_earliest,
    hsame m.segment.control.readerCursor]

theorem claimFrom_congr {m' : Mapping} (hme : m'.me = m.me) (hnow : m'.now = m.now)
    (hslots : m'.slots = m.slots) (cursor : Nat) :
    (m'.claimFrom cursor).1 = (m.claimFrom cursor).1 ∧
      (m'.claimFrom cursor).2.slots = (m.claimFrom cursor).2.slots := by
  have hstaleness : m'.staleness = m.staleness := by rw [staleness, staleness, hme, hnow]
  have hswept : m'.sweepAll.slots = m.sweepAll.slots := by
    rw [sweepAll, sweepAll, slots_withSlots, slots_withSlots, hslots, hstaleness]
  have hfound : m'.sweepAll.readableIn (cyclic m'.slots.length cursor) =
      m.sweepAll.readableIn (cyclic m.slots.length cursor) := by
    rw [hslots]
    exact readableIn_congr hme fun k _ => by rw [hswept]
  rw [claimFrom_eq_earliest, claimFrom_eq_earliest, hfound]
  cases earliest? (m.sweepAll.readableIn (cyclic m.slots.length cursor)) with
  | none => exact ⟨rfl, hswept⟩
  | some found =>
    refine ⟨rfl, ?_⟩
    simp only [slots_takeForReading] at hswept ⊢
    rw [hswept]
    simp only [sweepAll, withSlots, hme, hnow]

end Mapping

end Segment

namespace Manager

/-- **A writer takes the first open slot.** Whatever the segment looks like that a manager is
attached to, a claim for writing does not fail. It gets no slot if and only if none is open,
and has reclaimed what is stale then. Otherwise it gets the first open one, going around
from the cursor: that is the manager's to write, with nothing in it, and the next search
starts after it. The slots that were passed are reclaimed if they are stale, those to come
are as before; and no byte and no sequence id of any slot has changed. -/
theorem first_open_claimed {manager : Manager} {host : Host} {m : Mapping}
    (hm : manager.mapping? host = some m) (overwrite : Bool) :
    let count := m.slots.length
    let cursor := m.segment.control.writerCursor
    ∃ (answer : Option Nat) (after : Mapping),
      (Manager.claimForWriting overwrite).on manager host =
        (.ok answer, { manager with attachment := some after.me },
          host.store m.me.object after.segment) ∧
      (answer = none ↔ ∀ s ∈ m.slots, ¬ s.isOpen m.staleness overwrite) ∧
      (answer = none → after = m.withSlots (m.slots.map (·.renewed m.staleness))) ∧
      (∀ slot, answer = some slot → ∃ passed < count, slot = (cursor + passed) % count ∧
        after.segment.control.writerCursor = (slot + 1) % count ∧
        (∃ s, m.slots[slot]? = some s ∧ s.isOpen m.staleness overwrite ∧
          after.slots[slot]? = some { s with
            word := .of .writing m.me.id, writePos := 0, readPos := 0, releases := 0,
            lastTouch := m.now }) ∧
        (∀ step < passed, ∃ s, m.slots[(cursor + step) % count]? = some s ∧
          ¬ s.isOpen m.staleness overwrite ∧
          after.slots[(cursor + step) % count]? = some (s.renewed m.staleness)) ∧
        ∀ step < count, passed < step →
          after.slots[(cursor + step) % count]? = m.slots[(cursor + step) % count]?) ∧
      after.slots.length = count ∧
      ∀ (k : Nat) (s : Slot), m.slots[k]? = some s → ∃ s', after.slots[k]? = some s' ∧
        s'.memory = s.memory ∧ s'.sequenceId = s.sequenceId := by
  intro count cursor
  have hon : (Manager.claimForWriting overwrite).on manager host =
      (.ok (m.claimForWriting overwrite).1,
        { manager with attachment := some (m.claimForWriting overwrite).2.me },
        host.store m.me.object (m.claimForWriting overwrite).2.segment) := by
    simp only [Manager.claimForWriting, guarded, Action.on_of, hm, Program.on_claimForWriting]
  refine ⟨_, _, hon, ?_⟩
  rcases m.claimForWriting_cases overwrite with ⟨hclaim, hnone⟩ |
    ⟨before, slot, others, s, horder, hbefore, hs, hw, hclaim⟩
  · rw [hclaim, Mapping.sweptAt_cyclic, Mapping.sweepAll_eq_renewed]
    refine ⟨iff_of_true rfl fun s hs hopen => ?_, fun _ => rfl, fun slot hslot => ?_,
      List.length_map .., fun k s hs => ⟨s.renewed m.staleness, ?_, s.content_renewed _⟩⟩
    · obtain ⟨k, hk⟩ := List.mem_iff_getElem?.mp hs
      exact hnone k (List.getElem?_eq_some_iff.mp hk).1 ((Mapping.isCandidate_iff hk).mpr hopen)
    · cases hslot
    · rw [Mapping.slots_withSlots, List.getElem?_map, hs, Option.map_some]
  · have hopen : s.isOpen m.staleness overwrite := Slot.isWritable_swept_iff.mp hw
    obtain ⟨hpassed, hslot, hearlier, hlater⟩ := Mapping.cyclic_split horder
    obtain ⟨hrenewed, hsame⟩ := Mapping.slots_around_taken horder hs
    rw [hclaim]
    refine ⟨iff_of_false (fun hnone => by cases hnone)
      fun hnone => hnone s (List.mem_of_getElem? hs) hopen, (fun hnone => by cases hnone), ?_, ?_,
      fun k t ht => Mapping.content_first_taken before hs ht⟩
    · rintro _ ⟨⟩
      refine ⟨before.length, hpassed, hslot, ?_, ⟨s, hs, hopen, ?_⟩, fun step hstep => ?_,
        fun step hstep hafter => hsame _ (hlater step hstep hafter)⟩
      · rw [Mapping.segment_takeForWriting]
        simp only [Mapping.following, Mapping.length_slots_sweptAt]
        rfl
      · rw [Mapping.slots_first_taken before hs, if_pos rfl]
      · have hmem := hearlier step hstep
        have hlt : (cursor + step) % count < m.slots.length :=
          Nat.mod_lt _ (Nat.zero_lt_of_lt hpassed)
        have ht := List.getElem?_eq_getElem hlt
        refine ⟨_, ht, fun hopen => ?_, ?_⟩
        · exact hbefore _ hmem ((Mapping.isCandidate_iff ht).mpr hopen)
        · rw [hrenewed _ hmem, ht, Option.map_some]
    · rw [Mapping.slots_takeForWriting, List.length_set, Mapping.length_slots_sweptAt]

/-- The first slot is being written, the record in the second is stale, and so is the claim
on the third, which the search does not come to. -/
theorem first_open_claimed_stale_record :
    let config : Segment.Config := ⟨7, 3, 8, 10, false, 0⟩
    let slots : List Slot := [{ Slot.fresh 5 with word := .of .writing 0 },
      { Slot.fresh 0 with word := .of .full noOwner, writePos := 2, sequenceId := 1, memory := [1, 2] },
      { Slot.fresh 0 with word := .of .writing 1 }]
    let host : Host := { Host.new ⟨11⟩ ⟨0⟩ with
      objects := [{ Segment.formatted config 400 0 with slots }] }
    let manager : Manager := ⟨config, .manual, true, some (.new 0 0 (.created config))⟩
    ∃ after : Mapping, (Manager.claimForWriting false).on manager host =
        (.ok (some 1), { manager with attachment := some after.me },
          host.store 0 after.segment) ∧
      after.segment.control.writerCursor = 2 ∧ after.slots[0]? = slots[0]? ∧
      after.slots[2]? = slots[2]? ∧ ∃ s, after.slots[1]? = some s ∧ s.memory = [1, 2] := by
  intro config slots host manager
  have hm : manager.mapping? host = some ⟨.new 0 0 (.created config), 11,
      { Segment.formatted config 400 0 with slots }⟩ := by decide +kernel
  obtain ⟨answer, after, hon, -, -, hsome, -, hcontent⟩ := first_open_claimed hm false
  have hanswer : ((Manager.claimForWriting false).on manager host).1 = .ok (some 1) := rfl
  rw [hon, Except.ok.injEq] at hanswer
  subst hanswer
  obtain ⟨passed, hpassed, hslot, hcursor, -, hearlier, hlater⟩ := hsome 1 rfl
  obtain rfl : passed = 1 := by
    change passed < 3 at hpassed
    change 1 = (0 + passed) % 3 at hslot
    omega
  obtain ⟨s, hs, -, hkept⟩ := hearlier 0 Nat.zero_lt_one
  obtain ⟨s', hs', hmemory, -⟩ := hcontent 1 _ rfl
  refine ⟨after, hon, hcursor, ?_, hlater 2 (by decide) (by decide), s', hs', hmemory⟩
  cases hs
  exact hkept

end Manager

end SlotTransport
