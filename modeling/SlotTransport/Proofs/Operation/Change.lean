/-
A move seen from one slot. An operation changes a slot in one of the ways that
`Change` lists, and it says which conditions it has checked before.
-/
import SlotTransport.Proofs.Operation.Move

namespace SlotTransport

/-- The slot that an operation claims for reading, if it claims one. -/
def Operation.claimed? : Operation → Answer → Option Nat
  | claimForReading, .slot slot => slot
  | _, _ => none

theorem Operation.claimed?_eq_some_iff {operation : Operation} {answer : Answer} {k : Nat} :
    operation.claimed? answer = some k ↔
      operation = .claimForReading ∧ answer = .slot (some k) := by
  cases operation <;> cases answer <;> simp [claimed?]

namespace Segment.Mapping

/-- What a move makes of the slot of a number. -/
inductive Change (m : Mapping) (operation : Operation) (answer : Answer) (k : Nat) (s : Slot) :
    Slot → Prop where
  | kept : Change m operation answer k s s
  | wrote {pos : Nat} {memory : Bytes} (h : operation.isTransfer = true)
    (hstate : s.state = .writing) (howner : s.owner = m.me.id) (hpos : pos ≤ m.segment.slotSize) :
    Change m operation answer k s
      ({ s with writePos := pos, memory := memory }.touched m.now)
  | read {pos : Nat} (h : operation.isTransfer = true) (hstate : s.state = .reading)
    (howner : s.owner = m.me.id) (hpos : pos ≤ max s.readPos s.writePos) :
    Change m operation answer k s ({ s with readPos := pos }.touched m.now)
  | checked {expected : SlotState} (h : operation = .check k expected)
    (hmine : s.owner = m.me.id ∨ s.owner = noOwner ∧ (s.state = .full ∨ s.state = .empty)) :
    Change m operation answer k s (s.touched m.now)
  | swept (h : operation.isClaim = true) : Change m operation answer k s (s.swept m.staleness)
  | reset {s' : Slot} (h : operation = .reset k)
    (hs' : s.reclaimed? m.staleness (s.owner == m.me.id) = some s') :
    Change m operation answer k s s'
  | claimedForWriting {overwrite : Bool} (h : operation = .claimForWriting overwrite)
    (hanswer : answer = .slot (some k))
    (hfree : (s.swept m.staleness).isWritable overwrite = true) :
    Change m operation answer k s
      (((s.swept m.staleness).claimedForWriting m.me.id).touched m.now)
  | claimedForReading (h : operation = .claimForReading) (hanswer : answer = .slot (some k))
    (hread : m.isReadable (s.swept m.staleness) = true) :
    Change m operation answer k s
      (((s.swept m.staleness).claimedForReading m.me.id).touched m.now)
  | published {destination : Destination} (h : operation = .publish k destination)
    (hword : s.word = .of .writing m.me.id) :
    Change m operation answer k s
      ((s.published (m.segment.control.lastSequenceId + 1) destination.owner).touched m.now)
  | released (h : operation = .release k) (hstate : s.state = .reading)
    (howner : s.owner = m.me.id) :
    Change m operation answer k s ((m.released s).touched m.now)
  | evicted (h : operation = .evict k) (hmay : m.me.id = creatorId ∨ s.owner = m.me.id) :
    Change m operation answer k s (s.freed.touched m.now)

variable {m after : Mapping} {operation : Operation} {answer : Answer} {k : Nat} {s : Slot}

/-- What a release makes of a slot: free, or full for the readers to come. -/
theorem released_cases (m : Mapping) (s : Slot) :
    m.released s = s.freed ∨ m.released s = { s.returned with releases := s.releases + 1 } := by
  unfold released
  split
  · exact .inl rfl
  · exact .inr rfl

theorem released_of_gone (hgone : m.me.destructive = true) (s : Slot) :
    m.released s = s.freed := by
  rw [released, hgone, Bool.true_or, if_pos rfl]

theorem change_of_set {slot : Nat} {t t' : Slot} (ht : m.slots[slot]? = some t)
    (hs : m.slots[k]? = some s)
    (h : slot = k → t = s → m.Change operation answer k s t') :
    ∃ s', (m.slots.set slot t')[k]? = some s' ∧ m.Change operation answer k s s' := by
  by_cases hk : slot = k
  · subst hk
    obtain ⟨hlt, -⟩ := List.getElem?_eq_some_iff.mp hs
    have hts : t = s := by simpa [ht] using hs
    exact ⟨t', by simp [hlt], h rfl hts⟩
  · exact ⟨s, by rw [List.getElem?_set_ne hk, hs], .kept⟩

theorem change_claimForWriting (overwrite : Bool) (hs : m.slots[k]? = some s) :
    ∃ s', (m.claimForWriting overwrite).2.slots[k]? = some s' ∧
      m.Change (.claimForWriting overwrite) (.slot (m.claimForWriting overwrite).1) k s s' := by
  have hswept : ∀ order, ∃ s', (m.sweptAt order).slots[k]? = some s' ∧
      (s' = s ∨ s' = s.swept m.staleness) := by
    intro order
    refine ⟨_, by rw [slots_sweptAt, hs]; rfl, ?_⟩
    split
    · exact .inr rfl
    · exact .inl rfl
  rcases m.claimForWriting_cases overwrite with ⟨h, -⟩ | ⟨before, slot, others, t, -, -, ht, hw, h⟩
  · obtain ⟨s', hs', hcases⟩ := hswept (cyclic m.slots.length m.segment.control.writerCursor)
    refine ⟨s', by rw [h]; exact hs', ?_⟩
    rcases hcases with rfl | rfl
    · exact .kept
    · exact .swept rfl
  · have hslots : (m.claimForWriting overwrite).2.slots =
        (m.sweptAt (before ++ [slot])).slots.set slot
          (((t.swept m.staleness).claimedForWriting m.me.id).touched m.now) := by
      rw [h, slots_takeForWriting]
      rfl
    rw [hslots, h]
    by_cases hk : slot = k
    · subst hk
      have hts : t = s := by simpa [ht] using hs
      subst hts
      obtain ⟨hlt, -⟩ := List.getElem?_eq_some_iff.mp hs
      exact ⟨_, by simp [hlt], .claimedForWriting rfl rfl hw⟩
    · obtain ⟨s', hs', hcases⟩ := hswept (before ++ [slot])
      refine ⟨s', by rw [List.getElem?_set_ne hk, hs'], ?_⟩
      rcases hcases with rfl | rfl
      · exact .kept
      · exact .swept rfl

theorem change_claimForReading (hs : m.slots[k]? = some s) :
    ∃ s', m.claimForReading.2.slots[k]? = some s' ∧
      m.Change .claimForReading (.slot m.claimForReading.1) k s s' := by
  have hswept : m.sweepAll.slots[k]? = some (s.swept m.staleness) := by simp [slots_sweepAll, hs]
  rcases m.claimForReading_cases with ⟨h, -⟩ | ⟨slot, t, ht, hread, -, h⟩
  · exact ⟨_, by rw [h]; exact hswept, .swept rfl⟩
  · have hslots : m.claimForReading.2.slots = m.sweepAll.slots.set slot
          (((t.swept m.staleness).claimedForReading m.me.id).touched m.now) := by
      rw [h, slots_takeForReading]
      rfl
    rw [hslots, h]
    by_cases hk : slot = k
    · subst hk
      have hts : t = s := by simpa [ht] using hs
      subst hts
      obtain ⟨hlt, -⟩ := List.getElem?_eq_some_iff.mp hswept
      exact ⟨_, by simp [hlt], .claimedForReading rfl rfl hread⟩
    · exact ⟨_, by rw [List.getElem?_set_ne hk, hswept], .swept rfl⟩

theorem Move.change (h : m.Move operation answer after) (hs : m.slots[k]? = some s) :
    ∃ s', after.slots[k]? = some s' ∧ m.Change operation answer k s s' := by
  cases h with
  | idle => exact ⟨s, hs, .kept⟩
  | wrote htransfer ht hstate howner hpos =>
    refine change_of_set ht hs fun _ hts => ?_
    subst hts
    exact .wrote htransfer hstate howner hpos
  | read htransfer ht hstate howner hpos =>
    refine change_of_set ht hs fun _ hts => ?_
    subst hts
    exact .read htransfer hstate howner hpos
  | checked ht hstate hmine =>
    refine change_of_set ht hs fun hk hts => ?_
    subst hk hts
    exact .checked rfl hmine
  | reset ht hreset =>
    refine change_of_set ht hs fun hk hts => ?_
    subst hk hts
    exact .reset rfl hreset
  | claimedForWriting overwrite => exact change_claimForWriting overwrite hs
  | claimedForReading => exact change_claimForReading hs
  | published ht hword =>
    refine change_of_set ht hs fun hk hts => ?_
    subst hk hts
    exact .published rfl hword
  | released ht hstate howner =>
    refine change_of_set ht hs fun hk hts => ?_
    subst hk hts
    exact .released rfl hstate howner
  | evicted ht hmay =>
    refine change_of_set ht hs fun hk hts => ?_
    subst hk hts
    exact .evicted rfl hmay
  | declared => exact ⟨s, hs, .kept⟩

/-- A slot after a move is a slot before it, changed in one of the ways. -/
theorem Move.exists_change {s' : Slot} (h : m.Move operation answer after)
    (hs' : after.slots[k]? = some s') :
    ∃ s, m.slots[k]? = some s ∧ m.Change operation answer k s s' := by
  obtain ⟨hlt, -⟩ := List.getElem?_eq_some_iff.mp hs'
  have hlength : after.slots.length = m.slots.length := h.kept.segment.length
  have hs := List.getElem?_eq_getElem (hlength ▸ hlt : k < m.slots.length)
  obtain ⟨t, ht, hchange⟩ := h.change hs
  rw [hs'] at ht
  cases ht
  exact ⟨_, hs, hchange⟩

theorem Move.exists_claimed (h : m.Move operation answer after)
    (hclaim : operation.claimed? answer = some k) :
    ∃ s, m.slots[k]? = some s ∧ m.isReadable (s.swept m.staleness) = true ∧
      (∀ (j : Nat) (t : Slot), m.slots[j]? = some t → m.isReadable (t.swept m.staleness) = true →
        (s.swept m.staleness).sequenceId ≤ (t.swept m.staleness).sequenceId) ∧
      after.slots[k]? =
        some (((s.swept m.staleness).claimedForReading m.me.id).touched m.now) := by
  obtain ⟨hoperation, hanswer⟩ := Operation.claimed?_eq_some_iff.mp hclaim
  have hclaimed : m.claimForReading = (some k, after) := by
    cases h with
    | claimedForReading => exact Prod.ext (by simpa using hanswer) rfl
    | idle h | wrote h | read h | declared h => rw [hoperation] at h; cases h
    | _ => cases hoperation
  rcases m.claimForReading_cases with ⟨hnone, -⟩ | ⟨slot, s, hs, hread, hleast, hsome⟩
  · rw [hnone] at hclaimed
    cases hclaimed
  · rw [hsome] at hclaimed
    cases hclaimed
    obtain ⟨hlt, -⟩ := List.getElem?_eq_some_iff.mp hs
    refine ⟨s, hs, hread, hleast, ?_⟩
    rw [slots_takeForReading]
    exact List.getElem?_set_self (by simpa [sweepAll] using hlt)

end Segment.Mapping

end SlotTransport
