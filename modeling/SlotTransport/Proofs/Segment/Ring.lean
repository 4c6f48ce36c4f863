/-
Slots as a ring of records. Where all slots are empty but those of the last few
records, and each record lies in the slot of its number, counted around, the
slots are a queue: `Ring.push` and `Ring.pop` say what a slot filled at the end
and a slot emptied at the front make of it. Nothing in a ring goes stale, so a
claim for writing takes the slot at the writer's cursor
(`claimForWriting_at_cursor`) and a claim for reading the oldest record
(`Ring.claimForReading_cons`).
-/
import SlotTransport.Fragment.Basic
import SlotTransport.Proofs.Segment.Scan

namespace SlotTransport.Segment

/-- A slot with the record of a fragment, for anyone to read, after which `p`
records were published before. -/
structure Slot.Carries (s : Slot) (p : Nat) (fragment : Fragment) : Prop where
  word : s.word = .of .full noOwner
  sequenceId : s.sequenceId = p + 1
  writePos : s.writePos = fragment.size
  memory : fragment.encode <+: s.memory

/-- A slot with the record of a fragment, or an empty one. -/
def Slot.Contains (s : Slot) (p : Nat) : Option Fragment → Prop
  | some fragment => s.Carries p fragment
  | none => s.state = .empty

/-- The fragments, oldest first, lie in the slots from that of the record with
the number `first` on and around; all other slots are empty, and the next record
goes into the slot after the last. -/
structure Ring (segment : Segment) (first : Nat) (fragments : List Fragment) : Prop where
  length_le : fragments.length ≤ segment.slots.length
  fits : ∀ fragment ∈ fragments, fragment.size ≤ segment.slotSize
  last : segment.control.lastSequenceId = first + fragments.length
  cursor : segment.control.writerCursor % segment.slots.length =
    (first + fragments.length) % segment.slots.length
  slot : ∀ j < segment.slots.length, ∃ s,
    segment.slots[(first + j) % segment.slots.length]? = some s ∧
      s.Contains (first + j) fragments[j]?

namespace Ring

variable {a b : Segment} {first : Nat} {fragments : List Fragment}

/-! ## Numbers of slots -/

/-- Within one round no slot has two numbers. -/
theorem around_inj {n first i j : Nat} (hi : i < n) (hj : j < n)
    (h : (first + i) % n = (first + j) % n) : i = j := by
  have hmod : i % n = j % n := Nat.ModEq.add_left_cancel' first h
  rwa [Nat.mod_eq_of_lt hi, Nat.mod_eq_of_lt hj] at hmod

theorem contains (h : a.Ring first fragments) {k : Nat} {s : Slot} (hs : a.slots[k]? = some s) :
    ∃ j < a.slots.length, k = (first + j) % a.slots.length ∧
      s.Contains (first + j) fragments[j]? := by
  obtain ⟨hk, -⟩ := List.getElem?_eq_some_iff.mp hs
  have hmem : k ∈ Mapping.cyclic a.slots.length first := Mapping.mem_cyclic.mpr hk
  obtain ⟨j, hj, rfl⟩ := List.mem_map.mp hmem
  have hlt := List.mem_range.mp hj
  obtain ⟨t, ht, hcontains⟩ := h.slot j hlt
  rw [hs] at ht
  cases ht
  exact ⟨j, hlt, rfl, hcontains⟩

theorem state_cases (h : a.Ring first fragments) {k : Nat} {s : Slot}
    (hs : a.slots[k]? = some s) :
    s.state = .empty ∨ (s.state = .full ∧ s.owner = noOwner) := by
  obtain ⟨j, -, -, hcontains⟩ := h.contains hs
  cases hf : fragments[j]? with
  | none =>
    rw [hf] at hcontains
    exact .inl hcontains
  | some fragment =>
    rw [hf] at hcontains
    have hword := hcontains.word
    exact .inr ⟨by rw [Slot.state, hword, StateWord.state_of],
      by rw [Slot.owner, hword, StateWord.owner_of]⟩

/-! ## Filling and emptying -/

theorem congr (h : a.Ring first fragments) (hslots : b.slots = a.slots)
    (hsize : b.slotSize = a.slotSize)
    (hlast : b.control.lastSequenceId = a.control.lastSequenceId)
    (hcursor : b.control.writerCursor = a.control.writerCursor) : b.Ring first fragments where
  length_le := by rw [hslots]; exact h.length_le
  fits := by rw [hsize]; exact h.fits
  last := hlast.trans h.last
  cursor := by rw [hslots, hcursor]; exact h.cursor
  slot := by rw [hslots]; exact h.slot

theorem push (h : a.Ring first fragments) (hroom : fragments.length < a.slots.length)
    {s : Slot} {fragment : Fragment} (hs : s.Carries (first + fragments.length) fragment)
    (hfits : fragment.size ≤ a.slotSize) (hsize : b.slotSize = a.slotSize)
    (hslots : b.slots = a.slots.set ((first + fragments.length) % a.slots.length) s)
    (hlast : b.control.lastSequenceId = a.control.lastSequenceId + 1)
    (hcursor : b.control.writerCursor =
      ((first + fragments.length) % a.slots.length + 1) % a.slots.length) :
    b.Ring first (fragments ++ [fragment]) := by
  have hlength : b.slots.length = a.slots.length := by rw [hslots, List.length_set]
  refine ⟨?_, ?_, ?_, ?_, ?_⟩
  · rw [hlength, List.length_append]
    exact hroom
  · intro f hf
    rw [hsize]
    rcases List.mem_append.mp hf with hf | hf
    · exact h.fits f hf
    · rw [List.mem_singleton.mp hf]
      exact hfits
  · rw [hlast, h.last, List.length_append, Nat.add_assoc]
    rfl
  · rw [hcursor, hlength, Nat.mod_mod, Nat.mod_add_mod, List.length_append, Nat.add_assoc]
    rfl
  · intro j hj
    rw [hlength] at hj ⊢
    rw [hslots]
    by_cases hnew : j = fragments.length
    · subst hnew
      refine ⟨s, ?_, ?_⟩
      · rw [List.getElem?_set_self (Nat.mod_lt _ (by omega))]
      · rw [List.getElem?_concat_length]
        exact hs
    · obtain ⟨t, ht, hcontains⟩ := h.slot j hj
      refine ⟨t, ?_, ?_⟩
      · rw [List.getElem?_set_ne fun heq => hnew (around_inj hroom hj heq).symm]
        exact ht
      · rw [List.getElem?_append]
        split
        · exact hcontains
        · rename_i hlt
          have hnone : ([fragment] : List Fragment)[j - fragments.length]? = none :=
            List.getElem?_eq_none (by simp only [List.length_singleton]; omega)
          rw [List.getElem?_eq_none (Nat.not_lt.mp hlt)] at hcontains
          rw [hnone]
          exact hcontains

theorem pop {fragment : Fragment} (h : a.Ring first (fragment :: fragments)) {s : Slot}
    (hs : s.state = .empty) (hsize : b.slotSize = a.slotSize)
    (hslots : b.slots = a.slots.set (first % a.slots.length) s)
    (hlast : b.control.lastSequenceId = a.control.lastSequenceId)
    (hcursor : b.control.writerCursor = a.control.writerCursor) :
    b.Ring (first + 1) fragments := by
  have hlength : b.slots.length = a.slots.length := by rw [hslots, List.length_set]
  have hpos : fragments.length < a.slots.length := h.length_le
  have hnext : first + (fragment :: fragments).length = first + 1 + fragments.length := by
    rw [List.length_cons]
    omega
  refine ⟨?_, ?_, ?_, ?_, ?_⟩
  · rw [hlength]
    exact Nat.le_of_lt hpos
  · rw [hsize]
    exact fun f hf => h.fits f (List.mem_cons_of_mem _ hf)
  · rw [hlast, h.last, hnext]
  · rw [hcursor, hlength, h.cursor, hnext]
  · intro j hj
    rw [hlength] at hj ⊢
    rw [hslots]
    have hzero : first % a.slots.length = (first + 0) % a.slots.length := rfl
    by_cases hlastSlot : j + 1 = a.slots.length
    · -- The slot at the front is now the one at the end.
      have haround : (first + 1 + j) % a.slots.length = first % a.slots.length := by
        rw [Nat.add_assoc, Nat.add_comm 1 j, hlastSlot, Nat.add_mod_right]
      refine ⟨s, ?_, ?_⟩
      · rw [haround, List.getElem?_set_self (Nat.mod_lt _ (by omega))]
      · rw [List.getElem?_eq_none (by omega)]
        exact hs
    · have hlt : j + 1 < a.slots.length := by omega
      obtain ⟨t, ht, hcontains⟩ := h.slot (j + 1) hlt
      have hnumber : first + (j + 1) = first + 1 + j := by omega
      rw [hnumber] at ht hcontains
      refine ⟨t, ?_, hcontains⟩
      rw [List.getElem?_set_ne]
      · exact ht
      · rw [hzero, ← hnumber]
        intro heq
        have := around_inj (by omega) hlt heq
        omega

end Ring

theorem ring_formatted (config : Config) (size now : Nat) :
    (formatted config size now).Ring 0 [] := by
  have hslots : (formatted config size now).slots =
      List.replicate config.slotCount.toNat (.fresh now) := rfl
  refine ⟨Nat.zero_le _, fun _ hf => absurd hf List.not_mem_nil, rfl, rfl, fun j hj => ?_⟩
  rw [hslots, List.length_replicate] at hj ⊢
  have hlt : (0 + j) % config.slotCount.toNat < config.slotCount.toNat := Nat.mod_lt _ (by omega)
  exact ⟨.fresh now, by rw [List.getElem?_replicate, if_pos hlt], rfl⟩

/-! ## Claims -/

namespace Mapping

variable {m : Mapping}

/-- Where no slot is due, a claim for writing takes the slot at the cursor if it
may. -/
theorem claimForWriting_at_cursor {overwrite : Bool} {s : Slot}
    (hkept : ∀ s ∈ m.slots, s.swept m.staleness = s)
    (hs : m.slots[m.segment.control.writerCursor % m.slots.length]? = some s)
    (hw : s.isWritable overwrite = true) :
    m.claimForWriting overwrite =
      (some (m.segment.control.writerCursor % m.slots.length),
        m.takeForWriting (m.segment.control.writerCursor % m.slots.length) s) := by
  obtain ⟨hlt, -⟩ := List.getElem?_eq_some_iff.mp hs
  obtain ⟨n, hn⟩ : ∃ n, m.slots.length = n + 1 := ⟨m.slots.length - 1, by omega⟩
  obtain ⟨others, hothers⟩ := cyclic_succ n m.segment.control.writerCursor
  rw [← hn] at hothers
  rw [claimForWriting, hothers, takeFirst, sweep_eq_sweptAt, sweptAt_eq_self hkept, hs]
  simp [hw]

theorem claimForWriting_eq_none {overwrite : Bool} (hkept : ∀ s ∈ m.slots, s.swept m.staleness = s)
    (hfull : ∀ s ∈ m.slots, s.isWritable overwrite = false) :
    m.claimForWriting overwrite = (none, m) := by
  rcases m.claimForWriting_cases overwrite with ⟨hnone, -⟩ | ⟨-, slot, -, s, -, -, hs, hw, -⟩
  · rw [hnone, sweptAt_eq_self hkept]
  · have hmem := List.mem_of_getElem? hs
    rw [hkept s hmem, hfull s hmem] at hw
    cases hw

end Mapping

namespace Ring

variable {m : Mapping} {first : Nat} {fragments : List Fragment}

/-- A record that is gone once read stays until it is read. -/
theorem swept (h : m.segment.Ring first fragments) (hgone : m.me.destructive = true) :
    ∀ s ∈ m.slots, s.swept m.staleness = s := by
  intro s hs
  obtain ⟨k, hk⟩ := List.mem_iff_getElem?.mp hs
  have hstate := h.state_cases hk
  rcases s.swept_cases m.staleness with
    hkept | ⟨-, hreading, -⟩ | ⟨-, hwriting, -⟩ | ⟨-, -, hdrops, -⟩
  · exact hkept
  · simp [hreading] at hstate
  · simp [hwriting] at hstate
  · simp [Mapping.staleness, hgone] at hdrops

/-- A writer takes the slot after the last, if it is empty or the writer
overwrites. -/
theorem claimForWriting (h : m.segment.Ring first fragments) (hgone : m.me.destructive = true)
    {overwrite : Bool} (hpos : 0 < m.slots.length)
    (hmay : fragments.length < m.slots.length ∨ overwrite = true) :
    ∃ s, m.slots[(first + fragments.length) % m.slots.length]? = some s ∧
      m.claimForWriting overwrite = (some ((first + fragments.length) % m.slots.length),
        m.takeForWriting ((first + fragments.length) % m.slots.length) s) := by
  have hlt : (first + fragments.length) % m.slots.length < m.slots.length := Nat.mod_lt _ hpos
  obtain ⟨s, hs⟩ : ∃ s, m.slots[(first + fragments.length) % m.slots.length]? = some s :=
    ⟨_, List.getElem?_eq_getElem hlt⟩
  refine ⟨s, hs, ?_⟩
  have hcursor : m.segment.control.writerCursor % m.slots.length =
      (first + fragments.length) % m.slots.length := h.cursor
  rw [← hcursor] at hs ⊢
  refine Mapping.claimForWriting_at_cursor (h.swept hgone) hs ?_
  rcases hmay with hroom | rfl
  · obtain ⟨t, ht, hcontains⟩ := h.slot _ hroom
    rw [List.getElem?_eq_none (Nat.le_refl _)] at hcontains
    have ht' : m.slots[m.segment.control.writerCursor % m.slots.length]? = some t := by
      rw [hcursor]
      exact ht
    rw [hs] at ht'
    cases ht'
    have hempty : s.state = .empty := hcontains
    simp [Slot.isWritable, hempty]
  · rcases h.state_cases hs with hempty | ⟨hfull, -⟩
    · simp [Slot.isWritable, hempty]
    · simp [Slot.isWritable, hfull]

/-- Where every slot holds a record, a writer that does not overwrite gets
none. -/
theorem claimForWriting_full (h : m.segment.Ring first fragments)
    (hgone : m.me.destructive = true) (hfull : fragments.length = m.slots.length) :
    m.claimForWriting false = (none, m) := by
  refine Mapping.claimForWriting_eq_none (h.swept hgone) fun s hs => ?_
  obtain ⟨k, hk⟩ := List.mem_iff_getElem?.mp hs
  obtain ⟨j, hj, -, hcontains⟩ := h.contains hk
  have hlt : j < fragments.length := by
    rw [hfull]
    exact hj
  rw [List.getElem?_eq_getElem hlt] at hcontains
  have hstate : s.state = .full := by rw [Slot.state, hcontains.word, StateWord.state_of]
  simp [Slot.isWritable, hstate]

theorem claimForReading_nil (h : m.segment.Ring first []) (hgone : m.me.destructive = true) :
    m.claimForReading = (none, m) := by
  rcases m.claimForReading_cases with ⟨hnone, -⟩ | ⟨slot, s, hs, hread, -, -⟩
  · rw [hnone, Mapping.sweepAll_eq_self (h.swept hgone)]
  · rw [h.swept hgone s (List.mem_of_getElem? hs)] at hread
    obtain ⟨j, -, -, hempty⟩ := h.contains hs
    have hstate : s.state = .empty := hempty
    simp [Mapping.isReadable, Slot.isAddressedTo, hstate] at hread

/-- A reader takes the oldest record. -/
theorem claimForReading_cons {fragment : Fragment}
    (h : m.segment.Ring first (fragment :: fragments)) (hgone : m.me.destructive = true) :
    ∃ s, m.slots[first % m.slots.length]? = some s ∧ s.Carries first fragment ∧
      m.claimForReading = (some (first % m.slots.length),
        m.takeForReading (first % m.slots.length) s) := by
  have hkept := h.swept hgone
  have hpos : 0 < m.slots.length := Nat.lt_of_lt_of_le (by simp) h.length_le
  obtain ⟨s, hs, hcarries⟩ : ∃ s, m.slots[first % m.slots.length]? = some s ∧
      s.Carries first fragment := h.slot 0 hpos
  have hreads : m.isReadable s = true :=
    m.isReadable_of_any hgone (by rw [Slot.state, hcarries.word, StateWord.state_of])
      (by rw [Slot.owner, hcarries.word, StateWord.owner_of])
  have hsame : s.swept m.staleness = s := hkept s (List.mem_of_getElem? hs)
  refine ⟨s, hs, hcarries, ?_⟩
  rcases m.claimForReading_cases with ⟨-, hnone⟩ | ⟨slot, t, ht, hread, hleast, hsome⟩
  · have hidle := hnone _ s hs
    rw [hsame, hreads] at hidle
    cases hidle
  · have hswept := hkept t (List.mem_of_getElem? ht)
    rw [hswept] at hread hsome
    obtain ⟨j, hj, rfl, hcontains⟩ := h.contains ht
    -- What is taken is the record that comes first, since it has the lowest sequence id.
    have hle := hleast _ s hs (by rw [hsame]; exact hreads)
    rw [hswept, hsame, hcarries.sequenceId] at hle
    cases hf : (fragment :: fragments)[j]? with
    | none =>
      rw [hf] at hcontains
      have hempty : t.state = .empty := hcontains
      simp [Mapping.isReadable, Slot.isAddressedTo, hempty] at hread
    | some found =>
      rw [hf] at hcontains
      have hzero : j = 0 := by
        have := hcontains.sequenceId
        omega
      subst hzero
      have htaken : m.slots[first % m.slots.length]? = some t := ht
      rw [hs] at htaken
      cases htaken
      rw [hsome, Mapping.sweepAll_eq_self hkept]
      rfl

end Ring

end SlotTransport.Segment
