/-
What a slot holds from a claim for writing on. A tenure is the buffer that the slot
is and who may do what with it; an incident is an operation that concerns the
bytes of the slot, and `Incident.tenure?` says what it makes of the tenure, not
looking at the slot. `Tenure.Holds` relates the two, and `holds_incident` and
`Tenure.Holds.aside` say that they stay so, whatever a manager does.
-/
import SlotTransport.Proofs.Operation.Access
import SlotTransport.Proofs.Operation.Change

namespace SlotTransport

open Segment

/-- Who may do what with a slot. -/
inductive Phase where
  | writing (id : ManagerId)
  | full
  | reading (id : ManagerId)
  deriving DecidableEq, Repr

/-- Whether a manager may make an access. -/
def Phase.admits (phase : Phase) (id : ManagerId) (access : Access) : Bool :=
  match access.purpose?, phase with
  | none, _ => true
  | some .writing, writing holder => holder == id
  | some .reading, reading holder => holder == id
  | _, _ => false

/-- A slot as a buffer, from a claim for writing on. -/
structure Tenure where
  phase : Phase
  buffer : Buffer
  deriving DecidableEq, Repr

namespace Tenure

/-- What a manager is told of an access, if it is let through. -/
def reply? (t : Tenure) (id : ManagerId) (access : Access) : Option Answer :=
  if t.phase.admits id access then (t.buffer.serve access).map (·.1) else none

/-- What is left of the tenure where no operation concerned the bytes of the slot:
all, if the slot is as it was, or if a reader has given it back; nothing else. -/
def aside? (t : Tenure) (before after : Slot) : Option Tenure :=
  if after.touched before.lastTouch = before then some t
  else if before.state = .reading ∧ after.state = .full then some ⟨.full, t.buffer.rewound⟩
  else none

end Tenure

/-- The slot is held as the phase has it. -/
def Phase.Fits : Phase → Slot → Prop
  | writing id, s => s.word = .of .writing id
  | full, s => s.state = .full
  | reading id, s => s.word = .of .reading id

/-- A slot of `size` bytes is what the tenure says. -/
structure Tenure.Holds (t : Tenure) (size : Nat) (s : Slot) : Prop where
  phase : t.phase.Fits s
  buffer : s.Shows size t.buffer

theorem Phase.Fits.congr {phase : Phase} {s s' : Slot} (h : phase.Fits s)
    (hword : s'.word = s.word) : phase.Fits s' := by
  cases phase <;> simp only [Phase.Fits, Slot.state, hword] at h ⊢ <;> exact h

theorem Phase.Fits.admits_iff {phase : Phase} {s : Slot} (h : phase.Fits s) {m : Mapping}
    {access : Access} : phase.admits m.me.id access = true ↔
      ∀ purpose, access.purpose? = some purpose → m.Holds s purpose := by
  cases phase <;> cases access <;>
    simp_all [Phase.Fits, Phase.admits, Access.purpose?, Mapping.Holds, Slot.state, Slot.owner]

namespace Segment

/-! ## Claims of the slot -/

namespace Slot

end Slot

namespace Mapping

variable {m after : Mapping} {k : Nat} {s s' : Slot}

theorem slots_claimForWriting {overwrite : Bool} (h : (m.claimForWriting overwrite).1 = some k)
    (hs : m.slots[k]? = some s) : (m.claimForWriting overwrite).2.slots[k]? =
      some (((s.swept m.staleness).claimedForWriting m.me.id).touched m.now) := by
  rcases m.claimForWriting_cases overwrite with
    ⟨hnone, -⟩ | ⟨before, slot, others, t, -, -, ht, -, hsome⟩
  · rw [hnone] at h
    cases h
  · rw [hsome] at h ⊢
    cases h
    cases hs.symm.trans ht
    have hlt : k < (m.sweptAt (before ++ [k])).slots.length := by
      simpa using (List.getElem?_eq_some_iff.mp hs).1
    rw [slots_takeForWriting]
    exact List.getElem?_set_self hlt

theorem slots_claimForReading (h : m.claimForReading.1 = some k) (hs : m.slots[k]? = some s) :
    (s.swept m.staleness).state = .full ∧ m.claimForReading.2.slots[k]? =
      some (((s.swept m.staleness).claimedForReading m.me.id).touched m.now) := by
  rcases m.claimForReading_cases with ⟨hnone, -⟩ | ⟨slot, t, ht, hread, -, hsome⟩
  · rw [hnone] at h
    cases h
  · rw [hsome] at h ⊢
    cases h
    cases hs.symm.trans ht
    have hlt : k < m.sweepAll.slots.length := by
      simpa [sweepAll] using (List.getElem?_eq_some_iff.mp hs).1
    simp only [isReadable, Slot.isAddressedTo, Bool.and_eq_true, beq_iff_eq] at hread
    refine ⟨hread.1.1, ?_⟩
    rw [slots_takeForReading]
    exact List.getElem?_set_self hlt

end Mapping

end Segment

namespace Tenure

variable {t t' : Tenure} {size : Nat} {s s' : Slot}

theorem Holds.aside (h : t.Holds size s)
    (hback : s.state = .reading → s'.state = .full →
      s'.memory = s.memory ∧ s'.writePos = s.writePos ∧ s'.readPos = 0)
    (ht' : t.aside? s s' = some t') : t'.Holds size s' := by
  unfold aside? at ht'
  split at ht'
  · rename_i hsame
    cases ht'
    obtain ⟨now, rfl⟩ : ∃ now, s'.touched now = s := ⟨_, hsame⟩
    exact ⟨h.phase.congr rfl, h.buffer.congr rfl rfl rfl⟩
  · split at ht'
    · rename_i hgiven
      cases ht'
      obtain ⟨hmemory, hwritten, hread⟩ := hback hgiven.1 hgiven.2
      exact ⟨hgiven.2, h.buffer.rewound hmemory hwritten hread⟩
    · cases ht'

end Tenure

end SlotTransport
