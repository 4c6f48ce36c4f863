/-
Operations on a segment in which nothing goes stale, nothing is taken by force
and a record is for all to see. What matters of a slot there is its stage, and
`Quiet` lists what an operation makes of the stages: at most one slot gets to
another (`Move.quiet`).
-/
import Mathlib.Logic.Function.Basic
import SlotTransport.Proofs.Operation.Change

namespace SlotTransport.Segment

/-- How far a slot is with a record: without one, with one that nobody reads, or
with one that is being read. -/
inductive Stage where
  | idle
  | full (q releases : Nat)
  | reading (owner : ManagerId) (q releases : Nat)
  deriving DecidableEq, Repr

/-- The stage of a slot. -/
def Slot.stage (s : Slot) : Stage :=
  match s.state with
  | .empty | .writing => .idle
  | .full => .full s.sequenceId s.releases
  | .reading => .reading s.owner s.sequenceId s.releases

/-- The stage of the slot of a number. -/
def stage (segment : Segment) (k : Nat) : Stage :=
  ((segment.slots[k]?).map Slot.stage).getD .idle

theorem stage_eq {segment : Segment} {k : Nat} {s : Slot} (hs : segment.slots[k]? = some s) :
    segment.stage k = s.stage := by
  simp [stage, hs]

theorem stage_of_set {a b : Segment} {k : Nat} {s s' : Slot} (hs : a.slots[k]? = some s)
    (hb : b.slots = a.slots.set k s') : b.stage = Function.update a.stage k s'.stage := by
  obtain ⟨hlt, -⟩ := List.getElem?_eq_some_iff.mp hs
  funext j
  by_cases hj : j = k
  · subst hj
    simp [stage, hb, hlt]
  · rw [Function.update_of_ne hj, stage, stage, hb, List.getElem?_set_ne (Ne.symm hj)]

theorem stage_of_set_alike {a b : Segment} {k : Nat} {s s' : Slot} (hs : a.slots[k]? = some s)
    (hb : b.slots = a.slots.set k s') (h : s'.stage = s.stage) : b.stage = a.stage := by
  rw [stage_of_set hs hb, h, ← stage_eq hs, Function.update_eq_self]

namespace Mapping

/-- Nothing goes stale, and a record is for all to see. -/
structure Calm (m : Mapping) : Prop where
  timeout : m.me.staleTimeout = 0
  lasting : m.me.destructive = false

/-- What an operation makes of a calm mapping. -/
inductive Quiet (m : Mapping) (operation : Operation) (answer : Answer) (after : Mapping) :
    Prop where
  | still (hentry : operation.note? m.segment answer = none)
    (hstage : after.segment.stage = m.segment.stage) (hme : after.me = m.me)
    (hlast : after.segment.control.lastSequenceId = m.segment.control.lastSequenceId)
    (hwriters : after.segment.control.writers = m.segment.control.writers)
  | wrote (hentry : operation.note? m.segment answer = some .wrote)
    (hstage : after.segment.stage = m.segment.stage)
    (hme : after.me = { m.me with isWriter := true })
    (hlast : after.segment.control.lastSequenceId = m.segment.control.lastSequenceId)
    (hwriters : after.segment.control.writers =
      m.segment.control.writers + if m.me.isWriter then 0 else 1)
  | claimed {k q r : Nat} (hentry : operation.note? m.segment answer = some (.claimed q))
    (hfull : m.segment.stage k = .full q r) (hunseen : m.me.lastSeen < q)
    (hstage : after.segment.stage =
      Function.update m.segment.stage k (.reading m.me.id q r))
    (hme : after.me = { m.me with lastSeen := q })
    (hlast : after.segment.control.lastSequenceId = m.segment.control.lastSequenceId)
    (hwriters : after.segment.control.writers = m.segment.control.writers)
  | returned {k q r : Nat} (hentry : operation.note? m.segment answer = none)
    (hreading : m.segment.stage k = .reading m.me.id q r)
    (hstage : after.segment.stage = Function.update m.segment.stage k (.full q r))
    (hme : after.me = m.me)
    (hlast : after.segment.control.lastSequenceId = m.segment.control.lastSequenceId)
    (hwriters : after.segment.control.writers = m.segment.control.writers)
  | published {k : Nat} (hentry : operation.note? m.segment answer = none)
    (hidle : m.segment.stage k = .idle)
    (hstage : after.segment.stage =
      Function.update m.segment.stage k (.full (m.segment.control.lastSequenceId + 1) 0))
    (hme : after.me = m.me)
    (hlast : after.segment.control.lastSequenceId = m.segment.control.lastSequenceId + 1)
    (hwriters : after.segment.control.writers = m.segment.control.writers)
  | released {k q r : Nat} (hentry : operation.note? m.segment answer = some (.released q))
    (hreading : m.segment.stage k = .reading m.me.id q r)
    (hstage : after.segment.stage = Function.update m.segment.stage k
      (if m.segment.control.readers ≤ r + 1 then .idle else .full q (r + 1)))
    (hme : after.me = m.me)
    (hlast : after.segment.control.lastSequenceId = m.segment.control.lastSequenceId)
    (hwriters : after.segment.control.writers = m.segment.control.writers)

variable {m after : Mapping} {operation : Operation} {answer : Answer}

/-! ## Nothing is swept -/

theorem Calm.not_stale (h : m.Calm) (s : Slot) : s.isStale m.staleness = false := by
  simp [Slot.isStale, staleness, h.timeout]

theorem Calm.swept (h : m.Calm) (s : Slot) : s.swept m.staleness = s :=
  Slot.swept_of_not_isStale (h.not_stale s)

theorem Calm.sweptAt (h : m.Calm) (order : List Nat) : m.sweptAt order = m :=
  sweptAt_eq_self (fun s _ => h.swept s) order

theorem Calm.sweepAll (h : m.Calm) : m.sweepAll = m :=
  sweepAll_eq_self fun s _ => h.swept s

/-! ## Operations -/

theorem quiet_claimForWriting (h : m.Calm) :
    Quiet m (.claimForWriting false) (.slot (m.claimForWriting false).1)
      (m.claimForWriting false).2 := by
  rcases m.claimForWriting_cases false with
    ⟨hnone, -⟩ | ⟨before, slot, others, s, -, -, hs, hw, hsome⟩
  · rw [hnone, h.sweptAt]
    exact .still rfl rfl rfl rfl rfl
  · rw [hsome, h.sweptAt, h.swept]
    rw [h.swept] at hw
    have hempty : s.state = .empty := by simpa [Slot.isWritable] using hw
    refine .wrote rfl ?_ (me_takeForWriting m slot s) ?_ ?_
    · refine stage_of_set_alike hs (by rw [segment_takeForWriting]; rfl) ?_
      simp [Slot.stage, hempty]
    · rw [segment_takeForWriting]
    · rw [segment_takeForWriting]

theorem quiet_claimForReading (h : m.Calm) :
    Quiet m .claimForReading (.slot m.claimForReading.1) m.claimForReading.2 := by
  rcases m.claimForReading_cases with ⟨hnone, -⟩ | ⟨slot, s, hs, hread, -, hsome⟩
  · rw [hnone, h.sweepAll]
    exact .still rfl rfl rfl rfl rfl
  · rw [hsome, h.sweepAll, h.swept]
    rw [h.swept] at hread
    simp only [isReadable, Slot.isAddressedTo, h.lasting, Bool.false_or, Bool.and_eq_true,
      beq_iff_eq, decide_eq_true_eq] at hread
    obtain ⟨⟨hfull, -⟩, hunseen⟩ := hread
    have hslot : m.segment.slots[slot]? = some s := hs
    refine .claimed (k := slot) (q := s.sequenceId) (r := s.releases) ?_ ?_ hunseen ?_ ?_ ?_ ?_
    · simp [Operation.note?, hslot]
    · simp [stage_eq hs, Slot.stage, hfull]
    · rw [stage_of_set hs (by rw [segment_takeForReading]; rfl)]
      simp [Slot.stage]
    · rw [me_takeForReading]
      simp [h.lasting, max_eq_right (Nat.le_of_lt hunseen)]
    · rw [segment_takeForReading]
    · rw [segment_takeForReading]

theorem quiet_reset (h : m.Calm) {slot : Nat} {s s' : Slot} (hs : m.slots[slot]? = some s)
    (hs' : s.reclaimed? m.staleness (s.owner == m.me.id) = some s') :
    Quiet m (.reset slot) (.flag true) (m.store slot s') := by
  obtain ⟨hcause, hcases⟩ := Slot.reclaimed?_cases hs'
  have howner : s.owner = m.me.id := by
    rw [h.not_stale] at hcause
    simpa using hcause
  rcases hcases with ⟨hstate, rfl⟩ | ⟨hstate, rfl⟩ | ⟨-, hstale, -⟩
  · refine .returned (k := slot) (q := s.sequenceId) (r := s.releases) rfl ?_ ?_ rfl rfl rfl
    · simp [stage_eq hs, Slot.stage, hstate, howner]
    · rw [stage_of_set hs rfl]
      simp [Slot.stage]
  · refine .still rfl (stage_of_set_alike hs rfl ?_) rfl rfl rfl
    simp [Slot.stage, hstate]
  · rw [h.not_stale] at hstale
    cases hstale

theorem quiet_release (h : m.Calm) {slot : Nat} {s : Slot} (hs : m.slots[slot]? = some s)
    (hstate : s.state = .reading) (howner : s.owner = m.me.id) :
    Quiet m (.release slot) .done (m.touch slot (m.released s)) := by
  have hslot : m.segment.slots[slot]? = some s := hs
  refine .released (k := slot) (q := s.sequenceId) (r := s.releases) ?_ ?_ ?_ rfl rfl rfl
  · simp [Operation.note?, hslot]
  · simp [stage_eq hs, Slot.stage, hstate, howner]
  · rw [stage_of_set hs rfl]
    congr 1
    simp only [Mapping.released, h.lasting, Bool.false_or, decide_eq_true_eq]
    split
    · simp [Slot.stage]
    · rfl

/-- A move of a calm mapping that takes nothing by force is quiet. -/
theorem Move.quiet (hmove : m.Move operation answer after) (h : m.Calm)
    (hforce : operation.isForced = false) : m.Quiet operation answer after := by
  have htransfer : operation.isTransfer = true → operation.note? m.segment answer = none := by
    intro htransfer
    cases operation <;> first | rfl | cases htransfer
  cases hmove with
  | idle hidle =>
    refine .still ?_ rfl rfl rfl rfl
    cases operation <;> first | rfl | cases hidle
  | wrote ht hs hstate =>
    refine .still (htransfer ht) (stage_of_set_alike hs rfl ?_) rfl rfl rfl
    rfl
  | read ht hs =>
    refine .still (htransfer ht) (stage_of_set_alike hs rfl ?_) rfl rfl rfl
    rfl
  | checked hs => exact .still rfl (stage_of_set_alike hs rfl rfl) rfl rfl rfl
  | reset hs hs' => exact quiet_reset h hs hs'
  | claimedForWriting overwrite =>
    obtain rfl : overwrite = false := by simpa [Operation.isForced] using hforce
    exact quiet_claimForWriting h
  | claimedForReading => exact quiet_claimForReading h
  | @published slot s destination hs hword =>
    have hwriting : s.state = .writing := by rw [Slot.state, hword, StateWord.state_of]
    refine .published (k := slot) rfl ?_ ?_ rfl rfl rfl
    · simp [stage_eq hs, Slot.stage, hwriting]
    · rw [stage_of_set hs rfl]
      simp [Slot.stage]
  | released hs hstate howner => exact quiet_release h hs hstate howner
  | evicted => cases hforce
  | declared hdeclared =>
    refine .still ?_ rfl rfl rfl rfl
    cases operation <;> first | rfl | cases hdeclared

end Mapping

end SlotTransport.Segment
