/-
What a lease is good for once its claim has ended. A lease knows the slot and not
the claim, so it is good for whatever the manager holds in that slot: it does what
the manager could do without it. Where the manager holds nothing, a lease of the
slot leaves it alone (`lease_spares`). Where the manager holds the slot by a later
claim, the lease of an earlier one acts on that (`lease_outlives_claim`).
-/
import SlotTransport.Proofs.World.Exclusive

namespace SlotTransport

open Segment

/-- The slot that a lease operation is about, where it is about a lease. -/
def LeaseOperation.slot? : LeaseOperation → Option Nat
  | leaseForWriting _ | leaseForReading => none
  | onWriting lease _ => some lease.slot
  | onReading lease _ => some lease.slot

namespace Segment.Mapping

variable {m after : Mapping} {operation : Operation} {answer : Answer} {k : Nat} {s s' : Slot}

/-- What an operation that neither claims nor evicts makes of a slot that its
manager does not hold. -/
theorem Change.of_not_held (h : m.Change operation answer k s s')
    (hother : s.isHeld = true → s.owner ≠ m.me.id) (hclaim : operation.isClaim = false)
    (hforce : operation.isForced = false) :
    s' = s ∨ (operation = .reset k ∧ s.isStale m.staleness = true) ∨
      ∃ expected, operation = .check k expected := by
  have hfree : ∀ {state : SlotState}, s.state = state → (state == .writing || state == .reading) →
      s.owner ≠ m.me.id :=
    fun hstate hheld => hother (by rw [Slot.isHeld, hstate]; exact hheld)
  cases h with
  | kept => exact .inl rfl
  | wrote _ hstate howner | read _ hstate howner | released _ hstate howner =>
    exact absurd howner (hfree hstate rfl)
  | checked hcheck => exact .inr (.inr ⟨_, hcheck⟩)
  | swept hclaims => rw [hclaims] at hclaim; cases hclaim
  | claimedForWriting hclaims | claimedForReading hclaims => rw [hclaims] at hclaim; cases hclaim
  | published _ hword =>
    have hstate : s.state = .writing := by rw [Slot.state, hword, StateWord.state_of]
    have howner : s.owner = m.me.id := by rw [Slot.owner, hword, StateWord.owner_of]
    exact absurd howner (hfree hstate rfl)
  | evicted hevict => rw [hevict] at hforce; cases hforce
  | reset hreset hs' =>
    obtain ⟨hcause, hcases⟩ := Slot.reclaimed?_cases hs'
    refine .inr (.inl ⟨hreset, ?_⟩)
    rcases hcases with ⟨hstate, -⟩ | ⟨hstate, -⟩ | ⟨-, hstale, -⟩
    · exact hcause.resolve_left (by simpa using hfree hstate rfl)
    · exact hcause.resolve_left (by simpa using hfree hstate rfl)
    · exact hstale

theorem Move.checked_reading (h : m.Move (.check k .reading) answer after)
    (hs : m.slots[k]? = some s) (hother : s.isHeld = true → s.owner ≠ m.me.id) :
    after.slots[k]? = some s := by
  cases h with
  | idle => exact hs
  | wrote htransfer | read htransfer => cases htransfer
  | declared hdeclared => cases hdeclared
  | checked ht hstate hmine =>
    rw [hs] at ht
    cases ht
    rcases hmine with howner | ⟨-, hfull | hempty⟩
    · exact absurd howner (hother (by simp [Slot.isHeld, hstate]))
    · rw [hstate] at hfull
      cases hfull
    · rw [hstate] at hempty
      cases hempty

end Segment.Mapping

namespace LeaseOperation

variable {operation : LeaseOperation} {k : Nat}

theorem plain_of_slot? (h : operation.slot? = some k) :
    operation.plain.isClaim = false ∧ operation.plain.isForced = false ∧
      ∀ {j : Nat} {expected : SlotState}, operation.plain = .check j expected →
        expected = .reading := by
  cases operation with
  | leaseForWriting | leaseForReading => cases h
  | onWriting lease use => cases use <;> exact ⟨rfl, rfl, nofun⟩
  | onReading lease use =>
    cases use with
    | isHeld =>
      refine ⟨rfl, rfl, fun hcheck => ?_⟩
      cases hcheck
      rfl
    | _ => exact ⟨rfl, rfl, nofun⟩

end LeaseOperation

namespace World

/-- **A lease is good for what its manager holds.** In every run, to use a lease is
to do what the manager could do to the slot without it; and whatever is done with
it, a slot that the manager does not hold stays as it is in all its parts. Only a
slot that is stale may be taken from whoever holds it by giving up the lease. -/
theorem lease_spares {past : List Moment} {w : World} (hrun : Run past w) {i k : Nat}
    {operation : LeaseOperation} (hlease : operation.slot? = some k) {me : Attachment} {s : Slot}
    (hme : w.attachment? i = some me) (hslot : w.slot? me.object k = some s) :
    w.step (.lease i operation) = w.step (.perform i operation.plain) ∧
    ((s.isHeld = true → s.owner ≠ me.id) →
      (operation.plain = .reset k →
        s.isStale ⟨me.staleTimeout, w.now i, !me.destructive⟩ = false) →
      (w.step (.lease i operation)).slot? me.object k = some s) := by
  refine ⟨act_lease w i operation, fun hother hstale => ?_⟩
  have hcoherent := hrun.coherent
  obtain ⟨segment, hsegment, hs⟩ := Option.bind_eq_some_iff.mp hslot
  have hp : w.party? me.object = some ⟨segment, w.member me.object⟩ :=
    party?_eq_some_iff.mpr ⟨hsegment, rfl⟩
  have hmember : w.member me.object i = some me := member_eq_some_iff.mpr ⟨hme, rfl⟩
  obtain ⟨p', hp', hturn⟩ := (step_turned hcoherent (.lease i operation)).turn hp
  rw [slot?_of_party? hp']
  rcases hturn.slot_cases hs with
    h | ⟨_, _, _, answer, after, hcall, hme', hmove, rfl⟩ | ⟨_, _, hcall, hme', -, h⟩
  · exact h
  · cases hcall
    cases hmember.symm.trans hme'
    obtain ⟨hclaim, hforce, hcheck⟩ := operation.plain_of_slot? hlease
    have happlied := Operation.apply_move hmove
    obtain ⟨s', hs', hchange⟩ := happlied.change hs
    rcases hchange.of_not_held hother hclaim hforce with rfl | ⟨hreset, hstale'⟩ | ⟨expected, h⟩
    · exact hs'
    · exact absurd hstale' (by rw [Mapping.staleness, hstale hreset]; exact Bool.false_ne_true)
    · cases hcheck h
      rw [h] at happlied
      exact happlied.checked_reading hs hother
  · cases hcall
    cases hmember.symm.trans hme'
    rw [h, Slot.leftBy_of_not_held hother]

/-- A writer whose claim has gone stale writes through its lease into a slot that
another manager has claimed. -/
theorem lease_spares_successor :
    let config : Segment.Config := ⟨7, 1, 8, 10, true, 0⟩
    let calls : List Call := [.attach config .manual, .attach config .manual,
      .lease 0 (.leaseForWriting false), .tick ⟨11⟩ ⟨0⟩, .lease 1 (.leaseForWriting false)]
    let write : LeaseOperation := .onWriting ⟨0⟩ (.write [5])
    let w := (run calls).2
    ∃ me s, write.slot? = some 0 ∧ w.attachment? 0 = some me ∧ w.slot? me.object 0 = some s ∧
      s.isHeld = true ∧ s.owner ≠ me.id ∧ write.plain ≠ .reset 0 ∧
      (w.step (.lease 0 write)).slot? me.object 0 = some s := by
  intro config calls write w
  obtain ⟨me, hme, hfound⟩ := (Option.any_eq_true (fun me : Attachment =>
    (w.slot? me.object 0).any fun s => s.isHeld && s.owner != me.id) (w.attachment? 0)).mp
    (by decide +kernel)
  obtain ⟨s, hslot, hheld⟩ := (Option.any_eq_true _ _).mp hfound
  simp only [Bool.and_eq_true, bne_iff_ne] at hheld
  obtain ⟨hheld, hother⟩ := hheld
  have hreset : write.plain ≠ .reset 0 := by decide
  exact ⟨me, s, rfl, hme, hslot, hheld, hother, hreset,
    (lease_spares (run_run calls) rfl hme hslot).2 (fun _ => hother)
      fun h => absurd h hreset⟩

/-- **A lease outlives its claim.** A writer's claim goes stale, and its own next
claim takes the slot again. Both leases are of the same slot, so what is done with
the old one happens to the new claim: it appends to what is written, publishes it,
or takes the slot away. -/
theorem lease_outlives_claim :
    let config : Segment.Config := ⟨7, 1, 8, 10, true, 0⟩
    let calls : List Call := [.attach config .manual, .lease 0 (.leaseForWriting false),
      .tick ⟨11⟩ ⟨0⟩, .lease 0 (.leaseForWriting false)]
    let old : WriteLease := ⟨0⟩
    let w := (run calls).2
    (run (calls.take 3)).2.answer? 0 (.claimForWriting false) = some (.ok (.slot (some 0))) ∧
    ((run (calls.take 3)).2.slot? 0 0).any (fun s => s.state == .writing &&
      s.isStale ⟨10, 11, false⟩) = true ∧
    (w.slot? 0 0).any (fun s => s.state == .writing && s.writePos == 0) = true ∧
    ((w.step (.lease 0 (.onWriting old (.write [5])))).slot? 0 0).any
      (fun s => s.state == .writing && s.writePos == 1) = true ∧
    ((w.step (.lease 0 (.onWriting old (.commit .any)))).slot? 0 0).any
      (fun s => s.state == .full && s.sequenceId == 1) = true ∧
    ((w.step (.lease 0 (.onWriting old .drop))).slot? 0 0).any (·.state == .empty) = true := by
  decide +kernel

end World

end SlotTransport
