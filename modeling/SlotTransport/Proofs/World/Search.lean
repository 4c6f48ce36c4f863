/-
What a claim for reading comes to, whatever has happened before. It reclaims all that is
stale, so nothing that was given up is left (`earliest_record_claimed`), and takes the
record with the lowest sequence id among those that wait for the manager. Where all are
to see a record, these are the ones after all that the manager has claimed since it
joined (`Run.lastSeen`).
-/
import SlotTransport.Proofs.Segment.Search
import SlotTransport.Proofs.World.Sound

namespace SlotTransport

open Segment

/-! ## How far a manager is -/

theorem Operation.note?_eq_claimed_iff {segment : Segment} {operation : Operation}
    {answer : Answer} {q : Nat} : operation.note? segment answer = some (.claimed q) ↔
      ∃ slot s, operation = .claimForReading ∧ answer = .slot (some slot) ∧
        segment.slots[slot]? = some s ∧ s.sequenceId = q := by
  constructor
  · intro h
    unfold note? at h
    split at h
    · cases h
    · obtain ⟨s, hs, heq⟩ := Option.map_eq_some_iff.mp h
      cases heq
      exact ⟨_, s, rfl, rfl, hs, rfl⟩
    · obtain ⟨s, -, heq⟩ := Option.map_eq_some_iff.mp h
      cases heq
    · cases h
  · rintro ⟨slot, s, rfl, rfl, hs, rfl⟩
    simp [note?, hs]

/-- Where all are to see a record, a manager gets on by a claim for reading, to the record
that it claims, and by nothing else. -/
theorem Segment.Mapping.Move.lastSeen {m after : Mapping} {operation : Operation} {answer : Answer}
    (h : m.Move operation answer after) (hlasting : m.me.destructive = false) :
    (∃ q, operation.note? m.segment answer = some (.claimed q) ∧
      after.me.lastSeen = max m.me.lastSeen q) ∨
    ((∀ q, operation.note? m.segment answer ≠ some (.claimed q)) ∧
      after.me.lastSeen = m.me.lastSeen) := by
  by_cases hclaim : operation = .claimForReading
  · subst hclaim
    cases h with
    | claimedForReading =>
      rcases m.claimForReading_cases with ⟨h, -⟩ | ⟨slot, s, hs, -, -, h⟩
      · rw [h]
        exact .inr ⟨nofun, rfl⟩
      · rw [h]
        refine .inl ⟨s.sequenceId,
          Operation.note?_eq_claimed_iff.mpr ⟨slot, s, rfl, rfl, hs, rfl⟩, ?_⟩
        rw [me_takeForReading, s.sequenceId_swept]
        have hall : ¬ m.sweepAll.me.destructive = true := by
          rw [show m.sweepAll.me = m.me from rfl, hlasting]
          exact Bool.false_ne_true
        exact if_neg hall
    | idle h | wrote h | read h | declared h => cases h
  · refine .inr ⟨fun q hq => ?_, ?_⟩
    · obtain ⟨_, _, heq, -⟩ := Operation.note?_eq_claimed_iff.mp hq
      exact hclaim heq
    · cases h with
      | claimedForReading => exact absurd rfl hclaim
      | claimedForWriting overwrite =>
        rcases m.claimForWriting_cases overwrite with ⟨h, -⟩ |
          ⟨before, slot, others, s, -, -, -, -, h⟩
        · rw [h]
          rfl
        · rw [h, me_takeForWriting]
          rfl
      | _ => rfl

namespace World

variable {past : List Moment} {w : World} {call : Call} {moment : Moment} {number i : Nat}
  {p p' : Party} {me me' : Attachment}

/-- The sequence id of the record that a manager claims for reading at a moment, if it
claims one. -/
def Moment.claim? (number i : Nat) (moment : Moment) : Option Nat :=
  match moment.note? number with
  | some (j, .claimed q) => if j = i then some q else none
  | _ => none

/-- The sequence ids of the records that a manager has claimed for reading since it
joined. -/
def claimedSince (number i : Nat) (past : List Moment) : List Nat :=
  (stay number i past).filterMap fun moment => moment.claim? number i

theorem claim?_eq_some_iff {q : Nat} : moment.claim? number i = some q ↔
    moment.note? number = some (i, .claimed q) := by
  unfold Moment.claim?
  split
  · rename_i j q' h
    rw [h]
    by_cases hj : j = i <;> simp [hj]
  · rename_i hother
    simp only [reduceCtorEq, false_iff]
    exact hother i q

theorem claimedSince_of_joins (h : moment.joins number i = true) :
    claimedSince number i (moment :: past) = [] := by
  simp [claimedSince, stay, h]

theorem claimedSince_of_stays (h : moment.joins number i = false) :
    claimedSince number i (moment :: past) =
      (moment.claim? number i).toList ++ claimedSince number i past := by
  cases hclaim : moment.claim? number i <;> simp [claimedSince, stay, h, hclaim]

/-- A manager is as far as the latest record that it has claimed. -/
structure Reached (me : Attachment) (claimed : List Nat) : Prop where
  all : ∀ q ∈ claimed, q ≤ me.lastSeen
  latest : me.lastSeen = 0 ∨ me.lastSeen ∈ claimed

theorem Reached.lt_iff {claimed : List Nat} (h : Reached me claimed) {q : Nat} (hq : 1 ≤ q) :
    me.lastSeen < q ↔ ∀ q' ∈ claimed, q' < q := by
  refine ⟨fun hlt q' hq' => (h.all q' hq').trans_lt hlt, fun hclaimed => ?_⟩
  rcases h.latest with hnothing | hlatest
  · rwa [hnothing]
  · exact hclaimed _ hlatest

theorem Reached.claim {claimed : List Nat} (h : Reached me claimed) {q : Nat}
    (hme' : me'.lastSeen = max me.lastSeen q) : Reached me' (q :: claimed) := by
  refine ⟨fun q' hq' => ?_, ?_⟩
  · rw [hme']
    rcases List.mem_cons.mp hq' with rfl | hq'
    · exact le_max_right ..
    · exact (h.all q' hq').trans (le_max_left ..)
  · rw [hme']
    rcases max_choice me.lastSeen q with hmax | hmax
    · rw [hmax]
      exact h.latest.imp_right (List.mem_cons_of_mem q)
    · rw [hmax]
      exact .inr List.mem_cons_self

theorem reached_of_turn (hw : w.Coherent) (hp : w.party? number = some p)
    (hp' : (w.step call).party? number = some p') (hturn : p.Turn number w.now call p')
    (hlasting : p.segment.control.isDestructive = false)
    (h : ∀ {me : Attachment}, p.member i = some me → Reached me (claimedSince number i past))
    (hme' : p'.member i = some me') :
    Reached me' (claimedSince number i (⟨w, call⟩ :: past)) := by
  rcases member_cases_of_turn hp hp' hturn hme' with ⟨hjoins, rfl⟩ |
    ⟨hstays, ⟨hcall, hme⟩ | ⟨operation, me, answer, after, hcall, hme, hmove, rfl⟩⟩
  · rw [claimedSince_of_joins hjoins]
    exact ⟨nofun, .inl rfl⟩
  · have hclaim : (⟨w, call⟩ : Moment).claim? number i = none :=
      Option.eq_none_iff_forall_ne_some.mpr fun q hq =>
        note?_of_uncalled hw hp hcall _ (claim?_eq_some_iff.mp hq)
    rw [claimedSince_of_stays hstays, hclaim]
    exact h hme
  · have hnote := note?_of_moved hw hp hcall hme hmove
    have hkept : me.destructive = false := ((hw.party hp).fits hme).destructive.trans hlasting
    rw [claimedSince_of_stays hstays]
    rcases (Operation.apply_move hmove).lastSeen hkept with ⟨q, hclaimed, hseen⟩ | ⟨hnone, hseen⟩
    · have hclaim : (⟨w, call⟩ : Moment).claim? number i = some q := by
        rw [claim?_eq_some_iff, hnote, hclaimed]
        rfl
      rw [hclaim]
      exact (h hme).claim hseen
    · have hclaim : (⟨w, call⟩ : Moment).claim? number i = none := by
        refine Option.eq_none_iff_forall_ne_some.mpr fun q hq => hnone q ?_
        rw [claim?_eq_some_iff, hnote] at hq
        obtain ⟨entry, hentry, heq⟩ := Option.map_eq_some_iff.mp hq
        cases heq
        exact hentry
      rw [hclaim]
      exact ⟨fun q hq => hseen ▸ (h hme).all q hq, hseen ▸ (h hme).latest⟩

theorem lastSeen_of_fresh (h : p.Fresh number) (hme : p.member i = some me) :
    me.lastSeen = 0 := by
  cases h with
  | blank size => cases hme
  | @formatted config _ now j =>
    change Function.update (fun _ => none) j (some (.new number creatorId (.created config))) i =
      some me at hme
    by_cases hj : i = j
    · subst hj
      rw [Function.update_self] at hme
      cases hme
      rfl
    · rw [Function.update_of_ne hj] at hme
      cases hme

/-- In every run, where all are to see a record, a manager is as far as the latest record
that it has claimed since it joined. -/
theorem Run.reached (h : Run past w) (hp : w.party? number = some p)
    (hlasting : p.segment.control.isDestructive = false) (hme : p.member i = some me) :
    Reached me (claimedSince number i past) := by
  refine Run.party_induction (motive := fun past _ p => p.segment.control.isDestructive = false →
      ∀ {me : Attachment}, p.member i = some me → Reached me (claimedSince number i past))
    (fun call hrun hnone hp hfresh _ me hme => ?_)
    (fun {past w call p p'} hrun hp hp' hturn ih hlasting' me' hme' => ?_) h hp hlasting hme
  · have hjoins := joins_of_fresh hrun.coherent hnone hp (i := i)
    rw [hme] at hjoins
    rw [claimedSince_of_joins hjoins]
    exact ⟨nofun, .inl (lastSeen_of_fresh hfresh hme)⟩
  · have hlasting : p.segment.control.isDestructive = false :=
      hturn.alike.isDestructive.symm.trans hlasting'
    exact reached_of_turn hrun.coherent hp hp' hturn hlasting (ih hlasting) hme'

end World

/-! ## One claim -/

namespace Segment.Mapping

variable {m : Mapping} {s t : Slot}

/-- Readable records have different sequence ids, also once stale slots are reclaimed. -/
theorem eq_of_readable (hsound : m.segment.Sound) {j k : Nat} (hs : m.sweepAll.slots[j]? = some s)
    (ht : m.sweepAll.slots[k]? = some t) (hread : m.isReadable s = true)
    (hid : s.sequenceId = t.sequenceId) : j = k := by
  rw [slots_sweepAll] at hs ht
  obtain ⟨s₀, hs₀, rfl⟩ := Option.map_eq_some_iff.mp hs
  obtain ⟨t₀, ht₀, rfl⟩ := Option.map_eq_some_iff.mp ht
  have hfull : (s₀.swept m.staleness).state = .full := by
    simp only [isReadable, Slot.isAddressedTo, Bool.and_eq_true, beq_iff_eq] at hread
    exact hread.1.1
  have hrecord := (((hsound.slot hs₀).swept m.staleness).full hfull).2
  rw [s₀.sequenceId_swept] at hrecord hid
  rw [t₀.sequenceId_swept] at hid
  exact hsound.distinct hs₀ ht₀ (Nat.ne_of_gt hrecord) hid

/-- What a claim for reading comes to: all that is stale is reclaimed, and of the readable
records that there are then the one with the lowest sequence id is claimed. -/
theorem claimForReading_exact (hsound : m.segment.Sound) :
    let renewed := m.slots.map (·.renewed m.staleness)
    (m.claimForReading.1 = none ↔ ∀ s ∈ renewed, m.isReadable s = false) ∧
    (m.claimForReading.1 = none → m.claimForReading.2.slots = renewed) ∧
    ∀ slot, m.claimForReading.1 = some slot → ∃ s, renewed[slot]? = some s ∧
      m.isReadable s = true ∧
      (∀ (k : Nat) (t : Slot), renewed[k]? = some t → m.isReadable t = true → k ≠ slot →
        s.sequenceId < t.sequenceId) ∧
      m.claimForReading.2.slots = renewed.set slot
        { s with word := .of .reading m.me.id, readPos := 0, lastTouch := m.now } := by
  intro renewed
  have hrenewed : m.sweepAll.slots = renewed := by
    rw [sweepAll_eq_renewed, slots_withSlots]
  have hlookup : ∀ {k : Nat} {t : Slot}, renewed[k]? = some t →
      ∃ t₀, m.slots[k]? = some t₀ ∧ t₀.swept m.staleness = t := by
    intro k t ht
    rw [← hrenewed, slots_sweepAll] at ht
    exact Option.map_eq_some_iff.mp ht
  rcases m.claimForReading_cases with ⟨hclaim, hnone⟩ | ⟨slot, s, hs, hread, hleast, hclaim⟩
  · rw [hclaim]
    refine ⟨iff_of_true rfl fun t ht => ?_, fun _ => hrenewed, nofun⟩
    obtain ⟨k, hk⟩ := List.mem_iff_getElem?.mp ht
    obtain ⟨t₀, ht₀, rfl⟩ := hlookup hk
    exact hnone k t₀ ht₀
  · have hslot : m.sweepAll.slots[slot]? = some (s.swept m.staleness) := by
      rw [slots_sweepAll, hs, Option.map_some]
    rw [hclaim]
    refine ⟨iff_of_false nofun fun hnone => ?_, nofun, ?_⟩
    · rw [hrenewed] at hslot
      have hidle := hnone _ (List.mem_of_getElem? hslot)
      rw [hread] at hidle
      cases hidle
    · rintro _ ⟨⟩
      refine ⟨_, hrenewed ▸ hslot, hread, fun k t ht htread hk => ?_, ?_⟩
      · obtain ⟨t₀, ht₀, rfl⟩ := hlookup ht
        refine lt_of_le_of_ne (hleast k t₀ ht₀ htread) fun hid => hk ?_
        exact eq_of_readable hsound (hrenewed ▸ ht) hslot htread hid.symm
      · rw [slots_takeForReading]
        simp only [hrenewed]
        rfl

/-- A claim for reading comes to the same wherever the cursor of the readers is. -/
theorem claimForReading_congr {m' : Mapping} (hsound : m.segment.Sound) (hme : m'.me = m.me)
    (hnow : m'.now = m.now) (hslots : m'.slots = m.slots) :
    m'.claimForReading.1 = m.claimForReading.1 ∧
      m'.claimForReading.2.slots = m.claimForReading.2.slots := by
  have hstart := claimFrom_congr hme hnow hslots m'.segment.control.readerCursor
  rwa [claimFrom_readerCursor, claimFrom_eq fun hs ht hread _ hid =>
    eq_of_readable hsound hs ht hread hid] at hstart

/-- After a claim for reading nobody holds a slot that is stale. -/
theorem not_stale_of_held_claimForReading (m : Mapping) :
    ∀ s ∈ m.claimForReading.2.slots, s.state = .writing ∨ s.state = .reading →
      s.isStale m.staleness = false := by
  have hrenewed : ∀ s ∈ m.sweepAll.slots, s.state = .writing ∨ s.state = .reading →
      s.isStale m.staleness = false := by
    intro s hs hheld
    rw [sweepAll_eq_renewed, slots_withSlots] at hs
    obtain ⟨s₀, -, rfl⟩ := List.mem_map.mp hs
    exact Slot.not_stale_of_held_renewed hheld
  intro s hs hheld
  rcases m.claimForReading_cases with ⟨hclaim, -⟩ | ⟨slot, t, -, -, -, hclaim⟩
  · rw [hclaim] at hs
    exact hrenewed s hs hheld
  · rw [hclaim, slots_takeForReading] at hs
    rcases List.mem_or_eq_of_mem_set hs with hold | rfl
    · exact hrenewed s hold hheld
    · exact Slot.isStale_touched _ m.staleness

end Segment.Mapping

namespace World

variable {past : List Moment} {w : World} {number i : Nat} {me : Attachment}

/-- A record waits for a manager: it is meant for it, and where all are to see a record it
comes after all that the manager has claimed since it joined. -/
def Awaits (past : List Moment) (number i : Nat) (me : Attachment) (control : Control) (s : Slot) :
    Prop :=
  s.state = .full ∧ (s.owner = noOwner ∨ s.owner = me.id) ∧
    (control.isDestructive = false → ∀ q ∈ claimedSince number i past, q < s.sequenceId)

theorem awaits_iff (hrun : Run past w) {segment : Segment}
    (hsegment : w.segment? number = some segment) (hme : w.member number i = some me) (now : Nat)
    {s : Slot} (hs : s.Sound segment.slotSize segment.control.isDestructive) :
    Awaits past number i me segment.control s ↔
      (Mapping.mk me now segment).isReadable s = true := by
  have hp := party?_of_segment? hsegment
  have hfits := (hrun.coherent.party hp).fits hme
  simp only [Awaits, Mapping.isReadable, Slot.isAddressedTo, Bool.and_eq_true, Bool.or_eq_true,
    beq_iff_eq, decide_eq_true_eq, hfits.destructive, and_assoc]
  refine and_congr_right fun hfull => and_congr_right fun _ => ?_
  cases hdestructive : segment.control.isDestructive with
  | true => exact iff_of_true (fun h => by cases h) (.inl rfl)
  | false =>
    have hreached := hrun.reached hp hdestructive hme
    rw [← hreached.lt_iff (hs.full hfull).2]
    simp

/-- **A claim for reading.** Whatever has happened to a segment and to a manager that is
attached to it, the manager's claim for reading does not fail. First every slot is renewed
that is stale at the moment. Then there is no record for the manager if and only if none
waits for it; else the claim takes the one with the lowest sequence id, which no other
has, and leaves all other slots as they are. It comes to the same wherever the cursor of
the readers is, and however stale slots are held before, none is held afterwards that is
stale. -/
theorem earliest_record_claimed {past : List Moment} {w : World} (hrun : Run past w)
    {number i : Nat} {segment : Segment} {me : Attachment}
    (hsegment : w.segment? number = some segment) (hme : w.member number i = some me) :
    let staleness : Staleness :=
      ⟨segment.control.staleTimeout.toNat, w.now i, !segment.control.isDestructive⟩
    let renewed := segment.slots.map (·.renewed staleness)
    ∃ (answer : Option Nat) (segment' : Segment),
      w.answer? i .claimForReading = some (.ok (.slot answer)) ∧
      (w.step (.perform i .claimForReading)).segment? number = some segment' ∧
      (answer = none ↔ ∀ s ∈ renewed, ¬ Awaits past number i me segment.control s) ∧
      (answer = none → segment'.slots = renewed) ∧
      (∀ slot, answer = some slot → ∃ s, renewed[slot]? = some s ∧
        Awaits past number i me segment.control s ∧
        (∀ (k : Nat) (t : Slot), renewed[k]? = some t → k ≠ slot →
          Awaits past number i me segment.control t → s.sequenceId < t.sequenceId) ∧
        segment'.slots = renewed.set slot
          { s with word := .of .reading me.id, readPos := 0, lastTouch := w.now i }) ∧
      (∀ cursor : Nat,
        let claim := (Mapping.mk me (w.now i) { segment with
          control := { segment.control with readerCursor := cursor } }).claimForReading
        claim.1 = answer ∧ claim.2.slots = segment'.slots) ∧
      ∀ s ∈ segment'.slots, s.state = .writing ∨ s.state = .reading →
        s.isStale staleness = false := by
  intro staleness renewed
  have hcoherent := hrun.coherent
  have hp := party?_of_segment? hsegment
  have hfits := (hcoherent.party hp).fits hme
  have hsound : segment.Sound := hrun.sound hp
  generalize hm : Mapping.mk me (w.now i) segment = m
  have hmSegment : m.segment = segment := by rw [← hm]
  have hstaleness : m.staleness = staleness := by
    rw [← hm]
    simp only [Mapping.staleness, hfits.staleTimeout, hfits.destructive]
    rfl
  have hrenewed : m.slots.map (·.renewed m.staleness) = renewed := by
    rw [hstaleness, Mapping.slots, hmSegment]
  have hawaits : ∀ s ∈ renewed,
      (Awaits past number i me segment.control s ↔ m.isReadable s = true) := by
    intro s hs
    obtain ⟨s₀, hs₀, rfl⟩ := List.mem_map.mp hs
    obtain ⟨k, hk⟩ := List.mem_iff_getElem?.mp hs₀
    rw [← hm]
    refine awaits_iff hrun hsegment hme _ ?_
    rw [← Slot.swept_eq_renewed]
    exact (hsound.slot hk).swept staleness
  obtain ⟨hnone, hidle, htaken⟩ := Mapping.claimForReading_exact (hmSegment.symm ▸ hsound)
  rw [hrenewed] at hnone hidle htaken
  refine ⟨m.claimForReading.1, m.claimForReading.2.segment, ?_, ?_, ?_, hidle, ?_, ?_, ?_⟩
  · rw [hcoherent.answer?_eq hp hme, hm]
    rfl
  · obtain ⟨p', hp', hturn⟩ := (step_turned hcoherent (.perform i .claimForReading)).turn hp
    have happly : Operation.claimForReading.apply ⟨me, w.now i, segment⟩ =
        .ok (.slot m.claimForReading.1, m.claimForReading.2) := by
      rw [hm]
      rfl
    rw [(party?_eq_some_iff.mp hp').1, hturn.moved_of_apply rfl hme happly]
    rfl
  · rw [hnone]
    exact forall₂_congr fun s hs => by rw [hawaits s hs, Bool.not_eq_true]
  · intro slot hslot
    obtain ⟨s, hs, hread, hleast, hslots⟩ := htaken slot hslot
    refine ⟨s, hs, (hawaits s (List.mem_of_getElem? hs)).mpr hread, fun k t ht hk hwaits => ?_, ?_⟩
    · exact hleast k t ht ((hawaits t (List.mem_of_getElem? ht)).mp hwaits) hk
    · rw [← hm] at hslots ⊢
      exact hslots
  · intro cursor claim
    subst hm
    exact Mapping.claimForReading_congr hsound rfl rfl rfl
  · intro s hs hheld
    rw [← hstaleness]
    exact m.not_stale_of_held_claimForReading s hs hheld

/-- A reader and a writer have given up; another reader gets the record that the first has
left, although the record after that was there for it all the time. -/
theorem earliest_record_claimed_left :
    let config : Segment.Config := ⟨7, 3, 8, 10, true, 0⟩
    let calls : List Call := [.attach config .manual, .attach config .manual,
      .attach config .manual, .perform 0 (.claimForWriting false),
      .perform 0 (.claimForWriting false), .perform 0 (.claimForWriting false),
      .perform 0 (.publish 0 .any), .perform 0 (.publish 1 .any), .perform 1 .claimForReading,
      .tick ⟨11⟩ ⟨0⟩]
    let w := (run calls).2
    let w' := w.step (.perform 2 .claimForReading)
    w.answer? 2 .claimForReading = some (.ok (.slot (some 0))) ∧
      ∃ segment', w'.segment? 0 = some segment' ∧
        segment'.slots.map (·.state) = [.reading, .full, .empty] ∧
        ∀ s ∈ segment'.slots, s.state = .writing ∨ s.state = .reading →
          s.isStale ⟨10, 11, false⟩ = false := by
  intro config calls w w'
  obtain ⟨segment, hsegment, hsettings⟩ := (Option.any_eq_true (fun segment : Segment =>
      segment.control.staleTimeout == 10 && segment.control.isDestructive)
    (w.segment? 0)).mp (by decide +kernel)
  simp only [Bool.and_eq_true, beq_iff_eq] at hsettings
  obtain ⟨htimeout, hdestructive⟩ := hsettings
  obtain ⟨me, hme⟩ := Option.isSome_iff_exists.mp
    (by decide +kernel : (w.member 0 2).isSome = true)
  obtain ⟨answer, segment', hanswer, hsegment', -, -, -, -, hlively⟩ :=
    earliest_record_claimed (run_run calls) hsegment hme
  have hstates : (w'.segment? 0).map (fun segment => segment.slots.map (·.state)) =
      some [.reading, .full, .empty] := by decide +kernel
  have hnow : w.now 2 = 11 := by decide +kernel
  rw [hsegment', Option.map_some, Option.some.injEq] at hstates
  refine ⟨by decide +kernel, segment', hsegment', hstates, ?_⟩
  rw [htimeout, hdestructive, hnow] at hlively
  exact hlively

end World

end SlotTransport
