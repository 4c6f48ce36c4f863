/-
Which records a manager may read where a record is for all to see. A manager
remembers how far it is and not what it has read, so it may read a record until
it has claimed that record or a later one (`mayRead_iff_ahead`). A record that
somebody else holds meanwhile is passed over, and then it is out of reach for good
(`passed_over`).
-/
import SlotTransport.Proofs.World.Broadcast

namespace SlotTransport

open Segment

namespace Segment.Mapping

variable {m after : Mapping} {operation : Operation} {answer : Answer}

/-! ## What an operation publishes -/

theorem Move.issue (h : m.Move operation answer after) :
    (∃ destination, operation.issue? m.segment answer =
        some (m.segment.control.lastSequenceId + 1, destination) ∧
      after.segment.control.lastSequenceId = m.segment.control.lastSequenceId + 1) ∨
    operation.issue? m.segment answer = none ∧
      after.segment.control.lastSequenceId = m.segment.control.lastSequenceId := by
  cases h with
  | idle hidle =>
    refine .inr ⟨?_, rfl⟩
    cases operation with
    | publish slot destination =>
      obtain rfl : answer = .flag false := by simpa [Operation.isIdle] using hidle
      rfl
    | _ => rfl
  | wrote htransfer | read htransfer =>
    refine .inr ⟨?_, rfl⟩
    cases operation <;> first | rfl | cases htransfer
  | declared hdeclared =>
    refine .inr ⟨?_, rfl⟩
    cases operation <;> first | rfl | cases hdeclared
  | claimedForWriting overwrite => exact .inr ⟨rfl, lastSequenceId_claimForWriting m overwrite⟩
  | claimedForReading => exact .inr ⟨rfl, lastSequenceId_claimForReading m⟩
  | published => exact .inl ⟨_, rfl, rfl⟩
  | checked | reset | released | evicted => exact .inr ⟨rfl, rfl⟩

theorem owner_of_reclaimed? {s s' : Slot} {staleness : Staleness} {entitled : Bool}
    (h : s.reclaimed? staleness entitled = some s') : s'.owner = noOwner := by
  rcases (Slot.reclaimed?_cases h).2 with ⟨-, rfl⟩ | ⟨-, rfl⟩ | ⟨-, -, -, rfl⟩ <;> rfl

theorem owner_released (m : Mapping) (s : Slot) : (m.released s).owner = noOwner := by
  rcases m.released_cases s with h | h <;> rw [h] <;> rfl

/-- A record that is meant for one manager was so before, or has just been
published. -/
theorem Move.addressed (h : m.Move operation answer after) {k : Nat} {s' : Slot}
    (hs' : after.slots[k]? = some s') (hfull : s'.state = .full) (howner : s'.owner ≠ noOwner) :
    (∃ s, m.slots[k]? = some s ∧ s.state = .full ∧ s.owner = s'.owner ∧
      s.sequenceId = s'.sequenceId) ∨
    operation.issue? m.segment answer = some (s'.sequenceId, .manager s'.owner) := by
  obtain ⟨s, hs⟩ : ∃ s, m.slots[k]? = some s := by
    obtain ⟨hlt, -⟩ := List.getElem?_eq_some_iff.mp hs'
    exact ⟨_, List.getElem?_eq_getElem (h.kept.segment.length ▸ hlt)⟩
  obtain ⟨t, ht, hchange⟩ := h.change hs
  rw [hs'] at ht
  cases ht
  have hsame : s' = s → ∃ s, m.slots[k]? = some s ∧ s.state = .full ∧ s.owner = s'.owner ∧
      s.sequenceId = s'.sequenceId := by
    rintro rfl
    exact ⟨s', hs, hfull, rfl, rfl⟩
  cases hchange with
  | kept => exact .inl (hsame rfl)
  | checked => exact .inl ⟨s, hs, hfull, rfl, rfl⟩
  | wrote _ hstate | read _ hstate =>
    have hfull' : s.state = .full := hfull
    rw [hstate] at hfull'
    cases hfull'
  | swept =>
    by_cases hkept : s.swept m.staleness = s
    · exact .inl (hsame hkept)
    · exact absurd (owner_of_reclaimed? (Slot.reclaimed?_of_swept_ne hkept)) howner
  | reset _ hreset => exact absurd (owner_of_reclaimed? hreset) howner
  | claimedForWriting | claimedForReading => cases hfull
  | released => exact absurd (owner_released m s) howner
  | evicted => exact absurd rfl howner
  | @published destination hpublish hword =>
    subst hpublish
    cases h with
    | wrote htransfer | read htransfer => cases htransfer
    | declared hdeclared => cases hdeclared
    | idle =>
      -- Nothing has changed, but `s` is being written.
      rw [hs] at hs'
      have hstate : s.state = .full := by rw [Option.some.inj hs']; rfl
      rw [Slot.state, hword] at hstate
      cases hstate
    | published =>
      cases destination with
      | any => exact absurd rfl howner
      | manager id => exact .inr rfl

/-! ## How far a manager gets -/

/-- In a calm mapping a manager gets on by a claim for reading, to the record that
it claims, and by nothing else. -/
theorem Quiet.lastSeen (h : m.Quiet operation answer after) :
    (∃ q, operation.note? m.segment answer = some (.claimed q) ∧ m.me.lastSeen < q ∧
      after.me.lastSeen = q) ∨
    (∀ q, operation.note? m.segment answer ≠ some (.claimed q)) ∧
      after.me.lastSeen = m.me.lastSeen := by
  cases h with
  | @claimed k q r hentry _ hunseen _ hme => exact .inl ⟨q, hentry, hunseen, by rw [hme]⟩
  | still hentry _ hme | wrote hentry _ hme | returned hentry _ _ hme | published hentry _ _ hme
  | released hentry _ _ hme => exact .inr ⟨by simp [hentry], by rw [hme]⟩

/-- A claim for reading takes a record that is no later than any that the manager
may read. -/
theorem claimForReading_of_readable (hcalm : m.Calm) {k : Nat} {s : Slot}
    (hs : m.slots[k]? = some s) (hread : m.isReadable s = true) :
    ∃ j t, m.claimForReading.1 = some j ∧ m.slots[j]? = some t ∧ m.isReadable t = true ∧
      t.sequenceId ≤ s.sequenceId := by
  have hswept : ∀ t : Slot, t.swept m.staleness = t := hcalm.swept
  rcases m.claimForReading_cases with ⟨-, hnone⟩ | ⟨j, t, ht, htread, hleast, h⟩
  · have hnot := hnone k s hs
    rw [hswept, hread] at hnot
    cases hnot
  · simp only [hswept] at htread hleast h
    exact ⟨j, t, by rw [h], ht, htread, hleast k s hs hread⟩

end Segment.Mapping

namespace Party

variable {p p' : Party} {number : Nat} {now : Nat → Nat}
  {issued : List (Nat × Destination)} {L : List (Nat × Entry)}

/-- The records that were published have ids of their own, and one that is meant
for a manager was published for it. -/
structure Addressed (p : Party) (issued : List (Nat × Destination)) : Prop where
  within : ∀ {q : Nat} {destination : Destination}, (q, destination) ∈ issued →
    1 ≤ q ∧ q ≤ p.segment.control.lastSequenceId
  unique : ∀ {q : Nat} {destination destination' : Destination}, (q, destination) ∈ issued →
    (q, destination') ∈ issued → destination = destination'
  meant : ∀ {k : Nat} {s : Slot}, p.segment.slots[k]? = some s → s.state = .full →
    s.owner ≠ noOwner → (s.sequenceId, .manager s.owner) ∈ issued

/-- A manager is past all that it has claimed, and just as far as that. -/
structure Sighted (p : Party) (L : List (Nat × Entry)) : Prop where
  seen : ∀ {i q : Nat}, (i, .claimed q) ∈ L → ∃ me, p.member i = some me ∧ q ≤ me.lastSeen
  reached : ∀ {i : Nat} {me : Attachment}, p.member i = some me →
    me.lastSeen = 0 ∨ (i, .claimed me.lastSeen) ∈ L

/-! ## Published records -/

theorem Addressed.of_slots (h : p.Addressed issued)
    (hlast : p'.segment.control.lastSequenceId = p.segment.control.lastSequenceId)
    (hslots : ∀ {k : Nat} {s' : Slot}, p'.segment.slots[k]? = some s' → s'.state = .full →
      s'.owner ≠ noOwner → p.segment.slots[k]? = some s') : p'.Addressed issued where
  within hissued := hlast ▸ h.within hissued
  unique := h.unique
  meant hs' hfull howner := h.meant (hslots hs' hfull howner) hfull howner

theorem Addressed.dismiss (h : p.Addressed issued) (i : Nat) (me : Attachment) :
    (p.dismiss i me).Addressed issued := by
  refine h.of_slots rfl fun {k s'} hs' hfull howner => ?_
  rw [slots_dismiss] at hs'
  obtain ⟨s, hs, rfl⟩ := Option.map_eq_some_iff.mp hs'
  rcases s.leftBy_cases me.id with hkept | ⟨-, -, hleft⟩ | ⟨-, -, hleft⟩
  · rw [hkept]
    exact hs
  · rw [hleft] at hfull
    cases hfull
  · rw [hleft] at howner
    exact absurd rfl howner

theorem Addressed.follow (h : p.Addressed issued) {i time : Nat} {me : Attachment}
    {operation : Operation} {answer : Answer} {after : Mapping}
    (hmove : operation.apply ⟨me, time, p.segment⟩ = .ok (answer, after)) :
    (p.follow i after).Addressed ((operation.issue? p.segment answer).toList ++ issued) := by
  have hmeant : ∀ {k : Nat} {s' : Slot}, after.segment.slots[k]? = some s' → s'.state = .full →
      s'.owner ≠ noOwner →
        (s'.sequenceId, .manager s'.owner) ∈
          (operation.issue? p.segment answer).toList ++ issued := by
    intro k s' hs' hfull howner
    rcases (Operation.apply_move hmove).addressed hs' hfull howner with
      ⟨s, hs, hfull', hsame, hid⟩ | hissue
    · rw [← hsame, ← hid]
      exact List.mem_append_right _ (h.meant hs hfull' (hsame ▸ howner))
    · exact List.mem_append_left _ (Option.mem_toList.mpr hissue)
  rcases (Operation.apply_move hmove).issue with ⟨destination, hissue, hlast⟩ | ⟨hissue, hlast⟩
  · -- The id is new: what was published before has a lower one.
    rw [hissue] at hmeant ⊢
    simp only [Option.toList_some, List.singleton_append] at hmeant ⊢
    refine ⟨fun {q d} hmem => ?_, fun {q d d'} hmem hmem' => ?_, hmeant⟩
    · show 1 ≤ q ∧ q ≤ after.segment.control.lastSequenceId
      rw [hlast]
      rcases List.mem_cons.mp hmem with heq | hold
      · cases heq
        exact ⟨Nat.le_add_left .., le_refl _⟩
      · have := h.within hold
        simp only
        omega
    · have hnew : ∀ {d : Destination}, (p.segment.control.lastSequenceId + 1, d) ∉ issued :=
        fun hold => absurd (h.within hold).2 (Nat.not_succ_le_self _)
      rcases List.mem_cons.mp hmem with heq | hold <;>
        rcases List.mem_cons.mp hmem' with heq' | hold'
      · cases heq
        cases heq'
        rfl
      · cases heq
        exact absurd hold' hnew
      · cases heq'
        exact absurd hold hnew
      · exact h.unique hold hold'
  · rw [hissue] at hmeant ⊢
    have hlast' : (p.follow i after).segment.control.lastSequenceId =
        p.segment.control.lastSequenceId := hlast
    exact ⟨fun hmem => hlast' ▸ h.within hmem, h.unique, hmeant⟩

theorem Fresh.addressed (h : p.Fresh number) : p.Addressed [] := by
  refine ⟨by simp, by simp, fun {k s} hs hfull _ => ?_⟩
  cases h with
  | blank size => cases hs
  | formatted now i =>
    have hfresh : s = .fresh now := List.eq_of_mem_replicate (List.mem_of_getElem? hs)
    rw [hfresh] at hfull
    cases hfull

/-! ## Records that were seen -/

theorem Sighted.enrol (h : p.Sighted L) {i : Nat} (hnone : p.member i = none) :
    (p.enrol number i).Sighted L where
  seen {j q} hclaimed := by
    obtain ⟨me, hme, hq⟩ := h.seen hclaimed
    have hj : j ≠ i := by
      rintro rfl
      rw [hnone] at hme
      cases hme
    exact ⟨me, by rw [member_enrol, Function.update_of_ne hj, hme], hq⟩
  reached {j me} hme := by
    by_cases hj : j = i
    · subst hj
      rw [member_enrol, Function.update_self] at hme
      cases hme
      exact .inl rfl
    · rw [member_enrol, Function.update_of_ne hj] at hme
      exact h.reached hme

theorem Sighted.follow (h : p.Sighted L) {i time : Nat} {me : Attachment} {operation : Operation}
    {answer : Answer} {after : Mapping} (hme : p.member i = some me)
    (hcalm : (Mapping.mk me time p.segment).Calm) (hforce : operation.isForced = false)
    (hmove : operation.apply ⟨me, time, p.segment⟩ = .ok (answer, after)) :
    (p.follow i after).Sighted (((operation.note? p.segment answer).map (i, ·)).toList ++ L) := by
  have hself : (p.follow i after).member i = some after.me := Function.update_self ..
  have hothers : ∀ {j : Nat}, j ≠ i → (p.follow i after).member j = p.member j :=
    fun hj => Function.update_of_ne hj ..
  rcases ((Operation.apply_move hmove).quiet hcalm hforce).lastSeen with
    ⟨q, hentry, hunseen, hlast⟩ | ⟨hentry, hlast⟩
  · simp only at hentry hunseen
    rw [hentry]
    refine ⟨fun {j q'} hclaimed => ?_, fun {j me'} hme' => ?_⟩
    · by_cases hj : j = i
      · subst hj
        refine ⟨after.me, hself, hlast ▸ ?_⟩
        rcases List.mem_cons.mp hclaimed with heq | hold
        · cases heq
          exact le_refl _
        · obtain ⟨me', hme', hq'⟩ := h.seen hold
          rw [hme] at hme'
          cases hme'
          exact hq'.trans hunseen.le
      · rw [hothers hj]
        exact h.seen (List.mem_of_ne_of_mem (by simp [hj]) hclaimed)
    · by_cases hj : j = i
      · subst hj
        rw [hself] at hme'
        cases hme'
        exact .inr (by simp [hlast])
      · rw [hothers hj] at hme'
        exact (h.reached hme').imp_right (List.mem_append_right _)
  · have hold : ∀ {j q : Nat}, (j, .claimed q) ∈
        ((operation.note? p.segment answer).map (i, ·)).toList ++ L → (j, .claimed q) ∈ L := by
      intro j q hclaimed
      rcases List.mem_append.mp hclaimed with hmade | hold
      · obtain ⟨entry, hmade, heq⟩ := Option.map_eq_some_iff.mp (Option.mem_toList.mp hmade)
        cases heq
        exact absurd hmade (hentry q)
      · exact hold
    refine ⟨fun {j q} hclaimed => ?_, fun {j me'} hme' => ?_⟩
    · obtain ⟨me', hme', hq⟩ := h.seen (hold hclaimed)
      by_cases hj : j = i
      · subst hj
        rw [hme] at hme'
        cases hme'
        exact ⟨after.me, hself, hq.trans hlast.ge⟩
      · exact ⟨me', by rw [hothers hj, hme'], hq⟩
    · refine Or.imp_right (List.mem_append_right _) ?_
      by_cases hj : j = i
      · subst hj
        rw [hself] at hme'
        cases hme'
        rw [hlast]
        exact h.reached hme
      · rw [hothers hj] at hme'
        exact h.reached hme'

theorem Fresh.sighted (h : p.Fresh number) : p.Sighted [] := by
  refine ⟨by simp, fun {i me} hme => .inl ?_⟩
  cases h with
  | blank size => cases hme
  | formatted now j =>
    by_cases hj : i = j
    · subst hj
      simp only [Function.update_self, Option.some.injEq] at hme
      rw [← hme]
      rfl
    · simp only [Function.update_of_ne hj] at hme
      cases hme

end Party

namespace World

variable {past : List Moment} {w : World} {call : Call} {number : Nat} {p : Party}

/-! ## Runs -/

theorem issue?_of_no_deed {moment : Moment} (h : moment.deed? number = none) :
    moment.issue? number = none := by
  rw [Moment.issue?, h]
  rfl

theorem issued_of_absent (h : Run past w) (hnone : w.party? number = none) :
    issued number past = [] :=
  List.filterMap_eq_nil_iff.mpr fun moment hmoment =>
    issue?_of_no_deed (deed?_of_absent (h.absent hnone moment hmoment))

theorem Run.addressed (h : Run past w) (hp : w.party? number = some p) :
    p.Addressed (issued number past) := by
  refine Run.party_induction (motive := fun past _ p => p.Addressed (issued number past))
    (fun call hrun hnone _ hfresh => ?_) (fun {past w call p p'} hrun hp _ hturn h => ?_) h hp
  · rw [issued_cons, issue?_of_no_deed (deed?_of_absent hnone), issued_of_absent hrun hnone]
    exact hfresh.addressed
  · have hcoherent := hrun.coherent
    rw [issued_cons]
    cases hturn with
    | others hother =>
      rw [issue?_of_no_deed (deed?_of_others hcoherent hp hother)]
      exact h
    | entered hcall =>
      rw [issue?_of_no_deed (deed?_of_no_operation hcall)]
      exact h.of_slots rfl fun hs _ _ => hs
    | moved hcall hme hmove =>
      rw [Moment.issue?, deed?_of_moved hcoherent hp hcall hme hmove]
      exact h.follow hmove
    | left hcall hbreach hme =>
      rw [issue?_of_no_deed (deed?_of_left hcoherent hp hcall hme hbreach)]
      exact h.dismiss _ _
    | @ended i me =>
      rw [issue?_of_no_deed (deed?_of_no_operation rfl)]
      exact (h.dismiss i me).of_slots rfl fun hs _ _ => hs
    | @returned i me =>
      rw [issue?_of_no_deed (deed?_of_no_operation rfl)]
      exact (h.dismiss i me).of_slots rfl fun hs _ _ => hs

theorem Run.sighted (h : Run past w) (hp : w.party? number = some p)
    (hlasting : p.segment.control.isDestructive = false)
    (htimeout : p.segment.control.staleTimeout = 0)
    (hstays : ∀ moment ∈ past, ¬ moment.loses number)
    (hforce : ∀ moment ∈ past, moment.forces number = false) :
    p.Sighted (ledger number past) := by
  refine Run.party_induction (motive := fun past _ p =>
    p.segment.control.isDestructive = false → p.segment.control.staleTimeout = 0 →
      (∀ moment ∈ past, ¬ moment.loses number) →
      (∀ moment ∈ past, moment.forces number = false) → p.Sighted (ledger number past))
    (fun call hrun hnone _ hfresh _ _ _ _ => ?_)
    (fun {past w call p p'} hrun hp hp' hturn ih hlasting htimeout hstays hforce => ?_)
    h hp hlasting htimeout hstays hforce
  · rw [ledger_cons, note?_of_absent hnone, ledger_of_absent hrun hnone]
    exact hfresh.sighted
  · have hcoherent := hrun.coherent
    have halike := hturn.alike
    have hlasting₁ : p.segment.control.isDestructive = false :=
      halike.isDestructive.symm.trans hlasting
    have htimeout₁ : p.segment.control.staleTimeout = 0 := halike.staleTimeout ▸ htimeout
    have h := ih hlasting₁ htimeout₁
      (fun moment hmoment => hstays moment (List.mem_cons_of_mem _ hmoment))
      (fun moment hmoment => hforce moment (List.mem_cons_of_mem _ hmoment))
    rw [ledger_cons]
    rcases turn_of_stays hturn (stays_of_not_loses hp hp' (hstays _ List.mem_cons_self)) with
      ⟨hother, rfl⟩ | ⟨i, hcall, hnone, rfl⟩ |
      ⟨i, operation, me, answer, after, hcall, hme, hmove, rfl⟩
    · rw [note?_of_others hcoherent hp hother]
      exact h
    · rw [note?_of_no_operation hcall]
      exact h.enrol hnone
    · have hcalm := ((hcoherent.party hp).fits hme).calm (w.now i) hlasting₁ htimeout₁
      rw [note?_of_moved hcoherent hp hcall hme hmove]
      exact h.follow hme hcalm
        (unforced_of_member hp (hforce _ List.mem_cons_self) hcall hme) hmove

/-! ## What a manager may read -/

theorem readableCount_of_mapping? {manager : Manager} {host : Host} {m : Mapping}
    (h : manager.mapping? host = some m) : manager.readableCount host = m.readableCount := by
  rw [Manager.readableCount, Manager.seen, h]
  rfl

/-- Whether a manager may read a slot. -/
def mayRead (w : World) (i k : Nat) : Bool :=
  ((w.manager? i).bind (·.mapping? w.host)).any fun m => (m.slots[k]?).any m.isReadable

theorem countP_range_getElem? {α : Type} (f : α → Bool) (l : List α) :
    (List.range l.length).countP (fun k => (l[k]?).any f) = l.countP f := by
  have hmap : (List.range l.length).map (fun k => l[k]?) = l.map some := by
    refine List.ext_getElem (by simp) fun k hk _ => ?_
    rw [List.length_map, List.length_range] at hk
    simp [hk]
  calc (List.range l.length).countP (fun k => (l[k]?).any f)
      = ((List.range l.length).map (fun k => l[k]?)).countP (·.any f) := by
        rw [List.countP_map]
        rfl
    _ = l.countP f := by
        rw [hmap, List.countP_map]
        rfl

/-- **A manager may read what is ahead of it.** In a run in which nothing goes
stale, nobody leaves and nothing is taken by force, a full slot whose record was
published for everybody to see may be read by a manager as long as the manager has
claimed neither this record nor a later one, whatever it and the others did else.
Such a slot is counted by the manager's readiness, and as long as there is one the
next claim gets a record, which is none after it. -/
theorem mayRead_iff_ahead {past : List Moment} {w : World} (hrun : Run past w)
    {number i k : Nat} {segment : Segment} {manager : Manager} {me : Attachment} {s : Slot}
    (hsegment : w.segment? number = some segment)
    (hlasting : segment.control.isDestructive = false)
    (htimeout : segment.control.staleTimeout = 0)
    (hstays : ∀ moment ∈ past, ¬ moment.loses number)
    (hforce : ∀ moment ∈ past, moment.forces number = false)
    (hmanager : w.manager? i = some manager) (hme : manager.attachment = some me)
    (hobject : me.object = number) (hslot : segment.slots[k]? = some s) (hfull : s.state = .full)
    (hissued : (s.sequenceId, .any) ∈ issued number past) :
    (w.mayRead i k = true ↔
      ∀ q, (i, .claimed q) ∈ ledger number past → q < s.sequenceId) ∧
    manager.readableCount w.host = (List.range segment.slots.length).countP (w.mayRead i) ∧
    (w.mayRead i k = true → ∃ j t, w.answer? i .claimForReading = some (.ok (.slot (some j))) ∧
      segment.slots[j]? = some t ∧ w.mayRead i j = true ∧ t.sequenceId ≤ s.sequenceId) := by
  have hp : w.party? number = some ⟨segment, w.member number⟩ :=
    party?_eq_some_iff.mpr ⟨hsegment, rfl⟩
  have hmember : w.member number i = some me :=
    member_eq_some_iff.mpr ⟨(attachment?_eq hmanager).trans hme, hobject⟩
  have hmapping : manager.mapping? w.host = some ⟨me, w.now i, segment⟩ :=
    hrun.coherent.mapping?_of_party hmanager hme (hobject ▸ hp)
  have hcalm := ((hrun.coherent.party hp).fits hmember).calm (w.now i) hlasting htimeout
  have hmay : ∀ j, w.mayRead i j =
      (segment.slots[j]?).any (Mapping.mk me (w.now i) segment).isReadable := by
    intro j
    rw [mayRead, hmanager, Option.bind_some, hmapping]
    rfl
  have haddressed := hrun.addressed hp
  have hsighted := hrun.sighted hp hlasting htimeout hstays hforce
  have howner : s.owner = noOwner := by
    by_contra hmeant
    cases haddressed.unique hissued (haddressed.meant hslot hfull hmeant)
  have hahead : w.mayRead i k = true ↔ me.lastSeen < s.sequenceId := by
    rw [hmay, hslot, Option.any_some]
    have hall : me.destructive = false := hcalm.lasting
    simp [Mapping.isReadable, Slot.isAddressedTo, hfull, howner, hall]
  refine ⟨hahead.trans ⟨fun hlast q hclaimed => ?_, fun hclaimed => ?_⟩, ?_, fun hread => ?_⟩
  · obtain ⟨me', hme', hq⟩ := hsighted.seen hclaimed
    cases hmember.symm.trans hme'
    exact hq.trans_lt hlast
  · rcases hsighted.reached hmember with hnothing | hreached
    · rw [hnothing]
      exact (haddressed.within hissued).1
    · exact hclaimed _ hreached
  · simp only [Manager.readableCount, Manager.seen, hmapping, Option.map_some, Option.getD_some,
      funext hmay]
    exact (countP_range_getElem? _ _).symm
  · rw [hmay, hslot, Option.any_some] at hread
    obtain ⟨j, t, hclaim, ht, htread, hle⟩ :=
      Mapping.claimForReading_of_readable (m := ⟨me, w.now i, segment⟩) hcalm hslot hread
    have ht' : segment.slots[j]? = some t := ht
    refine ⟨j, t, ?_, ht', ?_, hle⟩
    · rw [hrun.coherent.answer?_eq hp hmember]
      simp [Operation.apply, hclaim]
    · rw [hmay, ht']
      exact htread

/-- A segment in which nothing goes stale and all are to see a record, with a
slot that is full. -/
theorem exists_full {found : Option Segment} {k q : Nat}
    (h : found.any (fun segment => !segment.control.isDestructive &&
      segment.control.staleTimeout == 0 &&
      segment.slots[k]?.any fun s => s.state == .full && s.sequenceId == q) = true) :
    ∃ segment s, found = some segment ∧ segment.control.isDestructive = false ∧
      segment.control.staleTimeout = 0 ∧ segment.slots[k]? = some s ∧ s.state = .full ∧
      s.sequenceId = q := by
  obtain ⟨segment, hsegment, hsettings⟩ := (Option.any_eq_true _ _).mp h
  simp only [Bool.and_eq_true, Bool.not_eq_true', beq_iff_eq] at hsettings
  obtain ⟨⟨hlasting, htimeout⟩, hslot⟩ := hsettings
  obtain ⟨s, hslot, hfull⟩ := (Option.any_eq_true _ _).mp hslot
  simp only [Bool.and_eq_true, beq_iff_eq] at hfull
  exact ⟨segment, s, hsegment, hlasting, htimeout, hslot, hfull.1, hfull.2⟩

/-- One reader has had a record and given it back; the other may still read it. -/
theorem mayRead_iff_ahead_second :
    let config : Segment.Config := ⟨7, 2, 8, 0, false, 0⟩
    let calls : List Call := [.attach config .manual, .attach config .manual,
      .attach config .manual, .perform 0 (.claimForWriting false), .perform 0 (.publish 0 .any),
      .perform 1 .claimForReading, .perform 1 (.release 0)]
    let w := (run calls).2
    ∃ segment manager me s, w.segment? 0 = some segment ∧
      segment.control.isDestructive = false ∧ segment.control.staleTimeout = 0 ∧
      (∀ moment ∈ (run calls).1, ¬ moment.loses 0) ∧
      (∀ moment ∈ (run calls).1, moment.forces 0 = false) ∧ w.manager? 2 = some manager ∧
      manager.attachment = some me ∧ me.object = 0 ∧ segment.slots[0]? = some s ∧
      s.state = .full ∧ (s.sequenceId, .any) ∈ issued 0 (run calls).1 ∧ w.mayRead 2 0 = true := by
  intro config calls w
  have hledger : ledger 0 (run calls).1 = [(1, .released 1), (1, .claimed 1), (0, .wrote)] := by
    decide +kernel
  have hissued : issued 0 (run calls).1 = [(1, .any)] := by decide +kernel
  have hstays : ∀ moment ∈ (run calls).1, ¬ moment.loses 0 := by decide +kernel
  have hforce : ∀ moment ∈ (run calls).1, moment.forces 0 = false := by decide +kernel
  obtain ⟨segment, s, hsegment, hlasting, htimeout, hslot, hfull, hid⟩ :
      ∃ segment s, w.segment? 0 = some segment ∧ segment.control.isDestructive = false ∧
        segment.control.staleTimeout = 0 ∧ segment.slots[0]? = some s ∧ s.state = .full ∧
        s.sequenceId = 1 := exists_full (by decide +kernel)
  obtain ⟨manager, hmanager, hattached⟩ := (Option.any_eq_true
    (fun manager : Manager => manager.attachment.any (·.object == 0)) (w.manager? 2)).mp
    (by decide +kernel)
  obtain ⟨me, hme, hobject⟩ := (Option.any_eq_true _ _).mp hattached
  rw [beq_iff_eq] at hobject
  have hpublished : (s.sequenceId, Destination.any) ∈ issued 0 (run calls).1 := by
    rw [hissued, hid]
    exact List.mem_singleton.mpr rfl
  refine ⟨segment, manager, me, s, hsegment, hlasting, htimeout, hstays, hforce, hmanager, hme,
    hobject, hslot, hfull, hpublished, ?_⟩
  refine (mayRead_iff_ahead (run_run calls) hsegment hlasting htimeout hstays hforce hmanager hme
    hobject hslot hfull hpublished).1.mpr fun q hclaimed => ?_
  rw [hledger] at hclaimed
  simp at hclaimed

/-- **A record may be passed over.** While one reader holds a record, another that
was there when it was published goes on to the next. Then the first reader gives
the record back, and the slot is full again, but the other, who has never claimed
the record, may not read it any more. -/
theorem passed_over :
    let config : Segment.Config := ⟨7, 2, 8, 0, false, 0⟩
    let calls : List Call := [.attach config .manual, .attach config .manual,
      .attach config .manual, .perform 0 (.claimForWriting false), .perform 0 (.write 0 [0x11]),
      .perform 0 (.publish 0 .any), .perform 0 (.claimForWriting false),
      .perform 0 (.write 1 [0x22]), .perform 0 (.publish 1 .any), .perform 1 .claimForReading,
      .perform 2 .claimForReading, .perform 1 (.release 0)]
    let past := (run calls).1
    let w := (run calls).2
    (∃ segment s, w.segment? 0 = some segment ∧ segment.control.isDestructive = false ∧
      segment.control.staleTimeout = 0 ∧ segment.slots[0]? = some s ∧ s.state = .full ∧
      s.sequenceId = 1) ∧
    (∀ moment ∈ past, ¬ moment.loses 0) ∧ (∀ moment ∈ past, moment.forces 0 = false) ∧
    (∃ moment ∈ past, moment.issue? 0 = some (1, .any) ∧
      (moment.before.member 0 2).isSome = true) ∧
    (2, .claimed 1) ∉ ledger 0 past ∧ w.mayRead 2 0 = false := by
  intro config calls past w
  exact ⟨exists_full (by decide +kernel), by decide +kernel, by decide +kernel,
    by decide +kernel, by decide +kernel, by decide +kernel⟩

end World

end SlotTransport
