/-
When a slot of a record that is for all to see is free again: after every reader had
the record (`recycled_after_every_reader`), in a run in which nobody leaves, nothing is
taken by force and nobody both reads and writes. Readers are counted and managers
numbered in words of 32 bits; where there are too many for that, a slot is free too
early (`recycled_too_early`). Runs of so many calls are put together from pieces: what
a piece `Leads` to does not depend on what was before.
-/
import Mathlib
import SlotTransport.Proofs.World.Broadcast
import SlotTransport.Proofs.World.Readiness

namespace SlotTransport

open Segment

namespace World

variable {past : List Moment} {w : World} {call : Call} {number : Nat}

/-! ## Smooth runs -/

/-- Whether a manager attaches, or does something that it is let and that takes nothing
by force. -/
def Moment.isSmooth (moment : Moment) : Bool :=
  match moment.call with
  | .attach .. => true
  | .perform i operation =>
    !operation.isForced &&
      (moment.before.answer? i operation).any fun answer => answer.toOption.isSome
  | _ => false

theorem isSmooth_perform {i : Nat} {operation : Operation} {answer : Answer}
    (hforce : operation.isForced = false) (h : w.answer? i operation = some (.ok answer)) :
    (⟨w, .perform i operation⟩ : Moment).isSmooth = true := by
  simp [Moment.isSmooth, hforce, h, Except.toOption]

theorem forces_of_isSmooth {moment : Moment} (h : moment.isSmooth = true) (number : Nat) :
    moment.forces number = false := by
  obtain ⟨w, call⟩ := moment
  cases call <;> simp_all [Moment.isSmooth, Moment.forces, Call.operation?]

/-- At a smooth moment nobody leaves. -/
theorem not_loses_of_isSmooth (hw : w.Coherent) (h : (⟨w, call⟩ : Moment).isSmooth = true)
    (number : Nat) : ¬ (⟨w, call⟩ : Moment).loses number := by
  rintro ⟨i, hmember, hgone⟩
  obtain ⟨me, hme⟩ := Option.isSome_iff_exists.mp hmember
  have hreturns : call ≠ .reattach i := by
    rintro rfl
    cases h
  replace hgone := hgone.resolve_right hreturns
  obtain ⟨hattached, rfl⟩ := member_eq_some_iff.mp hme
  have hsegment : w.segment? me.object = _ := List.getElem?_eq_getElem (hw.object hattached)
  have hp := party?_of_segment? hsegment
  obtain ⟨p', hp', hturn⟩ := (step_turned hw call).turn hp
  change (w.step call).member me.object i = none at hgone
  rw [← (party?_eq_some_iff.mp hp').2] at hgone
  have hstays : ∀ {j : Nat} (me' : Attachment),
      Function.update (w.member me.object) j (some me') i ≠ none := fun {j} me' => by
    by_cases hi : i = j
    · subst hi
      simp
    · rw [Function.update_of_ne hi, hme]
      simp
  cases hturn with
  | others => exact absurd (hme.symm.trans hgone) (by simp)
  | entered => exact hstays _ hgone
  | moved => exact hstays _ hgone
  | @left _ j me' hcall hbreach hme' =>
    cases call with
    | perform k operation =>
      cases hcall
      obtain ⟨breach, hbreach⟩ := hbreach operation rfl
      have hanswer := hw.answer?_eq hp hme' operation
      rw [hbreach] at hanswer
      simp [Moment.isSmooth, hanswer, Except.toOption] at h
    | attach => cases hcall
    | _ => cases h
  | ended => cases h
  | returned => cases h

/-- In a smooth run nobody leaves and nothing is taken by force. -/
theorem Run.orderly (hrun : Run past w) (hsmooth : ∀ moment ∈ past, moment.isSmooth = true)
    (honesided : ∀ {i q : Nat}, (i, .wrote) ∈ ledger number past →
      (i, .claimed q) ∉ ledger number past) : Orderly number past where
  stays moment hmoment := by
    obtain ⟨earlier, hearlier⟩ := hrun.before hmoment
    exact not_loses_of_isSmooth hearlier.coherent (hsmooth moment hmoment) number
  unforced moment hmoment := forces_of_isSmooth (hsmooth moment hmoment) number
  onesided := honesided

/-- Smooth calls lead from one world to another, and what they come to in the ledger of
the object of number 0. -/
structure Leads (w : World) (calls : List Call) (entries : List (Nat × Entry)) (w' : World) :
    Prop where
  world : ∀ past, (w.history calls past).2 = w'
  ledger : ∀ past, World.ledger 0 (w.history calls past).1 = entries ++ World.ledger 0 past
  smooth : ∀ past, (∀ moment ∈ past, moment.isSmooth = true) →
    ∀ moment ∈ (w.history calls past).1, moment.isSmooth = true

namespace Leads

variable {w' w'' : World} {calls later : List Call} {entries further : List (Nat × Entry)}

theorem refl (w : World) : w.Leads [] [] w :=
  ⟨fun _ => rfl, fun _ => rfl, fun _ h => h⟩

theorem trans (h : w.Leads calls entries w') (h' : w'.Leads later further w'') :
    w.Leads (calls ++ later) (further ++ entries) w'' where
  world past := by rw [history_append, h.world, h'.world]
  ledger past := by rw [history_append, h.world, h'.ledger, h.ledger, List.append_assoc]
  smooth past hpast := by
    rw [history_append, h.world]
    exact h'.smooth _ (h.smooth past hpast)

theorem of_step (hsmooth : (⟨w, call⟩ : Moment).isSmooth = true) :
    w.Leads [call] ((⟨w, call⟩ : Moment).note? 0).toList (w.step call) where
  world _ := rfl
  ledger past := ledger_cons _
  smooth past hpast moment hmoment := by
    rcases List.mem_cons.mp hmoment with rfl | hmem
    · exact hsmooth
    · exact hpast moment hmem

end Leads

/-! ## Crowds -/

/-- How the segment of a crowd is created. -/
def crowdConfig : Segment.Config :=
  ⟨7, 1, 8, 0, false, 0⟩

/-- The segment of a crowd, in which `attached` managers have come together and
`writers` of them write. -/
def crowdSegment (attached writers : Int32) (slot : Slot) (last highest : Nat) : Segment :=
  { Segment.formatted crowdConfig 200 0 with
    slots := [slot]
    control := { Control.created crowdConfig with
      nextId := attached, attached, writers, lastSequenceId := last, highestRead := highest } }

/-- One of a crowd. -/
def crowdMember (created : Bool) (id : ManagerId) (isWriter : Bool) (lastSeen : Nat) : Manager :=
  ⟨crowdConfig, .manual, created,
    some { Attachment.new 0 id (.created crowdConfig) with isWriter, lastSeen }⟩

/-- The host of a crowd. -/
def crowdHost (segment : Segment) : Host :=
  { Host.new ⟨0⟩ ⟨0⟩ with names := [(7, .object 0)], objects := [segment] }

variable {managers : List (Option Manager)} {segment segment' : Segment} {i j : Nat}

/-- The first of a crowd creates the segment. -/
theorem leads_creation : Leads (.new ⟨0⟩ ⟨0⟩ fun _ => true) [.attach crowdConfig .manual] []
    ⟨crowdHost (crowdSegment 1 0 (.fresh 0) 0 0), [some (crowdMember true 0 false 0)]⟩ :=
  .of_step rfl

/-- Each of the others joins it, under the next id. -/
theorem leads_arrival (attached writers : Int32) (managers : List (Option Manager)) :
    Leads ⟨crowdHost (crowdSegment attached writers (.fresh 0) 0 0), managers⟩
      [.attach crowdConfig .manual] []
      ⟨crowdHost (crowdSegment (attached + 1) writers (.fresh 0) 0 0),
        managers ++ [some (crowdMember false attached false 0)]⟩ :=
  .of_step rfl

/-- Any number of managers may join. -/
theorem leads_arrivals (n : Nat) (attached : Int32) (managers : List (Option Manager)) :
    ∃ others, others.length = n ∧
      Leads ⟨crowdHost (crowdSegment attached 0 (.fresh 0) 0 0), managers⟩
        (List.replicate n (.attach crowdConfig .manual)) []
        ⟨crowdHost (crowdSegment (attached + .ofNat n) 0 (.fresh 0) 0 0), managers ++ others⟩ := by
  induction n generalizing attached managers with
  | zero => exact ⟨[], rfl, by simpa using .refl _⟩
  | succ n ih =>
    obtain ⟨others, hlength, hleads⟩ :=
      ih (attached + 1) (managers ++ [some (crowdMember false attached false 0)])
    have hboth := (leads_arrival attached 0 managers).trans hleads
    rw [Int32.add_assoc, Int32.add_comm 1, List.append_assoc] at hboth
    rw [List.replicate_succ, Int32.ofNat_add]
    exact ⟨some (crowdMember false attached false 0) :: others, by simp [hlength], hboth⟩

/-- An operation that one of a crowd is let do leads to what it leaves, with its entry. -/
theorem leads_perform {manager manager' : Manager} {me : Attachment}
    {operation : Operation} (answer : Answer) (hi : managers[i]? = some (some manager))
    (hme : manager.attachment = some me) (hobject : me.object = 0)
    (hforce : operation.isForced = false)
    (hon : operation.perform.on manager (crowdHost segment) =
      (.ok answer, manager', crowdHost segment')) :
    Leads ⟨crowdHost segment, managers⟩ [.perform i operation]
      ((operation.note? segment answer).map (i, ·)).toList
      ⟨crowdHost segment', managers.set i (some manager')⟩ := by
  have hmanager : (World.mk (crowdHost segment) managers).manager? i = some manager := by
    rw [manager?, hi]
    rfl
  have hanswer : (World.mk (crowdHost segment) managers).answer? i operation =
      some (.ok answer) := by
    rw [answer?, hmanager, Option.map_some, hon]
  have hmember : (World.mk (crowdHost segment) managers).member 0 i = some me :=
    member_eq_some_iff.mpr ⟨(attachment?_eq hmanager).trans hme, hobject⟩
  have hp : (World.mk (crowdHost segment) managers).party? 0 =
      some ⟨segment, (World.mk (crowdHost segment) managers).member 0⟩ := rfl
  have hnote : (⟨⟨crowdHost segment, managers⟩, .perform i operation⟩ : Moment).note? 0 =
      (operation.note? segment answer).map (i, ·) := by
    simp only [Moment.note?, Call.operation?, hp, hanswer, hmember, Option.isSome_some, if_true]
  have hstep : (World.mk (crowdHost segment) managers).step (.perform i operation) =
      ⟨crowdHost segment', managers.set i (some manager')⟩ := by
    show World.act _ i operation.perform = _
    rw [act_eq_seat _ hmanager, hon, seat]
  rw [← hnote, ← hstep]
  exact .of_step (isSmooth_perform hforce hanswer)

/-- How somebody attaches and writes from then on. -/
def writerRound (i : Nat) : List Call :=
  [Call.attach crowdConfig .manual] ++ [Call.perform i (.claimForWriting false)] ++
    [Call.perform i (.reset 0)]

theorem leads_writerRound (attached writers : Int32) (managers : List (Option Manager)) :
    Leads ⟨crowdHost (crowdSegment attached writers (.fresh 0) 0 0), managers⟩
      (writerRound managers.length) [(managers.length, .wrote)]
      ⟨crowdHost (crowdSegment (attached + 1) (writers + 1) (.fresh 0) 0 0),
        managers ++ [some (crowdMember false attached true 0)]⟩ := by
  have hlast : ∀ manager : Manager,
      (managers ++ [some manager])[managers.length]? = some (some manager) := by simp
  have hset : ∀ manager manager' : Manager,
      (managers ++ [some manager]).set managers.length (some manager') =
        managers ++ [some manager'] := by simp
  have hclaims : Leads
      ⟨crowdHost (crowdSegment (attached + 1) writers (.fresh 0) 0 0),
        managers ++ [some (crowdMember false attached false 0)]⟩
      [.perform managers.length (.claimForWriting false)] [(managers.length, .wrote)]
      ⟨crowdHost (crowdSegment (attached + 1) (writers + 1)
          ((Slot.fresh 0).claimedForWriting attached) 0 0),
        managers ++ [some (crowdMember false attached true 0)]⟩ := by
    rw [← hset (crowdMember false attached false 0) (crowdMember false attached true 0)]
    exact leads_perform (.slot (some 0)) (hlast _) rfl rfl rfl (by cbv)
  have hresets : Leads
      ⟨crowdHost (crowdSegment (attached + 1) (writers + 1)
          ((Slot.fresh 0).claimedForWriting attached) 0 0),
        managers ++ [some (crowdMember false attached true 0)]⟩
      [.perform managers.length (.reset 0)] []
      ⟨crowdHost (crowdSegment (attached + 1) (writers + 1) (.fresh 0) 0 0),
        managers ++ [some (crowdMember false attached true 0)]⟩ := by
    have hon : (Operation.reset 0).perform.on (crowdMember false attached true 0)
        (crowdHost (crowdSegment (attached + 1) (writers + 1)
          ((Slot.fresh 0).claimedForWriting attached) 0 0)) =
        (.ok (.flag true), crowdMember false attached true 0,
          crowdHost (crowdSegment (attached + 1) (writers + 1) (.fresh 0) 0 0)) := by cbv
    have hresets := leads_perform (.flag true) (hlast _) rfl rfl rfl hon
    rwa [hset] at hresets
  exact ((leads_arrival attached writers managers).trans hclaims).trans hresets

/-- How managers attach and write one after the other. -/
def writerRounds (start : Nat) : Nat → List Call
  | 0 => []
  | n + 1 => writerRound start ++ writerRounds (start + 1) n

/-- Any number of managers may do so. -/
theorem leads_writerRounds (n : Nat) (attached writers : Int32)
    (managers : List (Option Manager)) :
    ∃ others entries, others.length = n ∧
      (∀ other ∈ others, ∃ id, other = some (crowdMember false id true 0)) ∧
      (∀ entry ∈ entries, entry.2 = .wrote ∧ managers.length ≤ entry.1 ∧
        entry.1 < managers.length + n) ∧
      Leads ⟨crowdHost (crowdSegment attached writers (.fresh 0) 0 0), managers⟩
        (writerRounds managers.length n) entries
        ⟨crowdHost (crowdSegment (attached + .ofNat n) (writers + .ofNat n) (.fresh 0) 0 0),
          managers ++ others⟩ := by
  induction n generalizing attached writers managers with
  | zero => exact ⟨[], [], rfl, nofun, nofun, by simpa using .refl _⟩
  | succ n ih =>
    obtain ⟨others, entries, hlength, hothers, hentries, hleads⟩ := ih (attached + 1) (writers + 1)
      (managers ++ [some (crowdMember false attached true 0)])
    have hboth := (leads_writerRound attached writers managers).trans hleads
    rw [Int32.add_assoc, Int32.add_comm 1, Int32.add_assoc, Int32.add_comm 1,
      List.append_assoc] at hboth
    rw [List.length_append, List.length_singleton] at hboth hentries
    rw [writerRounds, Int32.ofNat_add]
    refine ⟨some (crowdMember false attached true 0) :: others, entries ++ [(_, .wrote)],
      by simp [hlength], fun other hother => ?_, fun entry hentry => ?_, hboth⟩
    · rcases List.mem_cons.mp hother with rfl | hmem
      · exact ⟨attached, rfl⟩
      · exact hothers other hmem
    · rcases List.mem_append.mp hentry with hmem | hmem
      · obtain ⟨hwrote, hle, hlt⟩ := hentries entry hmem
        exact ⟨hwrote, by omega, by omega⟩
      · cases List.mem_singleton.mp hmem
        exact ⟨rfl, le_refl _, by omega⟩

/-- A release in an orderly run, of a record for all to see, empties the slot, although a
reader that is attached has never released the record. -/
def RecycledEarly (calls : List Call) (i j : Nat) : Prop :=
  let release : Call := .perform i (.release 0)
  let moments := ⟨(run calls).2, release⟩ :: (run calls).1
  ∃ segment s s' me, Orderly 0 moments ∧ (run calls).2.segment? 0 = some segment ∧
    segment.control.isDestructive = false ∧ segment.control.staleTimeout = 0 ∧
    (run calls).2.slot? 0 0 = some s ∧ s.state ≠ .empty ∧
    ((run calls).2.step release).slot? 0 0 = some s' ∧ s'.state = .empty ∧
    (run calls).2.attachment? j = some me ∧ me.object = 0 ∧ me.isWriter = false ∧
    (ledger 0 moments).count (j, .released s.sequenceId) = 0

/-- The record of a crowd, released so often. -/
def crowdRecord (releases : Nat) : Slot :=
  { (Slot.fresh 0).published 1 noOwner with releases }

theorem recycledEarly_of_leads {calls : List Call} {entries : List (Nat × Entry)}
    {manager manager' other : Manager} {me you : Attachment} {s s' : Slot}
    (h : Leads (.new ⟨0⟩ ⟨0⟩ fun _ => true) calls entries ⟨crowdHost segment, managers⟩)
    (honesided : ∀ {k q : Nat}, (k, .wrote) ∈ entries → (k, .claimed q) ∉ entries)
    (hi : managers[i]? = some (some manager)) (hme : manager.attachment = some me)
    (hobject : me.object = 0)
    (hon : (Operation.release 0).perform.on manager (crowdHost segment) =
      (.ok .done, manager', crowdHost segment'))
    (hlasting : segment.control.isDestructive = false)
    (htimeout : segment.control.staleTimeout = 0) (hs : segment.slots[0]? = some s)
    (hfull : s.state ≠ .empty) (hs' : segment'.slots[0]? = some s') (hempty : s'.state = .empty)
    (hj : managers[j]? = some (some other)) (hyou : other.attachment = some you)
    (hthere : you.object = 0) (hreader : you.isWriter = false)
    (hnever : (j, .released s.sequenceId) ∉ (i, .released s.sequenceId) :: entries) :
    RecycledEarly calls i j := by
  unfold RecycledEarly
  intro release moments
  have hlast := leads_perform .done hi hme hobject rfl hon
  have hboth := h.trans hlast
  have hw : (run calls).2 = ⟨crowdHost segment, managers⟩ := h.world []
  have hmoments : moments = (run (calls ++ [release])).1 := by
    rw [run, history_append]
    rfl
  have hafter : (run calls).2.step release =
      ⟨crowdHost segment', managers.set i (some manager')⟩ := by
    rw [hw]
    exact hlast.world []
  have hledger : ledger 0 moments = (i, .released s.sequenceId) :: entries := by
    rw [hmoments]
    refine (hboth.ledger []).trans ?_
    simp [Operation.note?, hs, ledger]
  have horderly : Orderly 0 moments := by
    rw [hmoments]
    refine (run_run _).orderly (hboth.smooth [] fun _ h => by cases h) ?_
    rw [← hmoments, hledger]
    intro k q hwrote hclaimed
    simp only [List.mem_cons, Prod.mk.injEq, reduceCtorEq, and_false, false_or] at hwrote hclaimed
    exact honesided hwrote hclaimed
  refine ⟨segment, s, s', you, horderly, by rw [hw]; rfl, hlasting, htimeout, ?_, hfull, ?_, hempty,
    ?_, hthere, hreader, ?_⟩
  · rw [hw]
    exact hs
  · rw [hafter]
    exact hs'
  · rw [hw, attachment?, manager?, hj]
    exact hyou
  · rw [hledger]
    exact List.count_eq_zero_of_not_mem hnever

/-- 2³¹ readers attach beside a writer, and one of them has the record. -/
def manyReaders : List Call :=
  List.replicate 3 (Call.attach crowdConfig .manual) ++
    List.replicate (2 ^ 31 - 2) (Call.attach crowdConfig .manual) ++
    [Call.perform 0 (.claimForWriting false)] ++ [Call.perform 0 (.publish 0 .any)] ++
    [Call.perform 1 .claimForReading]

/-- A writer and two readers, and others after them. -/
def writerFirst (isWriter : Bool) (lastSeen : Nat) (others : List (Option Manager)) :
    List (Option Manager) :=
  some (crowdMember true 0 isWriter 0) :: some (crowdMember false 1 false lastSeen) ::
    some (crowdMember false 2 false 0) :: others

theorem leads_manyReaders : ∃ others, others.length = 2 ^ 31 - 2 ∧
    Leads (.new ⟨0⟩ ⟨0⟩ fun _ => true) manyReaders [(1, .claimed 1), (0, .wrote)]
      ⟨crowdHost (crowdSegment (-2147483647) 1 ((crowdRecord 0).claimedForReading 1) 1 1),
        writerFirst true 1 others⟩ := by
  have hthree : Leads (.new ⟨0⟩ ⟨0⟩ fun _ => true)
      (List.replicate 3 (.attach crowdConfig .manual)) []
      ⟨crowdHost (crowdSegment 3 0 (.fresh 0) 0 0), writerFirst false 0 []⟩ :=
    (leads_creation.trans (leads_arrival 1 0 _)).trans (leads_arrival 2 0 _)
  obtain ⟨others, hlength, hothers⟩ := leads_arrivals (2 ^ 31 - 2) 3 (writerFirst false 0 [])
  have hcount : (3 : Int32) + .ofNat (2 ^ 31 - 2) = -2147483647 := by decide
  rw [hcount] at hothers
  have hclaim : Leads
      ⟨crowdHost (crowdSegment (-2147483647) 0 (.fresh 0) 0 0), writerFirst false 0 others⟩
      [.perform 0 (.claimForWriting false)] [(0, .wrote)]
      ⟨crowdHost (crowdSegment (-2147483647) 1 ((Slot.fresh 0).claimedForWriting 0) 0 0),
        writerFirst true 0 others⟩ :=
    leads_perform (.slot (some 0)) rfl rfl rfl rfl (by cbv)
  have hpublish : Leads
      ⟨crowdHost (crowdSegment (-2147483647) 1 ((Slot.fresh 0).claimedForWriting 0) 0 0),
        writerFirst true 0 others⟩
      [.perform 0 (.publish 0 .any)] []
      ⟨crowdHost (crowdSegment (-2147483647) 1 (crowdRecord 0) 1 0), writerFirst true 0 others⟩ :=
    leads_perform (.flag true) rfl rfl rfl rfl (by cbv)
  have hread : Leads
      ⟨crowdHost (crowdSegment (-2147483647) 1 (crowdRecord 0) 1 0), writerFirst true 0 others⟩
      [.perform 1 .claimForReading] [(1, .claimed 1)]
      ⟨crowdHost (crowdSegment (-2147483647) 1 ((crowdRecord 0).claimedForReading 1) 1 1),
        writerFirst true 1 others⟩ :=
    leads_perform (.slot (some 0)) rfl rfl rfl rfl (by cbv)
  exact ⟨others, hlength, (((hthree.trans hothers).trans hclaim).trans hpublish).trans hread⟩

/-- 2³² − 1 writers attach beside a reader, and then one more reader, which has the id of
the first. -/
def fullHouse : List Call :=
  [Call.attach crowdConfig .manual] ++ writerRound 1 ++ writerRounds 2 (2 ^ 32 - 2) ++
    [Call.attach crowdConfig .manual] ++ [Call.perform 1 (.claimForWriting false)] ++
    [Call.perform 1 (.publish 0 .any)]

/-- The last of the readers has the record, and the first releases it twice. -/
def namesakes : List Call :=
  fullHouse ++ [Call.perform (2 ^ 32) .claimForReading] ++ [Call.perform 0 (.release 0)] ++
    [Call.perform 0 .claimForReading]

/-- A reader and a writer, others after them, and a reader in the end. -/
def readersAround (lastSeen : Nat) (others : List (Option Manager)) (lastSeen' : Nat) :
    List (Option Manager) :=
  some (crowdMember true 0 false lastSeen) :: some (crowdMember false 1 true 0) ::
    (others ++ [some (crowdMember false 0 false lastSeen')])

theorem leads_fullHouse : ∃ others entries, others.length = 2 ^ 32 - 2 ∧
    (∀ other ∈ others, ∃ id, other = some (crowdMember false id true 0)) ∧
    (∀ entry ∈ entries, entry.2 = .wrote ∧ 0 < entry.1 ∧ entry.1 < 2 ^ 32) ∧
    Leads (.new ⟨0⟩ ⟨0⟩ fun _ => true) fullHouse entries
      ⟨crowdHost (crowdSegment 1 (-1) (crowdRecord 0) 1 0), readersAround 0 others 0⟩ := by
  have hround : Leads
      ⟨crowdHost (crowdSegment 1 0 (.fresh 0) 0 0), [some (crowdMember true 0 false 0)]⟩
      (writerRound 1) [(1, .wrote)]
      ⟨crowdHost (crowdSegment 2 1 (.fresh 0) 0 0),
        [some (crowdMember true 0 false 0), some (crowdMember false 1 true 0)]⟩ :=
    leads_writerRound 1 0 [some (crowdMember true 0 false 0)]
  obtain ⟨others, entries, hlength, hothers, hentries, hrounds⟩ :=
    leads_writerRounds (2 ^ 32 - 2) 2 1
      [some (crowdMember true 0 false 0), some (crowdMember false 1 true 0)]
  have hattached : (2 : Int32) + .ofNat (2 ^ 32 - 2) = 0 := by decide
  have hwriters : (1 : Int32) + .ofNat (2 ^ 32 - 2) = -1 := by decide
  rw [hattached, hwriters] at hrounds
  change Leads _ (writerRounds 2 (2 ^ 32 - 2)) _ _ at hrounds
  have hlast : Leads
      ⟨crowdHost (crowdSegment 0 (-1) (.fresh 0) 0 0),
        [some (crowdMember true 0 false 0), some (crowdMember false 1 true 0)] ++ others⟩
      [.attach crowdConfig .manual] []
      ⟨crowdHost (crowdSegment 1 (-1) (.fresh 0) 0 0), readersAround 0 others 0⟩ :=
    leads_arrival 0 (-1) _
  have hclaim : Leads
      ⟨crowdHost (crowdSegment 1 (-1) (.fresh 0) 0 0), readersAround 0 others 0⟩
      [.perform 1 (.claimForWriting false)] [(1, .wrote)]
      ⟨crowdHost (crowdSegment 1 (-1) ((Slot.fresh 0).claimedForWriting 1) 0 0),
        readersAround 0 others 0⟩ :=
    leads_perform (.slot (some 0)) rfl rfl rfl rfl (by cbv)
  have hpublish : Leads
      ⟨crowdHost (crowdSegment 1 (-1) ((Slot.fresh 0).claimedForWriting 1) 0 0),
        readersAround 0 others 0⟩
      [.perform 1 (.publish 0 .any)] []
      ⟨crowdHost (crowdSegment 1 (-1) (crowdRecord 0) 1 0), readersAround 0 others 0⟩ :=
    leads_perform (.flag true) rfl rfl rfl rfl (by cbv)
  have hall :=
    ((((leads_creation.trans hround).trans hrounds).trans hlast).trans hclaim).trans hpublish
  refine ⟨others, _, hlength, hothers, fun entry hentry => ?_, hall⟩
  simp only [List.mem_append, List.mem_singleton, List.not_mem_nil, false_or, or_false] at hentry
  rcases hentry with rfl | hmem | rfl
  · exact ⟨rfl, by decide, by decide⟩
  · obtain ⟨hwrote, hle, hlt⟩ := hentries entry hmem
    simp only [List.length_cons, List.length_nil] at hle hlt
    exact ⟨hwrote, by omega, by omega⟩
  · exact ⟨rfl, by decide, by decide⟩

theorem leads_namesakes : ∃ others entries, others.length = 2 ^ 32 - 2 ∧
    (∀ other ∈ others, ∃ id, other = some (crowdMember false id true 0)) ∧
    (∀ entry ∈ entries, entry.2 = .wrote ∧ 0 < entry.1 ∧ entry.1 < 2 ^ 32) ∧
    Leads (.new ⟨0⟩ ⟨0⟩ fun _ => true) namesakes
      ((0, .claimed 1) :: (0, .released 1) :: (2 ^ 32, .claimed 1) :: entries)
      ⟨crowdHost (crowdSegment 1 (-1) ((crowdRecord 1).claimedForReading 0) 1 1),
        readersAround 1 others 1⟩ := by
  obtain ⟨others, entries, hlength, hothers, hentries, hhouse⟩ := leads_fullHouse
  have hlast : (readersAround 0 others 0)[2 ^ 32]? =
      some (some (crowdMember false 0 false 0)) := by
    simp [readersAround, hlength]
  have hset : (readersAround 0 others 0).set (2 ^ 32) (some (crowdMember false 0 false 1)) =
      readersAround 0 others 1 := by
    simp [readersAround, hlength]
  have hread : Leads
      ⟨crowdHost (crowdSegment 1 (-1) (crowdRecord 0) 1 0), readersAround 0 others 0⟩
      [.perform (2 ^ 32) .claimForReading] [(2 ^ 32, .claimed 1)]
      ⟨crowdHost (crowdSegment 1 (-1) ((crowdRecord 0).claimedForReading 0) 1 1),
        readersAround 0 others 1⟩ := by
    rw [← hset]
    exact leads_perform (.slot (some 0)) hlast rfl rfl rfl (by cbv)
  have hrelease : Leads
      ⟨crowdHost (crowdSegment 1 (-1) ((crowdRecord 0).claimedForReading 0) 1 1),
        readersAround 0 others 1⟩
      [.perform 0 (.release 0)] [(0, .released 1)]
      ⟨crowdHost (crowdSegment 1 (-1) (crowdRecord 1) 1 1), readersAround 0 others 1⟩ :=
    leads_perform .done rfl rfl rfl rfl (by cbv)
  have hagain : Leads
      ⟨crowdHost (crowdSegment 1 (-1) (crowdRecord 1) 1 1), readersAround 0 others 1⟩
      [.perform 0 .claimForReading] [(0, .claimed 1)]
      ⟨crowdHost (crowdSegment 1 (-1) ((crowdRecord 1).claimedForReading 0) 1 1),
        readersAround 1 others 1⟩ :=
    leads_perform (.slot (some 0)) rfl rfl rfl rfl (by cbv)
  exact ⟨others, entries, hlength, hothers, hentries,
    ((hhouse.trans hread).trans hrelease).trans hagain⟩

theorem readership_eq_countP (w : World) (number : Nat) :
    w.readership number = w.managers.countP fun manager =>
      (manager.bind (·.attachment)).any fun me => me.object == number && !me.isWriter := by
  refine (List.countP_congr fun i _ => ?_).trans (countP_range_getElem? _ _)
  rw [member, attachment?, manager?]
  rcases w.managers[i]? with _ | _ | manager <;> simp [Option.any_filter]

theorem readership_readersAround {others : List (Option Manager)}
    (hothers : ∀ other ∈ others, ∃ id, other = some (crowdMember false id true 0))
    (segment : Segment) (lastSeen lastSeen' : Nat) :
    (World.mk (crowdHost segment) (readersAround lastSeen others lastSeen')).readership 0 = 2 := by
  have hnone : others.countP (fun manager => (manager.bind (·.attachment)).any fun me =>
      me.object == 0 && !me.isWriter) = 0 := by
    rw [List.countP_eq_zero]
    intro other hother
    obtain ⟨id, rfl⟩ := hothers other hother
    simp [crowdMember]
  rw [readership_eq_countP]
  simp [readersAround, List.countP_append, hnone, crowdMember, Attachment.new]

/-! ## Every reader had it -/

/-- **A slot whose record is for all to see is free only after every reader had
it.** In an orderly run in which nothing goes stale, whenever a release empties a
slot, every manager attached that is no writer has claimed the record of the slot
exactly once, and released it exactly once, as long as fewer than 2³¹ managers are
to see it and no more than 2³² are attached: the words that count the readers and
number the managers have 32 bits. -/
theorem recycled_after_every_reader {past : List Moment} {w : World} (hrun : Run past w)
    {call : Call} {number : Nat} (horderly : Orderly number (⟨w, call⟩ :: past))
    {segment : Segment} (hsegment : w.segment? number = some segment)
    (hlasting : segment.control.isDestructive = false)
    (htimeout : segment.control.staleTimeout = 0) (hfew : w.readership number < 2 ^ 31)
    (hids : w.attendance number ≤ 2 ^ 32) {i slot : Nat}
    (hcall : call.operation? = some (i, .release slot)) {s s' : Slot}
    (hslot : w.slot? number slot = some s) (hfull : s.state ≠ .empty)
    (hslot' : (w.step call).slot? number slot = some s') (hempty : s'.state = .empty) {j : Nat}
    {me : Attachment} (hme : w.attachment? j = some me) (hobject : me.object = number)
    (hreader : me.isWriter = false) :
    (ledger number (⟨w, call⟩ :: past)).count (j, .claimed s.sequenceId) = 1 ∧
      (ledger number (⟨w, call⟩ :: past)).count (j, .released s.sequenceId) = 1 := by
  have hcoherent := hrun.coherent
  obtain ⟨p, hp, hpsegment⟩ : ∃ p, w.party? number = some p ∧ p.segment = segment :=
    ⟨⟨segment, w.member number⟩, party?_eq_some_iff.mpr ⟨hsegment, rfl⟩, rfl⟩
  subst hpsegment
  obtain ⟨p', hp', hturn⟩ := (step_turned hcoherent call).turn hp
  rw [slot?_of_party? hp] at hslot
  rw [slot?_of_party? hp'] at hslot'
  rw [readership_eq_count hp] at hfew
  rw [attendance_eq_count hp] at hids
  have hn : p.Within w.managers.length := within_of_length hp (le_refl _)
  have hfair := hrun.fair hp (le_refl _) hlasting htimeout horderly.of_cons hids
  have hmember : p.member j = some me := by
    rw [(party?_eq_some_iff.mp hp).2]
    exact member_eq_some_iff.mpr ⟨hme, hobject⟩
  cases hturn with
  | others =>
    rw [hslot] at hslot'
    cases hslot'
    exact absurd hempty hfull
  | entered hnone =>
    rw [hcall] at hnone
    cases hnone
  | left _ _ hleaver =>
    obtain ⟨⟨me', hme'⟩, -⟩ := stays_of_not_loses hp hp' (horderly.stays _ (by simp)) hleaver
    rw [Party.dismiss] at hme'
    simp at hme'
  | ended | returned => cases hcall
  | @moved _ i' operation me₀ answer after hcall' hme₀ hmove =>
    rw [hcall] at hcall'
    cases hcall'
    have hcalm := ((hcoherent.party hp).fits hme₀).calm (w.now i) hlasting htimeout
    have hidle : after.segment.stage slot = .idle := by
      have hafter : after.segment.slots[slot]? = some s' := hslot'
      simp [stage_eq hafter, Slot.stage, hempty]
    have hcounted := hrun.counted hp (le_refl _)
    obtain ⟨hsame, hreaders⟩ := hfair.emptied hcounted hfew hcalm hmove hslot hidle
    have hledger : ledger number (⟨w, call⟩ :: past) =
        (i, .released s.sequenceId) :: ledger number past := by
      rw [ledger_cons, note?_of_moved hcoherent hp hcall hme₀ hmove]
      simp [Operation.note?, hslot]
    have hfair' := hfair.follow (hn hme₀) hme₀ hcalm rfl hmove
    have hmembers := Party.member_follow_of_same hme₀ hsame
    have hentries : ((Operation.release slot).note? p.segment answer).map (i, ·) =
        some (i, .released s.sequenceId) := by simp [Operation.note?, hslot]
    rw [hentries] at hfair'
    rw [hledger]
    have honesided := @horderly.onesided
    rw [hledger] at honesided
    refine hfair'.every_reader ?_ honesided ?_ (by rw [hmembers, hmember]) hreader
    · intro j' me' hme'
      rw [hmembers] at hme'
      exact hn hme'
    · rw [Party.count, hmembers, Option.toList_some, List.singleton_append,
        List.countP_cons_of_pos (by simp)]
      exact hreaders

/-- Two readers have a record one after the other; the slot is free after the
second. -/
theorem recycled_after_two_readers :
    let config : Segment.Config := ⟨7, 1, 8, 0, false, 0⟩
    let calls : List Call := [.attach config .manual, .attach config .manual,
      .attach config .manual, .perform 0 (.claimForWriting false), .perform 0 (.write 0 [5]),
      .perform 0 (.publish 0 .any), .perform 1 .claimForReading, .perform 1 (.release 0),
      .perform 2 .claimForReading]
    let release : Call := .perform 2 (.release 0)
    let moments := ⟨(run calls).2, release⟩ :: (run calls).1
    ∃ segment s s' me, Orderly 0 moments ∧ (run calls).2.segment? 0 = some segment ∧
      segment.control.isDestructive = false ∧ segment.control.staleTimeout = 0 ∧
      (run calls).2.readership 0 < 2 ^ 31 ∧ (run calls).2.attendance 0 ≤ 2 ^ 32 ∧
      (run calls).2.slot? 0 0 = some s ∧ s.state ≠ .empty ∧
      ((run calls).2.step release).slot? 0 0 = some s' ∧ s'.state = .empty ∧
      (run calls).2.attachment? 1 = some me ∧ me.object = 0 ∧ me.isWriter = false ∧
      (ledger 0 moments).count (1, .claimed s.sequenceId) = 1 ∧
      (ledger 0 moments).count (1, .released s.sequenceId) = 1 := by
  intro config calls release moments
  have hledger : ledger 0 moments = [(2, .released 1), (2, .claimed 1), (1, .released 1),
      (1, .claimed 1), (0, .wrote)] := by decide +kernel
  have horderly : Orderly 0 moments := by
    refine ⟨by decide +kernel, by decide +kernel, fun {i q} hwrote hclaimed => ?_⟩
    rw [hledger] at hwrote hclaimed
    simp at hwrote hclaimed
    omega
  have hfew : (run calls).2.readership 0 < 2 ^ 31 := by decide +kernel
  have hids : (run calls).2.attendance 0 ≤ 2 ^ 32 := by decide +kernel
  obtain ⟨segment, hsegment, hsettings⟩ := (Option.any_eq_true
    (fun segment : Segment => !segment.control.isDestructive &&
      segment.control.staleTimeout == 0) ((run calls).2.segment? 0)).mp (by decide +kernel)
  obtain ⟨s, hslot, hfull⟩ := (Option.any_eq_true (fun s : Slot => s.state != .empty)
    ((run calls).2.slot? 0 0)).mp (by decide +kernel)
  obtain ⟨s', hslot', hempty⟩ := (Option.any_eq_true (fun s : Slot => s.state == .empty)
    (((run calls).2.step release).slot? 0 0)).mp (by decide +kernel)
  obtain ⟨me, hme, hreader⟩ := (Option.any_eq_true
    (fun me : Attachment => me.object == 0 && !me.isWriter)
    ((run calls).2.attachment? 1)).mp (by decide +kernel)
  simp only [Bool.and_eq_true, Bool.not_eq_true', beq_iff_eq, bne_iff_ne]
    at hsettings hfull hempty hreader
  obtain ⟨hlasting, htimeout⟩ := hsettings
  obtain ⟨hobject, hreader⟩ := hreader
  exact ⟨segment, s, s', me, horderly, hsegment, hlasting, htimeout, hfew, hids, hslot, hfull,
    hslot', hempty, hme, hobject, hreader, recycled_after_every_reader (run_run calls) horderly
      hsegment hlasting htimeout hfew hids rfl hslot hfull hslot' hempty hme hobject hreader⟩

/-- **Where words are too short, a slot is free too early.** Once 2³¹ readers are
attached, the first that releases a record empties the slot; and once 2³² + 1 managers
are, two of them pass for one another, so that one releases the record for both. -/
theorem recycled_too_early :
    (RecycledEarly manyReaders 1 2 ∧ (run manyReaders).2.attendance 0 ≤ 2 ^ 32) ∧
      RecycledEarly namesakes 0 (2 ^ 32) ∧ (run namesakes).2.readership 0 < 2 ^ 31 := by
  obtain ⟨others, hlength, hmany⟩ := leads_manyReaders
  obtain ⟨others', entries, hlength', hothers', hentries, hnamesakes⟩ := leads_namesakes
  have hmanyReaders : (run manyReaders).2 = _ := hmany.world []
  have hnamesake : (run namesakes).2 = _ := hnamesakes.world []
  have hfirst : (Operation.release 0).perform.on (crowdMember false 1 false 1)
      (crowdHost (crowdSegment (-2147483647) 1 ((crowdRecord 0).claimedForReading 1) 1 1)) =
      (.ok .done, crowdMember false 1 false 1,
        crowdHost (crowdSegment (-2147483647) 1 (crowdRecord 0).freed 1 1)) := by cbv
  have hsecond : (Operation.release 0).perform.on (crowdMember true 0 false 1)
      (crowdHost (crowdSegment 1 (-1) ((crowdRecord 1).claimedForReading 0) 1 1)) =
      (.ok .done, crowdMember true 0 false 1,
        crowdHost (crowdSegment 1 (-1) (crowdRecord 0).freed 1 1)) := by cbv
  have hnamesake' : (readersAround 1 others' 1)[2 ^ 32]? =
      some (some (crowdMember false 0 false 1)) := by
    simp [readersAround, hlength']
  have hmine : ∀ {k : Nat} {entry : Entry}, (k, entry) ∈ entries → entry = .wrote ∧ 0 < k ∧
      k < 2 ^ 32 := fun hentry => hentries _ hentry
  refine ⟨⟨?_, ?_⟩, ?_, ?_⟩
  · refine recycledEarly_of_leads hmany ?_ rfl rfl rfl hfirst rfl rfl rfl (by decide) rfl rfl rfl
      rfl rfl rfl ?_
    · simp
      omega
    · simp
  · rw [hmanyReaders, attendance]
    refine List.countP_le_length.trans ?_
    simp [writerFirst, hlength]
  · refine recycledEarly_of_leads hnamesakes ?_ rfl rfl rfl hsecond rfl rfl rfl (by decide) rfl rfl
      hnamesake' rfl rfl rfl ?_
    · intro k q hwrote hclaimed
      simp only [List.mem_cons, Prod.mk.injEq, reduceCtorEq, and_false, false_or] at hwrote hclaimed
      obtain ⟨-, hpos, hlt⟩ := hmine hwrote
      rcases hclaimed with ⟨rfl, -⟩ | ⟨rfl, -⟩ | hmem
      · omega
      · omega
      · cases (hmine hmem).1
    · intro hreleased
      simp only [List.mem_cons, Prod.mk.injEq, reduceCtorEq, and_false, false_or] at hreleased
      rcases hreleased with ⟨h, -⟩ | ⟨h, -⟩ | hmem
      · cases h
      · cases h
      · cases (hmine hmem).1
  · rw [hnamesake, readership_readersAround hothers']
    decide

end World

end SlotTransport
