/-
No record of a segment whose records are gone once read is lost or comes twice.
A slot carries a record while it is full or being read. An operation keeps what
the slots carry, apart from a publication, which adds the next record, and a
release, which takes one away (`Move.carriers`); so every record that was ever
published is carried by one slot or was released once (`record_accounted`).
-/
import SlotTransport.Proofs.Operation.Change
import SlotTransport.Proofs.World.History

namespace SlotTransport

open Segment

/-! ## What the slots carry -/

namespace Segment

/-- Whether the slot carries the record of a sequence id. -/
def Slot.carries (s : Slot) (q : Nat) : Bool :=
  match s.state with
  | .full | .reading => s.sequenceId == q
  | .empty | .writing => false

/-- How many slots carry the record of a sequence id. -/
def carriers (segment : Segment) (q : Nat) : Nat :=
  segment.slots.countP (·.carries q)

namespace Slot

variable {s s' : Slot}

theorem carries_reclaimed {staleness : Staleness} {entitled : Bool}
    (hkeep : staleness.dropsRecords = false)
    (h : s.reclaimed? staleness entitled = some s') (q : Nat) : s'.carries q = s.carries q := by
  rcases (reclaimed?_cases h).2 with ⟨hstate, rfl⟩ | ⟨hstate, rfl⟩ | ⟨-, -, hdrop, -⟩
  · simp [carries, hstate]
  · simp [carries, hstate]
  · rw [hkeep] at hdrop
    cases hdrop

theorem carries_swept {staleness : Staleness} (hkeep : staleness.dropsRecords = false) (q : Nat) :
    (s.swept staleness).carries q = s.carries q := by
  by_cases hsame : s.swept staleness = s
  · rw [hsame]
  · exact carries_reclaimed hkeep (reclaimed?_of_swept_ne hsame) q

theorem carries_leftBy (id : ManagerId) (q : Nat) : (s.leftBy id).carries q = s.carries q := by
  rcases s.leftBy_cases id with h | ⟨-, hstate, h⟩ | ⟨-, hstate, h⟩
  · rw [h]
  · have hempty : (s.leftBy id).state = .empty := by rw [h]; rfl
    simp [carries, hstate, hempty]
  · simp [carries, hstate, h]

end Slot

theorem carriers_congr {a b : Segment} (hlength : b.slots.length = a.slots.length)
    (h : ∀ (k : Nat) s, a.slots[k]? = some s →
      ∃ s', b.slots[k]? = some s' ∧ ∀ q, s'.carries q = s.carries q) (q : Nat) :
    b.carriers q = a.carriers q := by
  have hmap : b.slots.map (·.carries q) = a.slots.map (·.carries q) := by
    refine List.ext_getElem? fun k => ?_
    rw [List.getElem?_map, List.getElem?_map]
    cases hk : a.slots[k]? with
    | none =>
      have hb : b.slots[k]? = none := by
        rw [List.getElem?_eq_none_iff] at hk ⊢
        exact hlength ▸ hk
      rw [hb]
    | some s =>
      obtain ⟨s', hs', hcarries⟩ := h k s hk
      rw [hs', Option.map_some, Option.map_some, hcarries]
  calc b.carriers q = (b.slots.map (·.carries q)).countP id := by rw [List.countP_map]; rfl
    _ = (a.slots.map (·.carries q)).countP id := by rw [hmap]
    _ = a.carriers q := by rw [List.countP_map]; rfl

theorem countP_set_add {α : Type} (f : α → Bool) {l : List α} {k : Nat} {a : α}
    (ha : l[k]? = some a) (b : α) :
    (l.set k b).countP f + (f a).toNat = l.countP f + (f b).toNat := by
  obtain ⟨hlt, rfl⟩ := List.getElem?_eq_some_iff.mp ha
  rw [List.countP_set hlt]
  cases hf : f l[k] with
  | false => cases f b <;> simp
  | true =>
    have hpos : 0 < l.countP f := List.countP_pos_iff.mpr ⟨l[k], List.getElem_mem hlt, hf⟩
    cases f b <;> simp <;> omega

namespace Mapping

variable {m after : Mapping} {operation : Operation} {answer : Answer}

theorem Change.carries {k : Nat} {s s' : Slot} (h : m.Change operation answer k s s')
    (hdestructive : m.me.destructive = true) (hforce : operation.isForced = false)
    (hpublish : ∀ destination, operation ≠ .publish k destination)
    (hrelease : operation ≠ .release k) (q : Nat) : s'.carries q = s.carries q := by
  have hkeep := dropsRecords_of_destructive hdestructive
  cases h with
  | kept => rfl
  | wrote | read | checked => rfl
  | swept => exact Slot.carries_swept hkeep q
  | reset _ hs' => exact Slot.carries_reclaimed hkeep hs' q
  | @claimedForWriting overwrite h _ hfree =>
    subst h
    obtain rfl : overwrite = false := by simpa [Operation.isForced] using hforce
    simp only [Slot.isWritable, Bool.false_and, Bool.or_false, beq_iff_eq] at hfree
    rw [← Slot.carries_swept (s := s) hkeep q]
    simp [Slot.carries, hfree]
  | claimedForReading _ _ hread =>
    simp only [isReadable, Slot.isAddressedTo, Bool.and_eq_true, beq_iff_eq] at hread
    rw [← Slot.carries_swept (s := s) hkeep q]
    simp [Slot.carries, hread.1.1]
  | published h => exact absurd h (hpublish _)
  | released h => exact absurd h hrelease
  | evicted h => rw [h] at hforce; cases hforce

theorem carriers_store {s : Slot} {slot : Nat} (hs : m.slots[slot]? = some s) (s' : Slot)
    (q : Nat) :
    (m.store slot s').segment.carriers q + (s.carries q).toNat =
      m.segment.carriers q + (s'.carries q).toNat :=
  countP_set_add (fun t : Slot => t.carries q) hs s'

/-- A move that neither publishes nor releases keeps what the slots carry. -/
theorem Move.carriers_of_kept (h : m.Move operation answer after)
    (hdestructive : m.me.destructive = true) (hforce : operation.isForced = false)
    (hpublish : ∀ slot destination, operation ≠ .publish slot destination)
    (hrelease : ∀ slot, operation ≠ .release slot) :
    after.segment.control.lastSequenceId = m.segment.control.lastSequenceId ∧
      ∀ q, after.segment.carriers q = m.segment.carriers q := by
  constructor
  · cases h with
    | claimedForWriting overwrite => exact lastSequenceId_claimForWriting m overwrite
    | claimedForReading => exact lastSequenceId_claimForReading m
    | published => exact absurd rfl (hpublish _ _)
    | _ => rfl
  · refine carriers_congr h.kept.segment.length fun k s hs => ?_
    obtain ⟨s', hs', hchange⟩ := h.change hs
    exact ⟨s', hs', hchange.carries hdestructive hforce (hpublish k) (hrelease k)⟩

/-- What a move makes of what the slots carry: a release takes a record away, a
publication adds the next one, and all else keeps them. -/
inductive Balance (m : Mapping) (operation : Operation) (after : Mapping) : Prop where
  | released {slot : Nat} {s : Slot} (h : operation = .release slot)
    (hs : m.slots[slot]? = some s)
    (hlast : after.segment.control.lastSequenceId = m.segment.control.lastSequenceId)
    (hcarriers : ∀ q, after.segment.carriers q + (s.sequenceId == q).toNat =
      m.segment.carriers q) : Balance m operation after
  | published (h : ∀ slot, operation ≠ .release slot)
    (hlast : after.segment.control.lastSequenceId = m.segment.control.lastSequenceId + 1)
    (hcarriers : ∀ q, after.segment.carriers q =
      m.segment.carriers q + (m.segment.control.lastSequenceId + 1 == q).toNat) :
    Balance m operation after
  | kept (h : ∀ slot, operation ≠ .release slot)
    (hlast : after.segment.control.lastSequenceId = m.segment.control.lastSequenceId)
    (hcarriers : ∀ q, after.segment.carriers q = m.segment.carriers q) :
    Balance m operation after

theorem Move.balance (h : m.Move operation answer after) (hdestructive : m.me.destructive = true)
    (hforce : operation.isForced = false) : Balance m operation after := by
  cases operation with
  | publish slot destination =>
    cases h with
    | idle => exact .kept (by simp) rfl fun q => rfl
    | wrote htransfer | read htransfer => cases htransfer
    | declared hdeclared => cases hdeclared
    | @published _ s _ hs hword =>
      have hwriting : s.state = .writing := by rw [Slot.state, hword, StateWord.state_of]
      refine .published (by simp) rfl fun q => ?_
      have hstore := carriers_store hs
        ((s.published (m.segment.control.lastSequenceId + 1) destination.owner).touched m.now) q
      simp only [Slot.carries, hwriting, Slot.state_touched, Slot.state_published,
        Slot.sequenceId_touched, Slot.sequenceId_published, Bool.toNat_false, Nat.add_zero]
        at hstore
      exact hstore
  | release slot =>
    cases h with
    | idle hidle => cases hidle
    | wrote htransfer | read htransfer => cases htransfer
    | declared hdeclared => cases hdeclared
    | @released _ s hs hstate howner =>
      refine .released rfl hs rfl fun q => ?_
      have hstore := carriers_store hs (s.freed.touched m.now) q
      simp only [Slot.carries, hstate, Slot.state_touched, Slot.state_freed, Bool.toNat_false,
        Nat.add_zero] at hstore
      rw [Mapping.released_of_gone hdestructive]
      exact hstore
  | _ =>
    obtain ⟨hlast, hcarriers⟩ := h.carriers_of_kept hdestructive hforce (by simp) (by simp)
    exact .kept (by simp) hlast hcarriers

end Mapping

theorem carriers_left (m : Mapping) (q : Nat) : m.left.carriers q = m.segment.carriers q := by
  refine carriers_congr (List.length_map ..) (fun k s hs => ?_) q
  refine ⟨s.leftBy m.me.id, ?_, Slot.carries_leftBy m.me.id⟩
  have hslot : m.slots[k]? = some s := hs
  simp [Mapping.left, hslot]

end Segment

/-! ## Every record is accounted for -/

namespace Party

/-- Every record that was ever published is carried by one slot or was released
once, and no other record is carried or was released. -/
def Accounted (p : Party) (released : Nat → Nat) : Prop :=
  ∀ q, p.segment.carriers q + released q =
    if 1 ≤ q ∧ q ≤ p.segment.control.lastSequenceId then 1 else 0

theorem Accounted.of_eq {p p' : Party} {released : Nat → Nat} (h : p.Accounted released)
    (hlast : p'.segment.control.lastSequenceId = p.segment.control.lastSequenceId)
    (hcarriers : ∀ q, p'.segment.carriers q = p.segment.carriers q) : p'.Accounted released := by
  intro q
  rw [hcarriers, hlast]
  exact h q

theorem Accounted.published {p p' : Party} {released : Nat → Nat} (h : p.Accounted released)
    (hlast : p'.segment.control.lastSequenceId = p.segment.control.lastSequenceId + 1)
    (hcarriers : ∀ q, p'.segment.carriers q =
      p.segment.carriers q + (p.segment.control.lastSequenceId + 1 == q).toNat) :
    p'.Accounted released := by
  intro q
  have hq := h q
  rw [hcarriers, hlast]
  by_cases hnext : p.segment.control.lastSequenceId + 1 = q
  · -- The next record is new, so it was neither carried nor released before.
    rw [if_neg (by omega)] at hq
    rw [if_pos (by omega), hnext, beq_self_eq_true, Bool.toNat_true]
    omega
  · have hlater : (1 ≤ q ∧ q ≤ p.segment.control.lastSequenceId + 1) ↔
        (1 ≤ q ∧ q ≤ p.segment.control.lastSequenceId) := by omega
    rw [beq_false_of_ne hnext, Bool.toNat_false]
    simp only [hlater]
    exact hq

theorem Accounted.released {p p' : Party} {released : Nat → Nat} (h : p.Accounted released)
    {last : Nat} (hlast : p'.segment.control.lastSequenceId = p.segment.control.lastSequenceId)
    (hcarriers : ∀ q, p'.segment.carriers q + (last == q).toNat = p.segment.carriers q) :
    p'.Accounted fun q => released q + (last == q).toNat := by
  intro q
  have hq := h q
  have hbalance := hcarriers q
  show p'.segment.carriers q + (released q + (last == q).toNat) = _
  rw [hlast, ← hq]
  omega

theorem Fresh.accounted {number : Nat} {p : Party} (h : p.Fresh number) :
    p.Accounted fun _ => 0 := by
  intro q
  have hlast : p.segment.control.lastSequenceId = 0 := by cases h <;> rfl
  have hcarriers : p.segment.carriers q = 0 := by
    cases h with
    | blank size => rfl
    | formatted now i =>
      simp [carriers, Segment.formatted, List.countP_replicate, Slot.carries, Slot.state,
        Slot.fresh, StateWord.free]
  rw [hcarriers, hlast, if_neg (by omega)]
  rfl

end Party

namespace World

/-- How often the record of a sequence id was released in an object. -/
def releases (number : Nat) (past : List Moment) (q : Nat) : Nat :=
  (ledger number past).countP (·.2 == .released q)

variable {past : List Moment} {w : World} {call : Call} {number : Nat} {p p' : Party}

theorem releases_cons (moment : Moment) (q : Nat) :
    releases number (moment :: past) q =
      releases number past q + ((moment.note? number).any (·.2 == .released q)).toNat := by
  rw [releases, ledger_cons, List.countP_append, Nat.add_comm]
  congr 1
  cases moment.note? number with
  | none => rfl
  | some told => cases h : told.2 == .released q <;> simp [h]

theorem releases_of_released {moment : Moment} {i last : Nat}
    (h : moment.note? number = some (i, .released last)) :
    releases number (moment :: past) = fun q => releases number past q + (last == q).toNat := by
  funext q
  have hsame : (Entry.released last == .released q) = (last == q) := by
    rw [Bool.eq_iff_iff]
    simp
  rw [releases_cons, h, Option.any_some, hsame]

theorem releases_of_other {moment : Moment}
    (h : ∀ i q, moment.note? number ≠ some (i, .released q)) :
    releases number (moment :: past) = releases number past := by
  funext q
  rw [releases_cons]
  cases hentry : moment.note? number with
  | none => rfl
  | some told =>
    have hne : (told.2 == .released q) = false := by
      rw [beq_eq_false_iff_ne]
      intro hq
      exact h told.1 q (by rw [hentry, ← hq])
    simp [hne]

theorem releases_of_none {moment : Moment} (h : moment.note? number = none) :
    releases number (moment :: past) = releases number past :=
  releases_of_other fun i q => by simp [h]

theorem accounted_follow (hw : w.Coherent) (hp : w.party? number = some p)
    (h : p.Accounted (releases number past)) {i : Nat} {me : Attachment} {operation : Operation}
    {answer : Answer} {after : Mapping} (hcall : call.operation? = some (i, operation))
    (hme : p.member i = some me) (hdestructive : me.destructive = true)
    (hforce : operation.isForced = false)
    (hmove : operation.apply ⟨me, w.now i, p.segment⟩ = .ok (answer, after)) :
    (p.follow i after).Accounted (releases number (⟨w, call⟩ :: past)) := by
  have hentry := note?_of_moved hw hp hcall hme hmove
  have hother : (∀ slot, operation ≠ .release slot) →
      ∀ j q, (⟨w, call⟩ : Moment).note? number ≠ some (j, .released q) := by
    intro hrelease j q hreleased
    rw [hentry] at hreleased
    obtain ⟨made, hmade, heq⟩ := Option.map_eq_some_iff.mp hreleased
    cases heq
    obtain ⟨slot, -, hslot, -⟩ := Operation.note?_eq_released_iff.mp hmade
    exact hrelease slot hslot
  cases (Operation.apply_move hmove).balance hdestructive hforce with
  | @released slot s hrelease hs hlast hcarriers =>
    rw [Operation.note?_eq_released_iff.mpr ⟨slot, s, hrelease, hs, rfl⟩] at hentry
    rw [releases_of_released hentry]
    exact h.released hlast hcarriers
  | published hrelease hlast hcarriers =>
    rw [releases_of_other (hother hrelease)]
    exact h.published hlast hcarriers
  | kept hrelease hlast hcarriers =>
    rw [releases_of_other (hother hrelease)]
    exact h.of_eq hlast hcarriers

/-- A turn keeps the accounts, the release counted that it may consist of. -/
theorem accounted_turn (hw : w.Coherent) (hp : w.party? number = some p)
    (hturn : p.Turn number w.now call p')
    (hdestructive : p.segment.control.isDestructive = true)
    (hforce : (⟨w, call⟩ : Moment).forces number = false)
    (h : p.Accounted (releases number past)) :
    p'.Accounted (releases number (⟨w, call⟩ :: past)) := by
  cases hturn with
  | others hother =>
    rw [releases_of_none (note?_of_others hw hp hother)]
    exact h
  | entered hcall =>
    rw [releases_of_none (note?_of_no_operation hcall)]
    exact h.of_eq rfl fun q => rfl
  | @moved _ i operation me answer after hcall hme hmove =>
    have hmine : me.destructive = true := by
      rw [((hw.party hp).fits hme).destructive, hdestructive]
    exact accounted_follow hw hp h hcall hme hmine (unforced_of_member hp hforce hcall hme) hmove
  | @left _ i me hcall hbreach hme =>
    rw [releases_of_none (note?_of_left hw hp hcall hme hbreach)]
    exact h.of_eq rfl (carriers_left ⟨me, 0, p.segment⟩)
  | @ended i me hme =>
    rw [releases_of_none (note?_of_no_operation rfl)]
    exact h.of_eq rfl (carriers_left ⟨me, 0, p.segment⟩)
  | @returned i me hme =>
    rw [releases_of_none (note?_of_no_operation rfl)]
    exact h.of_eq rfl (carriers_left ⟨me, 0, p.segment⟩)

theorem Run.accounted (h : Run past w) (hp : w.party? number = some p)
    (hdestructive : p.segment.control.isDestructive = true)
    (hforce : ∀ moment ∈ past, moment.forces number = false) :
    p.Accounted (releases number past) := by
  refine Run.party_induction (motive := fun past _ p => p.segment.control.isDestructive = true →
      (∀ moment ∈ past, moment.forces number = false) → p.Accounted (releases number past))
    (fun {past w p} call hrun hnone _ hfresh _ _ => ?_)
    (fun {past w call p p'} hrun hp _ hturn ih hdestructive hforce => ?_) h hp hdestructive hforce
  · have hnothing : releases number past = fun _ => 0 := by
      funext q
      rw [releases, ledger_of_absent hrun hnone]
      rfl
    rw [releases_of_none (note?_of_absent hnone), hnothing]
    exact hfresh.accounted
  · have hsame : p.segment.control.isDestructive = true := by
      rw [Control.isDestructive, ← hturn.alike.destructive]
      exact hdestructive
    exact accounted_turn hrun.coherent hp hturn hsame (hforce _ (by simp))
      (ih hsame fun moment hmoment => hforce moment (by simp [hmoment]))

/-- **No record is lost or comes twice.** In every run in which nothing is taken
by force, each record that was ever published in a segment whose records are gone
once read is carried by exactly one slot and was not released, or it is carried
by none and was released exactly once. Whoever released it held it for reading
then. -/
theorem record_accounted {past : List Moment} {w : World} (hrun : Run past w) {number q : Nat}
    {segment : Segment} (hsegment : w.segment? number = some segment)
    (hdestructive : segment.control.isDestructive = true)
    (hforce : ∀ moment ∈ past, moment.forces number = false)
    (hfirst : 1 ≤ q) (hlast : q ≤ segment.control.lastSequenceId) :
    (segment.carriers q = 1 ∧ releases number past q = 0 ∨
      segment.carriers q = 0 ∧ releases number past q = 1) ∧
    ∀ moment ∈ past, ∀ i, moment.note? number = some (i, .released q) →
      ∃ slot s me, moment.call.operation? = some (i, .release slot) ∧
        moment.before.attachment? i = some me ∧ me.object = number ∧
        moment.before.slot? number slot = some s ∧ s.sequenceId = q ∧ s.state = .reading ∧
        s.owner = me.id := by
  have hp : w.party? number = some ⟨segment, w.member number⟩ :=
    party?_eq_some_iff.mpr ⟨hsegment, rfl⟩
  constructor
  · have hq := hrun.accounted hp hdestructive hforce q
    rw [if_pos ⟨hfirst, hlast⟩] at hq
    simp only at hq
    omega
  · intro moment hmoment i hreleased
    obtain ⟨earlier, hbefore⟩ := hrun.before hmoment
    cases hthen : moment.before.party? number with
    | none =>
      rw [note?_of_absent hthen] at hreleased
      cases hreleased
    | some p =>
      obtain ⟨operation, me, answer, after, hcall, hme, happly, hentry⟩ :=
        note?_spec hbefore.coherent hthen hreleased
      obtain ⟨slot, s, rfl, hs, rfl⟩ := Operation.note?_eq_released_iff.mp hentry
      obtain ⟨hstate, howner⟩ := Operation.held_of_release happly hs
      rw [(party?_eq_some_iff.mp hthen).2] at hme
      obtain ⟨hattached, hobject⟩ := member_eq_some_iff.mp hme
      exact ⟨slot, s, me, hcall, hattached, hobject, (slot?_of_party? hthen slot).trans hs, rfl,
        hstate, howner⟩

/-- A reader whose claim has gone stale cannot release the record any more;
whoever claims it after that releases it once. -/
theorem record_accounted_stale :
    let calls : List Call := [.attach (.new 7 2 8) .manual, .perform 0 (.claimForWriting false),
      .perform 0 (.write 0 [1, 2]), .perform 0 (.publish 0 .any), .attach (.new 7 2 8) .manual,
      .perform 1 .claimForReading, .tick ⟨200000000⟩ ⟨0⟩, .perform 0 .claimForReading,
      .perform 1 (.release 0), .perform 0 (.release 0)]
    ∃ segment, (run calls).2.segment? 0 = some segment ∧
      segment.control.isDestructive = true ∧
      (∀ moment ∈ (run calls).1, moment.forces 0 = false) ∧
      1 ≤ segment.control.lastSequenceId ∧ segment.carriers 1 = 0 ∧
      releases 0 (run calls).1 1 = 1 := by
  intro calls
  have hforce : ∀ moment ∈ (run calls).1, moment.forces 0 = false := by decide
  obtain ⟨segment, hsegment, hdestructive, hlast, hcarriers⟩ :
      ∃ segment, (run calls).2.segment? 0 = some segment ∧
        segment.control.isDestructive = true ∧ 1 ≤ segment.control.lastSequenceId ∧
        segment.carriers 1 = 0 := ⟨_, rfl, rfl, by decide, by decide⟩
  obtain ⟨haccounted, -⟩ :=
    record_accounted (run_run calls) hsegment hdestructive hforce (le_refl 1) hlast
  refine ⟨segment, hsegment, hdestructive, hforce, hlast, ?_⟩
  refine haccounted.resolve_left fun hcarried => ?_
  rw [hcarriers] at hcarried
  cases hcarried.1

end World

end SlotTransport
