/-
What a segment has on offer: the records that nobody has claimed. As long as no
record is done away with or given back, they are a queue: what happens to the segment
leaves the offers as they are, or adds one at the end, or takes the first
(`Queues.passing`). So what is claimed for reading is what is published, in the same
order (`Lined.pass`).
-/
import Mathlib.Logic.Function.Basic
import SlotTransport.Proofs.Operation.Record

namespace SlotTransport

open Segment

/-- The bytes and the sequence id in the slot of a number. -/
def Segment.recordAt (segment : Segment) (k : Nat) : Bytes × Nat :=
  (segment.slots[k]?).elim ([], 0) fun s => (s.content, s.sequenceId)

theorem Segment.recordAt_eq {segment : Segment} {k : Nat} {s : Slot}
    (hs : segment.slots[k]? = some s) : segment.recordAt k = (s.content, s.sequenceId) := by
  rw [recordAt, hs, Option.elim_some]

/-- The bytes of the record that an operation publishes, if it publishes one. -/
def Operation.publication? (segment : Segment) : Operation → Answer → Option Bytes
  | publish slot _, .flag true => some (segment.recordAt slot).1
  | _, _ => none

namespace Segment

/-- A record that waits for a reader. -/
structure Offer where
  sequenceId : Nat
  /-- Whom it is for, or nobody. -/
  owner : ManagerId
  content : Bytes
  deriving DecidableEq, Repr

/-- The record that a slot has on offer. -/
def Slot.offer? (s : Slot) : Option Offer :=
  if s.state = .full then some ⟨s.sequenceId, s.owner, s.content⟩ else none

/-- The record that the slot of a number has on offer. -/
def offered (segment : Segment) (k : Nat) : Option Offer :=
  (segment.slots[k]?).bind Slot.offer?

namespace Slot

variable {s s' : Slot}

theorem offer?_of_full (h : s.state = .full) :
    s.offer? = some ⟨s.sequenceId, s.owner, s.content⟩ :=
  if_pos h

theorem offer?_of_not_full (h : s.state ≠ .full) : s.offer? = none :=
  if_neg h

theorem offer?_eq_some_iff {offer : Offer} :
    s.offer? = some offer ↔ s.state = .full ∧ ⟨s.sequenceId, s.owner, s.content⟩ = offer := by
  simp [offer?]

theorem offer?_eq_of_not_full (h : s.state ≠ .full) (h' : s'.state ≠ .full) :
    s'.offer? = s.offer? := by
  rw [offer?_of_not_full h, offer?_of_not_full h']

theorem offer?_reclaimed {staleness : Staleness} {entitled : Bool}
    (hkeep : staleness.dropsRecords = false) (h : s.reclaimed? staleness entitled = some s')
    (hkept : s.state = .reading → s'.state ≠ .full) : s'.offer? = s.offer? := by
  rcases (reclaimed?_cases h).2 with ⟨hreading, rfl⟩ | ⟨hwriting, rfl⟩ | ⟨-, -, hdrops, -⟩
  · exact absurd rfl (hkept hreading)
  · exact offer?_eq_of_not_full (by simp [hwriting]) (by simp)
  · rw [hkeep] at hdrops
    cases hdrops

theorem offer?_swept {staleness : Staleness} (hkeep : staleness.dropsRecords = false)
    (hkept : s.state = .reading → (s.swept staleness).state ≠ .full) :
    (s.swept staleness).offer? = s.offer? := by
  by_cases hsame : s.swept staleness = s
  · rw [hsame]
  · exact offer?_reclaimed hkeep (reclaimed?_of_swept_ne hsame) hkept

/-- Where records stay, a full slot is not reclaimed. -/
theorem swept_of_full {staleness : Staleness} (hkeep : staleness.dropsRecords = false)
    (hfull : s.state = .full) : s.swept staleness = s := by
  by_contra hne
  rcases (reclaimed?_cases (reclaimed?_of_swept_ne hne)).2 with ⟨h, -⟩ | ⟨h, -⟩ | ⟨-, -, h, -⟩
  · simp [hfull] at h
  · simp [hfull] at h
  · simp [hkeep] at h

theorem offer?_leftBy {id : ManagerId}
    (hkept : s.state = .reading → (s.leftBy id).state ≠ .full) :
    (s.leftBy id).offer? = s.offer? := by
  rcases s.leftBy_cases id with h | ⟨-, hwriting, h⟩ | ⟨-, hreading, h⟩
  · rw [h]
  · rw [h]
    exact offer?_eq_of_not_full (by simp [hwriting]) (by simp [state, StateWord.free])
  · rw [h] at hkept
    exact absurd rfl (hkept hreading)

theorem isFilled_leftBy_of_full {id : ManagerId} (hfull : s.state = .full) :
    (s.leftBy id).isFilled = true := by
  rcases s.leftBy_cases id with h | ⟨-, hwriting, -⟩ | ⟨-, hreading, -⟩
  · rw [h]
    exact isFilled_eq_true_iff.mpr (.inl hfull)
  · simp [hfull] at hwriting
  · simp [hfull] at hreading

end Slot

theorem offered_congr {a b : Segment} (hlength : b.slots.length = a.slots.length) {j : Nat}
    (h : ∀ {s s' : Slot}, a.slots[j]? = some s → b.slots[j]? = some s' → s'.offer? = s.offer?) :
    b.offered j = a.offered j := by
  unfold offered
  cases hs : a.slots[j]? with
  | none =>
    rw [List.getElem?_eq_none_iff] at hs
    rw [List.getElem?_eq_none (by omega)]
  | some s =>
    obtain ⟨hlt, -⟩ := List.getElem?_eq_some_iff.mp hs
    have hs' := List.getElem?_eq_getElem (hlength ▸ hlt : j < b.slots.length)
    rw [hs', Option.bind_some, Option.bind_some, h hs hs']

/-! ## The queue -/

/-- What happens to the offers of a segment, and with it to the bytes that are
published and the slot that is claimed for reading. -/
inductive Passing (segment after : Segment) : Option Bytes → Option Nat → Prop
  | still (hlast : after.control.lastSequenceId = segment.control.lastSequenceId)
    (hoffered : after.offered = segment.offered) : Passing segment after none none
  | published {k : Nat} {content : Bytes} (hnone : segment.offered k = none)
    (hlast : after.control.lastSequenceId = segment.control.lastSequenceId + 1)
    (hoffered : after.offered = Function.update segment.offered k
      (some ⟨segment.control.lastSequenceId + 1, noOwner, content⟩)) :
    Passing segment after (some content) none
  | claimed {k : Nat} {offer : Offer} {s' : Slot} (hoffer : segment.offered k = some offer)
    (hleast : ∀ (j : Nat) (other : Offer), segment.offered j = some other →
      other.owner = noOwner → offer.sequenceId ≤ other.sequenceId)
    (hlast : after.control.lastSequenceId = segment.control.lastSequenceId)
    (hoffered : after.offered = Function.update segment.offered k none)
    (hs' : after.slots[k]? = some s') (hid : s'.sequenceId = offer.sequenceId)
    (hcontent : s'.content = offer.content) : Passing segment after none (some k)

/-- The records on offer are those that were published and not delivered, all of them
for all, and what was delivered is what was published first. The latest stands first
in both lists; a delivery goes with the sequence id. -/
structure Lined (segment : Segment) (published : List Bytes) (delivered : List (Bytes × Nat)) :
    Prop where
  last : segment.control.lastSequenceId = published.length
  inOrder : delivered.reverse <+: published.reverse.zipIdx 1
  offered : ∀ {k : Nat} {offer : Offer}, segment.offered k = some offer →
    offer.owner = noOwner ∧ delivered.length < offer.sequenceId ∧
      published.reverse[offer.sequenceId - 1]? = some offer.content
  waiting : ∀ {n : Nat}, delivered.length ≤ n → n < published.length →
    ∃ k offer, segment.offered k = some offer ∧ offer.sequenceId = n + 1

section Lined

variable {segment after : Segment} {published : List Bytes} {delivered : List (Bytes × Nat)}

theorem Lined.length_le (h : segment.Lined published delivered) :
    delivered.length ≤ published.length := by
  simpa using h.inOrder.length_le

theorem lined_blank (size : Nat) : (blank size).Lined [] [] where
  last := rfl
  inOrder := List.nil_prefix
  offered h := by cases h
  waiting _ h := by cases h

theorem lined_formatted (config : Config) (size now : Nat) :
    (formatted config size now).Lined [] [] where
  last := rfl
  inOrder := List.nil_prefix
  offered h := by
    obtain ⟨s, hs, hoffer⟩ := Option.bind_eq_some_iff.mp h
    rw [List.eq_of_mem_replicate (List.mem_of_getElem? hs)] at hoffer
    cases hoffer
  waiting _ h := by cases h

/-- A record on offer has been published and not delivered. -/
theorem Lined.bounds (h : segment.Lined published delivered) {k : Nat} {offer : Offer}
    (hoffer : segment.offered k = some offer) :
    delivered.length < offer.sequenceId ∧ offer.sequenceId ≤ published.length := by
  obtain ⟨-, hnew, hcontent⟩ := h.offered hoffer
  obtain ⟨hlt, -⟩ := List.getElem?_eq_some_iff.mp hcontent
  rw [List.length_reverse] at hlt
  omega

/-- No two slots offer the same record. -/
theorem Sound.eq_of_offered (h : segment.Sound) {j k : Nat} {a b : Offer}
    (ha : segment.offered j = some a) (hb : segment.offered k = some b) (hpos : 0 < a.sequenceId)
    (hid : a.sequenceId = b.sequenceId) : j = k := by
  obtain ⟨s, hs, hsa⟩ := Option.bind_eq_some_iff.mp ha
  obtain ⟨t, ht, htb⟩ := Option.bind_eq_some_iff.mp hb
  obtain ⟨-, rfl⟩ := Slot.offer?_eq_some_iff.mp hsa
  obtain ⟨-, rfl⟩ := Slot.offer?_eq_some_iff.mp htb
  exact h.distinct hs ht (Nat.ne_of_gt hpos) hid

theorem Lined.still (h : segment.Lined published delivered)
    (hlast : after.control.lastSequenceId = segment.control.lastSequenceId)
    (hoffered : after.offered = segment.offered) : after.Lined published delivered where
  last := hlast.trans h.last
  inOrder := h.inOrder
  offered hoffer := h.offered (hoffered ▸ hoffer)
  waiting hn hlt := by
    rw [hoffered]
    exact h.waiting hn hlt

theorem Lined.published_cons (h : segment.Lined published delivered) {k : Nat} {content : Bytes}
    (hnone : segment.offered k = none)
    (hlast : after.control.lastSequenceId = segment.control.lastSequenceId + 1)
    (hoffered : after.offered = Function.update segment.offered k
      (some ⟨segment.control.lastSequenceId + 1, noOwner, content⟩)) :
    after.Lined (content :: published) delivered where
  last := by rw [hlast, h.last, List.length_cons]
  inOrder := by
    rw [List.reverse_cons, List.zipIdx_append]
    exact h.inOrder.trans (List.prefix_append ..)
  offered {j offer} hoffer := by
    rw [hoffered] at hoffer
    by_cases hj : j = k
    · subst hj
      rw [Function.update_self] at hoffer
      cases hoffer
      refine ⟨rfl, ?_, ?_⟩
      · exact Nat.lt_succ_of_le (h.last ▸ h.length_le)
      · simp [h.last]
    · rw [Function.update_of_ne hj] at hoffer
      obtain ⟨hany, hnew, hcontent⟩ := h.offered hoffer
      refine ⟨hany, hnew, ?_⟩
      obtain ⟨hlt, -⟩ := List.getElem?_eq_some_iff.mp hcontent
      rw [List.reverse_cons, List.getElem?_append_left hlt]
      exact hcontent
  waiting {n} hn hlt := by
    rcases Nat.lt_succ_iff_lt_or_eq.mp hlt with hold | rfl
    · obtain ⟨j, offer, hoffer, hid⟩ := h.waiting hn hold
      have hj : j ≠ k := by
        rintro rfl
        rw [hnone] at hoffer
        cases hoffer
      exact ⟨j, offer, by rw [hoffered, Function.update_of_ne hj, hoffer], hid⟩
    · exact ⟨k, _, by rw [hoffered, Function.update_self], by rw [h.last]⟩

theorem Lined.sequenceId_of_least (h : segment.Lined published delivered) {k : Nat} {offer : Offer}
    (hoffer : segment.offered k = some offer)
    (hleast : ∀ (j : Nat) (other : Offer), segment.offered j = some other →
      other.owner = noOwner → offer.sequenceId ≤ other.sequenceId) :
    offer.sequenceId = delivered.length + 1 := by
  obtain ⟨hnew, hold⟩ := h.bounds hoffer
  obtain ⟨j, first, hfirst, hid⟩ := h.waiting (le_refl _) (hnew.trans_le hold)
  have hle := hleast j first hfirst (h.offered hfirst).1
  omega

theorem Lined.delivered_cons (h : segment.Lined published delivered) (hsound : segment.Sound)
    {k : Nat} {offer : Offer} (hoffer : segment.offered k = some offer)
    (hfirst : offer.sequenceId = delivered.length + 1)
    (hlast : after.control.lastSequenceId = segment.control.lastSequenceId)
    (hoffered : after.offered = Function.update segment.offered k none) :
    after.Lined published ((offer.content, offer.sequenceId) :: delivered) where
  last := hlast.trans h.last
  inOrder := by
    have hcontent := (h.offered hoffer).2.2
    rw [hfirst, Nat.add_sub_cancel] at hcontent
    have hnext : (published.reverse.zipIdx 1)[delivered.reverse.length]? =
        some (offer.content, offer.sequenceId) := by
      rw [List.getElem?_zipIdx, List.length_reverse, hcontent, hfirst, Nat.add_comm]
      rfl
    obtain ⟨hlt, hnext⟩ := List.getElem?_eq_some_iff.mp hnext
    rw [List.reverse_cons, List.prefix_iff_eq_take.mp h.inOrder, ← hnext,
      List.take_append_getElem]
    exact List.take_prefix ..
  offered {j other} hother := by
    have hj : j ≠ k := by
      rintro rfl
      rw [hoffered, Function.update_self] at hother
      cases hother
    rw [hoffered, Function.update_of_ne hj] at hother
    obtain ⟨hany, hnew, hcontent⟩ := h.offered hother
    have hne : other.sequenceId ≠ offer.sequenceId := fun hid =>
      hj (hsound.eq_of_offered hother hoffer (Nat.zero_lt_of_lt hnew) hid)
    exact ⟨hany, by rw [List.length_cons]; omega, hcontent⟩
  waiting {n} hn hlt := by
    rw [List.length_cons] at hn
    obtain ⟨j, other, hother, hid⟩ := h.waiting (Nat.le_of_succ_le hn) hlt
    have hj : j ≠ k := by
      rintro rfl
      rw [hoffer] at hother
      cases hother
      omega
    exact ⟨j, other, by rw [hoffered, Function.update_of_ne hj, hother], hid⟩

/-- Whatever happens to the offers, the rest of the queue is still to come. -/
theorem Lined.pass (h : segment.Lined published delivered) (hsound : segment.Sound)
    {publication : Option Bytes} {claim : Option Nat}
    (hpassing : segment.Passing after publication claim) :
    after.Lined (publication.toList ++ published)
      ((claim.map after.recordAt).toList ++ delivered) := by
  cases hpassing with
  | still hlast hoffered => exact h.still hlast hoffered
  | published hnone hlast hoffered => exact h.published_cons hnone hlast hoffered
  | claimed hoffer hleast hlast hoffered hs' hid hcontent =>
    rw [Option.map_some, recordAt_eq hs', hid, hcontent]
    exact h.delivered_cons hsound hoffer (h.sequenceId_of_least hoffer hleast) hlast hoffered

theorem Lined.lt_of_claimed (h : segment.Lined published delivered) {publication : Option Bytes}
    {k : Nat} (hpassing : segment.Passing after publication (some k)) :
    delivered.length < published.length := by
  cases hpassing with
  | claimed hoffer =>
    obtain ⟨hnew, hold⟩ := h.bounds hoffer
    exact hnew.trans_le hold

end Lined

/-! ## Operations on the queue -/

namespace Mapping

variable {m after : Mapping} {operation : Operation} {answer : Answer} {k : Nat} {s s' : Slot}

/-- Where records are gone once read, only force does away with one. -/
theorem Change.isFilled (h : m.Change operation answer k s s')
    (hdestructive : m.me.destructive = true) (hforce : operation.isForced = false)
    (hfull : s.state = .full) : s'.isFilled = true := by
  have hkeep := dropsRecords_of_destructive hdestructive
  have hfilled : s.isFilled = true := Slot.isFilled_eq_true_iff.mpr (.inl hfull)
  cases h with
  | kept | checked | read => exact hfilled
  | wrote _ hwriting => simp [hfull] at hwriting
  | released _ hreading => simp [hfull] at hreading
  | swept => rwa [Slot.swept_of_full hkeep hfull]
  | reset _ hs' =>
    rcases (Slot.reclaimed?_cases hs').2 with ⟨h, -⟩ | ⟨h, -⟩ | ⟨-, -, h, -⟩
    · simp [hfull] at h
    · simp [hfull] at h
    · simp [hkeep] at h
  | @claimedForWriting overwrite h _ hfree =>
    subst h
    obtain rfl : overwrite = false := by simpa [Operation.isForced] using hforce
    rw [Slot.swept_of_full hkeep hfull] at hfree
    simp [Slot.isWritable, hfull] at hfree
  | claimedForReading | published => rfl
  | evicted h =>
    rw [h] at hforce
    cases hforce

/-- What an operation neither publishes nor claims is on offer as before, as long as
no record is done away with or given back. -/
theorem Change.offer? (h : m.Change operation answer k s s')
    (hdestructive : m.me.destructive = true) (hfull : s.state = .full → s'.isFilled = true)
    (hreading : s.state = .reading → s'.state ≠ .full)
    (hpublish : ∀ destination, operation ≠ .publish k destination)
    (hclaim : operation.claimed? answer ≠ some k) : s'.offer? = s.offer? := by
  have hkeep := dropsRecords_of_destructive hdestructive
  -- A slot that is full neither before nor after has nothing on offer.
  have hemptied : s'.isFilled = false → s'.offer? = s.offer? := fun hnot => by
    refine Slot.offer?_eq_of_not_full (fun h => ?_) fun h => ?_
    · rw [hfull h] at hnot
      cases hnot
    · simp [Slot.isFilled, h] at hnot
  cases h with
  | kept | checked => rfl
  | wrote _ hwriting =>
    have hnot : s.state ≠ .full := by simp [hwriting]
    exact Slot.offer?_eq_of_not_full hnot hnot
  | read _ hread =>
    have hnot : s.state ≠ .full := by simp [hread]
    exact Slot.offer?_eq_of_not_full hnot hnot
  | swept => exact Slot.offer?_swept hkeep hreading
  | reset _ hs' => exact Slot.offer?_reclaimed hkeep hs' hreading
  | claimedForWriting | evicted => exact hemptied rfl
  | claimedForReading h hanswer =>
    exact absurd (Operation.claimed?_eq_some_iff.mpr ⟨h, hanswer⟩) hclaim
  | published h => exact absurd h (hpublish _)
  | released _ hread =>
    rw [Mapping.released_of_gone hdestructive]
    exact Slot.offer?_eq_of_not_full (by simp [hread]) (by simp)

/-- An operation that treats the records, which are gone once read, as a queue: what
it publishes is for all, and it neither does away with a record nor gives one back. A
reader that has a record reclaimed may claim it at once, which counts as giving it
back. -/
structure Queues (m : Mapping) (operation : Operation) (answer : Answer) (after : Mapping) :
    Prop where
  destructive : m.me.destructive = true
  shared : ∀ {k : Nat} {destination : Destination}, operation = .publish k destination →
    answer = .flag true → destination = .any
  full : ∀ {k : Nat} {s s' : Slot}, m.slots[k]? = some s → after.slots[k]? = some s' →
    s.state = .full → s'.isFilled = true
  reading : ∀ {k : Nat} {s s' : Slot}, m.slots[k]? = some s → after.slots[k]? = some s' →
    s.state = .reading → s'.state ≠ .full ∧ operation.claimed? answer ≠ some k

theorem Queues.offered_eq (h : m.Queues operation answer after)
    (hmove : m.Move operation answer after) {j : Nat}
    (hpublish : ∀ destination, operation ≠ .publish j destination)
    (hclaim : operation.claimed? answer ≠ some j) :
    after.segment.offered j = m.segment.offered j := by
  refine offered_congr hmove.kept.segment.length fun {s s'} hs hs' => ?_
  obtain ⟨t, ht, hchange⟩ := hmove.exists_change hs'
  cases ht.symm.trans hs
  exact hchange.offer? h.destructive (h.full hs hs')
    (fun hreading => (h.reading hs hs' hreading).1) hpublish hclaim

theorem Queues.passing_of_publish {destination : Destination}
    (h : m.Queues (.publish k destination) answer after)
    (hmove : m.Move (.publish k destination) answer after) :
    m.segment.Passing after.segment
      ((Operation.publish k destination).publication? m.segment answer) none := by
  cases hmove with
  | idle hidle =>
    obtain rfl : answer = .flag false := by simpa [Operation.isIdle] using hidle
    exact .still rfl rfl
  | wrote hkind | read hkind | declared hkind => cases hkind
  | @published _ s _ hs hword =>
    obtain rfl := h.shared rfl rfl
    have hpublication : (Operation.publish k .any).publication? m.segment (.flag true) =
        some s.content := by
      rw [Operation.publication?, recordAt_eq hs]
    have hnone : m.segment.offered k = none := by
      rw [offered, show m.segment.slots[k]? = some s from hs, Option.bind_some]
      exact Slot.offer?_of_not_full (by simp [Slot.state, hword])
    rw [hpublication]
    refine .published (k := k) hnone rfl (funext fun j => ?_)
    by_cases hj : j = k
    · subst hj
      obtain ⟨hlt, -⟩ := List.getElem?_eq_some_iff.mp hs
      rw [Function.update_self, offered]
      exact congrArg (·.bind Slot.offer?) (List.getElem?_set_self hlt)
    · rw [Function.update_of_ne hj]
      have hother : ∀ destination, Operation.publish k .any ≠ .publish j destination :=
        fun destination heq => hj (by cases heq; rfl)
      exact h.offered_eq (.published hs hword) hother (by simp [Operation.claimed?])

theorem Queues.passing_of_claim (h : m.Queues operation answer after)
    (hmove : m.Move operation answer after) (hclaim : operation.claimed? answer = some k) :
    m.segment.Passing after.segment none (some k) := by
  obtain ⟨s, hs, hread, hleast, hs'⟩ := hmove.exists_claimed hclaim
  obtain ⟨rfl, rfl⟩ := Operation.claimed?_eq_some_iff.mp hclaim
  have hkeep := dropsRecords_of_destructive h.destructive
  simp only [isReadable, Slot.isAddressedTo, Bool.and_eq_true, beq_iff_eq] at hread
  have hoffer : m.segment.offered k = some ⟨(s.swept m.staleness).sequenceId,
      (s.swept m.staleness).owner, (s.swept m.staleness).content⟩ := by
    rw [offered, show m.segment.slots[k]? = some s from hs, Option.bind_some,
      ← Slot.offer?_of_full hread.1.1]
    exact (Slot.offer?_swept hkeep
      fun hreading => absurd rfl (h.reading hs hs' hreading).2).symm
  refine .claimed hoffer (fun j other hother hany => ?_)
    (hmove.lastSequenceId fun k destination heq => by cases heq) (funext fun j => ?_) hs' rfl rfl
  · obtain ⟨t, ht, hoffer'⟩ := Option.bind_eq_some_iff.mp hother
    obtain ⟨hfull, rfl⟩ := Slot.offer?_eq_some_iff.mp hoffer'
    have hle := hleast j t ht
    rw [Slot.swept_of_full hkeep hfull] at hle
    exact hle (m.isReadable_of_any h.destructive hfull hany)
  · by_cases hj : j = k
    · subst hj
      rw [Function.update_self, offered, show after.segment.slots[j]? = _ from hs']
      rfl
    · rw [Function.update_of_ne hj]
      exact h.offered_eq hmove (fun destination heq => by cases heq)
        (by simpa [Operation.claimed?] using Ne.symm hj)

/-- The offers stay, or one is added, or the first is taken. -/
theorem Queues.passing (h : m.Queues operation answer after)
    (hmove : m.Move operation answer after) :
    m.segment.Passing after.segment (operation.publication? m.segment answer)
      (operation.claimed? answer) := by
  by_cases hpublish : ∃ k destination, operation = .publish k destination
  · obtain ⟨k, destination, rfl⟩ := hpublish
    exact h.passing_of_publish hmove
  have hother : ∀ {j : Nat} (destination : Destination), operation ≠ .publish j destination :=
    fun destination heq => hpublish ⟨_, destination, heq⟩
  have hpublication : operation.publication? m.segment answer = none := by
    cases operation with
    | publish k destination => exact absurd rfl (hother destination)
    | _ => rfl
  rw [hpublication]
  cases hclaim : operation.claimed? answer with
  | some k => exact h.passing_of_claim hmove hclaim
  | none =>
    exact .still (hmove.lastSequenceId fun _ => hother)
      (funext fun j => h.offered_eq hmove hother (by simp [hclaim]))

theorem claimForReading_ne_none (hdestructive : m.me.destructive = true) {offer : Offer}
    (hoffer : m.segment.offered k = some offer) (hany : offer.owner = noOwner) :
    m.claimForReading.1 ≠ none := by
  have hkeep := dropsRecords_of_destructive hdestructive
  obtain ⟨s, hs, hsoffer⟩ := Option.bind_eq_some_iff.mp hoffer
  obtain ⟨hfull, rfl⟩ := Slot.offer?_eq_some_iff.mp hsoffer
  rcases m.claimForReading_cases with ⟨-, hidle⟩ | ⟨slot, t, -, -, -, hsome⟩
  · have hread := hidle k s hs
    rw [Slot.swept_of_full hkeep hfull, m.isReadable_of_any hdestructive hfull hany] at hread
    cases hread
  · rw [hsome]
    exact Option.some_ne_none slot

end Mapping

end Segment

end SlotTransport
