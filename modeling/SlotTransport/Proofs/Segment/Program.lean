/-
The slot protocol as functions. A program stores one thing after another and may
refuse in between; here every operation of the protocol is written as a function that
either refuses or tells what the mapping is in the end, and the program of the operation
is shown to come to that (`Program.on_write` and its like): a program that refuses has
stored nothing. The argument is one for all of them. A program asks first, and while it
asks the mapping stays as it is (`on_require_bind`); once it stores something in a slot
that it found, it goes through.
-/
import SlotTransport.Proofs.Segment.Slot
import SlotTransport.Segment.Claim
import SlotTransport.Segment.Publish

namespace SlotTransport

section Except

variable {ε α β : Type}

theorem map_eq_ok_iff {x : Except ε α} {f : α → β} {b : β} :
    x.map f = .ok b ↔ ∃ a, x = .ok a ∧ f a = b := by
  cases x <;> simp [Except.map]

theorem bind_eq_ok_iff {x : Except ε α} {f : α → Except ε β} {b : β} :
    (x >>= f) = .ok b ↔ ∃ a, x = .ok a ∧ f a = .ok b := by
  cases x <;> simp [bind, Except.bind]

theorem map_bind_eq {γ : Type} (x : Except ε α) (f : α → Except ε β) (g : β → γ) :
    (x >>= f).map g = x >>= fun a => (f a).map g := by
  cases x <;> rfl

end Except

namespace Segment

/-! ## Steps of the protocol -/

namespace Mapping

def write (m : Mapping) (slot : Nat) (data : Bytes) : Except Violation Mapping := do
  let s ← m.heldWithRoom slot data.length
  .ok (m.touch slot (s.append data))

def skipWriting (m : Mapping) (slot len : Nat) : Except Violation Mapping := do
  let _ ← m.slotAt slot
  if len = 0 then .error (.misuse (.emptyWriteStep slot))
  else
    let s ← m.heldWithRoom slot len
    .ok (m.touch slot (s.reserve len))

def rewindWriting (m : Mapping) (slot : Nat) : Except Violation Mapping := do
  let s ← m.held slot .writing
  .ok (m.touch slot { s with writePos := 0 })

def read (m : Mapping) (slot len : Nat) : Except Violation ((Bytes × Bool) × Mapping) := do
  let s ← m.heldWithUnread slot len
  let next := s.advance len
  .ok ((m.segment.bytesAt slot s.readPos len, next.hasUnread), m.touch slot next)

def skipReading (m : Mapping) (slot len : Nat) : Except Violation (Bool × Mapping) := do
  let _ ← m.slotAt slot
  if len = 0 then .error (.misuse (.emptyReadStep slot))
  else
    let s ← m.heldWithUnread slot len
    let next := s.advance len
    .ok (next.hasUnread, m.touch slot next)

def rewindReading (m : Mapping) (slot : Nat) : Except Violation Mapping := do
  let s ← m.held slot .reading
  .ok (m.touch slot { s with readPos := 0 })

def check (m : Mapping) (slot : Nat) (expected : SlotState) :
    Except Violation (Bool × Mapping) := do
  let s ← m.slotAt slot
  let mine := s.owner = m.me.id ∨ (s.owner = noOwner ∧ (s.state = .full ∨ s.state = .empty))
  if s.state = expected ∧ mine then .ok (true, m.touch slot s)
  else .ok (false, m)

def publish (m : Mapping) (slot : Nat) (destination : Destination) :
    Except Violation (Bool × Mapping) := do
  let s ← m.slotAt slot
  if s.word = .of .writing m.me.id then
    let sequenceId := m.segment.control.lastSequenceId + 1
    .ok (true, (m.touch slot (s.published sequenceId destination.owner)).withControl
      { m.segment.control with lastSequenceId := sequenceId })
  else .ok (false, m)

/-- What a release makes of a slot: empty, where a record is gone once read or
all readers have released it, and else full for the readers to come. -/
def released (m : Mapping) (s : Slot) : Slot :=
  if m.me.destructive || decide (m.segment.control.readers ≤ s.releases + 1) then s.freed
  else { s.returned with releases := s.releases + 1 }

def release (m : Mapping) (slot : Nat) : Except Violation Mapping := do
  let s ← m.held slot .reading
  .ok (m.touch slot (m.released s))

def evict (m : Mapping) (slot : Nat) : Except Violation Mapping := do
  let s ← m.disposable slot
  .ok (m.touch slot s.freed)

def reset (m : Mapping) (slot : Nat) : Except Violation (Bool × Mapping) := do
  let s ← m.slotAt slot
  match s.reclaimed? m.staleness (s.owner == m.me.id) with
  | some s => .ok (true, m.store slot s)
  | none => .ok (false, m)

/-! ## Slots that were found -/

theorem heldWithRoom_eq_ok_iff {m : Mapping} {slot len : Nat} {s : Slot} :
    m.heldWithRoom slot len = .ok s ↔
      (m.slots[slot]? = some s ∧ s.state = .writing ∧ s.owner = m.me.id) ∧
        Word.wrap (s.writePos + len) ≤ m.segment.slotSize := by
  simp only [heldWithRoom, bind_eq_ok_iff, held_eq_ok_iff]
  constructor
  · rintro ⟨t, ht, h⟩
    split at h
    · cases h
    · rename_i hroom
      cases h
      exact ⟨ht, Nat.not_lt.mp hroom⟩
  · rintro ⟨hs, hroom⟩
    exact ⟨s, hs, by rw [if_neg (Nat.not_lt.mpr hroom)]⟩

theorem heldWithUnread_eq_ok_iff {m : Mapping} {slot len : Nat} {s : Slot} :
    m.heldWithUnread slot len = .ok s ↔
      (m.slots[slot]? = some s ∧ s.state = .reading ∧ s.owner = m.me.id) ∧ len ≤ s.unread := by
  simp only [heldWithUnread, bind_eq_ok_iff, held_eq_ok_iff]
  constructor
  · rintro ⟨t, ht, h⟩
    split at h
    · cases h
    · rename_i hunread
      cases h
      exact ⟨ht, Nat.not_lt.mp hunread⟩
  · rintro ⟨hs, hunread⟩
    exact ⟨s, hs, by rw [if_neg (Nat.not_lt.mpr hunread)]⟩

theorem disposable_eq_ok_iff {m : Mapping} {slot : Nat} {s : Slot} :
    m.disposable slot = .ok s ↔
      m.slots[slot]? = some s ∧ (m.me.id = creatorId ∨ s.owner = m.me.id) := by
  simp only [disposable, bind_eq_ok_iff, slotAt_eq_ok_iff]
  constructor
  · rintro ⟨t, ht, h⟩
    split at h
    · cases h
    · rename_i hmay
      cases h
      exact ⟨ht, by simpa [Decidable.or_iff_not_not_and_not] using hmay⟩
  · rintro ⟨hs, hmay⟩
    exact ⟨s, hs, by rw [if_neg (by simpa [Decidable.or_iff_not_not_and_not] using hmay)]⟩

/-! ## Stores in one slot -/

variable {m : Mapping} {slot : Nat} {s : Slot}

theorem alter_eq_store (hs : m.slots[slot]? = some s) (f : Slot → Slot) :
    m.alter slot f = m.store slot (f s) := by
  obtain ⟨hlt, rfl⟩ := List.getElem?_eq_some_iff.mp hs
  refine congrArg m.withSlots (List.ext_getElem? fun k => ?_)
  rw [List.getElem?_modify, List.getElem?_set]
  split
  · subst slot
    simp [hlt]
  · simp

theorem store_store (m : Mapping) (k : Nat) (a b : Slot) :
    (m.store k a).store k b = m.store k b := by
  simp [store, withSlots, slots, List.set_set]

theorem store_self (hs : m.slots[k]? = some s) : m.store k s = m := by
  obtain ⟨hlt, rfl⟩ := List.getElem?_eq_some_iff.mp hs
  simp [store, withSlots, slots]

theorem slots_store_self (hs : m.slots[slot]? = some s) (s' : Slot) :
    (m.store slot s').slots[slot]? = some s' := by
  obtain ⟨hlt, -⟩ := List.getElem?_eq_some_iff.mp hs
  exact List.getElem?_set_self hlt

@[simp] theorem me_store (m : Mapping) (slot : Nat) (s : Slot) : (m.store slot s).me = m.me :=
  rfl

@[simp] theorem now_store (m : Mapping) (slot : Nat) (s : Slot) : (m.store slot s).now = m.now :=
  rfl

@[simp] theorem alter_store (m : Mapping) (slot : Nat) (s : Slot) (f : Slot → Slot) :
    (m.store slot s).alter slot f = m.store slot (f s) := by
  refine congrArg m.withSlots (List.ext_getElem? fun k => ?_)
  rw [List.getElem?_modify, slots_store, List.getElem?_set, List.getElem?_set]
  split
  · split <;> rfl
  · simp

end Mapping

/-! ## What comes of a program -/

namespace Program

variable {α β : Type} {m : Mapping}

@[simp] theorem on_pure (answer : α) (m : Mapping) :
    (pure answer : Program α).on m = (.ok answer, m) :=
  rfl

@[simp] theorem on_throw (breach : Violation) (m : Mapping) :
    (throw breach : Program α).on m = (.error breach, m) :=
  rfl

@[simp] theorem on_bind (program : Program α) (next : α → Program β) (m : Mapping) :
    (program >>= next).on m =
      match program.on m with
      | (.ok answer, after) => (next answer).on after
      | (.error breach, after) => (.error breach, after) := by
  show ExceptT.run (program >>= next) m = _
  rw [ExceptT.run_bind]
  show StateT.run (ExceptT.run program >>= _) m = _
  rw [StateT.run_bind]
  rcases h : program.on m with ⟨answer, after⟩
  have hrun : StateT.run (ExceptT.run program) m = (answer, after) := h
  rw [hrun]
  cases answer <;> rfl

@[simp] theorem on_map (f : α → β) (program : Program α) (m : Mapping) :
    (f <$> program).on m =
      match program.on m with
      | (.ok answer, after) => (.ok (f answer), after)
      | (.error breach, after) => (.error breach, after) := by
  rw [map_eq_pure_bind, on_bind]
  rfl

@[simp] theorem on_look (f : Mapping → α) (m : Mapping) : (look f).on m = (.ok (f m), m) :=
  rfl

@[simp] theorem on_require (f : Mapping → Except Violation α) (m : Mapping) :
    (require f).on m = (f m, m) :=
  rfl

@[simp] theorem on_advance (f : Mapping → α × Mapping) (m : Mapping) :
    (advance f).on m = (.ok (f m).1, (f m).2) :=
  rfl

@[simp] theorem on_alter (slot : Nat) (f : Slot → Slot) (m : Mapping) :
    (alter slot f).on m = (.ok (), m.alter slot f) :=
  rfl

@[simp] theorem on_govern (f : Control → Control) (m : Mapping) :
    (govern f).on m = (.ok (), m.withControl (f m.segment.control)) :=
  rfl

@[simp] theorem on_stamp (slot : Nat) (m : Mapping) :
    (stamp slot).on m = (.ok (), m.alter slot (·.touched m.now)) := by
  simp [stamp]

theorem on_exchange {slot : Nat} {s : Slot} {expected : StateWord}
    (hs : m.slots[slot]? = some s) (hword : s.word = expected) (word : StateWord) :
    (exchange slot expected word).on m = (.ok true, m.store slot { s with word := word }) := by
  simp [exchange, hs, hword, Mapping.alter_eq_store hs]

/-! ## Programs that ask before they store -/

/-- What comes of a program on a mapping if it stores nothing before it refuses. -/
def settled (m : Mapping) : Except Violation (α × Mapping) → Except Violation α × Mapping
  | .ok (answer, after) => (.ok answer, after)
  | .error breach => (.error breach, m)

@[simp] theorem settled_ok (m after : Mapping) (answer : α) :
    settled m (.ok (answer, after)) = (.ok answer, after) :=
  rfl

@[simp] theorem settled_error (m : Mapping) (breach : Violation) :
    (settled m (.error breach) : Except Violation α × Mapping) = (.error breach, m) :=
  rfl

theorem on_of_settled {program : Program α} {told : Except Violation (α × Mapping)} {answer : α}
    {after : Mapping} (h : program.on m = settled m told) (hok : told = .ok (answer, after)) :
    program.on m = (.ok answer, after) := by
  rw [h, hok, settled_ok]

theorem on_of_done {program : Program Unit} {told : Except Violation Mapping} {after : Mapping}
    (h : program.on m = settled m (told.map fun after => ((), after))) (hok : told = .ok after) :
    program.on m = (.ok (), after) := by
  rw [h, hok]
  rfl

theorem on_map_of_settled {program : Program α} {told : Except Violation (α × Mapping)}
    (h : program.on m = settled m told) (f : α → β) :
    (f <$> program).on m = settled m (told.map fun answered => (f answered.1, answered.2)) := by
  rw [on_map, h]
  cases told <;> rfl

theorem on_map_of_done {program : Program Unit} {told : Except Violation Mapping}
    (h : program.on m = settled m (told.map fun after => ((), after))) (f : Unit → β) :
    (f <$> program).on m = settled m (told.map fun after => (f (), after)) := by
  rw [on_map_of_settled h]
  cases told <;> rfl

theorem on_map_require (question : Mapping → Except Violation α) (f : α → β) (m : Mapping) :
    (f <$> require question).on m = settled m ((question m).map fun answer => (f answer, m)) := by
  rw [on_map, on_require]
  cases question m <;> rfl

/-- A program may ask before it goes on: what it asks leaves the mapping as it is, so
that a refusal is one before the first store. -/
theorem on_require_bind {question : Mapping → Except Violation α} {next : α → Program β}
    {f : α → Except Violation (β × Mapping)}
    (h : ∀ found, question m = .ok found → (next found).on m = settled m (f found)) :
    (require question >>= next).on m = settled m (question m >>= f) := by
  rw [on_bind, on_require]
  cases hquestion : question m with
  | error breach => rfl
  | ok found => exact h found hquestion

/-! ## The programs of the protocol -/

variable {slot : Nat} {s : Slot}

theorem on_alter_stamp (hs : m.slots[slot]? = some s) (f : Slot → Slot) :
    (do alter slot f; stamp slot).on m = (.ok (), m.touch slot (f s)) := by
  simp [Mapping.alter_eq_store hs, Mapping.touch]

theorem on_write (slot : Nat) (data : Bytes) (m : Mapping) :
    (write slot data).on m = settled m ((m.write slot data).map fun after => ((), after)) := by
  rw [write, Mapping.write, map_bind_eq]
  refine on_require_bind fun s hfound => ?_
  obtain ⟨⟨hs, -⟩, -⟩ := Mapping.heldWithRoom_eq_ok_iff.mp hfound
  simp [Mapping.alter_eq_store hs, Slot.reserve_filled, Mapping.touch, Except.map]

theorem on_skipWriting (slot len : Nat) (m : Mapping) :
    (skipWriting slot len).on m =
      settled m ((m.skipWriting slot len).map fun after => ((), after)) := by
  rw [skipWriting, Mapping.skipWriting, map_bind_eq]
  refine on_require_bind fun _ _ => ?_
  split
  · rfl
  · rw [map_bind_eq]
    refine on_require_bind fun s hfound => ?_
    obtain ⟨⟨hs, -⟩, -⟩ := Mapping.heldWithRoom_eq_ok_iff.mp hfound
    exact on_alter_stamp hs _

theorem on_rewindWriting (slot : Nat) (m : Mapping) :
    (rewindWriting slot).on m =
      settled m ((m.rewindWriting slot).map fun after => ((), after)) := by
  rw [rewindWriting, Mapping.rewindWriting, map_bind_eq]
  refine on_require_bind fun s hfound => ?_
  obtain ⟨hs, -⟩ := Mapping.held_eq_ok_iff.mp hfound
  exact on_alter_stamp hs _

theorem on_read (slot len : Nat) (m : Mapping) :
    (read slot len).on m = settled m (m.read slot len) := by
  rw [read, Mapping.read]
  refine on_require_bind fun s hfound => ?_
  obtain ⟨⟨hs, -⟩, -⟩ := Mapping.heldWithUnread_eq_ok_iff.mp hfound
  simp [Mapping.alter_eq_store hs, Mapping.touch]

theorem on_skipReading (slot len : Nat) (m : Mapping) :
    (skipReading slot len).on m = settled m (m.skipReading slot len) := by
  rw [skipReading, Mapping.skipReading]
  refine on_require_bind fun _ _ => ?_
  split
  · rfl
  · refine on_require_bind fun s hfound => ?_
    obtain ⟨⟨hs, -⟩, -⟩ := Mapping.heldWithUnread_eq_ok_iff.mp hfound
    simp [Mapping.alter_eq_store hs, Mapping.touch]

theorem on_rewindReading (slot : Nat) (m : Mapping) :
    (rewindReading slot).on m =
      settled m ((m.rewindReading slot).map fun after => ((), after)) := by
  rw [rewindReading, Mapping.rewindReading, map_bind_eq]
  refine on_require_bind fun s hfound => ?_
  obtain ⟨hs, -⟩ := Mapping.held_eq_ok_iff.mp hfound
  exact on_alter_stamp hs _

theorem on_check (slot : Nat) (expected : SlotState) (m : Mapping) :
    (check slot expected).on m = settled m (m.check slot expected) := by
  rw [check, Mapping.check]
  refine on_require_bind fun s hfound => ?_
  have hs := Mapping.slotAt_eq_ok_iff.mp hfound
  rw [on_bind, on_look]
  simp only
  split
  · simp [Mapping.alter_eq_store hs, Mapping.touch]
  · rfl

theorem on_publish (slot : Nat) (destination : Destination) (m : Mapping) :
    (publish slot destination).on m = settled m (m.publish slot destination) := by
  rw [publish, Mapping.publish]
  refine on_require_bind fun s hfound => ?_
  have hs := Mapping.slotAt_eq_ok_iff.mp hfound
  rw [on_bind, on_look]
  simp only
  split
  · have hcounted : (m.withControl { m.segment.control with
        lastSequenceId := m.segment.control.lastSequenceId + 1 }).slots[slot]? = some s := hs
    simp only [nextSequenceId, on_bind, on_look, on_govern, on_pure, on_alter, on_stamp,
      Mapping.alter_eq_store hcounted, Mapping.alter_store]
    refine (on_exchange (Mapping.slots_store_self hcounted _) ?_ _).trans ?_
    · rfl
    · rw [Mapping.store_store]
      rfl
  · rfl

theorem on_setBack (slot : Nat) (s : Slot) (word : StateWord) (m : Mapping) :
    (setBack slot word).on (m.store slot s) =
      (.ok (), m.store slot (if word = .free then s.cleared else { s with readPos := 0 })) := by
  simp only [setBack, on_bind, on_alter, Mapping.alter_store]
  by_cases hfree : word = .free <;> simp [hfree, Slot.cleared]

theorem on_letGo (hs : m.slots[slot]? = some s) {t : Slot} (ht : t.word = s.word)
    (word : StateWord) :
    (letGo slot s word).on (m.store slot t) =
      (.ok (), m.touch slot (if word = .free then t.freed
        else { t with word := word, readPos := 0 })) := by
  simp only [letGo, on_bind, on_setBack, on_stamp, Mapping.alter_store, Mapping.now_store]
  rw [on_exchange (Mapping.slots_store_self hs _) (by split <;> exact ht), Mapping.store_store]
  by_cases hfree : word = .free
  · simp only [hfree, if_true]
    rfl
  · simp only [hfree, if_false]
    rfl

theorem on_nextWord_of_free {force : Bool} (h : (m.me.destructive || force) = true) (slot : Nat) :
    (nextWord slot force).on m = (.ok .free, m) := by
  simp only [nextWord, on_bind, on_look, h, if_true, on_pure]

theorem on_nextWord_of_lasting (h : m.me.destructive = false) (hs : m.slots[slot]? = some s) :
    (nextWord slot false).on m =
      (.ok (if m.segment.control.readers ≤ s.releases + 1 then .free else .of .full noOwner),
        m.store slot { s with releases := s.releases + 1 }) := by
  simp only [nextWord, countRelease, on_bind, on_look, h, Bool.or_false, Bool.false_eq_true,
    if_false, on_alter, on_pure, Mapping.alter_eq_store hs, Mapping.slots_store_self hs]
  rfl

theorem on_release (slot : Nat) (m : Mapping) :
    (release slot).on m = settled m ((m.release slot).map fun after => ((), after)) := by
  rw [release, finish, Mapping.release, map_bind_eq]
  refine on_require_bind fun s hfound => ?_
  obtain ⟨hs, -⟩ := Mapping.held_eq_ok_iff.mp hfound
  rw [on_bind]
  cases hdestructive : m.me.destructive with
  | true =>
    have hlet := on_letGo hs (t := s) rfl .free
    rw [Mapping.store_self hs] at hlet
    rw [on_nextWord_of_free (by simp [hdestructive])]
    refine hlet.trans ?_
    simp [Mapping.released, hdestructive, Except.map]
  | false =>
    rw [on_nextWord_of_lasting hdestructive hs]
    refine (on_letGo hs ?_ _).trans ?_
    · rfl
    · by_cases hall : m.segment.control.readers ≤ s.releases + 1
      · simp only [hall, if_true, Mapping.released, hdestructive, Except.map]
        rfl
      · simp [hall, Mapping.released, hdestructive, Except.map]
        rfl

theorem on_evict (slot : Nat) (m : Mapping) :
    (evict slot).on m = settled m ((m.evict slot).map fun after => ((), after)) := by
  rw [evict, finish, Mapping.evict, map_bind_eq]
  refine on_require_bind fun s hfound => ?_
  obtain ⟨hs, -⟩ := Mapping.disposable_eq_ok_iff.mp hfound
  rw [on_bind, on_nextWord_of_free (by simp)]
  have hlet := on_letGo hs (t := s) rfl .free
  rw [Mapping.store_self hs] at hlet
  exact hlet

@[simp] theorem on_claimForWriting (overwrite : Bool) (m : Mapping) :
    (claimForWriting overwrite).on m =
      (.ok (m.claimForWriting overwrite).1, (m.claimForWriting overwrite).2) :=
  rfl

@[simp] theorem on_claimForReading (m : Mapping) :
    claimForReading.on m = (.ok m.claimForReading.1, m.claimForReading.2) :=
  rfl

theorem on_reset (slot : Nat) (m : Mapping) :
    (reset slot).on m = settled m (m.reset slot) := by
  rw [reset, Mapping.reset]
  refine on_require_bind fun s hfound => ?_
  have hs := Mapping.slotAt_eq_ok_iff.mp hfound
  rw [on_bind, on_look]
  cases s.reclaimed? m.staleness (s.owner == m.me.id) with
  | some reclaimed => simp [Mapping.alter_eq_store hs]
  | none => rfl

end Program

end Segment

end SlotTransport
