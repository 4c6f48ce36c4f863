/-
Operations: what an attached manager can do, as data. `Operation.perform` is
what a manager does, `Operation.program` what it does to the segment, one store after
another, and `Operation.apply` the step of the slot protocol behind it; `on_program`
says that a program that refuses has stored nothing, so that `on_perform` is the step.
What is done by way of a lease can be done without: `LeaseOperation.on_perform_snd`.
`Operation.note?` is what an operation comes to, as far as accounts are kept.
-/
import SlotTransport.Lease
import SlotTransport.Proofs.Manager.Connection
import SlotTransport.Proofs.Segment.Program

namespace SlotTransport

open Segment

/-! ## Actions -/

namespace Action

variable {σ ε α β : Type}

@[simp] theorem on_map (f : α → β) (action : Action σ ε α) (own : σ) (host : Host) :
    (f <$> action).on own host = ((action.on own host).1.map f, (action.on own host).2) := by
  show ExceptT.run (f <$> action) (own, host) = _
  rw [ExceptT.run_map]
  rfl

theorem on_bind (action : Action σ ε α) (next : α → Action σ ε β) (own : σ) (host : Host) :
    (action >>= next).on own host =
      match action.on own host with
      | (.ok answer, own, host) => (next answer).on own host
      | (.error cause, own, host) => (.error cause, own, host) := by
  show ExceptT.run (action >>= next) (own, host) = _
  rw [ExceptT.run_bind]
  show StateT.run (ExceptT.run action >>= _) _ = _
  rw [StateT.run_bind]
  rcases h : action.on own host with ⟨answer, own', host'⟩
  have hrun : StateT.run (ExceptT.run action) (own, host) = (answer, own', host') := h
  rw [hrun]
  cases answer <;> rfl

end Action

namespace Manager

variable {α β : Type}

theorem on_map_guarded (f : α → β) (op : Program α) (manager : Manager) (host : Host) :
    (f <$> guarded op).on manager host = (guarded (f <$> op)).on manager host := by
  rw [Action.on_map]
  simp only [guarded, Action.on_of]
  cases manager.mapping? host with
  | none => rfl
  | some m =>
    simp only [Program.on_map]
    rcases op.on m with ⟨answer | breach, after⟩ <;> rfl

/-- A step of the slot protocol, taken by a manager. Without an attachment there is
none; if it breaches the protocol, all that comes of it is that the attachment ends. -/
def step (f : Mapping → Except Violation (α × Mapping)) : Action Manager Segment.Error α :=
  .of fun manager host =>
    match manager.mapping? host with
    | none => (.error .notAttached, manager, host)
    | some m =>
      match f m with
      | .ok (answer, after) =>
        (.ok answer, { manager with attachment := some after.me },
          host.store m.me.object after.segment)
      | .error breach => (.error (.violation breach), manager.shutdown false host)

/-- An operation that stores nothing before it refuses is a step. -/
theorem on_guarded_of_settled {op : Program α} {f : Mapping → Except Violation (α × Mapping)}
    (h : ∀ m, op.on m = Program.settled m (f m)) (manager : Manager) (host : Host) :
    (guarded op).on manager host = (step f).on manager host := by
  simp only [guarded, step, Action.on_of]
  cases hmapping : manager.mapping? host with
  | none => rfl
  | some m =>
    simp only [h m]
    cases f m with
    | ok told => rfl
    | error breach =>
      -- What is stored again before the manager leaves is what it sees.
      simp only [Program.settled_error]
      rw [shutdown_eq false (mapping?_stored hmapping) rfl, shutdown_eq false hmapping rfl,
        Host.store_store]

end Manager

/-! ## Operations -/

/-- What an operation tells if it does not fail. -/
inductive Answer where
  | done
  | slot (slot : Option Nat)
  | flag (flag : Bool)
  | bytes (bytes : Bytes) (more : Bool)
  | content (bytes : Bytes)
  | count (count : Nat)
  | state (state : SlotState)
  deriving DecidableEq, Repr

/-- What an attached manager can do. -/
inductive Operation where
  | claimForWriting (overwrite : Bool)
  | claimForReading
  | reset (slot : Nat)
  | write (slot : Nat) (data : Bytes)
  | skipWriting (slot len : Nat)
  | rewindWriting (slot : Nat)
  | read (slot len : Nat)
  | skipReading (slot len : Nat)
  | rewindReading (slot : Nat)
  | view (slot : Nat)
  | hasUnread (slot : Nat)
  | written (slot : Nat)
  | stateOf (slot : Nat)
  | check (slot : Nat) (expected : SlotState)
  | publish (slot : Nat) (destination : Destination)
  | release (slot : Nat)
  | evict (slot : Nat)
  | setRank (rank : Int32)
  | endData
  | snapshot
  deriving DecidableEq, Repr

namespace Operation

/-- The operation as an action of a manager. Of a snapshot only that it was
taken is told. -/
def perform : Operation → Action Manager Segment.Error Answer
  | claimForWriting overwrite => .slot <$> Manager.claimForWriting overwrite
  | claimForReading => .slot <$> Manager.claimForReading
  | reset slot => .flag <$> Manager.reset slot
  | write slot data => (fun _ => .done) <$> Manager.write slot data
  | skipWriting slot len => (fun _ => .done) <$> Manager.skipWriting slot len
  | rewindWriting slot => (fun _ => .done) <$> Manager.rewindWriting slot
  | read slot len => (fun got => .bytes got.1 got.2) <$> Manager.read slot len
  | skipReading slot len => .flag <$> Manager.skipReading slot len
  | rewindReading slot => (fun _ => .done) <$> Manager.rewindReading slot
  | view slot => .content <$> Manager.view slot
  | hasUnread slot => .flag <$> Manager.hasUnread slot
  | written slot => .count <$> Manager.written slot
  | stateOf slot => .state <$> Manager.stateOf slot
  | check slot expected => .flag <$> Manager.check slot expected
  | publish slot destination => .flag <$> Manager.publish slot destination
  | release slot => (fun _ => .done) <$> Manager.release slot
  | evict slot => (fun _ => .done) <$> Manager.evict slot
  | setRank rank => (fun _ => .done) <$> Manager.setRank rank
  | endData => (fun _ => .done) <$> Manager.endData
  | snapshot => (fun _ => .done) <$> Manager.snapshot

/-- What the operation does to the segment, one thing after another. -/
def program : Operation → Program Answer
  | claimForWriting overwrite => .slot <$> Program.claimForWriting overwrite
  | claimForReading => .slot <$> Program.claimForReading
  | reset slot => .flag <$> Program.reset slot
  | write slot data => (fun _ => .done) <$> Program.write slot data
  | skipWriting slot len => (fun _ => .done) <$> Program.skipWriting slot len
  | rewindWriting slot => (fun _ => .done) <$> Program.rewindWriting slot
  | read slot len => (fun got => .bytes got.1 got.2) <$> Program.read slot len
  | skipReading slot len => .flag <$> Program.skipReading slot len
  | rewindReading slot => (fun _ => .done) <$> Program.rewindReading slot
  | view slot => .content <$> Program.require (·.view slot)
  | hasUnread slot => .flag <$> Program.require (·.hasUnread slot)
  | written slot => .count <$> Program.require (·.written slot)
  | stateOf slot => .state <$> Program.require (·.stateOf slot)
  | check slot expected => .flag <$> Program.check slot expected
  | publish slot destination => .flag <$> Program.publish slot destination
  | release slot => (fun _ => .done) <$> Program.release slot
  | evict slot => (fun _ => .done) <$> Program.evict slot
  | setRank rank => (fun _ => .done) <$> Program.govern ({ · with rank := rank })
  | endData => (fun _ => .done) <$> Program.govern ({ · with endOfData := 1 })
  | snapshot => pure .done

/-- The operation as a step of the slot protocol. -/
def apply (m : Mapping) : Operation → Except Violation (Answer × Mapping)
  | claimForWriting overwrite =>
    .ok (.slot (m.claimForWriting overwrite).1, (m.claimForWriting overwrite).2)
  | claimForReading => .ok (.slot m.claimForReading.1, m.claimForReading.2)
  | reset slot => (m.reset slot).map fun (changed, after) => (.flag changed, after)
  | write slot data => (m.write slot data).map fun after => (.done, after)
  | skipWriting slot len => (m.skipWriting slot len).map fun after => (.done, after)
  | rewindWriting slot => (m.rewindWriting slot).map fun after => (.done, after)
  | read slot len => (m.read slot len).map fun (got, after) => (.bytes got.1 got.2, after)
  | skipReading slot len => (m.skipReading slot len).map fun (more, after) => (.flag more, after)
  | rewindReading slot => (m.rewindReading slot).map fun after => (.done, after)
  | view slot => (m.view slot).map fun content => (.content content, m)
  | hasUnread slot => (m.hasUnread slot).map fun more => (.flag more, m)
  | written slot => (m.written slot).map fun count => (.count count, m)
  | stateOf slot => (m.stateOf slot).map fun state => (.state state, m)
  | check slot expected => (m.check slot expected).map fun (found, after) => (.flag found, after)
  | publish slot destination =>
    (m.publish slot destination).map fun (published, after) => (.flag published, after)
  | release slot => (m.release slot).map fun after => (.done, after)
  | evict slot => (m.evict slot).map fun after => (.done, after)
  | setRank rank => .ok (.done, m.withControl { m.segment.control with rank := rank })
  | endData => .ok (.done, m.withControl { m.segment.control with endOfData := 1 })
  | snapshot => .ok (.done, m)

end Operation

/-- What can be done with a slot leased for writing. -/
inductive WriteLease.Use where
  | write (data : Bytes)
  | skip (len : Nat)
  | rewind
  | written
  | remaining
  | commit (destination : Destination)
  | abandon
  | drop
  deriving DecidableEq, Repr

/-- What can be done with a slot leased for reading. -/
inductive ReadLease.Use where
  | read (len : Nat)
  | skip (len : Nat)
  | rewind
  | size
  | isEmpty
  | hasMore
  | isHeld
  | view
  | release
  | drop
  deriving DecidableEq, Repr

/-- What an attached manager can do by way of leases. -/
inductive LeaseOperation where
  | leaseForWriting (overwrite : Bool)
  | leaseForReading
  | onWriting (lease : WriteLease) (use : WriteLease.Use)
  | onReading (lease : ReadLease) (use : ReadLease.Use)
  deriving DecidableEq, Repr

namespace LeaseOperation

/-- The operation as an action of a manager, whatever it tells. -/
def perform : LeaseOperation → Action Manager Segment.Error Unit
  | leaseForWriting overwrite => (fun _ => ()) <$> Manager.leaseForWriting overwrite
  | leaseForReading => (fun _ => ()) <$> Manager.leaseForReading
  | onWriting lease (.write data) => lease.write data
  | onWriting lease (.skip len) => lease.skip len
  | onWriting lease .rewind => lease.rewind
  | onWriting lease .written => (fun _ => ()) <$> lease.written
  | onWriting lease .remaining => (fun _ => ()) <$> lease.remaining
  | onWriting lease (.commit destination) => (fun _ => ()) <$> lease.commit destination
  | onWriting lease .abandon => (fun _ => ()) <$> lease.abandon
  | onWriting lease .drop => lease.drop
  | onReading lease (.read len) => (fun _ => ()) <$> lease.read len
  | onReading lease (.skip len) => (fun _ => ()) <$> lease.skip len
  | onReading lease .rewind => lease.rewind
  | onReading lease .size => (fun _ => ()) <$> lease.size
  | onReading lease .isEmpty => (fun _ => ()) <$> lease.isEmpty
  | onReading lease .hasMore => (fun _ => ()) <$> lease.hasMore
  | onReading lease .isHeld => (fun _ => ()) <$> lease.isHeld
  | onReading lease .view => (fun _ => ()) <$> lease.view
  | onReading lease .release => lease.release
  | onReading lease .drop => lease.drop

/-- The operation that does the same without a lease. -/
def plain : LeaseOperation → Operation
  | leaseForWriting overwrite => .claimForWriting overwrite
  | leaseForReading => .claimForReading
  | onWriting lease (.write data) => .write lease.slot data
  | onWriting lease (.skip len) => .skipWriting lease.slot len
  | onWriting lease .rewind => .rewindWriting lease.slot
  | onWriting lease .written | onWriting lease .remaining => .written lease.slot
  | onWriting lease (.commit destination) => .publish lease.slot destination
  | onWriting lease .abandon | onWriting lease .drop => .reset lease.slot
  | onReading lease (.read len) => .read lease.slot len
  | onReading lease (.skip len) => .skipReading lease.slot len
  | onReading lease .rewind => .rewindReading lease.slot
  | onReading lease .size | onReading lease .isEmpty => .written lease.slot
  | onReading lease .hasMore => .hasUnread lease.slot
  | onReading lease .isHeld => .check lease.slot .reading
  | onReading lease .view => .view lease.slot
  | onReading lease .release => .release lease.slot
  | onReading lease .drop => .reset lease.slot

end LeaseOperation

/-! ## What stands behind an operation -/

theorem Operation.on_perform_guarded (operation : Operation) (manager : Manager) (host : Host) :
    operation.perform.on manager host = (Manager.guarded operation.program).on manager host := by
  cases operation with
  | snapshot =>
    simp only [perform, program, Action.on_map, Manager.snapshot, Manager.query, Manager.guarded,
      Action.on_of]
    cases manager.mapping? host <;> rfl
  | view | hasUnread | written | stateOf =>
    simp only [perform, program, Manager.view, Manager.hasUnread, Manager.written,
      Manager.stateOf, Manager.query, Manager.on_map_guarded]
  | _ => exact Manager.on_map_guarded _ _ manager host

/-- **No operation stores anything before it refuses.** -/
theorem Operation.on_program (operation : Operation) (m : Mapping) :
    operation.program.on m = Program.settled m (operation.apply m) := by
  cases operation with
  | claimForWriting | claimForReading | setRank | endData | snapshot => rfl
  | reset slot => exact Program.on_map_of_settled (Program.on_reset slot m) _
  | read slot len => exact Program.on_map_of_settled (Program.on_read slot len m) _
  | skipReading slot len => exact Program.on_map_of_settled (Program.on_skipReading slot len m) _
  | check slot expected => exact Program.on_map_of_settled (Program.on_check slot expected m) _
  | publish slot destination =>
    exact Program.on_map_of_settled (Program.on_publish slot destination m) _
  | view | hasUnread | written | stateOf => exact Program.on_map_require _ _ m
  | write slot data => exact Program.on_map_of_done (Program.on_write slot data m) _
  | skipWriting slot len => exact Program.on_map_of_done (Program.on_skipWriting slot len m) _
  | rewindWriting slot => exact Program.on_map_of_done (Program.on_rewindWriting slot m) _
  | rewindReading slot => exact Program.on_map_of_done (Program.on_rewindReading slot m) _
  | release slot => exact Program.on_map_of_done (Program.on_release slot m) _
  | evict slot => exact Program.on_map_of_done (Program.on_evict slot m) _

theorem Operation.on_perform (operation : Operation) (manager : Manager) (host : Host) :
    operation.perform.on manager host = (Manager.step operation.apply).on manager host :=
  (operation.on_perform_guarded manager host).trans
    (Manager.on_guarded_of_settled operation.on_program manager host)

theorem LeaseOperation.on_perform_snd (operation : LeaseOperation) (manager : Manager)
    (host : Host) :
    (operation.perform.on manager host).2 = (operation.plain.perform.on manager host).2 := by
  cases operation with
  | leaseForWriting overwrite =>
    simp only [perform, plain, Operation.perform, Manager.leaseForWriting, bind_pure_comp,
      Action.on_map]
  | leaseForReading =>
    simp only [perform, plain, Operation.perform, Manager.leaseForReading, bind_pure_comp,
      Action.on_map]
  | onWriting lease use =>
    cases use with
    | remaining =>
      simp only [perform, plain, Operation.perform, WriteLease.remaining, bind_pure_comp,
        Action.on_map, Action.on_bind, Action.ask, Action.on_of, WriteLease.written]
    | _ =>
      simp only [perform, plain, Operation.perform, Action.on_map]
      rfl
  | onReading lease use =>
    cases use with
    | isEmpty =>
      simp only [perform, plain, Operation.perform, ReadLease.isEmpty, ReadLease.size,
        bind_pure_comp, Action.on_map]
    | _ =>
      simp only [perform, plain, Operation.perform, Action.on_map]
      rfl

/-! ## Entries -/

/-- What an operation has done to a segment, as far as accounts are kept. -/
inductive Entry where
  /-- A slot was claimed for writing. -/
  | wrote
  /-- The record of a sequence id was claimed for reading. -/
  | claimed (q : Nat)
  /-- The record of a sequence id was released. -/
  | released (q : Nat)
  deriving DecidableEq, Repr

namespace Operation

/-- Whether the operation takes slots that hold records: they are lost by
that. -/
def isForced : Operation → Bool
  | claimForWriting overwrite => overwrite
  | evict _ => true
  | _ => false

/-- The entry that an operation makes which tells `answer`, if it makes one. -/
def note? (segment : Segment) : Operation → Answer → Option Entry
  | claimForWriting _, .slot (some _) => some .wrote
  | claimForReading, .slot (some slot) => (segment.slots[slot]?).map fun s => .claimed s.sequenceId
  | release slot, _ => (segment.slots[slot]?).map fun s => .released s.sequenceId
  | _, _ => none

theorem note?_eq_wrote_iff {segment : Segment} {operation : Operation} {answer : Answer} :
    operation.note? segment answer = some .wrote ↔
      ∃ overwrite slot, operation = .claimForWriting overwrite ∧ answer = .slot (some slot) := by
  constructor
  · intro h
    unfold note? at h
    split at h
    · exact ⟨_, _, rfl, rfl⟩
    · obtain ⟨s, -, heq⟩ := Option.map_eq_some_iff.mp h
      cases heq
    · obtain ⟨s, -, heq⟩ := Option.map_eq_some_iff.mp h
      cases heq
    · cases h
  · rintro ⟨overwrite, slot, rfl, rfl⟩
    rfl

theorem note?_eq_released_iff {segment : Segment} {operation : Operation} {answer : Answer}
    {q : Nat} : operation.note? segment answer = some (.released q) ↔
      ∃ slot s, operation = .release slot ∧ segment.slots[slot]? = some s ∧ s.sequenceId = q := by
  constructor
  · intro h
    unfold note? at h
    split at h
    · cases h
    · obtain ⟨s, -, heq⟩ := Option.map_eq_some_iff.mp h
      cases heq
    · obtain ⟨s, hs, heq⟩ := Option.map_eq_some_iff.mp h
      cases heq
      exact ⟨_, s, rfl, hs, rfl⟩
    · cases h
  · rintro ⟨slot, s, rfl, hs, rfl⟩
    simp [Operation.note?, hs]

end Operation

end SlotTransport
