/-
What a channel or an emitter does on its host is made up of operations of its
managers, one after the other. `Event.Endpoint.Leads` says where operations lead, and
`Action.Plain` that an action leads nowhere else. It holds of what the two ends of the
event transport do (`free_perform`, `free_emit`), since the parts of a plain action are
plain; looks and releases make no claims (`quiet_of_needsEvent`).
-/
import SlotTransport.Channel.Emitter
import SlotTransport.Proofs.Event.Look

namespace SlotTransport

open Segment Event

/-! ## Operations of an endpoint -/

/-- Where operations of the managers of an endpoint lead that are allowed. -/
inductive Event.Endpoint.Leads (allowed : Operation → Prop) :
    Endpoint → Host → Endpoint → Host → Prop where
  | refl (endpoint : Endpoint) (host : Host) : Leads allowed endpoint host endpoint host
  | step {endpoint endpoint' : Endpoint} {host host' : Host} {source : Source}
    {manager : Manager} (hmanager : endpoint.manager? source = some manager)
    (operation : Operation) (hallowed : allowed operation)
    (h : Leads allowed (endpoint.withManager source (operation.perform.on manager host).2.1)
      (operation.perform.on manager host).2.2 endpoint' host') :
    Leads allowed endpoint host endpoint' host'

/-- An action of a manager that does what an operation does. -/
def Operation.IsDoneBy {ε α : Type} (operation : Operation) (action : Action Manager ε α) : Prop :=
  ∀ manager host, (action.on manager host).2 = (operation.perform.on manager host).2

theorem Operation.IsDoneBy.of_map {ε α β : Type} {operation : Operation}
    {action : Action Manager ε α} {f : α → β} (h : operation.IsDoneBy (f <$> action)) :
    operation.IsDoneBy action := by
  intro manager host
  rw [← h manager host, Action.on_map]

theorem Operation.isDoneBy_of_map {α : Type} {operation : Operation}
    {action : Action Manager Segment.Error α} {f : α → Answer}
    (h : operation.perform = f <$> action) : operation.IsDoneBy action :=
  .of_map fun manager host => by rw [h]

/-- What is done by way of a lease is done by an operation. -/
theorem LeaseOperation.isDoneBy (operation : LeaseOperation) :
    operation.plain.IsDoneBy operation.perform :=
  operation.on_perform_snd

namespace Event.Endpoint

variable {endpoint endpoint' endpoint'' : Endpoint} {host host' host'' : Host} {source : Source}
  {manager : Manager} {α : Type} {allowed : Operation → Prop}

theorem Leads.trans (h : endpoint.Leads allowed host endpoint' host')
    (h' : endpoint'.Leads allowed host' endpoint'' host'') :
    endpoint.Leads allowed host endpoint'' host'' := by
  induction h with
  | refl => exact h'
  | step hmanager operation hallowed _ ih => exact .step hmanager operation hallowed (ih h')

theorem Leads.mono {wider : Operation → Prop} (h : endpoint.Leads allowed host endpoint' host')
    (hwider : ∀ operation, allowed operation → wider operation) :
    endpoint.Leads wider host endpoint' host' := by
  induction h with
  | refl => exact .refl _ _
  | step hmanager operation hallowed _ ih =>
    exact .step hmanager operation (hwider operation hallowed) ih

theorem leads_on {action : Action Manager Segment.Error α} {operation : Operation}
    (h : operation.IsDoneBy action) (hallowed : allowed operation) :
    endpoint.Leads allowed host ((on source action).on endpoint host).2.1
      ((on source action).on endpoint host).2.2 := by
  cases hmanager : endpoint.manager? source with
  | none =>
    simp only [on, Action.on_of, hmanager]
    exact .refl endpoint host
  | some manager =>
    simp only [on, Action.on_of, hmanager, h manager host]
    exact .step hmanager operation hallowed (.refl _ _)

theorem leads_on_ask (question : Manager → Host → α) :
    endpoint.Leads allowed host ((on source (Action.ask question)).on endpoint host).2.1
      ((on source (Action.ask question)).on endpoint host).2.2 := by
  cases hmanager : endpoint.manager? source with
  | none =>
    simp only [on, Action.on_of, hmanager]
    exact .refl endpoint host
  | some manager =>
    simp only [on, Action.ask, Action.on_of, hmanager, withManager_self hmanager]
    exact .refl endpoint host

end Event.Endpoint

/-! ## Plain actions -/

namespace Action

variable {σ ε α β κ : Type} {allowed : Operation → Prop} {part : σ → Endpoint} {kept : σ → κ}

theorem on_tryCatch (action : Action σ ε α) (handler : ε → Action σ ε α) (own : σ) (host : Host) :
    (tryCatch action handler).on own host =
      match action.on own host with
      | (.ok answer, own, host) => (.ok answer, own, host)
      | (.error cause, own, host) => (handler cause).on own host := by
  show ExceptT.run (MonadExcept.tryCatch action handler) (own, host) = _
  rw [ExceptT.run_tryCatch]
  show StateT.run (ExceptT.run action >>= _) _ = _
  rw [StateT.run_bind]
  rcases hon : action.on own host with ⟨answer, own', host'⟩
  have hrun : StateT.run (ExceptT.run action) (own, host) = (answer, own', host') := hon
  rw [hrun]
  cases answer <;> rfl

/-- An action that does nothing but operations of the managers of an endpoint that are
allowed, and that leaves alone what else is to be kept. -/
def Plain (allowed : Operation → Prop) (part : σ → Endpoint) (kept : σ → κ)
    (action : Action σ ε α) : Prop :=
  ∀ own host,
    (part own).Leads allowed host (part (action.on own host).2.1) (action.on own host).2.2 ∧
      kept (action.on own host).2.1 = kept own

/-- An action that does nothing but operations, whatever they are. -/
abbrev Free (part : σ → Endpoint) (action : Action σ ε α) : Prop :=
  Plain (fun _ => True) part (fun _ => ()) action

namespace Plain

theorem pure (answer : α) : Plain allowed part kept (Pure.pure answer : Action σ ε α) :=
  fun own host => ⟨.refl (part own) host, rfl⟩

theorem throw (cause : ε) : Plain allowed part kept (MonadExcept.throw cause : Action σ ε α) :=
  fun own host => ⟨.refl (part own) host, rfl⟩

theorem own : Plain allowed part kept (Action.own : Action σ ε σ) :=
  fun s host => ⟨.refl (part s) host, rfl⟩

theorem ask (question : σ → Host → α) :
    Plain allowed part kept (Action.ask question : Action σ ε α) :=
  fun s host => ⟨.refl (part s) host, rfl⟩

theorem change {f : σ → σ} (h : ∀ s, part (f s) = part s) (hkept : ∀ s, kept (f s) = kept s) :
    Plain allowed part kept (Action.change f : Action σ ε Unit) := by
  intro s host
  show (part s).Leads allowed host (part (f s)) host ∧ kept (f s) = kept s
  rw [h s]
  exact ⟨.refl (part s) host, hkept s⟩

theorem bind {action : Action σ ε α} {next : α → Action σ ε β} (h : Plain allowed part kept action)
    (hnext : ∀ answer, Plain allowed part kept (next answer)) :
    Plain allowed part kept (action >>= next) := by
  intro own host
  obtain ⟨hleads, hkept⟩ := h own host
  rw [on_bind]
  rcases hon : action.on own host with ⟨answer | answer, own', host'⟩ <;> rw [hon] at hleads hkept
  · exact ⟨hleads, hkept⟩
  · obtain ⟨hleads', hkept'⟩ := hnext answer own' host'
    exact ⟨hleads.trans hleads', hkept'.trans hkept⟩

theorem map {action : Action σ ε α} (f : α → β) (h : Plain allowed part kept action) :
    Plain allowed part kept (f <$> action) := by
  intro own host
  rw [on_map]
  exact h own host

theorem tryCatch {action : Action σ ε α} {handler : ε → Action σ ε α}
    (h : Plain allowed part kept action)
    (hhandler : ∀ cause, Plain allowed part kept (handler cause)) :
    Plain allowed part kept (MonadExcept.tryCatch action handler) := by
  intro own host
  obtain ⟨hleads, hkept⟩ := h own host
  rw [on_tryCatch]
  rcases hon : action.on own host with ⟨answer | answer, own', host'⟩ <;> rw [hon] at hleads hkept
  · obtain ⟨hleads', hkept'⟩ := hhandler answer own' host'
    exact ⟨hleads.trans hleads', hkept'.trans hkept⟩
  · exact ⟨hleads, hkept⟩

theorem within {φ : Type} {withPart : σ → Endpoint → σ} {wrap : ε → φ}
    {action : Action Endpoint ε α}
    (h : ∀ (endpoint : Endpoint) (host : Host),
      endpoint.Leads allowed host (action.on endpoint host).2.1 (action.on endpoint host).2.2)
    (hpart : ∀ whole endpoint, part (withPart whole endpoint) = endpoint)
    (hkept : ∀ whole endpoint, kept (withPart whole endpoint) = kept whole) :
    Plain allowed part kept (action.within part withPart wrap) := by
  intro whole host
  have hleads := h (part whole) host
  simp only [Action.within, Action.on_of, hpart, hkept]
  exact ⟨hleads, trivial⟩

theorem free {action : Action σ ε α} (h : Plain allowed part kept action) : Free part action :=
  fun own host => ⟨(h own host).1.mono fun _ _ => trivial, rfl⟩

theorem await {attempt : Action σ ε (Option α)} (h : Plain allowed part kept attempt)
    (timeout : Nat) : Plain allowed part kept (Poll.await attempt timeout) := by
  have hattempts : ∀ sleeps, Plain allowed part kept (Poll.attempts attempt sleeps) := by
    intro sleeps
    induction sleeps with
    | nil => exact h
    | cons sleep sleeps ih =>
      refine h.bind fun answer => ?_
      cases answer with
      | none => exact ih
      | some answer => exact pure _
  rw [Poll.await_eq_attempts]
  exact hattempts _

end Plain

end Action

/-! ## Channels -/

namespace EventChannel

open SlotTransport.Action (Plain Free)

/-- What a channel does without a claim, and without being told to initialise. -/
abbrev Quiet {α : Type} (action : Action EventChannel Event.Error α) : Prop :=
  Plain (fun operation => operation.isClaim = false) endpoint initialised action

variable {α : Type} (source : Source) (slot : Nat)

theorem quiet_onSource {action : Action Manager Segment.Error α} (operation : Operation)
    {f : α → Answer} (h : operation.perform = f <$> action) (hquiet : operation.isClaim = false) :
    Quiet (onSource source action) :=
  .within (fun _ _ => Endpoint.leads_on (Operation.isDoneBy_of_map h) hquiet) (fun _ _ => rfl)
    fun _ _ => rfl

theorem quiet_written : Quiet (onSource source (Manager.written slot)) :=
  quiet_onSource source (.written slot) rfl rfl

theorem quiet_read (len : Nat) :
    Quiet (onSource source (Manager.read slot len)) :=
  quiet_onSource source (.read slot len) rfl rfl

theorem quiet_release : Quiet (onSource source (Manager.release slot)) :=
  quiet_onSource source (.release slot) rfl rfl

theorem free_claimForReading :
    Free endpoint (onSource source Manager.claimForReading) := by
  have hdone : Operation.claimForReading.IsDoneBy Manager.claimForReading :=
    Operation.isDoneBy_of_map rfl
  exact .within (fun _ _ => Endpoint.leads_on hdone trivial) (fun _ _ => rfl) fun _ _ => rfl

theorem quiet_readHeader : Quiet (readHeader source slot) := by
  refine (quiet_written source slot).bind fun size => ?_
  split
  · exact .throw _
  · refine (quiet_onSource source (.rewindReading slot) rfl rfl).bind fun _ => ?_
    refine (quiet_read source slot _).bind ?_
    rintro ⟨bytes, more⟩
    dsimp only
    cases Header.decode bytes with
    | error fault => exact .throw _
    | ok header => exact .pure header

theorem quiet_readBody (len : Nat) (wanted : Bool) :
    Quiet (readBody source slot len wanted) := by
  unfold readBody
  split <;> split
  · exact .pure _
  · exact (quiet_read source slot len).bind fun _ => .pure _
  · exact .pure _
  · exact (quiet_onSource source (.skipReading slot len) rfl rfl).bind fun _ => .pure _

theorem quiet_scanFrom (visit : Visit α) (size offset : Nat) :
    Quiet (scanFrom source slot visit size offset) := by
  fun_induction scanFrom source slot visit size offset with
  | case1 => exact .throw _
  | case2 offset _ rest _ ih =>
    refine (quiet_read source slot _).bind ?_
    rintro ⟨bytes, more⟩
    dsimp only
    split
    · exact .throw _
    · rename_i header hdecode
      split
      · exact .throw _
      · refine (quiet_readBody source slot _ _).bind fun body? => ?_
        split
        · exact .throw _
        · exact (ih bytes header hdecode).bind fun _ => .pure _
  | case3 => exact .pure _

theorem quiet_scan (visit : Visit α) : Quiet (scan source slot visit) :=
  (quiet_written source slot).bind fun _ => (quiet_readHeader source slot).bind fun _ =>
    quiet_scanFrom source slot visit _ _

theorem quiet_scan_map {β : Type} (visit : Visit α) (f : List α → β) :
    Quiet (scan source slot visit >>= fun found => pure (f found)) :=
  (quiet_scan source slot visit).bind fun _ => .pure _

theorem quiet_letGo : Quiet letGo :=
  .change (fun _ => rfl) fun _ => rfl

theorem quiet_hold : Quiet (hold source slot) :=
  .change (fun _ => rfl) fun _ => rfl

theorem quiet_requireHeld : Quiet requireHeld := by
  refine Plain.own.bind fun channel => ?_
  cases channel.held with
  | none => exact .throw _
  | some held =>
    obtain ⟨source, slot⟩ := held
    refine (quiet_onSource source (.check slot .reading) rfl rfl).bind fun held => ?_
    split
    · exact .pure _
    · exact quiet_letGo.bind fun _ => .throw _

theorem quiet_held {action : Source → Nat → Action EventChannel Event.Error α}
    (h : ∀ source slot, Quiet (action source slot)) :
    Quiet (requireHeld >>= fun (source, slot) => action source slot) :=
  quiet_requireHeld.bind fun (source, slot) => h source slot

theorem quiet_of_needsEvent {use : Use} (hneeds : use.needsEvent = true) :
    Quiet use.perform := by
  cases use with
  | await => cases hneeds
  | look look =>
    cases look with
    | header => exact .map _ (quiet_held quiet_readHeader)
    | kinds | fragments =>
      exact .map _ (quiet_held fun source slot => quiet_scan_map source slot _ _)
  | release =>
    exact .map _ (quiet_held fun source slot =>
      (quiet_release source slot).bind fun _ => quiet_letGo)

theorem free_pollBroadcasts (claims : Nat) :
    Free endpoint (pollBroadcasts claims) := by
  induction claims with
  | zero => exact .pure _
  | succ claims ih =>
    refine (free_claimForReading .broadcast).bind fun slot? => ?_
    cases slot? with
    | none => exact .pure _
    | some slot =>
      refine (quiet_hold .broadcast slot).free.bind fun _ => ?_
      refine (quiet_scan .broadcast slot .kinds).free.bind fun kinds => ?_
      split
      · refine Plain.own.bind fun channel => ?_
        split
        · exact quiet_letGo.free.bind fun _ =>
            (quiet_release .broadcast slot).free.bind fun _ => ih
        · exact Plain.bind (.change (fun _ => rfl) fun _ => rfl) fun _ => .pure _
      · exact .pure _

theorem free_pollBroadcast : Free endpoint pollBroadcast := by
  refine Plain.own.bind fun channel => ?_
  cases channel.endpoint.broadcast with
  | none => exact .pure _
  | some manager => exact (Plain.ask _).bind fun slots => free_pollBroadcasts _

theorem free_pollData : Free endpoint pollData := by
  refine (free_claimForReading .data).bind fun slot? => ?_
  cases slot? with
  | none => exact .pure _
  | some slot => exact (quiet_hold .data slot).free.bind fun _ => .pure _

theorem free_poll (broadcastOnly : Bool) :
    Free endpoint (poll broadcastOnly) := by
  have hended : Free endpoint (do
      let ended ← Action.ask fun channel host => channel.endpoint.isEndOfData host
      return if ended then some false else none : Action EventChannel Event.Error (Option Bool)) :=
    (Plain.ask _).bind fun _ => .pure _
  refine free_pollBroadcast.bind fun found => ?_
  split
  · exact .pure _
  · split
    · refine free_pollData.bind fun found => ?_
      split
      · exact .pure _
      · exact hended
    · exact hended

theorem free_perform (use : Use) : Free endpoint use.perform := by
  cases use with
  | await broadcastOnly timeout =>
    refine .map _ (Plain.own.bind fun channel => ?_)
    split
    · exact .pure _
    · exact ((free_poll broadcastOnly).await timeout).bind fun _ => .pure _
  | look look => exact (quiet_of_needsEvent rfl).free
  | release => exact (quiet_of_needsEvent rfl).free

end EventChannel

/-! ## Emitters -/

namespace EventEmitter

open SlotTransport.Action (Plain Free)

variable {α : Type} (source : Source)

theorem free_onSource {action : Action Manager Segment.Error α} {operation : Operation}
    (h : operation.IsDoneBy action) : Free endpoint (onSource source action) :=
  .within (fun _ _ => Endpoint.leads_on h trivial) (fun _ _ => rfl) fun _ _ => rfl

theorem free_fill (lease : WriteLease) (parts : List Bytes) :
    Free endpoint (fill source lease parts) := by
  induction parts with
  | nil => exact .pure _
  | cons bytes others ih =>
    have hwrite : Free endpoint (onSource source (lease.write bytes)) :=
      free_onSource source (LeaseOperation.onWriting lease (.write bytes)).isDoneBy
    have hdrop : Free endpoint (onSource source lease.drop) :=
      free_onSource source (LeaseOperation.onWriting lease .drop).isDoneBy
    exact (hwrite.tryCatch fun cause => hdrop.bind fun _ => .throw cause).bind fun _ => ih

theorem free_emit (header : Event.Header) (fragments : List Fragment) (overwrite : Bool)
    (destination : Destination) :
    Free endpoint (emit source header fragments overwrite destination) := by
  have hask : Free endpoint (onSource source (Action.ask Manager.slotSize)) :=
    .within (fun _ _ => Endpoint.leads_on_ask _) (fun _ _ => rfl) fun _ _ => rfl
  have hlease : Free endpoint
      (onSource source (Manager.leaseForWriting overwrite)) :=
    free_onSource source (LeaseOperation.leaseForWriting overwrite).isDoneBy.of_map
  have hcommit : ∀ lease : WriteLease,
      Free endpoint (onSource source (lease.commit destination)) := fun lease =>
    free_onSource source (LeaseOperation.onWriting lease (.commit destination)).isDoneBy.of_map
  have hpack : ∀ next : Option WriteLease → Action EventEmitter Event.Error Bool,
      Free endpoint (next none) → (∀ lease, Free endpoint (next (some lease))) →
        Free endpoint (onSource source (Manager.leaseForWriting overwrite) >>= next) := by
    intro next hnone hsome
    refine hlease.bind fun lease? => ?_
    cases lease? with
    | none => exact hnone
    | some lease => exact hsome lease
  have hfill : ∀ lease, Free endpoint (do
      fill source lease (Event.parts header fragments)
      onSource source (lease.commit destination) : Action EventEmitter Event.Error Bool) :=
    fun lease => (free_fill source lease _).bind fun _ => hcommit lease
  refine hask.bind fun room => ?_
  dsimp only
  split
  · exact .bind (.throw _) fun _ => hpack _ (.pure _) hfill
  · exact hpack _ (.pure _) hfill

end EventEmitter

end SlotTransport
