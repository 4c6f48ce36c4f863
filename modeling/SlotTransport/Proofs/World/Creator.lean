/-
Who owns the name of a key. An attempt to attach gives a name that is free to an
object that it makes, a creator that ends takes its name away, and nothing else that
managers do changes a name (`step_entitles`). So the name leads to the object that
the one creator there is has made (`Run.entitled`), or to one that was left behind when
an attempt failed (`name_is_creators`); there nobody can attach any more
(`name_without_creator`).
-/
import SlotTransport.Proofs.Manager.Names
import SlotTransport.Proofs.World.Coherent

namespace SlotTransport

open Segment

/-- Whether the manager has created an object under the name of a key. -/
def Manager.isCreatorOf (manager : Manager) (key : Key) : Bool :=
  manager.created && manager.key == key

theorem Manager.Keeps.isCreatorOf {manager manager' : Manager} {host host' : Host}
    (h : manager.Keeps host manager' host') : manager'.isCreatorOf = manager.isCreatorOf := by
  funext key
  rw [Manager.isCreatorOf, Manager.isCreatorOf, h.created, Manager.key, Manager.key, h.config]

namespace World

/-! ## Creators and what they have made -/

/-- Whether a manager that there is has created an object under the name of a key. -/
def isCreator (w : World) (key : Key) (i : Nat) : Bool :=
  (w.manager? i).any (·.isCreatorOf key)

/-- The manager that a call lets attach, or try to. -/
def entrant? (w : World) : Call → Option Nat
  | .attach .. => some w.managers.length
  | .reattach i => some i
  | _ => none

/-- Whether the object of a number comes about. -/
def Moment.makes (number : Nat) (moment : Moment) : Bool :=
  (moment.before.segment? number).isNone && (moment.after.segment? number).isSome

/-- Whether the name of a key is given to an object that the one who made it cannot
attach to. -/
def Moment.spoils (key : Key) (moment : Moment) : Bool :=
  !moment.before.host.hasName key && moment.after.host.hasName key &&
    ((moment.before.entrant? moment.call).bind moment.after.attachment?).isNone

/-- Who has made the object of a number. -/
def maker? (number : Nat) (past : List Moment) : Option Nat :=
  past.findSome? fun moment =>
    if moment.makes number then moment.before.entrant? moment.call else none

variable {w w' : World} {call : Call} {past : List Moment} {key : Key} {i number : Nat}
  {manager : Manager}

theorem isCreator_eq (h : w.manager? i = some manager) :
    w.isCreator key i = manager.isCreatorOf key := by
  rw [isCreator, h, Option.any_some]

theorem isCreator_seat (hi : i < w.managers.length) (host : Host) (after : Option Manager) :
    (w.seat host i after).isCreator key =
      Function.update (w.isCreator key) i (after.any (·.isCreatorOf key)) := by
  funext j
  by_cases hj : j = i
  · subst hj
    simp [isCreator, manager?, seat, hi]
  · rw [Function.update_of_ne hj]
    simp [isCreator, manager?, seat, List.getElem?_set_ne (Ne.symm hj)]

theorem maker?_cons (call : Call) (h : w.segment? number ≠ none) :
    maker? number (⟨w, call⟩ :: past) = maker? number past := by
  have hmakes : (⟨w, call⟩ : Moment).makes number = false := by
    simp [Moment.makes, Option.isNone_iff_eq_none, h]
  rw [maker?, List.findSome?_cons, hmakes]
  rfl

/-! ## What a call does to a name -/

/-- What comes of the name of a key when a manager attaches, or tries to. -/
inductive Tried (w : World) (key : Key) (i : Nat) (w' : World) : Prop where
  | kept (hentry : w'.host.entry? key = w.host.entry? key)
    (hcreators : w'.isCreator key = w.isCreator key)
    (hjoined : ∀ manager me, w'.manager? i = some manager → manager.key = key →
      manager.attachment = some me → w.host.entry? key = some (.object me.object))
  | created {me : Attachment} (hnone : w.host.entry? key = none)
    (hentry : w'.host.entry? key = some (.object w.host.objects.length))
    (hcreators : w'.isCreator key = Function.update (w.isCreator key) i true)
    (hme : w'.attachment? i = some me) (hobject : me.object = w.host.objects.length)
  | spoiled {size : Nat} (hnone : w.host.entry? key = none)
    (hentry : w'.host.entry? key = some (.object w.host.objects.length))
    (hcreators : w'.isCreator key = w.isCreator key) (hdetached : w'.attachment? i = none)
    (hblank : w'.segment? w.host.objects.length = some (.blank size))

/-- What comes of the name of a key. -/
inductive Entitles (w : World) (key : Key) (call : Call) (w' : World) : Prop where
  | kept (hnew : w.entrant? call = none) (hentry : w'.host.entry? key = w.host.entry? key)
    (hcreators : w'.isCreator key = w.isCreator key)
  | dropped {i : Nat} (hcall : call = .drop i) (hcreator : w.isCreator key i = true)
    (hentry : w.host.entry? key ≠ some .directory → w'.host.entry? key = none)
    (hcreators : w'.isCreator key = Function.update (w.isCreator key) i false)
  | tried {i : Nat} (hnew : w.entrant? call = some i) (h : w.Tried key i w')

variable {w₁ : World}

theorem Tried.congr (h : w₁.Tried key i w') (hentry : w₁.host.entry? key = w.host.entry? key)
    (hcreators : w₁.isCreator key = w.isCreator key)
    (hlength : w₁.host.objects.length = w.host.objects.length) : w.Tried key i w' := by
  cases h with
  | kept hentry' hcreators' hjoined =>
    refine .kept (hentry'.trans hentry) (hcreators'.trans hcreators) ?_
    rw [← hentry]
    exact hjoined
  | created hnone hentry' hcreators' hme hobject =>
    rw [hentry] at hnone
    rw [hlength] at hentry' hobject
    rw [hcreators] at hcreators'
    exact .created hnone hentry' hcreators' hme hobject
  | spoiled hnone hentry' hcreators' hdetached hblank =>
    rw [hentry] at hnone
    rw [hlength] at hentry' hblank
    exact .spoiled hnone hentry' (hcreators'.trans hcreators) hdetached hblank

/-- What comes of a name by one attempt: only where the name is free and the manager's own
does anything come of it. -/
theorem tried_of_connected (hi : i < w.managers.length) {manager' : Manager}
    {answer : Except Segment.Error Unit} {host : Host} {after : Option Manager}
    (hmanager : manager.attachment = none)
    (hcreator : w.isCreator key i = manager.isCreatorOf key)
    (h : manager.Connected w.host answer manager' host)
    (hafter : after = some manager' ∨
      after = none ∧ manager'.attachment = none ∧ manager'.created = false) :
    w.Tried key i (w.seat host i after) := by
  have hattached : (w.seat host i after).attachment? i = manager'.attachment := by
    rw [attachment?_seat hi, Function.update_self]
    rcases hafter with rfl | ⟨rfl, hnone, -⟩
    · rfl
    · exact hnone.symm
  have hcreators : (w.seat host i after).isCreator key =
      Function.update (w.isCreator key) i (manager'.isCreatorOf key) := by
    rw [isCreator_seat hi]
    rcases hafter with rfl | ⟨rfl, -, hnone⟩
    · rfl
    · rw [Option.any_none, Manager.isCreatorOf, hnone, Bool.false_and]
  have hsame : manager'.isCreatorOf key = manager.isCreatorOf key →
      (w.seat host i after).isCreator key = w.isCreator key := fun hsame => by
    rw [hcreators, hsame, ← hcreator, Function.update_eq_self]
  have hfound : ∀ {found : Manager}, (w.seat host i after).manager? i = some found →
      found = manager' := by
    intro found hfound
    have hplace : (w.seat host i after).manager? i = after := by simp [manager?, seat, hi]
    rw [hplace] at hfound
    rcases hafter with rfl | ⟨rfl, -⟩
    · exact (Option.some.inj hfound).symm
    · cases hfound
  have hidle : manager'.attachment = none → ∀ found me,
      (w.seat host i after).manager? i = some found → found.key = key →
        found.attachment = some me → w.host.entry? key = some (.object me.object) := by
    intro hnone found me hmanager' _ hme
    rw [hfound hmanager', hnone] at hme
    cases hme
  cases h with
  | failed cause => exact .kept rfl (hsame rfl) (hidle hmanager)
  | spoiled cause size hname =>
    by_cases hkey : manager.key = key
    · subst hkey
      have hblank : (w.seat (w.host.place manager.key (.blank size)) i after).segment?
          w.host.objects.length = some (.blank size) := by simp [segment?, seat]
      exact .spoiled hname (Host.entry?_place_self ..) (hsame rfl) (hattached.trans hmanager) hblank
    · exact .kept (Host.entry?_place_of_ne _ (Ne.symm hkey)) (hsame rfl) (hidle hmanager)
  | @joined number segment hname =>
    refine .kept rfl (hsame rfl) fun found me hmanager' hkey hme => ?_
    obtain rfl := hfound hmanager'
    cases hme
    subst hkey
    exact Host.number?_eq_some_iff.mp hname
  | created hname hmay hsize =>
    by_cases hkey : manager.key = key
    · subst hkey
      refine .created hname (Host.entry?_place_self ..) ?_ hattached rfl
      rw [hcreators]
      simp [Manager.isCreatorOf, Manager.key]
    · have hother : ∀ m : Manager, m.key = manager.key → m.isCreatorOf key = false := by
        intro m hm
        simp [Manager.isCreatorOf, hm, hkey]
      refine .kept (Host.entry?_place_of_ne _ (Ne.symm hkey)) (hsame ?_)
        fun found me hmanager' hkey' _ => ?_
      · rw [hother manager rfl]
        exact hother _ rfl
      · obtain rfl := hfound hmanager'
        exact absurd hkey' hkey

theorem entitled_of_keeps (hmanager : w.manager? i = some manager) {manager' : Manager}
    {host : Host} (h : manager.Keeps w.host manager' host) (key : Key) :
    Host.entry? (w.seat host i (some manager')).host key = w.host.entry? key ∧
      (w.seat host i (some manager')).isCreator key = w.isCreator key := by
  refine ⟨Host.entry?_congr h.names key, ?_⟩
  rw [isCreator_seat (lt_of_manager? hmanager), Option.any_some, h.isCreatorOf,
    ← isCreator_eq hmanager, Function.update_eq_self]

theorem entitled_of_perform (w : World) (i : Nat) (operation : Operation) (key : Key) :
    Host.entry? (w.act i operation.perform).host key = w.host.entry? key ∧
      (w.act i operation.perform).isCreator key = w.isCreator key := by
  cases hmanager : w.manager? i with
  | none =>
    rw [act_of_none _ hmanager]
    exact ⟨rfl, rfl⟩
  | some manager =>
    rw [act_eq_seat _ hmanager, Operation.on_perform_guarded]
    exact entitled_of_keeps hmanager (Manager.keeps_guarded _ _ _) key

theorem entitled_of_detach (w : World) (i : Nat) (key : Key) :
    Host.entry? (w.act i Manager.detach).host key = w.host.entry? key ∧
      (w.act i Manager.detach).isCreator key = w.isCreator key := by
  cases hmanager : w.manager? i with
  | none =>
    rw [act_of_none _ hmanager]
    exact ⟨rfl, rfl⟩
  | some manager =>
    rw [act_detach hmanager]
    exact entitled_of_keeps hmanager (manager.keeps_shutdown w.host) key

theorem tried_of_attach (w : World) (config : Segment.Config) (time : TimeSource) (key : Key) :
    w.Tried key w.managers.length (w.step (.attach config time)) := by
  obtain ⟨answer, manager, host, hconnect, hstep⟩ := w.step_attach_eq config time
  have hlt : w.managers.length < w.grown.managers.length := by simp [grown]
  have hnobody : w.grown.isCreator key w.managers.length =
      (⟨config, time, false, none⟩ : Manager).isCreatorOf key := by
    rw [isCreator, manager?_grown]
    simp [manager?, Manager.isCreatorOf]
  rw [hstep]
  refine Tried.congr (tried_of_connected hlt rfl hnobody hconnect ?_) rfl ?_ rfl
  · cases answer with
    | ok _ => exact .inl rfl
    | error cause => cases hconnect <;> exact .inr ⟨rfl, rfl, rfl⟩
  · funext j
    rw [isCreator, isCreator, manager?_grown]

theorem tried_of_reattach (hw : w.Coherent) (i : Nat) (key : Key) :
    w.Tried key i (w.step (.reattach i)) := by
  show w.Tried key i (w.act i Manager.reattach)
  rw [act_reattach]
  obtain ⟨hentry, hcreators⟩ := w.entitled_of_detach i key
  refine Tried.congr ?_ hentry hcreators (length_objects_detach hw i)
  have hdetached := attachment?_detach hw i
  cases hmanager : (w.act i Manager.detach).manager? i with
  | none =>
    rw [act_of_none _ hmanager]
    refine .kept rfl rfl fun manager me h => ?_
    rw [hmanager] at h
    cases h
  | some manager =>
    rw [attachment?_eq hmanager] at hdetached
    rw [act_eq_seat _ hmanager]
    exact tried_of_connected (lt_of_manager? hmanager) hdetached (isCreator_eq hmanager)
      (manager.connect_cases _) (.inl rfl)

theorem entitles_drop (hw : w.Coherent) (i : Nat) (key : Key) :
    w.Entitles key (.drop i) (w.step (.drop i)) := by
  cases hmanager : w.manager? i with
  | none =>
    rw [step_drop_of_none hmanager]
    exact .kept rfl rfl rfl
  | some manager =>
    have hlt := lt_of_manager? hmanager
    have hattached : manager.attachment = none ∨ ∃ m, manager.mapping? w.host = some m := by
      cases hme : manager.attachment with
      | none => exact .inl rfl
      | some me =>
        obtain ⟨segment, -, hmapping⟩ := hw.mapping? hmanager hme
        exact .inr ⟨_, hmapping⟩
    rw [step_drop hmanager]
    cases hcreator : manager.isCreatorOf key with
    | true =>
      have hmine : manager.created = true ∧ manager.key = key := by
        simpa [Manager.isCreatorOf] using hcreator
      obtain ⟨hcreated, rfl⟩ := hmine
      exact .dropped rfl ((isCreator_eq hmanager).trans hcreator)
        (Manager.entry?_drop_self hattached hcreated) (isCreator_seat hlt _ none)
    | false =>
      refine .kept rfl (Manager.entry?_drop_of_other hattached fun hcreated hkey => ?_) ?_
      · simp [Manager.isCreatorOf, hcreated, hkey] at hcreator
      · rw [isCreator_seat hlt, Option.any_none, ← hcreator, ← isCreator_eq hmanager,
          Function.update_eq_self]

/-- What any call does to the name of a key, but to take it away by force. -/
theorem step_entitles (hw : w.Coherent) (hcall : call ≠ .unlink key) :
    w.Entitles key call (w.step call) := by
  cases call with
  | attach config time => exact .tried rfl (w.tried_of_attach config time key)
  | perform i operation =>
    obtain ⟨hentry, hcreators⟩ := w.entitled_of_perform i operation key
    exact .kept rfl hentry hcreators
  | lease i operation =>
    obtain ⟨hentry, hcreators⟩ := w.entitled_of_perform i operation.plain key
    rw [← act_lease] at hentry hcreators
    exact .kept rfl hentry hcreators
  | detach i =>
    obtain ⟨hentry, hcreators⟩ := w.entitled_of_detach i key
    exact .kept rfl hentry hcreators
  | reattach i => exact .tried rfl (tried_of_reattach hw i key)
  | drop i => exact entitles_drop hw i key
  | unlink other =>
    have hne : key ≠ other := fun heq => hcall (heq ▸ rfl)
    exact .kept rfl (Host.entry?_unlink_of_ne hne) rfl
  | tick clock uptime => exact .kept rfl rfl rfl

/-! ## Every run -/

/-- The name of a key leads to the object that its creator has made, or to one that was
left behind. -/
structure Entitled (past : List Moment) (w : World) (key : Key) : Prop where
  creator : ∀ {i : Nat}, w.isCreator key i = true → ∃ number,
    w.host.entry? key = some (.object number) ∧ maker? number past = some i
  entry : ∀ {entry : Host.Entry}, w.host.entry? key = some entry → ∃ number segment,
    entry = .object number ∧ w.segment? number = some segment ∧
      ((∃ i, w.isCreator key i = true) ∨
        segment.control.magic ≠ readyMagic ∧ ∃ moment ∈ past, moment.spoils key = true)

/-- There is one creator: the name leads to one object, and that was made once. -/
theorem Entitled.unique (h : Entitled past w key) {j : Nat} (hi : w.isCreator key i = true)
    (hj : w.isCreator key j = true) : i = j := by
  obtain ⟨number, hentry, hmaker⟩ := h.creator hi
  obtain ⟨number', hentry', hmaker'⟩ := h.creator hj
  rw [hentry] at hentry'
  cases hentry'
  rw [hmaker] at hmaker'
  exact Option.some.inj hmaker'

theorem Entitled.not_creator (h : Entitled past w key) (hnone : w.host.entry? key = none)
    (i : Nat) : w.isCreator key i ≠ true := by
  intro hi
  obtain ⟨number, hentry, -⟩ := h.creator hi
  rw [hnone] at hentry
  cases hentry

theorem Coherent.segment?_step (hw : w.Coherent) (call : Call) {segment : Segment}
    (h : w.segment? number = some segment) : ∃ segment',
      (w.step call).segment? number = some segment' ∧
        segment'.control.magic = segment.control.magic := by
  obtain ⟨p', hp', hturn⟩ := (step_turned hw call).turn (party?_of_segment? h)
  exact ⟨p'.segment, (party?_eq_some_iff.mp hp').1, hturn.alike.magic⟩

theorem Entitled.keep (h : Entitled past w key) (hw : w.Coherent)
    (hentry : Host.entry? (w.step call).host key = w.host.entry? key)
    (hcreators : (w.step call).isCreator key = w.isCreator key) :
    Entitled (⟨w, call⟩ :: past) (w.step call) key where
  creator {i} hi := by
    rw [hcreators] at hi
    obtain ⟨number, hname, hmaker⟩ := h.creator hi
    obtain ⟨number', segment, heq, hsegment, -⟩ := h.entry hname
    cases heq
    refine ⟨number, hentry.trans hname, ?_⟩
    rw [maker?_cons call (by rw [hsegment]; exact Option.some_ne_none segment), hmaker]
  entry {entry} hname := by
    rw [hentry] at hname
    obtain ⟨number, segment, heq, hsegment, hcases⟩ := h.entry hname
    obtain ⟨segment', hsegment', hmagic⟩ := hw.segment?_step call hsegment
    rw [← hmagic] at hcases
    rw [hcreators]
    exact ⟨number, segment', heq, hsegment', hcases.imp_right fun hleft =>
      ⟨hleft.1, hleft.2.imp fun _ hmoment => ⟨List.mem_cons_of_mem _ hmoment.1, hmoment.2⟩⟩⟩

theorem Entitled.step (h : Entitled past w key) (hw : w.Coherent) (hcall : call ≠ .unlink key) :
    Entitled (⟨w, call⟩ :: past) (w.step call) key := by
  cases step_entitles hw hcall with
  | kept _ hentry hcreators => exact h.keep hw hentry hcreators
  | @dropped i _ hcreator hentry hcreators =>
    obtain ⟨number, hname, -⟩ := h.creator hcreator
    refine ⟨fun {j} hj => ?_, fun {entry} hname' => ?_⟩
    · rw [hcreators] at hj
      by_cases heq : j = i
      · subst heq
        rw [Function.update_self] at hj
        cases hj
      · rw [Function.update_of_ne heq] at hj
        exact absurd (h.unique hj hcreator) heq
    · rw [hentry (by rw [hname]; simp)] at hname'
      cases hname'
  | @tried i hnew htried =>
    cases htried with
    | kept hentry hcreators => exact h.keep hw hentry hcreators
    | @created me hnone hentry hcreators hme hobject =>
      have hobjects := ((step_turned hw call).coherent hw).object hme
      rw [hobject] at hobjects
      obtain ⟨segment, hsome⟩ : ∃ segment,
          (w.step call).segment? w.host.objects.length = some segment :=
        ⟨_, List.getElem?_eq_getElem hobjects⟩
      refine ⟨fun {j} hj => ⟨_, hentry, ?_⟩, fun {entry} hname => ?_⟩
      · rw [hcreators] at hj
        by_cases heq : j = i
        · subst heq
          have hbefore : w.segment? w.host.objects.length = none :=
            List.getElem?_eq_none (le_refl _)
          have hmakes : (⟨w, call⟩ : Moment).makes w.host.objects.length = true := by
            simp [Moment.makes, Moment.after, hbefore, hsome]
          rw [maker?, List.findSome?_cons, hmakes, if_pos rfl, hnew]
        · rw [Function.update_of_ne heq] at hj
          exact absurd hj (h.not_creator hnone j)
      · rw [hentry] at hname
        cases hname
        exact ⟨_, _, rfl, hsome, .inl ⟨i, by rw [hcreators, Function.update_self]⟩⟩
    | @spoiled size hnone hentry hcreators hdetached hblank =>
      refine ⟨fun {j} hj => ?_, fun {entry} hname => ?_⟩
      · rw [hcreators] at hj
        exact absurd hj (h.not_creator hnone j)
      · rw [hentry] at hname
        cases hname
        have hunready : (0 : UInt32) ≠ readyMagic := by decide
        have hspoils : (⟨w, call⟩ : Moment).spoils key = true := by
          simp [Moment.spoils, Moment.after, Host.hasName, hnone, hentry, hnew, hdetached]
        exact ⟨_, _, rfl, hblank, .inr ⟨hunready, _, List.mem_cons_self, hspoils⟩⟩

/-- As long as nobody takes it away by force, a name is its creator's. -/
theorem Run.entitled (h : Run past w) (hkept : ∀ moment ∈ past, moment.call ≠ .unlink key) :
    Entitled past w key := by
  induction h with
  | start =>
    refine ⟨fun {i} hi => ?_, fun {entry} hname => ?_⟩
    · simp [isCreator, manager?, World.new] at hi
    · simp [Host.entry?, World.new, Host.new] at hname
  | step call hrun ih =>
    exact (ih fun moment hmoment => hkept moment (List.mem_cons_of_mem _ hmoment)).step
      hrun.coherent (hkept _ List.mem_cons_self)

/-- Where no attempt to make an object has failed half way, a name is there as long as
its creator. -/
theorem Entitled.hasName_iff (h : Entitled past w key)
    (hclean : ∀ moment ∈ past, moment.spoils key = false) :
    w.host.hasName key = true ↔ ∃! i, w.isCreator key i = true := by
  rw [Host.hasName, Option.isSome_iff_exists]
  constructor
  · rintro ⟨entry, hname⟩
    obtain ⟨-, -, -, -, ⟨i, hi⟩ | ⟨-, moment, hmoment, hspoils⟩⟩ := h.entry hname
    · exact ⟨i, hi, fun j hj => h.unique hj hi⟩
    · rw [hclean moment hmoment] at hspoils
      cases hspoils
  · rintro ⟨i, hi, -⟩
    obtain ⟨number, hname, -⟩ := h.creator hi
    exact ⟨_, hname⟩

theorem Coherent.member_of_unready (hw : w.Coherent) {segment : Segment}
    (hsegment : w.segment? number = some segment) (hmagic : segment.control.magic ≠ readyMagic)
    (i : Nat) : w.member number i = none := by
  cases hme : w.member number i with
  | none => rfl
  | some me => exact absurd ((hw.party (party?_of_segment? hsegment)).fits hme).ready hmagic

/-- What a name leads to stays until the manager that has made it ends. -/
theorem Entitled.lasts (h : Entitled past w key) (hw : w.Coherent) (hcall : call ≠ .unlink key)
    {entry : Host.Entry} (hname : w.host.entry? key = some entry) :
    Host.entry? (w.step call).host key = some entry ∨
      ∃ i number, call = .drop i ∧ w.isCreator key i = true ∧ entry = .object number ∧
        maker? number past = some i ∧ Host.entry? (w.step call).host key = none := by
  cases step_entitles hw hcall with
  | kept _ hentry => exact .inl (hentry.trans hname)
  | @dropped i hdrop hcreator hentry =>
    obtain ⟨number, hname', hmaker⟩ := h.creator hcreator
    rw [hname] at hname'
    cases hname'
    exact .inr ⟨i, number, hdrop, hcreator, rfl, hmaker, hentry (by rw [hname]; simp)⟩
  | tried _ htried =>
    cases htried with
    | kept hentry => exact .inl (hentry.trans hname)
    | created hnone | spoiled hnone =>
      rw [hnone] at hname
      cases hname

/-- Whoever attaches is attached to what the name leads to, which was the creator's, or
is what it has made itself. -/
theorem Entitled.attached (h : Entitled past w key) (hw : w.Coherent)
    (hnew : w.entrant? call = some i) (hmanager : (w.step call).manager? i = some manager)
    (hkey : manager.key = key) {me : Attachment} (hme : manager.attachment = some me) :
    Host.entry? (w.step call).host key = some (.object me.object) ∧
      ((∃ j, w.isCreator key j = true ∧ w.host.entry? key = some (.object me.object)) ∨
        w.host.entry? key = none ∧ (w.step call).isCreator key i = true) := by
  have hattached := (attachment?_eq hmanager).trans hme
  have hcall : call ≠ .unlink key := by
    rintro rfl
    cases hnew
  cases step_entitles hw hcall with
  | kept hnobody =>
    rw [hnew] at hnobody
    cases hnobody
  | dropped hdrop =>
    subst hdrop
    cases hnew
  | tried hnew' htried =>
    rw [hnew] at hnew'
    cases hnew'
    cases htried with
    | kept hentry _ hjoined =>
      have hname := hjoined manager me hmanager hkey hme
      refine ⟨hentry.trans hname, .inl ?_⟩
      obtain ⟨number, segment, heq, hsegment, ⟨j, hj⟩ | ⟨hmagic, -⟩⟩ := h.entry hname
      · exact ⟨j, hj, hname⟩
      · -- Nobody can have joined what is not laid out.
        cases heq
        obtain ⟨segment', hsegment', hmagic'⟩ := hw.segment?_step call hsegment
        have hnone := ((step_turned hw call).coherent hw).member_of_unready hsegment'
          (hmagic'.trans_ne hmagic) i
        rw [member_eq_some_iff.mpr ⟨hattached, rfl⟩] at hnone
        cases hnone
    | created hnone hentry hcreators hme' hobject =>
      rw [hattached] at hme'
      cases hme'
      rw [hobject]
      exact ⟨hentry, .inr ⟨hnone, by rw [hcreators, Function.update_self]⟩⟩
    | spoiled _ _ _ hdetached =>
      rw [hattached] at hdetached
      cases hdetached

/-- **A name is its creator's.** Whatever managers do, as long as nobody takes the name of
a key away by force: at every moment one manager at most is the creator of a key, and
while there is one the name leads to the object that it has made. A name without a
creator leads to an object that nobody is attached to, left behind by an attempt to make
it that failed; without such an attempt there is the name if and only if there is its one
creator. What a name leads to stays, whatever manager is called for whatever,
until the manager that has made it ends. And whoever attaches or reattaches is attached
to the object that the name leads to: the one of the creator that there is, or one that
it has made itself under a name that was free. -/
theorem name_is_creators {past : List Moment} {w : World} (hrun : Run past w) {key : Key}
    (hkept : ∀ moment ∈ past, moment.call ≠ .unlink key) :
    (∀ i j, w.isCreator key i = true → w.isCreator key j = true → i = j) ∧
    (∀ i, w.isCreator key i = true →
      ∃ number, w.host.entry? key = some (.object number) ∧ maker? number past = some i) ∧
    (∀ entry, w.host.entry? key = some entry → (∃ i, w.isCreator key i = true) ∨
      ∃ number, entry = .object number ∧ (∃ moment ∈ past, moment.spoils key = true) ∧
        ∀ i, w.member number i = none) ∧
    ((∀ moment ∈ past, moment.spoils key = false) →
      (w.host.hasName key = true ↔ ∃! i, w.isCreator key i = true)) ∧
    (∀ call entry, call ≠ .unlink key → w.host.entry? key = some entry →
      Host.entry? (w.step call).host key = some entry ∨
      ∃ i number, call = .drop i ∧ w.isCreator key i = true ∧ entry = .object number ∧
        maker? number past = some i ∧ Host.entry? (w.step call).host key = none) ∧
    ∀ call i manager me, w.entrant? call = some i → (w.step call).manager? i = some manager →
      manager.key = key → manager.attachment = some me →
        Host.entry? (w.step call).host key = some (.object me.object) ∧
        ((∃ j, w.isCreator key j = true ∧ w.host.entry? key = some (.object me.object)) ∨
          w.host.entry? key = none ∧ (w.step call).isCreator key i = true) := by
  have hw := hrun.coherent
  have h := hrun.entitled hkept
  refine ⟨fun i j hi hj => h.unique hi hj, fun i hi => h.creator hi, fun entry hname => ?_,
    h.hasName_iff, fun call entry hcall hname => h.lasts hw hcall hname,
    fun call i manager me hnew hmanager hkey hme => h.attached hw hnew hmanager hkey hme⟩
  obtain ⟨number, segment, heq, hsegment, hcases⟩ := h.entry hname
  exact hcases.imp_right fun hleft =>
    ⟨number, heq, hleft.2, hw.member_of_unready hsegment hleft.1⟩

/-- A creator leaves its object and comes back to it under another id, and a guest ends. -/
theorem name_is_creators_guest :
    let config : Segment.Config := ⟨7, 1, 8, 0, true, 0⟩
    let calls : List Call := [.attach config .manual, .attach config .manual, .detach 0,
      .reattach 0, .drop 1]
    let past := (run calls).1
    let w := (run calls).2
    (∀ moment ∈ past, moment.call ≠ .unlink 7) ∧ w.isCreator 7 0 = true ∧
      (∀ i, w.isCreator 7 i = true → i = 0) ∧
      ∃ number, w.host.entry? 7 = some (.object number) ∧ maker? number past = some 0 := by
  intro config calls past w
  have hkept : ∀ moment ∈ past, moment.call ≠ .unlink 7 := by decide +kernel
  have hcreator : w.isCreator 7 0 = true := by decide +kernel
  obtain ⟨hunique, hname, -⟩ := name_is_creators (run_run calls) hkept
  exact ⟨hkept, hcreator, fun i hi => hunique i 0 hi hcreator, hname 0 hcreator⟩

/-- **A name without a creator.** An attempt to make an object of a size that no object
may have fails, but the name is taken by then; it has no creator that could take it away
again, and whoever comes after that cannot attach. -/
theorem name_without_creator :
    let huge : Segment.Config := ⟨7, 1, 0x8000000000000000, 0, true, 0⟩
    let config : Segment.Config := ⟨7, 1, 8, 0, true, 0⟩
    let w := (run [.attach huge .manual]).2
    let w' := w.step (.attach config .manual)
    w.host.hasName 7 = true ∧ (∀ i, w.isCreator 7 i = false) ∧
      w'.host.hasName 7 = true ∧ (∀ i, w'.isCreator 7 i = false) ∧ w'.attachment? 1 = none := by
  intro huge config w w'
  have hnobody : ∀ v : World, v.managers.all (·.isNone) = true →
      ∀ i, v.isCreator 7 i = false := by
    intro v hv i
    cases hfound : v.managers[i]? with
    | none => simp [isCreator, manager?, hfound]
    | some place =>
      have hplace := List.all_eq_true.mp hv place (List.mem_of_getElem? hfound)
      simp [isCreator, manager?, hfound, Option.isNone_iff_eq_none.mp hplace]
  exact ⟨by decide +kernel, hnobody w (by decide +kernel), by decide +kernel,
    hnobody w' (by decide +kernel), by decide +kernel⟩

end World

end SlotTransport
