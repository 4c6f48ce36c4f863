/-
How a manager's attachment begins and ends, whatever is on the host.
`connect_cases` lists what an attempt to attach may come to; `shutdown_eq` and
`drop_eq` say what a manager with a segment leaves behind.
-/
import SlotTransport.Manager.Attach

namespace SlotTransport

open Segment

theorem Segment.magic_of_joinable {segment : Segment} {key : Key}
    (h : segment.joinable key = .ok ()) : segment.control.magic = readyMagic := by
  unfold joinable at h
  split at h
  · cases h
  · rename_i hready
    exact Decidable.byContradiction fun hmagic => hready (.inr hmagic)

theorem Segment.isCut_cut (segment : Segment) (geometry : Geometry) :
    (segment.cut geometry).isCut geometry = true := by
  unfold cut
  split
  · assumption
  · simp [isCut, ofImage]

namespace Host

theorem join_cases (host : Host) (config : Segment.Config) (number : Nat) (segment : Segment) :
    (∃ cause, host.join config number segment = (.error cause, host)) ∨
      segment.joinable config.key = .ok () ∧
        host.join config number segment =
          (.ok (.new number segment.control.nextId segment.control),
            host.store number segment.joined) := by
  unfold join
  split
  · exact .inl ⟨_, rfl⟩
  · split
    · exact .inl ⟨_, rfl⟩
    · cases hjoin : segment.joinable config.key with
      | error cause => exact .inl ⟨cause, rfl⟩
      | ok _ => exact .inr ⟨rfl, rfl⟩

/-- To create an object may leave one behind that nobody can join. -/
theorem create_cases (host : Host) (config : Segment.Config) (now : Nat) :
    (∃ cause, host.create config now = (.error cause, host)) ∨
      (∃ cause size, host.create config now =
        (.error cause, host.place config.key (.blank size))) ∨
      ∃ size, config.geometry.size? = some size ∧
        host.create config now =
          (.ok (.new host.objects.length creatorId (.created config)),
            host.place config.key (.formatted config size.toNat now)) := by
  unfold create
  cases hsize : config.geometry.size? with
  | none => exact .inl ⟨_, rfl⟩
  | some size =>
    simp only
    split
    · exact .inr (.inl ⟨_, 0, rfl⟩)
    · split
      · exact .inr (.inl ⟨_, size.toNat, rfl⟩)
      · exact .inr (.inr ⟨size, rfl, rfl⟩)

/-! ## Objects of a host -/

@[simp] theorem objects_store (host : Host) (number : Nat) (segment : Segment) :
    (host.store number segment).objects = host.objects.set number segment :=
  rfl

@[simp] theorem store_store (host : Host) (number : Nat) (a b : Segment) :
    (host.store number a).store number b = host.store number b := by
  simp [store]

@[simp] theorem objects_withoutName (host : Host) (key : Key) :
    (host.withoutName key).objects = host.objects :=
  rfl

@[simp] theorem objects_unlink (host : Host) (key : Key) :
    (host.unlink key).objects = host.objects := by
  unfold unlink
  split <;> rfl

@[simp] theorem objects_place (host : Host) (key : Key) (segment : Segment) :
    (host.place key segment).objects = host.objects ++ [segment] :=
  rfl

end Host

namespace Manager

/-- What an attempt to attach may come to. -/
inductive Connected (manager : Manager) (host : Host) :
    Except Segment.Error Unit → Manager → Host → Prop where
  | failed (cause : Segment.Error) : Connected manager host (.error cause) manager host
  /-- An object is left that nobody can join. -/
  | spoiled (cause : Segment.Error) (size : Nat) (hname : host.entry? manager.key = none) :
    Connected manager host (.error cause) manager (host.place manager.key (.blank size))
  | joined {number : Nat} {segment : Segment} (hname : host.number? manager.key = some number)
    (hobject : host.objects[number]? = some segment)
    (hjoinable : segment.joinable manager.key = .ok ()) :
    Connected manager host (.ok ())
      { manager with attachment := some (.new number segment.control.nextId segment.control) }
      (host.store number segment.joined)
  | created {size : UInt64} (hname : host.entry? manager.key = none)
    (hmay : manager.config.mayCreate = true)
    (hsize : manager.config.geometry.size? = some size) :
    Connected manager host (.ok ())
      { manager with
        attachment := some (.new host.objects.length creatorId (.created manager.config))
        created := true }
      (host.place manager.key (.formatted manager.config size.toNat (manager.now host)))

theorem connect_cases (manager : Manager) (host : Host) :
    Connected manager host (connect.on manager host).1 (connect.on manager host).2.1
      (connect.on manager host).2.2 := by
  simp only [connect, Action.on_of]
  cases manager.config.validate with
  | error cause => exact .failed _
  | ok _ =>
    simp only
    cases hentry : host.entry? manager.config.key with
    | none =>
      simp only
      by_cases hmay : manager.config.mayCreate = true
      · rw [if_pos hmay]
        rcases host.create_cases manager.config (manager.now host) with
          ⟨cause, h⟩ | ⟨cause, size, h⟩ | ⟨size, hsize, h⟩
        · rw [h]
          exact .failed cause
        · rw [h]
          exact .spoiled cause size hentry
        · rw [h]
          exact .created hentry hmay hsize
      · rw [if_neg hmay]
        exact .failed _
    | some entry =>
      cases entry with
      | directory => exact .failed _
      | object number =>
        simp only
        cases hobject : host.objects[number]? with
        | none => exact .failed _
        | some segment =>
          simp only
          rcases host.join_cases manager.config number segment with ⟨cause, h⟩ | ⟨hjoin, h⟩
          · rw [h]
            exact .failed cause
          · rw [h]
            refine .joined ?_ hobject hjoin
            simp only [Host.number?, key, hentry]

/-- What a new manager has to do with an object that there is: it has joined it,
or the object is as it was and the manager, if there is one, is attached to
another. -/
theorem attach_cases {host : Host} {number : Nat} {segment : Segment} (config : Segment.Config)
    (time : TimeSource) (hobject : host.objects[number]? = some segment) :
    (∃ manager, (attach config time host).1 = .ok manager ∧
      manager.attachment = some (.new number segment.control.nextId segment.control) ∧
      segment.control.magic = readyMagic ∧
      (attach config time host).2.objects[number]? = some segment.joined) ∨
    ((attach config time host).2.objects[number]? = some segment ∧
      ∀ manager, (attach config time host).1 = .ok manager →
        manager.attachment.map (·.object) ≠ some number) := by
  have hconnect := connect_cases ⟨config, time, false, none⟩ host
  obtain ⟨hlt, -⟩ := List.getElem?_eq_some_iff.mp hobject
  rcases h : connect.on ⟨config, time, false, none⟩ host with ⟨answer, manager, host'⟩
  have hattach : attach config time host = (answer.map fun () => manager, host') := by
    simp only [attach, h]
  have hplaced : ∀ key placed, (host.place key placed).objects[number]? = some segment := by
    intro key placed
    rw [Host.objects_place, List.getElem?_append_left hlt]
    exact hobject
  rw [h] at hconnect
  rw [hattach]
  cases hconnect with
  | failed cause => exact .inr ⟨hobject, fun _ hmanager => nomatch hmanager⟩
  | spoiled cause size => exact .inr ⟨hplaced _ _, fun _ hmanager => nomatch hmanager⟩
  | @joined number' segment' hname hobject' hjoinable =>
    by_cases hnumber : number' = number
    · subst hnumber
      rw [hobject] at hobject'
      cases hobject'
      exact .inl ⟨_, rfl, rfl, magic_of_joinable hjoinable, List.getElem?_set_self hlt⟩
    · refine .inr ⟨(List.getElem?_set_ne hnumber).trans hobject, fun manager hmanager hsame => ?_⟩
      cases hmanager
      exact hnumber (Option.some.inj hsame)
  | created hname hmay hsize =>
    refine .inr ⟨hplaced _ _, fun manager hmanager hsame => ?_⟩
    cases hmanager
    exact Nat.ne_of_gt hlt (Option.some.inj hsame)

theorem attach_created {config : Segment.Config} {time : TimeSource} {host host' : Host}
    {manager : Manager} (hname : host.entry? config.key = none)
    (h : attach config time host = (.ok manager, host')) :
    ∃ size now, config.mayCreate = true ∧
      manager.attachment = some (.new host.objects.length creatorId (.created config)) ∧
      host'.objects = host.objects ++ [.formatted config size now] := by
  have hconnect := connect_cases ⟨config, time, false, none⟩ host
  rcases hon : connect.on ⟨config, time, false, none⟩ host with ⟨answer, joined, after⟩
  rw [hon] at hconnect
  have hattach : attach config time host = (answer.map fun () => joined, after) := by
    simp only [attach, hon]
  rw [hattach] at h
  cases hconnect with
  | failed | spoiled => cases h
  | joined hnumber =>
    simp only [Host.number?, key, hname] at hnumber
    cases hnumber
  | created _ hmay =>
    cases h
    exact ⟨_, _, hmay, rfl, rfl⟩

/-! ## What an attached manager knows -/

section Known

variable {manager : Manager} {host : Host} {m : Mapping}

theorem mapping?_eq_some_iff : manager.mapping? host = some m ↔
    ∃ me segment, manager.attachment = some me ∧ host.objects[me.object]? = some segment ∧
      m = ⟨me, manager.now host, segment.cut me.geometry⟩ := by
  simp only [mapping?, Option.bind_eq_bind, Option.bind_eq_some_iff, Option.pure_def,
    Option.some.injEq]
  grind

theorem mapping?_stored (h : manager.mapping? host = some m) :
    mapping? { manager with attachment := some m.me } (host.store m.me.object m.segment) =
      some m := by
  obtain ⟨me, segment, -, hobject, rfl⟩ := mapping?_eq_some_iff.mp h
  obtain ⟨hlt, -⟩ := List.getElem?_eq_some_iff.mp hobject
  refine mapping?_eq_some_iff.mpr ⟨me, segment.cut me.geometry, rfl, ?_, ?_⟩
  · rw [Host.objects_store, List.getElem?_set_self hlt]
  · rw [cut_of_isCut (isCut_cut segment me.geometry)]
    rfl

theorem isAttached_of_mapping? (h : manager.mapping? host = some m) :
    manager.isAttached = true := by
  cases hme : manager.attachment with
  | none => simp [mapping?, hme] at h
  | some me => simp [isAttached, hme]

theorem slotSize_of_mapping? (h : manager.mapping? host = some m) :
    manager.slotSize host = m.segment.slotSize := by
  rw [slotSize, seen, h]
  rfl

theorem slotSize_of_none (h : manager.mapping? host = none) : manager.slotSize host = 0 := by
  rw [slotSize, seen, h]
  rfl

end Known

/-! ## The end of a manager -/

theorem shutdown_eq {manager : Manager} {host : Host} {m : Mapping} (destroy : Bool)
    (hm : manager.mapping? host = some m) (hend : (destroy && manager.created) = false) :
    manager.shutdown destroy host =
      ({ manager with attachment := none }, host.store m.me.object m.left) := by
  simp [shutdown, hm, hend]

theorem shutdown_of_detached {manager : Manager} {host : Host} (destroy : Bool)
    (hm : manager.mapping? host = none) :
    manager.shutdown destroy host = ({ manager with attachment := none }, host) := by
  simp [shutdown, hm]

/-- The segment that a creator ends with. -/
def ended (m : Mapping) : Segment :=
  { m.left with control := { m.left.control with endOfData := 1 } }

theorem drop_eq {manager : Manager} {host : Host} {m : Mapping}
    (hm : manager.mapping? host = some m) :
    manager.drop host =
      if manager.created then (host.store m.me.object (ended m)).unlink manager.key
      else host.store m.me.object m.left := by
  cases hcreated : manager.created <;>
    simp [drop, shutdown, hm, hcreated, isAttached_of_mapping? hm, ended]

end Manager

end SlotTransport
