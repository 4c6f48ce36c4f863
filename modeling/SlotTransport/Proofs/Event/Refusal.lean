/-
Events that are refused. Before it looks for a slot an emitter compares the event with the
slots of its segment. An event that is larger is refused and nothing has changed
(`emit_idle`); one that is not may find no slot, but that is no failure (`exists_emitted`). A
manager that is detached has slots of no bytes for all that the emitter knows, and so any
event is too large for it (`small_event_too_large`).
-/
import SlotTransport.Proofs.Event.Packing

namespace SlotTransport

open Segment Event

namespace World

variable {w : World} {seats : Seats} {endpoint : Endpoint} {source : Source} {i : Nat}
  {manager : Manager} {me : Attachment}

theorem exists_manager_of_seat? (h : w.endpoint? seats = some endpoint)
    (hseat : seats.seat? source = some i) :
    ∃ manager, endpoint.manager? source = some manager ∧ w.manager? i = some manager := by
  have hsame := manager?_of_seat? h hseat
  obtain ⟨hdata, hbroadcast⟩ := endpoint?_eq_some_iff.mp h
  cases source with
  | data => exact ⟨endpoint.data, rfl, hsame.symm⟩
  | broadcast =>
    have hi : seats.broadcast = some i := hseat
    rw [hi, Option.map_some] at hbroadcast
    obtain ⟨manager, hmanager, -⟩ := Option.map_eq_some_iff.mp hbroadcast.symm
    exact ⟨manager, hmanager, hsame.symm.trans hmanager⟩

theorem Coherent.exists_slotSize (hw : w.Coherent) (hi : w.manager? i = some manager)
    (hme : w.attachment? i = some me) : ∃ segment, w.segment? me.object = some segment ∧
      manager.slotSize w.host = segment.slotSize := by
  rw [attachment?_eq hi] at hme
  obtain ⟨segment, hsegment, hm⟩ := hw.mapping? hi hme
  exact ⟨segment, hsegment, Manager.slotSize_of_mapping? hm⟩

theorem slotSize_of_detached (hi : w.manager? i = some manager)
    (hnone : w.attachment? i = none) : manager.slotSize w.host = 0 := by
  rw [attachment?_eq hi] at hnone
  exact Manager.slotSize_of_none (mapping?_of_detached hnone)

end World

namespace Scene

variable {past : List Moment} {s : Scene} {seats : Seats} {endpoint : Endpoint}
  {source : Source} {header : Header} {fragments : List Fragment} {overwrite : Bool}
  {destination : Destination}

theorem emit_idle (hendpoint : s.world.endpoint? seats = some endpoint)
    {answer : Except Event.Error Bool}
    (hon : (EventEmitter.emit source header fragments overwrite destination).on ⟨endpoint⟩
      s.world.host = (answer, ⟨endpoint⟩, s.world.host)) :
    s.reply? (.emit seats source header fragments overwrite destination) =
        some (answer.map .flag) ∧
      s.step (.emit seats source header fragments overwrite destination) = s := by
  simp only [reply?, step, hendpoint, packed, hon, Option.map_some, true_and]
  rw [World.withEndpoint_self hendpoint]

/-- An event for which a slot has room is not refused. -/
theorem exists_emitted {manager : Manager} (hendpoint : s.world.endpoint? seats = some endpoint)
    (hmanager : endpoint.manager? source = some manager)
    (hroom : packedSize fragments ≤ manager.slotSize s.world.host) :
    ∃ flag, s.reply? (.emit seats source header fragments overwrite destination) =
      some (.ok (.flag flag)) := by
  obtain ⟨flag, emitter, host', hon, -⟩ := EventEmitter.on_emit_of_room hmanager hroom
  refine ⟨flag, ?_⟩
  simp only [reply?, hendpoint, packed, Option.map_some]
  rw [hon]
  rfl

end Scene

namespace EventEmitter

open Scene (Run)

/-- **When an event is refused.** Whatever has happened, an emitter that has no manager for
broadcasts says so. One whose manager is attached says that an event is too large exactly if
its record is larger than a slot of the segment; otherwise it does not fail, and tells whether
it found a slot. And one whose manager is detached says of every event that it is too large.
In any case, where an event is refused nothing at all has changed. -/
theorem refused_exactly {past : List Scene.Moment} {s : Scene} (hrun : Run past s) {seats : Seats}
    {endpoint : Endpoint} (hendpoint : s.world.endpoint? seats = some endpoint) (source : Source)
    (header : Header) (fragments : List Fragment) (overwrite : Bool) (destination : Destination) :
    let call := Scene.Call.emit seats source header fragments overwrite destination
    ∃ answer, s.reply? call = some answer ∧
      (seats.seat? source = none → answer = .error (.segment .notAttached)) ∧
      (∀ i, seats.seat? source = some i → s.world.attachment? i = none →
        answer = .error (tooLarge fragments)) ∧
      (∀ i me, seats.seat? source = some i → s.world.attachment? i = some me →
        ∃ segment, s.world.segment? me.object = some segment ∧
          (segment.slotSize < packedSize fragments → answer = .error (tooLarge fragments)) ∧
          (packedSize fragments ≤ segment.slotSize → ∃ packed, answer = .ok (.flag packed))) ∧
      ∀ cause, answer = .error cause → s.step call = s := by
  intro call
  cases hmanager : endpoint.manager? source with
  | none =>
    obtain ⟨hreply, hstep⟩ := Scene.emit_idle hendpoint (on_emit_of_none hmanager)
    have hnobody : ∀ i, seats.seat? source ≠ some i := by
      intro i hi
      obtain ⟨manager, hsome, -⟩ := World.exists_manager_of_seat? hendpoint hi
      cases hmanager.symm.trans hsome
    exact ⟨_, hreply, fun _ => rfl, fun i hi => absurd hi (hnobody i),
      fun i _ hi => absurd hi (hnobody i), fun _ _ => hstep⟩
  | some manager =>
    obtain ⟨i, hseat, hi, -⟩ := World.exists_seat hendpoint hmanager
    have hsomebody : seats.seat? source ≠ none := by
      rw [hseat]
      exact Option.some_ne_none i
    by_cases hsmall : manager.slotSize s.world.host < packedSize fragments
    · obtain ⟨hreply, hstep⟩ := Scene.emit_idle hendpoint (on_emit_of_small hmanager hsmall)
      refine ⟨_, hreply, fun hnone => absurd hnone hsomebody, fun _ _ _ => rfl,
        fun j me hj hme => ?_, fun _ _ => hstep⟩
      cases hseat.symm.trans hj
      obtain ⟨segment, hsegment, hsize⟩ := hrun.coherent.exists_slotSize hi hme
      rw [hsize] at hsmall
      exact ⟨segment, hsegment, fun _ => rfl, fun hfits => absurd hfits (Nat.not_le.mpr hsmall)⟩
    · have hroom := Nat.not_lt.mp hsmall
      obtain ⟨flag, hreply⟩ := Scene.exists_emitted hendpoint hmanager hroom
      refine ⟨_, hreply, fun hnone => absurd hnone hsomebody, fun j hj hnone => ?_,
        fun j me hj hme => ?_, fun cause hcause => by cases hcause⟩
      · cases hseat.symm.trans hj
        rw [World.slotSize_of_detached hi hnone] at hroom
        exact absurd ((size_le_packedSize fragments).trans hroom) (by decide)
      · cases hseat.symm.trans hj
        obtain ⟨segment, hsegment, hsize⟩ := hrun.coherent.exists_slotSize hi hme
        rw [hsize] at hroom
        exact ⟨segment, hsegment, fun hlarge => absurd hroom (Nat.not_le.mpr hlarge),
          fun _ => ⟨flag, rfl⟩⟩

/-- An event of 72 bytes for a slot of 64, and nobody to broadcast anything. -/
theorem refused_exactly_large :
    let s := (Scene.run [.world (.attach (.new 7 1 64) .manual)]).2
    let seats : Seats := ⟨0, none, nofun⟩
    let header : Header := .new 1 2 3 4
    let fs : List Fragment := [Fragment.build 1 2 (.ofRaw 3) [] [5]].filterMap Except.toOption
    let emit (source : Source) (fragments : List Fragment) : Scene.Call :=
      .emit seats source header fragments false .any
    (s.world.endpoint? seats).isSome = true ∧ packedSize fs = 72 ∧
      s.reply? (emit .data fs) = some (.error (tooLarge fs)) ∧ s.step (emit .data fs) = s ∧
      s.reply? (emit .broadcast fs) = some (.error (.segment .notAttached)) ∧
      ∃ flag, s.reply? (emit .data []) = some (.ok (.flag flag)) := by
  intro s seats header fs emit
  have hrun := Scene.run_run [.world (.attach (.new 7 1 64) .manual)]
  have hsome : (s.world.endpoint? seats).isSome = true := by decide +kernel
  obtain ⟨endpoint, hendpoint⟩ := Option.isSome_iff_exists.mp hsome
  have hattached : (s.world.attachment? 0).any (fun me =>
      (s.world.segment? me.object).map (·.slotSize) == some 64) = true := by decide +kernel
  obtain ⟨me, hme, hsize⟩ := (Option.any_eq_true ..).mp hattached
  rw [beq_iff_eq] at hsize
  obtain ⟨answer, hreply, -, -, hlarge, hidle⟩ :=
    refused_exactly hrun hendpoint .data header fs false .any
  obtain ⟨_, hnobody, hnone, -⟩ := refused_exactly hrun hendpoint .broadcast header fs false .any
  obtain ⟨_, hsmall, -, -, hfits, -⟩ :=
    refused_exactly hrun hendpoint .data header [] false .any
  obtain ⟨segment, hsegment, hrefused, -⟩ := hlarge 0 me rfl hme
  obtain ⟨segment', hsegment', -, hpacked⟩ := hfits 0 me rfl hme
  cases hsegment.symm.trans hsegment'
  rw [hsegment, Option.map_some, Option.some.injEq] at hsize
  have hanswer : answer = .error (tooLarge fs) := hrefused (by rw [hsize]; decide +kernel)
  obtain ⟨flag, hflag⟩ := hpacked (by rw [hsize]; decide +kernel)
  exact ⟨hsome, by decide +kernel, hanswer ▸ hreply, hidle _ hanswer,
    hnone rfl ▸ hnobody, flag, hflag ▸ hsmall⟩

/-- **A detached emitter blames the size.** The slot had 64 bytes and the event has 32, which
was packed as long as the manager was attached. Once it is detached, the event is said to be
too large, and not that nobody is attached. -/
theorem small_event_too_large :
    let attach : Scene.Call := .world (.attach (.new 7 1 64) .manual)
    let emit : Scene.Call := .emit ⟨0, none, nofun⟩ .data (.new 1 2 3 4) [] false .any
    let before := (Scene.run [attach]).2
    let s := (Scene.run [attach, .world (.detach 0)]).2
    (before.world.segment? 0).map (·.slotSize) = some 64 ∧ packedSize [] = 32 ∧
      before.reply? emit = some (.ok (.flag true)) ∧ s.world.attachment? 0 = none ∧
      s.reply? emit = some (.error (.framing (.tooLarge 4))) ∧
      s.reply? emit ≠ some (.error (.segment .notAttached)) := by
  decide +kernel

end EventEmitter

end SlotTransport
