/-
Packed events survive their slot. An emitter that says that it has packed an event has
published the record of it (`exists_packed`), and whoever comes to hold a record of that
sequence id is told what was packed (`packed_event_survives`): the record may have gone
through many hands, but a sequence id names one record.
-/
import SlotTransport.Proofs.Channel.Exchange
import SlotTransport.Proofs.Event.Scene
import SlotTransport.Proofs.Operation.Incident
import SlotTransport.Proofs.World.Continuity

namespace SlotTransport

open Segment Event

/-! ## Appending -/

namespace Segment

theorem Slot.content_append {s : Slot} {data : Bytes}
    (hword : s.writePos + data.length < UInt64.size) :
    (s.append data).content = s.content ++ data := by
  have hlength : (s.memory.zeroExtended s.writePos ++ data).length = s.writePos + data.length := by
    rw [List.length_append, Bytes.length_zeroExtended]
  simp only [Slot.content, Slot.bytesAt, Slot.append, List.drop_zero, Word.wrap_of_lt hword]
  rw [Bytes.zeroExtended, List.take_left' hlength]
  simp [Bytes.zeros]

end Segment

/-! ## Emitters -/

namespace EventEmitter

variable {endpoint : Endpoint} {source : Source} {host host' : Host} {m after : Mapping} {k : Nat}
  {s : Slot} {α β : Type} {header : Header} {fragments : List Fragment} {overwrite : Bool}
  {destination : Destination} {emitter : EventEmitter} {manager : Manager}

theorem on_guarded {op : Program α} {answer : α}
    (h : endpoint.mapping? source host = some m) (hop : op.on m = (.ok answer, after))
    (hobject : after.me.object = m.me.object) :
    (onSource source (Manager.guarded op)).on ⟨endpoint⟩ host =
      (.ok answer, ⟨endpoint.follow source after.me⟩, after.onto host) := by
  simp only [onSource, Action.within, Action.on_of, Endpoint.on_guarded h hop hobject]
  rfl

theorem on_map (f : α → β) (action : Action Manager Segment.Error α) (endpoint : Endpoint)
    (host : Host) :
    (onSource source (f <$> action)).on ⟨endpoint⟩ host =
      (f <$> onSource source action).on ⟨endpoint⟩ host := by
  rw [Action.on_map]
  simp only [onSource, Action.within, Action.on_of, Endpoint.on]
  cases endpoint.manager? source with
  | none => rfl
  | some manager =>
    simp only [Action.on_map]
    rcases action.on manager host with ⟨answer | answer, manager', host'⟩ <;> rfl

theorem on_slotSize (h : endpoint.manager? source = some manager) :
    (onSource source (Action.ask Manager.slotSize)).on ⟨endpoint⟩ host =
      (.ok (manager.slotSize host), ⟨endpoint⟩, host) := by
  simp only [onSource, Action.within, Action.on_of, Endpoint.on, h, Action.on_ask,
    Endpoint.withManager_self h]
  rfl

theorem on_leaseForWriting (h : endpoint.mapping? source host = some m) (overwrite : Bool) :
    (onSource source (Manager.leaseForWriting overwrite)).on ⟨endpoint⟩ host =
      (.ok ((m.claimForWriting overwrite).1.map WriteLease.mk),
        ⟨endpoint.follow source (m.claimForWriting overwrite).2.me⟩,
        (m.claimForWriting overwrite).2.onto host) := by
  have hobject := (Mapping.kept_claimForWriting m overwrite).me.object
  rw [Manager.leaseForWriting, bind_pure_comp, on_map, Action.on_map, Manager.claimForWriting,
    on_guarded h (Program.on_claimForWriting overwrite m) hobject]
  rfl

theorem on_steady {op : Program α} {answer : α}
    (h : endpoint.mapping? source host = some m) (hop : op.on m = (.ok answer, after))
    (hme : after.me = m.me) :
    (onSource source (Manager.guarded op)).on ⟨endpoint⟩ host =
      (.ok answer, ⟨endpoint⟩, after.onto host) := by
  rw [on_guarded h hop (by rw [hme]), hme, Endpoint.follow_self h]

theorem on_write (h : endpoint.mapping? source host = some m) (hs : m.slots[k]? = some s)
    (hword : s.word = .of .writing m.me.id) (bytes : Bytes)
    (hroom : s.writePos + bytes.length ≤ m.segment.slotSize) :
    (onSource source (WriteLease.write ⟨k⟩ bytes)).on ⟨endpoint⟩ host =
      (.ok (), ⟨endpoint⟩, (m.store k ((s.append bytes).touched m.now)).onto host) :=
  on_steady h (Program.on_of_done (Program.on_write k bytes m)
    (Mapping.write_of_word hs hword hroom)) rfl

theorem on_fill (h : endpoint.mapping? source host = some m) (hs : m.slots[k]? = some s)
    (hword : s.word = .of .writing m.me.id) (parts : List Bytes)
    (hroom : s.writePos + parts.flatten.length ≤ m.segment.slotSize) :
    ∃ t host', (fill source ⟨k⟩ parts).on ⟨endpoint⟩ host = (.ok (), ⟨endpoint⟩, host') ∧
      endpoint.mapping? source host' = some (m.store k t) ∧ t.word = s.word ∧
      t.content = s.content ++ parts.flatten := by
  induction parts generalizing m s host with
  | nil => exact ⟨s, host, rfl, by rw [Mapping.store_self hs]; exact h, rfl, by simp⟩
  | cons bytes others ih =>
    rw [List.flatten_cons, List.length_append] at hroom
    have hword' : s.writePos + bytes.length < UInt64.size :=
      Nat.lt_of_le_of_lt (by omega) (Endpoint.slotSize_lt h)
    have hwrite := on_write h hs hword bytes (by omega)
    have hnext := Endpoint.mapping?_store h k ((s.append bytes).touched m.now)
    have hs' := Mapping.slots_touch hs (s.append bytes)
    obtain ⟨t, host', hfill, hmapping, ht, hcontent⟩ := ih hnext hs' hword (by
      rw [Slot.writePos_touched]
      show Word.wrap (s.writePos + bytes.length) + others.flatten.length ≤ m.segment.slotSize
      rw [Word.wrap_of_lt hword']
      omega)
    rw [Mapping.store_store] at hmapping
    refine ⟨t, host', ?_, hmapping, ht, ?_⟩
    · rw [fill]
      have htry : (tryCatch (onSource source (WriteLease.write ⟨k⟩ bytes)) fun cause => do
          onSource source (WriteLease.drop ⟨k⟩)
          throw cause).on ⟨endpoint⟩ host =
            (.ok (), ⟨endpoint⟩, (m.store k ((s.append bytes).touched m.now)).onto host) := by
        rw [Action.on_tryCatch, hwrite]
      exact (Action.on_bind_ok htry _).trans hfill
    · have happend : ((s.append bytes).touched m.now).content = s.content ++ bytes :=
        Slot.content_append hword'
      rw [hcontent, happend, List.flatten_cons, List.append_assoc]

theorem on_commit (h : endpoint.mapping? source host = some m) (hs : m.slots[k]? = some s)
    (hword : s.word = .of .writing m.me.id) (destination : Destination) :
    ∃ after host', (onSource source (WriteLease.commit ⟨k⟩ destination)).on ⟨endpoint⟩ host =
        (.ok true, ⟨endpoint⟩, host') ∧
      endpoint.mapping? source host' = some after ∧ after.me = m.me ∧
      after.slots[k]? = some
        ((s.published (m.segment.control.lastSequenceId + 1) destination.owner).touched m.now) := by
  obtain ⟨after, hop, hmove, hme, hslot⟩ : ∃ after, m.publish k destination = .ok (true, after) ∧
      m.Move (.publish k destination) (.flag true) after ∧ after.me = m.me ∧
      after.slots[k]? = some ((s.published (m.segment.control.lastSequenceId + 1)
        destination.owner).touched m.now) :=
    ⟨_, Mapping.publish_of_word hs hword destination, .published hs hword, rfl,
      Mapping.slots_touch hs _⟩
  have hmapping := Endpoint.mapping?_follow h hmove.kept
  rw [hme, Endpoint.follow_self h] at hmapping
  exact ⟨after, _, on_steady h (Program.on_of_settled (Program.on_publish k destination m) hop) hme,
    hmapping, hme, hslot⟩

/-- What is written into a slot that was claimed is published, if there is room for it. -/
theorem exists_published (h : endpoint.mapping? source host = some m)
    (hclaim : (m.claimForWriting overwrite).1 = some k) (parts : List Bytes)
    (hroom : parts.flatten.length ≤ m.segment.slotSize) (destination : Destination) :
    ∃ after host' t, (do
        fill source ⟨k⟩ parts
        onSource source (WriteLease.commit ⟨k⟩ destination) :
          Action EventEmitter Event.Error Bool).on
            ⟨endpoint.follow source (m.claimForWriting overwrite).2.me⟩
            ((m.claimForWriting overwrite).2.onto host) =
          (.ok true, ⟨endpoint.follow source (m.claimForWriting overwrite).2.me⟩, host') ∧
      (endpoint.follow source (m.claimForWriting overwrite).2.me).mapping? source host' =
        some after ∧
      after.me.object = m.me.object ∧ after.slots[k]? = some t ∧ t.state = .full ∧
      t.sequenceId = m.segment.control.lastSequenceId + 1 ∧ t.content = parts.flatten := by
  have hkept := Mapping.kept_claimForWriting m overwrite
  have hlast := Mapping.lastSequenceId_claimForWriting m overwrite
  obtain ⟨s, hs, hword, hempty⟩ : ∃ s, (m.claimForWriting overwrite).2.slots[k]? = some s ∧
      s.word = .of .writing m.me.id ∧ s.writePos = 0 := by
    rcases m.claimForWriting_cases overwrite with ⟨hnone, -⟩ | ⟨_, slot, _, s, -, -, hs, -, hsome⟩
    · rw [hnone] at hclaim
      cases hclaim
    · obtain rfl : slot = k := by
        rw [hsome] at hclaim
        exact Option.some.inj hclaim
      exact ⟨_, Mapping.slots_claimForWriting hclaim hs, rfl, rfl⟩
  generalize (m.claimForWriting overwrite).2 = claimed at *
  rw [← hkept.me.id] at hword
  have hmapping := Endpoint.mapping?_follow h hkept
  obtain ⟨t, host', hfill, hmapping', ht, hcontent⟩ := on_fill hmapping hs hword parts (by
    rw [hempty, Nat.zero_add, hkept.segment.slotSize]
    exact hroom)
  obtain ⟨hlt, -⟩ := List.getElem?_eq_some_iff.mp hs
  have ht' : (claimed.store k t).slots[k]? = some t := by
    rw [Mapping.slots_store, List.getElem?_set_self hlt]
  obtain ⟨after, host'', hcommit, hafter, hme, hslot⟩ :=
    on_commit hmapping' ht' (ht.trans hword) destination
  refine ⟨after, host'', _, (Action.on_bind_ok hfill _).trans hcommit, hafter, ?_, hslot, rfl, ?_,
    ?_⟩
  · rw [hme]
    exact hkept.me.object
  · exact congrArg (· + 1) hlast
  · have hnothing : s.content = [] := List.eq_nil_of_length_eq_zero (by
      rw [Slot.length_content, hempty])
    rw [hnothing, List.nil_append] at hcontent
    exact hcontent

/-- What is said of an event that is larger than a slot. -/
def tooLarge (fragments : List Fragment) : Event.Error :=
  .framing (.tooLarge (packedSize fragments / Fragment.wordSize))

theorem on_emit_of_none (h : endpoint.manager? source = none) :
    (emit source header fragments overwrite destination).on ⟨endpoint⟩ host =
      (.error (.segment .notAttached), ⟨endpoint⟩, host) := by
  have hsize : (onSource source (Action.ask Manager.slotSize)).on ⟨endpoint⟩ host =
      (.error (.segment .notAttached), ⟨endpoint⟩, host) := by
    simp only [onSource, Action.within, Action.on_of, Endpoint.on, h]
    rfl
  rw [emit, Action.on_bind_error hsize]

theorem on_emit_of_small (h : endpoint.manager? source = some manager)
    (hsmall : manager.slotSize host < packedSize fragments) :
    (emit source header fragments overwrite destination).on ⟨endpoint⟩ host =
      (.error (tooLarge fragments), ⟨endpoint⟩, host) := by
  rw [emit, Action.on_bind_ok (on_slotSize h), if_pos hsmall]
  rfl

/-- An event for which a slot has room is packed and published, or there is no slot to be
had. -/
theorem on_emit_of_room (h : endpoint.manager? source = some manager)
    (hroom : packedSize fragments ≤ manager.slotSize host) :
    ∃ flag emitter host',
      (emit source header fragments overwrite destination).on ⟨endpoint⟩ host =
        (.ok flag, emitter, host') ∧
      (flag = true → ∃ (m after : Mapping) (k : Nat) (t : Slot),
        endpoint.mapping? source host = some m ∧
        emitter.endpoint.mapping? source host' = some after ∧ after.me.object = m.me.object ∧
        after.slots[k]? = some t ∧ t.state = .full ∧
        t.sequenceId = m.segment.control.lastSequenceId + 1 ∧
        t.content = pack header fragments) := by
  rw [emit, Action.on_bind_ok (on_slotSize h), if_neg (Nat.not_lt.mpr hroom)]
  cases hm : manager.mapping? host with
  | none =>
    rw [Manager.slotSize_of_none hm] at hroom
    exact absurd ((size_le_packedSize fragments).trans hroom) (by decide)
  | some m =>
    rw [Manager.slotSize_of_mapping? hm] at hroom
    have hmapping : endpoint.mapping? source host = some m := by
      rw [Endpoint.mapping?, h, Option.bind_some, hm]
    have hlease := on_leaseForWriting hmapping overwrite
    cases hclaim : (m.claimForWriting overwrite).1 with
    | none =>
      rw [hclaim] at hlease
      refine ⟨false, _, _, Action.on_bind_ok hlease _, fun htrue => ?_⟩
      cases htrue
    | some k =>
      rw [hclaim] at hlease
      obtain ⟨after, host', t, hpublished, hafter, hrest⟩ := exists_published hmapping hclaim
        (parts header fragments) (by rw [← pack, length_pack]; exact hroom) destination
      exact ⟨true, _, host', (Action.on_bind_ok hlease _).trans hpublished,
        fun _ => ⟨m, after, k, t, hmapping, hafter, hrest⟩⟩

/-- An emitter that says that it has packed an event has published the record of it. -/
theorem exists_packed
    (hon : (emit source header fragments overwrite destination).on ⟨endpoint⟩ host =
      (.ok true, emitter, host')) :
    ∃ (m after : Mapping) (k : Nat) (t : Slot), endpoint.mapping? source host = some m ∧
      emitter.endpoint.mapping? source host' = some after ∧ after.me.object = m.me.object ∧
      after.slots[k]? = some t ∧ t.state = .full ∧
      t.sequenceId = m.segment.control.lastSequenceId + 1 ∧
      t.content = pack header fragments := by
  cases h : endpoint.manager? source with
  | none => cases (on_emit_of_none h).symm.trans hon
  | some manager =>
    by_cases hsmall : manager.slotSize host < packedSize fragments
    · cases (on_emit_of_small h hsmall).symm.trans hon
    · obtain ⟨flag, _, _, hemit, hpublished⟩ := on_emit_of_room h (Nat.not_lt.mp hsmall)
      cases hemit.symm.trans hon
      exact hpublished rfl

end EventEmitter

/-! ## Records in scenes -/

namespace Scene

variable {earlier later : List Moment} {s s₀ : Scene} {moment : Moment} {number : Nat}
  {record : Slot} {seats : Seats} {source : Source} {header : Header} {fs : List Fragment}
  {overwrite : Bool} {destination : Destination}

theorem Run.names (h : Run (later ++ moment :: earlier) s)
    (hnames : moment.after.world.Names number record) : s.world.Names number record := by
  induction later generalizing s with
  | nil =>
    cases h
    exact hnames
  | cons last later ih =>
    cases h with
    | @step _ s call h =>
      obtain ⟨past, hworld⟩ := h.world
      obtain ⟨calls, hcalls⟩ := exists_enacts s call
      rw [hcalls.world past]
      exact (ih h).history hworld calls

/-- What is held under the sequence id of a record that was published is this record. -/
theorem Run.content_of_published {c k : Nat} {call : Call} {event : EventChannel.Holding}
    (h : Run (later ++ ⟨s₀, call⟩ :: earlier) s)
    (hrecord : (s₀.step call).world.slot? number k = some record) (hfull : record.state = .full)
    (hheld : s.holding? c = some event) (hobject : event.object = number)
    (hsequenceId : event.sequenceId = record.sequenceId) : event.content = record.content := by
  obtain ⟨channel, hchannel, hholding⟩ := holding?_eq_some_iff.mp hheld
  obtain ⟨_, _, _, _, t, -, -, -, -, ht, hreading, -, hid, hcontent⟩ :=
    h.exists_held hchannel hholding
  obtain ⟨_, hafter⟩ := (h.before.step call).world
  obtain ⟨segment, hsegment, -, hsame⟩ :=
    h.names (hafter.names hrecord (Slot.isFilled_eq_true_iff.mpr (.inl hfull)))
  rw [hobject] at ht
  rw [World.slot?, hsegment, Option.bind_some] at ht
  have hrecord' := hsame ht (Slot.isFilled_eq_true_iff.mpr (.inr hreading))
    (hid.trans hsequenceId)
  rw [← hcontent, hrecord'.content]

/-- An event that was packed is published in a slot of the object that the emitter's
manager is attached to, under the next sequence id of the object. -/
theorem Run.exists_published (h : Run earlier s₀)
    (hpacked : s₀.reply? (.emit seats source header fs overwrite destination) =
      some (.ok (.flag true))) :
    ∃ (i : Nat) (me : Attachment) (segment : Segment) (k : Nat) (record : Slot),
      seats.seat? source = some i ∧ s₀.world.attachment? i = some me ∧
      s₀.world.segment? me.object = some segment ∧
      (s₀.step (.emit seats source header fs overwrite destination)).world.slot? me.object k =
        some record ∧
      record.state = .full ∧ record.sequenceId = segment.control.lastSequenceId + 1 ∧
      record.content = pack header fs := by
  obtain ⟨endpoint, hendpoint, hanswer⟩ := Option.map_eq_some_iff.mp hpacked
  obtain ⟨flag, hflag, htrue⟩ := map_eq_ok_iff.mp hanswer
  cases htrue
  rcases hon : packed endpoint s₀.world.host source header fs overwrite destination with
    ⟨answer, emitter, host'⟩
  rw [hon] at hflag
  cases hflag
  have hleads := (EventEmitter.free_emit source header fs overwrite destination ⟨endpoint⟩
    s₀.world.host).1
  rw [show (EventEmitter.emit source header fs overwrite destination).on ⟨endpoint⟩ s₀.world.host =
    _ from hon] at hleads
  obtain ⟨m, after, k, record, hm, hafter, hobject, hrecord, hfull, hid, hcontent⟩ :=
    EventEmitter.exists_packed hon
  obtain ⟨i, hseat, hme, hsegment⟩ := World.exists_seat_of_mapping? h.coherent hendpoint hm
  have hstep : s₀.step (.emit seats source header fs overwrite destination) =
      { s₀ with world := s₀.world.withEndpoint seats host' emitter.endpoint } := by
    simp only [Scene.step, hendpoint, hon]
  have hrun := h.step (.emit seats source header fs overwrite destination)
  rw [hstep] at hrun ⊢
  obtain ⟨_, _, _, hsegment'⟩ := World.exists_seat_of_mapping? hrun.coherent
    (World.endpoint?_withEndpoint hendpoint (World.isSome_broadcast_of_leads hleads))
    (by rw [World.host_withEndpoint]; exact hafter)
  refine ⟨i, m.me, m.segment, k, record, hseat, hme, hsegment, ?_, hfull, hid, hcontent⟩
  rw [World.slot?, ← hobject, hsegment', Option.bind_some]
  exact hrecord

end Scene

namespace EventChannel

open Scene (Run)

/-- **Packed events survive their slot.** When an emitter says that it has packed an
event, there is a record of it in a slot of its manager's object, under the next sequence
id. Whatever happens from then on, a channel that holds this record is told the header,
the kinds of the fragments, each once, and all fragments in order or those of one kind,
just as they were packed, and holds the record still, so that it may be asked again. -/
theorem packed_event_survives {earlier : List Scene.Moment} {s₀ : Scene} {seats : Seats}
    {source : Source} {header : Header} {fs : List Fragment} {overwrite : Bool}
    {destination : Destination} (hrun : Run earlier s₀)
    (hpacked : s₀.reply? (.emit seats source header fs overwrite destination) =
      some (.ok (.flag true))) :
    ∃ (i : Nat) (me : Attachment) (segment : Segment) (k : Nat) (record : Slot),
      seats.seat? source = some i ∧ s₀.world.attachment? i = some me ∧
      s₀.world.segment? me.object = some segment ∧
      (s₀.step (.emit seats source header fs overwrite destination)).world.slot? me.object k =
        some record ∧
      record.state = .full ∧ record.sequenceId = segment.control.lastSequenceId + 1 ∧
      record.content = pack header fs ∧
      ∀ (later : List Scene.Moment) (s : Scene),
        Run (later ++ ⟨s₀, .emit seats source header fs overwrite destination⟩ :: earlier) s →
        ∀ (c : Nat) (event : Holding), s.holding? c = some event → event.object = me.object →
          event.sequenceId = record.sequenceId →
          s.reply? (.use c (.look .header)) = some (.ok (.header header)) ∧
          (∃ kinds, s.reply? (.use c (.look .kinds)) = some (.ok (.kinds kinds)) ∧
            kinds.Pairwise (· < ·) ∧ ∀ kind, kind ∈ kinds ↔ ∃ f ∈ fs, f.kind = kind) ∧
          s.reply? (.use c (.look (.fragments .any))) = some (.ok (.fragments fs)) ∧
          (∀ kind, s.reply? (.use c (.look (.fragments (.only kind)))) =
            some (.ok (.fragments (fs.filter fun f => f.kind == kind)))) ∧
          ∀ look, (s.step (.use c (.look look))).holding? c = some event := by
  obtain ⟨i, me, segment, k, record, hseat, hme, hsegment, hrecord, hfull, hid, hcontent⟩ :=
    hrun.exists_published hpacked
  refine ⟨i, me, segment, k, record, hseat, hme, hsegment, hrecord, hfull, hid, hcontent,
    fun later s hlater c event hheld hobject hsequenceId => ?_⟩
  have hevent : event.content = pack header fs := by
    rw [hlater.content_of_published hrecord hfull hheld hobject hsequenceId, hcontent]
  have hlook : ∀ (look : Look) (reply : Reply), look.tell (pack header fs) = .ok reply →
      s.reply? (.use c (.look look)) = some (.ok reply) := by
    intro look reply htell
    rw [(Scene.reply?_look hheld look).1, hevent, htell]
    rfl
  have hany : (Look.fragments .any).tell (pack header fs) = .ok (.fragments fs) :=
    Look.tell_fragments_iff.mpr ⟨_, Visit.found_pack header fs, by simp⟩
  obtain ⟨hkinds, hfragments⟩ := Look.tell_of_any hany
  refine ⟨hlook .header _ ?_, ⟨_, hlook .kinds _ hkinds, Fragment.Kind.ascending_distinct _,
    fun kind => ?_⟩, hlook (.fragments .any) _ hany, fun kind => ?_,
    fun look => (Scene.reply?_look hheld look).2⟩
  · rw [pack, parts, List.flatten_cons, Look.tell, Header.decode_encode_append]
    rfl
  · rw [Fragment.Kind.mem_distinct, List.mem_map]
  · rw [hlook (.fragments (.only kind)) _ (hfragments _)]
    simp only [Fragment.Filter.selects, Bool.beq_comm]

/-- An event of two fragments is packed, and read by a channel that has looked at it
before. -/
theorem packed_event_survives_two :
    let calls : List Scene.Call := [.world (.attach (.new 7 1 128) .manual),
      .world (.attach (.attachOnly 7) .manual), .engage ⟨1, none, nofun⟩]
    let header : Header := .new 1 2 3 4
    let fs : List Fragment := [Fragment.build 1 2 (.ofRaw 3) [4] [5, 6],
      Fragment.build 1 3 (.system .init) [] []].filterMap Except.toOption
    let emit : Scene.Call := .emit ⟨0, none, nofun⟩ .data header fs false .any
    let s₀ := (Scene.run calls).2
    let s := ((s₀.step emit).step (.use 0 (.await false 0))).step (.use 0 (.look .kinds))
    fs.length = 2 ∧ s.reply? (.use 0 (.look .header)) = some (.ok (.header header)) ∧
      s.reply? (.use 0 (.look (.fragments .any))) = some (.ok (.fragments fs)) := by
  intro calls header fs emit s₀ s
  have hfacts : s₀.reply? emit = some (.ok (.flag true)) ∧
      (s₀.world.attachment? 0).map (·.object) = some 0 ∧
      (s₀.world.segment? 0).map (·.control.lastSequenceId) = some 0 ∧
      (s.holding? 0).any (fun event => event.object == 0 && event.sequenceId == 1) := by
    decide +kernel
  obtain ⟨hpacked, hobject, hlast, hholding⟩ := hfacts
  obtain ⟨event, hevent, hsame⟩ := (Option.any_eq_true ..).mp hholding
  simp only [Bool.and_eq_true, beq_iff_eq] at hsame
  obtain ⟨i, me, segment, k, record, hseat, hme, hsegment, -, -, hid, -, hsurvives⟩ :=
    packed_event_survives (Scene.run_run calls) hpacked
  cases hseat
  rw [hme, Option.map_some, Option.some.injEq] at hobject
  rw [hobject] at hsegment
  rw [hsegment, Option.map_some, Option.some.injEq] at hlast
  obtain ⟨hheader, -, hany, -⟩ := hsurvives
    [⟨_, .use 0 (.look .kinds)⟩, ⟨_, .use 0 (.await false 0)⟩] s
    ((((Scene.run_run calls).step emit).step _).step _) 0 event hevent
    (hsame.1.trans hobject.symm) (hsame.2.trans (by rw [hid, hlast]))
  exact ⟨by decide +kernel, hheader, hany⟩

end EventChannel

end SlotTransport
