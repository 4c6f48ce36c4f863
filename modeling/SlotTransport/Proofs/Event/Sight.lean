/-
How an event channel reads the slot that it holds. The scanner and the reader of the
slot keep in step: what a scan answers is what the visit finds in the bytes written
(`on_scan`), wherever the reader was before, and all that it leaves behind is how far
the slot was read and when it was touched (`Slot.Reread`).
-/
import SlotTransport.Channel.Event
import SlotTransport.Proofs.Channel.Sight
import SlotTransport.Proofs.Event.Reading
import SlotTransport.Proofs.Operation.Access

namespace SlotTransport

namespace Segment

variable {segment : Segment} {k : Nat} {s s' : Slot}

/-! ## Bytes of a slot -/

theorem zeroExtended_dataFrom (hs : segment.slots[k]? = some s) :
    (segment.dataFrom k).zeroExtended segment.slotSize =
      s.memory.zeroExtended segment.slotSize := by
  obtain ⟨hlt, rfl⟩ := List.getElem?_eq_some_iff.mp hs
  rw [dataFrom, List.drop_eq_getElem_cons hlt, List.map_cons, laidOut, List.foldr_cons]
  split
  · rfl
  · refine List.ext_getElem? fun j => ?_
    simp only [Bytes.getElem?_zeroExtended, List.getElem?_append, Bytes.length_zeroExtended]
    grind

theorem bytesAt_eq_slice (hs : segment.slots[k]? = some s) {offset len size : Nat}
    (h : offset + len ≤ size) :
    segment.bytesAt k offset len = (segment.bytesAt k 0 size).slice offset len := by
  simp only [bytesAt, hs, Nat.zero_add, Slot.bytesAt, List.drop_zero, Bytes.slice]
  by_cases hsize : size ≤ segment.slotSize
  · rw [if_pos (h.trans hsize), if_pos hsize, Bytes.zeroExtended_drop h]
  · rw [if_neg hsize, ← Bytes.zeroExtended_drop h]
    split
    · rename_i hwithin
      rw [Bytes.zeroExtended_drop hwithin, Bytes.zeroExtended_drop hwithin,
        zeroExtended_dataFrom hs]
    · rfl

theorem length_bytesAt (hs : segment.slots[k]? = some s) (offset len : Nat) :
    (segment.bytesAt k offset len).length = len := by
  simp only [bytesAt, hs, Slot.bytesAt]
  split <;> exact Bytes.length_zeroExtended _ _

/-- Who reads a slot changes how far it was read and when it was touched, and
nothing else. -/
def Slot.Reread (s s' : Slot) : Prop :=
  ∃ pos time, s' = { s with readPos := pos, lastTouch := time }

namespace Slot.Reread

theorem refl (s : Slot) : s.Reread s :=
  ⟨s.readPos, s.lastTouch, rfl⟩

theorem trans {s'' : Slot} (h : s.Reread s') (h' : s'.Reread s'') : s.Reread s'' := by
  obtain ⟨_, _, rfl⟩ := h
  obtain ⟨pos, time, rfl⟩ := h'
  exact ⟨pos, time, rfl⟩

end Slot.Reread

namespace Mapping

variable {m : Mapping} {content : Bytes}

/-- The host with the segment as a manager sees it. -/
def onto (m : Mapping) (host : Host) : Host :=
  host.store m.me.object m.segment

theorem onto_onto (m : Mapping) (k : Nat) (s : Slot) (host : Host) :
    (m.store k s).onto (m.onto host) = (m.store k s).onto host :=
  Host.store_store ..

theorem onto_store_store (m : Mapping) (k : Nat) (a b : Slot) (host : Host) :
    ((m.store k a).store k b).onto ((m.store k a).onto host) = (m.store k b).onto host := by
  rw [onto_onto, store_store]

/-- The manager holds a slot for reading, in which some bytes are written. -/
structure Reads (m : Mapping) (k : Nat) (s : Slot) (content : Bytes) : Prop where
  slot : m.slots[k]? = some s
  holds : m.Holds s .reading
  content : m.segment.bytesAt k 0 s.writePos = content

namespace Reads

theorem length (h : m.Reads k s content) : content.length = s.writePos := by
  rw [← h.content, length_bytesAt h.slot]

theorem lookup (h : m.Reads k s content) (s' : Slot) : (m.store k s').slots[k]? = some s' := by
  obtain ⟨hlt, -⟩ := List.getElem?_eq_some_iff.mp h.slot
  rw [slots_store, List.getElem?_set_self hlt]

theorem reread (h : m.Reads k s content) (hreread : s.Reread s') :
    (m.store k s').Reads k s' content := by
  obtain ⟨pos, time, rfl⟩ := hreread
  refine ⟨h.lookup _, h.holds, ?_⟩
  have hmemory : (m.store k { s with readPos := pos, lastTouch := time }).slots.map Slot.memory =
      m.slots.map Slot.memory := by
    obtain ⟨hlt, hs⟩ := List.getElem?_eq_some_iff.mp h.slot
    have hself : (m.slots.map Slot.memory).set k s.memory = m.slots.map Slot.memory := by
      rw [← List.map_set, ← hs, List.set_getElem_self]
    rw [slots_store, List.map_set]
    exact hself
  have hdata : (m.store k { s with readPos := pos, lastTouch := time }).segment.dataFrom k =
      m.segment.dataFrom k := by
    rw [dataFrom, dataFrom, List.map_drop, List.map_drop]
    exact congrArg (fun runs => laidOut m.segment.slotSize (runs.drop k) m.segment.rest) hmemory
  have hslot : m.segment.slots[k]? = some s := h.slot
  have hslot' := h.lookup { s with readPos := pos, lastTouch := time }
  rw [← h.content, bytesAt, bytesAt, hslot]
  simp only [slots] at hslot'
  rw [hslot', hdata]
  rfl

theorem view (h : m.Reads k s content) : m.view k = .ok content :=
  (view_iff h.slot).mpr ⟨h.holds, h.content.symm⟩

theorem written (h : m.Reads k s content) : m.written k = .ok content.length := by
  rw [h.length, written_eq h.slot]

theorem check (h : m.Reads k s content) :
    m.check k .reading = .ok (true, m.store k (s.touched m.now)) := by
  obtain ⟨hstate, howner⟩ := h.holds
  rw [Mapping.check, slotAt_eq_ok_iff.mpr h.slot]
  simp [hstate, howner, bind, Except.bind, touch]

theorem rewind (h : m.Reads k s content) :
    m.rewindReading k = .ok (m.store k ({ s with readPos := 0 }.touched m.now)) :=
  (rewindReading_iff h.slot).mpr ⟨h.holds, rfl⟩

theorem read (h : m.Reads k s content) {len : Nat} (hlen : s.readPos + len ≤ content.length) :
    ∃ more, m.read k len = .ok ((content.slice s.readPos len, more),
      m.store k ((s.advance len).touched m.now)) := by
  rw [h.length] at hlen
  have hunread : len ≤ s.unread := by
    rw [Slot.unread]
    omega
  have hbytes : content.slice s.readPos len = m.segment.bytesAt k s.readPos len := by
    rw [← h.content, bytesAt_eq_slice h.slot hlen]
  exact ⟨(s.advance len).hasUnread, (read_iff h.slot).mpr ⟨⟨h.holds, hunread⟩, by rw [hbytes], rfl⟩⟩

theorem skip (h : m.Reads k s content) {len : Nat} (hpos : 0 < len)
    (hlen : s.readPos + len ≤ content.length) :
    ∃ more, m.skipReading k len = .ok (more, m.store k ((s.advance len).touched m.now)) := by
  rw [h.length] at hlen
  refine ⟨_, (skipReading_iff h.slot).mpr ⟨⟨h.holds, hpos, ?_⟩, rfl, rfl⟩⟩
  rw [Slot.unread]
  omega

theorem release (h : m.Reads k s content) :
    m.release k = .ok (m.store k ((m.released s).touched m.now)) := by
  rw [Mapping.release, held_eq_ok_iff.mpr ⟨h.slot, h.holds⟩]
  rfl

end Reads

end Mapping

end Segment

open Segment Event

/-! ## What an endpoint sees -/

namespace Manager

variable {manager : Manager} {host : Host} {m after : Mapping}

theorem slotSize_lt (h : manager.mapping? host = some m) : m.segment.slotSize < UInt64.size := by
  obtain ⟨me, segment, -, -, rfl⟩ := mapping?_eq_some_iff.mp h
  have hcut := isCut_cut segment me.geometry
  simp only [isCut, Bool.and_eq_true, beq_iff_eq] at hcut
  rw [hcut.2]
  exact me.geometry.slotSize.toNat_lt

theorem mapping?_onto (h : manager.mapping? host = some m) (hkept : m.Kept after) :
    mapping? { manager with attachment := some after.me } (after.onto host) = some after := by
  obtain ⟨me, segment, hme, hobject, rfl⟩ := mapping?_eq_some_iff.mp h
  obtain ⟨hlt, -⟩ := List.getElem?_eq_some_iff.mp hobject
  refine mapping?_eq_some_iff.mpr ⟨after.me, after.segment, rfl, ?_, ?_⟩
  · have hsame : after.me.object = me.object := hkept.me.object
    rw [Mapping.onto, Host.objects_store, hsame, List.getElem?_set_self hlt]
  · rw [cut_of_isCut (hkept.isCut (isCut_cut segment me.geometry))]
    have hnow : after.now = manager.now host := hkept.now
    obtain ⟨me', now', segment'⟩ := after
    cases hnow
    rfl

end Manager

namespace Event.Endpoint

variable {endpoint : Endpoint} {source : Source} {host : Host} {m after : Mapping} {α : Type}

/-- The segment of a source as its manager sees it. -/
def mapping? (endpoint : Endpoint) (source : Source) (host : Host) : Option Mapping :=
  (endpoint.manager? source).bind (·.mapping? host)

/-- The endpoint with the manager of a source attached so. -/
def follow (endpoint : Endpoint) (source : Source) (me : Attachment) : Endpoint :=
  match source with
  | .data => { endpoint with data := { endpoint.data with attachment := some me } }
  | .broadcast =>
    { endpoint with
      broadcast := endpoint.broadcast.map fun manager => { manager with attachment := some me } }

theorem manager?_follow (endpoint : Endpoint) (source : Source) (me : Attachment) :
    (endpoint.follow source me).manager? source =
      (endpoint.manager? source).map fun manager => { manager with attachment := some me } := by
  cases source <;> rfl

theorem withManager_self {manager : Manager} (h : endpoint.manager? source = some manager) :
    endpoint.withManager source manager = endpoint := by
  cases source with
  | data =>
    cases h
    rfl
  | broadcast =>
    obtain ⟨data, broadcast⟩ := endpoint
    cases h
    rfl

theorem withManager_eq_follow {manager : Manager} (h : endpoint.manager? source = some manager)
    (me : Attachment) :
    endpoint.withManager source { manager with attachment := some me } =
      endpoint.follow source me := by
  cases source with
  | data =>
    cases h
    rfl
  | broadcast =>
    have hbroadcast : endpoint.broadcast = some manager := h
    simp [withManager, follow, hbroadcast]

theorem follow_self (h : endpoint.mapping? source host = some m) :
    endpoint.follow source m.me = endpoint := by
  obtain ⟨manager, hmanager, hm⟩ := Option.bind_eq_some_iff.mp h
  obtain ⟨me, segment, hme, -, rfl⟩ := Manager.mapping?_eq_some_iff.mp hm
  cases source with
  | data =>
    cases hmanager
    rw [follow, ← hme]
  | broadcast =>
    obtain ⟨data, broadcast⟩ := endpoint
    cases hmanager
    rw [follow, Option.map_some, ← hme]

theorem slotSize_lt (h : endpoint.mapping? source host = some m) :
    m.segment.slotSize < UInt64.size := by
  obtain ⟨manager, -, hm⟩ := Option.bind_eq_some_iff.mp h
  exact Manager.slotSize_lt hm

theorem mapping?_follow (h : endpoint.mapping? source host = some m) (hkept : m.Kept after) :
    (endpoint.follow source after.me).mapping? source (after.onto host) = some after := by
  obtain ⟨manager, hmanager, hm⟩ := Option.bind_eq_some_iff.mp h
  rw [mapping?, manager?_follow, hmanager]
  exact Manager.mapping?_onto hm hkept

theorem mapping?_store (h : endpoint.mapping? source host = some m) (k : Nat) (s : Slot) :
    endpoint.mapping? source ((m.store k s).onto host) = some (m.store k s) := by
  have hfollow := mapping?_follow h (Mapping.kept_store m k s)
  have hme : (m.store k s).me = m.me := rfl
  rwa [hme, follow_self h] at hfollow

theorem on_guarded {op : Program α} {answer : α}
    (h : endpoint.mapping? source host = some m) (hop : op.on m = (.ok answer, after))
    (hobject : after.me.object = m.me.object) :
    (on source (Manager.guarded op)).on endpoint host =
      (.ok answer, endpoint.follow source after.me, after.onto host) := by
  obtain ⟨manager, hmanager, hm⟩ := Option.bind_eq_some_iff.mp h
  simp only [on, Action.on_of, hmanager, Manager.guarded, hm, hop, Mapping.onto, hobject,
    withManager_eq_follow hmanager]
  rfl

theorem on_guarded_of_detached {op : Program α}
    (h : endpoint.mapping? source host = none) :
    (on source (Manager.guarded op)).on endpoint host =
      (.error (.segment .notAttached), endpoint, host) := by
  cases hmanager : endpoint.manager? source with
  | none => simp only [on, Action.on_of, hmanager]
  | some manager =>
    have hm : manager.mapping? host = none := by simpa [mapping?, hmanager] using h
    simp only [on, Action.on_of, hmanager, Manager.guarded, hm, withManager_self hmanager]
    rfl

end Event.Endpoint

/-! ## What a channel reads -/

namespace EventChannel

variable {channel : EventChannel} {source : Source} {host : Host} {m after : Mapping}
  {k : Nat} {s : Slot} {content : Bytes} {α : Type}

theorem on_onSource (source : Source) (action : Action Manager Segment.Error α)
    (channel : EventChannel) (host : Host) :
    (onSource source action).on channel host =
      (((Endpoint.on source action).on channel.endpoint host).1,
        { channel with
          endpoint := ((Endpoint.on source action).on channel.endpoint host).2.1 },
        ((Endpoint.on source action).on channel.endpoint host).2.2) := by
  rw [onSource, Action.within, Action.on_of]
  rcases (Endpoint.on source action).on channel.endpoint host with ⟨answer | answer, _, _⟩ <;> rfl

theorem on_guarded {op : Program α} {answer : α}
    (h : channel.endpoint.mapping? source host = some m) (hop : op.on m = (.ok answer, after))
    (hobject : after.me.object = m.me.object) :
    (onSource source (Manager.guarded op)).on channel host =
      (.ok answer, { channel with endpoint := channel.endpoint.follow source after.me },
        after.onto host) := by
  rw [on_onSource, Endpoint.on_guarded h hop hobject]

theorem on_store {op : Program α} {answer : α}
    (h : channel.endpoint.mapping? source host = some m)
    (hop : op.on m = (.ok answer, m.store k s)) :
    (onSource source (Manager.guarded op)).on channel host =
      (.ok answer, channel, (m.store k s).onto host) := by
  have hme : (m.store k s).me = m.me := rfl
  rw [on_guarded h hop rfl, hme, Endpoint.follow_self h]

theorem on_idle {op : Program α} {answer : α}
    (h : channel.endpoint.mapping? source host = some m) (hop : op.on m = (.ok answer, m)) :
    (onSource source (Manager.guarded op)).on channel host =
      (.ok answer, channel, m.onto host) := by
  rw [on_guarded h hop rfl, Endpoint.follow_self h]

theorem on_query {op : Mapping → Except Violation α} {answer : α}
    (h : channel.endpoint.mapping? source host = some m) (hop : op m = .ok answer) :
    (onSource source (Manager.query op)).on channel host = (.ok answer, channel, m.onto host) := by
  refine on_idle h ?_
  rw [Program.on_require, hop]

/-- The channel's manager of a source holds a slot for reading, in which some bytes
are written. -/
structure Reads (channel : EventChannel) (source : Source) (host : Host) (m : Mapping) (k : Nat)
    (s : Slot) (content : Bytes) : Prop where
  mapping : channel.endpoint.mapping? source host = some m
  reads : m.Reads k s content

namespace Reads

variable {t t' : Slot}

theorem next (h : channel.Reads source host m k s content) (ht : s.Reread t) :
    channel.Reads source ((m.store k t).onto host) (m.store k t) k t content :=
  ⟨Endpoint.mapping?_store h.mapping k t, h.reads.reread ht⟩

theorem on_guarded (h : channel.Reads source host m k s content) (ht : s.Reread t)
    {op : Program α} {answer : α}
    (hop : op.on (m.store k t) = (.ok answer, (m.store k t).store k t')) :
    (onSource source (Manager.guarded op)).on channel ((m.store k t).onto host) =
      (.ok answer, channel, (m.store k t').onto host) := by
  rw [on_store (h.next ht).mapping hop, Mapping.onto_store_store]

theorem on_check (h : channel.Reads source host m k s content) :
    (onSource source (Manager.check k .reading)).on channel host =
      (.ok true, channel, (m.store k (s.touched m.now)).onto host) :=
  on_store h.mapping (Program.on_of_settled (Program.on_check k .reading m) h.reads.check)

theorem on_written (h : channel.Reads source host m k s content) :
    (onSource source (Manager.written k)).on channel host =
      (.ok content.length, channel, (m.store k s).onto host) := by
  rw [Mapping.store_self h.reads.slot]
  exact on_query h.mapping h.reads.written

theorem on_rewind (h : channel.Reads source host m k s content) (ht : s.Reread t) :
    (onSource source (Manager.rewindReading k)).on channel ((m.store k t).onto host) =
      (.ok (), channel, (m.store k ({ t with readPos := 0 }.touched m.now)).onto host) :=
  h.on_guarded ht (Program.on_of_done (Program.on_rewindReading k _) (h.next ht).reads.rewind)

theorem on_read (h : channel.Reads source host m k s content) (ht : s.Reread t) (len : Nat)
    (hlen : t.readPos + len ≤ content.length) :
    ∃ more, (onSource source (Manager.read k len)).on channel ((m.store k t).onto host) =
      (.ok (content.slice t.readPos len, more), channel,
        (m.store k ((t.advance len).touched m.now)).onto host) := by
  obtain ⟨more, hread⟩ := (h.next ht).reads.read hlen
  exact ⟨more, h.on_guarded ht (Program.on_of_settled (Program.on_read k len _) hread)⟩

theorem on_skip (h : channel.Reads source host m k s content) (ht : s.Reread t) {len : Nat}
    (hpos : 0 < len) (hlen : t.readPos + len ≤ content.length) :
    ∃ more, (onSource source (Manager.skipReading k len)).on channel ((m.store k t).onto host) =
      (.ok more, channel, (m.store k ((t.advance len).touched m.now)).onto host) := by
  obtain ⟨more, hskip⟩ := (h.next ht).reads.skip hpos hlen
  exact ⟨more, h.on_guarded ht (Program.on_of_settled (Program.on_skipReading k len _) hskip)⟩

theorem on_release (h : channel.Reads source host m k s content) (ht : s.Reread t) :
    (onSource source (Manager.release k)).on channel ((m.store k t).onto host) =
      (.ok (), channel, (m.store k ((m.released t).touched m.now)).onto host) :=
  h.on_guarded ht (Program.on_of_done (Program.on_release k _) (h.next ht).reads.release)

/-! ## Scanning -/

theorem on_readHeader (h : channel.Reads source host m k s content) :
    ∃ t, s.Reread t ∧
      (∀ header, Header.decode content = .ok header → t.readPos = Header.size) ∧
      (readHeader source k).on channel host =
        ((Header.decode content).mapError .framing, channel, (m.store k t).onto host) := by
  rw [readHeader, Action.on_bind_ok h.on_written]
  by_cases hshort : content.length < Header.size
  · have hdecode : Header.decode content = .error (.truncatedHeader Header.size content.length) :=
      if_pos hshort
    refine ⟨s, .refl s, fun header hheader => ?_, ?_⟩
    · rw [hdecode] at hheader
      cases hheader
    · rw [if_pos hshort, hdecode]
      rfl
  · have hlong : Header.size ≤ content.length := Nat.not_lt.mp hshort
    obtain ⟨more, hread⟩ := h.on_read (t := { s with readPos := 0 }.touched m.now)
      ⟨0, m.now, rfl⟩ Header.size (by simpa using hlong)
    have hfirst : content.slice 0 Header.size = content.take Header.size := rfl
    refine ⟨_, ⟨_, m.now, rfl⟩, fun _ _ => Nat.zero_add Header.size, ?_⟩
    rw [if_neg hshort, Action.on_bind_ok (h.on_rewind (.refl s)), Action.on_bind_ok hread,
      ← Header.decode_take hlong]
    dsimp only [Slot.touched]
    rw [hfirst]
    cases Header.decode (content.take Header.size) <;> rfl

theorem on_readBody (h : channel.Reads source host m k s content) (ht : s.Reread t) (len : Nat)
    (hlen : t.readPos + len ≤ content.length) (wanted : Bool) :
    ∃ t', s.Reread t' ∧ t'.readPos = t.readPos + len ∧
      (readBody source k len wanted).on channel ((m.store k t).onto host) =
        (.ok (if wanted then some (content.slice t.readPos len) else none), channel,
          (m.store k t').onto host) := by
  by_cases hnone : len = 0
  · subst hnone
    refine ⟨t, ht, rfl, ?_⟩
    cases wanted <;> simp [readBody, Bytes.slice]
  · have hadvanced : s.Reread ((t.advance len).touched m.now) := ht.trans ⟨_, m.now, rfl⟩
    refine ⟨_, hadvanced, rfl, ?_⟩
    cases wanted with
    | true =>
      obtain ⟨more, hread⟩ := h.on_read ht len hlen
      rw [readBody, if_pos rfl, if_neg hnone, Action.on_bind_ok hread]
      rfl
    | false =>
      obtain ⟨more, hskip⟩ := h.on_skip ht (Nat.pos_of_ne_zero hnone) hlen
      rw [readBody, if_neg Bool.false_ne_true, if_neg hnone, Action.on_bind_ok hskip]
      rfl

theorem on_scanFrom_of_fault (h : channel.Reads source host m k s content) (ht : s.Reread t)
    {offset : Nat} (hpos : t.readPos = offset) (hmore : offset < content.length) (visit : Visit α)
    {fault : FramingError} (hfault : Fragment.Header.decode (content.drop offset) = .error fault) :
    ∃ t', s.Reread t' ∧
      (scanFrom source k visit content.length offset).on channel ((m.store k t).onto host) =
        (.error (.framing fault), channel, (m.store k t').onto host) := by
  have hlength : (content.drop offset).length = content.length - offset := List.length_drop
  rw [scanFrom, if_pos hmore]
  by_cases hshort : content.length - offset < Fragment.Header.size
  · rw [Fragment.Header.decode, if_pos (hlength ▸ hshort), hlength] at hfault
    cases hfault
    exact ⟨t, ht, by rw [if_pos hshort]; rfl⟩
  · obtain ⟨more, hread⟩ := h.on_read ht Fragment.Header.size (by omega)
    have hsame : Fragment.Header.decode (content.slice t.readPos Fragment.Header.size) =
        .error fault := by
      rw [hpos, Bytes.slice, Fragment.Header.decode_take (le_refl _) (by omega), hfault]
    have hread' : s.Reread ((t.advance Fragment.Header.size).touched m.now) :=
      ht.trans ⟨_, m.now, rfl⟩
    simp only [if_neg hshort, Action.on_bind_ok hread]
    refine ⟨_, hread', ?_⟩
    split
    · rename_i fault' hfault'
      cases hsame.symm.trans hfault'
      rfl
    · rename_i header hdecode
      cases hsame.symm.trans hdecode

theorem on_scanFrom_of_decode (h : channel.Reads source host m k s content) (ht : s.Reread t)
    {offset : Nat} (hpos : t.readPos = offset) (visit : Visit α) {header : Fragment.Header}
    (hdecode : Fragment.Header.decode (content.drop offset) = .ok header) :
    ∃ t', s.Reread t' ∧ t'.readPos = offset + Fragment.Header.size ∧
      (scanFrom source k visit content.length offset).on channel ((m.store k t).onto host) =
        (if content.length - offset - Fragment.Header.size < header.bodySize then
          throw (.framing (.bodyLengthMismatch header.bodySize
            (content.length - offset - Fragment.Header.size)))
        else do
          match visit.keep header (← readBody source k header.bodySize (visit.wants header)) with
          | .error fault => throw (.framing fault)
          | .ok kept =>
            return kept ::
              (← scanFrom source k visit content.length (offset + header.recordSize)) :
          Action EventChannel Event.Error (List α)).on channel ((m.store k t').onto host) := by
  have hlength : (content.drop offset).length = content.length - offset := List.length_drop
  have hlong : Fragment.Header.size ≤ content.length - offset :=
    hlength ▸ (Fragment.Header.decode_eq_ok_iff.mp hdecode).1
  have hmore : offset < content.length := by
    simp only [Fragment.Header.size] at hlong
    omega
  obtain ⟨more, hread⟩ := h.on_read ht Fragment.Header.size (by omega)
  have hsame : Fragment.Header.decode (content.slice t.readPos Fragment.Header.size) =
      .ok header := by
    rw [hpos, Bytes.slice, Fragment.Header.decode_take (le_refl _) (by omega), hdecode]
  have hread' : s.Reread ((t.advance Fragment.Header.size).touched m.now) :=
    ht.trans ⟨_, m.now, rfl⟩
  rw [scanFrom, if_pos hmore]
  simp only [if_neg (Nat.not_lt.mpr hlong), Action.on_bind_ok hread]
  refine ⟨_, hread', congrArg (· + Fragment.Header.size) hpos, ?_⟩
  split
  · rename_i fault hfault
    cases hsame.symm.trans hfault
  · rename_i header' hdecode'
    cases hsame.symm.trans hdecode'
    rfl

/-- The scanner finds what a visit finds, as long as the reader is where the scanner
takes it to be. -/
theorem on_scanFrom (h : channel.Reads source host m k s content) (ht : s.Reread t)
    {offset : Nat} (hpos : t.readPos = offset) (hwithin : offset ≤ content.length)
    (visit : Visit α) :
    ∃ t', s.Reread t' ∧
      (scanFrom source k visit content.length offset).on channel ((m.store k t).onto host) =
        ((visit.gather (content.drop offset)).mapError .framing, channel,
          (m.store k t').onto host) := by
  -- By induction on what is left: each fragment takes a header's length of it at least.
  induction hrest : content.length - offset using Nat.strongRecOn generalizing offset t with
  | ind rest ih =>
    have hlength : (content.drop offset).length = content.length - offset := List.length_drop
    rcases Nat.eq_or_lt_of_le hwithin with rfl | hmore
    · rw [scanFrom, if_neg (Nat.lt_irrefl _), List.drop_length, Visit.gather_nil]
      exact ⟨t, ht, rfl⟩
    cases hdecode : Fragment.Header.decode (content.drop offset) with
    | error fault =>
      have hsome : content.drop offset ≠ [] := List.ne_nil_of_length_pos (by omega)
      rw [Visit.gather_of_fault hsome hdecode]
      exact h.on_scanFrom_of_fault ht hpos hmore visit hdecode
    | ok header =>
      obtain ⟨t₁, ht₁, hpos₁, hscan⟩ := h.on_scanFrom_of_decode ht hpos visit hdecode
      have hlong : Fragment.Header.size ≤ content.length - offset :=
        hlength ▸ (Fragment.Header.decode_eq_ok_iff.mp hdecode).1
      have hsize := Fragment.Header.size_le_recordSize_of_decode hdecode
      have hrecord := Fragment.Header.recordSize_eq hsize
      rw [hscan, Visit.gather_of_decode hdecode, hlength]
      by_cases hcut : content.length - offset < header.recordSize
      · have hroom : content.length - offset - Fragment.Header.size < header.bodySize := by omega
        rw [if_pos hroom, if_pos hcut]
        exact ⟨t₁, ht₁, rfl⟩
      · have hroom : ¬ content.length - offset - Fragment.Header.size < header.bodySize := by omega
        obtain ⟨t₂, ht₂, hpos₂, hbody⟩ := h.on_readBody ht₁ header.bodySize
          (by rw [hpos₁]; omega) (visit.wants header)
        have hslice : Bytes.slice (content.drop offset) Fragment.Header.size header.bodySize =
            content.slice (offset + Fragment.Header.size) header.bodySize := by
          rw [Bytes.slice, Bytes.slice, List.drop_drop]
        rw [if_neg hroom, if_neg hcut, Action.on_bind_ok hbody, hpos₁, hslice, List.drop_drop]
        cases hsee : visit.see header
            (content.slice (offset + Fragment.Header.size) header.bodySize) with
        | error fault =>
          rw [Visit.see] at hsee
          simp only [hsee]
          exact ⟨t₂, ht₂, rfl⟩
        | ok kept =>
          obtain ⟨t₃, ht₃, hothers⟩ := ih (content.length - (offset + header.recordSize))
            (by simp only [Fragment.Header.size] at hsize; omega) ht₂
            (by rw [hpos₂, hpos₁, hrecord]; omega) (by omega) rfl
          rw [Visit.see] at hsee
          simp only [hsee]
          refine ⟨t₃, ht₃, ?_⟩
          cases hgather : visit.gather (content.drop (offset + header.recordSize)) with
          | error fault =>
            rw [hgather] at hothers
            exact Action.on_bind_error hothers _
          | ok others =>
            rw [hgather] at hothers
            exact Action.on_bind_ok hothers _

end Reads

end EventChannel

end SlotTransport
