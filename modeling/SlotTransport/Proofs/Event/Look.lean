/-
What an event channel tells of the event that it holds. `Look.tell` says what there is
to be told of a record, and `Holding` what record a channel holds, if it holds one. As
long as it does, a look at it is answered so, and the channel holds the same record
after it (`Look.on_perform`); it can be released (`on_release`). Once the slot was taken
away, the channel says so and lets go (`Use.on_of_lost`).
-/
import SlotTransport.Proofs.Event.Sight
import SlotTransport.Proofs.World.Basic

namespace SlotTransport

open Segment Event

theorem Segment.Mapping.touched_released_touched (m : Mapping) (s : Slot) (now : Nat) :
    (m.released (s.touched now)).touched now = (m.released s).touched now := by
  have hreleases : (s.touched now).releases = s.releases := rfl
  rw [Mapping.released, Mapping.released, hreleases]
  split <;> rfl

namespace EventChannel

/-- What a channel answers where nothing is wrong. -/
inductive Reply where
  | flag (flag : Bool)
  | header (header : Header)
  | kinds (kinds : List Fragment.Kind)
  | fragments (fragments : List Fragment)
  | released
  deriving DecidableEq

/-- What a channel may be asked about the event that it holds. -/
inductive Look where
  | header
  | kinds
  | fragments (filter : Fragment.Filter)
  deriving DecidableEq

namespace Look

def perform : Look → Action EventChannel Event.Error Reply
  | header => .header <$> EventChannel.header
  | kinds => .kinds <$> EventChannel.kinds
  | fragments filter => .fragments <$> EventChannel.fragments filter

/-- What there is to be told of a record. -/
def tell (record : Bytes) : Look → Except FramingError Reply
  | header => (Header.decode record).map .header
  | kinds => ((Visit.kinds.found record).map Fragment.Kind.distinct).map .kinds
  | fragments filter =>
    (((Visit.fragments filter).found record).map (·.filterMap id)).map .fragments

variable {record : Bytes} {fs : List Fragment}

theorem tell_fragments_iff {filter : Fragment.Filter} :
    (fragments filter).tell record = .ok (.fragments fs) ↔
      ∃ kept, (Visit.fragments filter).found record = .ok kept ∧ kept.filterMap id = fs := by
  simp only [tell, map_eq_ok_iff, Reply.fragments.injEq]
  grind

theorem found_of_tell_any (h : (fragments .any).tell record = .ok (.fragments fs)) :
    (Visit.fragments .any).found record = .ok (fs.map some) := by
  obtain ⟨kept, hfound, rfl⟩ := tell_fragments_iff.mp h
  obtain ⟨-, -, fs, -, -, -, rfl⟩ := Visit.found_any_iff.mp hfound
  simpa using hfound

/-- All fragments are told of a record that is made up of complete ones. -/
theorem tell_any_iff : (fragments .any).tell record = .ok (.fragments fs) ↔
    Header.size ≤ record.length ∧ ∃ records : List Bytes,
      record.drop Header.size = records.flatten ∧ (∀ r ∈ records, Fragment.IsRecord r) ∧
      records.map Fragment.decode = fs.map .ok := by
  constructor
  · intro h
    obtain ⟨hlong, records, fs', hflatten, hrecords, hdecode, hsame⟩ :=
      Visit.found_any_iff.mp (found_of_tell_any h)
    obtain rfl : fs = fs' := List.map_injective_iff.mpr (Option.some_injective Fragment) hsame
    exact ⟨hlong, records, hflatten, hrecords, hdecode⟩
  · rintro ⟨hlong, records, hflatten, hrecords, hdecode⟩
    refine tell_fragments_iff.mpr ⟨fs.map some, ?_, by simp⟩
    exact Visit.found_any_iff.mpr ⟨hlong, records, fs, hflatten, hrecords, hdecode, rfl⟩

/-- Where all fragments are told, so are their kinds, and those that are asked for. -/
theorem tell_of_any (h : (fragments .any).tell record = .ok (.fragments fs)) :
    kinds.tell record = .ok (.kinds (Fragment.Kind.distinct (fs.map Fragment.kind))) ∧
      ∀ filter, (fragments filter).tell record =
        .ok (.fragments (fs.filter fun f => filter.selects f.kind)) := by
  obtain ⟨hkinds, hfragments⟩ := Visit.found_of_any (found_of_tell_any h)
  refine ⟨by rw [tell, hkinds]; rfl, fun filter => ?_⟩
  refine tell_fragments_iff.mpr ⟨_, hfragments filter, ?_⟩
  rw [List.filterMap_map, ← List.filterMap_eq_filter]
  refine List.filterMap_congr fun f _ => ?_
  simp [Option.guard]

/-- Where the kinds are told and not the fragments, there is too much metadata. -/
theorem tell_any_error {kinds : List Fragment.Kind} {fault : FramingError}
    (hkinds : Look.kinds.tell record = .ok (.kinds kinds))
    (h : (fragments .any).tell record = .error fault) :
    ∃ metadataWords bodyWords, fault = .metadataOverflow metadataWords bodyWords := by
  obtain ⟨_, hmap, -⟩ := map_eq_ok_iff.mp hkinds
  obtain ⟨found, hfound, -⟩ := map_eq_ok_iff.mp hmap
  refine Visit.found_any_of_kinds hfound ?_
  cases hany : (Visit.fragments .any).found record with
  | ok kept =>
    rw [tell, hany] at h
    cases h
  | error fault' =>
    rw [tell, hany] at h
    cases h
    rfl

end Look

/-- What a channel may be used for. -/
inductive Use where
  | await (broadcastOnly : Bool) (timeout : Nat)
  | look (look : Look)
  | release
  deriving DecidableEq

namespace Use

def perform : Use → Action EventChannel Event.Error Reply
  | await broadcastOnly timeout => .flag <$> EventChannel.await broadcastOnly timeout
  | look asked => asked.perform
  | release => (fun _ => .released) <$> EventChannel.release

/-- Whether the channel must hold an event. -/
def needsEvent : Use → Bool
  | await .. => false
  | look _ | release => true

end Use

/-- The record that a channel holds. -/
structure Holding where
  /-- The number of the object. -/
  object : Nat
  slot : Nat
  sequenceId : Nat
  content : Bytes
  deriving DecidableEq, Repr

/-- The record that a channel holds, unless its slot was taken away. -/
def holding? (channel : EventChannel) (host : Host) : Option Holding := do
  let (source, slot) ← channel.held
  let m ← channel.endpoint.mapping? source host
  let s ← m.slots[slot]?
  let content ← (m.view slot).toOption
  return ⟨m.me.object, slot, s.sequenceId, content⟩

variable {channel : EventChannel} {source : Source} {host : Host} {m : Mapping} {k : Nat}
  {s t : Slot} {content : Bytes} {event : Holding} {α : Type}

theorem holding?_eq_some_iff : channel.holding? host = some event ↔
    ∃ source m s, channel.held = some (source, event.slot) ∧
      channel.Reads source host m event.slot s event.content ∧ m.me.object = event.object ∧
      s.sequenceId = event.sequenceId := by
  obtain ⟨object, slot, sequenceId, content⟩ := event
  simp only [holding?, Option.bind_eq_bind, Option.bind_eq_some_iff, Option.pure_def,
    Option.some.injEq, Prod.exists, Holding.mk.injEq]
  constructor
  · rintro ⟨source, k, hheld, m, hm, s, hs, content', hview, rfl, rfl, rfl, rfl⟩
    cases hresult : m.view k with
    | error breach =>
      rw [hresult] at hview
      cases hview
    | ok seen =>
      rw [hresult] at hview
      cases hview
      obtain ⟨hholds, hcontent⟩ := (Mapping.view_iff hs).mp hresult
      exact ⟨source, m, s, hheld, ⟨hm, hs, hholds, hcontent.symm⟩, rfl, rfl⟩
  · rintro ⟨source, m, s, hheld, hreads, rfl, rfl⟩
    refine ⟨source, slot, hheld, m, hreads.mapping, s, hreads.reads.slot, content, ?_, rfl, rfl,
      rfl, rfl⟩
    rw [hreads.reads.view]
    rfl

/-! ## Looks at a record -/

namespace Reads

theorem on_requireHeld (h : channel.Reads source host m k s content)
    (hheld : channel.held = some (source, k)) :
    requireHeld.on channel host =
      (.ok (source, k), channel, (m.store k (s.touched m.now)).onto host) := by
  rw [requireHeld, Action.on_bind_ok (Action.on_own channel host), hheld]
  simp only [Action.on_bind_ok h.on_check, if_true]
  rfl

theorem on_scan (h : channel.Reads source host m k s content) (visit : Visit α) :
    ∃ t, s.Reread t ∧ (scan source k visit).on channel host =
      ((visit.found content).mapError .framing, channel, (m.store k t).onto host) := by
  have h₁ := h.next (.refl s)
  obtain ⟨t, ht, hpos, hheader⟩ := h₁.on_readHeader
  rw [Mapping.onto_store_store] at hheader
  rw [scan, Action.on_bind_ok h.on_written, Visit.found]
  cases hdecode : Header.decode content with
  | error fault =>
    rw [hdecode] at hheader
    exact ⟨t, ht, Action.on_bind_error hheader _⟩
  | ok header =>
    rw [hdecode] at hheader
    have hlong : Header.size ≤ content.length := Header.exists_decode_iff.mp ⟨header, hdecode⟩
    obtain ⟨t', ht', hscan⟩ := h.on_scanFrom ht (hpos header hdecode) hlong visit
    exact ⟨t', ht', by rw [Action.on_bind_ok hheader, hscan]; rfl⟩

theorem on_told {β : Type} {told : Except FramingError α}
    (h : channel.Reads source host m k s content) (hheld : channel.held = some (source, k))
    (action : Source → Nat → Action EventChannel Event.Error α) (f : α → β)
    (haction : ∃ t', (s.touched m.now).Reread t' ∧
      (action source k).on channel ((m.store k (s.touched m.now)).onto host) =
        (told.mapError .framing, channel, (m.store k t').onto host)) :
    ∃ t, s.Reread t ∧
      (f <$> (requireHeld >>= fun (source, slot) => action source slot)).on channel host =
        ((told.map f).mapError .framing, channel, (m.store k t).onto host) := by
  obtain ⟨t, ht, hon⟩ := haction
  refine ⟨t, .trans ⟨_, m.now, rfl⟩ ht, ?_⟩
  rw [Action.on_map, Action.on_bind_ok (h.on_requireHeld hheld), hon]
  cases told <;> rfl

theorem on_look (h : channel.Reads source host m k s content)
    (hheld : channel.held = some (source, k)) (look : Look) :
    ∃ t, s.Reread t ∧ look.perform.on channel host =
      ((look.tell content).mapError .framing, channel, (m.store k t).onto host) := by
  have hnext := h.next (t := s.touched m.now) ⟨_, m.now, rfl⟩
  have hscan : ∀ {α β : Type} (visit : Visit α) (f : List α → β),
      ∃ t', (s.touched m.now).Reread t' ∧
        (scan source k visit >>= fun found => pure (f found)).on channel
            ((m.store k (s.touched m.now)).onto host) =
          (((visit.found content).map f).mapError .framing, channel, (m.store k t').onto host) := by
    intro α β visit f
    obtain ⟨t', ht', hon⟩ := hnext.on_scan visit
    rw [Mapping.onto_store_store] at hon
    refine ⟨t', ht', ?_⟩
    rw [bind_pure_comp, Action.on_map, hon]
    cases visit.found content <;> rfl
  cases look with
  | header =>
    obtain ⟨t', ht', -, hon⟩ := hnext.on_readHeader
    rw [Mapping.onto_store_store] at hon
    exact h.on_told hheld readHeader Reply.header ⟨t', ht', hon⟩
  | kinds =>
    exact h.on_told hheld
      (fun source slot => do return Fragment.Kind.distinct (← scan source slot .kinds)) Reply.kinds
      (hscan .kinds Fragment.Kind.distinct)
  | fragments filter =>
    exact h.on_told hheld
      (fun source slot => do return (← scan source slot (.fragments filter)).filterMap id)
      Reply.fragments (hscan (.fragments filter) (·.filterMap id))

theorem on_release_held (h : channel.Reads source host m k s content)
    (hheld : channel.held = some (source, k)) :
    EventChannel.release.on channel host = (.ok (), { channel with held := none },
      (m.store k ((m.released s).touched m.now)).onto host) := by
  rw [EventChannel.release, Action.on_bind_ok (h.on_requireHeld hheld),
    ← Mapping.touched_released_touched]
  exact Action.on_bind_ok (h.on_release ⟨_, m.now, rfl⟩) _

end Reads

theorem Look.on_perform (h : channel.holding? host = some event) (look : Look) :
    ∃ host', look.perform.on channel host =
        ((look.tell event.content).mapError .framing, channel, host') ∧
      channel.holding? host' = some event := by
  obtain ⟨source, m, s, hheld, hreads, hobject, hsequenceId⟩ := holding?_eq_some_iff.mp h
  obtain ⟨t, ht, hon⟩ := hreads.on_look hheld look
  refine ⟨_, hon, holding?_eq_some_iff.mpr ⟨source, _, t, hheld, hreads.next ht, hobject, ?_⟩⟩
  obtain ⟨_, _, rfl⟩ := ht
  exact hsequenceId

/-! ## What is held no more -/

/-- The channel has had a slot which its manager does not hold any more. -/
def Lost (channel : EventChannel) (source : Source) (host : Host) (m : Mapping) (k : Nat) : Prop :=
  channel.held = some (source, k) ∧ channel.endpoint.mapping? source host = some m ∧
    ∃ s, m.slots[k]? = some s ∧ ¬ m.Holds s .reading

theorem Lost.on_requireHeld (h : channel.Lost source host m k) :
    requireHeld.on channel host =
      (.error (.lost k), { channel with held := none }, m.onto host) := by
  obtain ⟨hheld, hmapping, s, hs, hnot⟩ := h
  have hcheck : m.check k .reading = .ok (false, m) := by
    have hmine : ¬ (s.state = .reading ∧
        (s.owner = m.me.id ∨ s.owner = noOwner ∧ (s.state = .full ∨ s.state = .empty))) := by
      rintro ⟨hstate, howner | ⟨-, hfull | hempty⟩⟩
      · exact hnot ⟨hstate, howner⟩
      · rw [hstate] at hfull
        cases hfull
      · rw [hstate] at hempty
        cases hempty
    rw [Mapping.check, Mapping.slotAt_eq_ok_iff.mpr hs]
    exact if_neg hmine
  have hon : (onSource source (Manager.check k .reading)).on channel host =
      (.ok false, channel, m.onto host) :=
    on_idle hmapping (Program.on_of_settled (Program.on_check k .reading m) hcheck)
  rw [requireHeld, Action.on_bind_ok (Action.on_own channel host), hheld]
  simp only [Action.on_bind_ok hon]
  rfl

namespace Use

variable {use : Use}

theorem exists_await (hneeds : use.needsEvent = false) :
    ∃ broadcastOnly timeout, use = .await broadcastOnly timeout := by
  cases use with
  | await broadcastOnly timeout => exact ⟨broadcastOnly, timeout, rfl⟩
  | look | release => cases hneeds

theorem on_of_requireHeld (hneeds : use.needsEvent = true) {cause : Event.Error}
    {channel' : EventChannel} {host' : Host}
    (h : requireHeld.on channel host = (.error cause, channel', host')) :
    use.perform.on channel host = (.error cause, channel', host') := by
  have hbind : ∀ {α β : Type} (action : Source × Nat → Action EventChannel Event.Error α)
      (f : α → β), (f <$> (requireHeld >>= action)).on channel host =
        (.error cause, channel', host') := fun action f => by
    rw [Action.on_map, Action.on_bind_error h]
    rfl
  cases use with
  | await => cases hneeds
  | look look =>
    cases look with
    | header => exact hbind _ Reply.header
    | kinds => exact hbind _ Reply.kinds
    | fragments filter => exact hbind _ Reply.fragments
  | release => exact hbind _ fun _ => Reply.released

theorem on_of_nothing (hneeds : use.needsEvent = true) (hheld : channel.held = none) :
    use.perform.on channel host = (.error .nothingHeld, channel, host) := by
  refine on_of_requireHeld hneeds ?_
  rw [requireHeld, Action.on_bind_ok (Action.on_own channel host), hheld]
  rfl

/-- Once the slot was taken away, the channel says so, lets go, and leaves it alone. -/
theorem on_of_lost (hneeds : use.needsEvent = true) (h : channel.Lost source host m k) :
    use.perform.on channel host =
      (.error (.lost k), { channel with held := none }, m.onto host) :=
  on_of_requireHeld hneeds h.on_requireHeld

end Use

/-! ## What is told -/

/-- The answer to a look. -/
def Look.answer (look : Look) (channel : EventChannel) (host : Host) : Except Event.Error Reply :=
  (look.perform.on channel host).1

theorem Look.answer_eq (h : channel.holding? host = some event) (look : Look) :
    look.answer channel host = (look.tell event.content).mapError .framing := by
  obtain ⟨_, hon, -⟩ := look.on_perform h
  rw [answer, hon]

theorem Look.answer_eq_ok_iff (h : channel.holding? host = some event) {look : Look}
    {reply : Reply} :
    look.answer channel host = .ok reply ↔ look.tell event.content = .ok reply := by
  rw [look.answer_eq h]
  cases look.tell event.content <;> simp [Except.mapError]

theorem exists_release (h : channel.holding? host = some event) : ∃ host',
    EventChannel.release.on channel host = (.ok (), { channel with held := none }, host') := by
  obtain ⟨source, m, s, hheld, hreads, -⟩ := holding?_eq_some_iff.mp h
  exact ⟨_, hreads.on_release_held hheld⟩

/-- **The scanner accepts its grammar.** Whatever bytes are written in the slot that a
channel holds, a look at them is answered, if only by saying what is wrong with them;
the channel still holds them after it, attached as it was, and can release them. All
fragments are told if and only if the bytes are long enough for a header and have
complete fragment records after it, and they are these records. Where all fragments are
told, the kinds are those of the fragments, each once, and the fragments of one kind
are those among them; where only the kinds are, a fragment has too much metadata. -/
theorem scanner_exact {channel : EventChannel} {host : Host} {event : Holding}
    (h : channel.holding? host = some event) :
    (∀ look : Look, ∃ (told : Except FramingError Reply) (host' : Host),
      look.perform.on channel host = (told.mapError .framing, channel, host') ∧
      channel.holding? host' = some event ∧
      ∃ host'', EventChannel.release.on channel host' =
        (.ok (), { channel with held := none }, host'')) ∧
    (∀ fs, (Look.fragments .any).answer channel host = .ok (.fragments fs) ↔
      Header.size ≤ event.content.length ∧ ∃ records : List Bytes,
        event.content.drop Header.size = records.flatten ∧
        (∀ r ∈ records, Fragment.IsRecord r) ∧ records.map Fragment.decode = fs.map .ok) ∧
    (∀ fs, (Look.fragments .any).answer channel host = .ok (.fragments fs) →
      (∃ kinds, Look.kinds.answer channel host = .ok (.kinds kinds) ∧ kinds.Pairwise (· < ·) ∧
        ∀ kind, kind ∈ kinds ↔ ∃ f ∈ fs, f.kind = kind) ∧
      ∀ kind, (Look.fragments (.only kind)).answer channel host =
        .ok (.fragments (fs.filter fun f => f.kind == kind))) ∧
    ∀ kinds cause, Look.kinds.answer channel host = .ok (.kinds kinds) →
      (Look.fragments .any).answer channel host = .error cause →
        ∃ metadataWords bodyWords,
          cause = .framing (.metadataOverflow metadataWords bodyWords) := by
  refine ⟨fun look => ?_, fun fs => ?_, fun fs hany => ?_, fun kinds cause hkinds hany => ?_⟩
  · obtain ⟨host', hon, hkept⟩ := look.on_perform h
    exact ⟨_, host', hon, hkept, exists_release hkept⟩
  · rw [Look.answer_eq_ok_iff h, Look.tell_any_iff]
  · obtain ⟨hkinds, hfragments⟩ := Look.tell_of_any ((Look.answer_eq_ok_iff h).mp hany)
    refine ⟨⟨_, (Look.answer_eq_ok_iff h).mpr hkinds, Fragment.Kind.ascending_distinct _,
      fun kind => ?_⟩, fun kind => ?_⟩
    · rw [Fragment.Kind.mem_distinct, List.mem_map]
    · rw [Look.answer_eq_ok_iff h, hfragments]
      simp only [Fragment.Filter.selects, Bool.beq_comm]
  · rw [Look.answer_eq h] at hany
    cases htell : (Look.fragments .any).tell event.content with
    | ok reply =>
      rw [htell] at hany
      cases hany
    | error fault =>
      rw [htell] at hany
      cases hany
      obtain ⟨_, _, rfl⟩ := Look.tell_any_error ((Look.answer_eq_ok_iff h).mp hkinds) htell
      exact ⟨_, _, rfl⟩

/-- In a record of an event a fragment declares a word of metadata that is not there: the
kinds are told, and not the fragments. -/
theorem scanner_exact_overflow :
    let config : Segment.Config := ⟨7, 1, 64, 0, true, 0⟩
    let record : Bytes := Bytes.zeros 32 ++ [4, 0, 0, 0, 0, 0, 1, 1] ++ Bytes.zeros 24
    let w := (World.run [.attach config .manual, .perform 0 (.claimForWriting false),
      .perform 0 (.write 0 record), .perform 0 (.publish 0 .any), .perform 0 .claimForReading]).2
    ∃ channel event, w.manager? 0 = some channel.endpoint.data ∧
      channel.holding? w.host = some event ∧ event.content = record ∧
      (∃ kinds, Look.kinds.answer channel w.host = .ok (.kinds kinds)) ∧
      ∃ metadataWords bodyWords, (Look.fragments .any).answer channel w.host =
        .error (.framing (.metadataOverflow metadataWords bodyWords)) := by
  intro config record w
  obtain ⟨manager, hmanager, hfacts⟩ := (Option.any_eq_true (fun manager : Manager =>
      let channel : EventChannel := ⟨⟨manager, none⟩, some (.data, 0), false⟩
      (channel.holding? w.host).any (·.content == record) &&
        decide (Look.kinds.answer channel w.host = .ok (.kinds [.ofRaw 1])) &&
        ((Look.fragments .any).answer channel w.host).toOption.isNone)
    (w.manager? 0)).mp (by decide +kernel)
  simp only [Bool.and_eq_true, decide_eq_true_eq] at hfacts
  obtain ⟨⟨hholding, hkinds⟩, hnone⟩ := hfacts
  obtain ⟨event, hevent, hcontent⟩ := (Option.any_eq_true ..).mp hholding
  refine ⟨_, event, hmanager, hevent, by simpa using hcontent, ⟨_, hkinds⟩, ?_⟩
  cases hany : (Look.fragments .any).answer ⟨⟨manager, none⟩, some (.data, 0), false⟩ w.host with
  | ok reply =>
    rw [hany] at hnone
    cases hnone
  | error cause =>
    obtain ⟨_, _, rfl⟩ := (scanner_exact hevent).2.2.2 _ cause hkinds hany
    exact ⟨_, _, rfl⟩

end EventChannel

end SlotTransport
