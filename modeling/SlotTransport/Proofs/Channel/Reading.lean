/-
A channel reads whatever a slot holds. It reads in two steps, the header and then what
the header declares, and each step looks at the length of what is there before it reads:
so a reader never runs over the end of a slot, and each way out releases the slot
(`Reads.on_readHeader`, `Reads.on_readBody`). What comes of it is told by the bytes alone
(`Reads.on_read_told`), and it is what the decoder of records says of them
(`told_eq_ok_iff`).
-/
import SlotTransport.Proofs.Event.Sight
import SlotTransport.Proofs.Operation.Incident
import SlotTransport.Proofs.Segment.Search

namespace SlotTransport

open Segment

namespace Segment.Mapping

variable {m claimed : Mapping} {k : Nat}

/-- A claim that gets a slot takes it, after everything was reclaimed. -/
theorem exists_taken (h : m.claimForReading = (some k, claimed)) : ∃ s,
    m.slots[k]? = some s ∧ claimed = m.sweepAll.takeForReading k (s.swept m.staleness) := by
  rcases m.claimForReading_cases with ⟨hnone, -⟩ | ⟨slot, s, hs, -, -, hsome⟩
  · cases h.symm.trans hnone
  · cases h.symm.trans hsome
    exact ⟨s, hs, rfl⟩

theorem me_taken (h : m.claimForReading = (some k, claimed)) (hgone : m.me.destructive = true) :
    claimed.me = m.me := by
  obtain ⟨s, -, rfl⟩ := exists_taken h
  have hgone' : m.sweepAll.me.destructive = true := hgone
  rw [me_takeForReading, if_pos hgone']
  rfl

/-- The other slots are reclaimed by the claim, and that is all. -/
theorem slots_taken_of_ne (h : m.claimForReading = (some k, claimed)) {j : Nat} (hj : j ≠ k) :
    claimed.slots[j]? = m.slots[j]?.map (·.renewed m.staleness) := by
  obtain ⟨s, -, rfl⟩ := exists_taken h
  rw [slots_takeForReading, List.getElem?_set_ne hj.symm, sweepAll_eq_renewed, slots_withSlots,
    List.getElem?_map]

end Segment.Mapping

namespace FragmentChannel

variable {channel : FragmentChannel} {host : Host} {m after claimed : Mapping} {k : Nat}
  {s t t' : Slot} {content : Bytes} {header : Fragment.Header} {f : Fragment} {α : Type}

/-! ## What is told of the content of a slot -/

/-- The header that a channel finds in a slot in which some bytes are written. -/
def headerOf (slot : Nat) (content : Bytes) : Except HeaderFault Fragment.Header :=
  if content.length < Fragment.Header.size then .error (.tooShort slot content.length)
  else
    match Fragment.Header.decode content with
    | .error cause => .error (.malformed slot cause)
    | .ok header =>
      if content.length < header.recordSize then
        .error (.overlong slot header.recordSize content.length)
      else .ok header

/-- What a channel tells of the slot. -/
def told (slot : Nat) (content : Bytes) : Except ChannelError Fragment :=
  match headerOf slot content with
  | .error fault => .error (.header fault)
  | .ok header =>
    (Fragment.ofParts header (content.slice Fragment.Header.size header.bodySize)).mapError
      fun cause => .payload (.malformed cause)

theorem headerOf_eq_ok_iff : headerOf k content = .ok header ↔
    Fragment.Header.decode content = .ok header ∧ header.recordSize ≤ content.length := by
  rw [headerOf]
  by_cases hshort : content.length < Fragment.Header.size
  · have hfault : Fragment.Header.decode content =
        .error (.truncatedHeader Fragment.Header.size content.length) := if_pos hshort
    simp [hshort, hfault]
  · rw [if_neg hshort]
    cases Fragment.Header.decode content with
    | error cause => simp
    | ok found =>
      by_cases hcut : content.length < found.recordSize
      · simp only [if_pos hcut, Except.ok.injEq, reduceCtorEq, false_iff, not_and, not_le]
        rintro rfl
        exact hcut
      · simp only [if_neg hcut, Except.ok.injEq, iff_self_and]
        rintro rfl
        exact Nat.not_lt.mp hcut

theorem told_eq_ok_iff : told k content = .ok f ↔ Fragment.decode content = .ok f := by
  rw [told, Fragment.decode_eq_ok_iff]
  constructor
  · intro h
    split at h
    · cases h
    · rename_i header hheader
      obtain ⟨hdecode, hwhole⟩ := headerOf_eq_ok_iff.mp hheader
      cases hparts : Fragment.ofParts header
          (content.slice Fragment.Header.size header.bodySize) with
      | error cause => simp [hparts, Except.mapError] at h
      | ok found =>
        simp only [hparts, Except.mapError, Except.ok.injEq] at h
        subst h
        obtain ⟨rfl, hbody⟩ := Fragment.ofParts_eq_ok_iff.mp hparts
        exact ⟨hdecode, hwhole, hbody⟩
  · rintro ⟨hdecode, hwhole, hbody⟩
    simp only [headerOf_eq_ok_iff.mpr ⟨hdecode, hwhole⟩, hbody, f.ofParts_self, Except.mapError]

theorem told_cases (k : Nat) (content : Bytes) :
    (∃ f, told k content = .ok f) ∨ (∃ fault, told k content = .error (.header fault)) ∨
      ∃ fault, told k content = .error (.payload fault) := by
  rw [told]
  split
  · exact .inr (.inl ⟨_, rfl⟩)
  · cases Fragment.ofParts _ _ with
    | error cause => exact .inr (.inr ⟨_, rfl⟩)
    | ok f => exact .inl ⟨f, rfl⟩

/-! ## A slot in hand -/

theorem follow_self (h : channel.manager.mapping? host = some m) :
    channel.follow m.me = channel := by
  obtain ⟨me, segment, hattachment, -, rfl⟩ := Manager.mapping?_eq_some_iff.mp h
  rw [follow, ← hattachment]

theorem on_guarded (h : channel.manager.mapping? host = some m)
    {op : Program α} {answer : α} (hop : op.on m = (.ok answer, after))
    (hobject : after.me.object = m.me.object) (wrap : Segment.Error → ChannelError) :
    (onManagerAs wrap (Manager.guarded op)).on channel host =
      (.ok answer, channel.follow after.me, after.onto host) := by
  simp only [onManagerAs, Action.within, Action.on_of, Manager.guarded, h, hop, Mapping.onto,
    hobject]
  rfl

/-- The channel's manager holds a slot for reading, in which some bytes are written. -/
structure Reads (channel : FragmentChannel) (host : Host) (m : Mapping) (k : Nat) (s : Slot)
    (content : Bytes) : Prop where
  mapping : channel.manager.mapping? host = some m
  reads : m.Reads k s content

namespace Reads

theorem mapping?_store (h : channel.Reads host m k s content) (t : Slot) :
    channel.manager.mapping? ((m.store k t).onto host) = some (m.store k t) := by
  have hmapping := Manager.mapping?_onto h.mapping (Mapping.kept_store m k t)
  have hself := follow_self h.mapping
  have hsame : channel.follow (m.store k t).me = channel := hself
  rw [← hsame]
  exact hmapping

theorem next (h : channel.Reads host m k s content) (ht : s.Reread t) :
    channel.Reads ((m.store k t).onto host) (m.store k t) k t content :=
  ⟨h.mapping?_store t, h.reads.reread ht⟩

theorem withHeld (h : channel.Reads host m k s content) (held : Option (Nat × Fragment.Header)) :
    FragmentChannel.Reads { channel with held := held } host m k s content :=
  ⟨h.mapping, h.reads⟩

theorem on_guarded (h : channel.Reads host m k s content) (ht : s.Reread t)
    {op : Program α} {answer : α}
    (hop : op.on (m.store k t) = (.ok answer, (m.store k t).store k t'))
    (wrap : Segment.Error → ChannelError) :
    (onManagerAs wrap (Manager.guarded op)).on channel ((m.store k t).onto host) =
      (.ok answer, channel, (m.store k t').onto host) := by
  have hself := follow_self h.mapping
  have hsame : channel.follow ((m.store k t).store k t').me = channel := hself
  rw [FragmentChannel.on_guarded (h.next ht).mapping hop rfl, hsame, Mapping.onto_store_store]

theorem on_written (h : channel.Reads host m k s content) (ht : s.Reread t) :
    (onManager (Manager.written k)).on channel ((m.store k t).onto host) =
      (.ok content.length, channel, (m.store k t).onto host) := by
  have hsame : (m.store k t).store k t = m.store k t := Mapping.store_self (h.reads.lookup t)
  have hop := (h.next ht).reads.written
  have hasked : (Program.require (·.written k)).on (m.store k t) =
      (.ok content.length, (m.store k t).store k t) := by
    rw [Program.on_require, hop, hsame]
  exact h.on_guarded ht hasked .segment

theorem on_read (h : channel.Reads host m k s content) (ht : s.Reread t) (len : Nat)
    (hlen : t.readPos + len ≤ content.length) (wrap : Segment.Error → ChannelError) :
    ∃ more, (onManagerAs wrap (Manager.read k len)).on channel ((m.store k t).onto host) =
      (.ok (content.slice t.readPos len, more), channel,
        (m.store k ((t.advance len).touched m.now)).onto host) := by
  obtain ⟨more, hread⟩ := (h.next ht).reads.read hlen
  exact ⟨more, h.on_guarded ht (Program.on_of_settled (Program.on_read k len _) hread) wrap⟩

theorem on_release (h : channel.Reads host m k s content) (ht : s.Reread t) :
    (onManager (Manager.release k)).on channel ((m.store k t).onto host) =
      (.ok (), channel, (m.store k ((m.released t).touched m.now)).onto host) :=
  h.on_guarded ht (Program.on_of_done (Program.on_release k _) (h.next ht).reads.release) .segment

theorem on_discard (h : channel.Reads host m k s content) (ht : s.Reread t)
    (fault : HeaderFault) :
    (discard k fault : Action FragmentChannel ChannelError α).on channel
        ((m.store k t).onto host) =
      (.error (.header fault), channel, (m.store k ((m.released t).touched m.now)).onto host) := by
  rw [discard, Action.on_bind_ok (h.on_release ht), Action.on_throw]

end Reads

/-! ## Reading in two steps -/

variable {me : Attachment} {before : Host}

theorem exists_reads (h : channel.manager.mapping? host = some m)
    (hclaim : m.claimForReading = (some k, claimed)) (hview : claimed.view k = .ok content) :
    ∃ s, (onManager Manager.claimForReading).on channel host =
        (.ok (some k), channel.follow claimed.me, (claimed.store k s).onto (claimed.onto host)) ∧
      (channel.follow claimed.me).Reads (claimed.onto host) claimed k s content ∧
      claimed.slots[k]? = some s ∧ s.readPos = 0 := by
  have hfound : m.claimForReading.1 = some k := by rw [hclaim]
  have hkept : m.Kept claimed := by
    have hkept := m.kept_claimForReading
    rwa [hclaim] at hkept
  obtain ⟨t, ht, -⟩ := Mapping.exists_taken hclaim
  obtain ⟨-, hs⟩ := Mapping.slots_claimForReading hfound ht
  rw [hclaim] at hs
  obtain ⟨hholds, rfl⟩ := (Mapping.view_iff hs).mp hview
  refine ⟨_, ?_, ⟨Manager.mapping?_onto h hkept, hs, hholds, rfl⟩, hs, rfl⟩
  rw [Mapping.onto_onto, Mapping.store_self hs]
  exact on_guarded h (by rw [Program.on_claimForReading, hclaim]) hkept.me.object .segment

namespace Reads

theorem on_readHeader (h : (channel.follow me).Reads host m k s content) (hpos : s.readPos = 0)
    (hattached : channel.manager.isAttached = true) (hheld : channel.held = none)
    (hclaim : (onManager Manager.claimForReading).on channel before =
      (.ok (some k), channel.follow me, (m.store k s).onto host)) :
    ∃ t, s.Reread t ∧
      (∀ header, headerOf k content = .ok header →
        t = (s.advance Fragment.Header.size).touched m.now) ∧
      readHeader.on channel before =
        match headerOf k content with
        | .error fault =>
          (.error (.header fault), channel.follow me,
            (m.store k ((m.released t).touched m.now)).onto host)
        | .ok header =>
          (.ok (some header), { channel.follow me with held := some (k, header) },
            (m.store k t).onto host) := by
  rw [readHeader, Action.on_bind_ok (Action.on_own ..)]
  simp only [hheld]
  rw [Action.on_bind_ok (on_requireAttached hattached before), Action.on_bind_ok hclaim]
  simp only
  rw [Action.on_bind_ok (h.on_written (.refl s))]
  by_cases hshort : content.length < Fragment.Header.size
  · have hfault : headerOf k content = .error (.tooShort k content.length) := if_pos hshort
    rw [if_pos hshort, hfault]
    refine ⟨s, .refl s, ?_, h.on_discard (.refl s) _⟩
    rintro header ⟨⟩
  · have hlong : Fragment.Header.size ≤ content.length := Nat.not_lt.mp hshort
    obtain ⟨more, hread⟩ := h.on_read (.refl s) Fragment.Header.size (by rw [hpos]; omega)
      (fun cause => .header (.unreadable cause))
    have hreread : s.Reread ((s.advance Fragment.Header.size).touched m.now) := ⟨_, _, rfl⟩
    -- No more was read than a header has, and no more counts for it.
    have hfirst : Fragment.Header.decode (content.slice s.readPos Fragment.Header.size) =
        Fragment.Header.decode content := by
      rw [hpos]
      exact Fragment.Header.decode_take (le_refl _) hlong
    refine ⟨_, hreread, fun _ _ => rfl, ?_⟩
    rw [if_neg hshort, Action.on_bind_ok hread, headerOf, if_neg hshort]
    dsimp only
    rw [hfirst]
    cases Fragment.Header.decode content with
    | error cause => exact h.on_discard hreread _
    | ok header =>
      by_cases hcut : content.length < header.recordSize
      · simp only [if_pos hcut]
        exact h.on_discard hreread _
      · simp only [if_neg hcut]
        rfl

theorem on_giveBack (h : channel.Reads host m k s content) (ht : s.Reread t)
    (direction : Counters → Nat × Nat) (bytes : Nat) (body : Bytes) :
    ∃ registry,
      Action.on (do
          onManager (Manager.release k)
          countTraffic direction bytes
          return body) channel ((m.store k t).onto host) =
        (.ok body, channel,
          { (m.store k ((m.released t).touched m.now)).onto host with registry }) := by
  obtain ⟨registry, hcount⟩ := on_countTraffic direction bytes channel
    ((m.store k ((m.released t).touched m.now)).onto host)
  refine ⟨registry, ?_⟩
  rw [Action.on_bind_ok (h.on_release ht), Action.on_bind_ok hcount, Action.on_pure]

theorem on_readBody (h : channel.Reads host m k s content)
    (hheld : channel.held = some (k, header)) (ht : s.Reread t)
    (hpos : t.readPos = Fragment.Header.size)
    (hwhole : Fragment.Header.size + header.bodySize ≤ content.length) :
    ∃ t' registry, s.Reread t' ∧
      (readBody header.bodySize).on channel ((m.store k t).onto host) =
        (.ok (content.slice Fragment.Header.size header.bodySize), { channel with held := none },
          { (m.store k ((m.released t').touched m.now)).onto host with registry }) := by
  have h₀ := h.withHeld none
  by_cases hsize : header.bodySize = 0
  · obtain ⟨registry, hback⟩ := h₀.on_giveBack ht
      (fun counters => (counters.fragmentsRead, counters.bytesRead))
      (Fragment.Header.size + header.bodySize) []
    have hbody : content.slice Fragment.Header.size header.bodySize = [] := by
      rw [hsize, Bytes.slice, List.take_zero]
    refine ⟨t, registry, ht, ?_⟩
    rw [readBody, Action.on_bind_ok (Action.on_own ..)]
    simp only [hheld, if_neg (Nat.lt_irrefl _), if_pos hsize, pure_bind]
    rw [Action.on_bind_ok (Action.on_change ..), hback, hbody]
  · obtain ⟨more, hread⟩ := h₀.on_read ht header.bodySize (by rw [hpos]; exact hwhole)
      (fun cause => .payload (.unreadable cause))
    have hreread : s.Reread ((t.advance header.bodySize).touched m.now) := ht.trans ⟨_, _, rfl⟩
    obtain ⟨registry, hback⟩ := h₀.on_giveBack hreread
      (fun counters => (counters.fragmentsRead, counters.bytesRead))
      (Fragment.Header.size + header.bodySize) (content.slice t.readPos header.bodySize)
    refine ⟨_, registry, hreread, ?_⟩
    rw [readBody, Action.on_bind_ok (Action.on_own ..)]
    simp only [hheld, if_neg (Nat.lt_irrefl _), if_neg hsize, pure_bind]
    rw [Action.on_bind_ok (Action.on_change ..), Action.on_bind_ok hread, hback, hpos]

/-- What is told of the slot is read, and the slot is released. -/
theorem on_read_told (h : (channel.follow me).Reads host m k s content) (hpos : s.readPos = 0)
    (hattached : channel.manager.isAttached = true) (hheld : channel.held = none)
    (hclaim : (onManager Manager.claimForReading).on channel before =
      (.ok (some k), channel.follow me, (m.store k s).onto host)) :
    ∃ t registry, s.Reread t ∧
      read.on channel before = ((told k content).map some, channel.follow me,
        { (m.store k ((m.released t).touched m.now)).onto host with registry }) := by
  obtain ⟨t, ht, hadvanced, hheader⟩ := h.on_readHeader hpos hattached hheld hclaim
  rw [read, told]
  cases hfound : headerOf k content with
  | error fault =>
    rw [hfound] at hheader
    exact ⟨t, _, ht, Action.on_bind_error hheader _⟩
  | ok header =>
    rw [hfound] at hheader
    obtain ⟨hdecode, hwhole⟩ := headerOf_eq_ok_iff.mp hfound
    rw [Fragment.Header.recordSize_eq (Fragment.Header.size_le_recordSize_of_decode hdecode)]
      at hwhole
    have hread : t.readPos = Fragment.Header.size := by
      rw [hadvanced header hfound]
      show s.readPos + Fragment.Header.size = Fragment.Header.size
      rw [hpos, Nat.zero_add]
    have hback : ({ channel.follow me with held := none } : FragmentChannel) =
        channel.follow me := by
      rw [← hheld]
      rfl
    obtain ⟨t', registry, ht', hbody⟩ :=
      (h.withHeld (some (k, header))).on_readBody rfl ht hread hwhole
    rw [hback] at hbody
    refine ⟨t', registry, ht', ?_⟩
    rw [Action.on_bind_ok hheader]
    dsimp only
    rw [Action.on_bind_ok hbody]
    cases Fragment.ofParts header (content.slice Fragment.Header.size header.bodySize) <;> rfl

end Reads

/-- **A channel reads whatever a slot holds.** Records are gone once read, the channel holds
nothing back, and its next claim gets a slot in which some bytes are written, any bytes. Then
it reads a fragment exactly if the bytes decode to that fragment, and otherwise says what is
wrong with the header or with the payload. Either way the channel is as before, attached and
with nothing held back, the slot is empty and nobody's, and the other slots are as the claim
left them: reclaimed if they were stale. -/
theorem content_read_exact (h : channel.manager.mapping? host = some m)
    (hheld : channel.held = none) (hgone : m.me.destructive = true)
    (hclaim : m.claimForReading = (some k, claimed)) (hview : claimed.view k = .ok content) :
    ∃ (answer : Except ChannelError (Option Fragment)) (host' : Host) (m' : Mapping),
      read.on channel host = (answer, channel, host') ∧
      (∀ f, answer = .ok (some f) ↔ Fragment.decode content = .ok f) ∧
      ((∃ f, Fragment.decode content = .ok f) ∨
        (∃ fault, answer = .error (.header fault)) ∨ ∃ fault, answer = .error (.payload fault)) ∧
      channel.manager.mapping? host' = some m' ∧ m'.slots.length = m.slots.length ∧
      (∃ s, m'.slots[k]? = some s ∧ s.state = .empty ∧ s.owner = noOwner) ∧
      ∀ j ≠ k, m'.slots[j]? = m.slots[j]?.map (·.renewed m.staleness) := by
  obtain ⟨s, hon, hreads, -, hpos⟩ := exists_reads h hclaim hview
  have hme : claimed.me = m.me := Mapping.me_taken hclaim hgone
  obtain ⟨t, registry, -, hread⟩ :=
    hreads.on_read_told hpos (Manager.isAttached_of_mapping? h) hheld hon
  rw [Mapping.released_of_gone (hme ▸ hgone)] at hread
  rw [hme, follow_self h] at hreads hread
  have hmapping := hreads.mapping?_store (t.freed.touched claimed.now)
  refine ⟨_, _, _, hread, fun f => ?_, ?_, hmapping, ?_, ⟨_, hreads.reads.lookup _, rfl, rfl⟩,
    fun j hj => ?_⟩
  · rw [← told_eq_ok_iff]
    cases told k content <;> simp [Except.map]
  · rcases told_cases k content with ⟨f, hf⟩ | ⟨fault, hfault⟩ | ⟨fault, hfault⟩
    · exact .inl ⟨f, told_eq_ok_iff.mp hf⟩
    · exact .inr (.inl ⟨fault, by rw [hfault]; rfl⟩)
    · exact .inr (.inr ⟨fault, by rw [hfault]; rfl⟩)
  · have hlength := m.kept_claimForReading.segment.length
    rw [hclaim] at hlength
    rw [Mapping.slots_store, List.length_set]
    exact hlength
  · rw [Mapping.slots_store, List.getElem?_set_ne hj.symm, Mapping.slots_taken_of_ne hclaim hj]

/-- A record of four words that declares a word of metadata, and has none. The record in the
other slot was being read, and the claim is stale. -/
theorem content_read_exact_overflow :
    let config : Segment.Config := ⟨7, 2, 64, 10, true, 0⟩
    let record : Bytes := [4, 0, 0, 0, 0, 0, 1, 1] ++ Bytes.zeros 24
    let slots : List Slot := [
      { Slot.fresh 11 with
        word := .of .full noOwner, writePos := 32, sequenceId := 1, memory := record },
      { Slot.fresh 0 with
        word := .of .reading 5, writePos := 2, readPos := 1, sequenceId := 2, memory := [1, 2] }]
    let host : Host := { Host.new ⟨11⟩ ⟨0⟩ with
      objects := [{ Segment.formatted config 400 0 with slots }] }
    let channel := new ⟨config, .manual, true, some (.new 0 0 (.created config))⟩
    ∃ (host' : Host) (m' : Mapping),
      read.on channel host =
        (.error (.payload (.malformed (.metadataOverflow 1 0))), channel, host') ∧
      channel.manager.mapping? host' = some m' ∧
      (m'.slots[0]?).map Slot.state = some .empty ∧
      ∃ s, m'.slots[1]? = some s ∧ s.state = .full ∧ s.memory = [1, 2] := by
  intro config record slots host channel
  let m : Mapping := ⟨.new 0 0 (.created config), 11,
    { Segment.formatted config 400 0 with slots }⟩
  have hm : channel.manager.mapping? host = some m := by decide +kernel
  have hclaim : m.claimForReading = (some 0, m.claimForReading.2) :=
    Prod.ext (by decide +kernel) rfl
  have hview : m.claimForReading.2.view 0 = .ok record := by decide +kernel
  obtain ⟨answer, host', m', hread, -, -, hm', -, ⟨s, hs, hempty, -⟩, hothers⟩ :=
    content_read_exact hm rfl rfl hclaim hview
  have hanswer : (read.on channel host).1 =
      .error (.payload (.malformed (.metadataOverflow 1 0))) := by decide +kernel
  rw [hread] at hanswer
  subst hanswer
  exact ⟨host', m', hread, hm', by rw [hs, Option.map_some, hempty], _,
    hothers 1 (by decide), rfl, rfl⟩

end FragmentChannel

end SlotTransport
