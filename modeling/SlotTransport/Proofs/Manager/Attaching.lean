/-
What an attempt to attach is told, whatever is on the host. An object is joined or left as it
is: `attach_of_object` brings the attempt down to the object, `joinable_eq_ok_iff` says which
objects can be joined and `joined_or_untouched` what follows, whatever their control blocks hold.
A configuration is validated by the data of its slots alone (`validate_eq_ok_iff`), so that the
size of what it would create may still not be counted by a word, and only then is an attempt
refused for that (`uncountable_size_refused`).
-/
import SlotTransport.Proofs.Manager.Connection
import SlotTransport.Proofs.Segment.Layout

namespace SlotTransport

open Segment

/-! ## Configurations -/

namespace Segment.Config

variable {config : Config}

theorem mayCreate_eq_true_iff : config.mayCreate = true ↔ config.slotCount ≠ 0 := by
  simp [mayCreate]

theorem validate_eq_ok_iff : config.validate = .ok () ↔
    (config.slotCount ≠ 0 → config.slotSize ≠ 0) ∧
      config.slotCount.toNat * config.slotSize.toNat < UInt64.size := by
  have hproduct : (Word.mul? config.slotCount config.slotSize).isNone = true ↔
      ¬ config.slotCount.toNat * config.slotSize.toNat < UInt64.size := by
    unfold Word.mul?
    split <;> simp_all
  unfold validate
  split
  · rename_i hempty
    simp [hempty]
  · rename_i hfilled
    split
    · rename_i hnone
      simp [hproduct.mp hnone]
    · rename_i hcounted
      exact iff_of_true rfl ⟨fun hcount hsize => hfilled ⟨hcount, hsize⟩,
        Decidable.not_not.mp (mt hproduct.mpr hcounted)⟩

theorem validate_of_size? {total : UInt64} (hfilled : config.slotSize ≠ 0)
    (h : config.geometry.size? = some total) : config.validate = .ok () := by
  have htotal := Geometry.size?_eq_some_iff.mp h
  have hlt := total.toNat_lt
  refine validate_eq_ok_iff.mpr ⟨fun _ => hfilled, ?_⟩
  simp only [geometry, UInt64.size] at *
  omega

end Segment.Config

/-! ## Objects that can be joined -/

namespace Segment

variable {segment : Segment} {key : Key} {cause : Error}

theorem holdsSlots_eq_true_iff : segment.holdsSlots = true ↔
    ∃ total, segment.control.geometry.size? = some total ∧ total.toNat ≤ segment.size := by
  unfold holdsSlots
  cases segment.control.geometry.size? with
  | none => simp
  | some total => simp

/-- Metadata whose length goes once around a word do not make a short object long enough. -/
example : Segment.holdsSlots { Segment.blank 128 with control := { Control.blank with
    geometry := ⟨0x400000000000000, 0⟩ } } = false := by decide

theorem joinable_eq_ok_iff : segment.joinable key = .ok () ↔
    controlSize.toNat ≤ segment.size ∧ segment.control.magic = readyMagic ∧
      segment.control.version = layoutVersion ∧ segment.holdsSlots = true := by
  unfold joinable
  grind

/-- An object that cannot be joined is waited for, unless it is ready in another version. -/
theorem joinable_eq_error_iff : segment.joinable key = .error cause ↔
    segment.joinable key ≠ .ok () ∧
      cause = if controlSize.toNat ≤ segment.size ∧ segment.control.magic = readyMagic ∧
          segment.control.version ≠ layoutVersion
        then .incompatibleVersion key segment.control.version layoutVersion
        else .attachTimeout key := by
  unfold joinable
  grind

/-- An object that managers can join on a host that maps objects of some sizes: it is mapped,
long enough for a control block, ready, of the known version, and as long as its control block
declares. -/
structure Admits (segment : Segment) (maps : Nat → Bool) : Prop where
  mapped : maps segment.size = true
  long : controlSize.toNat ≤ segment.size
  ready : segment.control.magic = readyMagic
  version : segment.control.version = layoutVersion
  holds : ∃ total, segment.control.geometry.size? = some total ∧ total.toNat ≤ segment.size

theorem admits_iff (maps : Nat → Bool) (key : Key) : segment.Admits maps ↔
    maps segment.size = true ∧ segment.joinable key = .ok () := by
  rw [joinable_eq_ok_iff, holdsSlots_eq_true_iff]
  exact ⟨fun h => ⟨h.mapped, h.long, h.ready, h.version, h.holds⟩,
    fun ⟨hmapped, hlong, hready, hversion, hholds⟩ =>
      ⟨hmapped, hlong, hready, hversion, hholds⟩⟩

/-- What those are told who try to join an object that they cannot join. -/
def refusal (segment : Segment) (maps : Nat → Bool) (key : Key) : Error :=
  if controlSize.toNat ≤ segment.size ∧ maps segment.size = false then .host
  else if controlSize.toNat ≤ segment.size ∧ segment.control.magic = readyMagic ∧
      segment.control.version ≠ layoutVersion then
    .incompatibleVersion key segment.control.version layoutVersion
  else .attachTimeout key

theorem joinable_ne_violation {breach : Violation} :
    segment.joinable key ≠ .error (.violation breach) := by
  unfold joinable
  grind

end Segment

/-! ## Attempts -/

theorem map_eq_error_iff {ε α β : Type} {x : Except ε α} {f : α → β} {e : ε} :
    x.map f = .error e ↔ x = .error e := by
  cases x <;> simp [Except.map]

namespace Host

variable {host : Host} {config : Segment.Config} {segment : Segment} {key : Key} {number : Nat}

theorem segment?_eq_some_iff : host.segment? key = some segment ↔
    ∃ number, host.entry? key = some (.object number) ∧ host.objects[number]? = some segment := by
  unfold segment? number?
  cases host.entry? key with
  | none => simp
  | some entry => cases entry <;> simp

theorem join_of_unmapped (number : Nat) (hcountable : config.geometry.size? ≠ none)
    (h : controlSize.toNat ≤ segment.size ∧ host.maps segment.size = false) :
    host.join config number segment = (.error .host, host) := by
  rw [join, if_neg fun hsize => hcountable hsize.2.2, if_pos h]

theorem join_of_refused (hcountable : config.geometry.size? ≠ none)
    (hmapped : ¬ (controlSize.toNat ≤ segment.size ∧ host.maps segment.size = false))
    {cause : Segment.Error} (h : segment.joinable config.key = .error cause) :
    host.join config number segment = (.error cause, host) := by
  rw [join, if_neg fun hsize => hcountable hsize.2.2, if_neg hmapped, h]

theorem join_of_joinable (hcountable : config.geometry.size? ≠ none)
    (hmapped : host.maps segment.size = true) (h : segment.joinable config.key = .ok ()) :
    host.join config number segment =
      (.ok (.new number segment.control.nextId segment.control),
        host.store number segment.joined) := by
  rw [join, if_neg fun hsize => hcountable hsize.2.2, if_neg (by simp [hmapped]), h]

/-- A size that cannot be counted is noticed in the place of an object that is too short. -/
theorem join_uncountable_iff :
    (host.join config number segment).1 = .error (.violation (.misuse .uncountableSize)) ↔
      segment.size < controlSize.toNat ∧ config.mayCreate = true ∧
        config.geometry.size? = none := by
  unfold join
  split
  · rename_i hsize
    simp [hsize]
  · rename_i hsize
    rw [iff_false_intro hsize]
    split
    · simp
    · cases hjoin : segment.joinable config.key with
      | ok _ => simp
      | error cause =>
        have hcause : cause ≠ .violation (.misuse .uncountableSize) := by
          rintro rfl
          exact joinable_ne_violation hjoin
        simpa using hcause

theorem create_uncountable_iff (now : Nat) :
    (host.create config now).1 = .error (.violation (.misuse .uncountableSize)) ↔
      config.geometry.size? = none := by
  unfold create
  cases config.geometry.size? with
  | none => simp
  | some size =>
    simp only [reduceCtorEq, iff_false]
    split
    · simp
    · split <;> simp

end Host

namespace Manager

variable {config : Segment.Config} {time : TimeSource} {host : Host} {segment : Segment}
  {number : Nat}

theorem attach_of_object (time : TimeSource) (hvalid : config.validate = .ok ())
    (hname : host.entry? config.key = some (.object number))
    (hobject : host.objects[number]? = some segment) :
    attach config time host =
      ((host.join config number segment).1.map fun me => ⟨config, time, false, some me⟩,
        (host.join config number segment).2) := by
  simp only [attach, connect, Action.on_of, hvalid, hname, hobject]
  rcases host.join config number segment with ⟨answer, after⟩
  cases answer <;> rfl

theorem attach_of_no_name (time : TimeSource) (hvalid : config.validate = .ok ())
    (hmay : config.mayCreate = true) (hname : host.entry? config.key = none) :
    ∃ now, attach config time host =
      ((host.create config now).1.map fun me => ⟨config, time, true, some me⟩,
        (host.create config now).2) := by
  refine ⟨Manager.now ⟨config, time, false, none⟩ host, ?_⟩
  simp only [attach, connect, Action.on_of, hvalid, hname, hmay, if_true]
  rcases host.create config _ with ⟨answer, after⟩
  cases answer <;> rfl

/-- A new manager joins the object of its key, and nothing else changes. -/
theorem attach_of_admits (time : TimeSource) (hvalid : config.validate = .ok ())
    (hcountable : config.geometry.size? ≠ none)
    (hname : host.entry? config.key = some (.object number))
    (hobject : host.objects[number]? = some segment) (h : segment.Admits host.maps) :
    attach config time host =
      (.ok ⟨config, time, false, some (.new number segment.control.nextId segment.control)⟩,
        host.store number segment.joined) := by
  obtain ⟨hmapped, hjoinable⟩ := (admits_iff host.maps config.key).mp h
  rw [attach_of_object time hvalid hname hobject,
    Host.join_of_joinable hcountable hmapped hjoinable]
  rfl

/-- Who cannot join the object of a key changes nothing. -/
theorem attach_of_not_admits (time : TimeSource) (hvalid : config.validate = .ok ())
    (hcountable : config.geometry.size? ≠ none)
    (hname : host.entry? config.key = some (.object number))
    (hobject : host.objects[number]? = some segment) (h : ¬ segment.Admits host.maps) :
    attach config time host = (.error (segment.refusal host.maps config.key), host) := by
  rw [attach_of_object time hvalid hname hobject, refusal]
  by_cases hunmapped : controlSize.toNat ≤ segment.size ∧ host.maps segment.size = false
  · rw [Host.join_of_unmapped number hcountable hunmapped, if_pos hunmapped]
    rfl
  · rw [if_neg hunmapped]
    cases hjoin : segment.joinable config.key with
    | ok _ =>
      have hmapped : host.maps segment.size = true := by
        simpa [(joinable_eq_ok_iff.mp hjoin).1] using hunmapped
      exact absurd ((admits_iff host.maps config.key).mpr ⟨hmapped, hjoin⟩) h
    | error cause =>
      obtain ⟨-, rfl⟩ := joinable_eq_error_iff.mp hjoin
      rw [Host.join_of_refused hcountable hunmapped hjoin]
      rfl

/-- **An object is joined or left as it is,** whatever its control block holds, by every valid
configuration whose own size can be counted, on every host. It is joined if and only if it admits
managers: then its next id and its count of managers move on by one, the new manager works by the
geometry that it found, and the offsets of every slot, computed without checks, lie within the
object. Else the host is as it was, and what is told is that the host does not map the object, that
it was laid out in another version, or that the time was up. -/
theorem joined_or_untouched (time : TimeSource) (hvalid : config.validate = .ok ())
    (hcountable : config.geometry.size? ≠ none)
    (hobject : host.segment? config.key = some segment) :
    let answer := (attach config time host).1
    let after := (attach config time host).2
    ((∃ manager, answer = .ok manager) ↔ segment.Admits host.maps) ∧
    (∀ cause, answer = .error cause →
      cause = segment.refusal host.maps config.key ∧ after = host) ∧
    ∀ manager, answer = .ok manager →
      after.segment? config.key = some segment.joined ∧
      ∃ me, manager.attachment = some me ∧ me.id = segment.control.nextId ∧
        me.geometry = segment.control.geometry ∧
        ∀ slot < me.geometry.slotCount,
          (metadataOffset slot).toNat + metadataSize.toNat ≤ segment.size ∧
          (me.geometry.dataOffset slot).toNat + me.geometry.slotSize.toNat ≤ segment.size := by
  intro answer after
  obtain ⟨number, hname, hsegment⟩ := Host.segment?_eq_some_iff.mp hobject
  by_cases hadmits : segment.Admits host.maps
  · have hattach := attach_of_admits time hvalid hcountable hname hsegment hadmits
    have hanswer : answer = .ok _ := congrArg Prod.fst hattach
    have hafter : after = host.store number segment.joined := congrArg Prod.snd hattach
    refine ⟨iff_of_true ⟨_, hanswer⟩ hadmits, fun cause h => ?_, fun manager h => ?_⟩
    · cases hanswer.symm.trans h
    · cases hanswer.symm.trans h
      obtain ⟨hlt, -⟩ := List.getElem?_eq_some_iff.mp hsegment
      obtain ⟨total, hsize, htotal⟩ := hadmits.holds
      refine ⟨?_, _, rfl, rfl, rfl, fun slot hslot => ⟨?_, ?_⟩⟩
      · rw [hafter]
        exact Host.segment?_eq_some_iff.mpr ⟨number, hname, List.getElem?_set_self hlt⟩
      · exact Nat.le_trans (Geometry.metadata_within hsize hslot) htotal
      · exact Nat.le_trans (Geometry.data_within hsize hslot) htotal
  · have hattach := attach_of_not_admits time hvalid hcountable hname hsegment hadmits
    have hanswer : answer = .error _ := congrArg Prod.fst hattach
    have hafter : after = host := congrArg Prod.snd hattach
    refine ⟨iff_of_false ?_ hadmits, fun cause h => ?_, fun manager h => ?_⟩
    · rintro ⟨manager, h⟩
      cases hanswer.symm.trans h
    · cases hanswer.symm.trans h
      exact ⟨rfl, hafter⟩
    · cases hanswer.symm.trans h

/-- An object that somebody else has laid out, with three slots and some bytes to spare. -/
theorem joined_or_untouched_foreign :
    let config := Config.attachOnly 7
    let segment : Segment := { Segment.blank 400 with control := { Control.blank with
      magic := readyMagic, version := layoutVersion, geometry := ⟨3, 5⟩, nextId := 9,
      attached := 4 } }
    let host := (Host.new ⟨0⟩ ⟨0⟩).place 7 segment
    config.validate = .ok () ∧ config.geometry.size? ≠ none ∧ host.segment? 7 = some segment ∧
      ∃ manager me, (attach config .manual host).1 = .ok manager ∧
        manager.attachment = some me ∧ me.id = 9 ∧
        (attach config .manual host).2.segment? 7 = some segment.joined ∧
        (me.geometry.dataOffset 2).toNat + me.geometry.slotSize.toNat ≤ 400 := by
  intro config segment host
  have hvalid : config.validate = .ok () := rfl
  have hcountable : config.geometry.size? ≠ none := by decide
  have hobject : host.segment? 7 = some segment := by decide
  obtain ⟨hjoins, -, hjoined⟩ := joined_or_untouched .manual hvalid hcountable hobject
  obtain ⟨manager, hanswer⟩ :=
    hjoins.mpr ⟨by decide, by decide, by decide, by decide, 335, by decide, by decide⟩
  obtain ⟨hafter, me, hme, hid, hgeometry, hslots⟩ := hjoined manager hanswer
  have hslot : 2 < me.geometry.slotCount := by
    rw [hgeometry]
    decide
  exact ⟨hvalid, hcountable, hobject, manager, me, hanswer, hme, hid, hafter, (hslots 2 hslot).2⟩

/-- Not every object that cannot be joined is waited for. One that is too large for the addresses
of a process, as an attempt to create it leaves it behind, is the host's error at once, although
it is not ready; and one that is too short for a control block is waited for, although its first
bytes name another version. -/
theorem refused_for_length :
    let config := Config.attachOnly 7
    let huge : Segment.Config := ⟨7, 1, 0x4000000000000, 0, true, 0⟩
    let empty : Host := { Host.new ⟨0⟩ ⟨0⟩ with maps := fun size => decide (size < 0x800000000000) }
    let host := (attach huge .manual empty).2
    let short : Segment := { Segment.blank 127 with control := { Control.blank with
      magic := readyMagic, version := 2 } }
    let host' := empty.place 7 short
    config.validate = .ok () ∧ config.geometry.size? ≠ none ∧
      host.segment? 7 = some (.blank 0x40000000000c0) ∧
      (attach config .manual host).1 = .error .host ∧
      host'.segment? 7 = some short ∧
      (attach config .manual host').1 = .error (.attachTimeout 7) := by
  intro config huge empty host short host'
  have hvalid : config.validate = .ok () := rfl
  have hcountable : config.geometry.size? ≠ none := by decide
  have hlarge : host.objects[0]? = some (.blank 0x40000000000c0) := by decide
  have hshort : host'.objects[0]? = some short := by decide
  have hrefused := attach_of_not_admits .manual hvalid hcountable (by decide) hlarge
    fun h => absurd h.mapped (by decide)
  have hrefused' := attach_of_not_admits .manual hvalid hcountable (by decide) hshort
    fun h => absurd h.long (by decide)
  have hcause : (Segment.blank 0x40000000000c0).refusal host.maps config.key = .host := by decide
  have hcause' : short.refusal host'.maps config.key = .attachTimeout 7 := by decide
  rw [hcause] at hrefused
  rw [hcause'] at hrefused'
  exact ⟨hvalid, hcountable, by decide, congrArg Prod.fst hrefused, by decide,
    congrArg Prod.fst hrefused'⟩

/-! ## Sizes that cannot be counted -/

theorem attach_of_invalid (time : TimeSource) (host : Host) {cause : ConfigError}
    (h : config.validate = .error cause) :
    attach config time host = (.error (.invalidConfig cause), host) := by
  simp only [attach, connect, Action.on_of, h]
  rfl

theorem attach_of_host (time : TimeSource) (hvalid : config.validate = .ok ())
    (hentry : host.entry? config.key ≠ none) (hnone : host.segment? config.key = none) :
    attach config time host = (.error .host, host) := by
  simp only [attach, connect, Action.on_of, hvalid]
  cases hname : host.entry? config.key with
  | none => exact absurd hname hentry
  | some entry =>
    cases entry with
    | directory => rfl
    | object number =>
      cases hobject : host.objects[number]? with
      | none => simp [hobject, Except.map]
      | some segment =>
        have hsome := Host.segment?_eq_some_iff.mpr ⟨number, hname, hobject⟩
        rw [hnone] at hsome
        cases hsome

/-- **Sizes that cannot be counted.** A configuration that lets a segment be created is valid if
and only if its slots have bytes and a word counts the bytes of all of them; the control block and
the metadata play no part. So whatever can be laid out is valid, and what is valid cannot be laid
out if these do not fit into what the data leave of a word. Then an attempt to attach is refused
for its size, exactly where there is no object, or one that is too short for a control block. -/
theorem uncountable_size_refused (hmay : config.mayCreate = true) :
    (config.validate = .ok () ↔ 0 < config.slotSize.toNat ∧
      config.slotCount.toNat * config.slotSize.toNat < UInt64.size) ∧
    (config.geometry.size? = none ↔ UInt64.size ≤ 128 + 64 * config.slotCount.toNat +
      config.slotCount.toNat * config.slotSize.toNat) ∧
    (0 < config.slotSize.toNat → config.geometry.size? ≠ none → config.validate = .ok ()) ∧
    ∀ time host, (attach config time host).1 = .error (.violation (.misuse .uncountableSize)) ↔
      config.validate = .ok () ∧ config.geometry.size? = none ∧
        (host.entry? config.key = none ∨
          ∃ segment, host.segment? config.key = some segment ∧
            segment.size < controlSize.toNat) := by
  have hfilled : 0 < config.slotSize.toNat ↔ config.slotSize ≠ 0 := by
    rw [Nat.pos_iff_ne_zero, Ne, Ne, ← UInt64.toNat_inj]
    rfl
  have hslots := Config.mayCreate_eq_true_iff.mp hmay
  refine ⟨?_, Geometry.size?_eq_none_iff, fun hbytes hsize => ?_, fun time host => ?_⟩
  · rw [Config.validate_eq_ok_iff, hfilled]
    simp [hslots]
  · obtain ⟨total, htotal⟩ := Option.ne_none_iff_exists'.mp hsize
    exact Config.validate_of_size? (hfilled.mp hbytes) htotal
  · cases hvalid : config.validate with
    | error cause => simp [attach_of_invalid time host hvalid]
    | ok _ =>
      cases hsegment : host.segment? config.key with
      | some segment =>
        obtain ⟨number, hname, hobject⟩ := Host.segment?_eq_some_iff.mp hsegment
        rw [attach_of_object time hvalid hname hobject, map_eq_error_iff,
          Host.join_uncountable_iff]
        simp [hname, hmay, and_comm]
      | none =>
        by_cases hname : host.entry? config.key = none
        · obtain ⟨now, hattach⟩ := attach_of_no_name time hvalid hmay hname
          rw [hattach, map_eq_error_iff, Host.create_uncountable_iff]
          simp [hname]
        · simp [attach_of_host time hvalid hname hsegment, hname]

/-- So many slots of one byte that their metadata alone are more than a word counts. -/
theorem uncountable_size_refused_metadata :
    let config : Segment.Config := ⟨7, 0x400000000000000, 1, 0, true, 0⟩
    config.mayCreate = true ∧ config.validate = .ok () ∧ config.geometry.size? = none ∧
      (attach config .manual (Host.new ⟨0⟩ ⟨0⟩)).1 =
        .error (.violation (.misuse .uncountableSize)) := by
  intro config
  have hmay : config.mayCreate = true := by decide
  obtain ⟨hvalid, hsize, -, hrefused⟩ := uncountable_size_refused hmay
  have hok := hvalid.mpr ⟨by decide, by decide⟩
  have hnone := hsize.mpr (by decide)
  exact ⟨hmay, hok, hnone, (hrefused .manual _).mpr ⟨hok, hnone, .inl (by decide)⟩⟩

/-- A valid configuration is not always one of a segment that can be laid out: of one slot of all
the bytes that a word counts, nothing is left for the control block. -/
theorem valid_beyond_words :
    let config : Segment.Config := ⟨7, 1, 0xffffffffffffffff, 0, true, 0⟩
    config.mayCreate = true ∧ config.validate = .ok () ∧ config.geometry.size? = none ∧
      (attach config .manual (Host.new ⟨0⟩ ⟨0⟩)).1 =
        .error (.violation (.misuse .uncountableSize)) := by
  intro config
  have hmay : config.mayCreate = true := by decide
  have hvalid : config.validate = .ok () :=
    Config.validate_eq_ok_iff.mpr ⟨fun _ => by decide, by decide⟩
  have hnone : config.geometry.size? = none := by decide
  have hname : Host.entry? (Host.new ⟨0⟩ ⟨0⟩) config.key = none := by decide
  obtain ⟨now, hattach⟩ := attach_of_no_name .manual hvalid hmay hname
  refine ⟨hmay, hvalid, hnone, ?_⟩
  rw [hattach, map_eq_error_iff, Host.create_uncountable_iff]
  exact hnone

end Manager

end SlotTransport
