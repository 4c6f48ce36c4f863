/-
Records in byte strings. `exists_decode_iff` names the bytes from which a fragment is
decoded. What is decoded is written again as it was found, but for the reserved bytes of
the header (`encode_of_decode`), and what is written is decoded again, whatever follows it
(`decode_append`). So records that lie one after the other are found one by one: `split`
gives back what was packed (`split_flatten`), and of any bytes it gives the records that
they begin with, up to the first place where there is none (`exists_records_of_split`).
-/
import SlotTransport.Proofs.Fragment.Record

namespace SlotTransport

namespace Bytes

variable {bytes : Bytes} {offset len width : Nat}

theorem slice_append_slice (bytes : Bytes) (offset len more : Nat) :
    bytes.slice offset len ++ bytes.slice (offset + len) more =
      bytes.slice offset (len + more) := by
  rw [slice, slice, slice, List.take_add, List.drop_drop]

theorem slice_take (h : offset + width ≤ len) :
    slice (bytes.take len) offset width = bytes.slice offset width := by
  rw [slice, slice, List.drop_take, List.take_take, Nat.min_eq_left (by omega)]

theorem wordAt_take (h : offset + width ≤ len) :
    wordAt (bytes.take len) offset width = bytes.wordAt offset width := by
  rw [wordAt, wordAt, slice_take h]

theorem wordBytes_wordAt (h : offset + width ≤ bytes.length) :
    wordBytes width (bytes.wordAt offset width) = bytes.slice offset width := by
  have hwritten := wordBytes_wordValue (bytes.slice offset width)
  rwa [length_slice h] at hwritten

end Bytes

namespace Fragment

/-! ## One record -/

/-- The bytes of a record with zeros where its header is reserved. -/
def cleared (record : Bytes) : Bytes :=
  record.take 18 ++ Bytes.zeros 6 ++ record.drop 24

theorem cleared_append {front : Bytes} (h : 24 ≤ front.length) (rest : Bytes) :
    cleared (front ++ rest) = cleared front ++ rest := by
  have htake : (front ++ rest).take 18 = front.take 18 := List.take_append_of_le_length (by omega)
  have hdrop : (front ++ rest).drop 24 = front.drop 24 ++ rest := List.drop_append_of_le_length h
  rw [cleared, htake, hdrop, cleared]
  simp only [List.append_assoc]

variable {bytes front : Bytes} {header : Header} {f : Fragment}

theorem Header.encode_ofBytes (h : size ≤ bytes.length) :
    (ofBytes bytes).encode = cleared (bytes.take size) := by
  rw [size] at h
  have hbyte (offset : Nat) (hwithin : offset + 1 ≤ 32) :
      [UInt8.ofNat (bytes.wordAt offset 1)] = bytes.slice offset 1 := by
    have hword : Bytes.wordBytes 1 (bytes.wordAt offset 1) = bytes.slice offset 1 :=
      Bytes.wordBytes_wordAt (by omega)
    exact hword
  have hpair : [UInt8.ofNat (bytes.wordAt 6 1), UInt8.ofNat (bytes.wordAt 7 1)] =
      bytes.slice 6 2 := by
    rw [← Bytes.slice_append_slice bytes 6 1 1, ← hbyte 6 (by omega), ← hbyte 7 (by omega)]
    rfl
  -- A field holds every word of its width, so that no word is cut.
  have hfield (offset width limit : Nat) (hlimit : Bytes.wordLimit width = limit)
      (hwithin : offset + width ≤ 32) :
      Bytes.wordBytes width (bytes.wordAt offset width % limit) = bytes.slice offset width := by
    have hlt : bytes.wordAt offset width < limit := hlimit ▸ bytes.wordAt_lt (by omega)
    rw [Nat.mod_eq_of_lt hlt, Bytes.wordBytes_wordAt (by omega)]
  have hfirst : (bytes.take 32).take 18 = bytes.slice 0 18 := by
    rw [List.take_take, Bytes.slice, List.drop_zero]
    rfl
  have hlast : (bytes.take 32).drop 24 = bytes.slice 24 8 := by
    rw [List.drop_take, Bytes.slice]
  -- The words before the reserved bytes lie next to each other.
  have hrow : bytes.slice 0 4 ++ bytes.slice 4 2 ++ bytes.slice 6 2 ++ bytes.slice 8 8 ++
      bytes.slice 16 2 = bytes.slice 0 18 := by
    rw [Bytes.slice_append_slice bytes 0 4 2, Bytes.slice_append_slice bytes 0 6 2,
      Bytes.slice_append_slice bytes 0 8 8, Bytes.slice_append_slice bytes 0 16 2]
  simp only [encode, ofBytes, Kind.raw_ofRaw, hpair, UInt16.toNat_ofNat', UInt32.toNat_ofNat',
    UInt64.toNat_ofNat']
  rw [hfield 0 4 (2 ^ 32) rfl (by omega), hfield 4 2 (2 ^ 16) rfl (by omega),
    hfield 8 8 (2 ^ 64) rfl (by omega), hfield 16 2 (2 ^ 16) rfl (by omega),
    hfield 24 8 (2 ^ 64) rfl (by omega), hrow, cleared, size, hfirst, hlast]

theorem decode_take (h : Header.decode bytes = .ok header) :
    decode (bytes.take header.recordSize) = decode bytes := by
  obtain ⟨hlong, -, -⟩ := Header.decode_eq_ok_iff.mp h
  have hsize := Header.size_le_recordSize_of_decode h
  by_cases hwhole : bytes.length ≤ header.recordSize
  · rw [List.take_of_length_le hwhole]
  · have hlength : (bytes.take header.recordSize).length = header.recordSize := by
      rw [List.length_take]
      omega
    have hbody : Bytes.slice (bytes.take header.recordSize) Header.size header.bodySize =
        bytes.slice Header.size header.bodySize :=
      Bytes.slice_take (Header.recordSize_eq hsize).ge
    have hfits : ¬ bytes.length < header.recordSize := by omega
    simp only [decode, Header.decode_take hsize hlong, h, bind, Except.bind, hlength, hbody,
      if_neg (Nat.lt_irrefl _), if_neg hfits]

theorem decode_append (h : decode front = .ok f) (rest : Bytes) :
    decode (front ++ rest) = .ok f := by
  obtain ⟨hheader, hwhole, hbody⟩ := decode_eq_ok_iff.mp h
  obtain ⟨hlong, -, -⟩ := Header.decode_eq_ok_iff.mp hheader
  refine decode_eq_ok_iff.mpr ⟨?_, ?_, ?_⟩
  · rw [Header.decode_append rest hlong, hheader]
  · rw [List.length_append]
    omega
  · rw [Bytes.slice_append rest, hbody]
    rw [f.size_eq_add, ← f.bodySize_eq] at hwhole
    exact hwhole

/-- The record that a fragment was decoded from is the record of the fragment. -/
theorem decode_record (h : decode bytes = .ok f) :
    decode (bytes.take f.size) = .ok f ∧ (bytes.take f.size).length = f.size := by
  obtain ⟨hheader, hwhole, -⟩ := decode_eq_ok_iff.mp h
  exact ⟨(decode_take hheader).trans h, by rw [List.length_take, Nat.min_eq_left hwhole]⟩

/-- What was decoded is written as it was, but for the reserved bytes. -/
theorem encode_of_decode (h : decode bytes = .ok f) : f.encode = cleared (bytes.take f.size) := by
  obtain ⟨hheader, hwhole, hbody⟩ := decode_eq_ok_iff.mp h
  obtain ⟨hlong, -, hf⟩ := Header.decode_eq_ok_iff.mp hheader
  have hhead : f.header.encode = cleared (bytes.take Header.size) := by
    rw [hf, Header.encode_ofBytes hlong]
  have hlength : 24 ≤ (bytes.take Header.size).length := by
    rw [List.length_take]
    simp only [Header.size] at *
    omega
  have hsplit : bytes.take f.size =
      bytes.take Header.size ++ bytes.slice Header.size f.header.bodySize := by
    rw [f.size_eq_add, ← f.bodySize_eq, List.take_add, Bytes.slice]
  rw [encode, hhead, hsplit, cleared_append hlength, hbody]

theorem size_of_decode (h : decode bytes = .ok f) : f.size = bytes.wordAt 0 4 * wordSize := by
  obtain ⟨hheader, -, -⟩ := decode_eq_ok_iff.mp h
  obtain ⟨hlong, -, hf⟩ := Header.decode_eq_ok_iff.mp hheader
  rw [size, hf, Header.recordSize, (Header.toNat_ofBytes hlong).1]

/-- The bytes from which a fragment is decoded are those that begin with a record. -/
theorem exists_decode_iff : (∃ f, decode bytes = .ok f) ↔
    Header.size ≤ bytes.length ∧ Header.words ≤ bytes.wordAt 0 4 ∧
      bytes.wordAt 0 4 * wordSize ≤ bytes.length ∧
      bytes.wordAt 7 1 ≤ bytes.wordAt 0 4 - Header.words := by
  constructor
  · rintro ⟨f, h⟩
    obtain ⟨hheader, hwhole, -⟩ := decode_eq_ok_iff.mp h
    obtain ⟨hlong, -, -⟩ := Header.decode_eq_ok_iff.mp hheader
    obtain ⟨hrecord, hlength⟩ := decode_record h
    obtain ⟨hwords, -, hmeta⟩ := isRecord_iff.mpr ⟨f, hrecord, hlength.symm⟩
    have hsize : 32 ≤ f.size := f.header_size_le
    rw [Bytes.wordAt_take (by omega)] at hwords hmeta
    rw [Bytes.wordAt_take (by omega)] at hmeta
    rw [size_of_decode h] at hwhole
    exact ⟨hlong, hwords, hwhole, hmeta⟩
  · rintro ⟨-, hwords, hwhole, hmeta⟩
    have hlength : (bytes.take (bytes.wordAt 0 4 * wordSize)).length =
        bytes.wordAt 0 4 * wordSize := by
      rw [List.length_take, Nat.min_eq_left hwhole]
    have hheader : 32 ≤ bytes.wordAt 0 4 * wordSize := by
      simp only [Header.words, Header.size, wordSize] at *
      omega
    have hcount : Bytes.wordAt (bytes.take (bytes.wordAt 0 4 * wordSize)) 0 4 =
        bytes.wordAt 0 4 := Bytes.wordAt_take (by omega)
    have hmetadata : Bytes.wordAt (bytes.take (bytes.wordAt 0 4 * wordSize)) 7 1 =
        bytes.wordAt 7 1 := Bytes.wordAt_take (by omega)
    have hrecord : IsRecord (bytes.take (bytes.wordAt 0 4 * wordSize)) :=
      ⟨by rw [hcount]; exact hwords, by rw [hcount, hlength], by rw [hcount, hmetadata]; exact hmeta⟩
    obtain ⟨f, hdecode, -⟩ := isRecord_iff.mp hrecord
    refine ⟨f, ?_⟩
    rw [← List.take_append_drop (bytes.wordAt 0 4 * wordSize) bytes]
    exact decode_append hdecode _

/-- **Records and fragments.** A fragment is decoded from exactly the bytes that have a header,
declare as many words as it has at least, are as long as they declare and declare no more
metadata than there is after the header. It is written as it was found, with zeros in the
reserved bytes, and these bytes give it again. Every fragment is written in as many bytes as it
declares, and they give it again whatever follows them. -/
theorem record_codec (bytes : Bytes) :
    ((∃ f, decode bytes = .ok f) ↔
      Header.size ≤ bytes.length ∧ Header.words ≤ bytes.wordAt 0 4 ∧
        bytes.wordAt 0 4 * wordSize ≤ bytes.length ∧
        bytes.wordAt 7 1 ≤ bytes.wordAt 0 4 - Header.words) ∧
    (∀ f, decode bytes = .ok f →
      f.encode = cleared (bytes.take (bytes.wordAt 0 4 * wordSize)) ∧
      decode (cleared (bytes.take (bytes.wordAt 0 4 * wordSize))) = .ok f) ∧
    ∀ (f : Fragment) (rest : Bytes),
      f.encode.length = f.size ∧ decode (f.encode ++ rest) = .ok f := by
  refine ⟨exists_decode_iff, fun f h => ?_, fun f rest => ?_⟩
  · have hencode := encode_of_decode h
    rw [size_of_decode h] at hencode
    exact ⟨hencode, by rw [← hencode, f.decode_encode]⟩
  · exact ⟨f.length_encode, decode_append f.decode_encode rest⟩

/-- A record with something in its reserved bytes, and a byte after it. -/
theorem record_codec_reserved :
    let bytes : Bytes := [5, 0, 0, 0, 1, 0, 3, 1, 9, 0, 0, 0, 0, 0, 0, 0, 2, 0, 7, 7, 7, 7, 7, 7,
      8, 0, 0, 0, 0, 0, 0, 0, 6, 0, 0, 0, 0, 0, 0, 0, 1]
    ∃ f, decode bytes = .ok f ∧ f.encode = cleared (bytes.take 40) ∧
      f.encode ≠ bytes.take 40 ∧ decode (cleared (bytes.take 40)) = .ok f := by
  intro bytes
  obtain ⟨hexists, hdecoded, -⟩ := record_codec bytes
  obtain ⟨f, h⟩ := hexists.mpr (by decide)
  obtain ⟨hencode, hagain⟩ := hdecoded f h
  have hlen : bytes.wordAt 0 4 * wordSize = 40 := by decide
  rw [hlen] at hencode hagain
  exact ⟨f, h, hencode, by rw [hencode]; decide, hagain⟩

/-! ## Packed records -/

theorem ne_nil_of_decode (h : decode bytes = .ok f) : bytes ≠ [] := by
  rintro rfl
  cases h

theorem split_nil : split [] = ([], none) := by
  rw [split, if_pos rfl]

theorem split_of_fault {fault : FramingError} (hsome : bytes ≠ [])
    (h : decode bytes = .error fault) : split bytes = ([], some fault) := by
  rw [split, if_neg hsome, h]

theorem split_of_decode (h : decode bytes = .ok f) :
    split bytes = (f :: (split (bytes.drop f.size)).1, (split (bytes.drop f.size)).2) := by
  rw [split, if_neg (ne_nil_of_decode h), h]

/-- What was packed is found. -/
theorem split_flatten (fs : List Fragment) : split (fs.map encode).flatten = (fs, none) := by
  induction fs with
  | nil => exact split_nil
  | cons f fs ih =>
    have hfirst := decode_append f.decode_encode (fs.map encode).flatten
    have hrest : (f.encode ++ (fs.map encode).flatten).drop f.size = (fs.map encode).flatten :=
      List.drop_left' f.length_encode
    rw [List.map_cons, List.flatten_cons, split_of_decode hfirst, hrest, ih]

/-- The fragments that are found lie one after the other from the start on, and what is left
after them does not begin with a record. -/
theorem exists_records_of_split (bytes : Bytes) : ∃ (records : List Bytes) (rest : Bytes),
    bytes = records.flatten ++ rest ∧
      List.Forall₂ (fun record f => decode record = .ok f ∧ record.length = f.size ∧
        f.encode = cleared record) records (split bytes).1 ∧
      ((split bytes).2 = none ↔ rest = []) ∧
      ∀ fault, (split bytes).2 = some fault → decode rest = .error fault := by
  induction bytes using split.induct with
  | case1 =>
    rw [split_nil]
    exact ⟨[], [], rfl, .nil, by simp, nofun⟩
  | case2 bytes hsome fault hfault =>
    rw [split_of_fault hsome hfault]
    refine ⟨[], bytes, rfl, .nil, by simp [hsome], fun fault' h => ?_⟩
    cases h
    exact hfault
  | case3 bytes _ f hdecode _ _ _ ih =>
    obtain ⟨records, rest, hbytes, hrecords, hrest⟩ := ih
    obtain ⟨hrecord, hlength⟩ := decode_record hdecode
    rw [split_of_decode hdecode]
    refine ⟨bytes.take f.size :: records, rest, ?_, .cons ⟨hrecord, hlength, ?_⟩ hrecords, hrest⟩
    · rw [List.flatten_cons, List.append_assoc, ← hbytes, List.take_append_drop]
    · exact encode_of_decode hdecode

/-- Every fragment that is found takes the bytes of a header at least. -/
theorem length_split_le (bytes : Bytes) : (split bytes).1.length * Header.size ≤ bytes.length := by
  induction bytes using split.induct with
  | case1 => simp [split_nil]
  | case2 bytes hsome fault hfault => simp [split_of_fault hsome hfault]
  | case3 bytes _ f hdecode _ _ _ ih =>
    obtain ⟨-, hwhole, -⟩ := decode_eq_ok_iff.mp hdecode
    have hsize := f.header_size_le
    rw [List.length_drop] at ih
    rw [split_of_decode hdecode, List.length_cons, Nat.add_mul]
    omega

/-- Goes through packed records from an offset on: reads the header that lies there, takes the
bytes that it declares, or what there is of them, and goes on behind these. -/
def walk (bytes : Bytes) (offset : Nat) : List Fragment × Option FramingError :=
  if offset < bytes.length then
    match _hheader : Header.decode (bytes.drop offset) with
    | .error fault => ([], some fault)
    | .ok header =>
      let stop := min (offset + header.recordSize) bytes.length
      match decode (bytes.slice offset (stop - offset)) with
      | .error fault => ([], some fault)
      | .ok fragment =>
        let (fragments, fault?) := walk bytes stop
        (fragment :: fragments, fault?)
  else ([], none)
termination_by bytes.length - offset
decreasing_by
  have hsize := Header.size_le_recordSize_of_decode _hheader
  simp only [Header.size] at hsize
  omega

variable {offset : Nat} {fault : FramingError}

theorem walk_of_fault (hmore : offset < bytes.length)
    (h : Header.decode (bytes.drop offset) = .error fault) :
    walk bytes offset = ([], some fault) := by
  rw [walk, if_pos hmore]
  split
  · rename_i fault' hfault
    cases h.symm.trans hfault
    rfl
  · rename_i header hheader
    cases h.symm.trans hheader

/-- What lies at an offset is decoded from all that is left as from the bytes that it
declares. -/
theorem walk_of_header (hmore : offset < bytes.length)
    (h : Header.decode (bytes.drop offset) = .ok header) :
    walk bytes offset =
      match decode (bytes.drop offset) with
      | .error fault => ([], some fault)
      | .ok f => (f :: (walk bytes (offset + f.size)).1, (walk bytes (offset + f.size)).2) := by
  have hrange : bytes.slice offset (min (offset + header.recordSize) bytes.length - offset) =
      (bytes.drop offset).take header.recordSize := by
    rw [Bytes.slice, List.take_eq_take_iff, List.length_drop]
    omega
  rw [walk, if_pos hmore]
  split
  · rename_i fault hfault
    cases h.symm.trans hfault
  · rename_i header' hheader
    cases h.symm.trans hheader
    simp only [hrange, decode_take h]
    cases hdecode : decode (bytes.drop offset) with
    | error fault => rfl
    | ok f =>
      obtain ⟨hf, hwhole, -⟩ := decode_eq_ok_iff.mp hdecode
      cases h.symm.trans hf
      have hstop : min (offset + f.header.recordSize) bytes.length = offset + f.size := by
        rw [List.length_drop] at hwhole
        rw [size] at hwhole ⊢
        omega
      simp only [hstop]

/-- To go through records by offsets is to split what is left of them. -/
theorem walk_eq_split (bytes : Bytes) (offset : Nat) :
    walk bytes offset = split (bytes.drop offset) := by
  -- By induction on what is left: each record takes a header's length of it at least.
  induction hleft : bytes.length - offset using Nat.strongRecOn generalizing offset with
  | ind left ih =>
    by_cases hmore : offset < bytes.length
    · have hsome : bytes.drop offset ≠ [] := by
        rw [Ne, List.drop_eq_nil_iff]
        omega
      cases hheader : Header.decode (bytes.drop offset) with
      | error fault =>
        have hdecode : decode (bytes.drop offset) = .error fault := by
          rw [decode, hheader]
          rfl
        rw [walk_of_fault hmore hheader, split_of_fault hsome hdecode]
      | ok header =>
        rw [walk_of_header hmore hheader]
        cases hdecode : decode (bytes.drop offset) with
        | error fault => rw [split_of_fault hsome hdecode]
        | ok f =>
          have hsize : 32 ≤ f.size := f.header_size_le
          rw [split_of_decode hdecode, List.drop_drop]
          rw [← ih (bytes.length - (offset + f.size)) (by omega) (offset + f.size) rfl]
    · rw [walk, if_neg hmore, List.drop_eq_nil_of_le (Nat.not_lt.mp hmore), split_nil]

/-- **Packed records.** To split bytes is to go through them record by record. The records of
fragments one after the other are split into these fragments. Of any bytes those fragments are
found whose records lie one after the other from the start on, each written as it was found, with
zeros in the reserved bytes; the end is reached where nothing is left after them, and else what is
left does not begin with a record, which is what is told. No more fragments are found than headers
fit into the bytes. -/
theorem packed_records_split :
    (∀ fs : List Fragment, split (fs.map encode).flatten = (fs, none)) ∧
    ∀ bytes : Bytes, walk bytes 0 = split bytes ∧
      (split bytes).1.length * Header.size ≤ bytes.length ∧
      ∃ (records : List Bytes) (rest : Bytes), bytes = records.flatten ++ rest ∧
        List.Forall₂ (fun record f => decode record = .ok f ∧ record.length = f.size ∧
          f.encode = cleared record) records (split bytes).1 ∧
        ((split bytes).2 = none ↔ rest = []) ∧
        ∀ fault, (split bytes).2 = some fault → decode rest = .error fault :=
  ⟨split_flatten, fun bytes =>
    ⟨walk_eq_split bytes 0, length_split_le bytes, exists_records_of_split bytes⟩⟩

/-- A record, and after it less than a header. -/
theorem packed_records_split_cut :
    let bytes : Bytes := [4, 0, 0, 0, 1, 0, 3, 0] ++ Bytes.zeros 24 ++ [5, 0, 0]
    (split bytes).2 = some (.truncatedHeader 32 3) ∧
      ∃ (records : List Bytes) (rest : Bytes), bytes = records.flatten ++ rest ∧
        records.length = 1 ∧ rest ≠ [] ∧ decode rest = .error (.truncatedHeader 32 3) := by
  intro bytes
  have hfault : (split bytes).2 = some (.truncatedHeader 32 3) := by decide +kernel
  have hcount : (split bytes).1.length = 1 := by decide +kernel
  obtain ⟨-, -, records, rest, hbytes, hrecords, hend, hrest⟩ := packed_records_split.2 bytes
  refine ⟨hfault, records, rest, hbytes, hrecords.length_eq.trans hcount, fun hnil => ?_,
    hrest _ hfault⟩
  rw [hend.mpr hnil] at hfault
  cases hfault

end Fragment

end SlotTransport
