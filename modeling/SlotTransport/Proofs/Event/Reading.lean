/-
What an event record says. `Visit.found` is what a visit finds in a record that lies
in memory as a whole. It goes by the pieces that the record splits into (`Splits`),
whatever the visit keeps of them, so that different visits to one record agree
(`found_of_any`, `found_any_of_kinds`). `found_any_iff` names the records in which all
fragments are found; a record that was packed is one of them, with the fragments that
were put in (`found_pack`).
-/
import SlotTransport.Event.Record
import SlotTransport.Proofs.Fragment.Record

namespace SlotTransport

namespace Event

theorem size_le_packedSize (fs : List Fragment) : Header.size ≤ packedSize fs := by
  induction fs with
  | nil => exact le_refl _
  | cons f others ih => exact Nat.le_add_right_of_le ih

theorem Header.decode_encode_append (header : Header) (rest : Bytes) :
    decode (header.encode ++ rest) = .ok header := by
  have hlong : ¬ (header.encode ++ rest).length < size := by
    rw [List.length_append, length_encode]
    omega
  have h4 : Bytes.wordLimit 4 = 2 ^ 32 := rfl
  have h8 : Bytes.wordLimit 8 = 2 ^ 64 := rfl
  have hcomplete : (header.complete.toNat % 2 ^ 32 != 0) = header.complete := by
    cases header.complete <;> rfl
  rw [decode, if_neg hlong]
  simp only [encode, List.append_assoc]
  simp (disch := simp) only [Bytes.wordAt_behind, Bytes.length_wordBytes, Nat.reduceSub,
    Bytes.wordAt_front, h4, h8, hcomplete]
  simp

theorem Header.exists_decode_iff {bytes : Bytes} :
    (∃ header, decode bytes = .ok header) ↔ size ≤ bytes.length := by
  unfold decode
  split
  · rename_i hshort
    simp only [reduceCtorEq, exists_false, false_iff]
    omega
  · rename_i hlong
    simp only [Except.ok.injEq, exists_eq', true_iff]
    omega

theorem Header.decode_take {bytes : Bytes} (h : size ≤ bytes.length) :
    decode (bytes.take size) = decode bytes := by
  have hslice : ∀ {offset width : Nat}, offset + width ≤ size →
      Bytes.wordAt (bytes.take size) offset width = bytes.wordAt offset width := by
    intro offset width hwithin
    rw [← Bytes.wordAt_append (bytes.drop size), List.take_append_drop]
    rw [List.length_take]
    omega
  have hshort : ¬ bytes.length < size := Nat.not_lt.mpr h
  have hshort' : ¬ (bytes.take size).length < size := by
    rw [List.length_take]
    omega
  rw [decode, decode, if_neg hshort, if_neg hshort']
  simp (disch := decide) only [hslice]

/-! ## Pieces -/

/-- Bytes split into the headers and the bodies of packed fragments. -/
inductive Splits : Bytes → List (Fragment.Header × Bytes) → Prop where
  | nil : Splits [] []
  | cons {bytes : Bytes} {header : Fragment.Header} {pieces : List (Fragment.Header × Bytes)}
    (hdecode : Fragment.Header.decode bytes = .ok header)
    (hwhole : header.recordSize ≤ bytes.length)
    (hrest : Splits (bytes.drop header.recordSize) pieces) :
    Splits bytes ((header, bytes.slice Fragment.Header.size header.bodySize) :: pieces)

namespace Splits

variable {bytes r rest : Bytes} {pieces : List (Fragment.Header × Bytes)} {f : Fragment}

theorem length_body (h : Splits bytes pieces) :
    ∀ piece ∈ pieces, Fragment.Header.size + piece.2.length = piece.1.recordSize := by
  induction h with
  | nil => nofun
  | @cons bytes header pieces hdecode hwhole _ ih =>
    intro piece hpiece
    rcases List.mem_cons.mp hpiece with rfl | hpiece
    · have hsize := Fragment.Header.size_le_recordSize_of_decode hdecode
      simp only [Bytes.slice, List.length_take, List.length_drop, Fragment.Header.bodySize]
      omega
    · exact ih piece hpiece

theorem cons_record (hdecode : Fragment.decode r = .ok f) (hsize : f.size = r.length)
    (h : Splits rest pieces) : Splits (r ++ rest) (f.piece :: pieces) := by
  obtain ⟨hheader, -, hbody⟩ := Fragment.decode_eq_ok_iff.mp hdecode
  obtain ⟨hlong, -, -⟩ := Fragment.Header.decode_eq_ok_iff.mp hheader
  have hrecord : f.header.recordSize = r.length := hsize
  have hwithin : Fragment.Header.size + f.header.bodySize ≤ r.length := by
    rw [← hrecord, Fragment.Header.recordSize_eq f.header_size_le]
  have hpiece : f.piece = (f.header, (r ++ rest).slice Fragment.Header.size f.header.bodySize) := by
    rw [Bytes.slice_append rest hwithin, hbody, Fragment.piece]
  rw [hpiece]
  refine .cons ((Fragment.Header.decode_append rest hlong).trans hheader) ?_ ?_
  · rw [hrecord, List.length_append]
    exact Nat.le_add_right _ _
  · rwa [hrecord, List.drop_left]

end Splits

theorem exists_record_of_decode {bytes : Bytes} {f : Fragment}
    (hdecode : Fragment.Header.decode bytes = .ok f.header)
    (hwhole : f.header.recordSize ≤ bytes.length)
    (hbody : f.body = bytes.slice Fragment.Header.size f.header.bodySize) :
    Fragment.decode (bytes.take f.header.recordSize) = .ok f ∧
      Fragment.IsRecord (bytes.take f.header.recordSize) := by
  have hsize := Fragment.Header.size_le_recordSize_of_decode hdecode
  have hlength : (bytes.take f.header.recordSize).length = f.header.recordSize := by
    rw [List.length_take, Nat.min_eq_left hwhole]
  have hfirst : Fragment.decode (bytes.take f.header.recordSize) = .ok f := by
    refine Fragment.decode_eq_ok_iff.mpr ⟨?_, hlength.ge, ?_⟩
    · rw [Fragment.Header.decode_take hsize (hsize.trans hwhole), hdecode]
    · rw [hbody, ← Bytes.slice_append (bytes.drop f.header.recordSize), List.take_append_drop]
      rw [hlength, Fragment.Header.recordSize_eq hsize]
  exact ⟨hfirst, Fragment.isRecord_iff.mpr ⟨f, hfirst, hlength.symm⟩⟩

theorem exists_records_of_splits {bytes : Bytes} {fs : List Fragment}
    (h : Splits bytes (fs.map Fragment.piece)) :
    ∃ records : List Bytes, bytes = records.flatten ∧ (∀ r ∈ records, Fragment.IsRecord r) ∧
      records.map Fragment.decode = fs.map .ok := by
  induction fs generalizing bytes with
  | nil =>
    cases h
    exact ⟨[], rfl, nofun, rfl⟩
  | cons f fs ih =>
    rw [List.map_cons, Fragment.piece] at h
    -- The piece of a fragment is no variable, so its parts are named before the case split.
    generalize hbody : f.body = body at h
    generalize hheader : f.header = header at h
    cases h with
    | cons hdecode hwhole hrest =>
      subst hheader
      obtain ⟨records, hflatten, hrecords, hmap⟩ := ih hrest
      obtain ⟨hfirst, hrecord⟩ := exists_record_of_decode hdecode hwhole hbody
      refine ⟨bytes.take f.header.recordSize :: records, ?_, ?_, ?_⟩
      · rw [List.flatten_cons, ← hflatten, List.take_append_drop]
      · exact List.forall_mem_cons.mpr ⟨hrecord, hrecords⟩
      · rw [List.map_cons, List.map_cons, hfirst, hmap]

theorem splits_of_records {records : List Bytes} {fs : List Fragment}
    (hrecords : ∀ r ∈ records, Fragment.IsRecord r)
    (hmap : records.map Fragment.decode = fs.map .ok) :
    Splits records.flatten (fs.map Fragment.piece) := by
  induction records generalizing fs with
  | nil =>
    obtain rfl : fs = [] := by simpa using hmap.symm
    exact .nil
  | cons r records ih =>
    obtain ⟨hrecord, hothers⟩ := List.forall_mem_cons.mp hrecords
    cases fs with
    | nil => cases hmap
    | cons f fs =>
      rw [List.map_cons, List.map_cons, List.cons.injEq] at hmap
      obtain ⟨f', hf', hsize⟩ := Fragment.isRecord_iff.mp hrecord
      obtain rfl : f' = f := by simpa [hf'] using hmap.1
      exact .cons_record hf' hsize (ih hothers hmap.2)

/-- Bytes split into fragments where they are records of fragments. -/
theorem splits_iff {bytes : Bytes} {fs : List Fragment} : Splits bytes (fs.map Fragment.piece) ↔
    ∃ records : List Bytes, bytes = records.flatten ∧ (∀ r ∈ records, Fragment.IsRecord r) ∧
      records.map Fragment.decode = fs.map .ok := by
  refine ⟨exists_records_of_splits, ?_⟩
  rintro ⟨records, rfl, hrecords, hmap⟩
  exact splits_of_records hrecords hmap

namespace Visit

variable {α : Type} (visit : Visit α)

/-- What a visit keeps of a fragment whose body lies there. -/
def see (header : Fragment.Header) (body : Bytes) : Except FramingError α :=
  visit.keep header (if visit.wants header then some body else none)

/-- What a visit keeps of pieces. -/
def keepAll : List (Fragment.Header × Bytes) → Except FramingError (List α)
  | [] => .ok []
  | (header, body) :: pieces => do
    let kept ← visit.see header body
    let others ← keepAll pieces
    .ok (kept :: others)

/-- What a visit finds in packed fragments. -/
def gather (bytes : Bytes) : Except FramingError (List α) :=
  if bytes = [] then .ok []
  else
    match _hdecode : Fragment.Header.decode bytes with
    | .error fault => .error fault
    | .ok header =>
      if bytes.length < header.recordSize then
        .error (.bodyLengthMismatch header.bodySize (bytes.length - Fragment.Header.size))
      else do
        let kept ← visit.see header (bytes.slice Fragment.Header.size header.bodySize)
        let others ← gather (bytes.drop header.recordSize)
        .ok (kept :: others)
termination_by bytes.length
decreasing_by
  have hsize := Fragment.Header.size_le_recordSize_of_decode _hdecode
  simp only [Fragment.Header.size] at hsize
  simp only [List.length_drop]
  omega

/-- What a visit finds in the record of an event. -/
def found (record : Bytes) : Except FramingError (List α) := do
  let _ ← Header.decode record
  visit.gather (record.drop Header.size)

variable {visit} {bytes : Bytes} {pieces : List (Fragment.Header × Bytes)} {kept : List α}

theorem gather_nil : visit.gather [] = .ok [] := by
  rw [gather, if_pos rfl]

theorem ne_nil_of_decode {header : Fragment.Header}
    (h : Fragment.Header.decode bytes = .ok header) : bytes ≠ [] := by
  rintro rfl
  cases h

theorem gather_of_fault (hsome : bytes ≠ []) {fault : FramingError}
    (h : Fragment.Header.decode bytes = .error fault) : visit.gather bytes = .error fault := by
  rw [gather, if_neg hsome]
  split
  · rename_i fault' hfault
    rw [h] at hfault
    cases hfault
    rfl
  · rename_i header hheader
    rw [h] at hheader
    cases hheader

theorem gather_of_decode {header : Fragment.Header}
    (h : Fragment.Header.decode bytes = .ok header) :
    visit.gather bytes =
      if bytes.length < header.recordSize then
        .error (.bodyLengthMismatch header.bodySize (bytes.length - Fragment.Header.size))
      else
        visit.see header (bytes.slice Fragment.Header.size header.bodySize) >>= fun kept =>
          visit.gather (bytes.drop header.recordSize) >>= fun others => .ok (kept :: others) := by
  rw [gather, if_neg (ne_nil_of_decode h)]
  split
  · rename_i fault hfault
    rw [h] at hfault
    cases hfault
  · rename_i header' hheader
    rw [h] at hheader
    cases hheader
    rfl

/-- Where bytes split, a visit finds what it keeps of the pieces. -/
theorem gather_of_splits (h : Splits bytes pieces) : visit.gather bytes = visit.keepAll pieces := by
  induction h with
  | nil => rw [gather_nil, keepAll]
  | cons hdecode hwhole _ ih =>
    rw [gather_of_decode hdecode, if_neg (Nat.not_lt.mpr hwhole), ih, keepAll]

/-- Where a visit comes to the end, the bytes split. -/
theorem splits_of_gather (h : visit.gather bytes = .ok kept) : ∃ pieces, Splits bytes pieces := by
  induction hlength : bytes.length using Nat.strongRecOn generalizing bytes kept with
  | ind len ih =>
    by_cases hsome : bytes = []
    · exact ⟨[], hsome ▸ .nil⟩
    · rw [gather, if_neg hsome] at h
      split at h
      · cases h
      · rename_i header hdecode
        split at h
        · cases h
        · rename_i hwhole
          obtain ⟨first, -, h⟩ := bind_eq_ok_iff.mp h
          obtain ⟨others, hothers, -⟩ := bind_eq_ok_iff.mp h
          have hsize := Fragment.Header.size_le_recordSize_of_decode hdecode
          have hpos : 0 < bytes.length := List.length_pos_iff.mpr hsome
          have hless : (bytes.drop header.recordSize).length < len := by
            rw [List.length_drop, ← hlength]
            rw [Fragment.Header.size] at hsize
            omega
          obtain ⟨pieces, hpieces⟩ := ih _ hless hothers rfl
          exact ⟨_, .cons hdecode (Nat.not_lt.mp hwhole) hpieces⟩

/-- What a visit finds in a record is what it keeps of the pieces after the header. -/
theorem found_iff {record : Bytes} : visit.found record = .ok kept ↔
    Header.size ≤ record.length ∧
      ∃ pieces, Splits (record.drop Header.size) pieces ∧ visit.keepAll pieces = .ok kept := by
  rw [found, bind_eq_ok_iff]
  constructor
  · rintro ⟨header, hheader, hfound⟩
    obtain ⟨pieces, hpieces⟩ := splits_of_gather hfound
    rw [gather_of_splits hpieces] at hfound
    exact ⟨Header.exists_decode_iff.mp ⟨header, hheader⟩, pieces, hpieces, hfound⟩
  · rintro ⟨hlong, pieces, hpieces, hkept⟩
    obtain ⟨header, hheader⟩ := Header.exists_decode_iff.mpr hlong
    exact ⟨header, hheader, (gather_of_splits hpieces).trans hkept⟩

theorem found_of_splits {record : Bytes} (hlong : Header.size ≤ record.length)
    (h : Splits (record.drop Header.size) pieces) : visit.found record = visit.keepAll pieces := by
  obtain ⟨header, hheader⟩ := Header.exists_decode_iff.mpr hlong
  rw [found, hheader]
  exact gather_of_splits h

/-! ## What is kept -/

theorem keepAll_kinds (pieces : List (Fragment.Header × Bytes)) :
    kinds.keepAll pieces = .ok (pieces.map (·.1.kind)) := by
  induction pieces with
  | nil => rfl
  | cons piece pieces ih =>
    rw [keepAll, ih]
    rfl

theorem see_fragments_any (header : Fragment.Header) (body : Bytes) :
    (fragments .any).see header body = (Fragment.ofParts header body).map some :=
  rfl

theorem keepAll_fragments (filter : Fragment.Filter) (fs : List Fragment) :
    (fragments filter).keepAll (fs.map Fragment.piece) =
      .ok (fs.map fun f => if filter.selects f.kind then some f else none) := by
  induction fs with
  | nil => rfl
  | cons f fs ih =>
    have hsee : (fragments filter).see f.header f.body =
        .ok (if filter.selects f.kind then some f else none) := by
      by_cases hselects : filter.selects f.header.kind = true
      · simp [see, fragments, Fragment.kind, hselects, f.ofParts_self, Except.map]
      · simp [see, fragments, Fragment.kind, hselects]
    rw [List.map_cons, Fragment.piece, keepAll, ih, hsee]
    rfl

theorem pieces_of_keepAll_any {kept : List (Option Fragment)}
    (h : (fragments .any).keepAll pieces = .ok kept) :
    ∃ fs : List Fragment, pieces = fs.map Fragment.piece ∧ kept = fs.map some := by
  induction pieces generalizing kept with
  | nil =>
    cases h
    exact ⟨[], rfl, rfl⟩
  | cons piece pieces ih =>
    obtain ⟨header, body⟩ := piece
    rw [keepAll] at h
    obtain ⟨first, hfirst, h⟩ := bind_eq_ok_iff.mp h
    obtain ⟨others, hothers, h⟩ := bind_eq_ok_iff.mp h
    cases h
    obtain ⟨fs, rfl, rfl⟩ := ih hothers
    rw [see_fragments_any] at hfirst
    obtain ⟨f, hf, rfl⟩ := map_eq_ok_iff.mp hfirst
    exact ⟨f :: fs, by rw [List.map_cons, Fragment.piece_of_ofParts hf], rfl⟩

/-- What stands in the way of keeping all pieces is a header that declares more
metadata than its body holds. -/
theorem keepAll_any_error {fault : FramingError}
    (hlength : ∀ piece ∈ pieces, Fragment.Header.size + piece.2.length = piece.1.recordSize)
    (h : (fragments .any).keepAll pieces = .error fault) :
    ∃ metadataWords bodyWords, fault = .metadataOverflow metadataWords bodyWords := by
  induction pieces with
  | nil => cases h
  | cons piece pieces ih =>
    obtain ⟨header, body⟩ := piece
    rw [keepAll, see_fragments_any, Fragment.ofParts, dif_pos (hlength _ List.mem_cons_self)] at h
    split at h
    · cases hothers : (fragments .any).keepAll pieces with
      | ok others =>
        rw [hothers] at h
        cases h
      | error fault' =>
        rw [hothers] at h
        cases h
        exact ih (fun piece hpiece => hlength piece (List.mem_cons_of_mem _ hpiece)) hothers
    · cases h
      exact ⟨_, _, rfl⟩

/-! ## Visits to one record -/

variable {record : Bytes} {fs : List Fragment}

/-- Where all fragments are found, so are their kinds, and those that a filter
selects. -/
theorem found_of_any (h : (fragments .any).found record = .ok (fs.map some)) :
    kinds.found record = .ok (fs.map Fragment.kind) ∧
      ∀ filter, (fragments filter).found record =
        .ok (fs.map fun f => if filter.selects f.kind then some f else none) := by
  obtain ⟨hlong, pieces, hpieces, hkept⟩ := found_iff.mp h
  obtain ⟨fs', rfl, hsame⟩ := pieces_of_keepAll_any hkept
  obtain rfl : fs' = fs :=
    (List.map_injective_iff.mpr (Option.some_injective Fragment) hsame).symm
  refine ⟨?_, fun filter => ?_⟩
  · rw [found_of_splits hlong hpieces, keepAll_kinds, List.map_map]
    rfl
  · rw [found_of_splits hlong hpieces, keepAll_fragments]

theorem found_any_of_kinds {found : List Fragment.Kind} {fault : FramingError}
    (hkinds : kinds.found record = .ok found) (h : (fragments .any).found record = .error fault) :
    ∃ metadataWords bodyWords, fault = .metadataOverflow metadataWords bodyWords := by
  obtain ⟨hlong, pieces, hpieces, -⟩ := found_iff.mp hkinds
  rw [found_of_splits hlong hpieces] at h
  exact keepAll_any_error hpieces.length_body h

/-- **The records in which all fragments are found** are those that are long enough
for a header and have complete fragment records after it. -/
theorem found_any_iff {kept : List (Option Fragment)} : (fragments .any).found record = .ok kept ↔
    Header.size ≤ record.length ∧ ∃ (records : List Bytes) (fs : List Fragment),
      record.drop Header.size = records.flatten ∧ (∀ r ∈ records, Fragment.IsRecord r) ∧
      records.map Fragment.decode = fs.map .ok ∧ kept = fs.map some := by
  rw [found_iff]
  constructor
  · rintro ⟨hlong, pieces, hpieces, hkept⟩
    obtain ⟨fs, rfl, rfl⟩ := pieces_of_keepAll_any hkept
    obtain ⟨records, hflatten, hrecords, hdecode⟩ := splits_iff.mp hpieces
    exact ⟨hlong, records, fs, hflatten, hrecords, hdecode, rfl⟩
  · rintro ⟨hlong, records, fs, hflatten, hrecords, hdecode, rfl⟩
    exact ⟨hlong, _, splits_iff.mpr ⟨records, hflatten, hrecords, hdecode⟩,
      keepAll_fragments .any fs⟩

/-- In a record that was packed are the fragments that were put in. -/
theorem found_pack (header : Header) (fs : List Fragment) :
    (fragments .any).found (pack header fs) = .ok (fs.map some) := by
  refine found_any_iff.mpr ⟨?_, fs.map Fragment.encode, fs, ?_, ?_, ?_, rfl⟩
  · rw [length_pack]
    exact size_le_packedSize fs
  · rw [pack, parts, List.flatten_cons, List.drop_left' header.length_encode]
  · simp only [List.mem_map, forall_exists_index, and_imp, forall_apply_eq_imp_iff₂]
    exact fun f _ => Fragment.isRecord_encode f
  · rw [List.map_map]
    exact List.map_congr_left fun f _ => f.decode_encode

end Visit

end Event

end SlotTransport
