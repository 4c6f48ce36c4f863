/-
Complete records of fragments. `IsRecord` names the bytes that are one, and
`isRecord_iff` says that they are those from which a fragment is decoded that is as
long as they are; what follows a record plays no part (`Header.decode_append`). The
kinds of fragments are a set: `Kind.distinct` lists it in ascending order
(`Kind.mem_distinct`, `Kind.ascending_distinct`).
-/
import SlotTransport.Proofs.Fragment.Codec
import SlotTransport.Proofs.Operation.Move

namespace SlotTransport

/-! ## Words at the front -/

namespace Bytes

variable {front : Bytes} (rest : Bytes)

theorem slice_append {offset len : Nat} (h : offset + len ≤ front.length) :
    (front ++ rest).slice offset len = front.slice offset len := by
  rw [slice, slice, List.drop_append_of_le_length (by omega),
    List.take_append_of_le_length (by simp; omega)]

theorem wordAt_append {offset width : Nat} (h : offset + width ≤ front.length) :
    (front ++ rest).wordAt offset width = front.wordAt offset width := by
  rw [wordAt, wordAt, slice_append rest h]

theorem length_slice {bytes : Bytes} {offset len : Nat} (h : offset + len ≤ bytes.length) :
    (bytes.slice offset len).length = len := by
  rw [slice, List.length_take, List.length_drop]
  omega

theorem wordAt_lt (bytes : Bytes) {offset width : Nat} (h : offset + width ≤ bytes.length) :
    bytes.wordAt offset width < wordLimit width := by
  have hlt := wordValue_lt (bytes.slice offset width)
  rwa [length_slice h] at hlt

end Bytes

namespace Fragment.Header

variable {front bytes : Bytes} {header : Header} (rest : Bytes)

theorem ofBytes_append (h : size ≤ front.length) : ofBytes (front ++ rest) = ofBytes front := by
  rw [size] at h
  simp (disch := omega) only [ofBytes, Bytes.wordAt_append]

theorem decode_append (h : size ≤ front.length) : decode (front ++ rest) = decode front := by
  have hfront : ¬ front.length < size := Nat.not_lt.mpr h
  have hboth : ¬ (front ++ rest).length < size := by
    rw [List.length_append]
    omega
  rw [decode, decode, if_neg hfront, if_neg hboth, ofBytes_append rest h]

theorem decode_take {len : Nat} (hlen : size ≤ len) (h : size ≤ bytes.length) :
    decode (bytes.take len) = decode bytes := by
  have hfront : size ≤ (bytes.take len).length := by
    rw [List.length_take]
    omega
  rw [← decode_append (bytes.drop len) hfront, List.take_append_drop]

theorem decode_eq_ok_iff : decode bytes = .ok header ↔
    size ≤ bytes.length ∧ words ≤ (ofBytes bytes).wordCount.toNat ∧ header = ofBytes bytes := by
  unfold decode
  grind

/-- The numbers that the bytes spell fit into their fields. -/
theorem toNat_ofBytes (h : size ≤ bytes.length) :
    (ofBytes bytes).wordCount.toNat = bytes.wordAt 0 4 ∧
      (ofBytes bytes).metadataWords.toNat = bytes.wordAt 7 1 := by
  rw [size] at h
  have hcount : bytes.wordAt 0 4 < 2 ^ 32 := bytes.wordAt_lt (by omega)
  have hmeta : bytes.wordAt 7 1 < 2 ^ 8 := bytes.wordAt_lt (by omega)
  exact ⟨UInt32.toNat_ofNat_of_lt' hcount, UInt8.toNat_ofNat_of_lt' hmeta⟩

theorem recordSize_eq (h : size ≤ header.recordSize) :
    header.recordSize = size + header.bodySize := by
  rw [bodySize]
  omega

end Fragment.Header

/-! ## Records -/

namespace Fragment

variable {header : Header} {body r : Bytes} {f : Fragment}

/-- The header and the body of a fragment. -/
def piece (f : Fragment) : Header × Bytes :=
  (f.header, f.body)

theorem ofParts_eq_ok_iff : ofParts header body = .ok f ↔ header = f.header ∧ body = f.body := by
  constructor
  · intro h
    rw [ofParts] at h
    split at h
    · split at h <;> cases h
      exact ⟨rfl, rfl⟩
    · cases h
  · rintro ⟨rfl, rfl⟩
    exact f.ofParts_self

theorem piece_of_ofParts (h : ofParts header body = .ok f) : f.piece = (header, body) := by
  obtain ⟨rfl, rfl⟩ := ofParts_eq_ok_iff.mp h
  rfl

theorem decode_eq_ok_iff : decode r = .ok f ↔ Header.decode r = .ok f.header ∧
    f.size ≤ r.length ∧ r.slice Header.size f.header.bodySize = f.body := by
  rw [decode, bind_eq_ok_iff]
  constructor
  · rintro ⟨header, hheader, h⟩
    split at h
    · cases h
    · rename_i hwhole
      obtain ⟨rfl, hbody⟩ := ofParts_eq_ok_iff.mp h
      exact ⟨hheader, Nat.not_lt.mp hwhole, hbody⟩
  · rintro ⟨hheader, hwhole, hbody⟩
    rw [size] at hwhole
    exact ⟨_, hheader, by rw [if_neg hwhole.not_gt, hbody, f.ofParts_self]⟩

theorem decode_encode (f : Fragment) : decode f.encode = .ok f := by
  refine decode_eq_ok_iff.mpr ⟨?_, f.length_encode.ge, ?_⟩
  · rw [encode, Header.decode_append _ f.header.length_encode.ge, Header.decode_encode f.words_le]
  · rw [encode, Bytes.slice, List.drop_left' f.header.length_encode, f.bodySize_eq,
      List.take_length]

/-- Bytes that are the whole record of a fragment: they declare as many words as they
are, a header among them, and no more metadata than there are words after that. -/
structure IsRecord (r : Bytes) : Prop where
  header : Header.words ≤ r.wordAt 0 4
  length : r.length = r.wordAt 0 4 * wordSize
  metadata : r.wordAt 7 1 ≤ r.wordAt 0 4 - Header.words

theorem isRecord_iff : IsRecord r ↔ ∃ f, decode r = .ok f ∧ f.size = r.length := by
  constructor
  · rintro ⟨hheader, hlength, hmetadata⟩
    have hlong : Header.size ≤ r.length := by
      simp only [Header.size, Header.words, wordSize] at *
      omega
    obtain ⟨hcount, hmeta⟩ := Header.toNat_ofBytes hlong
    have hdecode : Header.decode r = .ok (Header.ofBytes r) :=
      Header.decode_eq_ok_iff.mpr ⟨hlong, hcount ▸ hheader, rfl⟩
    have hsize : (Header.ofBytes r).recordSize = r.length := by
      rw [Header.recordSize, hcount, hlength]
    have hbody : (r.slice Header.size (Header.ofBytes r).bodySize).length =
        r.length - Header.size := by
      rw [Bytes.slice, List.length_take, List.length_drop, Header.bodySize, hsize, Nat.min_self]
    refine ⟨⟨.ofBytes r, r.slice Header.size (Header.ofBytes r).bodySize, ?_, ?_⟩,
      decode_eq_ok_iff.mpr ⟨hdecode, hsize.le, rfl⟩, hsize⟩
    · rw [hbody, hsize]
      omega
    · rw [hbody, hmeta, hlength]
      simp only [Header.size, Header.words, wordSize] at *
      omega
  · rintro ⟨f, hdecode, hsize⟩
    obtain ⟨hheader, -, hbody⟩ := decode_eq_ok_iff.mp hdecode
    obtain ⟨hlong, hwords, hf⟩ := Header.decode_eq_ok_iff.mp hheader
    obtain ⟨hcount, hmeta⟩ := Header.toNat_ofBytes hlong
    have hmetadata := f.metadata_le
    have hsizeEq := f.size_eq_add
    rw [size, Header.recordSize, hf, hcount] at hsize
    rw [size, Header.recordSize, hf, hcount] at hsizeEq
    rw [hf, hmeta] at hmetadata
    rw [hcount] at hwords
    refine ⟨hwords, hsize.symm, ?_⟩
    simp only [Header.size, Header.words, wordSize] at *
    omega

theorem isRecord_encode (f : Fragment) : IsRecord f.encode :=
  isRecord_iff.mpr ⟨f, f.decode_encode, f.length_encode.symm⟩

end Fragment

/-! ## Sets of kinds -/

namespace Fragment.Kind

variable {a b kind : Kind} {kinds : List Kind}

theorem lt_of_not_lt (hne : a ≠ b) (h : ¬ a < b) : b < a := by
  have hraw : a.raw ≠ b.raw := fun hsame => hne (raw_inj hsame)
  have hle : b.raw ≤ a.raw := UInt8.not_lt.mp h
  exact UInt8.lt_of_le_of_ne hle hraw.symm

theorem lt_trans {c : Kind} (h : a < b) (h' : b < c) : a < c :=
  UInt8.lt_trans h h'

theorem mem_insert : a ∈ insert kind kinds ↔ a = kind ∨ a ∈ kinds := by
  induction kinds with
  | nil => simp [insert]
  | cons other rest ih =>
    rw [insert]
    split
    · simp_all
    · split
      · simp
      · simp only [List.mem_cons, ih]
        tauto

theorem ascending_insert (h : kinds.Pairwise (· < ·)) : (insert kind kinds).Pairwise (· < ·) := by
  induction kinds with
  | nil => simp [insert]
  | cons other rest ih =>
    obtain ⟨hfirst, hrest⟩ := List.pairwise_cons.mp h
    rw [insert]
    split
    · exact h
    · rename_i hne
      split
      · rename_i hlt
        refine List.pairwise_cons.mpr ⟨fun a ha => ?_, h⟩
        rcases List.mem_cons.mp ha with rfl | ha
        · exact hlt
        · exact lt_trans hlt (hfirst a ha)
      · rename_i hnot
        refine List.pairwise_cons.mpr ⟨fun a ha => ?_, ih hrest⟩
        rcases mem_insert.mp ha with rfl | ha
        · exact lt_of_not_lt hne hnot
        · exact hfirst a ha

theorem mem_foldl_insert {set : List Kind} :
    a ∈ kinds.foldl (fun set kind => insert kind set) set ↔ a ∈ set ∨ a ∈ kinds := by
  induction kinds generalizing set with
  | nil => simp
  | cons kind kinds ih =>
    rw [List.foldl_cons, ih, mem_insert, List.mem_cons]
    tauto

theorem ascending_foldl_insert {set : List Kind} (h : set.Pairwise (· < ·)) :
    (kinds.foldl (fun set kind => insert kind set) set).Pairwise (· < ·) := by
  induction kinds generalizing set with
  | nil => exact h
  | cons kind kinds ih => exact ih (ascending_insert h)

theorem mem_distinct : a ∈ distinct kinds ↔ a ∈ kinds := by
  rw [distinct, mem_foldl_insert]
  simp

theorem ascending_distinct (kinds : List Kind) : (distinct kinds).Pairwise (· < ·) :=
  ascending_foldl_insert List.Pairwise.nil

end Fragment.Kind

end SlotTransport
