/-
What a fragment is built of is found in it again. The words of metadata lie in the body one
after the other (`words_flatMap`), and behind them the payload, filled up with zeros to a whole
word (`drop_packBody`). `Carries` says so of a fragment, and `build_carries` when there is one.
-/
import Mathlib.Algebra.Order.Floor.Div
import SlotTransport.Proofs.Fragment.Record

namespace SlotTransport

namespace Fragment

/-! ## The body -/

theorem words_flatMap (metadata : List UInt64) (rest : Bytes) :
    ((List.range metadata.length).map fun i => UInt64.ofNat (Bytes.wordAt
      (metadata.flatMap (fun word => Bytes.wordBytes wordSize word.toNat) ++ rest)
      (i * wordSize) wordSize)) = metadata := by
  induction metadata with
  | nil => rfl
  | cons word words ih =>
    rw [List.length_cons, List.range_succ_eq_map, List.map_cons, List.map_map,
      List.flatMap_cons, List.append_assoc]
    refine List.cons_eq_cons.mpr ⟨?_, ?_⟩
    · have hlimit : Bytes.wordLimit 8 = 2 ^ 64 := rfl
      rw [Nat.zero_mul, Bytes.wordAt_front, wordSize, hlimit, Nat.mod_eq_of_lt word.toNat_lt,
        UInt64.ofNat_toNat]
    · conv_rhs => rw [← ih]
      refine List.map_congr_left fun i _ => ?_
      have hfront : (Bytes.wordBytes wordSize word.toNat).length = wordSize :=
        Bytes.length_wordBytes _ _
      have hnext : (i + 1) * wordSize = i * wordSize + wordSize := Nat.succ_mul i wordSize
      have hbehind : (Bytes.wordBytes wordSize word.toNat).length ≤ (i + 1) * wordSize := by
        omega
      rw [Function.comp_apply, Bytes.wordAt_behind hbehind, hfront, hnext, Nat.add_sub_cancel]

theorem length_words (metadata : List UInt64) :
    (metadata.flatMap fun word => Bytes.wordBytes wordSize word.toNat).length =
      metadata.length * wordSize := by
  simp [List.length_flatMap]

theorem wordsFor_eq (len : Nat) : wordsFor len = len ⌈/⌉ wordSize := by
  rw [Nat.ceilDiv_eq_add_pred_div, wordsFor]

/-- Behind the metadata lies the payload, and behind that less than a word of zeros. -/
theorem drop_packBody (metadata : List UInt64) (payload : Bytes) :
    ∃ fill, fill < wordSize ∧
      (packBody metadata payload).drop (metadata.length * wordSize) =
        payload ++ Bytes.zeros fill := by
  have hroom : payload.length ≤ wordsFor payload.length * wordSize ∧
      wordsFor payload.length * wordSize < payload.length + wordSize := by
    simp only [wordsFor, wordSize]
    omega
  refine ⟨wordsFor payload.length * wordSize - payload.length, by omega, ?_⟩
  rw [packBody, List.drop_left' (length_words metadata), Bytes.zeroExtended,
    List.take_of_length_le hroom.1]

/-! ## The fragment -/

/-- A fragment has this metadata and this payload, filled up with zeros to a whole word, and is
as long as a header, the metadata and the payload are. -/
structure Carries (f : Fragment) (metadata : List UInt64) (payload : Bytes) : Prop where
  metadata_eq : f.metadata = metadata
  payload_eq : ∃ fill, fill < wordSize ∧ f.payload = payload ++ Bytes.zeros fill
  whole : wordSize ∣ f.payload.length
  words_eq : f.header.wordCount.toNat * wordSize = f.size
  size_eq : f.size = Header.size + wordSize * metadata.length + f.payload.length

variable {metadata : List UInt64} {payload : Bytes} {f : Fragment}

/-- A fragment carries what its body was packed of, if its header counts the metadata. -/
theorem carries_of_packBody (hmeta : f.header.metadataWords.toNat = metadata.length)
    (hbody : f.body = packBody metadata payload) : f.Carries metadata payload := by
  have hlength : f.payload.length = wordsFor payload.length * wordSize := by
    rw [Fragment.payload, hmeta, hbody, List.length_drop, length_packBody, Nat.add_mul,
      Nat.add_sub_cancel_left]
  refine ⟨?_, ?_, ?_, rfl, ?_⟩
  · rw [Fragment.metadata, hmeta, hbody, packBody]
    exact words_flatMap metadata _
  · rw [Fragment.payload, hmeta, hbody]
    exact drop_packBody metadata payload
  · exact hlength ▸ Nat.dvd_mul_left _ _
  · rw [f.size_eq_add, hbody, length_packBody, hlength, Nat.add_mul, Nat.mul_comm wordSize,
      Nat.add_assoc]

theorem build_eq_ok {sequenceId : UInt64} {fragmentId : UInt16} {kind : Kind}
    (h : build sequenceId fragmentId kind metadata payload = .ok f) :
    f.Carries metadata payload := by
  rw [build] at h
  split at h
  · split at h
    · rename_i hmeta
      cases h
      exact carries_of_packBody (UInt8.toNat_ofNat_of_lt' hmeta) rfl
    · cases h
  · cases h

/-- **A fragment has what it was built of.** There is a fragment of some metadata and payload if
the words of the record can be counted in 32 bits and those of the metadata in 8, and only then.
Its metadata is the given one and its payload the given one, followed by zeros up to the next
whole word; its word count and its size fit both. Its record is decoded to the same fragment. -/
theorem build_carries (sequenceId : UInt64) (fragmentId : UInt16) (kind : Kind)
    (metadata : List UInt64) (payload : Bytes) :
    ((∃ f, build sequenceId fragmentId kind metadata payload = .ok f) ↔
      Header.words + metadata.length + payload.length ⌈/⌉ wordSize < UInt32.size ∧
        metadata.length ≤ 255) ∧
    ∀ f, build sequenceId fragmentId kind metadata payload = .ok f →
      f.Carries metadata payload ∧
        ∃ g, decode f.encode = .ok g ∧ g = f ∧ g.Carries metadata payload := by
  have hcount : metadata.length ≤ 255 ↔ metadata.length < UInt8.size := Nat.lt_succ_iff.symm
  refine ⟨?_, fun f h => ⟨build_eq_ok h, f, f.decode_encode, rfl, build_eq_ok h⟩⟩
  rw [hcount, ← wordsFor_eq, ← recordWords, build]
  by_cases htotal : recordWords metadata payload < UInt32.size
  · by_cases hmeta : metadata.length < UInt8.size
    · simp [htotal, hmeta]
    · simp [htotal, hmeta]
  · simp [htotal]

/-- As much metadata as there may be, and a payload of one word and a byte. -/
theorem build_carries_unaligned :
    ∃ f, build 42 7 .invalid (List.replicate 255 9) [1, 2, 3, 4, 5, 6, 7, 8, 9] = .ok f ∧
      f.metadata = List.replicate 255 9 ∧ f.payload = [1, 2, 3, 4, 5, 6, 7, 8, 9] ++ Bytes.zeros 7 ∧
      f.size = 32 + 8 * 255 + 16 ∧ decode f.encode = .ok f := by
  obtain ⟨hexists, hbuilt⟩ :=
    build_carries 42 7 .invalid (List.replicate 255 9) [1, 2, 3, 4, 5, 6, 7, 8, 9]
  obtain ⟨f, h⟩ := hexists.mpr (by rw [List.length_replicate]; decide)
  obtain ⟨hcarries, g, hdecode, rfl, -⟩ := hbuilt f h
  obtain ⟨fill, hfill, hpayload⟩ := hcarries.payload_eq
  have hwhole := hcarries.whole
  have hsize := hcarries.size_eq
  have hlength : g.payload.length = 9 + fill := by
    rw [hpayload, List.length_append, Bytes.zeros, List.length_replicate]
    rfl
  have hseven : fill = 7 := by
    rw [wordSize] at hwhole hfill
    omega
  subst hseven
  refine ⟨g, h, hcarries.metadata_eq, hpayload, ?_, hdecode⟩
  rw [hsize, hlength, List.length_replicate]
  rfl

end Fragment

end SlotTransport
