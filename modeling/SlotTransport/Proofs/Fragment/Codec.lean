/-
What is written of a fragment is read again. A header comes back from its bytes
(`Header.decode_encode`) and a fragment from its header and its body
(`ofParts_self`).
-/
import SlotTransport.Fragment.Basic

namespace SlotTransport

namespace Bytes

/-! ## Words in a row -/

theorem wordAt_front (width n : Nat) (rest : Bytes) :
    (wordBytes width n ++ rest).wordAt 0 width = n % wordLimit width := by
  have hslice : (wordBytes width n ++ rest).slice 0 width = wordBytes width n := by
    rw [slice, List.drop_zero]
    exact List.take_left' (length_wordBytes width n)
  rw [wordAt, hslice, wordValue_wordBytes]

theorem wordAt_behind {front : Bytes} {offset : Nat} (h : front.length ≤ offset) (rest : Bytes)
    (width : Nat) :
    (front ++ rest).wordAt offset width = rest.wordAt (offset - front.length) width := by
  rw [wordAt, wordAt, slice, slice, List.drop_append, List.drop_eq_nil_of_le h, List.nil_append]

theorem zeroExtended_of_prefix {data bs : Bytes} (h : data <+: bs) :
    bs.zeroExtended data.length = data := by
  obtain ⟨rest, rfl⟩ := h
  simp [zeroExtended, zeros]

end Bytes

namespace Fragment

open Bytes

namespace Header

theorem ofBytes_encode (header : Header) : ofBytes header.encode = header := by
  have hkind : header.kind.raw = .ofNat header.kind.raw.toNat := UInt8.ofNat_toNat.symm
  have hmeta : header.metadataWords = .ofNat header.metadataWords.toNat := UInt8.ofNat_toNat.symm
  -- Every field is a word, the single bytes too.
  have hencode : header.encode = wordBytes 4 header.wordCount.toNat ++
      (wordBytes 2 header.version.toNat ++ (wordBytes 1 header.kind.raw.toNat ++
      (wordBytes 1 header.metadataWords.toNat ++ (wordBytes 8 header.sequenceId.toNat ++
      (wordBytes 2 header.fragmentId.toNat ++ (zeros 6 ++
      (wordBytes 8 header.timestamp.toNat ++ []))))))) := by
    simp only [encode, wordBytes, List.append_nil, List.cons_append, List.nil_append, ← hkind,
      ← hmeta]
  have hzeros : (zeros 6).length = 6 := rfl
  simp (disch := simp [hzeros]) only [ofBytes, hencode, wordAt_behind, length_wordBytes, hzeros,
    Nat.reduceSub, wordAt_front]
  have h4 : wordLimit 4 = 2 ^ 32 := rfl
  have h2 : wordLimit 2 = 2 ^ 16 := rfl
  have h1 : wordLimit 1 = 2 ^ 8 := rfl
  have h8 : wordLimit 8 = 2 ^ 64 := rfl
  simp [h4, h2, h1, h8, Kind.ofRaw_raw]

/-- A header that counts itself is read again. -/
theorem decode_encode {header : Header} (h : words ≤ header.wordCount.toNat) :
    decode header.encode = .ok header := by
  have hlength : ¬ header.encode.length < size := by simp
  have hcount : ¬ header.wordCount.toNat < words := Nat.not_lt.mpr h
  simp only [decode, if_neg hlength, ofBytes_encode, if_neg hcount]

end Header

variable (fragment : Fragment)

theorem words_le : Header.words ≤ fragment.header.wordCount.toNat := by
  have hsize : Header.size ≤ fragment.header.recordSize := fragment.header_size_le
  simp only [Header.size, Header.recordSize, Header.words, wordSize] at *
  omega

theorem bodySize_eq : fragment.header.bodySize = fragment.body.length := by
  have hsize := fragment.size_eq
  rw [Header.bodySize]
  omega

theorem size_lt : fragment.size < UInt64.size := by
  have hwords := fragment.header.wordCount.toNat_lt
  show fragment.header.wordCount.toNat * 8 < 18446744073709551616
  omega

theorem size_eq_add : fragment.size = Header.size + fragment.body.length :=
  fragment.size_eq.symm

theorem ofParts_self : ofParts fragment.header fragment.body = .ok fragment := by
  rw [ofParts, dif_pos fragment.size_eq, dif_pos fragment.metadata_le]

end Fragment

end SlotTransport
