/-
Fragments: a header with its body, which is metadata words followed by payload
words. `encode` writes a record, `decode` reads one from the front of a byte
string.
-/
import SlotTransport.Fragment.Header

namespace SlotTransport

/-- A fragment whose body is as long as its header declares and holds the
metadata that its header declares. -/
structure Fragment where
  header : Fragment.Header
  body : Bytes
  size_eq : Fragment.Header.size + body.length = header.recordSize
  metadata_le : header.metadataWords.toNat ≤ body.length / Fragment.wordSize
  deriving DecidableEq

namespace Fragment

/-! ## Building -/

def wordsFor (len : Nat) : Nat :=
  (len + wordSize - 1) / wordSize

/-- The body of a fragment: metadata words, then the payload filled up with
zeros to a whole word. -/
def packBody (metadata : List UInt64) (payload : Bytes) : Bytes :=
  metadata.flatMap (fun word => Bytes.wordBytes wordSize word.toNat) ++
    payload.zeroExtended (wordsFor payload.length * wordSize)

theorem length_packBody (metadata : List UInt64) (payload : Bytes) :
    (packBody metadata payload).length =
      (metadata.length + wordsFor payload.length) * wordSize := by
  have hmeta : (metadata.flatMap fun word => Bytes.wordBytes wordSize word.toNat).length =
      metadata.length * wordSize := by
    induction metadata with
    | nil => rfl
    | cons word rest ih =>
      simp only [List.flatMap_cons, List.length_append, Bytes.length_wordBytes, List.length_cons,
        ih, Nat.add_mul]
      omega
  simp only [packBody, List.length_append, hmeta, Bytes.length_zeroExtended, Nat.add_mul]

/-- Words of a record with this metadata and this payload. -/
def recordWords (metadata : List UInt64) (payload : Bytes) : Nat :=
  Header.words + metadata.length + wordsFor payload.length

theorem size_add_length_packBody {metadata : List UInt64} {payload : Bytes}
    (h : recordWords metadata payload < UInt32.size) :
    Header.size + (packBody metadata payload).length =
      (UInt32.ofNat (recordWords metadata payload)).toNat * wordSize := by
  simp only [length_packBody, recordWords, Header.size, Header.words, wordSize,
    UInt32.toNat_ofNat', UInt32.size] at h ⊢
  omega

theorem metadata_le_packBody {metadata : List UInt64} {payload : Bytes}
    (h : metadata.length < UInt8.size) :
    (UInt8.ofNat metadata.length).toNat ≤ (packBody metadata payload).length / wordSize := by
  simp only [length_packBody, wordSize, UInt8.toNat_ofNat', UInt8.size] at h ⊢
  omega

/-- Builds a fragment. The record's word count must fit into 32 bits and the
number of metadata words into 8. -/
def build (sequenceId : UInt64) (fragmentId : UInt16) (kind : Kind) (metadata : List UInt64)
    (payload : Bytes) : Except FramingError Fragment :=
  if htotal : recordWords metadata payload < UInt32.size then
    if hmeta : metadata.length < UInt8.size then
      .ok {
        header := {
          wordCount := .ofNat (recordWords metadata payload)
          version := Header.currentVersion
          kind := kind
          metadataWords := .ofNat metadata.length
          sequenceId := sequenceId
          fragmentId := fragmentId
          timestamp := 0 }
        body := packBody metadata payload
        size_eq := size_add_length_packBody htotal
        metadata_le := metadata_le_packBody hmeta }
    else .error (.tooLarge metadata.length)
  else .error (.tooLarge (recordWords metadata payload))

/-- Puts a header and the bytes that follow it together. -/
def ofParts (header : Header) (body : Bytes) : Except FramingError Fragment :=
  if hsize : Header.size + body.length = header.recordSize then
    if hmeta : header.metadataWords.toNat ≤ body.length / wordSize then
      .ok ⟨header, body, hsize, hmeta⟩
    else .error (.metadataOverflow header.metadataWords.toNat (body.length / wordSize))
  else .error (.bodyLengthMismatch header.bodySize body.length)

/-! ## Accessors -/

def withTimestamp (fragment : Fragment) (timestamp : UInt64) : Fragment :=
  { fragment with header := { fragment.header with timestamp := timestamp } }

def withSequenceId (fragment : Fragment) (sequenceId : UInt64) : Fragment :=
  { fragment with header := { fragment.header with sequenceId := sequenceId } }

def kind (fragment : Fragment) : Kind :=
  fragment.header.kind

/-- Bytes of the whole record. -/
def size (fragment : Fragment) : Nat :=
  fragment.header.recordSize

def metadata (fragment : Fragment) : List UInt64 :=
  (List.range fragment.header.metadataWords.toNat).map fun i =>
    .ofNat (fragment.body.wordAt (i * wordSize) wordSize)

/-- The payload, with the zeros that fill its last word. -/
def payload (fragment : Fragment) : Bytes :=
  fragment.body.drop (fragment.header.metadataWords.toNat * wordSize)

/-! ## Records -/

def encode (fragment : Fragment) : Bytes :=
  fragment.header.encode ++ fragment.body

theorem length_encode (fragment : Fragment) : fragment.encode.length = fragment.size := by
  simp only [encode, List.length_append, Header.length_encode]
  exact fragment.size_eq

/-- Reads one record from the front of `bytes`; what follows it is ignored. -/
def decode (bytes : Bytes) : Except FramingError Fragment := do
  let header ← Header.decode bytes
  if bytes.length < header.recordSize then
    .error (.bodyLengthMismatch header.bodySize (bytes.length - Header.size))
  else
    ofParts header (bytes.slice Header.size header.bodySize)

theorem header_size_le (fragment : Fragment) : Header.size ≤ fragment.size := by
  have := fragment.size_eq
  simp only [size]
  omega

/-! ## Packed records -/

/-- Splits packed records. Gives the fragments up to the first place that does
not hold a complete record, and the fault found there, if there is one. -/
def split (bytes : Bytes) : List Fragment × Option FramingError :=
  if bytes = [] then ([], none)
  else
    match decode bytes with
    | .error fault => ([], some fault)
    | .ok fragment =>
      let (fragments, fault?) := split (bytes.drop fragment.size)
      (fragment :: fragments, fault?)
termination_by bytes.length
decreasing_by
  have hsize := fragment.header_size_le
  have hlen : 0 < bytes.length := List.length_pos_iff.mpr ‹_›
  simp only [Header.size] at hsize
  simp only [List.length_drop]
  omega

end Fragment

end SlotTransport
