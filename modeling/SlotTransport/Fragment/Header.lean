/-
The header of a fragment record: 32 bytes, all words least significant byte
first.

    bytes  field
    0-3    words of the whole record, header included
    4-5    version
    6      kind
    7      metadata words
    8-15   sequence id
    16-17  fragment id
    18-23  reserved, zero
    24-31  timestamp
-/
import SlotTransport.Bytes
import SlotTransport.Framing
import SlotTransport.Fragment.Kind

namespace SlotTransport.Fragment

def wordSize : Nat := 8

/-- What a fragment record says of itself. -/
structure Header where
  /-- Words of the whole record, header included. -/
  wordCount : UInt32
  version : UInt16
  kind : Kind
  /-- Metadata words between header and payload. -/
  metadataWords : UInt8
  /-- Number of the event that the fragment belongs to. -/
  sequenceId : UInt64
  /-- Number of the source of the fragment. -/
  fragmentId : UInt16
  timestamp : UInt64
  deriving DecidableEq, Repr

namespace Header

def size : Nat := 32

def words : Nat := size / wordSize

/-- The version that new records carry. -/
def currentVersion : UInt16 := 1

/-- Bytes of the whole record. -/
def recordSize (header : Header) : Nat :=
  header.wordCount.toNat * wordSize

/-- Bytes after the header: metadata, then payload. -/
def bodySize (header : Header) : Nat :=
  header.recordSize - size

def encode (header : Header) : Bytes :=
  Bytes.wordBytes 4 header.wordCount.toNat ++ Bytes.wordBytes 2 header.version.toNat ++
  [header.kind.raw, header.metadataWords] ++
  Bytes.wordBytes 8 header.sequenceId.toNat ++ Bytes.wordBytes 2 header.fragmentId.toNat ++
  Bytes.zeros 6 ++ Bytes.wordBytes 8 header.timestamp.toNat

/-- The header that 32 bytes spell, whatever they say. -/
def ofBytes (bytes : Bytes) : Header where
  wordCount := .ofNat (bytes.wordAt 0 4)
  version := .ofNat (bytes.wordAt 4 2)
  kind := .ofRaw (.ofNat (bytes.wordAt 6 1))
  metadataWords := .ofNat (bytes.wordAt 7 1)
  sequenceId := .ofNat (bytes.wordAt 8 8)
  fragmentId := .ofNat (bytes.wordAt 16 2)
  timestamp := .ofNat (bytes.wordAt 24 8)

/-- Reads a header from the front of `bytes`. A header must be there in full
and must count itself among its words. -/
def decode (bytes : Bytes) : Except FramingError Header :=
  if bytes.length < size then .error (.truncatedHeader size bytes.length)
  else
    let header := ofBytes bytes
    if header.wordCount.toNat < words then
      .error (.wordCountTooSmall header.wordCount.toNat words)
    else .ok header

@[simp] theorem length_encode (header : Header) : header.encode.length = size := by
  simp [encode, Bytes.zeros, size]

/-- A header that decodes declares a record with room for itself. -/
theorem size_le_recordSize_of_decode {bytes : Bytes} {header : Header}
    (h : decode bytes = .ok header) : size ≤ header.recordSize := by
  unfold decode at h
  split at h
  · simp at h
  · simp only at h
    split at h
    · simp at h
    · simp only [Except.ok.injEq] at h
      subst h
      simp only [words, size, wordSize, recordSize] at *
      omega

end Header

end SlotTransport.Fragment
