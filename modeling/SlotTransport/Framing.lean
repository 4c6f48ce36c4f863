/-
What can be wrong with the framing of a record, and how it is reported.
-/

namespace SlotTransport

/-- Why bytes are not a record, or a record cannot be built. -/
inductive FramingError where
  /-- There are fewer bytes than a header has. -/
  | truncatedHeader (expected actual : Nat)
  /-- A header declares fewer words than it has itself. -/
  | wordCountTooSmall (wordCount headerWords : Nat)
  /-- The bytes after a header are not as many as it declares. -/
  | bodyLengthMismatch (expected actual : Nat)
  /-- A header declares more metadata words than its body has words. -/
  | metadataOverflow (metadataWords bodyWords : Nat)
  /-- A word count does not fit into its header field. -/
  | tooLarge (words : Nat)
  deriving DecidableEq, Repr

namespace FramingError

def name : FramingError → String
  | truncatedHeader .. => "TruncatedHeader"
  | wordCountTooSmall .. => "WordCountTooSmall"
  | bodyLengthMismatch .. => "BodyLengthMismatch"
  | metadataOverflow .. => "MetadataOverflow"
  | tooLarge .. => "TooLarge"

def message : FramingError → String
  | truncatedHeader expected actual =>
    s!"truncated fragment header: {actual} of {expected} bytes"
  | wordCountTooSmall wordCount headerWords =>
    s!"fragment word count {wordCount} smaller than header ({headerWords} words)"
  | bodyLengthMismatch expected actual =>
    s!"fragment body is {actual} bytes, header declares {expected}"
  | metadataOverflow metadataWords bodyWords =>
    s!"fragment metadata of {metadataWords} words exceeds body of {bodyWords} words"
  | tooLarge words => s!"fragment too large: {words} words"

end FramingError

end SlotTransport
