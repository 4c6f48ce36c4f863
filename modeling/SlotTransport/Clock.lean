/-
A clock that is moved by hand.
-/

namespace SlotTransport

/-- A clock that reads microseconds as a 64-bit word. -/
structure Clock where
  micros : UInt64
  deriving DecidableEq, Repr

namespace Clock

/-- Moves forward; the reading wraps around past its largest value. -/
def advance (clock : Clock) (delta : UInt64) : Clock :=
  ⟨clock.micros + delta⟩

/-- Moves to a reading. -/
def set (_clock : Clock) (micros : UInt64) : Clock :=
  ⟨micros⟩

def seconds (clock : Clock) : Float :=
  clock.micros.toFloat / 1000000.0

end Clock

end SlotTransport
