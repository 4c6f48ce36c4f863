/-
Spans of time: nanoseconds as natural numbers, seconds as floating-point
numbers, and the way from one to the other.
-/

namespace SlotTransport.Duration

def nanosPerSecond : Nat := 1000000000

/-- A natural number as the nearest floating-point number. -/
def toFloat (n : Nat) : Float :=
  (UInt64.ofNat n).toFloat

/-- A span in seconds: its whole seconds plus the rest divided down. -/
def seconds (nanos : Nat) : Float :=
  toFloat (nanos / nanosPerSecond) + toFloat (nanos % nanosPerSecond) / toFloat nanosPerSecond

/-- The quotient rounded to the nearest natural number; halfway goes to the
even one. -/
def divNearestEven (num den : Nat) : Nat :=
  let quotient := num / den
  let twice := 2 * (num % den)
  if twice < den then quotient
  else if den < twice then quotient + 1
  else quotient + quotient % 2

/-- The leading bit of a mantissa, which is not stored. -/
def hiddenBit : Nat := 0x10000000000000

/-- The magnitude of a finite floating-point number as a fraction. -/
def magnitude (x : Float) : Nat × Nat :=
  let bits := x.toBits.toNat
  let fraction := bits % hiddenBit
  let exponent := bits / hiddenBit % 0x800
  let mantissa := if exponent = 0 then fraction else fraction + hiddenBit
  let exponent := max exponent 1
  if 1075 ≤ exponent then (mantissa <<< (exponent - 1075), 1)
  else (mantissa, 1 <<< (1075 - exponent))

/-- The nanoseconds nearest to a span in seconds. -/
def nanos (seconds : Float) : Nat :=
  let (num, den) := magnitude seconds
  divNearestEven (num * nanosPerSecond) den

end SlotTransport.Duration
