/-
Monitored quantities. Samples gather in a working batch; a calculation moves
the batch into the full history and into one bin of a ring that holds the last
calculations. Samples and calculations are ignored while a quantity is disabled.
-/
import SlotTransport.Statistics.Batch

namespace SlotTransport.Statistics

/-- The times between which a quantity has been calculated. -/
structure Period where
  /-- The first call, which only starts the clock. -/
  start : Float
  /-- The latest calculation, or the start. -/
  latest : Float

/-- A value that is sampled again and again. -/
structure Quantity where
  /-- Seconds that have to pass between calculations. -/
  interval : Float
  /-- Whether samples are accepted. -/
  enabled : Bool
  /-- Samples since the latest calculation. -/
  working : Batch
  /-- Samples of all calculations. -/
  history : Summary
  /-- The latest calculations, each in its bin. -/
  bins : List Summary
  /-- The bin of the next calculation. -/
  nextBin : Nat
  period : Option Period
  /-- Sum of the latest calculation per second. -/
  latestRate : Float

namespace Quantity

/-- How many intervals a window of `window` seconds spans, one at least. -/
def binCount (interval window : Float) : Nat :=
  max (window / interval).round.toUInt64.toNat 1

/-- The smallest step at one, the shortest interval there is. -/
def shortestInterval : Float :=
  Float.ofBits 0x3CB0000000000000

/-- A quantity without samples. -/
def cleared (interval : Float) (enabled : Bool) (bins : Nat) : Quantity where
  interval := interval
  enabled := enabled
  working := Batch.empty
  history := Summary.empty
  bins := List.replicate bins Summary.empty
  nextBin := 0
  period := none
  latestRate := 0

/-- A quantity calculated every `interval` nanoseconds whose recent figures
cover `window` nanoseconds. -/
def new (interval window : Nat) : Quantity :=
  let seconds := greatest (Duration.seconds interval) shortestInterval
  cleared seconds true (binCount seconds (Duration.seconds window))

def add (q : Quantity) (value : Float) : Quantity :=
  if q.enabled then { q with working := q.working.add value } else q

def addCount (q : Quantity) (value : Nat) : Quantity :=
  q.add (Duration.toFloat value)

/-- Moves the working batch into the figures, at time `now`. The first call
starts the clock; later ones wait for the interval to pass. Tells whether a
calculation took place. -/
def calculate (q : Quantity) (now : Float) : Bool × Quantity :=
  if q.enabled then
    match q.period with
    | none => (false, { q with period := some ⟨now, now⟩ })
    | some period =>
      let elapsed := now - period.latest
      if elapsed < q.interval then (false, q)
      else
        (true, { q with
          working := Batch.empty
          history := ⟨q.history.batch.merge q.working, now - period.start⟩
          bins := q.bins.set q.nextBin ⟨q.working, elapsed⟩
          nextBin := (q.nextBin + 1) % q.bins.length
          period := some ⟨period.start, now⟩
          latestRate := q.working.sum / elapsed })
  else (false, q)

def reset (q : Quantity) : Quantity :=
  cleared q.interval q.enabled q.bins.length

/-- Accepts samples again; a quantity that was disabled starts anew. -/
def enable (q : Quantity) : Quantity :=
  if q.enabled then q else reset { q with enabled := true }

/-- Ignores samples and calculations from now on. -/
def disable (q : Quantity) : Quantity :=
  { q with enabled := false }

/-- Changes the window of the recent figures to `window` nanoseconds and
forgets every sample. -/
def setWindow (q : Quantity) (window : Nat) : Quantity :=
  cleared q.interval q.enabled (binCount q.interval (Duration.seconds window))

/-- The figures of the bins together. -/
def recent (q : Quantity) : Summary :=
  Summary.total q.bins

/-- The time of the latest calculation, zero before the first call. -/
def latestTime (q : Quantity) : Float :=
  (q.period.map Period.latest).getD 0

/-- The interval in nanoseconds, counted in a 64-bit word. -/
def intervalNanos (q : Quantity) : UInt64 :=
  .ofNat (Duration.nanos q.interval)

end Quantity

end SlotTransport.Statistics
