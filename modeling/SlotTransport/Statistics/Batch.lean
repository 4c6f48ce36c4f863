/-
Batches of samples and what is computed from them. A batch keeps running
figures, not the samples; `Batch.ofSamples` says what the figures are.
-/
import SlotTransport.Statistics.Duration

namespace SlotTransport.Statistics

/-- The smaller of two numbers; one that is not a number gives way. -/
def least (a b : Float) : Float :=
  if a.isNaN then b else if b < a then b else a

/-- The larger of two numbers; one that is not a number gives way. -/
def greatest (a b : Float) : Float :=
  if a.isNaN then b else if a < b then b else a

def infinity : Float :=
  Float.ofBits 0x7FF0000000000000

/-- Running figures of a batch of samples. -/
structure Batch where
  count : Nat
  sum : Float
  sumOfSquares : Float
  min : Float
  max : Float
  /-- The latest sample, zero before the first. -/
  last : Float

namespace Batch

def empty : Batch where
  count := 0
  sum := 0
  sumOfSquares := 0
  min := infinity
  max := -infinity
  last := 0

def add (batch : Batch) (value : Float) : Batch where
  count := batch.count + 1
  sum := batch.sum + value
  sumOfSquares := batch.sumOfSquares + value * value
  min := least batch.min value
  max := greatest batch.max value
  last := value

/-- The figures of a list of samples, taken in one after another. -/
def ofSamples (samples : List Float) : Batch :=
  samples.foldl add empty

/-- The figures of two batches together, the second one the later. -/
def merge (earlier later : Batch) : Batch where
  count := earlier.count + later.count
  sum := earlier.sum + later.sum
  sumOfSquares := earlier.sumOfSquares + later.sumOfSquares
  min := least earlier.min later.min
  max := greatest earlier.max later.max
  last := if 0 < later.count then later.last else earlier.last

/-- Mean of the samples, zero of none. -/
def average (batch : Batch) : Float :=
  if 0 < batch.count then batch.sum / Duration.toFloat batch.count else 0

/-- Root mean square deviation from the mean, zero of no samples. -/
def deviation (batch : Batch) : Float :=
  if batch.count = 0 then 0
  else
    let n := Duration.toFloat batch.count
    let mean := batch.sum / n
    (greatest (batch.sumOfSquares / n - mean * mean) 0).sqrt

end Batch

/-- An amount per second, zero where no time has passed. -/
def perSecond (amount duration : Float) : Float :=
  if 0 < duration then amount / duration else 0

/-- A batch and the seconds it covers. -/
structure Summary where
  batch : Batch
  duration : Float

namespace Summary

def empty : Summary :=
  ⟨Batch.empty, 0⟩

def sampleRate (summary : Summary) : Float :=
  perSecond (Duration.toFloat summary.batch.count) summary.duration

def valueRate (summary : Summary) : Float :=
  perSecond summary.batch.sum summary.duration

/-- All of `parts` together, in order. -/
def total (parts : List Summary) : Summary :=
  parts.foldl
    (fun acc part => ⟨acc.batch.merge part.batch, acc.duration + part.duration⟩) empty

end Summary

end SlotTransport.Statistics
