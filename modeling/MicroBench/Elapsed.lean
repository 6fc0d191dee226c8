import MicroBench.Binary.Shortest
import MicroBench.Fault

namespace MicroBench

structure Elapsed where
  nanoseconds : Nat
  deriving DecidableEq, Repr

namespace Elapsed

def nanosPerSecond : Nat := 1000000000

def secondLimit : Nat := 1 <<< 64

/-- Nanoseconds beyond a second carry into the seconds. -/
def create (seconds nanos : Nat) : Except Fault Elapsed :=
  if seconds + nanos / nanosPerSecond < secondLimit then
    .ok ⟨seconds * nanosPerSecond + nanos⟩
  else .error .durationOverflow

def since (start stop : Elapsed) : Elapsed := ⟨stop.nanoseconds - start.nanoseconds⟩

def wholeSeconds (e : Elapsed) : Nat := e.nanoseconds / nanosPerSecond

def subsecond (e : Elapsed) : Nat := e.nanoseconds % nanosPerSecond

/-- The time in seconds. Whole seconds and fraction are rounded each, then their sum. -/
def seconds (e : Elapsed) : Binary :=
  (Binary.ofNat e.wholeSeconds).add
    ((Binary.ofNat e.subsecond).divide (Binary.ofNat nanosPerSecond))

/-- The exact time, in the largest unit of which there is a whole one. -/
def exact (e : Elapsed) : String :=
  if 0 < e.wholeSeconds then Decimal.positional e.nanoseconds 9 ++ "s"
  else if 1000000 ≤ e.nanoseconds then Decimal.positional e.nanoseconds 6 ++ "ms"
  else if 1000 ≤ e.nanoseconds then Decimal.positional e.nanoseconds 3 ++ "µs"
  else Decimal.positional e.nanoseconds 0 ++ "ns"

end Elapsed

end MicroBench
