import MicroBench.Survey
import MicroBench.Timed

namespace MicroBench

/-- What a program prints as its result, two lines. -/
inductive Report where
  | flips (checksum : Int) (size maxFlips : Nat)
  | fibonacci (value : Nat) (seconds : String)
  deriving DecidableEq, Repr

namespace Report

def ofTally (size : Nat) (t : Tally) : Report := flips t.checksum size t.maxFlips

def ofTimed (dial : Elapsed → String) (t : Timed Nat) : Report :=
  fibonacci t.value (dial t.elapsed)

def lines : Report → List String
  | flips checksum size maxFlips =>
    [s!"{checksum}\n", s!"fannkuchen({size}) = {maxFlips}\n"]
  | fibonacci value seconds => [s!"{value}\n", s!"elapsed: {seconds}\n"]

def text (r : Report) : String := String.join r.lines

/-- The bytes of each line. They are handed on a line at a time. -/
def lineBytes (r : Report) : List (List UInt8) :=
  r.lines.map fun l ↦ l.toList.flatMap String.utf8EncodeChar

def bytes (r : Report) : List UInt8 := r.lineBytes.flatten

end Report

end MicroBench
