import MicroBench.Inspect

namespace MicroBench

/-- What is kept of the flips counted so far: their sum with signs, the largest count, and the
number of arrangements visited. -/
structure Tally where
  checksum : Int := 0
  maxFlips : Nat := 0
  visited : Nat := 0
  deriving DecidableEq, Repr

namespace Tally

def empty : Tally := {}

/-- Counts an arrangement and its flips, which are subtracted on odd turns. -/
def add (t : Tally) (even : Bool) (flips : Nat) : Tally where
  checksum := if even then t.checksum + flips else t.checksum - flips
  maxFlips := max t.maxFlips flips
  visited := t.visited + 1

def pair (t : Tally) : Int × Nat := (t.checksum, t.maxFlips)

def fields (t : Tally) : List (String × Inspect) :=
  [("checksum", .ofInt t.checksum), ("max_flips", .ofNat t.maxFlips),
    ("permutations", .ofNat t.visited)]

def oneLine (t : Tally) : String := Inspect.recordOneLine "Fannkuch" t.fields

def indented (t : Tally) : String := Inspect.recordIndented "Fannkuch" t.fields

end Tally

end MicroBench
