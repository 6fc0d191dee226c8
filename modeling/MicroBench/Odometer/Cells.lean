import MicroBench.Odometer

namespace MicroBench

/-- An odometer laid out in cells, with all its counters. A step has no result where it would
reach for a cell that is not there or lower a counter that is at 0. -/
structure Cells where
  order : List Nat
  counters : List Nat
  even : Bool
  deriving DecidableEq, Repr

namespace Cells

def create (n : Nat) : Cells := ⟨List.range n, List.range n, true⟩

def ofOdometer (s : Odometer) : Cells := ⟨s.order, s.counters, s.even⟩

def subtract (a b : Nat) : Option Nat := if b ≤ a then some (a - b) else none

def write (xs : List Nat) (i x : Nat) : Option (List Nat) :=
  if i < xs.length then some (xs.set i x) else none

def exchange (xs : List Nat) (i j : Nat) : Option (List Nat) := do
  let x ← xs[i]?
  let y ← xs[j]?
  return (xs.set i y).set j x

/-- Turns the entries down to the position `last`. -/
def turnTo (xs : List Nat) (last : Nat) : Option (List Nat) :=
  if last < xs.length then some (Odometer.turn (last + 1) xs) else none

def lower (s : Cells) (r : Nat) : Option (Bool × Cells) := do
  let c ← s.counters[r]?
  return (true, { s with counters := ← write s.counters r (← subtract c 1) })

/-- Goes over the counters at the given positions and ends with the one at `last`. -/
def pass (last : Nat) (s : Cells) : List Nat → Option (Bool × Cells)
  | [] => do
    if (← s.counters[last]?) = 0 then return (false, s) else s.lower last
  | r :: positions => do
    if (← s.counters[r]?) ≠ 0 then s.lower r
    else
      let counters ← write s.counters r r
      let order ← turnTo s.order (r + 1)
      pass last { s with order, counters } positions

def step (s : Cells) : Option (Bool × Cells) := do
  if s.even then
    if s.order.length < 2 then return (false, s)
    return (true, { s with order := ← exchange s.order 0 1, even := false })
  if s.order.length < 3 then return (false, s)
  let order ← exchange s.order 1 2
  let last ← subtract s.order.length 1
  pass last { s with order, even := true } (List.range' 2 (last - 2))

def steps : Nat → Cells → Option Cells
  | 0, s => some s
  | k + 1, s => do
    let (_, t) ← s.step
    steps k t

end Cells

end MicroBench
