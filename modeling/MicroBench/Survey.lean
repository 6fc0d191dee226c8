import MicroBench.Console
import MicroBench.Flip
import MicroBench.Odometer

namespace MicroBench

structure Peak where
  flips : Nat
  order : List Nat
  deriving DecidableEq, Repr

structure Survey where
  tally : Tally := .empty
  peaks : List Peak := []
  deriving DecidableEq, Repr

/-- A survey under way. The flips are made on one stack, which each visit leaves as they end. -/
structure Bench where
  survey : Survey := {}
  stack : List Nat
  deriving DecidableEq, Repr

namespace Bench

/-- Lays an arrangement out on the stack, which has to be of its size. -/
def deal (bench : Bench) (order : List Nat) : Except Fault (List Nat) :=
  if order.length = bench.stack.length then .ok order
  else .error (.sizeMismatch order.length bench.stack.length)

/-- Visits one arrangement. One with 0 on top needs no flips: it leaves the sum and the stack
alone. -/
def visit (registers : Registers) (bench : Bench) (s : Odometer) : Except Fault Bench := do
  let survey := bench.survey
  let visited ← registers.increment 64 survey.tally.visited
  match s.order with
  | [] | 0 :: _ =>
    let tally := { survey.tally with visited }
    return { bench with survey := { survey with tally } }
  | order =>
    let (flips, stack) ← (bench.deal order).bind (Flip.settle registers)
    let checksum ← registers.addTerm survey.tally.checksum s.even flips
    return {
      survey := {
        tally := ⟨checksum, max survey.tally.maxFlips flips, visited⟩
        peaks := if survey.tally.maxFlips < flips then survey.peaks ++ [⟨flips, order⟩]
          else survey.peaks }
      stack := stack }

end Bench

namespace Survey

/-- Counts the flips of every arrangement of `0, …, n - 1`. -/
def run (registers : Registers) (n : Nat) : Except Fault Survey :=
  match Odometer.create n with
  | .error fault => .error fault
  | .ok s => (s.fold (Bench.visit registers) { stack := List.replicate n 0 }).map Bench.survey

/-- What a survey has to tell: each peak, and the tally at the end. -/
def messages (n : Nat) (survey : Survey) : List Message :=
  survey.peaks.map (fun p ↦ .peak p.flips p.order) ++ [.visited n survey.tally]

def report {m : Type → Type} [Monad m] [MonadExceptOf Fault m] (registers : Registers)
    (console : Console m) (n : Nat) : m Tally := do
  let survey ← liftExcept (run registers n)
  (survey.messages n).forM console.say
  return survey.tally

end Survey

end MicroBench
