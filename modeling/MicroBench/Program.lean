import MicroBench.CommandLine.Exit
import MicroBench.Fibonacci
import MicroBench.Report

namespace MicroBench

structure ClockFace where
  stamp : String
  duration : Elapsed → String
  seconds : Elapsed → String

namespace ClockFace

def twoDigits (n : Nat) : String := (if n < 10 then "0" else "") ++ toString n

def stampAt (minute second : Nat) : String :=
  "[" ++ twoDigits minute ++ "m " ++ twoDigits second ++ "s]"

end ClockFace

inductive Program where
  | flips
  | fibonacci
  deriving DecidableEq, Repr

namespace Program

open CommandLine (Tool Word)

def tool : Program → Tool
  | flips => ⟨"fannkuch", "Fannkuch-redux permutation flip counter"⟩
  | fibonacci => ⟨"fib", "Naive recursive Fibonacci"⟩

def ofName? (name : String) : Option Program :=
  [flips, fibonacci].find? fun program ↦ program.tool.name == name

def size : Program → Nat
  | flips => 9
  | fibonacci => 35

variable {m : Type → Type} [Monad m] [MonadExceptOf Fault m]

/-- Does the work of a program at a given size and gives its result, in which seconds are shown
by `dial`. -/
def work (console : Console m) (dial : Elapsed → String) (n : Nat) : Program → m Report
  | flips => do
    console.say (.counting n)
    let tally ← Survey.report .checked console n
    return .ofTally n tally
  | fibonacci => do
    console.say (.computing n)
    let timed ← Timed.measure console fun _ ↦ liftExcept (Fibonacci.naive n)
    return .ofTimed dial timed

/-- What a program writes when its clock shows `clock i` at the `i`-th look. Messages go to the
error stream, the result alone to the output. -/
def run (program : Program) (face : ClockFace) (clock : Nat → Elapsed) (words : List Word) :
    Except Fault Exit :=
  match program.tool.parse words with
  | .error exit => .ok exit
  | .ok level =>
    let console := (Recorded.console clock).upTo level
    match (program.work console face.seconds program.size).result with
    | .error fault => .error fault
    | .ok (report, tape) =>
      .ok ⟨0, report.text, String.join (tape.said.map (·.coloured face.stamp face.duration))⟩

end Program

end MicroBench
