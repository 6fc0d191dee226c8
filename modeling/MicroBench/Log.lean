import MicroBench.Elapsed
import MicroBench.Tally

namespace MicroBench

inductive Level where
  | error
  | warn
  | info
  | debug
  | trace
  deriving DecidableEq, Repr

namespace Level

/-- Later levels let more through. -/
def rank : Level → Nat
  | error => 0
  | warn => 1
  | info => 2
  | debug => 3
  | trace => 4

def name : Level → String
  | error => "ERROR"
  | warn => "WARN"
  | info => "INFO"
  | debug => "DEBUG"
  | trace => "TRACE"

def ofVerbosity : Nat → Level
  | 0 => warn
  | 1 => info
  | 2 => debug
  | _ => trace

end Level

inductive Message where
  | counting (size : Nat)
  | computing (index : Nat)
  | peak (flips : Nat) (order : List Nat)
  | visited (size : Nat) (tally : Tally)
  | finished (elapsed : Elapsed)
  deriving DecidableEq, Repr

namespace Message

def level : Message → Level
  | counting _ | computing _ => .info
  | peak _ _ => .trace
  | visited _ _ | finished _ => .debug

def within (limit : Level) (message : Message) : Bool := message.level.rank ≤ limit.rank

/-- The part of the library or the program that speaks. -/
def target : Message → String
  | counting _ => "fannkuch"
  | computing _ => "fib"
  | peak _ _ | visited _ _ => "numbench::fannkuch"
  | finished _ => "numbench::fib"

/-- The size of the survey in whose course the message falls. -/
def surveySize : Message → Option Nat
  | peak _ order => some order.length
  | visited size _ => some size
  | _ => none

def wording (dial : Elapsed → String) : Message → String
  | counting size => s!"Counting flips over all permutations of {size} elements"
  | computing index => s!"Computing fib({index})"
  | peak flips order =>
    s!"New maximum of {flips} flips at " ++ (Inspect.ofNats order).oneLine
  | visited _ tally =>
    s!"Visited {tally.visited} permutations: checksum {tally.checksum}, " ++
      s!"max flips {tally.maxFlips}"
  | finished elapsed => "Finished after " ++ dial elapsed

/-- A line without colours and time stamp. -/
def plain (dial : Elapsed → String) (m : Message) : String :=
  let span := match m.surveySize with
    | some n => s!"fannkuch\x7bn={n}\x7d: "
    | none => ""
  m.level.name ++ " " ++ span ++ m.target ++ ": " ++ m.wording dial

def escape (code : Nat) : String := s!"\x1b[{code}m"

def levelColour : Level → Nat
  | .error => 31
  | .warn => 33
  | .info => 32
  | .debug => 34
  | .trace => 35

/-- The name of a level on five columns, in its colour. -/
def levelBadge (l : Level) : String :=
  let name := l.name
  escape (levelColour l) ++ String.ofList (List.replicate (5 - name.length) ' ') ++ name ++ escape 0

/-- A line for a terminal, beginning with a time stamp and ended by a line feed. -/
def coloured (stamp : String) (dial : Elapsed → String) (m : Message) : String :=
  let span := match m.surveySize with
    | some n =>
      escape 1 ++ "fannkuch" ++ escape 0 ++ escape 1 ++ "\x7b" ++ escape 0 ++ s!"n={n}" ++
        escape 1 ++ "\x7d" ++ escape 0 ++ ": "
    | none => ""
  escape 2 ++ stamp ++ escape 0 ++ " " ++ levelBadge m.level ++ " " ++ span ++ m.target ++ ": " ++
    m.wording dial ++ "\n"

end Message

end MicroBench
