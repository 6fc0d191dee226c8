import MicroBench.Flip
import MicroBench.Odometer.Inspect

namespace MicroBench

/-- An odometer at hand, with copies put aside under names. -/
structure Session where
  current : Odometer
  saved : List (String × Odometer) := []
  deriving DecidableEq, Repr

namespace Session

inductive Command where
  | advance (times : Nat)
  | drain (limit : Nat)
  | current
  | parity
  | flips
  | indented
  | save (slot : String)
  | load (slot : String)
  | create (n : Nat)
  deriving DecidableEq, Repr

inductive Answer where
  | nothing
  | flag (value : Bool)
  | number (value : Nat)
  | order (entries : List Nat)
  | text (value : String)
  deriving DecidableEq, Repr

/-- Steps `times` times, whatever the steps answer, and gives the last answer. -/
def advanceTimes : Nat → Odometer → Answer × Odometer
  | 0, s => (.nothing, s)
  | k + 1, s =>
    let last := (s.after k).advance
    (.flag last.1, last.2)

/-- Steps until a step fails or `limit` more have succeeded, `moved` having done so before. -/
def drainFrom (moved : Nat) : Nat → Odometer → Nat × Odometer
  | 0, s => (moved, s)
  | limit + 1, s =>
    match s.advance with
    | (true, t) => drainFrom (moved + 1) limit t
    | (false, t) => (moved, t)

def perform (session : Session) : Command → Except Fault (Answer × Session)
  | .advance times =>
    let result := advanceTimes times session.current
    .ok (result.1, { session with current := result.2 })
  | .drain limit =>
    let result := drainFrom 0 limit session.current
    .ok (.number result.1, { session with current := result.2 })
  | .current => .ok (.order session.current.order, session)
  | .parity => .ok (.flag session.current.even, session)
  | .flips => (Flip.count .checked session.current.order).map fun flips ↦ (.number flips, session)
  | .indented => .ok (.text session.current.indented, session)
  | .save slot => .ok (.nothing, { session with saved := (slot, session.current) :: session.saved })
  | .load slot =>
    .ok (.nothing, { session with current := (session.saved.lookup slot).getD session.current })
  | .create n => (Odometer.create n).map fun s ↦ (.nothing, { session with current := s })

def performAll (session : Session) : List Command → Except Fault (List (Answer × Odometer))
  | [] => .ok []
  | command :: commands =>
    match session.perform command with
    | .error fault => .error fault
    | .ok (answer, session) =>
      (session.performAll commands).map ((answer, session.current) :: ·)

end Session

end MicroBench
