namespace MicroBench

/-- Why a computation stops without a value. -/
inductive Fault where
  | outOfRange (index length : Nat)
  | sizeMismatch (source target : Nat)
  | endless (index : Nat)
  | capacity
  | durationOverflow
  | additionOverflow
  | subtractionOverflow
  deriving DecidableEq, Repr

namespace Fault

def message : Fault → String
  | outOfRange index length =>
    s!"range end index {index} out of range for slice of length {length}"
  | sizeMismatch source target =>
    s!"source slice length ({source}) does not match destination slice length ({target})"
  | endless index => s!"entry {index} is in its place and on top: flipping never ends"
  | capacity => "capacity overflow"
  | durationOverflow => "overflow in Duration::new"
  | additionOverflow => "attempt to add with overflow"
  | subtractionOverflow => "attempt to subtract with overflow"

end Fault

end MicroBench
