import MicroBench.Fault

namespace MicroBench.Fibonacci

/-- Sums from here on do not fit into a machine word. -/
def wordLimit : Nat := 1 <<< 64

/-- Plain double recursion, exponential on purpose. -/
def naive : Nat → Except Fault Nat
  | 0 => .ok 0
  | 1 => .ok 1
  | n + 2 =>
    match naive (n + 1) with
    | .error fault => .error fault
    | .ok a =>
      match naive n with
      | .error fault => .error fault
      | .ok b => if a + b < wordLimit then .ok (a + b) else .error .additionOverflow

end MicroBench.Fibonacci
