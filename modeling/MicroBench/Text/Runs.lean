namespace MicroBench.Text

/-- Whether `n` lies inside a class that is given by the lengths of the runs of numbers that
are, in turn, outside and inside it. -/
def holds : List Nat → Nat → Bool
  | outside :: inside :: runs, n =>
    if n < outside then false
    else if n < outside + inside then true
    else holds runs (n - (outside + inside))
  | _, _ => false

end MicroBench.Text
