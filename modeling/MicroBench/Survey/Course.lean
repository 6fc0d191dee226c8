import MicroBench.Survey

namespace MicroBench

/-- Combines arrangements as `fold` does, but stops after `limit` of them. -/
def Odometer.foldUpTo {β : Type} (visit : β → Odometer → Except Fault β) :
    Nat → β → Odometer → Except Fault β
  | 0, acc, _ => .ok acc
  | limit + 1, acc, s =>
    match visit acc s with
    | .error fault => .error fault
    | .ok acc =>
      match s.advance with
      | (true, t) => foldUpTo visit limit acc t
      | (false, _) => .ok acc

/-- How far a survey has come after `limit` visits, or at its end if it has fewer. -/
def Survey.runUpTo (registers : Registers) (n limit : Nat) : Except Fault Survey :=
  match Odometer.create n with
  | .error fault => .error fault
  | .ok s =>
    (s.foldUpTo (Bench.visit registers) limit { stack := List.replicate n 0 }).map Bench.survey

end MicroBench
